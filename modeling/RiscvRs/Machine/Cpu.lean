import RiscvRs.Machine.Inst
import RiscvRs.Machine.Memory

/-! The processor state of `cpu.rs` and its register files. -/

namespace RiscvRs

open Effects Prog

def nanF32 : U32 := 0x7FC00000
def nanF64 : U64 := 0xFFFFFFFF7FC00000

def mstatus : U16 := 0x300
def mepc : U16 := 0x341
def mcause : U16 := 0x342
def mtvec : U16 := 0x305

def mstatusMie : U32 := 1 <<< 3
def mstatusMpie : U32 := 1 <<< 7

def regA0 : Fin 32 := 10
def regA1 : Fin 32 := 11
def regA2 : Fin 32 := 12
def regA3 : Fin 32 := 13
def regA7 : Fin 32 := 17

/-- Exit code of a guest that stops on a trap. -/
def trapExitCode : U32 := 134

/-- The control and status registers, indexed by their 12-bit number. -/
structure CsrFile where
  values : Fin 4096 → U32

namespace CsrFile

def new : CsrFile := ⟨fun _ => 0⟩

/-- The mask that removes the bounds check. -/
def slot (num : U16) : Fin 4096 :=
  ⟨(num &&& 0xFFF).toNat, Nat.lt_succ_of_le (mask_lt _ _)⟩

def get (csrs : CsrFile) (num : U16) : U32 := csrs.values (slot num)

def set (csrs : CsrFile) (num : U16) (val : U32) : CsrFile :=
  ⟨Function.update csrs.values (slot num) val⟩

theorem get_set (csrs : CsrFile) (num : U16) (val : U32) : (csrs.set num val).get num = val := by
  simp [get, set]

theorem get_set_of_ne (csrs : CsrFile) {num other : U16} (apart : slot other ≠ slot num) (val : U32) :
    (csrs.set num val).get other = csrs.get other := by
  simp [get, set, apart]

theorem set_get (csrs : CsrFile) (num : U16) : csrs.set num (csrs.get num) = csrs := by
  simp [get, set]

/-- Numbers of twelve bits have slots of their own. -/
theorem slot_inj {num other : U16} (small : num.toNat < 4096) (small' : other.toNat < 4096)
    (same : slot num = slot other) : num = other := by
  have values := congrArg Fin.val same
  simp only [slot, BitVec.toNat_and] at values
  apply BitVec.eq_of_toNat_eq
  have low : num.toNat &&& 4095 = num.toNat % 2 ^ 12 := Nat.and_two_pow_sub_one_eq_mod num.toNat 12
  have low' : other.toNat &&& 4095 = other.toNat % 2 ^ 12 :=
    Nat.and_two_pow_sub_one_eq_mod other.toNat 12
  simp only [BitVec.ofNat_eq_ofNat, BitVec.reduceToNat, low, low'] at values
  omega

end CsrFile

/-- The errors an instruction can raise. `Cpu` never builds the remaining
variants of the source's enumeration. -/
inductive CpuError where
  | illegalInstruction (pc raw : U32)
  | unknownOpcode (pc : U32) (opcode : U8)
  | unknownSyscall (sysNum a0 a1 a2 a3 : U32)
deriving DecidableEq, Repr

/-- The `Display` text of an error. -/
def CpuError.text : CpuError → String
  | illegalInstruction pc raw =>
    "Illegal instruction " ++ hexPadded 8 raw.toNat ++ " at PC " ++ hexPadded 8 pc.toNat
  | unknownOpcode pc opcode =>
    "Unknown opcode " ++ hexPadded 2 opcode.toNat ++ " at PC " ++ hexPadded 8 pc.toNat
  | unknownSyscall sysNum a0 a1 a2 a3 =>
    "Unknown syscall " ++ toString sysNum.toNat ++ " (a0: " ++ hexPadded 1 a0.toNat ++
      ", a1: " ++ hexPadded 1 a1.toNat ++ ", a2: " ++ hexPadded 1 a2.toNat ++
      ", a3: " ++ hexPadded 1 a3.toNat ++ ")"

/-- An `f64` register is its bit pattern; `from_bits` and `to_bits` are then the identity.
`stepCounter` counts without the bound of a `u64`: what is proved of the counts of a slice and of a
session holds of the counter below `2 ^ 64`, and modulo `2 ^ 64` without overflow checks. -/
structure Cpu where
  regs : Fin 32 → U32
  fregs : Fin 32 → U64
  pc : U32
  fcsr : U32
  csrs : CsrFile
  isHalted : Bool
  exitCode : U32
  debugEnabled : Bool
  breakpoints : Finset U32
  stepCounter : Nat
  hasCustomSyscalls : Bool
  trapped : Bool
  resumePastBreakpoint : Option U32

namespace Cpu

def new : Cpu where
  regs := Function.update (fun _ => 0) 2 0x7FFFFFC
  fregs := fun _ => 0
  pc := 0
  fcsr := 0
  csrs := CsrFile.new
  isHalted := false
  exitCode := 0
  debugEnabled := false
  breakpoints := ∅
  stepCounter := 0
  hasCustomSyscalls := false
  trapped := false
  resumePastBreakpoint := none

def readReg (cpu : Cpu) (reg : Fin 32) : U32 := if reg = 0 then 0 else cpu.regs reg

def writeReg (cpu : Cpu) (reg : Fin 32) (val : U32) : Cpu :=
  if reg ≠ 0 then { cpu with regs := Function.update cpu.regs reg val } else cpu

def setFreg (cpu : Cpu) (reg : Fin 32) (bits : U64) : Cpu :=
  { cpu with fregs := Function.update cpu.fregs reg bits }

/-- NaN boxing: ones above the single-precision pattern. -/
def boxed (bits : U32) : U64 := 0xFFFFFFFF00000000 ||| bits.setWidth 64

def readF32 (cpu : Cpu) (reg : Fin 32) : U32 :=
  let bits := cpu.fregs reg
  if bits >>> 32 = 0xFFFFFFFF then bits.setWidth 32 else nanF32

def writeF32 (cpu : Cpu) (reg : Fin 32) (val : U32) : Cpu :=
  cpu.setFreg reg (if Ieee.single.isNan val.toNat then nanF64 else boxed val)

def readF64 (cpu : Cpu) (reg : Fin 32) : U64 := cpu.fregs reg

def writeF64 (cpu : Cpu) (reg : Fin 32) (val : U64) : Cpu :=
  cpu.setFreg reg (if Ieee.double.isNan val.toNat then 0x7FF8000000000000 else val)

def interruptsEnabled (cpu : Cpu) : Bool := cpu.csrs.get mstatus &&& mstatusMie != 0

/-- Save the interrupted `pc` and the enable bit, then vector to `mtvec`. -/
def handleInterrupt (cpu : Cpu) (irq : U32) : Cpu :=
  let csrs := cpu.csrs.set mepc cpu.pc
  let csrs := csrs.set mcause (0x80000000 ||| irq)
  let status := csrs.get mstatus
  let newStatus := status &&& ~~~(mstatusMie ||| mstatusMpie)
  let newStatus := if status &&& mstatusMie ≠ 0 then newStatus ||| mstatusMpie else newStatus
  let csrs := csrs.set mstatus newStatus
  let vector := csrs.get mtvec
  { cpu with csrs := csrs, pc := if vector ≠ 0 then vector else cpu.pc }

end Cpu

/-- Processor, memory and host side of one simulator. -/
structure Machine where
  cpu : Cpu
  bus : Bus

def Machine.new : Machine where
  cpu := Cpu.new
  bus := { mem := Memory.new, world := ⟨[], []⟩ }

/-- An instruction of the executor. -/
abbrev Exec := Prog Machine CpuError

section

variable {ε α : Type}

def getCpu : Prog Machine ε Cpu := do
  return (← get).cpu

def modifyCpu (f : Cpu → Cpu) : Prog Machine ε Unit :=
  modify fun m => { m with cpu := f m.cpu }

/-- Memory and host accesses do not see the processor. -/
def onBus (x : Prog Bus ε α) : Prog Machine ε α :=
  zoom Machine.bus (fun bus m => { m with bus := bus }) x

@[simp] theorem run_getCpu (m : Machine) : (getCpu : Prog Machine ε Cpu).run m = .ok m.cpu m := rfl

@[simp] theorem run_modifyCpu (f : Cpu → Cpu) (m : Machine) :
    (modifyCpu f : Prog Machine ε Unit).run m = .ok () { m with cpu := f m.cpu } := rfl

theorem run_onBus {x : Prog Bus ε α} {m : Machine} {a : α} {bus : Bus}
    (run : x.run m.bus = .ok a bus) :
    (onBus x).run m = .ok a { m with bus := bus } := by
  simp [onBus, run]

theorem onBus_bind {β : Type} (x : Prog Bus ε α) (f : α → Prog Bus ε β) :
    (onBus x >>= fun a => onBus (f a)) = onBus (x >>= f) := by
  ext m
  simp only [onBus, run_bind, run_zoom]
  cases x.run m.bus with
  | ok a bus => rfl
  | err e bus => rfl
  | panic => rfl
  | exhausted => rfl

end

end RiscvRs
