import RiscvRs.Isa.Rv32i
import RiscvRs.Isa.Rv32c
import RiscvRs.Lib.Simulation

/-! A reference machine over the unprivileged state: the base instructions with the M
extension, the atomic read-modify-writes and the compressed forms, and the calls that a
program makes to its environment. -/

namespace Isa

inductive MulDiv where
  | mul | mulh | mulhsu | mulhu | div | divu | rem | remu
deriving DecidableEq, Repr

/-- The result before it is cut to a word. -/
def MulDiv.eval (op : MulDiv) (a b : Nat) : Int :=
  match op with
  | mul => a * b
  | mulh => signed 32 a * signed 32 b / 2 ^ 32
  | mulhsu => signed 32 a * b / 2 ^ 32
  | mulhu => (a * b / 2 ^ 32 : Nat)
  | div => if b = 0 then -1 else (signed 32 a).tdiv (signed 32 b)
  | divu => if b = 0 then -1 else (a / b : Nat)
  | rem => if b = 0 then a else (signed 32 a).tmod (signed 32 b)
  | remu => if b = 0 then a else (a % b : Nat)

inductive Atomic where
  | swap | add | xor | and | or | min | max | minu | maxu
deriving DecidableEq, Repr

/-- What becomes of the word in memory. -/
def Atomic.eval (op : Atomic) (old src : Nat) : Int :=
  match op with
  | swap => src
  | add => old + src
  | xor => (old ^^^ src : Nat)
  | and => (old &&& src : Nat)
  | or => (old ||| src : Nat)
  | min => if signed 32 old ≤ signed 32 src then old else src
  | max => if signed 32 src ≤ signed 32 old then old else src
  | minu => if old ≤ src then old else src
  | maxu => if src ≤ old then old else src

inductive Instr where
  | base (inst : Inst)
  | mulDiv (op : MulDiv) (rd rs1 rs2 : Fin 32)
  | atomic (op : Atomic) (rd rs1 rs2 : Fin 32)
deriving DecidableEq, Repr

/-- The M extension by `funct3`. -/
def mulDiv? : Nat → Option MulDiv
  | 0 => some .mul
  | 1 => some .mulh
  | 2 => some .mulhsu
  | 3 => some .mulhu
  | 4 => some .div
  | 5 => some .divu
  | 6 => some .rem
  | 7 => some .remu
  | _ => none

/-- The read-modify-writes by `funct5`. -/
def atomic? : Nat → Option Atomic
  | 0x01 => some .swap
  | 0x00 => some .add
  | 0x04 => some .xor
  | 0x0C => some .and
  | 0x08 => some .or
  | 0x10 => some .min
  | 0x14 => some .max
  | 0x18 => some .minu
  | 0x1C => some .maxu
  | _ => none

def decodeMulDiv (word : Nat) : Option Instr :=
  if opcode word = 0x33 ∧ funct7 word = 1 then
    (mulDiv? (funct3 word)).map fun op => .mulDiv op (rd word) (rs1 word) (rs2 word)
  else none

def decodeAtomic (word : Nat) : Option Instr :=
  if opcode word = 0x2F ∧ funct3 word = 2 then
    (atomic? (bits word 31 27)).map fun op => .atomic op (rd word) (rs1 word) (rs2 word)
  else none

def decodeWord (word : Nat) : Option Instr :=
  ((decode word).map .base).or ((decodeMulDiv word).or (decodeAtomic word))

/-- A load of the upper immediate into `x0`. As a compressed word it is a hint. -/
def Inst.isLuiHint : Inst → Bool
  | lui rd _ => rd.val = 0
  | _ => false

/-- A compressed word by its expansion. `C.LUI` hints are left out: implementations differ on them. -/
def decodeHalf (half : Nat) : Option Inst :=
  ((expand (BitVec.ofNat 16 half)).bind fun word => decode word.toNat).filter fun inst =>
    !inst.isLuiHint

/-- A base instruction of `size` bytes. -/
def execSized (size : Nat) (s : State) : Inst → State
  | .lui rd imm => (s.set rd imm).goto (s.pc + size)
  | .auipc rd imm => (s.set rd (s.pc + imm)).goto (s.pc + size)
  | .jal rd imm => (s.set rd (s.pc + size)).goto (s.pc + imm)
  | .jalr rd rs1 imm => (s.set rd (s.pc + size)).goto (wrap (s.x rs1 + imm) / 2 * 2 : Nat)
  | .branch cond rs1 rs2 imm =>
    s.goto (if cond.holds (s.x rs1) (s.x rs2) then s.pc + imm else s.pc + size)
  | .load size' zero rd rs1 imm =>
    let value := bytesAt s.mem (wrap (s.x rs1 + imm)) size'.bytes
    (s.set rd (if zero then (value : Int) else signed (8 * size'.bytes) value)).goto (s.pc + size)
  | .store size' rs1 rs2 imm =>
    { s with mem := withBytes s.mem (wrap (s.x rs1 + imm)) size'.bytes (s.x rs2) }.goto (s.pc + size)
  | .opImm op rd rs1 imm => (s.set rd (op.eval (s.x rs1) (wrap imm))).goto (s.pc + size)
  | .op op rd rs1 rs2 => (s.set rd (op.eval (s.x rs1) (s.x rs2))).goto (s.pc + size)
  | .fence => s.goto (s.pc + size)

theorem execSized_four (s : State) (inst : Inst) : execSized 4 s inst = exec s inst := by
  cases inst <;> rfl

namespace Instr

def exec (size : Nat) (s : State) : Instr → State
  | base inst => execSized size s inst
  | mulDiv op rd rs1 rs2 => (s.set rd (op.eval (s.x rs1) (s.x rs2))).goto (s.pc + size)
  | atomic op rd rs1 rs2 =>
    let old := bytesAt s.mem (s.x rs1) 4
    let value := wrap (op.eval old (s.x rs2))
    (State.set { s with mem := withBytes s.mem (s.x rs1) 4 value } rd old).goto (s.pc + size)

def access (s : State) : Instr → Option (Nat × Nat)
  | base inst => inst.access s
  | mulDiv .. => none
  | atomic _ _ rs1 _ => some (s.x rs1, 4)

/-- The data access ends within a memory of `limit` bytes. -/
def inside (limit : Nat) (s : State) (inst : Instr) : Bool :=
  (inst.access s).all fun access => access.1 + access.2 ≤ limit

end Instr

/-- A program between its instructions. -/
@[ext] structure Process where
  core : State
  /-- Stream and bytes of each write, the last one first. -/
  writes : List (Nat × List Nat)
  /-- Where the break may not go below. -/
  heap : Nat
  brk : Nat
  halted : Bool
  exitCode : Nat

inductive Call where
  | exit | write | brk | ignored
deriving DecidableEq, Repr

/-- The calls by their number in `a7`. -/
def call? : Nat → Option Call
  | 93 | 10 | 1 => some .exit
  | 64 | 4 => some .write
  | 214 | 45 => some .brk
  | 57 | 62 | 80 => some .ignored
  | _ => none

/-- The `n` bytes from `addr` on. -/
def byteList (mem : Nat → Nat) (addr n : Nat) : List Nat :=
  (List.range n).map fun i => mem (addr + i)

namespace Process

variable (limit : Nat) (p : Process)

/-- Stop with an exit code. -/
def stop (size code : Nat) : Process :=
  { p with core := p.core.goto (p.core.pc + size), halted := true, exitCode := code }

/-- Answer a call and go on. -/
def answer (value : Int) : Process := { p with core := (p.core.set 10 value).goto (p.core.pc + 4) }

/-- The break after a request: zero and what lies outside of the heap only ask for it. -/
def moved (request : Nat) : Nat :=
  if request ≠ 0 ∧ p.heap ≤ request ∧ request < limit then request else p.brk

/-- `ECALL`. -/
def call : Option Process :=
  let x := p.core.x
  match call? (x 17) with
  | some .exit => some (p.stop 4 (x 10))
  | some .write =>
    if (x 10 = 1 ∨ x 10 = 2) ∧ x 12 ≤ 2 ^ 24 ∧ x 11 + x 12 ≤ limit then
      some { p.answer (x 12) with writes := (x 10, byteList p.core.mem (x 11) (x 12)) :: p.writes }
    else none
  | some .brk => some { p.answer (p.moved limit (x 10)) with brk := p.moved limit (x 10) }
  | some .ignored => some (p.answer 0)
  | none => none

def execute (size : Nat) (inst : Instr) : Option Process :=
  if inst.inside limit p.core then some { p with core := inst.exec size p.core } else none

/-- One instruction; `none` where the reference has no meaning for it. -/
def step : Option Process :=
  let half := bytesAt p.core.mem p.core.pc 2
  if p.halted then none
  else if half % 4 = 3 then
    let word := bytesAt p.core.mem p.core.pc 4
    if limit < p.core.pc + 4 then none
    else if word = 0x00000073 then p.call limit
    else if word = 0x00100073 then some (p.stop 4 p.exitCode)
    else (decodeWord word).bind (p.execute limit 4)
  else
    if limit < p.core.pc + 2 then none
    else if half = 0x9002 then some (p.stop 2 p.exitCode)
    else (decodeHalf half).bind fun inst => p.execute limit 2 (.base inst)

/-- `n` instructions. -/
def run (n : Nat) : Option Process := Steps.after (step limit) n p

theorem step_halted {p : Process} (halted : p.halted = true) : p.step limit = none := by
  rw [step, halted]
  rfl

end Process

end Isa
