import Mathlib

/-! RV32I over mathematical integers: the field and immediate layouts of the
manual, the legal encodings, and what each instruction does. -/

namespace Isa

/-- Bits `hi` down to `lo` of a word. -/
def bits (word hi lo : Nat) : Nat := word / 2 ^ lo % 2 ^ (hi - lo + 1)

/-- The two's complement reading of an `n`-bit number. -/
def signed (n x : Nat) : Int := if x < 2 ^ (n - 1) then x else x - 2 ^ n

/-- An integer modulo the word size. -/
def wrap (z : Int) : Nat := (z % 2 ^ 32).toNat

section Fields

variable (word : Nat)

def reg (lo : Nat) : Fin 32 := ⟨bits word (lo + 4) lo, by
  rw [bits, Nat.add_sub_cancel_left]
  exact Nat.mod_lt _ (by decide)⟩

def opcode : Nat := bits word 6 0
def rd : Fin 32 := reg word 7
def funct3 : Nat := bits word 14 12
def rs1 : Fin 32 := reg word 15
def rs2 : Fin 32 := reg word 20
def funct7 : Nat := bits word 31 25

def immI : Int := signed 12 (bits word 31 20)

def immS : Int := signed 12 (bits word 31 25 * 2 ^ 5 + bits word 11 7)

def immB : Int :=
  signed 13 (bits word 31 31 * 2 ^ 12 + bits word 7 7 * 2 ^ 11 + bits word 30 25 * 2 ^ 5 +
    bits word 11 8 * 2)

def immU : Int := (bits word 31 12 * 2 ^ 12 : Nat)

def immJ : Int :=
  signed 21 (bits word 31 31 * 2 ^ 20 + bits word 19 12 * 2 ^ 12 + bits word 20 20 * 2 ^ 11 +
    bits word 30 21 * 2)

/-- The shift amount of the immediate shifts. -/
def shamt : Int := (bits word 24 20 : Nat)

end Fields

inductive Cond where
  | eq | ne | lt | ge | ltu | geu
deriving DecidableEq, Repr

inductive Alu where
  | add | sub | sll | slt | sltu | xor | srl | sra | or | and
deriving DecidableEq, Repr

inductive Size where
  | byte | half | word
deriving DecidableEq, Repr

def Size.bytes : Size → Nat
  | byte => 1
  | half => 2
  | word => 4

/-- `zero` marks the loads that extend with zeros. -/
inductive Inst where
  | lui (rd : Fin 32) (imm : Int)
  | auipc (rd : Fin 32) (imm : Int)
  | jal (rd : Fin 32) (imm : Int)
  | jalr (rd rs1 : Fin 32) (imm : Int)
  | branch (cond : Cond) (rs1 rs2 : Fin 32) (imm : Int)
  | load (size : Size) (zero : Bool) (rd rs1 : Fin 32) (imm : Int)
  | store (size : Size) (rs1 rs2 : Fin 32) (imm : Int)
  | opImm (op : Alu) (rd rs1 : Fin 32) (imm : Int)
  | op (op : Alu) (rd rs1 rs2 : Fin 32)
  | fence
deriving DecidableEq, Repr

/-- The six branch conditions by `funct3`. -/
def cond? : Nat → Option Cond
  | 0 => some .eq
  | 1 => some .ne
  | 4 => some .lt
  | 5 => some .ge
  | 6 => some .ltu
  | 7 => some .geu
  | _ => none

/-- The five loads by `funct3`. -/
def load? : Nat → Option (Size × Bool)
  | 0 => some (.byte, false)
  | 1 => some (.half, false)
  | 2 => some (.word, false)
  | 4 => some (.byte, true)
  | 5 => some (.half, true)
  | _ => none

/-- The three stores by `funct3`. -/
def store? : Nat → Option Size
  | 0 => some .byte
  | 1 => some .half
  | 2 => some .word
  | _ => none

/-- The immediate forms whose second operand is the whole I-immediate. -/
def immOp? : Nat → Option Alu
  | 0 => some .add
  | 2 => some .slt
  | 3 => some .sltu
  | 4 => some .xor
  | 6 => some .or
  | 7 => some .and
  | _ => none

/-- The immediate shifts by `funct7` and `funct3`. -/
def shift? : Nat → Nat → Option Alu
  | 0x00, 1 => some .sll
  | 0x00, 5 => some .srl
  | 0x20, 5 => some .sra
  | _, _ => none

/-- The register forms by `funct7` and `funct3`. -/
def op? : Nat → Nat → Option Alu
  | 0x00, 0 => some .add
  | 0x20, 0 => some .sub
  | 0x00, 1 => some .sll
  | 0x00, 2 => some .slt
  | 0x00, 3 => some .sltu
  | 0x00, 4 => some .xor
  | 0x00, 5 => some .srl
  | 0x20, 5 => some .sra
  | 0x00, 6 => some .or
  | 0x00, 7 => some .and
  | _, _ => none

/-- The instruction a word encodes; `none` for words that are no legal RV32I encoding. -/
def decode (word : Nat) : Option Inst :=
  match opcode word with
  | 0x37 => some (.lui (rd word) (immU word))
  | 0x17 => some (.auipc (rd word) (immU word))
  | 0x6F => some (.jal (rd word) (immJ word))
  | 0x67 => if funct3 word = 0 then some (.jalr (rd word) (rs1 word) (immI word)) else none
  | 0x63 => (cond? (funct3 word)).map fun cond => .branch cond (rs1 word) (rs2 word) (immB word)
  | 0x03 =>
    (load? (funct3 word)).map fun kind => .load kind.1 kind.2 (rd word) (rs1 word) (immI word)
  | 0x23 => (store? (funct3 word)).map fun size => .store size (rs1 word) (rs2 word) (immS word)
  | 0x13 =>
    ((immOp? (funct3 word)).map fun op => .opImm op (rd word) (rs1 word) (immI word)).or
      ((shift? (funct7 word) (funct3 word)).map fun op => .opImm op (rd word) (rs1 word) (shamt word))
  | 0x33 => (op? (funct7 word) (funct3 word)).map fun op => .op op (rd word) (rs1 word) (rs2 word)
  | 0x0F => if funct3 word = 0 then some .fence else none
  | _ => none

/-- The unprivileged state. Addresses are read modulo the word size. -/
@[ext] structure State where
  x : Fin 32 → Nat
  pc : Nat
  mem : Nat → Nat

def Cond.holds (cond : Cond) (a b : Nat) : Bool :=
  match cond with
  | eq => a == b
  | ne => a != b
  | lt => signed 32 a < signed 32 b
  | ge => signed 32 b ≤ signed 32 a
  | ltu => a < b
  | geu => b ≤ a

/-- The result before it is cut to a word. Shifts use the low five bits of `b`. -/
def Alu.eval (op : Alu) (a b : Nat) : Int :=
  match op with
  | add => a + b
  | sub => a - b
  | sll => a * 2 ^ (b % 32)
  | slt => if signed 32 a < signed 32 b then 1 else 0
  | sltu => if a < b then 1 else 0
  | xor => (a ^^^ b : Nat)
  | srl => (a / 2 ^ (b % 32) : Nat)
  | sra => signed 32 a / 2 ^ (b % 32)
  | or => (a ||| b : Nat)
  | and => (a &&& b : Nat)

/-- The little-endian number in the `n` bytes from `addr` on. -/
def bytesAt (mem : Nat → Nat) (addr : Nat) : Nat → Nat
  | 0 => 0
  | n + 1 => mem addr + 256 * bytesAt mem (addr + 1) n

/-- Memory with the low `n` bytes of a value at `addr`. -/
def withBytes (mem : Nat → Nat) (addr n value : Nat) : Nat → Nat := fun a =>
  let i := wrap (a - addr)
  if i < n then value / 256 ^ i % 256 else mem a

namespace State

/-- Writes to `x0` are dropped. -/
def set (s : State) (rd : Fin 32) (value : Int) : State :=
  { s with x := if rd.val = 0 then s.x else Function.update s.x rd (wrap value) }

def goto (s : State) (target : Int) : State := { s with pc := wrap target }

end State

/-- Address and length of an instruction's data access. -/
def Inst.access (s : State) : Inst → Option (Nat × Nat)
  | load size _ _ rs1 imm => some (wrap (s.x rs1 + imm), size.bytes)
  | store size rs1 _ imm => some (wrap (s.x rs1 + imm), size.bytes)
  | _ => none

/-- One instruction. -/
def exec (s : State) : Inst → State
  | .lui rd imm => (s.set rd imm).goto (s.pc + 4)
  | .auipc rd imm => (s.set rd (s.pc + imm)).goto (s.pc + 4)
  | .jal rd imm => (s.set rd (s.pc + 4)).goto (s.pc + imm)
  | .jalr rd rs1 imm => (s.set rd (s.pc + 4)).goto (wrap (s.x rs1 + imm) / 2 * 2 : Nat)
  | .branch cond rs1 rs2 imm =>
    s.goto (if cond.holds (s.x rs1) (s.x rs2) then s.pc + imm else s.pc + 4)
  | .load size zero rd rs1 imm =>
    let value := bytesAt s.mem (wrap (s.x rs1 + imm)) size.bytes
    (s.set rd (if zero then (value : Int) else signed (8 * size.bytes) value)).goto (s.pc + 4)
  | .store size rs1 rs2 imm =>
    { s with mem := withBytes s.mem (wrap (s.x rs1 + imm)) size.bytes (s.x rs2) }.goto (s.pc + 4)
  | .opImm op rd rs1 imm => (s.set rd (op.eval (s.x rs1) (wrap imm))).goto (s.pc + 4)
  | .op op rd rs1 rs2 => (s.set rd (op.eval (s.x rs1) (s.x rs2))).goto (s.pc + 4)
  | .fence => s.goto (s.pc + 4)

end Isa
