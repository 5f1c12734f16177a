import RiscvRs.Exec.Boxing
import RiscvRs.Lib.Order

/-! Comparisons and selections by value: `FLE`, `FLT`, `FEQ`, `FMIN` and `FMAX` order the numbers
in their sources as the values they stand for. -/

namespace RiscvRs

open Effects Prog Ieee

/-- The comparisons of an `OP_FP` word. -/
inductive Comparison where
  | le | lt | eq
deriving DecidableEq, Repr

namespace Comparison

def funct3 : Comparison → U8
  | le => 0
  | lt => 1
  | eq => 2

def Holds : Comparison → WithBot (WithTop ℚ) → WithBot (WithTop ℚ) → Prop
  | le, a, b => a ≤ b
  | lt, a, b => a < b
  | eq, a, b => a = b

end Comparison

/-- The number in a source, if there is one. -/
def Precision.number (precision : Precision) (cpu : Cpu) (r : Fin 32) :
    Option (WithBot (WithTop ℚ)) :=
  (precision.datum? cpu r).bind precision.format.number

/-- The bits the executor takes a source for. -/
def Precision.bits (precision : Precision) (cpu : Cpu) (r : Fin 32) : Nat :=
  match precision with
  | single => (cpu.readF32 r).toNat
  | double => (cpu.readF64 r).toNat

section Sources

theorem Precision.wide (precision : Precision) : 0 < precision.format.expBits := by
  cases precision <;> decide

theorem number_eq (precision : Precision) (cpu : Cpu) (r : Fin 32) :
    precision.number cpu r = precision.format.number (precision.bits cpu r) := by
  cases precision with
  | single =>
    rw [Precision.number, Precision.bits, readF32_toNat]
    cases Precision.single.datum? cpu r with
    | none => exact (if_pos nan_singles).symm
    | some bits => rfl
  | double => rfl

/-- A comparison of bit patterns is one of the numbers they stand for. -/
theorem compareFp_holds (precision : Precision) (comparison : Comparison) (cpu : Cpu)
    (r s : Fin 32) :
    ∃ holds : Bool, compareFp precision.format comparison.funct3 (precision.bits cpu r)
      (precision.bits cpu s) =
        some (flag holds) ∧
      (holds = true ↔ ∃ a ∈ precision.number cpu r, ∃ b ∈ precision.number cpu s,
        comparison.Holds a b) := by
  have numbers (holds : WithBot (WithTop ℚ) → WithBot (WithTop ℚ) → Prop) :
      (∃ a ∈ precision.number cpu r, ∃ b ∈ precision.number cpu s, holds a b) ↔
        precision.format.isNan (precision.bits cpu r) = false ∧
        precision.format.isNan (precision.bits cpu s) = false ∧
        holds (precision.format.extended (precision.bits cpu r))
          (precision.format.extended (precision.bits cpu s)) := by
    rw [number_eq, number_eq, Format.number, Format.number]
    cases precision.format.isNan (precision.bits cpu r) <;> cases precision.format.isNan
      (precision.bits cpu s) <;> simp
  cases comparison with
  | le => exact ⟨_, rfl, (Format.le_iff precision.wide).trans (numbers _).symm⟩
  | lt => exact ⟨_, rfl, (Format.lt_iff precision.wide).trans (numbers _).symm⟩
  | eq => exact ⟨_, rfl, (Format.eq_iff precision.wide).trans (numbers _).symm⟩

end Sources

section Comparisons

variable {env : Env} {raw : U32} {m : Machine} {inst : DecodedInst32}

theorem opFpOp_compare (cpu : Cpu) (next : U32) (precision : Precision)
    (compare : inst.funct7 = precision.funct7 0x14) :
    inst.opFpOp env cpu next =
      .ofResult inst.raw (compareFp precision.format inst.funct3 (precision.bits cpu inst.rs1)
        (precision.bits cpu inst.rs2)) fun res => .write inst.rd res next := by
  cases precision with
  | single =>
    have width : inst.funct7 &&& 0x3 = 0 := by rw [compare]; rfl
    have operation : inst.funct7 >>> 2 = 0x14 := by rw [compare]; rfl
    rw [DecodedInst32.opFpOp, if_pos width, DecodedInst32.opFpSOp, operation]
    rfl
  | double =>
    have width : inst.funct7 &&& 0x3 = 1 := by rw [compare]; rfl
    have other : inst.funct7 &&& 0x3 ≠ 0 := by rw [width]; decide
    have operation : inst.funct7 >>> 2 = 0x14 := by rw [compare]; rfl
    rw [DecodedInst32.opFpOp, if_neg other, if_pos width, DecodedInst32.opFpDOp, operation]
    rfl

/-- `FLE`, `FLT` and `FEQ` of either width write 1 exactly where both sources are numbers and their
values, infinities at the ends and both zeros alike, compare so; they write 0 elsewhere and change
nothing else. -/
theorem fcompare_by_value (env : Env) (raw : U32) (m : Machine) (inst : DecodedInst32)
    (precision : Precision)
    (comparison : Comparison) (decoded : DecodedInst32.decode raw = inst)
    (major : inst.opcode = Opcode.opFp.bits)
    (compare : inst.funct7 = precision.funct7 0x14) (kind : inst.funct3 = comparison.funct3) :
    ∃ holds : Bool, (executeInst32 env raw).run m =
        .ok () { m with
          cpu := { m.cpu.writeReg inst.rd (if holds then 1 else 0) with pc := m.cpu.pc + 4 } } ∧
      (holds = true ↔ ∃ a ∈ precision.number m.cpu inst.rs1, ∃ b ∈ precision.number m.cpu inst.rs2,
        comparison.Holds a b) := by
  obtain ⟨holds, result, exact⟩ := compareFp_holds precision comparison m.cpu inst.rs1 inst.rs2
  have operation := (op_opFp env m.cpu (m.cpu.pc + 4) major).trans
    (opFpOp_compare _ _ precision compare)
  rw [kind, result] at operation
  exact ⟨holds, executeInst32_write decoded operation, exact⟩

/-- A machine that holds `a` in `f0` and `b` in `f1`. -/
def Machine.paired (a b : U64) : Machine :=
  { Machine.new with cpu := (Cpu.new.setFreg 0 a).setFreg 1 b }

/-- `flt.s x1, f0, f1` on minus infinity and a negative zero. -/
theorem fcompare_by_value_infinity :
    ∃ m', (executeInst32 default 0xA01010D3).run
      (Machine.paired 0xFFFFFFFFFF800000 0xFFFFFFFF80000000) = .ok () m' ∧
      m'.cpu.regs 1 = 1 := by
  obtain ⟨holds, run, exact⟩ := fcompare_by_value default 0xA01010D3
    (Machine.paired 0xFFFFFFFFFF800000 0xFFFFFFFF80000000) _ .single .lt rfl rfl rfl rfl
  have less : holds = true := exact.mpr ⟨⊥, rfl, _, rfl, WithBot.bot_lt_coe _⟩
  rw [less] at run
  exact ⟨_, run, rfl⟩

end Comparisons

section Selections

/-- The selections of an `OP_FP` word. -/
inductive Selection where
  | least | greatest
deriving DecidableEq, Repr

namespace Selection

def funct3 : Selection → U8
  | least => 0
  | greatest => 1

def pick : Selection → WithBot (WithTop ℚ) → WithBot (WithTop ℚ) → WithBot (WithTop ℚ)
  | least => min
  | greatest => max

end Selection

/-- What `f32::min` and its like do with two numbers; of two zeros either may be returned. -/
def Chooses {w : Nat} (f : Format) (select : BitVec w → BitVec w → BitVec w)
    (pick : WithBot (WithTop ℚ) → WithBot (WithTop ℚ) → WithBot (WithTop ℚ)) : Prop :=
  ∀ a b, f.isNan a.toNat = false → f.isNan b.toNat = false →
    f.number (select a b).toNat = some (pick (f.extended a.toNat) (f.extended b.toNat))

structure Fpu.Selects (fpu : Fpu) : Prop where
  minS : Chooses Ieee.single fpu.minS min
  maxS : Chooses Ieee.single fpu.maxS max
  minD : Chooses Ieee.double fpu.minD min
  maxD : Chooses Ieee.double fpu.maxD max

/-- The canonical NaN in a register. -/
def Precision.canonical : Precision → U64
  | single => 0xFFFFFFFF7FC00000
  | double => 0x7FF8000000000000

variable {env : Env} {raw : U32} {m : Machine} {inst : DecodedInst32}

/-- A NaN gives way to the other operand. -/
theorem minMax_number {w : Nat} {f : Format} {least greatest : BitVec w → BitVec w → BitVec w}
    (chooses : Chooses f least min) (chooses' : Chooses f greatest max) (selection : Selection)
    (a b : BitVec w) :
    ∃ res, minMax (fun s => f.isNan s.toNat) least greatest selection.funct3 a b = some res ∧
      f.number res.toNat = Option.merge selection.pick (f.number a.toNat) (f.number b.toNat) := by
  have number (bits : Nat) : f.number bits = if f.isNan bits then none else some
    (f.extended bits) := rfl
  have merged {select : BitVec w → BitVec w → BitVec w}
      {pick : WithBot (WithTop ℚ) → WithBot (WithTop ℚ) → WithBot (WithTop ℚ)}
        (chooses : Chooses f select pick) :
      f.number (if f.isNan a.toNat then b else if f.isNan b.toNat then a else select a b).toNat =
        Option.merge pick (f.number a.toNat) (f.number b.toNat) := by
    cases nan : f.isNan a.toNat with
    | true => simp [number a.toNat, nan]
    | false =>
      cases nan' : f.isNan b.toNat with
      | true => simp [number b.toNat, nan']
      | false => simp [number a.toNat, number b.toNat, nan, nan', chooses a b nan nan']
  cases selection with
  | least => exact ⟨_, rfl, merged chooses⟩
  | greatest => exact ⟨_, rfl, merged chooses'⟩

theorem executeInst32_writeF (decoded : DecodedInst32.decode raw = inst) {val : U64}
    (operation : inst.op env m.cpu (m.cpu.pc + 4) = .writeF inst.rd val (m.cpu.pc + 4)) :
    (executeInst32 env raw).run m = .ok ()
    { m with cpu := { m.cpu.setFreg inst.rd val with pc := m.cpu.pc + 4 } } := by
  rw [executeInst32_run, decoded, dispatch_exec, operation]
  rfl

/-- The number in a register that a single was written to. -/
theorem number_singleBits (cpu : Cpu) (rd : Fin 32) (res pc : U32) :
    Precision.single.number { cpu.setFreg rd (Cpu.singleBits res) with pc := pc } rd =
      Ieee.single.number res.toNat ∧
      (Ieee.single.number res.toNat = none → Cpu.singleBits res = Precision.single.canonical) := by
  have inside := res.isLt
  rw [Precision.number, Precision.datum?]
  simp only [Cpu.setFreg, Function.update_self]
  rw [singleBits_eq, boxed_toNat]
  by_cases nan : Ieee.single.isNan res.toNat = true
  · have none : Ieee.single.number res.toNat = none := if_pos nan
    rw [if_pos nan, none]
    exact ⟨rfl, fun _ => rfl⟩
  · rw [if_neg nan, if_pos (by omega), Option.bind_some]
    have low : (0xFFFFFFFF * 2 ^ 32 + res.toNat) % 2 ^ 32 = res.toNat := by omega
    rw [low]
    refine ⟨rfl, fun none => ?_⟩
    rw [Format.number, if_neg nan] at none
    cases none

theorem number_doubleBits (cpu : Cpu) (rd : Fin 32) (res : U64) (pc : U32) :
    Precision.double.number { cpu.setFreg rd (Cpu.doubleBits res) with pc := pc } rd =
      Ieee.double.number res.toNat ∧
      (Ieee.double.number res.toNat = none → Cpu.doubleBits res = Precision.double.canonical) := by
  rw [Precision.number, Precision.datum?]
  simp only [Cpu.setFreg, Function.update_self, Option.bind_some]
  rw [Cpu.doubleBits]
  by_cases nan : Ieee.double.isNan res.toNat = true
  · have none : Ieee.double.number res.toNat = none := if_pos nan
    rw [if_pos nan, none]
    exact ⟨by decide, fun _ => rfl⟩
  · rw [if_neg nan]
    refine ⟨rfl, fun none => ?_⟩
    rw [Format.number, if_neg nan] at none
    cases none

/-- `FMIN` and `FMAX` of either width leave in `rd` the lesser or greater of the numbers in the
sources; a NaN gives way to the other source, and only of two NaNs the canonical one is left. -/
theorem fselect_by_value (env : Env) (raw : U32) (m : Machine) (inst : DecodedInst32)
    (precision : Precision)
    (selection : Selection) (selects : env.fpu.Selects) (decoded : DecodedInst32.decode raw = inst)
    (major : inst.opcode = Opcode.opFp.bits) (select : inst.funct7 = precision.funct7 0x05)
    (kind : inst.funct3 = selection.funct3) :
    ∃ val m', (executeInst32 env raw).run m = .ok () m' ∧
      m' = { m with cpu := { m.cpu.setFreg inst.rd val with pc := m.cpu.pc + 4 } } ∧
      precision.number m'.cpu inst.rd =
        Option.merge selection.pick (precision.number m.cpu inst.rs1)
          (precision.number m.cpu inst.rs2) ∧
      (precision.number m'.cpu inst.rd = none → val = precision.canonical) := by
  rw [number_eq precision m.cpu, number_eq precision m.cpu]
  cases precision with
  | single =>
    have width : inst.funct7 &&& 0x3 = 0 := by rw [select]; rfl
    have operation : inst.funct7 >>> 2 = 0x05 := by rw [select]; rfl
    obtain ⟨res, result, number⟩ :=
      minMax_number selects.minS selects.maxS selection (m.cpu.readF32 inst.rs1)
        (m.cpu.readF32 inst.rs2)
    have writes : inst.op env m.cpu (m.cpu.pc + 4) = .writeF inst.rd (Cpu.singleBits res)
      (m.cpu.pc + 4) := by
      rw [op_opFp env m.cpu _ major, DecodedInst32.opFpOp, if_pos width, DecodedInst32.opFpSOp,
        operation, kind]
      dsimp only
      rw [result]
      rfl
    obtain ⟨written, canonical⟩ := number_singleBits m.cpu inst.rd res (m.cpu.pc + 4)
    exact ⟨_, _, executeInst32_writeF decoded writes, rfl, written.trans number, fun none =>
      canonical (written.symm.trans none)⟩
  | double =>
    have width : inst.funct7 &&& 0x3 = 1 := by rw [select]; rfl
    have other : inst.funct7 &&& 0x3 ≠ 0 := by rw [width]; decide
    have operation : inst.funct7 >>> 2 = 0x05 := by rw [select]; rfl
    obtain ⟨res, result, number⟩ :=
      minMax_number selects.minD selects.maxD selection (m.cpu.readF64 inst.rs1)
        (m.cpu.readF64 inst.rs2)
    have writes : inst.op env m.cpu (m.cpu.pc + 4) = .writeF inst.rd (Cpu.doubleBits res)
      (m.cpu.pc + 4) := by
      rw [op_opFp env m.cpu _ major, DecodedInst32.opFpOp, if_neg other, if_pos width,
        DecodedInst32.opFpDOp,
        operation, kind]
      dsimp only
      rw [result]
      rfl
    obtain ⟨written, canonical⟩ := number_doubleBits m.cpu inst.rd res (m.cpu.pc + 4)
    exact ⟨_, _, executeInst32_writeF decoded writes, rfl, written.trans number, fun none =>
      canonical (written.symm.trans none)⟩

/-- Selections by the order of the bit patterns. -/
def Fpu.ordered : Fpu :=
  { (default : Fpu) with
    minS := fun a b => if Ieee.single.le a.toNat b.toNat then a else b
    maxS := fun a b => if Ieee.single.le a.toNat b.toNat then b else a
    minD := fun a b => if Ieee.double.le a.toNat b.toNat then a else b
    maxD := fun a b => if Ieee.double.le a.toNat b.toNat then b else a }

theorem chooses_ordered {w : Nat} {f : Format} (wide : 0 < f.expBits) :
    Chooses (w := w) f (fun a b => if f.le a.toNat b.toNat then a else b) min ∧
      Chooses (w := w) f (fun a b => if f.le a.toNat b.toNat then b else a) max := by
  have number {bits : Nat} (plain : f.isNan bits = false) : f.number bits =
    some (f.extended bits) := by
    rw [Format.number, plain]
    rfl
  have order {a b : Nat} (plain : f.isNan a = false) (plain' : f.isNan b = false) :
      f.le a b = true ↔ f.extended a ≤ f.extended b := by
    rw [Format.le_iff wide, plain, plain']
    simp
  constructor
  · intro a b plain plain'
    dsimp only
    by_cases below : f.le a.toNat b.toNat = true
    · rw [if_pos below, number plain, min_eq_left ((order plain plain').mp below)]
    · rw [if_neg below, number plain',
        min_eq_right (le_of_not_ge fun le => below ((order plain plain').mpr le))]
  · intro a b plain plain'
    dsimp only
    by_cases below : f.le a.toNat b.toNat = true
    · rw [if_pos below, number plain', max_eq_right ((order plain plain').mp below)]
    · rw [if_neg below, number plain,
        max_eq_left (le_of_not_ge fun le => below ((order plain plain').mpr le))]

theorem selects_ordered : Fpu.ordered.Selects where
  minS := (chooses_ordered (by decide)).1
  maxS := (chooses_ordered (by decide)).2
  minD := (chooses_ordered (by decide)).1
  maxD := (chooses_ordered (by decide)).2

/-- `fmin.s f2, f0, f1` on minus infinity and a negative zero. -/
theorem fselect_by_value_infinity :
    ∃ m', (executeInst32 { (default : Env) with fpu := Fpu.ordered } 0x28100153).run
        (Machine.paired 0xFFFFFFFFFF800000 0xFFFFFFFF80000000) = .ok () m' ∧
      Precision.single.number m'.cpu 2 = some ⊥ := by
  obtain ⟨val, m', run, -, number, -⟩ :=
    fselect_by_value { (default : Env) with fpu := Fpu.ordered } 0x28100153
    (Machine.paired 0xFFFFFFFFFF800000 0xFFFFFFFF80000000) _ .single .least selects_ordered
      rfl rfl rfl rfl
  exact ⟨m', run, number.trans (congrArg some (min_eq_left bot_le))⟩

end Selections

end RiscvRs
