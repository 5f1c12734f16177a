import RiscvRs.Exec.Decoding
import RiscvRs.Lib.Datum

/-! Classification and integer conversion of the datum a floating-point register holds. -/

namespace Ieee.Class

/-- The bit of the `FCLASS` result that stands for a class. -/
def bit : Class → Fin 10
  | negInfinite => 0
  | negNormal => 1
  | negSubnormal => 2
  | negZero => 3
  | posZero => 4
  | posSubnormal => 5
  | posNormal => 6
  | posInfinite => 7
  | signallingNan => 8
  | quietNan => 9

/-- The `FCLASS` result for a class. -/
def mask (c : Class) : BitVec 32 := BitVec.twoPow 32 c.bit

/-- One bit of the mask is set, and it lies below bit 10. -/
theorem mask_one_hot (c : Class) (i : Nat) : c.mask.getLsbD i = decide (i = c.bit) := by
  have inside : (c.bit : Nat) < 32 := c.bit.isLt.trans (by decide)
  rw [mask, BitVec.getLsbD_twoPow, decide_eq_true inside, Bool.true_and]
  exact decide_eq_decide.mpr eq_comm

end Ieee.Class

namespace RiscvRs

open Effects Prog Ieee

section Classes

theorem and_twoPow_ne_zero {w : Nat} (x : BitVec w) {i : Nat} (inside : i < w) :
    (x &&& BitVec.twoPow w i != 0#w) = decide (x.toNat / 2 ^ i % 2 = 1) := by
  have nonzero : BitVec.twoPow w i ≠ 0#w := by
    intro zero
    have bits := congrArg (fun y => y.getLsbD i) zero
    simp [inside] at bits
  rw [BitVec.and_twoPow, ← Nat.testBit_eq_decide_div_mod_eq, ← BitVec.getLsbD]
  cases x.getLsbD i with
  | true => simp [nonzero]
  | false => simp

/-- A bit of the fraction is a bit of the datum. -/
theorem fraction_bit {f : Format} {i : Nat} (inside : i < f.fracBits) (bits : Nat) :
    decide (f.fraction bits / 2 ^ i % 2 = 1) = decide (bits / 2 ^ i % 2 = 1) := by
  rw [← Nat.testBit_eq_decide_div_mod_eq, ← Nat.testBit_eq_decide_div_mod_eq, Format.fraction,
    Nat.testBit_mod_two_pow, decide_eq_true inside, Bool.true_and]

/-- The decision tree finds the class, given the sign and the leading fraction bit. -/
theorem classMask_eq {f : Format} {neg quiet : Bool} {bits : Nat} (sign : neg = f.isNegative bits)
    (leading : quiet = decide (f.fraction bits / 2 ^ (f.fracBits - 1) % 2 = 1)) :
    classMask f neg quiet bits = (f.classify bits).mask := by
  subst sign leading
  rw [Format.classify_eq, classMask]
  simp only [decide_eq_true_eq]
  split_ifs <;> rfl

theorem classMaskS_eq (s : U32) : classMaskS s = (single.classify s.toNat).mask := by
  have sign : (s &&& 0x80000000 != 0) = single.isNegative s.toNat :=
    and_twoPow_ne_zero s (by decide : 31 < 32)
  have leading : (s &&& 0x00400000 != 0) = decide (s.toNat / 2 ^ 22 % 2 = 1) :=
    and_twoPow_ne_zero s (by decide : 22 < 32)
  exact classMask_eq sign (leading.trans (fraction_bit (f := single) (by decide : 22 < 23) _).symm)

theorem classMaskD_eq (d : U64) : classMaskD d = (double.classify d.toNat).mask := by
  have sign : (d &&& 0x8000000000000000 != 0) = double.isNegative d.toNat :=
    and_twoPow_ne_zero d (by decide : 63 < 64)
  have leading : (d &&& 0x0008000000000000 != 0) = decide (d.toNat / 2 ^ 51 % 2 = 1) :=
    and_twoPow_ne_zero d (by decide : 51 < 64)
  exact classMask_eq sign (leading.trans (fraction_bit (f := double) (by decide : 51 < 52) _).symm)

end Classes

/-- The two operand widths of an `OP_FP` word. -/
inductive Precision where
  | single | double
deriving DecidableEq, Repr

namespace Precision

def format : Precision → Format
  | single => Ieee.single
  | double => Ieee.double

/-- The `funct7` field: five bits of operation, then the width. -/
def funct7 (funct5 : BitVec 5) : Precision → U8
  | single => (funct5 ++ 0#2).setWidth 8
  | double => (funct5 ++ 1#2).setWidth 8

/-- The datum in a source register. A register whose upper half is not all ones holds no single. -/
def datum? (cpu : Cpu) (r : Fin 32) : Precision → Option Nat
  | single =>
    if (cpu.fregs r).toNat / 2 ^ 32 = 2 ^ 32 - 1 then some ((cpu.fregs r).toNat % 2 ^ 32) else none
  | double => some (cpu.fregs r).toNat

/-- The class of a source; a single that is not boxed counts as a quiet NaN. -/
def sourceClass (precision : Precision) (cpu : Cpu) (r : Fin 32) : Ieee.Class :=
  match precision.datum? cpu r with
  | some bits => precision.format.classify bits
  | none => .quietNan

/-- A source that is no number. -/
def sourceNan (precision : Precision) (cpu : Cpu) (r : Fin 32) : Bool :=
  match precision.datum? cpu r with
  | some bits => precision.format.isNan bits
  | none => true

/-- The integer the architecture wants for a source, between two bounds. -/
def converted (precision : Precision) (low high : Int) (cpu : Cpu) (r : Fin 32) : Int :=
  match precision.datum? cpu r with
  | some bits => precision.format.convertToInt low high bits
  | none => high

end Precision

section Sources

theorem shifted_ones_iff (x : U64) : x >>> 32 = 0xFFFFFFFF ↔ x.toNat / 2 ^ 32 = 2 ^ 32 - 1 := by
  rw [← BitVec.toNat_inj, BitVec.toNat_ushiftRight, Nat.shiftRight_eq_div_pow]
  exact Iff.rfl

/-- `read_f32` gives the boxed datum or the canonical NaN. -/
theorem readF32_toNat (cpu : Cpu) (r : Fin 32) :
    (cpu.readF32 r).toNat = ((Precision.single.datum? cpu r).getD 0x7FC00000) := by
  rw [Cpu.readF32, Precision.datum?]
  simp only [shifted_ones_iff]
  split
  · rw [BitVec.toNat_setWidth, Option.getD_some]
  · rfl

/-- The class the decision tree of `FCLASS.S` or `FCLASS.D` sees. -/
theorem classify_source (precision : Precision) (cpu : Cpu) (r : Fin 32) :
    (match precision with
      | .single => classMaskS (cpu.readF32 r)
      | .double => classMaskD (cpu.readF64 r)) = (precision.sourceClass cpu r).mask := by
  cases precision with
  | single =>
    dsimp only
    rw [classMaskS_eq, readF32_toNat, Precision.sourceClass]
    cases Precision.single.datum? cpu r with
    | none => rfl
    | some bits => rfl
  | double => exact classMaskD_eq _

/-- The integer the source's cast gives. -/
def Precision.cast (precision : Precision) (low high : Int) (cpu : Cpu) (r : Fin 32) : Int :=
  match precision with
  | single => Ieee.single.toIntSaturating low high (cpu.readF32 r).toNat
  | double => Ieee.double.toIntSaturating low high (cpu.readF64 r).toNat

end Sources

section Results

variable {env : Env} {raw : U32} {m : Machine} {inst : DecodedInst32}

/-- A word that only writes an integer register. -/
theorem executeInst32_write (decoded : DecodedInst32.decode raw = inst) {val : U32}
    (operation : inst.op env m.cpu (m.cpu.pc + 4) = .write inst.rd val (m.cpu.pc + 4)) :
    (executeInst32 env raw).run m =
      .ok () { m with cpu := { m.cpu.writeReg inst.rd val with pc := m.cpu.pc + 4 } } := by
  rw [executeInst32_run, decoded, dispatch_exec, operation]
  rfl

theorem op_opFp (env : Env) (cpu : Cpu) (next : U32) (major : inst.opcode = Opcode.opFp.bits) :
    inst.op env cpu next = inst.opFpOp env cpu next := by
  rw [DecodedInst32.op, major, Opcode.ofBits?_bits]

theorem opFpOp_classify (cpu : Cpu) (next : U32) (precision : Precision)
    (classify : inst.funct7 = precision.funct7 0x1C) (form : inst.funct3 = 1) :
    inst.opFpOp env cpu next = .write inst.rd (precision.sourceClass cpu inst.rs1).mask next := by
  rw [← classify_source]
  cases precision with
  | single =>
    have width : inst.funct7 &&& 0x3 = 0 := by rw [classify]; rfl
    have operation : inst.funct7 >>> 2 = 0x1C := by rw [classify]; rfl
    rw [DecodedInst32.opFpOp, if_pos width, DecodedInst32.opFpSOp, operation, form]
    rfl
  | double =>
    have width : inst.funct7 &&& 0x3 = 1 := by rw [classify]; rfl
    have other : inst.funct7 &&& 0x3 ≠ 0 := by rw [width]; decide
    have operation : inst.funct7 >>> 2 = 0x1C := by rw [classify]; rfl
    rw [DecodedInst32.opFpOp, if_neg other, if_pos width, DecodedInst32.opFpDOp, operation, form]
    rfl

/-- `FCLASS.S` and `FCLASS.D` set exactly the bit of the source's class in `rd`. -/
theorem fclass_one_hot (env : Env) (raw : U32) (m : Machine) (inst : DecodedInst32)
    (precision : Precision)
    (decoded : DecodedInst32.decode raw = inst) (major : inst.opcode = Opcode.opFp.bits)
    (classify : inst.funct7 = precision.funct7 0x1C) (form : inst.funct3 = 1) :
    ∃ mask m', (executeInst32 env raw).run m = .ok () m' ∧
      m'.cpu = { m.cpu.writeReg inst.rd mask with pc := m.cpu.pc + 4 } ∧
      (∀ i, mask.getLsbD i = decide (i = (precision.sourceClass m.cpu inst.rs1).bit)) ∧
      m'.cpu.fregs = m.cpu.fregs ∧ m'.cpu.csrs = m.cpu.csrs ∧ m'.cpu.fcsr = m.cpu.fcsr ∧
        m'.bus = m.bus := by
  have operation := (op_opFp env m.cpu (m.cpu.pc + 4) major).trans
    (opFpOp_classify _ _ precision classify form)
  refine ⟨_, _, executeInst32_write decoded operation, rfl, Ieee.Class.mask_one_hot _, ?_⟩
  unfold Cpu.writeReg
  split
  · exact ⟨rfl, rfl, rfl, rfl⟩
  · exact ⟨rfl, rfl, rfl, rfl⟩

/-- `fclass.s x1, f0` on a register that holds no single. -/
theorem fclass_one_hot_unboxed :
    ∃ mask m', (executeInst32 default 0xE00010D3).run Machine.new = .ok () m' ∧
      m'.cpu.regs 1 = mask ∧ ∀ i, mask.getLsbD i = decide (i = 9) := by
  obtain ⟨mask, m', run, cpu, bits, -⟩ :=
    fclass_one_hot default 0xE00010D3 Machine.new _ .single rfl rfl rfl rfl
  refine ⟨mask, m', run, ?_, bits⟩
  rw [cpu]
  rfl

end Results

/-- The integer types of a conversion. -/
inductive IntKind where
  | w | wu
deriving DecidableEq, Repr

namespace IntKind

/-- The `rs2` field. -/
def rs2 : IntKind → Fin 32
  | w => 0
  | wu => 1

def low : IntKind → Int
  | w => -2 ^ 31
  | wu => 0

def high : IntKind → Int
  | w => 2 ^ 31 - 1
  | wu => 2 ^ 32 - 1

end IntKind

section Conversions

variable {env : Env} {raw : U32} {m : Machine} {inst : DecodedInst32}

theorem opFpOp_convert (cpu : Cpu) (next : U32) (precision : Precision) (kind : IntKind)
    (convert : inst.funct7 = precision.funct7 0x18) (target : inst.rs2 = kind.rs2) :
    inst.opFpOp env cpu next =
      .write inst.rd (BitVec.ofInt 32 (precision.cast kind.low kind.high cpu inst.rs1)) next := by
  cases precision with
  | single =>
    have width : inst.funct7 &&& 0x3 = 0 := by rw [convert]; rfl
    have operation : inst.funct7 >>> 2 = 0x18 := by rw [convert]; rfl
    rw [DecodedInst32.opFpOp, if_pos width, DecodedInst32.opFpSOp, operation, target]
    cases kind <;> rfl
  | double =>
    have width : inst.funct7 &&& 0x3 = 1 := by rw [convert]; rfl
    have other : inst.funct7 &&& 0x3 ≠ 0 := by rw [width]; decide
    have operation : inst.funct7 >>> 2 = 0x18 := by rw [convert]; rfl
    rw [DecodedInst32.opFpOp, if_neg other, if_pos width, DecodedInst32.opFpDOp, operation, target]
    cases kind <;> rfl

theorem nan_singles : single.isNan 0x7FC00000 = true := by decide

/-- The cast is the conversion on every source that is a number; a NaN becomes zero. -/
theorem cast_eq (precision : Precision) (low high : Int) (cpu : Cpu) (r : Fin 32) :
    (precision.sourceNan cpu r = false →
      precision.cast low high cpu r = precision.converted low high cpu r) ∧
    (precision.sourceNan cpu r = true → precision.cast low high cpu r = 0 ∧
      precision.converted low high cpu r = high) := by
  have known {f : Format} (bits : Nat) :
      (f.isNan bits = false → f.toIntSaturating low high bits = f.convertToInt low high bits) ∧
      (f.isNan bits = true → f.toIntSaturating low high bits = 0 ∧
        f.convertToInt low high bits = high) := by
    refine ⟨fun number => Format.toIntSaturating_eq bits number, ?_⟩
    intro nan
    exact ⟨if_pos nan, if_pos nan⟩
  cases precision with
  | single =>
    unfold Precision.sourceNan Precision.cast Precision.converted
    dsimp only
    rw [readF32_toNat]
    cases Precision.single.datum? cpu r with
    | none => exact ⟨fun number => absurd number (by decide), fun _ => ⟨if_pos nan_singles, rfl⟩⟩
    | some bits => exact known bits
  | double => exact known _

theorem high_ne_zero (kind : IntKind) : BitVec.ofInt 32 kind.high ≠ BitVec.ofInt 32 0 := by
  cases kind <;> decide

/-- Two writes to a register that exists differ by their values. -/
theorem writeReg_inj (cpu : Cpu) (r : Fin 32) (val val' pc : U32) :
    ({ cpu.writeReg r val with pc := pc } : Cpu) = { cpu.writeReg r val' with pc := pc } ↔ r = 0 ∨
      val = val' := by
  by_cases zero : r = 0
  · simp [Cpu.writeReg, zero]
  · rw [Cpu.writeReg, Cpu.writeReg, if_pos zero, if_pos zero, or_iff_right zero]
    constructor
    · intro same
      have regs := congrFun (congrArg Cpu.regs same) r
      simpa using regs
    · rintro rfl
      rfl

/-- `FCVT.W.S`, `FCVT.WU.S`, `FCVT.W.D` and `FCVT.WU.D` truncate and saturate exactly on the
sources that are numbers: a NaN gives zero where the upper bound is due. The rounding field
is not looked at, so this is how they round under RTZ. -/
theorem fcvt_saturates_iff (env : Env) (raw : U32) (m : Machine) (inst : DecodedInst32)
    (precision : Precision)
    (kind : IntKind) (decoded : DecodedInst32.decode raw = inst)
    (major : inst.opcode = Opcode.opFp.bits)
    (convert : inst.funct7 = precision.funct7 0x18) (target : inst.rs2 = kind.rs2) :
    (executeInst32 env raw).run m = .ok ()
      { m with cpu := { m.cpu.writeReg inst.rd
          (BitVec.ofInt 32 (precision.converted kind.low kind.high m.cpu inst.rs1)) with pc :=
            m.cpu.pc + 4 } } ↔
      inst.rd = 0 ∨ precision.sourceNan m.cpu inst.rs1 = false := by
  have operation := (op_opFp env m.cpu (m.cpu.pc + 4) major).trans
    (opFpOp_convert _ _ precision kind convert target)
  obtain ⟨exact, nan⟩ := cast_eq precision kind.low kind.high m.cpu inst.rs1
  rw [executeInst32_write decoded operation]
  have machines (cpu cpu' : Cpu) :
      Outcome.ok (ε := CpuError) () { m with cpu := cpu } = .ok () { m with cpu := cpu' } ↔
        cpu = cpu' := by
    constructor
    · intro same
      exact congrArg Machine.cpu (Outcome.ok.inj same).2
    · rintro rfl
      rfl
  rw [machines, writeReg_inj]
  refine or_congr_right ?_
  constructor
  · intro same
    apply Bool.eq_false_iff.mpr
    intro invalid
    obtain ⟨zero, upper⟩ := nan invalid
    rw [zero, upper] at same
    exact high_ne_zero kind same.symm
  · intro number
    rw [exact number]

/-- `fcvt.w.s x1, f8, rtz` on the boxed single 1.0. -/
theorem fcvt_saturates_iff_one :
    (executeInst32 default 0xC00410D3).run (.holding 0xFFFFFFFF3F800000) = .ok ()
      { Machine.holding 0xFFFFFFFF3F800000 with
        cpu := { (Machine.holding 0xFFFFFFFF3F800000).cpu.writeReg 1 (BitVec.ofInt 32
          (Precision.single.converted (-2 ^ 31) (2 ^ 31 - 1)
            (Machine.holding 0xFFFFFFFF3F800000).cpu 8)) with pc := 4 } } :=
  (fcvt_saturates_iff default 0xC00410D3 (.holding 0xFFFFFFFF3F800000) _ .single .w rfl rfl rfl rfl).mpr
    (.inr (by decide))

/-- The canonical NaN becomes zero, and not 2147483647. -/
theorem fcvt_nan_gives_zero :
    ∃ m', (executeInst32 default 0xC00410D3).run (.holding 0xFFFFFFFF7FC00000) = .ok () m' ∧
      m'.cpu.readReg 1 = 0 ∧
      Precision.single.converted (-2 ^ 31) (2 ^ 31 - 1) (Machine.holding 0xFFFFFFFF7FC00000).cpu 8 =
        2147483647 := by
  refine ⟨_, rfl, ?_, rfl⟩
  decide

end Conversions

end RiscvRs
