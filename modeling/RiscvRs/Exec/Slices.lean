import RiscvRs.Exec.Compressed
import RiscvRs.Machine.Encoded

/-! The hand-decoded registers and immediates of `execute_inst16` against the
slices of the compressed formats. -/

namespace RiscvRs

open Isa (slice)
open Bytes Pieces

section Extension

variable {v : Nat} (x : BitVec v)

/-- An unsigned offset shorter than the immediate field stays unsigned. -/
theorem extend_unsigned (short : v < 12) : (x.setWidth 12).signExtend 32 = x.setWidth 32 := by
  have positive : (x.setWidth 12).msb = false := by
    rw [BitVec.msb_setWidth, BitVec.getLsbD_of_ge x 11 (by omega), Bool.and_false]
  rw [BitVec.signExtend_eq_setWidth_of_msb_false positive, BitVec.setWidth_setWidth (by omega)]

theorem extend_signed {w : Nat} (wider : v ≤ w) :
    (x.signExtend w).signExtend 32 = x.signExtend 32 := by
  have kept : (x.signExtend w).toInt = x.toInt := BitVec.toInt_signExtend_of_le wider
  change BitVec.ofInt 32 (x.signExtend w).toInt = _
  rw [kept]
  rfl

/-- The immediate of `C.LUI` is extended first and moved up afterwards. -/
theorem extend_upper (y : BitVec 6) : y.signExtend 20 ++ 0#12 = y.signExtend 32 <<< 12 := by
  apply BitVec.eq_of_getLsbD_eq
  intro i inside
  rw [BitVec.getLsbD_append, BitVec.getLsbD_shiftLeft, BitVec.getLsbD_signExtend,
    BitVec.getLsbD_signExtend]
  by_cases low : i < 12
  · simp [low]
  · simp [low, inside, show i - 12 < 20 by omega, show i - 12 < 32 by omega]

theorem even_signExtend {w : Nat} (some : 0 < v) (even : x.toNat % 2 = 0) :
    (x.signExtend w).toNat % 2 = 0 := by
  have clear : x.getLsbD 0 = false := by
    rw [BitVec.getLsbD, Nat.testBit_zero, even]
    rfl
  have kept : (x.signExtend w).getLsbD 0 = false := by
    rw [BitVec.getLsbD_signExtend, if_pos some, clear, Bool.and_false]
  rw [BitVec.getLsbD, Nat.testBit_zero] at kept
  simpa using kept

theorem setWidth_eq_zero_iff {w : Nat} (wider : v ≤ w) : x.setWidth w = 0 ↔ x = 0 := by
  rw [← BitVec.toNat_inj, ← BitVec.toNat_inj, BitVec.toNat_setWidth_of_le wider]
  simp

end Extension

variable (c : U16)

section Registers

theorem toNat_field {mask : U16} {hi lo k : Nat} (ones : mask.toNat = 2 ^ k - 1)
    (size : hi - lo + 1 = k) :
    (shiftThenMask c lo mask).toNat = (slice c hi lo).toNat := by
  rw [toNat_shiftThenMask c mask lo k ones, Isa.toNat_extractLsb, Isa.bits, size]

/-- A masked field is the slice, widened. -/
theorem field_eq {mask : U16} {hi lo k : Nat} (ones : mask.toNat = 2 ^ k - 1)
    (size : hi - lo + 1 = k)
    (fits : k ≤ 16) :
    shiftThenMask c lo mask = (slice c hi lo).setWidth 16 := by
  apply BitVec.eq_of_toNat_eq
  rw [toNat_field c ones size, BitVec.toNat_setWidth_of_le (size.trans_le fits)]

theorem creg_eq {shift : Nat} {field : BitVec 3}
    (value : (shiftThenMask c shift 0x7).toNat = field.toNat) :
    creg c shift = (Isa.regC field).toFin := by
  apply Fin.ext
  have selected : (creg c shift).val = 8 + (shiftThenMask c shift 0x7).toNat := Nat.add_comm _ 8
  rw [selected, value, BitVec.val_toFin, Isa.regC, toNat_append_eq]
  rfl

theorem creg_rd : creg c 2 = (Isa.rdC c).toFin := creg_eq c (toNat_field c rfl rfl)

theorem creg_rs1 : creg c 7 = (Isa.rs1C c).toFin := creg_eq c (toNat_field c rfl rfl)

theorem regField16_rd : regField16 c 7 = (Isa.rdFull c).toFin := Fin.ext (toNat_field c rfl rfl)

theorem regField16_rs2 : regField16 c 2 = (Isa.rs2Full c).toFin := Fin.ext (toNat_field c rfl rfl)

end Registers

section Unsigned

theorem eq_setWidth_of_piece {v w a : Nat} {x mask : BitVec w} {y : BitVec v}
    (piece : Piece x a mask)
    (value : a = y.toNat) (wider : v ≤ w) : x = y.setWidth w := by
  apply BitVec.eq_of_toNat_eq
  rw [piece.toNat_eq, value, BitVec.toNat_setWidth_of_le wider]

/-- One piece of an offset that is widened before it is moved. -/
theorem widePiece (mask : U16) (lo k s : Nat) (ones : mask.toNat = 2 ^ k - 1)
    (room : (mask.setWidth 32).toNat * 2 ^ s < 2 ^ 32) :
    Piece ((shiftThenMask c lo mask).setWidth 32 <<< s) (c.toNat / 2 ^ lo % 2 ^ k * 2 ^ s)
      (mask.setWidth 32 <<< s) :=
  ((fieldPiece c mask lo k ones).setWidth (by decide)).shiftLeft s room

theorem clWordOffset_eq : clWordOffset c = (Isa.immWord c).setWidth 32 := by
  have joined := ((widePiece c 0x7 10 3 3 rfl (by decide)).or
    (widePiece c 0x1 6 1 2 rfl (by decide)) rfl).or
    (widePiece c 0x1 5 1 6 rfl (by decide)) rfl
  refine eq_setWidth_of_piece joined ?_ (by decide)
  simp only [Isa.immWord, toNat_append_eq, Isa.toNat_extractLsb, Isa.bits, BitVec.toNat_ofNat]
  omega

theorem clDoubleOffset_eq : clDoubleOffset c = (Isa.immDouble c).setWidth 32 := by
  have joined := (widePiece c 0x7 10 3 3 rfl (by decide)).or
    (widePiece c 0x3 5 2 6 rfl (by decide)) rfl
  refine eq_setWidth_of_piece joined ?_ (by decide)
  simp only [Isa.immDouble, toNat_append_eq, Isa.toNat_extractLsb, Isa.bits, BitVec.toNat_ofNat]
  omega

theorem ciWordSpOffset_eq : ciWordSpOffset c = (Isa.immLwsp c).setWidth 32 := by
  have joined := ((widePiece c 0x1 12 1 5 rfl (by decide)).or
    (widePiece c 0x7 4 3 2 rfl (by decide)) rfl).or
    (widePiece c 0x3 2 2 6 rfl (by decide)) rfl
  refine eq_setWidth_of_piece joined ?_ (by decide)
  simp only [Isa.immLwsp, toNat_append_eq, Isa.toNat_extractLsb, Isa.bits, BitVec.toNat_ofNat]
  omega

theorem ciDoubleSpOffset_eq : ciDoubleSpOffset c = (Isa.immLdsp c).setWidth 32 := by
  have joined := ((widePiece c 0x1 12 1 5 rfl (by decide)).or
    (widePiece c 0x3 5 2 3 rfl (by decide)) rfl).or
    (widePiece c 0x7 2 3 6 rfl (by decide)) rfl
  refine eq_setWidth_of_piece joined ?_ (by decide)
  simp only [Isa.immLdsp, toNat_append_eq, Isa.toNat_extractLsb, Isa.bits, BitVec.toNat_ofNat]
  omega

theorem cssWordSpOffset_eq : cssWordSpOffset c = (Isa.immSwsp c).setWidth 32 := by
  have joined := (widePiece c 0xF 9 4 2 rfl (by decide)).or
    (widePiece c 0x3 7 2 6 rfl (by decide)) rfl
  refine eq_setWidth_of_piece joined ?_ (by decide)
  simp only [Isa.immSwsp, toNat_append_eq, Isa.toNat_extractLsb, Isa.bits, BitVec.toNat_ofNat]
  omega

theorem cssDoubleSpOffset_eq : cssDoubleSpOffset c = (Isa.immSdsp c).setWidth 32 := by
  have joined := (widePiece c 0x7 10 3 3 rfl (by decide)).or
    (widePiece c 0x7 7 3 6 rfl (by decide)) rfl
  refine eq_setWidth_of_piece joined ?_ (by decide)
  simp only [Isa.immSdsp, toNat_append_eq, Isa.toNat_extractLsb, Isa.bits, BitVec.toNat_ofNat]
  omega

/-- Here the masks select the bits in place. -/
theorem addi4spnImm_eq : addi4spnImm c = (Isa.immCIW c).setWidth 32 := by
  have joined := ((((Piece.field c 7 2 4 (show (0x30 : U16).toNat = _ from rfl)).or
    (Piece.field c 1 4 6 (show (0x3C0 : U16).toNat = _ from rfl)) rfl).or
    (Piece.field c 4 1 2 (show (0x4 : U16).toNat = _ from rfl)) rfl).or
    (Piece.field c 2 1 3 (show (0x8 : U16).toNat = _ from rfl)) rfl).setWidth
      (show 16 ≤ 32 by decide)
  refine eq_setWidth_of_piece joined ?_ (by decide)
  simp only [Isa.immCIW, toNat_append_eq, Isa.toNat_extractLsb, Isa.bits, BitVec.toNat_ofNat]
  omega

end Unsigned

section Signed

/-- The shift pair and the cast to `i32` extend the sign of a shorter immediate. -/
theorem signExtend_of_piece {a s : Nat} {x mask : U16} {y : BitVec (16 - s)}
    (piece : Piece x a mask)
    (value : a = y.toNat) (room : s < 16) :
    ((x <<< s).sshiftRight s).signExtend 32 = y.signExtend 32 := by
  have same : x.toNat = y.toNat := piece.toNat_eq.trans value
  have narrow : (y.signExtend 16).toInt = y.toInt := BitVec.toInt_signExtend_of_le (Nat.sub_le 16 s)
  rw [shiftPair_signed x room (same.trans_lt y.isLt), same, Isa.signed_toNat y (by omega)]
  change BitVec.ofInt 32 (y.signExtend 16).toInt = _
  rw [narrow]
  rfl

theorem imm6_piece : Piece (imm6 c) (Isa.immCI c).toNat (0x3F : U16) := by
  have joined := ((fieldPiece c 1 12 1 rfl).shiftLeft 5 (by decide)).or
    (fieldPiece c 0x1F 2 5 rfl) rfl
  have value : (Isa.immCI c).toNat = c.toNat / 2 ^ 12 % 2 ^ 1 * 2 ^ 5 +
    c.toNat / 2 ^ 2 % 2 ^ 5 := by
    simp only [Isa.immCI, toNat_append_eq, Isa.toNat_extractLsb, Isa.bits]
  rw [value]
  exact joined

theorem imm6_eq : imm6 c = (Isa.immCI c).setWidth 16 :=
  eq_setWidth_of_piece (imm6_piece c) rfl (by decide)

theorem signExt6_eq : signExt6 c = (Isa.immCI c).signExtend 32 :=
  signExtend_of_piece (s := 10) (imm6_piece c) rfl (by decide)

theorem addi16spImm_piece : Piece (addi16spImm c) (Isa.immSp c).toNat (0x3F0 : U16) := by
  have joined := (((((fieldPiece c 1 12 1 rfl).shiftLeft 9 (by decide)).or
    ((fieldPiece c 3 3 2 rfl).shiftLeft 7 (by decide)) rfl).or
    ((fieldPiece c 1 5 1 rfl).shiftLeft 6 (by decide)) rfl).or
    ((fieldPiece c 1 2 1 rfl).shiftLeft 5 (by decide)) rfl).or
    ((fieldPiece c 1 6 1 rfl).shiftLeft 4 (by decide)) rfl
  have value : (Isa.immSp c).toNat = c.toNat / 2 ^ 12 % 2 ^ 1 * 2 ^ 9 +
    c.toNat / 2 ^ 3 % 2 ^ 2 * 2 ^ 7 +
      c.toNat / 2 ^ 5 % 2 ^ 1 * 2 ^ 6 + c.toNat / 2 ^ 2 % 2 ^ 1 * 2 ^ 5 +
        c.toNat / 2 ^ 6 % 2 ^ 1 * 2 ^ 4 := by
    simp only [Isa.immSp, toNat_append_eq, Isa.toNat_extractLsb, Isa.bits, BitVec.toNat_ofNat]
    omega
  rw [value]
  exact joined

theorem jumpOffset_eq : jumpOffset c = (Isa.immCJ c).signExtend 32 := by
  have joined := ((((((((fieldPiece c 1 12 1 rfl).shiftLeft 11 (by decide)).or
    ((fieldPiece c 1 8 1 rfl).shiftLeft 10 (by decide)) rfl).or
    ((fieldPiece c 3 9 2 rfl).shiftLeft 8 (by decide)) rfl).or
    ((fieldPiece c 1 6 1 rfl).shiftLeft 7 (by decide)) rfl).or
    ((fieldPiece c 1 7 1 rfl).shiftLeft 6 (by decide)) rfl).or
    ((fieldPiece c 1 2 1 rfl).shiftLeft 5 (by decide)) rfl).or
    ((fieldPiece c 1 11 1 rfl).shiftLeft 4 (by decide)) rfl).or
    ((fieldPiece c 7 3 3 rfl).shiftLeft 1 (by decide)) rfl
  refine signExtend_of_piece (s := 4) joined ?_ (by decide)
  simp only [Isa.immCJ, toNat_append_eq, Isa.toNat_extractLsb, Isa.bits, BitVec.toNat_ofNat]
  omega

theorem branchOffset_eq : branchOffset c = (Isa.immCB c).signExtend 32 := by
  have joined := (((((fieldPiece c 1 12 1 rfl).shiftLeft 8 (by decide)).or
    ((fieldPiece c 3 5 2 rfl).shiftLeft 6 (by decide)) rfl).or
    ((fieldPiece c 1 2 1 rfl).shiftLeft 5 (by decide)) rfl).or
    ((fieldPiece c 3 10 2 rfl).shiftLeft 3 (by decide)) rfl).or
    ((fieldPiece c 3 3 2 rfl).shiftLeft 1 (by decide)) rfl
  refine signExtend_of_piece (s := 7) joined ?_ (by decide)
  simp only [Isa.immCB, toNat_append_eq, Isa.toNat_extractLsb, Isa.bits, BitVec.toNat_ofNat]
  omega

theorem immCJ_even : (Isa.immCJ c).toNat % 2 = 0 := by
  rw [Isa.immCJ, toNat_append_eq, BitVec.toNat_ofNat]
  omega

theorem immCB_even : (Isa.immCB c).toNat % 2 = 0 := by
  rw [Isa.immCB, toNat_append_eq, BitVec.toNat_ofNat]
  omega

end Signed

section Groups

/-- `op` and `funct3` of a compressed instruction. -/
theorem decode16_op : (DecodedInst16.decode c).op = (slice c 1 0).setWidth 8 := by
  have unshifted : shiftThenMask c 0 0x3 = c &&& 0x3 := by
    rw [shiftThenMask, BitVec.ushiftRight_zero]
  have selected : c &&& 0x3 = (slice c 1 0).setWidth 16 :=
    unshifted.symm.trans (field_eq c (k := 2) rfl rfl (by decide))
  rw [DecodedInst16.decode, selected, BitVec.setWidth_setWidth (by decide)]

theorem decode16_funct3 : (DecodedInst16.decode c).funct3 = (slice c 15 13).setWidth 8 := by
  have selected : shiftThenMask c 13 0x7 = (slice c 15 13).setWidth 16 :=
    field_eq c (k := 3) rfl rfl (by decide)
  rw [DecodedInst16.decode, selected, BitVec.setWidth_setWidth (by decide)]

theorem bit12_eq_zero_iff : shiftThenMask c 12 1 = 0 ↔ slice c 12 12 = 0 := by
  have selected : shiftThenMask c 12 1 = (slice c 12 12).setWidth 16 :=
    field_eq c (k := 1) rfl rfl (by decide)
  rw [selected]
  exact setWidth_eq_zero_iff (slice c 12 12) (by decide)

theorem imm6_eq_zero_iff : imm6 c = 0 ↔ Isa.immCI c = 0 := by
  rw [imm6_eq]
  exact setWidth_eq_zero_iff _ (by decide)

theorem addi16spImm_eq_zero_iff : addi16spImm c = 0 ↔ Isa.immSp c = 0 := by
  rw [eq_setWidth_of_piece (addi16spImm_piece c) rfl (by decide)]
  exact setWidth_eq_zero_iff _ (by decide)

theorem addi4spnImm_eq_zero_iff : addi4spnImm c = 0 ↔ Isa.immCIW c = 0 := by
  rw [addi4spnImm_eq]
  exact setWidth_eq_zero_iff _ (by decide)

theorem rd_eq_iff (r : BitVec 5) : regField16 c 7 = r.toFin ↔ Isa.rdFull c = r := by
  rw [regField16_rd]
  exact ⟨fun same => BitVec.eq_of_toFin_eq same, fun same => by rw [same]⟩

theorem rs2_eq_iff (r : BitVec 5) : regField16 c 2 = r.toFin ↔ Isa.rs2Full c = r := by
  rw [regField16_rs2]
  exact ⟨fun same => BitVec.eq_of_toFin_eq same, fun same => by rw [same]⟩

end Groups

end RiscvRs
