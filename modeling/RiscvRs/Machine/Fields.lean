import RiscvRs.Isa.Words
import RiscvRs.Lib.Pieces
import RiscvRs.Machine.Inst

/-! The shifts and masks of `inst.rs` read off the fields and immediates of the
manual. -/

namespace RiscvRs

open Isa Pieces

section Pieces

variable {w : Nat}

/-- A masked field as a piece of an immediate. -/
theorem fieldPiece (x mask : BitVec w) (lo k : Nat) (ones : mask.toNat = 2 ^ k - 1) :
    Piece (shiftThenMask x lo mask) (x.toNat / 2 ^ lo % 2 ^ k) mask := by
  have piece := Piece.field x lo k 0 (ones.trans (Nat.mul_one _).symm)
  rwa [Nat.add_zero, Nat.pow_zero, Nat.mul_one] at piece

theorem toNat_shiftThenMask (x mask : BitVec w) (lo k : Nat) (ones : mask.toNat = 2 ^ k - 1) :
    (shiftThenMask x lo mask).toNat = x.toNat / 2 ^ lo % 2 ^ k :=
  (fieldPiece x mask lo k ones).toNat_eq

/-- The shift pair that extends the sign of a `w - s` bit value. -/
theorem shiftPair_signed (x : BitVec w) {s : Nat} (room : s < w) (small : x.toNat < 2 ^ (w - s)) :
    (x <<< s).sshiftRight s = BitVec.ofInt w (signed (w - s) x.toNat) := by
  have scaled : (x <<< s).toNat = x.toNat * 2 ^ s := by
    rw [BitVec.toNat_shiftLeft, Nat.shiftLeft_eq, Nat.mod_eq_of_lt]
    calc x.toNat * 2 ^ s < 2 ^ (w - s) * 2 ^ s :=
      Nat.mul_lt_mul_of_pos_right small (Nat.two_pow_pos s)
      _ = 2 ^ w := by rw [← Nat.pow_add, Nat.sub_add_cancel room.le]
  have bound : x.toNat * 2 ^ s < 2 ^ (w - 1) ↔ x.toNat < 2 ^ (w - s - 1) := by
    rw [show w - 1 = w - s - 1 + s by omega, Nat.pow_add]
    exact Nat.mul_lt_mul_right (Nat.two_pow_pos s)
  have power : (2 ^ w : Int) = 2 ^ (w - s) * 2 ^ s := by
    rw [← pow_add, Nat.sub_add_cancel room.le]
  have value : (x <<< s).toInt = signed (w - s) x.toNat * 2 ^ s := by
    rw [← signed_toNat _ (by omega), scaled, signed, signed]
    simp only [bound]
    split
    · push_cast
      rfl
    · rw [power, sub_mul]
      push_cast
      rfl
  rw [BitVec.sshiftRight, value, Int.shiftRight_eq_div_pow]
  push_cast
  rw [Int.mul_ediv_cancel _ (pow_ne_zero s two_ne_zero)]

end Pieces

section Word

variable (raw : U32)

theorem regField_eq (lo : Nat) : regField raw lo = Isa.reg raw.toNat lo := by
  apply Fin.ext
  rw [regField, Isa.reg]
  simp only [toNat_shiftThenMask raw 0x1F lo 5 rfl, Isa.bits, Nat.add_sub_cancel_left]

/-- A masked field narrowed to a byte. -/
theorem byteField_eq (mask : U32) (lo hi k : Nat) (ones : mask.toNat = 2 ^ k - 1)
    (size : hi - lo + 1 = k) :
    (shiftThenMask raw lo mask).setWidth 8 = BitVec.ofNat 8 (Isa.bits raw.toNat hi lo) := by
  apply BitVec.eq_of_toNat_eq
  rw [BitVec.toNat_setWidth, toNat_shiftThenMask raw mask lo k ones, BitVec.toNat_ofNat, Isa.bits, size]

theorem decode_opcode :
    (DecodedInst32.decode raw).opcode = BitVec.ofNat 8 (Isa.opcode raw.toNat) := by
  have unshifted : shiftThenMask raw 0 0x7F = raw &&& 0x7F := by
    rw [shiftThenMask, BitVec.ushiftRight_zero]
  rw [DecodedInst32.decode, Isa.opcode, ← byteField_eq raw 0x7F 0 6 7 rfl rfl, unshifted]

theorem decode_funct3 : (DecodedInst32.decode raw).funct3 = BitVec.ofNat 8 (Isa.funct3 raw.toNat) :=
  byteField_eq raw 0x7 12 14 3 rfl rfl

theorem decode_funct7 : (DecodedInst32.decode raw).funct7 = BitVec.ofNat 8 (Isa.funct7 raw.toNat) :=
  byteField_eq raw 0x7F 25 31 7 rfl rfl

theorem decode_rd : (DecodedInst32.decode raw).rd = Isa.rd raw.toNat := regField_eq raw 7

theorem decode_rs1 : (DecodedInst32.decode raw).rs1 = Isa.rs1 raw.toNat := regField_eq raw 15

theorem decode_rs2 : (DecodedInst32.decode raw).rs2 = Isa.rs2 raw.toNat := regField_eq raw 20

theorem decode_iImm : (DecodedInst32.decode raw).iImm = BitVec.ofInt 32 (Isa.immI raw.toNat) := by
  have bound := raw.isLt
  have value : raw.toInt / 2 ^ 20 = Isa.immI raw.toNat := by
    rw [BitVec.toInt_eq_toNat_cond, Isa.immI, Isa.bits, Isa.signed]
    split <;> split <;> omega
  rw [← value, DecodedInst32.iImm, DecodedInst32.decode, BitVec.sshiftRight,
    Int.shiftRight_eq_div_pow]
  rfl

theorem decode_sImm : (DecodedInst32.decode raw).sImm = BitVec.ofInt 32 (Isa.immS raw.toNat) := by
  have joined := ((fieldPiece raw 0x7F 25 7 rfl).shiftLeft 5 (by decide)).or
    (fieldPiece raw 0x1F 7 5 rfl) rfl
  have extended := shiftPair_signed _ (s := 20) (by decide) (joined.toNat_eq.trans_lt (by omega))
  rw [joined.toNat_eq] at extended
  exact extended

theorem decode_bImm : (DecodedInst32.decode raw).bImm = BitVec.ofInt 32 (Isa.immB raw.toNat) := by
  have joined := ((((fieldPiece raw 1 31 1 rfl).shiftLeft 12 (by decide)).or
    ((fieldPiece raw 1 7 1 rfl).shiftLeft 11 (by decide)) rfl).or
    ((fieldPiece raw 0x3F 25 6 rfl).shiftLeft 5 (by decide)) rfl).or
    ((fieldPiece raw 0xF 8 4 rfl).shiftLeft 1 (by decide)) rfl
  have extended := shiftPair_signed _ (s := 19) (by decide) (joined.toNat_eq.trans_lt (by omega))
  rw [joined.toNat_eq] at extended
  exact extended

theorem decode_uImm : (DecodedInst32.decode raw).uImm = BitVec.ofInt 32 (Isa.immU raw.toNat) := by
  have cut : (DecodedInst32.decode raw).uImm = (raw >>> 12) <<< 12 := by
    rw [BitVec.shiftLeft_ushiftRight]
    rfl
  have bound := raw.isLt
  apply BitVec.eq_of_toNat_eq
  rw [cut, Isa.immU, BitVec.ofInt_natCast, BitVec.toNat_ofNat, BitVec.toNat_shiftLeft,
    BitVec.toNat_ushiftRight,
    Nat.shiftLeft_eq, Nat.shiftRight_eq_div_pow, Isa.bits]
  omega

theorem decode_jImm : (DecodedInst32.decode raw).jImm = BitVec.ofInt 32 (Isa.immJ raw.toNat) := by
  have joined := ((((fieldPiece raw 1 31 1 rfl).shiftLeft 20 (by decide)).or
    ((fieldPiece raw 0xFF 12 8 rfl).shiftLeft 12 (by decide)) rfl).or
    ((fieldPiece raw 1 20 1 rfl).shiftLeft 11 (by decide)) rfl).or
    ((fieldPiece raw 0x3FF 21 10 rfl).shiftLeft 1 (by decide)) rfl
  have extended := shiftPair_signed _ (s := 11) (by decide) (joined.toNat_eq.trans_lt (by omega))
  rw [joined.toNat_eq] at extended
  exact extended

end Word

end RiscvRs
