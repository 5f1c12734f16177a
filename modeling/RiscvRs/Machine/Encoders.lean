import RiscvRs.Lib.Pieces
import RiscvRs.Machine.Encoded

/-! The instruction encoders of `tests/instruction_tests.rs`, and `DecodedInst32` as their
inverse. An `i32` immediate is its bit pattern. -/

namespace RiscvRs

open Pieces

section Encoders

def encodeR (opcode : U32) (rd : Nat) (funct3 : U32) (rs1 rs2 : Nat) (funct7 : U32) : U32 :=
  (funct7 <<< 25) ||| (BitVec.ofNat 32 rs2 <<< 20) ||| (BitVec.ofNat 32 rs1 <<< 15) |||
    (funct3 <<< 12) |||
    (BitVec.ofNat 32 rd <<< 7) ||| opcode

def encodeI (opcode : U32) (rd : Nat) (funct3 : U32) (rs1 : Nat) (imm : U32) : U32 :=
  ((imm &&& 0xFFF) <<< 20) ||| (BitVec.ofNat 32 rs1 <<< 15) ||| (funct3 <<< 12) |||
    (BitVec.ofNat 32 rd <<< 7) |||
    opcode

def encodeS (opcode funct3 : U32) (rs1 rs2 : Nat) (imm : U32) : U32 :=
  (((imm >>> 5) &&& 0x7F) <<< 25) ||| (BitVec.ofNat 32 rs2 <<< 20) |||
    (BitVec.ofNat 32 rs1 <<< 15) |||
    (funct3 <<< 12) ||| ((imm &&& 0x1F) <<< 7) ||| opcode

def encodeB (opcode funct3 : U32) (rs1 rs2 : Nat) (imm : U32) : U32 :=
  (((imm >>> 12) &&& 1) <<< 31) ||| (((imm >>> 5) &&& 0x3F) <<< 25) |||
    (BitVec.ofNat 32 rs2 <<< 20) |||
    (BitVec.ofNat 32 rs1 <<< 15) ||| (funct3 <<< 12) ||| (((imm >>> 1) &&& 0xF) <<< 8) |||
    (((imm >>> 11) &&& 1) <<< 7) ||| opcode

def encodeU (opcode : U32) (rd : Nat) (imm : U32) : U32 :=
  (imm &&& 0xFFFFF000) ||| (BitVec.ofNat 32 rd <<< 7) ||| opcode

def encodeJ (opcode : U32) (rd : Nat) (imm : U32) : U32 :=
  (((imm >>> 20) &&& 1) <<< 31) ||| (((imm >>> 1) &&& 0x3FF) <<< 21) |||
    (((imm >>> 11) &&& 1) <<< 20) |||
    (((imm >>> 12) &&& 0xFF) <<< 12) ||| (BitVec.ofNat 32 rd <<< 7) ||| opcode

def encodeR4 (opcode : U32) (rd : Nat) (funct3 : U32) (rs1 rs2 rs3 : Nat) (fmt : U32) : U32 :=
  (BitVec.ofNat 32 rs3 <<< 27) ||| (fmt <<< 25) ||| (BitVec.ofNat 32 rs2 <<< 20) |||
    (BitVec.ofNat 32 rs1 <<< 15) |||
    (funct3 <<< 12) ||| (BitVec.ofNat 32 rd <<< 7) ||| opcode

end Encoders

section Values

variable {opcode funct3 : U32} {rd rs1 rs2 rs3 : Nat}

theorem regPiece {r : Nat} (small : r < 32) : Piece (BitVec.ofNat 32 r) r 0x1F := by
  have value : (BitVec.ofNat 32 r).toNat = r := by
    rw [BitVec.toNat_ofNat]
    exact Nat.mod_eq_of_lt (by omega)
  have piece := Piece.small (BitVec.ofNat 32 r) 0x1F 5 rfl (by omega)
  rwa [value] at piece

variable (op : opcode.toNat < 128) (d : rd < 32) (f3 : funct3.toNat < 8) (s1 : rs1 < 32) (s2 : rs2 < 32)

include op d f3 s1 s2 in
theorem toNat_encodeR {funct7 : U32} (f7 : funct7.toNat < 128) :
    (encodeR opcode rd funct3 rs1 rs2 funct7).toNat =
      funct7.toNat * 2 ^ 25 + rs2 * 2 ^ 20 + rs1 * 2 ^ 15 + funct3.toNat * 2 ^ 12 + rd * 2 ^ 7 +
        opcode.toNat := by
  have joined := ((((((Piece.small funct7 0x7F 7 rfl f7).shiftLeft 25 (by decide)).or
    ((regPiece s2).shiftLeft 20 (by decide)) rfl).or
    ((regPiece s1).shiftLeft 15 (by decide)) rfl).or
    ((Piece.small funct3 0x7 3 rfl f3).shiftLeft 12 (by decide)) rfl).or
    ((regPiece d).shiftLeft 7 (by decide)) rfl).or
    (Piece.small opcode 0x7F 7 rfl op) rfl
  exact joined.toNat_eq

include op d f3 s1 in
theorem toNat_encodeI (imm : U32) :
    (encodeI opcode rd funct3 rs1 imm).toNat =
      imm.toNat % 2 ^ 12 * 2 ^ 20 + rs1 * 2 ^ 15 + funct3.toNat * 2 ^ 12 + rd * 2 ^ 7 +
        opcode.toNat := by
  have joined := (((((Piece.low imm 0xFFF 12 rfl).shiftLeft 20 (by decide)).or
    ((regPiece s1).shiftLeft 15 (by decide)) rfl).or
    ((Piece.small funct3 0x7 3 rfl f3).shiftLeft 12 (by decide)) rfl).or
    ((regPiece d).shiftLeft 7 (by decide)) rfl).or
    (Piece.small opcode 0x7F 7 rfl op) rfl
  exact joined.toNat_eq

include op f3 s1 s2 in
theorem toNat_encodeS (imm : U32) :
    (encodeS opcode funct3 rs1 rs2 imm).toNat =
      imm.toNat / 2 ^ 5 % 2 ^ 7 * 2 ^ 25 + rs2 * 2 ^ 20 + rs1 * 2 ^ 15 + funct3.toNat * 2 ^ 12 +
        imm.toNat % 2 ^ 5 * 2 ^ 7 + opcode.toNat := by
  have joined := ((((((fieldPiece imm 0x7F 5 7 rfl).shiftLeft 25 (by decide)).or
    ((regPiece s2).shiftLeft 20 (by decide)) rfl).or
    ((regPiece s1).shiftLeft 15 (by decide)) rfl).or
    ((Piece.small funct3 0x7 3 rfl f3).shiftLeft 12 (by decide)) rfl).or
    ((Piece.low imm 0x1F 5 rfl).shiftLeft 7 (by decide)) rfl).or
    (Piece.small opcode 0x7F 7 rfl op) rfl
  exact joined.toNat_eq

include op f3 s1 s2 in
theorem toNat_encodeB (imm : U32) :
    (encodeB opcode funct3 rs1 rs2 imm).toNat =
      imm.toNat / 2 ^ 12 % 2 ^ 1 * 2 ^ 31 + imm.toNat / 2 ^ 5 % 2 ^ 6 * 2 ^ 25 + rs2 * 2 ^ 20 +
        rs1 * 2 ^ 15 +
        funct3.toNat * 2 ^ 12 + imm.toNat / 2 ^ 1 % 2 ^ 4 * 2 ^ 8 +
          imm.toNat / 2 ^ 11 % 2 ^ 1 * 2 ^ 7 +
        opcode.toNat := by
  have joined := ((((((((fieldPiece imm 1 12 1 rfl).shiftLeft 31 (by decide)).or
    ((fieldPiece imm 0x3F 5 6 rfl).shiftLeft 25 (by decide)) rfl).or
    ((regPiece s2).shiftLeft 20 (by decide)) rfl).or
    ((regPiece s1).shiftLeft 15 (by decide)) rfl).or
    ((Piece.small funct3 0x7 3 rfl f3).shiftLeft 12 (by decide)) rfl).or
    ((fieldPiece imm 0xF 1 4 rfl).shiftLeft 8 (by decide)) rfl).or
    ((fieldPiece imm 1 11 1 rfl).shiftLeft 7 (by decide)) rfl).or
    (Piece.small opcode 0x7F 7 rfl op) rfl
  exact joined.toNat_eq

include op d in
theorem toNat_encodeU (imm : U32) :
    (encodeU opcode rd imm).toNat = imm.toNat / 2 ^ 12 % 2 ^ 20 * 2 ^ 12 + rd * 2 ^ 7 +
      opcode.toNat := by
  have upper := Piece.field imm 0 20 12 (show (0xFFFFF000 : U32).toNat = _ from rfl)
  rw [BitVec.ushiftRight_zero, Nat.zero_add] at upper
  have joined := (upper.or ((regPiece d).shiftLeft 7 (by decide)) rfl).or
    (Piece.small opcode 0x7F 7 rfl op) rfl
  exact joined.toNat_eq

include op d in
theorem toNat_encodeJ (imm : U32) :
    (encodeJ opcode rd imm).toNat =
      imm.toNat / 2 ^ 20 % 2 ^ 1 * 2 ^ 31 + imm.toNat / 2 ^ 1 % 2 ^ 10 * 2 ^ 21 +
        imm.toNat / 2 ^ 11 % 2 ^ 1 * 2 ^ 20 +
        imm.toNat / 2 ^ 12 % 2 ^ 8 * 2 ^ 12 + rd * 2 ^ 7 + opcode.toNat := by
  have joined := ((((((fieldPiece imm 1 20 1 rfl).shiftLeft 31 (by decide)).or
    ((fieldPiece imm 0x3FF 1 10 rfl).shiftLeft 21 (by decide)) rfl).or
    ((fieldPiece imm 1 11 1 rfl).shiftLeft 20 (by decide)) rfl).or
    ((fieldPiece imm 0xFF 12 8 rfl).shiftLeft 12 (by decide)) rfl).or
    ((regPiece d).shiftLeft 7 (by decide)) rfl).or
    (Piece.small opcode 0x7F 7 rfl op) rfl
  exact joined.toNat_eq

include op d f3 s1 s2 in
theorem toNat_encodeR4 (s3 : rs3 < 32) {fmt : U32} (f : fmt.toNat < 4) :
    (encodeR4 opcode rd funct3 rs1 rs2 rs3 fmt).toNat =
      rs3 * 2 ^ 27 + fmt.toNat * 2 ^ 25 + rs2 * 2 ^ 20 + rs1 * 2 ^ 15 + funct3.toNat * 2 ^ 12 +
        rd * 2 ^ 7 +
        opcode.toNat := by
  have joined := (((((((regPiece s3).shiftLeft 27 (by decide)).or
    ((Piece.small fmt 0x3 2 rfl f).shiftLeft 25 (by decide)) rfl).or
    ((regPiece s2).shiftLeft 20 (by decide)) rfl).or
    ((regPiece s1).shiftLeft 15 (by decide)) rfl).or
    ((Piece.small funct3 0x7 3 rfl f3).shiftLeft 12 (by decide)) rfl).or
    ((regPiece d).shiftLeft 7 (by decide)) rfl).or
    (Piece.small opcode 0x7F 7 rfl op) rfl
  exact joined.toNat_eq

end Values

section Fields

variable (w : U32)

theorem decode_rs3 : (DecodedInst32.decode w).rs3 = Isa.reg w.toNat 27 := regField_eq w 27

/-- The fields of a word as numbers. -/
theorem decode_bits {inst : DecodedInst32} (decoded : DecodedInst32.decode w = inst) :
    inst.opcode.toNat = Isa.bits w.toNat 6 0 ∧ inst.rd.val = Isa.bits w.toNat 11 7 ∧
      inst.funct3.toNat = Isa.bits w.toNat 14 12 ∧ inst.rs1.val = Isa.bits w.toNat 19 15 ∧
      inst.rs2.val = Isa.bits w.toNat 24 20 ∧ inst.rs3.val = Isa.bits w.toNat 31 27 ∧
      inst.funct7.toNat = Isa.bits w.toNat 31 25 := by
  have byte (hi lo : Nat) (short : hi - lo < 8) :
      (BitVec.ofNat 8 (Isa.bits w.toNat hi lo)).toNat = Isa.bits w.toNat hi lo := by
    have bound := Isa.bits_lt w.toNat hi lo
    have wider : 2 ^ (hi - lo + 1) ≤ 2 ^ 8 := Nat.pow_le_pow_right (by decide) short
    rw [BitVec.toNat_ofNat]
    exact Nat.mod_eq_of_lt (by omega)
  rw [← decoded, decode_opcode, decode_rd, decode_funct3, decode_rs1, decode_rs2, decode_rs3,
    decode_funct7]
  exact ⟨byte 6 0 (by decide), rfl, byte 14 12 (by decide), rfl, rfl, rfl, byte 31 25 (by decide)⟩

/-- The format of a fused operation is in the low bits of `funct7`. -/
theorem decode_fmt {inst : DecodedInst32} (decoded : DecodedInst32.decode w = inst) :
    (inst.funct7 &&& 0x3).toNat = Isa.bits w.toNat 26 25 := by
  obtain ⟨-, -, -, -, -, -, funct7⟩ := decode_bits w decoded
  have split : Isa.bits w.toNat 31 25 = Isa.bits w.toNat 31 27 * 2 ^ 2 + Isa.bits w.toNat 26 25 :=
    Isa.bits_split w.toNat (by decide) (by decide)
  have bound : Isa.bits w.toNat 26 25 < 2 ^ 2 := Isa.bits_lt _ _ _
  rw [(Piece.low inst.funct7 0x3 2 rfl).toNat_eq, funct7, split, Nat.mul_add_mod',
    Nat.mod_eq_of_lt bound]

/-- A word is the sum of its parts. -/
theorem word_eq_upper : w.toNat = Isa.bits w.toNat 31 12 * 2 ^ 12 + Isa.bits w.toNat 11 7 * 2 ^ 7 +
    Isa.bits w.toNat 6 0 := by
  have opcode : Isa.bits w.toNat 31 0 = Isa.bits w.toNat 31 7 * 2 ^ 7 + Isa.bits w.toNat 6 0 :=
    Isa.bits_split w.toNat (by decide) (by decide)
  have rd : Isa.bits w.toNat 31 7 = Isa.bits w.toNat 31 12 * 2 ^ 5 + Isa.bits w.toNat 11 7 :=
    Isa.bits_split w.toNat (by decide) (by decide)
  calc w.toNat = Isa.bits w.toNat 31 0 := (Isa.bits_all w).symm
    _ = (Isa.bits w.toNat 31 12 * 2 ^ 5 + Isa.bits w.toNat 11 7) * 2 ^ 7 + Isa.bits w.toNat 6 0 := by
      rw [opcode, rd]
    _ = _ := by ring

theorem word_eq_fields :
    w.toNat = Isa.bits w.toNat 31 25 * 2 ^ 25 + Isa.bits w.toNat 24 20 * 2 ^ 20 +
    Isa.bits w.toNat 19 15 * 2 ^ 15 + Isa.bits w.toNat 14 12 * 2 ^ 12 +
      Isa.bits w.toNat 11 7 * 2 ^ 7 +
    Isa.bits w.toNat 6 0 := by
  have funct3 : Isa.bits w.toNat 31 12 = Isa.bits w.toNat 31 15 * 2 ^ 3 + Isa.bits w.toNat 14 12 :=
    Isa.bits_split w.toNat (by decide) (by decide)
  have rs1 : Isa.bits w.toNat 31 15 = Isa.bits w.toNat 31 20 * 2 ^ 5 + Isa.bits w.toNat 19 15 :=
    Isa.bits_split w.toNat (by decide) (by decide)
  have rs2 : Isa.bits w.toNat 31 20 = Isa.bits w.toNat 31 25 * 2 ^ 5 + Isa.bits w.toNat 24 20 :=
    Isa.bits_split w.toNat (by decide) (by decide)
  refine (word_eq_upper w).trans ?_
  rw [funct3, rs1, rs2]
  ring

end Fields

section Decoding

variable {opcode funct3 funct7 fmt imm : U32} {rd rs1 rs2 rs3 n : Nat} {inst : DecodedInst32}

/-- An immediate in range is what its low bits extend to. -/
theorem signExtend_low (wide : 0 < n) (narrow : n ≤ 32) (least : -2 ^ (n - 1) ≤ imm.toInt)
    (most : imm.toInt < 2 ^ (n - 1)) : (imm.setWidth n).signExtend 32 = imm := by
  rw [← Isa.ofInt_signed _ wide, BitVec.toNat_setWidth, Isa.signed_low imm wide narrow least most,
    BitVec.ofInt_toInt]

theorem toNat_byte {x : U32} {k : Nat} (short : k ≤ 8) (small : x.toNat < 2 ^ k) :
    ((x.setWidth k).setWidth 8).toNat = x.toNat := by
  have wider : 2 ^ k ≤ 2 ^ 8 := Nat.pow_le_pow_right (by decide) short
  rw [BitVec.toNat_setWidth, BitVec.toNat_setWidth, Nat.mod_eq_of_lt small,
    Nat.mod_eq_of_lt (by omega)]

theorem val_reg {r : Nat} (small : r < 32) : (BitVec.ofNat 5 r).toFin.val = r := by
  rw [BitVec.val_toFin, BitVec.toNat_ofNat]
  exact Nat.mod_eq_of_lt small

variable (op : opcode.toNat < 128) (d : rd < 32) (f3 : funct3.toNat < 8) (s1 : rs1 < 32) (s2 : rs2 < 32)

include op d f3 s1 s2 in
theorem encodeR_eq (f7 : funct7.toNat < 128) : encodeR opcode rd funct3 rs1 rs2 funct7 =
    Isa.encR (funct7.setWidth 7) (BitVec.ofNat 5 rs2) (BitVec.ofNat 5 rs1) (funct3.setWidth 3)
      (BitVec.ofNat 5 rd)
      (opcode.setWidth 7) := by
  apply BitVec.eq_of_toNat_eq
  simp only [toNat_encodeR op d f3 s1 s2 f7, Isa.encR, Bytes.toNat_append_eq, BitVec.toNat_setWidth,
    BitVec.toNat_ofNat]
  omega

include op d f3 s1 in
theorem encodeI_eq (imm : U32) : encodeI opcode rd funct3 rs1 imm =
    Isa.encI (BitVec.ofNat 5 rs1) (funct3.setWidth 3) (BitVec.ofNat 5 rd) (opcode.setWidth 7)
      (imm.setWidth 12) := by
  apply BitVec.eq_of_toNat_eq
  simp only [toNat_encodeI op d f3 s1, Isa.encI, Bytes.toNat_append_eq, BitVec.toNat_setWidth,
    BitVec.toNat_ofNat]
  omega

include op f3 s1 s2 in
theorem encodeS_eq (imm : U32) : encodeS opcode funct3 rs1 rs2 imm =
    Isa.encS (BitVec.ofNat 5 rs2) (BitVec.ofNat 5 rs1) (funct3.setWidth 3) (opcode.setWidth 7)
      (imm.setWidth 12) := by
  apply BitVec.eq_of_toNat_eq
  simp only [toNat_encodeS op f3 s1 s2, Isa.encS, Bytes.toNat_append_eq,
    Isa.toNat_extractLsb, Isa.bits,
    BitVec.toNat_setWidth, BitVec.toNat_ofNat]
  omega

include op f3 s1 s2 in
theorem encodeB_eq (imm : U32) : encodeB opcode funct3 rs1 rs2 imm =
    Isa.encB (BitVec.ofNat 5 rs2) (BitVec.ofNat 5 rs1) (funct3.setWidth 3) (opcode.setWidth 7)
      (imm.setWidth 13) := by
  apply BitVec.eq_of_toNat_eq
  simp only [toNat_encodeB op f3 s1 s2, Isa.encB, Bytes.toNat_append_eq,
    Isa.toNat_extractLsb, Isa.bits,
    BitVec.toNat_setWidth, BitVec.toNat_ofNat]
  omega

include op d in
theorem encodeU_eq (imm : U32) : encodeU opcode rd imm =
    Isa.encU (BitVec.ofNat 5 rd) (opcode.setWidth 7) (imm.extractLsb 31 12) := by
  apply BitVec.eq_of_toNat_eq
  simp only [toNat_encodeU op d, Isa.encU, Bytes.toNat_append_eq, Isa.toNat_extractLsb, Isa.bits,
    BitVec.toNat_setWidth, BitVec.toNat_ofNat]
  omega

include op d in
theorem encodeJ_eq (imm : U32) : encodeJ opcode rd imm =
    Isa.encJ (BitVec.ofNat 5 rd) (opcode.setWidth 7) (imm.setWidth 21) := by
  apply BitVec.eq_of_toNat_eq
  simp only [toNat_encodeJ op d, Isa.encJ, Bytes.toNat_append_eq, Isa.toNat_extractLsb, Isa.bits,
    BitVec.toNat_setWidth, BitVec.toNat_ofNat]
  simp (disch := decide) only [Isa.low_bits]
  omega

include op d f3 s1 s2 in
theorem decode_encodeR (f7 : funct7.toNat < 128)
    (decoded : DecodedInst32.decode (encodeR opcode rd funct3 rs1 rs2 funct7) = inst) :
    inst.opcode.toNat = opcode.toNat ∧ inst.rd.val = rd ∧ inst.funct3.toNat = funct3.toNat ∧
      inst.rs1.val = rs1 ∧
      inst.rs2.val = rs2 ∧ inst.funct7.toNat = funct7.toNat := by
  rw [encodeR_eq op d f3 s1 s2 f7] at decoded
  obtain ⟨opcodeField, rdField, funct3Field, rs1Field, rs2Field, funct7Field⟩ :=
    decode_encR _ _ _ _ _ _ decoded
  rw [opcodeField, rdField, funct3Field, rs1Field, rs2Field, funct7Field]
  exact ⟨toNat_byte (by decide) op, val_reg d, toNat_byte (by decide) f3, val_reg s1, val_reg s2,
    toNat_byte (by decide) f7⟩

include op d f3 s1 in
theorem decode_encodeI (least : -2 ^ 11 ≤ imm.toInt) (most : imm.toInt < 2 ^ 11)
    (decoded : DecodedInst32.decode (encodeI opcode rd funct3 rs1 imm) = inst) :
    inst.opcode.toNat = opcode.toNat ∧ inst.rd.val = rd ∧ inst.funct3.toNat = funct3.toNat ∧
      inst.rs1.val = rs1 ∧
      inst.iImm = imm := by
  rw [encodeI_eq op d f3 s1] at decoded
  obtain ⟨opcodeField, rdField, funct3Field, rs1Field, value⟩ := decode_encI _ _ _ _ _ decoded
  rw [opcodeField, rdField, funct3Field, rs1Field, value]
  exact ⟨toNat_byte (by decide) op, val_reg d, toNat_byte (by decide) f3, val_reg s1,
    signExtend_low (by decide) (by decide) least most⟩

include op f3 s1 s2 in
theorem decode_encodeS (least : -2 ^ 11 ≤ imm.toInt) (most : imm.toInt < 2 ^ 11)
    (decoded : DecodedInst32.decode (encodeS opcode funct3 rs1 rs2 imm) = inst) :
    inst.opcode.toNat = opcode.toNat ∧ inst.funct3.toNat = funct3.toNat ∧ inst.rs1.val = rs1 ∧
      inst.rs2.val = rs2 ∧
      inst.sImm = imm := by
  rw [encodeS_eq op f3 s1 s2] at decoded
  obtain ⟨opcodeField, funct3Field, rs1Field, rs2Field, value⟩ := decode_encS _ _ _ _ _ decoded
  rw [opcodeField, funct3Field, rs1Field, rs2Field, value]
  exact ⟨toNat_byte (by decide) op, toNat_byte (by decide) f3, val_reg s1, val_reg s2,
    signExtend_low (by decide) (by decide) least most⟩

include op f3 s1 s2 in
theorem decode_encodeB (least : -2 ^ 12 ≤ imm.toInt) (most : imm.toInt < 2 ^ 12)
    (even : imm.toNat % 2 = 0)
    (decoded : DecodedInst32.decode (encodeB opcode funct3 rs1 rs2 imm) = inst) :
    inst.opcode.toNat = opcode.toNat ∧ inst.funct3.toNat = funct3.toNat ∧ inst.rs1.val = rs1 ∧
      inst.rs2.val = rs2 ∧
      inst.bImm = imm := by
  have low : (imm.setWidth 13).toNat % 2 = 0 := by
    rw [BitVec.toNat_setWidth]
    omega
  rw [encodeB_eq op f3 s1 s2] at decoded
  obtain ⟨opcodeField, funct3Field, rs1Field, rs2Field, value⟩ := decode_encB _ _ _ _ _ low decoded
  rw [opcodeField, funct3Field, rs1Field, rs2Field, value]
  exact ⟨toNat_byte (by decide) op, toNat_byte (by decide) f3, val_reg s1, val_reg s2,
    signExtend_low (by decide) (by decide) least most⟩

include op d in
theorem decode_encodeU (upper : imm.toNat % 2 ^ 12 = 0)
    (decoded : DecodedInst32.decode (encodeU opcode rd imm) = inst) :
    inst.opcode.toNat = opcode.toNat ∧ inst.rd.val = rd ∧ inst.uImm = imm := by
  have joined : imm.extractLsb 31 12 ++ 0#12 = imm := by
    have bound := imm.isLt
    apply BitVec.eq_of_toNat_eq
    rw [Bytes.toNat_append_eq, Isa.toNat_extractLsb, Isa.bits]
    simp only [BitVec.toNat_ofNat]
    omega
  rw [encodeU_eq op d] at decoded
  obtain ⟨opcodeField, rdField, value⟩ := decode_encU _ _ _ decoded
  rw [opcodeField, rdField, value]
  exact ⟨toNat_byte (by decide) op, val_reg d, joined⟩

include op d in
theorem decode_encodeJ (least : -2 ^ 20 ≤ imm.toInt) (most : imm.toInt < 2 ^ 20)
    (even : imm.toNat % 2 = 0)
    (decoded : DecodedInst32.decode (encodeJ opcode rd imm) = inst) :
    inst.opcode.toNat = opcode.toNat ∧ inst.rd.val = rd ∧ inst.jImm = imm := by
  have low : (imm.setWidth 21).toNat % 2 = 0 := by
    rw [BitVec.toNat_setWidth]
    omega
  rw [encodeJ_eq op d] at decoded
  obtain ⟨opcodeField, rdField, value⟩ := decode_encJ _ _ _ low decoded
  rw [opcodeField, rdField, value]
  exact ⟨toNat_byte (by decide) op, val_reg d, signExtend_low (by decide) (by decide) least most⟩

/-- In a fused operation the third source and the format share the place of `funct7`. -/
theorem encodeR4_eq : encodeR4 opcode rd funct3 rs1 rs2 rs3 fmt =
    encodeR opcode rd funct3 rs1 rs2 ((BitVec.ofNat 32 rs3 <<< 2) ||| fmt) := by
  have shifted : ((BitVec.ofNat 32 rs3 <<< 2) ||| fmt) <<< 25 = (BitVec.ofNat 32 rs3 <<< 27) |||
    (fmt <<< 25) := by
    rw [BitVec.shiftLeft_or_distrib, ← BitVec.shiftLeft_add]
  rw [encodeR4, encodeR, shifted]

include op d f3 s1 s2 in
theorem decode_encodeR4 (s3 : rs3 < 32) (f : fmt.toNat < 4)
    (decoded : DecodedInst32.decode (encodeR4 opcode rd funct3 rs1 rs2 rs3 fmt) = inst) :
    inst.opcode.toNat = opcode.toNat ∧ inst.rd.val = rd ∧ inst.funct3.toNat = funct3.toNat ∧
      inst.rs1.val = rs1 ∧
      inst.rs2.val = rs2 ∧ inst.rs3.val = rs3 ∧ (inst.funct7 &&& 0x3).toNat = fmt.toNat := by
  have joined := ((regPiece s3).shiftLeft 2 (by decide)).or (Piece.small fmt 0x3 2 rfl f) rfl
  have f7 : ((BitVec.ofNat 32 rs3 <<< 2) ||| fmt).toNat < 128 := by
    rw [joined.toNat_eq]
    omega
  have third : inst.rs3.val = inst.funct7.toNat / 2 ^ 2 := by
    obtain ⟨-, -, -, -, -, rs3Field, funct7Field⟩ := decode_bits _ decoded
    rw [rs3Field, funct7Field, Isa.bits, Isa.bits]
    omega
  have fmtField : (inst.funct7 &&& 0x3).toNat = inst.funct7.toNat % 2 ^ 2 :=
    (Piece.low inst.funct7 0x3 2 rfl).toNat_eq
  rw [encodeR4_eq] at decoded
  obtain ⟨opcodeField, rdField, funct3Field, rs1Field, rs2Field, funct7Field⟩ :=
    decode_encodeR op d f3 s1 s2 f7 decoded
  rw [third, fmtField, funct7Field, joined.toNat_eq]
  exact ⟨opcodeField, rdField, funct3Field, rs1Field, rs2Field, by omega, by omega⟩

end Decoding

section Encoding

variable (w : U32) {inst : DecodedInst32} (decoded : DecodedInst32.decode w = inst)

include decoded

theorem wide_opcode : (inst.opcode.setWidth 32).toNat = Isa.bits w.toNat 6 0 := by
  rw [BitVec.toNat_setWidth_of_le (by decide)]
  exact (decode_bits w decoded).1

theorem wide_funct3 : (inst.funct3.setWidth 32).toNat = Isa.bits w.toNat 14 12 := by
  rw [BitVec.toNat_setWidth_of_le (by decide)]
  exact (decode_bits w decoded).2.2.1

theorem encodeR_decode :
    encodeR (inst.opcode.setWidth 32) inst.rd (inst.funct3.setWidth 32) inst.rs1 inst.rs2
      (inst.funct7.setWidth 32) =
      w := by
  obtain ⟨-, rd, -, rs1, rs2, -, funct7⟩ := decode_bits w decoded
  have op := wide_opcode w decoded
  have f3 := wide_funct3 w decoded
  have f7 : (inst.funct7.setWidth 32).toNat = Isa.bits w.toNat 31 25 := by
    rw [BitVec.toNat_setWidth_of_le (by decide), funct7]
  apply BitVec.eq_of_toNat_eq
  rw [toNat_encodeR (op ▸ Isa.bits_lt _ _ _) inst.rd.isLt (f3 ▸ Isa.bits_lt _ _ _) inst.rs1.isLt
    inst.rs2.isLt
    (f7 ▸ Isa.bits_lt _ _ _), op, rd, f3, rs1, rs2, f7]
  exact (word_eq_fields w).symm

theorem encodeI_decode :
    encodeI (inst.opcode.setWidth 32) inst.rd (inst.funct3.setWidth 32) inst.rs1 inst.iImm = w := by
  obtain ⟨-, rd, -, rs1, -⟩ := decode_bits w decoded
  have op := wide_opcode w decoded
  have f3 := wide_funct3 w decoded
  have low : inst.iImm.toNat % 2 ^ 12 = Isa.bits w.toNat 31 20 := by
    rw [← decoded, decode_iImm, Isa.immI]
    exact Isa.low_signed (by decide) (Isa.bits_lt _ _ _)
  have split : Isa.bits w.toNat 31 20 = Isa.bits w.toNat 31 25 * 2 ^ 5 + Isa.bits w.toNat 24 20 :=
    Isa.bits_split w.toNat (by decide) (by decide)
  have word := word_eq_fields w
  apply BitVec.eq_of_toNat_eq
  rw [toNat_encodeI (op ▸ Isa.bits_lt _ _ _) inst.rd.isLt (f3 ▸ Isa.bits_lt _ _ _) inst.rs1.isLt,
    op, rd, f3, rs1, low,
    split]
  omega

theorem encodeS_decode :
    encodeS (inst.opcode.setWidth 32) (inst.funct3.setWidth 32) inst.rs1 inst.rs2
      inst.sImm = w := by
  obtain ⟨-, -, -, rs1, rs2, -⟩ := decode_bits w decoded
  have op := wide_opcode w decoded
  have f3 := wide_funct3 w decoded
  have upper : Isa.bits w.toNat 31 25 < 2 ^ 7 := Isa.bits_lt _ _ _
  have lower : Isa.bits w.toNat 11 7 < 2 ^ 5 := Isa.bits_lt _ _ _
  have low : inst.sImm.toNat % 2 ^ 12 = Isa.bits w.toNat 31 25 * 2 ^ 5 + Isa.bits w.toNat 11 7 := by
    rw [← decoded, decode_sImm, Isa.immS]
    exact Isa.low_signed (by decide) (by omega)
  have imm11_5 : inst.sImm.toNat / 2 ^ 5 % 2 ^ 7 = Isa.bits w.toNat 31 25 := by omega
  have imm4_0 : inst.sImm.toNat % 2 ^ 5 = Isa.bits w.toNat 11 7 := by omega
  apply BitVec.eq_of_toNat_eq
  rw [toNat_encodeS (op ▸ Isa.bits_lt _ _ _) (f3 ▸ Isa.bits_lt _ _ _) inst.rs1.isLt inst.rs2.isLt,
    op, f3, rs1, rs2,
    imm11_5, imm4_0]
  exact (word_eq_fields w).symm

theorem encodeB_decode :
    encodeB (inst.opcode.setWidth 32) (inst.funct3.setWidth 32) inst.rs1 inst.rs2
      inst.bImm = w := by
  obtain ⟨-, -, -, rs1, rs2, -⟩ := decode_bits w decoded
  have op := wide_opcode w decoded
  have f3 := wide_funct3 w decoded
  have bit12 : Isa.bits w.toNat 31 31 < 2 ^ 1 := Isa.bits_lt _ _ _
  have bit11 : Isa.bits w.toNat 7 7 < 2 ^ 1 := Isa.bits_lt _ _ _
  have bits10_5 : Isa.bits w.toNat 30 25 < 2 ^ 6 := Isa.bits_lt _ _ _
  have bits4_1 : Isa.bits w.toNat 11 8 < 2 ^ 4 := Isa.bits_lt _ _ _
  have low : inst.bImm.toNat % 2 ^ 13 = Isa.bits w.toNat 31 31 * 2 ^ 12 +
    Isa.bits w.toNat 7 7 * 2 ^ 11 +
      Isa.bits w.toNat 30 25 * 2 ^ 5 + Isa.bits w.toNat 11 8 * 2 := by
    rw [← decoded, decode_bImm, Isa.immB]
    exact Isa.low_signed (by decide) (by omega)
  have imm12 : inst.bImm.toNat / 2 ^ 12 % 2 ^ 1 = Isa.bits w.toNat 31 31 := by omega
  have imm10_5 : inst.bImm.toNat / 2 ^ 5 % 2 ^ 6 = Isa.bits w.toNat 30 25 := by omega
  have imm4_1 : inst.bImm.toNat / 2 ^ 1 % 2 ^ 4 = Isa.bits w.toNat 11 8 := by omega
  have imm11 : inst.bImm.toNat / 2 ^ 11 % 2 ^ 1 = Isa.bits w.toNat 7 7 := by omega
  have upper : Isa.bits w.toNat 31 25 = Isa.bits w.toNat 31 31 * 2 ^ 6 + Isa.bits w.toNat 30 25 :=
    Isa.bits_split w.toNat (by decide) (by decide)
  have lower : Isa.bits w.toNat 11 7 = Isa.bits w.toNat 11 8 * 2 ^ 1 + Isa.bits w.toNat 7 7 :=
    Isa.bits_split w.toNat (by decide) (by decide)
  have word := word_eq_fields w
  apply BitVec.eq_of_toNat_eq
  rw [toNat_encodeB (op ▸ Isa.bits_lt _ _ _) (f3 ▸ Isa.bits_lt _ _ _) inst.rs1.isLt inst.rs2.isLt,
    op, f3, rs1, rs2,
    imm12, imm10_5, imm4_1, imm11]
  omega

theorem encodeU_decode : encodeU (inst.opcode.setWidth 32) inst.rd inst.uImm = w := by
  obtain ⟨-, rd, -⟩ := decode_bits w decoded
  have op := wide_opcode w decoded
  have bound : Isa.bits w.toNat 31 12 < 2 ^ 20 := Isa.bits_lt _ _ _
  have value : inst.uImm.toNat = Isa.bits w.toNat 31 12 * 2 ^ 12 := by
    rw [← decoded, decode_uImm, Isa.immU, BitVec.ofInt_natCast, BitVec.toNat_ofNat]
    exact Nat.mod_eq_of_lt (by omega)
  have upper : inst.uImm.toNat / 2 ^ 12 % 2 ^ 20 = Isa.bits w.toNat 31 12 := by omega
  apply BitVec.eq_of_toNat_eq
  rw [toNat_encodeU (op ▸ Isa.bits_lt _ _ _) inst.rd.isLt, op, rd, upper]
  exact (word_eq_upper w).symm

theorem encodeJ_decode : encodeJ (inst.opcode.setWidth 32) inst.rd inst.jImm = w := by
  obtain ⟨-, rd, -⟩ := decode_bits w decoded
  have op := wide_opcode w decoded
  have bit20 : Isa.bits w.toNat 31 31 < 2 ^ 1 := Isa.bits_lt _ _ _
  have bits19_12 : Isa.bits w.toNat 19 12 < 2 ^ 8 := Isa.bits_lt _ _ _
  have bit11 : Isa.bits w.toNat 20 20 < 2 ^ 1 := Isa.bits_lt _ _ _
  have bits10_1 : Isa.bits w.toNat 30 21 < 2 ^ 10 := Isa.bits_lt _ _ _
  have low : inst.jImm.toNat % 2 ^ 21 = Isa.bits w.toNat 31 31 * 2 ^ 20 +
    Isa.bits w.toNat 19 12 * 2 ^ 12 +
      Isa.bits w.toNat 20 20 * 2 ^ 11 + Isa.bits w.toNat 30 21 * 2 := by
    rw [← decoded, decode_jImm, Isa.immJ]
    exact Isa.low_signed (by decide) (by omega)
  have imm20 : inst.jImm.toNat / 2 ^ 20 % 2 ^ 1 = Isa.bits w.toNat 31 31 := by omega
  have imm10_1 : inst.jImm.toNat / 2 ^ 1 % 2 ^ 10 = Isa.bits w.toNat 30 21 := by omega
  have imm11 : inst.jImm.toNat / 2 ^ 11 % 2 ^ 1 = Isa.bits w.toNat 20 20 := by omega
  have imm19_12 : inst.jImm.toNat / 2 ^ 12 % 2 ^ 8 = Isa.bits w.toNat 19 12 := by omega
  have upper : Isa.bits w.toNat 31 12 = Isa.bits w.toNat 31 20 * 2 ^ 8 + Isa.bits w.toNat 19 12 :=
    Isa.bits_split w.toNat (by decide) (by decide)
  have middle : Isa.bits w.toNat 31 20 = Isa.bits w.toNat 31 21 * 2 ^ 1 + Isa.bits w.toNat 20 20 :=
    Isa.bits_split w.toNat (by decide) (by decide)
  have head : Isa.bits w.toNat 31 21 = Isa.bits w.toNat 31 31 * 2 ^ 10 + Isa.bits w.toNat 30 21 :=
    Isa.bits_split w.toNat (by decide) (by decide)
  have word := word_eq_upper w
  apply BitVec.eq_of_toNat_eq
  rw [toNat_encodeJ (op ▸ Isa.bits_lt _ _ _) inst.rd.isLt, op, rd, imm20, imm10_1, imm11, imm19_12]
  omega

theorem encodeR4_decode :
    encodeR4 (inst.opcode.setWidth 32) inst.rd (inst.funct3.setWidth 32) inst.rs1 inst.rs2 inst.rs3
      ((inst.funct7 &&& 0x3).setWidth 32) = w := by
  obtain ⟨-, rd, -, rs1, rs2, rs3, -⟩ := decode_bits w decoded
  have op := wide_opcode w decoded
  have f3 := wide_funct3 w decoded
  have fmt : ((inst.funct7 &&& 0x3).setWidth 32).toNat = Isa.bits w.toNat 26 25 := by
    rw [BitVec.toNat_setWidth_of_le (by decide), decode_fmt w decoded]
  have split : Isa.bits w.toNat 31 25 = Isa.bits w.toNat 31 27 * 2 ^ 2 + Isa.bits w.toNat 26 25 :=
    Isa.bits_split w.toNat (by decide) (by decide)
  have word := word_eq_fields w
  apply BitVec.eq_of_toNat_eq
  rw [toNat_encodeR4 (op ▸ Isa.bits_lt _ _ _) inst.rd.isLt (f3 ▸ Isa.bits_lt _ _ _) inst.rs1.isLt
    inst.rs2.isLt
    inst.rs3.isLt (fmt ▸ Isa.bits_lt _ _ _), op, rd, f3, rs1, rs2, rs3, fmt]
  omega

end Encoding

/-- Decoding gives back what a word was encoded from, with an immediate in the range of its
format. -/
structure DecodesBack (opcode funct3 funct7 fmt : U32) (rd rs1 rs2 rs3 : Nat) : Prop where
  r : ∀ inst, DecodedInst32.decode (encodeR opcode rd funct3 rs1 rs2 funct7) = inst →
    inst.opcode.toNat = opcode.toNat ∧ inst.rd.val = rd ∧ inst.funct3.toNat = funct3.toNat ∧
      inst.rs1.val = rs1 ∧
      inst.rs2.val = rs2 ∧ inst.funct7.toNat = funct7.toNat
  i : ∀ imm : U32, -2 ^ 11 ≤ imm.toInt → imm.toInt < 2 ^ 11 →
    ∀ inst, DecodedInst32.decode (encodeI opcode rd funct3 rs1 imm) = inst →
      inst.opcode.toNat = opcode.toNat ∧ inst.rd.val = rd ∧ inst.funct3.toNat = funct3.toNat ∧
        inst.rs1.val = rs1 ∧
        inst.iImm = imm
  s : ∀ imm : U32, -2 ^ 11 ≤ imm.toInt → imm.toInt < 2 ^ 11 →
    ∀ inst, DecodedInst32.decode (encodeS opcode funct3 rs1 rs2 imm) = inst →
      inst.opcode.toNat = opcode.toNat ∧ inst.funct3.toNat = funct3.toNat ∧ inst.rs1.val = rs1 ∧
        inst.rs2.val = rs2 ∧
        inst.sImm = imm
  b : ∀ imm : U32, -2 ^ 12 ≤ imm.toInt → imm.toInt < 2 ^ 12 → imm.toNat % 2 = 0 →
    ∀ inst, DecodedInst32.decode (encodeB opcode funct3 rs1 rs2 imm) = inst →
      inst.opcode.toNat = opcode.toNat ∧ inst.funct3.toNat = funct3.toNat ∧ inst.rs1.val = rs1 ∧
        inst.rs2.val = rs2 ∧
        inst.bImm = imm
  u : ∀ imm : U32, imm.toNat % 2 ^ 12 = 0 →
    ∀ inst, DecodedInst32.decode (encodeU opcode rd imm) = inst →
    inst.opcode.toNat = opcode.toNat ∧ inst.rd.val = rd ∧ inst.uImm = imm
  j : ∀ imm : U32, -2 ^ 20 ≤ imm.toInt → imm.toInt < 2 ^ 20 → imm.toNat % 2 = 0 →
    ∀ inst, DecodedInst32.decode (encodeJ opcode rd imm) = inst →
      inst.opcode.toNat = opcode.toNat ∧ inst.rd.val = rd ∧ inst.jImm = imm
  r4 : ∀ inst, DecodedInst32.decode (encodeR4 opcode rd funct3 rs1 rs2 rs3 fmt) = inst →
    inst.opcode.toNat = opcode.toNat ∧ inst.rd.val = rd ∧ inst.funct3.toNat = funct3.toNat ∧
      inst.rs1.val = rs1 ∧
      inst.rs2.val = rs2 ∧ inst.rs3.val = rs3 ∧ (inst.funct7 &&& 0x3).toNat = fmt.toNat

/-- Encoding what a word was decoded to gives the word back, in whichever format. -/
structure EncodesBack (w : U32) (inst : DecodedInst32) : Prop where
  r : encodeR (inst.opcode.setWidth 32) inst.rd (inst.funct3.setWidth 32) inst.rs1 inst.rs2
    (inst.funct7.setWidth 32) = w
  i : encodeI (inst.opcode.setWidth 32) inst.rd (inst.funct3.setWidth 32) inst.rs1 inst.iImm = w
  s : encodeS (inst.opcode.setWidth 32) (inst.funct3.setWidth 32) inst.rs1 inst.rs2 inst.sImm = w
  b : encodeB (inst.opcode.setWidth 32) (inst.funct3.setWidth 32) inst.rs1 inst.rs2 inst.bImm = w
  u : encodeU (inst.opcode.setWidth 32) inst.rd inst.uImm = w
  j : encodeJ (inst.opcode.setWidth 32) inst.rd inst.jImm = w
  r4 : encodeR4 (inst.opcode.setWidth 32) inst.rd
    (inst.funct3.setWidth 32) inst.rs1 inst.rs2 inst.rs3
    ((inst.funct7 &&& 0x3).setWidth 32) = w

/-- Decoding is the inverse of the encoders, on both sides. -/
theorem decode_inverts_encode :
    (∀ (opcode funct3 funct7 fmt : U32) (rd rs1 rs2 rs3 : Nat), opcode.toNat < 128 →
      funct3.toNat < 8 →
      funct7.toNat < 128 → fmt.toNat < 4 → rd < 32 → rs1 < 32 → rs2 < 32 → rs3 < 32 →
      DecodesBack opcode funct3 funct7 fmt rd rs1 rs2 rs3) ∧
    ∀ w, EncodesBack w (DecodedInst32.decode w) := by
  constructor
  · intro opcode funct3 funct7 fmt rd rs1 rs2 rs3 op f3 f7 f d s1 s2 s3
    constructor
    case r => exact fun inst => decode_encodeR op d f3 s1 s2 f7
    case i => exact fun imm least most inst => decode_encodeI op d f3 s1 least most
    case s => exact fun imm least most inst => decode_encodeS op f3 s1 s2 least most
    case b => exact fun imm least most even inst => decode_encodeB op f3 s1 s2 least most even
    case u => exact fun imm upper inst => decode_encodeU op d upper
    case j => exact fun imm least most even inst => decode_encodeJ op d least most even
    case r4 => exact fun inst => decode_encodeR4 op d f3 s1 s2 s3 f
  · intro w
    constructor
    case r => exact encodeR_decode w rfl
    case i => exact encodeI_decode w rfl
    case s => exact encodeS_decode w rfl
    case b => exact encodeB_decode w rfl
    case u => exact encodeU_decode w rfl
    case j => exact encodeJ_decode w rfl
    case r4 => exact encodeR4_decode w rfl

/-- `beq x1, x2, -4`, there and back. -/
theorem decode_inverts_encode_beq :
    (DecodedInst32.decode (encodeB 0x63 0 1 2 0xFFFFFFFC)).bImm = 0xFFFFFFFC ∧
      encodeB 0x63 0 1 2 (DecodedInst32.decode 0xFE208EE3).bImm = 0xFE208EE3 := by
  obtain ⟨back, again⟩ := decode_inverts_encode
  have fields := back 0x63 0 0 0 0 1 2 0 (by decide) (by decide) (by decide) (by decide)
    (by decide) (by decide)
    (by decide) (by decide)
  exact ⟨(fields.b 0xFFFFFFFC (by decide) (by decide) (by decide) _ rfl).2.2.2.2,
    (again 0xFE208EE3).b⟩

end RiscvRs
