import RiscvRs.Disasm.Decode

/-! A printed line tells its mnemonic and operands. -/

namespace RiscvRs

open Text

theorem regName_inj : ∀ r s : Fin 32, regName r = regName s → r = s := by decide +kernel

theorem fregName_inj : ∀ r s : Fin 32, fregName r = fregName s → r = s := by decide +kernel

theorem regName_ne_fregName : ∀ r s : Fin 32, regName r ≠ fregName s := by decide +kernel

/-- Neither a digit nor a sign. -/
def letter (c : Char) : Bool := c != '-' && !c.isDigit

/-- Register names have a letter, and no mark of the other operands. -/
def IsName (s : String) : Prop :=
  ',' ∉ s.toList ∧ '(' ∉ s.toList ∧ 'x' ∉ s.toList ∧ s.toList.any letter = true

theorem isName_regName : ∀ r : Fin 32, IsName (regName r) := by
  unfold IsName
  decide +kernel

theorem isName_fregName : ∀ r : Fin 32, IsName (fregName r) := by
  unfold IsName
  decide +kernel

section Operands

theorem toList_hexPadded_one (val : Nat) :
    (hexPadded 1 val).toList = '0' :: 'x' :: Nat.toDigits 16 val := by
  have some := Nat.length_toDigits_pos (b := 16) (n := val)
  rw [hexPadded, String.toList_ofList, Nat.sub_eq_zero_of_le some]
  rfl

theorem not_mem_decimal {c : Char} (val : Int) (other : letter c = true) :
    c ∉ (toString val).toList := by
  intro member
  rcases mem_decimal member with rfl | digit
  · exact Bool.noConfusion other
  · simp [letter, digit] at other

theorem not_mem_hex {c : Char} (val : Nat) (other : c ∉ '0' :: 'x' :: hexChars) :
    c ∉ (hexPadded 1 val).toList := by
  rw [toList_hexPadded_one]
  intro member
  rcases List.mem_cons.mp member with zero | member
  · exact other (zero ▸ List.mem_cons_self)
  · rcases List.mem_cons.mp member with mark | digit
    · exact other (mark ▸ List.mem_cons_of_mem _ List.mem_cons_self)
    · exact other (List.mem_cons_of_mem _ (List.mem_cons_of_mem _ (mem_hexDigits digit)))

/-- The operands of a line without placeholders and symbols. -/
def Operand.isPlain : Operand → Bool
  | hex _ symbol => symbol.isNone
  | padded .. => false
  | _ => true

theorem toList_mem (offset : Int) (base : Fin 32) :
    (Operand.mem offset base).text.toList = (toString offset).toList ++
      '(' :: ((regName base).toList ++ [')']) := by
  simp [Operand.text]

theorem mem_text_inj {offset offset' : Int} {base base' : Fin 32}
    (same : (Operand.mem offset base).text = (Operand.mem offset' base').text) :
    offset = offset' ∧ base = base' := by
  have chars := congrArg String.toList same
  rw [toList_mem, toList_mem] at chars
  obtain ⟨front, rest⟩ :=
    front_inj (not_mem_decimal offset (by decide)) (not_mem_decimal offset' (by decide)) chars
  have name := List.append_cancel_right rest
  exact ⟨decimal_inj (String.toList_inj.mp front),
    regName_inj base base' (String.toList_inj.mp name)⟩

theorem hex_text_inj {val val' : U32} (same : hexPadded 1 val.toNat = hexPadded 1 val'.toNat) :
    val = val' := by
  have chars := congrArg String.toList same
  rw [toList_hexPadded_one, toList_hexPadded_one] at chars
  have digits := (List.cons.inj (List.cons.inj chars).2).2
  exact BitVec.eq_of_toNat_eq (hexDigits_inj digits)

/-- The kinds of operand, as a reader tells them apart. -/
inductive Shape where
  | name | number | hex | mem
deriving DecidableEq

def shapeOf (s : String) : Shape :=
  if '(' ∈ s.toList then .mem
  else if 'x' ∈ s.toList then .hex
  else if s.toList.any letter then .name
  else .number

def Operand.shape : Operand → Shape
  | reg _ | freg _ => .name
  | int _ => .number
  | mem .. => .mem
  | hex .. | padded .. => .hex

theorem shapeOf_name {s : String} (name : IsName s) : shapeOf s = .name := by
  obtain ⟨-, paren, mark, some⟩ := name
  rw [shapeOf, if_neg paren, if_neg mark, if_pos some]

theorem shapeOf_text {operand : Operand} (plain : operand.isPlain = true) :
    shapeOf operand.text = operand.shape := by
  cases operand with
  | reg num => exact shapeOf_name (isName_regName num)
  | freg num => exact shapeOf_name (isName_fregName num)
  | int val =>
    have digits : ¬(toString val).toList.any letter = true := by
      rw [List.any_eq_true]
      rintro ⟨c, member, other⟩
      exact not_mem_decimal val other member
    rw [shapeOf, Operand.text, if_neg (not_mem_decimal val rfl), if_neg (not_mem_decimal val rfl),
      if_neg digits]
    rfl
  | mem offset base =>
    have paren : '(' ∈ (Operand.mem offset base).text.toList := by
      rw [toList_mem]
      exact List.mem_append_right _ List.mem_cons_self
    rw [shapeOf, if_pos paren]
    rfl
  | hex val symbol =>
    obtain rfl := Option.isNone_iff_eq_none.mp plain
    have mark : 'x' ∈ (hexPadded 1 val.toNat).toList := by
      rw [toList_hexPadded_one]
      exact List.mem_cons_of_mem _ List.mem_cons_self
    rw [shapeOf, Operand.text, if_neg (not_mem_hex _ (by decide)), if_pos mark]
    rfl
  | padded width val => cases plain

theorem operand_text_inj {a b : Operand} (plain : a.isPlain = true) (plain' : b.isPlain = true)
    (same : a.text = b.text) : a = b := by
  have shapes : a.shape = b.shape := by rw [← shapeOf_text plain, ← shapeOf_text plain', same]
  cases a with
  | reg r =>
    cases b with
    | reg s => rw [regName_inj r s same]
    | freg s => exact absurd same (regName_ne_fregName r s)
    | _ => cases shapes
  | freg r =>
    cases b with
    | reg s => exact absurd same.symm (regName_ne_fregName s r)
    | freg s => rw [fregName_inj r s same]
    | _ => cases shapes
  | int val =>
    cases b with
    | int val' => rw [decimal_inj same]
    | _ => cases shapes
  | mem offset base =>
    cases b with
    | mem offset' base' =>
      obtain ⟨rfl, rfl⟩ := mem_text_inj same
      rfl
    | _ => cases shapes
  | hex val symbol =>
    obtain rfl := Option.isNone_iff_eq_none.mp plain
    cases b with
    | hex val' symbol' =>
      obtain rfl := Option.isNone_iff_eq_none.mp plain'
      rw [hex_text_inj same]
    | padded width val' => cases plain'
    | _ => cases shapes
  | padded width val => cases plain

theorem comma_free {operand : Operand} (plain : operand.isPlain = true) :
    ',' ∉ operand.text.toList := by
  cases operand with
  | reg num => exact (isName_regName num).1
  | freg num => exact (isName_fregName num).1
  | int val => exact not_mem_decimal val rfl
  | mem offset base =>
    rw [toList_mem]
    intro member
    rcases List.mem_append.mp member with front | rest
    · exact not_mem_decimal offset rfl front
    · have name := (isName_regName base).1
      simp [name] at rest
  | hex val symbol =>
    obtain rfl := Option.isNone_iff_eq_none.mp plain
    exact not_mem_hex _ (by decide)
  | padded width val => cases plain

end Operands

section Lines

namespace Mnemonic

def all : List Mnemonic :=
  [lui, auipc, j, jal, ret, jr, jalr, beqz, beq, bnez, bne, bltz, blt, bgez, bge, bltu, bgeu,
    unknownBranch,
    lb, lh, lw, lbu, lhu, loadUnknown, sb, sh, sw, storeUnknown,
    nop, li, mv, addi, slti, sltiu, xori, ori, andi, slli, srai, srli, opImmUnknown,
    add, sub, sll, slt, sltu, xor, srl, sra, or, and, mul, mulh, mulhsu, mulhu, div, divu, rem,
      remu, opUnknown,
    flw, fsw, ecall, ebreak, mret, csrrw, csrrs, csrrc, csrrwi, csrrsi, csrrci, csrOp, unimpl,
    cReserved, cAddi4spn, cFld, cLw, cFlw, cFsd, cSw, cFsw,
    cNop, cAddi, cJal, cLi, cAddi16sp, cLui, cSrli, cSrai, cAndi, cSub, cXor, cOr, cAnd, cJ,
      cBeqz, cBnez,
    cSlli, cFldsp, cLwsp, cFlwsp, cJr, cMv, cEbreak, cJalr, cAdd, cFsdsp, cSwsp, cFswsp]

theorem mem_all (m : Mnemonic) : m ∈ all := by cases m <;> decide +kernel

theorem text_nodup : (all.map text).Nodup := by decide +kernel

theorem text_inj {m n : Mnemonic} (same : m.text = n.text) : m = n :=
  List.inj_on_of_nodup_map text_nodup (mem_all m) (mem_all n) same

theorem blank_free (m : Mnemonic) : ' ' ∉ m.text.toList := by
  have each : ∀ m ∈ all, ' ' ∉ m.text.toList := by decide +kernel
  exact each m (mem_all m)

end Mnemonic

def Asm.isPlain (line : Asm) : Bool := line.operands.all Operand.isPlain

theorem operands_inj {operands operands' : List Operand}
    (plain : operands.all Operand.isPlain = true)
    (plain' : operands'.all Operand.isPlain = true)
    (same : operands.map Operand.text = operands'.map Operand.text) :
    operands = operands' := by
  induction operands generalizing operands' with
  | nil =>
    cases operands' with
    | nil => rfl
    | cons o' rest' => cases same
  | cons o rest ih =>
    cases operands' with
    | nil => cases same
    | cons o' rest' =>
      obtain ⟨first, others⟩ := List.cons.inj same
      obtain ⟨here, later⟩ := Bool.and_eq_true_iff.mp plain
      obtain ⟨here', later'⟩ := Bool.and_eq_true_iff.mp plain'
      rw [operand_text_inj here here' first, ih later later' others]

/-- Lines with one text are one line. -/
theorem Asm.text_inj {line line' : Asm} (plain : line.isPlain = true)
    (plain' : line'.isPlain = true)
    (same : line.text = line'.text) : line = line' := by
  have free {l : Asm} (fine : l.isPlain = true) : ∀ s ∈ l.operands.map Operand.text,
    ',' ∉ s.toList := by
    intro s member
    obtain ⟨operand, inside, rfl⟩ := List.mem_map.mp member
    exact comma_free (List.all_eq_true.mp fine operand inside)
  obtain ⟨word, parts⟩ :=
    line_inj line.mnemonic.blank_free line'.mnemonic.blank_free (free plain) (free plain') same
  cases line
  cases line'
  cases Mnemonic.text_inj word
  cases operands_inj plain plain' parts
  rfl

/-- The first words that stand for an instruction the disassembler does not know. -/
def placeholders : List String :=
  ["c.reserved", "unimpl", "load_unknown", "store_unknown", "op_imm_unknown", "op_unknown",
    "unknown_branch",
    "csr_op"]

def isPlaceholder (text : String) : Bool := placeholders.contains (Text.word text)

def Mnemonic.Known (m : Mnemonic) : Prop := placeholders.contains m.text = false

instance : DecidablePred Mnemonic.Known := fun m =>
  inferInstanceAs (Decidable (placeholders.contains m.text = false))

theorem Asm.known_of_text {line : Asm} (known : isPlaceholder line.text = false) :
    line.mnemonic.Known := by
  rwa [isPlaceholder, Asm.text, word_line line.mnemonic.blank_free] at known

end Lines

section Plain

variable (address : U32)

theorem plain_branch (inst : DecodedInst32) : (decodeBranch address none inst).isPlain = true := by
  unfold decodeBranch
  dsimp only
  split <;> rfl

theorem plain_jalr (inst : DecodedInst32) : (decodeJalr inst).isPlain = true := by
  unfold decodeJalr
  dsimp only
  repeat' split
  all_goals rfl

theorem plain_opImm (inst : DecodedInst32) (known : (decodeOpImm inst).mnemonic.Known) :
    (decodeOpImm inst).isPlain = true := by
  revert known
  unfold decodeOpImm
  dsimp only
  repeat' split
  all_goals first
    | exact fun _ => rfl
    | exact fun known => absurd known (show ¬Mnemonic.opImmUnknown.Known by decide)

theorem plain_system (inst : DecodedInst32) : (decodeSystem inst).isPlain = true := by
  unfold decodeSystem
  repeat' split
  all_goals rfl

/-- Without a symbol map, the lines of known instructions are plain. -/
theorem decodeRv32_plain (raw : U32) (known : (decodeRv32 address raw none).mnemonic.Known) :
    (decodeRv32 address raw none).isPlain = true := by
  have unimpl : ¬Mnemonic.unimpl.Known := by decide
  unfold decodeRv32 at known ⊢
  dsimp only at known ⊢
  cases code : Opcode.ofBits? (DecodedInst32.decode raw).opcode with
  | none =>
    rw [code] at known
    exact absurd known unimpl
  | some code' =>
    rw [code] at known
    cases code' with
    | jal =>
      dsimp only
      split <;> rfl
    | jalr => exact plain_jalr _
    | branch => exact plain_branch address _
    | imm => exact plain_opImm _ known
    | system => exact plain_system _
    | lui | auipc | load | store | op | loadFp | storeFp => rfl
    | _ => exact absurd known unimpl

theorem decodeRvc_plain (inst : U16) (known : (decodeRvc address inst).mnemonic.Known) :
    (decodeRvc address inst).isPlain = true := by
  have reserved : ¬(cReserved inst).mnemonic.Known := show ¬Mnemonic.cReserved.Known by decide
  revert known
  unfold decodeRvc decodeQuadrant0 decodeQuadrant1 decodeQuadrant2 decodeLuiGroup decodeAluGroup
    decodeJumpGroup
  dsimp only
  repeat' split
  all_goals first
    | exact fun _ => rfl
    | exact fun known => absurd known reserved

end Plain

end RiscvRs
