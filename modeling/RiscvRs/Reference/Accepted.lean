import RiscvRs.Disasm.Reserved
import RiscvRs.Exec.Expansion
import RiscvRs.Exec.Panics

/-! Which compressed encodings the executor carries out: those that have an expansion, but
for the `C.LUI` hints. -/

namespace RiscvRs

open Effects Prog Isa.Asm
open Isa (slice)

/-- The hints of `C.LUI`: a load of the upper immediate into `x0`. -/
def LuiHint (word : U32) : Prop := ∃ imm, word = lui 0 imm

/-- Operation and expansion agree on whether the word is carried out. -/
def Accords (op : Op) (e? : Option U32) : Prop := op.Sure ↔ ∃ e, e? = some e ∧ ¬LuiHint e

section Opcodes

/-- The seven low bits of a format. -/
theorem low_append (x : BitVec 25) (opcode : BitVec 7) : (x ++ opcode).extractLsb' 0 7 = opcode :=
  BitVec.extractLsb'_append_eq_right

/-- Words with another opcode are no hints. -/
theorem not_luiHint_of_opcode {x : BitVec 25} {opcode : BitVec 7} (other : opcode ≠ 0b0110111) :
    ¬LuiHint (x ++ opcode) := by
  rintro ⟨imm, same⟩
  have low := congrArg (BitVec.extractLsb' 0 7) same
  rw [low_append] at low
  exact other (low.trans (low_append _ _))

theorem luiHint_lui_iff (rd : BitVec 5) (imm : BitVec 20) : LuiHint (lui rd imm) ↔ rd = 0 := by
  constructor
  · rintro ⟨imm', same⟩
    have dest := (Isa.fields_encU rd 0b0110111 imm).2.1
    have zero := (Isa.fields_encU 0 0b0110111 imm').2.1
    change lui rd imm = lui 0 imm' at same
    change Isa.rd (lui rd imm).toNat = _ at dest
    rw [same] at dest
    exact BitVec.eq_of_toFin_eq (dest.symm.trans zero)
  · rintro rfl
    exact ⟨imm, rfl⟩

end Opcodes

section Accord

variable {op : Op} {e? : Option U32}

theorem accords_some {x : BitVec 25} {opcode : BitVec 7} (sure : op.Sure)
    (other : opcode ≠ 0b0110111) :
    Accords op (some (x ++ opcode)) :=
  iff_of_true sure ⟨_, rfl, not_luiHint_of_opcode other⟩

theorem accords_none (unsure : ¬op.Sure) : Accords op none := by
  refine iff_of_false unsure ?_
  rintro ⟨e, none, -⟩
  cases none

theorem accords_illegal (raw : U32) : Accords (.illegal raw) none := accords_none id

/-- A check that both sides make. -/
theorem accords_unless {p q : Prop} [Decidable p] [Decidable q] (same : p ↔ q) {raw : U32}
    (rest : ¬p → Accords op e?) :
    Accords (if p then .illegal raw else op) (if q then none else e?) := by
  by_cases reserved : p
  · rw [if_pos reserved, if_pos (same.mp reserved)]
    exact accords_illegal raw
  · rw [if_neg reserved, if_neg (mt same.mpr reserved)]
    exact rest reserved

end Accord

section Quadrants

variable (c : U16) (cpu : Cpu) (next : U32)

theorem quadrant0_accords (funct3 : BitVec 3) :
    Accords (quadrant0Op c cpu next (funct3.setWidth 8)) (Isa.expand0 c funct3) := by
  rcases three_bits funct3 with rfl | rfl | rfl | rfl | rfl | rfl | rfl | rfl
  · exact accords_unless (addi4spnImm_eq_zero_iff c) fun _ => accords_some trivial (by decide)
  · exact accords_some trivial (by decide)
  · exact accords_some trivial (by decide)
  · exact accords_some trivial (by decide)
  · exact accords_illegal _
  · exact accords_some trivial (by decide)
  · exact accords_some trivial (by decide)
  · exact accords_some trivial (by decide)

/-- The one group where the executor rejects what the standard expands. -/
theorem luiGroup_accords : Accords (luiGroupOp c cpu next) (Isa.expandLui c) := by
  unfold luiGroupOp Isa.expandLui
  dsimp only
  by_cases stack : regField16 c 7 = 2
  · rw [if_pos stack, if_pos ((rd_eq_iff c 2).mp stack)]
    exact accords_unless (addi16spImm_eq_zero_iff c) fun _ => accords_some trivial (by decide)
  · rw [if_neg stack, if_neg (mt (rd_eq_iff c 2).mpr stack)]
    by_cases zero : regField16 c 7 = 0
    · have hint : Isa.rdFull c = 0 := (rd_eq_iff c 0).mp zero
      rw [if_neg (not_not.mpr zero)]
      refine iff_of_false id ?_
      rintro ⟨e, expanded, plain⟩
      split at expanded
      · cases expanded
      · obtain rfl := Option.some.inj expanded
        exact plain ((luiHint_lui_iff _ _).mpr hint)
    · rw [if_pos zero]
      by_cases empty : imm6 c = 0
      · rw [if_pos empty, if_pos ((imm6_eq_zero_iff c).mp empty)]
        exact accords_illegal _
      · rw [if_neg empty, if_neg (mt (imm6_eq_zero_iff c).mpr empty)]
        refine iff_of_true trivial ⟨_, rfl, ?_⟩
        exact mt (luiHint_lui_iff _ _).mp (mt (rd_eq_iff c 0).mpr zero)

/-- Bit 12 is reserved in most of the arithmetic group. -/
theorem bit12_accords {op : Op} {e? : Option U32} {raw : U32} (rest : Accords op e?) :
    Accords (if shiftThenMask c 12 1 ≠ 0 then .illegal raw else op)
      (if slice c 12 12 = 0 then e? else none) := by
  by_cases clear : slice c 12 12 = 0
  · rw [if_neg (not_not.mpr ((bit12_eq_zero_iff c).mpr clear)), if_pos clear]
    exact rest
  · rw [if_pos (mt (bit12_eq_zero_iff c).mp clear), if_neg clear]
    exact accords_illegal raw

theorem aluGroup_accords : Accords (aluGroupOp c cpu next) (Isa.expandAlu c) := by
  have selected : shiftThenMask c 10 0x3 = (slice c 11 10).setWidth 16 :=
    field_eq c (k := 2) rfl rfl (by decide)
  unfold aluGroupOp Isa.expandAlu
  dsimp only
  rw [selected]
  generalize slice c 11 10 = group
  rcases two_bits group with rfl | rfl | rfl | rfl
  · exact bit12_accords c (accords_some (sure_ite trivial trivial) (by decide))
  · exact bit12_accords c (accords_some (sure_ite trivial trivial) (by decide))
  · exact accords_some trivial (by decide)
  · refine bit12_accords c ?_
    generalize slice c 6 5 = minor
    rcases two_bits minor with rfl | rfl | rfl | rfl
    · exact accords_some trivial (by decide)
    · exact accords_some trivial (by decide)
    · exact accords_some trivial (by decide)
    · exact accords_some trivial (by decide)

theorem quadrant1_accords (funct3 : BitVec 3) :
    Accords (quadrant1Op c cpu next (funct3.setWidth 8)) (Isa.expand1 c funct3) := by
  rcases three_bits funct3 with rfl | rfl | rfl | rfl | rfl | rfl | rfl | rfl
  · exact accords_some (sure_ite trivial trivial) (by decide)
  · exact accords_some trivial (by decide)
  · exact accords_some trivial (by decide)
  · exact luiGroup_accords c cpu next
  · exact aluGroup_accords c cpu next
  · exact accords_some trivial (by decide)
  · exact accords_some trivial (by decide)
  · exact accords_some trivial (by decide)

theorem jumpGroup_accords : Accords (jumpGroupOp c cpu next) (Isa.expandJump c) := by
  have rd (r : BitVec 5) := rd_eq_iff c r
  have rs2 : regField16 c 2 = 0 ↔ Isa.rs2Full c = 0 := rs2_eq_iff c 0
  have bit12 := bit12_eq_zero_iff c
  unfold jumpGroupOp Isa.expandJump
  dsimp only
  by_cases low : shiftThenMask c 12 1 = 0
  · rw [if_pos (bit12.mp low)]
    by_cases jump : regField16 c 2 = 0
    · rw [if_pos ⟨low, jump⟩, if_pos (rs2.mp jump)]
      exact accords_unless (rd 0) fun _ => accords_some trivial (by decide)
    · rw [if_neg fun both => jump both.2, if_pos ⟨low, jump⟩, if_neg (mt rs2.mpr jump)]
      exact accords_some (sure_ite trivial trivial) (by decide)
  · rw [if_neg fun both => low both.1, if_neg fun both => low both.1, if_neg (mt bit12.mpr low)]
    by_cases jump : regField16 c 2 = 0
    · rw [if_pos (rs2.mp jump)]
      by_cases zero : regField16 c 7 = 0
      · rw [if_pos ⟨zero, jump⟩, if_pos ((rd 0).mp zero)]
        exact accords_some trivial (by decide)
      · rw [if_neg fun both => zero both.1, if_pos jump, if_neg (mt (rd 0).mpr zero)]
        exact accords_some trivial (by decide)
    · rw [if_neg fun both => jump both.2, if_neg jump, if_neg (mt rs2.mpr jump)]
      exact accords_some (sure_ite trivial trivial) (by decide)

theorem quadrant2_accords (funct3 : BitVec 3) :
    Accords (quadrant2Op c cpu next (funct3.setWidth 8)) (Isa.expand2 c funct3) := by
  rcases three_bits funct3 with rfl | rfl | rfl | rfl | rfl | rfl | rfl | rfl
  · exact bit12_accords c (accords_some (sure_ite trivial trivial) (by decide))
  · exact accords_some trivial (by decide)
  · exact accords_unless (rd_eq_iff c 0) fun _ => accords_some trivial (by decide)
  · exact accords_some trivial (by decide)
  · exact jumpGroup_accords c cpu next
  · exact accords_some trivial (by decide)
  · exact accords_some trivial (by decide)
  · exact accords_some trivial (by decide)

theorem quadrant_accords :
    Accords (quadrantOp c cpu next (DecodedInst16.decode c).op (DecodedInst16.decode c).funct3)
      (Isa.expand c) := by
  rw [decode16_op, decode16_funct3, Isa.expand]
  generalize slice c 15 13 = funct3
  generalize slice c 1 0 = quadrant
  rcases two_bits quadrant with rfl | rfl | rfl | rfl
  · exact quadrant0_accords c cpu next funct3
  · exact quadrant1_accords c cpu next funct3
  · exact quadrant2_accords c cpu next funct3
  · exact accords_illegal _

end Quadrants

/-- An operation that raises no error and adds no addresses with a check ends. -/
theorem Op.runs (env : Env) {op : Op} (sure : op.Sure) (common : op.Common) (m : Machine) :
    ∃ next m', (op.exec env).run m = .ok next m' := by
  have total : Total (op.exec env) := by
    cases op with
    | loadDouble plain rd addr next =>
      obtain rfl : plain = false := common
      exact total_bind (total_loadWord env addr) fun _ => total_bind (total_pure _) fun _ =>
        total_bind (total_loadWord env _) fun _ => total_bind (total_modifyCpu _) fun _ => total_pure _
    | storeDouble plain bits addr next =>
      obtain rfl : plain = false := common
      exact total_bind (total_storeWord addr _) fun _ => total_bind (total_pure _) fun _ =>
        total_bind (total_storeWord _ _) fun _ => total_pure _
    | ecall | amo | mret | csr | illegal | unknown => exact sure.elim
    | _ => exact Op.total_exec trivial
  exact total.ok (Op.steady_exec env sure) m

/-- A compressed word is carried out exactly when the standard expands it, but for the hints of
`C.LUI`, whatever the machine holds. -/
theorem compressed_accepted_iff (env : Env) (m : Machine) (c : U16) :
    (∃ m', (executeInst16 env c).run m = .ok () m') ↔ ∃ e, Isa.expand c = some e ∧
      ∀ imm, e ≠ lui 0 imm := by
  have accord : _ ↔ _ := quadrant_accords c m.cpu (m.cpu.pc + 2)
  have run := Fetched.execute_run env (.half c) m
  rw [Fetched.execute, Fetched.op] at run
  have same : (∃ e, Isa.expand c = some e ∧ ∀ imm, e ≠ lui 0 imm) ↔ ∃ e, Isa.expand c = some e ∧
    ¬LuiHint e :=
    exists_congr fun e => and_congr_right fun _ => not_exists.symm
  rw [same, ← accord, run]
  constructor
  · rintro ⟨m', done⟩
    obtain ⟨next, m₁, executed, -⟩ := Outcome.andThen_eq_ok.mp done
    rcases concur_decodeRvc c m.cpu (m.cpu.pc + 2) 0 with ⟨-, illegal⟩ | ⟨-, sure⟩
    · rw [illegal] at executed
      cases executed
    · exact sure
  · intro sure
    obtain ⟨next, m₁, executed⟩ := Op.runs env sure (common_quadrantOp c m.cpu (m.cpu.pc + 2) _ _) m
    exact ⟨m₁.jump next, by rw [executed]; rfl⟩

end RiscvRs
