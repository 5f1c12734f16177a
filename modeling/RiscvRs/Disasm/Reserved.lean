import RiscvRs.Disasm.Meaning
import RiscvRs.Exec.Decoding
import RiscvRs.Exec.Effects

/-! The reserved compressed encodings: the words the executor rejects are the
ones a listing shows as reserved. -/

namespace RiscvRs

open Effects Prog

/-- An operation that raises no error, whatever the machine holds. -/
def Op.Sure : Op → Prop
  | amo .. | ecall _ | mret _ | csr .. | illegal _ | unknown _ => False
  | _ => True

section Sure

variable (env : Env)

theorem steady_load (kind : LoadKind) (addr : U32) :
    Steady execFrame (onBus (Memory.readAt env.host kind.width addr) : Exec _) := by
  cases kind with
  | lb | lbu => exact steady_of_ask (ask_readU8 _ _)
  | lh | lhu => exact steady_of_ask (ask_readU16 _ _)
  | lw => exact steady_of_ask (ask_readU32 _ _)

theorem steady_store (width : Width) (addr : U32) (val : BitVec width.bits) :
    Steady execFrame (onBus (Memory.writeAt width addr val) : Exec Unit) := by
  cases width with
  | byte => exact steady_onBus (steady_writeU8 tells_busFrame stores_busFrame addr val)
  | half => exact steady_onBus (steady_writeU16 tells_busFrame stores_busFrame addr val)
  | word => exact steady_storeU32 addr val

theorem steady_secondWord (plain : Bool) (addr : U32) :
    Steady execFrame (env.build.secondWord plain addr : Exec U32) := by
  unfold Build.secondWord
  split
  · exact steady_addU32 _ _ _
  · exact steady_pure _

theorem Op.steady_exec {op : Op} (sure : op.Sure) : Steady execFrame (op.exec env) := by
  have write (rd : Fin 32) (val next : U32) :
      Steady execFrame (do modifyCpu (·.writeReg rd val); return next : Exec U32) :=
    steady_next (steady_writeReg rd val) next
  have writeF (rd : Fin 32) (bits : U64) (next : U32) :
      Steady execFrame (do modifyCpu (·.setFreg rd bits); return next : Exec U32) :=
    steady_next (steady_setFreg rd bits) next
  cases op with
  | goto next => exact steady_pure next
  | write rd val next => exact write rd val next
  | writeF rd bits next => exact writeF rd bits next
  | halt next => exact steady_next steady_halted next
  | load kind rd addr next => exact steady_bind (steady_load env kind addr) fun _ => write _ _ _
  | loadSingle rd addr next =>
    exact steady_bind (steady_of_ask (ask_readU32 _ _)) fun _ => writeF _ _ _
  | loadDouble plain rd addr next =>
    exact steady_bind (steady_of_ask (ask_readU32 _ _)) fun _ =>
      steady_bind (steady_secondWord env plain addr)
      fun _ => steady_bind (steady_of_ask (ask_readU32 _ _)) fun _ => writeF _ _ _
  | store width addr val next => exact steady_next (steady_store width addr _) next
  | storeDouble plain bits addr next =>
    exact steady_bind (steady_storeU32 _ _) fun _ => steady_bind (steady_secondWord env plain addr)
      fun _ => steady_next (steady_storeU32 _ _) next
  | _ => exact sure.elim

end Sure

/-- Line and operation agree: both are reserved, or neither is. -/
def Concur (inst : U16) (line : Asm) (op : Op) : Prop :=
  line.mnemonic = .cReserved ∧ op = .illegal (inst.setWidth 32) ∨
    line.mnemonic ≠ .cReserved ∧ op.Sure

section Concur

variable (inst : U16) (cpu : Cpu) (next address : U32)

theorem concur_reserved : Concur inst (cReserved inst) (.illegal (inst.setWidth 32)) := .inl ⟨rfl, rfl⟩

variable {inst} in
theorem concur_sure {line : Asm} {op : Op} (other : line.mnemonic ≠ .cReserved) (sure : op.Sure) :
    Concur inst line op :=
  .inr ⟨other, sure⟩

/-- A check that both sides make. -/
theorem concur_unless {p : Prop} [Decidable p] {line : Asm} {op : Op}
    (rest : ¬p → Concur inst line op) :
    Concur inst (if p then cReserved inst else line)
      (if p then .illegal (inst.setWidth 32) else op) := by
  split
  · exact concur_reserved inst
  · next passed => exact rest passed

theorem sure_ite {p : Prop} [Decidable p] {yes no : Op} (sure : yes.Sure) (sure' : no.Sure) :
    (if p then yes else no).Sure := by
  split
  · exact sure
  · exact sure'

theorem concur_quadrant0 {k : Nat} (bound : k < 8) :
    Concur inst (decodeQuadrant0 inst (BitVec.ofNat 16 k))
      (quadrant0Op inst cpu next (BitVec.ofNat 8 k)) := by
  interval_cases k
  · -- the executor looks at the immediate after widening it
    change Concur inst (if _ = (0 : U16) then _ else _) (if addi4spnImm inst = 0 then _ else _)
    split
    · next zero =>
      have widened : addi4spnImm inst = 0 := congrArg (BitVec.setWidth 32) zero
      rw [if_pos widened]
      exact concur_reserved inst
    · next some =>
      have widened : addi4spnImm inst ≠ 0 := widen_ne_zero some
      rw [if_neg widened]
      exact concur_sure nofun trivial
  · exact concur_sure nofun trivial
  · exact concur_sure nofun trivial
  · exact concur_sure nofun trivial
  · exact concur_reserved inst
  · exact concur_sure nofun trivial
  · exact concur_sure nofun trivial
  · exact concur_sure nofun trivial

theorem concur_luiGroup : Concur inst (decodeLuiGroup inst) (luiGroupOp inst cpu next) := by
  unfold decodeLuiGroup luiGroupOp
  dsimp only
  split
  · exact concur_unless inst fun _ => concur_sure nofun trivial
  · by_cases zero : regField16 inst 7 = 0
    · rw [if_pos (.inl zero), if_neg (not_not.mpr zero)]
      exact concur_reserved inst
    · rw [if_pos zero]
      by_cases imm : imm6 inst = 0
      · rw [if_pos imm, if_pos (.inr imm)]
        exact concur_reserved inst
      · rw [if_neg imm]
        split
        · next reserved => exact absurd (reserved.resolve_left zero) imm
        · exact concur_sure nofun trivial

theorem concur_aluGroup : Concur inst (decodeAluGroup inst) (aluGroupOp inst cpu next) := by
  have major : (shiftThenMask inst 10 0x3).toNat < 4 := Nat.lt_succ_of_le (mask_lt _ _)
  have minor : (shiftThenMask inst 5 0x3).toNat < 4 := Nat.lt_succ_of_le (mask_lt _ _)
  unfold decodeAluGroup aluGroupOp
  dsimp only
  generalize shiftThenMask inst 10 0x3 = group at major
  generalize shiftThenMask inst 5 0x3 = which at minor
  obtain ⟨g, below, rfl⟩ : ∃ g < 4, group = BitVec.ofNat 16 g := ⟨_, major, by simp⟩
  interval_cases g
  · exact concur_unless inst fun _ => concur_sure nofun (sure_ite trivial trivial)
  · exact concur_unless inst fun _ => concur_sure nofun (sure_ite trivial trivial)
  · exact concur_sure nofun trivial
  · refine concur_unless inst fun _ => concur_sure ?_ trivial
    obtain ⟨k, bound, rfl⟩ : ∃ k < 4, which = BitVec.ofNat 16 k := ⟨_, minor, by simp⟩
    interval_cases k <;> nofun

theorem concur_jumpGroup : Concur inst (decodeJumpGroup inst) (jumpGroupOp inst cpu next) := by
  unfold decodeJumpGroup jumpGroupOp
  dsimp only
  split
  · exact concur_unless inst fun _ => concur_sure nofun trivial
  · next jump =>
    by_cases low : shiftThenMask inst 12 1 = 0
    · rw [if_pos low, if_pos ⟨low, fun zero => jump ⟨low, zero⟩⟩]
      exact concur_sure nofun (sure_ite trivial trivial)
    · have high : ¬(shiftThenMask inst 12 1 = 0 ∧ regField16 inst 2 ≠ 0) := fun both => low both.1
      rw [if_neg low, if_neg high]
      split
      · exact concur_sure nofun trivial
      · split
        · exact concur_sure nofun trivial
        · exact concur_sure nofun (sure_ite trivial trivial)

theorem concur_quadrant1 {k : Nat} (bound : k < 8) :
    Concur inst (decodeQuadrant1 address inst (BitVec.ofNat 16 k))
      (quadrant1Op inst cpu next (BitVec.ofNat 8 k)) := by
  interval_cases k
  · refine concur_sure ?_ (sure_ite trivial trivial)
    change (if regField16 inst 7 = 0 then Asm.mk .cNop [] else _).mnemonic ≠ _
    split <;> nofun
  · exact concur_sure nofun trivial
  · exact concur_sure nofun trivial
  · exact concur_luiGroup inst cpu next
  · exact concur_aluGroup inst cpu next
  · exact concur_sure nofun trivial
  · exact concur_sure nofun trivial
  · exact concur_sure nofun trivial

theorem concur_quadrant2 {k : Nat} (bound : k < 8) :
    Concur inst (decodeQuadrant2 inst (BitVec.ofNat 16 k))
      (quadrant2Op inst cpu next (BitVec.ofNat 8 k)) := by
  interval_cases k
  · exact concur_unless inst fun _ => concur_sure nofun (sure_ite trivial trivial)
  · exact concur_sure nofun trivial
  · exact concur_unless inst fun _ => concur_sure nofun trivial
  · exact concur_sure nofun trivial
  · exact concur_jumpGroup inst cpu next
  · exact concur_sure nofun trivial
  · exact concur_sure nofun trivial
  · exact concur_sure nofun trivial

/-- Line and executor select by the same fields. -/
theorem concur_decodeRvc :
    Concur inst (decodeRvc address inst)
      (quadrantOp inst cpu next (DecodedInst16.decode inst).op
        (DecodedInst16.decode inst).funct3) := by
  have minor : (shiftThenMask inst 13 0x7).toNat < 8 := Nat.lt_succ_of_le (mask_lt _ _)
  have major : (inst &&& 0x3).toNat < 4 := Nat.lt_succ_of_le (mask_lt _ _)
  unfold decodeRvc DecodedInst16.decode
  dsimp only
  generalize shiftThenMask inst 13 0x7 = funct3 at minor
  generalize inst &&& 0x3 = quadrant at major
  obtain ⟨k, bound, rfl⟩ : ∃ k < 8, funct3 = BitVec.ofNat 16 k := ⟨_, minor, by simp⟩
  obtain ⟨q, below, rfl⟩ : ∃ q < 4, quadrant = BitVec.ofNat 16 q := ⟨_, major, by simp⟩
  have narrow : (BitVec.ofNat 16 k).setWidth 8 = BitVec.ofNat 8 k := by
    interval_cases k <;> rfl
  rw [narrow]
  interval_cases q
  · exact concur_quadrant0 inst cpu next bound
  · exact concur_quadrant1 inst cpu next address bound
  · exact concur_quadrant2 inst cpu next bound
  · exact concur_reserved inst

/-- The first word of a line tells its mnemonic. -/
theorem word_text_iff (line : Asm) (m : Mnemonic) :
    Text.word line.text = m.text ↔ line.mnemonic = m := by
  rw [Asm.text, Text.word_line line.mnemonic.blank_free]
  exact ⟨Mnemonic.text_inj, congrArg Mnemonic.text⟩

/-- A compressed word raises the illegal-instruction error exactly when its line reads
`c.reserved`. The line shows nothing of the machine, so neither does the error depend on it. -/
theorem reserved_iff_rendered (env : Env) (inst : U16) (address : U32) (m : Machine) :
    (∃ pc raw m', (executeInst16 env inst).run m = .err (.illegalInstruction pc raw) m') ↔
      Text.word (decodeRvc address inst).text = "c.reserved" := by
  refine Iff.trans ?_ (word_text_iff (decodeRvc address inst) .cReserved).symm
  have run := Fetched.execute_run env (.half inst) m
  rw [Fetched.execute] at run
  rw [run, Fetched.op]
  rcases concur_decodeRvc inst m.cpu (m.cpu.pc + 2) address with ⟨reserved, illegal⟩ | ⟨other, sure⟩
  · rw [illegal]
    exact iff_of_true ⟨_, _, _, rfl⟩ reserved
  · refine iff_of_false ?_ other
    rintro ⟨pc, raw, m', raised⟩
    generalize executed : ((quadrantOp inst m.cpu (m.cpu.pc + 2) (DecodedInst16.decode inst).op
      (DecodedInst16.decode inst).funct3).exec env).run m = outcome at raised
    cases outcome with
    | err error m₁ => exact (Op.steady_exec env sure).ne_err executed
    | ok => cases raised
    | panic => cases raised
    | exhausted => cases raised

end Concur

end RiscvRs
