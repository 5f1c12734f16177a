import RiscvRs.Exec.Atomics
import RiscvRs.Exec.Conformance
import RiscvRs.Exec.Equivalence
import RiscvRs.Exec.MulDiv
import RiscvRs.Isa.Process
import RiscvRs.Reference.Accepted

/-! Every instruction of the reference machine, full or compressed, against the two
interpreters. -/

namespace Isa

/-- The register that keeps the return address. -/
def Inst.link? : Inst → Option (Fin 32)
  | jal rd _ | jalr rd _ _ => if rd = 0 then none else some rd
  | _ => none

/-- Control goes to a target. -/
def Inst.leaves (s : State) : Inst → Bool
  | jal .. | jalr .. => true
  | branch cond rs1 rs2 _ => cond.holds (s.x rs1) (s.x rs2)
  | _ => false

section Sizes

variable (n k : Nat) (s : State) (inst : Inst)

theorem set_x_self {rd : Fin 32} (named : rd ≠ 0) (value : Int) :
    (s.set rd value).x rd = wrap value := by
  have index : ¬rd.val = 0 := mt Fin.val_eq_zero_iff.mp named
  simp only [State.set, if_neg index, Function.update_self]

theorem set_x_of_ne {rd r : Fin 32} (other : (if rd = 0 then none else some rd) ≠ some r)
    (value : Int) :
    (s.set rd value).x r = s.x r := by
  by_cases dropped : rd = 0
  · simp only [State.set, if_pos (Fin.val_eq_zero_iff.mpr dropped)]
  · rw [if_neg dropped] at other
    have apart : r ≠ rd := fun same => other (congrArg some same.symm)
    simp only [State.set, if_neg (mt Fin.val_eq_zero_iff.mp dropped), Function.update_of_ne apart]

theorem execSized_mem : (execSized n s inst).mem = (execSized k s inst).mem := by
  cases inst <;> rfl

/-- The size shows in the link and in the address that control falls through to. -/
theorem execSized_x {r : Fin 32} (other : inst.link? ≠ some r) :
    (execSized n s inst).x r = (execSized k s inst).x r := by
  cases inst with
  | jal rd imm => exact (set_x_of_ne s other _).trans (set_x_of_ne s other _).symm
  | jalr rd rs1 imm => exact (set_x_of_ne s other _).trans (set_x_of_ne s other _).symm
  | _ => rfl

theorem execSized_link {r : Fin 32} (linked : inst.link? = some r) :
    (execSized n s inst).x r = wrap (s.pc + n) := by
  have here (rd : Fin 32) (same : (if rd = 0 then none else some rd) = some r) (value : Int) :
      (s.set rd value).x r = wrap value := by
    by_cases dropped : rd = 0
    · rw [if_pos dropped] at same
      cases same
    · rw [if_neg dropped] at same
      obtain rfl := Option.some.inj same
      exact set_x_self s dropped value
  cases inst with
  | jal rd imm => exact here rd linked _
  | jalr rd rs1 imm => exact here rd linked _
  | _ => cases linked

theorem execSized_leaves (leaves : inst.leaves s = true) :
    (execSized n s inst).pc = (execSized k s inst).pc := by
  cases inst with
  | jal | jalr => rfl
  | branch cond rs1 rs2 imm =>
    change cond.holds _ _ = true at leaves
    simp only [execSized, State.goto, if_pos leaves]
  | _ => cases leaves

theorem execSized_falls (falls : inst.leaves s = false) :
    (execSized n s inst).pc = wrap (s.pc + n) := by
  cases inst with
  | jal | jalr => cases falls
  | branch cond rs1 rs2 imm =>
    change cond.holds _ _ = false at falls
    simp only [execSized, State.goto, falls, Bool.false_eq_true, if_false]
  | _ => rfl

end Sizes

end Isa

namespace RiscvRs

open Effects Prog Bytes

section Base

variable {env : Env} {m : Machine} {raw : U32} {inst : Isa.Inst}

/-- Executor and reference agree on where the instruction links and whether it jumps. -/
structure Shaped (m : Machine) (raw : U32) (inst : Isa.Inst) : Prop where
  link : (DecodedInst32.decode raw).link? = inst.link?
  leaves : (DecodedInst32.decode raw).jumps m.cpu = inst.leaves m.reference

/-- An instruction that neither links nor jumps. -/
theorem shaped_straight (code : Opcode) {major : Nat} (found : Isa.opcode raw.toNat = major)
    (same : BitVec.ofNat 8 major = code.bits)
    (other : code ≠ .jal ∧ code ≠ .jalr ∧ code ≠ .branch ∧ code ≠ .system)
    (unlinked : inst.link? = none) (stays : inst.leaves m.reference = false) :
    Shaped m raw inst := by
  have known := opcode_known code found same
  obtain ⟨notJal, notJalr, notBranch, notSystem⟩ := other
  constructor
  · rw [DecodedInst32.link?, known, unlinked]
    cases code with
    | jal => exact absurd rfl notJal
    | jalr => exact absurd rfl notJalr
    | _ => rfl
  · rw [DecodedInst32.jumps, known, stays]
    cases code with
    | jal => exact absurd rfl notJal
    | jalr => exact absurd rfl notJalr
    | branch => exact absurd rfl notBranch
    | system => exact absurd rfl notSystem
    | _ => rfl

/-- What the executor does with a legal base word, and how control and link go. -/
theorem decode_conforms (env : Env) (m : Machine) (legal : Isa.decode raw.toNat = some inst) :
    Shaped m raw inst ∧
      ((∀ addr n, inst.access m.reference = some (addr, n) → addr + n ≤ 0xFFFF0000) →
        Conforms env raw m inst) := by
  unfold Isa.decode at legal
  split at legal
  case h_1 major =>
    cases legal
    exact ⟨shaped_straight .lui major rfl (by decide) rfl rfl, fun _ => conforms_lui major⟩
  case h_2 major =>
    cases legal
    exact ⟨shaped_straight .auipc major rfl (by decide) rfl rfl, fun _ => conforms_auipc major⟩
  case h_3 major =>
    cases legal
    have known := opcode_known .jal major rfl
    refine ⟨⟨?_, ?_⟩, fun _ => conforms_jal major⟩
    · rw [DecodedInst32.link?, known, decode_rd]
      rfl
    · rw [DecodedInst32.jumps, known]
      rfl
  case h_4 major =>
    split at legal
    · cases legal
      have known := opcode_known .jalr major rfl
      refine ⟨⟨?_, ?_⟩, fun _ => conforms_jalr major⟩
      · rw [DecodedInst32.link?, known, decode_rd]
        rfl
      · rw [DecodedInst32.jumps, known]
        rfl
    · cases legal
  case h_5 major =>
    obtain ⟨cond, selected, rfl⟩ := Option.map_eq_some_iff.mp legal
    have known := opcode_known .branch major rfl
    have taken := branchTaken_eq (m.cpu.readReg (Isa.rs1 raw.toNat))
      (m.cpu.readReg (Isa.rs2 raw.toNat)) selected
    rw [← Isa.Cond.holds_toNat, ← decode_funct3, ← decode_rs1, ← decode_rs2] at taken
    refine ⟨⟨?_, ?_⟩, fun _ => conforms_branch major selected⟩
    · rw [DecodedInst32.link?, known]
      rfl
    · simp only [DecodedInst32.jumps, known, taken]
      have decided (decision : Bool) : (some decision == some true) = decision := by
        cases decision <;> rfl
      rw [decided, decode_rs1, decode_rs2]
      rfl
  case h_6 major =>
    obtain ⟨kind, selected, rfl⟩ := Option.map_eq_some_iff.mp legal
    exact ⟨shaped_straight .load major rfl (by decide) rfl rfl,
      fun below => conforms_load major selected (below _ _ rfl)⟩
  case h_7 major =>
    obtain ⟨size, selected, rfl⟩ := Option.map_eq_some_iff.mp legal
    exact ⟨shaped_straight .store major rfl (by decide) rfl rfl,
      fun below => conforms_store major selected (below _ _ rfl)⟩
  case h_8 major =>
    rcases Option.or_eq_some_iff.mp legal with immediate | ⟨-, shift⟩
    · obtain ⟨op, selected, rfl⟩ := Option.map_eq_some_iff.mp immediate
      exact ⟨shaped_straight .imm major rfl (by decide) rfl rfl,
        fun _ => conforms_opImm major selected⟩
    · obtain ⟨op, selected, rfl⟩ := Option.map_eq_some_iff.mp shift
      exact ⟨shaped_straight .imm major rfl (by decide) rfl rfl,
        fun _ => conforms_shift major selected⟩
  case h_9 major =>
    obtain ⟨op, selected, rfl⟩ := Option.map_eq_some_iff.mp legal
    exact ⟨shaped_straight .op major rfl (by decide) rfl rfl, fun _ => conforms_op major selected⟩
  case h_10 major =>
    split at legal
    · cases legal
      exact ⟨shaped_straight .miscMem major rfl (by decide) rfl rfl, fun _ => conforms_fence major⟩
    · cases legal
  case h_11 => cases legal

end Base

section Short

variable {env : Env} {m a b : Machine} {raw : U32} {inst : Isa.Inst}

theorem link?_ne_zero (inst : DecodedInst32) : inst.link? ≠ some 0 := by
  unfold DecodedInst32.link?
  split
  · split
    · nofun
    · next named => exact fun same => named (Option.some.inj same)
  · split
    · nofun
    · next named => exact fun same => named (Option.some.inj same)
  · nofun

/-- From four bytes to two: the state after the short form is the reference's. -/
theorem reference_of_agree (shape : Shaped m raw inst)
    (agree : Agree (DecodedInst32.decode raw) m.cpu (m.cpu.pc + 2) (m.cpu.pc + 4) a b)
    (long : b.reference = Isa.exec m.reference inst) :
    a.reference = Isa.execSized 2 m.reference inst := by
  rw [← Isa.execSized_four] at long
  have next : (m.cpu.pc + 2).toNat = Isa.wrap (m.reference.pc + (2 : Nat)) := by
    rw [Isa.wrap_eq]
    exact congrArg BitVec.toNat (ofInt_pc_add (m := m) 2).symm
  ext1
  · funext r
    by_cases linked : inst.link? = some r
    · have written := (agree.link r (shape.link.trans linked)).1
      have named : r ≠ 0 := by
        rintro rfl
        exact link?_ne_zero _ (shape.link.trans linked)
      rw [Isa.execSized_link 2 m.reference inst linked, ← next, ← written]
      exact congrArg BitVec.toNat (if_neg named)
    · have kept := agree.regs r fun same => linked (shape.link.symm.trans same)
      rw [Isa.execSized_x 2 4 m.reference inst linked, ← long]
      change (a.cpu.readReg r).toNat = (b.cpu.readReg r).toNat
      rw [Cpu.readReg, Cpu.readReg, kept]
  · cases leaves : inst.leaves m.reference with
    | true =>
      rw [Isa.execSized_leaves 2 4 m.reference inst leaves, ← long]
      exact congrArg BitVec.toNat (agree.jump (shape.leaves.trans leaves))
    | false =>
      rw [Isa.execSized_falls 2 m.reference inst leaves, ← next]
      exact congrArg BitVec.toNat (agree.fall (shape.leaves.trans leaves)).1
  · rw [Isa.execSized_mem 2 4, ← long]
    exact congrArg (fun bus : Bus => Isa.ofStore bus.mem.flat) agree.bus

theorem keeps_of_agree {n n' : U32} (agree : Agree (DecodedInst32.decode raw) m.cpu n n' a b)
    (keeps : Keeps m b) :
    Keeps m a where
  cpu := by rw [agree.cpu, keeps.cpu]
  zero := (agree.regs 0 (link?_ne_zero _)).trans keeps.zero
  world := (congrArg Bus.world agree.bus).trans keeps.world
  brkPtr := (congrArg (fun bus : Bus => bus.mem.brkPtr) agree.bus).trans keeps.brkPtr
  initialBrk := (congrArg (fun bus : Bus => bus.mem.initialBrk) agree.bus).trans keeps.initialBrk

/-- The reference has no floating-point loads and stores. -/
theorem decode_float {word : Nat} (major : Isa.opcode word = 0x07 ∨ Isa.opcode word = 0x27) :
    Isa.decode word = none := by
  rcases major with major | major <;> simp only [Isa.decode, major]

theorem decode_double (rd rs1 : BitVec 5) (imm : BitVec 12) :
    Isa.decode (Isa.Asm.fld rd rs1 imm).toNat = none ∧
      Isa.decode (Isa.Asm.fsd rd rs1 imm).toNat = none := by
  constructor
  · refine decode_float (.inl ?_)
    rw [Isa.Asm.fld, Isa.encI_eq]
    exact (Isa.fields_encR _ _ _ _ _ _).1
  · refine decode_float (.inr ?_)
    rw [Isa.Asm.fsd, Isa.encS_eq]
    exact (Isa.fields_encR _ _ _ _ _ _).1

/-- The fields of the compressed double accesses. -/
theorem double_fields {quadrant : BitVec 2} {funct3 : BitVec 3}
    {first second third fourth : U32 × Fin 32}
    {found : U32 × Fin 32}
    (double : (if quadrant.setWidth 8 = (0 : U8) ∧ funct3.setWidth 8 = (1 : U8) then some first
        else if quadrant.setWidth 8 = (2 : U8) ∧
          funct3.setWidth 8 = (1 : U8) then some second else none) = some found ∨
      (if quadrant.setWidth 8 = (0 : U8) ∧ funct3.setWidth 8 = (5 : U8) then some third
        else if quadrant.setWidth 8 = (2 : U8) ∧
          funct3.setWidth 8 = (5 : U8) then some fourth else none) = some found) :
    (quadrant = 0 ∨ quadrant = 2) ∧ (funct3 = 1 ∨ funct3 = 5) := by
  have named : (quadrant.setWidth 8 = (0 : U8) ∨ quadrant.setWidth 8 = (2 : U8)) ∧
      (funct3.setWidth 8 = (1 : U8) ∨ funct3.setWidth 8 = (5 : U8)) := by
    by_contra other
    rcases double with load | store
    · rw [if_neg (by tauto), if_neg (by tauto)] at load
      cases load
    · rw [if_neg (by tauto), if_neg (by tauto)] at store
      cases store
  have quadrants : ∀ q : BitVec 2, q.setWidth 8 = (0 : U8) ∨ q.setWidth 8 = (2 : U8) → q = 0 ∨
    q = 2 := by decide
  have functions : ∀ f : BitVec 3, f.setWidth 8 = (1 : U8) ∨ f.setWidth 8 = (5 : U8) → f = 1 ∨
    f = 5 := by decide
  exact ⟨quadrants _ named.1, functions _ named.2⟩

/-- A compressed double access is none of the reference's instructions. -/
theorem not_double {c : U16} {e : U32} (expansion : Isa.expand c = some e)
    (legal : Isa.decode e.toNat = some inst)
    {cpu : Cpu} {addr : U32} {r : Fin 32}
    (double : (Fetched.half c).doubleLoad? cpu = some (addr, r) ∨
      (Fetched.half c).doubleStore? cpu = some (addr, r)) : False := by
  simp only [Fetched.doubleLoad?, Fetched.doubleStore?, decode16_op, decode16_funct3] at double
  rw [Isa.expand] at expansion
  generalize Isa.slice c 15 13 = funct3 at expansion double
  generalize Isa.slice c 1 0 = quadrant at expansion double
  have float : Isa.decode e.toNat = none := by
    rcases double_fields double with ⟨rfl | rfl, rfl | rfl⟩
    · obtain rfl := Option.some.inj expansion
      exact (decode_double _ _ _).1
    · obtain rfl := Option.some.inj expansion
      exact (decode_double _ _ _).2
    · obtain rfl := Option.some.inj expansion
      exact (decode_double _ _ _).1
    · obtain rfl := Option.some.inj expansion
      exact (decode_double _ _ _).2
  rw [float] at legal
  cases legal

/-- A compressed word that the reference knows is carried out as it says. -/
theorem half_conforms (env : Env) (m : Machine) {c : U16}
    (decoded : Isa.decodeHalf c.toNat = some inst)
    (below : ∀ addr n, inst.access m.reference = some (addr, n) → addr + n ≤ 0xFFFF0000) :
    ∃ m', (executeInst16 env c).run m = .ok () m' ∧
      m'.reference = Isa.execSized 2 m.reference inst ∧ Keeps m m' := by
  rw [Isa.decodeHalf, BitVec.ofNat_toNat, BitVec.setWidth_eq, Option.filter_eq_some_iff] at decoded
  obtain ⟨bound, plain⟩ := decoded
  obtain ⟨e, expansion, legal⟩ := Option.bind_eq_some_iff.mp bound
  have noHint : ¬LuiHint e := by
    rintro ⟨imm, rfl⟩
    obtain ⟨major, dest, -⟩ := Isa.fields_encU 0 0b0110111 imm
    have decoded : Isa.decode (Isa.Asm.lui 0 imm).toNat =
      some (.lui 0 (Isa.immU (Isa.Asm.lui 0 imm).toNat)) := by
      change Isa.opcode (Isa.Asm.lui 0 imm).toNat = 0x37 at major
      change Isa.rd (Isa.Asm.lui 0 imm).toNat = 0 at dest
      simp only [Isa.decode, major, dest]
    obtain rfl := Option.some.inj (legal.symm.trans decoded)
    exact absurd plain Bool.false_ne_true
  have accord : _ ↔ _ := quadrant_accords c m.cpu (m.cpu.pc + 2)
  obtain ⟨next, m₁, executed⟩ :=
    Op.runs env (accord.mpr ⟨e, expansion, noHint⟩) (common_quadrantOp c m.cpu (m.cpu.pc + 2) _ _) m
  have half : (execQuadrant env c (DecodedInst16.decode c).op (DecodedInst16.decode c).funct3
    (m.cpu.pc + 2)).run m =
      .ok next m₁ := by
    rw [execQuadrant_exec]
    exact executed
  have modular (addr : U32) (r : Fin 32)
    (double : (Fetched.half c).doubleLoad? m.cpu = some (addr, r) ∨
      (Fetched.half c).doubleStore? m.cpu = some (addr, r)) : Modular env addr :=
    (not_double expansion legal double).elim
  obtain ⟨e', expansion', same⟩ := quadrant_matches c modular next m₁ half
  obtain rfl := Option.some.inj (expansion.symm.trans expansion')
  obtain ⟨next', m₂, full, agree⟩ : Agrees env m (DecodedInst32.decode e) (m.cpu.pc + 2)
    (m.cpu.pc + 4) next m₁ :=
    dispatch_agrees same
  obtain ⟨shape, conforms⟩ := decode_conforms env m legal
  obtain ⟨m₃, long, meaning, keeps⟩ := conforms below
  rw [executeInst32_run, full] at long
  obtain ⟨-, rfl⟩ := Outcome.ok.inj long
  refine ⟨m₁.goto next, ?_, reference_of_agree shape agree meaning, keeps_of_agree agree keeps⟩
  rw [executeInst16_run, half]
  rfl

end Short

section Extensions

variable {env : Env} {m : Machine} {raw : U32}

theorem ofInt_toInt_eq {x : U32} {z : Int} (value : x.toInt = z.bmod (2 ^ 32)) :
    x = BitVec.ofInt 32 z := by
  apply BitVec.eq_of_toInt_eq
  rw [value, BitVec.toInt_ofInt]

theorem ofInt_toInt_small {x : U32} {z : Int} (value : x.toInt = z) : x = BitVec.ofInt 32 z := by
  rw [← value, BitVec.ofInt_toInt]

/-- The values of the M extension are those of the reference. -/
theorem mulDivValue_eq {k : Nat} {op : Isa.MulDiv} (known : Isa.mulDiv? k = some op) (a b : U32) :
    mulDivValue (BitVec.ofNat 8 k) a b = some (BitVec.ofInt 32 (op.eval a.toNat b.toNat)) := by
  have fit := productsFit a b
  have signedA := Isa.signed_toNat a (by decide)
  have signedB := Isa.signed_toNat b (by decide)
  have zero : b = 0 ↔ b.toNat = 0 :=
    ⟨fun same => by rw [same]; rfl, fun same => BitVec.eq_of_toNat_eq same⟩
  have extendA : (a.signExtend 64).toInt = a.toInt := BitVec.toInt_signExtend_of_le (by decide)
  have extendB : (b.signExtend 64).toInt = b.toInt := BitVec.toInt_signExtend_of_le (by decide)
  have wideA : (a.setWidth 64).toNat = a.toNat := BitVec.toNat_setWidth_of_le (by decide)
  have wideB : (b.setWidth 64).toNat = b.toNat := BitVec.toNat_setWidth_of_le (by decide)
  unfold Isa.mulDiv? at known
  split at known <;> cases known
  · refine congrArg some (BitVec.eq_of_toNat_eq ?_)
    rw [Isa.MulDiv.eval, ← Int.natCast_mul, BitVec.ofInt_natCast, BitVec.toNat_ofNat,
      BitVec.toNat_mul]
  · have upper := toInt_upper_word (x := a.signExtend 64) (y := b.signExtend 64)
    rw [extendA, extendB] at upper
    refine congrArg some (ofInt_toInt_small ?_)
    rw [Isa.MulDiv.eval, signedA, signedB]
    exact upper fit.signed.1 fit.signed.2
  · have upper := toInt_upper_word (x := a.signExtend 64) (y := b.setWidth 64)
    rw [extendA, toInt_setWidth_64] at upper
    refine congrArg some (ofInt_toInt_small ?_)
    rw [Isa.MulDiv.eval, signedA]
    exact upper fit.mixed.1 fit.mixed.2
  · have upper := toNat_upper_word (x := a.setWidth 64) (y := b.setWidth 64)
    rw [wideA, wideB] at upper
    refine congrArg some (BitVec.eq_of_toNat_eq ?_)
    rw [Isa.MulDiv.eval, BitVec.ofInt_natCast, BitVec.toNat_ofNat, upper fit.unsigned,
      Nat.mod_eq_of_lt]
    have bound := fit.unsigned
    omega
  · refine congrArg some ?_
    rw [Isa.MulDiv.eval, signedA, signedB, apply_ite (BitVec.ofInt 32)]
    simp only [zero]
    split
    · rfl
    · exact ofInt_toInt_eq (BitVec.toInt_sdiv a b)
  · refine congrArg some ?_
    rw [Isa.MulDiv.eval, apply_ite (BitVec.ofInt 32)]
    simp only [zero]
    split
    · rfl
    · apply BitVec.eq_of_toNat_eq
      rw [BitVec.ofInt_natCast, BitVec.toNat_ofNat, BitVec.toNat_udiv, Nat.mod_eq_of_lt]
      exact lt_of_le_of_lt (Nat.div_le_self _ _) a.isLt
  · refine congrArg some ?_
    rw [Isa.MulDiv.eval, signedA, signedB, apply_ite (BitVec.ofInt 32), Isa.ofInt_toNat]
    simp only [zero]
    split
    · rfl
    · exact ofInt_toInt_small (BitVec.toInt_srem a b)
  · refine congrArg some ?_
    rw [Isa.MulDiv.eval, apply_ite (BitVec.ofInt 32), Isa.ofInt_toNat]
    simp only [zero]
    split
    · rfl
    · apply BitVec.eq_of_toNat_eq
      rw [BitVec.ofInt_natCast, BitVec.toNat_ofNat, BitVec.toNat_umod]
      exact (Nat.mod_eq_of_lt (lt_of_le_of_lt (Nat.mod_le _ _) a.isLt)).symm

/-- The word does what the reference says of a whole instruction. -/
def Follows (env : Env) (raw : U32) (m : Machine) (inst : Isa.Instr) : Prop :=
  ∃ m', (executeInst32 env raw).run m = .ok () m' ∧
    m'.reference = inst.exec 4 m.reference ∧ Keeps m m'

theorem follows_mulDiv {inst : Isa.Instr} (decoded : Isa.decodeMulDiv raw.toNat = some inst) :
    Follows env raw m inst := by
  rw [Isa.decodeMulDiv] at decoded
  split at decoded
  case isFalse => cases decoded
  case isTrue fields =>
    obtain ⟨op, selected, rfl⟩ := Option.map_eq_some_iff.mp decoded
    have major : (DecodedInst32.decode raw).opcode = Opcode.op.bits := by
      rw [decode_opcode, fields.1]
      rfl
    have second : (DecodedInst32.decode raw).funct7 = 0x01 := by
      rw [decode_funct7, fields.2]
      rfl
    have value := mulDivValue_eq selected (m.cpu.readReg (Isa.rs1 raw.toNat))
      (m.cpu.readReg (Isa.rs2 raw.toNat))
    obtain ⟨val, same⟩ : ∃ val, BitVec.ofInt 32 (op.eval (m.cpu.readReg (Isa.rs1 raw.toNat)).toNat
      (m.cpu.readReg (Isa.rs2 raw.toNat)).toNat) = val := ⟨_, rfl⟩
    rw [same, ← decode_funct3, ← decode_rs1, ← decode_rs2] at value
    have operation : (DecodedInst32.decode raw).op env m.cpu (m.cpu.pc + 4) =
        .write (DecodedInst32.decode raw).rd val (m.cpu.pc + 4) := by
      rw [DecodedInst32.op, major, Opcode.ofBits?_bits]
      dsimp only
      rw [if_pos second, DecodedInst32.mulDivOp, value]
      rfl
    refine ⟨_, ?_, ?_, keeps_write m (DecodedInst32.decode raw).rd val (m.cpu.pc + 4)⟩
    · rw [executeInst32_run, dispatch_exec, operation]
      rfl
    · rw [← ofInt_next, ← same, reference_set_goto, decode_rd]
      rfl

/-- The reference's operations under the executor's names. -/
def amoOf : Isa.Atomic → Amo
  | .swap => .swap
  | .add => .add
  | .xor => .xor
  | .and => .and
  | .or => .or
  | .min => .min
  | .max => .max
  | .minu => .minu
  | .maxu => .maxu

theorem funct5_amoOf {k : Nat} {op : Isa.Atomic} (known : Isa.atomic? k = some op) :
    (amoOf op).funct5 = BitVec.ofNat 8 k := by
  unfold Isa.atomic? at known
  split at known <;> cases known <;> rfl

theorem amoOf_eval (op : Isa.Atomic) (old src : U32) :
    BitVec.ofInt 32 (op.eval old.toNat src.toNat) = (amoOf op).apply old src := by
  have signedOld := Isa.signed_toNat old (by decide)
  have signedSrc := Isa.signed_toNat src (by decide)
  cases op with
  | swap => exact Isa.ofInt_toNat src
  | add => rw [Isa.Atomic.eval, BitVec.ofInt_add, Isa.ofInt_toNat, Isa.ofInt_toNat]; rfl
  | xor => rw [Isa.Atomic.eval, ← BitVec.toNat_xor, Isa.ofInt_toNat]; rfl
  | and => rw [Isa.Atomic.eval, ← BitVec.toNat_and, Isa.ofInt_toNat]; rfl
  | or => rw [Isa.Atomic.eval, ← BitVec.toNat_or, Isa.ofInt_toNat]; rfl
  | min =>
    rw [Isa.Atomic.eval, signedOld, signedSrc, apply_ite (BitVec.ofInt 32), Isa.ofInt_toNat,
      Isa.ofInt_toNat]; rfl
  | max =>
    rw [Isa.Atomic.eval, signedOld, signedSrc, apply_ite (BitVec.ofInt 32), Isa.ofInt_toNat,
      Isa.ofInt_toNat]; rfl
  | minu => rw [Isa.Atomic.eval, apply_ite (BitVec.ofInt 32), Isa.ofInt_toNat, Isa.ofInt_toNat]; rfl
  | maxu => rw [Isa.Atomic.eval, apply_ite (BitVec.ofInt 32), Isa.ofInt_toNat, Isa.ofInt_toNat]; rfl

/-- A stored word, in the memory of the reference. -/
theorem ofStore_overlay (ram : U32 → U8) (addr val : U32) (n : Nat) :
    Isa.ofStore (overlay ram addr n val) = Isa.withBytes
      (Isa.ofStore ram) addr.toNat n val.toNat := by
  funext a
  rw [Isa.ofStore, Isa.withBytes, Isa.wrap_sub, overlay]
  generalize (BitVec.ofNat 32 a - addr).toNat = i
  by_cases inside : i < n
  · simp only [if_pos inside]
    rw [toNat_leByte, Nat.pow_mul]
  · simp only [if_neg inside]
    rfl

theorem wordAt_reference (m : Machine) (addr : U32) :
    (m.bus.mem.wordAt addr).toNat = Isa.bytesAt m.reference.mem addr.toNat 4 := by
  have bound := leNat_lt (span m.bus.mem.flat addr 4)
  rw [length_span] at bound
  rw [Memory.wordAt, Machine.reference, Isa.bytesAt_ofStore, BitVec.toNat_ofNat, BitVec.ofNat_toNat,
    BitVec.setWidth_eq]
  exact Nat.mod_eq_of_lt bound

theorem follows_atomic {inst : Isa.Instr} (decoded : Isa.decodeAtomic raw.toNat = some inst)
    (below : ∀ addr n, inst.access m.reference = some (addr, n) → addr + n ≤ 0xFFFF0000) :
    Follows env raw m inst := by
  rw [Isa.decodeAtomic] at decoded
  split at decoded
  case isFalse => cases decoded
  case isTrue fields =>
    obtain ⟨op, selected, rfl⟩ := Option.map_eq_some_iff.mp decoded
    have major : (DecodedInst32.decode raw).opcode = Opcode.amo.bits := by
      rw [decode_opcode, fields.1]
      rfl
    have named : (DecodedInst32.decode raw).funct7 >>> 2 = (amoOf op).funct5 := by
      have bound := Isa.bits_lt raw.toNat 31 25
      rw [funct5_amoOf selected, decode_funct7]
      apply BitVec.eq_of_toNat_eq
      rw [BitVec.toNat_ushiftRight, BitVec.toNat_ofNat, BitVec.toNat_ofNat,
        Nat.shiftRight_eq_div_pow, Isa.funct7]
      simp only [Isa.bits] at bound ⊢
      omega
    have room : (m.cpu.readReg (Isa.rs1 raw.toNat)).toNat + 4 ≤ 0xFFFF0000 := below _ _ rfl
    rw [← decode_rs1] at room
    obtain ⟨mem, run, flat, brk, initial⟩ :=
      exec_amo_below env (amoOf op) (DecodedInst32.decode raw).raw (DecodedInst32.decode raw).rd
        (m.cpu.readReg (DecodedInst32.decode raw).rs2) (m.cpu.pc + 4) m room
    generalize was : m.bus.mem.wordAt (m.cpu.readReg (DecodedInst32.decode raw).rs1) = old at run flat
    have keeps := keeps_write ⟨m.cpu, { m.bus with mem := mem }⟩ (DecodedInst32.decode raw).rd old
      (m.cpu.pc + 4)
    refine ⟨⟨{ m.cpu.writeReg (DecodedInst32.decode raw).rd old with pc := m.cpu.pc + 4 },
      { m.bus with mem := mem }⟩, ?_, ?_, ⟨keeps.cpu, keeps.zero, rfl, brk, initial⟩⟩
    · rw [executeInst32_amo rfl major, DecodedInst32.amoOp, named, run]
      rfl
    · have spelled : Isa.bytesAt m.reference.mem (m.reference.x (Isa.rs1 raw.toNat)) 4 = old.toNat := by
        rw [← was, wordAt_reference, decode_rs1]
        rfl
      have stored : Isa.ofStore mem.flat = Isa.withBytes m.reference.mem
        (m.reference.x (Isa.rs1 raw.toNat)) 4
          (Isa.wrap (op.eval old.toNat (m.reference.x (Isa.rs2 raw.toNat)))) := by
        rw [flat, ofStore_overlay, ← amoOf_eval, ← Isa.wrap_eq, decode_rs1, decode_rs2]
        rfl
      have written := reference_set_goto ⟨m.cpu, { m.bus with mem := mem }⟩
        (Isa.rd raw.toNat) old.toNat
        (m.reference.pc + 4)
      rw [Isa.ofInt_toNat, ofInt_next] at written
      rw [decode_rd]
      refine written.trans ?_
      simp only [Isa.Instr.exec, spelled, ← stored]
      rfl

/-- A whole word that the reference knows is carried out as it says. -/
theorem word_follows {inst : Isa.Instr} (decoded : Isa.decodeWord raw.toNat = some inst)
    (below : ∀ addr n, inst.access m.reference = some (addr, n) → addr + n ≤ 0xFFFF0000) :
    Follows env raw m inst := by
  rcases Option.or_eq_some_iff.mp decoded with base | ⟨-, extension⟩
  · obtain ⟨inst, legal, rfl⟩ := Option.map_eq_some_iff.mp base
    obtain ⟨m', run, meaning, keeps⟩ := (decode_conforms env m legal).2 below
    exact ⟨m', run, meaning.trans (Isa.execSized_four _ _).symm, keeps⟩
  · rcases Option.or_eq_some_iff.mp extension with mulDiv | ⟨-, atomic⟩
    · exact follows_mulDiv mulDiv
    · exact follows_atomic atomic below

end Extensions

end RiscvRs
