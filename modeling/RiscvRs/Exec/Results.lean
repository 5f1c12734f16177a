import RiscvRs.Exec.Decoding
import RiscvRs.Exec.Effects

/-! Where an operation goes and what it leaves in the control registers. -/

namespace RiscvRs

open Effects Prog

namespace Op

/-- The next `pc` of an operation that raises no error by itself. -/
def next? : Op → Option U32
  | goto next | write _ _ next | writeF _ _ next | halt next | load _ _ _ next | loadSingle _ _ next
  | loadDouble _ _ _ next | store _ _ _ next | storeDouble _ _ _ next | amo _ _ _ _ _
    next | ecall next
  | mret next | csr _ _ _ _ next => some next
  | illegal _ | unknown _ => none

/-- The control registers after an operation on `cpu`. -/
def csrs (cpu : Cpu) : Op → CsrFile
  | mret _ => cpu.mret.csrs
  | csr num newVal _ _ _ => cpu.csrs.set num newVal
  | _ => cpu.csrs

end Op

/-- Control registers and `pc` stay; registers, memory and the stop flags may change. -/
def controlFrame : Frame Machine := Frame.of fun m => (m.cpu.csrs, m.cpu.fcsr, m.cpu.pc)

section Control

variable {ε α : Type}

theorem kept_onBus (x : Prog Bus ε α) : Kept controlFrame (onBus x) := Kept.zoom (fun _ _ => rfl) x

theorem kept_getCpu : Kept controlFrame (getCpu : Prog Machine ε Cpu) := by
  intro s t cpu run
  obtain ⟨-, rfl⟩ := Outcome.ok.inj run
  rfl

theorem kept_writeReg (r : Fin 32) (val : U32) :
    Kept controlFrame (modifyCpu (·.writeReg r val) : Prog Machine ε Unit) := by
  refine Kept.modify fun m => ?_
  change ((m.cpu.writeReg r val).csrs, _, _) = _
  unfold Cpu.writeReg
  split <;> rfl

theorem kept_writeReg_next (r : Fin 32) (val next : U32) :
    Kept controlFrame (do modifyCpu (·.writeReg r val); return next : Prog Machine ε U32) :=
  (kept_writeReg r val).bind fun _ => .pure next

theorem kept_setFreg_next (r : Fin 32) (bits : U64) (next : U32) :
    Kept controlFrame (do modifyCpu (·.setFreg r bits); return next : Prog Machine ε U32) :=
  (Kept.modify fun _ => rfl).bind fun _ => .pure next

theorem kept_illegal (raw : U32) : Kept controlFrame (illegal raw : Exec α) :=
  kept_getCpu.bind fun _ => .fail _

theorem kept_orIllegal (raw : U32) (result : Option α) :
    Kept controlFrame (orIllegal raw result) := by
  cases result with
  | none => exact kept_illegal raw
  | some a => exact .pure a

variable (env : Env)

theorem kept_builtinSyscall (a0 a1 a2 a3 a7 : U32) :
    Kept controlFrame (builtinSyscall env a0 a1 a2 a3 a7) := by
  unfold builtinSyscall
  split
  · exact Kept.modify fun _ => rfl
  · split
    · refine (kept_onBus _).bind fun bytes => ?_
      split
      · exact (kept_onBus _).bind fun _ => kept_writeReg _ _
      · split
        · exact (kept_onBus _).bind fun _ => kept_writeReg _ _
        · exact kept_writeReg _ _
    · split
      · refine (kept_onBus _).bind fun answer => ?_
        simp only
        split
        · exact (Kept.expect _).bind fun _ => (kept_onBus _).bind fun _ => kept_writeReg _ _
        · exact kept_writeReg _ _
      · split
        · unfold sysBrk
          split
          · exact (kept_onBus _).bind fun _ => (kept_onBus _).bind fun _ => kept_writeReg _ _
          · exact (kept_onBus _).bind fun _ => kept_writeReg _ _
        · split
          · exact kept_writeReg _ _
          · exact .fail _

theorem kept_handleEcall : Kept controlFrame (handleEcall env) := by
  refine kept_getCpu.bind fun cpu => ?_
  have answered (res a0 a1 a2 a3 a7 : U32) : Kept controlFrame
      (if res ≠ 0 then modifyCpu (·.writeReg regA0 res) else builtinSyscall env a0 a1 a2 a3 a7) := by
    split
    · exact kept_writeReg _ _
    · exact kept_builtinSyscall env _ _ _ _ _
  simp only
  split
  · exact (kept_onBus _).bind fun res => answered res _ _ _ _ _
  · exact (Kept.pure _).bind fun res => answered res _ _ _ _ _

theorem kept_secondWord (plain : Bool) (addr : U32) :
    Kept controlFrame (env.build.secondWord plain addr : Exec U32) := by
  unfold Build.secondWord Build.addU32
  split
  · split
    · exact .panic
    · exact .pure _
  · exact .pure _

/-- Only `MRET` and the CSR instructions write control registers. -/
theorem Op.kept_exec {op : Op} (noReturn : ∀ next, op ≠ .mret next)
    (noCsr : ∀ num newVal rd oldVal next, op ≠ .csr num newVal rd oldVal next) :
    Kept controlFrame (op.exec env) := by
  cases op with
  | goto next => exact .pure next
  | write rd val next => exact kept_writeReg_next rd val next
  | writeF rd bits next => exact kept_setFreg_next rd bits next
  | halt next => exact (Kept.modify fun _ => rfl).bind fun _ => .pure next
  | load kind rd addr next => exact (kept_onBus _).bind fun _ => kept_writeReg_next _ _ next
  | loadSingle rd addr next => exact (kept_onBus _).bind fun _ => kept_setFreg_next _ _ next
  | loadDouble plain rd addr next =>
    exact (kept_onBus _).bind fun _ => (kept_secondWord env plain addr).bind fun _ =>
      (kept_onBus _).bind fun _ => kept_setFreg_next _ _ next
  | store width addr val next => exact (kept_onBus _).bind fun _ => .pure next
  | storeDouble plain bits addr next =>
    exact (kept_onBus _).bind fun _ => (kept_secondWord env plain addr).bind fun _ =>
      (kept_onBus _).bind fun _ => .pure next
  | amo raw funct5 rd addr src next =>
    refine (kept_onBus _).bind fun oldVal => ?_
    refine (kept_orIllegal raw _).bind fun newVal => ?_
    dsimp only
    generalize (if funct5 = 0x03 then (0 : U32) else oldVal) = rdVal
    split
    · exact (kept_onBus _).bind fun _ => kept_writeReg_next _ _ next
    · exact kept_writeReg_next _ _ next
  | ecall next => exact (kept_handleEcall env).bind fun _ => .pure next
  | mret next => exact absurd rfl (noReturn next)
  | csr num newVal rd oldVal next => exact absurd rfl (noCsr num newVal rd oldVal next)
  | illegal raw => exact kept_illegal raw
  | unknown opcode => exact kept_getCpu.bind fun _ => .fail _

/-- A completed operation left control registers and `pc` as its kind says. -/
theorem Op.control_of_exec {op : Op} {m m' : Machine} {next : U32}
    (run : (op.exec env).run m = .ok next m') :
    m'.cpu.csrs = op.csrs m.cpu ∧ m'.cpu.fcsr = m.cpu.fcsr := by
  by_cases special : (∃ next, op = .mret next) ∨
    ∃ num newVal rd oldVal next, op = .csr num newVal rd oldVal next
  · rcases special with ⟨target, rfl⟩ | ⟨num, newVal, rd, oldVal, target, rfl⟩
    · obtain ⟨-, rfl⟩ := Outcome.ok.inj run
      exact ⟨rfl, rfl⟩
    · obtain ⟨u, m₁, set, rest⟩ := bind_ok.mp run
      obtain ⟨-, rfl⟩ := Outcome.ok.inj set
      have kept := kept_writeReg_next (ε := CpuError) rd oldVal target _ _ _ rest
      simp only [controlFrame, Frame.of, Prod.mk.injEq] at kept
      exact ⟨kept.1, kept.2.1⟩
  · push Not at special
    have kept := Op.kept_exec env special.1 special.2 _ _ _ run
    simp only [controlFrame, Frame.of, Prod.mk.injEq] at kept
    have same : op.csrs m.cpu = m.cpu.csrs := by
      cases op with
      | mret target => exact absurd rfl (special.1 target)
      | csr num newVal rd oldVal target => exact absurd rfl (special.2 num newVal rd oldVal target)
      | _ => rfl
    exact ⟨kept.1.trans same.symm, kept.2.1⟩

/-- Every path through a program returns `b`. -/
def Returns {β : Type} (b : β) (x : Exec β) : Prop := ∀ m m' a, x.run m = .ok a m' → a = b

theorem returns_pure (next : U32) : Returns next (pure next) := by
  intro m m' a run
  obtain ⟨rfl, -⟩ := Outcome.ok.inj run
  rfl

theorem returns_bind {β : Type} {x : Exec α} {f : α → Exec β} {b : β}
    (each : ∀ a, Returns b (f a)) :
    Returns b (x >>= f) := by
  intro m m' a run
  obtain ⟨c, m₁, -, two⟩ := bind_ok.mp run
  exact each c _ _ _ two

theorem Op.next?_of_exec {op : Op} {m m' : Machine} {next : U32}
    (run : (op.exec env).run m = .ok next m') :
    op.next? = some next := by
  have after {x : Exec U32} {target : U32} (returns : Returns target x)
    (run : x.run m = .ok next m') :
      some target = some next := congrArg some (returns _ _ _ run).symm
  cases op with
  | goto target => exact after (returns_pure target) run
  | write rd val target => exact after (returns_bind fun _ => returns_pure target) run
  | writeF rd bits target => exact after (returns_bind fun _ => returns_pure target) run
  | halt target => exact after (returns_bind fun _ => returns_pure target) run
  | load kind rd addr target =>
    exact after (returns_bind fun _ => returns_bind fun _ => returns_pure target) run
  | loadSingle rd addr target =>
    exact after (returns_bind fun _ => returns_bind fun _ => returns_pure target) run
  | loadDouble plain rd addr target =>
    exact after (returns_bind fun _ => returns_bind fun _ => returns_bind fun _ =>
      returns_bind fun _ =>
      returns_pure target) run
  | store width addr val target => exact after (returns_bind fun _ => returns_pure target) run
  | storeDouble plain bits addr target =>
    exact after (returns_bind fun _ => returns_bind fun _ => returns_bind fun _ =>
      returns_pure target) run
  | amo raw funct5 rd addr src target =>
    refine after (returns_bind fun _ => returns_bind fun _ => ?_) run
    dsimp only
    split
    · exact returns_bind fun _ => returns_bind fun _ => returns_pure target
    · exact returns_bind fun _ => returns_pure target
  | ecall target => exact after (returns_bind fun _ => returns_pure target) run
  | mret target => exact after (returns_bind fun _ => returns_pure target) run
  | csr num newVal rd oldVal target =>
    exact after (returns_bind fun _ => returns_bind fun _ => returns_pure target) run
  | illegal raw => cases run
  | unknown opcode => cases run

end Control

/-- Two-byte aligned. -/
def Aligned (addr : U32) : Prop := addr.toNat % 2 = 0

instance (addr : U32) : Decidable (Aligned addr) := inferInstanceAs (Decidable (_ = _))

section Alignment

theorem aligned_iff (addr : U32) : Aligned addr ↔ addr.getLsbD 0 = false := by
  rw [Aligned, BitVec.getLsbD, Nat.testBit_zero]
  simp

theorem Aligned.add {a b : U32} (first : Aligned a) (second : Aligned b) : Aligned (a + b) := by
  unfold Aligned at *
  rw [BitVec.toNat_add]
  omega

theorem aligned_mask (a : U32) : Aligned (a &&& ~~~1) := by
  rw [aligned_iff]
  simp

theorem aligned_jImm (inst : DecodedInst32) : Aligned inst.jImm := by
  rw [aligned_iff]
  simp [DecodedInst32.jImm, shiftThenMask, BitVec.getElem_sshiftRight]

theorem aligned_bImm (inst : DecodedInst32) : Aligned inst.bImm := by
  rw [aligned_iff]
  simp [DecodedInst32.bImm, shiftThenMask, BitVec.getElem_sshiftRight]

theorem aligned_jumpOffset (inst : U16) : Aligned (jumpOffset inst) := by
  rw [aligned_iff]
  simp [jumpOffset, shiftThenMask, BitVec.getElem_sshiftRight, BitVec.getElem_signExtend]

theorem aligned_branchOffset (inst : U16) : Aligned (branchOffset inst) := by
  rw [aligned_iff]
  simp [branchOffset, shiftThenMask, BitVec.getElem_sshiftRight, BitVec.getElem_signExtend]

end Alignment

/-- An operation that writes no control register and goes on at an address in `P`. -/
def Op.Plain (P : U32 → Prop) : Op → Prop
  | mret _ | csr .. => False
  | goto next | write _ _ next | writeF _ _ next | halt next | load _ _ _ next | loadSingle _ _ next
  | loadDouble _ _ _ next | store _ _ _ next | storeDouble _ _ _ next | amo _ _ _ _ _ next | ecall
    next => P next
  | illegal _ | unknown _ => True

section Plain

variable {P : U32 → Prop} {next : U32}

theorem plain_ofResult {α : Type} {raw : U32} {result : Option α} {op : α → Op}
    (each : ∀ a, (op a).Plain P) :
    (Op.ofResult raw result op).Plain P := by
  cases result with
  | none => trivial
  | some a => exact each a

theorem plain_opFpSOp (env : Env) (inst : DecodedInst32) (cpu : Cpu) (goes : P next) :
    (inst.opFpSOp env cpu next).Plain P := by
  unfold DecodedInst32.opFpSOp
  dsimp only
  split
  all_goals first
    | exact goes
    | exact plain_ofResult fun _ => goes
    | trivial
    | skip
  split
  · exact goes
  · split <;> exact goes

theorem plain_opFpDOp (env : Env) (inst : DecodedInst32) (cpu : Cpu) (goes : P next) :
    (inst.opFpDOp env cpu next).Plain P := by
  unfold DecodedInst32.opFpDOp
  dsimp only
  split
  all_goals first
    | exact goes
    | exact plain_ofResult fun _ => goes
    | trivial
    | skip
  split <;> exact goes

theorem plain_loadFpOp (inst : DecodedInst32) (cpu : Cpu) (goes : P next) :
    (inst.loadFpOp cpu next).Plain P := by
  unfold DecodedInst32.loadFpOp
  dsimp only
  split
  · exact goes
  · split
    · exact goes
    · trivial

theorem plain_storeFpOp (inst : DecodedInst32) (cpu : Cpu) (goes : P next) :
    (inst.storeFpOp cpu next).Plain P := by
  unfold DecodedInst32.storeFpOp
  dsimp only
  split
  · exact goes
  · split
    · exact goes
    · trivial

theorem plain_opFpOp (env : Env) (inst : DecodedInst32) (cpu : Cpu) (goes : P next) :
    (inst.opFpOp env cpu next).Plain P := by
  unfold DecodedInst32.opFpOp
  split
  · exact plain_opFpSOp env inst cpu goes
  · split
    · exact plain_opFpDOp env inst cpu goes
    · trivial

theorem plain_fusedOp (env : Env) (inst : DecodedInst32) (cpu : Cpu) (goes : P next) :
    (inst.fusedOp env cpu next).Plain P := by
  unfold DecodedInst32.fusedOp
  dsimp only
  split
  · exact plain_ofResult fun _ => goes
  · split
    · exact plain_ofResult fun _ => goes
    · trivial

theorem plain_quadrant0Op (inst : U16) (cpu : Cpu) (goes : P next) (funct3 : U8) :
    (quadrant0Op inst cpu next funct3).Plain P := by
  unfold quadrant0Op
  dsimp only
  split
  · split
    · trivial
    · exact goes
  all_goals first
    | exact goes
    | trivial

theorem plain_luiGroupOp (inst : U16) (cpu : Cpu) (goes : P next) :
    (luiGroupOp inst cpu next).Plain P := by
  unfold luiGroupOp
  dsimp only
  split
  · split
    · trivial
    · exact goes
  · split
    · split
      · trivial
      · exact goes
    · trivial

theorem plain_aluGroupOp (inst : U16) (cpu : Cpu) (goes : P next) :
    (aluGroupOp inst cpu next).Plain P := by
  have shifted (val : U32) : Op.Plain P (if shiftThenMask inst 12 1 ≠ 0 then
    .illegal (inst.setWidth 32)
      else if (shiftThenMask inst 2 0x1F).toNat ≠ 0 then .write
        (creg inst 7) val next else .goto next) := by
    split
    · trivial
    · split
      · exact goes
      · exact goes
  unfold aluGroupOp
  dsimp only
  split
  · exact shifted _
  · exact shifted _
  · exact goes
  · split
    · trivial
    · exact goes

variable (jumps : ∀ {pc offset : U32}, P pc → Aligned offset → P (pc + offset))
  (masks : ∀ a, P (a &&& ~~~1))

include jumps masks

theorem plain_baseOp (inst : DecodedInst32) {cpu : Cpu} (here : P cpu.pc) (goes : P next) :
    (inst.baseOp cpu next).Plain P := by
  unfold DecodedInst32.baseOp
  dsimp only
  split
  · exact goes
  · exact goes
  · exact jumps here (aligned_jImm inst)
  · exact masks _
  · refine plain_ofResult fun take => ?_
    cases take with
    | true => exact jumps here (aligned_bImm inst)
    | false => exact goes
  · exact plain_ofResult fun _ => goes
  · exact plain_ofResult fun _ => goes
  · exact plain_ofResult fun _ => goes
  · exact plain_ofResult fun _ => goes
  · exact goes
  · trivial

/-- Full words outside `OP_SYSTEM`. -/
theorem plain_wordOp (env : Env) (inst : DecodedInst32) {cpu : Cpu} (here : P cpu.pc) (goes : P next)
    (ordinary : Opcode.ofBits? inst.opcode ≠ some .system) : (inst.op env cpu next).Plain P := by
  have base := plain_baseOp jumps masks inst here goes
  unfold DecodedInst32.op
  cases known : Opcode.ofBits? inst.opcode with
  | none => trivial
  | some code =>
    cases code with
    | op =>
      dsimp only
      split
      · exact plain_ofResult fun _ => goes
      · exact base
    | lui | auipc | jal | jalr | branch | load | store | imm | miscMem => exact base
    | system => exact absurd known ordinary
    | amo => exact goes
    | loadFp => exact plain_loadFpOp inst cpu goes
    | storeFp => exact plain_storeFpOp inst cpu goes
    | opFp => exact plain_opFpOp env inst cpu goes
    | madd | msub | nmsub | nmadd => exact plain_fusedOp env inst cpu goes

omit masks in
theorem plain_quadrant1Op (inst : U16) {cpu : Cpu} (here : P cpu.pc) (goes : P next) (funct3 : U8) :
    (quadrant1Op inst cpu next funct3).Plain P := by
  have jumped := jumps here (aligned_jumpOffset inst)
  have branched := jumps here (aligned_branchOffset inst)
  unfold quadrant1Op
  split
  · dsimp only
    split
    · exact goes
    · exact goes
  · exact jumped
  · exact goes
  · exact plain_luiGroupOp inst cpu goes
  · exact plain_aluGroupOp inst cpu goes
  · exact jumped
  · change P (if _ then _ else _)
    split
    · exact branched
    · exact goes
  · change P (if _ then _ else _)
    split
    · exact branched
    · exact goes
  · trivial

omit jumps in
theorem plain_jumpGroupOp (inst : U16) (cpu : Cpu) (goes : P next) :
    (jumpGroupOp inst cpu next).Plain P := by
  unfold jumpGroupOp
  dsimp only
  split
  · split
    · trivial
    · exact masks _
  · split
    · split
      · exact goes
      · exact goes
    · split
      · exact goes
      · split
        · exact masks _
        · split
          · exact goes
          · exact goes

omit jumps in
theorem plain_quadrant2Op (inst : U16) (cpu : Cpu) (goes : P next) (funct3 : U8) :
    (quadrant2Op inst cpu next funct3).Plain P := by
  unfold quadrant2Op
  dsimp only
  split
  · split
    · trivial
    · split
      · exact goes
      · exact goes
  · exact goes
  · split
    · trivial
    · exact goes
  · exact goes
  · exact plain_jumpGroupOp masks inst cpu goes
  · exact goes
  · exact goes
  · exact goes
  · trivial

/-- Compressed instructions. -/
theorem plain_quadrantOp (inst : U16) {cpu : Cpu} (here : P cpu.pc) (goes : P next)
    (quadrant funct3 : U8) :
    (quadrantOp inst cpu next quadrant funct3).Plain P := by
  unfold quadrantOp
  split
  · exact plain_quadrant0Op inst cpu goes funct3
  · exact plain_quadrant1Op jumps inst here goes funct3
  · exact plain_quadrant2Op masks inst cpu goes funct3
  · trivial

end Plain

namespace Fetched

/-- The return from an interrupt handler. -/
def isMret : Fetched → Bool
  | half _ => false
  | word raw =>
    let inst := DecodedInst32.decode raw
    Opcode.ofBits? inst.opcode = some .system && inst.funct3 = 0 && raw >>> 20 = 0x302

/-- The control register a CSR instruction names. -/
def csrNamed? : Fetched → Option U16
  | half _ => none
  | word raw =>
    let inst := DecodedInst32.decode raw
    if Opcode.ofBits? inst.opcode = some .system ∧ inst.funct3 ≠ 0 ∧ inst.funct3 ≠ 4 then
      some (((raw >>> 20) &&& 0xFFF).setWidth 16)
    else none

/-- The value a CSR instruction leaves in the register `num`. -/
def csrValue (cpu : Cpu) (num : U16) : Fetched → U32
  | half _ => cpu.csrs.get num
  | word raw =>
    let inst := DecodedInst32.decode raw
    csrResult inst.funct3 (cpu.csrs.get num) (cpu.readReg inst.rs1) inst.rs1

theorem isMret_word (raw : U32) :
    (word raw).isMret = true ↔ Opcode.ofBits? (DecodedInst32.decode raw).opcode = some .system ∧
      (DecodedInst32.decode raw).funct3 = 0 ∧ raw >>> 20 = 0x302 := by
  simp only [isMret, Bool.and_eq_true, decide_eq_true_eq, and_assoc]

/-- The operations by their effect on control: a return, a CSR instruction, or neither. -/
theorem op_cases (env : Env) (cpu : Cpu) (inst : Fetched) {P : U32 → Prop}
    (jumps : ∀ {pc offset : U32}, P pc → Aligned offset → P (pc + offset))
    (masks : ∀ a, P (a &&& ~~~1))
    (here : P cpu.pc) :
    (inst.isMret = true ∧
      inst.op env cpu = .mret (if cpu.csrs.get mepc ≠ 0 then cpu.csrs.get mepc else cpu.pc + 4)) ∨
    (∃ num rd, inst.isMret = false ∧ inst.csrNamed? = some num ∧
      inst.op env cpu = .csr num (inst.csrValue cpu num) rd (cpu.csrs.get num) (cpu.pc + 4)) ∨
    (∃ num rd, inst.isMret = false ∧ inst.csrNamed? = none ∧
      inst.op env cpu = .csr num (cpu.csrs.get num) rd (cpu.csrs.get num) (cpu.pc + 4)) ∨
    (inst.isMret = false ∧ inst.csrNamed? = none ∧ (inst.op env cpu).Plain P) := by
  have two : Aligned 2 := rfl
  have four : Aligned 4 := rfl
  cases inst with
  | half inst =>
    exact .inr (.inr (.inr ⟨rfl, rfl, plain_quadrantOp jumps masks inst here (jumps here two) _ _⟩))
  | word raw =>
    by_cases system : Opcode.ofBits? (DecodedInst32.decode raw).opcode = some .system
    · have op : (word raw).op env cpu = (DecodedInst32.decode raw).systemOp cpu (cpu.pc + 4) := by
        rw [Fetched.op, DecodedInst32.op, system]
      rw [op, DecodedInst32.systemOp]
      by_cases environment : (DecodedInst32.decode raw).funct3 = 0
      · have unnamed : (word raw).csrNamed? = none := by simp [csrNamed?, environment]
        rw [if_pos environment]
        by_cases returns : raw >>> 20 = 0x302
        · refine .inl ⟨(isMret_word raw).mpr ⟨system, environment, returns⟩, ?_⟩
          simp [DecodedInst32.decode, returns]
        · have other : (word raw).isMret = false := by
            apply Bool.eq_false_iff.mpr
            intro mret
            exact returns ((isMret_word raw).mp mret).2.2
          refine .inr (.inr (.inr ⟨other, unnamed, ?_⟩))
          dsimp only
          split
          · exact jumps here four
          · split
            · exact jumps here four
            · split
              · next same => exact absurd same returns
              · exact jumps here four
      · have other : (word raw).isMret = false := by
          apply Bool.eq_false_iff.mpr
          intro mret
          exact environment ((isMret_word raw).mp mret).2.1
        rw [if_neg environment]
        by_cases reserved : (DecodedInst32.decode raw).funct3 = 4
        · refine .inr (.inr (.inl ⟨((raw >>> 20) &&& 0xFFF).setWidth 16,
            (DecodedInst32.decode raw).rd, other,
            by simp [csrNamed?, reserved], ?_⟩))
          rw [reserved]
          rfl
        · exact .inr (.inl ⟨_, _, other, if_pos ⟨system, environment, reserved⟩, rfl⟩)
    · refine .inr (.inr (.inr
        ⟨?_, ?_, plain_wordOp jumps masks env _ here (jumps here four) system⟩))
      · simp [isMret, system]
      · simp [csrNamed?, system]

theorem csrNamed?_of_isMret {inst : Fetched} (returns : inst.isMret = true) :
    inst.csrNamed? = none := by
  cases inst with
  | half inst => rfl
  | word raw =>
    obtain ⟨-, environment, -⟩ := (isMret_word raw).mp returns
    simp [csrNamed?, environment]

theorem csrNamed?_lt {inst : Fetched} {num : U16} (named : inst.csrNamed? = some num) :
    num.toNat < 4096 := by
  cases inst with
  | half inst => cases named
  | word raw =>
    unfold csrNamed? at named
    dsimp only at named
    split at named
    · obtain rfl := Option.some.inj named
      have bound := mask_lt (raw >>> 20) 0xFFF
      rw [BitVec.toNat_setWidth]
      exact Nat.lt_succ_of_le ((Nat.mod_le _ _).trans bound)
    · cases named

end Fetched

/-- How an instruction that completed on `cpu` left control in `cpu'`. -/
inductive Control (cpu cpu' : Cpu) : Fetched → Prop where
  | mret {inst : Fetched} (returns : inst.isMret = true) (csrs : cpu'.csrs = cpu.mret.csrs)
      (pc : cpu'.pc = if cpu.csrs.get mepc ≠ 0 then cpu.csrs.get mepc else cpu.pc + 4) :
        Control cpu cpu' inst
  | named {inst : Fetched} (num : U16) (other : inst.isMret = false)
    (named : inst.csrNamed? = some num)
      (csrs : cpu'.csrs = cpu.csrs.set num (inst.csrValue cpu num)) (pc : cpu'.pc = cpu.pc + 4) :
      Control cpu cpu' inst
  | plain {inst : Fetched} (other : inst.isMret = false) (unnamed : inst.csrNamed? = none)
      (csrs : cpu'.csrs = cpu.csrs) (aligned : Aligned cpu.pc → Aligned cpu'.pc) :
        Control cpu cpu' inst

theorem Op.csrs_of_plain {op : Op} {P : U32 → Prop} (plain : op.Plain P) (cpu : Cpu) :
    op.csrs cpu = cpu.csrs := by
  cases op with
  | mret next => exact plain.elim
  | csr num newVal rd oldVal next => exact plain.elim
  | _ => rfl

theorem Op.next_of_plain {op : Op} {P : U32 → Prop} (plain : op.Plain P) {next : U32}
    (goes : op.next? = some next) :
    P next := by
  cases op with
  | mret next => exact plain.elim
  | csr num newVal rd oldVal next => exact plain.elim
  | illegal raw => cases goes
  | unknown opcode => cases goes
  | _ =>
    obtain rfl := Option.some.inj goes
    exact plain

theorem control_of_execute {env : Env} {inst : Fetched} {m m' : Machine}
    (run : (inst.execute env).run m = .ok () m') :
    Control m.cpu m'.cpu inst ∧ m'.cpu.fcsr = m.cpu.fcsr := by
  rw [Fetched.execute_run] at run
  generalize executed : ((inst.op env m.cpu).exec env).run m = outcome at run
  cases outcome with
  | ok next m₁ =>
    obtain ⟨-, rfl⟩ := Outcome.ok.inj run
    obtain ⟨csrs, fcsr⟩ := Op.control_of_exec env executed
    have goes := Op.next?_of_exec env executed
    refine ⟨?_, fcsr⟩
    have jumps {pc offset : U32} (earlier : Aligned m.cpu.pc → Aligned pc) (even : Aligned offset) :
        Aligned m.cpu.pc → Aligned (pc + offset) := fun here => (earlier here).add even
    rcases inst.op_cases env m.cpu (P := fun pc => Aligned m.cpu.pc → Aligned pc) jumps
      (fun a _ => aligned_mask a)
      id with
      ⟨returns, op⟩ | ⟨num, rd, other, named, op⟩ | ⟨num, rd, other, unnamed, op⟩ | ⟨other,
        unnamed, plain⟩
    · rw [op] at csrs goes
      exact .mret returns csrs (Option.some.inj goes).symm
    · rw [op] at csrs goes
      exact .named num other named csrs (Option.some.inj goes).symm
    · rw [op] at csrs goes
      refine .plain other unnamed (csrs.trans (CsrFile.set_get _ _)) fun here => ?_
      change Aligned next
      rw [← Option.some.inj goes]
      exact here.add rfl
    · exact .plain other unnamed (csrs.trans (Op.csrs_of_plain plain _))
        (Op.next_of_plain plain goes)
  | err e m₁ => cases run
  | panic => cases run
  | exhausted => cases run

end RiscvRs
