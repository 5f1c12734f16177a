import RiscvRs.Exec.Calls
import RiscvRs.Exec.Results

/-! Which instructions stop the machine: `EBREAK`, long and compressed, and the exit
group of the system calls. -/

namespace RiscvRs

open Effects Prog

/-- An operation that leaves the stop flags alone. -/
def Op.Ordinary : Op → Prop
  | halt _ | ecall _ => False
  | _ => True

namespace Fetched

/-- `ECALL`, which has no compressed form. -/
def isEcall : Fetched → Prop
  | word inst => Opcode.ofBits? (DecodedInst32.decode inst).opcode = some .system ∧
      (DecodedInst32.decode inst).funct3 = 0 ∧ (DecodedInst32.decode inst).raw >>> 20 = 0
  | half _ => False

/-- `EBREAK` and `C.EBREAK`. -/
def isEbreak : Fetched → Prop
  | word inst => Opcode.ofBits? (DecodedInst32.decode inst).opcode = some .system ∧
      (DecodedInst32.decode inst).funct3 = 0 ∧ (DecodedInst32.decode inst).raw >>> 20 = 1
  | half inst => (DecodedInst16.decode inst).op = 2 ∧ (DecodedInst16.decode inst).funct3 = 4 ∧
      shiftThenMask inst 12 1 ≠ 0 ∧ regField16 inst 7 = 0 ∧ regField16 inst 2 = 0

end Fetched

section Ordinary

theorem ordinary_ofResult {α : Type} {raw : U32} {result : Option α} {op : α → Op}
    (each : ∀ a, (op a).Ordinary) :
    (Op.ofResult raw result op).Ordinary := by
  cases result with
  | none => trivial
  | some a => exact each a

namespace DecodedInst32

variable (env : Env) (inst : DecodedInst32) (cpu : Cpu) (next : U32)

theorem ordinary_baseOp : (inst.baseOp cpu next).Ordinary := by
  unfold baseOp
  dsimp only
  split <;> first | trivial | exact ordinary_ofResult fun _ => trivial

theorem ordinary_floatOp :
    (inst.loadFpOp cpu next).Ordinary ∧ (inst.storeFpOp cpu next).Ordinary ∧
      (inst.opFpOp env cpu next).Ordinary ∧
      (inst.fusedOp env cpu next).Ordinary := by
  refine ⟨?_, ?_, ?_, ?_⟩
  · unfold loadFpOp
    dsimp only
    repeat' split
    all_goals trivial
  · unfold storeFpOp
    dsimp only
    repeat' split
    all_goals trivial
  · unfold opFpOp opFpSOp opFpDOp
    dsimp only
    repeat' split
    all_goals first | trivial | exact ordinary_ofResult fun _ => trivial
  · unfold fusedOp
    dsimp only
    repeat' split
    all_goals first | trivial | exact ordinary_ofResult fun _ => trivial

/-- Outside `OP_SYSTEM` nothing stops. -/
theorem ordinary_op (other : Opcode.ofBits? inst.opcode ≠ some .system) :
    (inst.op env cpu next).Ordinary := by
  have base := inst.ordinary_baseOp cpu next
  obtain ⟨loads, stores, floats, fused⟩ := inst.ordinary_floatOp env cpu next
  unfold op
  cases known : Opcode.ofBits? inst.opcode with
  | none => trivial
  | some code =>
    cases code with
    | system => exact absurd known other
    | op =>
      dsimp only
      split
      · exact ordinary_ofResult fun _ => trivial
      · exact base
    | lui | auipc | jal | jalr | branch | load | store | imm | miscMem => exact base
    | amo => trivial
    | loadFp => exact loads
    | storeFp => exact stores
    | opFp => exact floats
    | madd | msub | nmsub | nmadd => exact fused

/-- Inside it, two immediates do. -/
theorem systemOp_cases :
    (inst.systemOp cpu next).Ordinary ∨
      inst.funct3 = 0 ∧ (inst.raw >>> 20 = 0 ∧ inst.systemOp cpu next = .ecall next ∨
        inst.raw >>> 20 = 1 ∧ inst.systemOp cpu next = .halt next) := by
  unfold systemOp
  split
  · next environment =>
    dsimp only
    split
    · next call => exact .inr ⟨environment, .inl ⟨call, rfl⟩⟩
    · split
      · next stop => exact .inr ⟨environment, .inr ⟨stop, rfl⟩⟩
      · split
        · exact .inl trivial
        · exact .inl trivial
  · exact .inl trivial

end DecodedInst32

section Halfwords

variable (inst : U16) (cpu : Cpu) (next : U32)

theorem ordinary_quadrant01 (funct3 : U8) :
    (quadrant0Op inst cpu next funct3).Ordinary ∧ (quadrant1Op inst cpu next funct3).Ordinary := by
  constructor
  · unfold quadrant0Op
    dsimp only
    repeat' split
    all_goals trivial
  · unfold quadrant1Op luiGroupOp aluGroupOp
    dsimp only
    repeat' split
    all_goals trivial

theorem jumpGroupOp_cases :
    (jumpGroupOp inst cpu next).Ordinary ∨
      (shiftThenMask inst 12 1 ≠ 0 ∧ regField16 inst 7 = 0 ∧ regField16 inst 2 = 0) ∧
        jumpGroupOp inst cpu next = .halt next := by
  unfold jumpGroupOp
  dsimp only
  by_cases jump : shiftThenMask inst 12 1 = 0 ∧ regField16 inst 2 = 0
  · rw [if_pos jump]
    split <;> exact .inl trivial
  rw [if_neg jump]
  by_cases move : shiftThenMask inst 12 1 = 0 ∧ regField16 inst 2 ≠ 0
  · rw [if_pos move]
    split <;> exact .inl trivial
  rw [if_neg move]
  by_cases stop : regField16 inst 7 = 0 ∧ regField16 inst 2 = 0
  · rw [if_pos stop]
    exact .inr ⟨⟨fun clear => jump ⟨clear, stop.2⟩, stop⟩, rfl⟩
  rw [if_neg stop]
  split
  · exact .inl trivial
  · split <;> exact .inl trivial

theorem quadrant2Op_cases (funct3 : U8) :
    (quadrant2Op inst cpu next funct3).Ordinary ∨
      (funct3 = 4 ∧ shiftThenMask inst 12 1 ≠ 0 ∧ regField16 inst 7 = 0 ∧ regField16 inst 2 = 0) ∧
        quadrant2Op inst cpu next funct3 = .halt next := by
  by_cases group : funct3 = 4
  · subst group
    exact (jumpGroupOp_cases inst cpu next).imp id fun stop => ⟨⟨rfl, stop.1⟩, stop.2⟩
  · left
    unfold quadrant2Op
    dsimp only
    split
    · repeat' split
      all_goals trivial
    · trivial
    · split <;> trivial
    · trivial
    · exact absurd rfl group
    · trivial
    · trivial
    · trivial
    · trivial

end Halfwords

/-- What an instruction carries out, as far as stopping goes. -/
theorem Fetched.op_stops (env : Env) (inst : Fetched) (cpu : Cpu) :
    (inst.op env cpu).Ordinary ∨ (inst.isEcall ∧ ∃ next, inst.op env cpu = .ecall next) ∨
      inst.isEbreak ∧ ∃ next, inst.op env cpu = .halt next := by
  cases inst with
  | word inst =>
    by_cases system : Opcode.ofBits? (DecodedInst32.decode inst).opcode = some .system
    · have carried : Fetched.op env cpu (.word inst) =
          (DecodedInst32.decode inst).systemOp cpu (cpu.pc + 4) := by
        rw [Fetched.op, DecodedInst32.op, system]
      rw [carried]
      rcases (DecodedInst32.decode inst).systemOp_cases cpu (cpu.pc + 4) with
        ordinary | ⟨zero, ⟨call, op⟩ | ⟨stop, op⟩⟩
      · exact .inl ordinary
      · exact .inr (.inl ⟨⟨system, zero, call⟩, _, op⟩)
      · exact .inr (.inr ⟨⟨system, zero, stop⟩, _, op⟩)
    · exact .inl ((DecodedInst32.decode inst).ordinary_op env cpu _ system)
  | half inst =>
    change (quadrantOp inst cpu (cpu.pc + 2) (DecodedInst16.decode inst).op
      (DecodedInst16.decode inst).funct3).Ordinary ∨
      _ ∨ _ ∧ ∃ next, quadrantOp inst cpu (cpu.pc + 2) _
        (DecodedInst16.decode inst).funct3 = .halt next
    unfold quadrantOp
    split
    · exact .inl (ordinary_quadrant01 inst cpu _ _).1
    · exact .inl (ordinary_quadrant01 inst cpu _ _).2
    · next two =>
      rcases quadrant2Op_cases inst cpu (cpu.pc + 2)
        (DecodedInst16.decode inst).funct3 with ordinary | ⟨stop, op⟩
      · exact .inl ordinary
      · exact .inr (.inr ⟨⟨two, stop⟩, _, op⟩)
    · exact .inl trivial

end Ordinary

/-- The stop flags stay. -/
def stopFrame : Frame Machine := Frame.of fun m => (m.cpu.isHalted, m.cpu.exitCode)

section Flags

variable {ε α : Type}

theorem stop_onBus (x : Prog Bus ε α) : Kept stopFrame (onBus x) := Kept.zoom (fun _ _ => rfl) x

theorem stop_getCpu : Kept stopFrame (getCpu : Prog Machine ε Cpu) := by
  intro s t cpu run
  obtain ⟨-, rfl⟩ := Outcome.ok.inj run
  rfl

theorem stop_writeReg (r : Fin 32) (val next : U32) :
    Kept stopFrame (do modifyCpu (·.writeReg r val); return next : Prog Machine ε U32) := by
  refine (Kept.modify fun m => ?_).bind fun _ => .pure next
  change ((m.cpu.writeReg r val).isHalted, (m.cpu.writeReg r val).exitCode) = _
  unfold Cpu.writeReg
  split <;> rfl

theorem stop_setFreg (r : Fin 32) (bits : U64) (next : U32) :
    Kept stopFrame (do modifyCpu (·.setFreg r bits); return next : Prog Machine ε U32) :=
  (Kept.modify fun _ => rfl).bind fun _ => .pure next

theorem stop_secondWord (build : Build) (plain : Bool) (addr : U32) :
    Kept stopFrame (build.secondWord plain addr : Exec U32) := by
  unfold Build.secondWord Build.addU32
  split
  · split
    · exact .panic
    · exact .pure _
  · exact .pure _

theorem stop_orIllegal (raw : U32) (result : Option α) : Kept stopFrame (orIllegal raw result) := by
  cases result with
  | none => exact stop_getCpu.bind fun _ => .fail _
  | some a => exact .pure a

/-- An ordinary operation leaves the stop flags alone. -/
theorem Op.stop_exec (env : Env) {op : Op} (ordinary : op.Ordinary) :
    Kept stopFrame (op.exec env) := by
  cases op with
  | goto next => exact .pure next
  | write rd val next => exact stop_writeReg rd val next
  | writeF rd bits next => exact stop_setFreg rd bits next
  | halt next => exact ordinary.elim
  | load kind rd addr next => exact (stop_onBus _).bind fun _ => stop_writeReg _ _ next
  | loadSingle rd addr next => exact (stop_onBus _).bind fun _ => stop_setFreg _ _ next
  | loadDouble plain rd addr next =>
    exact (stop_onBus _).bind fun _ => (stop_secondWord env.build plain addr).bind fun _ =>
      (stop_onBus _).bind fun _ => stop_setFreg _ _ next
  | store width addr val next => exact (stop_onBus _).bind fun _ => .pure next
  | storeDouble plain bits addr next =>
    exact (stop_onBus _).bind fun _ => (stop_secondWord env.build plain addr).bind fun _ =>
      (stop_onBus _).bind fun _ => .pure next
  | amo raw funct5 rd addr src next =>
    refine (stop_onBus _).bind fun oldVal => (stop_orIllegal raw _).bind fun newVal => ?_
    dsimp only
    generalize (if funct5 = 0x03 then (0 : U32) else oldVal) = rdVal
    split
    · exact (stop_onBus _).bind fun _ => stop_writeReg _ _ next
    · exact stop_writeReg _ _ next
  | ecall next => exact ordinary.elim
  | mret next => exact (Kept.modify fun _ => rfl).bind fun _ => .pure next
  | csr num newVal rd oldVal next =>
    exact (Kept.modify fun _ => rfl).bind fun _ => stop_writeReg _ _ next
  | illegal raw => exact stop_getCpu.bind fun _ => .fail _
  | unknown opcode => exact stop_getCpu.bind fun _ => .fail _

end Flags

section Stopping

variable {env : Env} {m m' : Machine}

/-- What an exit call leaves of the processor: the stop and its code. -/
theorem cpu_of_exit (calls : m.Calls env .exit) (run : (handleEcall env).run m = .ok () m') :
    m'.cpu = { m.cpu with isHalted := true, exitCode := m.cpu.readReg regA0 } := by
  obtain ⟨group, number, leaves⟩ := handleEcall_leaves calls.1 run
  obtain rfl : group = .exit := Option.some_inj.mp (number.symm.trans calls.2)
  cases leaves with
  | exit cpu mem => exact cpu

/-- How an instruction that completed treated the stop flags: it left them alone, or it
is an `EBREAK`, or an exit call. -/
inductive Stop (env : Env) (m m' : Machine) (inst : Fetched) : Prop where
  | goes (halted : m'.cpu.isHalted = m.cpu.isHalted) (code : m'.cpu.exitCode = m.cpu.exitCode)
  | ebreak (ebreak : inst.isEbreak) (halted : m'.cpu.isHalted = true)
    (code : m'.cpu.exitCode = m.cpu.exitCode)
  | exit (ecall : inst.isEcall) (calls : m.Calls env .exit) (halted : m'.cpu.isHalted = true)
      (code : m'.cpu.exitCode = m.cpu.readReg regA0) (regs : m'.cpu.regs = m.cpu.regs)

theorem stop_of_execute {inst : Fetched} (run : (inst.execute env).run m = .ok () m') :
    Stop env m m' inst := by
  obtain ⟨next, n, carried, rfl⟩ := Fetched.execute_ok run
  rcases inst.op_stops env m.cpu with ordinary | ⟨ecall, target, op⟩ | ⟨ebreak, target, op⟩
  · have kept := Op.stop_exec env ordinary _ _ _ carried
    obtain ⟨halted, code⟩ := Prod.mk.inj kept
    exact .goes halted code
  · rw [op] at carried
    obtain ⟨done, n', called, rest⟩ := bind_ok.mp carried
    obtain ⟨-, rfl⟩ := Outcome.ok.inj rest
    by_cases calls : m.Calls env .exit
    · have left := cpu_of_exit calls called
      refine .exit ecall calls ?_ ?_ ?_
      · exact congrArg Cpu.isHalted left
      · exact congrArg Cpu.exitCode left
      · exact (congrArg Cpu.regs left :)
    · have effect := handleEcall_effect called
      refine .goes ?_ ?_
      · exact by_contra fun changed => calls (effect.halt (.inl changed))
      · exact by_contra fun changed => calls (effect.halt (.inr changed))
  · rw [op] at carried
    obtain ⟨-, rfl⟩ := Outcome.ok.inj carried
    exact .ebreak ebreak rfl rfl

end Stopping

end RiscvRs
