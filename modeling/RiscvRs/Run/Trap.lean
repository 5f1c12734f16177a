import RiscvRs.Run.Path

/-! Traps: an instruction that raises an error leaves the machine as it was, and
the drivers add nothing but the stop. -/

namespace RiscvRs

open Effects Prog

/-- Between two machines nothing happened but questions to the host: no register,
no byte of RAM and no output changed. -/
def Unaffected (m m' : Machine) : Prop :=
  m'.cpu = m.cpu ∧ m'.bus.mem = m.bus.mem ∧
    ∃ events : List IoEvent, m'.bus.world.io = events ++ m.bus.world.io ∧
      ∀ event ∈ events, event.isQuery = true

theorem unaffected_of_askFrame {m m' : Machine} (asked : askFrame.rel m m') : Unaffected m m' := by
  obtain ⟨cpu, mem, -, events, io, quiet⟩ := asked
  exact ⟨cpu, mem, events, io, quiet⟩

/-- A trapped instruction as the drivers leave it. -/
theorem Tracked.trapped_unaffected {t : Tracked} {m : Machine} (asked : askFrame.rel t.machine m)
    (inst : Fetched) (messages : List Diagnostic) :
    (t.trapped inst m messages).cpu = t.cpu.trap ∧
      Unaffected t.machine { (t.trapped inst m messages).machine with cpu := t.cpu } := by
  obtain ⟨cpu, mem, events, io, quiet⟩ := unaffected_of_askFrame asked
  refine ⟨?_, rfl, mem, events, io, quiet⟩
  change m.cpu.trap = t.machine.cpu.trap
  rw [cpu]

/-- A trapping instruction has no architectural effect, and neither driver adds
one: `pc` stays at the faulting instruction, and what changes is the stop itself
and the count of steps. -/
theorem trap_has_no_effect (env : Env) :
    (∀ (m m' : Machine) (inst : U16) (err : CpuError),
      (executeInst16 env inst).run m = .err err m' → Unaffected m m') ∧
    (∀ (m m' : Machine) (raw : U32) (err : CpuError),
      (executeInst32 env raw).run m = .err err m' → Unaffected m m') ∧
    (∀ (t t' : Tracked) (pc : U32), (stepInstruction env).run t = .ok (.trap pc) t' →
      pc = t.cpu.pc ∧
      t'.cpu = { t.cpu with
        trapped := true, exitCode := trapExitCode, isHalted := true,
        stepCounter := t.cpu.stepCounter + 1, resumePastBreakpoint := none } ∧
      Unaffected t.machine { t'.machine with cpu := t.cpu }) ∧
    (∀ (poll : Nat → Poll) (budget : U32) (t t' : Tracked) (out : SliceOutcome),
      (runSlice env poll budget).run t = .ok out t' → out.status = .trapped →
      ∃ at_ : Cursor, SlicePath env t.cpu.watches t.entry out.steps at_ ∧
        (∃ inst err u, (fetchExecute env at_.state.cpu.pc).run at_.state =
          .ok (inst, .error err) u) ∧
        out.pc = at_.state.cpu.pc ∧
        t'.cpu = { at_.state.cpu with
          trapped := true, exitCode := trapExitCode, isHalted := true } ∧
        Unaffected at_.state.machine { t'.machine with cpu := at_.state.cpu }) := by
  refine ⟨?_, ?_, ?_, ?_⟩
  · intro m m' inst err run
    exact unaffected_of_askFrame ((clean_executeInst16 env inst).err run)
  · intro m m' raw err run
    exact unaffected_of_askFrame ((clean_executeInst32 env raw).err run)
  · intro t t' pc run
    have ended := stepInstruction_end run
    generalize result : StepResult.trap pc = r at ended
    cases ended with
    | breakpointHit => cases result
    | halted => cases result
    | done _ _ inst m => split at result <;> cases result
    | trap _ _ inst err m messages fetched =>
      obtain ⟨rfl⟩ := result
      obtain ⟨cpu, mem, events, io, quiet⟩ := unaffected_of_askFrame (asked_of_run fetched)
      refine ⟨rfl, ?_, rfl, mem, events, io, quiet⟩
      rw [Tracked.cpu_withCpu]
      change { m.cpu.trap with stepCounter := m.cpu.stepCounter + 1 } = _
      rw [show m.cpu = { t.cpu with resumePastBreakpoint := none } from cpu]
      rfl
  · intro poll budget t t' out run trapped
    obtain ⟨c, path, stop, -, -, pc, -⟩ := runSlice_path run
    rw [trapped] at stop
    cases stop with
    | trapped live clear inst err m messages fetched =>
      obtain ⟨cpu, kept⟩ := Tracked.trapped_unaffected (asked_of_run fetched) inst messages
      refine ⟨c, path, ⟨inst, err, _, fetched⟩, ?_, cpu, kept⟩
      rw [pc, cpu]
      rfl

/-- The all-zero halfword is illegal. -/
theorem trap_has_no_effect_on_zero :
    (executeInst16 default 0).run Machine.new = .err (.illegalInstruction 0 0) Machine.new ∧
      Unaffected Machine.new Machine.new :=
  ⟨rfl, (trap_has_no_effect default).1 Machine.new Machine.new 0 (.illegalInstruction 0 0) rfl⟩

end RiscvRs
