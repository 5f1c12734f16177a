import RiscvRs.Run.Slicing
import RiscvRs.Session.Simulator

/-! A halted machine under each of the entry points. -/

namespace RiscvRs

open Effects Prog

/-- Nothing happened but a change of the pending breakpoint report: processor,
memory, host accesses and the record of the guest are as they were. -/
def Unmoved (t t' : Tracked) : Prop :=
  ∃ pending, t' = t.withCpu { t.cpu with resumePastBreakpoint := pending }

theorem Unmoved.entry (t : Tracked) : Unmoved t t.entry.state := ⟨none, rfl⟩

section Halted

variable (env : Env) {t : Tracked} (halted : t.cpu.isHalted = true)

include halted

theorem runSlice_halted (poll : Nat → Poll) (budget : U32) :
    (runSlice env poll budget).run t = .ok ⟨.halted, 0, t.cpu.pc, t.cpu.exitCode⟩
      t.entry.state := by
  have stays : t.entry.state.cpu.isHalted = true := halted
  rw [runSlice_run, sliceLoop_halted _ _ _ stays]
  rfl

theorem run_halted (polls : Nat → Nat → Poll) (fuel slice : Nat) :
    (run env polls (fuel + 1) slice).run t = .ok t.cpu.exitCode t.entry.state := by
  have stays : { t.entry.state.cpu with isHalted := true } = t.entry.state.cpu := by
    rw [← show t.entry.state.cpu.isHalted = true from halted]
  rw [run, run_bind, runSlice_halted env halted, Outcome.andThen_ok]
  change Outcome.ok t.cpu.exitCode
    (t.entry.state.withCpu { t.entry.state.cpu with isHalted := true }) = _
  rw [stays]
  rfl

theorem runUntilBreakpoint_halted (polls : Nat → Nat → Poll) (fuel slice : Nat)
    (symbols : U32 → Option Text) :
    (runUntilBreakpoint env polls (fuel + 1) slice).run ⟨t, symbols⟩ =
      .ok (t.cpu.snapshot false 0) ⟨t.entry.state, symbols⟩ := by
  have sliced : (onTracked (runSlice env (polls slice) 0xFFFFFFFF)).run ⟨t, symbols⟩ =
      .ok ⟨.halted, 0, t.cpu.pc, t.cpu.exitCode⟩ ⟨t.entry.state, symbols⟩ := by
    simp only [onTracked, run_zoom, runSlice_halted env halted, Outcome.reshape_ok]
  rw [runUntilBreakpoint, run_bind, sliced]
  rfl

end Halted

/-- Each entry point leaves a halted machine alone and says that it has halted. -/
structure HaltIsFinal (env : Env) (t : Tracked) : Prop where
  slice : ∀ poll budget, ∃ t', Unmoved t t' ∧
    (runSlice env poll budget).run t = .ok ⟨.halted, 0, t.cpu.pc, t.cpu.exitCode⟩ t'
  run : ∀ polls fuel slice, ∃ t', Unmoved t t' ∧
    (RiscvRs.run env polls (fuel + 1) slice).run t = .ok t.cpu.exitCode t'
  step : ∃ t', Unmoved t t' ∧ (stepInstruction env).run t = .ok (.halted t.cpu.exitCode) t'
  untilBreakpoint : ∀ polls fuel slice symbols, ∃ t', Unmoved t t' ∧
    (runUntilBreakpoint env polls (fuel + 1) slice).run ⟨t, symbols⟩ =
      .ok (t.cpu.snapshot false 0) ⟨t', symbols⟩

/-- Halting is final, except that `step_instruction` looks for a breakpoint first:
it reports one on a halted machine that stands at a breakpoint not yet reported. -/
theorem halt_is_final_iff (env : Env) (t : Tracked) (halted : t.cpu.isHalted = true) :
    HaltIsFinal env t ↔ ¬t.cpu.StepHit := by
  constructor
  · intro final hit
    obtain ⟨t', -, run⟩ := final.step
    rw [stepInstruction_run, if_pos hit] at run
    cases run
  · intro clear
    constructor
    · intro poll budget
      exact ⟨_, .entry t, runSlice_halted env halted poll budget⟩
    · intro polls fuel slice
      exact ⟨_, .entry t, run_halted env halted polls fuel slice⟩
    · refine ⟨_, .entry t, ?_⟩
      rw [stepInstruction_run, if_neg clear, if_pos halted]
    · intro polls fuel slice symbols
      exact ⟨_, .entry t, runUntilBreakpoint_halted env halted polls fuel slice symbols⟩

/-- A fresh machine that was stopped, with and without a breakpoint where it stands. -/
def Tracked.stopped (breakpoints : Finset U32) : Tracked where
  machine := { Machine.new with
    cpu := { Cpu.new with isHalted := true, debugEnabled := true, breakpoints := breakpoints } }
  history := []

theorem halt_is_final_iff_clear : HaltIsFinal default (.stopped {4}) :=
  (halt_is_final_iff default (.stopped {4}) rfl).mpr (by decide)

/-- A step of a machine that halted at a breakpoint address reports the breakpoint. -/
theorem halted_step_reports_breakpoint :
    ∃ t t' : Tracked, t.cpu.isHalted = true ∧
      (stepInstruction default).run t = .ok (.breakpointHit 0) t' ∧
      ¬HaltIsFinal default t := by
  refine ⟨.stopped {0}, _, rfl, rfl, ?_⟩
  intro final
  obtain ⟨t', -, run⟩ := final.step
  cases run

end RiscvRs
