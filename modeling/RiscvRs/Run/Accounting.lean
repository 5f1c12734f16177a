import RiscvRs.Run.Panics
import RiscvRs.Run.Trap

/-! What a slice reports: it always comes back, and its counters, its status and the
processor agree. -/

namespace RiscvRs

open Effects Prog

section Fuel

variable {env : Env} {watch : Bool}

theorem fueled_fetchExecute (pc : U32) : Fueled (fetchExecute env pc) := by
  rw [fetchExecute_eq]
  refine fueled_bind (fueled_zoom (fueled_zoom (total_fetch env.host pc).fueled)) fun inst => ?_
  exact fueled_bind (fueled_zoom (fueled_attempt inst.fueled_execute)) fun _ =>
    (total_pure _).fueled

theorem fueled_chunkLoop (left : Nat) (skip : Option U32) (done : Nat) :
    Fueled (chunkLoop env watch left skip done) := by
  induction left generalizing skip done with
  | zero => exact (total_pure _).fueled
  | succ left ih =>
    intro t
    rw [chunkLoop_succ]
    split
    · simp
    · split
      · simp
      · cases attempted : (fetchExecute env t.cpu.pc).run t with
        | exhausted => exact absurd attempted (fueled_fetchExecute t.cpu.pc t)
        | ok fetched u =>
          obtain ⟨inst, result⟩ := fetched
          rw [Outcome.andThen_ok]
          cases result with
          | ok _ => exact ih _ _ _
          | error err =>
            dsimp only
            obtain ⟨messages, reported⟩ := reportSliceError_run t.cpu.pc inst err
              (u.log (.executed t.cpu.pc inst u.cpu.pc false))
            rw [reported]
            simp
        | err e u => simp
        | panic => simp

/-- Every round of the outer loop makes progress, so the budget bounds the rounds. -/
theorem fueled_sliceLoop (poll : Nat → Poll) {budget : Nat} (fuel polls : Nat) (skip : Option U32)
    {executed : Nat}
    (within : executed ≤ budget) (enough : budget < executed + fuel) :
    Fueled (sliceLoop env poll watch budget fuel polls skip executed) := by
  induction fuel generalizing polls skip executed with
  | zero => omega
  | succ fuel ih =>
    intro t
    by_cases halted : t.cpu.isHalted = true
    · rw [sliceLoop_halted _ _ _ halted]
      simp
    have live : t.cpu.isHalted = false := by simpa using halted
    by_cases spent : budget ≤ executed
    · rw [sliceLoop_spent _ _ _ live spent]
      simp
    rw [sliceLoop_round _ _ _ live (by omega)]
    have progress := (poll polls).interval_pos
    generalize t.polled (poll polls) = u
    cases chunk : (chunkLoop env watch (min (poll polls).interval (budget - executed)) skip 0).run
      u with
    | exhausted => exact absurd chunk (fueled_chunkLoop _ _ _ u)
    | ok result v =>
      obtain ⟨done, skip', stopped⟩ := result
      rw [Outcome.andThen_ok]
      cases stopped with
      | some status => simp
      | none =>
        have whole := chunkLoop_whole chunk
        exact ih _ _ (by omega) (by omega) v
    | err e v => simp
    | panic => simp

theorem fueled_runSlice (poll : Nat → Poll) (budget : U32) : Fueled (runSlice env poll budget) := by
  intro t
  have loop : Fueled (sliceLoop env poll t.cpu.watches budget.toNat
    (budget.toNat + 1) 0 t.entry.skip 0) :=
    fueled_sliceLoop poll _ _ _ (Nat.zero_le _) (by omega)
  rw [runSlice_run]
  cases outcome : (sliceLoop env poll t.cpu.watches budget.toNat
    (budget.toNat + 1) 0 t.entry.skip 0).run t.entry.state with
  | exhausted => exact absurd outcome (loop t.entry.state)
  | ok result u => simp
  | err e u => exact e.elim
  | panic => simp

end Fuel

section Panic

variable {env : Env} {watch : Bool}

/-- The inner loop panics only in an instruction. -/
theorem chunkLoop_panic {left done : Nat} {skip : Option U32} {t : Tracked}
    (run : (chunkLoop env watch left skip done).run t = .panic) :
    ∃ n c, SlicePath env watch ⟨skip, t⟩ n c ∧
      (fetchExecute env c.state.cpu.pc).run c.state = .panic := by
  induction left generalizing skip done t with
  | zero => cases run
  | succ left ih =>
    rw [chunkLoop_succ] at run
    split at run
    · cases run
    · next halted =>
      split at run
      · cases run
      · next clear =>
        have live : t.cpu.isHalted = false := by simpa using halted
        generalize attempted : (fetchExecute env t.cpu.pc).run t = outcome at run
        have shape := fetchExecute_attempt env t.cpu.pc t
        rw [attempted] at shape
        cases shape with
        | done inst m touched =>
          have step : ExecStep env watch ⟨skip, t⟩
            ⟨if watch then none else skip, t.completed inst m⟩ :=
            .mk ⟨skip, t⟩ live clear inst m attempted
          obtain ⟨n, c, path, crash⟩ := ih run
          exact ⟨1 + n, c, (SlicePath.start.exec step).trans path, crash⟩
        | trap inst err m asked =>
          rw [Outcome.andThen_ok] at run
          dsimp only at run
          obtain ⟨messages, reported⟩ := reportSliceError_run t.cpu.pc inst err
            ({ t with machine := m }.log (.executed t.cpu.pc inst m.cpu.pc false))
          change ((reportSliceError t.cpu.pc inst err).run
            ({ t with machine := m }.log (.executed t.cpu.pc inst m.cpu.pc false))).andThen _ = _ at run
          rw [reported] at run
          cases run
        | panic => exact ⟨0, _, .start, attempted⟩
        | exhausted => cases run

theorem sliceLoop_panic {poll : Nat → Poll} {budget fuel polls executed : Nat} {skip : Option U32}
    {t : Tracked}
    (run : (sliceLoop env poll watch budget fuel polls skip executed).run t = .panic) :
    ∃ n c, SlicePath env watch ⟨skip, t⟩ n c ∧
      (fetchExecute env c.state.cpu.pc).run c.state = .panic := by
  induction fuel generalizing polls executed skip t with
  | zero => cases run
  | succ fuel ih =>
    by_cases halted : t.cpu.isHalted = true
    · rw [sliceLoop_halted _ _ _ halted] at run
      cases run
    have live : t.cpu.isHalted = false := by simpa using halted
    by_cases spent : budget ≤ executed
    · rw [sliceLoop_spent _ _ _ live spent] at run
      cases run
    rw [sliceLoop_round _ _ _ live (by omega)] at run
    have polled : SlicePath env watch ⟨skip, t⟩ 0 ⟨skip, t.polled (poll polls)⟩ :=
      (poll_path (Set.mem_univ _) skip live).slicePath
    generalize t.polled (poll polls) = u at run polled
    cases chunk : (chunkLoop env watch (min (poll polls).interval (budget - executed)) skip 0).run
      u with
    | panic =>
      obtain ⟨n, c, path, crash⟩ := chunkLoop_panic chunk
      exact ⟨0 + n, c, polled.trans path, crash⟩
    | ok result v =>
      obtain ⟨done, skip', stopped⟩ := result
      rw [chunk, Outcome.andThen_ok] at run
      cases stopped with
      | some status => cases run
      | none =>
        obtain ⟨n, c, path, -, -, ⟨-, -, rfl⟩ | ⟨status, stopped, -⟩⟩ := chunkLoop_path chunk
        · obtain ⟨k, c', path', crash⟩ := ih run
          exact ⟨0 + n + k, c', (polled.trans path).trans path', crash⟩
        · cases stopped
    | err e v => exact e.elim
    | exhausted =>
      rw [chunk] at run
      cases run

theorem runSlice_panic {poll : Nat → Poll} {budget : U32} {t : Tracked}
    (run : (runSlice env poll budget).run t = .panic) :
    ∃ n c, SlicePath env t.cpu.watches t.entry n c ∧
      (fetchExecute env c.state.cpu.pc).run c.state = .panic := by
  rw [runSlice_run] at run
  generalize loop : (sliceLoop env poll _ _ _ _ _ _).run _ = outcome at run
  cases outcome with
  | panic => exact sliceLoop_panic loop
  | ok result u => cases run
  | err e u => cases run
  | exhausted => cases run

/-- Where no instruction can panic, a slice returns. -/
theorem runSlice_returns (bounded : env.host.ReadsWithinCount)
    (unchecked : env.build.overflowChecks = false)
    (poll : Nat → Poll) (budget : U32) (t : Tracked) :
    ∃ out t', (runSlice env poll budget).run t = .ok out t' := by
  cases run : (runSlice env poll budget).run t with
  | ok out t' => exact ⟨out, t', rfl⟩
  | err e t' => exact e.elim
  | exhausted => exact absurd run (fueled_runSlice poll budget t)
  | panic =>
    obtain ⟨n, c, -, crash⟩ := runSlice_panic run
    have ends : ((fetchExecute env c.state.cpu.pc).run c.state).Ends := by
      rw [ends_fetchExecute_iff bounded, unchecked]
      exact fun overflow => Bool.false_ne_true overflow.1
    rw [crash] at ends
    exact ends.elim

end Panic

/-- The account of one slice from `t` to `t'`; the counter of the processor is meant modulo `2 ^ 64`. -/
structure SliceAccount (env : Env) (budget : U32) (t : Tracked) (out : SliceOutcome)
    (t' : Tracked) : Prop where
  within : out.steps ≤ budget.toNat
  counted : t'.cpu.stepCounter = t.cpu.stepCounter + out.steps
  running : out.status = .running → out.steps = budget.toNat ∧ t'.cpu.isHalted = false
  halted : out.status = .halted → t'.cpu.isHalted = true
  /-- The faulting instruction comes after the counted ones, and `pc` stands at it. -/
  trapped : out.status = .trapped → t'.cpu.trapped = true ∧ t'.cpu.isHalted = true ∧
    t'.cpu.exitCode = trapExitCode ∧
    ∃ c inst err u, SlicePath env t.cpu.watches t.entry out.steps c ∧ c.state.cpu.pc = t'.cpu.pc ∧
      (fetchExecute env c.state.cpu.pc).run c.state = .ok (inst, .error err) u
  breakpoint : out.status = .breakpoint → t'.cpu.debugEnabled = true ∧
    t'.cpu.pc ∈ t'.cpu.breakpoints ∧
    t'.cpu.isHalted = false ∧ out.steps < budget.toNat ∧
      t'.cpu.resumePastBreakpoint = some t'.cpu.pc
  pc : out.pc = t'.cpu.pc
  exitCode : out.exitCode = t'.cpu.exitCode

theorem runSlice_account {env : Env} {poll : Nat → Poll} {budget : U32} {t t' : Tracked}
    {out : SliceOutcome}
    (run : (runSlice env poll budget).run t = .ok out t') : SliceAccount env budget t out t' := by
  obtain ⟨c, path, stop, within, spent, pc, exitCode, early⟩ := runSlice_path run
  have counted : t'.cpu.stepCounter = t.cpu.stepCounter + out.steps := by
    rw [stop.stepCounter, path.stepCounter]
    rfl
  generalize kind : out.status = status at stop
  refine ⟨within, counted, ?_, ?_, ?_, ?_, pc, exitCode⟩
  · intro running
    rw [kind] at running
    subst running
    cases stop with
    | running live => exact ⟨spent kind, live⟩
  · intro halted
    rw [kind] at halted
    subst halted
    cases stop with
    | halted halted => exact halted
  · intro trapped
    rw [kind] at trapped
    subst trapped
    cases stop with
    | trapped live clear inst err m messages fetched =>
      have same : m.cpu = c.state.cpu := (asked_of_run fetched).1
      refine ⟨rfl, rfl, rfl, c, inst, err, _, path, ?_, fetched⟩
      rw [← same]
      rfl
  · intro breakpoint
    rw [kind] at breakpoint
    subst breakpoint
    cases stop with
    | breakpoint live hit =>
      obtain ⟨watches, member, -⟩ := hit
      have enabled : t.cpu.debugEnabled = true := (Bool.and_eq_true_iff.mp watches).1
      exact ⟨path.debugEnabled.trans enabled, member, live, early kind, rfl⟩

/-- A slice always comes back, whatever the host answers: it never runs out of rounds, and
without overflow checks, on a host that keeps to its counts, it always has an outcome. The
outcome accounts for what was done. -/
theorem run_slice_accounts (env : Env) (poll : Nat → Poll) (budget : U32) (t : Tracked) :
    (runSlice env poll budget).run t ≠ .exhausted ∧
    (env.host.ReadsWithinCount → env.build.overflowChecks = false →
      ∃ out t', (runSlice env poll budget).run t = .ok out t') ∧
    ∀ out t', (runSlice env poll budget).run t = .ok out t' → SliceAccount env budget t out t' :=
  ⟨fueled_runSlice poll budget t, fun bounded unchecked =>
    runSlice_returns bounded unchecked poll budget t,
    fun _ _ => runSlice_account⟩

/-- Three `C.NOP` before empty memory, polled at a negative interval. -/
theorem run_slice_accounts_negative_interval :
    ∃ out t', (runSlice default (fun _ => ⟨0xFFFFFFFF, 0, 0⟩) 5).run
      (.program [0x01, 0x00, 0x01, 0x00, 0x01, 0x00]) =
        .ok out t' ∧
      out.status = .trapped ∧ out.steps = 3 ∧
      SliceAccount default 5 (.program [0x01, 0x00, 0x01, 0x00, 0x01, 0x00]) out t' := by
  have accounts := run_slice_accounts default (fun _ => ⟨0xFFFFFFFF, 0, 0⟩) 5
    (.program [0x01, 0x00, 0x01, 0x00, 0x01, 0x00])
  obtain ⟨out, t', run⟩ := accounts.2.1 (fun _ count => Int.natCast_nonneg count.toNat) rfl
  obtain ⟨t, known⟩ : ∃ t, (runSlice default (fun _ => ⟨0xFFFFFFFF, 0, 0⟩) 5).run
      (.program [0x01, 0x00, 0x01, 0x00, 0x01, 0x00]) = .ok ⟨.trapped, 3, 6, trapExitCode⟩ t := ⟨_, rfl⟩
  obtain ⟨rfl, rfl⟩ := Outcome.ok.inj (run.symm.trans known)
  exact ⟨_, _, run, rfl, rfl, accounts.2.2 _ _ run⟩

end RiscvRs
