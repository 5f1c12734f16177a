import RiscvRs.Run.Moves
import RiscvRs.Run.Observing
import RiscvRs.Run.Slicing

/-! Breakpoints do not change what a run computes: under every setting it goes the way
of the loop that looks at none of them. -/

namespace RiscvRs

open Effects Prog

def Tracked.bare (t : Tracked) : Tracked := { t with machine := t.machine.bare }

/-- One pass of the inner loop that looks at no breakpoint. -/
def tick (env : Env) : Driver (Option SliceStatus) := do
  let (_, _, stopped) ← chunkLoop env false 1 none 0
  return stopped

section Blindness

variable {env : Env}

theorem Tracked.bare_ext {t t' : Tracked} (machine : t.machine.bare = t'.machine.bare)
    (history : t.history = t'.history) : t.bare = t'.bare := by
  rw [Tracked.bare, Tracked.bare, machine, history]

theorem machine_of_bare {t t' : Tracked} (same : t.bare = t'.bare) :
    t.machine.bare = t'.machine.bare :=
  congrArg Tracked.machine same

theorem history_of_bare {t t' : Tracked} (same : t.bare = t'.bare) : t.history = t'.history := by
  have history := congrArg Tracked.history same
  exact history

theorem trackedCpu_of_bare {t t' : Tracked} (same : t.bare = t'.bare) : t.cpu.bare = t'.cpu.bare :=
  cpu_of_bare (machine_of_bare same)

theorem pc_of_bare {t t' : Tracked} (same : t.bare = t'.bare) : t.cpu.pc = t'.cpu.pc := by
  have pc := congrArg Cpu.pc (trackedCpu_of_bare same)
  exact pc

theorem isHalted_of_bare {t t' : Tracked} (same : t.bare = t'.bare) :
    t.cpu.isHalted = t'.cpu.isHalted := by
  have halted := congrArg Cpu.isHalted (trackedCpu_of_bare same)
  exact halted

theorem exitCode_of_bare {t t' : Tracked} (same : t.bare = t'.bare) :
    t.cpu.exitCode = t'.cpu.exitCode := by
  have code := congrArg Cpu.exitCode (trackedCpu_of_bare same)
  exact code

theorem bare_withCpu {t t' : Tracked} {cpu cpu' : Cpu} (same : t.bare = t'.bare)
    (cpus : cpu.bare = cpu'.bare) :
    (t.withCpu cpu).bare = (t'.withCpu cpu').bare := by
  have bus : t.machine.bus = t'.machine.bus := bus_of_bare (machine_of_bare same)
  have history : t.history = t'.history := history_of_bare same
  exact Tracked.bare_ext (Machine.bare_ext cpus bus) history

theorem tracked_bare_iff_seen (t t' : Tracked) :
    Tracked.seen Cpu.bare id t = Tracked.seen Cpu.bare id t' ↔ t.bare = t'.bare := by
  refine ⟨fun same => ?_, fun same => ?_⟩
  · exact Tracked.bare_ext ((bare_iff_seen _ _).mp (machineSeen same)) (historySeen same)
  · exact Prod.ext ((bare_iff_seen _ _).mpr (machine_of_bare same)) (history_of_bare same)

/-- With no breakpoints to watch for, the settings are not read. -/
theorem blind_unwatched (left : Nat) (skip : Option U32) (done : Nat) :
    Blind Tracked.bare (chunkLoop env false left skip done) :=
  (blind_chunkLoop seesCpu_bare (seesBus_id env.host) (by simp) left skip done).congr
    tracked_bare_iff_seen

theorem blind_tick : Blind Tracked.bare (tick env) :=
  blind_bind (blind_unwatched 1 none 0) fun _ => blind_pure _

end Blindness

section Iterations

/-- The ways a slice can be over for good. -/
def SliceStatus.Final (status : SliceStatus) : Prop := status = .halted ∨ status = .trapped

/-- A pass of the inner loop reports a breakpoint or does what a pass without breakpoints does. -/
inductive Iteration (env : Env) (watch : Bool) (skip : Option U32) (t : Tracked) : Prop where
  | breakpoint (hit : Cursor.Hit watch ⟨skip, t⟩)
      (ran : ∀ left done, (chunkLoop env watch (left + 1) skip done).run t =
        .ok (done, skip, some .breakpoint)
          (t.withCpu { t.cpu with resumePastBreakpoint := some t.cpu.pc }))
  | stop (status : SliceStatus) (final : status.Final) (skip' : Option U32) (u : Tracked)
      (ticked : (tick env).run t = .ok (some status) u)
      (ran : ∀ left done, (chunkLoop env watch (left + 1) skip done).run t =
        .ok (done, skip', some status) u)
  | next (skip' : Option U32) (u : Tracked) (ticked : (tick env).run t = .ok none u)
      (ran : ∀ left done,
        (chunkLoop env watch (left + 1) skip done).run t =
          (chunkLoop env watch left skip' (done + 1)).run u)
  | panic (ticked : (tick env).run t = .panic)
      (ran : ∀ left done, (chunkLoop env watch (left + 1) skip done).run t = .panic)
  | exhausted (ticked : (tick env).run t = .exhausted)
      (ran : ∀ left done, (chunkLoop env watch (left + 1) skip done).run t = .exhausted)

theorem iteration (env : Env) (watch : Bool) (skip : Option U32) (t : Tracked) :
    Iteration env watch skip t := by
  have unwatched : ¬Cursor.Hit false ⟨none, t⟩ := fun hit => Bool.false_ne_true hit.1
  have ticks : (tick env).run t =
      ((chunkLoop env false 1 none 0).run t).andThen fun result u => .ok result.2.2 u := rfl
  rw [chunkLoop_succ, if_neg unwatched] at ticks
  by_cases halted : t.cpu.isHalted = true
  · rw [if_pos halted] at ticks
    refine .stop .halted (.inl rfl) skip t ticks fun left done => ?_
    rw [chunkLoop_succ, if_pos halted]
  rw [if_neg halted] at ticks
  by_cases hit : Cursor.Hit watch ⟨skip, t⟩
  · refine .breakpoint hit fun left done => ?_
    rw [chunkLoop_succ, if_neg halted, if_pos hit]
  have loops (left done : Nat) := @chunkLoop_succ env watch left skip done t
  simp only [if_neg halted, if_neg hit] at loops
  generalize (fetchExecute env t.cpu.pc).run t = attempted at ticks loops
  cases attempted with
  | ok result u =>
    obtain ⟨inst, result⟩ := result
    cases result with
    | ok _ => exact .next _ _ ticks fun left done => loops left done
    | error err =>
      obtain ⟨messages, reported⟩ := reportSliceError_run t.cpu.pc inst err
        (u.log (.executed t.cpu.pc inst u.cpu.pc false))
      simp only [Outcome.andThen_ok, reported] at ticks loops
      exact .stop .trapped (.inr rfl) _ _ ticks fun left done => loops left done
  | err e u => exact e.elim
  | panic => exact .panic ticks fun left done => loops left done
  | exhausted => exact .exhausted ticks fun left done => loops left done

end Iterations

section Chunks

variable {env : Env} {watch : Bool}

/-- States that settle alike up to the debug settings. -/
def SettlesLike (env : Env) (n : Nat) (t : Tracked) (status : SliceStatus)
    (last : Tracked) : Prop :=
  ∃ v, Settles (tick env) n t status v ∧ v.bare = last.bare

theorem SettlesLike.bare {n : Nat} {t t' last : Tracked} {status : SliceStatus}
    (settles : SettlesLike env n t status last) (same : t.bare = t'.bare) :
    SettlesLike env n t' status last := by
  obtain ⟨v, settled, seen⟩ := settles
  obtain ⟨v', settled', seen'⟩ := settled.alike blind_tick same
  exact ⟨v', settled', seen'.symm.trans seen⟩

theorem SettlesLike.step {n : Nat} {t u last : Tracked} {status : SliceStatus}
    (settles : SettlesLike env n u status last) (ticked : (tick env).run t = .ok none u) :
    SettlesLike env (n + 1) t status last := by
  obtain ⟨v, settled, seen⟩ := settles
  exact ⟨v, .step ticked settled, seen⟩

/-- Where a watched chunk stops for good, the unwatched loop settles; where it goes on or
reports a breakpoint, the loop goes on from there. -/
theorem chunkLoop_settles {left done done' : Nat} {skip skip' : Option U32}
    {stopped : Option SliceStatus}
    {t u : Tracked} (ran : (chunkLoop env watch left skip done).run t =
      .ok (done', skip', stopped) u) :
    (∃ status n, stopped = some status ∧ status.Final ∧ SettlesLike env n t status u) ∨
    ((stopped = none ∨ stopped = some .breakpoint) ∧
      ∀ n status last, SettlesLike env n u status last → ∃ k, SettlesLike env k t status last) := by
  induction left generalizing skip done t with
  | zero =>
    obtain ⟨result, rfl⟩ := Outcome.ok.inj ran
    obtain ⟨-, -, rfl⟩ := by simpa using result
    exact .inr ⟨.inl rfl, fun n status last settles => ⟨n, settles⟩⟩
  | succ left ih =>
    cases iteration env watch skip t with
    | breakpoint hit loops =>
      obtain ⟨result, rfl⟩ := Outcome.ok.inj ((loops left done).symm.trans ran)
      obtain ⟨-, -, rfl⟩ := by simpa using result
      exact .inr ⟨.inr rfl, fun n status last settles => ⟨n, settles.bare rfl⟩⟩
    | stop status final skip'' v ticked loops =>
      obtain ⟨result, rfl⟩ := Outcome.ok.inj ((loops left done).symm.trans ran)
      obtain ⟨-, -, rfl⟩ := by simpa using result
      exact .inl ⟨status, 0, rfl, final, v, .stop ticked, rfl⟩
    | next skip'' v ticked loops =>
      rcases ih ((loops left done).symm.trans ran) with ⟨status, n, stop, final,
        settles⟩ | ⟨open_, resumes⟩
      · exact .inl ⟨status, n + 1, stop, final, settles.step ticked⟩
      · refine .inr ⟨open_, fun n status last settles => ?_⟩
        obtain ⟨k, earlier⟩ := resumes n status last settles
        exact ⟨k + 1, earlier.step ticked⟩
    | panic ticked loops => cases (loops left done).symm.trans ran
    | exhausted ticked loops => cases (loops left done).symm.trans ran

/-- Along a run that settles, a chunk stops where the run does, or it is on the way: at its
end, or at a breakpoint that it did not skip. -/
theorem chunkLoop_of_settles (watch : Bool) {n : Nat} {t last : Tracked} {status : SliceStatus}
    (settles : SettlesLike env n t status last) (left : Nat) (skip : Option U32) (done : Nat) :
    ∃ k skip' stopped u, (chunkLoop env watch left skip done).run t =
      .ok (done + k, skip', stopped) u ∧
      ((stopped = some status ∧ status.Final ∧ u.bare = last.bare) ∨
        (k ≤ n ∧ SettlesLike env (n - k) u status last ∧
          ((stopped = none ∧ k = left) ∨
            (stopped = some .breakpoint ∧ u.cpu.resumePastBreakpoint = some u.cpu.pc ∧
              (k = 0 → skip ≠ some t.cpu.pc))))) := by
  induction left generalizing n skip done t with
  | zero => exact ⟨0, skip, none, t, rfl, .inr ⟨Nat.zero_le n, settles, .inl ⟨rfl, rfl⟩⟩⟩
  | succ left ih =>
    cases iteration env watch skip t with
    | breakpoint hit loops =>
      refine ⟨0, skip, _, _, loops left done,
        .inr ⟨Nat.zero_le n, settles.bare rfl, .inr ⟨rfl, rfl, ?_⟩⟩⟩
      exact fun _ => hit.2.2
    | stop status' final skip' u ticked loops =>
      obtain ⟨v, settled, seen⟩ := settles
      obtain ⟨-, rfl, rfl⟩ := settled.of_stop ticked
      exact ⟨0, skip', _, _, loops left done, .inl ⟨rfl, final, seen⟩⟩
    | next skip' u ticked loops =>
      obtain ⟨v, settled, seen⟩ := settles
      obtain ⟨m, rfl, rest⟩ := settled.of_step ticked
      obtain ⟨k, skip'', stopped, w, ran, ending⟩ := ih ⟨v, rest, seen⟩ skip' (done + 1)
      refine ⟨k + 1, skip'', stopped, w, ?_, ?_⟩
      · rw [loops, ran, Nat.add_assoc, Nat.add_comm 1 k]
      · rcases ending with stop | ⟨within, later, ending⟩
        · exact .inl stop
        · refine .inr ⟨Nat.succ_le_succ within, ?_, ?_⟩
          · rwa [Nat.add_sub_add_right]
          · rcases ending with ⟨open_, full⟩ | ⟨reported, resume, -⟩
            · exact .inl ⟨open_, congrArg (· + 1) full⟩
            · exact .inr ⟨reported, resume, fun zero => absurd zero (Nat.succ_ne_zero k)⟩
    | panic ticked loops =>
      obtain ⟨v, settled, -⟩ := settles
      cases settled with
      | stop last => cases ticked.symm.trans last
      | step first rest => cases ticked.symm.trans first
    | exhausted ticked loops =>
      obtain ⟨v, settled, -⟩ := settles
      cases settled with
      | stop last => cases ticked.symm.trans last
      | step first rest => cases ticked.symm.trans first

end Chunks

section Runs

variable {env : Env} {polls : Nat → Nat → Poll}

/-- What `run` leaves of the state it stopped in. -/
def Tracked.finished (t : Tracked) : Tracked := t.withCpu { t.cpu with isHalted := true }

theorem finished_of_halted {u : Tracked} (halted : u.cpu.isHalted = true) : u.finished = u := by
  have same : { u.cpu with isHalted := true } = u.cpu := by rw [← halted]
  rw [Tracked.finished, same]
  rfl

theorem Tracked.bare_finished {t t' : Tracked} (same : t.bare = t'.bare) :
    t.finished.bare = t'.finished.bare := by
  refine bare_withCpu same ?_
  have cpu := trackedCpu_of_bare same
  exact congrArg (fun cpu : Cpu => { cpu with isHalted := true }) cpu

theorem Tracked.bare_entry (t : Tracked) : t.entry.state.bare = t.bare := rfl

/-- A slice that is over for good. -/
theorem run_final {fuel slice : Nat} {out : SliceOutcome} {t u : Tracked} (final : out.status.Final)
    (ran : (runSlice env (polls slice) 0xFFFFFFFF).run t = .ok out u) :
    (run env polls (fuel + 1) slice).run t = .ok u.cpu.exitCode u.finished := by
  rw [run, run_bind, ran, Outcome.andThen_ok]
  rcases final with status | status
  · rw [status]
    rfl
  · rw [status]
    rfl

/-- A slice after which `run` goes on. -/
theorem run_open {fuel slice : Nat} {out : SliceOutcome} {t u : Tracked}
    (open_ : out.status = .running ∨ out.status = .breakpoint)
    (ran : (runSlice env (polls slice) 0xFFFFFFFF).run t = .ok out u) :
    (run env polls (fuel + 1) slice).run t = (run env polls fuel (slice + 1)).run u := by
  rw [run, run_bind, ran, Outcome.andThen_ok]
  rcases open_ with status | status
  · rw [status]
  · rw [status]

/-- A halted machine settles where it is. -/
theorem settles_halted (env : Env) {t : Tracked} (halted : t.cpu.isHalted = true) :
    Settles (tick env) 0 t .halted t := by
  refine .stop ?_
  change ((chunkLoop env false 1 none 0).run t).andThen _ = _
  rw [chunkLoop_succ, if_pos halted]
  rfl

/-- A quiet slice is one chunk. -/
theorem runSlice_chunk (env : Env) {poll : Nat → Poll} (off : Quiet poll) (budget : U32) (t : Tracked) :
    (runSlice env poll budget).run t =
      ((chunkLoop env t.cpu.watches budget.toNat t.entry.skip 0).run t.entry.state).andThen
        fun result u =>
          .ok ⟨result.2.2.getD (if u.cpu.isHalted then .halted else .running), result.1, u.cpu.pc,
            u.cpu.exitCode⟩ u := by
  rw [runSlice_plain off, plainLoop_run]
  cases (chunkLoop env t.cpu.watches budget.toNat t.entry.skip 0).run t.entry.state <;> rfl

theorem runSlice_settles {poll : Nat → Poll} (off : Quiet poll) {budget : U32} {out : SliceOutcome}
    {t u : Tracked}
    (ran : (runSlice env poll budget).run t = .ok out u) :
    (out.status.Final ∧ ∃ n, SettlesLike env n t out.status u) ∨
    ((out.status = .running ∨ out.status = .breakpoint) ∧
      ∀ n status last, SettlesLike env n u status last → ∃ k, SettlesLike env k t status last) := by
  rw [runSlice_chunk env off] at ran
  generalize chunk : (chunkLoop env t.cpu.watches budget.toNat t.entry.skip 0).run t.entry.state =
    outcome at ran
  cases outcome with
  | ok result v =>
    obtain ⟨done, skip, stopped⟩ := result
    obtain ⟨rfl, rfl⟩ := Outcome.ok.inj ran
    rcases chunkLoop_settles chunk with ⟨status, n, rfl, final, settles⟩ | ⟨open_, resumes⟩
    · exact .inl ⟨final, n, settles.bare t.bare_entry⟩
    · have earlier (n : Nat) (status : SliceStatus) (last : Tracked)
        (settles : SettlesLike env n v status last) :
          ∃ k, SettlesLike env k t status last := by
        obtain ⟨k, before⟩ := resumes n status last settles
        exact ⟨k, before.bare t.bare_entry⟩
      rcases open_ with rfl | rfl
      · dsimp only [Option.getD_none]
        split
        · next halted =>
            exact .inl ⟨.inl rfl, earlier 0 .halted v ⟨v, settles_halted env halted, rfl⟩⟩
        · exact .inr ⟨.inl rfl, earlier⟩
      · exact .inr ⟨.inr rfl, earlier⟩
  | err e v => exact e.elim
  | panic => cases ran
  | exhausted => cases ran

/-- A run that returns stopped where the unwatched loop settles. -/
theorem run_settles (off : ∀ k, Quiet (polls k)) {fuel slice : Nat} {code : U32} {t u : Tracked}
    (ran : (run env polls fuel slice).run t = .ok code u) :
    ∃ n status last, SettlesLike env n t status last ∧ code = last.cpu.exitCode ∧
      u.bare = last.finished.bare := by
  induction fuel generalizing slice t with
  | zero => cases ran
  | succ fuel ih =>
    obtain ⟨out, v, sliced, -⟩ :=
      bind_ok.mp (show (run env polls (fuel + 1) slice).run t = _ from ran)
    rcases runSlice_settles (off slice) sliced with ⟨final, n, settles⟩ | ⟨open_, resumes⟩
    · rw [run_final final sliced] at ran
      obtain ⟨rfl, rfl⟩ := Outcome.ok.inj ran
      exact ⟨n, out.status, v, settles, rfl, rfl⟩
    · rw [run_open open_ sliced] at ran
      obtain ⟨n, status, last, settles, code, seen⟩ := ih ran
      obtain ⟨k, earlier⟩ := resumes n status last settles
      exact ⟨k, status, last, earlier, code, seen⟩

/-- Whether the next slice steps over the instruction at `pc` in any case. -/
def Cpu.pending (cpu : Cpu) : Nat := if cpu.resumePastBreakpoint = some cpu.pc then 0 else 1

theorem Cpu.pending_le (cpu : Cpu) : cpu.pending ≤ 1 := by
  unfold pending
  split <;> omega

/-- Where the unwatched loop settles, every run returns. A slice that ends early has moved
on or has reported the breakpoint it stands at, which the next one skips. -/
theorem run_of_settles (off : ∀ k, Quiet (polls k)) (measure : Nat) {n : Nat} {t last : Tracked}
    {status : SliceStatus} (bound : 2 * n + t.cpu.pending ≤ measure)
    (settles : SettlesLike env n t status last)
    (slice : Nat) :
    ∃ fuel u, (run env polls fuel slice).run t = .ok last.cpu.exitCode u ∧
      u.bare = last.finished.bare := by
  induction measure using Nat.strong_induction_on generalizing n t slice with
  | _ measure ih =>
    obtain ⟨k, skip, stopped, u, chunk, ending⟩ :=
      chunkLoop_of_settles t.cpu.watches (settles.bare t.bare_entry.symm)
        (0xFFFFFFFF : U32).toNat t.entry.skip 0
    have sliced := runSlice_chunk env (off slice) 0xFFFFFFFF t
    rw [chunk, Outcome.andThen_ok] at sliced
    have finished (out : SliceOutcome) (final : out.status.Final) (seen : u.bare = last.bare)
        (sliced : (runSlice env (polls slice) 0xFFFFFFFF).run t = .ok out u) :
        ∃ fuel w, (run env polls fuel slice).run t = .ok last.cpu.exitCode w ∧
          w.bare = last.finished.bare := by
      refine ⟨1, u.finished, ?_, Tracked.bare_finished seen⟩
      rw [run_final final sliced, exitCode_of_bare seen]
    have resumed (out : SliceOutcome) (open_ : out.status = .running ∨ out.status = .breakpoint)
        (less : 2 * (n - k) + u.cpu.pending < measure)
          (later : SettlesLike env (n - k) u status last)
        (sliced : (runSlice env (polls slice) 0xFFFFFFFF).run t = .ok out u) :
        ∃ fuel w, (run env polls fuel slice).run t = .ok last.cpu.exitCode w ∧
          w.bare = last.finished.bare := by
      obtain ⟨fuel, w, ran, seen⟩ := ih _ less le_rfl later (slice + 1)
      exact ⟨fuel + 1, w, (run_open open_ sliced).trans ran, seen⟩
    rcases ending with ⟨rfl, final, seen⟩ | ⟨within, later, ⟨rfl, full⟩ | ⟨rfl, resume, skipped⟩⟩
    · exact finished _ final seen sliced
    · by_cases halted : u.cpu.isHalted = true
      · obtain ⟨v, settled, seen⟩ := later
        obtain ⟨-, rfl, rfl⟩ : _ ∧ status = .halted ∧ v = u := by
          cases settles_halted env halted with
          | stop last => exact settled.of_stop last
        rw [Option.getD_none, if_pos halted] at sliced
        exact finished _ (.inl rfl) seen sliced
      · rw [Option.getD_none, if_neg halted] at sliced
        have moved : 0 < k := by
          rw [full]
          decide
        have small := u.cpu.pending_le
        exact resumed _ (.inl rfl) (by omega) later sliced
    · have here : u.cpu.pending = 0 := if_pos resume
      refine resumed _ (.inr rfl) ?_ later sliced
      rcases Nat.eq_zero_or_pos k with rfl | moved
      · have fresh : t.cpu.pending = 1 := if_neg (skipped rfl)
        omega
      · omega

/-- Breakpoints do not change what `run` computes. Under any two settings, with the host's
interrupts off, a run that returns under one returns under the other: with the same exit
code, and the same machine, messages and record but for the settings and a pending report. -/
theorem run_ignores_breakpoints (env : Env) (t : Tracked) (debug debug' : Bool)
    (breakpoints breakpoints' : Finset U32)
    (polls polls' : Nat → Nat → Poll) (off : ∀ k, Quiet (polls k)) (off' : ∀ k, Quiet (polls' k))
    (fuel : Nat) (code : U32) (u : Tracked)
    (ran : (run env polls fuel 0).run
      (t.withCpu { t.cpu with debugEnabled := debug, breakpoints := breakpoints }) = .ok code u) :
    ∃ fuel' u', (run env polls' fuel' 0).run
        (t.withCpu { t.cpu with debugEnabled := debug', breakpoints := breakpoints' }) = .ok code u' ∧
      { u'.cpu with debugEnabled := false, breakpoints := ∅, resumePastBreakpoint := none } =
        { u.cpu with debugEnabled := false, breakpoints := ∅, resumePastBreakpoint := none } ∧
      u'.mem = u.mem ∧ u'.machine.bus.world = u.machine.bus.world ∧ u'.history = u.history := by
  obtain ⟨n, status, last, settles, rfl, seen⟩ := run_settles off ran
  have other : SettlesLike env n
      (t.withCpu { t.cpu with debugEnabled := debug', breakpoints := breakpoints' }) status last :=
        settles.bare rfl
  obtain ⟨fuel', u', ran', seen'⟩ := run_of_settles off' _ le_rfl other 0
  have same : u'.bare = u.bare := seen'.trans seen.symm
  have bus : u'.machine.bus = u.machine.bus := bus_of_bare (machine_of_bare same)
  exact ⟨fuel', u', ran', trackedCpu_of_bare same, congrArg Bus.mem bus, congrArg Bus.world bus,
    history_of_bare same⟩

/-- `ebreak`, with and without a breakpoint on it. -/
theorem run_ignores_breakpoints_ebreak :
    ∃ fuel u, (run default (fun _ _ => default) fuel 0).run
      ((Tracked.program [0x73, 0x00, 0x10, 0x00]).withCpu
      { Cpu.new with debugEnabled := true, breakpoints := {0} }) = .ok 0 u := by
  obtain ⟨fuel, u, ran, -⟩ :=
    run_ignores_breakpoints default (.program [0x73, 0x00, 0x10, 0x00]) false true ∅ {0}
    (fun _ _ => default) (fun _ _ => default) (fun _ _ => rfl) (fun _ _ => rfl) 1 0 _ rfl
  exact ⟨fuel, u, ran⟩

end Runs

end RiscvRs
