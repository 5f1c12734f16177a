import RiscvRs.Reference.Steps
import RiscvRs.Run.Undisturbed
import RiscvRs.Run.Watching

/-! Slices and whole runs of the simulator against runs of the reference machine. -/

namespace RiscvRs

open Effects Prog

section Counting

variable {m m' : Machine}

/-- `n` more instructions counted. -/
def Machine.counted (m : Machine) (n : Nat) : Machine :=
  { m with cpu := { m.cpu with stepCounter := m.cpu.stepCounter + n } }

/-- With a report of a breakpoint pending, or none. -/
def Machine.resuming (m : Machine) (resume : Option U32) : Machine :=
  { m with cpu := { m.cpu with resumePastBreakpoint := resume } }

theorem counted_add (m : Machine) (j k : Nat) : (m.counted j).counted k = m.counted (j + k) := by
  simp only [Machine.counted, Nat.add_assoc]

theorem Tame.counted (tame : Tame m m') (n : Nat) : Tame (m.counted n) (m'.counted n) where
  cpu := by
    change { m'.cpu with stepCounter := m'.cpu.stepCounter + n } = _
    rw [tame.cpu]
    rfl
  zero := tame.zero
  io := tame.io
  diagnostics := tame.diagnostics

theorem Tame.resuming (tame : Tame m m') (resume : Option U32) :
    Tame (m.resuming resume) (m'.resuming resume) where
  cpu := by
    change { m'.cpu with resumePastBreakpoint := resume } = _
    rw [tame.cpu]
    rfl
  zero := tame.zero
  io := tame.io
  diagnostics := tame.diagnostics

theorem Tame.delivers (tame : Tame m m') (answer : Poll) :
    answer.delivers m'.cpu = answer.delivers m.cpu := by
  rw [tame.cpu]
  rfl

end Counting

section Courses

variable {env : Env} {t : Tracked} {c : Cursor} {n : Nat} {p : Isa.Process}

/-- A slice from `t` would report a breakpoint after `k` steps, with the program at `p`. -/
def Tracked.ReportsAt (t : Tracked) (k : Nat) (p : Isa.Process) : Prop :=
  t.cpu.debugEnabled = true ∧ BitVec.ofNat 32 p.core.pc ∈ t.cpu.breakpoints ∧
    (k = 0 → t.cpu.resumePastBreakpoint ≠ some (BitVec.ofNat 32 p.core.pc))

/-- No breakpoint is reported before `n` steps of the reference. -/
def Tracked.Unreported (t : Tracked) (n : Nat) : Prop :=
  ∀ k < n, ∀ q, t.machine.process.run 0xFFFF0000 k = some q → ¬t.ReportsAt k q

/-- `n` instructions of a slice from `t`, along the reference. -/
structure Course (env : Env) (t : Tracked) (n : Nat) (c : Cursor) : Prop where
  walk : HostPath env t.cpu.watches ∅ t.entry n c
  tame : Tame ((t.machine.resuming none).counted n) c.state.machine

theorem process_pc (m : Machine) : BitVec.ofNat 32 m.process.core.pc = m.cpu.pc := by
  change BitVec.ofNat 32 m.cpu.pc.toNat = m.cpu.pc
  rw [BitVec.ofNat_toNat, BitVec.setWidth_eq]

/-- The check of the loop, told from the program. -/
theorem Course.hit_iff (course : Course env t n c) :
    c.Hit t.cpu.watches ↔ t.ReportsAt n c.state.machine.process := by
  have same : c.state.cpu.breakpoints = t.cpu.breakpoints := course.walk.slicePath.breakpoints
  rw [Cursor.Hit, Tracked.ReportsAt, process_pc, same]
  have skips (watch : t.cpu.watches = true) :
      c.skip ≠ some c.state.cpu.pc ↔
        (n = 0 → t.cpu.resumePastBreakpoint ≠ some c.state.cpu.pc) := by
    rcases Nat.eq_zero_or_pos n with rfl | moved
    · obtain rfl := course.walk.unique .start
      exact ⟨fun other _ => other, fun other => other rfl⟩
    · have path := course.walk.slicePath
      rw [watch] at path
      rw [path.skip_eq_none moved]
      exact ⟨fun _ zero => by omega, fun _ => by simp⟩
  constructor
  · rintro ⟨watch, member, other⟩
    have debug := (Bool.and_eq_true _ _).mp watch
    exact ⟨debug.1, member, (skips watch).mp other⟩
  · rintro ⟨debug, member, other⟩
    have watch : t.cpu.watches = true := by
      rw [Cpu.watches, debug, decide_eq_true (Finset.ne_empty_of_mem member)]
      rfl
    exact ⟨watch, member, (skips watch).mpr other⟩

/-- Where the reference steps, so does the slice, unless it reports a breakpoint. -/
theorem Course.step (course : Course env t n c) (builtin : t.cpu.hasCustomSyscalls = false)
    (clear : ¬t.ReportsAt n c.state.machine.process)
    (step : c.state.machine.process.step 0xFFFF0000 = some p) :
    ∃ c', Course env t (n + 1) c' ∧ c'.state.machine.process = p := by
  have off : c.state.cpu.hasCustomSyscalls = false := by
    have kept := congrArg Cpu.hasCustomSyscalls course.tame.cpu
    exact kept.trans builtin
  obtain ⟨live, inst, m, run, meaning, tame⟩ := step_follows env off step
  have next : ExecStep env t.cpu.watches c _ := .mk c live (mt course.hit_iff.mp clear) inst m run
  exact ⟨_, ⟨course.walk.exec next, (course.tame.trans tame).counted 1⟩, meaning⟩

theorem course_of_run (builtin : t.cpu.hasCustomSyscalls = false)
    (run : t.machine.process.run 0xFFFF0000 n = some p)
    (clear : t.Unreported n) : ∃ c, Course env t n c ∧ c.state.machine.process = p := by
  have init : Course env t 0 t.entry := ⟨.start, .refl _⟩
  refine Steps.follow (fun c : Cursor => c.state.machine.process) (Course env t) init ?_ run
  intro k less c s course before step
  exact course.step builtin (clear k less _ before) step

/-- The polls change nothing along a run of the reference. -/
theorem Course.silent {answers : Set Poll} (course : Course env t n c)
    (builtin : t.cpu.hasCustomSyscalls = false)
    (run : t.machine.process.run 0xFFFF0000 n = some p) (clear : t.Unreported n)
    (masked : ∀ answer ∈ answers, answer.delivers t.cpu = false) :
    SilentUpTo env t.cpu.watches answers t.entry n := by
  intro k le d walk answer asked
  obtain ⟨rest, rfl⟩ := Nat.exists_eq_add_of_le le
  obtain ⟨q, before, -⟩ := Steps.after_prefix run
  obtain ⟨e, along, -⟩ : ∃ e, Course env t k e ∧ e.state.machine.process = q :=
    course_of_run builtin before fun j less => clear j (by omega)
  obtain rfl := walk.unique along.walk
  have same := along.tame.delivers answer
  exact same.trans (masked answer asked)

end Courses

section Slices

variable {env : Env} {t : Tracked} {n : Nat} {p : Isa.Process}

/-- Why a slice with `left` instructions to go stops at a program that it may not continue. -/
def statusAt (p : Isa.Process) (left : Nat) : SliceStatus :=
  if p.halted then .halted else if left = 0 then .running else .breakpoint

/-- The report that it leaves pending. -/
def pendingReport (p : Isa.Process) : SliceStatus → Option U32
  | .breakpoint => some (BitVec.ofNat 32 p.core.pc)
  | _ => none

theorem process_exitCode (m : Machine) : BitVec.ofNat 32 m.process.exitCode = m.cpu.exitCode := by
  change BitVec.ofNat 32 m.cpu.exitCode.toNat = m.cpu.exitCode
  rw [BitVec.ofNat_toNat, BitVec.setWidth_eq]

/-- What is left where a walk along the reference ends. -/
theorem Course.ending {c : Cursor} (course : Course env t n c) (left : Nat) :
    (c.ending left).1 = statusAt c.state.machine.process left ∧
      (c.ending left).2.machine.process = c.state.machine.process ∧
      Tame ((t.machine.counted n).resuming
        (pendingReport c.state.machine.process (statusAt c.state.machine.process left)))
          (c.ending left).2.machine := by
  have halts : c.state.machine.process.halted = c.state.cpu.isHalted := rfl
  rw [Cursor.ending, statusAt, halts]
  split
  · exact ⟨rfl, rfl, course.tame⟩
  split
  · exact ⟨rfl, rfl, course.tame⟩
  · refine ⟨rfl, rfl, ?_⟩
    have reported := course.tame.resuming (some c.state.cpu.pc)
    rw [pendingReport, process_pc]
    exact reported

/-- A slice goes where the reference goes and stops where that may not go on. -/
theorem Course.slice {poll : Nat → Poll} {budget : U32} {c : Cursor} (course : Course env t n c)
    (builtin : t.cpu.hasCustomSyscalls = false) (masked : ∀ k, (poll k).delivers t.cpu = false)
    (run : t.machine.process.run 0xFFFF0000 n = some c.state.machine.process)
    (clear : t.Unreported n)
    (within : n ≤ budget.toNat)
    (ends : c.state.cpu.isHalted = true ∨ n = budget.toNat ∨
      t.ReportsAt n c.state.machine.process) :
    (runSlice env poll budget).run t = .ok ⟨statusAt c.state.machine.process (budget.toNat - n), n,
      c.state.cpu.pc,
      c.state.cpu.exitCode⟩ (c.ending (budget.toNat - n)).2 := by
  have silent : SilentUpTo env t.cpu.watches (Set.range poll) t.entry n := by
    refine course.silent builtin run clear ?_
    rintro answer ⟨k, rfl⟩
    exact masked k
  have stops : c.Ends t.cpu.watches (budget.toNat - n) := by
    rcases ends with halted | spent | reports
    · exact .inl halted
    · exact .inr (.inl (by omega))
    · exact .inr (.inr (course.hit_iff.mpr reports))
  rw [runSlice_ends Set.mem_range_self course.walk silent within stops, (course.ending _).1]

/-- A slice follows the reference: to the end of its budget, to the end of the program or to the
first breakpoint. The outcome and the program it leaves are those of the reference; all else it
leaves alone. -/
theorem run_slice_conforms (env : Env) (poll : Nat → Poll) (budget : U32) (t : Tracked) {n : Nat}
    {p : Isa.Process}
    (builtin : t.cpu.hasCustomSyscalls = false) (masked : ∀ k, (poll k).delivers t.cpu = false)
    (run : t.machine.process.run 0xFFFF0000 n = some p) (clear : t.Unreported n)
    (within : n ≤ budget.toNat)
    (ends : p.halted = true ∨ n = budget.toNat ∨ t.ReportsAt n p) :
    ∃ u, (runSlice env poll budget).run t =
      .ok ⟨statusAt p (budget.toNat - n), n, BitVec.ofNat 32 p.core.pc,
        BitVec.ofNat 32 p.exitCode⟩ u ∧ u.machine.process = p ∧
      Tame ((t.machine.counted n).resuming (pendingReport p (statusAt p (budget.toNat - n))))
        u.machine := by
  obtain ⟨c, course, rfl⟩ : ∃ c, Course env t n c ∧ c.state.machine.process = p :=
    course_of_run builtin run clear
  obtain ⟨-, same, tame⟩ := course.ending (budget.toNat - n)
  rw [process_pc, process_exitCode]
  exact ⟨_, course.slice builtin masked run clear within ends, same, tame⟩

/-- Eight bytes of arithmetic, then `SYS_exit`. -/
def Tracked.answering : Tracked :=
  .program [0x13, 0x05, 0xA0, 0x02, 0x93, 0x08, 0xD0, 0x05, 0x73, 0x00, 0x00, 0x00]

theorem answering_run : ∃ p, Tracked.answering.machine.process.run 0xFFFF0000 3 = some p ∧
    (p.core.pc, p.halted, p.exitCode) = (12, true, 42) :=
  Option.map_eq_some_iff.mp
    (show Option.map (fun p : Isa.Process => (p.core.pc, p.halted, p.exitCode)) _ = _ from rfl)

theorem run_slice_conforms_answering :
    ∃ u, (runSlice default (fun _ => default) 1000).run .answering =
    .ok ⟨.halted, 3, 12, 42⟩ u ∧ u.machine.process.exitCode = 42 := by
  obtain ⟨p, run, meaning⟩ := answering_run
  obtain ⟨pc, halted, code⟩ : p.core.pc = 12 ∧ p.halted = true ∧ p.exitCode = 42 := by
    simpa using meaning
  obtain ⟨u, ran, same, -⟩ :=
    run_slice_conforms default (fun _ => default) 1000 .answering rfl (fun _ => rfl) run
    (fun k _ q _ reports => absurd reports.1 (by decide)) (by decide) (.inl halted)
  rw [pc, code, statusAt, if_pos halted] at ran
  exact ⟨u, ran, by rw [same, code]⟩

end Slices

section Runs

variable {env : Env} {polls : Nat → Nat → Poll} {t : Tracked} {n : Nat} {p : Isa.Process}

/-- A run of the reference that is over or long enough has a first place where a slice of `run`
stops. -/
theorem first_stop (t : Tracked) (run : t.machine.process.run 0xFFFF0000 n = some p)
    (whole : p.halted = true ∨ (0xFFFFFFFF : U32).toNat ≤ n) :
    ∃ j q, j ≤ n ∧ j ≤ (0xFFFFFFFF : U32).toNat ∧ t.machine.process.run 0xFFFF0000 j = some q ∧
      t.Unreported j ∧
      (q.halted = true ∨ j = (0xFFFFFFFF : U32).toNat ∨ t.ReportsAt j q) := by
  classical
  let Stops (j : Nat) : Prop := ∃ q, t.machine.process.run 0xFFFF0000 j = some q ∧
    (q.halted = true ∨ j = (0xFFFFFFFF : U32).toNat ∨ t.ReportsAt j q)
  obtain ⟨k, least, within, stops⟩ : ∃ k, k ≤ n ∧ k ≤ (0xFFFFFFFF : U32).toNat ∧ Stops k := by
    by_cases long : (0xFFFFFFFF : U32).toNat ≤ n
    · obtain ⟨rest, rfl⟩ := Nat.exists_eq_add_of_le long
      obtain ⟨q, before, -⟩ := Steps.after_prefix run
      exact ⟨_, long, le_rfl, q, before, .inr (.inl rfl)⟩
    · exact ⟨n, le_rfl, by omega, p, run, .inl (whole.resolve_right long)⟩
  have found : ∃ j, Stops j := ⟨k, stops⟩
  obtain ⟨q, before, ends⟩ := Nat.find_spec found
  have first : Nat.find found ≤ k := Nat.find_min' found stops
  refine ⟨Nat.find found, q, first.trans least, first.trans within, before, ?_, ends⟩
  intro i less q before reports
  exact Nat.find_min found less ⟨q, before, .inr (.inr reports)⟩

/-- A slice of `run` that leaves the program live has moved on or has reported where it stands. -/
theorem Course.closer {c : Cursor} (course : Course env t n c) (live : ¬c.state.cpu.isHalted = true)
    (ends : n = (0xFFFFFFFF : U32).toNat ∨ t.ReportsAt n c.state.machine.process) :
    (c.ending ((0xFFFFFFFF : U32).toNat - n)).2.cpu.pending < 2 * n + t.cpu.pending := by
  rw [Cursor.ending, if_neg live]
  split
  · next spent =>
    have budget : (0xFFFFFFFF : U32).toNat = 4294967295 := rfl
    have small : c.state.cpu.pending ≤ 1 := Cpu.pending_le _
    change c.state.cpu.pending < _
    omega
  · next left =>
    have reports := ends.resolve_left (by omega)
    have here : c.reported.cpu.pending = 0 := if_pos rfl
    change c.reported.cpu.pending < _
    rw [here]
    rcases Nat.eq_zero_or_pos n with rfl | moved
    · obtain rfl := course.walk.unique .start
      have other := reports.2.2 rfl
      rw [process_pc] at other
      have fresh : t.cpu.pending = 1 := if_neg other
      omega
    · omega

/-- A slice of `run` along such a run of the reference ends the run where the program ends, and else
comes closer to that. -/
theorem slice_along {poll : Nat → Poll} (env : Env) (builtin : t.cpu.hasCustomSyscalls = false)
    (masked : ∀ k, (poll k).delivers t.cpu = false)
    (run : t.machine.process.run 0xFFFF0000 n = some p)
    (whole : p.halted = true ∨ (0xFFFFFFFF : U32).toNat ≤ n) :
    ∃ j k out u, n = j + k ∧ (runSlice env poll 0xFFFFFFFF).run t = .ok out u ∧
      (∀ i, t.machine.process.run 0xFFFF0000 (j + i) = u.machine.process.run 0xFFFF0000 i) ∧
      (∀ resume, Tame ((t.machine.counted j).resuming resume) (u.machine.resuming resume)) ∧
      ((u.cpu.isHalted = true ∧ out.status = .halted ∧ u.cpu.resumePastBreakpoint = none) ∨
        (u.cpu.isHalted = false ∧ (out.status = .running ∨ out.status = .breakpoint) ∧
          2 * k + u.cpu.pending < 2 * n + t.cpu.pending)) := by
  obtain ⟨j, q, least, within, before, clear, ends⟩ := first_stop t run whole
  obtain ⟨k, rfl⟩ := Nat.exists_eq_add_of_le least
  obtain ⟨c, course, rfl⟩ : ∃ c, Course env t j c ∧ c.state.machine.process = q :=
    course_of_run builtin before clear
  have ran := course.slice builtin masked before clear within ends
  obtain ⟨-, same, tame⟩ := course.ending ((0xFFFFFFFF : U32).toNat - j)
  refine ⟨j, k, _, _, rfl, ran, ?_, fun resume => tame.resuming resume, ?_⟩
  · rw [same]
    exact Steps.after_later before
  have halts : c.state.machine.process.halted = c.state.cpu.isHalted := rfl
  have flag : (c.ending ((0xFFFFFFFF : U32).toNat - j)).2.cpu.isHalted = c.state.cpu.isHalted :=
    congrArg Isa.Process.halted same
  by_cases halted : c.state.cpu.isHalted = true
  · refine .inl ⟨flag.trans halted, ?_, ?_⟩
    · rw [statusAt, halts, if_pos halted]
    · have cleared := congrArg Cpu.resumePastBreakpoint course.tame.cpu
      rw [Cursor.ending, if_pos halted]
      exact cleared
  · refine .inr ⟨?_, ?_, ?_⟩
    · rw [flag]
      simpa using halted
    · rw [statusAt, halts, if_neg halted]
      split
      · exact .inl rfl
      · exact .inr rfl
    · have closer := course.closer halted (ends.resolve_left halted)
      omega

/-- Slice after slice to the end of the program. Each is shorter or reports a breakpoint that the
next one skips. -/
theorem run_halts (measure : Nat) (bound : 2 * n + t.cpu.pending ≤ measure)
    (builtin : t.cpu.hasCustomSyscalls = false) (masked : ∀ i k, (polls i k).delivers t.cpu = false)
    (reached : t.machine.process.run 0xFFFF0000 n = some p) (halted : p.halted = true) (slice : Nat) :
    ∃ u, (∀ fuel, measure < fuel →
      (run env polls fuel slice).run t = .ok (BitVec.ofNat 32 p.exitCode) u) ∧
      u.machine.process = p ∧ Tame ((t.machine.counted n).resuming none) u.machine := by
  induction measure using Nat.strong_induction_on generalizing n t slice with
  | _ measure ih =>
    obtain ⟨j, k, out, u, rfl, sliced, rest, tame, ending⟩ :=
      slice_along env builtin (masked slice) reached (.inl halted)
    rw [rest] at reached
    rcases ending with ⟨stopped, status, cleared⟩ | ⟨-, open_, less⟩
    · obtain ⟨rfl, rfl⟩ := Steps.after_stuck (Isa.Process.step_halted _ stopped) reached
      refine ⟨u, fun fuel enough => ?_, rfl, ?_⟩
      · obtain ⟨fuel, rfl⟩ : ∃ rest, fuel = rest + 1 := ⟨fuel - 1, by omega⟩
        rw [run_final (.inl status) sliced, finished_of_halted stopped, process_exitCode]
        rfl
      · have same : u.machine.resuming none = u.machine := by
          rw [Machine.resuming, ← cleared]
          rfl
        rw [← same]
        exact tame none
    · have off : u.cpu.hasCustomSyscalls = false :=
        (congrArg Cpu.hasCustomSyscalls (tame none).cpu).trans builtin
      have still (i k : Nat) : (polls i k).delivers u.cpu = false :=
        ((tame none).delivers (polls i k)).trans (masked i k)
      obtain ⟨w, ran, same, after⟩ :=
        ih _ (less.trans_le bound) le_rfl off still reached (slice + 1)
      refine ⟨w, fun fuel enough => ?_, same, ?_⟩
      · obtain ⟨fuel, rfl⟩ : ∃ rest, fuel = rest + 1 := ⟨fuel - 1, by omega⟩
        rw [run_open open_ sliced]
        exact ran fuel (by omega)
      · have counted := ((tame none).counted k).trans after
        have total : ((t.machine.counted j).resuming none).counted k =
          (t.machine.counted (j + k)).resuming none :=
          congrArg (Machine.resuming · none) (counted_add t.machine j k)
        rwa [total] at counted

/-- A program that runs on for good keeps every slice from ending the run. -/
theorem run_goes_on (builtin : t.cpu.hasCustomSyscalls = false)
    (masked : ∀ i k, (polls i k).delivers t.cpu = false)
    (live : ∀ n, ∃ p, t.machine.process.run 0xFFFF0000 n = some p ∧ p.halted = false)
    (fuel slice : Nat) :
    (run env polls fuel slice).run t = .exhausted := by
  induction fuel generalizing t slice with
  | zero => rfl
  | succ fuel ih =>
    obtain ⟨p, reached, -⟩ := live (0xFFFFFFFF : U32).toNat
    obtain ⟨j, k, out, u, total, sliced, rest, tame, ending⟩ :=
      slice_along env builtin (masked slice) reached (.inr le_rfl)
    have off : u.cpu.hasCustomSyscalls = false :=
      (congrArg Cpu.hasCustomSyscalls (tame none).cpu).trans builtin
    have still (i k : Nat) : (polls i k).delivers u.cpu = false :=
      ((tame none).delivers (polls i k)).trans (masked i k)
    have later (i : Nat) : ∃ q, u.machine.process.run 0xFFFF0000 i = some q ∧ q.halted = false := by
      rw [← rest]
      exact live (j + i)
    rcases ending with ⟨stopped, -, -⟩ | ⟨-, open_, -⟩
    · obtain ⟨q, here, alive⟩ := later 0
      obtain rfl := Option.some.inj here
      cases alive.symm.trans stopped
    · rw [run_open open_ sliced]
      exact ih off still later (slice + 1)

/-- `run` is the reference run. It returns where the program halts, with its exit code, within a
bound on the slices, and leaves the program's last state with every instruction counted; on a
program that runs on for good it never returns. -/
theorem run_conforms (env : Env) (polls : Nat → Nat → Poll) (t : Tracked) (slice : Nat)
    (builtin : t.cpu.hasCustomSyscalls = false)
    (masked : ∀ i k, (polls i k).delivers t.cpu = false) :
    (∀ n p, t.machine.process.run 0xFFFF0000 n = some p → p.halted = true →
      ∃ u, (∀ fuel, 2 * n + 1 < fuel →
        (run env polls fuel slice).run t = .ok (BitVec.ofNat 32 p.exitCode) u) ∧
        u.machine.process = p ∧ Tame ((t.machine.counted n).resuming none) u.machine) ∧
    ((∀ n, ∃ p, t.machine.process.run 0xFFFF0000 n = some p ∧ p.halted = false) →
      ∀ fuel, (run env polls fuel slice).run t = .exhausted) := by
  constructor
  · intro n p reached halted
    have bound : 2 * n + t.cpu.pending ≤ 2 * n + 1 := Nat.add_le_add_left t.cpu.pending_le _
    exact run_halts _ bound builtin masked reached halted slice
  · intro live fuel
    exact run_goes_on builtin masked live fuel slice

theorem run_conforms_answering :
    ∃ u, (run default (fun _ _ => default) 8 0).run .answering = .ok 42 u ∧
    u.cpu.stepCounter = 3 := by
  obtain ⟨p, reached, meaning⟩ := answering_run
  obtain ⟨-, halted, code⟩ : p.core.pc = 12 ∧ p.halted = true ∧ p.exitCode = 42 := by
    simpa using meaning
  obtain ⟨u, ran, -, tame⟩ :=
    (run_conforms default (fun _ _ => default) .answering 0 rfl fun _ _ => rfl).1 3 p reached halted
  have counted := congrArg Cpu.stepCounter tame.cpu
  rw [code] at ran
  exact ⟨u, ran 8 (by decide), counted⟩

end Runs

end RiscvRs
