import RiscvRs.Run.Slicing

/-! Runs that no interrupt disturbs: they are determined by their start, and the loops of
`run_slice` follow them wherever the polls and the budgets cut them. -/

namespace RiscvRs

open Effects Prog

section Walks

variable {env : Env} {watch : Bool} {answers : Set Poll} {start x c : Cursor} {n k : Nat}

/-- In no state of the run does an answer of the host deliver an interrupt. -/
def Undisturbed (env : Env) (watch : Bool) (answers : Set Poll) (start : Cursor) : Prop :=
  ∀ n c, HostPath env watch answers start n c →
    ∀ answer ∈ answers, answer.delivers c.state.cpu = false

/-- An undisturbed path is one of instructions only. -/
theorem HostPath.walk (path : HostPath env watch answers start n c)
    (quiet : Undisturbed env watch answers start) :
    HostPath env watch ∅ start n c := by
  induction path with
  | start => exact .start
  | exec _ step ih => exact .exec ih step
  | irq before live answer asked delivers ih =>
    have silent := quiet _ _ before answer asked
    exact absurd (silent.symm.trans delivers) (by decide)

theorem Undisturbed.later (quiet : Undisturbed env watch answers start)
    (walk : HostPath env watch ∅ start n c) :
    Undisturbed env watch answers c := by
  intro k d path
  exact quiet _ _ ((walk.mono (Set.empty_subset _)).trans path)

theorem Undisturbed.polled (quiet : Undisturbed env watch answers x) {answer : Poll}
    (asked : answer ∈ answers) :
    x.state.polled answer = x.state := by
  have silent := quiet 0 x .start answer asked
  exact if_neg (by rw [silent]; decide)

/-- The first instruction of a walk, and the rest of it. -/
theorem HostPath.uncons (walk : HostPath env watch ∅ start n c) :
    (n = 0 ∧ c = start) ∨ ∃ k y, n = k + 1 ∧ ExecStep env watch start y ∧
      HostPath env watch ∅ y k c := by
  induction walk with
  | start => exact .inl ⟨rfl, rfl⟩
  | exec before step ih =>
    right
    rcases ih with ⟨rfl, rfl⟩ | ⟨k, y, rfl, first, rest⟩
    · exact ⟨0, _, rfl, step, .start⟩
    · exact ⟨k + 1, y, rfl, first, rest.exec step⟩
  | irq _ _ _ asked => exact asked.elim

/-- A walk to a live machine starts from one. -/
theorem HostPath.live_start (walk : HostPath env watch ∅ start n c)
    (live : c.state.cpu.isHalted = false) :
    start.state.cpu.isHalted = false := by
  rcases walk.uncons with ⟨-, rfl⟩ | ⟨k, y, -, first, -⟩
  · exact live
  · cases first with
    | mk alive => exact alive

end Walks

section Follow

variable {env : Env} {watch : Bool} {c x y : Cursor} {n : Nat}

/-- The state in which a slice leaves the machine at a breakpoint. -/
def Cursor.reported (c : Cursor) : Tracked :=
  c.state.withCpu { c.state.cpu with resumePastBreakpoint := some c.state.cpu.pc }

/-- One iteration of the inner loop is one instruction of the walk. -/
theorem chunkLoop_exec (step : ExecStep env watch x y) (left done : Nat) :
    (chunkLoop env watch (left + 1) x.skip done).run x.state =
      (chunkLoop env watch left y.skip (done + 1)).run y.state := by
  cases step with
  | mk live clear inst m run =>
    rw [chunkLoop_succ, if_neg (by simp [live]), if_neg clear, run]
    rfl

/-- The inner loop follows a walk to a breakpoint as far as it goes. -/
theorem chunkLoop_follow (walk : HostPath env watch ∅ x n c) (live : c.state.cpu.isHalted = false)
    (hit : c.Hit watch)
    (left done : Nat) :
    (n < left → (chunkLoop env watch left x.skip done).run x.state =
      .ok (done + n, c.skip, some .breakpoint) c.reported) ∧
      (left ≤ n → ∃ d, HostPath env watch ∅ x left d ∧ HostPath env watch ∅ d (n - left) c ∧
        (chunkLoop env watch left x.skip done).run x.state =
          .ok (done + left, d.skip, none) d.state) := by
  induction left generalizing x n done with
  | zero => exact ⟨fun early => absurd early (Nat.not_lt_zero n), fun _ => ⟨x, .start, walk, rfl⟩⟩
  | succ left ih =>
    rcases walk.uncons with ⟨rfl, rfl⟩ | ⟨k, y, rfl, first, rest⟩
    · refine ⟨fun _ => ?_, fun late => absurd late (Nat.not_succ_le_zero left)⟩
      rw [chunkLoop_succ, if_neg (by simp [live]), if_pos hit]
      rfl
    · obtain ⟨early, late⟩ := ih rest (done + 1)
      rw [chunkLoop_exec first]
      refine ⟨fun bound => ?_, fun bound => ?_⟩
      · rw [early (by omega)]
        congr 2
        omega
      · obtain ⟨d, before, after, run⟩ := late (by omega)
        refine ⟨d, ?_, ?_, ?_⟩
        · rw [Nat.add_comm]
          exact (HostPath.start.exec first).trans before
        · rw [Nat.add_sub_add_right]
          exact after
        · rw [run]
          congr 2
          omega

/-- The outer loop follows it too, whatever the polls answer. -/
theorem sliceLoop_follow {answers : Set Poll} {poll : Nat → Poll} (asked : ∀ k, poll k ∈ answers)
    (quiet : Undisturbed env watch answers x) (walk : HostPath env watch ∅ x n c)
    (live : c.state.cpu.isHalted = false) (hit : c.Hit watch) {budget executed fuel : Nat} (polls : Nat)
    (within : executed ≤ budget) (enough : budget < executed + fuel) :
    (executed + n < budget →
      (sliceLoop env poll watch budget fuel polls x.skip executed).run x.state =
        .ok (.breakpoint, executed + n) c.reported) ∧
      (budget ≤ executed + n → ∃ d, HostPath env watch ∅ x (budget - executed) d ∧
        HostPath env watch ∅ d (n - (budget - executed)) c ∧
        (sliceLoop env poll watch budget fuel polls x.skip executed).run x.state =
          .ok (.running, budget) d.state) := by
  induction fuel generalizing x n executed polls with
  | zero => omega
  | succ fuel ih =>
    have alive := walk.live_start live
    by_cases spent : budget ≤ executed
    · obtain rfl : executed = budget := by omega
      rw [sliceLoop_spent _ _ _ alive spent, Nat.sub_self]
      exact ⟨fun early => by omega, fun _ => ⟨x, .start, walk, rfl⟩⟩
    rw [sliceLoop_round _ _ _ alive (by omega), quiet.polled (asked polls)]
    have progress := (poll polls).interval_pos
    generalize size : min (poll polls).interval (budget - executed) = chunk
    obtain ⟨early, late⟩ := chunkLoop_follow walk live hit chunk 0
    by_cases short : n < chunk
    · rw [early short, Nat.zero_add]
      refine ⟨fun _ => rfl, fun bound => by omega⟩
    · obtain ⟨d, before, after, run⟩ := late (by omega)
      rw [run, Nat.zero_add, Outcome.andThen_ok]
      have inside : executed + chunk ≤ budget := by omega
      obtain ⟨early', late'⟩ := ih (quiet.later before) after (polls + 1) inside (by omega)
      refine ⟨fun bound => ?_, fun bound => ?_⟩
      · dsimp only
        rw [early' (by omega)]
        congr 2
        omega
      · obtain ⟨e, middle, last, rest⟩ := late' (by omega)
        refine ⟨e, ?_, ?_, rest⟩
        · have joined := before.trans middle
          rwa [show chunk + (budget - (executed + chunk)) = budget - executed by omega] at joined
        · rwa [show n - chunk - (budget - (executed + chunk)) =
            n - (budget - executed) by omega] at last

/-- A slice follows a walk to a breakpoint. -/
theorem runSlice_follow {answers : Set Poll} {poll : Nat → Poll} {t : Tracked} (budget : U32)
    (asked : ∀ k, poll k ∈ answers) (quiet : Undisturbed env t.cpu.watches answers t.entry)
    (walk : HostPath env t.cpu.watches ∅ t.entry n c) (live : c.state.cpu.isHalted = false)
    (hit : c.Hit t.cpu.watches) :
    (n < budget.toNat → ∃ out, (runSlice env poll budget).run t = .ok out c.reported ∧
      out.status = .breakpoint) ∧
      (budget.toNat ≤ n → ∃ d out, HostPath env t.cpu.watches ∅ t.entry budget.toNat d ∧
        HostPath env t.cpu.watches ∅ d (n - budget.toNat) c ∧
        (runSlice env poll budget).run t = .ok out d.state ∧ out.status = .running) := by
  have enough : budget.toNat < 0 + (budget.toNat + 1) := by omega
  obtain ⟨early, late⟩ := sliceLoop_follow asked quiet walk live hit 0 (Nat.zero_le _) enough
  rw [runSlice_run]
  refine ⟨fun bound => ?_, fun bound => ?_⟩
  · rw [early (by omega)]
    exact ⟨_, rfl, rfl⟩
  · obtain ⟨d, before, after, run⟩ := late (by omega)
    rw [run]
    exact ⟨d, _, before, after, rfl, rfl⟩

end Follow

section Ends

variable {env : Env} {watch : Bool} {answers : Set Poll} {c d x : Cursor} {n k : Nat}

theorem ExecStep.unique (one : ExecStep env watch x c) (other : ExecStep env watch x d) : c = d := by
  cases one with
  | mk _ _ inst m run =>
    cases other with
    | mk _ _ inst' m' run' =>
      obtain ⟨same, states⟩ := Outcome.ok.inj (run.symm.trans run')
      obtain ⟨rfl, -⟩ := Prod.mk.inj same
      obtain rfl : m = m' := congrArg Tracked.machine states
      rfl

/-- A walk is determined by its start and its length. -/
theorem HostPath.unique (one : HostPath env watch ∅ x n c) (other : HostPath env watch ∅ x n d) :
    c = d := by
  induction n generalizing x with
  | zero =>
    rcases one.uncons with ⟨-, rfl⟩ | ⟨_, _, length, -⟩
    · rcases other.uncons with ⟨-, rfl⟩ | ⟨_, _, length, -⟩
      · rfl
      · omega
    · omega
  | succ n ih =>
    rcases one.uncons with ⟨length, -⟩ | ⟨k, y, length, first, rest⟩
    · omega
    rcases other.uncons with ⟨length', -⟩ | ⟨k', y', length', first', rest'⟩
    · omega
    obtain rfl : n = k := by omega
    obtain rfl : n = k' := by omega
    obtain rfl := first.unique first'
    exact ih rest rest'

/-- In none of the first states of the walk does an answer of the host deliver an interrupt. -/
def SilentUpTo (env : Env) (watch : Bool) (answers : Set Poll) (x : Cursor) (n : Nat) : Prop :=
  ∀ k ≤ n, ∀ d, HostPath env watch ∅ x k d → ∀ answer ∈ answers, answer.delivers d.state.cpu = false

theorem SilentUpTo.later (silent : SilentUpTo env watch answers x n)
    (walk : HostPath env watch ∅ x k d) (le : k ≤ n) :
    SilentUpTo env watch answers d (n - k) := by
  intro j bound e rest
  exact silent (k + j) (by omega) e (walk.trans rest)

theorem SilentUpTo.polled (silent : SilentUpTo env watch answers x n) {answer : Poll}
    (asked : answer ∈ answers) :
    x.state.polled answer = x.state := by
  have quiet := silent 0 (Nat.zero_le n) x .start answer asked
  exact if_neg (by rw [quiet]; decide)

/-- The inner loop does the steps of a walk. -/
theorem chunkLoop_past (walk : HostPath env watch ∅ x n c) (left done : Nat) :
    (chunkLoop env watch (n + left) x.skip done).run x.state =
      (chunkLoop env watch left c.skip (done + n)).run c.state := by
  induction n generalizing x done with
  | zero =>
    rcases walk.uncons with ⟨-, rfl⟩ | ⟨_, _, length, -⟩
    · rw [Nat.zero_add, Nat.add_zero]
    · omega
  | succ n ih =>
    rcases walk.uncons with ⟨length, -⟩ | ⟨k, y, length, first, rest⟩
    · omega
    obtain rfl : n = k := by omega
    rw [Nat.add_right_comm, chunkLoop_exec first, ih rest, Nat.add_assoc, Nat.add_comm 1 n]

/-- A walk cut in two. -/
theorem HostPath.cut (walk : HostPath env watch ∅ x n c) (le : k ≤ n) :
    ∃ d, HostPath env watch ∅ x k d ∧ HostPath env watch ∅ d (n - k) c := by
  induction k generalizing x n with
  | zero => exact ⟨x, .start, walk⟩
  | succ k ih =>
    rcases walk.uncons with ⟨rfl, -⟩ | ⟨j, y, rfl, first, rest⟩
    · omega
    obtain ⟨d, before, after⟩ := ih rest (by omega)
    refine ⟨d, ?_, ?_⟩
    · rw [Nat.add_comm]
      exact (HostPath.start.exec first).trans before
    · rw [Nat.add_sub_add_right]
      exact after

/-- A slice with `left` instructions to go stops here. -/
def Cursor.Ends (watch : Bool) (left : Nat) (c : Cursor) : Prop :=
  c.state.cpu.isHalted = true ∨ left = 0 ∨ c.Hit watch

/-- What it reports, and the state that it leaves. -/
def Cursor.ending (left : Nat) (c : Cursor) : SliceStatus × Tracked :=
  if c.state.cpu.isHalted then (.halted, c.state)
  else if left = 0 then (.running, c.state) else (.breakpoint, c.reported)

theorem chunkLoop_ends {left : Nat} (ends : c.Ends watch (left + 1)) (done : Nat) :
    (chunkLoop env watch (left + 1) c.skip done).run c.state =
      .ok (done, c.skip, some (c.ending (left + 1)).1) (c.ending (left + 1)).2 := by
  rw [chunkLoop_succ, Cursor.ending]
  by_cases halted : c.state.cpu.isHalted = true
  · rw [if_pos halted, if_pos halted]
  rcases ends with stopped | spent | hit
  · exact absurd stopped halted
  · omega
  · rw [if_neg halted, if_pos hit, if_neg halted, if_neg (Nat.succ_ne_zero left)]
    rfl

/-- The outer loop goes where the walk goes and stops where it ends, whatever the polls answer. -/
theorem sliceLoop_ends {poll : Nat → Poll} (asked : ∀ k, poll k ∈ answers)
    (walk : HostPath env watch ∅ x n c)
    (silent : SilentUpTo env watch answers x n) {budget executed fuel : Nat} (polls : Nat)
    (within : executed + n ≤ budget) (enough : budget < executed + fuel)
    (ends : c.Ends watch (budget - (executed + n))) :
    (sliceLoop env poll watch budget fuel polls x.skip executed).run x.state =
      .ok ((c.ending (budget - (executed + n))).1, executed + n)
        (c.ending (budget - (executed + n))).2 := by
  induction fuel generalizing x n executed polls with
  | zero => omega
  | succ fuel ih =>
    by_cases halted : x.state.cpu.isHalted = true
    · obtain ⟨rfl, rfl⟩ : n = 0 ∧ c = x := by
        rcases walk.uncons with here | ⟨k, y, -, ⟨live⟩, -⟩
        · exact here
        · cases live.symm.trans halted
      rw [sliceLoop_halted _ _ _ halted, Cursor.ending, if_pos halted, Nat.add_zero]
    have alive : x.state.cpu.isHalted = false := by simpa using halted
    by_cases spent : budget ≤ executed
    · obtain rfl : n = 0 := by omega
      obtain rfl : budget = executed := by omega
      obtain rfl := walk.unique .start
      rw [sliceLoop_spent _ _ _ alive le_rfl, Cursor.ending, if_neg halted, Nat.add_zero,
        if_pos (Nat.sub_self _)]
    rw [sliceLoop_round _ _ _ alive (by omega), silent.polled (asked polls)]
    have progress := (poll polls).interval_pos
    generalize size : min (poll polls).interval (budget - executed) = chunk
    by_cases short : n < chunk
    · obtain ⟨rest, rfl⟩ : ∃ rest, chunk = n + (rest + 1) := ⟨chunk - n - 1, by omega⟩
      obtain ⟨left, more⟩ : ∃ left, budget - (executed + n) = left + 1 :=
        ⟨budget - (executed + n) - 1, by omega⟩
      rw [more] at ends ⊢
      have same : c.ending (left + 1) = c.ending (rest + 1) := by
        rw [Cursor.ending, Cursor.ending, if_neg (Nat.succ_ne_zero left),
          if_neg (Nat.succ_ne_zero rest)]
      have stops : c.Ends watch (rest + 1) :=
        ends.imp_right fun spent => .inr (spent.resolve_left (Nat.succ_ne_zero left))
      rw [chunkLoop_past walk, chunkLoop_ends stops, same, Nat.zero_add]
      rfl
    · obtain ⟨d, before, after⟩ := walk.cut (show chunk ≤ n by omega)
      have ran := chunkLoop_past before 0 0
      rw [Nat.add_zero, Nat.zero_add] at ran
      have total : executed + chunk + (n - chunk) = executed + n := by omega
      have within' : executed + chunk + (n - chunk) ≤ budget := by omega
      have enough' : budget < executed + chunk + fuel := by omega
      have rest := ih after (silent.later before (by omega)) (polls + 1) within' enough'
        (by rwa [total])
      rw [total] at rest
      rw [ran]
      exact rest

/-- A slice goes where the walk goes and stops where it ends. -/
theorem runSlice_ends {poll : Nat → Poll} {t : Tracked} {budget : U32}
    (asked : ∀ k, poll k ∈ answers)
    (walk : HostPath env t.cpu.watches ∅ t.entry n c)
    (silent : SilentUpTo env t.cpu.watches answers t.entry n)
    (within : n ≤ budget.toNat) (ends : c.Ends t.cpu.watches (budget.toNat - n)) :
    (runSlice env poll budget).run t = .ok ⟨(c.ending (budget.toNat - n)).1, n, c.state.cpu.pc,
      c.state.cpu.exitCode⟩
      (c.ending (budget.toNat - n)).2 := by
  have total : 0 + n = n := Nat.zero_add n
  have within' : 0 + n ≤ budget.toNat := by omega
  have enough : budget.toNat < 0 + (budget.toNat + 1) := by omega
  have loop := sliceLoop_ends asked walk silent 0 within' enough (by rwa [total])
  rw [total] at loop
  rw [runSlice_run, loop, Outcome.andThen_ok]
  have pc : (c.ending (budget.toNat - n)).2.cpu.pc = c.state.cpu.pc := by
    unfold Cursor.ending
    split
    · rfl
    · split <;> rfl
  have code : (c.ending (budget.toNat - n)).2.cpu.exitCode = c.state.cpu.exitCode := by
    unfold Cursor.ending
    split
    · rfl
    · split <;> rfl
  rw [pc, code]

end Ends

end RiscvRs
