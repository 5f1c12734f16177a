import RiscvRs.Run.Slicing

/-! Interrupts as a schedule: a run is one loop over instructions that takes the interrupts of a
schedule, and slices and poll intervals matter only in that they make the schedule. -/

namespace RiscvRs

open Effects Prog

/-- The interrupt an answer raises; the guest may have it masked. -/
def Poll.raises (answer : Poll) : Option U32 :=
  if answer.interruptEnabled ≠ 0 ∧ answer.externalInterrupt ≠ 0 then some answer.externalInterrupt
  else none

/-- An answer that raises an interrupt, or none. -/
def Poll.raising : Option U32 → Poll
  | some irq => ⟨0, 1, irq⟩
  | none => ⟨0, 0, 0⟩

/-- Instruction after instruction, before each the interrupt that the schedule raises there. -/
def scheduledChunk (env : Env) (watch : Bool) (schedule : Nat → Option U32) :
    Nat → Option U32 → Nat →
    Driver (Nat × Option U32 × Option SliceStatus)
  | 0, skip, done => return (done, skip, none)
  | left + 1, skip, done => do
    let cpu ← onMachine getCpu
    if cpu.isHalted then
      return (done, skip, some .halted)
    else
      pollInterrupt (.raising (schedule done))
      let (next, skip, stopped) ← chunkLoop env watch 1 skip done
      match stopped with
      | some status => return (next, skip, some status)
      | none => scheduledChunk env watch schedule left skip next

def scheduledLoop (env : Env) (watch : Bool) (schedule : Nat → Option U32) (left : Nat)
    (skip : Option U32) (done : Nat) :
    Driver (SliceStatus × Nat) := do
  let (done, _, stopped) ← scheduledChunk env watch schedule left skip done
  let cpu ← onMachine getCpu
  return (stopped.getD (if cpu.isHalted then .halted else .running), done)

/-- At most `budget` instructions with the interrupts of the schedule. -/
def scheduledRun (env : Env) (schedule : Nat → Option U32) (budget : Nat) :
    Driver SliceOutcome := do
  let cpu ← onMachine getCpu
  onMachine (modifyCpu fun cpu => { cpu with resumePastBreakpoint := none })
  let (status, executed) ← scheduledLoop env cpu.watches schedule budget cpu.resumePastBreakpoint 0
  let cpu ← onMachine getCpu
  return { status := status, steps := executed, pc := cpu.pc, exitCode := cpu.exitCode }

section Times

/-- The instructions executed before poll `k`: the intervals answered so far. -/
def due (poll : Nat → Poll) : Nat → Nat
  | 0 => 0
  | k + 1 => due poll k + (poll k).interval

/-- The schedule of one slice. -/
def spread (poll : Nat → Poll) (n : Nat) : Option U32 :=
  ((List.range (n + 1)).find? fun k => due poll k = n).bind fun k => (poll k).raises

/-- The schedule of slices one after the other. -/
def joined (polls : Nat → Nat → Poll) : Nat → List U32 → Nat → Option U32
  | _, [], _ => none
  | k, budget :: rest, n =>
    if n < budget.toNat then spread (polls k) n else joined polls (k + 1) rest (n - budget.toNat)

variable {poll : Nat → Poll}

theorem due_strictMono : StrictMono (due poll) :=
  strictMono_nat_of_lt_succ fun k => Nat.lt_add_of_pos_right (poll k).interval_pos

theorem le_due (k : Nat) : k ≤ due poll k := due_strictMono.le_apply

theorem spread_due (k : Nat) : spread poll (due poll k) = (poll k).raises := by
  unfold spread
  cases found : (List.range (due poll k + 1)).find? fun j => due poll j = due poll k with
  | none =>
    have member : k ∈ List.range (due poll k + 1) :=
      List.mem_range.mpr (Nat.lt_succ_of_le (le_due k))
    have missing := List.find?_eq_none.mp found k member
    simp at missing
  | some j =>
    have same : due poll j = due poll k := by simpa using List.find?_some found
    rw [due_strictMono.injective same, Option.bind_some]

theorem spread_between {k n : Nat} (after : due poll k < n) (before : n < due poll (k + 1)) :
    spread poll n = none := by
  unfold spread
  cases found : (List.range (n + 1)).find? fun j => due poll j = n with
  | none => rfl
  | some j =>
    have same : due poll j = n := by simpa using List.find?_some found
    rw [← same] at after before
    have above : k < j := due_strictMono.lt_iff_lt.mp after
    have below : j < k + 1 := due_strictMono.lt_iff_lt.mp before
    omega

end Times

section Loops

variable {env : Env} {watch : Bool} {schedule : Nat → Option U32}

theorem polled_none (t : Tracked) : t.polled (.raising none) = t :=
  if_neg (by simp [Poll.delivers, Poll.raising])

/-- Of an answer only what it raises matters. -/
theorem polled_raises (t : Tracked) (answer : Poll) :
    t.polled (.raising answer.raises) = t.polled answer := by
  unfold Tracked.polled Poll.raises
  by_cases raises : answer.interruptEnabled ≠ 0 ∧ answer.externalInterrupt ≠ 0
  · have same : (Poll.raising (some answer.externalInterrupt)).delivers t.cpu =
      answer.delivers t.cpu := by
      obtain ⟨enabled, irq⟩ := raises
      simp only [Poll.delivers, Poll.raising, enabled, irq, ne_eq, not_false_eq_true, decide_true,
        Bool.true_and]
      rfl
    rw [if_pos raises, same]
    rfl
  · have off : answer.delivers t.cpu = false := by
      simp only [ne_eq, not_and, Decidable.not_not] at raises
      simpa [Poll.delivers] using fun enabled _ => raises enabled
    rw [if_neg raises, off]
    exact polled_none t

/-- One instruction of the scheduled loop. -/
theorem scheduledChunk_succ (left : Nat) (skip : Option U32) (done : Nat) {t : Tracked}
    (live : t.cpu.isHalted = false) :
    (scheduledChunk env watch schedule (left + 1) skip done).run t =
      ((chunkLoop env watch 1 skip done).run (t.polled (.raising (schedule done)))).andThen
        fun result u =>
        match result.2.2 with
        | some status => .ok (result.1, result.2.1, some status) u
        | none => (scheduledChunk env watch schedule left result.2.1 result.1).run u := by
  rw [scheduledChunk, run_bind, run_onMachine_getCpu, Outcome.andThen_ok,
    if_neg (by simp [live]), run_bind,
    pollInterrupt_run, Outcome.andThen_ok, run_bind]
  congr 1
  funext ⟨done', skip', stopped⟩ u
  cases stopped <;> rfl

theorem scheduledChunk_halted (left : Nat) (skip : Option U32) (done : Nat) {t : Tracked}
    (halted : t.cpu.isHalted = true) :
    (scheduledChunk env watch schedule (left + 1) skip done).run t =
      .ok (done, skip, some .halted) t := by
  rw [scheduledChunk, run_bind, run_onMachine_getCpu, Outcome.andThen_ok, if_pos halted, run_pure]

/-- What the scheduled loop does after a chunk of the inner loop of `run_slice`. -/
def afterChunk (env : Env) (watch : Bool) (schedule : Nat → Option U32) (rest : Nat)
    (result : Nat × Option U32 × Option SliceStatus) (u : Tracked) :
    Outcome Tracked Empty (Nat × Option U32 × Option SliceStatus) :=
  match result.2.2 with
  | some status => .ok (result.1, result.2.1, some status) u
  | none => (scheduledChunk env watch schedule rest result.2.1 result.1).run u

/-- One instruction in front of a chunk. -/
theorem scheduledChunk_cons {r rest done : Nat} (skip : Option U32) {t : Tracked}
    (live : t.cpu.isHalted = false)
    (later : ∀ skip u, (scheduledChunk env watch schedule (r + rest) skip (done + 1)).run u =
      ((chunkLoop env watch r skip (done + 1)).run u).andThen
        (afterChunk env watch schedule rest)) :
    (scheduledChunk env watch schedule (r + 1 + rest) skip done).run t =
      ((chunkLoop env watch (r + 1) skip done).run (t.polled (.raising (schedule done)))).andThen
        (afterChunk env watch schedule rest) := by
  rw [Nat.add_right_comm, scheduledChunk_succ _ _ _ live, Nat.add_comm r 1, chunkLoop_add]
  cases first : (chunkLoop env watch 1 skip done).run (t.polled (.raising (schedule done))) with
  | ok result u =>
    obtain ⟨done', skip', stopped⟩ := result
    cases stopped with
    | some status => rfl
    | none =>
      have one : done' = done + 1 := chunkLoop_whole first
      subst one
      exact later skip' u
  | err e u => exact e.elim
  | panic => rfl
  | exhausted => rfl

/-- Where the schedule is silent, the scheduled loop is the inner loop of `run_slice`. -/
theorem scheduledChunk_silent (r rest : Nat) (skip : Option U32) (done : Nat) (t : Tracked)
    (silent : ∀ n, done ≤ n → n < done + r → schedule n = none) :
    (scheduledChunk env watch schedule (r + rest) skip done).run t =
      ((chunkLoop env watch r skip done).run t).andThen (afterChunk env watch schedule rest) := by
  induction r generalizing skip done t with
  | zero =>
    rw [Nat.zero_add]
    rfl
  | succ r ih =>
    by_cases halted : t.cpu.isHalted = true
    · rw [Nat.add_right_comm, scheduledChunk_halted _ _ _ halted, chunkLoop_succ, if_pos halted]
      rfl
    have live : t.cpu.isHalted = false := by simpa using halted
    have chunk := scheduledChunk_cons skip live fun skip u =>
      ih skip (done + 1) u fun n after before => silent n (by omega) (by omega)
    rwa [silent done le_rfl (by omega), polled_none] at chunk

/-- A poll and the silence up to the next one are a round of `run_slice`. -/
theorem scheduledChunk_round (r rest : Nat) (skip : Option U32) (done : Nat) {t : Tracked}
    (live : t.cpu.isHalted = false)
    (silent : ∀ n, done < n → n < done + (r + 1) → schedule n = none) :
    (scheduledChunk env watch schedule (r + 1 + rest) skip done).run t =
      ((chunkLoop env watch (r + 1) skip done).run (t.polled (.raising (schedule done)))).andThen
        (afterChunk env watch schedule rest) :=
  scheduledChunk_cons skip live fun skip u =>
    scheduledChunk_silent r rest skip (done + 1) u fun n after before =>
      silent n (by omega) (by omega)

theorem scheduledLoop_run (left : Nat) (skip : Option U32) (done : Nat) (t : Tracked) :
    (scheduledLoop env watch schedule left skip done).run t =
      ((scheduledChunk env watch schedule left skip done).run t).andThen fun result u =>
        .ok (result.2.2.getD (if u.cpu.isHalted then .halted else .running), result.1) u :=
  rfl

theorem scheduledLoop_halted (left : Nat) (skip : Option U32) (done : Nat) {t : Tracked}
    (halted : t.cpu.isHalted = true) :
    (scheduledLoop env watch schedule left skip done).run t = .ok (.halted, done) t := by
  cases left with
  | zero =>
    rw [scheduledLoop_run]
    simp [scheduledChunk, halted]
  | succ left =>
    rw [scheduledLoop_run, scheduledChunk_halted _ _ _ halted]
    rfl

/-- The outer loop of `run_slice` polls at its own times. -/
theorem sliceLoop_scheduled {poll : Nat → Poll} {budget fuel executed polls : Nat}
    (within : executed ≤ budget)
    (enough : budget - executed < fuel) (time : executed < budget → executed = due poll polls)
    (skip : Option U32)
    (t : Tracked) :
    (sliceLoop env poll watch budget fuel polls skip executed).run t =
      (scheduledLoop env watch (spread poll) (budget - executed) skip executed).run t := by
  induction fuel generalizing polls skip executed t with
  | zero => omega
  | succ fuel ih =>
    by_cases halted : t.cpu.isHalted = true
    · rw [sliceLoop_halted _ _ _ halted, scheduledLoop_halted _ _ _ halted]
    have live : t.cpu.isHalted = false := by simpa using halted
    by_cases spent : budget ≤ executed
    · rw [sliceLoop_spent _ _ _ live spent, Nat.sub_eq_zero_of_le spent, scheduledLoop_run]
      simp [scheduledChunk, halted]
    have now : executed = due poll polls := time (by omega)
    rw [sliceLoop_round _ _ _ live (by omega)]
    have positive := (poll polls).interval_pos
    obtain ⟨r, size⟩ : ∃ r, min (poll polls).interval (budget - executed) = r + 1 :=
      Nat.exists_eq_succ_of_ne_zero (by omega)
    have next : due poll (polls + 1) = executed + (poll polls).interval := by rw [now]; rfl
    have cut : budget - executed = r + 1 + (budget - executed - (r + 1)) := by omega
    have silent (n : Nat) (after : executed < n) (before : n < executed + (r + 1)) :
      spread poll n = none :=
      spread_between (now ▸ after) (by omega)
    have asked : spread poll executed = (poll polls).raises := by rw [now, spread_due]
    have shifted := @chunkLoop_shift env watch executed (r + 1) skip 0 (t.polled (poll polls))
    rw [Nat.add_zero executed] at shifted
    rw [size, scheduledLoop_run, cut, scheduledChunk_round r _ skip executed live silent, asked,
      polled_raises, shifted]
    cases run : (chunkLoop env watch (r + 1) skip 0).run (t.polled (poll polls)) with
    | ok result u =>
      obtain ⟨done, skip', stopped⟩ := result
      cases stopped with
      | none =>
        have full : done = r + 1 := by simpa using chunkLoop_whole run
        subst full
        have rest := @ih (executed + (r + 1)) (polls + 1) (by omega) (by omega)
          (fun more => by omega) skip' u
        rw [← Nat.sub_sub] at rest
        exact rest
      | some status => rfl
    | err e u => exact e.elim
    | panic => rfl
    | exhausted => rfl

end Loops

section Parts

variable {env : Env} {watch : Bool} {schedule other : Nat → Option U32}

/-- Only the answers for the instructions there are matter. -/
theorem scheduledChunk_congr {left done : Nat} (same : ∀ n, done ≤ n → n < done + left →
    schedule n = other n)
    (skip : Option U32) (t : Tracked) :
    (scheduledChunk env watch schedule left skip done).run t =
      (scheduledChunk env watch other left skip done).run t := by
  induction left generalizing skip done t with
  | zero => rfl
  | succ left ih =>
    by_cases halted : t.cpu.isHalted = true
    · rw [scheduledChunk_halted _ _ _ halted, scheduledChunk_halted _ _ _ halted]
    have live : t.cpu.isHalted = false := by simpa using halted
    rw [scheduledChunk_succ _ _ _ live, scheduledChunk_succ _ _ _ live, same done le_rfl (by omega)]
    cases first : (chunkLoop env watch 1 skip done).run (t.polled (.raising (other done))) with
    | ok result u =>
      obtain ⟨done', skip', stopped⟩ := result
      cases stopped with
      | some status => simp only [Outcome.andThen_ok]
      | none =>
        have one : done' = done + 1 := chunkLoop_whole first
        subst one
        rw [Outcome.andThen_ok, Outcome.andThen_ok]
        exact ih (fun n after before => same n (by omega) (by omega)) skip' u
    | err e u => exact e.elim
    | panic => rw [Outcome.andThen_panic, Outcome.andThen_panic]
    | exhausted => rw [Outcome.andThen_exhausted, Outcome.andThen_exhausted]

/-- Counting from a later start. -/
theorem scheduledChunk_shift (k left : Nat) (skip : Option U32) (done : Nat) (t : Tracked) :
    (scheduledChunk env watch schedule left skip (k + done)).run t =
      ((scheduledChunk env watch (fun n => schedule (k + n)) left skip done).run t).andThen
        fun result u =>
        .ok (k + result.1, result.2.1, result.2.2) u := by
  induction left generalizing skip done t with
  | zero => rfl
  | succ left ih =>
    by_cases halted : t.cpu.isHalted = true
    · rw [scheduledChunk_halted _ _ _ halted, scheduledChunk_halted _ _ _ halted]
      rfl
    have live : t.cpu.isHalted = false := by simpa using halted
    rw [scheduledChunk_succ _ _ _ live, scheduledChunk_succ _ _ _ live, chunkLoop_shift]
    cases first : (chunkLoop env watch 1 skip done).run
      (t.polled (.raising (schedule (k + done)))) with
    | ok result u =>
      obtain ⟨done', skip', stopped⟩ := result
      cases stopped with
      | some status => rfl
      | none => exact ih skip' done' u
    | err e u => exact e.elim
    | panic => rfl
    | exhausted => rfl

/-- A scheduled loop cut in two. -/
theorem scheduledChunk_add (a b : Nat) (skip : Option U32) (done : Nat) (t : Tracked) :
    (scheduledChunk env watch schedule (a + b) skip done).run t =
      ((scheduledChunk env watch schedule a skip done).run t).andThen
        (afterChunk env watch schedule b) := by
  induction a generalizing skip done t with
  | zero =>
    rw [Nat.zero_add]
    rfl
  | succ a ih =>
    rw [Nat.add_right_comm]
    by_cases halted : t.cpu.isHalted = true
    · rw [scheduledChunk_halted _ _ _ halted, scheduledChunk_halted _ _ _ halted]
      rfl
    have live : t.cpu.isHalted = false := by simpa using halted
    rw [scheduledChunk_succ _ _ _ live, scheduledChunk_succ _ _ _ live]
    cases (chunkLoop env watch 1 skip done).run (t.polled (.raising (schedule done))) with
    | ok result u =>
      obtain ⟨done', skip', stopped⟩ := result
      cases stopped with
      | some status => rfl
      | none => exact ih skip' done' u
    | err e u => exact e.elim
    | panic => rfl
    | exhausted => rfl

/-- The path of a scheduled loop. -/
theorem scheduledChunk_path {left done done' : Nat} {skip skip' : Option U32}
    {stopped : Option SliceStatus}
    {t u : Tracked} (ran : (scheduledChunk env watch schedule left skip done).run t =
      .ok (done', skip', stopped) u) :
    ∃ n c, SlicePath env watch ⟨skip, t⟩ n c ∧ done' = done + n ∧
      ((stopped = none ∧ n = left ∧ c = ⟨skip', u⟩) ∨ ∃ status, stopped = some status ∧
        status ≠ .running) := by
  induction left generalizing skip done t with
  | zero =>
    obtain ⟨result, rfl⟩ := Outcome.ok.inj ran
    obtain ⟨rfl, rfl, rfl⟩ := by simpa using result
    exact ⟨0, ⟨skip, t⟩, .start, rfl, .inl ⟨rfl, rfl, rfl⟩⟩
  | succ left ih =>
    by_cases halted : t.cpu.isHalted = true
    · rw [scheduledChunk_halted _ _ _ halted] at ran
      obtain ⟨result, rfl⟩ := Outcome.ok.inj ran
      obtain ⟨rfl, rfl, rfl⟩ := by simpa using result
      exact ⟨0, ⟨skip, t⟩, .start, rfl, .inr ⟨.halted, rfl, by decide⟩⟩
    have live : t.cpu.isHalted = false := by simpa using halted
    rw [scheduledChunk_succ _ _ _ live] at ran
    obtain ⟨⟨middle, skip₁, stopped₁⟩, v, first, rest⟩ := Outcome.andThen_eq_ok.mp ran
    have asked : SlicePath env watch ⟨skip, t⟩ 0 ⟨skip, t.polled (.raising (schedule done))⟩ :=
      (poll_path (Set.mem_univ (Poll.raising (schedule done))) skip live).slicePath
    obtain ⟨n, c, path, count, -, ⟨rfl, rfl, rfl⟩ | ⟨status, rfl, notRunning, -⟩⟩ :=
      chunkLoop_path first
    · obtain ⟨k, c', path', count', ending⟩ := ih rest
      refine ⟨0 + 1 + k, c', (asked.trans path).trans path', by omega, ?_⟩
      rcases ending with ⟨rfl, rfl, rfl⟩ | stop
      · exact .inl ⟨rfl, by omega, rfl⟩
      · exact .inr stop
    · obtain ⟨result, rfl⟩ := Outcome.ok.inj rest
      obtain ⟨rfl, rfl, rfl⟩ := by simpa using result
      exact ⟨0 + n, c, asked.trans path, by omega, .inr ⟨status, rfl, notRunning⟩⟩

theorem scheduledLoop_shift (k left : Nat) (skip : Option U32) (done : Nat) (t : Tracked) :
    (scheduledLoop env watch schedule left skip (k + done)).run t =
      ((scheduledLoop env watch (fun n => schedule (k + n)) left skip done).run t).andThen
        fun result u =>
        .ok (result.1, k + result.2) u := by
  rw [scheduledLoop_run, scheduledLoop_run, scheduledChunk_shift]
  cases (scheduledChunk env watch (fun n => schedule (k + n)) left skip done).run t <;> rfl

theorem scheduledLoop_succ (left : Nat) (skip : Option U32) (done : Nat) {t : Tracked}
    (live : t.cpu.isHalted = false) :
    (scheduledLoop env watch schedule (left + 1) skip done).run t =
      ((chunkLoop env watch 1 skip done).run (t.polled (.raising (schedule done)))).andThen
        fun result u =>
        match result.2.2 with
        | some status => .ok (status, result.1) u
        | none => (scheduledLoop env watch schedule left result.2.1 result.1).run u := by
  rw [scheduledLoop_run, scheduledChunk_succ _ _ _ live]
  cases (chunkLoop env watch 1 skip done).run (t.polled (.raising (schedule done))) with
  | ok result u =>
    obtain ⟨done', skip', stopped⟩ := result
    cases stopped with
    | some status => rfl
    | none => rfl
  | err e u => exact e.elim
  | panic => rfl
  | exhausted => rfl

/-- Without breakpoints to watch the skip is not read. -/
theorem scheduledLoop_skip (left : Nat) (skip skip' : Option U32) (done : Nat) (t : Tracked) :
    (scheduledLoop env false schedule left skip done).run t =
      (scheduledLoop env false schedule left skip' done).run t := by
  induction left generalizing skip skip' done t with
  | zero => rfl
  | succ left ih =>
    by_cases halted : t.cpu.isHalted = true
    · rw [scheduledLoop_halted _ _ _ halted, scheduledLoop_halted _ _ _ halted]
    have live : t.cpu.isHalted = false := by simpa using halted
    have clear (skip : Option U32) (u : Tracked) : ¬Cursor.Hit false ⟨skip, u⟩ :=
      fun hit => Bool.false_ne_true hit.1
    rw [scheduledLoop_succ _ _ _ live, scheduledLoop_succ _ _ _ live, chunkLoop_succ, chunkLoop_succ,
      if_neg (clear skip _), if_neg (clear skip' _)]
    generalize t.polled (.raising (schedule done)) = v
    split
    · simp only [Outcome.andThen_ok]
    · cases (fetchExecute env v.cpu.pc).run v with
      | ok attempted u =>
        obtain ⟨inst, result⟩ := attempted
        cases result with
        | ok _ =>
          simp only [chunkLoop, run_pure, Outcome.andThen_ok, Bool.false_eq_true, if_false]
          exact ih _ _ _ _
        | error err =>
          obtain ⟨messages, reported⟩ := reportSliceError_run v.cpu.pc inst err
            (u.log (.executed v.cpu.pc inst u.cpu.pc false))
          simp only [Outcome.andThen_ok, reported]
      | err e u => exact e.elim
      | panic => simp only [Outcome.andThen_panic]
      | exhausted => simp only [Outcome.andThen_exhausted]

end Parts

section Runs

variable {env : Env}

theorem scheduledRun_run (schedule : Nat → Option U32) (budget : Nat) (t : Tracked) :
    (scheduledRun env schedule budget).run t =
      ((scheduledLoop env t.cpu.watches schedule budget t.entry.skip 0).run t.entry.state).andThen
        fun result u => .ok ⟨result.1, result.2, u.cpu.pc, u.cpu.exitCode⟩ u := by
  rw [scheduledRun, run_bind, run_onMachine_getCpu, Outcome.andThen_ok, run_bind,
    run_onMachine_modifyCpu,
    Outcome.andThen_ok, run_bind]
  rfl

theorem runSlice_scheduled (poll : Nat → Poll) (budget : U32) :
    runSlice env poll budget = scheduledRun env (spread poll) budget.toNat := by
  ext t
  rw [runSlice_run, scheduledRun_run, sliceLoop_scheduled (Nat.zero_le _) (by omega) (fun _ => rfl),
    Nat.sub_zero]

theorem scheduledRun_congr {schedule other : Nat → Option U32} {budget : Nat}
    (same : ∀ n < budget, schedule n = other n) :
    scheduledRun env schedule budget = scheduledRun env other budget := by
  ext t
  rw [scheduledRun_run, scheduledRun_run, scheduledLoop_run, scheduledLoop_run,
    scheduledChunk_congr fun n _ before => same n (by omega)]

/-- A scheduled run cut in two: the second part runs only if the first is still running. -/
theorem scheduledRun_add (schedule : Nat → Option U32) {a : Nat} (positive : 0 < a) (b : Nat) :
    scheduledRun env schedule (a + b) = (do
      let first ← scheduledRun env schedule a
      if first.status = .running then
        let second ← scheduledRun env (fun n => schedule (a + n)) b
        return { second with steps := first.steps + second.steps }
      else return first) := by
  ext t
  rw [run_bind, scheduledRun_run, scheduledRun_run, scheduledLoop_run, scheduledLoop_run,
    scheduledChunk_add]
  cases run : (scheduledChunk env t.cpu.watches schedule a t.entry.skip 0).run t.entry.state with
  | ok result u =>
    obtain ⟨done, skip, stopped⟩ := result
    obtain ⟨n, c, path, count, ending⟩ := scheduledChunk_path run
    rw [Nat.zero_add] at count
    subst count
    rcases ending with ⟨rfl, rfl, rfl⟩ | ⟨status, rfl, notRunning⟩
    · have watches : u.cpu.watches = t.cpu.watches := path.watches
      have whole : (scheduledLoop env t.cpu.watches schedule b skip done).run u =
          ((scheduledChunk env t.cpu.watches schedule b skip done).run u).andThen fun result v =>
            .ok (result.2.2.getD (if v.cpu.isHalted then .halted else .running), result.1) v := rfl
      simp only [Outcome.andThen_ok, afterChunk, ← whole, Option.getD_none]
      by_cases halted : u.cpu.isHalted = true
      · simp [scheduledLoop_halted _ _ _ halted, halted]
      · have entry := entry_of_resume_none (t := u) path.resumePastBreakpoint
        have resumed : (scheduledLoop env t.cpu.watches schedule b skip done).run u =
            (scheduledLoop env t.cpu.watches schedule b none done).run u := by
          cases watch : t.cpu.watches with
          | true =>
            rw [watch] at path
            have cleared : skip = none := path.skip_eq_none positive
            rw [cleared]
          | false => exact scheduledLoop_skip _ _ _ _ _
        have shifted := @scheduledLoop_shift env t.cpu.watches schedule done b none 0 u
        rw [Nat.add_zero] at shifted
        simp only [halted, Bool.false_eq_true, ↓reduceIte, run_bind, scheduledRun_run, watches,
          entry, resumed, shifted]
        cases (scheduledLoop env t.cpu.watches (fun k => schedule (done + k)) b none 0).run u <;> rfl
    · simp [afterChunk, notRunning]
  | err e u => exact e.elim
  | panic => rfl
  | exhausted => rfl

theorem runSlices_scheduled (polls : Nat → Nat → Poll) (k : Nat) (budget : U32) (rest : List U32)
    (positive : ∀ b ∈ budget :: rest, 0 < b.toNat) :
    runSlices env polls k budget rest =
      scheduledRun env (joined polls k (budget :: rest))
        ((budget :: rest).map BitVec.toNat).sum := by
  induction rest generalizing k budget with
  | nil =>
    have total : ([budget].map BitVec.toNat).sum = budget.toNat := by simp
    rw [runSlices, runSlice_scheduled, total]
    exact scheduledRun_congr fun n before => (if_pos before).symm
  | cons next rest ih =>
    have later := ih (k + 1) next fun b member => positive b (List.mem_cons_of_mem _ member)
    have first : scheduledRun env (joined polls k (budget :: next :: rest)) budget.toNat =
        scheduledRun env (spread (polls k)) budget.toNat :=
      scheduledRun_congr fun n before => if_pos before
    have shifted : (fun n => joined polls k (budget :: next :: rest) (budget.toNat + n)) =
        joined polls (k + 1) (next :: rest) := by
      funext n
      rw [joined, if_neg (by omega), Nat.add_sub_cancel_left]
    have total : ((budget :: next :: rest).map BitVec.toNat).sum =
        budget.toNat + ((next :: rest).map BitVec.toNat).sum := by rw [List.map_cons, List.sum_cons]
    rw [runSlices, later, total, scheduledRun_add _ (positive budget List.mem_cons_self),
      first, shifted,
      runSlice_scheduled]

/-- Slices only schedule interrupts. Whatever the host answers to the polls of each slice, slices of
any positive budgets one after the other are one loop over instructions that takes before its `n`-th
instruction the interrupt answered by the poll due there, if one is: poll `k` of a slice is due when
its first `k` intervals have been executed. Two ways to drive a guest that make the same schedule
are the same run. -/
theorem slices_follow_schedule (env : Env) (polls : Nat → Nat → Poll) (budget : U32)
    (rest : List U32)
    (positive : ∀ b ∈ budget :: rest, 0 < b.toNat) :
    runSlices env polls 0 budget rest =
        scheduledRun env (joined polls 0 (budget :: rest)) ((budget :: rest).map BitVec.toNat).sum ∧
      ∀ (polls' : Nat → Nat → Poll) (budget' : U32) (rest' : List U32), (∀ b ∈ budget' :: rest',
        0 < b.toNat) →
        ((budget' :: rest').map BitVec.toNat).sum = ((budget :: rest).map BitVec.toNat).sum →
        (∀ n < ((budget :: rest).map BitVec.toNat).sum,
          joined polls' 0 (budget' :: rest') n = joined polls 0 (budget :: rest) n) →
        runSlices env polls' 0 budget' rest' = runSlices env polls 0 budget rest := by
  refine ⟨runSlices_scheduled polls 0 budget rest positive, ?_⟩
  intro polls' budget' rest' positive' total same
  rw [runSlices_scheduled polls' 0 budget' rest' positive',
    runSlices_scheduled polls 0 budget rest positive, total]
  exact scheduledRun_congr same

/-- An interrupt at the start of a second slice, and one at the second poll of a single slice. -/
theorem slices_follow_schedule_second :
    runSlices default (fun _ k => ⟨1, 1, if k = 1 then 7 else 0⟩) 0 2 [] =
      runSlices default (fun slice _ => ⟨1, 1, if slice = 1 then 7 else 0⟩) 0 1 [1] := by
  have same : ∀ n < 2, joined (fun _ k => ⟨1, 1, if k = 1 then 7 else 0⟩) 0 [2] n =
      joined (fun slice _ => ⟨1, 1, if slice = 1 then 7 else 0⟩) 0 [1, 1] n := by
    intro n before
    interval_cases n <;> rfl
  exact (slices_follow_schedule default (fun slice _ => ⟨1, 1, if slice = 1 then 7 else 0⟩) 1 [1]
    (by simp)).2
    (fun _ k => ⟨1, 1, if k = 1 then 7 else 0⟩) 2 [] (by simp) rfl same

end Runs

end RiscvRs
