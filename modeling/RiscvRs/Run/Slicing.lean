import RiscvRs.Run.Path

/-! With host interrupts off, a slice is one plain loop over instructions: poll
intervals and slice boundaries leave no trace. -/

namespace RiscvRs

open Effects Prog

section Plain

variable (env : Env) (watch : Bool)

/-- Instruction after instruction, with no polls. -/
def plainLoop (left : Nat) (skip : Option U32) (done : Nat) : Driver (SliceStatus × Nat) := do
  let (done, _, stopped) ← chunkLoop env watch left skip done
  let cpu ← onMachine getCpu
  return (stopped.getD (if cpu.isHalted then .halted else .running), done)

variable {env watch}

/-- An iteration stops the loop or goes on, whatever is left and counted so far. -/
theorem chunkLoop_step (skip : Option U32) (t : Tracked) :
    (∃ skip' status u, ∀ left done,
      (chunkLoop env watch (left + 1) skip done).run t = .ok (done, skip', some status) u) ∨
    (∃ skip' u, ∀ left done,
      (chunkLoop env watch (left + 1) skip done).run t =
        (chunkLoop env watch left skip' (done + 1)).run u) ∨
    (∀ left done, (chunkLoop env watch (left + 1) skip done).run t = .panic) ∨
    (∀ left done, (chunkLoop env watch (left + 1) skip done).run t = .exhausted) := by
  simp only [chunkLoop_succ]
  split
  · exact .inl ⟨_, _, _, fun _ _ => rfl⟩
  · split
    · exact .inl ⟨_, _, _, fun _ _ => rfl⟩
    · cases (fetchExecute env t.cpu.pc).run t with
      | ok attempted u =>
        obtain ⟨inst, result⟩ := attempted
        cases result with
        | ok => exact .inr (.inl ⟨_, _, fun _ _ => rfl⟩)
        | error err =>
          obtain ⟨messages, reported⟩ := reportSliceError_run t.cpu.pc inst err
            (u.log (.executed t.cpu.pc inst u.cpu.pc false))
          simp only [Outcome.andThen_ok, reported]
          exact .inl ⟨_, _, _, fun _ _ => rfl⟩
      | err e u => cases e
      | panic => exact .inr (.inr (.inl fun _ _ => rfl))
      | exhausted => exact .inr (.inr (.inr fun _ _ => rfl))

/-- Counting from a later start. -/
theorem chunkLoop_shift (k left : Nat) (skip : Option U32) (done : Nat) (t : Tracked) :
    (chunkLoop env watch left skip (k + done)).run t =
      ((chunkLoop env watch left skip done).run t).andThen fun result u =>
        .ok (k + result.1, result.2.1, result.2.2) u := by
  induction left generalizing skip done t with
  | zero => rfl
  | succ left ih =>
    rcases chunkLoop_step skip t with ⟨skip', status, u, stop⟩ | ⟨skip', u, next⟩ | stop | stop
    · rw [stop, stop, Outcome.andThen_ok]
    · rw [next, next]
      exact ih skip' (done + 1) u
    · rw [stop, stop, Outcome.andThen_panic]
    · rw [stop, stop, Outcome.andThen_exhausted]

/-- A chunk cut in two. -/
theorem chunkLoop_add (a b : Nat) (skip : Option U32) (done : Nat) (t : Tracked) :
    (chunkLoop env watch (a + b) skip done).run t =
      ((chunkLoop env watch a skip done).run t).andThen fun result u =>
        match result.2.2 with
        | some status => .ok (result.1, result.2.1, some status) u
        | none => (chunkLoop env watch b result.2.1 result.1).run u := by
  induction a generalizing skip done t with
  | zero =>
    rw [Nat.zero_add]
    rfl
  | succ a ih =>
    rw [Nat.add_right_comm]
    rcases chunkLoop_step skip t with ⟨skip', status, u, stop⟩ | ⟨skip', u, next⟩ | stop | stop
    · rw [stop, stop, Outcome.andThen_ok]
    · rw [next, next]
      exact ih skip' (done + 1) u
    · rw [stop, stop, Outcome.andThen_panic]
    · rw [stop, stop, Outcome.andThen_exhausted]

theorem plainLoop_run (left : Nat) (skip : Option U32) (done : Nat) (t : Tracked) :
    (plainLoop env watch left skip done).run t =
      ((chunkLoop env watch left skip done).run t).andThen fun result u =>
        .ok (result.2.2.getD (if u.cpu.isHalted then .halted else .running), result.1) u :=
  rfl

/-- A halted machine stops at once. -/
theorem plainLoop_halted (left : Nat) (skip : Option U32) (done : Nat) {t : Tracked}
    (halted : t.cpu.isHalted = true) :
    (plainLoop env watch left skip done).run t = .ok (.halted, done) t := by
  cases left with
  | zero =>
    rw [plainLoop_run]
    simp [chunkLoop, halted]
  | succ left =>
    rw [plainLoop_run, chunkLoop_succ, if_pos halted]
    rfl

/-- The plain loop cut in two; a first part that ran to its end is halted or live. -/
theorem plainLoop_add (a b : Nat) (skip : Option U32) (done : Nat) (t : Tracked) :
    (plainLoop env watch (a + b) skip done).run t =
      ((chunkLoop env watch a skip done).run t).andThen fun result u =>
        match result.2.2 with
        | some status => .ok (status, result.1) u
        | none => (plainLoop env watch b result.2.1 result.1).run u := by
  rw [plainLoop_run, chunkLoop_add]
  cases (chunkLoop env watch a skip done).run t with
  | ok result u =>
    obtain ⟨done', skip', stopped⟩ := result
    cases stopped with
    | none => rfl
    | some status => rfl
  | err e u => rfl
  | panic => rfl
  | exhausted => rfl

/-- Without breakpoints to watch the skip is not read. -/
theorem plainLoop_skip (left : Nat) (skip skip' : Option U32) (done : Nat) (t : Tracked) :
    (plainLoop env false left skip done).run t = (plainLoop env false left skip' done).run t := by
  induction left generalizing done t with
  | zero => rfl
  | succ left ih =>
    have clear (skip : Option U32) : ¬Cursor.Hit false ⟨skip, t⟩ :=
      fun hit => absurd hit.1 (by decide)
    rw [plainLoop_run, plainLoop_run, chunkLoop_succ, chunkLoop_succ, if_neg (clear skip),
      if_neg (clear skip')]
    split
    · rfl
    · cases (fetchExecute env t.cpu.pc).run t with
      | ok attempted u =>
        obtain ⟨inst, result⟩ := attempted
        cases result with
        | ok => exact ih _ _
        | error err =>
          obtain ⟨messages, reported⟩ := reportSliceError_run t.cpu.pc inst err
            (u.log (.executed t.cpu.pc inst u.cpu.pc false))
          simp only [Outcome.andThen_ok, reported]
      | err e u => rfl
      | panic => rfl
      | exhausted => rfl

/-- With interrupts off the polls leave no trace. -/
theorem sliceLoop_plain {poll : Nat → Poll} (off : ∀ k, (poll k).interruptEnabled = 0)
    {budget fuel executed : Nat} (within : executed ≤ budget) (enough : budget - executed < fuel)
    (polls : Nat)
    (skip : Option U32) (t : Tracked) :
    (sliceLoop env poll watch budget fuel polls skip executed).run t =
      (plainLoop env watch (budget - executed) skip executed).run t := by
  induction fuel generalizing polls skip executed t with
  | zero => omega
  | succ fuel ih =>
    by_cases halted : t.cpu.isHalted = true
    · rw [sliceLoop_halted _ _ _ halted, plainLoop_halted _ _ _ halted]
    have live : t.cpu.isHalted = false := by simpa using halted
    by_cases spent : budget ≤ executed
    · rw [sliceLoop_spent _ _ _ live spent, Nat.sub_eq_zero_of_le spent, plainLoop_run]
      simp [chunkLoop, halted]
    have quiet : t.polled (poll polls) = t := if_neg (by simp [Poll.delivers, off polls])
    rw [sliceLoop_round _ _ _ live (by omega), quiet]
    generalize chunkSize : min (poll polls).interval (budget - executed) = chunk
    have positive := (poll polls).interval_pos
    have split : budget - executed = chunk + (budget - executed - chunk) := by omega
    rw [split, plainLoop_add]
    have shifted := @chunkLoop_shift env watch executed chunk skip 0 t
    rw [Nat.add_zero] at shifted
    rw [shifted]
    cases run : (chunkLoop env watch chunk skip 0).run t with
    | ok result u =>
      obtain ⟨done, skip', stopped⟩ := result
      cases stopped with
      | none =>
        have full : done = chunk := by simpa using chunkLoop_whole run
        subst full
        simp only [Outcome.andThen_ok]
        rw [ih (by omega) (by omega), Nat.sub_sub]
      | some status => rfl
    | err e u => rfl
    | panic => rfl
    | exhausted => rfl

theorem plainLoop_shift (k left : Nat) (skip : Option U32) (done : Nat) (t : Tracked) :
    (plainLoop env watch left skip (k + done)).run t =
      ((plainLoop env watch left skip done).run t).andThen fun result u =>
        .ok (result.1, k + result.2) u := by
  rw [plainLoop_run, plainLoop_run, chunkLoop_shift]
  cases (chunkLoop env watch left skip done).run t <;> rfl

/-- Past the first instruction nothing is left to skip. -/
theorem SlicePath.skip_eq_none {start c : Cursor} {n : Nat} (path : SlicePath env true start n c)
    (moved : 0 < n) : c.skip = none := by
  induction path with
  | start => omega
  | exec _ step _ =>
    cases step
    rfl
  | irq _ step ih =>
    cases step
    exact ih moved

end Plain

section Slices

variable {env : Env}

/-- The host never enables interrupts. -/
def Quiet (poll : Nat → Poll) : Prop := ∀ k, (poll k).interruptEnabled = 0

theorem runSlice_plain {poll : Nat → Poll} (off : Quiet poll) (budget : U32) (t : Tracked) :
    (runSlice env poll budget).run t =
      ((plainLoop env t.cpu.watches budget.toNat t.entry.skip 0).run t.entry.state).andThen
        fun result u =>
        .ok ⟨result.1, result.2, u.cpu.pc, u.cpu.exitCode⟩ u := by
  rw [runSlice_run, sliceLoop_plain off (Nat.zero_le _) (by omega), Nat.sub_zero]

theorem entry_of_resume_none {t : Tracked} (none : t.cpu.resumePastBreakpoint = none) :
    t.entry = ⟨.none, t⟩ := by
  have same : { t.cpu with resumePastBreakpoint := .none } = t.cpu := by rw [← none]
  rw [Tracked.entry, same, none]
  rfl

/-- Where something was executed, the next slice starts from where the last one ended. -/
theorem SlicePath.entry {t : Tracked} {c : Cursor} {n : Nat} (path : SlicePath env true t.entry n c)
    (moved : 0 < n) :
    c.state.entry = c := by
  rw [entry_of_resume_none (t := c.state) path.resumePastBreakpoint, ← path.skip_eq_none moved]

/-- A slice cut in two: the second part runs only if the first is still running. -/
theorem runSlice_add {p q r : Nat → Poll} (offP : Quiet p) (offQ : Quiet q)
    (offR : Quiet r) {a b : U32}
    (positive : 0 < a.toNat) (fits : a.toNat + b.toNat < 2 ^ 32) :
    runSlice env r (a + b) = (do
      let first ← runSlice env p a
      if first.status = .running then
        let second ← runSlice env q b
        return { second with steps := first.steps + second.steps }
      else return first) := by
  ext t
  have sum : (a + b).toNat = a.toNat + b.toNat := by
    rw [BitVec.toNat_add, Nat.mod_eq_of_lt fits]
  rw [run_bind, runSlice_plain offR, runSlice_plain offP, sum, plainLoop_add, plainLoop_run]
  cases run : (chunkLoop env t.cpu.watches a.toNat t.entry.skip 0).run t.entry.state with
  | ok result u =>
    obtain ⟨done, skip, stopped⟩ := result
    obtain ⟨n, c, path, count, -, ending⟩ := chunkLoop_path run
    rw [Nat.zero_add] at count
    subst count
    rcases ending with ⟨rfl, rfl, rfl⟩ | ⟨status, rfl, notRunning, -⟩
    · have watches : u.cpu.watches = t.cpu.watches := path.watches
      by_cases halted : u.cpu.isHalted = true
      · simp [plainLoop_halted _ _ _ halted, halted]
      · have entry := entry_of_resume_none (t := u) path.resumePastBreakpoint
        have resumed : (plainLoop env t.cpu.watches b.toNat skip a.toNat).run u =
            (plainLoop env t.cpu.watches b.toNat none a.toNat).run u := by
          cases watch : t.cpu.watches with
          | true =>
            rw [watch] at path
            have cleared : skip = none := path.skip_eq_none positive
            rw [cleared]
          | false => exact plainLoop_skip _ _ _ _ _
        have shifted := @plainLoop_shift env t.cpu.watches a.toNat b.toNat none 0 u
        rw [Nat.add_zero] at shifted
        simp only [Outcome.andThen_ok, halted, Bool.false_eq_true, Option.getD_none,
          ↓reduceIte, run_bind,
          runSlice_plain offQ, watches, entry, resumed, shifted]
        cases (plainLoop env t.cpu.watches b.toNat none 0).run u <;> rfl
    · simp [notRunning]
  | err e u => rfl
  | panic => rfl
  | exhausted => rfl

/-- Slices one after the other while they report `Running`, as a host drives them;
slice `k` gets the polls `polls k`. -/
def runSlices (env : Env) (polls : Nat → Nat → Poll) : Nat → U32 → List U32 → Driver SliceOutcome
  | k, budget, [] => runSlice env (polls k) budget
  | k, budget, next :: rest => do
    let first ← runSlice env (polls k) budget
    if first.status = .running then
      let others ← runSlices env polls (k + 1) next rest
      return { others with steps := first.steps + others.steps }
    else return first

theorem runSlices_eq {polls : Nat → Nat → Poll} {poll : Nat → Poll} (off : ∀ k, Quiet (polls k))
    (quiet : Quiet poll) (k : Nat) (budget : U32) (rest : List U32)
    (positive : ∀ b ∈ budget :: rest, 0 < b.toNat)
    (fits : ((budget :: rest).map BitVec.toNat).sum < 2 ^ 32) :
    runSlices env polls k budget rest =
      runSlice env poll (BitVec.ofNat 32 ((budget :: rest).map BitVec.toNat).sum) := by
  induction rest generalizing k budget with
  | nil =>
    have same : BitVec.ofNat 32 ([budget].map BitVec.toNat).sum = budget := by simp
    ext t
    rw [same, runSlices, runSlice_plain (off k), runSlice_plain quiet]
  | cons next rest ih =>
    rw [List.map_cons, List.sum_cons] at fits ⊢
    have later := ih (k + 1) next (fun b member => positive b (List.mem_cons_of_mem _ member))
      (by omega)
    rw [runSlices, later]
    generalize ((next :: rest).map BitVec.toNat).sum = total at fits ⊢
    have room : (BitVec.ofNat 32 total).toNat = total := by
      rw [BitVec.toNat_ofNat, Nat.mod_eq_of_lt (by omega)]
    have sum : BitVec.ofNat 32 (budget.toNat + total) = budget + BitVec.ofNat 32 total := by
      rw [BitVec.ofNat_add, BitVec.ofNat_toNat, BitVec.setWidth_eq]
    rw [sum, runSlice_add (off k) quiet quiet (positive budget (by simp))
      (by rw [room]; exact fits)]

/-- Slicing does not change a run, whatever the host answers to the polls, as
long as it leaves interrupts off: neither two slices nor any list of them. -/
theorem slicing_preserves_run (env : Env) (a b : U32) (positive : 1 ≤ a.toNat)
    (fits : a.toNat + b.toNat < 2 ^ 32)
    (p q r : Nat → Poll) (polls : Nat → Nat → Poll) (offP : Quiet p) (offQ : Quiet q)
    (offR : Quiet r)
    (off : ∀ k, Quiet (polls k)) :
    (∀ (t u : Tracked) (first : SliceOutcome),
      (runSlice env p a).run t = .ok first u → first.status = .running →
      (runSlice env r (a + b)).run t = (do
        let second ← runSlice env q b
        return { second with steps := first.steps + second.steps }).run u) ∧
    (∀ (budget : U32) (rest : List U32), (∀ b ∈ budget :: rest, 0 < b.toNat) →
      ((budget :: rest).map BitVec.toNat).sum < 2 ^ 32 →
      runSlices env polls 0 budget rest =
        runSlice env r (BitVec.ofNat 32 ((budget :: rest).map BitVec.toNat).sum)) := by
  constructor
  · intro t u first run running
    rw [runSlice_add offP offQ offR positive fits, run_bind, run, Outcome.andThen_ok, if_pos running]
  · intro budget rest each total
    exact runSlices_eq off offR 0 budget rest each total

/-- Two slices of one instruction each. -/
theorem slicing_preserves_run_singly :
    runSlices default (fun _ _ => default) 0 1 [1] = runSlice default (fun _ => default) 2 :=
  (slicing_preserves_run default 1 1 (by decide) (by decide) (fun _ => default) (fun _ => default)
    (fun _ => default) (fun _ _ => default) (fun _ => rfl) (fun _ => rfl) (fun _ => rfl)
    (fun _ _ => rfl)).2
    1 [1] (by simp) (by simp)

end Slices

section SingleStep

/-- The result of a step and the outcome of a slice of one instruction that say the same. -/
def StepResult.Matches (out : SliceOutcome) : StepResult → Prop
  | ok => out.status = .running
  | breakpointHit addr => out.status = .breakpoint ∧ out.pc = addr
  | halted exitCode => out.status = .halted ∧ out.exitCode = exitCode
  | trap pc => out.status = .trapped ∧ out.pc = pc

/-- Equal processors up to the step counter, equal memory and equal host accesses. -/
def SameMachine (t u : Tracked) : Prop :=
  t.cpu = { u.cpu with stepCounter := t.cpu.stepCounter } ∧ t.mem = u.mem ∧ t.io = u.io

/-- The hoisted check of a slice is the check of a step. -/
theorem hit_entry_iff (t : Tracked) : Cursor.Hit t.cpu.watches t.entry ↔ t.cpu.StepHit := by
  have nonempty : t.cpu.pc ∈ t.cpu.breakpoints → t.cpu.breakpoints ≠ ∅ := Finset.ne_empty_of_mem
  constructor
  · rintro ⟨watch, member, other⟩
    rw [Cpu.watches, Bool.and_eq_true] at watch
    exact ⟨watch.1, member, other⟩
  · rintro ⟨debug, member, other⟩
    refine ⟨?_, member, other⟩
    rw [Cpu.watches, debug, decide_eq_true (nonempty member)]
    rfl

/-- A slice of one instruction, written like a step. -/
theorem runSlice_one (env : Env) {poll : Nat → Poll} (off : Quiet poll) {t : Tracked}
    (live : t.cpu.isHalted = false) :
    (runSlice env poll 1).run t =
      if t.cpu.StepHit then
        .ok ⟨.breakpoint, 0, t.cpu.pc, t.cpu.exitCode⟩
          (t.withCpu { t.cpu with resumePastBreakpoint := some t.cpu.pc })
      else ((fetchExecute env t.cpu.pc).run t.entry.state).andThen fun attempted u =>
        match attempted.2 with
        | .error err => ((reportSliceError t.cpu.pc attempted.1 err).run
            (u.log (.executed t.cpu.pc attempted.1 u.cpu.pc false))).andThen fun _ v =>
              .ok ⟨.trapped, 0, v.cpu.pc, trapExitCode⟩ (v.withCpu v.cpu.trap)
        | .ok _ => .ok ⟨if u.cpu.isHalted then .halted else .running, 1, u.cpu.pc, u.cpu.exitCode⟩
            ((u.log (.executed t.cpu.pc attempted.1 u.cpu.pc true)).withCpu u.cpu.countStep) := by
  have alive : ¬t.entry.state.cpu.isHalted = true := by
    change ¬t.cpu.isHalted = true
    simp [live]
  have one : (1 : U32).toNat = 0 + 1 := rfl
  rw [runSlice_plain off, plainLoop_run, one, chunkLoop_succ, if_neg alive]
  by_cases hit : t.cpu.StepHit
  · rw [if_pos ((hit_entry_iff t).mpr hit), if_pos hit]
    rfl
  · have clear : ¬Cursor.Hit t.cpu.watches ⟨t.entry.skip, t.entry.state⟩ :=
      mt (hit_entry_iff t).mp hit
    rw [if_neg clear, if_neg hit]
    change (((fetchExecute env t.cpu.pc).run t.entry.state).andThen _ |>.andThen _ |>.andThen _) = _
    cases (fetchExecute env t.cpu.pc).run t.entry.state with
    | ok attempted u =>
      obtain ⟨inst, result⟩ := attempted
      cases result with
      | ok => rfl
      | error err =>
        obtain ⟨messages, reported⟩ := reportSliceError_run t.cpu.pc inst err
          (u.log (.executed t.cpu.pc inst u.cpu.pc false))
        simp only [Outcome.andThen_ok, reported]
        change (((reportSliceError t.cpu.pc inst err).run
          (u.log (.executed t.cpu.pc inst u.cpu.pc false))).andThen _ |>.andThen _ |>.andThen _) = _
        rw [reported]
        rfl
    | err e u => rfl
    | panic => rfl
    | exhausted => rfl

/-- The two interpreters of one step agree on every live machine. -/
theorem step_agrees_with_slice (env : Env) (poll : Nat → Poll) (off : Quiet poll) (t : Tracked)
    (live : t.cpu.isHalted = false) :
    (∃ result u out v, (stepInstruction env).run t = .ok result u ∧
      (runSlice env poll 1).run t = .ok out v ∧
      result.Matches out ∧ SameMachine u v ∧
      (out.status ≠ .trapped → u.cpu.stepCounter = v.cpu.stepCounter)) ∨
    ((stepInstruction env).run t = .panic ∧ (runSlice env poll 1).run t = .panic) ∨
    ((stepInstruction env).run t = .exhausted ∧ (runSlice env poll 1).run t = .exhausted) := by
  have alive : ¬t.cpu.isHalted = true := by simp [live]
  have step := stepInstruction_run env t
  have slice := runSlice_one env off live
  by_cases hit : t.cpu.StepHit
  · rw [if_pos hit] at step slice
    exact .inl ⟨_, _, _, _, step, slice, ⟨rfl, rfl⟩, ⟨rfl, rfl, rfl⟩, fun _ => rfl⟩
  rw [if_neg hit, if_neg alive] at step
  rw [if_neg hit] at slice
  generalize attempted : (fetchExecute env t.cpu.pc).run t.entry.state = outcome at step slice
  have shape := fetchExecute_attempt env t.cpu.pc t.entry.state
  rw [attempted] at shape
  cases shape with
  | done inst m touched =>
    refine .inl ⟨_, _, _, _, step, slice, ?_, ⟨rfl, rfl, rfl⟩, fun _ => rfl⟩
    change StepResult.Matches ⟨if m.cpu.isHalted then .halted else .running, _, _, m.cpu.exitCode⟩
      (if m.cpu.isHalted then .halted m.cpu.exitCode else .ok)
    by_cases halted : m.cpu.isHalted = true
    · rw [if_pos halted, if_pos halted]
      exact ⟨rfl, rfl⟩
    · rw [if_neg halted, if_neg halted]
      rfl
  | trap inst err m asked =>
    simp only [Outcome.andThen_ok] at step slice
    obtain ⟨said, stepReport⟩ := reportStepError_run err
      (({ t with machine := m }.log (.executed t.cpu.pc inst m.cpu.pc false)).withCpu
        m.cpu.countStep)
    obtain ⟨told, sliceReport⟩ := reportSliceError_run t.cpu.pc inst err
      ({ t with machine := m }.log (.executed t.cpu.pc inst m.cpu.pc false))
    have stepEnd := step.trans (congrArg (Outcome.andThen · _) stepReport)
    have sliceEnd := slice.trans (congrArg (Outcome.andThen · _) sliceReport)
    have pc : m.cpu.pc = t.cpu.pc := (congrArg Cpu.pc asked.1).trans rfl
    exact .inl ⟨_, _, _, _, stepEnd, sliceEnd, ⟨rfl, pc⟩, ⟨rfl, rfl, rfl⟩,
      fun clean => absurd rfl clean⟩
  | panic => exact .inr (.inl ⟨step, slice⟩)
  | exhausted => exact .inr (.inr ⟨step, slice⟩)

/-- `C.LI a0, 5` under both. -/
theorem step_agrees_with_slice_li :
    ∃ result u out v, (stepInstruction default).run (.program [0x15, 0x45]) = .ok result u ∧
      (runSlice default (fun _ => default) 1).run (.program [0x15, 0x45]) = .ok out v ∧
      result.Matches out ∧ SameMachine u v ∧ u.cpu.readReg 10 = 5 := by
  obtain ⟨t, known, five⟩ : ∃ t, (stepInstruction default).run (.program [0x15, 0x45]) = .ok .ok t ∧
      t.cpu.readReg 10 = 5 := ⟨_, rfl, rfl⟩
  rcases step_agrees_with_slice default (fun _ => default) (fun _ => rfl)
    (.program [0x15, 0x45]) rfl with
    ⟨result, u, out, v, step, slice, same, machine, -⟩ | ⟨stop, -⟩ | ⟨stop, -⟩
  · obtain ⟨rfl, rfl⟩ := Outcome.ok.inj (known.symm.trans step)
    exact ⟨_, _, out, v, step, slice, same, machine, five⟩
  · cases known.symm.trans stop
  · cases known.symm.trans stop

end SingleStep

end RiscvRs
