import RiscvRs.Run.Path

/-! Breakpoints along a slice: none is run through unreported, and a pending
report is used up by the instruction it lets through. -/

namespace RiscvRs

open Effects Prog

namespace GuestEvent

/-- The address of an executed instruction. -/
def visited? : GuestEvent → Option U32
  | executed pc _ _ _ => some pc
  | loaded | interrupted _ _ _ => none

/-- Where control went. -/
def target? : GuestEvent → Option U32
  | executed _ _ next _ => some next
  | interrupted _ _ next => some next
  | loaded => none

end GuestEvent

/-- Addresses of the instructions among events, in the order of execution. -/
def visits (events : List GuestEvent) : List U32 := events.reverse.filterMap GuestEvent.visited?

theorem visits_executed (events : List GuestEvent) (pc : U32) (inst : Fetched) (next : U32)
    (completed : Bool) :
    visits (.executed pc inst next completed :: events) = visits events ++ [pc] := by
  simp [visits, GuestEvent.visited?]

theorem visits_interrupted (events : List GuestEvent) (irq pc next : U32) :
    visits (.interrupted irq pc next :: events) = visits events := by
  simp [visits, GuestEvent.visited?]

/-- No breakpoint among the visited addresses, but for a first one that `skip` lets through. -/
structure Reported (breakpoints : Finset U32) (skip : Option U32) (visited : List U32) : Prop where
  later : ∀ addr ∈ visited.tail, addr ∉ breakpoints
  first : ∀ addr ∈ visited.head?, addr ∈ breakpoints → skip = some addr

theorem Reported.nil (breakpoints : Finset U32) (skip : Option U32) :
    Reported breakpoints skip [] :=
  ⟨by simp, by simp⟩

/-- The first instruction may use the skip, a later one may not be at a breakpoint. -/
theorem Reported.snoc {breakpoints : Finset U32} {skip : Option U32} {visited : List U32}
    (reported : Reported breakpoints skip visited) {pc : U32}
    (fresh : visited = [] → pc ∈ breakpoints → skip = some pc)
    (clear : visited ≠ [] → pc ∉ breakpoints) :
    Reported breakpoints skip (visited ++ [pc]) := by
  cases visited with
  | nil =>
    refine ⟨by simp, ?_⟩
    intro addr head member
    obtain rfl : pc = addr := by simpa using head
    exact fresh rfl member
  | cons first rest =>
    refine ⟨?_, reported.first⟩
    intro addr tail
    rcases List.mem_append.mp tail with old | new
    · exact reported.later addr old
    · obtain rfl : addr = pc := by simpa using new
      exact clear (by simp)

/-- Control is where the newest event, or else the start, left it. -/
def Arrived (events : List GuestEvent) (start pc : U32) : Prop :=
  match events with
  | [] => pc = start
  | event :: _ => event.target? = some pc

section Slices

variable {env : Env}

/-- What the history of a slice says about its breakpoints so far. -/
structure Watched (start c : Cursor) (events : List GuestEvent) : Prop where
  history : c.state.history = events ++ start.state.history
  arrived : Arrived events start.state.cpu.pc c.state.cpu.pc
  reported : Reported start.state.cpu.breakpoints start.skip (visits events)
  skip : (visits events = [] ∧ c.skip = start.skip) ∨ (visits events ≠ [] ∧ c.skip = none)

/-- A visited address that the check let through. -/
theorem Watched.visit {start c : Cursor} {events : List GuestEvent}
    (watched : Watched start c events)
    (same : c.state.cpu.breakpoints = start.state.cpu.breakpoints) (clear : ¬c.Hit true)
    (inst : Fetched) (next : U32) (completed : Bool) :
    Reported start.state.cpu.breakpoints start.skip
      (visits (.executed c.state.cpu.pc inst next completed :: events)) := by
  have passed : c.state.cpu.pc ∈ start.state.cpu.breakpoints → c.skip = some c.state.cpu.pc := by
    intro member
    by_contra other
    exact clear ⟨rfl, by rwa [same], other⟩
  rw [visits_executed]
  refine watched.reported.snoc ?_ ?_
  · intro none member
    rcases watched.skip with ⟨-, kept⟩ | ⟨some, -⟩
    · rw [← kept]
      exact passed member
    · exact absurd none some
  · intro some member
    rcases watched.skip with ⟨none, -⟩ | ⟨-, cleared⟩
    · exact some none
    · have taken := passed member
      rw [cleared] at taken
      cases taken

theorem SlicePath.watched {start c : Cursor} {n : Nat} (path : SlicePath env true start n c) :
    ∃ events, Watched start c events := by
  induction path with
  | start => exact ⟨[], rfl, rfl, Reported.nil _ _, .inl ⟨rfl, rfl⟩⟩
  | @exec n c c' path step ih =>
    obtain ⟨events, watched⟩ := ih
    cases step with
    | mk live clear inst m run =>
      let event : GuestEvent := .executed c.state.cpu.pc inst m.cpu.pc true
      refine ⟨event :: events, ?_, rfl, watched.visit path.breakpoints clear inst m.cpu.pc true,
        .inr ⟨?_, rfl⟩⟩
      · exact congrArg (event :: ·) watched.history
      · simp [event, visits_executed]
  | @irq n c c' path step ih =>
    obtain ⟨events, watched⟩ := ih
    cases step with
    | mk live enabled irq =>
      let event : GuestEvent := .interrupted irq c.state.cpu.pc (c.state.cpu.handleInterrupt irq).pc
      refine ⟨event :: events, congrArg (event :: ·) watched.history, rfl, ?_, ?_⟩
      · rw [visits_interrupted]
        exact watched.reported
      · rw [visits_interrupted]
        exact watched.skip

/-- A path only adds to the history. -/
theorem SlicePath.history_suffix {watch : Bool} {start c : Cursor} {n : Nat}
    (path : SlicePath env watch start n c) : start.state.history <:+ c.state.history := by
  induction path with
  | start => exact List.suffix_refl _
  | exec _ step ih =>
    cases step
    exact ih.trans (List.suffix_cons _ _)
  | irq _ step ih =>
    cases step
    exact ih.trans (List.suffix_cons _ _)

theorem SliceStop.history_suffix {watch : Bool} {c : Cursor} {status : SliceStatus} {t' : Tracked}
    (stop : SliceStop env watch c status t') : c.state.history <:+ t'.history := by
  cases stop with
  | trapped => exact List.suffix_cons _ _
  | _ => exact List.suffix_refl _

theorem runSlice_history_suffix {poll : Nat → Poll} {budget : U32} {out : SliceOutcome}
    {t t' : Tracked}
    (run : (runSlice env poll budget).run t = .ok out t') : t.history <:+ t'.history := by
  obtain ⟨c, path, stop, -⟩ := runSlice_path run
  exact path.history_suffix.trans stop.history_suffix

/-- A slice and the events it adds, when breakpoints are watched. -/
theorem runSlice_reported {poll : Nat → Poll} {budget : U32} {out : SliceOutcome} {t t' : Tracked}
    (watch : t.cpu.watches = true) (run : (runSlice env poll budget).run t = .ok out t') :
    ∃ events, t'.history = events ++ t.history ∧
      Reported t.cpu.breakpoints t.cpu.resumePastBreakpoint (visits events) ∧
      (out.status = .breakpoint → out.pc = t'.cpu.pc ∧ t'.cpu.pc ∈ t.cpu.breakpoints ∧
        Arrived events t.cpu.pc t'.cpu.pc) := by
  obtain ⟨c, path, stop, -, -, pc, -⟩ := runSlice_path run
  rw [watch] at path stop
  obtain ⟨events, watched⟩ := path.watched
  have same : c.state.cpu.breakpoints = t.cpu.breakpoints := path.breakpoints
  cases stopped : out.status with
  | running =>
    rw [stopped] at stop
    cases stop
    exact ⟨events, watched.history, watched.reported, by simp⟩
  | halted =>
    rw [stopped] at stop
    cases stop
    exact ⟨events, watched.history, watched.reported, by simp⟩
  | trapped =>
    rw [stopped] at stop
    cases stop with
    | trapped live clear inst err m messages fetched =>
      let event : GuestEvent := .executed c.state.cpu.pc inst m.cpu.pc false
      exact ⟨event :: events, congrArg (event :: ·) watched.history,
        watched.visit same clear inst _ false, by simp⟩
  | breakpoint =>
    rw [stopped] at stop
    cases stop with
    | breakpoint live hit =>
      refine ⟨events, watched.history, watched.reported, fun _ => ⟨pc, ?_, watched.arrived⟩⟩
      rw [← same]
      exact hit.2.1

/-- No breakpoint is run through unreported: an instruction at a breakpoint is
the first of its slice and was the pending report on entry, and a step executes
at a breakpoint only as the pending report. A slice that reports a breakpoint
left control there without executing it. -/
theorem no_breakpoint_unreported (env : Env) (t t' : Tracked) (debug : t.cpu.debugEnabled = true) :
    (∀ (poll : Nat → Poll) (budget : U32) (out : SliceOutcome),
      (runSlice env poll budget).run t = .ok out t' →
      ∃ events, t'.history = events ++ t.history ∧
        (∀ addr ∈ (visits events).tail, addr ∉ t.cpu.breakpoints) ∧
        (∀ addr ∈ (visits events).head?, addr ∈ t.cpu.breakpoints →
          t.cpu.resumePastBreakpoint = some addr) ∧
        (out.status = .breakpoint → out.pc = t'.cpu.pc ∧ t'.cpu.pc ∈ t.cpu.breakpoints ∧
          Arrived events t.cpu.pc t'.cpu.pc)) ∧
    (∀ result, (stepInstruction env).run t = .ok result t' →
      t'.history = t.history ∨
      ∃ inst next completed, t'.history = .executed t.cpu.pc inst next completed :: t.history ∧
        (t.cpu.pc ∈ t.cpu.breakpoints → t.cpu.resumePastBreakpoint = some t.cpu.pc)) := by
  constructor
  · intro poll budget out run
    by_cases watch : t.cpu.watches = true
    · obtain ⟨events, history, reported, stopped⟩ := runSlice_reported watch run
      exact ⟨events, history, reported.later, reported.first, stopped⟩
    · have none : t.cpu.breakpoints = ∅ := by
        by_contra some
        exact watch (by simp [Cpu.watches, debug, some])
      obtain ⟨events, history⟩ := runSlice_history_suffix run
      refine ⟨events, history.symm, by simp [none], by simp [none], fun stopped => ?_⟩
      obtain ⟨c, -, stop, -⟩ := runSlice_path run
      rw [stopped] at stop
      cases stop with
      | breakpoint live hit => exact absurd hit.1 watch
  · intro result run
    have passed (clear : ¬t.cpu.StepHit) :
        t.cpu.pc ∈ t.cpu.breakpoints → t.cpu.resumePastBreakpoint = some t.cpu.pc := by
      intro member
      by_contra other
      exact clear ⟨debug, member, other⟩
    cases stepInstruction_end run with
    | breakpointHit => exact .inl rfl
    | halted => exact .inl rfl
    | done clear live inst m => exact .inr ⟨inst, m.cpu.pc, true, rfl, passed clear⟩
    | trap clear live inst err m => exact .inr ⟨inst, m.cpu.pc, false, rfl, passed clear⟩

/-- Two `C.NOP`, with breakpoints before and behind them; the first is reported already. -/
def Tracked.resuming : Tracked :=
  let t := Tracked.program [0x01, 0x00, 0x01, 0x00]
  t.withCpu { t.cpu with
    debugEnabled := true, breakpoints := {0, 4}, resumePastBreakpoint := some 0 }

/-- A slice runs them and reports the second breakpoint. -/
theorem no_breakpoint_unreported_resuming : ∃ t' events,
    (runSlice default (fun _ => default) 5).run .resuming = .ok ⟨.breakpoint, 2, 4, 0⟩ t' ∧
      t'.history = events ++ Tracked.resuming.history ∧ visits events = [0, 2] ∧
      (∀ addr ∈ (visits events).tail, addr ∉ Tracked.resuming.cpu.breakpoints) ∧
      (∀ addr ∈ (visits events).head?, addr ∈ Tracked.resuming.cpu.breakpoints →
        some 0 = some addr) ∧
      Arrived events 0 4 := by
  obtain ⟨t', run, pc, visited⟩ : ∃ t', (runSlice default (fun _ => default) 5).run .resuming =
      .ok ⟨.breakpoint, 2, 4, 0⟩ t' ∧ t'.cpu.pc = 4 ∧ visits t'.history = [0, 2] :=
        ⟨_, rfl, rfl, rfl⟩
  obtain ⟨events, history, later, first, stopped⟩ :=
    (no_breakpoint_unreported default .resuming t' rfl).1 (fun _ => default) 5 _ run
  have all : t'.history = events := history.trans (List.append_nil events)
  obtain ⟨-, -, arrived⟩ := stopped rfl
  rw [pc] at arrived
  exact ⟨t', events, run, history, all ▸ visited, later, first, arrived⟩

end Slices

section Progress

variable {env : Env}

/-- Between two states some instruction was executed. -/
def Ran (t t' : Tracked) : Prop :=
  ∃ events, t'.history = events ++ t.history ∧ visits events ≠ []

theorem Ran.executed {t t' : Tracked} {pc next : U32} {inst : Fetched} {completed : Bool}
    (history : t'.history = .executed pc inst next completed :: t.history) : Ran t t' := by
  refine ⟨[.executed pc inst next completed], history, ?_⟩
  simp [visits, GuestEvent.visited?]

theorem Ran.extend {t t' t'' : Tracked} (ran : Ran t t') (later : t'.history <:+ t''.history) :
    Ran t t'' := by
  obtain ⟨events, history, some⟩ := ran
  obtain ⟨more, history'⟩ := later
  refine ⟨more ++ events, by rw [← history', history, List.append_assoc], ?_⟩
  simp only [visits, List.reverse_append, List.filterMap_append]
  intro empty
  exact some (List.append_eq_nil_iff.mp empty).1

theorem Ran.after {t t' t'' : Tracked} (earlier : t.history <:+ t'.history) (ran : Ran t' t'') :
    Ran t t'' := by
  obtain ⟨before, history⟩ := earlier
  obtain ⟨events, history', some⟩ := ran
  refine ⟨events ++ before, by rw [history', ← history, List.append_assoc], ?_⟩
  simp only [visits, List.reverse_append, List.filterMap_append]
  intro empty
  exact some (List.append_eq_nil_iff.mp empty).2

/-- `addr` was reported and no instruction executed since: control is still
there, or an interrupt took it to another reported breakpoint and is masked. -/
def Pending (addr : U32) (t : Tracked) : Prop :=
  t.cpu.resumePastBreakpoint = some t.cpu.pc ∧ (t.cpu.pc = addr ∨ t.cpu.interruptsEnabled = false)

theorem masked_and_mie (status : U32) :
    status &&& ~~~(mstatusMie ||| mstatusMpie) &&& mstatusMie = 0 := by
  have none : ~~~(mstatusMie ||| mstatusMpie) &&& mstatusMie = 0#32 := by decide
  rw [BitVec.and_assoc, none, BitVec.and_zero]
  rfl

/-- Taking an interrupt masks the next one. -/
theorem interruptsEnabled_handleInterrupt (cpu : Cpu) (irq : U32) :
    (cpu.handleInterrupt irq).interruptsEnabled = false := by
  have apart : mstatusMpie &&& mstatusMie = 0 := by decide
  simp only [Cpu.interruptsEnabled, Cpu.handleInterrupt, CsrFile.get_set, bne_eq_false_iff_eq]
  split
  · rw [BitVec.and_or_distrib_right, masked_and_mie, apart]
    rfl
  · exact masked_and_mie _

/-- A path with an instruction in it. -/
theorem SlicePath.ran {watch : Bool} {start c : Cursor} {n : Nat}
    (path : SlicePath env watch start n c)
    (moved : 0 < n) : Ran start.state c.state := by
  induction path with
  | start => omega
  | exec path step ih =>
    cases step with
    | mk live clear inst m run =>
      exact Ran.after path.history_suffix (Ran.executed rfl)
  | irq path step ih =>
    cases step
    exact (ih moved).extend (List.suffix_cons _ _)

/-- A path without an instruction: at most one interrupt, after which they are masked. -/
theorem SlicePath.still {watch : Bool} {start c : Cursor} (path : SlicePath env watch start 0 c)
    (live : start.state.cpu.isHalted = false) :
    c = start ∨ (c.skip = start.skip ∧ c.state.cpu.isHalted = false ∧
      c.state.cpu.interruptsEnabled = false ∧
      start.state.cpu.interruptsEnabled = true) := by
  generalize count : 0 = n at path
  induction path with
  | start => exact .inl rfl
  | exec => cases count
  | irq path step ih =>
    cases step with
    | mk alive enabled irq =>
      right
      rcases ih count with rfl | ⟨-, -, masked, -⟩
      · exact ⟨rfl, live, interruptsEnabled_handleInterrupt _ irq, enabled⟩
      · rw [masked] at enabled
        cases enabled

/-- A report is pending at the address it names. -/
theorem runSlice_pending {poll : Nat → Poll} {budget : U32} {out : SliceOutcome} {t t' : Tracked}
    (run : (runSlice env poll budget).run t = .ok out t') (stopped : out.status = .breakpoint) :
    Pending out.pc t' ∧ t'.cpu.pc = out.pc := by
  obtain ⟨c, -, stop, -, -, pc, -⟩ := runSlice_path run
  rw [stopped] at stop
  cases stop with
  | breakpoint live hit => exact ⟨⟨rfl, .inl pc.symm⟩, pc.symm⟩

/-- From a pending report a slice with a budget executes an instruction, unless
an interrupt takes it to a breakpoint elsewhere. -/
theorem runSlice_progress {poll : Nat → Poll} {budget : U32} {out : SliceOutcome} {t t' : Tracked}
    {addr : U32}
    (pending : Pending addr t) (live : t.cpu.isHalted = false) (positive : 0 < budget.toNat)
    (run : (runSlice env poll budget).run t = .ok out t') :
    Ran t t' ∨ (out.status = .breakpoint ∧ out.pc ≠ addr ∧ Pending addr t') := by
  obtain ⟨c, path, stop, -, spent, pc, -⟩ := runSlice_path run
  by_cases moved : 0 < out.steps
  · exact .inl (Ran.extend (path.ran moved) stop.history_suffix)
  obtain idle : out.steps = 0 := by omega
  rw [idle] at path
  have still := path.still live
  have alive : c.state.cpu.isHalted = false := by
    rcases still with rfl | ⟨-, alive, -⟩
    · exact live
    · exact alive
  have skip : c.skip = some t.cpu.pc := by
    rcases still with rfl | ⟨same, -⟩
    · exact pending.1
    · exact same.trans pending.1
  generalize ending : out.status = status at stop
  cases stop with
  | running => exact absurd (spent ending) (by omega)
  | halted halted =>
    rw [alive] at halted
    cases halted
  | trapped live' clear inst err m messages fetched =>
    exact .inl (Ran.after path.history_suffix (Ran.executed rfl))
  | breakpoint live' hit =>
    have elsewhere : c.state.cpu.pc ≠ t.cpu.pc := by
      intro same
      exact hit.2.2 (by rw [skip, same])
    rcases still with rfl | ⟨-, -, masked, enabled⟩
    · exact absurd rfl elsewhere
    · have here : t.cpu.pc = addr := by
        rcases pending.2 with here | disabled
        · exact here
        · exact absurd (disabled.symm.trans enabled) (by decide)
      refine .inr ⟨rfl, ?_, rfl, .inr masked⟩
      rw [pc, ← here]
      exact elsewhere

theorem stepInstruction_history_suffix {result : StepResult} {t t' : Tracked}
    (run : (stepInstruction env).run t = .ok result t') : t.history <:+ t'.history := by
  cases stepInstruction_end run with
  | breakpointHit => exact List.suffix_refl _
  | halted => exact List.suffix_refl _
  | done => exact List.suffix_cons _ _
  | trap => exact List.suffix_cons _ _

theorem stepInstruction_pending {addr : U32} {t t' : Tracked}
    (run : (stepInstruction env).run t = .ok (.breakpointHit addr) t') :
    Pending addr t' ∧ t'.cpu.pc = addr := by
  have ended := stepInstruction_end run
  generalize result : StepResult.breakpointHit addr = r at ended
  cases ended with
  | breakpointHit hit =>
    obtain ⟨rfl⟩ := result
    exact ⟨⟨rfl, .inl rfl⟩, rfl⟩
  | halted => cases result
  | done _ _ inst m => split at result <;> cases result
  | trap => cases result

/-- From a pending report a step of a live machine executes an instruction. -/
theorem stepInstruction_progress {result : StepResult} {t t' : Tracked} {addr : U32}
    (pending : Pending addr t)
    (live : t.cpu.isHalted = false) (run : (stepInstruction env).run t = .ok result t') : Ran t t' := by
  cases stepInstruction_end run with
  | breakpointHit hit => exact absurd pending.1 hit.2.2
  | halted clear halted =>
    rw [live] at halted
    cases halted
  | done => exact Ran.executed rfl
  | trap => exact Ran.executed rfl

end Progress

end RiscvRs
