import RiscvRs.Lib.Nesting
import RiscvRs.Run.Undisturbed
import RiscvRs.Session.Stepping

/-! In which frame a step over and a step out come to a stop: calls and returns are counted
along the run, and compared with where the temporary breakpoint is. -/

namespace RiscvRs

open Effects Prog Nesting

namespace Fetched

/-- A call that links through `ra`. -/
def isCall (inst : Fetched) : Bool := inst.link? == some 1

/-- `jalr x0, 0(ra)` and `c.jr ra`. -/
def isReturn : Fetched → Bool
  | word inst =>
    let decoded := DecodedInst32.decode inst
    decide (decoded.opcode = Opcode.jalr.bits ∧ decoded.rd = 0 ∧ decoded.rs1 = 1 ∧ decoded.iImm = 0)
  | half inst =>
    let decoded := DecodedInst16.decode inst
    decide (decoded.op = 2 ∧ decoded.funct3 = 4 ∧ shiftThenMask inst 12 1 = 0 ∧
      regField16 inst 7 = 1 ∧
      regField16 inst 2 = 0)

/-- The address after an instruction at `pc`. -/
def after (inst : Fetched) (pc : U32) : U32 := pc + BitVec.ofNat 32 inst.width.bytes

end Fetched

/-- What an event means for the open calls. -/
def GuestEvent.hop : GuestEvent → Hop U32
  | loaded => .other none
  | executed pc inst next completed =>
    if completed = true ∧ inst.isCall = true then .call (inst.after pc) next
    else if completed = true ∧ inst.isReturn = true then .ret next
    else .other (some next)
  | interrupted _ _ next => .other (some next)

def hops (events : List GuestEvent) : List (Hop U32) := events.map GuestEvent.hop

section Hops

variable {pc next target : U32} {inst : Fetched}

theorem target_hop (pc : U32) (inst : Fetched) (next : U32) (completed : Bool) :
    (GuestEvent.executed pc inst next completed).hop.target? = some next := by
  rw [GuestEvent.hop]
  split
  · rfl
  · split <;> rfl

theorem hop_ret (returned : (GuestEvent.executed pc inst next true).hop = .ret target) :
    inst.isReturn = true ∧ next = target := by
  rw [GuestEvent.hop] at returned
  split at returned
  · cases returned
  · split at returned
    · next both =>
      obtain rfl := Hop.ret.inj returned
      exact ⟨both.2, rfl⟩
    · cases returned

theorem hop_call (pc next : U32) (call : inst.isCall = true) :
    (GuestEvent.executed pc inst next true).hop = .call (inst.after pc) next :=
  if_pos ⟨rfl, call⟩

theorem nextPc_eq (s : Simulator) :
    s.nextPc = (s.tracked.mem.instAt s.tracked.cpu.pc).after s.tracked.cpu.pc := by
  unfold Simulator.nextPc Memory.instAt Fetched.ofWindow Fetched.after
  split
  · rfl
  · rfl

end Hops

section Returning

variable {env : Env}

/-- A return is a plain jump. -/
theorem op_return (env : Env) {inst : Fetched} (returns : inst.isReturn = true) (cpu : Cpu) :
    ∃ rd val next, inst.op env cpu = .goto next ∨ inst.op env cpu = .write rd val next := by
  cases inst with
  | word inst =>
    simp only [Fetched.isReturn, decide_eq_true_eq] at returns
    have opcode : Opcode.ofBits? (DecodedInst32.decode inst).opcode = some .jalr := by
      rw [returns.1]
      exact Opcode.ofBits?_bits .jalr
    simp only [Fetched.op, DecodedInst32.op, opcode, DecodedInst32.baseOp]
    exact ⟨_, _, _, .inr rfl⟩
  | half inst =>
    simp only [Fetched.isReturn, decide_eq_true_eq] at returns
    obtain ⟨op, funct3, bit12, rd, rs2⟩ := returns
    rw [Fetched.op, op, funct3]
    change ∃ rd val next, jumpGroupOp inst cpu (cpu.pc + 2) = _ ∨ _
    unfold jumpGroupOp
    dsimp only
    rw [bit12, rs2, rd, if_pos ⟨rfl, rfl⟩, if_neg (by decide)]
    exact ⟨0, 0, _, .inl rfl⟩

/-- What was fetched from memory is what is there. -/
theorem fetched_instAt {t u : Tracked} {inst : Fetched} {result : Except CpuError Unit}
    (below : t.cpu.pc.toNat + 4 ≤ 0xFFFF0000)
    (run : (fetchExecute env t.cpu.pc).run t = .ok (inst, result) u) :
    inst = t.mem.instAt t.cpu.pc := by
  obtain ⟨bus, fetched⟩ := plainlyFetches_of_run run
  rw [← fetch_eq_plainFetch, fetch_instAt env.host t.machine.bus below] at fetched
  exact (Outcome.ok.inj fetched).1.symm

/-- A return leaves the machine live. -/
theorem isHalted_of_return {t : Tracked} {inst : Fetched} {m : Machine}
    (returns : inst.isReturn = true)
    (run : (fetchExecute env t.cpu.pc).run t = .ok (inst, .ok ()) { t with machine := m }) :
    m.cpu.isHalted = t.cpu.isHalted := by
  obtain ⟨m₁, asked, attempted⟩ := fetchExecute_fetched run
  have executed := attempt_ok attempted
  rw [Fetched.execute_run] at executed
  have same : m₁.cpu = t.cpu := asked.1
  rw [← same]
  obtain ⟨rd, val, next, op | op⟩ := op_return env returns m₁.cpu
  · rw [op] at executed
    obtain ⟨-, rfl⟩ := Outcome.ok.inj executed
    rfl
  · rw [op] at executed
    obtain ⟨-, rfl⟩ := Outcome.ok.inj executed
    change (m₁.cpu.writeReg rd val).isHalted = _
    rw [Cpu.writeReg]
    split <;> rfl

end Returning

section Invariants

variable {env : Env} {start c : Cursor} {n : Nat}

/-- A cursor that stands at the only breakpoint and has nothing to skip is stopped. -/
theorem hit_of_only {addr : U32} (only : c.state.cpu.breakpoints = {addr})
    (pc : c.state.cpu.pc = addr)
    (skip : c.skip = none) : c.Hit true := by
  refine ⟨rfl, ?_, ?_⟩
  · rw [only, pc]
    exact Finset.mem_singleton_self addr
  · rw [skip]
    exact (Option.some_ne_none _).symm

/-- The rule for runs without interrupts: what holds at the start with nothing recorded, and is
kept by every instruction that meets the condition, holds at the end with the events of the run. -/
theorem HostPath.keeps {good : List (Hop U32) → Hop U32 → Prop}
    {holds : Cursor → List GuestEvent → Prop}
    (walk : HostPath env true ∅ start n c) (first : holds start [])
    (next : ∀ {c inst m events}, c.state.cpu.breakpoints = start.state.cpu.breakpoints →
      c.state.cpu.isHalted = false → ¬c.Hit true →
      (fetchExecute env c.state.cpu.pc).run c.state = .ok (inst, .ok ())
        { c.state with machine := m } →
      Throughout good (hops (.executed c.state.cpu.pc inst m.cpu.pc true :: events)) →
        holds c events →
      holds ⟨none, c.state.completed inst m⟩
        (.executed c.state.cpu.pc inst m.cpu.pc true :: events)) :
    ∃ events, c.state.history = events ++ start.state.history ∧
      (Throughout good (hops events) → holds c events) := by
  induction walk with
  | start => exact ⟨[], rfl, fun _ => first⟩
  | exec before step ih =>
    obtain ⟨events, history, kept⟩ := ih
    cases step with
    | mk live clear inst m run =>
      refine ⟨.executed _ inst m.cpu.pc true :: events, congrArg (List.cons _) history, fun all => ?_⟩
      exact next before.slicePath.breakpoints live clear run all (kept all.2)
  | irq _ _ _ asked => exact asked.elim

/-- On the way home: the call of the current function is open, or it has just come back. -/
def Homeward (home : U32) (c : Cursor) (events : List GuestEvent) : Prop :=
  ((∃ calls, openCalls [home] (hops events) = calls ++ [home]) ∨
    (openCalls [home] (hops events) = [] ∧ c.state.cpu.pc = home ∧ c.skip = none ∧
      c.state.cpu.isHalted = false)) ∧
  ∀ late early, late ≠ [] → events = late ++ early → 0 ≤ depth (hops early)

theorem Homeward.setOut (home : U32) (c : Cursor) : Homeward home c [] := by
  refine ⟨.inl ⟨[], rfl⟩, ?_⟩
  intro late early some split
  exact absurd (List.append_eq_nil_iff.mp split.symm).1 some

theorem Homeward.step {home : U32} {inst : Fetched} {m : Machine} {events : List GuestEvent}
    (before : Homeward home c events) (only : c.state.cpu.breakpoints = {home})
    (live : c.state.cpu.isHalted = false)
    (clear : ¬c.Hit true)
    (run : (fetchExecute env c.state.cpu.pc).run c.state = .ok (inst, .ok ())
      { c.state with machine := m })
    (all : Throughout (ReturnsToCaller [home])
      (hops (.executed c.state.cpu.pc inst m.cpu.pc true :: events))) :
    Homeward home ⟨none, c.state.completed inst m⟩
      (.executed c.state.cpu.pc inst m.cpu.pc true :: events) := by
  obtain ⟨matched, good⟩ := all
  obtain ⟨state, later⟩ := before
  -- The breakpoint at `home` has not stopped the run, so the call is still open.
  obtain ⟨calls, shape⟩ : ∃ calls, openCalls [home] (hops events) = calls ++ [home] := by
    rcases state with inside | ⟨-, pc, skip, -⟩
    · exact inside
    · exact absurd (hit_of_only only pc skip) clear
  constructor
  · rcases openCalls_bottom shape matched with ⟨calls', still, -⟩ | ⟨returned, closed⟩
    · exact .inl ⟨calls', still⟩
    · obtain ⟨returns, arrived⟩ := hop_ret returned
      exact .inr ⟨closed, arrived, rfl, (isHalted_of_return returns run).trans live⟩
  · intro late early some split
    cases late with
    | nil => exact absurd rfl some
    | cons first late =>
      obtain ⟨-, rest⟩ := List.cons.inj split
      by_cases last : late = []
      · subst last
        obtain rfl : events = early := rest
        have size : ((openCalls [home] (hops events)).length : Int) = [home].length + depth
          (hops events) :=
          length_openCalls good
        rw [shape, List.length_append] at size
        simp only [List.length_cons, List.length_nil] at size
        omega
      · exact later late early last rest

/-- Along a run with a breakpoint at `home`, while every return goes back to its caller. -/
theorem HostPath.homeward {home : U32} (walk : HostPath env true ∅ start n c)
    (only : start.state.cpu.breakpoints = {home}) :
    ∃ events, c.state.history = events ++ start.state.history ∧
      (Throughout (ReturnsToCaller [home]) (hops events) → Homeward home c events) := by
  refine walk.keeps (.setOut home start) ?_
  intro c inst m events same live clear run all before
  exact before.step (same.trans only) live clear run all

/-- The conditions on a run that steps over a call returning to `site`: returns match calls,
the call is not re-entered, and only returns go to `site`. -/
def KeepsFrames (site : U32) (earlier : List (Hop U32)) (hop : Hop U32) : Prop :=
  ReturnsToCaller [] earlier hop ∧ NotReentered [] site earlier hop ∧ OnlyReturnedTo site hop

/-- Over a call: it is not made yet, it is open, or it has just come back. -/
def CallingOver (site : U32) (start c : Cursor) (events : List GuestEvent) : Prop :=
  (events = [] ∧ c = start) ∨ (InsideCall site (hops events) ∧ c.state.cpu.pc ≠ site) ∨
    (openCalls [] (hops events) = [] ∧ c.state.cpu.pc = site ∧ c.skip = none)

/-- The call itself: control goes into the function, and not to `site`. -/
theorem CallingOver.call {site pc : U32} {inst : Fetched} {m : Machine} {t : Tracked}
    (call : inst.isCall = true)
    (back : inst.after pc = site)
    (returned : OnlyReturnedTo site (GuestEvent.executed pc inst m.cpu.pc true).hop) :
    CallingOver site start ⟨none, t.completed inst m⟩ [.executed pc inst m.cpu.pc true] := by
  have hop := hop_call pc m.cpu.pc call
  rw [back] at hop
  refine .inr (.inl ⟨⟨[], ?_, List.not_mem_nil⟩, fun arrived => ?_⟩)
  · simp only [hops, List.map_cons, List.map_nil, hop]
    rfl
  · have arrives : (GuestEvent.executed pc inst m.cpu.pc true).hop.target? = some site := by
      rw [target_hop]
      exact congrArg some arrived
    have impossible := returned arrives
    rw [hop] at impossible
    cases impossible

theorem HostPath.callingOver {site : U32} (walk : HostPath env true ∅ start n c)
    (only : start.state.cpu.breakpoints = {site})
    (call : ∀ inst m, (fetchExecute env start.state.cpu.pc).run start.state =
      .ok (inst, .ok ()) { start.state with machine := m } → inst.isCall = true ∧
        inst.after start.state.cpu.pc = site) :
    ∃ events, c.state.history = events ++ start.state.history ∧
      (Throughout (KeepsFrames site) (hops events) → CallingOver site start c events) := by
  refine walk.keeps (.inl ⟨rfl, rfl⟩) ?_
  rintro c inst m events same - clear run ⟨⟨matched, fresh, returned⟩, -⟩ before
  rcases before with ⟨rfl, rfl⟩ | ⟨inside, -⟩ | ⟨-, pc, skip⟩
  · obtain ⟨calls, back⟩ := call inst m run
    exact .call calls back returned
  · right
    rcases inside.step matched fresh returned with ⟨still, away⟩ | ⟨back, closed⟩
    · refine .inl ⟨still, fun arrived => away ?_⟩
      rw [target_hop]
      exact congrArg some arrived
    · exact .inr ⟨closed, (hop_ret back).2, rfl⟩
  · exact absurd (hit_of_only (same.trans only) pc skip) clear

end Invariants

section Commands

variable {env : Env} {polls : Nat → Nat → Poll} {fuel first n : Nat} {s s' : Simulator}
  {snap : DebuggerSnapshot}
  {c : Cursor}

/-- Everything the host answers to the polls of a command. -/
def answersOf (polls : Nat → Nat → Poll) : Set Poll :=
  { answer | ∃ slice k, polls slice k = answer }

theorem answer_mem (polls : Nat → Nat → Poll) (slice k : Nat) : polls slice k ∈ answersOf polls :=
  ⟨slice, k, rfl⟩

/-- A run to a breakpoint is one path, with the slices joined. -/
theorem runUntilBreakpoint_hostPath (watching : s.tracked.cpu.watches = true)
    (run : (runUntilBreakpoint env polls fuel first).run s = .ok snap s') :
    ∃ n c status, HostPath env true (answersOf polls) s.tracked.entry n c ∧
      SliceStop env true c status s'.tracked ∧
      (snap.isBreakpoint = true → status = .breakpoint) := by
  induction fuel generalizing first s with
  | zero => cases run
  | succ fuel ih =>
    obtain ⟨out, t, sliced, next⟩ := runUntilBreakpoint_ok.mp run
    obtain ⟨c, path, stop, -, spent, -⟩ := runSlice_hostPath (answer_mem polls first) sliced
    rw [watching] at path stop
    rcases next with ⟨running, rest⟩ | ⟨-, rfl, rfl⟩
    · have moved : 0 < out.steps := by
        rw [spent running]
        decide
      rw [running] at stop
      cases stop with
      | running live =>
        obtain ⟨k, d, ending, path', stop', reported⟩ :=
          ih (path.slicePath.watches.trans watching) rest
        rw [show (Simulator.tracked { s with tracked := c.state }).entry =
          c from path.slicePath.entry moved] at path'
        exact ⟨_, d, ending, path.trans path', stop', reported⟩
    · refine ⟨_, c, _, path, stop, fun reported => ?_⟩
      by_contra other
      rw [SliceOutcome.shown, if_neg other] at reported
      cases reported

/-- A run follows an undisturbed walk to a breakpoint and stops there. -/
theorem runUntilBreakpoint_follow (watching : s.tracked.cpu.watches = true)
    (quiet : Undisturbed env true (answersOf polls) s.tracked.entry)
    (walk : HostPath env true ∅ s.tracked.entry n c)
    (live : c.state.cpu.isHalted = false) (hit : c.Hit true) (first : Nat) :
    ∃ fuel snap, (runUntilBreakpoint env polls fuel first).run s = .ok snap
      { s with tracked := c.reported } ∧
      snap.isBreakpoint = true := by
  induction n using Nat.strong_induction_on generalizing s first with
  | _ n ih =>
    have follow := runSlice_follow (t := s.tracked) 0xFFFFFFFF (answer_mem polls first)
      (by rw [watching]; exact quiet)
      (by rw [watching]; exact walk) live (by rw [watching]; exact hit)
    by_cases within : n < (0xFFFFFFFF : U32).toNat
    · obtain ⟨out, sliced, status⟩ := follow.1 within
      refine ⟨1, _, runUntilBreakpoint_once sliced (by rw [status]; decide), ?_⟩
      rw [SliceOutcome.shown, if_pos status]
      rfl
    · obtain ⟨d, out, before, after, sliced, status⟩ := follow.2 (by omega)
      rw [watching] at before after
      have shorter : n - (0xFFFFFFFF : U32).toNat < n := by
        have positive : 0 < (0xFFFFFFFF : U32).toNat := by decide
        omega
      have entry : (Simulator.tracked { s with tracked := d.state }).entry = d :=
        before.slicePath.entry (by decide)
      obtain ⟨fuel, snap, run, reported⟩ := ih _ shorter (s := { s with tracked := d.state })
        (before.slicePath.watches.trans watching) (by rw [entry]; exact quiet.later before)
          (by rw [entry]; exact after)
        (first + 1)
      exact ⟨fuel + 1, snap, runUntilBreakpoint_ok.mpr ⟨out, d.state, sliced, .inl ⟨status, run⟩⟩,
        reported⟩

/-- Where the run to a temporary breakpoint starts. -/
def Simulator.runTo (s : Simulator) (addr : U32) : Cursor := (s.watching addr).tracked.entry

theorem runTo_pc (s : Simulator) (addr : U32) : (s.runTo addr).state.cpu.pc = s.tracked.cpu.pc :=
  rfl

theorem runTo_mem (s : Simulator) (addr : U32) : (s.runTo addr).state.mem = s.tracked.mem := rfl

/-- With no breakpoint but the temporary one, a run watches for that one. -/
theorem watching_only (debug : s.tracked.cpu.debugEnabled = true)
    (none : s.tracked.cpu.breakpoints = ∅) (addr : U32) :
    (s.watching addr).tracked.cpu.breakpoints = {addr} ∧
      (s.watching addr).tracked.cpu.watches = true := by
  have only : (s.watching addr).tracked.cpu.breakpoints = {addr} := by
    change insert addr s.tracked.cpu.breakpoints = _
    rw [none]
    rfl
  refine ⟨only, ?_⟩
  have enabled : (s.watching addr).tracked.cpu.debugEnabled = true := debug
  rw [Cpu.watches, only, enabled]
  exact decide_eq_true (Finset.singleton_ne_empty addr)

/-- The run of a step over starts with the call. -/
theorem runTo_call (below : s.tracked.cpu.pc.toNat + 4 ≤ 0xFFFF0000)
    (call : (s.tracked.mem.instAt s.tracked.cpu.pc).isCall = true) (inst : Fetched) (m : Machine)
    (run : (fetchExecute env (s.runTo s.nextPc).state.cpu.pc).run (s.runTo s.nextPc).state =
      .ok (inst, .ok ()) { (s.runTo s.nextPc).state with machine := m }) :
    inst.isCall = true ∧ inst.after (s.runTo s.nextPc).state.cpu.pc = s.nextPc := by
  have same := fetched_instAt (by rw [runTo_pc]; exact below) run
  rw [runTo_mem, runTo_pc] at same
  rw [same, runTo_pc, nextPc_eq]
  exact ⟨call, rfl⟩

/-- A step over that reports a breakpoint has walked to the address after the call. -/
theorem stepOver_walk (debug : s.tracked.cpu.debugEnabled = true)
    (none : s.tracked.cpu.breakpoints = ∅)
    (below : s.tracked.cpu.pc.toNat + 4 ≤ 0xFFFF0000)
    (call : (s.tracked.mem.instAt s.tracked.cpu.pc).isCall = true)
    (quiet : Undisturbed env true (answersOf polls) (s.runTo s.nextPc))
    (run : (debugStepOver env polls fuel).run s = .ok snap s')
    (reported : snap.isBreakpoint = true) :
    ∃ n c, HostPath env true ∅ (s.runTo s.nextPc) n c ∧ c.state.history = s'.tracked.history ∧
      c.state.cpu.pc = s.nextPc := by
  obtain ⟨only, watching⟩ := watching_only debug none s.nextPc
  have linking : isCallInstruction (s.tracked.mem.wordAt s.tracked.cpu.pc) = true :=
    (isCallInstruction_iff _).mpr
      (.inl (.inl (by simpa [Fetched.isCall, Memory.instAt] using call)))
  rw [debugStepOver_run below, if_pos linking, runToTemporary_run] at run
  obtain ⟨snap', s₁, inner, rest⟩ := Outcome.andThen_eq_ok.mp run
  obtain ⟨rfl, rfl⟩ := Outcome.ok.inj rest
  obtain ⟨n, c, status, path, stop, breakpoint⟩ := runUntilBreakpoint_hostPath watching inner
  rw [breakpoint reported] at stop
  refine ⟨n, c, path.walk quiet, ?_⟩
  change c.state.history = s₁.tracked.history ∧ _
  generalize s₁.tracked = final at stop ⊢
  cases stop with
  | breakpoint live hit =>
    refine ⟨rfl, ?_⟩
    have member := hit.2.1
    rw [path.slicePath.breakpoints.trans only] at member
    exact Finset.mem_singleton.mp member

/-- A step over a call that returns to a breakpoint of its own has come back from that call. -/
theorem stepOver_depth (debug : s.tracked.cpu.debugEnabled = true)
    (none : s.tracked.cpu.breakpoints = ∅)
    (below : s.tracked.cpu.pc.toNat + 4 ≤ 0xFFFF0000)
    (call : (s.tracked.mem.instAt s.tracked.cpu.pc).isCall = true)
    (quiet : Undisturbed env true (answersOf polls) (s.runTo s.nextPc)) {events : List GuestEvent}
    (run : (debugStepOver env polls fuel).run s = .ok snap s') (reported : snap.isBreakpoint = true)
    (history : s'.tracked.history = events ++ s.tracked.history)
    (good : Throughout (KeepsFrames s.nextPc) (hops events)) : depth (hops events) = 0 := by
  obtain ⟨n, c, walk, same, here⟩ := stepOver_walk debug none below call quiet run reported
  obtain ⟨events', walked, kept⟩ :=
    walk.callingOver (watching_only debug none s.nextPc).1 (runTo_call below call)
  have both : events' ++ s.tracked.history = events ++ s.tracked.history :=
    walked.symm.trans (same.trans history)
  obtain rfl : events' = events := List.append_cancel_right both
  have returned : openCalls [] (hops events') = [] := by
    rcases kept good with ⟨-, rfl⟩ | ⟨-, away⟩ | ⟨closed, -⟩
    · exact absurd here (nextPc_ne s).symm
    · exact absurd here away
    · exact closed
  have size := length_openCalls (good.mono fun _ _ keeps => keeps.1)
  rw [returned] at size
  simpa using size.symm

/-- A step out stops when the current function returns. -/
theorem stepOut_stops (debug : s.tracked.cpu.debugEnabled = true)
    (none : s.tracked.cpu.breakpoints = ∅)
    (quiet : Undisturbed env true (answersOf polls) (s.runTo (s.tracked.cpu.regs 1)))
    {events : List GuestEvent}
    (path : HostPath env true (answersOf polls) (s.runTo (s.tracked.cpu.regs 1)) n c)
    (history : c.state.history = events ++ s.tracked.history)
    (good : Throughout (ReturnsToCaller [s.tracked.cpu.regs 1]) (hops events))
    (returned : depth (hops events) = -1) :
    (∀ late early, late ≠ [] → events = late ++ early → depth (hops early) ≠ -1) ∧
      ∃ fuel snap s', (debugStepOut env polls fuel).run s = .ok snap s' ∧ snap.isBreakpoint = true ∧
        s'.tracked.history = c.state.history := by
  obtain ⟨only, watching⟩ := watching_only debug none (s.tracked.cpu.regs 1)
  have walk := path.walk quiet
  obtain ⟨events', walked, kept⟩ := walk.homeward only
  have both : events' ++ s.tracked.history = events ++ s.tracked.history :=
    walked.symm.trans history
  obtain rfl : events' = events := List.append_cancel_right both
  obtain ⟨state, earlier⟩ := kept good
  have size := length_openCalls good
  rw [returned] at size
  refine ⟨fun late early some split first => ?_, ?_⟩
  · have kept := earlier late early some split
    omega
  · rcases state with ⟨calls, shape⟩ | ⟨-, pc, skip, live⟩
    · rw [shape, List.length_append] at size
      simp only [List.length_cons, List.length_nil] at size
      omega
    · have here := path.slicePath.breakpoints.trans only
      obtain ⟨fuel, snap, run, reported⟩ := runUntilBreakpoint_follow watching quiet walk live
        (hit_of_only here pc skip) 0
      refine ⟨fuel, snap, Simulator.restoring ⟨c.reported, s.symbols⟩ s.tracked.cpu.breakpoints, ?_,
        reported, rfl⟩
      rw [debugStepOut, run_bind, run_simCpu, Outcome.andThen_ok, runToTemporary_run, run,
        Outcome.andThen_ok]
      rfl

end Commands

/-- In debug mode, with no breakpoint of the user and no interrupt on the way. A step over a
call that stops at a breakpoint stops at depth 0, if every step of the run keeps to the frames.
A step out stops the first time the depth is -1, if every return of the run goes back to its
caller, the current function to the `ra` of the command. -/
theorem step_commands_stop_in_frame (env : Env) (polls : Nat → Nat → Poll) (s : Simulator)
    (debug : s.tracked.cpu.debugEnabled = true) (none : s.tracked.cpu.breakpoints = ∅) :
    (∀ fuel snap s' events, s.tracked.cpu.pc.toNat + 4 ≤ 0xFFFF0000 →
      (s.tracked.mem.instAt s.tracked.cpu.pc).isCall = true →
      Undisturbed env true (answersOf polls) (s.runTo s.nextPc) →
      (debugStepOver env polls fuel).run s = .ok snap s' → snap.isBreakpoint = true →
      s'.tracked.history = events ++ s.tracked.history →
        Throughout (KeepsFrames s.nextPc) (hops events) →
      depth (hops events) = 0) ∧
    (∀ n c events, Undisturbed env true (answersOf polls) (s.runTo (s.tracked.cpu.regs 1)) →
      HostPath env true (answersOf polls) (s.runTo (s.tracked.cpu.regs 1)) n c →
      c.state.history = events ++ s.tracked.history →
      Throughout (ReturnsToCaller [s.tracked.cpu.regs 1]) (hops events) → depth (hops events) = -1 →
      (∀ late early, late ≠ [] → events = late ++ early → depth (hops early) ≠ -1) ∧
        ∃ fuel snap s', (debugStepOut env polls fuel).run s = .ok snap s' ∧
          snap.isBreakpoint = true ∧
          s'.tracked.history = c.state.history) := by
  constructor
  · intro fuel snap s' events below call quiet run reported history good
    exact stepOver_depth debug none below call quiet run reported history good
  · intro n c events quiet path history good returned
    exact stepOut_stops debug none quiet path history good returned

/-- A host without interrupts disturbs no run. -/
theorem undisturbed_default (env : Env) (watch : Bool) (start : Cursor) :
    Undisturbed env watch (answersOf fun _ _ => default) start := by
  rintro n c - answer ⟨slice, k, rfl⟩
  rfl

/-- A debug session in the middle of a program. -/
def Simulator.debuggingAt (bytes : List U8) (pc ra sp a0 : U32) : Simulator :=
  let s := Simulator.debugging bytes ∅
  let cpu := ((s.tracked.cpu.writeReg 1 ra).writeReg 2 sp).writeReg 10 a0
  ⟨s.tracked.withCpu { cpu with pc := pc }, s.symbols⟩

/-- A call of a function that is one `c.jr ra`, at address 4. -/
def Simulator.leafCall : Simulator := .debuggingAt [0x11, 0x20, 0, 0, 0x82, 0x80] 0 0 0 0

/-- The same inside the function. -/
def Simulator.leaf : Simulator := .debuggingAt [0x11, 0x20, 0, 0, 0x82, 0x80] 4 2 0 0

/-- Over the call of a leaf function, and out of the function. -/
theorem step_commands_stop_in_frame_leaf :
    (∃ snap s', (debugStepOver default (fun _ _ => default) 1).run .leafCall = .ok snap s' ∧
      snap.isBreakpoint = true ∧ depth (hops s'.tracked.history) = 0) ∧
    ∃ fuel snap s', (debugStepOut default (fun _ _ => default) fuel).run .leaf = .ok snap s' ∧
      snap.isBreakpoint = true ∧ depth (hops s'.tracked.history) = -1 := by
  constructor
  · obtain ⟨snap, s', run, reported, history⟩ : ∃ snap s',
        (debugStepOver default (fun _ _ => default) 1).run .leafCall = .ok snap s' ∧
          snap.isBreakpoint = true ∧
        s'.tracked.history = [.executed 4 (.half 0x8082) 2 true,
          .executed 0 (.half 0x2011) 4 true] :=
      ⟨_, _, rfl, rfl, rfl⟩
    refine ⟨snap, s', run, reported, ?_⟩
    have site : Simulator.leafCall.nextPc = 2 := rfl
    have shape : hops s'.tracked.history = [.ret 2, .call 2 4] := by
      rw [history]
      rfl
    refine (step_commands_stop_in_frame default (fun _ _ => default) .leafCall rfl rfl).1 1 snap s'
      _ (by decide) rfl
      (undisturbed_default _ _ _) run reported (List.append_nil _).symm ?_
    rw [shape, site]
    refine ⟨⟨?_, ?_, ?_⟩, ⟨?_, ?_, ?_⟩, trivial⟩
    · rintro target ⟨⟩
      rfl
    · rintro target ⟨⟩
    · intro _
      rfl
    · rintro target ⟨⟩
    · rintro target ⟨⟩
      exact List.not_mem_nil
    · intro arrives
      cases arrives
  · obtain ⟨m, run, next⟩ : ∃ m, (fetchExecute default (Simulator.leaf.runTo 2).state.cpu.pc).run
        (Simulator.leaf.runTo 2).state = .ok (.half 0x8082, .ok ())
          { (Simulator.leaf.runTo 2).state with machine := m } ∧
        m.cpu.pc = 2 := ⟨_, rfl, rfl⟩
    have clear : ¬(Simulator.leaf.runTo 2).Hit true := by decide
    have path : HostPath default true (answersOf fun _ _ => default) (Simulator.leaf.runTo 2) 1 _ :=
      .exec .start (.mk _ rfl clear (.half 0x8082) m run)
    have shape : hops [.executed 4 (.half 0x8082) m.cpu.pc true] = [.ret 2] := by
      rw [next]
      rfl
    obtain ⟨-, fuel, snap, s', out, reported, history⟩ :=
      (step_commands_stop_in_frame default (fun _ _ => default) .leaf rfl rfl).2 1 _
        [.executed 4 (.half 0x8082) m.cpu.pc true] (undisturbed_default _ _ _) path rfl (by
          rw [shape]
          refine ⟨?_, trivial⟩
          rintro target ⟨⟩
          rfl) (by rw [shape]; rfl)
    refine ⟨fuel, snap, s', out, reported, ?_⟩
    rw [history]
    change depth (hops [.executed 4 (.half 0x8082) m.cpu.pc true]) = -1
    rw [shape]
    rfl

/-- `f` at 0 calls itself at 4 unless `a0` is zero: the debugger stands at that call and `a0` is 1. -/
def Simulator.recursing : Simulator :=
  .debuggingAt [0x01, 0xC5, 0x7D, 0x15, 0xF5, 0x3F, 0x01, 0x00, 0x82, 0x80] 4 0 0 1

/-- The end of a function that takes its return address 8 from the stack; an earlier call
left 4 in `ra`. -/
def Simulator.clobbered : Simulator :=
  .debuggingAt [0x82, 0x40, 0x82, 0x80, 0, 0, 0, 0, 0x02, 0x90, 0, 0, 0, 0, 0, 0, 8, 0, 0, 0] 0 4 16 0

/-- Both in debug mode and with no breakpoint set. The step over stops when the inner
activation returns, at depth 1. The step out runs past the return of the function and on
until the machine stops. -/
theorem step_commands_leave_frame :
    (Simulator.recursing.tracked.cpu.debugEnabled = true ∧
      Simulator.recursing.tracked.cpu.breakpoints = ∅ ∧
      (Simulator.recursing.tracked.mem.instAt Simulator.recursing.tracked.cpu.pc).isCall = true ∧
      ∃ snap s', (debugStepOver default (fun _ _ => default) 1).run .recursing = .ok snap s' ∧
        snap.isBreakpoint = true ∧ depth (hops s'.tracked.history) = 1) ∧
    (Simulator.clobbered.tracked.cpu.debugEnabled = true ∧
      Simulator.clobbered.tracked.cpu.breakpoints = ∅ ∧
      ∃ snap s' last earlier, (debugStepOut default (fun _ _ => default) 1).run .clobbered =
        .ok snap s' ∧
        s'.tracked.history = last :: earlier ∧ depth (hops earlier) = -1 ∧
          snap.isBreakpoint = false) :=
  ⟨⟨rfl, rfl, rfl, _, _, rfl, rfl, rfl⟩, ⟨rfl, rfl, _, _, _, _, rfl, rfl, rfl, rfl⟩⟩

end RiscvRs
