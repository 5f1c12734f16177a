import RiscvRs.Exec.Footprint
import RiscvRs.Run.Watching

/-! The record of a run, replayed: what it tells of, done once more from the state where it begins,
goes through the instructions of the run. -/

namespace RiscvRs

open Effects Prog

/-- What may write to RAM: an instruction that starts on `cpu`, or a byte written by hand. -/
inductive Visit where
  | executed (cpu : Cpu) (inst : Fetched) (completed : Bool)
  | poked (addr : U32)

/-- The bytes of RAM that the visit may write. A trap writes none. -/
def Visit.Stores (env : Env) (x : U32) : Visit → Prop
  | executed cpu inst completed => completed = true ∧ inst.Stores env cpu x
  | poked addr => x = addr

/-- The instruction as the record shows it. -/
def Visit.execution : Visit → Option (U32 × Fetched × Bool)
  | executed cpu inst completed => some (cpu.pc, inst, completed)
  | poked _ => none

def GuestEvent.execution : GuestEvent → Option (U32 × Fetched × Bool)
  | executed pc inst _ completed => some (pc, inst, completed)
  | loaded | interrupted _ _ _ => none

/-- One event once more. Of an instruction it takes only that there was one; what it is and does
comes from the state reached so far. -/
def replayEvent (env : Env) (event : GuestEvent) (done : List Visit × Tracked) :
    List Visit × Tracked :=
  match event with
  | .loaded => done
  | .interrupted irq _ _ => (done.1, done.2.interrupted irq)
  | .executed _ _ _ _ =>
    match (fetchExecute env done.2.cpu.pc).run done.2 with
    | .ok (inst, .ok _) t =>
      (.executed done.2.cpu inst true :: done.1, done.2.completed inst t.machine)
    | .ok (inst, .error _) t => (.executed done.2.cpu inst false :: done.1, t)
    | _ => done

/-- A record once more from `start` on, newest event first: the instructions, and where they lead. -/
def replay (env : Env) (start : Tracked) (events : List GuestEvent) : List Visit × Tracked :=
  events.foldr (replayEvent env) ([], start)

theorem replay_cons (env : Env) (start : Tracked) (event : GuestEvent) (earlier : List GuestEvent) :
    replay env start (event :: earlier) = replayEvent env event (replay env start earlier) :=
  rfl

/-- The events of `t'` since `t`. -/
def Tracked.since (t t' : Tracked) : List GuestEvent :=
  t'.history.take (t'.history.length - t.history.length)

theorem since_append {t t' : Tracked} {events : List GuestEvent}
    (record : t'.history = events ++ t.history) :
    t.since t' = events := by
  rw [Tracked.since, record, List.length_append, Nat.add_sub_cancel, List.take_left]

section Replay

variable {env : Env} {start t u : Tracked} {events : List GuestEvent}

/-- The replayed events have left `t`: its record, its instructions and its memory. -/
structure Retraces (env : Env) (start : Tracked) (events : List GuestEvent)
    (t : Tracked) : Prop where
  record : t.history = events ++ start.history
  listed : (replay env start events).1.filterMap Visit.execution =
    events.filterMap GuestEvent.execution
  ram : (replay env start events).2.mem.flat = t.mem.flat

/-- They lead to where `t` goes on from, but for the debug settings. -/
structure LeadsTo (env : Env) (start : Tracked) (events : List GuestEvent) (t : Tracked) : Prop
    extends Retraces env start events t where
  live : t.cpu.isHalted = false → (replay env start events).2.bare = t.bare

theorem leadsTo_start (env : Env) (t : Tracked) : LeadsTo env t [] t :=
  ⟨⟨rfl, rfl, rfl⟩, fun _ => rfl⟩

/-- No debug setting goes into an instruction. -/
theorem fetchExecute_of_bare {r v : Tracked} (same : r.bare = t.bare) {inst : Fetched}
    {result : Except CpuError Unit}
    (run : (fetchExecute env t.cpu.pc).run t = .ok (inst, result) v) :
    ∃ w, (fetchExecute env r.cpu.pc).run r = .ok (inst, result) w ∧
      w.machine.bare = v.machine.bare := by
  have blind := (blind_fetchExecute seesCpu_bare (seesBus_id env.host) t.cpu.pc).congr
    tracked_bare_iff_seen
  have alike := blind r t same
  rw [run] at alike
  rw [pc_of_bare same]
  generalize (fetchExecute env t.cpu.pc).run r = outcome at alike
  cases alike with
  | ok _ seen => exact ⟨_, rfl, machine_of_bare seen⟩

theorem bare_completed {r : Tracked} (same : r.bare = t.bare) (inst : Fetched) {m m' : Machine}
    (machine : m.bare = m'.bare) : (r.completed inst m).bare = (t.completed inst m').bare := by
  have cpu := cpu_of_bare machine
  have next : m.cpu.pc = m'.cpu.pc := by
    have pc := congrArg Cpu.pc cpu
    exact pc
  have history : (r.completed inst m).history = (t.completed inst m').history := by
    change GuestEvent.executed r.cpu.pc inst m.cpu.pc true :: r.history =
      .executed t.cpu.pc inst m'.cpu.pc true :: t.history
    rw [pc_of_bare same, next, history_of_bare same]
  have counted : m.cpu.countStep.bare = m'.cpu.countStep.bare := congrArg Cpu.countStep cpu
  have bus : m.bus = m'.bus := bus_of_bare machine
  exact Tracked.bare_ext (Machine.bare_ext counted bus) history

theorem bare_interrupted {r : Tracked} (same : r.bare = t.bare) (irq : U32) :
    (r.interrupted irq).bare = (t.interrupted irq).bare := by
  have cpu : (r.cpu.handleInterrupt irq).bare = (t.cpu.handleInterrupt irq).bare :=
    congrArg (·.handleInterrupt irq) (trackedCpu_of_bare same)
  have next : (r.cpu.handleInterrupt irq).pc = (t.cpu.handleInterrupt irq).pc := by
    have pc := congrArg Cpu.pc cpu
    exact pc
  have history : (r.interrupted irq).history = (t.interrupted irq).history := by
    change GuestEvent.interrupted irq r.cpu.pc (r.cpu.handleInterrupt irq).pc :: r.history =
      .interrupted irq t.cpu.pc (t.cpu.handleInterrupt irq).pc :: t.history
    rw [pc_of_bare same, next, history_of_bare same]
  have bus : r.machine.bus = t.machine.bus := bus_of_bare (machine_of_bare same)
  exact Tracked.bare_ext (Machine.bare_ext cpu bus) history

namespace LeadsTo

/-- An instruction that completes. -/
theorem completed (leads : LeadsTo env start events t) (live : t.cpu.isHalted = false)
    {inst : Fetched} {m : Machine}
    (run : (fetchExecute env t.cpu.pc).run t = .ok (inst, .ok ()) { t with machine := m }) :
    LeadsTo env start (.executed t.cpu.pc inst m.cpu.pc true :: events) (t.completed inst m) := by
  have same := leads.live live
  obtain ⟨w, again, machine⟩ := fetchExecute_of_bare same run
  have step : replay env start (.executed t.cpu.pc inst m.cpu.pc true :: events) =
      (.executed (replay env start events).2.cpu inst true :: (replay env start events).1,
        (replay env start events).2.completed inst w.machine) := by
    simp only [replay_cons, replayEvent, again]
  have whole := bare_completed same inst machine
  refine ⟨⟨congrArg (_ :: ·) leads.record, ?_, ?_⟩, fun _ => ?_⟩
  · rw [step, ← pc_of_bare same]
    exact congrArg (_ :: ·) leads.listed
  · rw [step]
    have bus := bus_of_bare (machine_of_bare whole)
    exact congrArg (fun bus : Bus => bus.mem.flat) bus
  · rw [step]
    exact whole

/-- An instruction that traps, whatever is counted and said of it. -/
theorem trapped (leads : LeadsTo env start events t) (live : t.cpu.isHalted = false)
    {inst : Fetched} {err : CpuError}
    {m : Machine} (run : (fetchExecute env t.cpu.pc).run t = .ok (inst, .error err)
      { t with machine := m })
    (record : u.history = .executed t.cpu.pc inst m.cpu.pc false :: t.history)
    (ram : u.mem = m.bus.mem)
    (halted : u.cpu.isHalted = true) :
    LeadsTo env start (.executed t.cpu.pc inst m.cpu.pc false :: events) u := by
  have same := leads.live live
  obtain ⟨w, again, machine⟩ := fetchExecute_of_bare same run
  have step : replay env start (.executed t.cpu.pc inst m.cpu.pc false :: events) =
      (.executed (replay env start events).2.cpu inst false :: (replay env start events).1, w) := by
    simp only [replay_cons, replayEvent, again]
  refine ⟨⟨?_, ?_, ?_⟩, fun live => ?_⟩
  · rw [record, leads.record]
    rfl
  · rw [step, ← pc_of_bare same]
    exact congrArg (_ :: ·) leads.listed
  · rw [step, ram]
    exact congrArg (fun bus : Bus => bus.mem.flat) (bus_of_bare machine)
  · rw [halted] at live
    cases live

theorem interrupted (leads : LeadsTo env start events t) (live : t.cpu.isHalted = false)
    (irq : U32) :
    LeadsTo env start (.interrupted irq t.cpu.pc (t.cpu.handleInterrupt irq).pc :: events)
      (t.interrupted irq) :=
  ⟨⟨congrArg (_ :: ·) leads.record, leads.listed, leads.ram⟩,
    fun _ => bare_interrupted (leads.live live) irq⟩

/-- A change of the debug settings. -/
theorem setting (leads : LeadsTo env start events t) {cpu : Cpu} (bare : cpu.bare = t.cpu.bare) :
    LeadsTo env start events (t.withCpu cpu) := by
  have halted : cpu.isHalted = t.cpu.isHalted := by
    have halted := congrArg Cpu.isHalted bare
    exact halted
  refine ⟨⟨leads.record, leads.listed, leads.ram⟩, fun live => ?_⟩
  exact (leads.live (halted.symm.trans live)).trans (bare_withCpu rfl bare.symm)

/-- The end of a run. -/
theorem stopped (leads : LeadsTo env start events t) :
    LeadsTo env start events (t.withCpu { t.cpu with isHalted := true }) :=
  ⟨⟨leads.record, leads.listed, leads.ram⟩, nofun⟩

end LeadsTo

/-- Some record leads to `t`. -/
def Following (env : Env) (start t : Tracked) : Prop := ∃ events, LeadsTo env start events t

theorem SlicePath.following {watch : Bool} {c d : Cursor} {n : Nat}
    (path : SlicePath env watch c n d)
    (following : Following env start c.state) : Following env start d.state := by
  induction path with
  | start => exact following
  | exec _ step ih =>
    cases step with
    | mk live clear inst m run =>
      obtain ⟨events, leads⟩ := ih
      exact ⟨_, leads.completed live run⟩
  | irq _ step ih =>
    cases step with
    | mk live enabled irq =>
      obtain ⟨events, leads⟩ := ih
      exact ⟨_, leads.interrupted live irq⟩

theorem SliceStop.following {watch : Bool} {c : Cursor} {status : SliceStatus}
    (stop : SliceStop env watch c status t)
    (following : Following env start c.state) : Following env start t := by
  obtain ⟨events, leads⟩ := following
  cases stop with
  | running => exact ⟨_, leads⟩
  | halted => exact ⟨_, leads⟩
  | breakpoint => exact ⟨_, leads.setting rfl⟩
  | trapped live clear inst err m messages run => exact ⟨_, leads.trapped live run rfl rfl rfl⟩

theorem runSlice_following {poll : Nat → Poll} {budget : U32} {out : SliceOutcome}
    (run : (runSlice env poll budget).run t = .ok out u) (following : Following env start t) :
    Following env start u := by
  obtain ⟨events, leads⟩ := following
  obtain ⟨c, path, stop, -⟩ := runSlice_path run
  exact stop.following (path.following ⟨events, leads.setting rfl⟩)

theorem stepInstruction_following {result : StepResult}
    (run : (stepInstruction env).run t = .ok result u)
    (following : Following env start t) : Following env start u := by
  obtain ⟨events, leads⟩ := following
  have entered : LeadsTo env start events t.entry.state := leads.setting rfl
  cases stepInstruction_end run with
  | breakpointHit => exact ⟨_, leads.setting rfl⟩
  | halted => exact ⟨_, entered⟩
  | done clear live inst m fetched => exact ⟨_, entered.completed live fetched⟩
  | trap clear live inst err m messages fetched =>
    exact ⟨_, entered.trapped live fetched rfl rfl rfl⟩

end Replay

end RiscvRs
