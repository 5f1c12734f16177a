import RiscvRs.Exec.Offline
import RiscvRs.Run.Watching
import RiscvRs.Session.Stepping

/-! When a step over is a step. The look that a step over takes at `pc` is a read of four bytes:
in RAM nobody notices it, and in the device window it is one that a plain step does not make. -/

namespace RiscvRs

open Effects Prog Bytes

/-- The same snapshot, and the same processor and memory behind it. -/
def SameResult : Outcome Simulator Empty DebuggerSnapshot →
    Outcome Simulator Empty DebuggerSnapshot → Prop
  | .ok snap s, .ok snap' s' =>
    snap = snap' ∧ s.tracked.cpu = s'.tracked.cpu ∧ s.tracked.mem = s'.tracked.mem
  | .panic, .panic => True
  | _, _ => False

/-- A step over ends and does what a step does. -/
def OverIsStep (env : Env) (polls : Nat → Nat → Poll) (s : Simulator) : Prop :=
  ∃ fuel, SameResult ((debugStepOver env polls fuel).run s) ((debugStep env).run s)

section Instructions

variable {env : Env} {s : Simulator}

/-- What the instruction at `pc` does, as a step executes it. -/
def Simulator.instruction (env : Env) (s : Simulator) :
    Outcome Tracked Empty (Fetched × Except CpuError Unit) :=
  (fetchExecute env s.tracked.cpu.pc).run s.tracked.entry.state

/-- Two instructions that a step shows alike: completed with the same processor and memory,
trapped or panicked. -/
inductive EndsAlike : Outcome Tracked Empty (Fetched × Except CpuError Unit) →
    Outcome Tracked Empty (Fetched × Except CpuError Unit) → Prop where
  | completed {inst inst' : Fetched} {t t' : Tracked} (cpu : t.cpu = t'.cpu)
    (mem : t.mem = t'.mem) :
      EndsAlike (.ok (inst, .ok ()) t) (.ok (inst', .ok ()) t')
  | trapped {inst inst' : Fetched} {err err' : CpuError} {t t' : Tracked} :
      EndsAlike (.ok (inst, .error err) t) (.ok (inst', .error err') t')
  | panicked : EndsAlike .panic .panic

/-- What a step of a live machine that reports nothing shows of its instruction. -/
inductive StepShows (s : Simulator) : Outcome Tracked Empty (Fetched × Except CpuError Unit) →
    Outcome Simulator Empty DebuggerSnapshot → Prop where
  | completed (inst : Fetched) (m : Machine) (s' : Simulator)
    (touched : execFrame.rel s.tracked.entry.state.machine m)
      (cpu : s'.tracked.cpu = m.cpu.countStep) (mem : s'.tracked.mem = m.bus.mem) :
      StepShows s (.ok (inst, .ok ()) { s.tracked.entry.state with machine := m })
        (.ok (m.cpu.countStep.snapshot false 0) s')
  | trapped (inst : Fetched) (err : CpuError) (m : Machine) (s' : Simulator)
      (cpu : s'.tracked.cpu = s.tracked.entry.state.cpu.trap.countStep)
        (mem : s'.tracked.mem = s.tracked.mem) :
      StepShows s (.ok (inst, .error err) { s.tracked.entry.state with machine := m })
        (.ok (s'.tracked.cpu.snapshot false 0) s')
  | panicked : StepShows s .panic .panic

theorem stepShows (env : Env) (live : s.tracked.cpu.isHalted = false)
    (clear : ¬s.tracked.cpu.StepHit) :
    StepShows s (s.instruction env) ((debugStep env).run s) := by
  have alive : ¬s.tracked.cpu.isHalted = true := by simp [live]
  have ends : s.instruction env ≠ .exhausted := fueled_fetchExecute _ _
  have shape : Attempt s.tracked.entry.state s.tracked.entry.state.machine (s.instruction env) :=
    fetchExecute_attempt env _ _
  rw [debugStep_run, stepInstruction_run, if_neg clear, if_neg alive]
  change StepShows s _ (Outcome.reshape ((s.instruction env).andThen _) _ _)
  generalize s.instruction env = outcome at ends shape
  cases shape with
  | done inst m touched =>
    rw [Outcome.andThen_ok, Outcome.reshape_ok]
    by_cases halted : m.cpu.isHalted = true
    · simp only [Tracked.cpu, halted]
      exact .completed inst m _ touched rfl rfl
    · simp only [Tracked.cpu, halted]
      exact .completed inst m _ touched rfl rfl
  | trap inst err m asked =>
    obtain ⟨messages, reported⟩ := reportStepError_run err
      (({ s.tracked.entry.state with machine := m }.log
        (.executed s.tracked.cpu.pc inst m.cpu.pc false)).withCpu
        m.cpu.countStep)
    have cpu : m.cpu = s.tracked.entry.state.cpu := asked.1
    have mem : m.bus.mem = s.tracked.mem := asked.2.1
    rw [Outcome.andThen_ok]
    change StepShows s _
      (((((reportStepError err).run (({ s.tracked.entry.state with machine := m }.log
      (.executed s.tracked.cpu.pc inst m.cpu.pc false)).withCpu m.cpu.countStep)).andThen
        _)).reshape _ _)
    rw [reported, Outcome.andThen_ok, Outcome.reshape_ok]
    refine .trapped inst err m ⟨_, s.symbols⟩ ?_ ?_
    · rw [← cpu]
      rfl
    · exact mem
  | panic => exact .panicked
  | exhausted => exact absurd rfl ends

/-- An instruction that completes does not set the trap mark. -/
theorem untrapped_of_touched {m m' : Machine} (touched : execFrame.rel m m')
    (untrapped : m.cpu.trapped = false) :
    m'.cpu.trapped = false := by
  have trapped : m'.cpu.trapped = m.cpu.trapped :=
    congrArg (·.2.2.2.1) (settings_of_execFrame touched)
  exact trapped.trans untrapped

/-- A live machine is not marked as trapped. -/
theorem untrapped_of_live (stops : s.tracked.cpu.trapped = true → s.tracked.cpu.isHalted = true)
    (live : s.tracked.cpu.isHalted = false) : s.tracked.cpu.trapped = false := by
  by_contra trapped
  have halted : s.tracked.cpu.isHalted = true := stops (by simpa using trapped)
  exact absurd (live.symm.trans halted) Bool.false_ne_true

theorem countStep_inj {c c' : Cpu} (same : c.countStep = c'.countStep) : c = c' := by
  have steps : c.stepCounter = c'.stepCounter := Nat.succ.inj (congrArg Cpu.stepCounter same)
  have back (c : Cpu) : c = { c.countStep with stepCounter := c.stepCounter } := rfl
  rw [back c, back c', same, steps]

/-- The step of a simulator whose host was asked before it shows the same where the instruction ends
alike. -/
theorem sameResult_asked_iff (live : s.tracked.cpu.isHalted = false)
    (clear : ¬s.tracked.cpu.StepHit)
    (untrapped : s.tracked.cpu.trapped = false) (io : List IoEvent) :
    SameResult ((debugStep env).run (s.asked io)) ((debugStep env).run s) ↔
      EndsAlike ((s.asked io).instruction env) (s.instruction env) := by
  have ours := stepShows env live clear
  have theirs : StepShows (s.asked io) ((s.asked io).instruction env)
    ((debugStep env).run (s.asked io)) :=
    stepShows env live clear
  generalize s.instruction env = a, (debugStep env).run s = x, (s.asked io).instruction env = b,
    (debugStep env).run (s.asked io) = y at ours theirs ⊢
  -- the trap mark tells a completed instruction from one that trapped
  cases theirs with
  | completed inst m s₁ touched cpu mem =>
    have plain : m.cpu.trapped = false := untrapped_of_touched touched untrapped
    cases ours with
    | completed inst' m' s₂ touched' cpu' mem' =>
      constructor
      · rintro ⟨-, cpus, mems⟩
        rw [cpu, cpu'] at cpus
        rw [mem, mem'] at mems
        exact .completed (countStep_inj cpus) mems
      · intro alike
        cases alike with
        | completed cpus mems =>
          have cpus : m.cpu = m'.cpu := cpus
          have mems : m.bus.mem = m'.bus.mem := mems
          exact ⟨by rw [cpus], by rw [cpu, cpu', cpus], by rw [mem, mem', mems]⟩
    | trapped inst' err m' s₂ cpu' mem' =>
      refine iff_of_false (fun same => ?_) (fun alike => by cases alike)
      have trapped := congrArg Cpu.trapped same.2.1
      rw [cpu, cpu'] at trapped
      exact absurd (plain.symm.trans trapped) Bool.false_ne_true
    | panicked => exact iff_of_false id (fun alike => by cases alike)
  | trapped inst err m s₁ cpu mem =>
    cases ours with
    | completed inst' m' s₂ touched' cpu' mem' =>
      have plain : m'.cpu.trapped = false := untrapped_of_touched touched' untrapped
      refine iff_of_false (fun same => ?_) (fun alike => by cases alike)
      have trapped := congrArg Cpu.trapped same.2.1
      rw [cpu, cpu'] at trapped
      exact absurd (plain.symm.trans trapped.symm) Bool.false_ne_true
    | trapped inst' err' m' s₂ cpu' mem' =>
      have cpus : s₁.tracked.cpu = s₂.tracked.cpu := by
        rw [cpu, cpu']
        rfl
      refine iff_of_true ⟨by rw [cpus], cpus, ?_⟩ .trapped
      rw [mem, mem']
      rfl
    | panicked => exact iff_of_false id (fun alike => by cases alike)
  | panicked =>
    cases ours with
    | completed => exact iff_of_false id (fun alike => by cases alike)
    | trapped => exact iff_of_false id (fun alike => by cases alike)
    | panicked => exact iff_of_true trivial .panicked

theorem debugStep_hit (hit : s.tracked.cpu.StepHit) :
    (debugStep env).run s = .ok (s.tracked.cpu.snapshot true s.tracked.cpu.pc)
      { s with
        tracked := s.tracked.withCpu
          { s.tracked.cpu with resumePastBreakpoint := some s.tracked.cpu.pc } } := by
  rw [debugStep_run, stepInstruction_run, if_pos hit]
  rfl

theorem debugStep_halted (halted : s.tracked.cpu.isHalted = true) (clear : ¬s.tracked.cpu.StepHit) :
    (debugStep env).run s = .ok (s.tracked.cpu.snapshot false 0)
    { s with tracked := s.tracked.entry.state } := by
  rw [debugStep_run, stepInstruction_run, if_neg clear, if_pos halted]
  rfl

/-- What the host was asked before a step shows at the instruction, or nowhere. -/
theorem debugStep_asked_iff (stops : s.tracked.cpu.trapped = true → s.tracked.cpu.isHalted = true)
    (io : List IoEvent) :
    SameResult ((debugStep env).run (s.asked io)) ((debugStep env).run s) ↔
      s.tracked.cpu.isHalted = true ∨ s.tracked.cpu.StepHit ∨
        EndsAlike ((s.asked io).instruction env) (s.instruction env) := by
  by_cases hit : s.tracked.cpu.StepHit
  · have still : (s.asked io).tracked.cpu.StepHit := hit
    rw [debugStep_hit hit, debugStep_hit still]
    exact iff_of_true ⟨rfl, rfl, rfl⟩ (.inr (.inl hit))
  by_cases halted : s.tracked.cpu.isHalted = true
  · have still : (s.asked io).tracked.cpu.isHalted = true := halted
    have clear : ¬(s.asked io).tracked.cpu.StepHit := hit
    rw [debugStep_halted halted hit, debugStep_halted still clear]
    exact iff_of_true ⟨rfl, rfl, rfl⟩ (.inl halted)
  have live : s.tracked.cpu.isHalted = false := by simpa using halted
  rw [sameResult_asked_iff live hit (untrapped_of_live stops live) io]
  exact ⟨fun alike => .inr (.inr alike),
    fun either => (either.resolve_left halted).resolve_left hit⟩

end Instructions

section Runs

variable {env : Env} {polls : Nat → Nat → Poll} {s : Simulator} {addr : U32} {io : List IoEvent}

/-- A step over that sets its breakpoint elsewhere and runs. -/
structure RunsTo (env : Env) (polls : Nat → Nat → Poll) (s : Simulator) (addr : U32)
    (io : List IoEvent) : Prop where
  apart : addr ≠ s.tracked.cpu.pc
  goes : ∀ fuel, (debugStepOver env polls fuel).run s = (runToTemporary env polls fuel addr).run
    (s.asked io)

/-- The simulator in which that run starts. -/
def Simulator.runningTo (s : Simulator) (addr : U32) (io : List IoEvent) : Simulator :=
  (s.asked io).watching addr

theorem RunsTo.ran (runs : RunsTo env polls s addr io) (fuel : Nat) :
    (debugStepOver env polls fuel).run s =
      ((runUntilBreakpoint env polls fuel 0).run (s.runningTo addr io)).andThen fun snap s' =>
        .ok snap (s'.restoring s.tracked.cpu.breakpoints) :=
  (runs.goes fuel).trans (runToTemporary_run _ _)

theorem RunsTo.stepHit (runs : RunsTo env polls s addr io) :
    (s.runningTo addr io).tracked.cpu.StepHit ↔ s.tracked.cpu.StepHit :=
      watching_stepHit (s.asked io) runs.apart

theorem RunsTo.of_slice {out : SliceOutcome} {t : Tracked} (runs : RunsTo env polls s addr io)
    (sliced : (runSlice env (polls 0) 0xFFFFFFFF).run (s.runningTo addr io).tracked = .ok out t)
    (ended : out.status ≠ .running)
    (same : SameResult (.ok (out.shown t.cpu)
      (Simulator.restoring ⟨t, s.symbols⟩ s.tracked.cpu.breakpoints))
      ((debugStep env).run s)) : OverIsStep env polls s := by
  refine ⟨1, ?_⟩
  rw [runs.ran, runUntilBreakpoint_once sliced ended, Outcome.andThen_ok]
  exact same

/-- What the run did, if it did what the step does. -/
theorem RunsTo.agreed {snap : DebuggerSnapshot} {s₁ : Simulator} (runs : RunsTo env polls s addr io)
    (agrees : OverIsStep env polls s) (step : (debugStep env).run s = .ok snap s₁) :
    ∃ fuel s₂, (runUntilBreakpoint env polls fuel 0).run (s.runningTo addr io) = .ok snap s₂ ∧
      { s₂.tracked.cpu with breakpoints := s.tracked.cpu.breakpoints } = s₁.tracked.cpu ∧
      s₂.tracked.mem = s₁.tracked.mem := by
  obtain ⟨fuel, same⟩ := agrees
  rw [runs.ran, step] at same
  cases run : (runUntilBreakpoint env polls fuel 0).run (s.runningTo addr io) with
  | ok snap' s₂ =>
    rw [run, Outcome.andThen_ok] at same
    obtain ⟨rfl, cpu, mem⟩ := same
    exact ⟨fuel, s₂, run, cpu, mem⟩
  | err e s₂ => exact e.elim
  | panic =>
    rw [run] at same
    exact same.elim
  | exhausted =>
    rw [run] at same
    exact same.elim

/-- An interrupt at the first poll makes a difference, whether the step reports a breakpoint or
stops. -/
theorem RunsTo.quiet {snap : DebuggerSnapshot} {s₁ : Simulator} (runs : RunsTo env polls s addr io)
    (agrees : OverIsStep env polls s) (live : s.tracked.cpu.isHalted = false)
    (step : (debugStep env).run s = .ok snap s₁) (csrs : s₁.tracked.cpu.csrs = s.tracked.cpu.csrs)
    (few : s₁.tracked.cpu.stepCounter = s.tracked.cpu.stepCounter ∨
      s₁.tracked.cpu.stepCounter = s.tracked.cpu.stepCounter + 1 ∧ snap.isBreakpoint = false ∧
        s₁.tracked.cpu.trapped = false) : (polls 0 0).delivers s.tracked.cpu = false := by
  obtain ⟨fuel, s₂, run, cpu, -⟩ := runs.agreed agrees step
  rw [← cpu] at csrs few
  by_contra awake
  have delivers : (polls 0 0).delivers s.tracked.cpu = true := by simpa using awake
  have masked := runUntilBreakpoint_interrupted (s := s.runningTo addr io) live delivers run few
  have enabled := interruptsEnabled_of_delivers delivers
  have same : s₂.tracked.cpu.csrs = s.tracked.cpu.csrs := csrs
  rw [Cpu.interruptsEnabled, same] at masked
  exact absurd (masked.symm.trans enabled) (by decide)

theorem RunsTo.halted_iff (runs : RunsTo env polls s addr io)
    (halted : s.tracked.cpu.isHalted = true) :
    OverIsStep env polls s ↔ ¬s.tracked.cpu.StepHit := by
  have stays : (s.runningTo addr io).tracked.cpu.isHalted = true := halted
  constructor
  · intro agrees hit
    obtain ⟨fuel, s₂, run, -⟩ := runs.agreed agrees (debugStep_hit hit)
    cases fuel with
    | zero => cases run
    | succ fuel =>
      have stopped := runUntilBreakpoint_halted env stays polls fuel 0 s.symbols
      obtain ⟨shown, -⟩ := Outcome.ok.inj (stopped.symm.trans run)
      exact absurd (congrArg DebuggerSnapshot.isBreakpoint shown) Bool.false_ne_true
  · intro clear
    refine runs.of_slice (runSlice_halted env stays (polls 0) 0xFFFFFFFF) SliceStatus.noConfusion ?_
    rw [debugStep_halted halted clear]
    exact ⟨rfl, rfl, rfl⟩

theorem RunsTo.hit_iff (runs : RunsTo env polls s addr io) (live : s.tracked.cpu.isHalted = false)
    (hit : s.tracked.cpu.StepHit) :
    OverIsStep env polls s ↔ (polls 0 0).delivers s.tracked.cpu = false := by
  constructor
  · exact fun agrees => runs.quiet agrees live (debugStep_hit hit) rfl (.inl rfl)
  · intro quiet
    have sliced : (runSlice env (polls 0) 0xFFFFFFFF).run (s.runningTo addr io).tracked = _ :=
      runSlice_hit live (by decide) quiet (runs.stepHit.mpr hit)
    refine runs.of_slice sliced SliceStatus.noConfusion ?_
    rw [debugStep_hit hit]
    exact ⟨rfl, rfl, rfl⟩

theorem cpu_ext {c c' : Cpu} (bare : c.bare = c'.bare) (settings : c.settings = c'.settings) :
    c = c' := by
  have back (c : Cpu) : c = { c.bare with
    debugEnabled := c.settings.1, breakpoints := c.settings.2.1,
      resumePastBreakpoint := c.settings.2.2.2.2 } := rfl
  rw [back c, back c', bare, settings]

/-- The instruction at `pc` does not see the breakpoint of the run. -/
theorem alike_runningTo (env : Env) (s : Simulator) (addr : U32) (io : List IoEvent) :
    ((s.runningTo addr io).instruction env).Alike Tracked.bare ((s.asked io).instruction env) := by
  have blind := (blind_fetchExecute seesCpu_bare (seesBus_id env.host) s.tracked.cpu.pc).congr
    tracked_bare_iff_seen
  exact blind _ _ rfl

/-- An instruction that completes and stops the machine leaves the control registers, the step
counter and the trap mark as they were. -/
theorem halting_keeps {inst : Fetched} {m : Machine} (live : s.tracked.cpu.isHalted = false)
    (completed : s.instruction env = .ok (inst, .ok ()) { s.tracked.entry.state with machine := m })
    (touched : execFrame.rel s.tracked.entry.state.machine m) (halted : m.cpu.isHalted = true) :
    m.cpu.csrs = s.tracked.cpu.csrs ∧ m.cpu.stepCounter = s.tracked.cpu.stepCounter ∧
      m.cpu.trapped = s.tracked.cpu.trapped :=
  ⟨csrs_of_halting (t := s.tracked.entry.state) live completed halted,
    (stepCounter_of_execFrame touched).trans rfl, congrArg (·.2.2.2.1) (settings_of_execFrame touched)⟩

/-- Where the instruction of the step completes and the step over does the same, the instruction
stops the machine and the run begins with the same instruction. -/
theorem RunsTo.begins {inst : Fetched} {m : Machine} (runs : RunsTo env polls s addr io)
    (live : s.tracked.cpu.isHalted = false) (clear : ¬s.tracked.cpu.StepHit)
    (untrapped : s.tracked.cpu.trapped = false)
    (completed : s.instruction env = .ok (inst, .ok ()) { s.tracked.entry.state with machine := m })
    (agrees : OverIsStep env polls s) :
    m.cpu.isHalted = true ∧ (polls 0 0).delivers s.tracked.cpu = false ∧
      EndsAlike ((s.asked io).instruction env) (s.instruction env) := by
  have shows := stepShows env live clear
  rw [completed] at shows ⊢
  generalize step : (debugStep env).run s = shown at shows
  cases shows with
  | completed _ _ s₁ touched cpu mem =>
  obtain ⟨fuel, s₂, run, cpus, mems⟩ := runs.agreed agrees step
  have halted : m.cpu.isHalted = true := by
    rcases runUntilBreakpoint_stops run with reported | stopped
    · cases reported
    · exact stopped
  obtain ⟨csrs, steps, marks⟩ := halting_keeps live completed touched halted
  have plain : m.cpu.trapped = false := marks.trans untrapped
  rw [cpu] at cpus
  rw [mem] at mems
  have few : s₂.tracked.cpu.stepCounter = s.tracked.cpu.stepCounter + 1 := by
    have counted := congrArg Cpu.stepCounter cpus
    exact counted.trans (congrArg Nat.succ steps)
  have quiet : (polls 0 0).delivers s.tracked.cpu = false := by
    refine runs.quiet agrees live step ?_ (.inr ⟨?_, rfl, ?_⟩)
    · rw [cpu]
      exact csrs
    · rw [cpu]
      exact congrArg Nat.succ steps
    · rw [cpu]
      exact plain
  refine ⟨halted, quiet, ?_⟩
  have unmarked : s₂.tracked.cpu.trapped = false := by
    have marked := congrArg Cpu.trapped cpus
    exact marked.trans plain
  obtain ⟨count, c, path, kept, spent, short⟩ :=
    runUntilBreakpoint_first (s := s.runningTo addr io) live run (.inr ⟨few, rfl, unmarked⟩)
  have still : (s.runningTo addr io).tracked.entry.state.polled (polls 0 0) =
    (s.runningTo addr io).tracked.entry.state :=
    if_neg (Bool.not_eq_true _ ▸ quiet)
  rw [still] at path
  have total : s₂.tracked.cpu.stepCounter = s.tracked.cpu.stepCounter + count := spent
  rcases short with none | ⟨rfl, stopped, last⟩
  · omega
  have unmasked : c.state.cpu.csrs = s.tracked.cpu.csrs := by
    have same := congrArg Cpu.csrs cpus
    exact kept.symm.trans (same.trans csrs)
  cases path.only live stopped unmasked with
  | mk alive passed inst' m' ran =>
    have alike := alike_runningTo env s addr io
    rw [show (s.runningTo addr io).instruction env = _ from ran] at alike
    generalize asked : (s.asked io).instruction env = other at alike ⊢
    cases alike with
    | @ok _ _ t seen =>
      have after : s₂.tracked.cpu = m'.cpu.countStep := congrArg Tracked.cpu last
      rw [after] at cpus
      have bare : m'.cpu.bare = m.cpu.bare := countStep_inj (congrArg Cpu.bare cpus)
      refine .completed (cpu_ext ((trackedCpu_of_bare seen).symm.trans bare) ?_) ?_
      · exact (settings_of_execFrame (touched_of_run asked)).trans
          (settings_of_execFrame touched).symm
      · have bus : m'.bus = t.machine.bus := bus_of_bare (machine_of_bare seen)
        have memory : s₂.tracked.mem = m'.bus.mem := congrArg Tracked.mem last
        exact (congrArg Bus.mem bus).symm.trans (memory.symm.trans mems)

/-- The other way round. -/
theorem RunsTo.of_begins {inst : Fetched} {m : Machine} (runs : RunsTo env polls s addr io)
    (live : s.tracked.cpu.isHalted = false) (clear : ¬s.tracked.cpu.StepHit)
    (completed : s.instruction env = .ok (inst, .ok ()) { s.tracked.entry.state with machine := m })
    (halted : m.cpu.isHalted = true) (quiet : (polls 0 0).delivers s.tracked.cpu = false)
    (alike : EndsAlike ((s.asked io).instruction env) (s.instruction env)) :
    OverIsStep env polls s := by
  have shows := stepShows env live clear
  have watched := alike_runningTo env s addr io
  have shape : Attempt (s.runningTo addr io).tracked.entry.state
    (s.runningTo addr io).tracked.entry.state.machine
      ((s.runningTo addr io).instruction env) := fetchExecute_attempt env _ _
  rw [completed] at shows alike
  generalize step : (debugStep env).run s = shown at shows
  generalize (s.asked io).instruction env = other at alike watched
  generalize ran : (s.runningTo addr io).instruction env = outcome at watched shape
  cases shows with
  | completed _ _ s₁ touched cpu mem =>
  cases alike with
  | @completed inst' _ t _ cpus mems =>
  cases watched with
  | ok _ seen =>
  cases shape with
  | done _ m' moved =>
    have bare : m'.cpu.bare = m.cpu.bare := (trackedCpu_of_bare seen).trans (congrArg Cpu.bare cpus)
    have stopped : m'.cpu.isHalted = true := by
      have same := congrArg Cpu.isHalted bare
      exact same.trans halted
    have passed : ¬(s.runningTo addr io).tracked.cpu.StepHit := mt runs.stepHit.mp clear
    have sliced : (runSlice env (polls 0) 0xFFFFFFFF).run (s.runningTo addr io).tracked = _ :=
      runSlice_stopped live (by decide) quiet passed ran stopped
    have restored : { m'.cpu with breakpoints := s.tracked.cpu.breakpoints } = m.cpu := by
      refine cpu_ext bare ?_
      change (m'.cpu.settings.1, s.tracked.cpu.breakpoints, m'.cpu.settings.2.2) = _
      rw [settings_of_execFrame moved, settings_of_execFrame touched]
      rfl
    refine runs.of_slice sliced SliceStatus.noConfusion ?_
    rw [step]
    refine ⟨?_, ?_, ?_⟩
    · change ({ m'.cpu with breakpoints := s.tracked.cpu.breakpoints } : Cpu).countStep.snapshot
        false 0 = _
      rw [restored]
    · change ({ m'.cpu with breakpoints := s.tracked.cpu.breakpoints } : Cpu).countStep = _
      rw [restored, cpu]
    · have bus : m'.bus = t.machine.bus := bus_of_bare (machine_of_bare seen)
      have memory : t.mem = m.bus.mem := mems
      rw [mem, ← memory]
      exact congrArg Bus.mem bus

end Runs

section Hosts

variable {env : Env} {polls : Nat → Nat → Poll} {s : Simulator} {window : U32} {io : List IoEvent}

/-- What a run to the address after the instruction has to do to be the step. It ends at a
breakpoint or on a machine that stopped: so the instruction has to stop the machine, undisturbed and
answered as before, or else it traps or panics and so does the run. -/
def RunMeets (env : Env) (polls : Nat → Nat → Poll) (s : Simulator) (addr : U32)
    (io : List IoEvent) : Prop :=
  match s.instruction env with
  | .ok (_, .ok _) t => t.cpu.isHalted = true ∧ (polls 0 0).delivers s.tracked.cpu = false ∧
      EndsAlike ((s.asked io).instruction env) (s.instruction env)
  | _ =>
    ∃ fuel, SameResult ((runToTemporary env polls fuel addr).run (s.asked io))
      ((debugStep env).run s)

/-- When a step over is a step, by what the look at `pc` gives and leaves behind. -/
def OverMeets (env : Env) (polls : Nat → Nat → Poll) (s : Simulator) (window : U32)
    (io : List IoEvent) : Prop :=
  if isCallInstruction window = true then
    if s.Wraps env window then
      s.tracked.cpu.isHalted = false ∧ ¬s.tracked.cpu.StepHit ∧ s.instruction env = .panic
    else if s.tracked.cpu.isHalted = true then ¬s.tracked.cpu.StepHit
    else if s.tracked.cpu.StepHit then (polls 0 0).delivers s.tracked.cpu = false
    else RunMeets env polls s (s.tracked.cpu.pc + windowLength window) io
  else
    s.tracked.cpu.isHalted = true ∨ s.tracked.cpu.StepHit ∨
      EndsAlike ((s.asked io).instruction env) (s.instruction env)

theorem sameResult_panic_iff (shown : Outcome Simulator Empty DebuggerSnapshot) :
    SameResult .panic shown ↔ shown = .panic := by
  cases shown <;> simp [SameResult]

theorem debugStep_panics_iff :
    (debugStep env).run s = .panic ↔
      s.tracked.cpu.isHalted = false ∧ ¬s.tracked.cpu.StepHit ∧ s.instruction env = .panic := by
  by_cases hit : s.tracked.cpu.StepHit
  · rw [debugStep_hit hit]
    exact iff_of_false (fun same => by cases same) fun panics => panics.2.1 hit
  by_cases halted : s.tracked.cpu.isHalted = true
  · rw [debugStep_halted halted hit]
    refine iff_of_false (fun same => by cases same) fun panics => ?_
    exact absurd (panics.1.symm.trans halted) (by decide)
  have live : s.tracked.cpu.isHalted = false := by simpa using halted
  have shows := stepShows env live hit
  generalize (debugStep env).run s = shown, s.instruction env = outcome at shows
  cases shows with
  | completed => simp
  | trapped => simp
  | panicked => exact iff_of_true rfl ⟨live, hit, rfl⟩

theorem overIsStep_iff (look : s.Looks env window io)
    (stops : s.tracked.cpu.trapped = true → s.tracked.cpu.isHalted = true) :
    OverIsStep env polls s ↔ OverMeets env polls s window io := by
  have looked (fuel : Nat) : (debugStepOver env polls fuel).run s = _ := debugStepOver_looked look
  unfold OverMeets
  by_cases call : isCallInstruction window = true
  · simp only [if_pos call] at looked ⊢
    by_cases wraps : s.Wraps env window
    · simp only [if_pos wraps] at looked ⊢
      rw [← debugStep_panics_iff, ← sameResult_panic_iff]
      unfold OverIsStep
      simp only [looked, exists_const]
    · simp only [if_neg wraps] at looked ⊢
      have runs : RunsTo env polls s (s.tracked.cpu.pc + windowLength window) io :=
        ⟨after_ne _ _, looked⟩
      by_cases halted : s.tracked.cpu.isHalted = true
      · rw [if_pos halted, runs.halted_iff halted]
      have live : s.tracked.cpu.isHalted = false := by simpa using halted
      rw [if_neg halted]
      by_cases hit : s.tracked.cpu.StepHit
      · rw [if_pos hit, runs.hit_iff live hit]
      have other : OverIsStep env polls s ↔ ∃ fuel, SameResult
          ((runToTemporary env polls fuel (s.tracked.cpu.pc + windowLength window)).run (s.asked io))
          ((debugStep env).run s) := by
        unfold OverIsStep
        simp only [looked]
      have shape : Attempt s.tracked.entry.state s.tracked.entry.state.machine
        (s.instruction env) :=
        fetchExecute_attempt env _ _
      rw [if_neg hit, RunMeets]
      generalize ran : s.instruction env = outcome at shape
      cases shape with
      | done inst m touched =>
        constructor
        · intro agrees
          have begins := runs.begins live hit (untrapped_of_live stops live) ran agrees
          rw [ran] at begins
          exact begins
        · rintro ⟨stopped, quiet, alike⟩
          exact runs.of_begins live hit ran stopped quiet (ran.symm ▸ alike)
      | trap => exact other
      | panic => exact other
      | exhausted => exact other
  · simp only [if_neg call] at looked ⊢
    rw [← debugStep_asked_iff stops io]
    unfold OverIsStep
    simp only [looked, exists_const]

end Hosts

section Unseen

variable {env : Env} {polls : Nat → Nat → Poll} {s : Simulator} {window : U32} {io : List IoEvent}

/-- The host cannot answer a step over and a step differently: the look at `pc` lies in RAM, or the
instruction is a halfword in RAM whose own access lies there too. -/
def Simulator.Unseen (env : Env) (s : Simulator) : Prop :=
  s.tracked.cpu.pc.toNat + 4 ≤ 0xFFFF0000 ∨
    s.tracked.cpu.pc.toNat + 2 ≤ 0xFFFF0000 ∧
      ∃ inst, s.tracked.mem.instAt s.tracked.cpu.pc = .half inst ∧
      (((Fetched.half inst).op env s.tracked.cpu).access s.tracked.cpu).InRam

theorem ofWindow_half {window : U32} {inst : U16} (same : Fetched.ofWindow window = .half inst) :
    window &&& 0x3 ≠ 0x3 ∧ window.setWidth 16 = inst := by
  unfold Fetched.ofWindow at same
  split at same
  · cases same
  · next narrow => exact ⟨narrow, Fetched.half.inj same⟩

/-- In RAM the look gives the word there, and asks no device. -/
theorem Simulator.Looks.whole (look : s.Looks env window io)
    (below : s.tracked.cpu.pc.toNat + 4 ≤ 0xFFFF0000) :
    s.tracked.machine.bus.mem.wordAt s.tracked.cpu.pc = window ∧
      s.tracked.machine.bus = s.tracked.machine.bus.withIo io :=
  have read := readU32_below (ε := Empty) env.host s.tracked.machine.bus below
  Outcome.ok.inj (read.symm.trans look)

/-- The low half of four bytes of which at least two are RAM. -/
theorem Simulator.Looks.low (look : s.Looks env window io)
    (below : s.tracked.cpu.pc.toNat + 2 ≤ 0xFFFF0000) :
    window.setWidth 16 = (s.tracked.mem.wordAt s.tracked.cpu.pc).setWidth 16 := by
  have first (tail : List U8) (k : Nat) :
      leNat (span s.tracked.mem.flat s.tracked.cpu.pc (k + 2) ++ tail) % 2 ^ 16 =
        leNat (span s.tracked.mem.flat s.tracked.cpu.pc 4) % 2 ^ 16 := by
    have b0 := (s.tracked.mem.flat s.tracked.cpu.pc).isLt
    have b1 := (s.tracked.mem.flat (s.tracked.cpu.pc + 1)).isLt
    simp only [span, List.cons_append, leNat]
    omega
  rcases window_cases s.tracked.cpu.pc 4 with whole | past | ⟨k, edge, front, short⟩
  · rw [← (look.whole whole).1]
    rfl
  · omega
  · obtain ⟨j, rfl⟩ : ∃ j, k = j + 2 := ⟨k - 2, by omega⟩
    obtain ⟨val, read, value⟩ :=
      readAt_straddle (ε := Empty) env.host s.tracked.machine.bus .word edge front short
    have same : val = window := (Outcome.ok.inj (read.symm.trans look)).1
    have bytes : window.toNat = leNat (span s.tracked.mem.flat s.tracked.cpu.pc (j + 2) ++ _) :=
      (congrArg (fun word : U32 => word.toNat) same.symm).trans value
    apply BitVec.eq_of_toNat_eq
    rw [BitVec.toNat_setWidth, BitVec.toNat_setWidth, bytes, first, Memory.wordAt,
      BitVec.toNat_ofNat]
    omega

/-- The look shows the instruction. -/
theorem Simulator.Looks.instAt (look : s.Looks env window io) (unseen : s.Unseen env) :
    Fetched.ofWindow window = s.tracked.mem.instAt s.tracked.cpu.pc := by
  rcases unseen with below | ⟨below, inst, half, -⟩
  · rw [← (look.whole below).1]
    rfl
  · have low := look.low below
    obtain ⟨narrow, same⟩ := ofWindow_half half
    have quadrant : (window &&& 0x3).toNat =
      (s.tracked.mem.wordAt s.tracked.cpu.pc &&& 0x3).toNat := by
      rw [← low_quadrant, ← low_quadrant, low]
    have still : window &&& 0x3 ≠ 0x3 :=
      fun wide => narrow (BitVec.eq_of_toNat_eq (quadrant ▸ congrArg BitVec.toNat wide))
    rw [half, Fetched.ofWindow, if_neg still, low, same]

/-- What fetching finds in memory. -/
theorem Simulator.Unseen.fetched (unseen : s.Unseen env) :
    (fetch env.host s.tracked.cpu.pc).run s.tracked.machine.bus =
      .ok (s.tracked.mem.instAt s.tracked.cpu.pc) s.tracked.machine.bus := by
  rcases unseen with below | ⟨below, inst, half, -⟩
  · exact fetch_instAt env.host s.tracked.machine.bus below
  · obtain ⟨narrow, same⟩ := ofWindow_half half
    rw [half, ← same]
    exact fetch_narrow env.host s.tracked.machine.bus below narrow

/-- A step executes the instruction in memory. -/
theorem Simulator.Unseen.instruction (unseen : s.Unseen env) :
    s.instruction env = ((attempt ((s.tracked.mem.instAt s.tracked.cpu.pc).execute env) :
      Prog Machine Empty _).run
        s.tracked.entry.state.machine).reshape
      (fun result m => .ok (s.tracked.mem.instAt s.tracked.cpu.pc, result)
        { s.tracked.entry.state with machine := m })
      (fun e _ => e.elim) := fetchExecute_of_fetch (t := s.tracked.entry.state) unseen.fetched

theorem Simulator.Unseen.completed {m : Machine} (unseen : s.Unseen env)
    (run : ((s.tracked.mem.instAt s.tracked.cpu.pc).execute env).run s.tracked.entry.state.machine =
      .ok () m) :
    s.instruction env =
      .ok (s.tracked.mem.instAt s.tracked.cpu.pc, .ok ())
        { s.tracked.entry.state with machine := m } := by
  rw [unseen.instruction, run_attempt, run]
  rfl

/-- An instruction ends, and ends like itself. -/
theorem endsAlike_self (env : Env) (s : Simulator) :
    EndsAlike (s.instruction env) (s.instruction env) := by
  have ends : s.instruction env ≠ .exhausted := fueled_fetchExecute _ _
  have shape : Attempt s.tracked.entry.state s.tracked.entry.state.machine (s.instruction env) :=
    fetchExecute_attempt env _ _
  generalize s.instruction env = outcome at ends shape
  cases shape with
  | done => exact .completed rfl rfl
  | trap => exact .trapped
  | panic => exact .panicked
  | exhausted => exact absurd rfl ends

/-- The instruction does not notice the look. -/
theorem Simulator.Unseen.endsAlike (unseen : s.Unseen env) (look : s.Looks env window io) :
    EndsAlike ((s.asked io).instruction env) (s.instruction env) := by
  have ends : s.instruction env ≠ .exhausted := fueled_fetchExecute _ _
  have later : (s.asked io).Unseen env := unseen
  rcases unseen with below | ⟨below, inst, half, inRam⟩
  · rw [Simulator.asked, ← (look.whole below).2]
    exact endsAlike_self env s
  · have here : s.Unseen env := .inr ⟨below, inst, half, inRam⟩
    have alike : (((Fetched.half inst).execute env).run
        (s.asked io).tracked.entry.state.machine).Alike _
        (((Fetched.half inst).execute env).run s.tracked.entry.state.machine) :=
      alike_half rfl rfl inRam
    have found : (s.asked io).tracked.mem.instAt (s.asked io).tracked.cpu.pc = .half inst := half
    rw [here.instruction] at ends
    rw [here.instruction, later.instruction, found, half, run_attempt, run_attempt]
    rw [half, run_attempt] at ends
    generalize ((Fetched.half inst).execute env).run (s.asked io).tracked.entry.state.machine = a,
      ((Fetched.half inst).execute env).run s.tracked.entry.state.machine = b at alike ends
    cases alike with
    | ok _ seen => exact .completed (congrArg Prod.fst seen) (congrArg Prod.snd seen)
    | err e seen => exact .trapped
    | panic => exact .panicked
    | exhausted => exact absurd rfl ends

end Unseen

section Agreement

variable {env : Env} {polls : Nat → Nat → Poll} {s : Simulator} {window : U32} {io : List IoEvent}

/-- When a step over is a step that no device answers: the classifier is not mistaken, or the
mistake does not show, because nothing runs or because what runs stops the machine by itself. -/
def OverMeetsStep (answer : Poll) (s : Simulator) : Prop :=
  ¬(s.tracked.mem.instAt s.tracked.cpu.pc).Mistaken ∨
    (s.tracked.cpu.isHalted = true ∧ ¬s.tracked.cpu.StepHit) ∨
    (s.tracked.cpu.isHalted = false ∧ answer.delivers s.tracked.cpu = false ∧
      (s.tracked.cpu.StepHit ∨ (s.tracked.mem.instAt s.tracked.cpu.pc).isEbreak16))

/-- The address after the instruction is no further than the start of the window. -/
theorem Simulator.Unseen.fits (unseen : s.Unseen env) (look : s.Looks env window io) :
    ¬s.Wraps env window := by
  rintro ⟨-, past⟩
  have short : (windowLength window).toNat ≤ 4 := by
    unfold windowLength
    split <;> decide
  have same := look.instAt unseen
  rcases unseen with below | ⟨below, inst, half, -⟩
  · omega
  · obtain ⟨narrow, -⟩ := ofWindow_half (same.trans half)
    rw [windowLength, if_neg narrow] at past
    change 2 ^ 32 ≤ s.tracked.cpu.pc.toNat + 2 at past
    omega

/-- A mistaken instruction that runs: `C.EBREAK` stops the machine, `C.ADD` does not. -/
theorem runMeets_iff {addr : U32} (unseen : s.Unseen env) (look : s.Looks env window io)
    (mistaken : (s.tracked.mem.instAt s.tracked.cpu.pc).Mistaken)
    (live : s.tracked.cpu.isHalted = false) :
    RunMeets env polls s addr io ↔ (polls 0 0).delivers s.tracked.cpu = false ∧
      (s.tracked.mem.instAt s.tracked.cpu.pc).isEbreak16 := by
  have alike := unseen.endsAlike look
  rw [RunMeets]
  by_cases ebreak : (s.tracked.mem.instAt s.tracked.cpu.pc).isEbreak16
  · rw [unseen.completed (execute_ebreak16 env ebreak _)] at alike ⊢
    exact ⟨fun meets => ⟨meets.2.1, ebreak⟩, fun quiet => ⟨rfl, quiet.1, alike⟩⟩
  · obtain ⟨m, executed, alive⟩ := execute_add16 env mistaken ebreak s.tracked.entry.state.machine
    rw [unseen.completed executed]
    refine iff_of_false (fun meets => ?_) fun meets => ebreak meets.2
    have stopped : m.cpu.isHalted = true := meets.1
    exact absurd (stopped.symm.trans (alive.trans live)) (by decide)

theorem overMeets_iff (unseen : s.Unseen env) (look : s.Looks env window io)
    (plain : ¬(s.tracked.mem.instAt s.tracked.cpu.pc).LinkingCall) :
    OverMeets env polls s window io ↔ OverMeetsStep (polls 0 0) s := by
  unfold OverMeets OverMeetsStep
  have call : isCallInstruction window = true ↔
    (s.tracked.mem.instAt s.tracked.cpu.pc).Mistaken := by
    rw [isCallInstruction_iff, look.instAt unseen]
    exact or_iff_right plain
  by_cases mistaken : (s.tracked.mem.instAt s.tracked.cpu.pc).Mistaken
  · rw [if_pos (call.mpr mistaken), if_neg (unseen.fits look)]
    by_cases halted : s.tracked.cpu.isHalted = true
    · simp [mistaken, halted]
    have live : s.tracked.cpu.isHalted = false := by simpa using halted
    rw [if_neg halted]
    by_cases hit : s.tracked.cpu.StepHit
    · simp [mistaken, live, hit]
    · rw [if_neg hit, runMeets_iff unseen look mistaken live]
      simp [mistaken, live, hit]
  · rw [if_neg (mt call.mp mistaken)]
    exact iff_of_true (.inr (.inr (unseen.endsAlike look))) (.inl mistaken)

/-- Stepping over an instruction that is no linking call is stepping, exactly when the classifier
does not take it for one or the mistake does not show; and where devices answer, exactly when what
the host says to the look, and after it, comes to the same. -/
theorem step_over_is_step_iff (env : Env) (polls : Nat → Nat → Poll) (s : Simulator)
    (stops : s.tracked.cpu.trapped = true → s.tracked.cpu.isHalted = true) :
    (s.Unseen env → ¬(s.tracked.mem.instAt s.tracked.cpu.pc).LinkingCall →
      (OverIsStep env polls s ↔ OverMeetsStep (polls 0 0) s)) ∧
    (OverIsStep env polls s ↔ ∃ window io, s.Looks env window io ∧
      OverMeets env polls s window io) := by
  obtain ⟨window, io, look⟩ := s.looks env
  constructor
  · intro unseen plain
    rw [overIsStep_iff look stops, overMeets_iff unseen look plain]
  · constructor
    · exact fun agrees => ⟨window, io, look, (overIsStep_iff look stops).mp agrees⟩
    · rintro ⟨window', io', look', meets⟩
      exact (overIsStep_iff look' stops).mpr meets

-- In the device window the look at `pc` is an access of its own. This device gives out `c.nop`
-- first and `c.addi a0, 1` from then on.
example :
    let env : Env := { (default : Env) with host.readMmio := fun io _ _ =>
      if io = [] then 0x0001 else 0x0505 }
    let s : Simulator := Simulator.new
    let t : Tracked := s.tracked.withCpu { s.tracked.cpu with pc := 0xFFFF0000 }
    ∃ snap s₁ snap' s₂, (debugStepOver env (fun _ _ => default) 1).run ⟨t, s.symbols⟩ = .ok snap s₁ ∧
      (debugStep env).run ⟨t, s.symbols⟩ = .ok snap' s₂ ∧ s₁.tracked.cpu.regs 10 = 1 ∧
        s₂.tracked.cpu.regs 10 = 0 :=
  ⟨_, _, _, _, rfl, rfl, rfl, rfl⟩

/-- The last halfword of RAM is `c.addi a0, 1`, and behind it are devices. -/
def Simulator.atEdge : Simulator :=
  let bus : Bus := ⟨(Memory.new.store 0xFFFEFFFE 0x05).store 0xFFFEFFFF 0x05, ⟨[], []⟩⟩
  { Simulator.new with tracked := ⟨⟨{ Cpu.new with pc := 0xFFFEFFFE }, bus⟩, []⟩ }

/-- `C.EBREAK` is taken for a call, and a step over still is a step; so it is over the last halfword
of RAM, where the look reaches the devices. -/
theorem step_over_is_step_iff_ebreak :
    (Memory.instAt (Simulator.debugging [0x02, 0x90] ∅).tracked.mem 0).Mistaken ∧
      OverIsStep default (fun _ _ => default) (.debugging [0x02, 0x90] ∅) ∧
      OverIsStep default (fun _ _ => default) .atEdge := by
  have inst : Memory.instAt (Simulator.debugging [0x02, 0x90] ∅).tracked.mem 0 = .half 0x9002 := by
    rfl
  have ebreak : (Fetched.half 0x9002).isEbreak16 := by
    unfold Fetched.isEbreak16
    decide
  have plain : ¬(Fetched.half 0x9002).LinkingCall := by
    unfold Fetched.LinkingCall
    decide
  have edge : Simulator.atEdge.tracked.mem.instAt 0xFFFEFFFE = .half 0x0505 := by rfl
  have adds : ¬(Fetched.half 0x0505).LinkingCall ∧ ¬(Fetched.half 0x0505).Mistaken := by
    unfold Fetched.LinkingCall Fetched.Mistaken
    decide
  refine ⟨by rw [inst]; exact ⟨ebreak.1, .inl ebreak.2.1⟩, ?_, ?_⟩
  · refine ((step_over_is_step_iff default (fun _ _ => default) (.debugging [0x02, 0x90] ∅)
      fun trapped => ?_).1
      (.inl (by decide)) ?_).mpr (.inr (.inr ⟨rfl, rfl, .inr ?_⟩))
    · cases trapped
    · exact inst ▸ plain
    · exact inst ▸ ebreak
  · refine ((step_over_is_step_iff default (fun _ _ => default) .atEdge fun trapped => ?_).1
      (.inr ⟨by decide, 0x0505, edge, by decide⟩) ?_).mpr (.inl ?_)
    · cases trapped
    · exact edge ▸ adds.1
    · exact edge ▸ adds.2

/-- A step over `c.add a0, a0` with no breakpoint set runs to a breakpoint of its own and
reports it. The step reports none. -/
theorem step_over_add_reports :
    ∃ snap s₁ snap' s₂, ¬(Memory.instAt (Simulator.debugging [0x2A, 0x95] ∅).tracked.mem
      0).LinkingCall ∧
      (debugStepOver default (fun _ _ => default) 1).run (.debugging [0x2A, 0x95] ∅) = .ok snap s₁ ∧
      (debugStep default).run (.debugging [0x2A, 0x95] ∅) = .ok snap' s₂ ∧
      snap.isBreakpoint = true ∧ snap'.isBreakpoint = false ∧
      ¬OverIsStep default (fun _ _ => default) (.debugging [0x2A, 0x95] ∅) := by
  have inst : Memory.instAt (Simulator.debugging [0x2A, 0x95] ∅).tracked.mem 0 = .half 0x952A := by
    rfl
  have plain : ¬(Fetched.half 0x952A).LinkingCall := by
    unfold Fetched.LinkingCall
    decide
  refine ⟨_, _, _, _, inst ▸ plain, rfl, rfl, rfl, rfl, ?_⟩
  rintro ⟨fuel, same⟩
  cases fuel with
  | zero => exact same
  | succ fuel => exact absurd (congrArg DebuggerSnapshot.isBreakpoint same.1) Bool.true_eq_false.mp

end Agreement

end RiscvRs
