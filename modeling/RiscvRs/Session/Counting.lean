import RiscvRs.Session.Invariant
import RiscvRs.Lib.Trace

/-! The step counter against the record of the guest. -/

namespace RiscvRs

open Effects Prog

/-- The instructions executed without a trap since the last load. -/
def completedSinceLoad : List GuestEvent → Nat
  | [] => 0
  | .loaded :: _ => 0
  | .executed _ _ _ true :: rest => completedSinceLoad rest + 1
  | .executed _ _ _ false :: rest => completedSinceLoad rest
  | .interrupted _ _ _ :: rest => completedSinceLoad rest

def Tracked.Counted (t : Tracked) : Prop := t.cpu.stepCounter = completedSinceLoad t.history

section Driver

variable {env : Env}

theorem Tracked.Counted.completed {t : Tracked} (counted : t.Counted) {inst : Fetched} {m : Machine}
    (touched : execFrame.rel t.machine m) : (t.completed inst m).Counted := by
  have same : m.cpu.stepCounter = t.cpu.stepCounter := stepCounter_of_execFrame touched
  change m.cpu.stepCounter + 1 = completedSinceLoad t.history + 1
  rw [same, counted]

/-- A trap is recorded as not completed, so the count must stay. -/
theorem Tracked.counted_trapped_iff {t : Tracked} (counted : t.Counted) (inst : Fetched) {m : Machine}
    (asked : askFrame.rel t.machine m) (messages : List Diagnostic) (counter : Nat) :
    ((t.trapped inst m messages).withCpu { m.cpu.trap with stepCounter := counter }).Counted ↔
      counter = m.cpu.stepCounter := by
  have same : m.cpu.stepCounter = t.cpu.stepCounter := congrArg Cpu.stepCounter asked.1
  change counter = completedSinceLoad t.history ↔ counter = m.cpu.stepCounter
  rw [same, counted]

theorem SlicePath.counted {watch : Bool} {start c : Cursor} {n : Nat}
    (path : SlicePath env watch start n c)
    (counted : start.state.Counted) : c.state.Counted := by
  induction path with
  | start => exact counted
  | exec _ step ih =>
    cases step with
    | mk live clear inst m run => exact ih.completed (touched_of_run run)
  | irq _ step ih =>
    cases step with
    | mk live enabled irq => exact ih

theorem SliceStop.counted {watch : Bool} {c : Cursor} {status : SliceStatus} {t : Tracked}
    (stop : SliceStop env watch c status t) (counted : c.state.Counted) : t.Counted := by
  cases stop with
  | running => exact counted
  | halted => exact counted
  | breakpoint => exact counted
  | trapped live clear inst err m messages run =>
    exact (Tracked.counted_trapped_iff counted inst (asked_of_run run) messages _).mpr rfl

theorem kept_counted : KeptByDriver env Tracked.Counted where
  slice run counted := by
    obtain ⟨c, path, stop, -⟩ := runSlice_path run
    exact stop.counted (path.counted (show _ from counted))
  halt counted := counted
  watch _ counted := counted

/-- The instruction at `pc` traps, on a live machine that is not about to report a breakpoint. -/
def Tracked.Faults (env : Env) (t : Tracked) : Prop :=
  t.cpu.isHalted = false ∧ ¬t.cpu.StepHit ∧
    ∃ inst err u, (fetchExecute env t.cpu.pc).run t.entry.state = .ok (inst, .error err) u

/-- A single step counts a trap, so it is right exactly where none happens. -/
theorem stepInstruction_counted_iff {result : StepResult} {t t' : Tracked} (counted : t.Counted)
    (run : (stepInstruction env).run t = .ok result t') : t'.Counted ↔ ¬t.Faults env := by
  have entered : t.entry.state.Counted := counted
  cases stepInstruction_end run with
  | breakpointHit hit => exact iff_of_true counted fun faults => faults.2.1 hit
  | halted clear halted =>
    refine iff_of_true counted fun faults => ?_
    have live := faults.1
    rw [halted] at live
    cases live
  | done clear live inst m fetched =>
    refine iff_of_true (entered.completed (touched_of_run fetched)) fun faults => ?_
    obtain ⟨-, -, inst', err, u, failed⟩ := faults
    rw [fetched] at failed
    cases failed
  | trap clear live inst err m messages fetched =>
    have exact_ := Tracked.counted_trapped_iff entered inst (asked_of_run fetched) messages
      (m.cpu.stepCounter + 1)
    refine iff_of_false (fun after => absurd (exact_.mp after) (Nat.succ_ne_self _)) fun clean => ?_
    exact clean ⟨live, clear, inst, err, _, fetched⟩

end Driver

section Sessions

variable {env : Env}

/-- The request takes no single step on an instruction that traps. -/
def Request.StepsClean (env : Env) (s : Simulator) : Request → Prop
  | debugStep => ¬s.tracked.Faults env
  | debugStepOver _ _ =>
    ∀ inst s₁, (onMemory (Memory.readU32 env.host s.tracked.cpu.pc)).run s = .ok inst s₁ →
      isCallInstruction inst = false → ¬s₁.tracked.Faults env
  | _ => True

theorem loadsWithin_count :
    LoadsWithin (Frame.of fun s : Simulator => (s.tracked.cpu.stepCounter, s.tracked.history)) where
  copy addr content := by
    apply steady_of_ok
    intro s s' a run
    obtain ⟨bus, -, rfl⟩ := onMemory_ok run
    rfl
  place _ := steady_onCpu fun _ => rfl
  name _ _ := steady_modify fun _ => rfl
  init r val := steady_onCpu fun s => by
    change (_, _) = (_, _)
    rw [Tracked.cpu_withCpu, stepCounter_writeReg]
    rfl

/-- A load starts the count. -/
theorem loadBinaryWithArgs_counted {bytes : List U8} {parse : ElfParser} {args : List Text}
    {entry : U32}
    {s s' : Simulator} (run : (loadBinaryWithArgs env bytes parse args).run s = .ok entry s') :
    s'.tracked.Counted := by
  have kept := loadBinaryWithArgs_within loadsWithin_count run
  obtain ⟨counter, history⟩ := Prod.mk.inj kept
  change s'.tracked.cpu.stepCounter = _
  rw [counter, history]
  rfl

theorem debugStep_counted_iff {snap : DebuggerSnapshot} {s s' : Simulator}
    (counted : s.tracked.Counted)
    (run : (debugStep env).run s = .ok snap s') : s'.tracked.Counted ↔ ¬s.tracked.Faults env := by
  obtain ⟨result, t, stepped, rfl⟩ := debugStep_ok run
  exact stepInstruction_counted_iff counted stepped

/-- A call is run through with slices, anything else is a single step. -/
theorem debugStepOver_counted_iff {polls : Nat → Nat → Poll} {fuel : Nat} {snap : DebuggerSnapshot}
    {s s' : Simulator}
    (counted : s.tracked.Counted) (run : (debugStepOver env polls fuel).run s = .ok snap s') :
    s'.tracked.Counted ↔ (Request.debugStepOver polls fuel).StepsClean env s := by
  rw [debugStepOver, run_bind, run_simCpu, Outcome.andThen_ok] at run
  obtain ⟨inst, s₁, read, rest⟩ := bind_ok.mp run
  have still : s₁.tracked.Counted := by
    obtain ⟨bus, -, rfl⟩ := onMemory_ok read
    exact counted
  have once {inst' : U32} {s₂ : Simulator}
      (again : (onMemory (Memory.readU32 env.host s.tracked.cpu.pc)).run s = .ok inst' s₂) : inst' =
        inst ∧ s₂ = s₁ :=
    Outcome.ok.inj (again.symm.trans read)
  by_cases call : isCallInstruction inst = true
  · rw [if_pos call] at rest
    obtain ⟨nextPc, s₂, sum, rest⟩ := bind_ok.mp rest
    rw [addU32_ok sum] at rest
    refine iff_of_true ((kept_counted.runToTemporary polls fuel nextPc).ok rest still) ?_
    intro inst' s₂ again other
    rw [(once again).1, call] at other
    cases other
  · rw [if_neg call] at rest
    rw [debugStep_counted_iff still rest]
    constructor
    · intro clean inst' s₂ again other
      rw [(once again).2]
      exact clean
    · intro clean
      exact clean inst s₁ read (by simpa using call)

theorem Request.counted_iff (request : Request) {s s' : Simulator} (counted : s.tracked.Counted)
    (run : (request.perform env).run s = .ok () s') :
    s'.tracked.Counted ↔ request.StepsClean env s := by
  have dropped {α : Type} {x : Api α} (ran : (do let _ ← x : Api Unit).run s = .ok () s') :
      ∃ a, x.run s = .ok a s' := by
    obtain ⟨a, s₁, inner, rest⟩ := bind_ok.mp ran
    obtain ⟨-, rfl⟩ := Outcome.ok.inj rest
    exact ⟨a, inner⟩
  have setting {f : Cpu → Cpu} (ran : (onCpu f).run s = .ok () s')
      (same : ∀ cpu, (f cpu).stepCounter = cpu.stepCounter) : s'.tracked.Counted := by
    rw [run_onCpu] at ran
    obtain ⟨-, rfl⟩ := Outcome.ok.inj ran
    exact (same _).trans counted
  have steady {α : Type} {x : Api α} (kept : Steady (keeping Tracked.Counted) x)
      (ran : (do let _ ← x : Api Unit).run s = .ok () s') : s'.tracked.Counted := by
    obtain ⟨a, inner⟩ := dropped ran
    exact kept.ok inner counted
  cases request with
  | loadBinaryWithArgs bytes parse args =>
    obtain ⟨entry, inner⟩ := dropped run
    exact iff_of_true (loadBinaryWithArgs_counted inner) trivial
  | setHasCustomSyscalls enabled => exact iff_of_true (setting run fun _ => rfl) trivial
  | setDebugMode enabled => exact iff_of_true (setting run fun _ => rfl) trivial
  | addBreakpoint addr => exact iff_of_true (setting run fun _ => rfl) trivial
  | removeBreakpoint addr => exact iff_of_true (setting run fun _ => rfl) trivial
  | clearBreakpoints => exact iff_of_true (setting run fun _ => rfl) trivial
  | writeRegister regIdx val =>
    refine iff_of_true ?_ trivial
    simp only [perform, RiscvRs.writeRegister] at run
    split at run
    · exact setting run fun cpu => stepCounter_writeReg cpu _ _
    · obtain ⟨-, rfl⟩ := Outcome.ok.inj run
      exact counted
  | writeMemoryByte addr val =>
    obtain ⟨bus, -, rfl⟩ := onMemory_ok run
    exact iff_of_true counted trivial
  | runSlice poll budget =>
    exact iff_of_true (steady (steady_onTracked kept_counted.slice) run) trivial
  | runFull polls fuel => exact iff_of_true (steady (steady_onTracked kept_counted.run) run) trivial
  | debugStep =>
    obtain ⟨snap, inner⟩ := dropped run
    exact debugStep_counted_iff counted inner
  | debugStepOver polls fuel =>
    obtain ⟨snap, inner⟩ := dropped run
    exact debugStepOver_counted_iff counted inner
  | debugStepOut polls fuel =>
    exact iff_of_true
      (steady (steady_bind steady_simCpu fun cpu => kept_counted.runToTemporary polls fuel _) run)
        trivial
  | runUntilBreakpoint polls fuel =>
    exact iff_of_true (steady (kept_counted.runUntilBreakpoint polls fuel 0) run) trivial

/-- A session: request after request. -/
def Performs (env : Env) (s : Simulator) (request : Request) (s' : Simulator) : Prop :=
  (request.perform env).run s = .ok () s'

/-- After a load, in any order of requests, the counter is the number of completed
instructions in every state exactly as long as no single step is taken on an
instruction that traps. The counter of the source is a `u64`: below `2 ^ 64` it is this one. -/
theorem step_counter_counts_iff (env : Env) (bytes : List U8) (parse : ElfParser) (args : List Text)
    (before start last : Simulator) (entry : U32) (requests : List (Simulator × Request))
    (load : (loadBinaryWithArgs env bytes parse args).run before = .ok entry start)
    (session : Trace (Performs env) start requests last) :
    (last.tracked.cpu.stepCounter = completedSinceLoad last.tracked.history ∧
      ∀ move ∈ requests, move.1.tracked.cpu.stepCounter =
        completedSinceLoad move.1.tracked.history) ↔
    ∀ move ∈ requests, move.2.StepsClean env move.1 := by
  have each (s : Simulator) (request : Request) (s' : Simulator)
    (performed : Performs env s request s')
      (counted : s.tracked.Counted) : s'.tracked.Counted ↔ request.StepsClean env s :=
    request.counted_iff counted performed
  have throughout := Trace.holds_iff each session (loadBinaryWithArgs_counted load)
  exact throughout

/-- A parser that finds no object file, so that a binary is loaded flat. -/
def flatOnly : ElfParser := fun _ => none

/-- `csrrwi x0, fcsr, 1`, loaded flat and stepped once. -/
theorem step_counter_counts_iff_once :
    ∃ start last entry, (loadBinaryWithArgs default [0x73, 0xD0, 0x30, 0x00] flatOnly []).run .new =
      .ok entry start ∧
      Performs default start .debugStep last ∧ last.tracked.cpu.stepCounter = 1 ∧
      last.tracked.cpu.stepCounter = completedSinceLoad last.tracked.history := by
  refine ⟨_, _, _, rfl, rfl, rfl, ?_⟩
  refine ((step_counter_counts_iff default [0x73, 0xD0, 0x30, 0x00] flatOnly [] .new _ _
    _ [(_, .debugStep)] rfl
    (.single rfl)).mpr ?_).1
  intro move member
  obtain rfl := List.mem_singleton.mp member
  rintro ⟨-, -, inst, err, u, failed⟩
  cases failed

/-- One step of an empty binary: the illegal instruction counts. -/
theorem step_counter_counts_trap :
    ∃ start last entry, (loadBinaryWithArgs default [] flatOnly []).run .new = .ok entry start ∧
      Performs default start .debugStep last ∧ last.tracked.cpu.stepCounter = 1 ∧
      completedSinceLoad last.tracked.history = 0 := by
  exact ⟨_, _, _, rfl, rfl, rfl, rfl⟩

end Sessions

end RiscvRs
