import RiscvRs.Run.Watching
import RiscvRs.Session.Interface

/-! Debugging changes no result: stepping, stepping over and out, running on in slices of any size,
setting breakpoints and looking around leave the program where its run goes through. -/

namespace RiscvRs

open Effects Prog

/-- What the result of a program is: everything but the debug settings, and of a trap not the
count and the messages, which a single step and a slice leave differently. -/
def Tracked.verdict (t : Tracked) : Tracked :=
  if t.cpu.trapped then
    { t.bare with
      machine :=
        { cpu := { t.bare.cpu with stepCounter := 0 }
          bus := { t.machine.bus with world := { t.machine.bus.world with diagnostics := [] } } } }
  else t.bare

theorem verdict_of_bare (t t' : Tracked) (same : t.bare = t'.bare) : t.verdict = t'.verdict := by
  have whole : t.bare.verdict = t'.bare.verdict := congrArg Tracked.verdict same
  exact whole

section Steps

variable {env : Env} {t u : Tracked}

/-- The program comes to the same end from both states, or from neither. -/
abbrev SameResultFrom (env : Env) (t u : Tracked) : Prop := SameEnd (tick env) Tracked.verdict t u

theorem sameResult_of_bare (same : t.bare = u.bare) : SameResultFrom env t u :=
  sameEnd_of_alike blind_tick verdict_of_bare same

/-- One pass of the loop that looks at no breakpoint, without its layers. -/
theorem tick_run (env : Env) (t : Tracked) :
    (tick env).run t =
      if t.cpu.isHalted then .ok (some .halted) t
      else ((fetchExecute env t.cpu.pc).run t).andThen fun attempted u =>
        match attempted.2 with
        | .error err => ((reportSliceError t.cpu.pc attempted.1 err).run
            (u.log (.executed t.cpu.pc attempted.1 u.cpu.pc false))).andThen fun _ v =>
              .ok (some .trapped) (v.withCpu v.cpu.trap)
        | .ok _ =>
          .ok none ((u.log (.executed t.cpu.pc attempted.1 u.cpu.pc true)).withCpu
            u.cpu.countStep) := by
  have unwatched : ¬Cursor.Hit false ⟨none, t⟩ := fun hit => Bool.false_ne_true hit.1
  have ticks : (tick env).run t =
      ((chunkLoop env false 1 none 0).run t).andThen fun result u => .ok result.2.2 u := rfl
  rw [ticks, chunkLoop_succ, if_neg unwatched]
  split
  · rfl
  · cases (fetchExecute env t.cpu.pc).run t with
    | ok attempted u =>
      obtain ⟨inst, result⟩ := attempted
      cases result with
      | ok _ => rfl
      | error err =>
        obtain ⟨messages, reported⟩ := reportSliceError_run t.cpu.pc inst err
          (u.log (.executed t.cpu.pc inst u.cpu.pc false))
        simp only [Outcome.andThen_ok, reported]
    | err e u => rfl
    | panic => rfl
    | exhausted => rfl

theorem tick_halted (halted : t.cpu.isHalted = true) : (tick env).run t = .ok (some .halted) t := by
  rw [tick_run, if_pos halted]

/-- Where a pass stops, the machine is halted. -/
theorem halted_of_tick {status : SliceStatus} (stop : (tick env).run t = .ok (some status) u) :
    u.cpu.isHalted = true := by
  rw [tick_run] at stop
  by_cases halted : t.cpu.isHalted = true
  · rw [if_pos halted] at stop
    obtain ⟨-, rfl⟩ := Outcome.ok.inj stop
    exact halted
  · rw [if_neg halted] at stop
    generalize (fetchExecute env t.cpu.pc).run t = outcome at stop
    cases outcome with
    | ok attempted v =>
      obtain ⟨inst, result⟩ := attempted
      cases result with
      | ok _ => cases stop
      | error err =>
        obtain ⟨messages, reported⟩ := reportSliceError_run t.cpu.pc inst err
          (v.log (.executed t.cpu.pc inst v.cpu.pc false))
        simp only [Outcome.andThen_ok, reported] at stop
        obtain ⟨-, rfl⟩ := Outcome.ok.inj stop
        rfl
    | err e v => exact e.elim
    | panic => cases stop
    | exhausted => cases stop

theorem sameResult_of_stop {status : SliceStatus} (stop : (tick env).run t = .ok (some status) u) :
    SameResultFrom env t u :=
  sameEnd_of_stop stop (tick_halted (halted_of_tick stop)) rfl

/-- A single step. -/
theorem stepInstruction_sameResult {result : StepResult}
    (ran : (stepInstruction env).run t = .ok result u) :
    SameResultFrom env t u := by
  rw [stepInstruction_run] at ran
  by_cases hit : t.cpu.StepHit
  · rw [if_pos hit] at ran
    obtain ⟨-, rfl⟩ := Outcome.ok.inj ran
    exact sameResult_of_bare rfl
  rw [if_neg hit] at ran
  by_cases halted : t.cpu.isHalted = true
  · rw [if_pos halted] at ran
    obtain ⟨-, rfl⟩ := Outcome.ok.inj ran
    exact sameResult_of_bare t.bare_entry.symm
  rw [if_neg halted] at ran
  have entered : SameResultFrom env t t.entry.state := sameResult_of_bare t.bare_entry.symm
  refine entered.trans ?_
  have ticks := tick_run env t.entry.state
  rw [if_neg (show ¬t.entry.state.cpu.isHalted = true from halted)] at ticks
  change _ = ((fetchExecute env t.cpu.pc).run t.entry.state).andThen _ at ticks
  generalize (fetchExecute env t.cpu.pc).run t.entry.state = outcome at ran ticks
  cases outcome with
  | ok attempted v =>
    obtain ⟨inst, attempted⟩ := attempted
    cases attempted with
    | ok _ =>
      obtain ⟨-, rfl⟩ := Outcome.ok.inj ran
      exact sameEnd_of_step ticks
    | error err =>
      obtain ⟨said, stepReport⟩ := reportStepError_run err
        ((v.log (.executed t.cpu.pc inst v.cpu.pc false)).withCpu v.cpu.countStep)
      obtain ⟨told, sliceReport⟩ := reportSliceError_run t.cpu.pc inst err
        (v.log (.executed t.cpu.pc inst v.cpu.pc false))
      rw [Outcome.andThen_ok] at ran ticks
      dsimp only at ran ticks
      rw [stepReport] at ran
      obtain ⟨-, rfl⟩ := Outcome.ok.inj ran
      have trapped := ticks.trans (congrArg (Outcome.andThen · _) sliceReport)
      exact sameEnd_of_stop trapped (tick_halted rfl) rfl
  | err e v => exact e.elim
  | panic => cases ran
  | exhausted => cases ran

/-- A chunk of the inner loop, watched or not. -/
theorem chunkLoop_sameResult {watch : Bool} {left done done' : Nat} {skip skip' : Option U32}
    {stopped : Option SliceStatus}
    (ran : (chunkLoop env watch left skip done).run t = .ok (done', skip', stopped) u) :
    SameResultFrom env t u := by
  induction left generalizing skip done t with
  | zero =>
    obtain ⟨-, rfl⟩ := Outcome.ok.inj ran
    exact .refl t
  | succ left ih =>
    cases iteration env watch skip t with
    | breakpoint hit loops =>
      obtain ⟨-, rfl⟩ := Outcome.ok.inj ((loops left done).symm.trans ran)
      exact sameResult_of_bare rfl
    | stop status final skip'' v ticked loops =>
      obtain ⟨-, rfl⟩ := Outcome.ok.inj ((loops left done).symm.trans ran)
      exact sameResult_of_stop ticked
    | next skip'' v ticked loops =>
      have first : SameResultFrom env t v := sameEnd_of_step ticked
      exact first.trans (ih ((loops left done).symm.trans ran))
    | panic ticked loops => cases (loops left done).symm.trans ran
    | exhausted ticked loops => cases (loops left done).symm.trans ran

/-- A slice of any budget. -/
theorem runSlice_sameResult {poll : Nat → Poll} (off : Quiet poll) {budget : U32}
    {out : SliceOutcome}
    (ran : (runSlice env poll budget).run t = .ok out u) : SameResultFrom env t u := by
  rw [runSlice_chunk env off] at ran
  have entered : SameResultFrom env t t.entry.state := sameResult_of_bare t.bare_entry.symm
  refine entered.trans ?_
  generalize chunk : (chunkLoop env t.cpu.watches budget.toNat t.entry.skip 0).run t.entry.state =
    outcome at ran
  cases outcome with
  | ok result v =>
    obtain ⟨-, rfl⟩ := Outcome.ok.inj ran
    exact chunkLoop_sameResult chunk
  | err e v => exact e.elim
  | panic => cases ran
  | exhausted => cases ran

end Steps

section Runs

variable {env : Env} {polls : Nat → Nat → Poll} {t u : Tracked}

theorem halted_of_settles {n : Nat} {status : SliceStatus}
    (settles : Settles (tick env) n t status u) :
    u.cpu.isHalted = true := by
  induction settles with
  | stop last => exact halted_of_tick last
  | step _ _ ih => exact ih

theorem exitCode_of_verdict (same : t.verdict = u.verdict) : t.cpu.exitCode = u.cpu.exitCode := by
  have told (t : Tracked) : t.verdict.cpu.exitCode = t.cpu.exitCode := by
    unfold Tracked.verdict
    split <;> rfl
  rw [← told t, ← told u, same]

/-- Where a run returns, the program has come to its end. -/
theorem endsIn_of_run (off : ∀ k, Quiet (polls k)) {fuel slice : Nat} {code : U32}
    (ran : (run env polls fuel slice).run t = .ok code u) :
    EndsIn (tick env) Tracked.verdict t u.verdict ∧ u.cpu.isHalted = true ∧
      code = u.cpu.exitCode := by
  obtain ⟨n, status, last, ⟨v, settles, seen⟩, rfl, ending⟩ := run_settles off ran
  have halted : last.cpu.isHalted = true :=
    (isHalted_of_bare seen).symm.trans (halted_of_settles settles)
  rw [finished_of_halted halted] at ending
  have told : v.verdict = u.verdict := verdict_of_bare v u (seen.trans ending.symm)
  exact ⟨⟨n, status, v, settles, told⟩, (isHalted_of_bare ending).trans halted,
    (exitCode_of_bare ending).symm⟩

/-- Where the program comes to its end, every run returns. -/
theorem run_of_endsIn (off : ∀ k, Quiet (polls k)) {w : Tracked}
    (ends : EndsIn (tick env) Tracked.verdict t w)
    (slice : Nat) : ∃ fuel u, (run env polls fuel slice).run t = .ok u.cpu.exitCode u ∧
      u.verdict = w := by
  obtain ⟨n, status, v, settles, rfl⟩ := ends
  obtain ⟨fuel, u, ran, ending⟩ := run_of_settles off _ le_rfl ⟨v, settles, rfl⟩ slice
  rw [finished_of_halted (halted_of_settles settles)] at ending
  rw [← exitCode_of_bare ending] at ran
  exact ⟨fuel, u, ran, verdict_of_bare u v ending⟩

/-- Runs from states with the same result return alike. -/
theorem run_of_sameResult {polls' : Nat → Nat → Poll} (off : ∀ k, Quiet (polls k))
    (off' : ∀ k, Quiet (polls' k))
    {t' : Tracked} (same : SameResultFrom env t t') {fuel : Nat} {code : U32}
    (ran : (run env polls fuel 0).run t = .ok code u) :
    ∃ fuel' u', (run env polls' fuel' 0).run t' = .ok code u' ∧ u'.verdict = u.verdict := by
  obtain ⟨ends, -, rfl⟩ := endsIn_of_run off ran
  obtain ⟨fuel', u', ran', told⟩ := run_of_endsIn off' ((same _).mp ends) 0
  rw [exitCode_of_verdict told] at ran'
  exact ⟨fuel', u', ran', told⟩

/-- A run that returned leaves a state with the same result. -/
theorem run_sameResult (off : ∀ k, Quiet (polls k)) {fuel slice : Nat} {code : U32}
    (ran : (run env polls fuel slice).run t = .ok code u) : SameResultFrom env t u := by
  obtain ⟨⟨n, status, v, settles, told⟩, halted, -⟩ := endsIn_of_run off ran
  have rest : SameResultFrom env v u :=
    sameEnd_of_stop (tick_halted (halted_of_settles settles)) (tick_halted halted) told
  have along : SameResultFrom env t v := by
    clear told rest ran
    induction settles with
    | stop last => exact sameResult_of_stop last
    | step first _ ih => exact (sameEnd_of_step first).trans ih
  exact along.trans rest

end Runs

section Commands

variable {env : Env} {s s' : Simulator}

theorem runUntilBreakpoint_sameResult {polls : Nat → Nat → Poll} (off : ∀ k, Quiet (polls k))
    {fuel slice : Nat}
    {snap : DebuggerSnapshot}
    (ran : (runUntilBreakpoint env polls fuel slice).run s = .ok snap s') :
    SameResultFrom env s.tracked s'.tracked := by
  induction fuel generalizing slice s with
  | zero => cases ran
  | succ fuel ih =>
    obtain ⟨out, t, sliced, ⟨-, rest⟩ | ⟨-, -, rfl⟩⟩ := runUntilBreakpoint_ok.mp ran
    · have first : SameResultFrom env s.tracked t := runSlice_sameResult (off slice) sliced
      exact first.trans (ih rest)
    · exact runSlice_sameResult (off slice) sliced

theorem runToTemporary_sameResult {polls : Nat → Nat → Poll} (off : ∀ k, Quiet (polls k))
    {fuel : Nat} {addr : U32}
    {snap : DebuggerSnapshot} (ran : (runToTemporary env polls fuel addr).run s = .ok snap s') :
    SameResultFrom env s.tracked s'.tracked := by
  rw [runToTemporary_run] at ran
  generalize inner : (runUntilBreakpoint env polls fuel 0).run (s.watching addr) = outcome at ran
  cases outcome with
  | ok snap v =>
    obtain ⟨-, rfl⟩ := Outcome.ok.inj ran
    have start : SameResultFrom env s.tracked (s.watching addr).tracked := sameResult_of_bare rfl
    have back : SameResultFrom env v.tracked (v.restoring s.tracked.cpu.breakpoints).tracked :=
      sameResult_of_bare rfl
    exact (start.trans (runUntilBreakpoint_sameResult off inner)).trans back
  | err e v => exact e.elim
  | panic => cases ran
  | exhausted => cases ran

theorem debugStep_sameResult {snap : DebuggerSnapshot} (ran : (debugStep env).run s = .ok snap s') :
    SameResultFrom env s.tracked s'.tracked := by
  obtain ⟨result, t, stepped, rfl⟩ := debugStep_ok ran
  exact stepInstruction_sameResult stepped

theorem debugStepOver_sameResult (below : s.tracked.cpu.pc.toNat + 4 ≤ 0xFFFF0000)
    {polls : Nat → Nat → Poll}
    (off : ∀ k, Quiet (polls k)) {fuel : Nat} {snap : DebuggerSnapshot}
    (ran : (debugStepOver env polls fuel).run s = .ok snap s') :
    SameResultFrom env s.tracked s'.tracked := by
  rw [debugStepOver_run below] at ran
  split at ran
  · exact runToTemporary_sameResult off ran
  · exact debugStep_sameResult ran

theorem debugStepOut_sameResult {polls : Nat → Nat → Poll} (off : ∀ k, Quiet (polls k)) {fuel : Nat}
    {snap : DebuggerSnapshot} (ran : (debugStepOut env polls fuel).run s = .ok snap s') :
    SameResultFrom env s.tracked s'.tracked := by
  rw [debugStepOut, run_bind, run_simCpu, Outcome.andThen_ok] at ran
  exact runToTemporary_sameResult off ran

/-- A listing of memory leaves the simulator as it is. -/
theorem disassembleFrom_ram {symbols : Symbols} {startAddr len : U32}
    (inRam : startAddr.toNat + len.toNat + 3 ≤ 0xFFFF0000) {fuel : Nat} {curr : U32}
    {items : List DisassembledInst}
    (ran : (disassembleFrom env symbols startAddr len fuel curr).run s = .ok items s') : s' = s := by
  induction fuel generalizing curr items with
  | zero => cases ran
  | succ fuel ih =>
    rw [disassembleFrom] at ran
    split at ran
    · next inside =>
      have stop := saturatingAdd_toNat startAddr len
      have before : curr.toNat < (saturatingAdd startAddr len).toNat := inside
      have read : (onMemory (Memory.readU32 env.host curr)).run s = _ :=
        run_onMemory (readU32_below env.host s.tracked.machine.bus (by omega))
      rw [run_bind, read, Outcome.andThen_ok] at ran
      obtain ⟨rest, v, listed, done⟩ := bind_ok.mp ran
      obtain ⟨-, rfl⟩ := Outcome.ok.inj done
      exact ih listed
    · exact (Outcome.ok.inj ran).2.symm

/-- The calls a debugger makes while a program stands at the state, with the host's interrupts off.
What reads memory keeps to it: a look at the device window is an access of its own. -/
def Command.Debugs (sim : Simulator) : Command → Prop
  | hasCustomSyscalls | setDebugMode _ | addBreakpoint _ | removeBreakpoint _ | clearBreakpoints => True
  | getSnapshotJs _ _ | getSymbolAt _ | debugStep => True
  | runSlice poll _ => Quiet poll
  | runFull polls _ | debugStepOut polls _ | runUntilBreakpoint polls _ => ∀ k, Quiet (polls k)
  | debugStepOver polls _ => (∀ k, Quiet (polls k)) ∧ sim.tracked.cpu.pc.toNat + 4 ≤ 0xFFFF0000
  | readMemoryRange addr len => addr.toNat + len.toNat ≤ 0xFFFF0000
  | disassembleRange _ startAddr len => startAddr.toNat + len.toNat + 3 ≤ 0xFFFF0000
  | loadBinary _ _ _ | loadBinaryWithArgs _ _ _ | setHasCustomSyscalls _ => False
  | writeMemoryByte _ _ | writeRegister _ _ => False

/-- The states a debugger brings a program to. -/
inductive Debugged (env : Env) (s : Simulator) : Simulator → Prop where
  | start : Debugged env s s
  | next {u v : Simulator} (before : Debugged env s u) (command : Command)
    (debugs : command.Debugs u)
      {answer : Answer} (answered : (command.answer env).run u = .ok answer v) : Debugged env s v

theorem Command.sameResult {command : Command} (debugs : command.Debugs s) {answer : Answer}
    (answered : (command.answer env).run s = .ok answer s') :
    SameResultFrom env s.tracked s'.tracked := by
  have returned {α : Type} {x : Api α} {wrap : α → Answer} (same : ∀ a v, x.run s = .ok a v →
      SameResultFrom env s.tracked v.tracked)
      (ran : (do return wrap (← x) : Api Answer).run s = .ok answer s') :
      SameResultFrom env s.tracked s'.tracked := by
    obtain ⟨a, v, inner, done⟩ := bind_ok.mp ran
    obtain ⟨-, rfl⟩ := Outcome.ok.inj done
    exact same a v inner
  have settings (f : Cpu → Cpu) (bare : ∀ cpu, (f cpu).bare = cpu.bare) (a : Unit) (v : Simulator)
      (ran : (onCpu f).run s = .ok a v) : SameResultFrom env s.tracked v.tracked := by
    obtain ⟨-, rfl⟩ := Outcome.ok.inj ((run_onCpu f s).symm.trans ran)
    exact sameResult_of_bare (bare_withCpu rfl (bare s.tracked.cpu).symm)
  have unmoved {α : Type} {x : Api α} {wrap : α → Answer} (looks : ∀ a v, x.run s = .ok a v → v = s)
      (ran : (do return wrap (← x) : Api Answer).run s = .ok answer s') :
      SameResultFrom env s.tracked s'.tracked := by
    refine returned (fun a v inner => ?_) ran
    rw [looks a v inner]
    exact .refl _
  cases command with
  | hasCustomSyscalls => exact unmoved (fun _ _ ran => (Outcome.ok.inj ran).2.symm) answered
  | setDebugMode enabled =>
    exact returned (settings (fun cpu => { cpu with debugEnabled := enabled }) fun _ => rfl) answered
  | addBreakpoint addr =>
    exact returned (settings (fun cpu => { cpu with breakpoints := insert addr cpu.breakpoints })
      fun _ => rfl) answered
  | removeBreakpoint addr =>
    exact returned (settings (fun cpu => { cpu with breakpoints := cpu.breakpoints.erase addr })
      fun _ => rfl) answered
  | clearBreakpoints =>
    exact returned (settings (fun cpu => { cpu with breakpoints := ∅ }) fun _ => rfl) answered
  | getSnapshotJs isBreakpoint hitAddress =>
    exact unmoved (fun _ _ ran => (Outcome.ok.inj ran).2.symm) answered
  | getSymbolAt addr => exact unmoved (fun _ _ ran => (Outcome.ok.inj ran).2.symm) answered
  | debugStep => exact returned (fun _ _ ran => debugStep_sameResult ran) answered
  | runSlice poll budget =>
    refine returned (fun a v ran => ?_) answered
    obtain ⟨t, sliced, rfl⟩ := onTracked_ok.mp ran
    exact runSlice_sameResult debugs sliced
  | runFull polls fuel =>
    refine returned (fun a v ran => ?_) answered
    obtain ⟨t, finished, rfl⟩ := onTracked_ok.mp ran
    exact run_sameResult debugs finished
  | debugStepOut polls fuel =>
    exact returned (fun _ _ ran => debugStepOut_sameResult debugs ran) answered
  | runUntilBreakpoint polls fuel =>
    exact returned (fun _ _ ran => runUntilBreakpoint_sameResult debugs ran) answered
  | debugStepOver polls fuel =>
    exact returned (fun _ _ ran => debugStepOver_sameResult debugs.2 debugs.1 ran) answered
  | readMemoryRange addr len =>
    refine unmoved (fun a v ran => ?_) answered
    have read := run_onMemory
      (readEach_ram (ε := Empty) env.host s.tracked.machine.bus addr len.toNat debugs)
    exact (Outcome.ok.inj (read.symm.trans ran)).2.symm
  | disassembleRange fuel startAddr len =>
    exact unmoved (fun _ _ ran => disassembleFrom_ram debugs ran) answered
  | loadBinary bytes parse argsJs => exact debugs.elim
  | loadBinaryWithArgs bytes parse args => exact debugs.elim
  | setHasCustomSyscalls enabled => exact debugs.elim
  | writeMemoryByte addr val => exact debugs.elim
  | writeRegister regIdx val => exact debugs.elim

theorem Debugged.sameResult (debugged : Debugged env s s') :
    SameResultFrom env s.tracked s'.tracked := by
  induction debugged with
  | start => exact .refl _
  | next _ command debugs answered ih => exact ih.trans (command.sameResult debugs answered)

/-- Debugging changes no result. However a program is stepped, stepped over and out of its calls,
run on in slices of any budget, stopped at breakpoints set and cleared on the way, and looked at:
from where the debugger has brought it, `run_full` returns if and only if it returns from where it
was before, with the same exit code and the same registers, memory, output and device accesses; and
without a trap with the same count and the same messages. -/
theorem debugging_changes_no_result (env : Env) (s s' : Simulator) (debugged : Debugged env s s')
    (polls polls' : Nat → Nat → Poll) (off : ∀ k, Quiet (polls k)) (off' : ∀ k, Quiet (polls' k)) :
    (∀ fuel code u, (runFull env polls fuel).run s = .ok code u →
      ∃ fuel' u', (runFull env polls' fuel').run s' = .ok code u' ∧
        u'.tracked.verdict = u.tracked.verdict) ∧
    (∀ fuel' code u', (runFull env polls' fuel').run s' = .ok code u' →
      ∃ fuel u, (runFull env polls fuel).run s = .ok code u ∧
        u.tracked.verdict = u'.tracked.verdict) := by
  have carried {s s' : Simulator} {polls polls' : Nat → Nat → Poll} (off : ∀ k, Quiet (polls k))
      (off' : ∀ k, Quiet (polls' k)) (same : SameResultFrom env s.tracked s'.tracked) (fuel : Nat)
        (code : U32)
      (u : Simulator) (ran : (runFull env polls fuel).run s = .ok code u) :
      ∃ fuel' u', (runFull env polls' fuel').run s' = .ok code u' ∧
        u'.tracked.verdict = u.tracked.verdict := by
    obtain ⟨t, finished, rfl⟩ := onTracked_ok.mp ran
    obtain ⟨fuel', t', finished', told⟩ := run_of_sameResult off off' same finished
    exact ⟨fuel', { s' with tracked := t' }, onTracked_ok.mpr ⟨t', finished', rfl⟩, told⟩
  exact ⟨carried off off' debugged.sameResult, carried off' off debugged.sameResult.symm⟩

/-- `ebreak`. -/
def Simulator.breaking : Simulator :=
  { Simulator.new with tracked := .program [0x73, 0x00, 0x10, 0x00] }

/-- A breakpoint that a first step reports and a second one steps off. -/
theorem debugging_changes_no_result_breaking : ∃ s', Debugged default .breaking s' ∧
    ∃ fuel u, (runFull default (fun _ _ => default) fuel).run s' = .ok 0 u := by
  have watched := ((@Debugged.start default .breaking).next (.setDebugMode true) trivial rfl).next
    (.addBreakpoint 0) trivial rfl
  have stepped := (watched.next .debugStep trivial rfl).next .debugStep trivial rfl
  refine ⟨_, stepped, ?_⟩
  obtain ⟨fuel, u, ran, -⟩ :=
    (debugging_changes_no_result default .breaking _ stepped (fun _ _ => default)
    (fun _ _ => default) (fun _ _ => rfl) (fun _ _ => rfl)).1 1 0 _ rfl
  exact ⟨fuel, u, ran⟩

end Commands

end RiscvRs
