import RiscvRs.Run.Moves
import RiscvRs.Session.Frames

/-! What the guest and the debugger commands leave to the host: the debug mode, the
breakpoints and the system-call hook. -/

namespace RiscvRs

open Effects Prog

/-- The settings that only the host changes. -/
structure HostSettings where
  debugEnabled : Bool
  breakpoints : Finset U32
  hasCustomSyscalls : Bool

def Cpu.hostSettings (cpu : Cpu) : HostSettings :=
  ⟨cpu.debugEnabled, cpu.breakpoints, cpu.hasCustomSyscalls⟩

section Driver

variable {env : Env}

theorem hostSettings_eq {a b : Cpu} (debug : a.debugEnabled = b.debugEnabled)
    (breakpoints : a.breakpoints = b.breakpoints)
    (hook : a.hasCustomSyscalls = b.hasCustomSyscalls) : a.hostSettings = b.hostSettings := by
  rw [Cpu.hostSettings, Cpu.hostSettings, debug, breakpoints, hook]

theorem hostSettings_of_settings {a b : Cpu} (same : a.settings = b.settings) :
    a.hostSettings = b.hostSettings := by
  simp only [Cpu.settings, Prod.mk.injEq] at same
  obtain ⟨debug, breakpoints, hook, -⟩ := same
  exact hostSettings_eq debug breakpoints hook

/-- At every moment of a slice the settings are those it started with. -/
theorem SlicePath.hostSettings {watch : Bool} {t : Tracked} {c : Cursor} {n : Nat}
    (path : SlicePath env watch t.entry n c) : c.state.cpu.hostSettings = t.cpu.hostSettings := by
  have same : c.state.cpu.hostSettings = t.entry.state.cpu.hostSettings :=
    hostSettings_of_settings path.settings
  exact same

theorem SliceStop.hostSettings {watch : Bool} {c : Cursor} {status : SliceStatus} {t : Tracked}
    (stop : SliceStop env watch c status t) : t.cpu.hostSettings = c.state.cpu.hostSettings :=
  stop.keeps Cpu.hostSettings (fun _ _ => rfl) (fun _ => rfl)

theorem runSlice_hostSettings {poll : Nat → Poll} {budget : U32} {out : SliceOutcome}
    {t t' : Tracked}
    (run : (runSlice env poll budget).run t = .ok out t') :
    t'.cpu.hostSettings = t.cpu.hostSettings := by
  obtain ⟨c, path, stop, -⟩ := runSlice_path run
  exact stop.hostSettings.trans path.hostSettings

theorem stepInstruction_hostSettings {result : StepResult} {t t' : Tracked}
    (run : (stepInstruction env).run t = .ok result t') :
    t'.cpu.hostSettings = t.cpu.hostSettings := by
  cases stepInstruction_end run with
  | breakpointHit hit => rfl
  | halted clear halted => rfl
  | done clear live inst m fetched =>
    have same := hostSettings_of_settings (settings_of_execFrame (touched_of_run fetched))
    exact same
  | trap clear live inst err m messages fetched =>
    have same : m.cpu = t.entry.state.cpu := (asked_of_run fetched).1
    change m.cpu.hostSettings = _
    rw [same]
    rfl

/-- A fixed value of the settings, as a property that slices keep. -/
theorem slice_keeps (settings : HostSettings) {poll : Nat → Poll} {budget : U32}
    {out : SliceOutcome} {t t' : Tracked}
    (run : (runSlice env poll budget).run t = .ok out t') (before : t.cpu.hostSettings = settings) :
    t'.cpu.hostSettings = settings :=
  (runSlice_hostSettings run).trans before

theorem run_hostSettings {polls : Nat → Nat → Poll} {fuel slice : Nat} {code : U32} {t t' : Tracked}
    (ran : (run env polls fuel slice).run t = .ok code t') :
    t'.cpu.hostSettings = t.cpu.hostSettings :=
  run_kept (fun u => u.cpu.hostSettings = t.cpu.hostSettings) (slice_keeps _) id ran rfl

end Driver

section Commands

variable {env : Env} {polls : Nat → Nat → Poll} {fuel : Nat} {snap : DebuggerSnapshot}
  {s s' : Simulator}

theorem runUntilBreakpoint_hostSettings {first : Nat}
    (run : (runUntilBreakpoint env polls fuel first).run s = .ok snap s') :
    s'.tracked.cpu.hostSettings = s.tracked.cpu.hostSettings :=
  (steady_runUntilBreakpoint (fun t => t.cpu.hostSettings = s.tracked.cpu.hostSettings) (slice_keeps _)
    polls fuel first).ok run rfl

/-- The temporary breakpoint leaves no trace: one that was there stays, one that was not goes. -/
theorem runToTemporary_hostSettings {addr : U32}
    (run : (runToTemporary env polls fuel addr).run s = .ok snap s') :
    s'.tracked.cpu.hostSettings = s.tracked.cpu.hostSettings := by
  rw [runToTemporary, run_bind, run_simCpu, Outcome.andThen_ok, run_bind, run_onCpu,
    Outcome.andThen_ok] at run
  obtain ⟨snap', s₁, inner, rest⟩ := bind_ok.mp run
  have during := runUntilBreakpoint_hostSettings inner
  obtain ⟨debug, breakpoints, hook⟩ := HostSettings.mk.inj during
  by_cases had : addr ∈ s.tracked.cpu.breakpoints
  · rw [if_neg (by simpa using had)] at rest
    obtain ⟨-, rfl⟩ := Outcome.ok.inj rest
    have same : s₁.tracked.cpu.breakpoints = s.tracked.cpu.breakpoints :=
      breakpoints.trans (Finset.insert_eq_of_mem had)
    exact hostSettings_eq debug same hook
  · rw [if_pos (by simpa using had), run_bind, run_onCpu, Outcome.andThen_ok] at rest
    obtain ⟨-, rfl⟩ := Outcome.ok.inj rest
    have same : s₁.tracked.cpu.breakpoints.erase addr = s.tracked.cpu.breakpoints := by
      rw [breakpoints]
      exact Finset.erase_insert had
    exact hostSettings_eq debug same hook

theorem debugStep_hostSettings (run : (debugStep env).run s = .ok snap s') :
    s'.tracked.cpu.hostSettings = s.tracked.cpu.hostSettings := by
  obtain ⟨result, t, stepped, rfl⟩ := debugStep_ok run
  exact stepInstruction_hostSettings stepped

theorem debugStepOver_hostSettings (run : (debugStepOver env polls fuel).run s = .ok snap s') :
    s'.tracked.cpu.hostSettings = s.tracked.cpu.hostSettings := by
  rw [debugStepOver, run_bind, run_simCpu, Outcome.andThen_ok] at run
  obtain ⟨inst, s₁, read, rest⟩ := bind_ok.mp run
  have looked : s₁.tracked.cpu = s.tracked.cpu := by
    obtain ⟨bus, -, rfl⟩ := onMemory_ok read
    rfl
  rw [← looked]
  by_cases call : isCallInstruction inst = true
  · rw [if_pos call] at rest
    obtain ⟨nextPc, s₂, sum, rest⟩ := bind_ok.mp rest
    rw [addU32_ok sum] at rest
    exact runToTemporary_hostSettings rest
  · rw [if_neg call] at rest
    exact debugStep_hostSettings rest

theorem debugStepOut_hostSettings (run : (debugStepOut env polls fuel).run s = .ok snap s') :
    s'.tracked.cpu.hostSettings = s.tracked.cpu.hostSettings := by
  rw [debugStepOut, run_bind, run_simCpu, Outcome.andThen_ok] at run
  exact runToTemporary_hostSettings run

end Commands

/-- No guest changes the host's settings, at any moment of any slice, run or step; and the
debugger commands that set a breakpoint of their own give back the set they found. -/
theorem host_settings_untouched (env : Env) :
    (∀ (t : Tracked) n c, SlicePath env t.cpu.watches t.entry n c →
      c.state.cpu.hostSettings = t.cpu.hostSettings) ∧
    (∀ poll budget t out t', (runSlice env poll budget).run t = .ok out t' →
      t'.cpu.hostSettings = t.cpu.hostSettings) ∧
    (∀ polls fuel slice t code t', (run env polls fuel slice).run t = .ok code t' →
      t'.cpu.hostSettings = t.cpu.hostSettings) ∧
    (∀ t result t', (stepInstruction env).run t = .ok result t' →
      t'.cpu.hostSettings = t.cpu.hostSettings) ∧
    (∀ polls fuel s snap s', (debugStepOver env polls fuel).run s = .ok snap s' →
      s'.tracked.cpu.hostSettings = s.tracked.cpu.hostSettings) ∧
    ∀ polls fuel s snap s', (debugStepOut env polls fuel).run s = .ok snap s' →
      s'.tracked.cpu.hostSettings = s.tracked.cpu.hostSettings := by
  refine ⟨?_, ?_, ?_, ?_, ?_, ?_⟩
  · intro t n c path
    exact path.hostSettings
  · intro poll budget t out t' run
    exact runSlice_hostSettings run
  · intro polls fuel slice t code t' ran
    exact run_hostSettings ran
  · intro t result t' run
    exact stepInstruction_hostSettings run
  · intro polls fuel s snap s' run
    exact debugStepOver_hostSettings run
  · intro polls fuel s snap s' run
    exact debugStepOut_hostSettings run

/-- A debug session on a flat program, with the given breakpoints. -/
def Simulator.debugging (bytes : List U8) (breakpoints : Finset U32) : Simulator :=
  let t := Tracked.program bytes
  { Simulator.new with
    tracked := t.withCpu { t.cpu with debugEnabled := true, breakpoints := breakpoints } }

/-- A step over `c.jal 4`, which returns to a breakpoint of the user. -/
theorem host_settings_untouched_shared :
    ∃ snap s', (debugStepOver default (fun _ _ => default) 1).run
      (.debugging [0x11, 0x20, 0, 0, 0x82, 0x80] {2}) =
        .ok snap s' ∧ snap.isBreakpoint = true ∧ s'.tracked.cpu.breakpoints = {2} := by
  obtain ⟨snap, s', run, hit⟩ : ∃ snap s', (debugStepOver default (fun _ _ => default) 1).run
      (.debugging [0x11, 0x20, 0, 0, 0x82, 0x80] {2}) = .ok snap s' ∧ snap.isBreakpoint = true :=
        ⟨_, _, rfl, rfl⟩
  have kept := (host_settings_untouched default).2.2.2.2.1 _ _ _ _ _ run
  exact ⟨snap, s', run, hit, congrArg HostSettings.breakpoints kept⟩

end RiscvRs
