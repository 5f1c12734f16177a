import RiscvRs.Session.Simulator
import RiscvRs.Run.Breakpoints

/-! The entry points that can report a breakpoint, and when a report is made once. -/

namespace RiscvRs

open Effects Prog

/-- A call that may report a breakpoint. Fuel and polls stand for the length of
the loops and the answers of the host. -/
inductive Call where
  | runSlice (poll : Nat → Poll) (budget : U32)
  | stepInstruction
  | runUntilBreakpoint (polls : Nat → Nat → Poll) (fuel : Nat)
  | debugStepOver (polls : Nat → Nat → Poll) (fuel : Nat)
  | debugStepOut (polls : Nat → Nat → Poll) (fuel : Nat)

/-- The address a snapshot reports, if it reports one. -/
def DebuggerSnapshot.report (snap : DebuggerSnapshot) : Option U32 :=
  if snap.isBreakpoint then some snap.hitAddress else none

/-- Run the call and keep the address it reports. -/
def Call.report (env : Env) : Call → Api (Option U32)
  | runSlice poll budget => do
    let out ← onTracked (RiscvRs.runSlice env poll budget)
    return if out.status = .breakpoint then some out.pc else none
  | stepInstruction => do
    match ← onTracked (RiscvRs.stepInstruction env) with
    | .breakpointHit addr => return some addr
    | _ => return none
  | runUntilBreakpoint polls fuel => do
    return (← RiscvRs.runUntilBreakpoint env polls fuel 0).report
  | debugStepOver polls fuel => do
    return (← RiscvRs.debugStepOver env polls fuel).report
  | debugStepOut polls fuel => do
    return (← RiscvRs.debugStepOut env polls fuel).report

/-- Call after call, with the reports in order. -/
def runCalls (env : Env) : List Call → Api (List (Option U32))
  | [] => return []
  | call :: rest => do
    let first ← call.report env
    let others ← runCalls env rest
    return first :: others

section Layers

variable {α : Type}

theorem onTracked_ok {x : Driver α} {s s' : Simulator} {a : α} :
    (onTracked x).run s = .ok a s' ↔ ∃ t, x.run s.tracked = .ok a t ∧
      { s with tracked := t } = s' :=
  zoom_ok

@[simp] theorem run_simCpu (s : Simulator) : simCpu.run s = .ok s.tracked.cpu s := rfl

@[simp] theorem run_onCpu (f : Cpu → Cpu) (s : Simulator) :
    (onCpu f).run s = .ok () { s with tracked := s.tracked.withCpu (f s.tracked.cpu) } := rfl

end Layers

/-- States that differ in nothing a pending report depends on. -/
def SameControl (t t' : Tracked) : Prop :=
  t'.history = t.history ∧ t'.cpu.pc = t.cpu.pc ∧ t'.cpu.csrs = t.cpu.csrs ∧
    t'.cpu.isHalted = t.cpu.isHalted ∧ t'.cpu.resumePastBreakpoint = t.cpu.resumePastBreakpoint

theorem SameControl.pending {t t' : Tracked} (same : SameControl t t') {addr : U32}
    (pending : Pending addr t) :
    Pending addr t' := by
  obtain ⟨-, pc, csrs, -, resume⟩ := same
  refine ⟨by rw [resume, pc]; exact pending.1, ?_⟩
  rw [pc, Cpu.interruptsEnabled, csrs]
  exact pending.2

/-- What a call that reports `report` does to the simulator. `able` says that it
may execute an instruction. -/
structure Proceeds (able : Prop) (t t' : Tracked) (report : Option U32) : Prop where
  suffix : t.history <:+ t'.history
  pending : ∀ addr ∈ report, Pending addr t' ∧ t'.cpu.pc = addr
  progress : able → ∀ addr, Pending addr t → t.cpu.isHalted = false →
    Ran t t' ∨ ((∃ other ∈ report, other ≠ addr) ∧ Pending addr t')

theorem Proceeds.before {able : Prop} {t t' t'' : Tracked} {report : Option U32}
    (proceeds : Proceeds able t' t'' report) (same : SameControl t t') :
    Proceeds able t t'' report where
  suffix := by
    rw [← same.1]
    exact proceeds.suffix
  pending := proceeds.pending
  progress may addr pending live := by
    rcases proceeds.progress may addr (same.pending pending)
      (same.2.2.2.1.trans live) with ran | other
    · exact .inl (Ran.after (by rw [same.1]) ran)
    · exact .inr other

theorem Proceeds.after {able : Prop} {t t' t'' : Tracked} {report : Option U32}
    (proceeds : Proceeds able t t' report) (same : SameControl t' t'') :
    Proceeds able t t'' report where
  suffix := by
    rw [same.1]
    exact proceeds.suffix
  pending addr member := by
    obtain ⟨pending, pc⟩ := proceeds.pending addr member
    exact ⟨same.pending pending, same.2.1.trans pc⟩
  progress may addr pending live := by
    rcases proceeds.progress may addr pending live with ran | ⟨other, still⟩
    · exact .inl (ran.extend (by rw [same.1]))
    · exact .inr ⟨other, same.pending still⟩

section Calls

variable {env : Env}

theorem runSlice_proceeds {poll : Nat → Poll} {budget : U32} {out : SliceOutcome} {t t' : Tracked}
    (run : (runSlice env poll budget).run t = .ok out t') :
    Proceeds (budget ≠ 0) t t' (if out.status = .breakpoint then some out.pc else none) where
  suffix := runSlice_history_suffix run
  pending addr member := by
    by_cases stopped : out.status = .breakpoint
    · rw [if_pos stopped] at member
      obtain ⟨rfl⟩ := member
      exact runSlice_pending run stopped
    · rw [if_neg stopped] at member
      cases member
  progress may addr pending live := by
    have positive : 0 < budget.toNat := by
      have nonzero : budget.toNat ≠ 0 := fun zero => may (BitVec.eq_of_toNat_eq zero)
      omega
    rcases runSlice_progress pending live positive run with ran | ⟨stopped, other, still⟩
    · exact .inl ran
    · rw [if_pos stopped]
      exact .inr ⟨⟨out.pc, rfl, other⟩, still⟩

theorem stepInstruction_proceeds {result : StepResult} {t t' : Tracked}
    (run : (stepInstruction env).run t = .ok result t') {report : Option U32}
    (reported : ∀ addr ∈ report, result = .breakpointHit addr) : Proceeds True t t' report where
  suffix := stepInstruction_history_suffix run
  pending addr member := by
    rw [reported addr member] at run
    exact stepInstruction_pending run
  progress _ addr pending live := .inl (stepInstruction_progress pending live run)

/-- A step of the debugger is one of the machine. -/
theorem debugStep_ok {snap : DebuggerSnapshot} {s s' : Simulator}
    (run : (debugStep env).run s = .ok snap s') :
    ∃ result t, (stepInstruction env).run s.tracked = .ok result t ∧
      s' = { s with tracked := t } := by
  obtain ⟨result, s₁, step, rest⟩ := bind_ok.mp run
  obtain ⟨t, stepped, rfl⟩ := onTracked_ok.mp step
  rw [run_bind, run_simCpu, Outcome.andThen_ok] at rest
  refine ⟨result, t, stepped, ?_⟩
  cases result <;> exact (Outcome.ok.inj rest).2.symm

theorem debugStep_proceeds {snap : DebuggerSnapshot} {s s' : Simulator}
    (run : (debugStep env).run s = .ok snap s') :
    Proceeds True s.tracked s'.tracked snap.report := by
  obtain ⟨result, s1, step, rest⟩ := bind_ok.mp run
  obtain ⟨t, stepped, rfl⟩ := onTracked_ok.mp step
  rw [run_bind, run_simCpu, Outcome.andThen_ok] at rest
  cases result with
  | breakpointHit hit =>
    obtain ⟨rfl, rfl⟩ := Outcome.ok.inj rest
    refine stepInstruction_proceeds stepped ?_
    intro addr member
    obtain rfl : hit = addr := by simpa [DebuggerSnapshot.report, Cpu.snapshot] using member
    rfl
  | _ =>
    obtain ⟨rfl, rfl⟩ := Outcome.ok.inj rest
    exact stepInstruction_proceeds stepped (by simp [DebuggerSnapshot.report, Cpu.snapshot])

/-- The snapshot of a slice that stopped. -/
def SliceOutcome.shown (out : SliceOutcome) (cpu : Cpu) : DebuggerSnapshot :=
  if out.status = .breakpoint then cpu.snapshot true out.pc else cpu.snapshot false 0

theorem shown_report (out : SliceOutcome) (cpu : Cpu) :
    (out.shown cpu).report = if out.status = .breakpoint then some out.pc else none := by
  rw [SliceOutcome.shown]
  split
  · rfl
  · rfl

/-- A run to a breakpoint is one slice, and another run if that slice spent its budget. -/
theorem runUntilBreakpoint_ok {polls : Nat → Nat → Poll} {fuel slice : Nat}
    {snap : DebuggerSnapshot}
    {s s' : Simulator} :
    (runUntilBreakpoint env polls (fuel + 1) slice).run s = .ok snap s' ↔
      ∃ out t, (runSlice env (polls slice) 0xFFFFFFFF).run s.tracked = .ok out t ∧
        ((out.status = .running ∧
            (runUntilBreakpoint env polls fuel (slice + 1)).run { s with tracked := t } = .ok snap s') ∨
          (out.status ≠ .running ∧ out.shown t.cpu = snap ∧ { s with tracked := t } = s')) := by
  constructor
  · intro run
    obtain ⟨out, s1, slice1, rest⟩ := bind_ok.mp run
    obtain ⟨t, sliced, rfl⟩ := onTracked_ok.mp slice1
    rw [run_bind, run_simCpu, Outcome.andThen_ok] at rest
    refine ⟨out, t, sliced, ?_⟩
    rw [SliceOutcome.shown]
    cases status : out.status with
    | running =>
      simp only [status] at rest
      exact .inl ⟨rfl, rest⟩
    | _ =>
      simp only [status] at rest
      exact .inr ⟨SliceStatus.noConfusion, Outcome.ok.inj rest⟩
  · rintro ⟨out, t, sliced, next⟩
    refine bind_ok.mpr ⟨out, _, onTracked_ok.mpr ⟨t, sliced, rfl⟩, ?_⟩
    rw [run_bind, run_simCpu, Outcome.andThen_ok]
    rw [SliceOutcome.shown] at next
    rcases next with ⟨running, rest⟩ | ⟨ended, rfl, rfl⟩
    · simp only [running]
      exact rest
    · cases status : out.status with
      | running => exact absurd status ended
      | _ => rfl

/-- Slices until one stops: the first of them already moves a pending report. -/
theorem runUntilBreakpoint_proceeds {polls : Nat → Nat → Poll} {fuel slice : Nat}
    {snap : DebuggerSnapshot}
    {s s' : Simulator} (run : (runUntilBreakpoint env polls fuel slice).run s = .ok snap s') :
    Proceeds True s.tracked s'.tracked snap.report := by
  induction fuel generalizing slice s with
  | zero => cases run
  | succ fuel ih =>
    have able : (0xFFFFFFFF : U32) ≠ 0 := by decide
    obtain ⟨out, t, sliced, ⟨running, rest⟩ | ⟨-, rfl, rfl⟩⟩ := runUntilBreakpoint_ok.mp run
    · have first := runSlice_proceeds sliced
      have later := ih rest
      refine ⟨first.suffix.trans later.suffix, later.pending, fun _ addr pending live => ?_⟩
      rcases first.progress able addr pending live with ran | ⟨⟨other, member, -⟩, -⟩
      · exact .inl (ran.extend later.suffix)
      · rw [running] at member
        cases member
    · have first := runSlice_proceeds sliced
      rw [shown_report]
      exact ⟨first.suffix, first.pending, fun _ => first.progress able⟩

/-- The temporary breakpoint is not part of the control state. -/
theorem runToTemporary_proceeds {polls : Nat → Nat → Poll} {fuel : Nat} {addr : U32}
    {snap : DebuggerSnapshot}
    {s s' : Simulator} (run : (runToTemporary env polls fuel addr).run s = .ok snap s') :
    Proceeds True s.tracked s'.tracked snap.report := by
  rw [runToTemporary, run_bind, run_simCpu, Outcome.andThen_ok, run_bind, run_onCpu,
    Outcome.andThen_ok] at run
  obtain ⟨snap', s1, ran, rest⟩ := bind_ok.mp run
  have proceeds := (runUntilBreakpoint_proceeds ran).before
    (show SameControl s.tracked _ from ⟨rfl, rfl, rfl, rfl, rfl⟩)
  by_cases had : addr ∈ s.tracked.cpu.breakpoints
  · simp only [had, decide_true, Bool.not_true, Bool.false_eq_true, ↓reduceIte] at rest
    obtain ⟨rfl, rfl⟩ := Outcome.ok.inj rest
    exact proceeds
  · simp only [had, decide_false, Bool.not_false, ↓reduceIte, run_bind, run_onCpu,
      Outcome.andThen_ok] at rest
    obtain ⟨rfl, rfl⟩ := Outcome.ok.inj rest
    exact proceeds.after ⟨rfl, rfl, rfl, rfl, rfl⟩

def Simulator.withBus (sim : Simulator) (bus : Bus) : Simulator :=
  { sim with tracked := { sim.tracked with machine := { sim.tracked.machine with bus := bus } } }

theorem run_onMemory {α : Type} {x : Prog Bus Empty α} {s : Simulator} {a : α} {bus : Bus}
    (run : x.run s.tracked.machine.bus = .ok a bus) :
    (onMemory x).run s = .ok a (s.withBus bus) := by
  rw [onMemory, onTracked, run_zoom, run_onMachine, run_onBus run]
  rfl

theorem onMemory_ok {α : Type} {x : Prog Bus Empty α} {s s' : Simulator} {a : α}
    (run : (onMemory x).run s = .ok a s') :
    ∃ bus, x.run s.tracked.machine.bus = .ok a bus ∧
      s' = { s with
        tracked := { s.tracked with machine := { s.tracked.machine with bus := bus } } } := by
  obtain ⟨t, one, rfl⟩ := onTracked_ok.mp run
  obtain ⟨m, two, rfl⟩ := zoom_ok.mp one
  obtain ⟨bus, three, rfl⟩ := zoom_ok.mp two
  exact ⟨bus, three, rfl⟩

theorem addU32_ok {build : Build} {a b c : U32} {s s' : Simulator}
    (run : (build.addU32 a b : Api U32).run s = .ok c s') : s' = s := by
  unfold Build.addU32 at run
  split at run
  · cases run
  · exact (Outcome.ok.inj run).2.symm

theorem debugStepOver_proceeds {polls : Nat → Nat → Poll} {fuel : Nat} {snap : DebuggerSnapshot}
    {s s' : Simulator} (run : (debugStepOver env polls fuel).run s = .ok snap s') :
    Proceeds True s.tracked s'.tracked snap.report := by
  rw [debugStepOver, run_bind, run_simCpu, Outcome.andThen_ok] at run
  obtain ⟨inst, s1, read, rest⟩ := bind_ok.mp run
  obtain ⟨bus, -, rfl⟩ := onMemory_ok read
  by_cases call : isCallInstruction inst = true
  · rw [if_pos call] at rest
    obtain ⟨nextPc, s2, sum, rest⟩ := bind_ok.mp rest
    rw [addU32_ok sum] at rest
    exact (runToTemporary_proceeds rest).before ⟨rfl, rfl, rfl, rfl, rfl⟩
  · rw [if_neg call] at rest
    exact (debugStep_proceeds rest).before ⟨rfl, rfl, rfl, rfl, rfl⟩

theorem debugStepOut_proceeds {polls : Nat → Nat → Poll} {fuel : Nat} {snap : DebuggerSnapshot}
    {s s' : Simulator} (run : (debugStepOut env polls fuel).run s = .ok snap s') :
    Proceeds True s.tracked s'.tracked snap.report := by
  rw [debugStepOut, run_bind, run_simCpu, Outcome.andThen_ok] at run
  exact runToTemporary_proceeds run

/-- Whether a call may execute an instruction at all. -/
def Call.MayExecute : Call → Prop
  | runSlice _ budget => budget ≠ 0
  | _ => True

theorem Call.report_proceeds {call : Call} {report : Option U32} {s s' : Simulator}
    (run : (call.report env).run s = .ok report s') :
    Proceeds call.MayExecute s.tracked s'.tracked report := by
  cases call with
  | runSlice poll budget =>
    obtain ⟨out, s1, inner, rest⟩ := bind_ok.mp run
    obtain ⟨t, sliced, rfl⟩ := onTracked_ok.mp inner
    obtain ⟨rfl, rfl⟩ := Outcome.ok.inj rest
    exact runSlice_proceeds sliced
  | stepInstruction =>
    obtain ⟨result, s1, inner, rest⟩ := bind_ok.mp run
    obtain ⟨t, stepped, rfl⟩ := onTracked_ok.mp inner
    cases result with
    | breakpointHit addr =>
      obtain ⟨rfl, rfl⟩ := Outcome.ok.inj rest
      exact stepInstruction_proceeds stepped (by simp)
    | _ =>
      obtain ⟨rfl, rfl⟩ := Outcome.ok.inj rest
      exact stepInstruction_proceeds stepped (by simp)
  | runUntilBreakpoint polls fuel =>
    obtain ⟨snap, s1, inner, rest⟩ := bind_ok.mp run
    obtain ⟨rfl, rfl⟩ := Outcome.ok.inj rest
    exact runUntilBreakpoint_proceeds inner
  | debugStepOver polls fuel =>
    obtain ⟨snap, s1, inner, rest⟩ := bind_ok.mp run
    obtain ⟨rfl, rfl⟩ := Outcome.ok.inj rest
    exact debugStepOver_proceeds inner
  | debugStepOut polls fuel =>
    obtain ⟨snap, s1, inner, rest⟩ := bind_ok.mp run
    obtain ⟨rfl, rfl⟩ := Outcome.ok.inj rest
    exact debugStepOut_proceeds inner

/-- While a report is pending, no call is made that cannot execute anything:
neither a slice of budget zero nor any call on a halted machine. -/
def Careful (env : Env) : List Call → Simulator → Prop
  | [], _ => True
  | call :: rest, s =>
    (s.tracked.cpu.resumePastBreakpoint ≠ none → s.tracked.cpu.isHalted = false ∧ call.MayExecute) ∧
      ∀ report s', (call.report env).run s = .ok report s' → Careful env rest s'

/-- One careful call from a pending report. -/
theorem Careful.step {call : Call} {rest : List Call} {s s' : Simulator} {report : Option U32}
    {addr : U32}
    (careful : Careful env (call :: rest) s) (run : (call.report env).run s = .ok report s')
    (pending : Pending addr s.tracked) :
    Ran s.tracked s'.tracked ∨ ((∃ other ∈ report, other ≠ addr) ∧ Pending addr s'.tracked) := by
  have set : s.tracked.cpu.resumePastBreakpoint ≠ none := by
    rw [pending.1]
    exact Option.some_ne_none _
  obtain ⟨live, may⟩ := careful.1 set
  exact (Call.report_proceeds run).progress may addr pending live

theorem runCalls_history_suffix {calls : List Call} {reports : List (Option U32)} {s s' : Simulator}
    (run : (runCalls env calls).run s = .ok reports s') :
    s.tracked.history <:+ s'.tracked.history := by
  induction calls generalizing s reports with
  | nil =>
    obtain ⟨rfl, rfl⟩ := Outcome.ok.inj run
    exact List.suffix_refl _
  | cons call rest ih =>
    obtain ⟨report, s1, first, others⟩ := bind_ok.mp run
    obtain ⟨reports', s2, later, done⟩ := bind_ok.mp others
    obtain ⟨rfl, rfl⟩ := Outcome.ok.inj done
    exact (Call.report_proceeds first).suffix.trans (ih later)

/-- Careful calls from a pending report: an instruction, or the report is still pending. -/
theorem runCalls_progress {calls last : List Call} {reports : List (Option U32)} {s s' : Simulator}
    {addr : U32}
    (careful : Careful env (calls ++ last) s) (run : (runCalls env calls).run s = .ok reports s')
    (pending : Pending addr s.tracked) :
    Ran s.tracked s'.tracked ∨ (Pending addr s'.tracked ∧ Careful env last s') := by
  induction calls generalizing s reports with
  | nil =>
    obtain ⟨rfl, rfl⟩ := Outcome.ok.inj run
    exact .inr ⟨pending, careful⟩
  | cons call rest ih =>
    obtain ⟨report, s1, first, others⟩ := bind_ok.mp run
    obtain ⟨reports', s2, later, done⟩ := bind_ok.mp others
    obtain ⟨rfl, rfl⟩ := Outcome.ok.inj done
    rcases careful.step first pending with ran | ⟨-, still⟩
    · exact .inl (ran.extend (runCalls_history_suffix later))
    · rcases ih (careful.2 report s1 first) later still with ran | kept
      · exact .inl (Ran.after (Call.report_proceeds first).suffix ran)
      · exact .inr kept

/-- A breakpoint is reported once per visit: in a careful session an instruction
is executed between any two reports of one address. -/
theorem breakpoint_reported_once (env : Env) (first last : Call) (middle : List Call)
    (s₀ s₁ s₂ s₃ : Simulator) (addr : U32) (reports : List (Option U32))
    (reported : (first.report env).run s₀ = .ok (some addr) s₁)
    (between : (runCalls env middle).run s₁ = .ok reports s₂)
    (again : (last.report env).run s₂ = .ok (some addr) s₃)
    (careful : Careful env (middle ++ [last]) s₁) : Ran s₁.tracked s₃.tracked := by
  have pending := ((Call.report_proceeds reported).pending addr rfl).1
  rcases runCalls_progress careful between pending with ran | ⟨still, careful'⟩
  · exact ran.extend (Call.report_proceeds again).suffix
  · refine Ran.after (runCalls_history_suffix between) ?_
    rcases careful'.step again still with ran | ⟨⟨other, member, different⟩, -⟩
    · exact ran
    · obtain ⟨rfl⟩ := member
      exact absurd rfl different

/-- A fresh machine that stands at a breakpoint. -/
def Tracked.atBreakpoint : Tracked where
  machine := { Machine.new with cpu := { Cpu.new with debugEnabled := true, breakpoints := {0} } }
  history := []

/-- A simulator that stands at a breakpoint on a jump to itself. -/
def Simulator.looping : Simulator where
  tracked := { Tracked.atBreakpoint with
    machine := { Tracked.atBreakpoint.machine with
      bus := { mem := (Memory.new.store 0 0x01).store 1 0xA0, world := ⟨[], []⟩ } } }
  symbols := fun _ => none

/-- Two slices from there: the second runs the jump and is back at the breakpoint. -/
theorem breakpoint_reported_once_looping :
    ∃ s₁ s₃,
      ((Call.runSlice (fun _ => default) 5).report default).run .looping = .ok (some 0) s₁ ∧
      ((Call.runSlice (fun _ => default) 5).report default).run s₁ = .ok (some 0) s₃ ∧
      Ran s₁.tracked s₃.tracked := by
  refine ⟨_, _, rfl, rfl, ?_⟩
  refine breakpoint_reported_once default (.runSlice (fun _ => default) 5)
    (.runSlice (fun _ => default) 5) []
    .looping _ _ _ 0 [] rfl rfl rfl ⟨fun _ => ⟨rfl, ?_⟩, fun _ _ _ => trivial⟩
  change (5 : U32) ≠ 0
  decide

/-- A simulator that stands at a breakpoint. -/
def Simulator.atBreakpoint : Simulator := { Simulator.new with tracked := .atBreakpoint }

/-- A slice of budget zero between two others drops the pending report, and the
same breakpoint is reported again with no instruction executed. -/
theorem breakpoint_reported_twice :
    ∃ s₁ s₂ s₃,
      ((Call.runSlice (fun _ => default) 5).report default).run .atBreakpoint = .ok (some 0) s₁ ∧
      (runCalls default [.runSlice (fun _ => default) 0]).run s₁ = .ok [none] s₂ ∧
      ((Call.runSlice (fun _ => default) 5).report default).run s₂ = .ok (some 0) s₃ ∧
      ¬Ran s₁.tracked s₃.tracked := by
  refine ⟨_, _, _, rfl, rfl, rfl, ?_⟩
  rintro ⟨events, history, some⟩
  obtain rfl : events = [] := by simpa using history.symm
  exact some rfl

end Calls

end RiscvRs
