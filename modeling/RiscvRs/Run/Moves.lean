import RiscvRs.Lib.Trace
import RiscvRs.Exec.Results
import RiscvRs.Run.Path

/-! The runs of a machine: every sequence of `run_slice` and `step_instruction`
calls is a sequence of instructions, traps, interrupts and breakpoint reports,
one at a time. A property of all runs is proved of these moves. -/

namespace RiscvRs

open Effects Prog

/-- What the machine does next. -/
inductive Turn where
  | exec (inst : Fetched)
  | trap (inst : Fetched)
  | irq (irq : U32)
  | report

/-- One move. A trap is counted by `step_instruction` and not by `run_slice`. -/
inductive Move (env : Env) : Tracked → Turn → Tracked → Prop where
  | exec (t : Tracked) (live : t.cpu.isHalted = false) (inst : Fetched) (m : Machine)
      (run : (fetchExecute env t.cpu.pc).run t = .ok (inst, .ok ()) { t with machine := m }) :
      Move env t (.exec inst) (t.completed inst m)
  | trap (t : Tracked) (live : t.cpu.isHalted = false) (inst : Fetched) (err : CpuError) (m : Machine)
      (messages : List Diagnostic) (counted : Bool)
      (run : (fetchExecute env t.cpu.pc).run t = .ok (inst, .error err) { t with machine := m }) :
      Move env t (.trap inst) ((t.trapped inst m messages).withCpu
        { m.cpu.trap with stepCounter := m.cpu.stepCounter + if counted then 1 else 0 })
  | irq (t : Tracked) (live : t.cpu.isHalted = false) (enabled : t.cpu.interruptsEnabled = true)
    (irq : U32) :
      Move env t (.irq irq) (t.interrupted irq)
  | report (t : Tracked) (pending : Option U32) :
      Move env t .report (t.withCpu { t.cpu with resumePastBreakpoint := pending })

/-- A run, newest move first, with the state before each move. -/
abbrev Moves (env : Env) (start : Tracked) (moves : List (Tracked × Turn))
    (last : Tracked) : Prop :=
  Trace (Move env) start moves last

/-- The calls of a host that drives the machine directly. -/
inductive Drive where
  | slice (poll : Nat → Poll) (budget : U32)
  | step

def Drive.perform (env : Env) : Drive → Driver Unit
  | slice poll budget => do
    let _ ← runSlice env poll budget
  | step => do
    let _ ← stepInstruction env

def driveAll (env : Env) : List Drive → Driver Unit
  | [] => return ()
  | call :: rest => do
    call.perform env
    driveAll env rest

section Runs

variable {env : Env}

theorem SlicePath.moves {watch : Bool} {start c : Cursor} {n : Nat}
    (path : SlicePath env watch start n c) :
    ∃ moves, Moves env start.state moves c.state := by
  induction path with
  | start => exact ⟨[], .start⟩
  | exec _ step ih =>
    obtain ⟨moves, before⟩ := ih
    cases step with
    | mk live clear inst m run => exact ⟨_, .step before (.exec _ live inst m run)⟩
  | irq _ step ih =>
    obtain ⟨moves, before⟩ := ih
    cases step with
    | mk live enabled irq => exact ⟨_, .step before (.irq _ live enabled irq)⟩

theorem SliceStop.moves {watch : Bool} {c : Cursor} {status : SliceStatus} {t : Tracked}
    (stop : SliceStop env watch c status t) : ∃ moves, Moves env c.state moves t := by
  cases stop with
  | running live => exact ⟨[], .start⟩
  | halted halted => exact ⟨[], .start⟩
  | breakpoint live hit => exact ⟨_, .single (.report _ _)⟩
  | trapped live clear inst err m messages run =>
    exact ⟨_, .single (.trap _ live inst err m messages false run)⟩

theorem runSlice_moves {poll : Nat → Poll} {budget : U32} {out : SliceOutcome} {t t' : Tracked}
    (run : (runSlice env poll budget).run t = .ok out t') : ∃ moves, Moves env t moves t' := by
  obtain ⟨c, path, stop, -⟩ := runSlice_path run
  obtain ⟨walked, path⟩ := path.moves
  obtain ⟨stopped, stop⟩ := stop.moves
  have entered : Moves env t _ t.entry.state := .single (.report t none)
  exact ⟨_, (entered.trans path).trans stop⟩

theorem stepInstruction_moves {result : StepResult} {t t' : Tracked}
    (run : (stepInstruction env).run t = .ok result t') : ∃ moves, Moves env t moves t' := by
  have entered : Moves env t _ t.entry.state := .single (.report t none)
  cases stepInstruction_end run with
  | breakpointHit hit => exact ⟨_, .single (.report t _)⟩
  | halted clear halted => exact ⟨_, entered⟩
  | done clear live inst m fetched =>
    exact ⟨_, .step entered (.exec t.entry.state live inst m fetched)⟩
  | trap clear live inst err m messages fetched =>
    exact ⟨_, .step entered (.trap t.entry.state live inst err m messages true fetched)⟩

/-- Any sequence of calls is a run. -/
theorem driveAll_moves {calls : List Drive} {t t' : Tracked}
    (run : (driveAll env calls).run t = .ok () t') :
    ∃ moves, Moves env t moves t' := by
  induction calls generalizing t with
  | nil =>
    obtain ⟨-, rfl⟩ := Outcome.ok.inj run
    exact ⟨[], .start⟩
  | cons call rest ih =>
    obtain ⟨u, t₁, first, second⟩ := bind_ok.mp run
    obtain ⟨later, after⟩ := ih second
    have before : ∃ moves, Moves env t moves t₁ := by
      cases call with
      | slice poll budget =>
        obtain ⟨out, t₂, slice, done⟩ := bind_ok.mp first
        obtain ⟨-, rfl⟩ := Outcome.ok.inj done
        exact runSlice_moves slice
      | step =>
        obtain ⟨result, t₂, step, done⟩ := bind_ok.mp first
        obtain ⟨-, rfl⟩ := Outcome.ok.inj done
        exact stepInstruction_moves step
    obtain ⟨earlier, before⟩ := before
    exact ⟨_, before.trans after⟩

/-- What was fetched is what was executed, on a machine that was only asked. -/
theorem fetchExecute_fetched {pc : U32} {t u : Tracked} {inst : Fetched}
    {result : Except CpuError Unit}
    (run : (fetchExecute env pc).run t = .ok (inst, result) u) :
    ∃ m, askFrame.rel t.machine m ∧
      (attempt (inst.execute env) : Prog Machine Empty _).run m = .ok result u.machine := by
  rw [fetchExecute_eq] at run
  obtain ⟨inst', t₁, fetched, rest⟩ := bind_ok.mp run
  obtain ⟨m, read, rfl⟩ := zoom_ok.mp fetched
  obtain ⟨result', t₂, ran, done⟩ := bind_ok.mp rest
  obtain ⟨same, rfl⟩ := Outcome.ok.inj done
  obtain ⟨rfl, rfl⟩ := Prod.mk.inj same
  obtain ⟨m', inner, rfl⟩ := zoom_ok.mp ran
  exact ⟨m, (steady_ask (asks_fetch env.host pc)).ok read, inner⟩

theorem attempt_ok {α : Type} {x : Exec α} {m m' : Machine} {a : α}
    (run : (attempt x : Prog Machine Empty _).run m = .ok (.ok a) m') : x.run m = .ok a m' := by
  rw [run_attempt] at run
  cases outcome : x.run m with
  | ok b m₁ =>
    rw [outcome] at run
    obtain ⟨same, rfl⟩ := Outcome.ok.inj run
    obtain rfl := Except.ok.inj same
    rfl
  | err e m₁ =>
    rw [outcome] at run
    cases run
  | panic =>
    rw [outcome] at run
    cases run
  | exhausted =>
    rw [outcome] at run
    cases run

/-- An executed instruction moves control as its kind says. -/
theorem control_of_fetchExecute {t : Tracked} {inst : Fetched} {m : Machine}
    (run : (fetchExecute env t.cpu.pc).run t = .ok (inst, .ok ()) { t with machine := m }) :
    Control t.cpu m.cpu inst ∧ m.cpu.fcsr = t.cpu.fcsr := by
  obtain ⟨m₁, asked, attempted⟩ := fetchExecute_fetched run
  have executed := control_of_execute (attempt_ok attempted)
  rw [asked.1] at executed
  exact executed

end Runs

end RiscvRs
