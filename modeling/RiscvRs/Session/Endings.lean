import RiscvRs.Session.Invariant
import RiscvRs.Exec.Stops
import RiscvRs.Run.Moves
import RiscvRs.Run.Accounting

/-! Why a machine is stopped: its flags against the last event of its record. -/

namespace RiscvRs

open Effects Prog

/-- A live machine has no exit code yet. A stopped one was stopped by the newest event: a
trap, an `EBREAK` or an `ECALL`; where the registers are `intact` they still name the call. -/
inductive Tracked.Settled (intact : Prop) (t : Tracked) : Prop where
  | live (live : t.cpu.isHalted = false) (untrapped : t.cpu.trapped = false)
    (code : t.cpu.exitCode = 0)
  | trap (inst : Fetched) (earlier : List GuestEvent)
      (event : t.history = .executed t.cpu.pc inst t.cpu.pc false :: earlier)
      (halted : t.cpu.isHalted = true) (trapped : t.cpu.trapped = true)
        (code : t.cpu.exitCode = trapExitCode)
  | ebreak (pc : U32) (inst : Fetched) (earlier : List GuestEvent)
      (event : t.history = .executed pc inst t.cpu.pc true :: earlier) (ebreak : inst.isEbreak)
      (halted : t.cpu.isHalted = true) (untrapped : t.cpu.trapped = false)
        (code : t.cpu.exitCode = 0)
  | exit (pc : U32) (inst : Fetched) (earlier : List GuestEvent)
      (event : t.history = .executed pc inst t.cpu.pc true :: earlier) (ecall : inst.isEcall)
      (halted : t.cpu.isHalted = true) (untrapped : t.cpu.trapped = false)
      (code : intact → t.cpu.exitCode = t.cpu.readReg regA0 ∧
        syscallGroup (t.cpu.readReg regA7) = some .exit)

theorem Cpu.readReg_of_regs {cpu other : Cpu} (regs : other.regs = cpu.regs) (r : Fin 32) :
    other.readReg r = cpu.readReg r := by
  rw [readReg, readReg, regs]

namespace Tracked.Settled

variable {intact : Prop} {t u : Tracked}

/-- A machine that is not stopped. -/
theorem of_live (settled : t.Settled intact) (live : t.cpu.isHalted = false) :
    t.cpu.trapped = false ∧ t.cpu.exitCode = 0 := by
  cases settled with
  | live _ untrapped code => exact ⟨untrapped, code⟩
  | trap _ _ _ halted => exact absurd (halted.symm.trans live) (by decide)
  | ebreak _ _ _ _ _ halted => exact absurd (halted.symm.trans live) (by decide)
  | exit _ _ _ _ _ halted => exact absurd (halted.symm.trans live) (by decide)

/-- What the account depends on. -/
theorem keep {intact' : Prop} (settled : t.Settled intact)
    (halted : u.cpu.isHalted = t.cpu.isHalted)
    (trapped : u.cpu.trapped = t.cpu.trapped) (code : u.cpu.exitCode = t.cpu.exitCode)
    (pc : u.cpu.pc = t.cpu.pc)
    (history : u.history = t.history) (regs : intact' → intact ∧ u.cpu.regs = t.cpu.regs) :
    u.Settled intact' := by
  cases settled with
  | live live untrapped zero =>
    exact .live (halted.trans live) (trapped.trans untrapped) (code.trans zero)
  | trap inst earlier event stopped failed named =>
    refine .trap inst earlier ?_ (halted.trans stopped) (trapped.trans failed) (code.trans named)
    rw [history, pc, event]
  | ebreak at_ inst earlier event ebreak stopped untrapped zero =>
    refine .ebreak at_ inst earlier ?_ ebreak (halted.trans stopped) (trapped.trans untrapped)
      (code.trans zero)
    rw [history, pc, event]
  | exit at_ inst earlier event ecall stopped untrapped named =>
    refine .exit at_ inst earlier ?_ ecall (halted.trans stopped) (trapped.trans untrapped)
      fun kept => ?_
    · rw [history, pc, event]
    · obtain ⟨before, same⟩ := regs kept
      rw [code, Cpu.readReg_of_regs same, Cpu.readReg_of_regs same]
      exact named before

end Tracked.Settled

section Driver

variable {env : Env} {intact : Prop}

/-- One instruction of a live machine settles it. -/
theorem settled_completed {t : Tracked} (settled : t.Settled intact) (live : t.cpu.isHalted = false)
    {inst : Fetched}
    {m : Machine} (run : (fetchExecute env t.cpu.pc).run t = .ok (inst, .ok ())
      { t with machine := m }) :
    (t.completed inst m).Settled intact := by
  obtain ⟨untrapped, zero⟩ := settled.of_live live
  have settings := settings_of_execFrame (touched_of_run run)
  simp only [Cpu.settings, Prod.mk.injEq] at settings
  have clean : m.cpu.trapped = false := settings.2.2.2.1.trans untrapped
  obtain ⟨m₁, asked, attempted⟩ := fetchExecute_fetched run
  have same : m₁.cpu = t.cpu := asked.1
  cases stop_of_execute (attempt_ok attempted) with
  | goes halted code =>
    rw [same] at halted code
    exact .live (halted.trans live) clean (code.trans zero)
  | ebreak ebreak halted code =>
    rw [same] at code
    exact .ebreak t.cpu.pc inst t.history rfl ebreak halted clean (code.trans zero)
  | exit ecall calls halted code regs =>
    refine .exit t.cpu.pc inst t.history rfl ecall halted clean fun _ => ?_
    refine ⟨code.trans (Cpu.readReg_of_regs regs regA0).symm, ?_⟩
    exact (congrArg syscallGroup (Cpu.readReg_of_regs regs regA7)).trans calls.2

theorem settled_trapped {t : Tracked} {inst : Fetched} {m : Machine}
    (asked : askFrame.rel t.machine m)
    (messages : List Diagnostic) : (t.trapped inst m messages).Settled intact := by
  refine .trap inst t.history ?_ rfl rfl rfl
  have same : m.cpu = t.cpu := asked.1
  change GuestEvent.executed t.cpu.pc inst m.cpu.pc false :: t.history =
    .executed m.cpu.pc inst m.cpu.pc false :: _
  rw [same]

theorem SlicePath.settled {watch : Bool} {start c : Cursor} {n : Nat}
    (path : SlicePath env watch start n c)
    (settled : start.state.Settled intact) : c.state.Settled intact := by
  induction path with
  | start => exact settled
  | exec _ step ih =>
    cases step with
    | mk live clear inst m run => exact settled_completed ih live run
  | irq _ step ih =>
    cases step with
    | mk live enabled irq =>
      obtain ⟨untrapped, zero⟩ := ih.of_live live
      exact .live live untrapped zero

theorem SliceStop.settled {watch : Bool} {c : Cursor} {status : SliceStatus} {t : Tracked}
    (stop : SliceStop env watch c status t) (settled : c.state.Settled intact) :
    t.Settled intact := by
  cases stop with
  | running => exact settled
  | halted => exact settled
  | breakpoint => exact settled.keep rfl rfl rfl rfl rfl fun kept => ⟨kept, rfl⟩
  | trapped live clear inst err m messages run => exact settled_trapped (asked_of_run run) messages

theorem runSlice_settled {poll : Nat → Poll} {budget : U32} {out : SliceOutcome} {t t' : Tracked}
    (run : (runSlice env poll budget).run t = .ok out t') (settled : t.Settled intact) :
    t'.Settled intact := by
  obtain ⟨c, path, stop, -⟩ := runSlice_path run
  exact stop.settled (path.settled (settled.keep rfl rfl rfl rfl rfl fun kept => ⟨kept, rfl⟩))

/-- The flag that `run` sets at its end is set already. -/
theorem run_settled {polls : Nat → Nat → Poll} {fuel slice : Nat} {code : U32} {t t' : Tracked}
    (ran : (run env polls fuel slice).run t = .ok code t') (settled : t.Settled intact) :
    t'.Settled intact := by
  induction fuel generalizing slice t with
  | zero => cases ran
  | succ fuel ih =>
    obtain ⟨out, u, sliced, rest⟩ := bind_ok.mp ran
    have after := runSlice_settled sliced settled
    have account := runSlice_account sliced
    have stopped (halted : u.cpu.isHalted = true) :
      (u.withCpu { u.cpu with isHalted := true }).Settled intact :=
      after.keep halted.symm rfl rfl rfl rfl fun kept => ⟨kept, rfl⟩
    cases status : out.status with
    | running =>
      simp only [status] at rest
      exact ih rest after
    | breakpoint =>
      simp only [status] at rest
      exact ih rest after
    | halted =>
      simp only [status] at rest
      obtain ⟨-, rfl⟩ := Outcome.ok.inj rest
      exact stopped (account.halted status)
    | trapped =>
      simp only [status] at rest
      obtain ⟨-, rfl⟩ := Outcome.ok.inj rest
      exact stopped (account.trapped status).2.1

theorem stepInstruction_settled {result : StepResult} {t t' : Tracked}
    (run : (stepInstruction env).run t = .ok result t') (settled : t.Settled intact) :
    t'.Settled intact := by
  have entered : t.entry.state.Settled intact :=
    settled.keep rfl rfl rfl rfl rfl fun kept => ⟨kept, rfl⟩
  cases stepInstruction_end run with
  | breakpointHit => exact settled.keep rfl rfl rfl rfl rfl fun kept => ⟨kept, rfl⟩
  | halted => exact entered
  | done clear live inst m fetched => exact settled_completed entered live fetched
  | trap clear live inst err m messages fetched =>
    have trapped : (t.entry.state.trapped inst m messages).Settled intact :=
      settled_trapped (asked_of_run fetched) messages
    exact trapped.keep rfl rfl rfl rfl rfl fun kept => ⟨kept, rfl⟩

end Driver

section Sessions

variable {env : Env} {intact : Prop}

/-- A setting of the debugger. -/
theorem settled_setting {f : Cpu → Cpu}
    (kept : ∀ cpu, (f cpu).isHalted = cpu.isHalted ∧ (f cpu).trapped = cpu.trapped ∧
      (f cpu).exitCode = cpu.exitCode ∧ (f cpu).pc = cpu.pc ∧ (f cpu).regs = cpu.regs) :
    Steady (keeping (Tracked.Settled intact)) (onCpu f) := by
  apply steady_onCpu
  intro s settled
  obtain ⟨halted, trapped, code, pc, regs⟩ := kept s.tracked.cpu
  exact settled.keep halted trapped code pc rfl fun same => ⟨same, regs⟩

theorem settled_onMemory {α : Type} (x : Prog Bus Empty α) :
    Steady (keeping (Tracked.Settled intact)) (onMemory x) := by
  apply steady_of_ok
  intro s s' a run settled
  obtain ⟨bus, -, rfl⟩ := onMemory_ok run
  exact settled.keep rfl rfl rfl rfl rfl fun same => ⟨same, rfl⟩

theorem settled_runUntilBreakpoint (polls : Nat → Nat → Poll) (fuel first : Nat) :
    Steady (keeping (Tracked.Settled intact)) (runUntilBreakpoint env polls fuel first) :=
  steady_runUntilBreakpoint _ runSlice_settled polls fuel first

theorem settled_runToTemporary (polls : Nat → Nat → Poll) (fuel : Nat) (addr : U32) :
    Steady (keeping (Tracked.Settled intact)) (runToTemporary env polls fuel addr) := by
  have watching (change : Finset U32 → Finset U32) : Steady (keeping (Tracked.Settled intact))
      (onCpu fun cpu => { cpu with breakpoints := change cpu.breakpoints }) :=
    settled_setting fun _ => ⟨rfl, rfl, rfl, rfl, rfl⟩
  refine steady_bind steady_simCpu fun cpu => steady_bind (watching (insert addr)) fun _ =>
    steady_bind (settled_runUntilBreakpoint polls fuel 0) fun snap => ?_
  split
  · exact steady_bind (watching (·.erase addr)) fun _ => steady_pure _
  · exact steady_pure _

theorem settled_debugStep : Steady (keeping (Tracked.Settled intact)) (debugStep env) := by
  refine steady_bind (steady_onTracked stepInstruction_settled) fun result =>
    steady_bind steady_simCpu fun cpu => ?_
  cases result <;> simp

theorem settled_debugStepOver (polls : Nat → Nat → Poll) (fuel : Nat) :
    Steady (keeping (Tracked.Settled intact)) (debugStepOver env polls fuel) := by
  refine steady_bind steady_simCpu fun cpu => steady_bind (settled_onMemory _) fun inst => ?_
  split
  · refine steady_bind ?_ fun next => settled_runToTemporary polls fuel next
    exact (steady_arith env _ _ 0 0).1
  · exact settled_debugStep

/-- The stop flags and the record, which a load resets. -/
theorem loadsWithin_flags : LoadsWithin
    (Frame.of fun s : Simulator =>
      (s.tracked.cpu.isHalted, s.tracked.cpu.trapped, s.tracked.cpu.exitCode)) where
  copy addr content := by
    apply steady_of_ok
    intro s s' a run
    obtain ⟨bus, -, rfl⟩ := onMemory_ok run
    rfl
  place _ := steady_onCpu fun _ => rfl
  name _ _ := steady_modify fun _ => rfl
  init r val := steady_onCpu fun s => by
    obtain ⟨trapped, halted, code, -⟩ := s.tracked.cpu.writeReg_keeps r val
    change (_, _, _) = (_, _, _)
    rw [Tracked.cpu_withCpu, trapped, halted, code]

theorem loadBinaryWithArgs_settled {bytes : List U8} {parse : ElfParser} {args : List Text}
    {entry : U32}
    {s s' : Simulator} (run : (loadBinaryWithArgs env bytes parse args).run s = .ok entry s') :
    s'.tracked.Settled intact := by
  have kept := loadBinaryWithArgs_within loadsWithin_flags run
  obtain ⟨halted, rest⟩ := Prod.mk.inj kept
  obtain ⟨trapped, code⟩ := Prod.mk.inj rest
  exact .live halted trapped code

/-- Every request but a write to a register. -/
theorem Request.settled (request : Request)
    (other : ∀ regIdx val, request ≠ .writeRegister regIdx val) :
    Steady (keeping (Tracked.Settled intact)) (request.perform env) := by
  have dropped {α : Type} {x : Api α} (steady : Steady (keeping (Tracked.Settled intact)) x) :
      Steady (keeping (Tracked.Settled intact)) (do let _ ← x : Api Unit) :=
    steady_bind steady fun _ => steady_pure _
  cases request with
  | loadBinaryWithArgs bytes parse args =>
    exact dropped (steady_of_ok fun run _ => loadBinaryWithArgs_settled run)
  | setHasCustomSyscalls enabled => exact settled_setting fun _ => ⟨rfl, rfl, rfl, rfl, rfl⟩
  | setDebugMode enabled => exact settled_setting fun _ => ⟨rfl, rfl, rfl, rfl, rfl⟩
  | addBreakpoint addr => exact settled_setting fun _ => ⟨rfl, rfl, rfl, rfl, rfl⟩
  | removeBreakpoint addr => exact settled_setting fun _ => ⟨rfl, rfl, rfl, rfl, rfl⟩
  | clearBreakpoints => exact settled_setting fun _ => ⟨rfl, rfl, rfl, rfl, rfl⟩
  | writeRegister regIdx val => exact absurd rfl (other regIdx val)
  | writeMemoryByte addr val => exact settled_onMemory _
  | runSlice poll budget => exact dropped (steady_onTracked runSlice_settled)
  | runFull polls fuel => exact dropped (steady_onTracked run_settled)
  | debugStep => exact dropped settled_debugStep
  | debugStepOver polls fuel => exact dropped (settled_debugStepOver polls fuel)
  | debugStepOut polls fuel =>
    exact dropped (steady_bind steady_simCpu fun cpu => settled_runToTemporary polls fuel _)
  | runUntilBreakpoint polls fuel => exact dropped (settled_runUntilBreakpoint polls fuel 0)

/-- A write to a register moves no flag, but the exit call is no longer to be read there. -/
theorem writeRegister_settled {regIdx : Nat} {val : U32} {s s' : Simulator}
    (run : (writeRegister regIdx val).run s = .ok () s') (settled : s.tracked.Settled False) :
    s'.tracked.Settled False ∧ s'.tracked.cpu.isHalted = s.tracked.cpu.isHalted := by
  unfold writeRegister at run
  split at run
  · obtain ⟨-, rfl⟩ := Outcome.ok.inj run
    obtain ⟨trapped, halted, code, -, pc⟩ :=
      s.tracked.cpu.writeReg_keeps ⟨regIdx, by assumption⟩ val
    exact ⟨settled.keep halted trapped code pc rfl False.elim, halted⟩
  · obtain ⟨-, rfl⟩ := Outcome.ok.inj run
    exact ⟨settled, rfl⟩

theorem Reachable.settled {s : Simulator} (reached : Reachable env s) :
    s.tracked.Settled False := by
  induction reached with
  | new => exact .live rfl rfl rfl
  | call _ request performed ih =>
    by_cases write : ∃ regIdx val, request = .writeRegister regIdx val
    · obtain ⟨regIdx, val, rfl⟩ := write
      exact (writeRegister_settled performed ih).1
    · push Not at write
      exact (Request.settled request write).ok performed ih

/-- A machine stops for a reason that its record shows. In every state of every session a
live machine has no exit code and has not trapped; a stopped one was stopped by the last
event, which is an instruction that trapped, with the exit code of a trap and `pc` still at
it, or an `EBREAK`, with exit code zero, or an `ECALL`. The request that stopped the machine
in the last way leaves the number of an exit call in `a7`, and in `a0` the exit code. -/
theorem machine_stops_for_a_reason (env : Env) (s : Simulator) (reached : Reachable env s) :
    s.tracked.Settled False ∧
    ∀ request s', (Request.perform env request).run s = .ok () s' → s.tracked.cpu.isHalted = false →
      s'.tracked.Settled True := by
  refine ⟨reached.settled, fun request s' performed live => ?_⟩
  obtain ⟨untrapped, zero⟩ := reached.settled.of_live live
  by_cases write : ∃ regIdx val, request = .writeRegister regIdx val
  · obtain ⟨regIdx, val, rfl⟩ := write
    obtain ⟨settled, halted⟩ := writeRegister_settled performed reached.settled
    obtain ⟨untrapped, zero⟩ := settled.of_live (halted.trans live)
    exact .live (halted.trans live) untrapped zero
  · push Not at write
    exact (Request.settled request write).ok performed (.live live untrapped zero)

/-- A session that writes `C.EBREAK` at zero and steps. -/
theorem machine_stops_for_a_reason_ebreak :
    ∃ s, Reachable default s ∧ s.tracked.cpu.isHalted = true ∧ s.tracked.Settled True := by
  have first : Reachable default _ := .call .new (.writeMemoryByte 0 0x02) rfl
  have second : Reachable default _ := .call first (.writeMemoryByte 1 0x90) rfl
  have stopped := (machine_stops_for_a_reason default _ second).2 .debugStep _ rfl rfl
  exact ⟨_, .call second .debugStep rfl, rfl, stopped⟩

end Sessions

end RiscvRs
