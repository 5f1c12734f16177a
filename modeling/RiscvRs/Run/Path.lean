import RiscvRs.Run.Loop
import RiscvRs.Exec.Effects
import RiscvRs.Exec.Spill

/-! What a slice can do, said once: it takes instruction and interrupt steps one
after the other and then stops in one of four ways. -/

namespace RiscvRs

open Effects Prog

namespace Tracked

def withCpu (t : Tracked) (cpu : Cpu) : Tracked :=
  { t with machine := { t.machine with cpu := cpu } }

def log (t : Tracked) (event : GuestEvent) : Tracked := { t with history := event :: t.history }

/-- Messages of the simulator, newest first, on top of the earlier ones. -/
def say (t : Tracked) (messages : List Diagnostic) : Tracked :=
  { t with machine := { t.machine with bus := { t.machine.bus with
      world := { t.machine.bus.world with
        diagnostics := messages ++ t.machine.bus.world.diagnostics } } } }

def mem (t : Tracked) : Memory := t.machine.bus.mem

def io (t : Tracked) : List IoEvent := t.machine.bus.world.io

@[simp] theorem cpu_withCpu (t : Tracked) (cpu : Cpu) : (t.withCpu cpu).cpu = cpu := rfl

@[simp] theorem mem_withCpu (t : Tracked) (cpu : Cpu) : (t.withCpu cpu).mem = t.mem := rfl

@[simp] theorem io_withCpu (t : Tracked) (cpu : Cpu) : (t.withCpu cpu).io = t.io := rfl

@[simp] theorem history_withCpu (t : Tracked) (cpu : Cpu) : (t.withCpu cpu).history = t.history :=
  rfl

@[simp] theorem cpu_log (t : Tracked) (event : GuestEvent) : (t.log event).cpu = t.cpu := rfl

@[simp] theorem mem_log (t : Tracked) (event : GuestEvent) : (t.log event).mem = t.mem := rfl

@[simp] theorem io_log (t : Tracked) (event : GuestEvent) : (t.log event).io = t.io := rfl

@[simp] theorem history_log (t : Tracked) (event : GuestEvent) :
    (t.log event).history = event :: t.history := rfl

@[simp] theorem cpu_say (t : Tracked) (messages : List Diagnostic) : (t.say messages).cpu = t.cpu :=
  rfl

@[simp] theorem mem_say (t : Tracked) (messages : List Diagnostic) : (t.say messages).mem = t.mem :=
  rfl

@[simp] theorem io_say (t : Tracked) (messages : List Diagnostic) : (t.say messages).io = t.io :=
  rfl

@[simp] theorem history_say (t : Tracked) (messages : List Diagnostic) :
    (t.say messages).history = t.history := rfl

theorem say_say (t : Tracked) (first second : List Diagnostic) :
    (t.say first).say second = t.say (second ++ first) := by
  simp only [say, List.append_assoc]

end Tracked

@[simp] theorem run_onMachine_getCpu (t : Tracked) : (onMachine getCpu).run t = .ok t.cpu t := rfl

@[simp] theorem run_onMachine_modifyCpu (f : Cpu → Cpu) (t : Tracked) :
    (onMachine (modifyCpu f)).run t = .ok () (t.withCpu (f t.cpu)) := rfl

@[simp] theorem run_record (event : GuestEvent) (t : Tracked) :
    (record event).run t = .ok () (t.log event) := rfl

@[simp] theorem run_diagnose (message : Diagnostic) (t : Tracked) :
    (diagnose message).run t = .ok () (t.say [message]) := rfl

theorem reportSliceError_run (pc : U32) (inst : Fetched) (err : CpuError) (t : Tracked) :
    ∃ messages, (reportSliceError pc inst err).run t = .ok () (t.say messages) := by
  cases err with
  | unknownSyscall sysNum a0 a1 a2 a3 =>
    simp only [reportSliceError, run_bind, run_diagnose, Outcome.andThen_ok, Tracked.say_say]
    exact ⟨_, rfl⟩
  | illegalInstruction at_ raw =>
    cases inst <;> exact ⟨_, run_diagnose _ t⟩
  | unknownOpcode at_ opcode =>
    cases inst <;> exact ⟨_, run_diagnose _ t⟩

theorem reportStepError_run (err : CpuError) (t : Tracked) :
    ∃ messages, (reportStepError err).run t = .ok () (t.say messages) := by
  cases err with
  | unknownSyscall sysNum a0 a1 a2 a3 =>
    simp only [reportStepError, run_bind, run_diagnose, Outcome.andThen_ok, Tracked.say_say]
    exact ⟨_, rfl⟩
  | illegalInstruction at_ raw => exact ⟨_, run_diagnose _ t⟩
  | unknownOpcode at_ opcode => exact ⟨_, run_diagnose _ t⟩

section Fetch

variable (env : Env)

theorem run_onMachine {α : Type} (x : Prog Machine Empty α) (t : Tracked) :
    (onMachine x).run t =
      (x.run t.machine).reshape (fun a m => .ok a { t with machine := m })
        (fun e m => .err e { t with machine := m }) :=
  rfl

/-- The fetch of `run_slice` and `step_instruction`, before anything is executed. -/
def fetch (host : Host) (pc : U32) : Prog Bus Empty Fetched := do
  let (window, wide) ← Memory.fetchWindow host pc
  let inst16 : U16 := window.setWidth 16
  if inst16 &&& 0x3 ≠ 0x3 then
    return .half inst16
  else
    let inst32 ← if wide then pure window else Memory.readU32 host pc
    return .word inst32

/-- Two accesses to the bus are one. -/
theorem onMachine_onBus_bind {α β : Type} (x : Prog Bus Empty α) (f : α → Prog Bus Empty β) :
    onMachine (onBus (x >>= f)) = onMachine (onBus x) >>= fun a => onMachine (onBus (f a)) := by
  ext t
  rw [← onBus_bind, run_onMachine, run_bind, run_bind, run_onMachine]
  cases (onBus x).run t.machine with
  | ok a m => rfl
  | err e m => rfl
  | panic => rfl
  | exhausted => rfl

/-- Fetching and executing, one after the other. -/
theorem fetchExecute_eq (pc : U32) : fetchExecute env pc = (do
    let inst ← onMachine (onBus (fetch env.host pc))
    let result ← onMachine (attempt (inst.execute env))
    return (inst, result)) := by
  rw [fetchExecute, fetch, onMachine_onBus_bind, bind_assoc]
  congr 1
  funext fetched
  obtain ⟨window, wide⟩ := fetched
  unfold executeFetched
  dsimp only
  split
  · rfl
  · cases wide with
    | true => rfl
    | false =>
      rw [if_neg Bool.false_ne_true, if_neg Bool.false_ne_true, onMachine_onBus_bind, bind_assoc]
      rfl

theorem asks_fetch (host : Host) (pc : U32) : Steady queryFrame (fetch host pc) := by
  refine steady_bind (steady_fetchWindow host asks_queryFrame pc) fun fetched => ?_
  obtain ⟨window, wide⟩ := fetched
  dsimp only
  split
  · exact steady_pure _
  · cases wide with
    | true => exact steady_pure _
    | false => exact steady_bind (steady_readU32 host asks_queryFrame pc) fun _ => steady_pure _

/-- How an attempt at one instruction from machine `m` can end. -/
inductive Attempt (t : Tracked) (m : Machine) :
    Outcome Tracked Empty (Fetched × Except CpuError Unit) → Prop where
  | done (inst : Fetched) (m' : Machine) (touched : execFrame.rel m m') :
      Attempt t m (.ok (inst, .ok ()) { t with machine := m' })
  | trap (inst : Fetched) (err : CpuError) (m' : Machine) (asked : askFrame.rel m m') :
      Attempt t m (.ok (inst, .error err) { t with machine := m' })
  | panic : Attempt t m .panic
  | exhausted : Attempt t m .exhausted

theorem Attempt.after {t : Tracked} {m m' : Machine}
    {outcome : Outcome Tracked Empty (Fetched × Except CpuError Unit)}
    (asked : askFrame.rel m m') (attempt : Attempt t m' outcome) : Attempt t m outcome := by
  cases attempt with
  | done inst m'' touched =>
    exact .done inst m'' (execFrame.trans (execFrame_of_askFrame asked) touched)
  | trap inst err m'' asked' => exact .trap inst err m'' (askFrame.trans asked asked')
  | panic => exact .panic
  | exhausted => exact .exhausted

theorem attempt_clean {x : Exec Unit} (clean : Clean x) (inst : Fetched) (t : Tracked) (m : Machine) :
    Attempt t m ((do
      let result ← onMachine (attempt x)
      return (inst, result) : Driver (Fetched × Except CpuError Unit)).run
        { t with machine := m }) := by
  simp only [run_bind, run_onMachine, run_attempt]
  cases run : x.run m with
  | ok a m' => exact .done inst m' (clean.ok run)
  | err err m' => exact .trap inst err m' (clean.err run)
  | panic => exact .panic
  | exhausted => exact .exhausted

theorem clean_execute (inst : Fetched) : Clean (inst.execute env) := by
  cases inst with
  | half inst => exact clean_executeInst16 env inst
  | word inst => exact clean_executeInst32 env inst

/-- Fetching asks; the instruction then keeps to its frames. -/
theorem fetchExecute_attempt (pc : U32) (t : Tracked) :
    Attempt t t.machine ((fetchExecute env pc).run t) := by
  rw [fetchExecute_eq, run_bind, run_onMachine]
  rcases steady_ask (asks_fetch env.host pc) t.machine with ⟨inst, m, run, asked⟩ | stop | stop
  · simp only [run]
    exact (attempt_clean (clean_execute env inst) inst t m).after asked
  · simp only [stop]
    exact .panic
  · simp only [stop]
    exact .exhausted

end Fetch

/-- The loop state of a slice: the one-shot skip and the machine. -/
structure Cursor where
  skip : Option U32
  state : Tracked

/-- The check at the top of the inner loop. -/
def Cursor.Hit (watch : Bool) (c : Cursor) : Prop :=
  watch = true ∧ c.state.cpu.pc ∈ c.state.cpu.breakpoints ∧ c.skip ≠ some c.state.cpu.pc

instance (watch : Bool) (c : Cursor) : Decidable (c.Hit watch) :=
  inferInstanceAs (Decidable (_ ∧ _ ∧ _))

/-- The state after an instruction completed on machine `m`. -/
def Tracked.completed (t : Tracked) (inst : Fetched) (m : Machine) : Tracked :=
  ({ t with machine := m }.log (.executed t.cpu.pc inst m.cpu.pc true)).withCpu m.cpu.countStep

/-- The state after an interrupt was taken. -/
def Tracked.interrupted (t : Tracked) (irq : U32) : Tracked :=
  (t.withCpu (t.cpu.handleInterrupt irq)).log
    (.interrupted irq t.cpu.pc (t.cpu.handleInterrupt irq).pc)

/-- The state after an instruction trapped on machine `m`. -/
def Tracked.trapped (t : Tracked) (inst : Fetched) (m : Machine) (messages : List Diagnostic) :
    Tracked :=
  (({ t with machine := m }.log (.executed t.cpu.pc inst m.cpu.pc false)).say messages).withCpu
    m.cpu.trap

section Slices

variable (env : Env) (watch : Bool)

inductive ExecStep : Cursor → Cursor → Prop where
  | mk (c : Cursor) (live : c.state.cpu.isHalted = false) (clear : ¬c.Hit watch) (inst : Fetched)
    (m : Machine)
      (run : (fetchExecute env c.state.cpu.pc).run c.state = .ok (inst, .ok ())
        { c.state with machine := m }) :
      ExecStep c ⟨if watch then none else c.skip, c.state.completed inst m⟩

inductive IrqStep : Cursor → Cursor → Prop where
  | mk (c : Cursor) (live : c.state.cpu.isHalted = false)
    (enabled : c.state.cpu.interruptsEnabled = true)
      (irq : U32) : IrqStep c ⟨c.skip, c.state.interrupted irq⟩

/-- Steps from `start` on, with the number of instructions among them. -/
inductive SlicePath (start : Cursor) : Nat → Cursor → Prop where
  | start : SlicePath start 0 start
  | exec {n : Nat} {c c' : Cursor} (path : SlicePath start n c) (step : ExecStep env watch c c') :
      SlicePath start (n + 1) c'
  | irq {n : Nat} {c c' : Cursor} (path : SlicePath start n c)
    (step : IrqStep c c') : SlicePath start n c'

/-- The same with the host in it: an interrupt is one that an answer of the host delivers. -/
inductive HostPath (answers : Set Poll) (start : Cursor) : Nat → Cursor → Prop where
  | start : HostPath answers start 0 start
  | exec {n : Nat} {c c' : Cursor} (path : HostPath answers start n c)
    (step : ExecStep env watch c c') :
      HostPath answers start (n + 1) c'
  | irq {n : Nat} {c : Cursor} (path : HostPath answers start n c)
    (live : c.state.cpu.isHalted = false)
      (answer : Poll) (asked : answer ∈ answers) (delivers : answer.delivers c.state.cpu = true) :
      HostPath answers start n ⟨c.skip, c.state.interrupted answer.externalInterrupt⟩

/-- The four ways a slice ends, and the state it leaves. -/
inductive SliceStop : Cursor → SliceStatus → Tracked → Prop where
  | running (c : Cursor) (live : c.state.cpu.isHalted = false) : SliceStop c .running c.state
  | halted (c : Cursor) (halted : c.state.cpu.isHalted = true) : SliceStop c .halted c.state
  | breakpoint (c : Cursor) (live : c.state.cpu.isHalted = false) (hit : c.Hit watch) :
      SliceStop c .breakpoint
        (c.state.withCpu { c.state.cpu with resumePastBreakpoint := some c.state.cpu.pc })
  | trapped (c : Cursor) (live : c.state.cpu.isHalted = false) (clear : ¬c.Hit watch)
    (inst : Fetched)
      (err : CpuError) (m : Machine) (messages : List Diagnostic)
      (run : (fetchExecute env c.state.cpu.pc).run c.state = .ok (inst, .error err)
        { c.state with machine := m }) :
      SliceStop c .trapped (c.state.trapped inst m messages)

variable {env watch}

theorem SlicePath.trans {a b c : Cursor} {n k : Nat} (first : SlicePath env watch a n b)
    (second : SlicePath env watch b k c) : SlicePath env watch a (n + k) c := by
  induction second with
  | start => exact first
  | exec _ step ih => exact .exec ih step
  | irq _ step ih => exact .irq ih step

theorem interruptsEnabled_of_delivers {answer : Poll} {cpu : Cpu}
    (delivers : answer.delivers cpu = true) :
    cpu.interruptsEnabled = true := by
  simp only [Poll.delivers, Bool.and_eq_true] at delivers
  exact delivers.1.2

namespace HostPath

variable {answers more : Set Poll} {a b c : Cursor} {n k : Nat}

theorem trans (first : HostPath env watch answers a n b)
    (second : HostPath env watch answers b k c) :
    HostPath env watch answers a (n + k) c := by
  induction second with
  | start => exact first
  | exec _ step ih => exact .exec ih step
  | irq _ live answer asked delivers ih => exact .irq ih live answer asked delivers

theorem mono (path : HostPath env watch answers a n b) (subset : answers ⊆ more) :
    HostPath env watch more a n b := by
  induction path with
  | start => exact .start
  | exec _ step ih => exact .exec ih step
  | irq _ live answer asked delivers ih => exact .irq ih live answer (subset asked) delivers

/-- The path with the answers forgotten. -/
theorem slicePath (path : HostPath env watch answers a n b) : SlicePath env watch a n b := by
  induction path with
  | start => exact .start
  | exec _ step ih => exact .exec ih step
  | irq _ live answer asked delivers ih =>
    exact .irq ih (.mk _ live (interruptsEnabled_of_delivers delivers) _)

end HostPath

/-- One iteration of the inner loop. -/
theorem chunkLoop_succ (left : Nat) (skip : Option U32) (done : Nat) (t : Tracked) :
    (chunkLoop env watch (left + 1) skip done).run t =
      if t.cpu.isHalted then .ok (done, skip, some .halted) t
      else if Cursor.Hit watch ⟨skip, t⟩ then
        .ok (done, skip, some .breakpoint)
          (t.withCpu { t.cpu with resumePastBreakpoint := some t.cpu.pc })
      else ((fetchExecute env t.cpu.pc).run t).andThen fun attempted u =>
        match attempted.2 with
        | .error err => ((reportSliceError t.cpu.pc attempted.1 err).run
            (u.log (.executed t.cpu.pc attempted.1 u.cpu.pc false))).andThen fun _ v =>
              .ok (done, if watch then none else skip, some .trapped) (v.withCpu v.cpu.trap)
        | .ok _ => (chunkLoop env watch left (if watch then none else skip) (done + 1)).run
            ((u.log (.executed t.cpu.pc attempted.1 u.cpu.pc true)).withCpu u.cpu.countStep) := by
  rw [chunkLoop, run_bind, run_onMachine_getCpu, Outcome.andThen_ok]
  dsimp only
  by_cases halted : t.cpu.isHalted = true
  · rw [if_pos halted, if_pos halted, run_pure]
  · rw [if_neg halted, if_neg halted]
    by_cases hit : Cursor.Hit watch ⟨skip, t⟩
    · rw [if_pos hit]
      change watch = true ∧ t.cpu.pc ∈ t.cpu.breakpoints ∧ skip ≠ some t.cpu.pc at hit
      rw [if_pos hit]
      rfl
    · rw [if_neg hit]
      change ¬(watch = true ∧ t.cpu.pc ∈ t.cpu.breakpoints ∧ skip ≠ some t.cpu.pc) at hit
      rw [if_neg hit, run_bind]
      congr 1
      funext ⟨inst, result⟩ u
      cases result <;> rfl

/-- The inner loop walks a path of instructions only; it ends the chunk or stops the slice. -/
theorem chunkLoop_walk {left done done' : Nat} {skip skip' : Option U32}
    {stopped : Option SliceStatus}
    {t t' : Tracked} (run : (chunkLoop env watch left skip done).run t =
      .ok (done', skip', stopped) t') :
    ∃ n c, HostPath env watch ∅ ⟨skip, t⟩ n c ∧ done' = done + n ∧ n ≤ left ∧
      ((stopped = none ∧ n = left ∧ c = ⟨skip', t'⟩) ∨
        ∃ status, stopped = some status ∧ status ≠ .running ∧ SliceStop env watch c status t' ∧
          n < left) := by
  induction left generalizing skip done t with
  | zero =>
    obtain ⟨result, rfl⟩ := Outcome.ok.inj run
    obtain ⟨rfl, rfl, rfl⟩ := by simpa using result
    exact ⟨0, ⟨skip, t⟩, .start, rfl, le_rfl, .inl ⟨rfl, rfl, rfl⟩⟩
  | succ left ih =>
    rw [chunkLoop_succ] at run
    by_cases halted : t.cpu.isHalted = true
    · rw [if_pos halted] at run
      obtain ⟨result, rfl⟩ := Outcome.ok.inj run
      obtain ⟨rfl, rfl, rfl⟩ := by simpa using result
      exact ⟨0, ⟨skip, t⟩, .start, rfl, Nat.zero_le _,
        .inr ⟨.halted, rfl, by decide, .halted ⟨skip, t⟩ halted, Nat.succ_pos _⟩⟩
    rw [if_neg halted] at run
    have live : t.cpu.isHalted = false := by simpa using halted
    by_cases hit : Cursor.Hit watch ⟨skip, t⟩
    · rw [if_pos hit] at run
      obtain ⟨result, rfl⟩ := Outcome.ok.inj run
      obtain ⟨rfl, rfl, rfl⟩ := by simpa using result
      exact ⟨0, ⟨skip, t⟩, .start, rfl, Nat.zero_le _,
        .inr ⟨.breakpoint, rfl, by decide, .breakpoint ⟨skip, t⟩ live hit, Nat.succ_pos _⟩⟩
    rw [if_neg hit] at run
    generalize attempted : (fetchExecute env t.cpu.pc).run t = outcome at run
    have shape := fetchExecute_attempt env t.cpu.pc t
    rw [attempted] at shape
    cases shape with
    | done inst m touched =>
      rw [Outcome.andThen_ok] at run
      obtain ⟨n, c, path, count, bound, ending⟩ := ih run
      have step : ExecStep env watch ⟨skip, t⟩ ⟨if watch then none else skip, t.completed inst m⟩ :=
        .mk ⟨skip, t⟩ live hit inst m attempted
      refine ⟨1 + n, c, (HostPath.start.exec step).trans path, by omega, by omega, ?_⟩
      rcases ending with ⟨rfl, rfl, rfl⟩ | ⟨status, rfl, notRunning, stop, early⟩
      · exact .inl ⟨rfl, by omega, rfl⟩
      · exact .inr ⟨status, rfl, notRunning, stop, by omega⟩
    | trap inst err m asked =>
      rw [Outcome.andThen_ok] at run
      obtain ⟨messages, reported⟩ := reportSliceError_run t.cpu.pc inst err
        ({ t with machine := m }.log (.executed t.cpu.pc inst m.cpu.pc false))
      change ((reportSliceError t.cpu.pc inst err).run
        ({ t with machine := m }.log (.executed t.cpu.pc inst m.cpu.pc false))).andThen _ = _ at run
      rw [reported, Outcome.andThen_ok] at run
      obtain ⟨result, rfl⟩ := Outcome.ok.inj run
      obtain ⟨rfl, rfl, rfl⟩ := by simpa using result
      exact ⟨0, ⟨skip, t⟩, .start, rfl, Nat.zero_le _, .inr ⟨.trapped, rfl, by decide,
        .trapped ⟨skip, t⟩ live hit inst err m messages attempted, Nat.succ_pos _⟩⟩
    | panic => cases run
    | exhausted => cases run

theorem chunkLoop_path {left done done' : Nat} {skip skip' : Option U32}
    {stopped : Option SliceStatus}
    {t t' : Tracked} (run : (chunkLoop env watch left skip done).run t =
      .ok (done', skip', stopped) t') :
    ∃ n c, SlicePath env watch ⟨skip, t⟩ n c ∧ done' = done + n ∧ n ≤ left ∧
      ((stopped = none ∧ n = left ∧ c = ⟨skip', t'⟩) ∨
        ∃ status, stopped = some status ∧ status ≠ .running ∧ SliceStop env watch c status t' ∧
          n < left) := by
  obtain ⟨n, c, path, rest⟩ := chunkLoop_walk run
  exact ⟨n, c, path.slicePath, rest⟩

/-- A chunk that did not stop early did all it was given. -/
theorem chunkLoop_whole {left done done' : Nat} {skip skip' : Option U32} {t t' : Tracked}
    (run : (chunkLoop env watch left skip done).run t = .ok (done', skip', none) t') :
    done' = done + left := by
  obtain ⟨n, c, -, count, -, ⟨-, rfl, -⟩ | ⟨status, stopped, -⟩⟩ := chunkLoop_walk run
  · exact count
  · cases stopped

/-- A poll interval is never zero: `0` means 1000 and a negative delay is a huge one. -/
theorem Poll.interval_pos (answer : Poll) : 0 < answer.interval := by
  unfold interval
  dsimp only
  split
  · decide
  · next nonzero => exact Nat.pos_of_ne_zero nonzero

theorem pollInterrupt_run (answer : Poll) (t : Tracked) :
    (pollInterrupt answer).run t =
      .ok () (if answer.delivers t.cpu then t.interrupted answer.externalInterrupt else t) := by
  rw [pollInterrupt, run_bind, run_onMachine_getCpu, Outcome.andThen_ok]
  by_cases delivers : answer.delivers t.cpu = true
  · rw [if_pos delivers, if_pos delivers]
    rfl
  · rw [if_neg delivers, if_neg delivers, run_pure]

/-- The state in which a poll leaves the machine. -/
def Tracked.polled (t : Tracked) (answer : Poll) : Tracked :=
  if answer.delivers t.cpu then t.interrupted answer.externalInterrupt else t

/-- What a poll does is at most one interrupt step. -/
theorem poll_path {answers : Set Poll} {answer : Poll} (asked : answer ∈ answers)
    (skip : Option U32) {t : Tracked}
    (live : t.cpu.isHalted = false) :
    HostPath env watch answers ⟨skip, t⟩ 0 ⟨skip, t.polled answer⟩ := by
  unfold Tracked.polled
  split
  · next delivers => exact .irq .start live answer asked delivers
  · exact .start

/-- One round of the outer loop, on a live machine with budget left. -/
theorem sliceLoop_round {poll : Nat → Poll} {budget executed : Nat} (fuel polls : Nat)
    (skip : Option U32) {t : Tracked}
    (live : t.cpu.isHalted = false) (left : executed < budget) :
    (sliceLoop env poll watch budget (fuel + 1) polls skip executed).run t =
      ((chunkLoop env watch (min (poll polls).interval (budget - executed)) skip 0).run
        (t.polled (poll polls))).andThen fun result u =>
          match result.2.2 with
          | some status => .ok (status, executed + result.1) u
          | none =>
            (sliceLoop env poll watch budget fuel (polls + 1) result.2.1 (executed + result.1)).run
              u := by
  rw [sliceLoop, run_bind, run_onMachine_getCpu, Outcome.andThen_ok, if_neg (by simp [live]),
    if_neg (by omega),
    run_bind, pollInterrupt_run, Outcome.andThen_ok, run_bind]
  congr 1
  funext ⟨done, skip', stopped⟩ u
  cases stopped <;> rfl

theorem sliceLoop_halted {poll : Nat → Poll} {budget executed : Nat} (fuel polls : Nat)
    (skip : Option U32) {t : Tracked}
    (halted : t.cpu.isHalted = true) :
    (sliceLoop env poll watch budget (fuel + 1) polls skip executed).run t =
      .ok (.halted, executed) t := by
  rw [sliceLoop, run_bind, run_onMachine_getCpu, Outcome.andThen_ok, if_pos halted, run_pure]

theorem sliceLoop_spent {poll : Nat → Poll} {budget executed : Nat} (fuel polls : Nat)
    (skip : Option U32) {t : Tracked}
    (live : t.cpu.isHalted = false) (spent : budget ≤ executed) :
    (sliceLoop env poll watch budget (fuel + 1) polls skip executed).run t =
      .ok (.running, executed) t := by
  rw [sliceLoop, run_bind, run_onMachine_getCpu, Outcome.andThen_ok, if_neg (by simp [live]),
    if_pos spent, run_pure]

/-- The outer loop walks a path and stops; only a spent budget leaves it running. -/
theorem sliceLoop_hostPath {poll : Nat → Poll} {answers : Set Poll} (asked : ∀ k, poll k ∈ answers)
    {budget fuel polls executed total : Nat} {skip : Option U32} {status : SliceStatus}
    {t t' : Tracked}
    (within : executed ≤ budget)
    (run : (sliceLoop env poll watch budget fuel polls skip executed).run t =
      .ok (status, total) t') :
    ∃ n c, HostPath env watch answers ⟨skip, t⟩ n c ∧ total = executed + n ∧ total ≤ budget ∧
      SliceStop env watch c status t' ∧ (status = .running → total = budget) ∧
      (status = .breakpoint → total < budget) := by
  induction fuel generalizing polls executed skip t with
  | zero => cases run
  | succ fuel ih =>
    by_cases halted : t.cpu.isHalted = true
    · rw [sliceLoop_halted _ _ _ halted] at run
      obtain ⟨result, rfl⟩ := Outcome.ok.inj run
      obtain ⟨rfl, rfl⟩ := by simpa using result
      exact ⟨0, ⟨skip, t⟩, .start, rfl, within, .halted ⟨skip, t⟩ halted, by simp, by simp⟩
    have live : t.cpu.isHalted = false := by simpa using halted
    by_cases spent : budget ≤ executed
    · rw [sliceLoop_spent _ _ _ live spent] at run
      obtain ⟨result, rfl⟩ := Outcome.ok.inj run
      obtain ⟨rfl, rfl⟩ := by simpa using result
      exact ⟨0, ⟨skip, t⟩, .start, rfl, within, .running ⟨skip, t⟩ live, fun _ => by omega, by simp⟩
    rw [sliceLoop_round _ _ _ live (by omega)] at run
    obtain ⟨⟨done, skip', stopped⟩, v, chunk, rest⟩ := Outcome.andThen_eq_ok.mp run
    obtain ⟨n, c, path, count, bound, ending⟩ := chunkLoop_walk chunk
    have short : n ≤ budget - executed := bound.trans (Nat.min_le_right _ _)
    have arrived : HostPath env watch answers ⟨skip, t⟩ 0 ⟨skip, t.polled (poll polls)⟩ :=
      poll_path (asked polls) skip live
    have walked : HostPath env watch answers ⟨skip, t⟩ n c := by
      simpa using arrived.trans (path.mono (Set.empty_subset _))
    rcases ending with ⟨rfl, -, rfl⟩ | ⟨status', rfl, notRunning, stop, early⟩
    · obtain ⟨k, c', path', total', bound', stop', spent'⟩ := ih (by omega) rest
      exact ⟨n + k, c', walked.trans path', by omega, bound', stop', spent'⟩
    · obtain ⟨result, rfl⟩ := Outcome.ok.inj rest
      obtain ⟨rfl, rfl⟩ := by simpa using result
      exact ⟨n, c, walked,
        by omega, by omega, stop, fun running => absurd running notRunning, fun _ => by omega⟩

end Slices

/-- What no instruction and no interrupt touches: the debug settings, the hook,
the trap mark and the pending report. -/
def Cpu.settings (cpu : Cpu) : Bool × Finset U32 × Bool × Bool × Option U32 :=
  (cpu.debugEnabled, cpu.breakpoints, cpu.hasCustomSyscalls, cpu.trapped, cpu.resumePastBreakpoint)

@[simp] theorem Cpu.settings_writeReg (cpu : Cpu) (r : Fin 32) (val : U32) :
    (cpu.writeReg r val).settings = cpu.settings := by
  unfold writeReg
  split <;> rfl

theorem settings_of_execFrame {m m' : Machine} (touched : execFrame.rel m m') :
    m'.cpu.settings = m.cpu.settings := by
  refine Frame.of_closure (F := Frame.of fun m : Machine => m.cpu.settings) ?_ touched
  intro s t touch
  cases touch with
  | reg r val => exact Cpu.settings_writeReg _ _ _
  | _ => rfl

theorem stepCounter_writeReg (cpu : Cpu) (r : Fin 32) (val : U32) :
    (cpu.writeReg r val).stepCounter = cpu.stepCounter := by
  unfold Cpu.writeReg
  split <;> rfl

theorem stepCounter_of_execFrame {m m' : Machine} (touched : execFrame.rel m m') :
    m'.cpu.stepCounter = m.cpu.stepCounter := by
  refine Frame.of_closure (F := Frame.of fun m : Machine => m.cpu.stepCounter) ?_ touched
  intro s t touch
  cases touch with
  | reg r val => exact stepCounter_writeReg _ _ _
  | _ => rfl

theorem touched_of_run {env : Env} {pc : U32} {t u : Tracked} {inst : Fetched}
    (run : (fetchExecute env pc).run t = .ok (inst, .ok ()) u) :
    execFrame.rel t.machine u.machine := by
  have shape := fetchExecute_attempt env pc t
  rw [run] at shape
  cases shape with
  | done _ _ touched => exact touched

theorem asked_of_run {env : Env} {pc : U32} {t u : Tracked} {inst : Fetched} {err : CpuError}
    (run : (fetchExecute env pc).run t = .ok (inst, .error err) u) :
    askFrame.rel t.machine u.machine := by
  have shape := fetchExecute_attempt env pc t
  rw [run] at shape
  cases shape with
  | trap _ _ _ asked => exact asked

/-- A stop keeps what neither a pending breakpoint nor a trap changes. -/
theorem SliceStop.keeps {env : Env} {watch : Bool} {c : Cursor} {status : SliceStatus}
    {t : Tracked} {α : Type}
    (look : Cpu → α) (resume : ∀ cpu pc, look { cpu with resumePastBreakpoint := pc } = look cpu)
    (trap : ∀ cpu : Cpu, look cpu.trap = look cpu) (stop : SliceStop env watch c status t) :
    look t.cpu = look c.state.cpu := by
  cases stop with
  | running => rfl
  | halted => rfl
  | breakpoint => exact resume c.state.cpu _
  | trapped live clear inst err m messages run =>
    have same : m.cpu = c.state.cpu := (asked_of_run run).1
    exact (trap m.cpu).trans (congrArg look same)

theorem SlicePath.settings {env : Env} {watch : Bool} {start c : Cursor} {n : Nat}
    (path : SlicePath env watch start n c) : c.state.cpu.settings = start.state.cpu.settings := by
  induction path with
  | start => rfl
  | exec _ step ih =>
    cases step with
    | mk live clear inst m run => exact (settings_of_execFrame (touched_of_run run)).trans ih
  | irq _ step ih =>
    cases step with
    | mk live enabled irq => exact ih

/-- Whether a slice looks at breakpoints. -/
def Cpu.watches (cpu : Cpu) : Bool := cpu.debugEnabled && decide (cpu.breakpoints ≠ ∅)

section Settings

variable {env : Env} {watch : Bool} {start c : Cursor} {n : Nat}

theorem SlicePath.debugEnabled (path : SlicePath env watch start n c) :
    c.state.cpu.debugEnabled = start.state.cpu.debugEnabled :=
  congrArg (fun settings => settings.1) path.settings

theorem SlicePath.breakpoints (path : SlicePath env watch start n c) :
    c.state.cpu.breakpoints = start.state.cpu.breakpoints :=
  congrArg (fun settings => settings.2.1) path.settings

theorem SlicePath.resumePastBreakpoint (path : SlicePath env watch start n c) :
    c.state.cpu.resumePastBreakpoint = start.state.cpu.resumePastBreakpoint :=
  congrArg (fun settings => settings.2.2.2.2) path.settings

theorem SlicePath.watches (path : SlicePath env watch start n c) :
    c.state.cpu.watches = start.state.cpu.watches := by
  rw [Cpu.watches, Cpu.watches, path.debugEnabled, path.breakpoints]

end Settings

/-- The loop state a slice starts from: the pending report becomes the skip. -/
def Tracked.entry (t : Tracked) : Cursor :=
  ⟨t.cpu.resumePastBreakpoint, t.withCpu { t.cpu with resumePastBreakpoint := none }⟩

/-- `run_slice` without its layers. -/
theorem runSlice_run (env : Env) (poll : Nat → Poll) (budget : U32) (t : Tracked) :
    (runSlice env poll budget).run t =
      ((sliceLoop env poll t.cpu.watches budget.toNat (budget.toNat + 1) 0 t.entry.skip 0).run
        t.entry.state).andThen
        fun result u => .ok ⟨result.1, result.2, u.cpu.pc, u.cpu.exitCode⟩ u := by
  rw [runSlice, run_bind, run_onMachine_getCpu, Outcome.andThen_ok, run_bind,
    run_onMachine_modifyCpu,
    Outcome.andThen_ok, run_bind]
  rfl

/-- What a slice can do, and what the host had to do with it. -/
theorem runSlice_hostPath {env : Env} {poll : Nat → Poll} {answers : Set Poll}
    (asked : ∀ k, poll k ∈ answers)
    {budget : U32} {out : SliceOutcome} {t t' : Tracked}
    (run : (runSlice env poll budget).run t = .ok out t') :
    ∃ c, HostPath env t.cpu.watches answers t.entry out.steps c ∧
      SliceStop env t.cpu.watches c out.status t' ∧
      out.steps ≤ budget.toNat ∧ (out.status = .running → out.steps = budget.toNat) ∧
      out.pc = t'.cpu.pc ∧ out.exitCode = t'.cpu.exitCode ∧
      (out.status = .breakpoint → out.steps < budget.toNat) := by
  rw [runSlice_run] at run
  obtain ⟨⟨status, executed⟩, u, loop, rest⟩ := Outcome.andThen_eq_ok.mp run
  obtain ⟨n, c, path, count, bound, stop, spent, early⟩ :=
    sliceLoop_hostPath asked (Nat.zero_le _) loop
  obtain ⟨rfl, rfl⟩ := Outcome.ok.inj rest
  rw [Nat.zero_add] at count
  subst count
  exact ⟨c, path, stop, bound, spent, rfl, rfl, early⟩

theorem runSlice_path {env : Env} {poll : Nat → Poll} {budget : U32} {out : SliceOutcome}
    {t t' : Tracked}
    (run : (runSlice env poll budget).run t = .ok out t') :
    ∃ c, SlicePath env t.cpu.watches t.entry out.steps c ∧
      SliceStop env t.cpu.watches c out.status t' ∧
      out.steps ≤ budget.toNat ∧ (out.status = .running → out.steps = budget.toNat) ∧
      out.pc = t'.cpu.pc ∧ out.exitCode = t'.cpu.exitCode ∧
      (out.status = .breakpoint → out.steps < budget.toNat) := by
  obtain ⟨c, path, rest⟩ := runSlice_hostPath (fun _ => Set.mem_univ _) run
  exact ⟨c, path.slicePath, rest⟩

/-- The breakpoint check of `step_instruction`. -/
def Cpu.StepHit (cpu : Cpu) : Prop :=
  cpu.debugEnabled = true ∧ cpu.pc ∈ cpu.breakpoints ∧ cpu.resumePastBreakpoint ≠ some cpu.pc

instance (cpu : Cpu) : Decidable cpu.StepHit := inferInstanceAs (Decidable (_ ∧ _ ∧ _))

/-- `step_instruction` without its layers. -/
theorem stepInstruction_run (env : Env) (t : Tracked) :
    (stepInstruction env).run t =
      if t.cpu.StepHit then
        .ok (.breakpointHit t.cpu.pc)
          (t.withCpu { t.cpu with resumePastBreakpoint := some t.cpu.pc })
      else if t.cpu.isHalted then .ok (.halted t.cpu.exitCode) t.entry.state
      else ((fetchExecute env t.cpu.pc).run t.entry.state).andThen fun attempted u =>
        match attempted.2 with
        | .error err => ((reportStepError err).run
            ((u.log (.executed t.cpu.pc attempted.1 u.cpu.pc false)).withCpu
              u.cpu.countStep)).andThen fun _ v =>
              .ok (.trap t.cpu.pc) (v.withCpu v.cpu.trap)
        | .ok _ => .ok (if u.cpu.isHalted then .halted u.cpu.exitCode else .ok)
            ((u.log (.executed t.cpu.pc attempted.1 u.cpu.pc true)).withCpu u.cpu.countStep) := by
  rw [stepInstruction, run_bind, run_onMachine_getCpu, Outcome.andThen_ok]
  dsimp only
  by_cases hit : t.cpu.StepHit
  · rw [if_pos hit]
    change t.cpu.debugEnabled = true ∧ t.cpu.pc ∈ t.cpu.breakpoints ∧ _ at hit
    rw [if_pos hit]
    rfl
  · rw [if_neg hit]
    change ¬(t.cpu.debugEnabled = true ∧ t.cpu.pc ∈ t.cpu.breakpoints ∧ _) at hit
    rw [if_neg hit, run_bind, run_onMachine_modifyCpu, Outcome.andThen_ok]
    by_cases halted : t.cpu.isHalted = true
    · rw [if_pos halted, if_pos halted]
      rfl
    · rw [if_neg halted, if_neg halted, run_bind]
      congr 1
      funext ⟨inst, result⟩ u
      cases result <;> rfl

/-- The ways a single step ends. -/
inductive StepEnd (env : Env) (t : Tracked) : StepResult → Tracked → Prop where
  | breakpointHit (hit : t.cpu.StepHit) :
      StepEnd env t (.breakpointHit t.cpu.pc)
        (t.withCpu { t.cpu with resumePastBreakpoint := some t.cpu.pc })
  | halted (clear : ¬t.cpu.StepHit) (halted : t.cpu.isHalted = true) :
      StepEnd env t (.halted t.cpu.exitCode) t.entry.state
  | done (clear : ¬t.cpu.StepHit) (live : t.cpu.isHalted = false) (inst : Fetched) (m : Machine)
      (run : (fetchExecute env t.cpu.pc).run t.entry.state = .ok (inst, .ok ())
        { t with machine := m }) :
      StepEnd env t (if m.cpu.isHalted then .halted m.cpu.exitCode else .ok) (t.completed inst m)
  | trap (clear : ¬t.cpu.StepHit) (live : t.cpu.isHalted = false) (inst : Fetched) (err : CpuError)
    (m : Machine)
      (messages : List Diagnostic)
      (run : (fetchExecute env t.cpu.pc).run t.entry.state = .ok (inst, .error err)
        { t with machine := m }) :
      StepEnd env t (.trap t.cpu.pc)
        ((t.trapped inst m messages).withCpu
          { m.cpu.trap with stepCounter := m.cpu.stepCounter + 1 })

theorem stepInstruction_end {env : Env} {t t' : Tracked} {result : StepResult}
    (run : (stepInstruction env).run t = .ok result t') : StepEnd env t result t' := by
  rw [stepInstruction_run] at run
  by_cases hit : t.cpu.StepHit
  · rw [if_pos hit] at run
    obtain ⟨rfl, rfl⟩ := Outcome.ok.inj run
    exact .breakpointHit hit
  rw [if_neg hit] at run
  by_cases halted : t.cpu.isHalted = true
  · rw [if_pos halted] at run
    obtain ⟨rfl, rfl⟩ := Outcome.ok.inj run
    exact .halted hit halted
  rw [if_neg halted] at run
  have live : t.cpu.isHalted = false := by simpa using halted
  generalize attempted : (fetchExecute env t.cpu.pc).run t.entry.state = outcome at run
  have shape := fetchExecute_attempt env t.cpu.pc t.entry.state
  rw [attempted] at shape
  cases shape with
  | done inst m touched =>
    obtain ⟨rfl, rfl⟩ := Outcome.ok.inj run
    exact .done hit live inst m attempted
  | trap inst err m asked =>
    rw [Outcome.andThen_ok] at run
    obtain ⟨messages, reported⟩ := reportStepError_run err
      (({ t with machine := m }.log (.executed t.cpu.pc inst m.cpu.pc false)).withCpu
        m.cpu.countStep)
    change ((reportStepError err).run
      (({ t with machine := m }.log (.executed t.cpu.pc inst m.cpu.pc false)).withCpu
        m.cpu.countStep)).andThen _ = _
      at run
    rw [reported, Outcome.andThen_ok] at run
    obtain ⟨rfl, rfl⟩ := Outcome.ok.inj run
    exact .trap hit live inst err m messages attempted
  | panic => cases run
  | exhausted => cases run

/-- Bytes from address zero on, as a flat binary is loaded. -/
def Memory.program (bytes : List U8) : Memory :=
  bytes.zipIdx.foldl (fun mem (b, i) => mem.store (BitVec.ofNat 32 i) b) Memory.new

/-- A fresh machine on a program. -/
def Tracked.program (bytes : List U8) : Tracked where
  machine := { cpu := Cpu.new, bus := { mem := Memory.program bytes, world := ⟨[], []⟩ } }
  history := []

end RiscvRs
