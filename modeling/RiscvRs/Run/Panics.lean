import RiscvRs.Exec.Panics
import RiscvRs.Run.Moves

/-! The guest cannot crash its host, but for one instruction pair: in a build with
overflow checks a step panics exactly on a full-width double access at the very top
of the address space. -/

namespace RiscvRs

open Effects Prog

/-- The instruction at `pc` is a double access past the top. -/
def Tracked.AtOverflow (env : Env) (t : Tracked) : Prop :=
  ∃ inst bus, (fetch env.host t.cpu.pc).run t.machine.bus = .ok inst bus ∧ inst.Overflows t.cpu

section Fetching

variable {env : Env}

theorem total_fetch (host : Host) (pc : U32) : Total (fetch host pc) := by
  refine total_bind (total_fetchWindow host pc) fun fetched => ?_
  obtain ⟨window, wide⟩ := fetched
  dsimp only
  split
  · exact total_pure _
  · cases wide with
    | true => exact total_pure _
    | false => exact total_bind (total_readU32 host pc) fun _ => total_pure _

theorem ends_fetchExecute_iff (bounded : env.host.ReadsWithinCount) (t : Tracked) :
    ((fetchExecute env t.cpu.pc).run t).Ends ↔
      ¬(env.build.overflowChecks = true ∧ t.AtOverflow env) := by
  rcases total_fetch env.host t.cpu.pc t.machine.bus with ⟨inst, bus, fetched, -⟩ | ⟨e, -⟩
  · have here : t.AtOverflow env ↔ inst.Overflows t.cpu := by
      constructor
      · rintro ⟨inst', bus', again, overflows⟩
        obtain ⟨rfl, -⟩ := Outcome.ok.inj (again.symm.trans fetched)
        exact overflows
      · intro overflows
        exact ⟨inst, bus, fetched, overflows⟩
    have asked : (onMachine (onBus (fetch env.host t.cpu.pc))).run t =
        .ok inst { t with machine := { t.machine with bus := bus } } := by
      rw [run_onMachine, onBus, run_zoom, fetched]
      rfl
    rw [fetchExecute_eq, run_bind, asked, Outcome.andThen_ok, here,
      ends_bind_iff fun _ => total_pure _, onMachine,
      ends_zoom_iff, ends_attempt_iff]
    exact inst.ends_execute_iff bounded { t.machine with bus := bus }
  · exact e.elim

end Fetching

section Steps

variable {env : Env}

theorem ends_stepInstruction_iff (checked : env.build.overflowChecks = true)
    (bounded : env.host.ReadsWithinCount)
    (t : Tracked) : ((stepInstruction env).run t).Ends ↔
      ¬(¬t.cpu.StepHit ∧ t.cpu.isHalted = false ∧ t.AtOverflow env) := by
  rw [stepInstruction_run]
  split
  · next hit => exact iff_of_true trivial fun stuck => stuck.1 hit
  · next clear =>
    split
    · next halted =>
      refine iff_of_true trivial fun stuck => ?_
      rw [halted] at stuck
      exact Bool.false_ne_true stuck.2.1.symm
    · next live =>
      have executed : ((fetchExecute env t.cpu.pc).run t.entry.state).Ends ↔
        ¬(_ ∧ t.AtOverflow env) :=
        ends_fetchExecute_iff bounded t.entry.state
      rw [Outcome.ends_andThen_iff, executed]
      · simp [clear, live, checked]
      · rintro ⟨inst, result⟩ u
        cases result with
        | ok _ => trivial
        | error err =>
          dsimp only
          obtain ⟨messages, reported⟩ := reportStepError_run err
            ((u.log (.executed t.cpu.pc inst u.cpu.pc false)).withCpu u.cpu.countStep)
          rw [reported]
          trivial

/-- One iteration of the inner loop. -/
theorem ends_chunkLoop_iff (checked : env.build.overflowChecks = true)
    (bounded : env.host.ReadsWithinCount)
    (watch : Bool) (skip : Option U32) (done : Nat) (t : Tracked) :
    ((chunkLoop env watch 1 skip done).run t).Ends ↔
      ¬(t.cpu.isHalted = false ∧ ¬Cursor.Hit watch ⟨skip, t⟩ ∧ t.AtOverflow env) := by
  rw [chunkLoop_succ]
  split
  · next halted =>
    refine iff_of_true trivial fun stuck => ?_
    rw [halted] at stuck
    exact Bool.false_ne_true stuck.1.symm
  · next live =>
    split
    · next hit => exact iff_of_true trivial fun stuck => stuck.2.1 hit
    · next clear =>
      rw [Outcome.ends_andThen_iff, ends_fetchExecute_iff bounded]
      · simp [clear, live, checked]
      · rintro ⟨inst, result⟩ u
        cases result with
        | ok _ => trivial
        | error err =>
          dsimp only
          obtain ⟨messages, reported⟩ := reportSliceError_run t.cpu.pc inst err
            (u.log (.executed t.cpu.pc inst u.cpu.pc false))
          rw [reported]
          trivial

end Steps

section Counter

variable {env : Env} {watch : Bool}

theorem SlicePath.stepCounter {start c : Cursor} {n : Nat} (path : SlicePath env watch start n c) :
    c.state.cpu.stepCounter = start.state.cpu.stepCounter + n := by
  induction path with
  | start => rfl
  | exec _ step ih =>
    cases step with
    | mk live clear inst m run =>
      have same := stepCounter_of_execFrame (touched_of_run run)
      change m.cpu.stepCounter + 1 = _
      rw [same, ← Nat.add_assoc, ← ih]
      rfl
  | irq _ step ih =>
    cases step with
    | mk live enabled irq => exact ih

theorem SliceStop.stepCounter {c : Cursor} {status : SliceStatus} {t : Tracked}
    (stop : SliceStop env watch c status t) : t.cpu.stepCounter = c.state.cpu.stepCounter :=
  stop.keeps Cpu.stepCounter (fun _ _ => rfl) (fun _ => rfl)

theorem chunkLoop_stepCounter {left done : Nat} {skip : Option U32}
    {result : Nat × Option U32 × Option SliceStatus}
    {t t' : Tracked} (run : (chunkLoop env watch left skip done).run t = .ok result t') :
    t'.cpu.stepCounter ≤ t.cpu.stepCounter + left := by
  obtain ⟨done', skip', stopped⟩ := result
  obtain ⟨n, c, path, -, bound, ending⟩ := chunkLoop_path run
  have counted := path.stepCounter
  rcases ending with ⟨-, -, rfl⟩ | ⟨status, -, -, stop, -⟩
  · exact counted.trans_le (Nat.add_le_add_left bound _)
  · rw [stop.stepCounter, counted]
    exact Nat.add_le_add_left bound _

theorem stepInstruction_stepCounter {result : StepResult} {t t' : Tracked}
    (run : (stepInstruction env).run t = .ok result t') :
    t'.cpu.stepCounter ≤ t.cpu.stepCounter + 1 := by
  cases stepInstruction_end run with
  | breakpointHit hit => exact Nat.le_succ _
  | halted clear halted => exact Nat.le_succ _
  | done clear live inst m fetched =>
    have same : m.cpu.stepCounter = t.entry.state.cpu.stepCounter :=
      stepCounter_of_execFrame (touched_of_run fetched)
    exact Nat.succ_le_succ same.le
  | trap clear live inst err m messages fetched =>
    have same : m.cpu = t.entry.state.cpu := (asked_of_run fetched).1
    exact Nat.succ_le_succ (congrArg Cpu.stepCounter same).le

end Counter

/-- No guest can crash the host, except through the full-width `FLD` and `FSD` on the
last four bytes of the address space: the executors, the system calls, the poll and
both drivers end from every state unless that instruction is next, with every shift, every
division, every product and every lookup checked. Where they end, the step counter fits
a `u64`. -/
theorem step_ends_iff (env : Env) (checked : env.build.overflowChecks = true)
    (bounded : env.host.ReadsWithinCount) (t : Tracked) (room : t.cpu.stepCounter < 2 ^ 64 - 1) :
    (∀ raw, ((executeInst32 env raw).run t.machine).Ends ↔ ¬(Fetched.word raw).Overflows t.cpu) ∧
    (∀ inst, ((executeInst16 env inst).run t.machine).Ends) ∧
    ((handleEcall env).run t.machine).Ends ∧
    (∀ answer, ((pollInterrupt answer).run t).Ends) ∧
    (((stepInstruction env).run t).Ends ↔
      ¬(¬t.cpu.StepHit ∧ t.cpu.isHalted = false ∧ t.AtOverflow env)) ∧
    (∀ watch skip done, ((chunkLoop env watch 1 skip done).run t).Ends ↔
      ¬(t.cpu.isHalted = false ∧ ¬Cursor.Hit watch ⟨skip, t⟩ ∧ t.AtOverflow env)) ∧
    (∀ result t', (stepInstruction env).run t = .ok result t' → t'.cpu.stepCounter < 2 ^ 64) ∧
    (∀ watch skip done result t', (chunkLoop env watch 1 skip done).run t = .ok result t' →
      t'.cpu.stepCounter < 2 ^ 64) := by
  refine ⟨?_, ?_, ?_, ?_, ?_, ?_, ?_, ?_⟩
  · intro raw
    have ends := (Fetched.word raw).ends_execute_iff bounded t.machine
    rw [checked, eq_self_iff_true, true_and] at ends
    exact ends
  · intro inst
    exact ((Fetched.half inst).ends_execute_iff bounded t.machine).mpr And.right
  · exact (total_handleEcall bounded).ends t.machine
  · intro answer
    rw [pollInterrupt_run]
    trivial
  · exact ends_stepInstruction_iff checked bounded t
  · intro watch skip done
    exact ends_chunkLoop_iff checked bounded watch skip done t
  · intro result t' run
    have counted := stepInstruction_stepCounter run
    omega
  · intro watch skip done result t' run
    have counted := chunkLoop_stepCounter run
    omega

/-- A checked build on a host without input. -/
def Env.checkedBuild : Env :=
  { (default : Env) with build := { overflowChecks := true, usizeBits := 64 } }

/-- `div a0, a1, zero`, which never reaches the division. -/
theorem step_ends_iff_division :
    ((stepInstruction .checkedBuild).run (.program [0x33, 0xC5, 0x05, 0x02])).Ends := by
  have bounded : Env.checkedBuild.host.ReadsWithinCount :=
    fun _ count => Int.natCast_nonneg count.toNat
  obtain ⟨-, -, -, -, step, -⟩ :=
    step_ends_iff .checkedBuild rfl bounded (.program [0x33, 0xC5, 0x05, 0x02]) (by decide)
  refine step.mpr ?_
  rintro ⟨-, -, inst, bus, fetched, overflows⟩
  have first : (fetch Env.checkedBuild.host 0).run
    (Tracked.program [0x33, 0xC5, 0x05, 0x02]).machine.bus =
      .ok (.word 0x0205C533) _ := rfl
  obtain ⟨rfl, -⟩ := Outcome.ok.inj (first.symm.trans fetched)
  exact absurd overflows.1 (by decide)

/-- `fld f0, -4(x0)` panics on a fresh machine. -/
theorem fld_crashes_host :
    ∃ (env : Env) (bytes : List U8), env.build.overflowChecks = true ∧ env.host.ReadsWithinCount ∧
      (Tracked.program bytes).cpu.stepCounter < 2 ^ 64 - 1 ∧
      (executeInst32 env 0xFFC03007).run (Tracked.program bytes).machine = .panic ∧
      (stepInstruction env).run (.program bytes) = .panic := by
  have bounded : Env.checkedBuild.host.ReadsWithinCount :=
    fun _ count => Int.natCast_nonneg count.toNat
  exact ⟨.checkedBuild, [0x07, 0x30, 0xC0, 0xFF], rfl, bounded, by decide, rfl, rfl⟩

end RiscvRs
