import RiscvRs.Exec.Compressed

/-! The two drivers of the executor: single steps and budgeted slices. -/

namespace RiscvRs

open Effects Prog

/-- What the guest did. `executed` says where the instruction stood, where `pc`
was afterwards and whether it completed without a trap. -/
inductive GuestEvent where
  | loaded
  | executed (pc : U32) (inst : Fetched) (next : U32) (completed : Bool)
  | interrupted (irq pc next : U32)
deriving DecidableEq, Repr

/-- A machine with the record of its guest, newest first. The record is a ghost:
no definition of the simulator reads it. -/
structure Tracked where
  machine : Machine
  history : List GuestEvent

abbrev Driver := Prog Tracked Empty

def onMachine {α : Type} (x : Prog Machine Empty α) : Driver α :=
  zoom Tracked.machine (fun m t => { t with machine := m }) x

def Tracked.cpu (t : Tracked) : Cpu := t.machine.cpu

def record (event : GuestEvent) : Driver Unit :=
  modify fun t => { t with history := event :: t.history }

def diagnose (message : Diagnostic) : Driver Unit :=
  onMachine (onBus (modify fun bus =>
    { bus with world := { bus.world with diagnostics := message :: bus.world.diagnostics } }))

inductive StepResult where
  | ok
  | breakpointHit (addr : U32)
  | halted (exitCode : U32)
  | trap (pc : U32)
deriving DecidableEq, Repr

inductive SliceStatus where
  | running
  | halted
  | trapped
  | breakpoint
deriving DecidableEq, Repr

structure SliceOutcome where
  status : SliceStatus
  steps : Nat
  pc : U32
  exitCode : U32
deriving DecidableEq, Repr

/-- Dispatch on the low halfword; a second read only for a word the window missed. -/
def executeFetched (env : Env) (pc window : U32) (wide : Bool) :
    Driver (Fetched × Except CpuError Unit) := do
  let inst16 : U16 := window.setWidth 16
  if inst16 &&& 0x3 ≠ 0x3 then
    let result ← onMachine (attempt (executeInst16 env inst16))
    return (.half inst16, result)
  else
    let inst32 ← if wide then pure window else onMachine (onBus (Memory.readU32 env.host pc))
    let result ← onMachine (attempt (executeInst32 env inst32))
    return (.word inst32, result)

/-- The fetch-and-execute block that `step_instruction` and `run_slice` both contain. -/
def fetchExecute (env : Env) (pc : U32) : Driver (Fetched × Except CpuError Unit) := do
  let (window, wide) ← onMachine (onBus (Memory.fetchWindow env.host pc))
  executeFetched env pc window wide

/-- Every trap stops the machine. -/
def Cpu.trap (cpu : Cpu) : Cpu :=
  { cpu with trapped := true, exitCode := trapExitCode, isHalted := true }

def Cpu.countStep (cpu : Cpu) : Cpu := { cpu with stepCounter := cpu.stepCounter + 1 }

/-- The messages of a trap taken by `step_instruction`. -/
def reportStepError (err : CpuError) : Driver Unit := do
  diagnose (.printErr err.text)
  match err with
  | .unknownSyscall sysNum a0 a1 a2 a3 =>
    diagnose (.printErr err.text)
    diagnose (.notifyUnknownSyscall sysNum a0 a1 a2 a3)
  | _ => return ()

def stepInstruction (env : Env) : Driver StepResult := do
  let cpu ← onMachine getCpu
  let pc := cpu.pc
  if cpu.debugEnabled ∧ pc ∈ cpu.breakpoints ∧ cpu.resumePastBreakpoint ≠ some pc then
    onMachine (modifyCpu fun cpu => { cpu with resumePastBreakpoint := some pc })
    return .breakpointHit pc
  else
    onMachine (modifyCpu fun cpu => { cpu with resumePastBreakpoint := none })
    if cpu.isHalted then
      return .halted cpu.exitCode
    else
      let (inst, result) ← fetchExecute env pc
      let after ← onMachine getCpu
      record (.executed pc inst after.pc result.isOk)
      onMachine (modifyCpu Cpu.countStep)
      match result with
      | .error err =>
        reportStepError err
        onMachine (modifyCpu Cpu.trap)
        return .trap pc
      | .ok _ => return if after.isHalted then .halted after.exitCode else .ok

/-- The messages of a trap taken by `run_slice`. -/
def reportSliceError (pc : U32) (inst : Fetched) (err : CpuError) : Driver Unit := do
  match err with
  | .unknownSyscall sysNum a0 a1 a2 a3 =>
    diagnose (.printErr ("Unknown Syscall: " ++ toString sysNum.toNat ++ " (a0: " ++
      hexPadded 1 a0.toNat ++ ", a1: " ++ hexPadded 1 a1.toNat ++ ", a2: " ++
        hexPadded 1 a2.toNat ++
      ", a3: " ++ hexPadded 1 a3.toNat ++ ")\n"))
    diagnose (.notifyUnknownSyscall sysNum a0 a1 a2 a3)
  | _ =>
    match inst with
    | .half _ =>
      diagnose (.printErr ("CPU Exec Error (Compressed) at PC " ++ hexPadded 8 pc.toNat ++ ": " ++
        err.text ++ "\n"))
    | .word _ =>
      diagnose (.printErr ("CPU Exec Error at PC " ++ hexPadded 8 pc.toNat ++ ": " ++
        err.text ++ "\n"))

/-- The inner loop of `run_slice`, with `left = chunk - done` iterations to go.
Returns the instructions done, the one-shot skip and the reason to stop. -/
def chunkLoop (env : Env) (watch : Bool) : Nat → Option U32 → Nat →
    Driver (Nat × Option U32 × Option SliceStatus)
  | 0, skip, done => return (done, skip, none)
  | left + 1, skip, done => do
    let cpu ← onMachine getCpu
    let pc := cpu.pc
    if cpu.isHalted then
      return (done, skip, some .halted)
    else if watch ∧ pc ∈ cpu.breakpoints ∧ skip ≠ some pc then
      onMachine (modifyCpu fun cpu => { cpu with resumePastBreakpoint := some pc })
      return (done, skip, some .breakpoint)
    else
      let skip := if watch then none else skip
      let (inst, result) ← fetchExecute env pc
      let after ← onMachine getCpu
      record (.executed pc inst after.pc result.isOk)
      match result with
      | .error err =>
        reportSliceError pc inst err
        onMachine (modifyCpu Cpu.trap)
        return (done, skip, some .trapped)
      | .ok _ =>
        onMachine (modifyCpu Cpu.countStep)
        chunkLoop env watch left skip (done + 1)

/-- `js_get_int_inst_delay() as u64`, with zero read as 1000. -/
def Poll.interval (answer : Poll) : Nat :=
  let delay := (answer.getIntInstDelay.signExtend 64).toNat
  if delay = 0 then 1000 else delay

/-- The interrupt a poll delivers, if any. -/
def Poll.delivers (answer : Poll) (cpu : Cpu) : Bool :=
  answer.interruptEnabled ≠ 0 && cpu.interruptsEnabled && answer.externalInterrupt ≠ 0

def pollInterrupt (answer : Poll) : Driver Unit := do
  let cpu ← onMachine getCpu
  if answer.delivers cpu then
    onMachine (modifyCpu (·.handleInterrupt answer.externalInterrupt))
    let after ← onMachine getCpu
    record (.interrupted answer.externalInterrupt cpu.pc after.pc)

/-- The outer loop of `run_slice`; `polls` counts the polls made so far. -/
def sliceLoop (env : Env) (poll : Nat → Poll) (watch : Bool) (budget : Nat) :
    Nat → Nat → Option U32 → Nat → Driver (SliceStatus × Nat)
  | 0, _, _, _ => exhausted
  | fuel + 1, polls, skip, executed => do
    let cpu ← onMachine getCpu
    if cpu.isHalted then
      return (.halted, executed)
    else if executed ≥ budget then
      return (.running, executed)
    else
      pollInterrupt (poll polls)
      let chunk := min (poll polls).interval (budget - executed)
      let (done, skip, stopped) ← chunkLoop env watch chunk skip 0
      match stopped with
      | some status => return (status, executed + done)
      | none => sliceLoop env poll watch budget fuel (polls + 1) skip (executed + done)

/-- Run at most `budget` instructions. `poll k` is what the host answers to the
`k`-th interrupt poll of this call. -/
def runSlice (env : Env) (poll : Nat → Poll) (budget : U32) : Driver SliceOutcome := do
  let cpu ← onMachine getCpu
  let watch := cpu.debugEnabled && decide (cpu.breakpoints ≠ ∅)
  let skip := cpu.resumePastBreakpoint
  onMachine (modifyCpu fun cpu => { cpu with resumePastBreakpoint := none })
  let (status, executed) ← sliceLoop env poll watch budget.toNat (budget.toNat + 1) 0 skip 0
  let cpu ← onMachine getCpu
  return { status := status, steps := executed, pc := cpu.pc, exitCode := cpu.exitCode }

/-- `run`, with fuel for its slices; `polls i` answers the polls of slice `i`. -/
def run (env : Env) (polls : Nat → Nat → Poll) : Nat → Nat → Driver U32
  | 0, _ => exhausted
  | fuel + 1, slice => do
    let outcome ← runSlice env (polls slice) 0xFFFFFFFF
    match outcome.status with
    | .running | .breakpoint => run env polls fuel (slice + 1)
    | .halted | .trapped =>
      onMachine (modifyCpu fun cpu => { cpu with isHalted := true })
      let cpu ← onMachine getCpu
      return cpu.exitCode

end RiscvRs
