import RiscvRs.Session.Frames

/-! The invariant of a simulator over whole sessions. The page table has its
65536 entries by type. -/

namespace RiscvRs

open Effects Prog

/-- The break stays between its start and the window, and the page of the window
is never allocated. -/
structure Memory.Sound (m : Memory) : Prop where
  initial : m.initialBrk = 0x1000000
  brk : m.initialBrk ≤ m.brkPtr ∧ m.brkPtr < mmioBase
  window : m.pages ⟨0xFFFF, by decide⟩ = none

theorem Memory.sound_new : Memory.new.Sound := ⟨rfl, by decide, rfl⟩

theorem Memory.Sound.setPage {m : Memory} (sound : m.Sound) {addr : U32} (ram : ¬addr ≥ mmioBase)
    (page : Page) :
    (m.setPage addr page).Sound := by
  refine ⟨sound.initial, sound.brk, ?_⟩
  have apart : (⟨0xFFFF, by decide⟩ : Fin 65536) ≠ ⟨idxOf addr, idxOf_lt addr⟩ := by
    intro same
    have index : 0xFFFF = idxOf addr := congrArg Fin.val same
    rw [idxOf_eq] at index
    rw [mmioBase_le_iff] at ram
    omega
  exact (Function.update_of_ne apart _ _).trans sound.window

/-- The part of the invariant that every instruction keeps. -/
structure Machine.Sound (m : Machine) : Prop where
  zero : m.cpu.regs 0 = 0
  mem : m.bus.mem.Sound

theorem Bus.sound_of_touch {bus bus' : Bus} (touched : bus.Touch bus') (sound : bus.mem.Sound) :
    bus'.mem.Sound := by
  cases touched with
  | record event => exact sound
  | page addr ram page => exact sound.setPage ram page
  | brk val range => exact ⟨sound.initial, range, sound.window⟩

theorem Cpu.regs_zero_writeReg {cpu : Cpu} (zero : cpu.regs 0 = 0) (r : Fin 32) (val : U32) :
    (cpu.writeReg r val).regs 0 = 0 := by
  unfold writeReg
  split
  · next nonzero => exact (Function.update_of_ne (Ne.symm nonzero) _ _).trans zero
  · exact zero

theorem Machine.Sound.touch {m m' : Machine} (sound : m.Sound) (touched : execFrame.rel m m') :
    m'.Sound := by
  refine Frame.of_closure (F := Frame.invariant Machine.Sound) ?_ touched sound
  intro s t touch kept
  cases touch with
  | bus bus touched => exact ⟨kept.zero, Bus.sound_of_touch touched kept.mem⟩
  | reg r val => exact ⟨Cpu.regs_zero_writeReg kept.zero r val, kept.mem⟩
  | freg r bits => exact ⟨kept.zero, kept.mem⟩
  | csrs csrs => exact ⟨kept.zero, kept.mem⟩
  | halt code => exact ⟨kept.zero, kept.mem⟩
  | pc next => exact ⟨kept.zero, kept.mem⟩

theorem Machine.Sound.ask {m m' : Machine} (sound : m.Sound) (asked : askFrame.rel m m') :
    m'.Sound := by
  obtain ⟨cpu, mem, -⟩ := asked
  refine ⟨by rw [cpu]; exact sound.zero, by rw [mem]; exact sound.mem⟩

/-- The invariant of a session. -/
structure Tracked.Sound (t : Tracked) : Prop where
  machine : t.machine.Sound
  trapped : t.cpu.trapped = true → t.cpu.isHalted = true ∧ t.cpu.exitCode = trapExitCode
  resume : ∀ addr, t.cpu.resumePastBreakpoint = some addr → addr = t.cpu.pc

/-- Between calls to the debugger, and all along a load: nothing is pending. -/
structure Tracked.Idle (t : Tracked) : Prop where
  machine : t.machine.Sound
  trapped : t.cpu.trapped = true → t.cpu.isHalted = true ∧ t.cpu.exitCode = trapExitCode
  resume : t.cpu.resumePastBreakpoint = none

theorem Tracked.Idle.sound {t : Tracked} (idle : t.Idle) : t.Sound :=
  ⟨idle.machine, idle.trapped, by simp [idle.resume]⟩

theorem Tracked.Sound.entry {t : Tracked} (sound : t.Sound) : t.entry.state.Idle :=
  ⟨⟨sound.machine.zero, sound.machine.mem⟩, sound.trapped, rfl⟩

section Run

variable {env : Env}

/-- A completed instruction. A live machine has not trapped. -/
theorem Tracked.Idle.completed {t : Tracked} (idle : t.Idle) (live : t.cpu.isHalted = false)
    {inst : Fetched}
    {m : Machine} (touched : execFrame.rel t.machine m) : (t.completed inst m).Idle := by
  have sound := idle.machine.touch touched
  have settings := settings_of_execFrame touched
  simp only [Cpu.settings, Prod.mk.injEq] at settings
  obtain ⟨-, -, -, trapped, resume⟩ := settings
  refine ⟨⟨sound.zero, sound.mem⟩, ?_, resume.trans idle.resume⟩
  intro trap
  have before : t.cpu.trapped = true := trapped.symm.trans trap
  have halted := (idle.trapped before).1
  rw [live] at halted
  cases halted

theorem Tracked.Idle.stopped {t : Tracked} (idle : t.Idle) {m : Machine}
    (asked : askFrame.rel t.machine m)
    (inst : Fetched) (messages : List Diagnostic) : (t.trapped inst m messages).Idle := by
  have sound := idle.machine.ask asked
  refine ⟨⟨sound.zero, sound.mem⟩, fun _ => ⟨rfl, rfl⟩, ?_⟩
  change m.cpu.resumePastBreakpoint = none
  rw [asked.1]
  exact idle.resume

theorem SlicePath.idle {watch : Bool} {start c : Cursor} {n : Nat}
    (path : SlicePath env watch start n c)
    (idle : start.state.Idle) : c.state.Idle := by
  induction path with
  | start => exact idle
  | exec _ step ih =>
    cases step with
    | mk live clear inst m run => exact ih.completed live (touched_of_run run)
  | irq _ step ih =>
    cases step with
    | mk live enabled irq => exact ⟨⟨ih.machine.zero, ih.machine.mem⟩, ih.trapped, ih.resume⟩

theorem SliceStop.sound {watch : Bool} {c : Cursor} {status : SliceStatus} {t : Tracked}
    (stop : SliceStop env watch c status t) (idle : c.state.Idle) : t.Sound := by
  cases stop with
  | running => exact idle.sound
  | halted => exact idle.sound
  | breakpoint =>
    refine ⟨⟨idle.machine.zero, idle.machine.mem⟩, idle.trapped, ?_⟩
    intro addr pending
    exact (Option.some.inj pending).symm
  | trapped live clear inst err m messages run =>
    exact (idle.stopped (asked_of_run run) inst messages).sound

theorem runSlice_sound {poll : Nat → Poll} {budget : U32} {out : SliceOutcome} {t t' : Tracked}
    (run : (runSlice env poll budget).run t = .ok out t') (sound : t.Sound) : t'.Sound := by
  obtain ⟨c, path, stop, -⟩ := runSlice_path run
  exact stop.sound (path.idle sound.entry)

theorem stepInstruction_sound {result : StepResult} {t t' : Tracked}
    (run : (stepInstruction env).run t = .ok result t') (sound : t.Sound) : t'.Sound := by
  cases stepInstruction_end run with
  | breakpointHit hit =>
    refine ⟨⟨sound.machine.zero, sound.machine.mem⟩, sound.trapped, ?_⟩
    intro addr pending
    exact (Option.some.inj pending).symm
  | halted => exact sound.entry.sound
  | done clear live inst m fetched =>
    exact (sound.entry.completed live (touched_of_run fetched)).sound
  | trap clear live inst err m messages fetched =>
    have idle := sound.entry.stopped (asked_of_run fetched) inst messages
    exact Tracked.Idle.sound ⟨⟨idle.machine.zero, idle.machine.mem⟩, fun _ => ⟨rfl, rfl⟩, idle.resume⟩

/-- The driver keeps the invariant. -/
theorem kept_sound : KeptByDriver env Tracked.Sound where
  slice := runSlice_sound
  halt sound := ⟨⟨sound.machine.zero, sound.machine.mem⟩, fun trap => ⟨rfl, (sound.trapped trap).2⟩,
    sound.resume⟩
  watch _ sound := ⟨⟨sound.machine.zero, sound.machine.mem⟩, sound.trapped, sound.resume⟩

end Run

def soundFrame : Frame Simulator := Frame.invariant fun s => s.tracked.Sound

def idleFrame : Frame Simulator := Frame.invariant fun s => s.tracked.Idle

section Calls

variable {α : Type} {env : Env}

/-- Programs on the bus that keep the memory sound. -/
theorem steady_onMemory {x : Prog Bus Empty α} {holds : Tracked → Prop}
    (memory : Steady (Frame.invariant fun bus : Bus => bus.mem.Sound) x)
    (lift : ∀ (t : Tracked) (bus : Bus), holds t →
      t.machine.bus.mem.Sound ∧
        (bus.mem.Sound → holds { t with machine := { t.machine with bus := bus } })) :
    Steady (keeping holds) (onMemory x) := by
  apply steady_of_ok
  intro s s' a run kept
  obtain ⟨bus, inner, rfl⟩ := onMemory_ok run
  obtain ⟨sound, put⟩ := lift s.tracked bus kept
  exact put (memory.ok inner sound)

theorem sound_bus (t : Tracked) (bus : Bus) (sound : t.Sound) :
    t.machine.bus.mem.Sound ∧
      (bus.mem.Sound → { t with machine := { t.machine with bus := bus } : Tracked }.Sound) :=
  ⟨sound.machine.mem, fun mem => ⟨⟨sound.machine.zero, mem⟩, sound.trapped, sound.resume⟩⟩

theorem idle_bus (t : Tracked) (bus : Bus) (idle : t.Idle) :
    t.machine.bus.mem.Sound ∧
      (bus.mem.Sound → { t with machine := { t.machine with bus := bus } : Tracked }.Idle) :=
  ⟨idle.machine.mem, fun mem => ⟨⟨idle.machine.zero, mem⟩, idle.trapped, idle.resume⟩⟩

theorem steady_writeBytes_sound (addr : U32) (bytes : List U8) :
    Steady (Frame.invariant fun bus : Bus => bus.mem.Sound)
      (Memory.writeBytes addr bytes : Prog Bus Empty Unit) :=
  steady_writeBytes (fun _ _ _ _ => id)
    (fun _ _ page ram sound => sound.setPage ram page) addr bytes

theorem steady_debugStep : Steady soundFrame (debugStep env) := by
  refine steady_bind (steady_onTracked stepInstruction_sound) fun result =>
    steady_bind steady_simCpu fun cpu => ?_
  cases result <;> simp

/-- Settings that leave registers, stop and pending report alone. -/
theorem steady_setting {f : Cpu → Cpu}
    (kept : ∀ cpu, (f cpu).regs = cpu.regs ∧ (f cpu).trapped = cpu.trapped ∧
      (f cpu).isHalted = cpu.isHalted ∧
      (f cpu).exitCode = cpu.exitCode ∧ (f cpu).resumePastBreakpoint = cpu.resumePastBreakpoint ∧
      (f cpu).pc = cpu.pc) :
    Steady soundFrame (onCpu f) := by
  apply steady_onCpu
  intro s sound
  obtain ⟨regs, trapped, halted, code, resume, pc⟩ := kept s.tracked.cpu
  refine ⟨⟨?_, sound.machine.mem⟩, ?_, ?_⟩
  · exact (congrFun regs 0).trans sound.machine.zero
  · rw [Tracked.cpu_withCpu, trapped, halted, code]
    exact sound.trapped
  · rw [Tracked.cpu_withCpu, resume, pc]
    exact sound.resume

theorem steady_debugStepOver (polls : Nat → Nat → Poll) (fuel : Nat) :
    Steady soundFrame (debugStepOver env polls fuel) := by
  refine steady_bind steady_simCpu fun cpu => ?_
  refine steady_bind (steady_onMemory (steady_readU32 _ (fun _ _ _ _ => id) _) sound_bus) fun inst => ?_
  split
  · refine steady_bind ?_ fun next => kept_sound.runToTemporary polls fuel next
    apply steady_of_ok
    intro s s' a run
    rw [addU32_ok run]
    exact id
  · exact steady_debugStep

end Calls

theorem Cpu.writeReg_keeps (cpu : Cpu) (r : Fin 32) (val : U32) :
    (cpu.writeReg r val).trapped = cpu.trapped ∧ (cpu.writeReg r val).isHalted = cpu.isHalted ∧
      (cpu.writeReg r val).exitCode = cpu.exitCode ∧
      (cpu.writeReg r val).resumePastBreakpoint = cpu.resumePastBreakpoint ∧
        (cpu.writeReg r val).pc = cpu.pc := by
  unfold writeReg
  split
  · exact ⟨rfl, rfl, rfl, rfl, rfl⟩
  · exact ⟨rfl, rfl, rfl, rfl, rfl⟩

/-- While nothing is pending, `pc` may be set. -/
theorem loadsWithin_idle : LoadsWithin idleFrame where
  copy addr content := steady_onMemory (steady_writeBytes_sound addr content) idle_bus
  place _ := steady_onCpu fun _ idle => ⟨⟨idle.machine.zero, idle.machine.mem⟩, idle.trapped,
    idle.resume⟩
  name _ _ := steady_modify fun _ => id
  init r val := by
    refine steady_onCpu fun s idle => ?_
    obtain ⟨trapped, halted, code, resume, -⟩ := s.tracked.cpu.writeReg_keeps r val
    refine ⟨⟨Cpu.regs_zero_writeReg idle.machine.zero _ _, idle.machine.mem⟩, ?_,
      resume.trans idle.resume⟩
    rw [Tracked.cpu_withCpu, trapped, halted, code]
    exact idle.trapped

/-- A load leaves an idle machine, whatever was there before. -/
theorem loadBinaryWithArgs_idle {env : Env} {bytes : List U8} {parse : ElfParser} {args : List Text}
    {entry : U32}
    {s s' : Simulator} (run : (loadBinaryWithArgs env bytes parse args).run s = .ok entry s') :
    s'.tracked.Idle :=
  loadBinaryWithArgs_within loadsWithin_idle run
    ⟨⟨rfl, Memory.sound_new⟩, fun trap => absurd trap Bool.false_ne_true, rfl⟩

/-- The calls of a session. Fuel bounds the loops that may not end; only calls
that return lead on. -/
inductive Request where
  | loadBinaryWithArgs (bytes : List U8) (parse : ElfParser) (args : List Text)
  | setHasCustomSyscalls (enabled : Bool)
  | setDebugMode (enabled : Bool)
  | addBreakpoint (addr : U32)
  | removeBreakpoint (addr : U32)
  | clearBreakpoints
  | writeRegister (regIdx : Nat) (val : U32)
  | writeMemoryByte (addr : U32) (val : U8)
  | runSlice (poll : Nat → Poll) (budget : U32)
  | runFull (polls : Nat → Nat → Poll) (fuel : Nat)
  | debugStep
  | debugStepOver (polls : Nat → Nat → Poll) (fuel : Nat)
  | debugStepOut (polls : Nat → Nat → Poll) (fuel : Nat)
  | runUntilBreakpoint (polls : Nat → Nat → Poll) (fuel : Nat)

/-- Perform a request and drop its answer. -/
def Request.perform (env : Env) : Request → Api Unit
  | loadBinaryWithArgs bytes parse args =>
    do let _ ← RiscvRs.loadBinaryWithArgs env bytes parse args
  | setHasCustomSyscalls enabled => RiscvRs.setHasCustomSyscalls enabled
  | setDebugMode enabled => RiscvRs.setDebugMode enabled
  | addBreakpoint addr => RiscvRs.addBreakpoint addr
  | removeBreakpoint addr => RiscvRs.removeBreakpoint addr
  | clearBreakpoints => RiscvRs.clearBreakpoints
  | writeRegister regIdx val => RiscvRs.writeRegister regIdx val
  | writeMemoryByte addr val => RiscvRs.writeMemoryByte addr val
  | runSlice poll budget => do let _ ← onTracked (RiscvRs.runSlice env poll budget)
  | runFull polls fuel => do let _ ← onTracked (run env polls fuel 0)
  | debugStep => do let _ ← RiscvRs.debugStep env
  | debugStepOver polls fuel => do let _ ← RiscvRs.debugStepOver env polls fuel
  | debugStepOut polls fuel => do let _ ← RiscvRs.debugStepOut env polls fuel
  | runUntilBreakpoint polls fuel => do let _ ← RiscvRs.runUntilBreakpoint env polls fuel 0

/-- The states of a session. -/
inductive Reachable (env : Env) : Simulator → Prop where
  | new : Reachable env Simulator.new
  | call {s s' : Simulator} (before : Reachable env s) (request : Request)
      (performed : (request.perform env).run s = .ok () s') : Reachable env s'

section Sessions

variable {env : Env}

theorem steady_writeRegister (regIdx : Nat) (val : U32) :
    Steady soundFrame (writeRegister regIdx val) := by
  unfold writeRegister
  split
  · apply steady_onCpu
    intro s sound
    obtain ⟨trapped, halted, code, resume, pc⟩ :=
      s.tracked.cpu.writeReg_keeps ⟨regIdx, by assumption⟩ val
    refine ⟨⟨Cpu.regs_zero_writeReg sound.machine.zero _ _, sound.machine.mem⟩, ?_, ?_⟩
    · rw [Tracked.cpu_withCpu, trapped, halted, code]
      exact sound.trapped
    · rw [Tracked.cpu_withCpu, resume, pc]
      exact sound.resume
  · exact steady_pure _

theorem Request.perform_steady (request : Request) : Steady soundFrame (request.perform env) := by
  have dropped {α : Type} {x : Api α} (steady : Steady soundFrame x) :
      Steady soundFrame (do let _ ← x : Api Unit) :=
    steady_bind steady fun _ => steady_pure _
  cases request with
  | loadBinaryWithArgs bytes parse args =>
    refine dropped (steady_of_ok ?_)
    intro s s' entry run _
    exact (loadBinaryWithArgs_idle run).sound
  | setHasCustomSyscalls enabled => exact steady_setting fun _ => ⟨rfl, rfl, rfl, rfl, rfl, rfl⟩
  | setDebugMode enabled => exact steady_setting fun _ => ⟨rfl, rfl, rfl, rfl, rfl, rfl⟩
  | addBreakpoint addr => exact steady_setting fun _ => ⟨rfl, rfl, rfl, rfl, rfl, rfl⟩
  | removeBreakpoint addr => exact steady_setting fun _ => ⟨rfl, rfl, rfl, rfl, rfl, rfl⟩
  | clearBreakpoints => exact steady_setting fun _ => ⟨rfl, rfl, rfl, rfl, rfl, rfl⟩
  | writeRegister regIdx val => exact steady_writeRegister regIdx val
  | writeMemoryByte addr val =>
    exact steady_onMemory
      (steady_writeU8 (fun _ _ _ _ => id) (fun _ _ page ram sound => sound.setPage ram page) addr
        val) sound_bus
  | runSlice poll budget => exact dropped (steady_onTracked runSlice_sound)
  | runFull polls fuel => exact dropped (steady_onTracked kept_sound.run)
  | debugStep => exact dropped steady_debugStep
  | debugStepOver polls fuel => exact dropped (steady_debugStepOver polls fuel)
  | debugStepOut polls fuel =>
    exact dropped (steady_bind steady_simCpu fun cpu => kept_sound.runToTemporary polls fuel _)
  | runUntilBreakpoint polls fuel => exact dropped (kept_sound.runUntilBreakpoint polls fuel 0)

theorem Reachable.sound {s : Simulator} (reached : Reachable env s) : s.tracked.Sound := by
  induction reached with
  | new =>
    have idle : Simulator.new.tracked.Idle :=
      ⟨⟨rfl, Memory.sound_new⟩, fun trap => absurd trap Bool.false_ne_true, rfl⟩
    exact idle.sound
  | call _ request performed ih => exact (Request.perform_steady request).ok performed ih

/-- The invariant of every session, over any calls, programs and host. -/
theorem session_invariant (env : Env) (s : Simulator) (reached : Reachable env s) :
    s.tracked.cpu.regs 0 = 0 ∧
    (s.tracked.cpu.trapped = true → s.tracked.cpu.isHalted = true ∧
      s.tracked.cpu.exitCode = trapExitCode) ∧
    (∀ addr, s.tracked.cpu.resumePastBreakpoint = some addr → addr = s.tracked.cpu.pc) ∧
    s.tracked.mem.initialBrk = 0x1000000 ∧ 0x1000000 ≤ s.tracked.mem.brkPtr ∧
    s.tracked.mem.brkPtr < 0xFFFF0000 ∧
    (∀ index, (s.tracked.mem.pages.get? index).isSome ↔ index < 65536) ∧
    s.tracked.mem.pages ⟨0xFFFF, by decide⟩ = none := by
  have sound := reached.sound
  have mem := sound.machine.mem
  have entries := s.tracked.mem.pages.get?_isSome_iff
  refine ⟨sound.machine.zero, sound.trapped, sound.resume, mem.initial, ?_, mem.brk.2,
    entries, mem.window⟩
  rw [← mem.initial]
  exact mem.brk.1

/-- A session that sets a breakpoint and writes a byte. -/
theorem session_invariant_two_calls :
    ∃ s, Reachable default s ∧ s.tracked.cpu.breakpoints = {4} ∧
      s.tracked.mem.pages ⟨0xFFFF, by decide⟩ = none := by
  have first : Reachable default _ := .call .new (.addBreakpoint 4) rfl
  have second : Reachable default _ := .call first (.writeMemoryByte 0xFFFEFFFF 7) rfl
  exact ⟨_, second, rfl, (session_invariant default _ second).2.2.2.2.2.2.2⟩

end Sessions

end RiscvRs
