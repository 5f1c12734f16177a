import RiscvRs.Disasm.Listing
import RiscvRs.Run.Observing

/-! The interface of the simulator, and what no sequence of its calls shows: how memory is laid out
in pages. -/

namespace RiscvRs

open Effects Prog

/-- The exported calls. Fuel bounds the loops that may not end; polls stand for the answers of the
host. -/
inductive Command where
  | loadBinary (bytes : List U8) (parse : ElfParser) (argsJs : List (Option Text))
  | loadBinaryWithArgs (bytes : List U8) (parse : ElfParser) (args : List Text)
  | setHasCustomSyscalls (enabled : Bool)
  | hasCustomSyscalls
  | runFull (polls : Nat → Nat → Poll) (fuel : Nat)
  | runSlice (poll : Nat → Poll) (budget : U32)
  | setDebugMode (enabled : Bool)
  | addBreakpoint (addr : U32)
  | removeBreakpoint (addr : U32)
  | clearBreakpoints
  | getSnapshotJs (isBreakpoint : Bool) (hitAddress : U32)
  | debugStep
  | debugStepOver (polls : Nat → Nat → Poll) (fuel : Nat)
  | debugStepOut (polls : Nat → Nat → Poll) (fuel : Nat)
  | runUntilBreakpoint (polls : Nat → Nat → Poll) (fuel : Nat)
  | readMemoryRange (addr len : U32)
  | writeMemoryByte (addr : U32) (val : U8)
  | writeRegister (regIdx : Nat) (val : U32)
  | disassembleRange (fuel : Nat) (startAddr len : U32)
  | getSymbolAt (addr : U32)

inductive Answer where
  | done
  | flag (enabled : Bool)
  | value (val : U32)
  | slice (outcome : SliceOutcome)
  | snapshot (snap : DebuggerSnapshot)
  | bytes (bytes : List U8)
  | listing (items : List DisassembledInst)
  | name (name : Option Text)

def Command.answer (env : Env) : Command → Api Answer
  | loadBinary bytes parse argsJs => return .value (← RiscvRs.loadBinary env bytes parse argsJs)
  | loadBinaryWithArgs bytes parse args =>
    return .value (← RiscvRs.loadBinaryWithArgs env bytes parse args)
  | setHasCustomSyscalls enabled => do RiscvRs.setHasCustomSyscalls enabled; return .done
  | hasCustomSyscalls => return .flag (← RiscvRs.hasCustomSyscalls)
  | runFull polls fuel => return .value (← RiscvRs.runFull env polls fuel)
  | runSlice poll budget => return .slice (← onTracked (RiscvRs.runSlice env poll budget))
  | setDebugMode enabled => do RiscvRs.setDebugMode enabled; return .done
  | addBreakpoint addr => do RiscvRs.addBreakpoint addr; return .done
  | removeBreakpoint addr => do RiscvRs.removeBreakpoint addr; return .done
  | clearBreakpoints => do RiscvRs.clearBreakpoints; return .done
  | getSnapshotJs isBreakpoint hitAddress =>
    return .snapshot (← RiscvRs.getSnapshotJs isBreakpoint hitAddress)
  | debugStep => return .snapshot (← RiscvRs.debugStep env)
  | debugStepOver polls fuel => return .snapshot (← RiscvRs.debugStepOver env polls fuel)
  | debugStepOut polls fuel => return .snapshot (← RiscvRs.debugStepOut env polls fuel)
  | runUntilBreakpoint polls fuel =>
    return .snapshot (← RiscvRs.runUntilBreakpoint env polls fuel 0)
  | readMemoryRange addr len => return .bytes (← RiscvRs.readMemoryRange env addr len)
  | writeMemoryByte addr val => do RiscvRs.writeMemoryByte addr val; return .done
  | writeRegister regIdx val => do RiscvRs.writeRegister regIdx val; return .done
  | disassembleRange fuel startAddr len =>
    return .listing (← RiscvRs.disassembleRange env fuel startAddr len)
  | getSymbolAt addr => return .name (← RiscvRs.getSymbolAt addr)

/-- Call after call, with all answers. -/
def session (env : Env) : List Command → Api (List Answer)
  | [] => return []
  | command :: rest => do
    let first ← command.answer env
    let others ← session env rest
    return first :: others

/-- A simulator as its users see it: all of it but the pages. -/
def Simulator.shown (sim : Simulator) :
    ((Cpu × (Memory.Shown × World)) × List GuestEvent) × (U32 → Option Text) :=
  (sim.tracked.seen id Bus.shown, sim.symbols)

section Calls

variable {α : Type} {env : Env}

theorem trackedShown {s s' : Simulator} (same : s.shown = s'.shown) :
    s.tracked.seen id Bus.shown = s'.tracked.seen id Bus.shown := congrArg Prod.fst same

theorem symbolsShown {s s' : Simulator} (same : s.shown = s'.shown) : s.symbols = s'.symbols :=
  congrArg Prod.snd same

theorem blind_onTracked {x : Driver α} (blind : Blind (Tracked.seen id Bus.shown) x) :
    Blind Simulator.shown (onTracked x) := by
  refine blind_zoom blind (fun _ _ same => trackedShown same) ?_
  intro s s' t t' same tracked
  have symbols : s.symbols = s'.symbols := symbolsShown same
  exact Prod.ext tracked symbols

theorem blind_onCpu (f : Cpu → Cpu) : Blind Simulator.shown (onCpu f) :=
  blind_onTracked (blind_setCpu f)

theorem blind_onMemory {x : Prog Bus Empty α} (blind : Blind Bus.shown x) :
    Blind Simulator.shown (onMemory x) :=
  blind_onTracked (blind_onMachine (blind_onBus blind))

theorem blind_simCpu {f : Cpu → Api α} (each : ∀ cpu, Blind Simulator.shown (f cpu)) :
    Blind Simulator.shown (simCpu >>= f) := by
  refine blind_look (fun s => s.tracked.cpu) (fun _ => rfl) (fun s s' same => ?_) fun s =>
    each s.tracked.cpu
  have cpu : s.tracked.cpu = s'.tracked.cpu := trackedCpuSeen (trackedShown same)
  rw [cpu]

/-- A look at the symbols. -/
theorem blind_symbols (look : (U32 → Option Text) → Api α)
    (each : ∀ symbols, Blind Simulator.shown (look symbols)) :
    Blind Simulator.shown (get >>= fun sim => look sim.symbols) :=
  blind_look id (fun _ => rfl) (fun _ _ same => congrArg look (symbolsShown same)) fun s =>
    each s.symbols

theorem blind_setSymbols (f : (U32 → Option Text) → U32 → Option Text) :
    Blind Simulator.shown (modify fun sim => { sim with symbols := f sim.symbols } : Api Unit) := by
  refine blind_modify fun s s' same => ?_
  have tracked : s.tracked.seen id Bus.shown = s'.tracked.seen id Bus.shown := trackedShown same
  have symbols : f s.symbols = f s'.symbols := congrArg f (symbolsShown same)
  exact Prod.ext tracked symbols

end Calls

section Loading

variable {env : Env} (bytes : List U8)

theorem blind_addUsize (build : Build) (a b : Nat) :
    Blind Simulator.shown (build.addUsize a b) := by
  unfold Build.addUsize
  split
  · exact blind_panic
  · exact blind_pure _

theorem blind_addU32 (build : Build) (a b : U32) :
    Blind Simulator.shown (build.addU32 a b : Api U32) := by
  unfold Build.addU32
  split
  · exact blind_panic
  · exact blind_pure _

theorem blind_subU32 (build : Build) (a b : U32) : Blind Simulator.shown (build.subU32 a b) := by
  unfold Build.subU32
  split
  · exact blind_panic
  · exact blind_pure _

theorem blind_loadSegments (phdrs : List ProgramHeader) :
    Blind Simulator.shown (loadSegments env bytes phdrs) := by
  induction phdrs with
  | nil => exact blind_pure ()
  | cons phdr rest ih =>
    rw [loadSegments]
    split
    · refine blind_bind (blind_addUsize _ _ _) fun stop => ?_
      split
      · refine blind_bind (blind_addUsize _ _ _) fun _ => blind_bind (blind_expect _)
          fun segment => ?_
        exact blind_bind (blind_onMemory (shown_writeBytes _ _)) fun _ => ih
      · exact ih
    · exact ih

theorem blind_insertSymbol (addr : U32) (name : Text) :
    Blind Simulator.shown (insertSymbol addr name) :=
  blind_setSymbols fun symbols => Function.update symbols addr (some name)

theorem blind_loadLinkedSymbols (strtab : Nat → Option Text) (syms : List Sym) :
    Blind Simulator.shown (loadLinkedSymbols strtab syms) := by
  induction syms with
  | nil => exact blind_pure ()
  | cons sym rest ih =>
    rw [loadLinkedSymbols]
    split
    · split
      · exact blind_bind (blind_insertSymbol _ _) fun _ => ih
      · exact ih
    · exact ih

theorem blind_placeSection (shdr : SectionHeader) (currentAddr : U32) :
    Blind Simulator.shown (placeSection env shdr currentAddr) := by
  unfold placeSection
  split
  · exact blind_pure _
  · dsimp only
    generalize (if shdr.shAddralign > 0 then shdr.shAddralign.setWidth 32 else 4 : U32) = align
    refine blind_bind (blind_addU32 _ _ _) fun sum => blind_bind (blind_subU32 _ _ _)
      fun padded => ?_
    refine blind_bind (blind_subU32 _ _ _) fun mask => ?_
    exact blind_bind (blind_addU32 _ _ _) fun _ => blind_pure _

theorem blind_loadSections (shdrs : List SectionHeader) (currentAddr : U32)
    (sectionAddrs : List U32) :
    Blind Simulator.shown (loadSections env bytes shdrs currentAddr sectionAddrs) := by
  induction shdrs generalizing currentAddr sectionAddrs with
  | nil => exact blind_pure _
  | cons shdr rest ih =>
    rw [loadSections]
    dsimp only
    split
    · refine blind_bind (blind_placeSection _ _) fun placed => ?_
      split
      · refine blind_bind (blind_addUsize _ _ _) fun stop => ?_
        split
        · refine blind_bind (blind_addUsize _ _ _) fun _ => blind_bind (blind_expect _)
            fun content => ?_
          exact blind_bind (blind_onMemory (shown_writeBytes _ _)) fun _ => ih _ _
        · exact ih _ _
      · exact ih _ _
    · exact ih _ _

theorem blind_loadObjectSymbols (strtab : Nat → Option Text) (sectionAddrs : List U32)
    (syms : List Sym)
    (entryPoint : U32) :
    Blind Simulator.shown (loadObjectSymbols strtab sectionAddrs syms entryPoint) := by
  induction syms generalizing entryPoint with
  | nil => exact blind_pure _
  | cons sym rest ih =>
    rw [loadObjectSymbols]
    split
    · split
      · refine blind_bind (blind_insertSymbol _ _) fun _ => ?_
        split
        · exact ih _
        · exact ih _
      · exact ih _
    · exact ih _

theorem blind_loadElf (elf : Elf) : Blind Simulator.shown (loadElf env bytes elf) := by
  have finish (entryPoint : U32) : Blind Simulator.shown (do
      onCpu fun cpu => { cpu with pc := startOverride elf entryPoint }
      return startOverride elf entryPoint : Api U32) :=
    blind_bind (blind_onCpu _) fun _ => blind_pure _
  unfold loadElf
  dsimp only
  split
  · refine blind_bind (blind_loadSegments bytes _) fun _ => ?_
    exact blind_bind (blind_loadLinkedSymbols _ _) fun _ => blind_bind (blind_pure _) finish
  · refine blind_bind (blind_loadSections bytes _ _ _) fun sectionAddrs => ?_
    exact blind_bind (blind_loadObjectSymbols _ _ _ _) fun _ => blind_bind (blind_pure _) finish

theorem blind_initRegisters (inits : List (Nat × U32)) :
    Blind Simulator.shown (initRegisters inits) := by
  induction inits with
  | nil => exact blind_pure ()
  | cons init rest ih =>
    obtain ⟨regIdx, val⟩ := init
    rw [initRegisters]
    split
    · exact blind_bind (blind_onCpu _) fun _ => ih
    · exact blind_panic

theorem blind_loadBinaryWithArgs (parse : ElfParser) (args : List Text) :
    Blind Simulator.shown (loadBinaryWithArgs env bytes parse args) := by
  refine blind_simCpu fun cpu => blind_bind (blind_onCpu _) fun _ => ?_
  have cleared : Blind Bus.shown
    (modify fun bus => { bus with mem := Memory.new } : Prog Bus Empty Unit) := by
    refine blind_modify fun bus bus' same => ?_
    have world : bus.world = bus'.world := world_of_shown same
    exact Bus.shown_ext rfl rfl rfl world
  refine blind_bind (blind_onMemory cleared) fun _ =>
    blind_bind (blind_setSymbols fun _ _ => none) fun _ => ?_
  refine blind_bind (blind_onTracked (blind_record _)) fun _ =>
    blind_bind (blind_initRegisters _) fun _ => ?_
  split
  · exact blind_loadElf bytes _
  · exact blind_bind (blind_onMemory (shown_writeBytes _ _)) fun _ => blind_bind (blind_onCpu _)
      fun _ => blind_pure _

end Loading

section Debugging

variable {env : Env}

theorem blind_debugStep : Blind Simulator.shown (debugStep env) := by
  refine blind_bind (blind_onTracked (blind_stepInstruction (seesBus_shown env.host))) fun res => ?_
  refine blind_simCpu fun cpu => ?_
  split
  · exact blind_pure _
  · exact blind_pure _

theorem blind_runUntilBreakpoint (polls : Nat → Nat → Poll) (fuel slice : Nat) :
    Blind Simulator.shown (runUntilBreakpoint env polls fuel slice) := by
  induction fuel generalizing slice with
  | zero => exact blind_exhausted
  | succ fuel ih =>
    refine blind_bind (blind_onTracked (blind_runSlice (seesBus_shown env.host) _ _))
      fun outcome => ?_
    refine blind_simCpu fun cpu => ?_
    split
    · exact blind_pure _
    · exact blind_pure _
    · exact blind_pure _
    · exact ih _

theorem blind_runToTemporary (polls : Nat → Nat → Poll) (fuel : Nat) (addr : U32) :
    Blind Simulator.shown (runToTemporary env polls fuel addr) := by
  refine blind_simCpu fun cpu => blind_bind (blind_onCpu _) fun _ => ?_
  refine blind_bind (blind_runUntilBreakpoint polls fuel 0) fun snap => ?_
  dsimp only
  split
  · exact blind_bind (blind_onCpu _) fun _ => blind_pure _
  · exact blind_pure _

theorem blind_debugStepOver (polls : Nat → Nat → Poll) (fuel : Nat) :
    Blind Simulator.shown (debugStepOver env polls fuel) := by
  refine blind_simCpu fun cpu => ?_
  refine blind_bind (blind_onMemory (shown_readAt env.host .word cpu.pc)) fun inst => ?_
  split
  · exact blind_bind (blind_addU32 _ _ _) fun nextPc => blind_runToTemporary polls fuel nextPc
  · exact blind_debugStep

theorem blind_disassembleFrom (symbols : Symbols) (startAddr len : U32) (fuel : Nat) (curr : U32) :
    Blind Simulator.shown (disassembleFrom env symbols startAddr len fuel curr) := by
  induction fuel generalizing curr with
  | zero => exact blind_exhausted
  | succ fuel ih =>
    rw [disassembleFrom]
    split
    · refine blind_bind (blind_onMemory (shown_readAt env.host .word curr)) fun inst => ?_
      exact blind_bind (ih _) fun _ => blind_pure _
    · exact blind_pure _

end Debugging

section Sessions

variable {env : Env}

theorem Command.blind_answer (command : Command) : Blind Simulator.shown (command.answer env) := by
  have answered {α : Type} {x : Api α} (blind : Blind Simulator.shown x) (wrap : α → Answer) :
      Blind Simulator.shown (do return wrap (← x) : Api Answer) :=
    blind_bind blind fun _ => blind_pure _
  have cpu {α : Type} (look : Cpu → α) : Blind Simulator.shown
    (do return look (← simCpu) : Api α) :=
    blind_simCpu fun _ => blind_pure _
  cases command with
  | loadBinary bytes parse argsJs => exact answered (blind_loadBinaryWithArgs bytes parse _) .value
  | loadBinaryWithArgs bytes parse args =>
    exact answered (blind_loadBinaryWithArgs bytes parse args) .value
  | setHasCustomSyscalls enabled => exact answered (blind_onCpu _) fun _ => .done
  | hasCustomSyscalls => exact answered (cpu (·.hasCustomSyscalls)) .flag
  | runFull polls fuel =>
    exact answered (blind_onTracked (blind_run (seesBus_shown env.host) polls fuel 0)) .value
  | runSlice poll budget =>
    exact answered (blind_onTracked (blind_runSlice (seesBus_shown env.host) poll budget)) .slice
  | setDebugMode enabled => exact answered (blind_onCpu _) fun _ => .done
  | addBreakpoint addr => exact answered (blind_onCpu _) fun _ => .done
  | removeBreakpoint addr => exact answered (blind_onCpu _) fun _ => .done
  | clearBreakpoints => exact answered (blind_onCpu _) fun _ => .done
  | getSnapshotJs isBreakpoint hitAddress =>
    exact answered (cpu (·.snapshot isBreakpoint hitAddress)) .snapshot
  | debugStep => exact answered blind_debugStep .snapshot
  | debugStepOver polls fuel => exact answered (blind_debugStepOver polls fuel) .snapshot
  | debugStepOut polls fuel =>
    exact answered (blind_simCpu fun cpu => blind_runToTemporary polls fuel _) .snapshot
  | runUntilBreakpoint polls fuel =>
    exact answered (blind_runUntilBreakpoint polls fuel 0) .snapshot
  | readMemoryRange addr len =>
    exact answered (blind_onMemory (shown_readEach env.host addr _)) .bytes
  | writeMemoryByte addr val =>
    exact answered (blind_onMemory (shown_writeU8 addr val)) fun _ => .done
  | writeRegister regIdx val =>
    refine answered ?_ fun _ => .done
    unfold RiscvRs.writeRegister
    split
    · exact blind_onCpu _
    · exact blind_pure ()
  | disassembleRange fuel startAddr len =>
    refine answered ?_ .listing
    exact blind_symbols (fun symbols =>
      disassembleFrom env (fun addr => (symbols addr).map String.ofList) startAddr len fuel startAddr)
      fun symbols => blind_disassembleFrom _ startAddr len fuel startAddr
  | getSymbolAt addr =>
    exact answered (blind_symbols (fun symbols => pure (symbols addr)) fun _ => blind_pure _) .name

theorem blind_session (commands : List Command) : Blind Simulator.shown (session env commands) := by
  induction commands with
  | nil => exact blind_pure []
  | cons command rest ih =>
    exact blind_bind command.blind_answer fun _ => blind_bind ih fun _ => blind_pure _

/-- No session shows how memory is laid out in pages. From two simulators that agree on every byte,
the break, the processor, the symbols and what was said to the host, every sequence of calls is
answered alike, says the same to the host and leaves simulators that agree again: whichever pages of
zeros are there, and whichever of the paths for bytes, words and blocks, within a page or across
one, an access takes. -/
theorem session_ignores_layout (env : Env) (commands : List Command) (s s' : Simulator)
    (cpu : s.tracked.cpu = s'.tracked.cpu) (bytes : s.tracked.mem.flat = s'.tracked.mem.flat)
    (brk : s.tracked.mem.brkPtr = s'.tracked.mem.brkPtr)
    (initial : s.tracked.mem.initialBrk = s'.tracked.mem.initialBrk)
    (world : s.tracked.machine.bus.world = s'.tracked.machine.bus.world)
    (history : s.tracked.history = s'.tracked.history) (symbols : s.symbols = s'.symbols) :
    ((session env commands).run s).Alike Simulator.shown ((session env commands).run s') := by
  have bus : s.tracked.machine.bus.shown = s'.tracked.machine.bus.shown :=
    Bus.shown_ext bytes brk initial world
  have machine : s.tracked.machine.seen id Bus.shown = s'.tracked.machine.seen id Bus.shown :=
    Prod.ext cpu bus
  have tracked : s.tracked.seen id Bus.shown = s'.tracked.seen id Bus.shown :=
    Prod.ext machine history
  exact blind_session commands s s' (Prod.ext tracked symbols)

/-- A new simulator with a zero stored at the first address. -/
def Simulator.touched : Simulator :=
  { Simulator.new with
    tracked := { Simulator.new.tracked with
      machine := { Machine.new with bus := Machine.new.bus.store 0 0 } } }

theorem session_ignores_layout_touched :
    ((session default [.runSlice default 3, .readMemoryRange 0 8, .disassembleRange 9 0 16]).run
      Simulator.new).Alike
      Simulator.shown
      ((session default [.runSlice default 3, .readMemoryRange 0 8, .disassembleRange 9 0 16]).run
        .touched) := by
  refine session_ignores_layout default _ _ _ rfl ?_ rfl rfl rfl rfl rfl
  change Memory.new.flat = (Memory.new.store 0 0).flat
  rw [Memory.flat_store, ← flat_new 0, Function.update_eq_self]

end Sessions

end RiscvRs
