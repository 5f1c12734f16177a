import RiscvRs.Run.Loop
import RiscvRs.Session.Cli

/-! The `Simulator` of `lib.rs`: loader, run entry points and debugger commands. -/

namespace RiscvRs

open Effects Prog

structure ProgramHeader where
  pType : U32
  pOffset : U64
  pFilesz : U64
  pVaddr : U64

structure SectionHeader where
  shType : U32
  shFlags : U64
  shAddr : U64
  shOffset : U64
  shSize : U64
  shAddralign : U64

structure Sym where
  stName : Nat
  stShndx : Nat
  stValue : U64

/-- What the loader reads of a parsed file. -/
structure Elf where
  eEntry : U64
  programHeaders : List ProgramHeader
  sectionHeaders : List SectionHeader
  syms : List Sym
  strtab : Nat → Option Text

/-- The file parser: an external package. -/
abbrev ElfParser := List U8 → Option Elf

def ptLoad : U32 := 1
def shtProgbits : U32 := 1
def shtNobits : U32 := 8

structure Simulator where
  tracked : Tracked
  symbols : U32 → Option Text

abbrev Api := Prog Simulator Empty

def onTracked {α : Type} (x : Driver α) : Api α :=
  zoom Simulator.tracked (fun t sim => { sim with tracked := t }) x

def onCpu (f : Cpu → Cpu) : Api Unit := onTracked (onMachine (modifyCpu f))

def onMemory {α : Type} (x : Prog Bus Empty α) : Api α := onTracked (onMachine (onBus x))

def simCpu : Api Cpu := onTracked (onMachine getCpu)

def Simulator.new : Simulator where
  tracked := { machine := Machine.new, history := [] }
  symbols := fun _ => none

section Arithmetic

variable (build : Build)

/-- `as usize`. -/
def Build.toUsize (val : U64) : Nat := val.toNat % 2 ^ build.usizeBits

/-- Plain `+` on `usize`. -/
def Build.addUsize (a b : Nat) : Api Nat :=
  if build.overflowChecks ∧ 2 ^ build.usizeBits ≤ a + b then panic else pure
    ((a + b) % 2 ^ build.usizeBits)

/-- Plain `-` on `u32`. -/
def Build.subU32 (a b : U32) : Api U32 :=
  if build.overflowChecks ∧ a.toNat < b.toNat then panic else pure (a - b)

end Arithmetic

/-- `&bytes[start..stop]`. -/
def byteRange? (bytes : List U8) (start stop : Nat) : Option (List U8) :=
  if start ≤ stop then sliceOf? bytes start (stop - start) else none

section Loader

variable (env : Env) (bytes : List U8)

def loadSegments : List ProgramHeader → Api Unit
  | [] => return ()
  | phdr :: rest => do
    if phdr.pType = ptLoad then
      let offset := env.build.toUsize phdr.pOffset
      let filesz := env.build.toUsize phdr.pFilesz
      let stop ← env.build.addUsize offset filesz
      if stop ≤ bytes.length then
        let stop ← env.build.addUsize offset filesz
        let segment ← expect (byteRange? bytes offset stop)
        onMemory (Memory.writeBytes (phdr.pVaddr.setWidth 32) segment)
    loadSegments rest

def insertSymbol (addr : U32) (name : Text) : Api Unit :=
  modify fun sim => { sim with symbols := Function.update sim.symbols addr (some name) }

/-- The symbols of a linked file. -/
def loadLinkedSymbols (strtab : Nat → Option Text) : List Sym → Api Unit
  | [] => return ()
  | sym :: rest => do
    match strtab sym.stName with
    | some name =>
      if !name.isEmpty ∧ sym.stValue ≠ 0 then
        insertSymbol (sym.stValue.setWidth 32) name
    | none => pure ()
    loadLinkedSymbols strtab rest

/-- Give a section its address: its own, or the next aligned one. -/
def placeSection (shdr : SectionHeader) (currentAddr : U32) : Api (U32 × U32) := do
  if shdr.shAddr ≠ 0 then
    return (shdr.shAddr.setWidth 32, currentAddr)
  else
    let align : U32 := if shdr.shAddralign > 0 then shdr.shAddralign.setWidth 32 else 4
    let sum ← env.build.addU32 currentAddr align
    let padded ← env.build.subU32 sum 1
    let mask ← env.build.subU32 align 1
    let assigned := padded &&& ~~~mask
    let size := BitVec.ofNat 32 (env.build.toUsize shdr.shSize)
    let currentAddr ← env.build.addU32 assigned size
    return (assigned, currentAddr)

/-- Lay out and copy the sections of an object file; returns `section_addrs`. -/
def loadSections : List SectionHeader → U32 → List U32 → Api (List U32)
  | [], _, sectionAddrs => return sectionAddrs
  | shdr :: rest, currentAddr, sectionAddrs => do
    let size := env.build.toUsize shdr.shSize
    let offset := env.build.toUsize shdr.shOffset
    if size > 0 ∧ (shdr.shFlags &&& 2 ≠ 0 ∨ shdr.shType = shtProgbits) then
      let (addr, currentAddr) ← placeSection env shdr currentAddr
      if shdr.shType ≠ shtNobits then
        let stop ← env.build.addUsize offset size
        if stop ≤ bytes.length then
          let stop ← env.build.addUsize offset size
          let content ← expect (byteRange? bytes offset stop)
          onMemory (Memory.writeBytes addr content)
      loadSections rest currentAddr (sectionAddrs ++ [addr])
    else
      loadSections rest currentAddr (sectionAddrs ++ [0])

/-- The symbols of an object file; the first `_start` or `main` names the entry. -/
def loadObjectSymbols (strtab : Nat → Option Text) (sectionAddrs : List U32) :
    List Sym → U32 → Api U32
  | [], entryPoint => return entryPoint
  | sym :: rest, entryPoint => do
    match strtab sym.stName with
    | some name =>
      if !name.isEmpty then
        let secBase := sectionAddrs.getD sym.stShndx 0x10000
        let addr := secBase + sym.stValue.setWidth 32
        insertSymbol addr name
        if (name = "_start".toList ∨ name = "main".toList) ∧ entryPoint = 0 then
          loadObjectSymbols strtab sectionAddrs rest addr
        else
          loadObjectSymbols strtab sectionAddrs rest entryPoint
      else
        loadObjectSymbols strtab sectionAddrs rest entryPoint
    | none => loadObjectSymbols strtab sectionAddrs rest entryPoint

/-- The `_start` symbol overrides a non-zero `e_entry`. -/
def startOverride (elf : Elf) (entryPoint : U32) : U32 :=
  if elf.eEntry ≠ 0 then
    match elf.syms.find? fun sym =>
      elf.strtab sym.stName == some "_start".toList && sym.stValue != 0 with
    | some sym => sym.stValue.setWidth 32
    | none => entryPoint
  else entryPoint

def loadElf (elf : Elf) : Api U32 := do
  let entryPoint : U32 := elf.eEntry.setWidth 32
  let entryPoint ←
    if !elf.programHeaders.isEmpty then do
      loadSegments env bytes elf.programHeaders
      loadLinkedSymbols elf.strtab elf.syms
      pure entryPoint
    else do
      let sectionAddrs ← loadSections env bytes elf.sectionHeaders 0x10000 []
      let found ← loadObjectSymbols elf.strtab sectionAddrs elf.syms entryPoint
      pure (if found = 0 then 0x10000 else found)
  let entryPoint := startOverride elf entryPoint
  onCpu fun cpu => { cpu with pc := entryPoint }
  return entryPoint

/-- `for (reg_idx, val) in config.register_inits`; an index past 31 would panic. -/
def initRegisters : List (Nat × U32) → Api Unit
  | [] => return ()
  | (regIdx, val) :: rest => do
    if bound : regIdx < 32 then
      onCpu (·.writeReg ⟨regIdx, bound⟩ val)
    else
      panic
    initRegisters rest

def loadBinaryWithArgs (parse : ElfParser) (args : List Text) : Api U32 := do
  let config := SimConfig.parseArgs env.build.usizeBits args
  let cpu ← simCpu
  onCpu fun _ => { Cpu.new with hasCustomSyscalls := cpu.hasCustomSyscalls }
  onMemory (modify fun bus => { bus with mem := Memory.new })
  modify fun sim => { sim with symbols := fun _ => none }
  onTracked (record .loaded)
  initRegisters config.registerInits
  match parse bytes with
  | some elf => loadElf env bytes elf
  | none =>
    onMemory (Memory.writeBytes 0 bytes)
    onCpu fun cpu => { cpu with pc := 0 }
    return 0

/-- `load_binary`: the arguments are a JavaScript array, and what is no string in it is dropped. -/
def loadBinary (parse : ElfParser) (argsJs : List (Option Text)) : Api U32 :=
  loadBinaryWithArgs env bytes parse (argsJs.filterMap id)

/-- The fuel counts slices. -/
def runFull (polls : Nat → Nat → Poll) (fuel : Nat) : Api U32 := onTracked (run env polls fuel 0)

/-- `run_riscv_binary`, with the simulator that it makes. -/
def runRiscvBinary (parse : ElfParser) (argsJs : List (Option Text)) (polls : Nat → Nat → Poll)
    (fuel : Nat) :
    Outcome Simulator Empty U32 :=
  (do
    let _ ← loadBinary env bytes parse argsJs
    runFull env polls fuel : Api U32).run Simulator.new

end Loader

structure DebuggerSnapshot where
  pc : U32
  gpr : Fin 32 → U32
  fpr : Fin 32 → U64
  csrs : List U32
  stepCount : Nat
  isHalted : Bool
  isBreakpoint : Bool
  hitAddress : U32
  exitCode : U32
  trapped : Bool

def Cpu.snapshot (cpu : Cpu) (isBreakpoint : Bool) (hitAddress : U32) : DebuggerSnapshot where
  pc := cpu.pc
  gpr := cpu.regs
  fpr := cpu.fregs
  csrs := [cpu.csrs.get mstatus, cpu.csrs.get mcause, cpu.csrs.get mepc,
    cpu.csrs.get mtvec, cpu.fcsr]
  stepCount := cpu.stepCounter
  isHalted := cpu.isHalted
  isBreakpoint := isBreakpoint
  hitAddress := hitAddress
  exitCode := cpu.exitCode
  trapped := cpu.trapped

/-- `is_call_instruction`: a third, partial decoder. -/
def isCallInstruction (inst : U32) : Bool :=
  if inst &&& 0x3 ≠ 0x3 then
    let op2 := inst &&& 0x3
    let funct3 := shiftThenMask inst 13 0x7
    if op2 = 0x1 ∧ funct3 = 0x1 then true
    else decide (op2 = 0x2 ∧ funct3 = 0x4 ∧ shiftThenMask inst 12 1 = 1)
  else
    let decoded := DecodedInst32.decode inst
    if decoded.opcode = Opcode.jal.bits ∨ decoded.opcode = Opcode.jalr.bits then
      decide (decoded.rd = 1 ∨ decoded.rd = 5)
    else false

/-- `get_snapshot_js`: what the worker asks for between slices. -/
def getSnapshotJs (isBreakpoint : Bool) (hitAddress : U32) : Api DebuggerSnapshot := do
  return (← simCpu).snapshot isBreakpoint hitAddress

section Debugger

variable (env : Env)

def debugStep : Api DebuggerSnapshot := do
  let res ← onTracked (stepInstruction env)
  let cpu ← simCpu
  match res with
  | .breakpointHit addr => return cpu.snapshot true addr
  | _ => return cpu.snapshot false 0

/-- Slices of the largest budget until one stops; the fuel counts slices. -/
def runUntilBreakpoint (polls : Nat → Nat → Poll) : Nat → Nat → Api DebuggerSnapshot
  | 0, _ => exhausted
  | fuel + 1, slice => do
    let outcome ← onTracked (runSlice env (polls slice) 0xFFFFFFFF)
    let cpu ← simCpu
    match outcome.status with
    | .breakpoint => return cpu.snapshot true outcome.pc
    | .halted | .trapped => return cpu.snapshot false 0
    | .running => runUntilBreakpoint polls fuel (slice + 1)

/-- Run to a breakpoint that is there for this run only. -/
def runToTemporary (polls : Nat → Nat → Poll) (fuel : Nat) (addr : U32) : Api DebuggerSnapshot := do
  let cpu ← simCpu
  let hadBp := decide (addr ∈ cpu.breakpoints)
  onCpu fun cpu => { cpu with breakpoints := insert addr cpu.breakpoints }
  let snap ← runUntilBreakpoint env polls fuel 0
  if !hadBp then
    onCpu fun cpu => { cpu with breakpoints := cpu.breakpoints.erase addr }
  return snap

def debugStepOver (polls : Nat → Nat → Poll) (fuel : Nat) : Api DebuggerSnapshot := do
  let cpu ← simCpu
  let currentPc := cpu.pc
  let inst ← onMemory (Memory.readU32 env.host currentPc)
  if isCallInstruction inst then
    let nextPc ← env.build.addU32 currentPc (if inst &&& 0x3 = 0x3 then 4 else 2)
    runToTemporary env polls fuel nextPc
  else
    debugStep env

def debugStepOut (polls : Nat → Nat → Poll) (fuel : Nat) : Api DebuggerSnapshot := do
  let cpu ← simCpu
  runToTemporary env polls fuel (cpu.regs 1)

end Debugger

section Settings

def setHasCustomSyscalls (enabled : Bool) : Api Unit :=
  onCpu fun cpu => { cpu with hasCustomSyscalls := enabled }

def hasCustomSyscalls : Api Bool := do
  return (← simCpu).hasCustomSyscalls

def setDebugMode (enabled : Bool) : Api Unit :=
  onCpu fun cpu => { cpu with debugEnabled := enabled }

def addBreakpoint (addr : U32) : Api Unit :=
  onCpu fun cpu => { cpu with breakpoints := insert addr cpu.breakpoints }

def removeBreakpoint (addr : U32) : Api Unit :=
  onCpu fun cpu => { cpu with breakpoints := cpu.breakpoints.erase addr }

def clearBreakpoints : Api Unit := onCpu fun cpu => { cpu with breakpoints := ∅ }

def writeMemoryByte (addr : U32) (val : U8) : Api Unit := onMemory (Memory.writeU8 addr val)

def writeRegister (regIdx : Nat) (val : U32) : Api Unit :=
  if bound : regIdx < 32 then onCpu (·.writeReg ⟨regIdx, bound⟩ val) else pure ()

/-- One `read_u8` after the other. -/
def readMemoryRange (env : Env) (addr len : U32) : Api (List U8) :=
  onMemory (Memory.readEach env.host addr len.toNat)

def getSymbolAt (addr : U32) : Api (Option Text) := do
  return (← get).symbols addr

end Settings

end RiscvRs
