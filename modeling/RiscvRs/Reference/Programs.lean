import RiscvRs.Reference.Runs
import RiscvRs.Reference.Start

/-! From a file to the exit code of its program. -/

namespace RiscvRs

open Effects Prog

/-- The program that a file starts, entered at an address with the registers given. -/
def startProcess (bytes : List U8) (file : Option Elf) (entry : Nat) (x : Fin 32 → Nat) :
    Isa.Process where
  core := { x := x, pc := entry, mem := Isa.ofStore (fileImage bytes file) }
  writes := []
  heap := 0x1000000
  brk := 0x1000000
  halted := false
  exitCode := 0

section Loads

variable {env : Env} {bytes : List U8} {parse : ElfParser}

/-- A raw file from address zero on. -/
theorem load_raw (short : bytes.length ≤ 0xFFFF0000) (start : Simulator)
    (blank : start.tracked.machine.bus.mem.flat = fun _ => 0) :
    ∃ bus, (onMemory (Memory.writeBytes 0 bytes)).run start = .ok () (start.withBus bus) ∧
      bus.mem.flat = (fun a => bytes.getD a.toNat 0) ∧ start.tracked.machine.bus.Recopied bus := by
  have whole : filePart bytes 0 bytes.length = bytes := by simp [filePart]
  have inside : 0 + bytes.length ≤ bytes.length := by omega
  have below : (0 : U32).toNat + bytes.length ≤ 0xFFFF0000 := by simpa using short
  obtain ⟨bus, copied, flat, recopied⟩ := run_copy_ram inside 0 below start
  rw [whole] at copied
  refine ⟨bus, copied, ?_, recopied⟩
  rw [flat, blank]
  funext a
  rw [Image.lay, window]
  by_cases here : (0 : U32).toNat ≤ a.toNat ∧ a.toNat < (0 : U32).toNat + bytes.length
  · rw [if_pos here, Option.getD_some, Nat.zero_add]
    rfl
  · have far : bytes.length ≤ a.toNat := by simpa using here
    rw [if_neg here, List.getD_eq_default _ _ far]
    rfl

/-- The rest of a load copies the file's image and enters it. -/
theorem load_machine (loadable : Loadable env.build bytes (parse bytes)) (args : List Text)
    (s : Simulator) :
    ∃ s' bus, (loadBinaryWithArgs env bytes parse args).run s = .ok (fileEntry (parse bytes)) s' ∧
      s'.tracked.machine =
        ⟨{ (s.prepared env.build args).tracked.machine.cpu with pc := fileEntry (parse bytes) }, bus⟩ ∧
      bus.mem.flat = fileImage bytes (parse bytes) ∧
        (s.prepared env.build args).tracked.machine.bus.Recopied bus := by
  rw [loadBinaryWithArgs_prepared]
  generalize parse bytes = file at loadable
  have blank : (s.prepared env.build args).tracked.machine.bus.mem.flat = fun _ => 0 := funext flat_new
  generalize s.prepared env.build args = start at blank
  cases file with
  | none =>
    obtain ⟨bus, copied, flat, recopied⟩ := load_raw loadable start blank
    refine ⟨{ start.withBus bus with
      tracked := (start.withBus bus).tracked.withCpu
        { start.tracked.cpu with pc := 0 } },
      bus, ?_, rfl, flat, recopied⟩
    change ((onMemory (Memory.writeBytes 0 bytes)).run start).andThen _ = _
    rw [copied]
    rfl
  | some elf =>
    by_cases object : elf.programHeaders.isEmpty = true
    · rw [Loadable, if_pos object] at loadable
      obtain ⟨wide, short, plain, ends⟩ := loadable
      obtain ⟨bus, run, stacked, recopied⟩ :=
        loadSections_laid wide short plain 0x10000 ends [] start
      obtain ⟨s', loaded, machine⟩ := loadElf_object_machine (List.isEmpty_iff.mp object) run
      rw [fileEntry, fileImage, if_pos object, if_pos object]
      rw [blank] at stacked
      exact ⟨s', bus, loaded, machine, stacked, recopied⟩
    · rw [Loadable, if_neg object] at loadable
      obtain ⟨bus, run, stacked, recopied⟩ := loadSegments_laid bytes loadable start
      obtain ⟨s', loaded, machine⟩ := loadElf_linked_machine (mt List.isEmpty_iff.mpr object) run
      rw [fileEntry, fileImage, if_neg object, if_neg object]
      rw [blank, funext (stack_pieces bytes elf.programHeaders)] at stacked
      exact ⟨s', bus, loaded, machine, stacked, recopied⟩

/-- A load starts the program of its file. Of the simulator before it only the switch for custom
system calls and what has gone out to the host stay. -/
theorem load_process (loadable : Loadable env.build bytes (parse bytes)) (args : List Text)
    (s : Simulator) :
    ∃ s', (loadBinaryWithArgs env bytes parse args).run s = .ok (fileEntry (parse bytes)) s' ∧
      s'.tracked.machine.process =
        { startProcess bytes (parse bytes) (fileEntry (parse bytes)).toNat
          (startRegisters (SimConfig.parseArgs env.build.usizeBits args).registerInits) with
        writes := s.tracked.machine.process.writes } ∧
      s'.tracked.cpu = { Cpu.new with
        hasCustomSyscalls := s.tracked.cpu.hasCustomSyscalls, regs := s'.tracked.cpu.regs,
          pc := s'.tracked.cpu.pc } ∧
      s'.tracked.machine.bus.world = s.tracked.machine.bus.world := by
  obtain ⟨s', bus, run, machine, flat, recopied⟩ := load_machine loadable args s
  have rest := foldl_setRegister_rest (SimConfig.parseArgs env.build.usizeBits args).registerInits
    s.reset.tracked.cpu
  have set := readReg_foldl (SimConfig.parseArgs env.build.usizeBits args).registerInits
    s.reset.tracked.cpu
  change _ = Image.stack (fun r => (Cpu.new.readReg r).toNat) _ at set
  rw [readReg_new] at set
  refine ⟨s', run, ?_, ?_, ?_⟩
  · rw [machine]
    ext1
    · ext
      · exact congrFun set _
      · rfl
      · exact congrFun (congrArg Isa.ofStore flat) _
    · exact congrArg (fun world : World => world.io.filterMap IoEvent.written?) recopied.world
    · exact congrArg BitVec.toNat recopied.initialBrk
    · exact congrArg BitVec.toNat recopied.brkPtr
    · have live := congrArg Cpu.isHalted rest
      exact live
    · have code := congrArg (fun cpu : Cpu => cpu.exitCode.toNat) rest
      exact code
  · have cpu := congrArg Machine.cpu machine
    change s'.tracked.cpu = _ at cpu
    rw [cpu]
    exact congrArg (fun cpu : Cpu => { cpu with pc := fileEntry (parse bytes) }) rest
  · rw [machine]
    exact recopied.world

end Loads

section Whole

variable {env : Env} {bytes : List U8} {parse : ElfParser} {polls : Nat → Nat → Poll}
  {argsJs : List (Option Text)}

theorem run_onTracked {α : Type} (x : Driver α) (s : Simulator) :
    (onTracked x).run s =
      (x.run s.tracked).reshape (fun a t => .ok a { s with tracked := t }) fun e t =>
        .err e { s with tracked := t } :=
  rfl

/-- After its load a file's program runs in a machine of its own. -/
theorem runRiscvBinary_eq (loadable : Loadable env.build bytes (parse bytes)) :
    ∃ s, (∀ fuel, runRiscvBinary env bytes parse argsJs polls fuel =
      (runFull env polls fuel).run s) ∧
      s.tracked.machine.process = startProcess bytes (parse bytes) (fileEntry (parse bytes)).toNat
        (startRegisters (SimConfig.parseArgs env.build.usizeBits
          (argsJs.filterMap id)).registerInits) ∧
      s.tracked.cpu.hasCustomSyscalls = false ∧
        (∀ answer : Poll, answer.delivers s.tracked.cpu = false) ∧
      s.tracked.cpu.stepCounter = 0 := by
  obtain ⟨s, load, process, cpu, -⟩ := load_process loadable (argsJs.filterMap id) Simulator.new
  refine ⟨s, fun fuel => ?_, process, ?_, fun answer => ?_, ?_⟩
  · change ((loadBinaryWithArgs env bytes parse (argsJs.filterMap id)).run
      Simulator.new).andThen _ = _
    rw [load]
    rfl
  · rw [cpu]
    rfl
  · rw [cpu, Poll.delivers]
    have masked : Cpu.new.interruptsEnabled = false := by decide
    change (_ && Cpu.new.interruptsEnabled && _) = false
    rw [masked, Bool.and_false, Bool.false_and]
  · rw [cpu]
    rfl

/-- One process is started: the file is entered at one address, and the settings make one register
file. -/
theorem starts_once (file : Option Elf) (usizeBits : Nat) (args : List Text) {entry : Nat}
    {x : Fin 32 → Nat} :
    EnteredAt file entry ∧ StartRegisters usizeBits (Arg.taken args) x ↔
      entry = (fileEntry file).toNat ∧
        x = startRegisters (SimConfig.parseArgs usizeBits args).registerInits := by
  rw [enteredAt_iff, startRegisters_iff, registerInits_parse]

/-- `run_riscv_binary` runs the program of its file, as the reference does, from the place where the
file is entered and with the registers that the arguments set. Whatever the host answers to polls,
it returns the exit code of the program, in the program's last state; if the program runs on for
good it does not return. -/
theorem run_riscv_binary_conforms (env : Env) (bytes : List U8) (parse : ElfParser)
    (argsJs : List (Option Text))
    (polls : Nat → Nat → Poll) (loadable : Loadable env.build bytes (parse bytes)) :
    (∃ entry x, EnteredAt (parse bytes) entry ∧
      StartRegisters env.build.usizeBits (Arg.taken (argsJs.filterMap id)) x) ∧
    ∀ entry x, EnteredAt (parse bytes) entry →
      StartRegisters env.build.usizeBits (Arg.taken (argsJs.filterMap id)) x →
      (∀ n p, (startProcess bytes (parse bytes) entry x).run 0xFFFF0000 n = some p →
        p.halted = true →
        ∃ s, (∀ fuel, 2 * n + 1 < fuel →
            runRiscvBinary env bytes parse argsJs polls fuel = .ok (BitVec.ofNat 32 p.exitCode) s) ∧
          s.tracked.machine.process = p ∧ s.tracked.cpu.stepCounter = n) ∧
      ((∀ n, ∃ p, (startProcess bytes (parse bytes) entry x).run 0xFFFF0000 n = some p ∧
        p.halted = false) →
        ∀ fuel, runRiscvBinary env bytes parse argsJs polls fuel = .exhausted) := by
  obtain ⟨s, runs, process, builtin, masked, fresh⟩ :
      ∃ s, (∀ fuel, runRiscvBinary env bytes parse argsJs polls fuel =
        (runFull env polls fuel).run s) ∧ _ :=
    runRiscvBinary_eq loadable
  refine ⟨⟨_, _, (starts_once _ _ _).mpr ⟨rfl, rfl⟩⟩, fun entry x entered registers => ?_⟩
  obtain ⟨rfl, rfl⟩ := (starts_once _ _ _).mp ⟨entered, registers⟩
  rw [← process]
  constructor
  · intro n p reached halted
    have bound : 2 * n + s.tracked.cpu.pending ≤ 2 * n + 1 :=
      Nat.add_le_add_left s.tracked.cpu.pending_le _
    obtain ⟨u, ran, same, tame⟩ : ∃ u, (∀ fuel, _ < fuel →
      (run env polls fuel 0).run s.tracked = _) ∧ _ :=
      run_halts _ bound builtin (fun i k => masked (polls i k)) reached halted 0
    refine ⟨{ s with tracked := u }, fun fuel enough => ?_, same, ?_⟩
    · rw [runs, runFull, run_onTracked, ran fuel enough]
      rfl
    · have counted := congrArg Cpu.stepCounter tame.cpu
      change u.machine.cpu.stepCounter = n
      rw [counted]
      change s.tracked.cpu.stepCounter + n = n
      rw [fresh, Nat.zero_add]
  · intro live fuel
    rw [runs, runFull, run_onTracked,
      run_goes_on builtin (fun i k => masked (polls i k)) live fuel 0]
    rfl

/-- An executable with `ebreak` at its entry point and, behind it, a `_start` that exits with `a0`. -/
def starting : List U8 :=
  [0x464C457F, 0x00010101, 0, 0, 0x00F30002, 1, 0x10000, 0x34, 0x88, 0, 0x00200034, 0x00280001, 3,
    1, 0x54, 0x10000, 0x10000, 12, 12, 5, 4,
    0x00100073, 0x05D00893, 0x00000073, 0x74735F00, 0x00747261,
    0, 0, 0, 0, 1, 0x10004, 0, 0xFFF10012,
    0, 0, 0, 0, 0, 0, 0, 0, 0, 0,
    0, 2, 0, 0, 0x68, 0x20, 2, 1, 4, 16,
    0, 3, 0, 0, 0x60, 8, 0, 0, 1, 0].flatMap fun word : U32 => leBytes word 4

def startingElf : Elf where
  eEntry := 0x10000
  programHeaders := [⟨ptLoad, 0x54, 12, 0x10000⟩]
  sectionHeaders := [⟨0, 0, 0, 0, 0, 0⟩, ⟨2, 0, 0, 0x68, 0x20, 4⟩, ⟨3, 0, 0, 0x60, 8, 1⟩]
  syms := [⟨0, 0, 0⟩, ⟨1, 0xFFF1, 0x10004⟩]
  strtab
    | 0 => some []
    | 1 => some "_start".toList
    | _ => none

def startingArgs : List (Option Text) := [some "--setreg".toList, none, some "a0=42".toList]

def startingRegisters : Fin 32 → Nat := startRegisters [(10, 42)]

/-- It is entered at `_start`, with the register that the arguments set. -/
theorem run_riscv_binary_conforms_start :
    ∃ s, runRiscvBinary Env.wasm starting (fun _ => some startingElf)
    startingArgs (fun _ _ => default) 6 = .ok 42 s ∧ s.tracked.cpu.stepCounter = 2 := by
  have loadable : Loadable Env.wasm.build starting (some startingElf) := by
    intro phdr member load
    obtain rfl := List.mem_singleton.mp member
    exact ⟨by decide, show 84 + 12 < 2 ^ 32 by decide⟩
  have first : Search.First startingElf.Starts startingElf.syms ⟨1, 0xFFF1, 0x10004⟩ :=
    ⟨[⟨0, 0, 0⟩], [], rfl, by decide, by decide⟩
  have entered : EnteredAt (some startingElf) 0x10004 :=
    .start (show startingElf.eEntry ≠ 0 by decide) first
  have registers : StartRegisters 32 (Arg.taken (startingArgs.filterMap id)) startingRegisters := by
    rw [startRegisters_iff]
    have inits : (Arg.taken (startingArgs.filterMap id)).filterMap (Arg.init? 32) = [(10, 42)] := by
      decide +kernel
    rw [inits]
    rfl
  obtain ⟨p, reached, meaning⟩ : ∃ p, (startProcess starting (some startingElf) 0x10004
      startingRegisters).run 0xFFFF0000 2 = some p ∧ (p.halted, p.exitCode) = (true, 42) :=
    Option.map_eq_some_iff.mp
      (show Option.map (fun p : Isa.Process => (p.halted, p.exitCode)) _ = _ by decide +kernel)
  obtain ⟨halted, code⟩ : p.halted = true ∧ p.exitCode = 42 := by simpa using meaning
  obtain ⟨s, ran, -, counted⟩ :=
    ((run_riscv_binary_conforms Env.wasm starting (fun _ => some startingElf) startingArgs
    (fun _ _ => default) loadable).2 0x10004 startingRegisters entered registers).1 2 p reached halted
  rw [code] at ran
  exact ⟨s, ran 6 (by decide), counted⟩

end Whole

end RiscvRs
