import RiscvRs.Exec.Calls
import RiscvRs.Reference.Instructions
import RiscvRs.Run.Fetch

/-! One instruction of the simulator against one step of the reference machine. -/

namespace RiscvRs

open Effects Prog Bytes

/-- Stream and bytes, where the event is a write to a stream. -/
def IoEvent.written? : IoEvent → Option (Nat × List Nat)
  | writeStdout bytes => some (1, bytes.map BitVec.toNat)
  | writeStderr bytes => some (2, bytes.map BitVec.toNat)
  | _ => none

/-- The program that a machine runs, as the reference sees it. -/
def Machine.process (m : Machine) : Isa.Process where
  core := m.reference
  writes := m.bus.world.io.filterMap IoEvent.written?
  heap := m.bus.mem.initialBrk.toNat
  brk := m.bus.mem.brkPtr.toNat
  halted := m.cpu.isHalted
  exitCode := m.cpu.exitCode.toNat

/-- What the reference does not see, and its instructions leave alone: floating-point and control
registers, settings and counters, the cell behind `x0`, the devices and the messages. -/
structure Tame (m m' : Machine) : Prop where
  cpu : m'.cpu =
    { m.cpu with
      regs := m'.cpu.regs, pc := m'.cpu.pc, isHalted := m'.cpu.isHalted, exitCode := m'.cpu.exitCode }
  zero : m'.cpu.regs 0 = m.cpu.regs 0
  io : ∃ events, m'.bus.world.io = events ++ m.bus.world.io ∧
    ∀ event ∈ events, (IoEvent.written? event).isSome
  diagnostics : m'.bus.world.diagnostics = m.bus.world.diagnostics

section Frames

variable {m m' m'' : Machine}

theorem Tame.refl (m : Machine) : Tame m m where
  cpu := rfl
  zero := rfl
  io := ⟨[], rfl, by simp⟩
  diagnostics := rfl

theorem Tame.trans (first : Tame m m') (second : Tame m' m'') : Tame m m'' where
  cpu := by rw [second.cpu, first.cpu]
  zero := second.zero.trans first.zero
  io := by
    obtain ⟨early, grown, writes⟩ := first.io
    obtain ⟨late, grown', writes'⟩ := second.io
    refine ⟨late ++ early, by rw [grown', grown, List.append_assoc], ?_⟩
    intro event member
    exact (List.mem_append.mp member).elim (writes' event) (writes event)
  diagnostics := second.diagnostics.trans first.diagnostics

theorem Keeps.tame (keeps : Keeps m m') : Tame m m' where
  cpu := by rw [keeps.cpu]
  zero := keeps.zero
  io := ⟨[], by rw [keeps.world]; rfl, by simp⟩
  diagnostics := by rw [keeps.world]

/-- A plain instruction moves the core alone. -/
theorem Keeps.process (keeps : Keeps m m') :
    m'.process = { m.process with core := m'.reference } := by
  ext1
  · rfl
  · exact congrArg (fun world : World => world.io.filterMap IoEvent.written?) keeps.world
  · exact congrArg BitVec.toNat keeps.initialBrk
  · exact congrArg BitVec.toNat keeps.brkPtr
  · have halted := congrArg Cpu.isHalted keeps.cpu
    exact halted
  · have code := congrArg (fun cpu : Cpu => cpu.exitCode.toNat) keeps.cpu
    exact code

theorem reference_goto (m : Machine) (target : Int) :
    (Machine.mk { m.cpu with pc := BitVec.ofInt 32 target } m.bus).reference =
      m.reference.goto target := by
  ext
  · rfl
  · exact (Isa.wrap_eq target).symm
  · rfl

end Frames

section Calls

variable {env : Env} {m : Machine} {p : Isa.Process}

/-- The reference's calls as groups of the built-in ones. -/
def groupOf : Isa.Call → SyscallGroup
  | .exit => .exit
  | .write => .write
  | .brk => .brk
  | .ignored => .ignored

theorem syscallGroup_of_call (a7 : U32) {call : Isa.Call} (named : Isa.call? a7.toNat = some call) :
    syscallGroup a7 = some (groupOf call) := by
  obtain ⟨number, same⟩ : ∃ number, a7.toNat = number := ⟨_, rfl⟩
  obtain rfl : a7 = BitVec.ofNat 32 number := by rw [← same, BitVec.ofNat_toNat, BitVec.setWidth_eq]
  rw [same] at named
  unfold Isa.call? at named
  split at named <;> cases named <;> rfl

theorem execute_ecall (env : Env) (m : Machine) : (executeInst32 env 0x00000073).run m =
    ((handleEcall env).run m).andThen fun _ m' => .ok () (m'.jump (m.cpu.pc + 4)) := by
  have run := Fetched.execute_run env (.word 0x00000073) m
  rw [Fetched.execute] at run
  rw [run]
  change (((Op.ecall (m.cpu.pc + 4)).exec env).run m).andThen _ = _
  rw [Op.exec, run_bind]
  cases (handleEcall env).run m <;> rfl

theorem execute_ebreak (env : Env) (m : Machine) : (executeInst32 env 0x00100073).run m =
    .ok () (Machine.jump { m with cpu := { m.cpu with isHalted := true } } (m.cpu.pc + 4)) := by
  have run := Fetched.execute_run env (.word 0x00100073) m
  rw [Fetched.execute] at run
  exact run

theorem execute_cEbreak (env : Env) (m : Machine) : (executeInst16 env 0x9002).run m =
    .ok () (Machine.jump { m with cpu := { m.cpu with isHalted := true } } (m.cpu.pc + 2)) := by
  have run := Fetched.execute_run env (.half 0x9002) m
  rw [Fetched.execute] at run
  exact run

/-- The state after an answer in `a0`. -/
theorem reference_answer (m : Machine) (val : U32) (bus : Bus)
    (same : bus.mem.flat = m.bus.mem.flat) :
    (Machine.jump ⟨m.cpu.writeReg regA0 val, bus⟩ (m.cpu.pc + 4)).reference =
      (m.reference.set 10 val.toNat).goto (m.reference.pc + (4 : Nat)) := by
  have written := reference_set_goto m regA0 val.toNat (m.reference.pc + 4)
  rw [Isa.ofInt_toNat, ofInt_next] at written
  refine Eq.trans ?_ written
  ext
  · rfl
  · rfl
  · exact congrFun (congrArg Isa.ofStore same) _

theorem tame_answer (m : Machine) (val : U32) (bus : Bus) (events : List IoEvent)
    (io : bus.world.io = events ++ m.bus.world.io)
    (writes : ∀ event ∈ events, (IoEvent.written? event).isSome)
    (diagnostics : bus.world.diagnostics = m.bus.world.diagnostics) :
    Tame m (Machine.jump ⟨m.cpu.writeReg regA0 val, bus⟩ (m.cpu.pc + 4)) where
  cpu := rfl
  zero := rfl
  io := ⟨events, io, writes⟩
  diagnostics := diagnostics

/-- The bytes of a buffer in RAM, as the reference lists them. -/
theorem byteList_span (m : Machine) (addr : U32) (n : Nat) :
    Isa.byteList m.reference.mem addr.toNat n = (span m.bus.mem.flat addr n).map BitVec.toNat := by
  apply List.ext_getElem
  · simp [Isa.byteList]
  · intro i left right
    rw [Isa.byteList, List.length_map, List.length_range] at left
    simp only [Isa.byteList, List.getElem_map, List.getElem_range, getElem_span]
    change (m.bus.mem.flat _).toNat = _
    rw [BitVec.ofNat_add, BitVec.ofNat_toNat, BitVec.setWidth_eq]

/-- Stopping moves `pc` and sets the flag and the code. -/
theorem process_stop (m : Machine) (code : U32) (size : Nat) (next : U32)
    (target : BitVec.ofInt 32 (m.reference.pc + size) = next) :
    (Machine.jump { m with cpu := { m.cpu with isHalted := true, exitCode := code } } next).process =
      m.process.stop size code.toNat := by
  ext1
  · rw [← target]
    exact reference_goto { m with cpu := { m.cpu with isHalted := true, exitCode := code } }
      (m.reference.pc + size)
  all_goals rfl

/-- `SYS_write` from a buffer in RAM. -/
theorem write_follows (stream : m.reference.x 10 = 1 ∨ m.reference.x 10 = 2)
    (small : m.reference.x 12 ≤ 2 ^ 24)
    (room : m.reference.x 11 + m.reference.x 12 ≤ 0xFFFF0000) :
    ∃ m', ((sysWrite env (m.cpu.readReg regA0) (m.cpu.readReg regA1) (m.cpu.readReg regA2)).run
      m).andThen
        (fun _ m' => .ok () (m'.jump (m.cpu.pc + 4))) =
          (.ok () m' : Outcome Machine CpuError Unit) ∧
      m'.process = { m.process.answer (m.reference.x 12) with
        writes := (m.reference.x 10, Isa.byteList m.reference.mem (m.reference.x 11)
          (m.reference.x 12)) ::
          m.process.writes } ∧ Tame m m' := by
  have whole : transferCount (m.cpu.readReg regA2) = m.reference.x 12 := min_eq_left small
  have named : m.cpu.readReg regA0 = 1 ∨ m.cpu.readReg regA0 = 2 :=
    stream.imp (fun same => BitVec.eq_of_toNat_eq same) fun same => BitVec.eq_of_toNat_eq same
  obtain ⟨bytes, bus, read, -, run⟩ :=
    sysWrite_run env m (m.cpu.readReg regA1) (m.cpu.readReg regA2) named
  rw [whole, readEach_ram env.host m.bus (m.cpu.readReg regA1) _ room] at read
  obtain ⟨rfl, rfl⟩ := Outcome.ok.inj read
  have written : (streamWrite (m.cpu.readReg regA0)
    (span m.bus.mem.flat (m.cpu.readReg regA1) (m.reference.x 12))).written? =
      some (m.reference.x 10, Isa.byteList m.reference.mem (m.reference.x 11)
        (m.reference.x 12)) := by
    have listed : Isa.byteList m.reference.mem (m.reference.x 11) (m.reference.x 12) = _ :=
      byteList_span m (m.cpu.readReg regA1) (m.reference.x 12)
    have fd : m.reference.x 10 = (m.cpu.readReg regA0).toNat := rfl
    rw [listed, fd]
    rcases named with same | same <;> rw [same] <;> rfl
  rw [run]
  refine ⟨_, rfl, ?_, tame_answer m _ _ [streamWrite _ _] rfl ?_ rfl⟩
  · ext1
    · exact reference_answer m (m.cpu.readReg regA2) _ rfl
    · change List.filterMap _ (_ :: _) = _
      rw [List.filterMap_cons_some written]
      rfl
    all_goals rfl
  · intro event member
    obtain rfl := List.mem_singleton.mp member
    rw [written]
    rfl

theorem brkAfter_toNat (m : Machine) :
    m.brkAfter.toNat = m.process.moved 0xFFFF0000 (m.process.core.x 10) := by
  have zero : m.cpu.readReg regA0 ≠ 0 ↔ m.process.core.x 10 ≠ 0 :=
    not_congr ⟨fun same => congrArg BitVec.toNat same, fun same => BitVec.eq_of_toNat_eq same⟩
  have low : m.cpu.readReg regA0 ≥ m.bus.mem.initialBrk ↔ m.process.heap ≤ m.process.core.x 10 :=
    BitVec.le_def
  have high : m.cpu.readReg regA0 < mmioBase ↔ m.process.core.x 10 < 0xFFFF0000 := BitVec.lt_def
  rw [Machine.brkAfter, Isa.Process.moved, apply_ite BitVec.toNat]
  simp only [zero, low, high]
  rfl

theorem call_follows (env : Env) (off : m.cpu.hasCustomSyscalls = false)
    (called : m.process.call 0xFFFF0000 = some p) :
    ∃ m', (executeInst32 env 0x00000073).run m = .ok () m' ∧ m'.process = p ∧ Tame m m' := by
  rw [Isa.Process.call] at called
  dsimp only at called
  have through : (handleEcall env).run m = _ := handleEcall_builtin off
  rw [builtinSyscall_eq] at through
  rw [execute_ecall, through]
  split at called
  · next number =>
    rw [syscallGroup_of_call (m.cpu.readReg regA7) number]
    obtain rfl := Option.some.inj called
    refine ⟨_, rfl, ?_, ⟨rfl, rfl, ⟨[], rfl, by simp⟩, rfl⟩⟩
    exact process_stop m (m.cpu.readReg regA0) 4 (m.cpu.pc + 4) ofInt_next
  · next number =>
    rw [syscallGroup_of_call (m.cpu.readReg regA7) number]
    split at called
    case isFalse => cases called
    case isTrue fits =>
      obtain rfl := Option.some.inj called
      exact write_follows fits.1 fits.2.1 fits.2.2
  · next number =>
    rw [syscallGroup_of_call (m.cpu.readReg regA7) number]
    obtain rfl := Option.some.inj called
    change ∃ m', ((sysBrk (m.cpu.readReg regA0)).run m).andThen _ = _ ∧ _
    rw [sysBrk_run]
    refine ⟨_, rfl, ?_, tame_answer m m.brkAfter _ [] rfl (by simp) rfl⟩
    have moved := brkAfter_toNat m
    ext1
    · rw [← moved]
      exact reference_answer m m.brkAfter _ rfl
    · rfl
    · rfl
    · exact moved
    all_goals rfl
  · next number =>
    rw [syscallGroup_of_call (m.cpu.readReg regA7) number]
    obtain rfl := Option.some.inj called
    refine ⟨_, rfl, ?_, tame_answer m 0 m.bus [] rfl (by simp) rfl⟩
    ext1
    · exact reference_answer m 0 m.bus rfl
    all_goals rfl
  · cases called

end Calls

section Fetching

variable (host : Host) (bus : Bus) {pc : U32}

/-- The bytes of an instruction in RAM. -/
def Bus.bytesAt (bus : Bus) (pc : U32) (n : Nat) : Nat :=
  Isa.bytesAt (Isa.ofStore bus.mem.flat) pc.toNat n

theorem bytesAt_eq (bus : Bus) (pc : U32) (n : Nat) :
    bus.bytesAt pc n = leNat (span bus.mem.flat pc n) := by
  rw [Bus.bytesAt, Isa.bytesAt_ofStore, BitVec.ofNat_toNat, BitVec.setWidth_eq]

/-- The low two bits tell the width. -/
theorem isHalf_iff (half : U16) : half &&& 0x3 ≠ 0x3 ↔ half.toNat % 4 ≠ 3 := by
  rw [ne_eq, ← BitVec.toNat_inj, BitVec.toNat_and]
  have low : half.toNat &&& (0x3 : U16).toNat = half.toNat % 2 ^ 2 :=
    Nat.and_two_pow_sub_one_eq_mod half.toNat 2
  rw [low]
  rfl

theorem fetch_first (below : pc.toNat + 2 ≤ 0xFFFF0000) :
    ∃ half : U16, half.toNat = bus.bytesAt pc 2 ∧
    (fetch host pc).run bus = if half &&& 0x3 ≠ 0x3 then .ok (.half half) bus
      else ((Memory.readU32 host pc).run bus).andThen fun word bus' => .ok (.word word) bus' := by
  obtain ⟨half, read, value⟩ : ∃ half : U16, (Memory.readU16 host pc : Prog Bus Empty _).run bus =
    .ok half bus ∧
      half.toNat = leNat (span bus.mem.flat pc 2) := readAt_below host bus .half below
  refine ⟨half, value.trans (bytesAt_eq bus pc 2).symm, ?_⟩
  rw [fetch_eq_plainFetch, plainFetch, run_bind, read, Outcome.andThen_ok]
  split <;> rfl

theorem fetch_half (below : pc.toNat + 2 ≤ 0xFFFF0000) (short : bus.bytesAt pc 2 % 4 ≠ 3) :
    ∃ half : U16, half.toNat = bus.bytesAt pc 2 ∧
      (fetch host pc).run bus = .ok (.half half) bus := by
  obtain ⟨half, value, read⟩ := fetch_first host bus below
  rw [if_pos ((isHalf_iff half).mpr (value ▸ short))] at read
  exact ⟨half, value, read⟩

theorem fetch_word (below : pc.toNat + 4 ≤ 0xFFFF0000) (long : bus.bytesAt pc 2 % 4 = 3) :
    ∃ word : U32, word.toNat = bus.bytesAt pc 4 ∧
      (fetch host pc).run bus = .ok (.word word) bus := by
  obtain ⟨half, value, read⟩ := fetch_first host bus (show pc.toNat + 2 ≤ _ by omega)
  obtain ⟨word, whole, spelled⟩ : ∃ word : U32, (Memory.readU32 host pc : Prog Bus Empty _).run
    bus = .ok word bus ∧
      word.toNat = leNat (span bus.mem.flat pc 4) := readAt_below host bus .word below
  rw [if_neg (mt (isHalf_iff half).mp (not_not.mpr (value ▸ long))), whole,
    Outcome.andThen_ok] at read
  exact ⟨word, spelled.trans (bytesAt_eq bus pc 4).symm, read⟩

end Fetching

section Step

variable {env : Env} {t : Tracked} {p : Isa.Process}

/-- A fetch from RAM, then the instruction. -/
theorem fetchExecute_run {inst : Fetched} {m : Machine}
    (fetched : (fetch env.host t.cpu.pc).run t.machine.bus = .ok inst t.machine.bus)
    (executed : (inst.execute env).run t.machine = .ok () m) :
    (fetchExecute env t.cpu.pc).run t = .ok (inst, .ok ()) { t with machine := m } := by
  rw [fetchExecute_eq, run_bind, run_onMachine, run_onBus fetched, Outcome.reshape_ok,
    Outcome.andThen_ok, run_bind,
    run_onMachine, run_attempt]
  change ((((inst.execute env).run t.machine).reshape _ _).reshape _ _).andThen _ = _
  rw [executed]
  rfl

theorem access_of_inside {limit : Nat} {s : Isa.State} {inst : Isa.Instr}
    (inside : inst.inside limit s = true)
    (addr n : Nat) (access : inst.access s = some (addr, n)) : addr + n ≤ limit := by
  rw [Isa.Instr.inside, access] at inside
  exact of_decide_eq_true inside

/-- Where the reference has a step, the simulator makes it. -/
theorem step_follows (env : Env) (off : t.cpu.hasCustomSyscalls = false)
    (step : t.machine.process.step 0xFFFF0000 = some p) :
    t.cpu.isHalted = false ∧ ∃ inst m, (fetchExecute env t.cpu.pc).run t = .ok (inst, .ok ())
      { t with machine := m } ∧
      m.process = p ∧ Tame t.machine m := by
  rw [Isa.Process.step] at step
  dsimp only at step
  split at step
  case isTrue => cases step
  case isFalse live =>
  have alive : ¬t.cpu.isHalted = true := live
  refine ⟨by simpa using alive, ?_⟩
  split at step
  case isTrue long =>
    split at step
    case isTrue => cases step
    case isFalse room =>
    obtain ⟨word, value, fetched⟩ :=
      fetch_word env.host t.machine.bus (show t.cpu.pc.toNat + 4 ≤ _ from not_lt.mp room) long
    change (if t.machine.bus.bytesAt t.cpu.pc 4 = _ then _ else _) = _ at step
    split at step
    case isTrue ecall =>
      obtain rfl : word = 0x00000073 := BitVec.eq_of_toNat_eq (value.trans ecall)
      obtain ⟨m, run, meaning, tame⟩ := call_follows env off step
      exact ⟨_, m, fetchExecute_run fetched run, meaning, tame⟩
    case isFalse =>
    split at step
    case isTrue ebreak =>
      obtain rfl : word = 0x00100073 := BitVec.eq_of_toNat_eq (value.trans ebreak)
      obtain rfl := Option.some.inj step
      refine ⟨_, _, fetchExecute_run fetched (execute_ebreak env t.machine), ?_,
        ⟨rfl, rfl, ⟨[], rfl, by simp⟩, rfl⟩⟩
      exact process_stop t.machine t.cpu.exitCode 4 _ ofInt_next
    case isFalse =>
      obtain ⟨inst, decoded, executed⟩ := Option.bind_eq_some_iff.mp step
      rw [Isa.Process.execute] at executed
      split at executed
      case isFalse => cases executed
      case isTrue inside =>
      obtain rfl := Option.some.inj executed
      change Isa.decodeWord (t.machine.bus.bytesAt t.cpu.pc 4) = some inst at decoded
      rw [← value] at decoded
      obtain ⟨m, run, meaning, keeps⟩ : Follows env word t.machine inst :=
        word_follows decoded (access_of_inside inside)
      refine ⟨_, m, fetchExecute_run fetched run, ?_, keeps.tame⟩
      rw [keeps.process, meaning]
      rfl
  case isFalse short =>
    split at step
    case isTrue => cases step
    case isFalse room =>
    obtain ⟨half, value, fetched⟩ :=
      fetch_half env.host t.machine.bus (show t.cpu.pc.toNat + 2 ≤ _ from not_lt.mp room) short
    change (if t.machine.bus.bytesAt t.cpu.pc 2 = _ then _ else _) = _ at step
    split at step
    case isTrue ebreak =>
      obtain rfl : half = 0x9002 := BitVec.eq_of_toNat_eq (value.trans ebreak)
      obtain rfl := Option.some.inj step
      refine ⟨_, _, fetchExecute_run fetched (execute_cEbreak env t.machine), ?_,
        ⟨rfl, rfl, ⟨[], rfl, by simp⟩, rfl⟩⟩
      exact process_stop t.machine t.cpu.exitCode 2 _ (ofInt_pc_add 2)
    case isFalse =>
      obtain ⟨inst, decoded, executed⟩ := Option.bind_eq_some_iff.mp step
      rw [Isa.Process.execute] at executed
      split at executed
      case isFalse => cases executed
      case isTrue inside =>
      obtain rfl := Option.some.inj executed
      change Isa.decodeHalf (t.machine.bus.bytesAt t.cpu.pc 2) = some inst at decoded
      rw [← value] at decoded
      obtain ⟨m, run, meaning, keeps⟩ :=
        half_conforms env t.machine decoded (access_of_inside inside)
      refine ⟨_, m, fetchExecute_run fetched run, ?_, keeps.tame⟩
      rw [keeps.process, meaning]
      rfl

end Step

end RiscvRs
