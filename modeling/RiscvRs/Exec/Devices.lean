import RiscvRs.Exec.Results
import RiscvRs.Memory.Devices

/-! Which devices an instruction touches. Loads ask, stores tell, both inside their
own range, and an instruction that traps touches none; the atomics break the rule,
since they read before they know what they are. -/

namespace RiscvRs

open Effects Prog

/-- Only devices covered by the access were touched. -/
def Machine.deviceFrame (access : Access) : Frame Machine :=
  Frame.logs (fun m => m.bus.world.io) access.Allows

/-- A run from `m` touched the devices of its access, and none if it raised an error. -/
structure AsksOnly {α : Type} (m : Machine) (access : Access)
    (outcome : Outcome Machine CpuError α) : Prop where
  ok : ∀ {a m'}, outcome = .ok a m' → (Machine.deviceFrame access).rel m m'
  err : ∀ {e m'}, outcome = .err e m' → (Machine.deviceFrame .none).rel m m'

/-- The buffer of a system call: `SYS_write` reads it, `SYS_read` fills it. -/
def syscallAccess (a1 a2 a7 : U32) : Access :=
  if a7 = 64 ∨ a7 = 4 then ⟨true, false, a1, transferCount a2⟩
  else if a7 = 63 ∨ a7 = 3 then ⟨false, true, a1, transferCount a2⟩
  else .none

/-- The devices an operation is for. -/
def Op.access (cpu : Cpu) : Op → Access
  | load kind _ addr _ => ⟨true, false, addr, kind.width.bytes⟩
  | loadSingle _ addr _ => ⟨true, false, addr, 4⟩
  | loadDouble _ _ addr _ => ⟨true, false, addr, 8⟩
  | store width addr _ _ => ⟨false, true, addr, width.bytes⟩
  | storeDouble _ _ addr _ => ⟨false, true, addr, 8⟩
  -- `LR.W` only reads and `SC.W` only writes
  | amo _ funct5 _ addr _ _ => ⟨funct5 ≠ 0x03, funct5 ≠ 0x02, addr, 4⟩
  | ecall _ => syscallAccess (cpu.readReg regA1) (cpu.readReg regA2) (cpu.readReg regA7)
  | _ => .none

/-- The atomics the executor knows. -/
def amoFuncts : List U8 := [0x00, 0x01, 0x02, 0x03, 0x04, 0x08, 0x0C, 0x10, 0x14, 0x18, 0x1C]

/-- An atomic that must not read, at an address whose word reaches the window. -/
def Fetched.ReadsTooSoon (cpu : Cpu) : Fetched → Prop
  | half _ => False
  | word raw =>
    let inst := DecodedInst32.decode raw
    Opcode.ofBits? inst.opcode = some .amo ∧
      (inst.funct7 >>> 2 = 0x03 ∨ inst.funct7 >>> 2 ∉ amoFuncts) ∧
      0xFFFF0000 < (cpu.readReg inst.rs1).toNat + 4

section Frames

variable {ε α : Type} {access : Access}

theorem Access.none_allows {event : IoEvent} (quiet : Access.none.Allows event) :
    access.Allows event := by
  cases event with
  | readMmio a size val => exact absurd quiet.1 Bool.false_ne_true
  | writeMmio a size val => exact absurd quiet.1 Bool.false_ne_true
  | _ => trivial

theorem device_of_quiet {s t : Machine} (quiet : (Machine.deviceFrame .none).rel s t) :
    (Machine.deviceFrame access).rel s t :=
  Frame.logs_mono (fun _ => Access.none_allows) quiet

theorem device_onBus {x : Prog Bus ε α} (inner : Steady (Bus.deviceFrame access) x) :
    Steady (Machine.deviceFrame access) (onBus x) :=
  steady_zoom inner fun _ _ within => within

theorem device_modifyCpu (f : Cpu → Cpu) :
    Steady (Machine.deviceFrame access) (modifyCpu f : Prog Machine ε Unit) :=
  steady_modify fun m => (Machine.deviceFrame access).refl m

/-- Streams and the hook. -/
theorem device_record {event : IoEvent} (allowed : access.Allows event) :
    Steady (Bus.deviceFrame access) (modify (·.record event) : Prog Bus ε Unit) :=
  steady_modify fun _ => ⟨[event], rfl, by simpa using allowed⟩

theorem device_secondWord (build : Build) (plain : Bool) (addr : U32) :
    Steady (Machine.deviceFrame access) (build.secondWord plain addr : Prog Machine ε U32) := by
  unfold Build.secondWord
  split
  · exact steady_addU32 build addr 4
  · exact steady_pure _

theorem secondWord_ok {build : Build} {plain : Bool} {addr next : U32} {m m' : Machine}
    (run : (build.secondWord plain addr : Prog Machine ε U32).run m = .ok next m') :
    next = addr + BitVec.ofNat 32 4 := by
  unfold Build.secondWord Build.addU32 at run
  split at run
  · split at run
    · cases run
    · exact (Outcome.ok.inj run).1.symm
  · exact (Outcome.ok.inj run).1.symm

theorem device_illegal (raw : U32) :
    Guarded (Machine.deviceFrame access) (Machine.deviceFrame .none) (illegal raw : Exec α) :=
  guarded_bind device_of_quiet steady_getCpu fun _ => guarded_fail _

theorem asksOnly_of_guarded {x : Exec α}
    (guarded : Guarded (Machine.deviceFrame access) (Machine.deviceFrame .none) x) (m : Machine) :
    AsksOnly m access (x.run m) where
  ok run := guarded.ok run
  err run := guarded.err run

end Frames

section Syscalls

variable {env : Env}

theorem device_sysWrite (a0 a1 a2 : U32) :
    Steady (Machine.deviceFrame ⟨true, false, a1, transferCount a2⟩) (sysWrite env a0 a1 a2) := by
  refine steady_bind (device_onBus (device_readBytes _ rfl fun _ _ inside => inside)) fun bytes => ?_
  dsimp only
  split
  · exact steady_bind (device_onBus (device_record trivial)) fun _ => device_modifyCpu _
  · split
    · exact steady_bind (device_onBus (device_record trivial)) fun _ => device_modifyCpu _
    · exact device_modifyCpu _

/-- The slice that is written is part of a buffer of the bounded length. -/
theorem device_sysRead (a1 a2 : U32) :
    Steady (Machine.deviceFrame ⟨false, true, a1, transferCount a2⟩) (sysRead env a1 a2) := by
  have asked : Steady (Bus.deviceFrame ⟨false, true, a1, transferCount a2⟩)
      (readFromStdin env.host (transferCount a2) : Prog Bus CpuError _) :=
    steady_bind steady_get fun _ => steady_bind (device_record trivial) fun _ => steady_pure _
  refine steady_bind_of (device_onBus asked) ?_
  rintro m ⟨bytesRead, scratch⟩ m' run
  obtain ⟨bus, answered, -⟩ := zoom_ok.mp run
  obtain ⟨answer, -⟩ := Outcome.ok.inj answered
  obtain ⟨-, rfl⟩ := Prod.mk.inj answer
  dsimp only
  split
  · unfold sliceOf?
    split
    · next room =>
      rw [expect_some, pure_bind]
      refine steady_bind (device_onBus (device_writeBytes rfl ?_)) fun _ => device_modifyCpu _
      refine Access.Covers.shorter (fun _ _ inside => inside) ?_
      simp only [List.length_append, List.length_take, List.length_replicate,
        List.length_drop] at room ⊢
      omega
    · exact fun _ => .inr (.inl rfl)
  · exact device_modifyCpu _

theorem device_sysBrk {access : Access} (a0 : U32) :
    Steady (Machine.deviceFrame access) (sysBrk a0) := by
  have answer : Steady (Machine.deviceFrame access) (do
      let brk ← onBus Memory.getBrk
      modifyCpu (·.writeReg 10 brk) : Exec Unit) :=
    steady_bind (device_onBus (steady_bind steady_get fun _ => steady_pure _)) fun _ =>
      device_modifyCpu _
  have set : Steady (Bus.deviceFrame access) (Memory.setBrk a0 : Prog Bus CpuError Unit) := by
    refine steady_bind steady_get fun bus => ?_
    split
    · exact steady_modify fun bus => (Bus.deviceFrame access).refl bus
    · exact steady_pure _
  unfold sysBrk
  split
  · exact steady_bind (device_onBus set) fun _ => answer
  · exact answer

theorem device_builtinSyscall (a0 a1 a2 a3 a7 : U32) :
    Guarded (Machine.deviceFrame (syscallAccess a1 a2 a7)) (Machine.deviceFrame .none)
      (builtinSyscall env a0 a1 a2 a3 a7) := by
  unfold builtinSyscall
  split
  · exact (device_modifyCpu _).guarded
  · split
    · next write =>
      rw [syscallAccess, if_pos write]
      exact (device_sysWrite a0 a1 a2).guarded
    · next notWrite =>
      split
      · next read =>
        rw [syscallAccess, if_neg notWrite, if_pos read]
        exact (device_sysRead a1 a2).guarded
      · split
        · exact (device_sysBrk a0).guarded
        · split
          · exact (device_modifyCpu _).guarded
          · exact guarded_fail _

theorem device_handleEcall (env : Env) (m : Machine) :
    AsksOnly m (syscallAccess (m.cpu.readReg regA1) (m.cpu.readReg regA2) (m.cpu.readReg regA7))
      ((handleEcall env).run m) := by
  unfold handleEcall
  rw [run_bind, run_getCpu, Outcome.andThen_ok]
  dsimp only
  generalize m.cpu.readReg regA0 = a0, m.cpu.readReg regA1 = a1, m.cpu.readReg regA2 = a2,
    m.cpu.readReg regA3 = a3, m.cpu.readReg regA7 = a7
  have answered (res : U32) : Guarded (Machine.deviceFrame (syscallAccess a1 a2 a7))
    (Machine.deviceFrame .none)
      (if res ≠ 0 then modifyCpu (·.writeReg regA0 res) else builtinSyscall env a0 a1 a2 a3 a7) := by
    split
    · exact (device_modifyCpu _).guarded
    · exact device_builtinSyscall a0 a1 a2 a3 a7
  refine asksOnly_of_guarded ?_ m
  split
  · refine guarded_bind device_of_quiet (device_onBus ?_) answered
    exact steady_bind steady_get fun _ => steady_bind (device_record trivial) fun _ => steady_pure _
  · exact guarded_bind device_of_quiet (steady_pure _) answered

end Syscalls

section Operations

variable {env : Env} {m : Machine}

theorem amoResult_eq_none_iff (funct5 : U8) (oldVal src : U32) :
    amoResult funct5 oldVal src = none ↔ funct5 ∉ amoFuncts := by
  unfold amoResult
  split <;> simp_all [amoFuncts]

/-- Everything but the atomics keeps to its devices. -/
theorem Op.asksOnly_exec (op : Op) (ordinary : ∀ raw funct5 rd addr src next,
    op ≠ .amo raw funct5 rd addr src next)
    (m : Machine) : AsksOnly m (op.access m.cpu) ((op.exec env).run m) := by
  have steady {x : Exec U32} {access : Access} (inner : Steady (Machine.deviceFrame access) x) :
      AsksOnly m access (x.run m) := asksOnly_of_guarded inner.guarded m
  have next {access : Access} (f : Cpu → Cpu) (target : U32) :
      Steady (Machine.deviceFrame access) (do modifyCpu f; return target : Exec U32) :=
    steady_bind (device_modifyCpu f) fun _ => steady_pure _
  have whole {access : Access} : access.Covers access.addr access.count := fun _ _ inside => inside
  have low {access : Access} (size : access.count = 8) : access.Covers access.addr
    Width.word.bytes :=
    whole.shorter (size.symm ▸ by decide)
  have high {access : Access} (size : access.count = 8) :
      access.Covers (access.addr + BitVec.ofNat 32 4) Width.word.bytes :=
    whole.later (size.symm ▸ by decide)
  cases op with
  | goto target => exact steady (steady_pure _)
  | write rd val target => exact steady (next _ target)
  | writeF rd bits target => exact steady (next _ target)
  | halt target => exact steady (next _ target)
  | load kind rd addr target =>
    exact steady (steady_bind (device_onBus (device_readAt _ rfl whole)) fun _ => next _ target)
  | loadSingle rd addr target =>
    exact steady (steady_bind (device_onBus (device_readAt (w := .word) _ rfl whole)) fun _ =>
      next _ target)
  | loadDouble plain rd addr target =>
    refine steady (steady_bind (device_onBus (device_readAt (w := .word) _ rfl (low rfl))) fun _ => ?_)
    refine steady_bind_of (device_secondWord _ plain addr) fun s addr4 t second => ?_
    obtain rfl := secondWord_ok second
    exact steady_bind (device_onBus (device_readAt (w := .word) _ rfl (high rfl))) fun _ =>
      next _ target
  | store width addr val target =>
    exact steady (steady_bind (device_onBus (device_writeAt rfl whole _)) fun _ => steady_pure _)
  | storeDouble plain bits addr target =>
    refine steady (steady_bind (device_onBus (device_writeAt (w := .word) rfl (low rfl) _)) fun _ => ?_)
    refine steady_bind_of (device_secondWord _ plain addr) fun s addr4 t second => ?_
    obtain rfl := secondWord_ok second
    exact steady_bind (device_onBus (device_writeAt (w := .word) rfl (high rfl) _)) fun _ =>
      steady_pure _
  | amo raw funct5 rd addr src target => exact absurd rfl (ordinary raw funct5 rd addr src target)
  | ecall target =>
    have called := device_handleEcall env m
    constructor
    · intro a m' run
      obtain ⟨u, m₁, call, done⟩ := bind_ok.mp run
      obtain ⟨-, rfl⟩ := Outcome.ok.inj done
      exact called.ok call
    · intro e m' run
      rcases bind_err.mp run with call | ⟨u, m₁, -, done⟩
      · exact called.err call
      · cases done
  | mret target => exact steady (next _ target)
  | csr num newVal rd oldVal target =>
    exact steady (steady_bind (device_modifyCpu _) fun _ => next _ target)
  | illegal raw => exact asksOnly_of_guarded (device_illegal raw) m
  | unknown opcode =>
    exact asksOnly_of_guarded (guarded_bind device_of_quiet steady_getCpu fun _ => guarded_fail _) m

end Operations

section Atomics

variable {env : Env}

/-- Device reads are covered by an access that reads, or there are none. -/
theorem reads_allowed_iff (access : Access) {addr : U32} {count : Nat} {events : List IoEvent}
    (fine : ∀ event ∈ events, ∃ a size val, event = .readMmio a size val ∧ Inside addr count a size)
    (covers : access.reads = true → access.Covers addr count) :
    (∀ event ∈ events, access.Allows event) ↔ access.reads = true ∨ events = [] := by
  constructor
  · intro allowed
    cases events with
    | nil => exact .inr rfl
    | cons event rest =>
      obtain ⟨a, size, val, rfl, -⟩ := fine event List.mem_cons_self
      exact .inl (allowed _ List.mem_cons_self).1
  · rintro (reads | rfl)
    · intro event member
      obtain ⟨a, size, val, rfl, inside⟩ := fine event member
      exact ⟨reads, covers reads a size inside⟩
    · simp

section Outcomes

variable {α : Type} {m m' : Machine} {access : Access}

theorem asksOnly_ok {a : α} :
    AsksOnly m access (.ok a m') ↔ (Machine.deviceFrame access).rel m m' := by
  constructor
  · exact fun asks => asks.ok rfl
  · intro within
    constructor
    · intro b m'' same
      obtain ⟨-, rfl⟩ := Outcome.ok.inj same
      exact within
    · intro e m'' same
      cases same

theorem asksOnly_err {error : CpuError} :
    AsksOnly m access (.err error m' : Outcome Machine CpuError α) ↔
      (Machine.deviceFrame .none).rel m m' := by
  constructor
  · exact fun asks => asks.err rfl
  · intro within
    constructor
    · intro b m'' same
      cases same
    · intro e m'' same
      obtain ⟨-, rfl⟩ := Outcome.err.inj same
      exact within

theorem deviceFrame_iff {events : List IoEvent}
    (grown : m'.bus.world.io = events ++ m.bus.world.io) :
    (Machine.deviceFrame access).rel m m' ↔ ∀ event ∈ events, access.Allows event :=
  Frame.logs_iff grown

/-- The jump after an operation touches no device. -/
theorem asksOnly_jump_iff (outcome : Outcome Machine CpuError U32) :
    AsksOnly m access (outcome.andThen fun next m' => .ok () (m'.jump next)) ↔
      AsksOnly m access outcome := by
  cases outcome with
  | ok next m' =>
    rw [Outcome.andThen_ok, asksOnly_ok, asksOnly_ok]
    rfl
  | err e m' => rw [Outcome.andThen_err, asksOnly_err, asksOnly_err]
  | panic =>
    constructor
    all_goals
      intro _
      constructor <;> (intro _ _ same; cases same)
  | exhausted =>
    constructor
    all_goals
      intro _
      constructor <;> (intro _ _ same; cases same)

end Outcomes

theorem readU32_events (env : Env) (addr : U32) (m : Machine) :
    ∃ (val : U32) (events : List IoEvent), (onBus (Memory.readU32 env.host addr) : Exec U32).run m =
        .ok val { m with bus := m.bus.withIo (events ++ m.bus.world.io) } ∧
      (∀ event ∈ events, ∃ a size val, event = .readMmio a size val ∧ Inside addr 4 a size) ∧
      (events = [] ↔ ¬0xFFFF0000 < addr.toNat + 4) := by
  obtain ⟨val, events, read, fine, reached⟩ :=
    readAt_events (ε := CpuError) env.host m.bus .word addr
  refine ⟨val, events, ?_, fine, ?_⟩
  · change ((Memory.readAt env.host .word addr).run m.bus).reshape _ _ = _
    rw [read]
    rfl
  · exact not_iff_not.mp (by rw [not_not]; exact reached)

theorem writeU32_events (addr val : U32) (m : Machine) :
    ∃ (mem : Memory) (events : List IoEvent), (onBus (Memory.writeU32 addr val) : Exec Unit).run m =
        .ok () { m with bus := { m.bus with mem := mem }.withIo (events ++ m.bus.world.io) } ∧
      ∀ event ∈ events, ∃ a size val, event = .writeMmio a size val ∧ Inside addr 4 a size := by
  obtain ⟨mem, events, write, fine⟩ := writeAt_events (ε := CpuError) m.bus .word addr val
  refine ⟨mem, events, ?_, fine⟩
  change ((Memory.writeAt .word addr val).run m.bus).reshape _ _ = _
  rw [write]
  rfl

/-- An atomic reads its word in any case: too soon where it does not exist, and
without being asked to where it only stores. -/
theorem Op.asksOnly_amo_iff (raw : U32) (funct5 : U8) (rd : Fin 32) (addr src next : U32)
    (m : Machine) :
    AsksOnly m ((Op.amo raw funct5 rd addr src next).access m.cpu)
        (((Op.amo raw funct5 rd addr src next).exec env).run m) ↔
      ¬((funct5 = 0x03 ∨ funct5 ∉ amoFuncts) ∧ 0xFFFF0000 < addr.toNat + 4) := by
  obtain ⟨oldVal, events, read, fine, quiet⟩ := readU32_events env addr m
  rw [Op.exec, run_bind, read, Outcome.andThen_ok, run_bind]
  cases result : amoResult funct5 oldVal src with
  | none =>
    have unknown := (amoResult_eq_none_iff funct5 oldVal src).mp result
    have allowed := reads_allowed_iff .none fine fun reads => absurd reads Bool.false_ne_true
    change AsksOnly m _ (.err _ _) ↔ _
    rw [asksOnly_err, deviceFrame_iff rfl, allowed, quiet]
    simp [Access.none, unknown]
  | some newVal =>
    have known : funct5 ∈ amoFuncts := by
      by_contra unknown
      rw [(amoResult_eq_none_iff funct5 oldVal src).mpr unknown] at result
      cases result
    have allowed := reads_allowed_iff ((Op.amo raw funct5 rd addr src next).access m.cpu) fine
      fun _ _ _ inside => inside
    have needed : (∀ event ∈ events,
      ((Op.amo raw funct5 rd addr src next).access m.cpu).Allows event) ↔
        ¬((funct5 = 0x03 ∨ funct5 ∉ amoFuncts) ∧ 0xFFFF0000 < addr.toNat + 4) := by
      rw [allowed, quiet]
      simp [Op.access, known, imp_iff_not_or]
    rw [← needed]
    simp only [orIllegal, run_pure, Outcome.andThen_ok]
    by_cases loads : funct5 = 0x02
    · rw [if_neg (not_not.mpr loads)]
      exact asksOnly_ok.trans (deviceFrame_iff rfl)
    · obtain ⟨mem, told, write, stored⟩ := writeU32_events addr newVal
        { m with bus := m.bus.withIo (events ++ m.bus.world.io) }
      rw [if_pos loads, run_bind, write, Outcome.andThen_ok]
      have fineWrites : ∀ event ∈ told,
        ((Op.amo raw funct5 rd addr src next).access m.cpu).Allows event := by
        intro event member
        obtain ⟨a, size, val, rfl, inside⟩ := stored event member
        exact ⟨decide_eq_true loads, inside⟩
      have both : told ++ (events ++ m.bus.world.io) = (told ++ events) ++ m.bus.world.io :=
        (List.append_assoc told events m.bus.world.io).symm
      refine asksOnly_ok.trans ((deviceFrame_iff both).trans ?_)
      rw [List.forall_mem_append]
      exact and_iff_right fineWrites

theorem Op.Common.ne_amo {op : Op} (common : op.Common) (raw : U32) (funct5 : U8) (rd : Fin 32)
    (addr src next : U32) : op ≠ .amo raw funct5 rd addr src next := by
  rintro rfl
  exact common

theorem ne_amo_of_opcode (inst : DecodedInst32) (cpu : Cpu) (next : U32)
    (ordinary : Opcode.ofBits? inst.opcode ≠ some .amo) (raw : U32) (funct5 : U8) (rd : Fin 32)
    (addr src target : U32) : inst.op env cpu next ≠ .amo raw funct5 rd addr src target := by
  by_cases load : Opcode.ofBits? inst.opcode = some .loadFp
  · simp only [DecodedInst32.op, load, DecodedInst32.loadFpOp]
    repeat' split
    all_goals exact fun same => Op.noConfusion same
  · by_cases store : Opcode.ofBits? inst.opcode = some .storeFp
    · simp only [DecodedInst32.op, store, DecodedInst32.storeFpOp]
      repeat' split
      all_goals exact fun same => Op.noConfusion same
    · exact (inst.common_op env cpu next load store ordinary).ne_amo raw funct5 rd addr src target

/-- Only the accesses the guest asked for reach devices, except those of the atomics
that are no reads: `SC.W` and the undefined ones read first, which a device notices. -/
theorem only_asked_devices_iff (env : Env) (inst : Fetched) (m : Machine) :
    AsksOnly m ((inst.op env m.cpu).access m.cpu) ((inst.execute env).run m) ↔
      ¬inst.ReadsTooSoon m.cpu := by
  rw [inst.execute_run, asksOnly_jump_iff]
  cases inst with
  | half inst =>
    have common := common_quadrantOp inst m.cpu (m.cpu.pc + 2) (DecodedInst16.decode inst).op
      (DecodedInst16.decode inst).funct3
    exact iff_of_true (Op.asksOnly_exec _ common.ne_amo m) id
  | word raw =>
    by_cases atomic : Opcode.ofBits? (DecodedInst32.decode raw).opcode = some .amo
    · have operation : (Fetched.word raw).op env m.cpu =
          (DecodedInst32.decode raw).amoOp m.cpu (m.cpu.pc + 4) := by
        simp only [Fetched.op, DecodedInst32.op, atomic]
      rw [operation, DecodedInst32.amoOp, Op.asksOnly_amo_iff]
      simp [Fetched.ReadsTooSoon, atomic]
    · refine iff_of_true (Op.asksOnly_exec _ (ne_amo_of_opcode _ _ _ atomic) m) ?_
      exact fun soon => atomic soon.1

/-- `sc.w x0, x0, (x1)` on a device register reads the register it stores to, and an
undefined atomic reads one before it traps. -/
theorem store_conditional_reads_device :
    ∃ m m' m'' : Machine, ∃ error, (Fetched.word 0x1800A02F |>.execute default).run m = .ok () m' ∧
      m'.bus.world.io = [.writeMmio 0xFFFF0000 4 0, .readMmio 0xFFFF0000 4 0] ∧
      (Fetched.word 0x2800A02F |>.execute default).run m = .err error m'' ∧
      m''.bus.world.io = [.readMmio 0xFFFF0000 4 0] ∧
      ¬AsksOnly m ((Fetched.op default m.cpu (.word 0x1800A02F)).access m.cpu)
        ((Fetched.word 0x1800A02F |>.execute default).run m) := by
  refine ⟨{ Machine.new with cpu := Cpu.new.writeReg 1 0xFFFF0000 }, _, _, _, rfl, rfl, rfl, rfl, ?_⟩
  intro asks
  obtain ⟨events, grown, allowed⟩ := asks.ok rfl
  obtain rfl := (List.append_nil events).symm.trans grown.symm
  have read := allowed (.readMmio 0xFFFF0000 4 0) (by decide)
  exact absurd read.1 (by decide)

end Atomics

end RiscvRs
