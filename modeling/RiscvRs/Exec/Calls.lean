import RiscvRs.Exec.Streams

/-! What one `ecall` touches: each built-in number belongs to a group, and a group
says what its calls leave behind. -/

namespace RiscvRs

open Effects Prog

/-- The groups of built-in calls; `ignored` ones only answer zero. -/
inductive SyscallGroup where
  | exit | write | read | brk | ignored
deriving DecidableEq

/-- The group of a number, if it is built in. -/
def syscallGroup (a7 : U32) : Option SyscallGroup :=
  if a7 = 93 ∨ a7 = 10 ∨ a7 = 1 then some .exit
  else if a7 = 64 ∨ a7 = 4 then some .write
  else if a7 = 63 ∨ a7 = 3 then some .read
  else if a7 = 214 ∨ a7 = 45 then some .brk
  else if a7 = 57 ∨ a7 = 62 ∨ a7 = 80 then some .ignored
  else none

namespace Machine

/-- What the hook answers to the call of a machine; zero stands for no answer. -/
def hookAnswer (env : Env) (m : Machine) : U32 :=
  if m.cpu.hasCustomSyscalls then
    env.host.customSyscall m.bus.world.io (m.cpu.readReg regA0) (m.cpu.readReg regA1)
      (m.cpu.readReg regA2)
      (m.cpu.readReg regA3) (m.cpu.readReg regA7)
  else 0

/-- The bus after the hook was asked. -/
def hooked (env : Env) (m : Machine) : Bus :=
  if m.cpu.hasCustomSyscalls then
    m.bus.record (.customSyscall (m.cpu.readReg regA0) (m.cpu.readReg regA1) (m.cpu.readReg regA2)
      (m.cpu.readReg regA3) (m.cpu.readReg regA7) (m.hookAnswer env))
  else m.bus

/-- The call of a machine falls through to a group of the built-in ones. -/
def Calls (env : Env) (m : Machine) (group : SyscallGroup) : Prop :=
  m.hookAnswer env = 0 ∧ syscallGroup (m.cpu.readReg regA7) = some group

/-- The request of a `SYS_brk` lies between the start of the heap and the window. -/
def BrkInRange (m : Machine) : Prop :=
  m.bus.mem.initialBrk ≤ m.cpu.readReg regA0 ∧ m.cpu.readReg regA0 < mmioBase

/-- The program break after a `SYS_brk`; a request of zero only asks for it. -/
def brkAfter (m : Machine) : U32 :=
  if m.cpu.readReg regA0 ≠ 0 ∧ m.cpu.readReg regA0 ≥ m.bus.mem.initialBrk ∧
    m.cpu.readReg regA0 < mmioBase then
    m.cpu.readReg regA0
  else m.bus.mem.brkPtr

@[simp] theorem mem_hooked (env : Env) (m : Machine) : (m.hooked env).mem = m.bus.mem := by
  unfold hooked
  split <;> rfl

end Machine

section Groups

variable (env : Env)

/-- The built-in calls, by group. -/
theorem builtinSyscall_eq (a0 a1 a2 a3 a7 : U32) : builtinSyscall env a0 a1 a2 a3 a7 =
    match syscallGroup a7 with
    | some .exit => modifyCpu fun cpu => { cpu with isHalted := true, exitCode := a0 }
    | some .write => sysWrite env a0 a1 a2
    | some .read => sysRead env a1 a2
    | some .brk => sysBrk a0
    | some .ignored => modifyCpu (·.writeReg 10 0)
    | none => fail (.unknownSyscall a7 a0 a1 a2 a3) := by
  unfold builtinSyscall syscallGroup
  split
  · rfl
  · split
    · rfl
    · split
      · rfl
      · split
        · rfl
        · split <;> rfl

/-- The hook comes first, and its answer is final unless it is zero. -/
theorem handleEcall_run (m : Machine) : (handleEcall env).run m =
    if m.hookAnswer env ≠ 0 then .ok () ⟨m.cpu.writeReg regA0 (m.hookAnswer env), m.hooked env⟩
    else (builtinSyscall env (m.cpu.readReg regA0) (m.cpu.readReg regA1) (m.cpu.readReg regA2)
      (m.cpu.readReg regA3)
      (m.cpu.readReg regA7)).run { m with bus := m.hooked env } := by
  rw [handleEcall, run_bind, run_getCpu, Outcome.andThen_ok]
  dsimp only
  by_cases on : m.cpu.hasCustomSyscalls = true
  · have asked : (onBus (customSyscall env.host (m.cpu.readReg regA0) (m.cpu.readReg regA1)
      (m.cpu.readReg regA2)
        (m.cpu.readReg regA3) (m.cpu.readReg regA7)) : Exec U32).run m =
        .ok (m.hookAnswer env) { m with bus := m.hooked env } := by
      simp only [Machine.hookAnswer, Machine.hooked, if_pos on]
      rfl
    rw [if_pos on, run_bind, asked, Outcome.andThen_ok]
    split
    · rfl
    · rfl
  · have silent : m.hookAnswer env = 0 := if_neg on
    have same : m.hooked env = m.bus := if_neg on
    rw [if_neg on, run_bind, run_pure, Outcome.andThen_ok, silent, same]
    rfl

end Groups

section Frames

variable {ε : Type}

/-- Bytes written one by one leave the rest of RAM and the program break alone,
also where the addresses run through the window and wrap around. -/
theorem writeEach_outside (bus : Bus) (addr : U32) (bytes : List U8) :
    ∃ bus', (Memory.writeEach addr bytes : Prog Bus ε _).run bus = .ok () bus' ∧
      bus'.mem.brkPtr = bus.mem.brkPtr ∧ bus'.mem.initialBrk = bus.mem.initialBrk ∧
      ∀ x, bytes.length ≤ (x - addr).toNat → bus'.mem.flat x = bus.mem.flat x := by
  induction bytes generalizing bus addr with
  | nil => exact ⟨bus, rfl, rfl, rfl, fun _ _ => rfl⟩
  | cons b rest ih =>
    -- the first byte is stored or handed to a device
    obtain ⟨bus₁, first, brk₁, initial₁, flat₁⟩ : ∃ bus₁,
        (Memory.writeU8 addr b : Prog Bus ε _).run bus = .ok () bus₁ ∧
          bus₁.mem.brkPtr = bus.mem.brkPtr ∧
          bus₁.mem.initialBrk = bus.mem.initialBrk ∧ ∀ x, x ≠ addr →
            bus₁.mem.flat x = bus.mem.flat x := by
      by_cases window : addr ≥ mmioBase
      · exact ⟨_, writeU8_mmio bus window b, rfl, rfl, fun _ _ => rfl⟩
      · refine ⟨_, writeU8_ram bus window b, rfl, rfl, fun x apart => ?_⟩
        rw [Bus.store, Memory.flat_store, Function.update_of_ne apart]
    obtain ⟨bus', others, brk, initial, flat⟩ := ih bus₁ (addr + 1)
    refine ⟨bus', ?_, brk.trans brk₁, initial.trans initial₁, fun x outside => ?_⟩
    · rw [Memory.writeEach, run_bind, first, Outcome.andThen_ok, others]
    · rw [List.length_cons] at outside
      have apart : x ≠ addr := by
        rintro rfl
        rw [BitVec.sub_self] at outside
        exact absurd outside (Nat.not_succ_le_zero _)
      have shorter := Bytes.sub_add_one_toNat x addr apart
      rw [flat x (by omega), flat₁ x apart]

variable {env : Env} {m m' : Machine}

theorem sysWrite_keeps (a0 a1 a2 : U32) (run : (sysWrite env a0 a1 a2).run m = .ok () m') :
    m'.cpu = m.cpu.writeReg regA0 a2 ∧ m'.bus.mem = m.bus.mem := by
  obtain ⟨bytes, bus, read, -⟩ := readEach_ok (ε := CpuError) env.host m.bus a1 (transferCount a2)
  have kept : bus.mem = m.bus.mem :=
    (steady_readEach (F := Frame.of Bus.mem) env.host (fun _ _ _ _ => rfl) a1 (transferCount a2)).ok
      read
  rw [sysWrite, run_bind,
    run_onBus ((readBytes_each env.host m.bus a1 (transferCount a2)).trans read),
    Outcome.andThen_ok] at run
  dsimp only at run
  split at run
  · obtain ⟨-, rfl⟩ := Outcome.ok.inj run
    exact ⟨rfl, kept⟩
  · split at run
    · obtain ⟨-, rfl⟩ := Outcome.ok.inj run
      exact ⟨rfl, kept⟩
    · obtain ⟨-, rfl⟩ := Outcome.ok.inj run
      exact ⟨rfl, kept⟩

/-- A read answers with the length of what it wrote. -/
theorem sysRead_keeps (a1 a2 : U32) (run : (sysRead env a1 a2).run m = .ok () m') :
    ∃ count, m'.cpu = m.cpu.writeReg regA0 count ∧ m'.bus.mem.brkPtr = m.bus.mem.brkPtr ∧
      m'.bus.mem.initialBrk = m.bus.mem.initialBrk ∧
      ∀ x, count.toNat ≤ (x - a1).toNat → m'.bus.mem.flat x = m.bus.mem.flat x := by
  obtain ⟨⟨bytesRead, scratch⟩, m₁, asked, rest⟩ := bind_ok.mp run
  obtain ⟨cpu, mem⟩ : m₁.cpu = m.cpu ∧ m₁.bus.mem = m.bus.mem := by
    obtain ⟨-, rfl⟩ := Outcome.ok.inj asked
    exact ⟨rfl, rfl⟩
  rw [← cpu, ← mem]
  dsimp only at rest
  split at rest
  · cases part : sliceOf? scratch 0 bytesRead.toNat with
    | none =>
      rw [part] at rest
      cases rest
    | some bytes =>
      have size : bytes.length = bytesRead.toNat := by
        have room : 0 + bytesRead.toNat ≤ scratch.length := by
          by_contra short
          rw [sliceOf?, if_neg short] at part
          cases part
        obtain ⟨part', same, size⟩ := length_sliceOf? room
        rw [part] at same
        rwa [← Option.some_inj.mp same] at size
      rw [part, expect_some, pure_bind] at rest
      obtain ⟨bus, written, brk, initial, outside⟩ :=
        writeEach_outside (ε := CpuError) m₁.bus a1 bytes
      obtain ⟨⟨⟩, m₂, stored, answered⟩ := bind_ok.mp rest
      obtain ⟨-, rfl⟩ := Outcome.ok.inj
        (stored.symm.trans (run_onBus ((writeBytes_each m₁.bus a1 bytes).trans written)))
      obtain ⟨-, rfl⟩ := Outcome.ok.inj answered
      exact ⟨bytesRead, rfl, brk, initial, fun x far => outside x (size.trans_le far)⟩
  · obtain ⟨-, rfl⟩ := Outcome.ok.inj rest
    exact ⟨0, rfl, rfl, rfl, fun _ _ => rfl⟩

theorem sysBrk_run (m : Machine) : (sysBrk (m.cpu.readReg regA0)).run m =
    .ok () ⟨m.cpu.writeReg regA0 m.brkAfter,
      { m.bus with mem := { m.bus.mem with brkPtr := m.brkAfter } }⟩ := by
  unfold sysBrk Machine.brkAfter
  by_cases asks : m.cpu.readReg regA0 ≠ 0
  · by_cases range : m.cpu.readReg regA0 ≥ m.bus.mem.initialBrk ∧ m.cpu.readReg regA0 < mmioBase
    · rw [if_pos asks, if_pos ⟨asks, range⟩]
      simp only [onBus, Memory.setBrk, Memory.getBrk, run_bind, run_zoom, run_get,
        Outcome.andThen_ok, if_pos range,
        run_modify, Outcome.reshape_ok, run_pure, run_modifyCpu]
      rfl
    · rw [if_pos asks, if_neg fun set => range set.2]
      simp only [onBus, Memory.setBrk, Memory.getBrk, run_bind, run_zoom, run_get,
        Outcome.andThen_ok, if_neg range,
        Outcome.reshape_ok, run_pure, run_modifyCpu]
      rfl
  · rw [if_neg asks, if_neg fun set => asks set.1]
    rfl

/-- What a built-in call of each group leaves, up to the host. -/
inductive Leaves (m : Machine) : SyscallGroup → Machine → Prop where
  | exit {m' : Machine}
    (cpu : m'.cpu = { m.cpu with isHalted := true, exitCode := m.cpu.readReg regA0 })
      (mem : m'.bus.mem = m.bus.mem) : Leaves m .exit m'
  | write {m' : Machine} (cpu : m'.cpu = m.cpu.writeReg regA0 (m.cpu.readReg regA2))
      (mem : m'.bus.mem = m.bus.mem) : Leaves m .write m'
  | read {m' : Machine} (count : U32) (cpu : m'.cpu = m.cpu.writeReg regA0 count)
      (brk : m'.bus.mem.brkPtr = m.bus.mem.brkPtr)
        (initial : m'.bus.mem.initialBrk = m.bus.mem.initialBrk)
      (outside : ∀ x, count.toNat ≤ (x - m.cpu.readReg regA1).toNat →
        m'.bus.mem.flat x = m.bus.mem.flat x) :
      Leaves m .read m'
  | brk {m' : Machine} (cpu : m'.cpu = m.cpu.writeReg regA0 m.brkAfter)
      (mem : m'.bus.mem = { m.bus.mem with brkPtr := m.brkAfter }) : Leaves m .brk m'
  | ignored {m' : Machine} (cpu : m'.cpu = m.cpu.writeReg regA0 0) (mem : m'.bus.mem = m.bus.mem) :
      Leaves m .ignored m'

/-- A call that no hook answered went to a group and left what the group leaves. -/
theorem handleEcall_leaves (silent : m.hookAnswer env = 0)
    (run : (handleEcall env).run m = .ok () m') :
    ∃ group, syscallGroup (m.cpu.readReg regA7) = some group ∧ Leaves m group m' := by
  rw [handleEcall_run, if_neg (not_not_intro silent), builtinSyscall_eq] at run
  have mem := m.mem_hooked env
  split at run
  · next number =>
    obtain ⟨-, rfl⟩ := Outcome.ok.inj run
    exact ⟨_, number, .exit rfl mem⟩
  · next number =>
    obtain ⟨cpu, kept⟩ := sysWrite_keeps _ _ _ run
    exact ⟨_, number, .write cpu (kept.trans mem)⟩
  · next number =>
    obtain ⟨count, cpu, brk, initial, outside⟩ := sysRead_keeps _ _ run
    simp only [mem] at brk initial outside
    exact ⟨_, number, .read count cpu brk initial outside⟩
  · next number =>
    have same : Machine.brkAfter { m with bus := m.hooked env } = m.brkAfter := by
      unfold Machine.brkAfter
      rw [mem]
    have moved := sysBrk_run { m with bus := m.hooked env }
    rw [same] at moved
    obtain ⟨-, rfl⟩ := Outcome.ok.inj (run.symm.trans moved)
    refine ⟨_, number, .brk rfl ?_⟩
    rw [mem]
  · next number =>
    obtain ⟨-, rfl⟩ := Outcome.ok.inj run
    exact ⟨_, number, .ignored rfl mem⟩
  · cases run

/-- The only error is the unknown number, and it comes before any effect but the hook's. -/
theorem handleEcall_err (env : Env) (m : Machine) (error : CpuError) (m' : Machine) :
    (handleEcall env).run m = .err error m' ↔
      (m.hookAnswer env = 0 ∧ syscallGroup (m.cpu.readReg regA7) = none) ∧
        error = .unknownSyscall (m.cpu.readReg regA7) (m.cpu.readReg regA0) (m.cpu.readReg regA1)
          (m.cpu.readReg regA2) (m.cpu.readReg regA3) ∧
        m' = { m with bus := m.hooked env } := by
  rw [handleEcall_run]
  by_cases silent : m.hookAnswer env = 0
  · rw [if_neg (not_not_intro silent), builtinSyscall_eq]
    cases number : syscallGroup (m.cpu.readReg regA7) with
    | none =>
      simp only [run_fail, Outcome.err.injEq, silent, true_and]
      exact and_congr eq_comm eq_comm
    | some group =>
      have never : ∀ x : Exec Unit, Steady execFrame x →
        ¬x.run { m with bus := m.hooked env } = .err error m' :=
        fun x steady => steady.ne_err
      simp only [reduceCtorEq, and_false, false_and, iff_false]
      cases group with
      | exit => nofun
      | write => exact never _ (steady_sysWrite env _ _ _)
      | read => exact never _ (steady_sysRead env _ _)
      | brk => exact never _ (steady_sysBrk _)
      | ignored => nofun
  · rw [if_pos silent]
    exact ⟨nofun, fun unknown => absurd unknown.1.1 silent⟩

end Frames

/-- The frame of one successful `ecall`. -/
structure EcallEffect (env : Env) (m m' : Machine) : Prop where
  registers : ∀ r, r ≠ regA0 → m'.cpu.regs r = m.cpu.regs r
  /-- Floating-point and control registers, `pc` and the debugger's fields stay. -/
  others : m'.cpu = { m.cpu with
    regs := m'.cpu.regs, isHalted := m'.cpu.isHalted, exitCode := m'.cpu.exitCode }
  ram : ∀ x, m'.bus.mem.flat x ≠ m.bus.mem.flat x →
    m.Calls env .read ∧ (x - m.cpu.readReg regA1).toNat < (m'.cpu.readReg regA0).toNat
  initialBrk : m'.bus.mem.initialBrk = m.bus.mem.initialBrk
  brk : m'.bus.mem.brkPtr ≠ m.bus.mem.brkPtr →
    m.Calls env .brk ∧ m.BrkInRange ∧ m'.bus.mem.brkPtr = m.cpu.readReg regA0
  /-- The heap of `Memory::new` starts above zero, where a request of zero is no request. -/
  request : m.Calls env .brk → m.BrkInRange → 0 < m.bus.mem.initialBrk →
    m'.bus.mem.brkPtr = m.cpu.readReg regA0
  answer : m.Calls env .brk → m'.cpu.readReg regA0 = m'.bus.mem.brkPtr
  halt : m'.cpu.isHalted ≠ m.cpu.isHalted ∨ m'.cpu.exitCode ≠ m.cpu.exitCode → m.Calls env .exit
  exit : m.Calls env .exit → m'.cpu.isHalted = true ∧ m'.cpu.exitCode = m.cpu.readReg regA0
  hook : m.hookAnswer env ≠ 0 → m' = ⟨m.cpu.writeReg regA0 (m.hookAnswer env), m.hooked env⟩

section Effects

variable {env : Env} {m m' : Machine}

theorem Machine.Calls.unique {group other : SyscallGroup} (calls : m.Calls env group)
    (called : m.Calls env other) :
    other = group := Option.some_inj.mp (called.2.symm.trans calls.2)

/-- A call that answers in `a0` has the frame that its effect on memory has. -/
theorem EcallEffect.of_answer {group : SyscallGroup} (calls : m.Calls env group)
    (stays : group ≠ .exit) {val : U32}
    (cpu : m'.cpu = m.cpu.writeReg regA0 val)
    (initialBrk : m'.bus.mem.initialBrk = m.bus.mem.initialBrk)
    (ram : ∀ x, m'.bus.mem.flat x ≠ m.bus.mem.flat x → group = .read ∧
      (x - m.cpu.readReg regA1).toNat < val.toNat)
    (brk : m'.bus.mem.brkPtr ≠ m.bus.mem.brkPtr →
      group = .brk ∧ m.BrkInRange ∧ m'.bus.mem.brkPtr = m.cpu.readReg regA0)
    (request : group = .brk → m.BrkInRange → 0 < m.bus.mem.initialBrk →
      m'.bus.mem.brkPtr = m.cpu.readReg regA0)
    (answer : group = .brk → val = m'.bus.mem.brkPtr) : EcallEffect env m m' where
  registers r other := by
    rw [cpu]
    exact Function.update_of_ne other _ _
  others := by
    rw [cpu]
    rfl
  ram x changed := by
    obtain ⟨rfl, inside⟩ := ram x changed
    refine ⟨calls, ?_⟩
    rw [cpu]
    exact inside
  initialBrk := initialBrk
  brk changed := by
    obtain ⟨rfl, rest⟩ := brk changed
    exact ⟨calls, rest⟩
  request called := request (calls.unique called).symm
  answer called := by
    rw [cpu]
    exact answer (calls.unique called).symm
  halt changed := by
    rw [cpu] at changed
    exact changed.elim (absurd rfl) (absurd rfl)
  exit called := absurd (calls.unique called).symm stays
  hook answered := absurd calls.1 answered

/-- Nothing in memory changed. -/
theorem EcallEffect.of_mem {group : SyscallGroup} (calls : m.Calls env group)
    (stays : group ≠ .exit)
    (noBrk : group ≠ .brk) {val : U32} (cpu : m'.cpu = m.cpu.writeReg regA0 val)
    (mem : m'.bus.mem = m.bus.mem) :
    EcallEffect env m m' := by
  refine .of_answer calls stays cpu (congrArg _ mem) (fun x changed => ?_) (fun changed => ?_)
    (absurd · noBrk) (absurd · noBrk)
  · exact absurd (congrArg (·.flat x) mem) changed
  · exact absurd (congrArg Memory.brkPtr mem) changed

theorem Leaves.effect {group : SyscallGroup} (calls : m.Calls env group)
    (leaves : Leaves m group m') :
    EcallEffect env m m' := by
  cases leaves with
  | exit cpu mem =>
    refine ⟨fun r _ => ?_, ?_, fun x changed => ?_, congrArg _ mem, fun changed => ?_,
      fun called => ?_,
      fun called => ?_, fun _ => calls, fun _ => ?_, absurd calls.1⟩
    · rw [cpu]
    · rw [cpu]
    · exact absurd (congrArg (·.flat x) mem) changed
    · exact absurd (congrArg Memory.brkPtr mem) changed
    · exact nomatch calls.unique called
    · exact nomatch calls.unique called
    · rw [cpu]
      exact ⟨rfl, rfl⟩
  | write cpu mem => exact .of_mem calls nofun nofun cpu mem
  | read count cpu brk initial outside =>
    refine .of_answer calls nofun cpu initial (fun x changed => ⟨rfl, ?_⟩) (absurd brk) nofun nofun
    by_contra far
    exact changed (outside x (Nat.le_of_not_lt far))
  | brk cpu mem =>
    refine .of_answer calls nofun cpu (congrArg Memory.initialBrk mem :) (fun x changed => ?_)
      (fun changed => ?_)
      (fun _ range positive => ?_) (fun _ => ?_)
    · exact absurd (congrArg (·.flat x) mem) changed
    · rw [mem] at changed ⊢
      unfold Machine.brkAfter at changed ⊢
      split at changed
      · next set =>
        rw [if_pos set]
        exact ⟨rfl, set.2, rfl⟩
      · exact absurd rfl changed
    · rw [mem]
      refine if_pos ⟨?_, range⟩
      intro zero
      rw [Machine.BrkInRange, zero] at range
      exact absurd positive (BitVec.not_lt.mpr range.1)
    · rw [mem]
  | ignored cpu mem => exact .of_mem calls nofun nofun cpu mem

/-- An answer of the hook is the whole effect. -/
theorem EcallEffect.of_hook (answered : m.hookAnswer env ≠ 0) :
    EcallEffect env m ⟨m.cpu.writeReg regA0 (m.hookAnswer env), m.hooked env⟩ := by
  have mem := m.mem_hooked env
  refine ⟨fun r other => Function.update_of_ne other _ _, rfl, fun x changed => ?_, congrArg _ mem,
    fun changed => ?_,
    fun called => absurd called.1 answered, fun called => absurd called.1 answered,
      fun changed => ?_,
    fun called => absurd called.1 answered, fun _ => rfl⟩
  · exact absurd (congrArg (·.flat x) mem) changed
  · exact absurd (congrArg Memory.brkPtr mem) changed
  · exact changed.elim (absurd rfl) (absurd rfl)

theorem handleEcall_effect (run : (handleEcall env).run m = .ok () m') : EcallEffect env m m' := by
  by_cases silent : m.hookAnswer env = 0
  · obtain ⟨group, number, leaves⟩ := handleEcall_leaves silent run
    exact leaves.effect ⟨silent, number⟩
  · rw [handleEcall_run, if_pos silent] at run
    obtain ⟨-, rfl⟩ := Outcome.ok.inj run
    exact .of_hook silent

/-- What a sequence of calls keeps. -/
structure EcallsKeep (m m' : Machine) : Prop where
  registers : ∀ r, r ≠ regA0 → m'.cpu.regs r = m.cpu.regs r
  others : m'.cpu = { m.cpu with
    regs := m'.cpu.regs, isHalted := m'.cpu.isHalted, exitCode := m'.cpu.exitCode }
  initialBrk : m'.bus.mem.initialBrk = m.bus.mem.initialBrk
  brk : m.bus.mem.initialBrk ≤ m.bus.mem.brkPtr ∧ m.bus.mem.brkPtr < mmioBase →
    m'.bus.mem.initialBrk ≤ m'.bus.mem.brkPtr ∧ m'.bus.mem.brkPtr < mmioBase

theorem EcallEffect.keep (effect : EcallEffect env m m') : EcallsKeep m m' where
  registers := effect.registers
  others := effect.others
  initialBrk := effect.initialBrk
  brk inside := by
    rw [effect.initialBrk]
    by_cases changed : m'.bus.mem.brkPtr = m.bus.mem.brkPtr
    · rwa [changed]
    · obtain ⟨-, range, request⟩ := effect.brk changed
      rwa [request]

theorem EcallsKeep.trans {m'' : Machine} (first : EcallsKeep m m') (second : EcallsKeep m' m'') :
    EcallsKeep m m'' where
  registers r other := (second.registers r other).trans (first.registers r other)
  others := by
    rw [second.others, first.others]
  initialBrk := second.initialBrk.trans first.initialBrk
  brk inside := second.brk (first.brk inside)

end Effects

/-- An `ecall` touches only what its call names. A call that returns has the frame of its
group, or of the hook's answer, and a sequence of calls keeps what each of them keeps. The
error is raised exactly for a number that is not built in and that no hook answered, with
nothing changed but the log of the hook. -/
theorem ecall_touches_its_call (env : Env) :
    (∀ m m', (handleEcall env).run m = .ok () m' → EcallEffect env m m') ∧
    (∀ start last (moves : List (Machine × Unit)),
      Trace (fun m _ m' => (handleEcall env).run m = .ok () m') start moves last →
        EcallsKeep start last) ∧
    (∀ m, (∃ error m', (handleEcall env).run m = .err error m') ↔
      m.hookAnswer env = 0 ∧ syscallGroup (m.cpu.readReg regA7) = none) ∧
    ∀ m error m', (handleEcall env).run m = .err error m' →
      error = .unknownSyscall (m.cpu.readReg regA7) (m.cpu.readReg regA0) (m.cpu.readReg regA1)
        (m.cpu.readReg regA2) (m.cpu.readReg regA3) ∧ m' = { m with bus := m.hooked env } := by
  refine ⟨fun m m' run => handleEcall_effect run, fun start last moves calls => ?_, fun m => ?_, ?_⟩
  · induction calls with
    | start => exact ⟨fun _ _ => rfl, rfl, rfl, id⟩
    | step before one ih => exact ih.trans (handleEcall_effect one).keep
  · constructor
    · rintro ⟨error, m', run⟩
      exact ((handleEcall_err env m error m').mp run).1
    · intro unknown
      exact ⟨_, _, (handleEcall_err env m _ _).mpr ⟨unknown, rfl, rfl⟩⟩
  · intro m error m' run
    exact ((handleEcall_err env m error m').mp run).2

end RiscvRs
