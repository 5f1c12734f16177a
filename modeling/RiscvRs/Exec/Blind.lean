import RiscvRs.Exec.Decoding
import RiscvRs.Memory.Layout

/-! What instructions do not see: the debug settings of the processor, and whatever the accesses
to memory do not show. -/

namespace RiscvRs

open Effects Prog

/-- The processor without its debug settings and its pending breakpoint report. -/
def Cpu.bare (cpu : Cpu) : Cpu :=
  { cpu with debugEnabled := false, breakpoints := ∅, resumePastBreakpoint := none }

def Machine.bare (m : Machine) : Machine := { m with cpu := m.cpu.bare }

theorem Machine.bare_ext {m m' : Machine} (cpu : m.cpu.bare = m'.cpu.bare) (bus : m.bus = m'.bus) :
    m.bare = m'.bare := by
  rw [Machine.bare, Machine.bare, cpu, bus]

theorem cpu_of_bare {m m' : Machine} (same : m.bare = m'.bare) : m.cpu.bare = m'.cpu.bare :=
  congrArg Machine.cpu same

theorem bus_of_bare {m m' : Machine} (same : m.bare = m'.bare) : m.bus = m'.bus := by
  have bus := congrArg Machine.bus same
  exact bus

section Observers

variable {κ β : Type}

/-- An observer of the processor who misses at most the debug settings. -/
structure SeesCpu (cpu : Cpu → κ) : Prop where
  bare : ∀ {c c'}, cpu c = cpu c' → c.bare = c'.bare
  set : ∀ {f : Cpu → Cpu}, (∀ c, (f c.bare).bare = (f c).bare) → ∀ {c c'}, cpu c = cpu c' →
    cpu (f c) = cpu (f c')

/-- An observer of memory and host to whom no access shows what he misses. -/
structure SeesBus (host : Host) (bus : Bus → β) : Prop where
  readAt : ∀ {ε : Type} w addr, Blind bus (Memory.readAt host w addr : Prog Bus ε _)
  writeAt : ∀ {ε : Type} w addr val, Blind bus (Memory.writeAt w addr val : Prog Bus ε _)
  readBytes : ∀ {ε : Type} addr len, Blind bus (Memory.readBytes host addr len : Prog Bus ε _)
  writeBytes : ∀ {ε : Type} addr bytes, Blind bus (Memory.writeBytes addr bytes : Prog Bus ε _)
  getBrk : ∀ {ε : Type}, Blind bus (Memory.getBrk : Prog Bus ε _)
  setBrk : ∀ {ε : Type} val, Blind bus (Memory.setBrk val : Prog Bus ε _)
  stdin : ∀ {ε : Type} count, Blind bus (readFromStdin host count : Prog Bus ε _)
  custom : ∀ {ε : Type} a0 a1 a2 a3 a7, Blind bus (customSyscall host a0 a1 a2 a3 a7 : Prog Bus ε _)
  tell : ∀ {ε : Type} event, Blind bus (modify (·.record event) : Prog Bus ε Unit)
  said : ∀ {ε : Type} (said : World → World), Blind bus
    (modify fun b => { b with world := said b.world } : Prog Bus ε Unit)

theorem SeesCpu.pc {cpu : Cpu → κ} (sees : SeesCpu cpu) {c c' : Cpu} (same : cpu c = cpu c') :
    c.pc = c'.pc := by
  have pc := congrArg Cpu.pc (sees.bare same)
  exact pc

theorem SeesCpu.isHalted {cpu : Cpu → κ} (sees : SeesCpu cpu) {c c' : Cpu} (same : cpu c = cpu c') :
    c.isHalted = c'.isHalted := by
  have halted := congrArg Cpu.isHalted (sees.bare same)
  exact halted

theorem seesCpu_bare : SeesCpu Cpu.bare where
  bare := id
  set := by
    intro f alike c c' same
    rw [← alike c, ← alike c', same]

theorem seesCpu_id : SeesCpu id where
  bare := congrArg Cpu.bare
  set := by
    intro f _ c c' same
    obtain rfl : c = c' := same
    rfl

theorem shown_readFromStdin {ε : Type} (host : Host) (count : Nat) :
    Blind Bus.shown (readFromStdin host count : Prog Bus ε (U32 × List U8)) := by
  have asked := blind_bind
    (shown_ask (ε := ε) (fun io => host.readFromStdin io (BitVec.ofNat 32 count))
    fun answer => .readFromStdin (BitVec.ofNat 32 count) answer.1) fun answer =>
      blind_pure (answer.1, answer.2.take count ++ List.replicate (count - answer.2.length) 0)
  exact asked.of_run fun _ => rfl

theorem seesBus_id (host : Host) : SeesBus host id where
  readAt _ _ := blind_id _
  writeAt _ _ _ := blind_id _
  readBytes _ _ := blind_id _
  writeBytes _ _ := blind_id _
  getBrk := blind_id _
  setBrk _ := blind_id _
  stdin _ := blind_id _
  custom _ _ _ _ _ := blind_id _
  tell _ := blind_id _
  said _ := blind_id _

theorem seesBus_shown (host : Host) : SeesBus host Bus.shown where
  readAt := shown_readAt host
  writeAt := shown_writeAt
  readBytes := shown_readBytes host
  writeBytes := shown_writeBytes
  getBrk := shown_getBrk
  setBrk := shown_setBrk
  stdin := shown_readFromStdin host
  custom a0 a1 a2 a3 a7 :=
    shown_ask (fun io => host.customSyscall io a0 a1 a2 a3 a7) fun res =>
      .customSyscall a0 a1 a2 a3 a7 res
  tell := shown_tell
  said said := blind_modify fun b b' same => by
    have mem : b.mem.shown = b'.mem.shown := congrArg Prod.fst same
    exact Prod.ext mem (congrArg said (world_of_shown same))

end Observers

/-- A machine as the two observers see it. -/
def Machine.seen {κ β : Type} (cpu : Cpu → κ) (bus : Bus → β) (m : Machine) : κ × β :=
  (cpu m.cpu, bus m.bus)

theorem bare_iff_seen (m m' : Machine) : Machine.seen Cpu.bare id m = Machine.seen Cpu.bare id m' ↔
    m.bare = m'.bare :=
  ⟨fun same => Machine.bare_ext (congrArg Prod.fst same) (congrArg Prod.snd same),
    fun same => Prod.ext (cpu_of_bare same) (bus_of_bare same)⟩

section Steps

variable {κ β ε α : Type} {cpu : Cpu → κ} {bus : Bus → β}

theorem cpuSeen {m m' : Machine} (same : m.seen cpu bus = m'.seen cpu bus) :
    cpu m.cpu = cpu m'.cpu :=
  congrArg Prod.fst same

theorem busSeen {m m' : Machine} (same : m.seen cpu bus = m'.seen cpu bus) :
    bus m.bus = bus m'.bus :=
  congrArg Prod.snd same

theorem blind_onBus {x : Prog Bus ε α} (blind : Blind bus x) :
    Blind (Machine.seen cpu bus) (onBus x) := by
  refine blind_zoom blind (fun _ _ same => busSeen same) ?_
  intro m m' b b' same equal
  have cpus : cpu m.cpu = cpu m'.cpu := cpuSeen same
  exact Prod.ext cpus equal

theorem blind_modifyCpu (sees : SeesCpu cpu) {f : Cpu → Cpu}
    (alike : ∀ c, (f c.bare).bare = (f c).bare) :
    Blind (Machine.seen cpu bus) (modifyCpu f : Prog Machine ε Unit) := by
  refine blind_modify fun m m' same => ?_
  have cpus : cpu (f m.cpu) = cpu (f m'.cpu) := sees.set alike (cpuSeen same)
  have buses : bus m.bus = bus m'.bus := busSeen same
  exact Prod.ext cpus buses

theorem blind_writeReg (sees : SeesCpu cpu) (r : Fin 32) (val : U32) :
    Blind (Machine.seen cpu bus) (modifyCpu (·.writeReg r val) : Prog Machine ε Unit) := by
  refine blind_modifyCpu sees fun c => ?_
  unfold Cpu.writeReg
  split <;> rfl

/-- A look at the processor that uses only what is left without the settings. -/
theorem blind_getCpu (sees : SeesCpu cpu) {f : Cpu → Prog Machine ε α} (alike : ∀ c, f c.bare = f c)
    (each : ∀ c, Blind (Machine.seen cpu bus) (f c)) :
    Blind (Machine.seen cpu bus) (getCpu >>= f) := by
  refine blind_look Machine.cpu (fun _ => rfl) (fun m m' same => ?_) fun m => each m.cpu
  rw [← alike m.cpu, ← alike m'.cpu, sees.bare (cpuSeen same)]

theorem blind_illegal (sees : SeesCpu cpu) (raw : U32) :
    Blind (Machine.seen cpu bus) (illegal raw : Exec α) :=
  blind_getCpu sees (fun _ => rfl) fun _ => blind_fail _

theorem blind_orIllegal (sees : SeesCpu cpu) (raw : U32) (result : Option α) :
    Blind (Machine.seen cpu bus) (orIllegal raw result) := by
  cases result with
  | none => exact blind_illegal sees raw
  | some a => exact blind_pure a

end Steps

section Syscalls

variable {κ β : Type} {cpu : Cpu → κ} {bus : Bus → β} {env : Env} (sees : SeesCpu cpu)
  (reaches : SeesBus env.host bus)

include sees reaches

theorem blind_builtinSyscall (a0 a1 a2 a3 a7 : U32) :
    Blind (Machine.seen cpu bus) (builtinSyscall env a0 a1 a2 a3 a7) := by
  unfold builtinSyscall
  split
  · exact blind_modifyCpu sees fun _ => rfl
  · split
    · refine blind_bind (blind_onBus (reaches.readBytes _ _)) fun bytes => ?_
      dsimp only
      split
      · exact blind_bind (blind_onBus (reaches.tell _)) fun _ => blind_writeReg sees _ _
      · split
        · exact blind_bind (blind_onBus (reaches.tell _)) fun _ => blind_writeReg sees _ _
        · exact blind_writeReg sees _ _
    · split
      · refine blind_bind (blind_onBus (reaches.stdin _)) fun answer => ?_
        dsimp only
        split
        · exact blind_bind (blind_expect _) fun _ =>
            blind_bind (blind_onBus (reaches.writeBytes _ _)) fun _ =>
            blind_writeReg sees _ _
        · exact blind_writeReg sees _ _
      · split
        · unfold sysBrk
          split
          · exact blind_bind (blind_onBus (reaches.setBrk _)) fun _ =>
              blind_bind (blind_onBus reaches.getBrk) fun _ =>
              blind_writeReg sees _ _
          · exact blind_bind (blind_onBus reaches.getBrk) fun _ => blind_writeReg sees _ _
        · split
          · exact blind_writeReg sees _ _
          · exact blind_fail _

theorem blind_handleEcall : Blind (Machine.seen cpu bus) (handleEcall env) := by
  refine blind_getCpu sees (fun c => rfl) fun c => ?_
  have answered (res a0 a1 a2 a3 a7 : U32) : Blind (Machine.seen cpu bus)
      (if res ≠ 0 then modifyCpu (·.writeReg regA0 res) else builtinSyscall env a0 a1 a2 a3 a7) := by
    split
    · exact blind_writeReg sees _ _
    · exact blind_builtinSyscall sees reaches _ _ _ _ _
  dsimp only
  split
  · exact blind_bind (blind_onBus (reaches.custom _ _ _ _ _)) fun res => answered res _ _ _ _ _
  · exact blind_bind (blind_pure _) fun res => answered res _ _ _ _ _

end Syscalls

section Operations

variable {κ β : Type} {cpu : Cpu → κ} {bus : Bus → β} {env : Env}

/-- The second word of a double is four bytes after the first. -/
theorem blind_secondWord {α : Type} (build : Build) (plain : Bool) (addr : U32) {f : U32 → Exec α}
    (rest : Blind (Machine.seen cpu bus) (f (addr + 4))) :
    Blind (Machine.seen cpu bus) (build.secondWord plain addr >>= f) := by
  unfold Build.secondWord Build.addU32
  split
  · split
    · exact blind_panic
    · exact rest
  · exact rest

/-- No access that the operation makes shows the observer what he misses. -/
def Op.Reached (env : Env) (bus : Bus → β) : Op → Prop
  | load kind _ addr _ => Blind bus (Memory.readAt env.host kind.width addr : Prog Bus CpuError _)
  | loadSingle _ addr _ => Blind bus (Memory.readU32 env.host addr : Prog Bus CpuError _)
  | loadDouble _ _ addr _ =>
    ∀ half ∈ [addr, addr + 4], Blind bus (Memory.readU32 env.host half : Prog Bus CpuError _)
  | store width addr val _ =>
    Blind bus (Memory.writeAt width addr (val.setWidth width.bits) : Prog Bus CpuError _)
  | storeDouble _ _ addr _ =>
    ∀ half ∈ [addr, addr + 4], ∀ val, Blind bus (Memory.writeU32 half val : Prog Bus CpuError _)
  | amo _ _ _ addr _ _ => Blind bus (Memory.readU32 env.host addr : Prog Bus CpuError _) ∧
      ∀ val, Blind bus (Memory.writeU32 addr val : Prog Bus CpuError _)
  | ecall _ => SeesBus env.host bus
  | _ => True

theorem Op.reached (reaches : SeesBus env.host bus) (op : Op) : op.Reached env bus := by
  cases op with
  | load kind rd addr next => exact reaches.readAt _ _
  | loadSingle rd addr next => exact reaches.readAt .word _
  | loadDouble plain rd addr next => exact fun half _ => reaches.readAt .word half
  | store width addr val next => exact reaches.writeAt _ _ _
  | storeDouble plain bits addr next => exact fun half _ val => reaches.writeAt .word half val
  | amo raw funct5 rd addr src next => exact ⟨reaches.readAt .word _, reaches.writeAt .word _⟩
  | ecall next => exact reaches
  | _ => trivial

theorem Op.blind_exec (sees : SeesCpu cpu) (op : Op) (reached : op.Reached env bus) :
    Blind (Machine.seen cpu bus) (op.exec env) := by
  have wrote (rd : Fin 32) (val next : U32) :
      Blind (Machine.seen cpu bus) (do modifyCpu (·.writeReg rd val); return next : Exec U32) :=
    blind_bind (blind_writeReg sees rd val) fun _ => blind_pure next
  have wroteF (rd : Fin 32) (bits : U64) (next : U32) :
      Blind (Machine.seen cpu bus) (do modifyCpu (·.setFreg rd bits); return next : Exec U32) :=
    blind_bind (blind_modifyCpu sees fun _ => rfl) fun _ => blind_pure next
  cases op with
  | goto next => exact blind_pure next
  | write rd val next => exact wrote rd val next
  | writeF rd bits next => exact wroteF rd bits next
  | halt next => exact blind_bind (blind_modifyCpu sees fun _ => rfl) fun _ => blind_pure next
  | load kind rd addr next => exact blind_bind (blind_onBus reached) fun _ => wrote rd _ next
  | loadSingle rd addr next => exact blind_bind (blind_onBus reached) fun _ => wroteF rd _ next
  | loadDouble plain rd addr next =>
    refine blind_bind (blind_onBus (reached addr (by simp))) fun _ =>
      blind_secondWord env.build plain addr ?_
    exact blind_bind (blind_onBus (reached (addr + 4) (by simp))) fun _ => wroteF rd _ next
  | store width addr val next => exact blind_bind (blind_onBus reached) fun _ => blind_pure next
  | storeDouble plain bits addr next =>
    refine blind_bind (blind_onBus (reached addr (by simp) _)) fun _ =>
      blind_secondWord env.build plain addr ?_
    exact blind_bind (blind_onBus (reached (addr + 4) (by simp) _)) fun _ => blind_pure next
  | amo raw funct5 rd addr src next =>
    refine blind_bind (blind_onBus reached.1) fun oldVal => blind_bind (blind_orIllegal sees raw _)
      fun newVal => ?_
    dsimp only
    generalize (if funct5 = 0x03 then (0 : U32) else oldVal) = rdVal
    split
    · exact blind_bind (blind_onBus (reached.2 _)) fun _ => wrote rd rdVal next
    · exact wrote rd rdVal next
  | ecall next => exact blind_bind (blind_handleEcall sees reached) fun _ => blind_pure next
  | mret next => exact blind_bind (blind_modifyCpu sees fun _ => rfl) fun _ => blind_pure next
  | csr num newVal rd oldVal next =>
    exact blind_bind (blind_modifyCpu sees fun _ => rfl) fun _ => wrote rd oldVal next
  | illegal raw => exact blind_illegal sees raw
  | unknown opcode => exact blind_getCpu sees (fun _ => rfl) fun _ => blind_fail _

/-- Decoding reads registers, control registers and `pc`. -/
theorem Fetched.op_bare (env : Env) (inst : Fetched) (cpu : Cpu) :
    inst.op env cpu.bare = inst.op env cpu := by
  cases inst <;> rfl

/-- From two machines that look alike, the accesses of the instruction being as in the first. -/
theorem Fetched.alike_execute (sees : SeesCpu cpu) (inst : Fetched) {m m' : Machine}
    (same : m.seen cpu bus = m'.seen cpu bus) (reached : (inst.op env m.cpu).Reached env bus) :
    ((inst.execute env).run m).Alike (Machine.seen cpu bus) ((inst.execute env).run m') := by
  have ops : inst.op env m.cpu = inst.op env m'.cpu := by
    rw [← inst.op_bare env m.cpu, ← inst.op_bare env m'.cpu, sees.bare (cpuSeen same)]
  have whole : Blind (Machine.seen cpu bus) (do
      let next ← (inst.op env m.cpu).exec env
      modifyCpu fun cpu => { cpu with pc := next } : Exec Unit) :=
    blind_bind (Op.blind_exec sees _ reached) fun _ => blind_modifyCpu sees fun _ => rfl
  rw [inst.execute_run, inst.execute_run, ← ops]
  exact whole m m' same

theorem Fetched.blind_execute (sees : SeesCpu cpu) (reaches : SeesBus env.host bus)
    (inst : Fetched) :
    Blind (Machine.seen cpu bus) (inst.execute env) :=
  fun _ _ same => inst.alike_execute sees same (Op.reached reaches _)

end Operations

end RiscvRs
