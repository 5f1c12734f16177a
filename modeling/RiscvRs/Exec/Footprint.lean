import RiscvRs.Exec.Calls
import RiscvRs.Exec.Devices

/-! Where an instruction writes to RAM: inside the access it is for, also when the
access runs into the window or wraps around. -/

namespace RiscvRs

open Effects Prog

/-- The byte is one of those the access writes. -/
def Access.Stores (access : Access) (x : U32) : Prop :=
  access.writes = true ∧ (x - access.addr).toNat < access.count

instance (access : Access) (x : U32) : Decidable (access.Stores x) :=
  inferInstanceAs (Decidable (_ ∧ _))

/-- RAM changes only where the access writes. -/
def Bus.ramFrame (access : Access) : Frame Bus where
  rel s t := ∀ x, t.mem.flat x ≠ s.mem.flat x → access.Stores x
  refl _ _ changed := absurd rfl changed
  trans {r s t} first second x changed := by
    by_cases same : s.mem.flat x = r.mem.flat x
    · exact second x (same ▸ changed)
    · exact first x same

def Machine.ramFrame (access : Access) : Frame Machine where
  rel s t := (Bus.ramFrame access).rel s.bus t.bus
  refl s := (Bus.ramFrame access).refl s.bus
  trans := (Bus.ramFrame access).trans

section Frames

variable {ε α : Type} {access : Access}

theorem ramFrame_of_flat {s t : Bus} (same : t.mem.flat = s.mem.flat) :
    (Bus.ramFrame access).rel s t :=
  fun x changed => absurd (congrFun same x) changed

theorem ram_onBus {x : Prog Bus ε α} (inner : Kept (Bus.ramFrame access) x) :
    Kept (Machine.ramFrame access) (onBus x) := by
  intro m m' a run
  obtain ⟨bus, ran, rfl⟩ := zoom_ok.mp run
  exact inner _ _ _ ran

/-- A question does not touch RAM. -/
theorem ram_ask {x : Prog Bus ε α} (asks : Steady queryFrame x) :
    Kept (Machine.ramFrame access) (onBus x) :=
  ram_onBus fun _ _ _ run => ramFrame_of_flat (congrArg Memory.flat (asks.ok run).1)

theorem ram_modifyCpu (f : Cpu → Cpu) :
    Kept (Machine.ramFrame access) (modifyCpu f : Prog Machine ε Unit) :=
  Kept.modify fun m => (Machine.ramFrame access).refl m

theorem ram_next (f : Cpu → Cpu) (next : U32) :
    Kept (Machine.ramFrame access) (do modifyCpu f; return next : Prog Machine ε U32) :=
  (ram_modifyCpu f).bind fun _ => .pure next

theorem ram_readAt (host : Host) (w : Width) (addr : U32) :
    Kept (Machine.ramFrame access) (onBus (Memory.readAt host w addr) : Prog Machine ε _) := by
  apply ram_ask
  cases w with
  | byte => exact steady_readU8 host asks_queryFrame addr
  | half => exact steady_readU16 host asks_queryFrame addr
  | word => exact steady_readU32 host asks_queryFrame addr

/-- A byte outside no range that the access covers is one it writes. -/
theorem stores_of_covers {addr x : U32} {count : Nat} (writes : access.writes = true)
    (covers : access.Covers addr count)
    (near : ¬count ≤ (x - addr).toNat) : access.Stores x :=
  ⟨writes, covers x 1 (Nat.lt_of_not_le near)⟩

theorem ram_writeAt (writes : access.writes = true) {w : Width} {addr : U32}
    (covers : access.Covers addr w.bytes)
    (val : BitVec w.bits) :
    Kept (Machine.ramFrame access) (onBus (Memory.writeAt w addr val) : Prog Machine ε _) := by
  apply ram_onBus
  intro bus bus' a run x changed
  obtain ⟨last, written, outside, -⟩ := flat_writeAt (ε := ε) bus w addr val
  obtain ⟨-, rfl⟩ := Outcome.ok.inj (written.symm.trans run)
  exact stores_of_covers writes covers fun far => changed (outside x far)

theorem ram_writeBytes (writes : access.writes = true) {addr : U32} {bytes : List U8}
    (covers : access.Covers addr bytes.length) :
    Kept (Machine.ramFrame access) (onBus (Memory.writeBytes addr bytes) : Prog Machine ε _) := by
  apply ram_onBus
  intro bus bus' a run x changed
  rw [writeBytes_each] at run
  obtain ⟨last, written, -, -, outside⟩ := writeEach_outside (ε := ε) bus addr bytes
  obtain ⟨-, rfl⟩ := Outcome.ok.inj (written.symm.trans run)
  exact stores_of_covers writes covers fun far => changed (outside x far)

theorem ram_secondWord (build : Build) (plain : Bool) (addr : U32) :
    Kept (Machine.ramFrame access) (build.secondWord plain addr : Exec U32) := by
  unfold Build.secondWord Build.addU32
  split
  · split
    · exact .panic
    · exact .pure _
  · exact .pure _

theorem ram_orIllegal (raw : U32) (result : Option α) :
    Kept (Machine.ramFrame access) (orIllegal raw result) := by
  have stops : Kept (Machine.ramFrame access) (illegal raw : Exec α) := by
    intro m m' a run
    cases run
  cases result with
  | none => exact stops
  | some a => exact .pure a

end Frames

section Instructions

variable {env : Env} {m m' : Machine}

/-- The slice that is written is part of a buffer of the bounded length. -/
theorem ram_sysRead (a1 a2 : U32) :
    Kept (Machine.ramFrame ⟨false, true, a1, transferCount a2⟩) (sysRead env a1 a2) := by
  intro m m' done run
  obtain ⟨⟨bytesRead, scratch⟩, m₁, asked, rest⟩ := bind_ok.mp run
  obtain ⟨bus, answered, rfl⟩ := zoom_ok.mp asked
  have flat : bus.mem.flat = m.bus.mem.flat := by
    obtain ⟨-, rfl⟩ := Outcome.ok.inj answered
    rfl
  have length : scratch.length = transferCount a2 := by
    obtain ⟨answer, -⟩ := Outcome.ok.inj answered
    obtain ⟨-, rfl⟩ := Prod.mk.inj answer
    simp only [List.length_append, List.length_take, List.length_replicate]
    omega
  refine (Machine.ramFrame _).trans (s := { m with bus := bus }) (ramFrame_of_flat flat) ?_
  dsimp only at rest
  split at rest
  · unfold sliceOf? at rest
    split at rest
    · next room =>
      rw [expect_some, pure_bind] at rest
      refine (ram_writeBytes rfl ?_).bind (fun _ => ram_modifyCpu _) _ _ _ rest
      refine Access.Covers.shorter (fun _ _ inside => inside) ?_
      simp only [List.length_take, List.length_drop]
      omega
    · cases rest
  · exact ram_modifyCpu _ _ _ _ rest

theorem syscallAccess_read {a7 : U32} (a1 a2 : U32) (number : syscallGroup a7 = some .read) :
    syscallAccess a1 a2 a7 = ⟨false, true, a1, transferCount a2⟩ := by
  unfold syscallGroup at number
  split at number
  · cases number
  split at number
  · cases number
  next notWrite =>
  split at number
  · next reads => rw [syscallAccess, if_neg notWrite, if_pos reads]
  split at number
  · cases number
  split at number <;> cases number

/-- A system call writes to RAM only where a `SYS_read` delivers. -/
theorem ram_handleEcall (run : (handleEcall env).run m = .ok () m') : (Machine.ramFrame
    (syscallAccess (m.cpu.readReg regA1) (m.cpu.readReg regA2) (m.cpu.readReg regA7))).rel m m' := by
  intro x changed
  obtain ⟨⟨silent, number⟩, -⟩ := (handleEcall_effect run).ram x changed
  rw [handleEcall_run, if_neg (not_not_intro silent), builtinSyscall_eq, number] at run
  rw [syscallAccess_read _ _ number]
  refine ram_sysRead _ _ _ _ _ run x ?_
  rw [m.mem_hooked env]
  exact changed

/-- An operation that completes wrote to RAM only what it is for. -/
theorem Op.ram_exec {op : Op} {next : U32} (run : (op.exec env).run m = .ok next m') :
    (Machine.ramFrame (op.access m.cpu)).rel m m' := by
  have whole {access : Access} : access.Covers access.addr access.count := fun _ _ inside => inside
  have low {access : Access} (size : access.count = 8) : access.Covers access.addr
    Width.word.bytes :=
    whole.shorter (size.symm ▸ by decide)
  have high {access : Access} (size : access.count = 8) :
      access.Covers (access.addr + BitVec.ofNat 32 4) Width.word.bytes :=
    whole.later (size.symm ▸ by decide)
  cases op with
  | goto target => exact Kept.pure target _ _ _ run
  | write rd val target => exact ram_next _ target _ _ _ run
  | writeF rd bits target => exact ram_next _ target _ _ _ run
  | halt target => exact ram_next _ target _ _ _ run
  | load kind rd addr target => exact (ram_readAt _ _ _).bind (fun _ => ram_next _ target) _ _ _ run
  | loadSingle rd addr target =>
    exact (ram_readAt _ .word _).bind (fun _ => ram_next _ target) _ _ _ run
  | loadDouble plain rd addr target =>
    exact (ram_readAt _ .word _).bind (fun _ => (ram_secondWord _ plain addr).bind fun _ =>
      (ram_readAt _ .word _).bind fun _ => ram_next _ target) _ _ _ run
  | store width addr val target =>
    exact (ram_writeAt rfl whole _).bind (fun _ => .pure target) _ _ _ run
  | storeDouble plain bits addr target =>
    obtain ⟨done, m₁, first, rest⟩ := bind_ok.mp run
    obtain ⟨addr4, m₂, second, rest⟩ := bind_ok.mp rest
    refine (Machine.ramFrame _).trans (ram_writeAt (w := .word) rfl (low rfl) _ _ _ _ first) ?_
    refine (Machine.ramFrame _).trans (ram_secondWord _ plain addr _ _ _ second) ?_
    obtain rfl := secondWord_ok second
    exact (ram_writeAt (w := .word) rfl (high rfl) _).bind (fun _ => .pure target) _ _ _ rest
  | amo raw funct5 rd addr src target =>
    obtain ⟨oldVal, m₁, read, rest⟩ := bind_ok.mp run
    obtain ⟨newVal, m₂, known, rest⟩ := bind_ok.mp rest
    refine (Machine.ramFrame _).trans (ram_readAt _ .word _ _ _ _ read) ?_
    refine (Machine.ramFrame _).trans (ram_orIllegal raw _ _ _ _ known) ?_
    dsimp only at rest
    generalize (if funct5 = 0x03 then (0 : U32) else oldVal) = rdVal at rest
    split at rest
    · next stores =>
      exact (ram_writeAt (w := .word) (decide_eq_true stores) whole _).bind
        (fun _ => ram_next _ target) _ _ _ rest
    · exact ram_next _ target _ _ _ rest
  | ecall target =>
    obtain ⟨done, m₁, called, rest⟩ := bind_ok.mp run
    obtain ⟨-, rfl⟩ := Outcome.ok.inj rest
    exact ram_handleEcall called
  | mret target => exact ram_next _ target _ _ _ run
  | csr num newVal rd oldVal target =>
    exact (ram_modifyCpu _).bind (fun _ => ram_next _ target) _ _ _ run
  | illegal raw => cases run
  | unknown opcode => cases run

/-- The bytes of RAM that an instruction may write when it starts on `cpu`. -/
def Fetched.Stores (env : Env) (inst : Fetched) (cpu : Cpu) (x : U32) : Prop :=
  ((inst.op env cpu).access cpu).Stores x

/-- An instruction that completes wrote to RAM only what it is for. -/
theorem stores_of_execute {inst : Fetched} (run : (inst.execute env).run m = .ok () m') {x : U32}
    (changed : m'.bus.mem.flat x ≠ m.bus.mem.flat x) : inst.Stores env m.cpu x := by
  obtain ⟨next, n, carried, rfl⟩ := Fetched.execute_ok run
  exact Op.ram_exec carried x changed

end Instructions

end RiscvRs
