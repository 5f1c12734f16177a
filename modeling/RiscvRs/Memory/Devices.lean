import RiscvRs.Memory.Effects

/-! The device accesses of memory operations: which, and at which addresses. -/

namespace RiscvRs

open Effects Prog

/-- The `size` bytes from `a` on lie in the `count` bytes from `addr` on, modulo the address space. -/
def Inside (addr : U32) (count : Nat) (a size : U32) : Prop := (a - addr).toNat + size.toNat ≤ count

instance (addr : U32) (count : Nat) (a size : U32) : Decidable (Inside addr count a size) :=
  inferInstanceAs (Decidable (_ ≤ _))

/-- What an instruction may do to devices: read or write `count` bytes from `addr` on. -/
structure Access where
  reads : Bool
  writes : Bool
  addr : U32
  count : Nat

namespace Access

def none : Access := ⟨false, false, 0, 0⟩

/-- The access covers the event; streams and the hook are not devices. -/
def Allows (access : Access) : IoEvent → Prop
  | .readMmio a size _ => access.reads = true ∧ Inside access.addr access.count a size
  | .writeMmio a size _ => access.writes = true ∧ Inside access.addr access.count a size
  | _ => True

end Access

section Ranges

variable {addr : U32} {count : Nat} {a size : U32}

theorem Inside.wider (inside : Inside addr count a size) {more : Nat} (larger : count ≤ more) :
    Inside addr more a size := inside.trans larger

/-- A range that starts `k` bytes later. -/
theorem Inside.shift {k : Nat} (inside : Inside (addr + BitVec.ofNat 32 k) count a size) :
    Inside addr (k + count) a size := by
  unfold Inside at *
  have split : a - addr = (a - (addr + BitVec.ofNat 32 k)) + BitVec.ofNat 32 k := by
    rw [← BitVec.sub_sub, BitVec.sub_add_cancel]
  have low : (a - addr).toNat ≤ (a - (addr + BitVec.ofNat 32 k)).toNat + k := by
    rw [split, BitVec.toNat_add, BitVec.toNat_ofNat]
    exact (Nat.mod_le _ _).trans (Nat.add_le_add_left (Nat.mod_le _ _) _)
  omega

theorem inside_self (addr : U32) {count : Nat} (small : size.toNat ≤ count) :
    Inside addr count addr size := by
  unfold Inside
  rw [BitVec.sub_self, BitVec.toNat_zero, Nat.zero_add]
  exact small

end Ranges

/-- Only devices covered by the access were touched. -/
def Bus.deviceFrame (access : Access) : Frame Bus :=
  Frame.logs (fun bus => bus.world.io) access.Allows

section Accesses

variable {ε : Type} (host : Host)

theorem exact_probes (addr : U32) (n : Nat) (io : List IoEvent) :
    ∃ events, (probes host addr n io).2 = events ++ io ∧ events.length = n ∧
      ∀ event ∈ events, ∃ a val, event = .readMmio a 1 val ∧ Inside addr n a 1 := by
  induction n generalizing addr io with
  | zero => exact ⟨[], rfl, rfl, by simp⟩
  | succ n ih =>
    obtain ⟨events, grown, size, fine⟩ :=
      ih (addr + 1) (.readMmio addr 1 (host.readMmio io addr 1) :: io)
    refine ⟨events ++ [.readMmio addr 1 (host.readMmio io addr 1)], ?_, ?_, ?_⟩
    · rw [List.append_assoc]
      exact grown
    · rw [List.length_append, size]
      rfl
    · intro event member
      rcases List.mem_append.mp member with later | first
      · obtain ⟨a, val, rfl, inside⟩ := fine event later
        refine ⟨a, val, rfl, ?_⟩
        rw [Nat.add_comm]
        exact Inside.shift inside
      · obtain rfl := List.mem_singleton.mp first
        exact ⟨addr, _, rfl, inside_self addr (Nat.le_add_left 1 n)⟩

theorem exact_pokes (addr : U32) (bytes : List U8) (io : List IoEvent) :
    ∃ events, pokes addr bytes io = events ++ io ∧
      ∀ event ∈ events, ∃ a val, event = .writeMmio a 1 val ∧ Inside addr bytes.length a 1 := by
  induction bytes generalizing addr io with
  | nil => exact ⟨[], rfl, by simp⟩
  | cons b bytes ih =>
    obtain ⟨events, grown, fine⟩ := ih (addr + 1) (.writeMmio addr 1 (b.setWidth 32) :: io)
    refine ⟨events ++ [.writeMmio addr 1 (b.setWidth 32)], ?_, ?_⟩
    · rw [List.append_assoc]
      exact grown
    · intro event member
      rcases List.mem_append.mp member with later | first
      · obtain ⟨a, val, rfl, inside⟩ := fine event later
        refine ⟨a, val, rfl, ?_⟩
        rw [List.length_cons, Nat.add_comm]
        exact Inside.shift inside
      · obtain rfl := List.mem_singleton.mp first
        exact ⟨addr, _, rfl, inside_self addr (Nat.le_add_left 1 _)⟩

theorem toNat_bytes (w : Width) : (BitVec.ofNat 32 w.bytes).toNat = w.bytes := by cases w <;> rfl

/-- A read asks devices inside its own range, and asks one exactly when the range reaches the window. -/
theorem readAt_events (bus : Bus) (w : Width) (addr : U32) :
    ∃ val events, (Memory.readAt host w addr : Prog Bus ε _).run bus = .ok val
      (bus.withIo (events ++ bus.world.io)) ∧
      (∀ event ∈ events, ∃ a size val, event = .readMmio a size val ∧ Inside addr w.bytes a size) ∧
      (events ≠ [] ↔ 0xFFFF0000 < addr.toNat + w.bytes) := by
  have some : 0 < w.bytes := by cases w <;> decide
  rcases window_cases addr w.bytes with below | window | ⟨k, edge, front, past⟩
  · obtain ⟨val, run, -⟩ := readAt_below host bus w below
    exact ⟨val, [], run, by simp, by simpa using below⟩
  · refine ⟨_, [_], readAt_window host bus w window, ?_, by simp; omega⟩
    intro event member
    obtain rfl := List.mem_singleton.mp member
    exact ⟨addr, _, _, rfl, inside_self addr (toNat_bytes w).le⟩
  · obtain ⟨val, run, -⟩ := readAt_straddle host bus w edge front past
    obtain ⟨events, grown, size, fine⟩ := exact_probes host mmioBase (w.bytes - k) bus.world.io
    rw [grown] at run
    refine ⟨val, events, run, ?_, ?_⟩
    · intro event member
      obtain ⟨a, answer, rfl, inside⟩ := fine event member
      rw [← add_to_mmioBase edge] at inside
      exact ⟨a, 1, answer, rfl, inside.shift.wider (by omega)⟩
    · rw [ne_eq, ← List.length_eq_zero_iff, size]
      omega

theorem writeAt_events (bus : Bus) (w : Width) (addr : U32) (val : BitVec w.bits) :
    ∃ m events, (Memory.writeAt w addr val : Prog Bus ε _).run bus =
        .ok () ({ bus with mem := m }.withIo (events ++ bus.world.io)) ∧
      ∀ event ∈ events, ∃ a size val, event = .writeMmio a size val ∧
        Inside addr w.bytes a size := by
  rcases window_cases addr w.bytes with below | window | ⟨k, edge, front, past⟩
  · obtain ⟨m, run, -⟩ := writeAt_below bus w below val
    exact ⟨m, [], run, by simp⟩
  · refine ⟨bus.mem, [_], writeAt_window bus w window val, ?_⟩
    intro event member
    obtain rfl := List.mem_singleton.mp member
    exact ⟨addr, _, _, rfl, inside_self addr (toNat_bytes w).le⟩
  · obtain ⟨m, run, -⟩ := writeAt_straddle bus w edge front past val
    obtain ⟨events, grown, fine⟩ := exact_pokes mmioBase ((leBytes val w.bytes).drop k) bus.world.io
    rw [grown] at run
    refine ⟨m, events, run, ?_⟩
    intro event member
    obtain ⟨a, told, rfl, inside⟩ := fine event member
    rw [← add_to_mmioBase edge] at inside
    refine ⟨a, 1, told, rfl, inside.shift.wider ?_⟩
    simp [leBytes]
    omega

end Accesses

/-- The range belongs to the access. -/
def Access.Covers (access : Access) (addr : U32) (count : Nat) : Prop :=
  ∀ a size, Inside addr count a size → Inside access.addr access.count a size

section Covered

variable {ε : Type} (host : Host) {access : Access} {addr : U32} {count : Nat}

theorem Access.Covers.later {k rest : Nat} (covers : access.Covers addr count)
    (split : k + rest ≤ count) :
    access.Covers (addr + BitVec.ofNat 32 k) rest :=
  fun a size inside => covers a size (inside.shift.wider split)

theorem Access.Covers.shorter {less : Nat} (covers : access.Covers addr count)
    (smaller : less ≤ count) :
    access.Covers addr less :=
  fun a size inside => covers a size (inside.wider smaller)

theorem device_readAt (reads : access.reads = true) {w : Width}
    (covers : access.Covers addr w.bytes) :
    Steady (Bus.deviceFrame access) (Memory.readAt host w addr : Prog Bus ε _) := by
  intro bus
  obtain ⟨val, events, run, fine, -⟩ := readAt_events host bus w addr
  refine .inl ⟨val, _, run, events, rfl, ?_⟩
  intro event member
  obtain ⟨a, size, answer, rfl, inside⟩ := fine event member
  exact ⟨reads, covers a size inside⟩

theorem device_writeAt (writes : access.writes = true) {w : Width}
    (covers : access.Covers addr w.bytes)
    (val : BitVec w.bits) :
    Steady (Bus.deviceFrame access) (Memory.writeAt w addr val : Prog Bus ε _) := by
  intro bus
  obtain ⟨m, events, run, fine⟩ := writeAt_events bus w addr val
  refine .inl ⟨(), _, run, events, rfl, ?_⟩
  intro event member
  obtain ⟨a, size, told, rfl, inside⟩ := fine event member
  exact ⟨writes, covers a size inside⟩

theorem device_readEach (reads : access.reads = true) (covers : access.Covers addr count) :
    Steady (Bus.deviceFrame access) (Memory.readEach host addr count : Prog Bus ε _) := by
  induction count generalizing addr with
  | zero => exact steady_pure _
  | succ count ih =>
    have here : access.Covers addr Width.byte.bytes := covers.shorter (Nat.le_add_left 1 count)
    have rest : access.Covers (addr + 1) count := covers.later (Nat.add_comm 1 count).le
    exact steady_bind (device_readAt host reads here) fun _ => steady_bind (ih rest) fun _ =>
      steady_pure _

theorem device_writeEach (writes : access.writes = true) {bytes : List U8}
    (covers : access.Covers addr bytes.length) :
    Steady (Bus.deviceFrame access) (Memory.writeEach addr bytes : Prog Bus ε _) := by
  induction bytes generalizing addr with
  | nil => exact steady_pure _
  | cons b bytes ih =>
    have here : access.Covers addr Width.byte.bytes := covers.shorter (Nat.le_add_left 1 _)
    have rest : access.Covers (addr + 1) bytes.length :=
      covers.later (Nat.add_comm 1 bytes.length).le
    exact steady_bind (device_writeAt writes here b) fun _ => ih rest

/-- Pages are no devices, so the loop only asks from the window on. -/
theorem device_readBytesLoop (reads : access.reads = true) (fuel offset : Nat) (buf : List U8)
    (covers : access.Covers addr (buf.length - offset)) :
    Steady (Bus.deviceFrame access)
      (Memory.readBytesLoop host fuel addr offset buf : Prog Bus ε _) := by
  induction fuel generalizing addr offset buf with
  | zero =>
    unfold Memory.readBytesLoop
    split <;> simp
  | succ fuel ih =>
    unfold Memory.readBytesLoop
    split
    · split
      · exact steady_bind (device_readEach host reads covers) fun _ => steady_expect _
      · dsimp only
        have step : min (pageSize - offsetOf addr) (buf.length - offset) ≤ buf.length - offset :=
          min_le_right _ _
        generalize min (pageSize - offsetOf addr) (buf.length - offset) = count at step ⊢
        have rest (chunk : List U8) : Steady (Bus.deviceFrame access) (do
            let buf ← expect (splice? buf offset chunk)
            Memory.readBytesLoop host fuel (addr + BitVec.ofNat 32 count) (offset + count) buf :
              Prog Bus ε (List U8)) := by
          unfold splice?
          split
          · next room =>
            rw [expect_some, pure_bind]
            refine ih _ _ (covers.later ?_)
            simp only [List.length_append, List.length_take, List.length_drop]
            omega
          · exact fun _ => .inr (.inl rfl)
        refine steady_bind (steady_getPage _) fun entry => ?_
        cases entry with
        | some page => exact steady_bind (steady_expect _) rest
        | none => exact steady_bind (steady_pure _) rest
    · exact steady_pure _

theorem device_readBytes (reads : access.reads = true) (covers : access.Covers addr count) :
    Steady (Bus.deviceFrame access) (Memory.readBytes host addr count : Prog Bus ε _) := by
  apply device_readBytesLoop host reads
  rwa [List.length_replicate]

theorem device_page (bus : Bus) (addr : U32) (page : Page) (_ : ¬addr ≥ mmioBase) :
    (Bus.deviceFrame access).rel bus { bus with mem := bus.mem.setPage addr page } :=
  (Bus.deviceFrame access).refl bus

theorem device_writeBytesLoop (writes : access.writes = true) (bytes : List U8) (fuel offset : Nat)
    (covers : access.Covers addr (bytes.length - offset)) :
    Steady (Bus.deviceFrame access)
      (Memory.writeBytesLoop bytes fuel addr offset : Prog Bus ε _) := by
  induction fuel generalizing addr offset with
  | zero =>
    unfold Memory.writeBytesLoop
    split <;> simp
  | succ fuel ih =>
    unfold Memory.writeBytesLoop
    split
    · split
      · exact device_writeEach writes (by rwa [List.length_drop])
      · next ram =>
        dsimp only
        have step : min (pageSize - offsetOf addr) (bytes.length - offset) ≤
          bytes.length - offset := min_le_right _ _
        generalize min (pageSize - offsetOf addr) (bytes.length - offset) = count at step ⊢
        exact steady_bind (steady_getOrCreatePage device_page ram) fun _ => steady_bind
          (steady_expect _) fun _ =>
          steady_bind (steady_expect _) fun _ =>
            steady_bind (steady_putPage device_page ram _) fun _ =>
            ih _ (covers.later (by omega))
    · exact steady_pure _

theorem device_writeBytes (writes : access.writes = true) {bytes : List U8}
    (covers : access.Covers addr bytes.length) :
    Steady (Bus.deviceFrame access) (Memory.writeBytes addr bytes : Prog Bus ε _) :=
  device_writeBytesLoop writes bytes bytes.length 0 covers

end Covered

end RiscvRs
