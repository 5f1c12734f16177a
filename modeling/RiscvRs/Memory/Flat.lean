import RiscvRs.Memory.Paged

/-! The paged memory as a flat byte store with a window of host devices on top. -/

namespace RiscvRs

open Effects Prog Bytes

variable {ε : Type}

/-- The three sizes of a data access. -/
inductive Width where
  | byte
  | half
  | word
deriving DecidableEq, Repr

namespace Width

def bytes : Width → Nat
  | byte => 1
  | half => 2
  | word => 4

abbrev bits (w : Width) : Nat := 8 * w.bytes

end Width

/-- The `i`-th byte of every `i < n`. -/
def leBytes {w : Nat} (val : BitVec w) (n : Nat) : List U8 := (List.range n).map (leByte val)

/-- `read_u8`, `read_u16` or `read_u32`. -/
def Memory.readAt (host : Host) : (w : Width) → U32 → Prog Bus ε (BitVec w.bits)
  | .byte, addr => Memory.readU8 host addr
  | .half, addr => Memory.readU16 host addr
  | .word, addr => Memory.readU32 host addr

/-- `write_u8`, `write_u16` or `write_u32`. -/
def Memory.writeAt : (w : Width) → U32 → BitVec w.bits → Prog Bus ε Unit
  | .byte, addr, val => Memory.writeU8 addr val
  | .half, addr, val => Memory.writeU16 addr val
  | .word, addr, val => Memory.writeU32 addr val

def Bus.withIo (bus : Bus) (io : List IoEvent) : Bus :=
  { bus with world := { bus.world with io := io } }

/-- The host side of `n` one-byte reads from `addr` on: the bytes answered, and the log after them. -/
def probes (host : Host) : U32 → Nat → List IoEvent → List U8 × List IoEvent
  | _, 0, io => ([], io)
  | addr, n + 1, io =>
    let answer := host.readMmio io addr 1
    let (rest, io) := probes host (addr + 1) n (.readMmio addr 1 answer :: io)
    (answer.setWidth 8 :: rest, io)

/-- The host side of one-byte writes from `addr` on. -/
def pokes : U32 → List U8 → List IoEvent → List IoEvent
  | _, [], io => io
  | addr, b :: bytes, io => pokes (addr + 1) bytes (.writeMmio addr 1 (b.setWidth 32) :: io)

section Each

variable (host : Host)

theorem toNat_succ {addr : U32} (room : addr.toNat + 1 < 2 ^ 32) :
    (addr + 1).toNat = addr.toNat + 1 :=
  toNat_add_of_lt addr 1 room

/-- A mask that the narrowing cast makes superfluous. -/
theorem setWidth_and_ones {w v : Nat} (x : BitVec w) {mask : BitVec w}
    (ones : mask.setWidth v = BitVec.allOnes v) :
    (x &&& mask).setWidth v = x.setWidth v := by
  rw [BitVec.setWidth_and, ones, BitVec.and_allOnes]

theorem succ_add_ofNat (addr : U32) (k : Nat) :
    addr + 1 + BitVec.ofNat 32 k = addr + BitVec.ofNat 32 (k + 1) := by
  rw [BitVec.ofNat_add, BitVec.add_assoc, BitVec.add_comm (BitVec.ofNat 32 k)]
  rfl

theorem add_ofNat_succ (addr : U32) (k : Nat) :
    addr + BitVec.ofNat 32 k + 1 = addr + BitVec.ofNat 32 (k + 1) := by
  rw [BitVec.ofNat_add, BitVec.add_assoc]
  rfl

theorem readEach_append (addr : U32) (k j : Nat) :
    (Memory.readEach host addr (k + j) : Prog Bus ε _) = do
      let first ← Memory.readEach host addr k
      let second ← Memory.readEach host (addr + BitVec.ofNat 32 k) j
      return first ++ second := by
  induction k generalizing addr with
  | zero => simp [Memory.readEach]
  | succ k ih =>
    rw [Nat.add_right_comm, Memory.readEach, ih, succ_add_ofNat]
    simp [Memory.readEach]

theorem writeEach_append (addr : U32) (first second : List U8) :
    (Memory.writeEach addr (first ++ second) : Prog Bus ε _) =
      (Memory.writeEach addr first >>= fun _ =>
        Memory.writeEach (addr + BitVec.ofNat 32 first.length) second) := by
  induction first generalizing addr with
  | nil => simp [Memory.writeEach]
  | cons b rest ih =>
    rw [List.cons_append, Memory.writeEach, ih, succ_add_ofNat]
    simp [Memory.writeEach]

/-- Byte-wise reads that stay in RAM. -/
theorem readEach_ram (bus : Bus) (addr : U32) (n : Nat) (below : addr.toNat + n ≤ 0xFFFF0000) :
    (Memory.readEach host addr n : Prog Bus ε _).run bus = .ok (span bus.mem.flat addr n) bus := by
  induction n generalizing addr with
  | zero => rfl
  | succ n ih =>
    have ram : ¬addr ≥ mmioBase := by
      rw [mmioBase_le_iff]
      omega
    have next : (addr + 1).toNat = addr.toNat + 1 := toNat_succ (by omega)
    simp only [Memory.readEach, run_bind, readU8_ram host bus ram, Outcome.andThen_ok,
      ih (addr + 1) (by omega), run_pure, span]

/-- Byte-wise reads that stay in the window. -/
theorem readEach_window (bus : Bus) (addr : U32) (n : Nat) (above : 0xFFFF0000 ≤ addr.toNat)
    (room : addr.toNat + n ≤ 2 ^ 32) :
    (Memory.readEach host addr n : Prog Bus ε _).run bus =
      .ok (probes host addr n bus.world.io).1 (bus.withIo (probes host addr n bus.world.io).2) := by
  induction n generalizing addr bus with
  | zero => rfl
  | succ n ih =>
    have window : addr ≥ mmioBase := (mmioBase_le_iff addr).mpr above
    have low (answer : U32) : (answer &&& 0xFF).setWidth 8 = answer.setWidth 8 :=
      setWidth_and_ones answer rfl
    cases n with
    | zero =>
      rw [Memory.readEach, run_bind, readU8_mmio host bus window, Outcome.andThen_ok]
      simp only [Memory.readEach, pure_bind, run_pure, low, probes, Bus.record, Bus.withIo]
    | succ n =>
      have next : (addr + 1).toNat = addr.toNat + 1 := toNat_succ (by omega)
      rw [Memory.readEach, run_bind, readU8_mmio host bus window, Outcome.andThen_ok, run_bind,
        ih _ _ (by omega) (by omega)]
      simp only [Outcome.andThen_ok, run_pure, low, Bus.record, Bus.withIo, probes]

theorem writeEach_ram (bus : Bus) (addr : U32) (bytes : List U8)
    (below : addr.toNat + bytes.length ≤ 0xFFFF0000) :
    ∃ m : Memory, (Memory.writeEach addr bytes : Prog Bus ε _).run bus = .ok ()
      { bus with mem := m } ∧
      m.flat = put bus.mem.flat addr bytes ∧ m.brkPtr = bus.mem.brkPtr ∧
        m.initialBrk = bus.mem.initialBrk := by
  induction bytes generalizing addr bus with
  | nil => exact ⟨bus.mem, rfl, rfl, rfl, rfl⟩
  | cons b rest ih =>
    simp only [List.length_cons] at below
    have ram : ¬addr ≥ mmioBase := by
      rw [mmioBase_le_iff]
      omega
    have next : (addr + 1).toNat = addr.toNat + 1 := toNat_succ (by omega)
    obtain ⟨m, written, flat, brk, initial⟩ := ih (bus.store addr b) (addr + 1) (by omega)
    refine ⟨m, ?_, ?_, brk, initial⟩
    · rw [Memory.writeEach, run_bind, writeU8_ram bus ram, Outcome.andThen_ok, written]
      rfl
    · rw [flat, put, Bus.store, Memory.flat_store]

theorem writeEach_window (bus : Bus) (addr : U32) (bytes : List U8)
    (above : 0xFFFF0000 ≤ addr.toNat)
    (room : addr.toNat + bytes.length ≤ 2 ^ 32) :
    (Memory.writeEach addr bytes : Prog Bus ε _).run bus = .ok ()
    (bus.withIo (pokes addr bytes bus.world.io)) := by
  induction bytes generalizing addr bus with
  | nil => rfl
  | cons b rest ih =>
    have window : addr ≥ mmioBase := (mmioBase_le_iff addr).mpr above
    rw [Memory.writeEach, run_bind, writeU8_mmio bus window, Outcome.andThen_ok]
    cases rest with
    | nil => rfl
    | cons c rest =>
      simp only [List.length_cons] at room
      have next : (addr + 1).toNat = addr.toNat + 1 := toNat_succ (by omega)
      rw [ih _ _ (by omega) (by simp only [List.length_cons]; omega)]
      rfl

end Each

section Refinement

variable (host : Host)

theorem fromLeBytes16_eq (b0 b1 : U8) : fromLeBytes16 b0 b1 = BitVec.ofNat 16 (leNat [b0, b1]) := by
  apply BitVec.eq_of_toNat_eq
  have low := b0.isLt
  have high := b1.isLt
  rw [fromLeBytes16, toNat_append_eq, BitVec.toNat_ofNat]
  simp only [leNat]
  omega

theorem fromLeBytes32_eq (b0 b1 b2 b3 : U8) :
    fromLeBytes32 b0 b1 b2 b3 = BitVec.ofNat 32 (leNat [b0, b1, b2, b3]) := by
  have value : fromLeBytes32 b0 b1 b2 b3 = b3 ++ (b2 ++ (b1 ++ b0)) := by
    rw [fromLeBytes32, BitVec.append_assoc, BitVec.append_assoc]
    rfl
  apply BitVec.eq_of_toNat_eq
  have bound0 := b0.isLt
  have bound1 := b1.isLt
  have bound2 := b2.isLt
  have bound3 := b3.isLt
  rw [value, toNat_append_eq, toNat_append_eq, toNat_append_eq, BitVec.toNat_ofNat]
  simp only [leNat]
  omega

/-- Every read that starts in RAM is a sequence of byte reads. -/
theorem readAt_bytewise (bus : Bus) (w : Width) {addr : U32} (ram : ¬addr ≥ mmioBase) :
    (Memory.readAt host w addr : Prog Bus ε _).run bus =
      (do return BitVec.ofNat w.bits (leNat (← Memory.readEach host addr w.bytes)) : Prog Bus ε _).run bus := by
  cases w with
  | byte =>
    have value (b : U8) : BitVec.ofNat Width.byte.bits (leNat [b]) = b := BitVec.ofNat_toNat 8 b
    simp only [Memory.readAt, Memory.readEach, Width.bytes, bind_assoc, pure_bind, value]
    exact congrArg (Prog.run · bus) (bind_pure (Memory.readU8 host addr)).symm
  | half =>
    refine (readU16_bytewise host bus ram).trans ?_
    simp only [Memory.readEach, Width.bytes, fromLeBytes16_eq, bind_assoc, pure_bind]
    rfl
  | word =>
    have two : addr + 1 + 1 = addr + 2 := succ_add_ofNat addr 1
    have three : addr + 2 + 1 = addr + 3 := BitVec.add_assoc addr 2 1
    refine (readU32_bytewise host bus ram).trans ?_
    simp only [Memory.readEach, Width.bytes, fromLeBytes32_eq, bind_assoc, pure_bind, two, three]
    rfl

/-- Every write that starts in RAM is a sequence of byte writes. -/
theorem writeAt_bytewise (bus : Bus) (w : Width) {addr : U32} (ram : ¬addr ≥ mmioBase)
    (val : BitVec w.bits) :
    (Memory.writeAt w addr val : Prog Bus ε _).run bus =
      (Memory.writeEach addr (leBytes val w.bytes) : Prog Bus ε _).run bus := by
  cases w with
  | byte =>
    have whole : leByte val 0 = val := BitVec.extractLsb'_eq_self
    change _ = (Memory.writeEach addr [leByte val 0] : Prog Bus ε _).run bus
    simp only [Memory.writeAt, Memory.writeEach, bind_pure_unit, whole]
  | half =>
    refine (writeU16_bytewise bus ram val).trans ?_
    change _ = (Memory.writeEach addr [leByte val 0, leByte val 1] : Prog Bus ε _).run bus
    simp only [Memory.writeEach, bind_pure_unit]
    rfl
  | word =>
    have two : addr + 1 + 1 = addr + 2 := succ_add_ofNat addr 1
    have three : addr + 2 + 1 = addr + 3 := BitVec.add_assoc addr 2 1
    refine (writeU32_bytewise bus ram val).trans ?_
    change _ = (Memory.writeEach addr [leByte val 0, leByte val 1, leByte val 2, leByte val 3] :
      Prog Bus ε _).run bus
    simp only [Memory.writeEach, bind_pure_unit, two, three]
    rfl

/-- A flat store with the first `n` bytes of a value at `addr`. -/
def overlay {w : Nat} (ram : U32 → U8) (addr : U32) (n : Nat) (val : BitVec w) :
    U32 → U8 := fun x =>
  if (x - addr).toNat < n then leByte val (x - addr).toNat else ram x

theorem put_leBytes {w : Nat} (ram : U32 → U8) (addr : U32) (n : Nat) (val : BitVec w)
    (fits : n ≤ 2 ^ 32) :
    put ram addr (leBytes val n) = overlay ram addr n val := by
  funext x
  rw [put_apply _ _ _ (by simpa [leBytes] using fits), overlay]
  generalize (x - addr).toNat = i
  by_cases inside : i < n
  · simp [leBytes, List.getD_eq_getElem?_getD, inside]
  · rw [if_neg inside, List.getD_eq_default _ _ (by simpa [leBytes] using inside)]

theorem length_probes (addr : U32) (n : Nat) (io : List IoEvent) :
    (probes host addr n io).1.length = n := by
  induction n generalizing addr io with
  | zero => rfl
  | succ n ih => simp [probes, ih]

theorem toNat_ofNat_leNat (w : Width) {bytes : List U8} (size : bytes.length = w.bytes) :
    (BitVec.ofNat w.bits (leNat bytes)).toNat = leNat bytes := by
  have bound := leNat_lt bytes
  rw [size] at bound
  rw [BitVec.toNat_ofNat, Nat.mod_eq_of_lt bound]

/-- An access below the window. -/
theorem readAt_below (bus : Bus) (w : Width) {addr : U32}
    (below : addr.toNat + w.bytes ≤ 0xFFFF0000) :
    ∃ val, (Memory.readAt host w addr : Prog Bus ε _).run bus = .ok val bus ∧
      val.toNat = leNat (span bus.mem.flat addr w.bytes) := by
  have ram : ¬addr ≥ mmioBase := by
    rw [mmioBase_le_iff]
    cases w <;> simp only [Width.bytes] at below <;> omega
  refine ⟨_, ?_, toNat_ofNat_leNat w (length_span _ _ _)⟩
  rw [readAt_bytewise host bus w ram, run_bind, readEach_ram host bus addr _ below]
  rfl

theorem writeAt_below (bus : Bus) (w : Width) {addr : U32}
    (below : addr.toNat + w.bytes ≤ 0xFFFF0000)
    (val : BitVec w.bits) :
    ∃ m : Memory, (Memory.writeAt w addr val : Prog Bus ε _).run bus = .ok ()
      { bus with mem := m } ∧
      m.flat = overlay bus.mem.flat addr w.bytes val ∧
      m.brkPtr = bus.mem.brkPtr ∧ m.initialBrk = bus.mem.initialBrk := by
  have ram : ¬addr ≥ mmioBase := by
    rw [mmioBase_le_iff]
    cases w <;> simp only [Width.bytes] at below <;> omega
  obtain ⟨m, written, flat, brk⟩ :=
    writeEach_ram (ε := ε) bus addr (leBytes val w.bytes) (by simpa [leBytes] using below)
  refine ⟨m, (writeAt_bytewise bus w ram val).trans written, ?_, brk⟩
  rw [flat, put_leBytes _ _ _ _ (by cases w <;> decide)]

theorem mmioBase_toNat : mmioBase.toNat = 0xFFFF0000 := rfl

/-- A range ends below the window, starts in it, or straddles its edge. -/
theorem window_cases (addr : U32) (n : Nat) :
    addr.toNat + n ≤ 0xFFFF0000 ∨ 0xFFFF0000 ≤ addr.toNat ∨
    ∃ k, addr.toNat + k = 0xFFFF0000 ∧ 0 < k ∧ k < n := by
  by_cases below : addr.toNat + n ≤ 0xFFFF0000
  · exact .inl below
  · by_cases window : 0xFFFF0000 ≤ addr.toNat
    · exact .inr (.inl window)
    · exact .inr (.inr ⟨0xFFFF0000 - addr.toNat, by omega, by omega, by omega⟩)

/-- Stepping from the last RAM bytes into the window. -/
theorem add_to_mmioBase {addr : U32} {k : Nat} (edge : addr.toNat + k = 0xFFFF0000) :
    addr + BitVec.ofNat 32 k = mmioBase := by
  apply BitVec.eq_of_toNat_eq
  rw [toNat_add_of_lt _ _ (by omega), mmioBase_toNat]
  exact edge

/-- An access with its first `k` bytes in RAM and the others in the window. -/
theorem readAt_straddle (bus : Bus) (w : Width) {addr : U32} {k : Nat}
    (edge : addr.toNat + k = 0xFFFF0000)
    (some : 0 < k) (past : k < w.bytes) :
    ∃ val, (Memory.readAt host w addr : Prog Bus ε _).run bus =
        .ok val (bus.withIo (probes host mmioBase (w.bytes - k) bus.world.io).2) ∧
      val.toNat = leNat (span bus.mem.flat addr k ++
        (probes host mmioBase (w.bytes - k) bus.world.io).1) := by
  have small : w.bytes ≤ 4 := by cases w <;> decide
  have ram : ¬addr ≥ mmioBase := by
    rw [mmioBase_le_iff]
    omega
  refine ⟨_, ?_, toNat_ofNat_leNat w ?_⟩
  · have whole := readEach_append (ε := ε) host addr k (w.bytes - k)
    rw [Nat.add_sub_cancel' past.le, add_to_mmioBase edge] at whole
    have low := readEach_ram (ε := ε) host bus addr k (by omega)
    have high := readEach_window (ε := ε) host bus mmioBase (w.bytes - k)
      (by rw [mmioBase_toNat]) (by rw [mmioBase_toNat]; omega)
    rw [readAt_bytewise host bus w ram]
    simp only [whole, run_bind, low, high, Outcome.andThen_ok, run_pure]
  · rw [List.length_append, length_span, length_probes]
    omega

theorem writeAt_straddle (bus : Bus) (w : Width) {addr : U32} {k : Nat}
    (edge : addr.toNat + k = 0xFFFF0000)
    (some : 0 < k) (past : k < w.bytes) (val : BitVec w.bits) :
    ∃ m : Memory, (Memory.writeAt w addr val : Prog Bus ε _).run bus =
        .ok () ({ bus with mem := m }.withIo
          (pokes mmioBase ((leBytes val w.bytes).drop k) bus.world.io)) ∧
      m.flat = overlay bus.mem.flat addr k val ∧
      m.brkPtr = bus.mem.brkPtr ∧ m.initialBrk = bus.mem.initialBrk := by
  have small : w.bytes ≤ 4 := by cases w <;> decide
  have ram : ¬addr ≥ mmioBase := by
    rw [mmioBase_le_iff]
    omega
  have first : (leBytes val w.bytes).take k = leBytes val k := by
    rw [leBytes, ← List.map_take, List.take_range, Nat.min_eq_left past.le]
    rfl
  have size : (leBytes val k).length = k := by simp [leBytes]
  obtain ⟨m, written, flat, brk⟩ :=
    writeEach_ram (ε := ε) bus addr (leBytes val k) (by rw [size]; omega)
  have high := writeEach_window (ε := ε) { bus with mem := m } mmioBase
    ((leBytes val w.bytes).drop k)
    (by rw [mmioBase_toNat]) (by rw [mmioBase_toNat]; simp [leBytes]; omega)
  refine ⟨m, ?_, ?_, brk⟩
  · rw [writeAt_bytewise bus w ram, ← List.take_append_drop k (leBytes val w.bytes),
      writeEach_append, run_bind,
      first, written, Outcome.andThen_ok, size, add_to_mmioBase edge, high]
    simp [leBytes]
  · rw [flat, put_leBytes _ _ _ _ (by omega)]

/-- An access that starts in the window is one access of the host. -/
theorem readAt_window (bus : Bus) (w : Width) {addr : U32} (window : 0xFFFF0000 ≤ addr.toNat) :
    (Memory.readAt host w addr : Prog Bus ε _).run bus =
      .ok ((host.readMmio bus.world.io addr (BitVec.ofNat 32 w.bytes)).setWidth w.bits)
        (bus.record (.readMmio addr (BitVec.ofNat 32 w.bytes)
          (host.readMmio bus.world.io addr (BitVec.ofNat 32 w.bytes)))) := by
  have inside : addr ≥ mmioBase := (mmioBase_le_iff addr).mpr window
  cases w with
  | byte =>
    refine (readU8_mmio host bus inside).trans ?_
    rw [setWidth_and_ones _ rfl]
    rfl
  | half =>
    simp only [Memory.readAt, Memory.readU16, inside, ↓reduceIte, jsReadMmio, run_bind,
      run_get, run_modify,
      Outcome.andThen_ok, run_pure]
    rw [setWidth_and_ones _ rfl]
    rfl
  | word =>
    simp only [Memory.readAt, Memory.readU32, inside, ↓reduceIte, jsReadMmio, run_bind,
      run_get, run_modify,
      Outcome.andThen_ok, run_pure]
    exact congrArg (Outcome.ok · _) (BitVec.setWidth_eq _).symm

theorem writeAt_window (bus : Bus) (w : Width) {addr : U32} (window : 0xFFFF0000 ≤ addr.toNat)
    (val : BitVec w.bits) :
    (Memory.writeAt w addr val : Prog Bus ε _).run bus =
      .ok () (bus.record (.writeMmio addr (BitVec.ofNat 32 w.bytes) (val.setWidth 32))) := by
  have inside : addr ≥ mmioBase := (mmioBase_le_iff addr).mpr window
  cases w with
  | byte => exact writeU8_mmio bus inside val
  | half =>
    simp only [Memory.writeAt, Memory.writeU16, inside, ↓reduceIte, jsWriteMmio, run_modify]
    rfl
  | word =>
    have same : val.setWidth 32 = val := BitVec.setWidth_eq val
    simp only [Memory.writeAt, Memory.writeU32, inside, ↓reduceIte, jsWriteMmio, run_modify, same]
    rfl

/-- A write leaves the bytes outside its range alone, and one that starts in RAM sets its first byte. -/
theorem flat_writeAt (bus : Bus) (w : Width) (addr : U32) (val : BitVec w.bits) :
    ∃ bus', (Memory.writeAt w addr val : Prog Bus ε _).run bus = .ok () bus' ∧
      (∀ x : U32, w.bytes ≤ (x - addr).toNat → bus'.mem.flat x = bus.mem.flat x) ∧
      (addr.toNat < 0xFFFF0000 → bus'.mem.flat addr = leByte val 0) := by
  have here : (addr - addr).toNat = 0 := by simp
  have written {n : Nat} {m : Memory} (some : 0 < n) (within : n ≤ w.bytes)
      (flat : m.flat = overlay bus.mem.flat addr n val) :
      (∀ x : U32, w.bytes ≤ (x - addr).toNat → m.flat x = bus.mem.flat x) ∧
        m.flat addr = leByte val 0 := by
    rw [flat]
    refine ⟨fun x outside => if_neg (by omega), ?_⟩
    rw [overlay, here, if_pos some]
  have small : 0 < w.bytes := by cases w <;> decide
  rcases window_cases addr w.bytes with below | window | ⟨k, edge, some, past⟩
  · obtain ⟨m, run, flat, -⟩ := writeAt_below (ε := ε) bus w below val
    obtain ⟨outside, first⟩ := written small le_rfl flat
    exact ⟨_, run, outside, fun _ => first⟩
  · exact ⟨_, writeAt_window bus w window val, fun _ _ => rfl, fun ram => absurd ram (by omega)⟩
  · obtain ⟨m, run, flat, -⟩ := writeAt_straddle (ε := ε) bus w edge some past val
    obtain ⟨outside, first⟩ := written some past.le flat
    exact ⟨_, run, outside, fun _ => first⟩

/-- The paged memory refines a flat byte store below the window, whatever the
alignment and whatever pages exist; a byte in the window is an access of the host. -/
theorem paged_refines_flat (bus : Bus) (w : Width) (addr : U32) (val : BitVec w.bits) :
    (addr.toNat + w.bytes ≤ 0xFFFF0000 →
      (∃ got, (Memory.readAt host w addr : Prog Bus ε _).run bus = .ok got bus ∧
        got.toNat = leNat (span bus.mem.flat addr w.bytes)) ∧
      ∃ m : Memory, (Memory.writeAt w addr val : Prog Bus ε _).run bus = .ok ()
        { bus with mem := m } ∧
        m.flat = overlay bus.mem.flat addr w.bytes val ∧
        m.brkPtr = bus.mem.brkPtr ∧ m.initialBrk = bus.mem.initialBrk) ∧
    (∀ k, addr.toNat + k = 0xFFFF0000 → 0 < k → k < w.bytes →
      (∃ got, (Memory.readAt host w addr : Prog Bus ε _).run bus =
          .ok got (bus.withIo (probes host mmioBase (w.bytes - k) bus.world.io).2) ∧
        got.toNat = leNat (span bus.mem.flat addr k ++
          (probes host mmioBase (w.bytes - k) bus.world.io).1)) ∧
      ∃ m : Memory, (Memory.writeAt w addr val : Prog Bus ε _).run bus =
          .ok () ({ bus with mem := m }.withIo
            (pokes mmioBase ((leBytes val w.bytes).drop k) bus.world.io)) ∧
        m.flat = overlay bus.mem.flat addr k val ∧
        m.brkPtr = bus.mem.brkPtr ∧ m.initialBrk = bus.mem.initialBrk) ∧
    (0xFFFF0000 ≤ addr.toNat →
      (Memory.readAt host w addr : Prog Bus ε _).run bus =
        .ok ((host.readMmio bus.world.io addr (BitVec.ofNat 32 w.bytes)).setWidth w.bits)
          (bus.record (.readMmio addr (BitVec.ofNat 32 w.bytes)
            (host.readMmio bus.world.io addr (BitVec.ofNat 32 w.bytes)))) ∧
      (Memory.writeAt w addr val : Prog Bus ε _).run bus =
        .ok () (bus.record (.writeMmio addr (BitVec.ofNat 32 w.bytes) (val.setWidth 32)))) := by
  refine ⟨?_, ?_, ?_⟩
  · intro below
    exact ⟨readAt_below host bus w below, writeAt_below bus w below val⟩
  · intro k edge some past
    exact ⟨readAt_straddle host bus w edge some past, writeAt_straddle bus w edge some past val⟩
  · intro window
    exact ⟨readAt_window host bus w window, writeAt_window bus w window val⟩

/-- An unaligned word write across two absent pages. -/
theorem paged_refines_flat_page_edge :
    ∃ m : Memory, (Memory.writeAt .word 0xFFFE 0x11223344 : Prog Bus Empty _).run
        { mem := Memory.new, world := ⟨[], []⟩ } = .ok () { mem := m, world := ⟨[], []⟩ } ∧
      m.flat = overlay Memory.new.flat 0xFFFE 4 (0x11223344 : U32) := by
  obtain ⟨m, written, flat, -⟩ :=
    ((paged_refines_flat (ε := Empty) default { mem := Memory.new, world := ⟨[], []⟩ } .word 0xFFFE
      0x11223344).1
      (by decide)).2
  exact ⟨m, written, flat⟩

end Refinement

section Values

theorem toNat_leByte {w : Nat} (val : BitVec w) (i : Nat) :
    (leByte val i).toNat = val.toNat / 2 ^ (8 * i) % 256 := by
  rw [leByte, BitVec.extractLsb'_toNat, Nat.shiftRight_eq_div_pow]

/-- The bytes of a value spell it. -/
theorem leNat_leBytes {w : Nat} (val : BitVec w) (n : Nat) :
    leNat (leBytes val n) = val.toNat % 2 ^ (8 * n) := by
  induction n with
  | zero => simp [leBytes, leNat, Nat.mod_one]
  | succ n ih =>
    have split : leBytes val (n + 1) = leBytes val n ++ [leByte val n] := by
      simp [leBytes, List.range_succ]
    have size : (leBytes val n).length = n := by simp [leBytes]
    rw [split, leNat_append, ih, size, Nat.mul_succ, Nat.pow_add, Nat.mod_mul]
    simp [leNat, toNat_leByte]

/-- Reading back what was stored. -/
theorem span_overlay {w : Nat} (ram : U32 → U8) (addr : U32) (n : Nat) (val : BitVec w)
    (fits : n ≤ 2 ^ 32) :
    span (overlay ram addr n val) addr n = leBytes val n := by
  suffices part : ∀ k i, i + k = n →
      span (overlay ram addr n val) (addr + BitVec.ofNat 32 i) k = (List.range' i k).map (leByte val) by
    have whole := part n 0 (Nat.zero_add n)
    simpa [leBytes, List.range_eq_range'] using whole
  intro k
  induction k with
  | zero => simp [span]
  | succ k ih =>
    intro i inside
    have offset : (addr + BitVec.ofNat 32 i - addr).toNat = i := by
      rw [BitVec.add_comm, BitVec.add_sub_cancel, BitVec.toNat_ofNat, Nat.mod_eq_of_lt (by omega)]
    have here : overlay ram addr n val (addr + BitVec.ofNat 32 i) = leByte val i := by
      rw [overlay, offset, if_pos (by omega)]
    rw [span, here, add_ofNat_succ, ih (i + 1) (by omega), List.range'_succ, List.map_cons]

/-- Two overlays side by side. -/
theorem overlay_overlay {v w : Nat} (ram : U32 → U8) (addr : U32) (low high : BitVec v)
    (val : BitVec w) {k j : Nat}
    (fits : k + j ≤ 2 ^ 32) (some : 0 < j) (first : ∀ i < k, leByte low i = leByte val i)
    (second : ∀ i < j, leByte high i = leByte val (k + i)) :
    overlay (overlay ram addr k low) (addr + BitVec.ofNat 32 k) j high = overlay ram addr
      (k + j) val := by
  funext x
  have moved : x - (addr + BitVec.ofNat 32 k) = x - addr - BitVec.ofNat 32 k := by rw [sub_sub]
  simp only [overlay, moved]
  generalize x - addr = y
  have bound := y.isLt
  have offset : (y - BitVec.ofNat 32 k).toNat = if k ≤ y.toNat then y.toNat - k else y.toNat +
    2 ^ 32 - k := by
    rw [BitVec.toNat_sub, BitVec.toNat_ofNat]
    split <;> omega
  rw [offset]
  by_cases before : k ≤ y.toNat
  · rw [if_pos before, if_neg (show ¬y.toNat < k by omega)]
    by_cases inside : y.toNat - k < j
    · rw [if_pos inside, if_pos (show y.toNat < k + j by omega), second _ inside,
        Nat.add_sub_cancel' before]
    · rw [if_neg inside, if_neg (show ¬y.toNat < k + j by omega)]
  · rw [if_neg before, if_neg (show ¬y.toNat + 2 ^ 32 - k < j by omega),
      if_pos (show y.toNat < k by omega),
      if_pos (show y.toNat < k + j by omega), first _ (by omega)]

end Values

end RiscvRs
