import RiscvRs.Machine.Memory
import RiscvRs.Lib.Bytes

/-! What each accessor of the paged memory does, in terms of the flat byte store
the pages stand for. Every wide accessor below the MMIO window is first reduced
to its byte-wise form. -/

namespace RiscvRs

open Effects Prog

variable {ε : Type}

theorem idxOf_eq (addr : U32) : idxOf addr = addr.toNat / 65536 := by
  simp [idxOf, pageShift, Nat.shiftRight_eq_div_pow]

theorem offsetOf_eq (addr : U32) : offsetOf addr = addr.toNat % 65536 := by
  simp only [offsetOf, pageMask, BitVec.toNat_and, BitVec.ofNat_eq_ofNat, BitVec.reduceToNat]
  exact Nat.and_two_pow_sub_one_eq_mod addr.toNat 16

theorem idxOf_lt (addr : U32) : idxOf addr < 65536 := by
  have bound := addr.isLt
  rw [idxOf_eq]
  omega

theorem offsetOf_lt (addr : U32) : offsetOf addr < pageSize := by
  rw [offsetOf_eq, pageSize]
  omega

theorem addr_ext {a b : U32} (page : idxOf a = idxOf b) (offset : offsetOf a = offsetOf b) : a = b := by
  rw [idxOf_eq, idxOf_eq] at page
  rw [offsetOf_eq, offsetOf_eq] at offset
  apply BitVec.eq_of_toNat_eq
  omega

theorem mmioBase_le_iff (addr : U32) : addr ≥ mmioBase ↔ 0xFFFF0000 ≤ addr.toNat := by
  rw [ge_iff_le, BitVec.le_def]
  rfl

theorem toNat_add_of_lt (addr : U32) (i : Nat) (room : addr.toNat + i < 2 ^ 32) :
    (addr + BitVec.ofNat 32 i).toNat = addr.toNat + i := by
  rw [BitVec.toNat_add, BitVec.toNat_ofNat]
  omega

/-- `i` bytes further on the same page. -/
theorem idxOf_add (addr : U32) (i : Nat) (inside : offsetOf addr + i < 65536) :
    idxOf (addr + BitVec.ofNat 32 i) = idxOf addr ∧
      offsetOf (addr + BitVec.ofNat 32 i) = offsetOf addr + i := by
  have bound := addr.isLt
  rw [offsetOf_eq] at inside
  rw [idxOf_eq, idxOf_eq, offsetOf_eq, offsetOf_eq, toNat_add_of_lt addr i (by omega)]
  omega

theorem and_one_eq_zero_iff (addr : U32) : addr &&& 1 = 0 ↔ addr.toNat % 2 = 0 := by
  rw [← BitVec.toNat_inj, BitVec.toNat_and]
  simp

theorem and_three_eq_zero_iff (addr : U32) : addr &&& 3 = 0 ↔ addr.toNat % 4 = 0 := by
  rw [← BitVec.toNat_inj, BitVec.toNat_and]
  simpa using (Nat.and_two_pow_sub_one_eq_mod addr.toNat 2).congr_left

/-- The page that holds an address, absent pages reading as zero. -/
def Memory.pageAt (m : Memory) (addr : U32) : Page :=
  (m.pages ⟨idxOf addr, idxOf_lt addr⟩).getD (Table.replicate pageSize 0)

/-- The flat byte store a memory stands for. -/
def Memory.flat (m : Memory) (addr : U32) : U8 :=
  m.pageAt addr ⟨offsetOf addr, offsetOf_lt addr⟩

theorem flat_new (addr : U32) : Memory.new.flat addr = 0 := rfl

/-- The memory with another page at the entry of an address. -/
def Memory.setPage (m : Memory) (addr : U32) (page : Page) : Memory :=
  { m with pages := Function.update m.pages ⟨idxOf addr, idxOf_lt addr⟩ (some page) }

/-- The memory after one byte was stored, its page present. -/
def Memory.store (m : Memory) (addr : U32) (val : U8) : Memory :=
  m.setPage addr (Function.update (m.pageAt addr) ⟨offsetOf addr, offsetOf_lt addr⟩ val)

@[simp] theorem Memory.pageAt_setPage (m : Memory) (addr : U32) (page : Page) :
    (m.setPage addr page).pageAt addr = page := by
  simp [pageAt, setPage]

@[simp] theorem Memory.setPage_setPage (m : Memory) (addr : U32) (first second : Page) :
    (m.setPage addr first).setPage addr second = m.setPage addr second := by
  simp [setPage]

theorem Memory.pageAt_store (m : Memory) (addr x : U32) (val : U8) :
    (m.store addr val).pageAt x =
      if idxOf x = idxOf addr then
        Function.update (m.pageAt addr) ⟨offsetOf addr, offsetOf_lt addr⟩ val
      else m.pageAt x := by
  by_cases same : idxOf x = idxOf addr
  · simp [pageAt, store, setPage, same]
  · simp [pageAt, store, setPage, same]

theorem Memory.flat_store (m : Memory) (addr : U32) (val : U8) :
    (m.store addr val).flat = Function.update m.flat addr val := by
  funext x
  by_cases same : x = addr
  · subst same
    simp [flat, pageAt_store]
  · rw [Function.update_of_ne same, flat, pageAt_store]
    by_cases page : idxOf x = idxOf addr
    · have apart : (⟨offsetOf x, offsetOf_lt x⟩ : Fin pageSize) ≠
        ⟨offsetOf addr, offsetOf_lt addr⟩ := by
        intro offset
        exact same (addr_ext page (Fin.mk.inj offset))
      rw [if_pos page, Function.update_of_ne apart]
      simp only [flat, pageAt, page]
    · rw [if_neg page, flat]

def Bus.store (bus : Bus) (addr : U32) (val : U8) : Bus :=
  { bus with mem := bus.mem.store addr val }

section Bytewise

variable (host : Host)

theorem getPage_apply (bus : Bus) (addr : U32) :
    (Memory.getPage (idxOf addr) : Prog Bus ε _).run bus =
      .ok (bus.mem.pages ⟨idxOf addr, idxOf_lt addr⟩) bus := by
  simp [Memory.getPage, Table.get?_of_lt _ (idxOf_lt addr)]

theorem putPage_apply (bus : Bus) (addr : U32) (page : Page) :
    (Memory.putPage (idxOf addr) page : Prog Bus ε _).run bus =
      .ok () { bus with mem := bus.mem.setPage addr page } := by
  simp [Memory.putPage, Table.set?_of_lt _ (idxOf_lt addr), Memory.setPage]

/-- Creating the page and storing it back changed is one update of its entry. -/
theorem getOrCreatePage_putPage (bus : Bus) (addr : U32) (f : Page → Page) :
    (do Memory.putPage (idxOf addr) (f (← Memory.getOrCreatePage (idxOf addr))) :
      Prog Bus ε _).run bus =
      .ok () { bus with mem := bus.mem.setPage addr (f (bus.mem.pageAt addr)) } := by
  cases entry : bus.mem.pages ⟨idxOf addr, idxOf_lt addr⟩ <;>
    simp [Memory.getOrCreatePage, getPage_apply, putPage_apply, entry, Memory.pageAt]

theorem readU8_ram (bus : Bus) {addr : U32} (ram : ¬addr ≥ mmioBase) :
    (Memory.readU8 host addr : Prog Bus ε _).run bus = .ok (bus.mem.flat addr) bus := by
  cases entry : bus.mem.pages ⟨idxOf addr, idxOf_lt addr⟩ with
  | none =>
    simp [Memory.readU8, ram, getPage_apply, entry, Memory.flat, Memory.pageAt, Table.replicate]
  | some page =>
    simp [Memory.readU8, ram, getPage_apply, entry, Memory.flat, Memory.pageAt,
      Table.get?_of_lt _ (offsetOf_lt addr)]

theorem writeU8_ram (bus : Bus) {addr : U32} (ram : ¬addr ≥ mmioBase) (val : U8) :
    (Memory.writeU8 addr val : Prog Bus ε _).run bus = .ok () (bus.store addr val) := by
  have written := getOrCreatePage_putPage (ε := ε) bus addr
    (fun page => Function.update page ⟨offsetOf addr, offsetOf_lt addr⟩ val)
  simpa [Memory.writeU8, ram, Table.set?_of_lt _ (offsetOf_lt addr), Bus.store,
    Memory.store] using written

theorem readU8_mmio (bus : Bus) {addr : U32} (window : addr ≥ mmioBase) :
    (Memory.readU8 host addr : Prog Bus ε _).run bus =
      .ok ((host.readMmio bus.world.io addr 1 &&& 0xFF).setWidth 8)
        (bus.record (.readMmio addr 1 (host.readMmio bus.world.io addr 1))) := by
  simp [Memory.readU8, window, jsReadMmio]

theorem writeU8_mmio (bus : Bus) {addr : U32} (window : addr ≥ mmioBase) (val : U8) :
    (Memory.writeU8 addr val : Prog Bus ε _).run bus =
      .ok () (bus.record (.writeMmio addr 1 (val.setWidth 32))) := by
  simp [Memory.writeU8, window, jsWriteMmio]

/-- A byte further on the same page is in RAM, at the next offset of the same page. -/
theorem flat_same_page (m : Memory) {addr : U32} (ram : ¬addr ≥ mmioBase) (i : Nat)
    (inside : offsetOf addr + i < pageSize) :
    ¬addr + BitVec.ofNat 32 i ≥ mmioBase ∧
      m.flat (addr + BitVec.ofNat 32 i) = m.pageAt addr ⟨offsetOf addr + i, inside⟩ := by
  obtain ⟨page, offset⟩ := idxOf_add addr i inside
  constructor
  · rw [mmioBase_le_iff] at ram ⊢
    rw [idxOf_eq, idxOf_eq] at page
    omega
  · simp only [Memory.flat, Memory.pageAt, page, offset]

/-- Storing a byte further on the same page, as an update of that page. -/
theorem store_same_page (m : Memory) (addr : U32) (i : Nat) (inside : offsetOf addr + i < pageSize)
    (val : U8) :
    m.store (addr + BitVec.ofNat 32 i) val =
      m.setPage addr (Function.update (m.pageAt addr) ⟨offsetOf addr + i, inside⟩ val) := by
  obtain ⟨page, offset⟩ := idxOf_add addr i inside
  simp only [Memory.store, Memory.setPage, Memory.pageAt, page, offset]

/-- The alignment test of the fast path never lets a page edge through. -/
theorem fast16 {addr : U32} (fast : addr &&& 1 = 0 ∨ offsetOf addr + 1 < pageSize) :
    offsetOf addr + 1 < pageSize := by
  rcases fast with even | inside
  · rw [and_one_eq_zero_iff] at even
    rw [offsetOf_eq, pageSize]
    omega
  · exact inside

theorem fast32 {addr : U32} (fast : addr &&& 3 = 0 ∨ offsetOf addr + 3 < pageSize) :
    offsetOf addr + 3 < pageSize := by
  rcases fast with aligned | inside
  · rw [and_three_eq_zero_iff] at aligned
    rw [offsetOf_eq, pageSize]
    omega
  · exact inside

theorem fromLeBytes16_eq_or (b0 b1 : U8) :
    b0.setWidth 16 ||| (b1.setWidth 16 <<< 8) = fromLeBytes16 b0 b1 := by
  apply BitVec.eq_of_getLsbD_eq
  intro i bound
  simp only [fromLeBytes16, BitVec.getLsbD_or, BitVec.getLsbD_shiftLeft, BitVec.getLsbD_setWidth,
    BitVec.getLsbD_append]
  by_cases low : i < 8
  · simp [low, bound]
  · simp [low, bound, BitVec.getLsbD_of_ge b0 i (by omega)]
    omega

theorem fromLeBytes32_eq_or (b0 b1 b2 b3 : U8) :
    b0.setWidth 32 ||| (b1.setWidth 32 <<< 8) ||| (b2.setWidth 32 <<< 16) |||
      (b3.setWidth 32 <<< 24) =
      fromLeBytes32 b0 b1 b2 b3 := by
  apply BitVec.eq_of_getLsbD_eq
  intro i bound
  simp only [fromLeBytes32, BitVec.getLsbD_or, BitVec.getLsbD_shiftLeft, BitVec.getLsbD_setWidth,
    BitVec.getLsbD_append]
  interval_cases i <;> simp

/-- Below the window a halfword read is two byte reads. -/
theorem readU16_bytewise (bus : Bus) {addr : U32} (ram : ¬addr ≥ mmioBase) :
    (Memory.readU16 host addr : Prog Bus ε _).run bus = (do
      let b0 ← Memory.readU8 host addr
      let b1 ← Memory.readU8 host (addr + 1)
      return fromLeBytes16 b0 b1 : Prog Bus ε _).run bus := by
  by_cases fast : addr &&& 1 = 0 ∨ offsetOf addr + 1 < pageSize
  · have inside := fast16 fast
    obtain ⟨ram1, byte1⟩ := flat_same_page bus.mem ram 1 inside
    have byte0 : bus.mem.flat addr = bus.mem.pageAt addr ⟨offsetOf addr, offsetOf_lt addr⟩ := rfl
    simp only [Memory.readU16, ram, fast, ↓reduceIte]
    simp only [run_bind, readU8_ram host bus ram, Outcome.andThen_ok,
      BitVec.ofNat_eq_ofNat, readU8_ram host bus ram1, byte0, byte1, getPage_apply]
    cases entry : bus.mem.pages ⟨idxOf addr, idxOf_lt addr⟩ with
    | none => simp [entry, Memory.pageAt, Table.replicate, fromLeBytes16]
    | some page =>
      simp [entry, Memory.pageAt, Memory.pageU16, Table.get?_of_lt _ inside,
        Table.get?_of_lt _ (offsetOf_lt addr)]
  · simp only [Memory.readU16, ram, fast, ↓reduceIte, fromLeBytes16_eq_or]

theorem readU32_bytewise (bus : Bus) {addr : U32} (ram : ¬addr ≥ mmioBase) :
    (Memory.readU32 host addr : Prog Bus ε _).run bus = (do
      let b0 ← Memory.readU8 host addr
      let b1 ← Memory.readU8 host (addr + 1)
      let b2 ← Memory.readU8 host (addr + 2)
      let b3 ← Memory.readU8 host (addr + 3)
      return fromLeBytes32 b0 b1 b2 b3 : Prog Bus ε _).run bus := by
  by_cases fast : addr &&& 3 = 0 ∨ offsetOf addr + 3 < pageSize
  · have inside := fast32 fast
    have inside1 : offsetOf addr + 1 < pageSize := by omega
    have inside2 : offsetOf addr + 2 < pageSize := by omega
    obtain ⟨ram1, byte1⟩ := flat_same_page bus.mem ram 1 inside1
    obtain ⟨ram2, byte2⟩ := flat_same_page bus.mem ram 2 inside2
    obtain ⟨ram3, byte3⟩ := flat_same_page bus.mem ram 3 inside
    have byte0 : bus.mem.flat addr = bus.mem.pageAt addr ⟨offsetOf addr, offsetOf_lt addr⟩ := rfl
    simp only [Memory.readU32, ram, fast, ↓reduceIte]
    simp only [run_bind, readU8_ram host bus ram, Outcome.andThen_ok,
      BitVec.ofNat_eq_ofNat, readU8_ram host bus ram1, readU8_ram host bus ram2,
        readU8_ram host bus ram3,
      byte0, byte1, byte2, byte3, getPage_apply]
    cases entry : bus.mem.pages ⟨idxOf addr, idxOf_lt addr⟩ with
    | none => simp [entry, Memory.pageAt, Table.replicate, fromLeBytes32]
    | some page =>
      simp [entry, Memory.pageAt, Memory.pageU32, Table.get?_of_lt _ inside,
        Table.get?_of_lt _ inside1,
        Table.get?_of_lt _ inside2, Table.get?_of_lt _ (offsetOf_lt addr)]
  · simp only [Memory.readU32, ram, fast, ↓reduceIte, fromLeBytes32_eq_or]

/-- Below the window a halfword write is two byte writes. -/
theorem writeU16_bytewise (bus : Bus) {addr : U32} (ram : ¬addr ≥ mmioBase) (val : U16) :
    (Memory.writeU16 addr val : Prog Bus ε _).run bus = (do
      Memory.writeU8 addr (leByte val 0)
      Memory.writeU8 (addr + 1) (leByte val 1) : Prog Bus ε _).run bus := by
  by_cases fast : addr &&& 1 = 0 ∨ offsetOf addr + 1 < pageSize
  · have inside := fast16 fast
    obtain ⟨ram1, -⟩ := flat_same_page bus.mem ram 1 inside
    have written := getOrCreatePage_putPage (ε := ε) bus addr fun page =>
      Function.update (Function.update page ⟨offsetOf addr, offsetOf_lt addr⟩ (leByte val 0))
        ⟨offsetOf addr + 1, inside⟩ (leByte val 1)
    have stored : (bus.mem.store addr (leByte val 0)).store (addr + 1#32) (leByte val 1) = _ :=
      store_same_page _ addr 1 inside _
    simp only [Memory.writeU16, ram, fast, ↓reduceIte, Table.set?_of_lt _ (offsetOf_lt addr),
      Table.set?_of_lt _ inside, expect_some, pure_bind]
    rw [written, run_bind, writeU8_ram bus ram, Outcome.andThen_ok, BitVec.ofNat_eq_ofNat,
      writeU8_ram _ ram1]
    simp only [Bus.store, stored]
    simp [Memory.store]
  · simp only [Memory.writeU16, ram, fast, ↓reduceIte]

theorem writeU32_bytewise (bus : Bus) {addr : U32} (ram : ¬addr ≥ mmioBase) (val : U32) :
    (Memory.writeU32 addr val : Prog Bus ε _).run bus = (do
      Memory.writeU8 addr (leByte val 0)
      Memory.writeU8 (addr + 1) (leByte val 1)
      Memory.writeU8 (addr + 2) (leByte val 2)
      Memory.writeU8 (addr + 3) (leByte val 3) : Prog Bus ε _).run bus := by
  by_cases fast : addr &&& 3 = 0 ∨ offsetOf addr + 3 < pageSize
  · have inside := fast32 fast
    have inside1 : offsetOf addr + 1 < pageSize := by omega
    have inside2 : offsetOf addr + 2 < pageSize := by omega
    obtain ⟨ram1, -⟩ := flat_same_page bus.mem ram 1 inside1
    obtain ⟨ram2, -⟩ := flat_same_page bus.mem ram 2 inside2
    obtain ⟨ram3, -⟩ := flat_same_page bus.mem ram 3 inside
    have written := getOrCreatePage_putPage (ε := ε) bus addr fun page =>
      Function.update (Function.update (Function.update
        (Function.update page ⟨offsetOf addr, offsetOf_lt addr⟩ (leByte val 0))
        ⟨offsetOf addr + 1, inside1⟩ (leByte val 1)) ⟨offsetOf addr + 2, inside2⟩ (leByte val 2))
        ⟨offsetOf addr + 3, inside⟩ (leByte val 3)
    have stored1 (m : Memory) : m.store (addr + 1#32) (leByte val 1) = _ :=
      store_same_page m addr 1 inside1 _
    have stored2 (m : Memory) : m.store (addr + 2#32) (leByte val 2) = _ :=
      store_same_page m addr 2 inside2 _
    have stored3 (m : Memory) : m.store (addr + 3#32) (leByte val 3) = _ :=
      store_same_page m addr 3 inside _
    simp only [Memory.writeU32, ram, fast, ↓reduceIte, Table.set?_of_lt _ (offsetOf_lt addr),
      Table.set?_of_lt _ inside, Table.set?_of_lt _ inside1, Table.set?_of_lt _ inside2,
        expect_some, pure_bind]
    simp only [written, run_bind, writeU8_ram _ ram, Outcome.andThen_ok, BitVec.ofNat_eq_ofNat,
      writeU8_ram _ ram1, writeU8_ram _ ram2, writeU8_ram _ ram3, Bus.store, stored1,
        stored2, stored3]
    simp [Memory.store]
  · simp only [Memory.writeU32, ram, fast, ↓reduceIte]

end Bytewise

end RiscvRs
