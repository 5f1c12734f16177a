import RiscvRs.Memory.Effects
import RiscvRs.Memory.Total

/-! The page-coalescing transfers of `Memory` against the byte-by-byte defaults of the
`MemoryOps` trait: one page is one stretch of bytes, and the loops take page after page
until they meet the MMIO window. -/

namespace RiscvRs

open Effects Prog Bytes

namespace MemoryOps

variable {σ ε : Type}

/-- The default `read_bytes`: one `read_u8` for each index of the buffer. -/
def readBytes (readU8 : U32 → Prog σ ε U8) (addr : U32) (len : Nat) : Prog σ ε (List U8) :=
  (List.range len).mapM fun i => readU8 (addr + BitVec.ofNat 32 i)

/-- The default `write_bytes`: one `write_u8` for each byte and its index. -/
def writeBytes (writeU8 : U32 → U8 → Prog σ ε Unit) (addr : U32) (bytes : List U8) :
    Prog σ ε Unit :=
  bytes.zipIdx.forM fun entry => writeU8 (addr + BitVec.ofNat 32 entry.2) entry.1

end MemoryOps

variable {ε : Type} (host : Host)

section Defaults

theorem mapM_readU8_range' (addr : U32) (start len : Nat) :
    ((List.range' start len).mapM fun i =>
      (Memory.readU8 host (addr + BitVec.ofNat 32 i) : Prog Bus ε U8)) =
      Memory.readEach host (addr + BitVec.ofNat 32 start) len := by
  induction len generalizing start with
  | zero => rfl
  | succ len ih =>
    rw [List.range'_succ, List.mapM_cons, ih, Memory.readEach, add_ofNat_succ]

/-- The default loop reads address after address. -/
theorem readBytes_default (addr : U32) (len : Nat) :
    (MemoryOps.readBytes (Memory.readU8 host) addr len : Prog Bus ε _) =
      Memory.readEach host addr len := by
  rw [MemoryOps.readBytes, List.range_eq_range', mapM_readU8_range', BitVec.add_zero]

theorem forM_writeU8_zipIdx (addr : U32) (bytes : List U8) (start : Nat) :
    ((bytes.zipIdx start).forM fun entry =>
        (Memory.writeU8 (addr + BitVec.ofNat 32 entry.2) entry.1 : Prog Bus ε Unit)) =
      Memory.writeEach (addr + BitVec.ofNat 32 start) bytes := by
  induction bytes generalizing start with
  | nil => rfl
  | cons b bytes ih =>
    rw [List.zipIdx_cons, Memory.writeEach, add_ofNat_succ, ← ih]
    rfl

theorem writeBytes_default (addr : U32) (bytes : List U8) :
    (MemoryOps.writeBytes Memory.writeU8 addr bytes : Prog Bus ε _) =
      Memory.writeEach addr bytes := by
  rw [MemoryOps.writeBytes, forM_writeU8_zipIdx, BitVec.add_zero]

end Defaults

section Ends

/-- Byte-wise reads end with one byte for each address. -/
theorem readEach_ok (bus : Bus) (addr : U32) (count : Nat) :
    ∃ bytes bus', (Memory.readEach host addr count : Prog Bus ε _).run bus = .ok bytes bus' ∧
      bytes.length = count := by
  have steady := steady_readEach (ε := ε) (F := Frame.of fun _ => ()) host
    (fun _ _ _ _ => rfl) addr count
  rcases yields_readEach (ε := ε) host addr count bus with ⟨bytes, bus', run, size⟩ | ⟨e, t, run⟩
  · exact ⟨bytes, bus', run, size⟩
  · exact absurd run steady.ne_err

theorem writeEach_ok (bus : Bus) (addr : U32) (bytes : List U8) :
    ∃ bus', (Memory.writeEach addr bytes : Prog Bus ε _).run bus = .ok () bus' := by
  have steady := steady_writeEach (ε := ε) (F := Frame.of fun _ => ()) (fun _ _ _ _ => rfl)
    (fun _ _ _ _ => rfl) addr bytes
  obtain ⟨⟨⟩, bus', run⟩ := (total_writeEach (ε := ε) addr bytes).ok steady bus
  exact ⟨bus', run⟩

end Ends

section OnePage

variable {addr : U32}

/-- A stretch that stays on its page ends below the window. -/
theorem page_below (ram : ¬addr ≥ mmioBase) {count : Nat}
    (inside : offsetOf addr + count ≤ pageSize) :
    addr.toNat + count ≤ 0xFFFF0000 := by
  rw [mmioBase_le_iff] at ram
  rw [offsetOf_eq, pageSize] at inside
  omega

/-- The bytes of a stretch on one page. -/
theorem span_page (m : Memory) {count : Nat} (ram : ¬addr ≥ mmioBase)
    (inside : offsetOf addr + count ≤ pageSize) :
    (m.pageAt addr).slice? (offsetOf addr) count = some (span m.flat addr count) := by
  rw [Table.slice?, dif_pos inside, Option.some_inj]
  apply List.ext_getElem
  · rw [List.length_ofFn, length_span]
  · intro i left right
    rw [List.length_ofFn] at left
    rw [List.getElem_ofFn, getElem_span, (flat_same_page m ram i (by omega)).2]

theorem span_absent (m : Memory) {count : Nat} (ram : ¬addr ≥ mmioBase)
    (inside : offsetOf addr + count ≤ pageSize)
    (absent : m.pages ⟨idxOf addr, idxOf_lt addr⟩ = none) :
    span m.flat addr count = List.replicate count 0 := by
  have zeros := span_page m ram inside
  rw [Memory.pageAt, absent, Option.getD_none, Table.slice?, dif_pos inside,
    Option.some_inj] at zeros
  rw [← zeros]
  exact List.ofFn_const count 0

/-- Bytes written one after the other to a page that is there. -/
theorem writeEach_page (bus : Bus) (ram : ¬addr ≥ mmioBase) (chunk : List U8) (k : Nat)
    (page page' : Page)
    (blitted : page.blit? (offsetOf addr + k) chunk = some page') :
    (Memory.writeEach (addr + BitVec.ofNat 32 k) chunk : Prog Bus ε _).run
      { bus with mem := bus.mem.setPage addr page } = .ok ()
        { bus with mem := bus.mem.setPage addr page' } := by
  induction chunk generalizing k page with
  | nil =>
    rw [Table.blit?_nil (Table.room_of_blit? blitted)] at blitted
    obtain rfl := Option.some_inj.mp blitted
    rfl
  | cons b rest ih =>
    have room := Table.room_of_blit? blitted
    rw [List.length_cons] at room
    have inside : offsetOf addr + k < pageSize := by omega
    have below := (flat_same_page bus.mem ram k inside).1
    rw [Table.blit?_cons page inside] at blitted
    rw [Memory.writeEach, run_bind, writeU8_ram _ below, Outcome.andThen_ok, add_ofNat_succ]
    rw [Bus.store, store_same_page _ addr k inside, Memory.pageAt_setPage, Memory.setPage_setPage]
    exact ih (k + 1) _ blitted

/-- Creating the page first makes no difference to a byte write. -/
theorem store_created (m : Memory) (val : U8) :
    (m.setPage addr (m.pageAt addr)).store addr val = m.store addr val := by
  rw [Memory.store, Memory.pageAt_setPage, Memory.setPage_setPage, Memory.store]

/-- A stretch of bytes on one page is one copy into it. -/
theorem writeEach_chunk (bus : Bus) (ram : ¬addr ≥ mmioBase) {chunk : List U8}
    (some : 0 < chunk.length) {page : Page}
    (blitted : (bus.mem.pageAt addr).blit? (offsetOf addr) chunk = .some page) :
    (Memory.writeEach addr chunk : Prog Bus ε _).run bus = .ok ()
    { bus with mem := bus.mem.setPage addr page } := by
  have created := writeEach_page (ε := ε) bus ram chunk 0 _ page blitted
  rw [BitVec.add_zero] at created
  cases chunk with
  | nil => cases some
  | cons b rest =>
    rw [Memory.writeEach, run_bind, writeU8_ram _ ram, Outcome.andThen_ok] at created ⊢
    rw [Bus.store, store_created] at created
    exact created

end OnePage

section Loops

/-- The bytes that an iteration takes from a page, whether the page is there or not. -/
theorem run_pageChunk (bus : Bus) {addr : U32} {count : Nat} (ram : ¬addr ≥ mmioBase)
    (inside : offsetOf addr + count ≤ pageSize) {α : Type} (f : List U8 → Prog Bus ε α) :
    (do
      match ← Memory.getPage (idxOf addr) with
      | some page => expect (page.slice? (offsetOf addr) count) >>= f
      | none => pure (List.replicate count 0) >>= f : Prog Bus ε α).run bus =
      (f (span bus.mem.flat addr count)).run bus := by
  rw [run_bind, getPage_apply, Outcome.andThen_ok]
  cases entry : bus.mem.pages ⟨idxOf addr, idxOf_lt addr⟩ with
  | some page =>
    have sliced := span_page bus.mem ram inside
    rw [Memory.pageAt, entry, Option.getD_some] at sliced
    dsimp only
    rw [sliced, expect_some, pure_bind]
  | none =>
    dsimp only
    rw [← span_absent bus.mem ram inside entry, pure_bind]

/-- The read loop fills the rest of the buffer byte by byte. -/
theorem readBytesLoop_each (bus : Bus) (fuel : Nat) (addr : U32) {offset : Nat} {buf : List U8}
    (within : offset ≤ buf.length) (enough : buf.length ≤ offset + fuel) :
    (Memory.readBytesLoop host fuel addr offset buf : Prog Bus ε _).run bus =
      (do return buf.take offset ++ (← Memory.readEach host addr (buf.length - offset)) : Prog Bus ε _).run bus := by
  induction fuel generalizing addr offset buf with
  | zero =>
    obtain rfl : offset = buf.length := by omega
    rw [Memory.readBytesLoop, if_neg (lt_irrefl _)]
    simp [Memory.readEach]
  | succ fuel ih =>
    rw [Memory.readBytesLoop]
    by_cases more : offset < buf.length
    · rw [if_pos more]
      by_cases window : addr ≥ mmioBase
      · -- from the window on, both read byte by byte
        rw [if_pos window, run_bind, run_bind]
        obtain ⟨tail, bus', run, size⟩ := readEach_ok (ε := ε) host bus addr (buf.length - offset)
        rw [run, Outcome.andThen_ok, Outcome.andThen_ok, splice?, if_pos (by omega), expect_some,
          List.drop_of_length_le (by omega), List.append_nil]
      · rw [if_neg window]
        dsimp only
        obtain ⟨progress, room, inside⟩ := bytesInPage_fits addr more
        generalize min (pageSize - offsetOf addr) (buf.length - offset) =
          count at inside room progress ⊢
        refine (run_pageChunk bus window inside _).trans ?_
        -- The bytes of this page are in the buffer, and the rest of the loop fills what is after them.
        obtain ⟨filled, spliced, same, front⟩ :=
          splice?_of_room buf offset (span bus.mem.flat addr count)
          (by rw [length_span]; omega)
        rw [length_span] at front
        have split : buf.length - offset = count + (filled.length - (offset + count)) := by omega
        have low := readEach_ram (ε := ε) host bus addr count (page_below window inside)
        rw [spliced, expect_some, pure_bind, ih _ (by omega) (by omega), front, split,
          readEach_append]
        simp [low]
    · obtain rfl : offset = buf.length := by omega
      rw [if_neg more]
      simp [Memory.readEach]

theorem getOrCreatePage_apply (bus : Bus) (addr : U32) {α : Type} (f : Page → Prog Bus ε α) :
    ∃ created, (Memory.getOrCreatePage (idxOf addr) >>= f).run bus =
        (f (bus.mem.pageAt addr)).run { bus with mem := created } ∧
      ∀ page, created.setPage addr page = bus.mem.setPage addr page := by
  cases entry : bus.mem.pages ⟨idxOf addr, idxOf_lt addr⟩ with
  | some page =>
    refine ⟨bus.mem, ?_, fun _ => rfl⟩
    simp [Memory.getOrCreatePage, getPage_apply, entry, Memory.pageAt]
  | none =>
    refine ⟨bus.mem.setPage addr (Table.replicate pageSize 0), ?_,
      fun _ => Memory.setPage_setPage _ _ _ _⟩
    simp [Memory.getOrCreatePage, getPage_apply, putPage_apply, entry, Memory.pageAt]

/-- The write loop stores the rest of the source byte by byte. -/
theorem writeBytesLoop_each (bus : Bus) (bytes : List U8) (fuel : Nat) (addr : U32) {offset : Nat}
    (enough : bytes.length ≤ offset + fuel) :
    (Memory.writeBytesLoop bytes fuel addr offset : Prog Bus ε _).run bus =
      (Memory.writeEach addr (bytes.drop offset) : Prog Bus ε _).run bus := by
  induction fuel generalizing addr offset bus with
  | zero =>
    rw [Memory.writeBytesLoop, if_neg (by omega), List.drop_of_length_le (by omega)]
    rfl
  | succ fuel ih =>
    rw [Memory.writeBytesLoop]
    by_cases more : offset < bytes.length
    · rw [if_pos more]
      by_cases window : addr ≥ mmioBase
      · rw [if_pos window]
      · rw [if_neg window]
        dsimp only
        obtain ⟨progress, room, inside⟩ := bytesInPage_fits addr more
        generalize min (pageSize - offsetOf addr) (bytes.length - offset) =
          count at inside room progress ⊢
        have size : ((bytes.drop offset).take count).length = count := by
          rw [List.length_take, List.length_drop]
          omega
        have sliced : sliceOf? bytes offset count = some ((bytes.drop offset).take count) :=
          if_pos (by omega)
        obtain ⟨page, blitted⟩ : ∃ page, (bus.mem.pageAt addr).blit? (offsetOf addr)
          ((bytes.drop offset).take count) =
            some page := ⟨_, if_pos (by rw [size]; exact inside)⟩
        have first := writeEach_chunk (ε := ε) bus window (by rw [size]; exact progress) blitted
        have whole : bytes.drop offset = (bytes.drop offset).take count ++ bytes.drop
          (offset + count) := by
          rw [← List.drop_drop, List.take_append_drop]
        obtain ⟨created, run, same⟩ := getOrCreatePage_apply (ε := ε) bus addr fun page => do
          let chunk ← expect (sliceOf? bytes offset count)
          let page ← expect (page.blit? (offsetOf addr) chunk)
          Memory.putPage (idxOf addr) page
          Memory.writeBytesLoop bytes fuel (addr + BitVec.ofNat 32 count) (offset + count)
        rw [run, sliced, expect_some, pure_bind, blitted, expect_some, pure_bind, run_bind,
          putPage_apply,
          Outcome.andThen_ok]
        dsimp only
        rw [same, ih _ _ (by omega)]
        rw [whole, writeEach_append, run_bind, first, Outcome.andThen_ok, size]
    · rw [if_neg more, List.drop_of_length_le (by omega)]
      rfl

theorem readBytes_each (bus : Bus) (addr : U32) (len : Nat) :
    (Memory.readBytes host addr len : Prog Bus ε _).run bus =
      (Memory.readEach host addr len : Prog Bus ε _).run bus := by
  rw [Memory.readBytes, readBytesLoop_each host bus len addr (Nat.zero_le _) (by simp)]
  simp

theorem writeBytes_each (bus : Bus) (addr : U32) (bytes : List U8) :
    (Memory.writeBytes addr bytes : Prog Bus ε _).run bus =
      (Memory.writeEach addr bytes : Prog Bus ε _).run bus := by
  rw [Memory.writeBytes, writeBytesLoop_each bus bytes _ addr (by simp), List.drop_zero]

/-- The coalesced transfers are the byte-by-byte ones, from every memory, at every
address and against every device: the same result, the same memory, the same log of
device accesses. Both end, and no index is out of bounds. -/
theorem bulk_transfers_bytewise (bus : Bus) (addr : U32) (len : Nat) (bytes : List U8) :
    (Memory.readBytes host addr len : Prog Bus ε _).run bus =
      (MemoryOps.readBytes (Memory.readU8 host) addr len : Prog Bus ε _).run bus ∧
    (Memory.writeBytes addr bytes : Prog Bus ε _).run bus =
      (MemoryOps.writeBytes Memory.writeU8 addr bytes : Prog Bus ε _).run bus ∧
    (∃ got bus', (Memory.readBytes host addr len : Prog Bus ε _).run bus = .ok got bus' ∧
      got.length = len) ∧
    ∃ bus', (Memory.writeBytes addr bytes : Prog Bus ε _).run bus = .ok () bus' := by
  rw [readBytes_default, writeBytes_default, readBytes_each, writeBytes_each]
  exact ⟨rfl, rfl, readEach_ok host bus addr len, writeEach_ok bus addr bytes⟩

end Loops

end RiscvRs
