import RiscvRs.Memory.Flat
import RiscvRs.Lib.Total

/-! No memory access panics, at any address: page and byte indices are in bounds,
and the page-coalescing loops end. -/

namespace RiscvRs

open Effects Prog

variable {ε : Type} (host : Host)

section Accesses

theorem total_readAt (w : Width) (addr : U32) :
    Total (Memory.readAt host w addr : Prog Bus ε _) := by
  intro bus
  rcases window_cases addr w.bytes with below | window | ⟨k, edge, some, past⟩
  · obtain ⟨val, run, -⟩ := readAt_below host bus w below
    exact .inl ⟨val, bus, run, trivial⟩
  · exact .inl ⟨_, _, readAt_window host bus w window, trivial⟩
  · obtain ⟨val, run, -⟩ := readAt_straddle host bus w edge some past
    exact .inl ⟨val, _, run, trivial⟩

theorem total_writeAt (w : Width) (addr : U32) (val : BitVec w.bits) :
    Total (Memory.writeAt w addr val : Prog Bus ε _) := by
  intro bus
  obtain ⟨bus', run, -⟩ := flat_writeAt bus w addr val
  exact .inl ⟨(), bus', run, trivial⟩

theorem total_readU8 (addr : U32) : Total (Memory.readU8 host addr : Prog Bus ε _) :=
  total_readAt host .byte addr

theorem total_readU16 (addr : U32) : Total (Memory.readU16 host addr : Prog Bus ε _) :=
  total_readAt host .half addr

theorem total_readU32 (addr : U32) : Total (Memory.readU32 host addr : Prog Bus ε _) :=
  total_readAt host .word addr

theorem total_writeU8 (addr : U32) (val : U8) : Total (Memory.writeU8 addr val : Prog Bus ε _) :=
  total_writeAt .byte addr val

theorem total_writeU32 (addr : U32) (val : U32) : Total (Memory.writeU32 addr val : Prog Bus ε _) :=
  total_writeAt .word addr val

end Accesses

section Pages

variable (addr : U32)

theorem total_getPage : Total (Memory.getPage (idxOf addr) : Prog Bus ε _) :=
  total_bind total_get fun _ => yields_expect ⟨_, Table.get?_of_lt _ (idxOf_lt addr), trivial⟩

theorem total_putPage (page : Page) : Total (Memory.putPage (idxOf addr) page : Prog Bus ε _) :=
  total_bind total_get fun _ =>
    total_bind (yields_expect ⟨_, Table.set?_of_lt _ (idxOf_lt addr) _, trivial⟩) fun _ =>
      total_modify _

theorem total_getOrCreatePage : Total (Memory.getOrCreatePage (idxOf addr) : Prog Bus ε _) := by
  refine total_bind (total_getPage addr) fun entry => ?_
  cases entry with
  | some page => exact total_pure page
  | none => exact total_bind (total_putPage addr _) fun _ => total_pure _

theorem total_pageU32 (page : Page) {offset : Nat} (inside : offset + 3 < pageSize) :
    Total (Memory.pageU32 page offset : Prog Bus ε _) := by
  have byte (i : Nat) (small : i ≤ 3) : Total (expect (page.get? (offset + i)) : Prog Bus ε U8) :=
    yields_expect ⟨_, Table.get?_of_lt _ (by omega), trivial⟩
  exact total_bind (byte 0 (by decide)) fun _ => total_bind (byte 1 (by decide)) fun _ =>
    total_bind (byte 2 (by decide)) fun _ => total_bind (byte 3 (by decide)) fun _ => total_pure _

theorem total_fetchWindow : Total (Memory.fetchWindow host addr : Prog Bus ε _) := by
  unfold Memory.fetchWindow
  dsimp only
  split
  · next inside =>
    refine total_bind (total_getPage addr) fun entry => ?_
    cases entry with
    | some page => exact total_bind (total_pageU32 page inside.2) fun _ => total_pure _
    | none => exact total_pure _
  · exact total_bind (total_readU16 host addr) fun _ => total_pure _

end Pages

section Bulk

/-- One byte for each address. -/
theorem yields_readEach (addr : U32) (count : Nat) :
    Yields (fun bytes => bytes.length = count)
      (Memory.readEach host addr count : Prog Bus ε _) := by
  induction count generalizing addr with
  | zero => exact yields_pure rfl
  | succ count ih =>
    refine yields_bind (total_readU8 host addr) fun item _ => ?_
    refine yields_bind (ih (addr + 1)) fun rest size => ?_
    exact yields_pure (congrArg (· + 1) size)

theorem total_writeEach (addr : U32) (bytes : List U8) :
    Total (Memory.writeEach addr bytes : Prog Bus ε _) := by
  induction bytes generalizing addr with
  | nil => exact total_pure ()
  | cons b bytes ih => exact total_bind (total_writeU8 addr b) fun _ => ih (addr + 1)

/-- The part of a page that one iteration of the coalescing loops takes: at least one byte,
no more than are left, and all of them on the page. -/
theorem bytesInPage_fits (addr : U32) {offset length : Nat} (more : offset < length) :
    0 < min (pageSize - offsetOf addr) (length - offset) ∧
      min (pageSize - offsetOf addr) (length - offset) ≤ length - offset ∧
      offsetOf addr + min (pageSize - offsetOf addr) (length - offset) ≤ pageSize := by
  have inside := offsetOf_lt addr
  omega

theorem total_readBytesLoop (fuel : Nat) (addr : U32) {offset : Nat} {buf : List U8}
    (enough : buf.length ≤ offset + fuel) :
    Total (Memory.readBytesLoop host fuel addr offset buf : Prog Bus ε _) := by
  induction fuel generalizing addr offset buf with
  | zero =>
    unfold Memory.readBytesLoop
    rw [if_neg (by omega)]
    exact total_pure buf
  | succ fuel ih =>
    unfold Memory.readBytesLoop
    split
    · next more =>
      split
      · refine yields_bind (yields_readEach host addr _) fun tail size => ?_
        obtain ⟨filled, spliced, -⟩ := splice?_of_room buf offset tail (by omega)
        exact yields_expect ⟨filled, spliced, trivial⟩
      · dsimp only
        obtain ⟨progress, room, inside⟩ := bytesInPage_fits addr more
        generalize min (pageSize - offsetOf addr) (buf.length - offset) =
          count at progress room inside ⊢
        -- what is left of the buffer shrinks by the bytes of this page
        have rest (chunk : List U8) (size : chunk.length = count) : Total (do
            let buf ← expect (splice? buf offset chunk)
            Memory.readBytesLoop host fuel (addr + BitVec.ofNat 32 count) (offset + count) buf :
              Prog Bus ε (List U8)) := by
          obtain ⟨filled, spliced, same, -⟩ := splice?_of_room buf offset chunk (by omega)
          rw [spliced, expect_some, pure_bind]
          exact ih _ (by omega)
        refine total_bind (total_getPage addr) fun entry => ?_
        cases entry with
        | some page =>
          have sliced : page.slice? (offsetOf addr) count = some _ := dif_pos inside
          dsimp only
          rw [sliced, expect_some, pure_bind]
          exact rest _ (List.length_ofFn)
        | none =>
          dsimp only
          rw [pure_bind]
          exact rest _ (List.length_replicate)
    · exact total_pure buf

theorem total_readBytes (addr : U32) (len : Nat) :
    Total (Memory.readBytes host addr len : Prog Bus ε _) :=
  total_readBytesLoop host len addr (by simp)

theorem total_writeBytesLoop (bytes : List U8) (fuel : Nat) (addr : U32) {offset : Nat}
    (enough : bytes.length ≤ offset + fuel) :
    Total (Memory.writeBytesLoop bytes fuel addr offset : Prog Bus ε _) := by
  induction fuel generalizing addr offset with
  | zero =>
    unfold Memory.writeBytesLoop
    rw [if_neg (by omega)]
    exact total_pure ()
  | succ fuel ih =>
    unfold Memory.writeBytesLoop
    split
    · next more =>
      split
      · exact total_writeEach addr _
      · dsimp only
        obtain ⟨progress, room, inside⟩ := bytesInPage_fits addr more
        generalize min (pageSize - offsetOf addr) (bytes.length - offset) =
          count at progress room inside ⊢
        obtain ⟨chunk, sliced, size⟩ : ∃ chunk, sliceOf? bytes offset count = some chunk ∧
          chunk.length = count :=
          length_sliceOf? (by omega)
        rw [sliced]
        refine total_bind (total_getOrCreatePage addr) fun page => ?_
        have blitted : page.blit? (offsetOf addr) chunk = some _ := if_pos (by omega)
        rw [expect_some, pure_bind, blitted, expect_some, pure_bind]
        exact total_bind (total_putPage addr _) fun _ => ih _ (by omega)
    · exact total_pure ()

theorem total_writeBytes (addr : U32) (bytes : List U8) :
    Total (Memory.writeBytes addr bytes : Prog Bus ε _) :=
  total_writeBytesLoop bytes bytes.length addr (by simp)

end Bulk

end RiscvRs
