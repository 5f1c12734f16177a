import RiscvRs.Memory.Flat
import RiscvRs.Lib.Frame

/-! What memory accesses can do to the bus, and that none of them raises an error. -/

namespace RiscvRs

open Effects Prog

/-- The elementary updates of memory accesses and streams. -/
inductive Bus.Touch : Bus → Bus → Prop where
  | record (bus : Bus) (event : IoEvent) : Touch bus (bus.record event)
  | page (bus : Bus) (addr : U32) (ram : ¬addr ≥ mmioBase) (page : Page) :
      Touch bus { bus with mem := bus.mem.setPage addr page }
  | brk (bus : Bus) (val : U32) (range : val ≥ bus.mem.initialBrk ∧ val < mmioBase) :
      Touch bus { bus with mem := { bus.mem with brkPtr := val } }

def busFrame : Frame Bus := Frame.closure Bus.Touch

/-- An access that neither writes to a device nor to a stream. -/
def IoEvent.isQuery : IoEvent → Bool
  | readMmio .. | readFromStdin .. | customSyscall .. => true
  | writeMmio .. | writeStdout _ | writeStderr _ => false

/-- Memory and messages stay, and the host was only asked. -/
def queryFrame : Frame Bus where
  rel s t := t.mem = s.mem ∧ t.world.diagnostics = s.world.diagnostics ∧
    ∃ events : List IoEvent, t.world.io = events ++ s.world.io ∧ ∀ event ∈ events, event.isQuery
  refl s := ⟨rfl, rfl, [], rfl, by simp⟩
  trans := by
    rintro r s t ⟨mem, messages, events, io, quiet⟩ ⟨mem', messages', events', io', quiet'⟩
    refine ⟨mem'.trans mem, messages'.trans messages, events' ++ events, ?_, ?_⟩
    · rw [io', io, List.append_assoc]
    · intro event member
      rcases List.mem_append.mp member with old | new
      · exact quiet' event old
      · exact quiet event new

variable {ε : Type} (host : Host)

theorem queryFrame_record (bus : Bus) {event : IoEvent} (query : event.isQuery = true) :
    queryFrame.rel bus (bus.record event) :=
  ⟨rfl, rfl, [event], rfl, by simpa using query⟩

section Reads

variable {F : Frame Bus}
  (asks : ∀ bus addr size val, F.rel bus (bus.record (.readMmio addr size val)))

include asks

theorem steady_jsReadMmio (addr size : U32) : Steady F (jsReadMmio host addr size : Prog Bus ε _) :=
  steady_bind steady_get fun _ => steady_bind (steady_modify fun bus => asks bus _ _ _) fun _ =>
    steady_pure _

omit asks in
theorem steady_getPage (pageIdx : Nat) : Steady F (Memory.getPage pageIdx : Prog Bus ε _) :=
  steady_bind steady_get fun _ => steady_expect _

omit asks in
theorem steady_pageU32 (page : Page) (offset : Nat) :
    Steady F (Memory.pageU32 page offset : Prog Bus ε _) :=
  steady_bind (steady_expect _) fun _ => steady_bind (steady_expect _) fun _ =>
    steady_bind (steady_expect _) fun _ => steady_bind (steady_expect _) fun _ => steady_pure _

theorem steady_readU8 (addr : U32) : Steady F (Memory.readU8 host addr : Prog Bus ε _) := by
  simp only [Memory.readU8]
  split
  · exact steady_bind (steady_jsReadMmio host asks _ _) fun _ => steady_pure _
  · refine steady_bind (steady_getPage _) fun entry => ?_
    cases entry with
    | none => exact steady_pure _
    | some page => exact steady_expect _

theorem steady_readU16 (addr : U32) : Steady F (Memory.readU16 host addr : Prog Bus ε _) := by
  simp only [Memory.readU16]
  split
  · exact steady_bind (steady_jsReadMmio host asks _ _) fun _ => steady_pure _
  · split
    · refine steady_bind (steady_getPage _) fun entry => ?_
      cases entry with
      | none => exact steady_pure _
      | some page =>
        exact steady_bind (steady_expect _) fun _ => steady_bind (steady_expect _) fun _ =>
          steady_pure _
    · exact steady_bind (steady_readU8 host asks _) fun _ => steady_bind (steady_readU8 host asks _)
        fun _ => steady_pure _

theorem steady_readU32 (addr : U32) : Steady F (Memory.readU32 host addr : Prog Bus ε _) := by
  simp only [Memory.readU32]
  split
  · exact steady_jsReadMmio host asks _ _
  · split
    · refine steady_bind (steady_getPage _) fun entry => ?_
      cases entry with
      | none => exact steady_pure _
      | some page => exact steady_pageU32 _ _
    · exact steady_bind (steady_readU8 host asks _) fun _ =>
        steady_bind (steady_readU8 host asks _) fun _ =>
        steady_bind (steady_readU8 host asks _) fun _ => steady_bind (steady_readU8 host asks _)
          fun _ => steady_pure _

theorem steady_fetchWindow (addr : U32) :
    Steady F (Memory.fetchWindow host addr : Prog Bus ε _) := by
  simp only [Memory.fetchWindow]
  split
  · refine steady_bind (steady_getPage _) fun entry => ?_
    cases entry with
    | none => exact steady_pure _
    | some page => exact steady_bind (steady_pageU32 _ _) fun _ => steady_pure _
  · exact steady_bind (steady_readU16 host asks _) fun _ => steady_pure _

theorem steady_readEach (addr : U32) (count : Nat) :
    Steady F (Memory.readEach host addr count : Prog Bus ε _) := by
  induction count generalizing addr with
  | zero => exact steady_pure _
  | succ count ih =>
    exact steady_bind (steady_readU8 host asks _) fun _ => steady_bind (ih _) fun _ => steady_pure _

theorem steady_readBytes (addr : U32) (len : Nat) :
    Steady F (Memory.readBytes host addr len : Prog Bus ε _) := by
  suffices loop : ∀ fuel currAddr offset buf,
      Steady F (Memory.readBytesLoop host fuel currAddr offset buf : Prog Bus ε _) from loop _ _ _ _
  intro fuel
  induction fuel with
  | zero =>
    intro currAddr offset buf
    simp only [Memory.readBytesLoop]
    split <;> simp
  | succ fuel ih =>
    intro currAddr offset buf
    simp only [Memory.readBytesLoop]
    split
    · split
      · exact steady_bind (steady_readEach host asks _ _) fun _ => steady_expect _
      · refine steady_bind (steady_getPage _) fun entry => ?_
        cases entry with
        | none =>
          exact steady_bind (steady_pure _) fun _ => steady_bind (steady_expect _) fun _ => ih _ _ _
        | some page =>
          exact steady_bind (steady_expect _) fun _ => steady_bind (steady_expect _)
            fun _ => ih _ _ _
    · exact steady_pure _

end Reads

section Writes

variable {F : Frame Bus}
  (tells : ∀ bus addr size val, F.rel bus (bus.record (.writeMmio addr size val)))
  (stores : ∀ (bus : Bus) addr page, ¬addr ≥ mmioBase →
    F.rel bus { bus with mem := bus.mem.setPage addr page })

include stores

theorem steady_putPage {addr : U32} (ram : ¬addr ≥ mmioBase) (page : Page) :
    Steady F (Memory.putPage (idxOf addr) page : Prog Bus ε _) := by
  intro bus
  exact .inl ⟨(), _, putPage_apply bus addr page, stores bus addr page ram⟩

theorem steady_getOrCreatePage {addr : U32} (ram : ¬addr ≥ mmioBase) :
    Steady F (Memory.getOrCreatePage (idxOf addr) : Prog Bus ε _) := by
  refine steady_bind (steady_getPage _) fun entry => ?_
  cases entry with
  | none => exact steady_bind (steady_putPage stores ram _) fun _ => steady_pure _
  | some page => exact steady_pure _

include tells

theorem steady_writeU8 (addr : U32) (val : U8) :
    Steady F (Memory.writeU8 addr val : Prog Bus ε _) := by
  simp only [Memory.writeU8]
  split
  · exact steady_modify fun bus => tells bus _ _ _
  next ram =>
    exact steady_bind (steady_getOrCreatePage stores ram) fun _ => steady_bind
      (steady_expect _) fun _ =>
      steady_putPage stores ram _

theorem steady_writeU16 (addr : U32) (val : U16) :
    Steady F (Memory.writeU16 addr val : Prog Bus ε _) := by
  simp only [Memory.writeU16]
  split
  · exact steady_modify fun bus => tells bus _ _ _
  next ram =>
    split
    · exact steady_bind (steady_getOrCreatePage stores ram) fun _ =>
        steady_bind (steady_expect _) fun _ =>
        steady_bind (steady_expect _) fun _ => steady_putPage stores ram _
    · exact steady_bind (steady_writeU8 tells stores _ _) fun _ => steady_writeU8 tells stores _ _

theorem steady_writeU32 (addr val : U32) : Steady F (Memory.writeU32 addr val : Prog Bus ε _) := by
  simp only [Memory.writeU32]
  split
  · exact steady_modify fun bus => tells bus _ _ _
  next ram =>
    split
    · exact steady_bind (steady_getOrCreatePage stores ram) fun _ =>
        steady_bind (steady_expect _) fun _ =>
        steady_bind (steady_expect _) fun _ => steady_bind (steady_expect _) fun _ =>
          steady_bind (steady_expect _) fun _ => steady_putPage stores ram _
    · exact steady_bind (steady_writeU8 tells stores _ _) fun _ => steady_bind
        (steady_writeU8 tells stores _ _) fun _ =>
        steady_bind (steady_writeU8 tells stores _ _) fun _ => steady_writeU8 tells stores _ _

theorem steady_writeEach (addr : U32) (bytes : List U8) :
    Steady F (Memory.writeEach addr bytes : Prog Bus ε _) := by
  induction bytes generalizing addr with
  | nil => exact steady_pure _
  | cons b rest ih => exact steady_bind (steady_writeU8 tells stores _ _) fun _ => ih _

theorem steady_writeBytes (addr : U32) (bytes : List U8) :
    Steady F (Memory.writeBytes addr bytes : Prog Bus ε _) := by
  suffices loop : ∀ fuel currAddr offset,
      Steady F (Memory.writeBytesLoop bytes fuel currAddr offset : Prog Bus ε _) from loop _ _ _
  intro fuel
  induction fuel with
  | zero =>
    intro currAddr offset
    simp only [Memory.writeBytesLoop]
    split <;> simp
  | succ fuel ih =>
    intro currAddr offset
    simp only [Memory.writeBytesLoop]
    split
    · split
      · exact steady_writeEach tells stores _ _
      next ram =>
        exact steady_bind (steady_getOrCreatePage stores ram) fun _ =>
          steady_bind (steady_expect _) fun _ =>
          steady_bind (steady_expect _) fun _ => steady_bind (steady_putPage stores ram _)
            fun _ => ih _ _
    · exact steady_pure _

end Writes

end RiscvRs
