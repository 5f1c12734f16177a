import RiscvRs.Lib.Blind
import RiscvRs.Memory.Bulk

/-! No access to memory sees how it is laid out in pages: whether a page of zeros is there or not,
every operation gives the same and leaves the same bytes. -/

namespace RiscvRs

open Effects Prog Bytes

/-- Memory as its users see it. -/
structure Memory.Shown where
  bytes : U32 → U8
  brkPtr : U32
  initialBrk : U32

def Memory.shown (m : Memory) : Memory.Shown := ⟨m.flat, m.brkPtr, m.initialBrk⟩

def Bus.shown (bus : Bus) : Memory.Shown × World := (bus.mem.shown, bus.world)

section Parts

variable {bus bus' : Bus}

theorem Bus.shown_ext (flat : bus.mem.flat = bus'.mem.flat) (brk : bus.mem.brkPtr = bus'.mem.brkPtr)
    (initial : bus.mem.initialBrk = bus'.mem.initialBrk) (world : bus.world = bus'.world) :
    bus.shown = bus'.shown := by
  rw [Bus.shown, Bus.shown, Memory.shown, Memory.shown, flat, brk, initial, world]

theorem flat_of_shown (same : bus.shown = bus'.shown) : bus.mem.flat = bus'.mem.flat :=
  congrArg (fun seen => seen.1.bytes) same

theorem brkPtr_of_shown (same : bus.shown = bus'.shown) : bus.mem.brkPtr = bus'.mem.brkPtr :=
  congrArg (fun seen => seen.1.brkPtr) same

theorem initialBrk_of_shown (same : bus.shown = bus'.shown) :
    bus.mem.initialBrk = bus'.mem.initialBrk :=
  congrArg (fun seen => seen.1.initialBrk) same

theorem world_of_shown (same : bus.shown = bus'.shown) : bus.world = bus'.world :=
  congrArg Prod.snd same

theorem Bus.shown_record (same : bus.shown = bus'.shown) (event : IoEvent) :
    (bus.record event).shown = (bus'.record event).shown := by
  have world := congrArg (fun world : World => { world with io := event :: world.io })
    (world_of_shown same)
  have mem : bus.mem.shown = bus'.mem.shown := congrArg Prod.fst same
  exact Prod.ext mem world

theorem Bus.shown_store (same : bus.shown = bus'.shown) (addr : U32) (val : U8) :
    (bus.store addr val).shown = (bus'.store addr val).shown := by
  have brk : bus.mem.brkPtr = bus'.mem.brkPtr := brkPtr_of_shown same
  have initial : bus.mem.initialBrk = bus'.mem.initialBrk := initialBrk_of_shown same
  have world : bus.world = bus'.world := world_of_shown same
  refine Bus.shown_ext ?_ brk initial world
  rw [Bus.store, Bus.store, Memory.flat_store, Memory.flat_store, flat_of_shown same]

end Parts

section Accesses

variable {ε : Type} (host : Host)

/-- A question to the host, which answers by what it has seen. -/
theorem shown_ask {α : Type} (answer : List IoEvent → α) (event : α → IoEvent) :
    Blind Bus.shown (do
      let bus ← get
      modify (·.record (event (answer bus.world.io)))
      return answer bus.world.io : Prog Bus ε α) := by
  refine blind_of_ok (fun bus => answer bus.world.io)
    (fun bus => bus.record (event (answer bus.world.io))) (fun _ => rfl) ?_
  intro bus bus' same
  rw [world_of_shown same]
  exact ⟨rfl, Bus.shown_record same _⟩

theorem shown_tell (event : IoEvent) :
    Blind Bus.shown (modify (·.record event) : Prog Bus ε Unit) :=
  blind_modify fun _ _ same => Bus.shown_record same event

theorem shown_jsReadMmio (addr size : U32) :
    Blind Bus.shown (jsReadMmio host addr size : Prog Bus ε _) :=
  shown_ask (fun io => host.readMmio io addr size) fun val => .readMmio addr size val

theorem shown_readU8 (addr : U32) : Blind Bus.shown (Memory.readU8 host addr : Prog Bus ε _) := by
  by_cases ram : addr ≥ mmioBase
  · rw [Memory.readU8, if_pos ram]
    exact blind_bind (shown_jsReadMmio host addr 1) fun _ => blind_pure _
  · refine blind_of_ok (fun bus => bus.mem.flat addr) id (fun bus => readU8_ram host bus ram) ?_
    exact fun bus bus' same => ⟨congrFun (flat_of_shown same) addr, same⟩

theorem shown_writeU8 (addr : U32) (val : U8) :
    Blind Bus.shown (Memory.writeU8 addr val : Prog Bus ε _) := by
  by_cases ram : addr ≥ mmioBase
  · rw [Memory.writeU8, if_pos ram]
    exact shown_tell _
  · refine blind_of_ok (fun _ => ()) (fun bus => bus.store addr val)
      (fun bus => writeU8_ram bus ram val) ?_
    exact fun bus bus' same => ⟨rfl, Bus.shown_store same addr val⟩

theorem shown_readEach (addr : U32) (count : Nat) :
    Blind Bus.shown (Memory.readEach host addr count : Prog Bus ε _) := by
  induction count generalizing addr with
  | zero => exact blind_pure []
  | succ count ih =>
    exact blind_bind (shown_readU8 host addr) fun _ => blind_bind (ih _) fun _ => blind_pure _

theorem shown_writeEach (addr : U32) (bytes : List U8) :
    Blind Bus.shown (Memory.writeEach addr bytes : Prog Bus ε _) := by
  induction bytes generalizing addr with
  | nil => exact blind_pure ()
  | cons b rest ih => exact blind_bind (shown_writeU8 addr b) fun _ => ih _

theorem shown_readAt (w : Width) (addr : U32) :
    Blind Bus.shown (Memory.readAt host w addr : Prog Bus ε _) := by
  by_cases ram : addr ≥ mmioBase
  · cases w with
    | byte => exact shown_readU8 host addr
    | half =>
      change Blind Bus.shown (Memory.readU16 host addr)
      rw [Memory.readU16, if_pos ram]
      exact blind_bind (shown_jsReadMmio host addr 2) fun _ => blind_pure _
    | word =>
      change Blind Bus.shown (Memory.readU32 host addr)
      rw [Memory.readU32, if_pos ram]
      exact shown_jsReadMmio host addr 4
  · have each := blind_bind (shown_readEach (ε := ε) host addr w.bytes) fun bytes =>
      blind_pure (BitVec.ofNat w.bits (leNat bytes))
    exact each.of_run fun bus => readAt_bytewise host bus w ram

theorem shown_writeAt (w : Width) (addr : U32) (val : BitVec w.bits) :
    Blind Bus.shown (Memory.writeAt w addr val : Prog Bus ε _) := by
  by_cases ram : addr ≥ mmioBase
  · cases w with
    | byte => exact shown_writeU8 addr val
    | half =>
      have window : (Memory.writeU16 addr val : Prog Bus ε _) = jsWriteMmio addr 2
        (val.setWidth 32) := if_pos ram
      exact (shown_tell (.writeMmio addr 2 (val.setWidth 32))).of_run fun bus =>
        congrArg (Prog.run · bus) window
    | word =>
      have window : (Memory.writeU32 addr val : Prog Bus ε _) = jsWriteMmio addr 4 val := if_pos ram
      exact (shown_tell (.writeMmio addr 4 val)).of_run fun bus => congrArg (Prog.run · bus) window
  · exact (shown_writeEach addr _).of_run fun bus => writeAt_bytewise bus w ram val

theorem shown_readBytes (addr : U32) (len : Nat) :
    Blind Bus.shown (Memory.readBytes host addr len : Prog Bus ε _) :=
  (shown_readEach host addr len).of_run fun bus => readBytes_each host bus addr len

theorem shown_writeBytes (addr : U32) (bytes : List U8) :
    Blind Bus.shown (Memory.writeBytes addr bytes : Prog Bus ε _) :=
  (shown_writeEach addr bytes).of_run fun bus => writeBytes_each bus addr bytes

theorem shown_getBrk : Blind Bus.shown (Memory.getBrk : Prog Bus ε _) :=
  blind_of_ok (fun bus => bus.mem.brkPtr) id (fun _ => rfl) fun _ _ same =>
    ⟨brkPtr_of_shown same, same⟩

theorem shown_setBrk (val : U32) : Blind Bus.shown (Memory.setBrk val : Prog Bus ε _) := by
  refine blind_look id (fun _ => rfl) (fun bus bus' same => ?_) fun bus => ?_
  · dsimp only [id]
    rw [initialBrk_of_shown same]
  · split
    · refine blind_modify fun bus bus' same => ?_
      have flat : bus.mem.flat = bus'.mem.flat := flat_of_shown same
      have initial : bus.mem.initialBrk = bus'.mem.initialBrk := initialBrk_of_shown same
      have world : bus.world = bus'.world := world_of_shown same
      exact Bus.shown_ext flat rfl initial world
    · exact blind_pure ()

end Accesses

end RiscvRs
