import RiscvRs.Machine.Host
import RiscvRs.Lib.Table

/-! The paged memory of `memory.rs`. Page-table and page indices are checked, so
an index out of bounds is a panic of the model as it is one of the program. -/

namespace RiscvRs

open Effects Prog

def pageSize : Nat := 65536
def pageMask : U32 := 0xFFFF
def pageShift : Nat := 16
def mmioBase : U32 := 0xFFFF0000

abbrev Page := Table U8 pageSize

/-- Pages are allocated on first write; `Memory::new` makes 65536 entries and
nothing resizes the table afterwards. -/
structure Memory where
  pages : Table (Option Page) 65536
  brkPtr : U32
  initialBrk : U32

def Memory.new : Memory where
  pages := Table.replicate 65536 none
  brkPtr := 0x1000000
  initialBrk := 0x1000000

/-- Memory together with the host behind the MMIO window. -/
structure Bus where
  mem : Memory
  world : World

def Bus.record (bus : Bus) (event : IoEvent) : Bus :=
  { bus with world := { bus.world with io := event :: bus.world.io } }

def idxOf (addr : U32) : Nat := (addr >>> pageShift).toNat

def offsetOf (addr : U32) : Nat := (addr &&& pageMask).toNat

/-- Byte `i` of a little-endian value, as `to_le_bytes` numbers them. -/
def leByte {w : Nat} (val : BitVec w) (i : Nat) : U8 := val.extractLsb' (8 * i) 8

def fromLeBytes16 (b0 b1 : U8) : U16 := b1 ++ b0

def fromLeBytes32 (b0 b1 b2 b3 : U8) : U32 := b3 ++ b2 ++ b1 ++ b0

section Ops

variable {ε : Type} (host : Host)

def jsReadMmio (addr size : U32) : Prog Bus ε U32 := do
  let bus ← get
  let val := host.readMmio bus.world.io addr size
  modify (·.record (.readMmio addr size val))
  return val

def jsWriteMmio (addr size val : U32) : Prog Bus ε Unit :=
  modify (·.record (.writeMmio addr size val))

namespace Memory

def getPage (pageIdx : Nat) : Prog Bus ε (Option Page) := do
  let bus ← get
  expect (bus.mem.pages.get? pageIdx)

def putPage (pageIdx : Nat) (page : Page) : Prog Bus ε Unit := do
  let bus ← get
  let pages ← expect (bus.mem.pages.set? pageIdx (some page))
  modify fun bus => { bus with mem := { bus.mem with pages := pages } }

/-- The page to write to. The caller stores the changed page back with `putPage`,
where the program writes through the reference. -/
def getOrCreatePage (pageIdx : Nat) : Prog Bus ε Page := do
  match ← getPage pageIdx with
  | some page => return page
  | none =>
    putPage pageIdx (Table.replicate pageSize 0)
    return Table.replicate pageSize 0

/-- `u16::from_le_bytes` of two indexed bytes of a page. -/
def pageU16 (page : Page) (offset : Nat) : Prog Bus ε U16 := do
  let b0 ← expect (page.get? offset)
  let b1 ← expect (page.get? (offset + 1))
  return fromLeBytes16 b0 b1

/-- `u32::from_le_bytes` of four indexed bytes of a page. -/
def pageU32 (page : Page) (offset : Nat) : Prog Bus ε U32 := do
  let b0 ← expect (page.get? offset)
  let b1 ← expect (page.get? (offset + 1))
  let b2 ← expect (page.get? (offset + 2))
  let b3 ← expect (page.get? (offset + 3))
  return fromLeBytes32 b0 b1 b2 b3

def readU8 (addr : U32) : Prog Bus ε U8 := do
  if addr ≥ mmioBase then
    return ((← jsReadMmio host addr 1) &&& 0xFF).setWidth 8
  else
    match ← getPage (idxOf addr) with
    | some page => expect (page.get? (offsetOf addr))
    | none => return 0

def writeU8 (addr : U32) (val : U8) : Prog Bus ε Unit := do
  if addr ≥ mmioBase then
    jsWriteMmio addr 1 (val.setWidth 32)
  else
    let page ← getOrCreatePage (idxOf addr)
    let page ← expect (page.set? (offsetOf addr) val)
    putPage (idxOf addr) page

def readU16 (addr : U32) : Prog Bus ε U16 := do
  if addr ≥ mmioBase then
    return ((← jsReadMmio host addr 2) &&& 0xFFFF).setWidth 16
  else
    let offset := offsetOf addr
    if addr &&& 1 = 0 ∨ offset + 1 < pageSize then
      match ← getPage (idxOf addr) with
      | some page => pageU16 page offset
      | none => return 0
    else
      let b0 := (← readU8 host addr).setWidth 16
      let b1 := (← readU8 host (addr + 1)).setWidth 16
      return b0 ||| (b1 <<< 8)

def writeU16 (addr : U32) (val : U16) : Prog Bus ε Unit := do
  if addr ≥ mmioBase then
    jsWriteMmio addr 2 (val.setWidth 32)
  else
    let offset := offsetOf addr
    if addr &&& 1 = 0 ∨ offset + 1 < pageSize then
      let page ← getOrCreatePage (idxOf addr)
      let page ← expect (page.set? offset (leByte val 0))
      let page ← expect (page.set? (offset + 1) (leByte val 1))
      putPage (idxOf addr) page
    else
      writeU8 addr (leByte val 0)
      writeU8 (addr + 1) (leByte val 1)

def readU32 (addr : U32) : Prog Bus ε U32 := do
  if addr ≥ mmioBase then
    jsReadMmio host addr 4
  else
    let offset := offsetOf addr
    if addr &&& 3 = 0 ∨ offset + 3 < pageSize then
      match ← getPage (idxOf addr) with
      | some page => pageU32 page offset
      | none => return 0
    else
      let b0 := (← readU8 host addr).setWidth 32
      let b1 := (← readU8 host (addr + 1)).setWidth 32
      let b2 := (← readU8 host (addr + 2)).setWidth 32
      let b3 := (← readU8 host (addr + 3)).setWidth 32
      return b0 ||| (b1 <<< 8) ||| (b2 <<< 16) ||| (b3 <<< 24)

def writeU32 (addr : U32) (val : U32) : Prog Bus ε Unit := do
  if addr ≥ mmioBase then
    jsWriteMmio addr 4 val
  else
    let offset := offsetOf addr
    if addr &&& 3 = 0 ∨ offset + 3 < pageSize then
      let page ← getOrCreatePage (idxOf addr)
      let page ← expect (page.set? offset (leByte val 0))
      let page ← expect (page.set? (offset + 1) (leByte val 1))
      let page ← expect (page.set? (offset + 2) (leByte val 2))
      let page ← expect (page.set? (offset + 3) (leByte val 3))
      putPage (idxOf addr) page
    else
      writeU8 addr (leByte val 0)
      writeU8 (addr + 1) (leByte val 1)
      writeU8 (addr + 2) (leByte val 2)
      writeU8 (addr + 3) (leByte val 3)

/-- The low halfword at `addr`, and whether the high one came with it. -/
def fetchWindow (addr : U32) : Prog Bus ε (U32 × Bool) := do
  let offset := offsetOf addr
  if addr < mmioBase ∧ offset + 3 < pageSize then
    match ← getPage (idxOf addr) with
    | some page => return (← pageU32 page offset, true)
    | none => return (0, false)
  else
    return ((← readU16 host addr).setWidth 32, false)

/-- `read_u8` at `addr`, `addr + 1`, … for `count` bytes. -/
def readEach (addr : U32) : Nat → Prog Bus ε (List U8)
  | 0 => return []
  | count + 1 => do
    let item ← readU8 host addr
    let rest ← readEach (addr + 1) count
    return item :: rest

/-- The page-coalescing loop of `read_bytes`; an iteration fills at least one
byte, so the buffer length is fuel enough. -/
def readBytesLoop : Nat → U32 → Nat → List U8 → Prog Bus ε (List U8)
  | 0, _, offsetInBuf, buf => if offsetInBuf < buf.length then exhausted else return buf
  | fuel + 1, currAddr, offsetInBuf, buf => do
    if offsetInBuf < buf.length then
      if currAddr ≥ mmioBase then
        let tail ← readEach host currAddr (buf.length - offsetInBuf)
        expect (splice? buf offsetInBuf tail)
      else
        let pageOffset := offsetOf currAddr
        let bytesInPage := min (pageSize - pageOffset) (buf.length - offsetInBuf)
        let chunk ← match ← getPage (idxOf currAddr) with
          | some page => expect (page.slice? pageOffset bytesInPage)
          | none => pure (List.replicate bytesInPage 0)
        let buf ← expect (splice? buf offsetInBuf chunk)
        readBytesLoop fuel (currAddr + BitVec.ofNat 32 bytesInPage) (offsetInBuf + bytesInPage) buf
    else
      return buf

def readBytes (addr : U32) (len : Nat) : Prog Bus ε (List U8) :=
  readBytesLoop host len addr 0 (List.replicate len 0)

/-- `write_u8` at `addr`, `addr + 1`, … for each byte. -/
def writeEach (addr : U32) : List U8 → Prog Bus ε Unit
  | [] => return ()
  | b :: bytes => do
    writeU8 addr b
    writeEach (addr + 1) bytes

/-- The page-coalescing loop of `write_bytes`, with the source length as fuel. -/
def writeBytesLoop (bytes : List U8) : Nat → U32 → Nat → Prog Bus ε Unit
  | 0, _, offsetInSrc => if offsetInSrc < bytes.length then exhausted else return ()
  | fuel + 1, currAddr, offsetInSrc => do
    if offsetInSrc < bytes.length then
      if currAddr ≥ mmioBase then
        writeEach currAddr (bytes.drop offsetInSrc)
      else
        let pageOffset := offsetOf currAddr
        let bytesInPage := min (pageSize - pageOffset) (bytes.length - offsetInSrc)
        let page ← getOrCreatePage (idxOf currAddr)
        let chunk ← expect (sliceOf? bytes offsetInSrc bytesInPage)
        let page ← expect (page.blit? pageOffset chunk)
        putPage (idxOf currAddr) page
        writeBytesLoop bytes fuel (currAddr + BitVec.ofNat 32 bytesInPage)
          (offsetInSrc + bytesInPage)
    else
      return ()

def writeBytes (addr : U32) (bytes : List U8) : Prog Bus ε Unit :=
  writeBytesLoop bytes bytes.length addr 0

def getBrk : Prog Bus ε U32 := do
  return (← get).mem.brkPtr

def setBrk (val : U32) : Prog Bus ε Unit := do
  let bus ← get
  if val ≥ bus.mem.initialBrk ∧ val < mmioBase then
    modify fun bus => { bus with mem := { bus.mem with brkPtr := val } }

end Memory

end Ops

end RiscvRs
