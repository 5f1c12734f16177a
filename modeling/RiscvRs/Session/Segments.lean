import RiscvRs.Session.Loading

/-! The memory image of a linked file. -/

namespace RiscvRs

open Effects Prog

section Image

/-- The segment is loaded, and `a` is one of its addresses. -/
def ProgramHeader.Covers (bytes : List U8) (a : U32) (phdr : ProgramHeader) : Prop :=
  (phdr.pType = ptLoad ∧ phdr.pOffset.toNat + phdr.pFilesz.toNat ≤ bytes.length) ∧
    phdr.pVaddr.toNat ≤ a.toNat ∧ a.toNat < phdr.pVaddr.toNat + phdr.pFilesz.toNat

instance (bytes : List U8) (a : U32) (phdr : ProgramHeader) : Decidable (phdr.Covers bytes a) :=
  inferInstanceAs (Decidable (_ ∧ _))

/-- The byte of the file that a segment has at one of its addresses. -/
def ProgramHeader.byteAt (bytes : List U8) (a : U32) (phdr : ProgramHeader) : U8 :=
  bytes.getD (phdr.pOffset.toNat + (a.toNat - phdr.pVaddr.toNat)) 0

/-- The image of a linked file: the last segment in header order decides, and nothing is zero. -/
def imageByte (bytes : List U8) (headers : List ProgramHeader) (a : U32) : U8 :=
  match (headers.filter fun phdr => phdr.Covers bytes a).getLast? with
  | some phdr => phdr.byteAt bytes a
  | none => 0

/-- What a header lays over memory. -/
def ProgramHeader.piece (bytes : List U8) (phdr : ProgramHeader) : U32 → Option U8 := fun a =>
  if phdr.Covers bytes a then some (phdr.byteAt bytes a) else none

theorem stack_pieces (bytes : List U8) (headers : List ProgramHeader) (a : U32) :
    Image.stack (fun _ => 0) (headers.map fun phdr => phdr.piece bytes) a =
      imageByte bytes headers a := by
  have covering : (headers.map fun phdr => phdr.piece bytes).filterMap (· a) =
      (headers.filter fun phdr => phdr.Covers bytes a).map fun phdr => phdr.byteAt bytes a := by
    induction headers with
    | nil => rfl
    | cons phdr rest ih =>
      simp only [List.map_cons, List.filterMap_cons, ProgramHeader.piece, List.filter_cons,
        decide_eq_true_eq]
      by_cases here : phdr.Covers bytes a
      · simp only [if_pos here, List.map_cons]
        rw [← ih]
      · simp only [if_neg here]
        exact ih
  rw [Image.stack_apply, covering, List.getLast?_map, imageByte]
  cases (headers.filter fun phdr => phdr.Covers bytes a).getLast? <;> rfl

/-- Where a header loads nothing. -/
theorem ProgramHeader.piece_none {bytes : List U8} {phdr : ProgramHeader}
    (skipped : ¬(phdr.pType = ptLoad ∧ phdr.pOffset.toNat + phdr.pFilesz.toNat ≤ bytes.length))
    (base : U32 → U8) :
    Image.lay base (phdr.piece bytes) = base := by
  funext a
  rw [Image.lay, piece, if_neg fun covers => skipped covers.1]
  rfl

/-- A loaded segment is a window of the file. -/
theorem ProgramHeader.piece_window {bytes : List U8} {phdr : ProgramHeader}
    (loaded : phdr.pType = ptLoad ∧ phdr.pOffset.toNat + phdr.pFilesz.toNat ≤ bytes.length) :
    phdr.piece bytes = window bytes phdr.pOffset.toNat phdr.pVaddr.toNat phdr.pFilesz.toNat := by
  funext a
  rw [piece, window]
  exact if_congr (and_iff_right loaded) rfl rfl

end Image

section Run

variable {env : Env} {bytes : List U8}

/-- A segment that ends below the window, with an offset and a size that add up in a `usize`. -/
def ProgramHeader.Plain (build : Build) (phdr : ProgramHeader) : Prop :=
  phdr.pType = ptLoad → phdr.pVaddr.toNat + phdr.pFilesz.toNat ≤ 0xFFFF0000 ∧
    build.Fits phdr.pOffset.toNat phdr.pFilesz.toNat

theorem toUsize_of_lt {build : Build} {val : U64} (small : val.toNat < 2 ^ build.usizeBits) :
    build.toUsize val = val.toNat :=
  Nat.mod_eq_of_lt small

/-- One header: its piece is laid over memory. -/
theorem loadSegments_step {phdr : ProgramHeader} (plain : phdr.Plain env.build)
    (rest : List ProgramHeader)
    (s : Simulator) : ∃ bus,
      (loadSegments env bytes (phdr :: rest)).run s = (loadSegments env bytes rest).run
        (s.withBus bus) ∧
        bus.mem.flat = Image.lay s.tracked.machine.bus.mem.flat (phdr.piece bytes) ∧
        s.tracked.machine.bus.Recopied bus := by
  by_cases load : phdr.pType = ptLoad
  · obtain ⟨below, fits⟩ := plain load
    have offset : env.build.toUsize phdr.pOffset = phdr.pOffset.toNat :=
      toUsize_of_lt (Nat.lt_of_le_of_lt (Nat.le_add_right _ _) fits)
    have size : env.build.toUsize phdr.pFilesz = phdr.pFilesz.toNat :=
      toUsize_of_lt (Nat.lt_of_le_of_lt (Nat.le_add_left _ _) fits)
    have sum : env.build.Fits (env.build.toUsize phdr.pOffset)
      (env.build.toUsize phdr.pFilesz) := by
      rwa [offset, size]
    by_cases inside : phdr.pOffset.toNat + phdr.pFilesz.toNat ≤ bytes.length
    · have vaddr : (phdr.pVaddr.setWidth 32).toNat = phdr.pVaddr.toNat := by
        rw [BitVec.toNat_setWidth]
        exact Nat.mod_eq_of_lt (by omega)
      obtain ⟨bus, copied, flat, recopied⟩ :=
        run_copy_ram inside (phdr.pVaddr.setWidth 32) (by rwa [vaddr]) s
      refine ⟨bus, ?_, ?_, recopied⟩
      · rw [loadSegments_inside load sum (by rwa [offset, size]), offset, size, run_bind, copied,
          Outcome.andThen_ok]
      · rw [flat, vaddr, ProgramHeader.piece_window ⟨load, inside⟩]
    · refine ⟨s.tracked.machine.bus, ?_,
        (ProgramHeader.piece_none (fun loaded => inside loaded.2) _).symm, .refl _⟩
      rw [loadSegments_outside load sum (by rw [offset, size]; omega)]
      rfl
  · refine ⟨s.tracked.machine.bus, ?_,
      (ProgramHeader.piece_none (fun loaded => load loaded.1) _).symm, .refl _⟩
    rw [loadSegments_other load]
    rfl

/-- All headers: their pieces are laid over memory in order. -/
theorem loadSegments_laid (bytes : List U8) {headers : List ProgramHeader}
    (plain : ∀ phdr ∈ headers, phdr.Plain env.build)
    (s : Simulator) : ∃ bus, (loadSegments env bytes headers).run s = .ok () (s.withBus bus) ∧
      bus.mem.flat = Image.stack s.tracked.machine.bus.mem.flat
        (headers.map fun phdr => phdr.piece bytes) ∧
      s.tracked.machine.bus.Recopied bus := by
  induction headers generalizing s with
  | nil => exact ⟨s.tracked.machine.bus, rfl, rfl, .refl _⟩
  | cons phdr rest ih =>
    obtain ⟨bus, step, laid, recopied⟩ := loadSegments_step (plain phdr List.mem_cons_self) rest s
    obtain ⟨bus', run, stacked, again⟩ :=
      ih (fun other member => plain other (List.mem_cons_of_mem _ member)) (s.withBus bus)
    refine ⟨bus', step.trans run, ?_, recopied.trans again⟩
    rw [stacked, List.map_cons, Image.stack, Image.stack, List.foldl_cons, ← laid]
    rfl

theorem loadSegments_stack (bytes : List U8) {headers : List ProgramHeader}
    (plain : ∀ phdr ∈ headers, phdr.Plain env.build)
    (s : Simulator) : ∃ bus, (loadSegments env bytes headers).run s = .ok () (s.withBus bus) ∧
      bus.mem.flat = Image.stack s.tracked.machine.bus.mem.flat
        (headers.map fun phdr => phdr.piece bytes) := by
  obtain ⟨bus, run, stacked, -⟩ := loadSegments_laid bytes plain s
  exact ⟨bus, run, stacked⟩

/-- Loading a linked file produces its memory image, whatever was in the simulator before: every
byte of RAM is that of the last loaded segment that contains its address, and zero where there
is none. -/
theorem linked_image (env : Env) (bytes : List U8) (parse : ElfParser) {elf : Elf}
    (parsed : parse bytes = some elf)
    (linked : elf.programHeaders ≠ [])
    (below : ∀ phdr ∈ elf.programHeaders, phdr.pType = ptLoad →
      phdr.pVaddr.toNat + phdr.pFilesz.toNat ≤ 0xFFFF0000)
    (fits : ∀ phdr ∈ elf.programHeaders, phdr.pType = ptLoad →
      phdr.pOffset.toNat + phdr.pFilesz.toNat < 2 ^ env.build.usizeBits)
    (args : List Text) (s : Simulator) :
    ∃ entry s', (loadBinaryWithArgs env bytes parse args).run s = .ok entry s' ∧
      ∀ a : U32, a.toNat < 0xFFFF0000 →
        (Memory.readU8 env.host a : Prog Bus Empty _).run s'.tracked.machine.bus =
          .ok (imageByte bytes elf.programHeaders a) s'.tracked.machine.bus := by
  obtain ⟨cpu, start⟩ := loadBinaryWithArgs_run env bytes parse args s
  obtain ⟨bus, run, stacked⟩ := loadSegments_stack bytes
    (fun phdr member load => ⟨below phdr member load, fits phdr member load⟩)
    { s.reset with tracked := s.reset.tracked.withCpu cpu }
  obtain ⟨entry, s', loaded, kept⟩ := loadElf_linked linked run
  rw [parsed] at start
  refine ⟨entry, s', start.trans loaded, fun a ram => ?_⟩
  have inRam : ¬a ≥ mmioBase := fun window => Nat.not_le_of_lt ram ((mmioBase_le_iff a).mp window)
  have image : s'.tracked.machine.bus.mem.flat a = imageByte bytes elf.programHeaders a := by
    rw [← stack_pieces, ← funext flat_new, kept]
    exact congrFun stacked a
  rw [readU8_ram env.host _ inRam, image]

/-- A 32-bit executable with two segments of one stretch of the file: the header, two program
headers and four bytes. -/
def overlapping : List U8 :=
  [0x464C457F, 0x00010101, 0, 0, 0x00F30002, 1, 0x10000, 0x34, 0, 0, 0x00200034, 0x00280002, 0,
    1, 0x74, 0x10000, 0x10000, 4, 4, 5, 4,
    1, 0x74, 0x10002, 0x10002, 2, 4, 6, 2,
    0x04030201].flatMap fun word : U32 => leBytes word 4

def overlappingElf : Elf where
  eEntry := 0x10000
  programHeaders := [⟨ptLoad, 0x74, 4, 0x10000⟩, ⟨ptLoad, 0x74, 2, 0x10002⟩]
  sectionHeaders := []
  syms := []
  strtab := fun _ => none

/-- The browser build. -/
def Env.wasm : Env := { (default : Env) with build := ⟨false, 32⟩ }

/-- The second segment lies over the end of the first, and the byte behind both is zero. -/
theorem linked_image_overlapping : ∃ entry s',
    (loadBinaryWithArgs Env.wasm overlapping (fun _ => some overlappingElf) []).run Simulator.new =
      .ok entry s' ∧
      (Memory.readU8 default 0x10001 : Prog Bus Empty _).run s'.tracked.machine.bus =
        .ok 2 s'.tracked.machine.bus ∧
      (Memory.readU8 default 0x10002 : Prog Bus Empty _).run s'.tracked.machine.bus =
        .ok 1 s'.tracked.machine.bus ∧
      (Memory.readU8 default 0x10004 : Prog Bus Empty _).run s'.tracked.machine.bus =
        .ok 0 s'.tracked.machine.bus := by
  have first : imageByte overlapping overlappingElf.programHeaders 0x10001 = 2 := by decide +kernel
  have second : imageByte overlapping overlappingElf.programHeaders 0x10002 = 1 := by decide +kernel
  have behind : imageByte overlapping overlappingElf.programHeaders 0x10004 = 0 := by decide +kernel
  obtain ⟨entry, s', run, image⟩ :=
    linked_image Env.wasm overlapping (fun _ => some overlappingElf) rfl nofun
    (by decide) (by decide) [] Simulator.new
  refine ⟨entry, s', run, ?_, ?_, ?_⟩
  · rw [← first]
    exact image 0x10001 (by decide)
  · rw [← second]
    exact image 0x10002 (by decide)
  · rw [← behind]
    exact image 0x10004 (by decide)

end Run

end RiscvRs
