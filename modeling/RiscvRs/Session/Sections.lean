import RiscvRs.Session.Segments

/-! The layout of an object file: where its sections go, and what they hold there. -/

namespace RiscvRs

open Effects Prog

section Layout

/-- The section takes part in the layout. -/
def SectionHeader.Loaded (shdr : SectionHeader) : Prop :=
  0 < shdr.shSize.toNat ∧ (shdr.shFlags &&& 2 ≠ 0 ∨ shdr.shType = shtProgbits)

instance (shdr : SectionHeader) : Decidable shdr.Loaded := inferInstanceAs (Decidable (_ ∧ _))

/-- An alignment of zero stands for four. -/
def SectionHeader.alignment (shdr : SectionHeader) : Nat :=
  if shdr.shAddralign = 0 then 4 else shdr.shAddralign.toNat

/-- The alignment and the size of a section that takes part. -/
def SectionHeader.want (shdr : SectionHeader) : Option (Nat × Nat) :=
  if shdr.Loaded then some (shdr.alignment, shdr.shSize.toNat) else none

/-- A section of an object file, with its content in the file. -/
structure SectionHeader.Relocatable (bytes : List U8) (shdr : SectionHeader) : Prop where
  addr : shdr.shAddr = 0
  align : shdr.shAddralign = 0 ∨ ∃ k, shdr.shAddralign.toNat = 2 ^ k ∧ 2 ^ k ≤ 65536
  range : shdr.shType ≠ shtNobits → shdr.shOffset.toNat + shdr.shSize.toNat ≤ bytes.length

/-- The address that a place becomes in `section_addrs`; a section left out has zero. -/
def placeAddr (place : Option Nat) : U32 := BitVec.ofNat 32 (place.getD 0)

/-- What a section lays over memory at its place. -/
def SectionHeader.piece (bytes : List U8) (shdr : SectionHeader) : Option Nat → U32 → Option U8
  | some a => if shdr.shType = shtNobits then fun _ => none
    else window bytes shdr.shOffset.toNat a shdr.shSize.toNat
  | none => fun _ => none

/-- Every laid-out section ends below the window. -/
def EndsBelow (start : Nat) (headers : List SectionHeader) : Prop :=
  ∀ (i : Nat) (shdr : SectionHeader) (a : Nat), headers[i]? = some shdr →
    (Image.layOut SectionHeader.want start headers)[i]? = some (some a) →
    a + shdr.shSize.toNat ≤ 0xFFFF0000

variable {shdr : SectionHeader} {rest : List SectionHeader} {start : Nat}

theorem layOut_loaded (loaded : shdr.Loaded) :
    Image.layOut SectionHeader.want start (shdr :: rest) =
    some (Image.alignUp shdr.alignment start) ::
      Image.layOut SectionHeader.want
        (Image.alignUp shdr.alignment start + shdr.shSize.toNat) rest := by
  rw [Image.layOut, SectionHeader.want, if_pos loaded]

theorem layOut_left_out (out : ¬shdr.Loaded) :
    Image.layOut SectionHeader.want start (shdr :: rest) =
    none :: Image.layOut SectionHeader.want start rest := by
  rw [Image.layOut, SectionHeader.want, if_neg out]

theorem EndsBelow.head (ends : EndsBelow start (shdr :: rest)) (loaded : shdr.Loaded) :
    Image.alignUp shdr.alignment start + shdr.shSize.toNat ≤ 0xFFFF0000 :=
  ends 0 shdr _ rfl (by rw [layOut_loaded loaded]; rfl)

theorem EndsBelow.tail (ends : EndsBelow start (shdr :: rest)) (loaded : shdr.Loaded) :
    EndsBelow (Image.alignUp shdr.alignment start + shdr.shSize.toNat) rest :=
  fun i other a at_ place => ends (i + 1) other a at_ (by rw [layOut_loaded loaded]; exact place)

theorem EndsBelow.tail_left_out (ends : EndsBelow start (shdr :: rest)) (out : ¬shdr.Loaded) :
    EndsBelow start rest :=
  fun i other a at_ place => ends (i + 1) other a at_ (by rw [layOut_left_out out]; exact place)

end Layout

section Alignment

variable {bytes : List U8} {shdr : SectionHeader}

/-- The alignment is a power of two that the 32-bit arithmetic sees as it is. -/
theorem SectionHeader.Relocatable.power (plain : shdr.Relocatable bytes) :
    ∃ k, k ≤ 16 ∧ shdr.alignment = 2 ^ k ∧ shdr.align = BitVec.ofNat 32 (2 ^ k) := by
  unfold alignment SectionHeader.align
  rcases plain.align with zero | ⟨k, power, small⟩
  · rw [if_pos zero, zero]
    exact ⟨2, by omega, rfl, rfl⟩
  · have positive : shdr.shAddralign.toNat ≠ 0 := by
      rw [power]
      exact (Nat.two_pow_pos k).ne'
    have some : shdr.shAddralign ≠ 0 := by
      rintro zero
      rw [zero] at positive
      exact positive rfl
    have given : shdr.shAddralign > 0 := by
      rw [GT.gt, BitVec.lt_def]
      exact Nat.pos_of_ne_zero positive
    refine ⟨k, (Nat.pow_le_pow_iff_right (by omega)).mp (show 2 ^ k ≤ 2 ^ 16 from small), ?_, ?_⟩
    · rw [if_neg some, power]
    · rw [if_pos given, ← power]
      rfl

theorem SectionHeader.Relocatable.positive (plain : shdr.Relocatable bytes) :
    0 < shdr.alignment := by
  obtain ⟨k, -, power, -⟩ := plain.power
  rw [power]
  exact Nat.two_pow_pos k

/-- Below the window the machine's next aligned address is the mathematical one. -/
theorem SectionHeader.Relocatable.assigned_toNat (plain : shdr.Relocatable bytes)
    (currentAddr : U32)
    (below : Image.alignUp shdr.alignment currentAddr.toNat < 0xFFFF0000) :
    currentAddr.toNat + shdr.align.toNat < 2 ^ 32 ∧ 1 ≤ shdr.align.toNat ∧
      (shdr.assigned currentAddr).toNat = Image.alignUp shdr.alignment currentAddr.toNat := by
  obtain ⟨k, small, power, align⟩ := plain.power
  have least := Image.le_alignUp plain.positive currentAddr.toNat
  have bound : 2 ^ k ≤ 65536 := Nat.pow_le_pow_right (by omega) small
  have one : 1 ≤ 2 ^ k := Nat.one_le_two_pow
  have value : shdr.align.toNat = 2 ^ k := by
    rw [align, BitVec.toNat_ofNat]
    exact Nat.mod_eq_of_lt (by omega)
  have sum : currentAddr.toNat + shdr.align.toNat < 2 ^ 32 := by omega
  have padded : (currentAddr + shdr.align - 1).toNat = currentAddr.toNat + 2 ^ k - 1 := by
    have whole : (currentAddr + shdr.align).toNat = currentAddr.toNat + 2 ^ k := by
      rw [BitVec.toNat_add_of_lt sum, value]
    rw [BitVec.toNat_sub_of_le
      (by rw [BitVec.le_def, whole]; exact Nat.le_trans one (Nat.le_add_left _ _)), whole]
    rfl
  refine ⟨sum, by omega, ?_⟩
  rw [SectionHeader.assigned, align, Image.toNat_and_not_mask (by omega), ← align, padded,
    Image.alignUp, power]

end Alignment

section Run

variable {env : Env} {bytes : List U8}

/-- What the sections lay over memory, in header order. -/
def sectionPieces (bytes : List U8) (start : Nat) (headers : List SectionHeader) :
    List (U32 → Option U8) :=
  List.zipWith (SectionHeader.piece bytes) headers (Image.layOut SectionHeader.want start headers)

/-- A loaded section: it goes to the next aligned address, and its piece is laid over memory. -/
theorem loadSections_step {shdr : SectionHeader} (loaded : shdr.Loaded)
    (plain : shdr.Relocatable bytes)
    (wide : 32 ≤ env.build.usizeBits) (short : bytes.length < 2 ^ env.build.usizeBits)
    {currentAddr : U32}
    (below : Image.alignUp shdr.alignment currentAddr.toNat + shdr.shSize.toNat ≤ 0xFFFF0000)
    (rest : List SectionHeader) (sectionAddrs : List U32) (s : Simulator) :
    ∃ next bus, next.toNat = Image.alignUp shdr.alignment currentAddr.toNat + shdr.shSize.toNat ∧
      (loadSections env bytes (shdr :: rest) currentAddr sectionAddrs).run s =
        (loadSections env bytes rest next
          (sectionAddrs ++ [placeAddr (some (Image.alignUp shdr.alignment currentAddr.toNat))])).run
            (s.withBus bus) ∧
      bus.mem.flat = Image.lay s.tracked.machine.bus.mem.flat
        (shdr.piece bytes (some (Image.alignUp shdr.alignment currentAddr.toNat))) ∧
      s.tracked.machine.bus.Recopied bus := by
  have room := loaded.1
  obtain ⟨sum, positive, assigned⟩ := plain.assigned_toNat currentAddr (by omega)
  have host : 2 ^ 32 ≤ 2 ^ env.build.usizeBits := Nat.pow_le_pow_right (by omega) wide
  have size : env.build.toUsize shdr.shSize = shdr.shSize.toNat := toUsize_of_lt (by omega)
  have size32 : (shdr.size32 env.build).toNat = shdr.shSize.toNat := by
    rw [SectionHeader.size32, size, BitVec.toNat_ofNat]
    exact Nat.mod_eq_of_lt (by omega)
  have listed : shdr.Listed env.build := by
    refine ⟨?_, loaded.2⟩
    rw [size]
    exact room
  have placeable : shdr.Placeable env.build currentAddr :=
    ⟨sum, positive, by rw [assigned, size32]; omega⟩
  have placed := placeSection_next plain.addr placeable
  have addr : shdr.assigned currentAddr = placeAddr
    (some (Image.alignUp shdr.alignment currentAddr.toNat)) := by
    rw [placeAddr, Option.getD_some, ← assigned, BitVec.ofNat_toNat, BitVec.setWidth_eq]
  have next : (shdr.assigned currentAddr + shdr.size32 env.build).toNat =
      Image.alignUp shdr.alignment currentAddr.toNat + shdr.shSize.toNat := by
    rw [BitVec.toNat_add_of_lt (by rw [assigned, size32]; omega), assigned, size32]
  by_cases nobits : shdr.shType = shtNobits
  · refine ⟨_, s.tracked.machine.bus, next, ?_, ?_, .refl _⟩
    · rw [loadSections_nobits listed nobits, placed, pure_bind, addr]
      rfl
    · rw [SectionHeader.piece, if_pos nobits]
      rfl
  · have inside := plain.range nobits
    have offset : env.build.toUsize shdr.shOffset = shdr.shOffset.toNat := toUsize_of_lt (by omega)
    have fits : env.build.Fits (env.build.toUsize shdr.shOffset)
      (env.build.toUsize shdr.shSize) := by
      rw [offset, size]
      exact Nat.lt_of_le_of_lt inside short
    obtain ⟨bus, copied, flat, recopied⟩ :=
      run_copy_ram inside (shdr.assigned currentAddr) (by rwa [assigned]) s
    refine ⟨_, bus, next, ?_, ?_, recopied⟩
    · rw [loadSections_inside listed nobits fits (by rwa [offset, size]), placed, pure_bind, offset,
        size, run_bind,
        copied, Outcome.andThen_ok, addr]
    · rw [SectionHeader.piece, if_neg nobits, flat, assigned]

theorem toUsize_zero {build : Build} {val : U64} (zero : val.toNat = 0) :
    build.toUsize val = 0 := by
  rw [Build.toUsize, zero, Nat.zero_mod]

theorem SectionHeader.not_listed {build : Build} {shdr : SectionHeader} (out : ¬shdr.Loaded) :
    ¬shdr.Listed build := by
  rintro ⟨size, kind⟩
  refine out ⟨Nat.pos_of_ne_zero fun zero => ?_, kind⟩
  rw [toUsize_zero zero] at size
  exact Nat.lt_irrefl 0 size

/-- All sections: the addresses are those of the layout, one for each header, and the pieces
are laid over memory in order. -/
theorem loadSections_laid (wide : 32 ≤ env.build.usizeBits)
    (short : bytes.length < 2 ^ env.build.usizeBits)
    {headers : List SectionHeader} (plain : ∀ shdr ∈ headers, shdr.Loaded → shdr.Relocatable bytes)
    (currentAddr : U32)
    (ends : EndsBelow currentAddr.toNat headers) (sectionAddrs : List U32) (s : Simulator) :
    ∃ bus, (loadSections env bytes headers currentAddr sectionAddrs).run s =
        .ok (sectionAddrs ++
          (Image.layOut SectionHeader.want currentAddr.toNat headers).map placeAddr)
          (s.withBus bus) ∧
      bus.mem.flat = Image.stack s.tracked.machine.bus.mem.flat
        (sectionPieces bytes currentAddr.toNat headers) ∧
      s.tracked.machine.bus.Recopied bus := by
  induction headers generalizing currentAddr sectionAddrs s with
  | nil =>
    refine ⟨s.tracked.machine.bus, ?_, rfl, .refl _⟩
    rw [Image.layOut, List.map_nil, List.append_nil]
    rfl
  | cons shdr rest ih =>
    have others : ∀ other ∈ rest, other.Loaded → other.Relocatable bytes :=
      fun other member => plain other (List.mem_cons_of_mem _ member)
    by_cases loaded : shdr.Loaded
    · obtain ⟨next, bus, value, step, laid, recopied⟩ :=
        loadSections_step loaded (plain shdr List.mem_cons_self loaded) wide
        short (ends.head loaded) rest sectionAddrs s
      obtain ⟨bus', run, stacked, again⟩ :=
        ih others next (value ▸ ends.tail loaded) _ (s.withBus bus)
      refine ⟨bus', ?_, ?_, recopied.trans again⟩
      · rw [step, run, layOut_loaded loaded, ← value, List.map_cons, List.append_assoc]
        rfl
      · rw [stacked, sectionPieces, sectionPieces, layOut_loaded loaded, ← value,
          List.zipWith_cons_cons, Image.stack,
          Image.stack, List.foldl_cons, ← laid]
        rfl
    · obtain ⟨bus, run, stacked, recopied⟩ :=
        ih others currentAddr (ends.tail_left_out loaded) (sectionAddrs ++ [0]) s
      refine ⟨bus, ?_, ?_, recopied⟩
      · rw [loadSections_unlisted (SectionHeader.not_listed loaded), run, layOut_left_out loaded,
          List.map_cons,
          List.append_assoc]
        rfl
      · rw [stacked, sectionPieces, sectionPieces, layOut_left_out loaded, List.zipWith_cons_cons,
          Image.stack,
          Image.stack, List.foldl_cons]
        rfl

theorem loadSections_stack (wide : 32 ≤ env.build.usizeBits)
    (short : bytes.length < 2 ^ env.build.usizeBits)
    {headers : List SectionHeader} (plain : ∀ shdr ∈ headers, shdr.Loaded → shdr.Relocatable bytes)
    (currentAddr : U32)
    (ends : EndsBelow currentAddr.toNat headers) (sectionAddrs : List U32) (s : Simulator) :
    ∃ bus, (loadSections env bytes headers currentAddr sectionAddrs).run s =
        .ok (sectionAddrs ++
          (Image.layOut SectionHeader.want currentAddr.toNat headers).map placeAddr)
          (s.withBus bus) ∧
      bus.mem.flat = Image.stack s.tracked.machine.bus.mem.flat
        (sectionPieces bytes currentAddr.toNat headers) := by
  obtain ⟨bus, run, stacked, -⟩ :=
    loadSections_laid wide short plain currentAddr ends sectionAddrs s
  exact ⟨bus, run, stacked⟩

end Run

section Object

/-- What a load makes of an object file: `sectionAddrs` has one entry for each header, loaded
sections lie behind one another at aligned addresses and hold their content, and a symbol of a
loaded section stands at the section's address plus its value. -/
structure LaysOut (env : Env) (bytes : List U8) (elf : Elf) (sectionAddrs : List U32)
    (s' : Simulator) : Prop where
  length : sectionAddrs.length = elf.sectionHeaders.length
  placed : ∀ (i : Nat) (shdr : SectionHeader), elf.sectionHeaders[i]? = some shdr → shdr.Loaded →
    0x10000 ≤ (sectionAddrs.getD i 0).toNat ∧ shdr.alignment ∣ (sectionAddrs.getD i 0).toNat
  /-- The addresses increase, and no two sections overlap. -/
  apart : ∀ (i j : Nat) (shdr other : SectionHeader), i < j → elf.sectionHeaders[i]? = some shdr →
    elf.sectionHeaders[j]? = some other → shdr.Loaded → other.Loaded →
    (sectionAddrs.getD i 0).toNat + shdr.shSize.toNat ≤ (sectionAddrs.getD j 0).toNat
  content : ∀ (i : Nat) (shdr : SectionHeader), elf.sectionHeaders[i]? = some shdr → shdr.Loaded →
    ∀ k < shdr.shSize.toNat,
      (Memory.readU8 env.host (sectionAddrs.getD i 0 + BitVec.ofNat 32 k) : Prog Bus Empty _).run
          s'.tracked.machine.bus =
        .ok (if shdr.shType = shtNobits then 0 else bytes.getD (shdr.shOffset.toNat + k) 0)
          s'.tracked.machine.bus
  /-- Of several symbols at one address, the last one in table order names it. -/
  symbols : ∀ (before after : List Sym) (sym : Sym) (name : Text) (shdr : SectionHeader),
    elf.syms = before ++ sym :: after → sym.name? elf.strtab = some name →
    elf.sectionHeaders[sym.stShndx]? = some shdr → shdr.Loaded →
    (∀ later ∈ after, later.name? elf.strtab ≠ none →
      later.objectAddr sectionAddrs ≠ sectionAddrs.getD sym.stShndx 0 + sym.stValue.setWidth 32) →
    s'.symbols (sectionAddrs.getD sym.stShndx 0 + sym.stValue.setWidth 32) = some name

variable {bytes : List U8} {headers : List SectionHeader} {start : Nat}

/-- The `section_addrs` of a layout. -/
def sectionAddrsOf (start : Nat) (headers : List SectionHeader) : List U32 :=
  (Image.layOut SectionHeader.want start headers).map placeAddr

theorem want_of_loaded {shdr : SectionHeader} (loaded : shdr.Loaded) :
    shdr.want = some (shdr.alignment, shdr.shSize.toNat) :=
  if_pos loaded

theorem loaded_of_want {shdr : SectionHeader} {w : Nat × Nat} (wanted : shdr.want = some w) :
    shdr.Loaded ∧ w = (shdr.alignment, shdr.shSize.toNat) := by
  rw [SectionHeader.want] at wanted
  split at wanted
  · next loaded => exact ⟨loaded, (Option.some_inj.mp wanted).symm⟩
  · cases wanted

theorem want_positive (plain : ∀ shdr ∈ headers, shdr.Loaded → shdr.Relocatable bytes) :
    ∀ shdr ∈ headers, ∀ w, shdr.want = some w → 0 < w.1 := by
  intro shdr member w wanted
  obtain ⟨loaded, rfl⟩ := loaded_of_want wanted
  exact (plain shdr member loaded).positive

/-- The address of a loaded section is its place in the layout. -/
theorem place_of_loaded (ends : EndsBelow start headers) {i : Nat} {shdr : SectionHeader}
    (here : headers[i]? = some shdr) (loaded : shdr.Loaded) :
    ∃ a, (Image.layOut SectionHeader.want start headers)[i]? = some (some a) ∧
      (sectionAddrsOf start headers)[i]? = some (placeAddr (some a)) ∧
      ((sectionAddrsOf start headers).getD i 0).toNat = a ∧ a + shdr.shSize.toNat ≤ 0xFFFF0000 := by
  obtain ⟨a, place⟩ := Image.layOut_placed start here (want_of_loaded loaded)
  have below := ends i shdr a here place
  have addr : (sectionAddrsOf start headers)[i]? = some (placeAddr (some a)) := by
    rw [sectionAddrsOf, List.getElem?_map, place]
    rfl
  refine ⟨a, place, addr, ?_, below⟩
  rw [List.getD_eq_getElem?_getD, addr, Option.getD_some, placeAddr, BitVec.toNat_ofNat,
    Option.getD_some]
  exact Nat.mod_eq_of_lt (by omega)

/-- A section has nothing at the addresses of another one: it ends before them or starts behind. -/
theorem piece_elsewhere (plain : ∀ shdr ∈ headers, shdr.Loaded → shdr.Relocatable bytes) {i j a k : Nat}
    {shdr other : SectionHeader} {position : Option Nat} (apart : i ≠ j)
    (here : headers[i]? = some shdr)
    (loaded : shdr.Loaded)
    (place : (Image.layOut SectionHeader.want start headers)[i]? = some (some a))
    (inside : k < shdr.shSize.toNat) (there : headers[j]? = some other)
    (placed : (Image.layOut SectionHeader.want start headers)[j]? = some position) {x : U32}
    (at_ : x.toNat = a + k) :
    other.piece bytes position x = none := by
  cases position with
  | none => rfl
  | some b =>
    rw [SectionHeader.piece]
    split
    · rfl
    · rw [window, if_neg]
      rintro ⟨least, most⟩
      rcases Nat.lt_or_gt_of_ne apart with earlier | later
      · have behind := Image.layOut_apart (want_positive plain) earlier place placed here
          (want_of_loaded loaded)
        omega
      · obtain ⟨item, align, size, found, wanted, -⟩ :=
          Image.layOut_place (want_positive plain) placed
        obtain rfl := Option.some_inj.mp (there.symm.trans found)
        have behind := Image.layOut_apart (want_positive plain) later placed place there wanted
        have same : size = other.shSize.toNat := (Prod.mk.inj (loaded_of_want wanted).2).2
        omega

/-- The pieces, by position. -/
theorem sectionPieces_at {j : Nat} {piece : U32 → Option U8} :
    (sectionPieces bytes start headers)[j]? = some piece ↔
    ∃ other position, headers[j]? = some other ∧
      (Image.layOut SectionHeader.want start headers)[j]? = some position ∧
        other.piece bytes position = piece := by
  rw [sectionPieces, List.getElem?_zipWith]
  constructor
  · intro found
    split at found
    · next other position there placed =>
        exact ⟨other, position, there, placed, Option.some_inj.mp found⟩
    · cases found
  · rintro ⟨other, position, there, placed, rfl⟩
    rw [there, placed]

/-- What a section holds: its own piece shows. -/
theorem stack_sections (plain : ∀ shdr ∈ headers, shdr.Loaded → shdr.Relocatable bytes) {i a k : Nat}
    {shdr : SectionHeader} (here : headers[i]? = some shdr) (loaded : shdr.Loaded)
    (place : (Image.layOut SectionHeader.want start headers)[i]? = some (some a))
    (inside : k < shdr.shSize.toNat)
    {x : U32} (at_ : x.toNat = a + k) :
    Image.stack (fun _ => 0) (sectionPieces bytes start headers) x =
      if shdr.shType = shtNobits then 0 else bytes.getD (shdr.shOffset.toNat + k) 0 := by
  have others (j : Nat) (piece : U32 → Option U8) (apart : i ≠ j)
      (found : (sectionPieces bytes start headers)[j]? = some piece) : piece x = none := by
    obtain ⟨other, position, there, placed, rfl⟩ := sectionPieces_at.mp found
    exact piece_elsewhere plain apart here loaded place inside there placed at_
  by_cases nobits : shdr.shType = shtNobits
  · rw [if_pos nobits]
    refine Image.stack_free _ fun piece member => ?_
    obtain ⟨j, found⟩ := List.mem_iff_getElem?.mp member
    by_cases same : i = j
    · subst same
      obtain ⟨other, position, there, placed, rfl⟩ := sectionPieces_at.mp found
      obtain rfl := Option.some_inj.mp (here.symm.trans there)
      obtain rfl := Option.some_inj.mp (place.symm.trans placed)
      rw [SectionHeader.piece, if_pos nobits]
    · exact others j piece same found
  · have own : (sectionPieces bytes start headers)[i]? =
        some (window bytes shdr.shOffset.toNat a shdr.shSize.toNat) :=
      sectionPieces_at.mpr ⟨shdr, some a, here, place, if_neg nobits⟩
    have shown : window bytes shdr.shOffset.toNat a shdr.shSize.toNat x =
        some (bytes.getD (shdr.shOffset.toNat + k) 0) := by
      rw [window, if_pos (by omega), at_, Nat.add_sub_cancel_left]
    rw [if_neg nobits]
    exact Image.stack_shows_at _ own shown fun j later behind found => others j later
      (Nat.ne_of_lt behind) found

theorem symbolEntry_self (addr : U32) (name : Text) :
    symbolEntry addr name addr = some (some name) := if_pos rfl

/-- A symbol whose address no later one takes is found under it. -/
theorem stack_symbols {strtab : Nat → Option Text} {sectionAddrs : List U32}
    {before after : List Sym} {sym : Sym}
    {name : Text} (named : sym.name? strtab = some name)
    (last : ∀ later ∈ after, later.name? strtab ≠ none →
      later.objectAddr sectionAddrs ≠ sym.objectAddr sectionAddrs) :
    Image.stack (fun _ => none) (objectEntries strtab sectionAddrs (before ++ sym :: after))
      (sym.objectAddr sectionAddrs) = some name := by
  have split : objectEntries strtab sectionAddrs (before ++ sym :: after) =
      objectEntries strtab sectionAddrs before ++
        symbolEntry (sym.objectAddr sectionAddrs) name ::
          objectEntries strtab sectionAddrs after := by
    rw [objectEntries, List.filterMap_append, List.filterMap_cons, named]
    rfl
  rw [split]
  refine Image.stack_shows _ (symbolEntry_self _ _) fun entry member => ?_
  obtain ⟨later, among, entered⟩ := List.mem_filterMap.mp member
  obtain ⟨other, called, rfl⟩ := Option.map_eq_some_iff.mp entered
  have elsewhere := last later among (by rw [called]; exact Option.some_ne_none other)
  exact if_neg fun same => elsewhere same.symm

/-- Sections of an object file are laid out without overlap. For a file without program headers
whose loaded sections are relocatable and end below the window, a load gives every loaded section
an aligned address behind the one before it, with its content there, and resolves the symbols of
these sections. A slice is no longer than a `usize` of at least 32 bits can say. -/
theorem sections_laid_out (env : Env) (bytes : List U8) (parse : ElfParser) {elf : Elf}
    (parsed : parse bytes = some elf) (object : elf.programHeaders = [])
    (wide : 32 ≤ env.build.usizeBits) (short : bytes.length < 2 ^ env.build.usizeBits)
    (plain : ∀ shdr ∈ elf.sectionHeaders, shdr.Loaded → shdr.Relocatable bytes)
    (ends : EndsBelow 0x10000 elf.sectionHeaders) (args : List Text) (s : Simulator) :
    ∃ entry s' sectionAddrs, (loadBinaryWithArgs env bytes parse args).run s = .ok entry s' ∧
      (∃ before after, (loadSections env bytes elf.sectionHeaders 0x10000 []).run before =
        .ok sectionAddrs after) ∧
      LaysOut env bytes elf sectionAddrs s' := by
  obtain ⟨cpu, start⟩ := loadBinaryWithArgs_run env bytes parse args s
  obtain ⟨bus, run, stacked⟩ := loadSections_stack wide short plain 0x10000 ends []
    { s.reset with tracked := s.reset.tracked.withCpu cpu }
  obtain ⟨s', loaded, kept, symbols, -⟩ := loadElf_object object run
  rw [parsed] at start
  refine ⟨_, s', sectionAddrsOf 0x10000 elf.sectionHeaders, start.trans loaded, ⟨_, _, run⟩, ?_⟩
  constructor
  case length => rw [sectionAddrsOf, List.length_map, Image.length_layOut]
  case placed =>
    intro i shdr here loaded
    obtain ⟨a, place, -, value, -⟩ := place_of_loaded ends here loaded
    obtain ⟨item, align, size, found, wanted, least, divides⟩ :=
      Image.layOut_place (want_positive plain) place
    obtain rfl := Option.some_inj.mp (here.symm.trans found)
    rw [value, ← (Prod.mk.inj (loaded_of_want wanted).2).1]
    exact ⟨least, divides⟩
  case apart =>
    intro i j shdr other later here there loaded loaded'
    obtain ⟨a, place, -, value, -⟩ := place_of_loaded ends here loaded
    obtain ⟨b, place', -, value', -⟩ := place_of_loaded ends there loaded'
    rw [value, value']
    exact Image.layOut_apart (want_positive plain) later place place' here (want_of_loaded loaded)
  case content =>
    intro i shdr here loaded k inside
    obtain ⟨a, place, -, value, below⟩ := place_of_loaded ends here loaded
    have at_ : ((sectionAddrsOf 0x10000 elf.sectionHeaders).getD i 0 + BitVec.ofNat 32 k).toNat =
      a + k := by
      rw [toNat_add_of_lt _ _ (by omega), value]
    have inRam : ¬(sectionAddrsOf 0x10000 elf.sectionHeaders).getD i 0 +
      BitVec.ofNat 32 k ≥ mmioBase := by
      rw [mmioBase_le_iff]
      omega
    rw [readU8_ram env.host _ inRam, kept, ← stack_sections plain here loaded place inside at_,
      ← funext flat_new]
    exact congrArg (Outcome.ok · _) (congrFun stacked _)
  case symbols =>
    intro before after sym name shdr table named here loaded last
    obtain ⟨a, -, addr, -, -⟩ := place_of_loaded ends here loaded
    have address : sym.objectAddr (sectionAddrsOf 0x10000 elf.sectionHeaders) =
        (sectionAddrsOf 0x10000 elf.sectionHeaders).getD sym.stShndx 0 +
          sym.stValue.setWidth 32 := by
      rw [Sym.objectAddr, List.getD_eq_getElem?_getD, List.getD_eq_getElem?_getD, addr,
        Option.getD_some,
        Option.getD_some]
    rw [← address] at last ⊢
    rw [symbols, table]
    exact stack_symbols named last

/-- A 32-bit object file: the header, four bytes of code, a string table with `main` in it, two
symbols, and the headers of the code, of eight zeroed bytes and of the two tables. -/
def mainObject : List U8 :=
  [0x464C457F, 0x00010101, 0, 0, 0x00F30001, 1, 0, 0, 0x60, 0, 0x34, 0x00280000, 5,
    0x04030201, 0x69616D00, 0x6E,
    0, 0, 0, 0, 1, 2, 0, 0x00010012,
    0, 0, 0, 0, 0, 0, 0, 0, 0, 0,
    0, 1, 6, 0, 0x34, 4, 0, 0, 4, 0,
    0, 8, 3, 0, 0x38, 8, 0, 0, 16, 0,
    0, 2, 0, 0, 0x40, 32, 4, 1, 4, 16,
    0, 3, 0, 0, 0x38, 6, 0, 0, 1, 0].flatMap fun word : U32 => leBytes word 4

def mainObjectElf : Elf where
  eEntry := 0
  programHeaders := []
  sectionHeaders := [⟨0, 0, 0, 0, 0, 0⟩, ⟨shtProgbits, 6, 0, 0x34, 4, 4⟩,
    ⟨shtNobits, 3, 0, 0x38, 8, 16⟩,
    ⟨2, 0, 0, 0x40, 32, 4⟩, ⟨3, 0, 0, 0x38, 6, 1⟩]
  syms := [⟨0, 0, 0⟩, ⟨1, 1, 2⟩]
  strtab := fun offset =>
    if offset = 0 then some [] else if offset = 1 then some "main".toList else none

/-- The code is at an address of its own, and `main` two bytes further. -/
theorem sections_laid_out_main : ∃ entry s' sectionAddrs,
    (loadBinaryWithArgs Env.wasm mainObject (fun _ => some mainObjectElf) []).run Simulator.new =
      .ok entry s' ∧
      LaysOut Env.wasm mainObject mainObjectElf sectionAddrs s' ∧
      s'.symbols (sectionAddrs.getD 1 0 + 2) = some "main".toList := by
  have places : Image.layOut SectionHeader.want 0x10000 mainObjectElf.sectionHeaders =
      [none, some 0x10000, some 0x10010, none, none] := by decide
  have size : mainObject.length = 296 := by decide +kernel
  have plain : ∀ shdr ∈ mainObjectElf.sectionHeaders, shdr.Loaded →
    shdr.Relocatable mainObject := by
    simp only [mainObjectElf, List.forall_mem_cons]
    refine ⟨?_, fun _ => ⟨rfl, .inr ⟨2, rfl, by decide⟩, fun _ => size ▸ by decide⟩,
      fun _ => ⟨rfl, .inr ⟨4, rfl, by decide⟩, fun bits => absurd rfl bits⟩, ?_, ?_, nofun⟩
    · exact fun loaded => absurd loaded (by decide)
    · exact fun loaded => absurd loaded (by decide)
    · exact fun loaded => absurd loaded (by decide)
  have ends : EndsBelow 0x10000 mainObjectElf.sectionHeaders := by
    intro i shdr a here place
    rw [places] at place
    match i with
    | 0 | 3 | 4 => cases place
    | 1 =>
      cases here
      cases place
      decide
    | 2 =>
      cases here
      cases place
      decide
    | i + 5 => cases here
  obtain ⟨entry, s', sectionAddrs, run, -, laid⟩ := sections_laid_out Env.wasm mainObject
    (fun _ => some mainObjectElf) rfl rfl (by decide) (size ▸ by decide) plain ends [] Simulator.new
  exact ⟨entry, s', sectionAddrs, run, laid, laid.symbols [⟨0, 0, 0⟩] [] ⟨1, 1, 2⟩ "main".toList
    ⟨shtProgbits, 6, 0, 0x34, 4, 4⟩ rfl rfl rfl (by decide) nofun⟩

end Object

end RiscvRs
