import RiscvRs.Session.Segments

/-! Which files the loader survives: the bounds checks add before they compare, and the
layout adds in 32 bits, so a file is loaded safely exactly when these sums are. -/

namespace RiscvRs

open Effects Prog

section Statement

/-- The same program, built with or without overflow checks. -/
def Env.withChecks (env : Env) (checks : Bool) : Env :=
  { env with build := { env.build with overflowChecks := checks } }

/-- The load goes on as if the segment were not there. -/
def ProgramHeader.Skipped (env : Env) (bytes : List U8) (phdr : ProgramHeader) : Prop :=
  ∀ rest, loadSegments env bytes (phdr :: rest) = loadSegments env bytes rest

/-- The section is laid out, if it is listed, but nothing is copied. -/
def SectionHeader.Skipped (env : Env) (bytes : List U8) (shdr : SectionHeader) : Prop :=
  ∀ rest currentAddr sectionAddrs, loadSections env bytes
    (shdr :: rest) currentAddr sectionAddrs = (do
    let (addr, currentAddr) ← if shdr.Listed env.build then placeSection env shdr currentAddr
      else pure (0, currentAddr)
    loadSections env bytes rest currentAddr (sectionAddrs ++ [addr]))

/-- The load ends in both profiles, without a panic of its sums, slices and indices, and skips
every segment or section whose range does not lie in the file. -/
structure LoadsSafely (env : Env) (bytes : List U8) (parse : ElfParser) (args : List Text)
    (s : Simulator) : Prop where
  completes : ∀ checks, ∃ entry s',
    (loadBinaryWithArgs (env.withChecks checks) bytes parse args).run s = .ok entry s'
  segments : ∀ elf, parse bytes = some elf → elf.programHeaders ≠ [] → ∀ phdr ∈ elf.programHeaders,
    phdr.pType = ptLoad → bytes.length < phdr.pOffset.toNat + phdr.pFilesz.toNat →
    ∀ checks, phdr.Skipped (env.withChecks checks) bytes
  sections : ∀ elf, parse bytes = some elf → elf.programHeaders = [] → ∀ shdr ∈ elf.sectionHeaders,
    bytes.length < shdr.shOffset.toNat + shdr.shSize.toNat →
      ∀ checks, shdr.Skipped (env.withChecks checks) bytes

/-- On the host's `usize` the end of the range is a sum without overflow, and a range that does
not lie in the file still does not, or is empty. -/
structure RangeSafe (build : Build) (len : Nat) (offset size : U64) : Prop where
  fits : build.Fits (build.toUsize offset) (build.toUsize size)
  honest : len < offset.toNat + size.toNat →
    len < build.toUsize offset + build.toUsize size ∨ build.toUsize size = 0

/-- The layout address behind a listed section. -/
def SectionHeader.nextAddr (shdr : SectionHeader) (build : Build) (currentAddr : U32) : U32 :=
  if shdr.shAddr ≠ 0 then currentAddr else shdr.assigned currentAddr + shdr.size32 build

/-- The address that the layout gives a listed section. -/
def SectionHeader.baseAddr (shdr : SectionHeader) (currentAddr : U32) : U32 :=
  if shdr.shAddr ≠ 0 then shdr.shAddr.setWidth 32 else shdr.assigned currentAddr

/-- The base addresses of all sections; one that is not listed has zero. -/
def sectionBases (build : Build) : U32 → List SectionHeader → List U32
  | _, [] => []
  | currentAddr, shdr :: rest =>
    if shdr.Listed build then
      shdr.baseAddr currentAddr :: sectionBases build (shdr.nextAddr build currentAddr) rest
    else 0 :: sectionBases build currentAddr rest

/-- The end of the section is a sum without overflow, or wraps unchecked to one behind the file. -/
def SectionHeader.EndPasses (shdr : SectionHeader) (build : Build) (len : Nat) : Prop :=
  build.Fits (build.toUsize shdr.shOffset) (build.toUsize shdr.shSize) ∨
    build.overflowChecks = false ∧
      len < (build.toUsize shdr.shOffset + build.toUsize shdr.shSize) % 2 ^ build.usizeBits

/-- No section stops the load: where overflow is checked each one can be placed, and each one with
content passes the check of its end. -/
def SectionsPass (build : Build) (len : Nat) : U32 → List SectionHeader → Prop
  | _, [] => True
  | currentAddr, shdr :: rest =>
    if shdr.Listed build then
      (build.overflowChecks = true → shdr.shAddr = 0 → shdr.Placeable build currentAddr) ∧
        (shdr.shType ≠ shtNobits → shdr.EndPasses build len) ∧
        SectionsPass build len (shdr.nextAddr build currentAddr) rest
    else SectionsPass build len currentAddr rest

/-- Every listed section, at the layout address it comes to, can be placed and has a safe range. -/
def SectionsSafe (build : Build) (len : Nat) : U32 → List SectionHeader → Prop
  | _, [] => True
  | currentAddr, shdr :: rest =>
    if shdr.Listed build then
      (shdr.shAddr = 0 → shdr.Placeable build currentAddr) ∧
        (shdr.shType ≠ shtNobits → RangeSafe build len shdr.shOffset shdr.shSize) ∧
        SectionsSafe build len (shdr.nextAddr build currentAddr) rest
    else SectionsSafe build len currentAddr rest

/-- The headers that the loader survives. -/
def Elf.Safe (elf : Elf) (build : Build) (len : Nat) : Prop :=
  if elf.programHeaders ≠ [] then
    ∀ phdr ∈ elf.programHeaders, phdr.pType = ptLoad → RangeSafe build len phdr.pOffset phdr.pFilesz
  else SectionsSafe build len 0x10000 elf.sectionHeaders

end Statement

section Copies

theorem succ_ne (b : U8) : b ≠ b + 1 := by
  intro same
  have value := congrArg BitVec.toNat same
  rw [BitVec.toNat_add] at value
  change b.toNat = (b.toNat + 1) % 2 ^ 8 at value
  omega

/-- A copy that changes nothing copies nothing. -/
theorem copy_noop {addr : U32} {content : List U8} {α : Type} {a : α}
    (noop : (do onMemory (Memory.writeBytes addr content); return a : Api α) = pure a) :
    content = [] := by
  rcases List.eq_nil_or_concat content with empty | ⟨front, b, rfl⟩
  · exact empty
  · rw [List.concat_eq_append] at noop
    -- a memory that differs from the last byte at its address, with an empty log
    let last := addr + BitVec.ofNat 32 front.length
    let start := Simulator.new.withBus (Machine.new.bus.store last (b + 1))
    obtain ⟨bus, written, copied⟩ := run_copy addr (front ++ [b]) start
    have same : bus = Machine.new.bus.store last (b + 1) := by
      have unchanged := congrArg (Prog.run · start) noop
      simp only [run_bind, copied, Outcome.andThen_ok] at unchanged
      exact congrArg (·.tracked.machine.bus) (Outcome.ok.inj unchanged).2
    rw [writeEach_append] at written
    obtain ⟨⟨⟩, bus₁, -, rest⟩ := bind_ok.mp written
    obtain ⟨⟨⟩, bus₂, stored, done⟩ := bind_ok.mp rest
    obtain ⟨-, rfl⟩ := Outcome.ok.inj done
    by_cases window : last ≥ mmioBase
    · rw [writeU8_mmio bus₁ window] at stored
      obtain ⟨-, rfl⟩ := Outcome.ok.inj stored
      exact nomatch congrArg (·.world.io) same
    · rw [writeU8_ram bus₁ window] at stored
      obtain ⟨-, rfl⟩ := Outcome.ok.inj stored
      have values := congrArg (·.mem.flat last) same
      simp only [Bus.store, Memory.flat_store, Function.update_self] at values
      exact absurd values (succ_ne b)

theorem copy_nil (addr : U32) : onMemory (Memory.writeBytes addr []) = pure () := rfl

end Copies

section Segments

variable {env : Env} {bytes : List U8}

/-- With overflow checks, a load that ends had no overflow in the sums of its segments. -/
theorem segments_fit (checked : env.build.overflowChecks = true) {headers : List ProgramHeader}
    {s s' : Simulator}
    (run : (loadSegments env bytes headers).run s = .ok () s') :
    ∀ phdr ∈ headers, phdr.pType = ptLoad →
      env.build.Fits (env.build.toUsize phdr.pOffset) (env.build.toUsize phdr.pFilesz) := by
  induction headers generalizing s with
  | nil => nofun
  | cons phdr rest ih =>
    rw [List.forall_mem_cons]
    by_cases load : phdr.pType = ptLoad
    · by_cases fits : env.build.Fits (env.build.toUsize phdr.pOffset)
        (env.build.toUsize phdr.pFilesz)
      · refine ⟨fun _ => fits, ?_⟩
        by_cases inside : env.build.toUsize phdr.pOffset + env.build.toUsize phdr.pFilesz ≤ bytes.length
        · rw [loadSegments_inside load fits inside] at run
          obtain ⟨⟨⟩, t, -, later⟩ := bind_ok.mp run
          exact ih later
        · rw [loadSegments_outside load fits (Nat.lt_of_not_le inside)] at run
          exact ih run
      · rw [loadSegments_overflow load checked fits] at run
        cases run
    · rw [loadSegments_other load] at run
      exact ⟨fun load' => absurd load' load, ih run⟩

variable (env bytes) in
/-- Sums without overflow are all a load of segments needs. -/
theorem segments_complete {headers : List ProgramHeader}
    (fits : ∀ phdr ∈ headers, phdr.pType = ptLoad →
      env.build.Fits (env.build.toUsize phdr.pOffset) (env.build.toUsize phdr.pFilesz))
        (s : Simulator) :
    ∃ s', (loadSegments env bytes headers).run s = .ok () s' := by
  induction headers generalizing s with
  | nil => exact ⟨s, rfl⟩
  | cons phdr rest ih =>
    have others := ih fun other member => fits other (List.mem_cons_of_mem _ member)
    by_cases load : phdr.pType = ptLoad
    · have sum := fits phdr List.mem_cons_self load
      by_cases inside : env.build.toUsize phdr.pOffset + env.build.toUsize phdr.pFilesz ≤ bytes.length
      · obtain ⟨bus, -, copied⟩ := run_copy (phdr.pVaddr.setWidth 32)
          (filePart bytes (env.build.toUsize phdr.pOffset) (env.build.toUsize phdr.pFilesz)) s
        rw [loadSegments_inside load sum inside, run_bind, copied]
        exact others (s.withBus bus)
      · rw [loadSegments_outside load sum (Nat.lt_of_not_le inside)]
        exact others s
    · rw [loadSegments_other load]
      exact others s

/-- A segment without overflow in its sum is skipped exactly when it ends behind the file, as
the host sees it, or is empty there. -/
theorem segment_skipped_iff {phdr : ProgramHeader} (load : phdr.pType = ptLoad)
    (fits : env.build.Fits (env.build.toUsize phdr.pOffset) (env.build.toUsize phdr.pFilesz)) :
    phdr.Skipped env bytes ↔
      bytes.length < env.build.toUsize phdr.pOffset + env.build.toUsize phdr.pFilesz ∨
      env.build.toUsize phdr.pFilesz = 0 := by
  by_cases inside : env.build.toUsize phdr.pOffset + env.build.toUsize phdr.pFilesz ≤ bytes.length
  · rw [or_iff_right (Nat.not_lt_of_le inside)]
    constructor
    · intro skipped
      have alone := skipped []
      rw [loadSegments_inside load fits inside] at alone
      have empty := copy_noop alone
      rw [← length_filePart inside, empty]
      rfl
    · intro zero rest
      rw [loadSegments_inside load fits inside, zero, filePart, List.take_zero, copy_nil, pure_bind]
  · exact iff_of_true (loadSegments_outside load fits (Nat.lt_of_not_le inside))
      (.inl (Nat.lt_of_not_le inside))

end Segments

section Sections

variable {env : Env} {bytes : List U8} {shdr : SectionHeader} {currentAddr : U32}
  {sectionAddrs : List U32}

/-- A section that can be placed is, and without overflow checks every section can. -/
theorem placeSection_pass
    (placeable : env.build.overflowChecks = true → shdr.shAddr = 0 →
      shdr.Placeable env.build currentAddr) :
    placeSection env shdr currentAddr = pure
      (shdr.baseAddr currentAddr, shdr.nextAddr env.build currentAddr) := by
  unfold SectionHeader.baseAddr SectionHeader.nextAddr
  by_cases none : shdr.shAddr = 0
  · rw [if_neg (not_not_intro none), if_neg (not_not_intro none)]
    by_cases checked : env.build.overflowChecks = true
    · exact placeSection_next none (placeable checked none)
    · rw [placeSection_unfold none]
      simp only [Build.addU32, Build.subU32, checked, Bool.false_eq_true, false_and,
        if_false, pure_bind]
      rfl
  · rw [if_pos none, if_pos none]
    exact placeSection_own none

section Content

variable (listed : shdr.Listed env.build) (bits : shdr.shType ≠ shtNobits)

include listed bits

/-- The copy of a listed section with content: what its sum and the length of the file decide. -/
theorem loadSections_content (currentAddr : U32) (sectionAddrs : List U32)
    (passes : shdr.EndPasses env.build bytes.length) (rest : List SectionHeader) :
    ∃ copies : U32 → Api Unit,
      loadSections env bytes (shdr :: rest) currentAddr sectionAddrs = (do
        let (addr, currentAddr) ← placeSection env shdr currentAddr
        copies addr
        loadSections env bytes rest currentAddr (sectionAddrs ++ [addr])) ∧
      ∀ addr s, ∃ s', (copies addr).run s = .ok () s' := by
  rcases passes with fits | ⟨unchecked, behind⟩
  · by_cases inside : env.build.toUsize shdr.shOffset + env.build.toUsize shdr.shSize ≤ bytes.length
    · let content := filePart bytes (env.build.toUsize shdr.shOffset)
        (env.build.toUsize shdr.shSize)
      refine ⟨fun addr => onMemory (Memory.writeBytes addr content),
        loadSections_inside listed bits fits inside rest,
        fun addr s => ?_⟩
      obtain ⟨bus, -, copied⟩ := run_copy addr content s
      exact ⟨_, copied⟩
    · exact ⟨fun _ => pure (), loadSections_outside listed bits fits (Nat.lt_of_not_le inside) rest,
        fun _ s => ⟨s, rfl⟩⟩
  · refine ⟨fun _ => pure (), ?_, fun _ s => ⟨s, rfl⟩⟩
    rw [loadSections]
    dsimp only
    rw [if_pos (show _ ∧ _ from listed)]
    simp only [bits, ne_eq, not_false_eq_true, if_true, addUsize_wraps unchecked, pure_bind,
      if_neg (Nat.not_le_of_lt behind)]

/-- A sum that wraps into the file is checked, or ends before the slice begins. -/
theorem loadSections_stops (fails : ¬shdr.EndPasses env.build bytes.length)
    (rest : List SectionHeader) :
    loadSections env bytes (shdr :: rest) currentAddr sectionAddrs =
      placeSection env shdr currentAddr >>= fun _ => panic := by
  obtain ⟨large, wraps⟩ := not_or.mp fails
  cases checked : env.build.overflowChecks with
  | true => exact loadSections_overflow listed bits checked large rest
  | false =>
    have inside := Nat.le_of_not_lt fun behind => wraps ⟨checked, behind⟩
    have backwards : byteRange? bytes (env.build.toUsize shdr.shOffset)
        ((env.build.toUsize shdr.shOffset +
          env.build.toUsize shdr.shSize) % 2 ^ env.build.usizeBits) = none := by
      refine if_neg (Nat.not_le_of_lt ?_)
      have offset : env.build.toUsize shdr.shOffset < 2 ^ env.build.usizeBits :=
        Nat.mod_lt _ (Nat.two_pow_pos _)
      have size : env.build.toUsize shdr.shSize < 2 ^ env.build.usizeBits :=
        Nat.mod_lt _ (Nat.two_pow_pos _)
      rw [Build.Fits, Nat.not_lt] at large
      rw [Nat.mod_eq_sub_mod large, Nat.mod_eq_of_lt (by omega)]
      omega
    rw [loadSections]
    dsimp only
    rw [if_pos (show _ ∧ _ from listed)]
    simp only [bits, ne_eq, not_false_eq_true, if_true, addUsize_wraps checked, pure_bind,
      if_pos inside, backwards]
    rfl

end Content

variable (env bytes sectionAddrs) in
/-- Sections that all pass are loaded, and get their base addresses. -/
theorem loadSections_pass {headers : List SectionHeader}
    (passes : SectionsPass env.build bytes.length currentAddr headers) (s : Simulator) :
    ∃ s', (loadSections env bytes headers currentAddr sectionAddrs).run s =
      .ok (sectionAddrs ++ sectionBases env.build currentAddr headers) s' := by
  induction headers generalizing currentAddr sectionAddrs s with
  | nil => exact ⟨s, congrArg (Outcome.ok · s) (List.append_nil _).symm⟩
  | cons shdr rest ih =>
    rw [SectionsPass] at passes
    rw [sectionBases]
    by_cases listed : shdr.Listed env.build
    · rw [if_pos listed] at passes ⊢
      obtain ⟨placeable, range, later⟩ := passes
      rw [List.append_cons]
      have placed := placeSection_pass placeable
      by_cases nobits : shdr.shType = shtNobits
      · rw [loadSections_nobits listed nobits, placed, pure_bind]
        exact ih _ later s
      · obtain ⟨copies, load, total⟩ :=
          loadSections_content listed nobits currentAddr sectionAddrs (range nobits) rest
        obtain ⟨s₁, copied⟩ := total (shdr.baseAddr currentAddr) s
        rw [load, placed, pure_bind, run_bind, copied]
        exact ih _ later s₁
    · rw [if_neg listed] at passes ⊢
      rw [List.append_cons, loadSections_unlisted listed]
      exact ih _ passes s

/-- A load that ends comes past all sections. -/
theorem sectionsPass_of_run {headers : List SectionHeader} {addrs : List U32} {s s' : Simulator}
    (run : (loadSections env bytes headers currentAddr sectionAddrs).run s = .ok addrs s') :
    SectionsPass env.build bytes.length currentAddr headers := by
  induction headers generalizing currentAddr sectionAddrs s with
  | nil => trivial
  | cons shdr rest ih =>
    rw [SectionsPass]
    by_cases listed : shdr.Listed env.build
    · rw [if_pos listed]
      have placeable : env.build.overflowChecks = true → shdr.shAddr = 0 →
        shdr.Placeable env.build currentAddr := by
        intro checked none
        by_contra large
        have stop := placeSection_overflow none checked large
        rw [loadSections, if_pos (show _ ∧ _ from listed), stop] at run
        cases run
      have placed := placeSection_pass placeable
      by_cases nobits : shdr.shType = shtNobits
      · rw [loadSections_nobits listed nobits, placed, pure_bind] at run
        exact ⟨placeable, fun bits => absurd nobits bits, ih run⟩
      · by_cases ends : shdr.EndPasses env.build bytes.length
        · obtain ⟨copies, load, -⟩ :=
            loadSections_content listed nobits currentAddr sectionAddrs ends rest
          rw [load, placed, pure_bind] at run
          obtain ⟨⟨⟩, s₁, -, later⟩ := bind_ok.mp run
          exact ⟨placeable, fun _ => ends, ih later⟩
        · rw [loadSections_stops listed nobits ends, placed] at run
          cases run
    · rw [if_neg listed]
      rw [loadSections_unlisted listed] at run
      exact ih run

/-- Safe sections pass. -/
theorem SectionsSafe.passes {build : Build} {len : Nat} {headers : List SectionHeader}
    (safe : SectionsSafe build len currentAddr headers) :
    SectionsPass build len currentAddr headers := by
  induction headers generalizing currentAddr with
  | nil => trivial
  | cons shdr rest ih =>
    rw [SectionsSafe] at safe
    rw [SectionsPass]
    by_cases listed : shdr.Listed build
    · rw [if_pos listed] at safe ⊢
      exact ⟨fun _ => safe.1, fun bits => .inl (safe.2.1 bits).fits, ih safe.2.2⟩
    · rw [if_neg listed] at safe ⊢
      exact ih safe

/-- A section that a safe load comes to has a safe range. -/
theorem SectionsSafe.range {build : Build} {len : Nat} {headers : List SectionHeader}
    (safe : SectionsSafe build len currentAddr headers) : ∀ shdr ∈ headers, shdr.Listed build →
      shdr.shType ≠ shtNobits → RangeSafe build len shdr.shOffset shdr.shSize := by
  induction headers generalizing currentAddr with
  | nil => nofun
  | cons shdr rest ih =>
    rw [List.forall_mem_cons]
    rw [SectionsSafe] at safe
    by_cases listed : shdr.Listed build
    · rw [if_pos listed] at safe
      exact ⟨fun _ => safe.2.1, ih safe.2.2⟩
    · rw [if_neg listed] at safe
      exact ⟨fun listed' => absurd listed' listed, ih safe⟩

/-- A section is skipped when it is not listed, has no content or ends behind the file as the
host sees it. -/
theorem section_skipped (range : shdr.Listed env.build → shdr.shType ≠ shtNobits →
    env.build.Fits (env.build.toUsize shdr.shOffset) (env.build.toUsize shdr.shSize) ∧
      bytes.length < env.build.toUsize shdr.shOffset + env.build.toUsize shdr.shSize) : shdr.Skipped
        env bytes := by
  intro rest currentAddr sectionAddrs
  by_cases listed : shdr.Listed env.build
  · rw [if_pos listed]
    by_cases nobits : shdr.shType = shtNobits
    · exact loadSections_nobits listed nobits rest
    · obtain ⟨fits, outside⟩ := range listed nobits
      exact loadSections_outside listed nobits fits outside rest
  · rw [if_neg listed, pure_bind]
    exact loadSections_unlisted listed rest

/-- A skipped section with content ends behind the file as the host sees it: it is not empty there,
and its copy would show. -/
theorem outside_of_skipped (listed : shdr.Listed env.build) (bits : shdr.shType ≠ shtNobits)
    (fits : env.build.Fits (env.build.toUsize shdr.shOffset) (env.build.toUsize shdr.shSize))
    (placeable : shdr.shAddr = 0 → shdr.Placeable env.build currentAddr)
    (skipped : shdr.Skipped env bytes) :
    bytes.length < env.build.toUsize shdr.shOffset + env.build.toUsize shdr.shSize := by
  by_contra short
  have inside := Nat.le_of_not_lt short
  have placed := placeSection_pass fun _ => placeable
  have alone := skipped [] currentAddr []
  rw [loadSections_inside listed bits fits inside, if_pos listed, placed, pure_bind,
    pure_bind] at alone
  have empty := copy_noop alone
  have size := length_filePart inside
  rw [empty] at size
  exact Nat.ne_of_gt listed.1 size.symm

/-- With overflow checks, sections that pass are safe where what lies outside of the file is
skipped. -/
theorem sections_safe (checked : env.build.overflowChecks = true) {headers : List SectionHeader}
    (passes : SectionsPass env.build bytes.length currentAddr headers)
    (skips : ∀ shdr ∈ headers, bytes.length < shdr.shOffset.toNat + shdr.shSize.toNat →
      shdr.Skipped env bytes) :
    SectionsSafe env.build bytes.length currentAddr headers := by
  induction headers generalizing currentAddr with
  | nil => trivial
  | cons shdr rest ih =>
    rw [List.forall_mem_cons] at skips
    rw [SectionsPass] at passes
    rw [SectionsSafe]
    by_cases listed : shdr.Listed env.build
    · rw [if_pos listed] at passes ⊢
      obtain ⟨placeable, range, later⟩ := passes
      refine ⟨placeable checked, fun bits => ?_, ih later skips.2⟩
      have fits := (range bits).resolve_right fun wraps => Bool.false_ne_true
        (wraps.1.symm.trans checked)
      exact ⟨fits, fun outside =>
        .inl (outside_of_skipped listed bits fits (placeable checked) (skips.1 outside))⟩
    · rw [if_neg listed] at passes ⊢
      exact ih passes skips.2

end Sections

section Profiles

variable {build : Build} {len : Nat}

/-- What a sum has to meet does not depend on the profile. -/
theorem RangeSafe.withChecks {offset size : U64} (safe : RangeSafe build len offset size)
    (checks : Bool) :
    RangeSafe { build with overflowChecks := checks } len offset size :=
  ⟨safe.fits, safe.honest⟩

theorem SectionHeader.Placeable.withChecks {shdr : SectionHeader} {currentAddr : U32}
    (placeable : shdr.Placeable build currentAddr) (checks : Bool) :
    shdr.Placeable { build with overflowChecks := checks } currentAddr :=
  ⟨placeable.sum, placeable.positive, placeable.stop⟩

theorem SectionsSafe.withChecks {currentAddr : U32} {headers : List SectionHeader}
    (safe : SectionsSafe build len currentAddr headers) (checks : Bool) :
    SectionsSafe { build with overflowChecks := checks } len currentAddr headers := by
  induction headers generalizing currentAddr with
  | nil => trivial
  | cons shdr rest ih =>
    rw [SectionsSafe] at safe ⊢
    by_cases listed : shdr.Listed build
    · rw [if_pos listed] at safe
      have listed' : shdr.Listed { build with overflowChecks := checks } := listed
      rw [if_pos listed']
      exact ⟨fun none => (safe.1 none).withChecks checks,
        fun bits => (safe.2.1 bits).withChecks checks, ih safe.2.2⟩
    · rw [if_neg listed] at safe
      have listed' : ¬shdr.Listed { build with overflowChecks := checks } := listed
      rw [if_neg listed']
      exact ih safe

end Profiles

section Loader

variable (env : Env) (bytes : List U8) (parse : ElfParser) (args : List Text) (s : Simulator)

/-- The loads of a parsed file end when those of its headers do. -/
theorem completes_of_safe (safe : ∀ elf, parse bytes = some elf → elf.Safe env.build bytes.length)
    (checks : Bool) :
    ∃ entry s', (loadBinaryWithArgs (env.withChecks checks) bytes parse args).run s =
      .ok entry s' := by
  obtain ⟨cpu, start⟩ := loadBinaryWithArgs_run (env.withChecks checks) bytes parse args s
  cases parsed : parse bytes with
  | none =>
    rw [parsed] at start
    obtain ⟨bus, -, copied⟩ :=
      run_copy 0 bytes { s.reset with tracked := s.reset.tracked.withCpu cpu }
    dsimp only at start
    rw [run_bind, copied] at start
    exact ⟨_, _, start⟩
  | some elf =>
    rw [parsed] at start
    have headers := safe elf parsed
    unfold Elf.Safe at headers
    split at headers
    · next linked =>
      obtain ⟨s₁, run⟩ := segments_complete (env.withChecks checks) bytes
        (fun phdr member load => (headers phdr member load).fits)
        { s.reset with tracked := s.reset.tracked.withCpu cpu }
      obtain ⟨entry, s', loaded, -⟩ := loadElf_linked linked run
      exact ⟨entry, s', start.trans loaded⟩
    · next object =>
      obtain ⟨s₁, run⟩ := loadSections_pass (env.withChecks checks) bytes []
        (headers.withChecks checks).passes
        { s.reset with tracked := s.reset.tracked.withCpu cpu }
      obtain ⟨s', loaded, -⟩ := loadElf_object (not_not.mp object) run
      exact ⟨_, s', start.trans loaded⟩

/-- The loader survives a file, in both profiles and on every `usize`, and skips what lies outside
of it, exactly when its headers are safe. -/
theorem loads_safely_iff : LoadsSafely env bytes parse args s ↔
    ∀ elf, parse bytes = some elf → elf.Safe env.build bytes.length := by
  constructor
  · intro safely elf parsed
    obtain ⟨entry, s', run⟩ := safely.completes true
    obtain ⟨cpu, start⟩ := loadBinaryWithArgs_run (env.withChecks true) bytes parse args s
    rw [run, parsed] at start
    dsimp only at start
    unfold Elf.Safe
    by_cases linked : elf.programHeaders ≠ []
    · rw [if_pos linked]
      rw [loadElf_linked_eq linked] at start
      obtain ⟨⟨⟩, s₁, segments, -⟩ := bind_ok.mp start.symm
      have fits := segments_fit rfl segments
      intro phdr member load
      refine ⟨fits phdr member load, fun outside => ?_⟩
      exact (segment_skipped_iff load (fits phdr member load)).mp
        (safely.segments elf parsed linked phdr member load outside true)
    · rw [if_neg linked]
      have object := not_not.mp linked
      rw [loadElf_object_eq object] at start
      obtain ⟨addrs, s₁, sections, -⟩ := bind_ok.mp start.symm
      have safe := sections_safe rfl (sectionsPass_of_run sections) fun shdr member outside =>
        safely.sections elf parsed object shdr member outside true
      exact safe.withChecks env.build.overflowChecks
  · intro safe
    refine ⟨completes_of_safe env bytes parse args s safe, ?_, ?_⟩
    · intro elf parsed linked phdr member load outside checks
      have headers := safe elf parsed
      rw [Elf.Safe, if_pos linked] at headers
      obtain ⟨fits, honest⟩ := (headers phdr member load).withChecks checks
      have skipped : phdr.Skipped (env.withChecks checks) bytes ↔ _ := segment_skipped_iff load fits
      exact skipped.mpr (honest outside)
    · intro elf parsed object shdr member outside checks
      have headers := safe elf parsed
      rw [Elf.Safe, if_neg (not_not_intro object)] at headers
      refine section_skipped fun listed bits => ?_
      obtain ⟨fits, honest⟩ := headers.range shdr member listed bits
      exact ⟨fits, (honest outside).resolve_right (Nat.ne_of_gt listed.1)⟩

end Loader

/-- A 64-bit executable with one segment of two bytes, from the last offset there is. -/
def lastOffset : List U8 :=
  [0x464C457F, 0x00010102, 0, 0, 0x00F30002, 1, 0, 0, 0x40, 0, 0, 0, 0, 0x00380040, 0x00400001, 0,
    1, 4, 0xFFFFFFFF, 0xFFFFFFFF, 0, 0, 0, 0, 2, 0, 2, 0, 1, 0].flatMap fun word : U32 => leBytes word 4

def lastOffsetElf : Elf where
  eEntry := 0
  programHeaders := [⟨ptLoad, 0xFFFFFFFFFFFFFFFF, 2, 0⟩]
  sectionHeaders := []
  syms := []
  strtab := fun _ => none

/-- The end of the segment wraps around to one, which passes the bounds check, and the slice from
the last offset to one panics. With overflow checks the sum already does. -/
theorem lastOffset_stops (checks : Bool) {bits : Nat} (width : bits = 32 ∨ bits = 64) :
    (loadBinaryWithArgs { (default : Env) with build := ⟨checks, bits⟩ } lastOffset
      (fun _ => some lastOffsetElf)
      []).run Simulator.new = .panic := by
  have segments : loadSegments { (default : Env) with build := ⟨checks, bits⟩ } lastOffset
      lastOffsetElf.programHeaders = panic := by
    have size : lastOffset.length = 120 := by decide +kernel
    rw [lastOffsetElf, loadSegments, if_pos rfl]
    dsimp only
    rw [size]
    rcases width with rfl | rfl
    · cases checks <;> rfl
    · cases checks <;> rfl
  obtain ⟨cpu, start⟩ :=
    loadBinaryWithArgs_run { (default : Env) with build := ⟨checks, bits⟩ } lastOffset
    (fun _ => some lastOffsetElf) [] Simulator.new
  rw [start]
  dsimp only
  rw [loadElf_linked_eq (List.cons_ne_nil _ _), segments]
  rfl

/-- The loader survives the file neither in the browser nor natively. -/
theorem loader_panics :
    (loadBinaryWithArgs { (default : Env) with build := ⟨false, 32⟩ } lastOffset
      (fun _ => some lastOffsetElf) []).run
      Simulator.new = .panic ∧
    (loadBinaryWithArgs { (default : Env) with build := ⟨false, 64⟩ } lastOffset
      (fun _ => some lastOffsetElf) []).run
      Simulator.new = .panic ∧
    ¬LoadsSafely { (default : Env) with build := ⟨false, 32⟩ } lastOffset
      (fun _ => some lastOffsetElf) []
      Simulator.new ∧
    ¬LoadsSafely { (default : Env) with build := ⟨false, 64⟩ } lastOffset
      (fun _ => some lastOffsetElf) []
      Simulator.new := by
  have narrow := lastOffset_stops false (.inl (Eq.refl 32))
  have wide := lastOffset_stops false (.inr (Eq.refl 64))
  refine ⟨narrow, wide, fun safely => ?_, fun safely => ?_⟩
  · obtain ⟨entry, s', run⟩ := safely.completes false
    cases run.symm.trans narrow
  · obtain ⟨entry, s', run⟩ := safely.completes false
    cases run.symm.trans wide

end RiscvRs
