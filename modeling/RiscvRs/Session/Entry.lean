import RiscvRs.Lib.Search
import RiscvRs.Session.Malformed

/-! The entry point of an object file: `_start` is the one where no `main` is found first. -/

namespace RiscvRs

open Effects Prog

section Layout

/-- The address that the layout of an object file gives a symbol. -/
def Elf.symAddr (elf : Elf) (build : Build) (sym : Sym) : U32 :=
  sym.objectAddr (sectionBases build 0x10000 elf.sectionHeaders)

/-- The symbols that are taken for the entry point when the search comes to them. -/
def Elf.isEntry (elf : Elf) (build : Build) (sym : Sym) : Bool :=
  sym.isEntry elf.strtab (sectionBases build 0x10000 elf.sectionHeaders)

variable {elf : Elf} {build : Build}

theorem Elf.isEntry_iff {sym : Sym} :
    elf.isEntry build sym = true ↔ sym.NamesEntry elf.strtab ∧ elf.symAddr build sym ≠ 0 :=
  decide_eq_true_iff

/-- Without an `e_entry` the first of the symbols that name an entry point counts. -/
theorem objectEntry_eq (unset : elf.eEntry = 0) :
    elf.objectEntry (sectionBases build 0x10000 elf.sectionHeaders) =
      ((elf.syms.find? (elf.isEntry build)).map (elf.symAddr build)).getD 0x10000 := by
  have found : foundEntry elf.strtab (sectionBases build 0x10000 elf.sectionHeaders) elf.syms
    (elf.eEntry.setWidth 32) =
      ((elf.syms.find? (elf.isEntry build)).map (elf.symAddr build)).getD 0 := by
    rw [unset]
    exact if_pos rfl
  rw [Elf.objectEntry, found, startOverride, if_neg (not_not_intro unset)]
  cases taken : elf.syms.find? (elf.isEntry build) with
  | none => rfl
  | some sym =>
    rw [Option.map_some, Option.getD_some, Option.getD_some]
    exact if_neg (Elf.isEntry_iff.mp (List.find?_some taken)).2

theorem objectEntry_ne_zero (unset : elf.eEntry = 0) :
    elf.objectEntry (sectionBases build 0x10000 elf.sectionHeaders) ≠ 0 := by
  rw [objectEntry_eq unset]
  cases taken : elf.syms.find? (elf.isEntry build) with
  | none => exact (by decide : (0x10000 : U32) ≠ 0)
  | some sym => exact (Elf.isEntry_iff.mp (List.find?_some taken)).2

variable (elf build) in
/-- The entry point is that of a certain symbol when the search says its address. -/
theorem objectEntry_start_iff (unset : elf.eEntry = 0) {start : Sym} (member : start ∈ elf.syms)
    (named : start.NamesEntry elf.strtab) :
    elf.objectEntry (sectionBases build 0x10000 elf.sectionHeaders) = elf.symAddr build start ↔
      elf.symAddr build start ≠ 0 ∧
        (elf.syms.find? (elf.isEntry build)).map (elf.symAddr build) =
          some (elf.symAddr build start) := by
  constructor
  · intro entry
    have positive : elf.symAddr build start ≠ 0 := entry ▸ objectEntry_ne_zero unset
    refine ⟨positive, ?_⟩
    rw [objectEntry_eq unset] at entry
    cases taken : elf.syms.find? (elf.isEntry build) with
    | none =>
      exact absurd taken (Search.find?_ne_none member (Elf.isEntry_iff.mpr ⟨named, positive⟩))
    | some sym =>
      rw [taken] at entry
      exact congrArg some entry
  · rintro ⟨-, found⟩
    rw [objectEntry_eq unset, found, Option.getD_some]

end Layout

section Load

variable (env : Env) (bytes : List U8) (parse : ElfParser) (args : List Text) (s : Simulator)

/-- A load returns the address and leaves the program counter there. -/
def EntersAt (addr : U32) : Prop :=
  ∃ s', (loadBinaryWithArgs env bytes parse args).run s = .ok addr s' ∧
    s'.tracked.machine.cpu.pc = addr

/-- The entry point of the file is the address of `start`, in every order of the symbols. With
another order the file has other bytes, but as many. -/
structure EntryFixed (elf : Elf) (start : Sym) : Prop where
  entry : EntersAt env bytes parse args s (elf.symAddr env.build start)
  anyOrder : ∀ (syms : List Sym) (bytes' : List U8) (parse' : ElfParser), syms.Perm elf.syms →
    bytes'.length = bytes.length → parse' bytes' = some { elf with syms := syms } →
    EntersAt env bytes' parse' args s (elf.symAddr env.build start)

variable {env bytes parse args s} {elf : Elf}

/-- A load of an object file enters it where its sections pass, at the entry point of its symbols. -/
theorem entersAt_iff (parsed : parse bytes = some elf) (object : elf.programHeaders = []) {addr : U32} :
    EntersAt env bytes parse args s addr ↔
      SectionsPass env.build bytes.length 0x10000 elf.sectionHeaders ∧
        elf.objectEntry (sectionBases env.build 0x10000 elf.sectionHeaders) = addr := by
  obtain ⟨cpu, start⟩ := loadBinaryWithArgs_run env bytes parse args s
  rw [parsed] at start
  dsimp only at start
  unfold EntersAt
  rw [start]
  have enters (passes : SectionsPass env.build bytes.length 0x10000 elf.sectionHeaders) :
      ∃ s', (loadElf env bytes elf).run { s.reset with tracked := s.reset.tracked.withCpu cpu } =
          .ok (elf.objectEntry (sectionBases env.build 0x10000 elf.sectionHeaders)) s' ∧
        s'.tracked.machine.cpu.pc = elf.objectEntry
          (sectionBases env.build 0x10000 elf.sectionHeaders) := by
    obtain ⟨s₁, run⟩ := loadSections_pass env bytes [] passes
      { s.reset with tracked := s.reset.tracked.withCpu cpu }
    obtain ⟨s', loaded, -, -, pc⟩ := loadElf_object object run
    exact ⟨s', loaded, pc⟩
  constructor
  · rintro ⟨s', run, -⟩
    have sections := run
    rw [loadElf_object_eq object] at sections
    obtain ⟨addrs, s₁, sections, -⟩ := bind_ok.mp sections
    have passes := sectionsPass_of_run sections
    obtain ⟨s'', loaded, -⟩ := enters passes
    exact ⟨passes, (Outcome.ok.inj (loaded.symm.trans run)).1⟩
  · rintro ⟨passes, rfl⟩
    exact enters passes

variable (parsed : parse bytes = some elf) (object : elf.programHeaders = [])
  (unset : elf.eEntry = 0)
  {start : Sym} {before after : List Sym} (table : elf.syms = before ++ start :: after)
  (named : elf.strtab start.stName = some "_start".toList)

include parsed object unset table named

/-- In the order of the file it is the symbols before `_start` that matter. -/
theorem enters_start_iff : EntersAt env bytes parse args s (elf.symAddr env.build start) ↔
    SectionsPass env.build bytes.length 0x10000 elf.sectionHeaders ∧
      elf.symAddr env.build start ≠ 0 ∧
      ∀ sym, before.find? (elf.isEntry env.build) = some sym →
        elf.symAddr env.build sym = elf.symAddr env.build start := by
  have member : start ∈ elf.syms := table ▸ List.mem_append_right _ List.mem_cons_self
  rw [entersAt_iff parsed object, objectEntry_start_iff elf env.build unset member (.inl named), table]
  refine and_congr_right fun _ => and_congr_right fun positive => ?_
  exact Search.map_find?_middle (Elf.isEntry_iff.mpr ⟨.inl named, positive⟩)

theorem entryFixed_iff : EntryFixed env bytes parse args s elf start ↔
    SectionsPass env.build bytes.length 0x10000 elf.sectionHeaders ∧
      elf.symAddr env.build start ≠ 0 ∧
      ∀ sym ∈ elf.syms, elf.isEntry env.build sym = true →
        elf.symAddr env.build sym = elf.symAddr env.build start := by
  have member : start ∈ elf.syms := table ▸ List.mem_append_right _ List.mem_cons_self
  -- the load of a file with the same symbols in another order
  have other {syms : List Sym} {bytes' : List U8} {parse' : ElfParser} (perm : syms.Perm elf.syms)
      (length : bytes'.length = bytes.length)
        (parsed' : parse' bytes' = some { elf with syms := syms }) :
      EntersAt env bytes' parse' args s (elf.symAddr env.build start) ↔
        SectionsPass env.build bytes.length 0x10000 elf.sectionHeaders ∧
          elf.symAddr env.build start ≠ 0 ∧
          (syms.find? (elf.isEntry env.build)).map (elf.symAddr env.build) =
            some (elf.symAddr env.build start) := by
    rw [entersAt_iff parsed' object, length]
    exact and_congr_right fun _ => objectEntry_start_iff { elf with syms := syms } env.build unset
      (perm.mem_iff.mpr member) (.inl named)
  constructor
  · rintro ⟨entry, anyOrder⟩
    obtain ⟨passes, positive, -⟩ := (other (List.Perm.refl _) rfl parsed).mp entry
    refine ⟨passes, positive, (Search.map_find?_perm.mp fun syms perm => ?_).2⟩
    exact ((other perm rfl rfl).mp
      (anyOrder syms bytes (fun _ => some { elf with syms := syms }) perm rfl rfl)).2.2
  · rintro ⟨passes, positive, agree⟩
    have same := Search.map_find?_perm.mpr
      ⟨⟨start, member, Elf.isEntry_iff.mpr ⟨.inl named, positive⟩⟩, agree⟩
    exact ⟨(other (List.Perm.refl _) rfl parsed).mpr ⟨passes, positive, same _ (List.Perm.refl _)⟩,
      fun syms bytes' parse' perm length parsed' => (other perm length parsed').mpr
        ⟨passes, positive, same syms perm⟩⟩

/-- The entry point of an object file with one `_start`. A load of the file as it is goes there when
it passes the sections and no `main` before `_start` has an address of its own, and a load of every
order of its symbols does when no `main` has. -/
theorem object_entry_fixed
    (once : ∀ sym ∈ before ++ after, elf.strtab sym.stName ≠ some "_start".toList) :
    (EntersAt env bytes parse args s (elf.symAddr env.build start) ↔
      SectionsPass env.build bytes.length 0x10000 elf.sectionHeaders ∧
        elf.symAddr env.build start ≠ 0 ∧
        ∀ sym, before.find? (elf.isEntry env.build) = some sym →
          elf.symAddr env.build sym = elf.symAddr env.build start) ∧
    (EntryFixed env bytes parse args s elf start ↔
      SectionsPass env.build bytes.length 0x10000 elf.sectionHeaders ∧
        elf.symAddr env.build start ≠ 0 ∧
        ∀ sym ∈ elf.syms, elf.strtab sym.stName = some "main".toList →
          elf.symAddr env.build sym = 0 ∨
            elf.symAddr env.build sym = elf.symAddr env.build start) := by
  refine ⟨enters_start_iff parsed object unset table named, ?_⟩
  rw [entryFixed_iff parsed object unset table named]
  refine and_congr_right fun _ => and_congr_right fun _ => forall₂_congr fun sym member => ?_
  rw [Elf.isEntry_iff]
  constructor
  · intro agree main
    exact or_iff_not_imp_left.mpr fun positive => agree ⟨.inr main, positive⟩
  · rintro agree ⟨entry | main, positive⟩
    · -- the only `_start`
      rw [table, List.mem_append, List.mem_cons] at member
      rcases member with earlier | rfl | later
      · exact absurd entry (once sym (List.mem_append_left _ earlier))
      · rfl
      · exact absurd entry (once sym (List.mem_append_right _ later))
    · exact (agree main).resolve_left positive

end Load

section Files

/-- A 32-bit object file: the header, four bytes of code, a string table, the symbols `main` and,
two bytes into the code, `_start`, and the headers of the code and the two tables. -/
def startObject (mainValue : U32) : List U8 :=
  [0x464C457F, 0x00010101, 0, 0, 0x00F30001, 1, 0, 0, 0x78, 0, 0x34, 0x00280000, 4,
    0x00010001, 0x69616D00, 0x735F006E, 0x74726174, 0,
    0, 0, 0, 0, 1, mainValue, 0, 0x00010012, 6, 2, 0, 0x00010012,
    0, 0, 0, 0, 0, 0, 0, 0, 0, 0,
    0, 1, 6, 0, 0x34, 4, 0, 0, 4, 0,
    0, 2, 0, 0, 0x48, 48, 3, 1, 4, 16,
    0, 3, 0, 0, 0x38, 13, 0, 0, 1, 0].flatMap fun word : U32 => leBytes word 4

def startObjectElf (mainValue : U32) : Elf where
  eEntry := 0
  programHeaders := []
  sectionHeaders := [⟨0, 0, 0, 0, 0, 0⟩, ⟨shtProgbits, 6, 0, 0x34, 4, 4⟩, ⟨2, 0, 0, 0x48, 48, 4⟩,
    ⟨3, 0, 0, 0x38, 13, 1⟩]
  syms := [⟨0, 0, 0⟩, ⟨1, 1, mainValue.setWidth 64⟩, ⟨6, 1, 2⟩]
  strtab := fun offset => if offset = 0 then some [] else if offset = 1 then some "main".toList
    else if offset = 6 then some "_start".toList else none

theorem startObject_passes (mainValue : U32) :
    SectionsPass Env.wasm.build (startObject mainValue).length 0x10000
    (startObjectElf mainValue).sectionHeaders := by
  rw [startObjectElf, SectionsPass, if_neg (by decide), SectionsPass, if_pos (by decide)]
  refine ⟨fun checked => absurd checked (by decide),
    fun _ => .inl (show 0x34 + 4 < 2 ^ 32 by decide), ?_⟩
  rw [SectionsPass, if_neg (by decide), SectionsPass, if_neg (by decide)]
  trivial

/-- A `main` before `_start` at the same address does not matter. -/
theorem object_entry_fixed_same :
    EntryFixed Env.wasm (startObject 2) (fun _ => some (startObjectElf 2)) []
    Simulator.new (startObjectElf 2) ⟨6, 1, 2⟩ :=
  have table : (startObjectElf 2).syms = [⟨0, 0, 0⟩, ⟨1, 1, 2⟩] ++ ⟨6, 1, 2⟩ :: [] := rfl
  (object_entry_fixed rfl rfl rfl table rfl (by decide)).2.mpr
    ⟨startObject_passes 2, by decide, by decide⟩

/-- A `main` before `_start` at another address is entered in its place. -/
theorem main_entered :
    EntersAt Env.wasm (startObject 0) (fun _ => some (startObjectElf 0)) [] Simulator.new 0x10000 ∧
    (startObjectElf 0).symAddr Env.wasm.build ⟨6, 1, 2⟩ = 0x10002 ∧
    ¬EntryFixed Env.wasm (startObject 0) (fun _ => some (startObjectElf 0)) [] Simulator.new
      (startObjectElf 0)
      ⟨6, 1, 2⟩ := by
  refine ⟨(entersAt_iff rfl rfl).mpr ⟨startObject_passes 0, by decide⟩, by decide, fun fixed => ?_⟩
  have table : (startObjectElf 0).syms = [⟨0, 0, 0⟩, ⟨1, 1, 0⟩] ++ ⟨6, 1, 2⟩ :: [] := rfl
  obtain ⟨-, -, agree⟩ := (entryFixed_iff rfl rfl rfl table rfl).mp fixed
  exact absurd (agree ⟨1, 1, 0⟩ (.tail _ (.head _)) (by decide)) (by decide)

end Files

end RiscvRs
