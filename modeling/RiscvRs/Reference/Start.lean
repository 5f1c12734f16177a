import RiscvRs.Exec.Conformance
import RiscvRs.Isa.Process
import RiscvRs.Lib.Search
import RiscvRs.Session.CommandLine
import RiscvRs.Session.Sections

/-! What a file and its arguments start: its image, where it is entered and what its registers
hold, said without the loader, and that the loader comes to the same. -/

namespace RiscvRs

open Effects Prog

section Image

/-- The bytes that a file puts into memory. -/
def fileImage (bytes : List U8) : Option Elf → U32 → U8
  | none => fun a => bytes.getD a.toNat 0
  | some elf =>
    if elf.programHeaders.isEmpty then
      Image.stack (fun _ => 0) (sectionPieces bytes 0x10000 elf.sectionHeaders)
    else imageByte bytes elf.programHeaders

/-- Raw bytes, segments or sections that fit into RAM. -/
def Loadable (build : Build) (bytes : List U8) : Option Elf → Prop
  | none => bytes.length ≤ 0xFFFF0000
  | some elf =>
    if elf.programHeaders.isEmpty then
      32 ≤ build.usizeBits ∧ bytes.length < 2 ^ build.usizeBits ∧
        (∀ shdr ∈ elf.sectionHeaders, shdr.Loaded → shdr.Relocatable bytes) ∧
          EndsBelow 0x10000 elf.sectionHeaders
    else ∀ phdr ∈ elf.programHeaders, phdr.Plain build

end Image

section Entry

/-- A symbol of the file has one of the names, and its place is not zero. -/
def Elf.Offers (elf : Elf) (names : List Text) (place : Sym → Nat) (sym : Sym) : Prop :=
  (∃ name ∈ names, elf.strtab sym.stName = some name) ∧ place sym ≠ 0

instance (elf : Elf) (names : List Text) (place : Sym → Nat) :
    DecidablePred (elf.Offers names place) :=
  fun _ => inferInstanceAs (Decidable (_ ∧ _))

/-- The `_start` of a file whose header has an entry point. -/
def Elf.Starts (elf : Elf) : Sym → Prop := elf.Offers ["_start".toList] fun sym => sym.stValue.toNat

instance (elf : Elf) : DecidablePred elf.Starts := inferInstanceAs (DecidablePred (elf.Offers _ _))

/-- Where the sections of an object file bring a symbol. -/
def Elf.objectPlace (elf : Elf) (sym : Sym) : Nat :=
  (((sectionAddrsOf 0x10000 elf.sectionHeaders).getD sym.stShndx 0x10000).toNat +
    sym.stValue.toNat) % 2 ^ 32

/-- The entry point of an object file, if its header has none. -/
def Elf.Enters (elf : Elf) : Sym → Prop :=
  elf.Offers ["_start".toList, "main".toList] elf.objectPlace

instance (elf : Elf) : DecidablePred elf.Enters := inferInstanceAs (DecidablePred (elf.Offers _ _))

/-- Where an object file is entered: where its header says, at the first `_start` or `main`, or at
the first section. -/
inductive Elf.ObjectEntry (elf : Elf) : Nat → Prop where
  | header (set : elf.eEntry.toNat % 2 ^ 32 ≠ 0) : elf.ObjectEntry (elf.eEntry.toNat % 2 ^ 32)
  | symbol {sym : Sym} (unset : elf.eEntry.toNat % 2 ^ 32 = 0)
    (first : Search.First elf.Enters elf.syms sym) :
      elf.ObjectEntry (elf.objectPlace sym)
  | sections (unset : elf.eEntry.toNat % 2 ^ 32 = 0) (none : ∀ sym ∈ elf.syms, ¬elf.Enters sym) :
      elf.ObjectEntry 0x10000

/-- Where a file is entered: raw bytes at zero, an ELF file whose header has an entry point at its
first `_start`, and without one a linked file where the header says. -/
inductive EnteredAt : Option Elf → Nat → Prop where
  | raw : EnteredAt none 0
  | start {elf : Elf} {sym : Sym} (set : elf.eEntry ≠ 0)
    (first : Search.First elf.Starts elf.syms sym) :
      EnteredAt (some elf) (sym.stValue.toNat % 2 ^ 32)
  | linked {elf : Elf} (plain : elf.eEntry = 0 ∨ ∀ sym ∈ elf.syms, ¬elf.Starts sym)
      (linked : elf.programHeaders ≠ []) : EnteredAt (some elf) (elf.eEntry.toNat % 2 ^ 32)
  | object {elf : Elf} {addr : Nat} (plain : elf.eEntry = 0 ∨ ∀ sym ∈ elf.syms, ¬elf.Starts sym)
      (object : elf.programHeaders = []) (entry : elf.ObjectEntry addr) : EnteredAt (some elf) addr

theorem Elf.ObjectEntry.unique {elf : Elf} {a b : Nat} (entry : elf.ObjectEntry a)
    (other : elf.ObjectEntry b) :
    a = b := by
  cases entry with
  | header set =>
    cases other with
    | header => rfl
    | symbol unset | sections unset => exact absurd unset set
  | symbol unset first =>
    cases other with
    | header set => exact absurd unset set
    | symbol _ first' => rw [first.unique first']
    | sections _ none =>
      obtain ⟨sym, member, enters⟩ := first.exists
      exact absurd enters (none sym member)
  | sections unset none =>
    cases other with
    | header set => exact absurd unset set
    | symbol _ first =>
      obtain ⟨sym, member, enters⟩ := first.exists
      exact absurd enters (none sym member)
    | sections => rfl

theorem not_starts {elf : Elf} {sym : Sym}
    (plain : elf.eEntry = 0 ∨ ∀ sym ∈ elf.syms, ¬elf.Starts sym) (set : elf.eEntry ≠ 0) :
    ¬Search.First elf.Starts elf.syms sym := by
  intro first
  obtain ⟨sym, member, starts⟩ := first.exists
  exact plain.resolve_left set sym member starts

theorem EnteredAt.unique {file : Option Elf} {a b : Nat} (entered : EnteredAt file a)
    (other : EnteredAt file b) :
    a = b := by
  cases entered with
  | raw =>
    cases other with
    | raw => rfl
  | start set first =>
    cases other with
    | start _ first' => rw [first.unique first']
    | linked plain | object plain => exact absurd first (not_starts plain set)
  | linked plain linked =>
    cases other with
    | start set first => exact absurd first (not_starts plain set)
    | linked => rfl
    | object _ object => exact absurd object linked
  | object plain object entry =>
    cases other with
    | start set first => exact absurd first (not_starts plain set)
    | linked _ linked => exact absurd object linked
    | object _ _ entry' => exact entry.unique entry'

/-- Where the loader enters it. -/
def fileEntry : Option Elf → U32
  | none => 0
  | some elf =>
    if elf.programHeaders.isEmpty then elf.objectEntry (sectionAddrsOf 0x10000 elf.sectionHeaders)
    else startOverride elf (elf.eEntry.setWidth 32)

/-- The symbol that overrides an entry point, if there is one. -/
theorem startOverride_cases (elf : Elf) (entryPoint : U32) :
    (∃ sym, elf.eEntry ≠ 0 ∧ Search.First elf.Starts elf.syms sym ∧
      startOverride elf entryPoint = sym.stValue.setWidth 32) ∨
    ((elf.eEntry = 0 ∨ ∀ sym ∈ elf.syms, ¬elf.Starts sym) ∧
      startOverride elf entryPoint = entryPoint) := by
  have same : (fun sym => elf.strtab sym.stName == some "_start".toList && sym.stValue != 0) =
      fun sym => decide (elf.Starts sym) := by
    funext sym
    rw [Bool.eq_iff_iff, decide_eq_true_iff, Bool.and_eq_true_iff, beq_iff_eq, bne_iff_ne]
    simp [Elf.Starts, Elf.Offers, BitVec.toNat_eq]
  rw [startOverride, same]
  by_cases unset : elf.eEntry = 0
  · exact .inr ⟨.inl unset, if_neg (not_not_intro unset)⟩
  rw [if_pos unset]
  cases found : elf.syms.find? fun sym => decide (elf.Starts sym) with
  | some sym => exact .inl ⟨sym, unset, Search.first_iff.mpr found, rfl⟩
  | none =>
    exact .inr ⟨.inr fun sym member => by simpa using List.find?_eq_none.mp found sym member, rfl⟩

/-- What the loader finds for an object file, before a `_start` overrides it. -/
theorem objectEntry_found (elf : Elf) :
    ∃ found, elf.ObjectEntry found.toNat ∧
      elf.objectEntry (sectionAddrsOf 0x10000 elf.sectionHeaders) = startOverride elf found := by
  refine ⟨_, ?_, rfl⟩
  have place (sym : Sym) :
      (sym.objectAddr (sectionAddrsOf 0x10000 elf.sectionHeaders)).toNat = elf.objectPlace sym := by
    rw [Sym.objectAddr, BitVec.toNat_add, BitVec.toNat_setWidth, Elf.objectPlace, Nat.add_mod_mod]
  have same : Sym.isEntry elf.strtab (sectionAddrsOf 0x10000 elf.sectionHeaders) =
      fun sym => decide (elf.Enters sym) := by
    funext sym
    rw [Sym.isEntry, decide_eq_decide, Sym.NamesEntry, Elf.Enters, Elf.Offers, ← place, ne_eq,
      ne_eq, BitVec.toNat_eq]
    simp
  have header : (elf.eEntry.setWidth 32).toNat = elf.eEntry.toNat % 2 ^ 32 :=
    BitVec.toNat_setWidth 32 elf.eEntry
  rw [foundEntry, same]
  by_cases unset : (elf.eEntry.setWidth 32 : U32) = 0
  · have none : elf.eEntry.toNat % 2 ^ 32 = 0 := header.symm.trans (congrArg BitVec.toNat unset)
    rw [if_pos unset]
    cases found : elf.syms.find? fun sym => decide (elf.Enters sym) with
    | none =>
      rw [Option.map_none, Option.getD_none, if_pos rfl]
      exact .sections none fun sym member => by simpa using List.find?_eq_none.mp found sym member
    | some sym =>
      have hit := List.find?_some found
      have enters : elf.Enters sym := by simpa using hit
      have positive : sym.objectAddr (sectionAddrsOf 0x10000 elf.sectionHeaders) ≠ 0 := by
        intro zero
        exact enters.2 ((place sym).symm.trans (congrArg BitVec.toNat zero))
      rw [Option.map_some, Option.getD_some, if_neg positive, place]
      exact .symbol none (Search.first_iff.mpr found)
  · rw [if_neg unset, if_neg unset, header]
    exact .header fun zero => unset (BitVec.eq_of_toNat_eq (header.trans zero))

theorem enteredAt_fileEntry (file : Option Elf) : EnteredAt file (fileEntry file).toNat := by
  cases file with
  | none => exact .raw
  | some elf =>
    rw [fileEntry]
    by_cases object : elf.programHeaders.isEmpty = true
    · obtain ⟨found, here, objectEntry⟩ := objectEntry_found elf
      rw [if_pos object, objectEntry]
      obtain ⟨sym, set, first, entry⟩ | ⟨plain, entry⟩ := startOverride_cases elf found
      · rw [entry, BitVec.toNat_setWidth]
        exact .start set first
      · rw [entry]
        exact .object plain (List.isEmpty_iff.mp object) here
    · rw [if_neg object]
      obtain ⟨sym, set, first, entry⟩ | ⟨plain, entry⟩ :=
        startOverride_cases elf (elf.eEntry.setWidth 32)
      · rw [entry, BitVec.toNat_setWidth]
        exact .start set first
      · rw [entry, BitVec.toNat_setWidth]
        exact .linked plain (mt List.isEmpty_iff.mpr object)

/-- The loader enters a file where it is entered. -/
theorem enteredAt_iff (file : Option Elf) (addr : Nat) :
    EnteredAt file addr ↔ addr = (fileEntry file).toNat := by
  have entered := enteredAt_fileEntry file
  constructor
  · exact fun other => other.unique entered
  · rintro rfl
    exact entered

end Entry

section Settings

/-- A number of a word: hexadecimal digits behind `0x`, or decimal ones. -/
def Numeral (text : Text) (n : Nat) : Prop :=
  (∃ x digits, (x = 'x' ∨ x = 'X') ∧ text = '0' :: x :: digits ∧
    parseUnsigned 16 32 digits = some n) ∨
    parseUnsigned 10 32 text = some n

/-- The value that a setting spells, which is zero if it is no number. -/
def Spells (text : Text) (v : Nat) : Prop := Numeral text v ∨ (∀ n, ¬Numeral text n) ∧ v = 0

/-- The setting gives the register a value. -/
def Sets (usizeBits : Nat) (kv : Text) (r : Fin 32) (v : Nat) : Prop :=
  ∃ regName valStr, kv = regName ++ '=' :: valStr ∧ '=' ∉ regName ∧
    NamesRegister usizeBits (trim regName) r ∧
    Spells (trim valStr) v

/-- The registers at the start: the last setting of a register counts, and without one it is zero,
or the top of the stack. -/
structure StartRegisters (usizeBits : Nat) (items : List Arg) (x : Fin 32 → Nat) : Prop where
  set : ∀ before kv after r v, items = before ++ .setreg (some kv) :: after →
    Sets usizeBits kv r v →
    (∀ later w, .setreg (some later) ∈ after → ¬Sets usizeBits later r w) → x r = v
  unset : ∀ r, (∀ kv v, .setreg (some kv) ∈ items → ¬Sets usizeBits kv r v) →
    x r = if r = 2 then 0x7FFFFFC else 0

theorem parseDigits_lt {radix bits acc n : Nat} {s : Text} (small : acc < 2 ^ bits)
    (parsed : parseDigits radix bits acc s = some n) : n < 2 ^ bits := by
  induction s generalizing acc with
  | nil => exact Option.some_inj.mp parsed ▸ small
  | cons c rest ih =>
    rw [parseDigits] at parsed
    obtain ⟨digit, -, rest⟩ := Option.bind_eq_some_iff.mp parsed
    dsimp only at rest
    split at rest
    · next fits => exact ih fits rest
    · cases rest

theorem parseUnsigned_lt {radix n : Nat} {s : Text} (parsed : parseUnsigned radix 32 s = some n) :
    n < 2 ^ 32 := by
  obtain ⟨digits, whole⟩ : ∃ digits, parseUnsigned radix 32 s =
      if digits.isEmpty then none else parseDigits radix 32 0 digits := ⟨_, rfl⟩
  rw [whole] at parsed
  by_cases empty : digits.isEmpty = true
  · rw [if_pos empty] at parsed
    cases parsed
  · rw [if_neg empty] at parsed
    exact parseDigits_lt (by decide) parsed

/-- A number and the word that the parser makes of it. -/
theorem spelled_number (parsed : Option Nat) (small : ∀ n, parsed = some n → n < 2 ^ 32) (v : Nat) :
    (parsed = some v ∨ (∀ n, parsed ≠ some n) ∧ v = 0) ↔
      (BitVec.ofNat 32 (parsed.getD 0)).toNat = v := by
  cases parsed with
  | none => simp [eq_comm]
  | some n =>
    rw [Option.getD_some, BitVec.toNat_ofNat, Nat.mod_eq_of_lt (small n rfl)]
    simp

theorem spells_iff (text : Text) (v : Nat) : Spells text v ↔ (registerValue text).toNat = v := by
  by_cases hex : ∃ x digits, (x = 'x' ∨ x = 'X') ∧ text = '0' :: x :: digits
  · obtain ⟨x, digits, radix, rfl⟩ := hex
    have value : registerValue ('0' :: x :: digits) = BitVec.ofNat 32
      ((parseUnsigned 16 32 digits).getD 0) := by
      rcases radix with rfl | rfl <;> rfl
    have undecimal : parseUnsigned 10 32 ('0' :: x :: digits) = none := by
      rcases radix with rfl | rfl <;> rfl
    have numeral (n : Nat) : Numeral ('0' :: x :: digits) n ↔
      parseUnsigned 16 32 digits = some n := by
      rw [Numeral, undecimal]
      constructor
      · rintro (⟨x', digits', -, same, parsed⟩ | none)
        · obtain ⟨-, same⟩ := List.cons.inj same
          rw [(List.cons.inj same).2]
          exact parsed
        · cases none
      · exact fun parsed => .inl ⟨x, digits, radix, rfl, parsed⟩
    simp only [Spells, numeral, value]
    exact spelled_number _ (fun n => parseUnsigned_lt) v
  · have value : registerValue text = BitVec.ofNat 32 ((parseUnsigned 10 32 text).getD 0) := by
      unfold registerValue
      split
      · exact absurd ⟨_, _, .inl rfl, rfl⟩ hex
      · exact absurd ⟨_, _, .inr rfl, rfl⟩ hex
      · rfl
    have numeral (n : Nat) : Numeral text n ↔ parseUnsigned 10 32 text = some n := by
      refine or_iff_right ?_
      rintro ⟨x, digits, radix, rfl, -⟩
      exact hex ⟨x, digits, radix, rfl⟩
    simp only [Spells, numeral, value]
    exact spelled_number _ (fun n => parseUnsigned_lt) v

/-- What one argument lays over the registers. -/
def registerPiece (init : Nat × U32) : Fin 32 → Option Nat := fun r =>
  if r ≠ 0 ∧ r.val = init.1 then some init.2.toNat else none

/-- The registers that the parser's entries make. -/
def startRegisters (inits : List (Nat × U32)) : Fin 32 → Nat :=
  Image.stack (fun r => if r = 2 then 0x7FFFFFC else 0) (inits.map registerPiece)

variable {usizeBits : Nat}

theorem said_iff (item : Arg) (r : Fin 32) (v : Nat) :
    (item.init? usizeBits).bind (registerPiece · r) = some v ↔
      ∃ kv, item = .setreg (some kv) ∧ Sets usizeBits kv r v := by
  rw [Option.bind_eq_some_iff]
  constructor
  · rintro ⟨⟨k, w⟩, entry, piece⟩
    rw [registerPiece] at piece
    split at piece
    · next here =>
      cases item with
      | setreg kv =>
        obtain ⟨kv, rfl, entry⟩ := Option.bind_eq_some_iff.mp entry
        obtain ⟨regName, valStr, whole, free, named, value⟩ := setregInit?_eq_some.mp entry
        refine ⟨kv, rfl, regName, valStr, whole, free, here.2 ▸ named, (spells_iff _ _).mpr ?_⟩
        rw [value]
        exact Option.some_inj.mp piece
      | _ => cases entry
    · cases piece
  · rintro ⟨kv, rfl, regName, valStr, whole, free, named, spelled⟩
    refine ⟨(r.val, registerValue (trim valStr)),
      setregInit?_eq_some.mpr ⟨regName, valStr, whole, free, named, rfl⟩, ?_⟩
    have other : r ≠ 0 := by
      rintro rfl
      exact absurd named.1.1 (lt_irrefl 0)
    rw [registerPiece, if_pos ⟨other, rfl⟩]
    exact congrArg some ((spells_iff _ _).mp spelled)

theorem unsaid_iff (item : Arg) (r : Fin 32) :
    (item.init? usizeBits).bind (registerPiece · r) = none ↔
      ∀ kv v, item = .setreg (some kv) → ¬Sets usizeBits kv r v := by
  rw [Option.eq_none_iff_forall_ne_some]
  constructor
  · exact fun none kv v here sets => none v ((said_iff item r v).mpr ⟨kv, here, sets⟩)
  · rintro free v said
    obtain ⟨kv, here, sets⟩ := (said_iff item r v).mp said
    exact free kv v here sets

/-- A register holds what was said of it last. -/
theorem startRegisters_apply (items : List Arg) (r : Fin 32) :
    startRegisters (items.filterMap (Arg.init? usizeBits)) r =
      (items.filterMap fun item => (item.init? usizeBits).bind (registerPiece · r)).getLast?.getD
        (if r = 2 then 0x7FFFFFC else 0) := by
  rw [startRegisters, Image.stack_apply, List.filterMap_map, List.filterMap_filterMap]
  rfl

/-- They are registers at the start. -/
theorem startRegisters_start (items : List Arg) :
    StartRegisters usizeBits items (startRegisters (items.filterMap (Arg.init? usizeBits))) where
  set before kv after r v split sets free := by
    have said := Search.getLast?_filterMap_eq_some.mpr
      ⟨before, _, after, split, (said_iff _ r v).mpr ⟨kv, rfl, sets⟩,
      fun item member => (unsaid_iff item r).mpr fun later w here => free later w (here ▸ member)⟩
    rw [startRegisters_apply, said, Option.getD_some]
  unset r free := by
    rw [startRegisters_apply, List.filterMap_eq_nil_iff.mpr fun item member =>
      (unsaid_iff item r).mpr fun kv v here => free kv v (here ▸ member)]
    rfl

/-- The entries make the registers that the settings are for. -/
theorem startRegisters_iff (items : List Arg) (x : Fin 32 → Nat) :
    StartRegisters usizeBits items x ↔
      x = startRegisters (items.filterMap (Arg.init? usizeBits)) := by
  constructor
  · intro start
    funext r
    by_cases free : ∀ kv v, .setreg (some kv) ∈ items → ¬Sets usizeBits kv r v
    · rw [start.unset r free, (startRegisters_start items).unset r free]
    · rw [startRegisters_apply]
      cases said : (items.filterMap fun item => (item.init? usizeBits).bind
        (registerPiece · r)).getLast? with
      | none =>
        have empty := List.filterMap_eq_nil_iff.mp (List.getLast?_eq_none_iff.mp said)
        exact absurd (fun kv v member => (unsaid_iff _ r).mp (empty _ member) kv v rfl) free
      | some v =>
        obtain ⟨before, item, after, split, here, quiet⟩ :=
          Search.getLast?_filterMap_eq_some.mp said
        obtain ⟨kv, rfl, sets⟩ := (said_iff item r v).mp here
        exact start.set before kv after r v split sets fun later w member => (unsaid_iff _ r).mp
          (quiet _ member) later w rfl
  · rintro rfl
    exact startRegisters_start items

end Settings

section Registers

theorem setRegister_rest (cpu : Cpu) (init : Nat × U32) :
    cpu.setRegister init = { cpu with regs := (cpu.setRegister init).regs } := by
  unfold Cpu.setRegister Cpu.writeReg
  split
  · split <;> rfl
  · rfl

theorem foldl_setRegister_rest (inits : List (Nat × U32)) (cpu : Cpu) :
    inits.foldl Cpu.setRegister cpu =
      { cpu with regs := (inits.foldl Cpu.setRegister cpu).regs } := by
  induction inits generalizing cpu with
  | nil => rfl
  | cons init rest ih =>
    rw [List.foldl_cons, ih, setRegister_rest]

theorem readReg_setRegister (cpu : Cpu) (init : Nat × U32) :
    (fun r => ((cpu.setRegister init).readReg r).toNat) =
      Image.lay (fun r => (cpu.readReg r).toNat) (registerPiece init) := by
  obtain ⟨regIdx, val⟩ := init
  funext r
  rw [Image.lay, registerPiece, Cpu.setRegister]
  by_cases bound : regIdx < 32
  · rw [dif_pos bound, readReg_writeReg]
    by_cases here : r = ⟨regIdx, bound⟩
    · subst here
      by_cases zero : regIdx = 0 <;> simp [zero]
    · have other : ¬(r ≠ 0 ∧ r.val = regIdx) := fun both => here (Fin.ext both.2)
      have kept : Function.update cpu.readReg ⟨regIdx, bound⟩ val r = cpu.readReg r :=
        Function.update_of_ne here _ _
      rw [if_neg other, kept, ite_self]
      rfl
  · have other : ¬(r ≠ 0 ∧ r.val = regIdx) := fun both => bound (both.2 ▸ r.isLt)
    rw [dif_neg bound, if_neg other]
    rfl

theorem readReg_foldl (inits : List (Nat × U32)) (cpu : Cpu) :
    (fun r => ((inits.foldl Cpu.setRegister cpu).readReg r).toNat) =
      Image.stack (fun r => (cpu.readReg r).toNat) (inits.map registerPiece) := by
  induction inits generalizing cpu with
  | nil => rfl
  | cons init rest ih =>
    rw [List.foldl_cons, ih, readReg_setRegister]
    rfl

theorem readReg_new :
    (fun r => (Cpu.new.readReg r).toNat) = fun r : Fin 32 => if r = 2 then 0x7FFFFFC else 0 :=
  funext (by decide)

end Registers

end RiscvRs
