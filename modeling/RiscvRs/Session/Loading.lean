import RiscvRs.Lib.Image
import RiscvRs.Memory.Bulk
import RiscvRs.Session.Frames

/-! The loader step by step: one equation for each thing it can do with a segment or a
section of a file, and its run up to these. -/

namespace RiscvRs

open Effects Prog

section Arithmetic

variable (build : Build)

/-- A sum that fits in a `usize`. -/
def Build.Fits (a b : Nat) : Prop := a + b < 2 ^ build.usizeBits

variable {build}

theorem addUsize_fits {a b : Nat} (fits : build.Fits a b) : build.addUsize a b = pure (a + b) := by
  unfold Build.addUsize
  rw [if_neg (fun large => Nat.not_le_of_lt fits large.2), Nat.mod_eq_of_lt fits]

theorem addUsize_overflow {a b : Nat} (checked : build.overflowChecks = true)
    (large : ¬build.Fits a b) :
    build.addUsize a b = panic :=
  if_pos ⟨checked, Nat.le_of_not_lt large⟩

theorem addUsize_wraps {a b : Nat} (unchecked : build.overflowChecks = false) :
    build.addUsize a b = pure ((a + b) % 2 ^ build.usizeBits) :=
  if_neg fun large => Bool.false_ne_true (unchecked.symm.trans large.1)

theorem addU32_fits {a b : U32} (fits : a.toNat + b.toNat < 2 ^ 32) :
    (build.addU32 a b : Api U32) = pure (a + b) :=
  if_neg fun large => Nat.not_le_of_lt fits large.2

theorem addU32_overflow {a b : U32} (checked : build.overflowChecks = true)
    (large : 2 ^ 32 ≤ a.toNat + b.toNat) :
    (build.addU32 a b : Api U32) = panic :=
  if_pos ⟨checked, large⟩

theorem predU32_fits {a : U32} (positive : 1 ≤ a.toNat) : build.subU32 a 1 = pure (a - 1) :=
  if_neg fun under => Nat.not_le_of_lt under.2 positive

theorem predU32_overflow {a : U32} (checked : build.overflowChecks = true) (zero : ¬1 ≤ a.toNat) :
    build.subU32 a 1 = panic :=
  if_pos ⟨checked, Nat.lt_of_not_le zero⟩

theorem panic_bind {α β : Type} (f : α → Api β) : (panic >>= f : Api β) = panic := rfl

end Arithmetic

/-- The `size` bytes of a file from `offset` on. -/
def filePart (bytes : List U8) (offset size : Nat) : List U8 := (bytes.drop offset).take size

theorem length_filePart {bytes : List U8} {offset size : Nat}
    (inside : offset + size ≤ bytes.length) :
    (filePart bytes offset size).length = size := by
  rw [filePart, List.length_take, List.length_drop]
  omega

theorem byteRange?_inside {bytes : List U8} {offset size : Nat}
    (inside : offset + size ≤ bytes.length) :
    byteRange? bytes offset (offset + size) = some (filePart bytes offset size) := by
  rw [byteRange?, if_pos (Nat.le_add_right _ _), Nat.add_sub_cancel_left]
  exact if_pos inside

section Segments

variable {env : Env} {bytes : List U8} {phdr : ProgramHeader}

theorem loadSegments_other (other : phdr.pType ≠ ptLoad) (rest : List ProgramHeader) :
    loadSegments env bytes (phdr :: rest) = loadSegments env bytes rest := by
  rw [loadSegments, if_neg other]

theorem loadSegments_overflow (load : phdr.pType = ptLoad)
    (checked : env.build.overflowChecks = true)
    (large : ¬env.build.Fits (env.build.toUsize phdr.pOffset) (env.build.toUsize phdr.pFilesz))
    (rest : List ProgramHeader) : loadSegments env bytes (phdr :: rest) = panic := by
  rw [loadSegments, if_pos load]
  dsimp only
  rw [addUsize_overflow checked large]
  rfl

variable (load : phdr.pType = ptLoad)
  (fits : env.build.Fits (env.build.toUsize phdr.pOffset) (env.build.toUsize phdr.pFilesz))

include load fits

theorem loadSegments_outside
    (outside : bytes.length < env.build.toUsize phdr.pOffset + env.build.toUsize phdr.pFilesz)
    (rest : List ProgramHeader) :
    loadSegments env bytes (phdr :: rest) = loadSegments env bytes rest := by
  rw [loadSegments, if_pos load]
  dsimp only
  rw [addUsize_fits fits, pure_bind, if_neg (Nat.not_le_of_lt outside)]

theorem loadSegments_inside
    (inside : env.build.toUsize phdr.pOffset + env.build.toUsize phdr.pFilesz ≤ bytes.length)
    (rest : List ProgramHeader) : loadSegments env bytes (phdr :: rest) = (do
      onMemory (Memory.writeBytes (phdr.pVaddr.setWidth 32)
        (filePart bytes (env.build.toUsize phdr.pOffset) (env.build.toUsize phdr.pFilesz)))
      loadSegments env bytes rest) := by
  rw [loadSegments, if_pos load]
  dsimp only
  rw [addUsize_fits fits, pure_bind, if_pos inside, pure_bind, byteRange?_inside inside,
    expect_some, pure_bind]

end Segments

section Place

/-- The alignment of a section that has no address of its own, as the layout computes with it. -/
def SectionHeader.align (shdr : SectionHeader) : U32 :=
  if shdr.shAddralign > 0 then shdr.shAddralign.setWidth 32 else 4

/-- The next aligned address. -/
def SectionHeader.assigned (shdr : SectionHeader) (currentAddr : U32) : U32 :=
  (currentAddr + shdr.align - 1) &&& ~~~(shdr.align - 1)

/-- The size of a section, as the layout adds it. -/
def SectionHeader.size32 (shdr : SectionHeader) (build : Build) : U32 :=
  BitVec.ofNat 32 (build.toUsize shdr.shSize)

/-- The layout's arithmetic stays within 32 bits. -/
structure SectionHeader.Placeable (shdr : SectionHeader) (build : Build)
    (currentAddr : U32) : Prop where
  sum : currentAddr.toNat + shdr.align.toNat < 2 ^ 32
  positive : 1 ≤ shdr.align.toNat
  stop : (shdr.assigned currentAddr).toNat + (shdr.size32 build).toNat < 2 ^ 32

variable {env : Env} {shdr : SectionHeader} {currentAddr : U32}

theorem placeSection_own (own : shdr.shAddr ≠ 0) :
    placeSection env shdr currentAddr = pure (shdr.shAddr.setWidth 32, currentAddr) :=
  if_pos own

variable (none : shdr.shAddr = 0)

include none

theorem placeSection_unfold : placeSection env shdr currentAddr = (do
    let sum ← env.build.addU32 currentAddr shdr.align
    let padded ← env.build.subU32 sum 1
    let mask ← env.build.subU32 shdr.align 1
    let next ← env.build.addU32 (padded &&& ~~~mask) (shdr.size32 env.build)
    return (padded &&& ~~~mask, next)) :=
  if_neg (not_not_intro none)

theorem placeSection_next (placeable : shdr.Placeable env.build currentAddr) :
    placeSection env shdr currentAddr =
      pure (shdr.assigned currentAddr, shdr.assigned currentAddr + shdr.size32 env.build) := by
  have sum : 1 ≤ (currentAddr + shdr.align).toNat := by
    rw [BitVec.toNat_add_of_lt placeable.sum]
    exact Nat.le_trans placeable.positive (Nat.le_add_left _ _)
  rw [placeSection_unfold none, addU32_fits placeable.sum, pure_bind, predU32_fits sum, pure_bind,
    predU32_fits placeable.positive, pure_bind]
  change (env.build.addU32 (shdr.assigned currentAddr) _ >>= _) = _
  rw [addU32_fits placeable.stop, pure_bind]
  rfl

theorem placeSection_overflow (checked : env.build.overflowChecks = true)
    (large : ¬shdr.Placeable env.build currentAddr) :
    placeSection env shdr currentAddr = panic := by
  rw [placeSection_unfold none]
  by_cases sum : currentAddr.toNat + shdr.align.toNat < 2 ^ 32
  · rw [addU32_fits sum, pure_bind]
    by_cases positive : 1 ≤ shdr.align.toNat
    · have padded : 1 ≤ (currentAddr + shdr.align).toNat := by
        rw [BitVec.toNat_add_of_lt sum]
        exact Nat.le_trans positive (Nat.le_add_left _ _)
      have stop : 2 ^ 32 ≤ (shdr.assigned currentAddr).toNat + (shdr.size32 env.build).toNat := by
        by_contra fits
        exact large ⟨sum, positive, Nat.lt_of_not_le fits⟩
      rw [predU32_fits padded, pure_bind, predU32_fits positive, pure_bind]
      change (env.build.addU32 (shdr.assigned currentAddr) _ >>= _) = _
      rw [addU32_overflow checked stop]
      rfl
    · rw [predU32_overflow checked positive]
      by_cases padded : 1 ≤ (currentAddr + shdr.align).toNat
      · rw [predU32_fits padded]
        rfl
      · rw [predU32_overflow checked padded]
        rfl
  · rw [addU32_overflow checked (Nat.le_of_not_lt sum)]
    rfl

end Place

section Sections

/-- The loader gives the section an address. -/
def SectionHeader.Listed (shdr : SectionHeader) (build : Build) : Prop :=
  build.toUsize shdr.shSize > 0 ∧ (shdr.shFlags &&& 2 ≠ 0 ∨ shdr.shType = shtProgbits)

instance (shdr : SectionHeader) (build : Build) : Decidable (shdr.Listed build) :=
  inferInstanceAs (Decidable (_ ∧ _))

variable {env : Env} {bytes : List U8} {shdr : SectionHeader} {currentAddr : U32}
  {sectionAddrs : List U32}

theorem loadSections_unlisted (unlisted : ¬shdr.Listed env.build) (rest : List SectionHeader) :
    loadSections env bytes (shdr :: rest) currentAddr sectionAddrs =
      loadSections env bytes rest currentAddr (sectionAddrs ++ [0]) :=
  if_neg unlisted

variable (listed : shdr.Listed env.build)

include listed

theorem loadSections_nobits (nobits : shdr.shType = shtNobits) (rest : List SectionHeader) :
    loadSections env bytes (shdr :: rest) currentAddr sectionAddrs = (do
      let (addr, currentAddr) ← placeSection env shdr currentAddr
      loadSections env bytes rest currentAddr (sectionAddrs ++ [addr])) := by
  rw [loadSections]
  dsimp only
  rw [if_pos (show _ ∧ _ from listed)]
  simp only [nobits, ne_eq, not_true_eq_false, if_false]

variable (bits : shdr.shType ≠ shtNobits)

include bits

theorem loadSections_overflow (checked : env.build.overflowChecks = true)
    (large : ¬env.build.Fits (env.build.toUsize shdr.shOffset) (env.build.toUsize shdr.shSize))
    (rest : List SectionHeader) : loadSections env bytes (shdr :: rest) currentAddr sectionAddrs =
      placeSection env shdr currentAddr >>= fun _ => panic := by
  rw [loadSections]
  dsimp only
  rw [if_pos (show _ ∧ _ from listed)]
  simp only [bits, ne_eq, not_false_eq_true, if_true, addUsize_overflow checked large, panic_bind]

variable (fits : env.build.Fits (env.build.toUsize shdr.shOffset) (env.build.toUsize shdr.shSize))

include fits

theorem loadSections_outside
    (outside : bytes.length < env.build.toUsize shdr.shOffset + env.build.toUsize shdr.shSize)
    (rest : List SectionHeader) :
    loadSections env bytes (shdr :: rest) currentAddr sectionAddrs = (do
      let (addr, currentAddr) ← placeSection env shdr currentAddr
      loadSections env bytes rest currentAddr (sectionAddrs ++ [addr])) := by
  rw [loadSections]
  dsimp only
  rw [if_pos (show _ ∧ _ from listed)]
  simp only [bits, ne_eq, not_false_eq_true, if_true, addUsize_fits fits, pure_bind,
    if_neg (Nat.not_le_of_lt outside)]

theorem loadSections_inside
    (inside : env.build.toUsize shdr.shOffset + env.build.toUsize shdr.shSize ≤ bytes.length)
    (rest : List SectionHeader) :
    loadSections env bytes (shdr :: rest) currentAddr sectionAddrs = (do
      let (addr, currentAddr) ← placeSection env shdr currentAddr
      onMemory (Memory.writeBytes addr
        (filePart bytes (env.build.toUsize shdr.shOffset) (env.build.toUsize shdr.shSize)))
      loadSections env bytes rest currentAddr (sectionAddrs ++ [addr])) := by
  rw [loadSections]
  dsimp only
  rw [if_pos (show _ ∧ _ from listed)]
  simp only [bits, ne_eq, not_false_eq_true, if_true, addUsize_fits fits, pure_bind, if_pos inside,
    byteRange?_inside inside, expect_some]

end Sections

section Symbols

/-- The name the loader enters for a symbol. -/
def Sym.name? (sym : Sym) (strtab : Nat → Option Text) : Option Text :=
  (strtab sym.stName).filter fun name => !name.isEmpty

/-- The address of a symbol of an object file. -/
def Sym.objectAddr (sym : Sym) (sectionAddrs : List U32) : U32 :=
  sectionAddrs.getD sym.stShndx 0x10000 + sym.stValue.setWidth 32

/-- One entry of the symbol table. -/
def symbolEntry (addr : U32) (name : Text) : U32 → Option (Option Text) :=
  fun x => if x = addr then some (some name) else none

/-- The entries of an object file, in table order. -/
def objectEntries (strtab : Nat → Option Text) (sectionAddrs : List U32) (syms : List Sym) :
    List (U32 → Option (Option Text)) :=
  syms.filterMap fun sym => (sym.name? strtab).map (symbolEntry (sym.objectAddr sectionAddrs))

theorem update_eq_lay (symbols : U32 → Option Text) (addr : U32) (name : Text) :
    Function.update symbols addr (some name) = Image.lay symbols (symbolEntry addr name) := by
  funext x
  by_cases here : x = addr
  · rw [here, Function.update_self, Image.lay, symbolEntry, if_pos rfl]
    rfl
  · rw [Function.update_of_ne here, Image.lay, symbolEntry, if_neg here]
    rfl

/-- The symbol may name the entry point. -/
def Sym.NamesEntry (sym : Sym) (strtab : Nat → Option Text) : Prop :=
  strtab sym.stName = some "_start".toList ∨ strtab sym.stName = some "main".toList

instance (sym : Sym) (strtab : Nat → Option Text) : Decidable (sym.NamesEntry strtab) :=
  inferInstanceAs (Decidable (_ ∨ _))

/-- The symbol would be taken for the entry point, which is not zero then. -/
def Sym.isEntry (strtab : Nat → Option Text) (sectionAddrs : List U32) (sym : Sym) : Bool :=
  decide (sym.NamesEntry strtab ∧ sym.objectAddr sectionAddrs ≠ 0)

/-- The entry point after the symbols. -/
def foundEntry (strtab : Nat → Option Text) (sectionAddrs : List U32) (syms : List Sym)
    (entryPoint : U32) : U32 :=
  if entryPoint = 0 then
    ((syms.find? (Sym.isEntry strtab sectionAddrs)).map (Sym.objectAddr · sectionAddrs)).getD 0
  else entryPoint

section Found

variable {strtab : Nat → Option Text} {sectionAddrs : List U32} {sym : Sym} {rest : List Sym}
  {entryPoint : U32}

theorem foundEntry_other (other : ¬sym.NamesEntry strtab ∨ entryPoint ≠ 0) :
    foundEntry strtab sectionAddrs (sym :: rest) entryPoint = foundEntry strtab sectionAddrs rest
      entryPoint := by
  unfold foundEntry
  by_cases zero : entryPoint = 0
  · have passed : ¬sym.isEntry strtab sectionAddrs = true := fun entry =>
      (other.resolve_right (not_not_intro zero)) (of_decide_eq_true entry).1
    rw [if_pos zero, if_pos zero, List.find?_cons_of_neg passed]
  · rw [if_neg zero, if_neg zero]

/-- A symbol at zero is passed over: the entry point is still zero behind it. -/
theorem foundEntry_entry (named : sym.NamesEntry strtab) :
    foundEntry strtab sectionAddrs (sym :: rest) 0 =
      foundEntry strtab sectionAddrs rest (sym.objectAddr sectionAddrs) := by
  unfold foundEntry
  rw [if_pos rfl]
  by_cases zero : sym.objectAddr sectionAddrs = 0
  · have passed : ¬sym.isEntry strtab sectionAddrs = true :=
      fun entry => (of_decide_eq_true entry).2 zero
    rw [if_pos zero, List.find?_cons_of_neg passed]
  · have taken : sym.isEntry strtab sectionAddrs = true := decide_eq_true ⟨named, zero⟩
    rw [if_neg zero, List.find?_cons_of_pos taken, Option.map_some, Option.getD_some]

end Found

theorem foundEntry_nil (strtab : Nat → Option Text) (sectionAddrs : List U32) (entryPoint : U32) :
    foundEntry strtab sectionAddrs [] entryPoint = entryPoint := by
  unfold foundEntry
  split
  · next zero => exact zero.symm
  · rfl

/-- A symbol without a name is no entry point. -/
theorem Sym.not_namesEntry {sym : Sym} {strtab : Nat → Option Text}
    (unnamed : sym.name? strtab = none) :
    ¬sym.NamesEntry strtab := by
  rw [Sym.name?] at unnamed
  rintro (start | main)
  · rw [start] at unnamed
    cases unnamed
  · rw [main] at unnamed
    cases unnamed

theorem insertSymbol_run (addr : U32) (name : Text) (s : Simulator) :
    (insertSymbol addr name).run s =
    .ok () { s with symbols := Image.lay s.symbols (symbolEntry addr name) } := by
  rw [← update_eq_lay]
  rfl

theorem loadObjectSymbols_run (strtab : Nat → Option Text) (sectionAddrs : List U32)
    (syms : List Sym)
    (entryPoint : U32) (s : Simulator) :
    (loadObjectSymbols strtab sectionAddrs syms entryPoint).run s =
      .ok (foundEntry strtab sectionAddrs syms entryPoint)
        { s with symbols := Image.stack s.symbols (objectEntries strtab sectionAddrs syms) } := by
  induction syms generalizing entryPoint s with
  | nil =>
    rw [foundEntry_nil]
    rfl
  | cons sym rest ih =>
    have unnamed (none : sym.name? strtab = none) : foundEntry strtab sectionAddrs
      (sym :: rest) entryPoint = _ :=
      foundEntry_other (.inl (Sym.not_namesEntry none))
    rw [loadObjectSymbols, objectEntries, List.filterMap_cons]
    rw [Sym.name?] at unnamed ⊢
    cases called : strtab sym.stName with
    | none =>
      rw [called] at unnamed
      rw [unnamed rfl]
      exact ih entryPoint s
    | some name =>
      rw [called] at unnamed
      by_cases empty : name.isEmpty = true
      · simp only [empty, Bool.not_true, Bool.false_eq_true, if_false, Option.filter_some,
          Option.map_none] at unnamed ⊢
        rw [unnamed trivial]
        exact ih entryPoint s
      · have names : sym.NamesEntry strtab ↔ name = "_start".toList ∨ name = "main".toList := by
          rw [Sym.NamesEntry, called, Option.some_inj, Option.some_inj]
        simp only [empty, Bool.not_false, if_true, Option.filter_some, Option.map_some]
        rw [run_bind, insertSymbol_run, Outcome.andThen_ok, Image.stack, List.foldl_cons]
        by_cases entry : sym.NamesEntry strtab ∧ entryPoint = 0
        · obtain ⟨named, rfl⟩ := entry
          rw [if_pos ⟨names.mp named, rfl⟩, foundEntry_entry named]
          exact ih _ _
        · rw [if_neg (fun taken => entry ⟨names.mpr taken.1, taken.2⟩),
            foundEntry_other (not_and_or.mp entry)]
          exact ih _ _

theorem loadLinkedSymbols_run (strtab : Nat → Option Text) (syms : List Sym) (s : Simulator) :
    ∃ symbols, (loadLinkedSymbols strtab syms).run s = .ok () { s with symbols := symbols } := by
  induction syms generalizing s with
  | nil => exact ⟨s.symbols, rfl⟩
  | cons sym rest ih =>
    rw [loadLinkedSymbols]
    split
    · split
      · exact ih { s with symbols := Function.update s.symbols (sym.stValue.setWidth 32) _ }
      · exact ih s
    · exact ih s

end Symbols

section Arguments

/-- Every register an argument names exists. -/
def SimConfig.InRange (config : SimConfig) : Prop := ∀ init ∈ config.registerInits, init.1 < 32

theorem SimConfig.inRange_parseSetreg {config : SimConfig} (inRange : config.InRange)
    (usizeBits : Nat) (kv : Text) :
    (config.parseSetreg usizeBits kv).InRange := by
  unfold SimConfig.parseSetreg
  split
  · dsimp only
    split
    · next named =>
      intro init member
      rcases List.mem_append.mp member with old | new
      · exact inRange init old
      · rw [List.mem_singleton.mp new]
        exact named.2
    · exact inRange
  · exact inRange

theorem SimConfig.inRange_parseArgsFrom {usizeBits : Nat} {config : SimConfig}
    (inRange : config.InRange)
    (args : List Text) : (SimConfig.parseArgsFrom usizeBits config args).InRange := by
  fun_induction SimConfig.parseArgsFrom usizeBits config args
  case case1 | case4 | case6 | case9 => exact inRange
  case case7 ih | case8 ih => exact ih (inRange_parseSetreg inRange _ _)
  case case2 ih | case3 ih | case5 ih | case10 ih | case11 ih | case12 ih => exact ih inRange

/-- One argument's register, set. -/
def Cpu.setRegister (cpu : Cpu) (init : Nat × U32) : Cpu :=
  if bound : init.1 < 32 then cpu.writeReg ⟨init.1, bound⟩ init.2 else cpu

theorem initRegisters_run {inits : List (Nat × U32)} (inRange : ∀ init ∈ inits, init.1 < 32)
    (s : Simulator) :
    (initRegisters inits).run s =
      .ok () { s with
        tracked := s.tracked.withCpu
          (inits.foldl Cpu.setRegister s.tracked.cpu) } := by
  induction inits generalizing s with
  | nil => rfl
  | cons init rest ih =>
    obtain ⟨regIdx, val⟩ := init
    have bound : regIdx < 32 := inRange _ List.mem_cons_self
    have set : s.tracked.cpu.setRegister (regIdx, val) = s.tracked.cpu.writeReg
      ⟨regIdx, bound⟩ val := dif_pos bound
    rw [initRegisters, dif_pos bound, List.foldl_cons, set]
    exact ih (fun init member => inRange init (List.mem_cons_of_mem _ member))
      { s with tracked := s.tracked.withCpu (s.tracked.cpu.writeReg ⟨regIdx, bound⟩ val) }

end Arguments

section Load

variable {env : Env} {bytes : List U8} {elf : Elf} {s s₁ : Simulator}

/-- Copying always succeeds; the bytes go out one by one. -/
theorem run_copy (addr : U32) (content : List U8) (s : Simulator) :
    ∃ bus, (Memory.writeEach addr content : Prog Bus Empty _).run s.tracked.machine.bus = .ok () bus ∧
      (onMemory (Memory.writeBytes addr content)).run s = .ok () (s.withBus bus) := by
  obtain ⟨bus, written⟩ := writeEach_ok (ε := Empty) s.tracked.machine.bus addr content
  exact ⟨bus, written, run_onMemory ((writeBytes_each _ addr content).trans written)⟩

/-- The stretch of a file that is seen at addresses from `addr` on. -/
def window (bytes : List U8) (offset addr size : Nat) : U32 → Option U8 := fun a =>
  if addr ≤ a.toNat ∧ a.toNat < addr + size then some
    (bytes.getD (offset + (a.toNat - addr)) 0) else none

theorem put_filePart {offset size : Nat} (inside : offset + size ≤ bytes.length) {addr : U32}
    (below : addr.toNat + size ≤ 0xFFFF0000) (base : U32 → U8) :
    Bytes.put base addr (filePart bytes offset size) = Image.lay base
      (window bytes offset addr.toNat size) := by
  funext a
  have size_ := length_filePart inside
  rw [Bytes.put_apply _ _ _ (by omega), Image.lay, window]
  by_cases here : addr.toNat ≤ a.toNat ∧ a.toNat < addr.toNat + size
  · have distance : (a - addr).toNat = a.toNat - addr.toNat := BitVec.toNat_sub_of_le here.1
    rw [if_pos here, distance, List.getD_eq_getElem _ _ (by omega), Option.getD_some,
      List.getD_eq_getElem _ _ (by omega)]
    simp only [filePart, List.getElem_take, List.getElem_drop]
  · have far : size ≤ (a - addr).toNat := by
      have wraps := a.isLt
      rw [BitVec.toNat_sub]
      omega
    rw [if_neg here, List.getD_eq_default _ _ (by omega)]
    rfl

/-- Only the bytes of RAM differ. -/
structure Bus.Recopied (bus bus' : Bus) : Prop where
  world : bus'.world = bus.world
  brkPtr : bus'.mem.brkPtr = bus.mem.brkPtr
  initialBrk : bus'.mem.initialBrk = bus.mem.initialBrk

theorem Bus.Recopied.refl (bus : Bus) : bus.Recopied bus := ⟨rfl, rfl, rfl⟩

theorem Bus.Recopied.trans {bus bus' bus'' : Bus} (first : bus.Recopied bus')
    (second : bus'.Recopied bus'') :
    bus.Recopied bus'' :=
  ⟨second.world.trans first.world, second.brkPtr.trans first.brkPtr,
    second.initialBrk.trans first.initialBrk⟩

/-- A copy into RAM lays a window of the file over it. -/
theorem run_copy_ram {offset size : Nat} (inside : offset + size ≤ bytes.length) (addr : U32)
    (below : addr.toNat + size ≤ 0xFFFF0000) (s : Simulator) :
    ∃ bus, (onMemory (Memory.writeBytes addr (filePart bytes offset size))).run s = .ok ()
      (s.withBus bus) ∧
      bus.mem.flat = Image.lay s.tracked.machine.bus.mem.flat
        (window bytes offset addr.toNat size) ∧
      s.tracked.machine.bus.Recopied bus := by
  obtain ⟨mem, written, flat, brk, initial⟩ := writeEach_ram (ε := Empty) s.tracked.machine.bus addr
    (filePart bytes offset size) (by rwa [length_filePart inside])
  refine ⟨_, run_onMemory ((writeBytes_each _ addr _).trans written), ?_, ⟨rfl, brk, initial⟩⟩
  rw [← put_filePart inside below]
  exact flat

theorem loadElf_linked_eq (linked : elf.programHeaders ≠ []) : loadElf env bytes elf = (do
    loadSegments env bytes elf.programHeaders
    loadLinkedSymbols elf.strtab elf.syms
    onCpu fun cpu => { cpu with pc := startOverride elf (elf.eEntry.setWidth 32) }
    return startOverride elf (elf.eEntry.setWidth 32)) := by
  have some : (!elf.programHeaders.isEmpty) = true := by
    rw [Bool.not_eq_true', List.isEmpty_eq_false_iff]
    exact linked
  rw [loadElf]
  dsimp only
  rw [if_pos some]
  rfl

theorem loadElf_object_eq (object : elf.programHeaders = []) : loadElf env bytes elf = (do
    let sectionAddrs ← loadSections env bytes elf.sectionHeaders 0x10000 []
    let found ← loadObjectSymbols elf.strtab sectionAddrs elf.syms (elf.eEntry.setWidth 32)
    let entryPoint := startOverride elf (if found = 0 then 0x10000 else found)
    onCpu fun cpu => { cpu with pc := entryPoint }
    return entryPoint) := by
  have none : ¬(!elf.programHeaders.isEmpty) = true := by
    rw [object]
    decide
  rw [loadElf]
  dsimp only
  rw [if_neg none]
  rfl

/-- What remains after the segments enters the symbols and goes to the entry point. -/
theorem loadElf_linked_machine (linked : elf.programHeaders ≠ [])
    (run : (loadSegments env bytes elf.programHeaders).run s = .ok () s₁) :
    ∃ s', (loadElf env bytes elf).run s = .ok (startOverride elf (elf.eEntry.setWidth 32)) s' ∧
      s'.tracked.machine =
        ⟨{ s₁.tracked.machine.cpu with pc := startOverride elf (elf.eEntry.setWidth 32) },
        s₁.tracked.machine.bus⟩ := by
  obtain ⟨symbols, entered⟩ := loadLinkedSymbols_run elf.strtab elf.syms s₁
  rw [loadElf_linked_eq linked, run_bind, run, Outcome.andThen_ok, run_bind, entered]
  exact ⟨_, rfl, rfl⟩

/-- It changes neither memory nor host. -/
theorem loadElf_linked (linked : elf.programHeaders ≠ [])
    (run : (loadSegments env bytes elf.programHeaders).run s = .ok () s₁) :
    ∃ entry s', (loadElf env bytes elf).run s = .ok entry s' ∧
      s'.tracked.machine.bus = s₁.tracked.machine.bus := by
  obtain ⟨s', loaded, machine⟩ := loadElf_linked_machine linked run
  have bus := congrArg Machine.bus machine
  exact ⟨_, s', loaded, bus⟩

/-- The entry point of an object file. -/
def Elf.objectEntry (elf : Elf) (sectionAddrs : List U32) : U32 :=
  let found := foundEntry elf.strtab sectionAddrs elf.syms (elf.eEntry.setWidth 32)
  startOverride elf (if found = 0 then 0x10000 else found)

/-- What remains after the sections enters the symbols and goes to the entry point. -/
theorem loadElf_object (object : elf.programHeaders = []) {sectionAddrs : List U32}
    (run : (loadSections env bytes elf.sectionHeaders 0x10000 []).run s = .ok sectionAddrs s₁) :
    ∃ s', (loadElf env bytes elf).run s = .ok (elf.objectEntry sectionAddrs) s' ∧
      s'.tracked.machine.bus = s₁.tracked.machine.bus ∧
      s'.symbols = Image.stack s₁.symbols (objectEntries elf.strtab sectionAddrs elf.syms) ∧
      s'.tracked.machine.cpu.pc = elf.objectEntry sectionAddrs := by
  have entered := loadObjectSymbols_run elf.strtab sectionAddrs elf.syms (elf.eEntry.setWidth 32) s₁
  rw [loadElf_object_eq object, run_bind, run, Outcome.andThen_ok, run_bind, entered]
  exact ⟨_, rfl, rfl, rfl, rfl⟩

/-- The same for the sections of an object file. -/
theorem loadElf_object_machine (object : elf.programHeaders = []) {sectionAddrs : List U32}
    (run : (loadSections env bytes elf.sectionHeaders 0x10000 []).run s = .ok sectionAddrs s₁) :
    ∃ s', (loadElf env bytes elf).run s = .ok (elf.objectEntry sectionAddrs) s' ∧
      s'.tracked.machine = ⟨{ s₁.tracked.machine.cpu with pc := elf.objectEntry sectionAddrs },
        s₁.tracked.machine.bus⟩ := by
  have entered := loadObjectSymbols_run elf.strtab sectionAddrs elf.syms (elf.eEntry.setWidth 32) s₁
  rw [loadElf_object_eq object, run_bind, run, Outcome.andThen_ok, run_bind, entered]
  exact ⟨_, rfl, rfl⟩

/-- A reset simulator, with the registers of the arguments set. -/
def Simulator.prepared (s : Simulator) (build : Build) (args : List Text) : Simulator :=
  let inits := (SimConfig.parseArgs build.usizeBits args).registerInits
  { s.reset with
    tracked := s.reset.tracked.withCpu
      (inits.foldl Cpu.setRegister s.reset.tracked.cpu) }

/-- A load starts there. -/
theorem loadBinaryWithArgs_prepared (env : Env) (bytes : List U8) (parse : ElfParser)
    (args : List Text) (s : Simulator) :
    (loadBinaryWithArgs env bytes parse args).run s =
      (match parse bytes with
        | some elf => loadElf env bytes elf
        | none => do
          onMemory (Memory.writeBytes 0 bytes)
          onCpu fun cpu => { cpu with pc := 0 }
          return 0 : Api U32).run (s.prepared env.build args) := by
  have inRange : (SimConfig.parseArgs env.build.usizeBits args).InRange :=
    SimConfig.inRange_parseArgsFrom (fun init member => absurd member List.not_mem_nil) args
  change ((initRegisters _).run s.reset).andThen _ = _
  rw [initRegisters_run inRange s.reset]
  rfl

theorem loadBinaryWithArgs_run (env : Env) (bytes : List U8) (parse : ElfParser) (args : List Text)
    (s : Simulator) :
    ∃ cpu, (loadBinaryWithArgs env bytes parse args).run s =
      (match parse bytes with
        | some elf => loadElf env bytes elf
        | none => do
          onMemory (Memory.writeBytes 0 bytes)
          onCpu fun cpu => { cpu with pc := 0 }
          return 0 : Api U32).run { s.reset with tracked := s.reset.tracked.withCpu cpu } :=
  ⟨_, loadBinaryWithArgs_prepared env bytes parse args s⟩

end Load

end RiscvRs
