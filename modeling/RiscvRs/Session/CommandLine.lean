import RiscvRs.Session.Arguments
import RiscvRs.Session.Loading

/-! What a command line says: its options with their values, and what the parser makes of
them. The parser takes every argument that begins with `--setreg` for that option. -/

namespace RiscvRs

open Effects Prog

/-- What one or two arguments say. An option that is left without a value has none. -/
inductive Arg where
  | newlib (path : Option Text)
  | isa (value : Option Text)
  | setreg (kv : Option Text)
  | interactive
  | dashed (text : Text)
  | positional (text : Text)
deriving DecidableEq, Repr

namespace Arg

section Reading

variable (setting : Text → Bool)

/-- The reading of a command line, from left to right, by what is taken for a setting. -/
def readBy : List Text → List Arg
  | [] => []
  | arg :: rest =>
    if arg = "--newlib".toList ∨ arg = "-n".toList then
      match rest with
      | next :: rest' =>
        if !startsWithDash next then .newlib (some next) :: readBy rest' else .newlib none :: readBy
          (next :: rest')
      | [] => [.newlib none]
    else if arg = "--isa".toList then
      match rest with
      | value :: rest' => .isa (some value) :: readBy rest'
      | [] => [.isa none]
    else if setting arg then
      match stripPrefix? "--setreg=".toList arg with
      | some kv => .setreg (some kv) :: readBy rest
      | none =>
        match rest with
        | kv :: rest' => .setreg (some kv) :: readBy rest'
        | [] => [.setreg none]
    else if arg = "--interactive".toList then .interactive :: readBy rest
    else if startsWithDash arg then .dashed arg :: readBy rest
    else .positional arg :: readBy rest

end Reading

/-- The option for a register: `--setreg`, with the setting behind it, or `--setreg=` before it. -/
def isSetting (arg : Text) : Bool := arg = "--setreg".toList || "--setreg=".toList.isPrefixOf arg

/-- What a command line says. Every other argument with a dash is an option that is not known. -/
def read : List Text → List Arg := readBy isSetting

/-- What the parser takes it to say. -/
def taken : List Text → List Arg := readBy "--setreg".toList.isPrefixOf

/-- What an argument does to the configuration. -/
def apply (usizeBits : Nat) (config : SimConfig) : Arg → SimConfig
  | newlib path => { config with isNewlib := true, binaryPath := path.or config.binaryPath }
  | isa value => { config with isaString := value.getD config.isaString }
  | setreg kv => kv.elim config (config.parseSetreg usizeBits)
  | interactive => { config with isInteractive := true }
  | dashed text => { config with binaryPath := config.binaryPath.or (some text) }
  | positional _ => config

end Arg

section Reading

variable (usizeBits : Nat)

/-- Nothing is cut off an argument that starts with a dash. -/
theorem cleaned_of_dash {arg : Text} (dash : startsWithDash arg = true) (fuel : Nat) :
    trimStartMatches "working/".toList fuel (arg.dropWhile (· == '/')) = arg := by
  obtain ⟨rest, rfl⟩ : ∃ rest, arg = '-' :: rest := List.head?_eq_some_iff.mp (beq_iff_eq.mp dash)
  cases fuel with
  | zero => rfl
  | succ fuel => rfl

theorem parseArgsFrom_taken (config : SimConfig) (args : List Text) :
    SimConfig.parseArgsFrom usizeBits config args = (Arg.taken args).foldl
      (Arg.apply usizeBits) config := by
  rw [Arg.taken]
  fun_induction Arg.readBy "--setreg".toList.isPrefixOf args generalizing config
  -- one step of the parser; which branch it takes is what the reading went by
  all_goals rw [SimConfig.parseArgsFrom.eq_def]
  all_goals dsimp only
  case case1 => rfl
  case case2 arg newlib next rest plain ih =>
    rw [if_pos newlib, if_pos plain, ih]
    rfl
  case case3 arg newlib next rest dash ih =>
    rw [if_pos newlib, if_neg dash, ih]
    rfl
  case case4 arg newlib =>
    rw [if_pos newlib]
    rfl
  case case5 next rest other ih =>
    rw [if_neg other, if_pos rfl, ih]
    rfl
  case case6 other =>
    rw [if_neg other, if_pos rfl]
    rfl
  case case7 arg rest newlib isa setreg kv inline ih =>
    rw [if_neg newlib, if_neg isa, if_pos setreg, inline]
    exact ih _
  case case8 arg newlib isa setreg behind kv rest ih =>
    rw [if_neg newlib, if_neg isa, if_pos setreg, behind]
    exact ih _
  case case9 arg newlib isa setreg behind =>
    rw [if_neg newlib, if_neg isa, if_pos setreg, behind]
    rfl
  case case10 rest newlib isa setreg ih =>
    rw [if_neg newlib, if_neg isa, if_neg setreg, if_pos rfl]
    exact ih _
  case case11 arg rest newlib isa setreg interactive dash ih =>
    rw [if_neg newlib, if_neg isa, if_neg setreg, if_neg interactive, dash, Bool.true_and,
      cleaned_of_dash dash]
    rw [List.foldl_cons, Arg.apply, ← ih]
    obtain ⟨path, isaString, registerInits, isInteractive, isNewlib⟩ := config
    cases path with
    | none => rfl
    | some path => rfl
  case case12 arg rest newlib isa setreg interactive plain ih =>
    rw [if_neg newlib, if_neg isa, if_neg setreg, if_neg interactive,
      if_neg (fun path => plain (Bool.and_elim_left path))]
    exact ih _

end Reading

section Entries

variable {usizeBits : Nat}

/-- The entry a setting makes, if its register is recognised. -/
def setregInit? (usizeBits : Nat) (kv : Text) : Option (Nat × U32) :=
  match splitOnce? '=' kv with
  | some (regName, valStr) =>
    let regIdx := registerIndex usizeBits (trim regName)
    if 0 < regIdx ∧ regIdx < 32 then some (regIdx, registerValue (trim valStr)) else none
  | none => none

def Arg.init? (usizeBits : Nat) : Arg → Option (Nat × U32)
  | setreg kv => kv.bind (setregInit? usizeBits)
  | _ => none

/-- A register name: one that is spelled out, or `x` and a number. -/
def NamesRegister (usizeBits : Nat) (name : Text) (k : Nat) : Prop :=
  (0 < k ∧ k < 32) ∧
    ((name, k) ∈ registerAliases ∨ ∃ digits, name = 'x' :: digits ∧
      parseUnsigned 10 usizeBits digits = some k)

theorem parseSetreg_entry (config : SimConfig) (kv : Text) :
    (config.parseSetreg usizeBits kv).registerInits = config.registerInits ++
      (setregInit? usizeBits kv).toList ∧
      (config.parseSetreg usizeBits kv).binaryPath = config.binaryPath := by
  rw [SimConfig.parseSetreg, setregInit?]
  cases splitOnce? '=' kv with
  | none => exact ⟨(List.append_nil _).symm, rfl⟩
  | some setting =>
    obtain ⟨regName, valStr⟩ := setting
    dsimp only
    split
    · exact ⟨rfl, rfl⟩
    · exact ⟨(List.append_nil _).symm, rfl⟩

theorem apply_entry (config : SimConfig) (item : Arg) :
    (item.apply usizeBits config).registerInits = config.registerInits ++
      (item.init? usizeBits).toList := by
  cases item with
  | setreg kv =>
    cases kv with
    | none => exact (List.append_nil _).symm
    | some kv => exact (parseSetreg_entry config kv).1
  | _ => exact (List.append_nil _).symm

theorem entries_cons (item : Arg) (items : List Arg) :
    (item :: items).filterMap (Arg.init? usizeBits) =
    (item.init? usizeBits).toList ++ items.filterMap (Arg.init? usizeBits) := by
  rw [List.filterMap_cons]
  cases item.init? usizeBits with
  | none => rfl
  | some entry => rfl

/-- The entries of a command line, in its order. -/
theorem registerInits_foldl (config : SimConfig) (items : List Arg) :
    (items.foldl (Arg.apply usizeBits) config).registerInits =
      config.registerInits ++ items.filterMap (Arg.init? usizeBits) := by
  induction items generalizing config with
  | nil => exact (List.append_nil _).symm
  | cons item rest ih =>
    rw [List.foldl_cons, ih, apply_entry, entries_cons, List.append_assoc]

/-- A value is what stands behind the first `=`. -/
theorem splitOnce?_eq_some {separator : Char} {s before after : Text} :
    splitOnce? separator s = some (before, after) ↔ s = before ++ separator :: after ∧
      separator ∉ before := by
  induction s generalizing before with
  | nil => simp [splitOnce?]
  | cons c rest ih =>
    rw [splitOnce?]
    by_cases here : c = separator
    · subst here
      rw [if_pos rfl]
      cases before with
      | nil => simp
      | cons b before => simp +contextual
    · rw [if_neg here, Option.map_eq_some_iff]
      constructor
      · rintro ⟨⟨before', after'⟩, found, same⟩
        obtain ⟨rfl, rfl⟩ := Prod.mk.inj same
        obtain ⟨rfl, free⟩ := ih.mp found
        exact ⟨rfl, fun member => (List.mem_cons.mp member).elim (fun same => here same.symm) free⟩
      · rintro ⟨split, free⟩
        cases before with
        | nil => exact absurd (List.cons.inj split).1 here
        | cons b before =>
          obtain ⟨rfl, rfl⟩ := List.cons.inj split
          exact ⟨(before, after), ih.mpr ⟨rfl, fun member => free (List.mem_cons_of_mem _ member)⟩, rfl⟩

section Numbers

variable {radix bits bits' acc n n' : Nat} {s : Text}

/-- A wider type parses to the same number. -/
theorem parseDigits_wider (wider : bits ≤ bits') (parsed : parseDigits radix bits acc s = some n) :
    parseDigits radix bits' acc s = some n := by
  induction s generalizing acc with
  | nil => exact parsed
  | cons c rest ih =>
    rw [parseDigits] at parsed ⊢
    obtain ⟨digit, known, rest⟩ := Option.bind_eq_some_iff.mp parsed
    dsimp only at rest
    split at rest
    · next small =>
      have room : acc * radix + digit < 2 ^ bits' :=
        small.trans_le (Nat.pow_le_pow_right (by decide) wider)
      rw [known, Option.bind_eq_bind, Option.bind_some, if_pos room]
      exact ih rest
    · cases rest

theorem parseUnsigned_unique (parsed : parseUnsigned radix bits s = some n)
    (parsed' : parseUnsigned radix bits' s = some n') : n = n' := by
  obtain ⟨digits, same⟩ : ∃ digits, ∀ radix bits,
      parseUnsigned radix bits s = if digits.isEmpty then none else parseDigits radix
        bits 0 digits :=
    ⟨_, fun _ _ => rfl⟩
  rw [same] at parsed parsed'
  by_cases empty : digits.isEmpty = true
  · rw [if_pos empty] at parsed
    cases parsed
  · rw [if_neg empty] at parsed parsed'
    have first := parseDigits_wider (Nat.le_max_left bits bits') parsed
    have second := parseDigits_wider (Nat.le_max_right bits bits') parsed'
    exact Option.some_inj.mp (first.symm.trans second)

end Numbers

theorem registerIndex_iff {name : Text} {k : Nat} (positive : 0 < k) :
    registerIndex usizeBits name = k ↔
    (name, k) ∈ registerAliases ∨ ∃ digits, name = 'x' :: digits ∧
      parseUnsigned 10 usizeBits digits = some k := by
  by_cases listed : name ∈ registerAliases.map Prod.fst
  · obtain ⟨⟨name', k'⟩, member, rfl⟩ := List.mem_map.mp listed
    have index := (registerIndex_alias usizeBits member).1
    rw [index]
    constructor
    · rintro rfl
      exact .inl member
    · rintro (other | ⟨digits, rfl, parsed⟩)
      · exact index.symm.trans (registerIndex_alias usizeBits other).1
      · -- the numbers that are spelled out are the numbers after the `x`
        have numbers : ∀ entry ∈ registerAliases, entry.1.head? = some 'x' →
            parseUnsigned 10 5 entry.1.tail = some entry.2 := by decide
        exact parseUnsigned_unique (numbers _ member rfl) parsed
  · rw [registerIndex_other usizeBits listed]
    constructor
    · intro same
      split at same
      · next x =>
        obtain ⟨digits, rfl⟩ := List.head?_eq_some_iff.mp x
        rw [List.tail_cons] at same
        refine .inr ⟨digits, rfl, ?_⟩
        cases parsed : parseUnsigned 10 usizeBits digits with
        | none =>
          rw [parsed] at same
          exact absurd same positive.ne
        | some n =>
          rw [parsed] at same
          exact congrArg some same
      · exact absurd same positive.ne
    · rintro (other | ⟨digits, rfl, parsed⟩)
      · exact absurd (List.mem_map_of_mem other) listed
      · rw [if_pos (List.head?_cons), List.tail_cons, parsed, Option.getD_some]

theorem setregInit?_eq_some {kv : Text} {k : Nat} {v : U32} :
    setregInit? usizeBits kv = some (k, v) ↔
    ∃ regName valStr, kv = regName ++ '=' :: valStr ∧ '=' ∉ regName ∧
      NamesRegister usizeBits (trim regName) k ∧
      registerValue (trim valStr) = v := by
  rw [setregInit?]
  constructor
  · intro entry
    cases split : splitOnce? '=' kv with
    | none =>
      rw [split] at entry
      cases entry
    | some setting =>
      obtain ⟨regName, valStr⟩ := setting
      obtain ⟨whole, free⟩ := splitOnce?_eq_some.mp split
      rw [split] at entry
      dsimp only at entry
      by_cases named : 0 < registerIndex usizeBits (trim regName) ∧
        registerIndex usizeBits (trim regName) < 32
      · rw [if_pos named] at entry
        obtain ⟨rfl, value⟩ := Prod.mk.inj (Option.some_inj.mp entry)
        exact ⟨regName, valStr, whole, free, ⟨named, (registerIndex_iff named.1).mp rfl⟩, value⟩
      · rw [if_neg named] at entry
        cases entry
  · rintro ⟨regName, valStr, whole, free, ⟨named, names⟩, rfl⟩
    have index := (registerIndex_iff named.1).mpr names
    rw [splitOnce?_eq_some.mpr ⟨whole, free⟩]
    dsimp only
    rw [index, if_pos named]

end Entries

section Flags

variable {usizeBits : Nat}

end Flags

section Path

variable {usizeBits : Nat}

namespace Arg

end Arg

end Path

section Contract

variable (usizeBits : Nat) (args : List Text)

theorem registerInits_parse :
    (SimConfig.parseArgs usizeBits args).registerInits = (Arg.taken args).filterMap
      (Arg.init? usizeBits) := by
  rw [SimConfig.parseArgs, parseArgsFrom_taken, registerInits_foldl]
  rfl

variable {args} {text : Text} {setting : Text → Bool}

variable (args)

end Contract

end RiscvRs
