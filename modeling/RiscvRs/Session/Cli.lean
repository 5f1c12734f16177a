import RiscvRs.Machine.Host

/-! Command-line arguments, from `cli.rs`. Strings are lists of characters. -/

namespace RiscvRs

abbrev Text := List Char

structure SimConfig where
  binaryPath : Option Text
  isaString : Text
  registerInits : List (Nat × U32)
  isInteractive : Bool
  isNewlib : Bool
deriving DecidableEq, Repr

def SimConfig.default : SimConfig where
  binaryPath := none
  isaString := []
  registerInits := []
  isInteractive := false
  isNewlib := false

/-- The characters with the `White_Space` property, which `str::trim` removes. -/
def isWhitespace (c : Char) : Bool :=
  let n := c.toNat
  (0x9 ≤ n && n ≤ 0xD) || n == 0x20 || n == 0x85 || n == 0xA0 || n == 0x1680 ||
    (0x2000 ≤ n && n ≤ 0x200A) || n == 0x2028 || n == 0x2029 || n == 0x202F || n == 0x205F || n == 0x3000

def trim (s : Text) : Text := ((s.dropWhile isWhitespace).reverse.dropWhile isWhitespace).reverse

def stripPrefix? (pat s : Text) : Option Text :=
  if pat.isPrefixOf s then some (s.drop pat.length) else none

/-- `str::trim_start_matches` with a string pattern; the length bounds the repetitions. -/
def trimStartMatches (pat : Text) : Nat → Text → Text
  | 0, s => s
  | fuel + 1, s =>
    match stripPrefix? pat s with
    | some rest => trimStartMatches pat fuel rest
    | none => s

def splitOnce? (separator : Char) : Text → Option (Text × Text)
  | [] => none
  | c :: rest =>
    if c = separator then some ([], rest)
    else (splitOnce? separator rest).map fun (before, after) => (c :: before, after)

/-- `char::to_digit`. -/
def toDigit? (radix : Nat) (c : Char) : Option Nat :=
  let n := c.toNat
  let digit :=
    if 0x30 ≤ n ∧ n ≤ 0x39 then n - 0x30
    else if 0x61 ≤ n ∧ n ≤ 0x7A then n - 0x61 + 10
    else if 0x41 ≤ n ∧ n ≤ 0x5A then n - 0x41 + 10
    else radix
  if digit < radix then some digit else none

def parseDigits (radix bits : Nat) : Nat → Text → Option Nat
  | acc, [] => some acc
  | acc, c :: rest => do
    let digit ← toDigit? radix c
    let next := acc * radix + digit
    if next < 2 ^ bits then parseDigits radix bits next rest else none

/-- `from_str_radix` for an unsigned type: an optional `+`, then digits, in range. -/
def parseUnsigned (radix bits : Nat) (s : Text) : Option Nat :=
  let digits := match s with
    | '+' :: rest => rest
    | _ => s
  if digits.isEmpty then none else parseDigits radix bits 0 digits

def registerIndex (usizeBits : Nat) (name : Text) : Nat :=
  if name = "sp".toList ∨ name = "x2".toList then 2
  else if name = "ra".toList ∨ name = "x1".toList then 1
  else if name = "gp".toList ∨ name = "x3".toList then 3
  else if name = "tp".toList ∨ name = "x4".toList then 4
  else if name = "t0".toList ∨ name = "x5".toList then 5
  else if name = "a0".toList ∨ name = "x10".toList then 10
  else if name = "a1".toList ∨ name = "x11".toList then 11
  else if name = "a7".toList ∨ name = "x17".toList then 17
  else match name with
    | 'x' :: digits => (parseUnsigned 10 usizeBits digits).getD 0
    | _ => 0

def registerValue (s : Text) : U32 :=
  match s with
  | '0' :: 'x' :: digits => BitVec.ofNat 32 ((parseUnsigned 16 32 digits).getD 0)
  | '0' :: 'X' :: digits => BitVec.ofNat 32 ((parseUnsigned 16 32 digits).getD 0)
  | _ => BitVec.ofNat 32 ((parseUnsigned 10 32 s).getD 0)

def SimConfig.parseSetreg (usizeBits : Nat) (config : SimConfig) (kv : Text) : SimConfig :=
  match splitOnce? '=' kv with
  | some (regName, valStr) =>
    let regIdx := registerIndex usizeBits (trim regName)
    let val := registerValue (trim valStr)
    if 0 < regIdx ∧ regIdx < 32 then
      { config with registerInits := config.registerInits ++ [(regIdx, val)] }
    else config
  | none => config

def startsWithDash (s : Text) : Bool := s.head? == some '-'

/-- The argument loop: an option that takes a value consumes the next argument. -/
def SimConfig.parseArgsFrom (usizeBits : Nat) : SimConfig → List Text → SimConfig
  | config, [] => config
  | config, arg :: rest =>
    if arg = "--newlib".toList ∨ arg = "-n".toList then
      let config := { config with isNewlib := true }
      match rest with
      | next :: rest' =>
        if !startsWithDash next then
          parseArgsFrom usizeBits { config with binaryPath := some next } rest'
        else parseArgsFrom usizeBits config (next :: rest')
      | [] => config
    else if arg = "--isa".toList then
      match rest with
      | next :: rest' => parseArgsFrom usizeBits { config with isaString := next } rest'
      | [] => config
    else if "--setreg".toList.isPrefixOf arg then
      match stripPrefix? "--setreg=".toList arg with
      | some kv => parseArgsFrom usizeBits (parseSetreg usizeBits config kv) rest
      | none =>
        match rest with
        | kv :: rest' => parseArgsFrom usizeBits (parseSetreg usizeBits config kv) rest'
        | [] => config
    else if arg = "--interactive".toList then
      parseArgsFrom usizeBits { config with isInteractive := true } rest
    else if startsWithDash arg && config.binaryPath.isNone then
      let cleaned := trimStartMatches "working/".toList arg.length (arg.dropWhile (· == '/'))
      parseArgsFrom usizeBits { config with binaryPath := some cleaned } rest
    else parseArgsFrom usizeBits config rest

def SimConfig.parseArgs (usizeBits : Nat) (args : List Text) : SimConfig :=
  SimConfig.parseArgsFrom usizeBits SimConfig.default args

end RiscvRs
