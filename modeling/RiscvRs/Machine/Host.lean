import RiscvRs.Lib.Program
import RiscvRs.Lib.Ieee

/-! The outside of the simulator: what the host answers, what it is told, and
the build parameters of the emulator itself. -/

namespace RiscvRs

open Effects

abbrev U8 := BitVec 8
abbrev U16 := BitVec 16
abbrev U32 := BitVec 32
abbrev U64 := BitVec 64

/-- One access of the guest to a device, to its standard streams or to the
custom system-call hook, with the answer it got. -/
inductive IoEvent where
  | readMmio (addr size val : U32)
  | writeMmio (addr size val : U32)
  | writeStdout (bytes : List U8)
  | writeStderr (bytes : List U8)
  | readFromStdin (count bytesRead : U32)
  | customSyscall (a0 a1 a2 a3 a7 res : U32)
deriving DecidableEq, Repr

/-- A message of the simulator itself, apart from guest output. -/
inductive Diagnostic where
  | printErr (msg : String)
  | notifyUnknownSyscall (sysNum a0 a1 a2 a3 : U32)
deriving DecidableEq, Repr

/-- Everything said to the host so far, newest first. -/
structure World where
  io : List IoEvent
  diagnostics : List Diagnostic

/-- The answers of the host. A device may answer from everything the guest did
to it before, so every answer depends on the accesses made so far. -/
structure Host where
  readMmio : List IoEvent → U32 → U32 → U32
  /-- The `i32` result and what was put into the buffer. -/
  readFromStdin : List IoEvent → U32 → U32 × List U8
  customSyscall : List IoEvent → U32 → U32 → U32 → U32 → U32 → U32
deriving Inhabited

/-- The answers of one interrupt poll. The second and third are only asked for
when the poll gets that far. -/
structure Poll where
  getIntInstDelay : U32
  interruptEnabled : U32
  externalInterrupt : U32
deriving Inhabited

/-- Rounding arithmetic on bit patterns, left to the machine that runs the emulator. -/
structure Fpu where
  addS : U32 → U32 → U32
  subS : U32 → U32 → U32
  mulS : U32 → U32 → U32
  divS : U32 → U32 → U32
  sqrtS : U32 → U32
  minS : U32 → U32 → U32
  maxS : U32 → U32 → U32
  addD : U64 → U64 → U64
  subD : U64 → U64 → U64
  mulD : U64 → U64 → U64
  divD : U64 → U64 → U64
  sqrtD : U64 → U64
  minD : U64 → U64 → U64
  maxD : U64 → U64 → U64
  i32ToS : U32 → U32
  u32ToS : U32 → U32
  i32ToD : U32 → U64
  u32ToD : U32 → U64
  dToS : U64 → U32
  sToD : U32 → U64
deriving Inhabited

/-- How the emulator was built: whether plain arithmetic panics on overflow
(the test profile) or wraps (the release profile), and the width of `usize`. -/
structure Build where
  overflowChecks : Bool
  usizeBits : Nat
deriving Inhabited

structure Env where
  host : Host
  fpu : Fpu
  build : Build
deriving Inhabited

/-- Plain `+` on `u32`. -/
def Build.addU32 {σ ε : Type} (build : Build) (a b : U32) : Prog σ ε U32 :=
  if build.overflowChecks ∧ 2 ^ 32 ≤ a.toNat + b.toNat then Prog.panic else pure (a + b)

/-- The `width`-digit lower-case hexadecimal form, as `{:#0w$x}` prints it. -/
def hexPadded (width : Nat) (val : Nat) : String :=
  let digits := Nat.toDigits 16 val
  String.ofList ('0' :: 'x' :: List.replicate (width - digits.length) '0' ++ digits)

end RiscvRs
