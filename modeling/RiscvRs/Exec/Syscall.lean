import RiscvRs.Machine.Cpu

/-! System calls of the guest, from `syscall.rs`. -/

namespace RiscvRs

open Effects Prog

section

variable {ε : Type} (host : Host)

def customSyscall (a0 a1 a2 a3 a7 : U32) : Prog Bus ε U32 := do
  let bus ← get
  let res := host.customSyscall bus.world.io a0 a1 a2 a3 a7
  modify (·.record (.customSyscall a0 a1 a2 a3 a7 res))
  return res

def jsWriteStdout (bytes : List U8) : Prog Bus ε Unit := modify (·.record (.writeStdout bytes))

def jsWriteStderr (bytes : List U8) : Prog Bus ε Unit := modify (·.record (.writeStderr bytes))

/-- The host fills a prefix of the zeroed scratch buffer and returns an `i32`. -/
def readFromStdin (count : Nat) : Prog Bus ε (U32 × List U8) := do
  let bus ← get
  let (bytesRead, filled) := host.readFromStdin bus.world.io (BitVec.ofNat 32 count)
  modify (·.record (.readFromStdin (BitVec.ofNat 32 count) bytesRead))
  return (bytesRead, filled.take count ++ List.replicate (count - filled.length) 0)

end

/-- The bound on one transfer: 16 MiB. -/
def transferCount (a2 : U32) : Nat := min a2.toNat (16 * 1024 * 1024)

def sysWrite (env : Env) (a0 a1 a2 : U32) : Exec Unit := do
  let bytes ← onBus (Memory.readBytes env.host a1 (transferCount a2))
  if a0 = 1 then
    onBus (jsWriteStdout bytes)
  else if a0 = 2 then
    onBus (jsWriteStderr bytes)
  modifyCpu (·.writeReg 10 a2)

def sysRead (env : Env) (a1 a2 : U32) : Exec Unit := do
  let (bytesRead, scratch) ← onBus (readFromStdin env.host (transferCount a2))
  if bytesRead.toInt > 0 then
    let bytes ← expect (sliceOf? scratch 0 bytesRead.toNat)
    onBus (Memory.writeBytes a1 bytes)
    modifyCpu (·.writeReg 10 bytesRead)
  else
    modifyCpu (·.writeReg 10 0)

def sysBrk (a0 : U32) : Exec Unit := do
  if a0 ≠ 0 then
    onBus (Memory.setBrk a0)
  let brk ← onBus Memory.getBrk
  modifyCpu (·.writeReg 10 brk)

/-- The built-in calls, tried when no hook answered. -/
def builtinSyscall (env : Env) (a0 a1 a2 a3 a7 : U32) : Exec Unit :=
  if a7 = 93 ∨ a7 = 10 ∨ a7 = 1 then
    modifyCpu fun cpu => { cpu with isHalted := true, exitCode := a0 }
  else if a7 = 64 ∨ a7 = 4 then
    sysWrite env a0 a1 a2
  else if a7 = 63 ∨ a7 = 3 then
    sysRead env a1 a2
  else if a7 = 214 ∨ a7 = 45 then
    sysBrk a0
  else if a7 = 57 ∨ a7 = 62 ∨ a7 = 80 then
    modifyCpu (·.writeReg 10 0)
  else
    fail (.unknownSyscall a7 a0 a1 a2 a3)

def handleEcall (env : Env) : Exec Unit := do
  let cpu ← getCpu
  let a7 := cpu.readReg regA7
  let a0 := cpu.readReg regA0
  let a1 := cpu.readReg regA1
  let a2 := cpu.readReg regA2
  let a3 := cpu.readReg regA3
  -- zero is the hook's way to decline, so it also stands for a disabled hook
  let res ← if cpu.hasCustomSyscalls then onBus (customSyscall env.host a0 a1 a2 a3 a7) else pure 0
  if res ≠ 0 then
    modifyCpu (·.writeReg regA0 res)
  else
    builtinSyscall env a0 a1 a2 a3 a7

end RiscvRs
