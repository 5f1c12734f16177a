import RiscvRs.Exec.Values
import RiscvRs.Memory.Effects

/-! What an instruction can do to the machine, and that it raises its errors
before it does any of it. -/

namespace RiscvRs

open Effects Prog

/-- The elementary updates of an instruction. -/
inductive Machine.Touch : Machine → Machine → Prop where
  | bus (m : Machine) (bus : Bus) (touched : m.bus.Touch bus) : Touch m { m with bus := bus }
  | reg (m : Machine) (r : Fin 32) (val : U32) : Touch m { m with cpu := m.cpu.writeReg r val }
  | freg (m : Machine) (r : Fin 32) (bits : U64) : Touch m { m with cpu := m.cpu.setFreg r bits }
  | csrs (m : Machine) (csrs : CsrFile) : Touch m { m with cpu := { m.cpu with csrs := csrs } }
  | halt (m : Machine) (code : U32) :
      Touch m { m with cpu := { m.cpu with isHalted := true, exitCode := code } }
  | pc (m : Machine) (next : U32) : Touch m { m with cpu := { m.cpu with pc := next } }

def execFrame : Frame Machine := Frame.closure Machine.Touch

/-- Processor and memory stay, and the host was only asked. -/
def askFrame : Frame Machine where
  rel s t := t.cpu = s.cpu ∧ queryFrame.rel s.bus t.bus
  refl s := ⟨rfl, queryFrame.refl s.bus⟩
  trans first second := ⟨second.1.trans first.1, queryFrame.trans first.2 second.2⟩

theorem busFrame_of_queryFrame {s t : Bus} (asked : queryFrame.rel s t) : busFrame.rel s t := by
  obtain ⟨mem, messages, events, io, -⟩ := asked
  have target : t = s.withIo (events ++ s.world.io) := by
    simp only [Bus.withIo, ← io, ← messages, ← mem]
  rw [target]
  clear target io mem messages
  induction events with
  | nil => exact .refl
  | cons event rest ih => exact ih.tail (.record _ event)

theorem execFrame_of_busFrame (m : Machine) {bus : Bus} (touched : busFrame.rel m.bus bus) :
    execFrame.rel m { m with bus := bus } := by
  induction touched with
  | refl => exact .refl
  | tail _ last ih => exact ih.tail (.bus _ _ last)

theorem execFrame_of_askFrame {s t : Machine} (asked : askFrame.rel s t) : execFrame.rel s t := by
  obtain ⟨cpu, bus⟩ := asked
  have target : t = { s with bus := t.bus } := by
    rw [← cpu]
  rw [target]
  exact execFrame_of_busFrame s (busFrame_of_queryFrame bus)

/-- An instruction whose errors come before its effects. -/
abbrev Clean {α : Type} (x : Exec α) : Prop := Guarded execFrame askFrame x

section Steps

variable {α ε : Type}

theorem steady_onBus {x : Prog Bus ε α} (inner : Steady busFrame x) : Steady execFrame (onBus x) :=
  steady_zoom inner fun m _ touched => execFrame_of_busFrame m touched

theorem steady_ask {x : Prog Bus ε α} (inner : Steady queryFrame x) : Steady askFrame (onBus x) :=
  steady_zoom inner fun _ _ asked => ⟨rfl, asked⟩

theorem steady_getCpu {F : Frame Machine} : Steady F (getCpu : Prog Machine ε Cpu) :=
  steady_bind steady_get fun _ => steady_pure _

theorem steady_touch {f : Cpu → Cpu} (touched : ∀ m : Machine, m.Touch { m with cpu := f m.cpu }) :
    Steady execFrame (modifyCpu f : Prog Machine ε Unit) :=
  steady_modify fun m => .single (touched m)

theorem steady_writeReg (r : Fin 32) (val : U32) :
    Steady execFrame (modifyCpu (·.writeReg r val) : Prog Machine ε Unit) :=
  steady_touch fun m => .reg m r val

theorem steady_setFreg (r : Fin 32) (bits : U64) :
    Steady execFrame (modifyCpu (·.setFreg r bits) : Prog Machine ε Unit) :=
  steady_touch fun m => .freg m r bits

theorem steady_writeF32 (r : Fin 32) (val : U32) :
    Steady execFrame (modifyCpu (·.writeF32 r val) : Prog Machine ε Unit) :=
  steady_setFreg r _

theorem steady_writeF64 (r : Fin 32) (val : U64) :
    Steady execFrame (modifyCpu (·.writeF64 r val) : Prog Machine ε Unit) :=
  steady_setFreg r _

theorem steady_halted :
    Steady execFrame (modifyCpu fun cpu => { cpu with isHalted := true } : Prog Machine ε Unit) :=
  steady_touch fun m => .halt m m.cpu.exitCode

variable (host : Host)

theorem asks_queryFrame (bus : Bus) (addr size val : U32) :
    queryFrame.rel bus (bus.record (.readMmio addr size val)) :=
  queryFrame_record bus rfl

theorem ask_readU8 (addr : U32) :
    Steady askFrame (onBus (Memory.readU8 host addr) : Prog Machine ε _) :=
  steady_ask (steady_readU8 host asks_queryFrame addr)

theorem ask_readU16 (addr : U32) :
    Steady askFrame (onBus (Memory.readU16 host addr) : Prog Machine ε _) :=
  steady_ask (steady_readU16 host asks_queryFrame addr)

theorem ask_readU32 (addr : U32) :
    Steady askFrame (onBus (Memory.readU32 host addr) : Prog Machine ε _) :=
  steady_ask (steady_readU32 host asks_queryFrame addr)

theorem tells_busFrame (bus : Bus) (addr size val : U32) :
    busFrame.rel bus (bus.record (.writeMmio addr size val)) :=
  .single (.record bus _)

theorem stores_busFrame (bus : Bus) (addr : U32) (page : Page) (ram : ¬addr ≥ mmioBase) :
    busFrame.rel bus { bus with mem := bus.mem.setPage addr page } :=
  .single (.page bus addr ram page)

theorem steady_storeU32 (addr val : U32) :
    Steady execFrame (onBus (Memory.writeU32 addr val) : Prog Machine ε _) :=
  steady_onBus (steady_writeU32 tells_busFrame stores_busFrame addr val)

theorem steady_addU32 {F : Frame Machine} (build : Build) (a b : U32) :
    Steady F (build.addU32 a b : Prog Machine ε U32) := by
  unfold Build.addU32
  split <;> simp

/-- Ask first, then stay clean. -/
theorem clean_bind {β : Type} {x : Exec α} {f : α → Exec β} (first : Steady askFrame x)
    (second : ∀ a, Clean (f a)) : Clean (x >>= f) :=
  guarded_bind execFrame_of_askFrame first second

theorem steady_of_ask {x : Prog Machine ε α} (asks : Steady askFrame x) : Steady execFrame x :=
  asks.mono execFrame_of_askFrame

theorem clean_illegal (raw : U32) : Clean (illegal raw : Exec α) :=
  clean_bind steady_getCpu fun _ => guarded_fail _

/-- A checked result and what follows it. -/
theorem clean_orIllegal {β : Type} (raw : U32) (result : Option α) {f : α → Exec β}
    (rest : ∀ a, Steady execFrame (f a)) : Clean (orIllegal raw result >>= f) := by
  refine guarded_bind_steady ?_ rest
  cases result with
  | none => exact clean_illegal raw
  | some a => exact (steady_pure a).guarded

end Steps

section Executors

variable (env : Env) (inst : DecodedInst32)

theorem clean_loadValue (raw : U32) (funct3 : U8) (addr : U32) {α : Type} {f : U32 → Exec α}
    (rest : ∀ val, Steady execFrame (f val)) : Clean (loadValue env raw funct3 addr >>= f) := by
  unfold loadValue
  split
  · exact clean_bind (steady_bind (ask_readU8 _ _) fun _ => steady_pure _) fun val =>
      (rest val).guarded
  · exact clean_bind (steady_bind (ask_readU16 _ _) fun _ => steady_pure _) fun val =>
      (rest val).guarded
  · exact clean_bind (ask_readU32 _ _) fun val => (rest val).guarded
  · exact clean_bind (steady_bind (ask_readU8 _ _) fun _ => steady_pure _) fun val =>
      (rest val).guarded
  · exact clean_bind (steady_bind (ask_readU16 _ _) fun _ => steady_pure _) fun val =>
      (rest val).guarded
  · exact guarded_bind_steady (clean_illegal raw) rest

theorem clean_storeValue (raw : U32) (funct3 : U8) (addr val : U32) :
    Clean (storeValue raw funct3 addr val) := by
  unfold storeValue
  split
  · exact (steady_onBus (steady_writeU8 tells_busFrame stores_busFrame _ _)).guarded
  · exact (steady_onBus (steady_writeU16 tells_busFrame stores_busFrame _ _)).guarded
  · exact (steady_storeU32 _ _).guarded
  · exact clean_illegal raw

theorem clean_execRv32i (nextPc : U32) : Clean (execRv32i env inst nextPc) := by
  refine clean_bind steady_getCpu fun cpu => ?_
  have written (val : U32) (next : U32) :
      Steady execFrame (do modifyCpu (·.writeReg inst.rd val); return next : Exec U32) :=
    steady_bind (steady_writeReg _ _) fun _ => steady_pure _
  split
  · exact (written _ _).guarded
  · exact (written _ _).guarded
  · exact (written _ _).guarded
  · exact (written _ _).guarded
  · exact clean_orIllegal _ _ fun _ => steady_pure _
  · exact clean_loadValue env _ _ _ fun val => written val _
  · exact guarded_bind_steady (clean_storeValue _ _ _ _) fun _ => steady_pure _
  · simp only
    rw [opImmResult_shamt]
    exact clean_orIllegal _ _ fun val => written val _
  · rw [opResult_eq]
    exact clean_orIllegal _ _ fun val => written val _
  · exact (steady_pure _).guarded
  · exact clean_illegal _

theorem clean_execRv32m : Clean (execRv32m env inst) := by
  refine clean_bind steady_getCpu fun cpu => ?_
  rw [mulDivResult_eq]
  exact clean_orIllegal _ _ fun _ => steady_writeReg _ _

/-- The operation is decoded between the read and the write of the cell. -/
theorem clean_execRv32a : Clean (execRv32a env inst) := by
  refine clean_bind steady_getCpu fun cpu => clean_bind (ask_readU32 _ _) fun oldVal => ?_
  refine clean_orIllegal _ _ fun newVal => ?_
  simp only
  split
  · exact steady_bind (steady_storeU32 _ _) fun _ => steady_writeReg _ _
  · exact steady_bind (steady_pure _) fun _ => steady_writeReg _ _

theorem steady_sysWrite (a0 a1 a2 : U32) : Steady execFrame (sysWrite env a0 a1 a2) := by
  have streamed (event : IoEvent) : Steady execFrame
    (onBus (modify (·.record event)) : Exec Unit) :=
    steady_onBus (steady_modify fun bus => .single (.record bus event))
  refine steady_bind (steady_of_ask (steady_ask (steady_readBytes _ asks_queryFrame _ _)))
    fun bytes => ?_
  simp only
  split
  · exact steady_bind (streamed _) fun _ => steady_writeReg _ _
  · split
    · exact steady_bind (streamed _) fun _ => steady_writeReg _ _
    · exact steady_bind (steady_pure _) fun _ => steady_writeReg _ _

theorem steady_sysRead (a1 a2 : U32) : Steady execFrame (sysRead env a1 a2) := by
  have asked : Steady execFrame (onBus (readFromStdin env.host (transferCount a2)) : Exec _) :=
    steady_onBus (steady_bind steady_get fun _ =>
      steady_bind (steady_modify fun bus => .single (.record bus _)) fun _ => steady_pure _)
  refine steady_bind asked fun answer => ?_
  simp only
  split
  · exact steady_bind (steady_expect _) fun _ =>
      steady_bind (steady_onBus (steady_writeBytes tells_busFrame stores_busFrame _ _)) fun _ =>
        steady_writeReg _ _
  · exact steady_writeReg _ _

theorem steady_setBrk (val : U32) : Steady execFrame (onBus (Memory.setBrk val) : Exec Unit) := by
  apply steady_onBus
  intro bus
  by_cases range : val ≥ bus.mem.initialBrk ∧ val < mmioBase
  · exact .inl ⟨(), _, by simp [Memory.setBrk, range], .single (.brk bus val range)⟩
  · exact .inl ⟨(), bus, by simp [Memory.setBrk, range], .refl⟩

theorem steady_sysBrk (a0 : U32) : Steady execFrame (sysBrk a0) := by
  have answer : Steady execFrame (do
      let brk ← onBus Memory.getBrk
      modifyCpu (·.writeReg 10 brk) : Exec Unit) :=
    steady_bind (steady_onBus (steady_bind steady_get fun _ => steady_pure _)) fun _ =>
      steady_writeReg _ _
  unfold sysBrk
  split
  · exact steady_bind (steady_setBrk a0) fun _ => answer
  · exact answer

theorem clean_builtinSyscall (a0 a1 a2 a3 a7 : U32) :
    Clean (builtinSyscall env a0 a1 a2 a3 a7) := by
  unfold builtinSyscall
  split
  · exact (steady_touch fun m => .halt m a0).guarded
  · split
    · exact (steady_sysWrite env _ _ _).guarded
    · split
      · exact (steady_sysRead env _ _).guarded
      · split
        · exact (steady_sysBrk _).guarded
        · split
          · exact (steady_writeReg _ _).guarded
          · exact guarded_fail _

/-- The hook is asked before an unknown call is reported. -/
theorem clean_handleEcall : Clean (handleEcall env) := by
  refine clean_bind steady_getCpu fun cpu => ?_
  have answered (res : U32) (a0 a1 a2 a3 a7 : U32) :
      Clean (if res ≠ 0 then modifyCpu (·.writeReg regA0 res)
        else builtinSyscall env a0 a1 a2 a3 a7) := by
    split
    · exact (steady_writeReg _ _).guarded
    · exact clean_builtinSyscall env _ _ _ _ _
  simp only
  split
  · refine clean_bind (steady_ask ?_) fun res => answered res _ _ _ _ _
    exact steady_bind steady_get fun _ =>
      steady_bind (steady_modify fun bus => queryFrame_record bus rfl) fun _ => steady_pure _
  · exact clean_bind (steady_pure _) fun res => answered res _ _ _ _ _

theorem clean_execCsr (nextPc : U32) : Clean (execCsr env inst nextPc) := by
  refine clean_bind steady_getCpu fun cpu => ?_
  simp only
  split
  · split
    · exact guarded_bind_steady (clean_handleEcall env) fun _ => steady_pure _
    · split
      · exact (steady_bind steady_halted fun _ => steady_pure _).guarded
      · split
        · exact (steady_bind (steady_touch fun m => .csrs m _) fun _ => steady_pure _).guarded
        · exact (steady_pure _).guarded
  · exact (steady_bind (steady_touch fun m => .csrs m _) fun _ =>
      steady_bind (steady_writeReg _ _) fun _ => steady_pure _).guarded

theorem clean_execLoadFp : Clean (execLoadFp env inst) := by
  refine clean_bind steady_getCpu fun cpu => ?_
  simp only
  split
  · exact clean_bind (ask_readU32 _ _) fun _ => (steady_setFreg _ _).guarded
  · split
    · exact clean_bind (ask_readU32 _ _) fun _ => clean_bind (steady_addU32 _ _ _) fun _ =>
        clean_bind (ask_readU32 _ _) fun _ => (steady_writeF64 _ _).guarded
    · exact clean_illegal _

theorem clean_execStoreFp : Clean (execStoreFp env inst) := by
  refine clean_bind steady_getCpu fun cpu => ?_
  simp only
  split
  · exact (steady_storeU32 _ _).guarded
  · split
    · exact (steady_bind (steady_storeU32 _ _) fun _ => steady_bind (steady_addU32 _ _ _) fun _ =>
        steady_storeU32 _ _).guarded
    · exact clean_illegal _

theorem clean_execOpFpS : Clean (execOpFpS env inst) := by
  refine clean_bind steady_getCpu fun cpu => ?_
  simp only
  split
  · exact (steady_writeF32 _ _).guarded
  · exact (steady_writeF32 _ _).guarded
  · exact (steady_writeF32 _ _).guarded
  · exact (steady_writeF32 _ _).guarded
  · exact (steady_writeF32 _ _).guarded
  · exact clean_orIllegal _ _ fun _ => steady_setFreg _ _
  · exact clean_orIllegal _ _ fun _ => steady_writeF32 _ _
  · exact (steady_writeReg _ _).guarded
  · exact (steady_writeF32 _ _).guarded
  · split
    · exact (steady_writeReg _ _).guarded
    · split
      · exact (steady_writeReg _ _).guarded
      · exact (steady_pure _).guarded
  · exact (steady_setFreg _ _).guarded
  · exact clean_orIllegal _ _ fun _ => steady_writeReg _ _
  · exact (steady_writeF32 _ _).guarded
  · exact clean_illegal _

theorem clean_execOpFpD : Clean (execOpFpD env inst) := by
  refine clean_bind steady_getCpu fun cpu => ?_
  simp only
  split
  · exact (steady_writeF64 _ _).guarded
  · exact (steady_writeF64 _ _).guarded
  · exact (steady_writeF64 _ _).guarded
  · exact (steady_writeF64 _ _).guarded
  · exact (steady_writeF64 _ _).guarded
  · exact clean_orIllegal _ _ fun _ => steady_setFreg _ _
  · exact clean_orIllegal _ _ fun _ => steady_writeF64 _ _
  · exact (steady_writeF64 _ _).guarded
  · exact (steady_writeReg _ _).guarded
  · exact (steady_writeF64 _ _).guarded
  · split
    · exact (steady_writeReg _ _).guarded
    · exact (steady_pure _).guarded
  · exact clean_orIllegal _ _ fun _ => steady_writeReg _ _
  · exact clean_illegal _

theorem clean_execFused : Clean (execFused env inst) := by
  refine clean_bind steady_getCpu fun cpu => ?_
  simp only
  split
  · exact clean_orIllegal _ _ fun _ => steady_writeF32 _ _
  · split
    · exact clean_orIllegal _ _ fun _ => steady_writeF64 _ _
    · exact clean_illegal _

theorem clean_execRv32fd : Clean (execRv32fd env inst) := by
  unfold execRv32fd
  split
  · exact clean_execLoadFp env inst
  · exact clean_execStoreFp env inst
  · split
    · exact clean_execOpFpS env inst
    · split
      · exact clean_execOpFpD env inst
      · exact clean_illegal _
  all_goals first | exact clean_execFused env inst | exact clean_illegal _

/-- Every executor of full words. -/
theorem clean_dispatch (pc nextPc : U32) : Clean (executeInst32.dispatch env inst pc nextPc) := by
  have then_next {x : Exec Unit} (clean : Clean x) : Clean (do x; return nextPc) :=
    guarded_bind_steady clean fun _ => steady_pure _
  unfold executeInst32.dispatch
  split
  · split
    · exact then_next (clean_execRv32m env inst)
    · exact clean_execRv32i env inst nextPc
  all_goals first
    | exact clean_execRv32i env inst nextPc
    | exact then_next (clean_execRv32a env inst)
    | exact then_next (clean_execRv32fd env inst)
    | exact clean_execCsr env inst nextPc
    | exact guarded_fail _

theorem steady_setPc {ε : Type} (next : U32) :
    Steady execFrame (modifyCpu fun cpu => { cpu with pc := next } : Prog Machine ε Unit) :=
  steady_touch fun m => .pc m next

theorem clean_executeInst32 (raw : U32) : Clean (executeInst32 env raw) :=
  clean_bind steady_getCpu fun _ =>
    guarded_bind_steady (clean_dispatch env _ _ _) fun next => steady_setPc next

end Executors

section Compressed

variable (env : Env) (inst : U16)

theorem clean_illegal16 {α : Type} : Clean (illegal16 inst : Exec α) := clean_illegal _

/-- Something steady, then the next `pc`. -/
theorem steady_next {x : Exec Unit} (steady : Steady execFrame x) (next : U32) :
    Steady execFrame (do x; return next) :=
  steady_bind steady fun _ => steady_pure next

theorem steady_loadDouble (rd : Fin 32) (addr : U32) : Steady execFrame (loadDouble env rd addr) :=
  steady_bind (steady_of_ask (ask_readU32 _ _)) fun _ =>
    steady_bind (steady_of_ask (ask_readU32 _ _)) fun _ => steady_writeF64 _ _

theorem steady_storeDouble (bits : U64) (addr : U32) : Steady execFrame (storeDouble bits addr) :=
  steady_bind (steady_storeU32 _ _) fun _ => steady_storeU32 _ _

theorem steady_loadSingle (rd : Fin 32) (addr : U32) : Steady execFrame (loadSingle env rd addr) :=
  steady_bind (steady_of_ask (ask_readU32 _ _)) fun _ => steady_setFreg _ _

theorem steady_loadWord (rd : Fin 32) (addr : U32) : Steady execFrame (loadWord env rd addr) :=
  steady_bind (steady_of_ask (ask_readU32 _ _)) fun _ => steady_writeReg _ _

theorem clean_execQuadrant0 (funct3 : U8) (nextPc : U32) :
    Clean (execQuadrant0 env inst funct3 nextPc) := by
  refine clean_bind steady_getCpu fun cpu => ?_
  split
  · split
    · exact clean_illegal16 inst
    · exact (steady_next (steady_writeReg _ _) _).guarded
  · exact (steady_next (steady_loadDouble env _ _) _).guarded
  · exact (steady_next (steady_loadWord env _ _) _).guarded
  · exact (steady_next (steady_loadSingle env _ _) _).guarded
  · exact (steady_next (steady_storeDouble _ _) _).guarded
  · exact (steady_next (steady_storeU32 _ _) _).guarded
  · exact (steady_next (steady_storeU32 _ _) _).guarded
  · exact clean_illegal16 inst

theorem clean_execLuiGroup (nextPc : U32) : Clean (execLuiGroup inst nextPc) := by
  refine clean_bind steady_getCpu fun cpu => ?_
  simp only
  split
  · split
    · exact clean_illegal16 inst
    · exact (steady_next (steady_writeReg _ _) _).guarded
  · split
    · split
      · exact clean_illegal16 inst
      · exact (steady_next (steady_writeReg _ _) _).guarded
    · exact clean_illegal16 inst

theorem clean_execAluGroup (nextPc : U32) : Clean (execAluGroup env inst nextPc) := by
  refine clean_bind steady_getCpu fun cpu => ?_
  have shifted (val : U32) : Clean (do
      if shiftThenMask inst 12 1 ≠ 0 then illegal16 inst
      else
        if (shiftThenMask inst 2 0x1F).toNat ≠ 0 then
          modifyCpu (·.writeReg (creg inst 7) val)
        return nextPc : Exec U32) := by
    split
    · exact clean_illegal16 inst
    · split
      · exact (steady_next (steady_writeReg _ _) _).guarded
      · exact (steady_pure _).guarded
  simp only [rightShift_eq, pure_bind]
  split
  · exact shifted _
  · exact shifted _
  · exact (steady_next (steady_writeReg _ _) _).guarded
  · split
    · exact clean_illegal16 inst
    · exact (steady_next (steady_writeReg _ _) _).guarded

theorem clean_execQuadrant1 (funct3 : U8) (nextPc : U32) :
    Clean (execQuadrant1 env inst funct3 nextPc) := by
  refine clean_bind steady_getCpu fun cpu => ?_
  split
  · simp only
    split
    · exact (steady_next (steady_writeReg _ _) _).guarded
    · exact (steady_pure _).guarded
  · exact (steady_next (steady_writeReg _ _) _).guarded
  · exact (steady_next (steady_writeReg _ _) _).guarded
  · exact clean_execLuiGroup inst nextPc
  · exact clean_execAluGroup env inst nextPc
  · exact (steady_pure _).guarded
  · exact (steady_pure _).guarded
  · exact (steady_pure _).guarded
  · exact clean_illegal16 inst

theorem clean_execJumpGroup (nextPc : U32) : Clean (execJumpGroup inst nextPc) := by
  refine clean_bind steady_getCpu fun cpu => ?_
  simp only
  split
  · split
    · exact clean_illegal16 inst
    · exact (steady_pure _).guarded
  · split
    · split
      · exact (steady_next (steady_writeReg _ _) _).guarded
      · exact (steady_pure _).guarded
    · split
      · exact (steady_next steady_halted _).guarded
      · split
        · exact (steady_next (steady_writeReg _ _) _).guarded
        · split
          · exact (steady_next (steady_writeReg _ _) _).guarded
          · exact (steady_pure _).guarded

theorem clean_execQuadrant2 (funct3 : U8) (nextPc : U32) :
    Clean (execQuadrant2 env inst funct3 nextPc) := by
  refine clean_bind steady_getCpu fun cpu => ?_
  split
  · simp only [shlU32_small env.build (shamt16_lt inst), pure_bind]
    split
    · exact clean_illegal16 inst
    · split
      · exact (steady_next (steady_writeReg _ _) _).guarded
      · exact (steady_pure _).guarded
  · exact (steady_next (steady_loadDouble env _ _) _).guarded
  · split
    · exact clean_illegal16 inst
    · exact (steady_next (steady_loadWord env _ _) _).guarded
  · exact (steady_next (steady_loadSingle env _ _) _).guarded
  · exact clean_execJumpGroup inst nextPc
  · exact (steady_next (steady_storeDouble _ _) _).guarded
  · exact (steady_next (steady_storeU32 _ _) _).guarded
  · exact (steady_next (steady_storeU32 _ _) _).guarded
  · exact clean_illegal16 inst

theorem clean_execQuadrant (op funct3 : U8) (nextPc : U32) :
    Clean (execQuadrant env inst op funct3 nextPc) := by
  unfold execQuadrant
  split
  · exact clean_execQuadrant0 env inst _ _
  · exact clean_execQuadrant1 env inst _ _
  · exact clean_execQuadrant2 env inst _ _
  · exact clean_illegal16 inst

theorem clean_executeInst16 : Clean (executeInst16 env inst) :=
  clean_bind steady_getCpu fun _ =>
    guarded_bind_steady (clean_execQuadrant env inst _ _ _) fun next => steady_setPc next

end Compressed

end RiscvRs
