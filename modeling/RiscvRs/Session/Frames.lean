import RiscvRs.Session.Debugger
import RiscvRs.Memory.Effects

/-! What the loader and the debugger commands keep, for any frame that their
elementary steps keep. -/

namespace RiscvRs

open Effects Prog

/-- The frame of the calls that keep a property of the machine and its record. -/
def keeping (holds : Tracked → Prop) : Frame Simulator := Frame.invariant fun s => holds s.tracked

theorem steady_onCpu {F : Frame Simulator} {f : Cpu → Cpu}
    (kept : ∀ s : Simulator, F.rel s { s with tracked := s.tracked.withCpu (f s.tracked.cpu) }) :
    Steady F (onCpu f) :=
  fun s => .inl ⟨(), _, run_onCpu f s, kept s⟩

theorem steady_simCpu {F : Frame Simulator} : Steady F simCpu :=
  fun s => .inl ⟨s.tracked.cpu, s, run_simCpu s, F.refl s⟩

theorem steady_arith {F : Frame Simulator} (env : Env) (a b : U32) (c d : Nat) :
    Steady F (env.build.addU32 a b : Api U32) ∧ Steady F (env.build.subU32 a b) ∧
      Steady F (env.build.addUsize c d) := by
  refine ⟨?_, ?_, ?_⟩
  · unfold Build.addU32
    split <;> simp
  · unfold Build.subU32
    split <;> simp
  · unfold Build.addUsize
    split <;> simp

section Commands

variable {α : Type} {env : Env} {holds : Tracked → Prop}

theorem steady_onTracked {x : Driver α} (kept : ∀ {t t' a}, x.run t = .ok a t' →
    holds t → holds t') :
    Steady (keeping holds) (onTracked x) := by
  apply steady_of_ok
  intro s s' a run before
  obtain ⟨t, inner, rfl⟩ := onTracked_ok.mp run
  exact kept inner before

/-- A property that every slice and the final stop keep, a whole run keeps. -/
theorem run_kept (holds : Tracked → Prop)
    (slice : ∀ {poll budget out t t'}, (runSlice env poll budget).run t = .ok out t' →
      holds t → holds t')
    (halt : ∀ {t : Tracked}, holds t → holds (t.withCpu { t.cpu with isHalted := true }))
    {polls : Nat → Nat → Poll} {fuel first : Nat} {code : U32} {t t' : Tracked}
    (ran : (run env polls fuel first).run t = .ok code t') (before : holds t) : holds t' := by
  induction fuel generalizing first t with
  | zero => cases ran
  | succ fuel ih =>
    obtain ⟨out, u, sliced, rest⟩ := bind_ok.mp ran
    have after := slice sliced before
    cases status : out.status with
    | running =>
      simp only [status] at rest
      exact ih rest after
    | breakpoint =>
      simp only [status] at rest
      exact ih rest after
    | halted =>
      simp only [status] at rest
      obtain ⟨-, rfl⟩ := Outcome.ok.inj rest
      exact halt after
    | trapped =>
      simp only [status] at rest
      obtain ⟨-, rfl⟩ := Outcome.ok.inj rest
      exact halt after

theorem steady_runUntilBreakpoint (holds : Tracked → Prop)
    (slice : ∀ {poll budget out t t'}, (runSlice env poll budget).run t = .ok out t' →
      holds t → holds t')
    (polls : Nat → Nat → Poll) (fuel first : Nat) :
    Steady (keeping holds) (runUntilBreakpoint env polls fuel first) := by
  induction fuel generalizing first with
  | zero => exact steady_exhausted
  | succ fuel ih =>
    refine steady_bind (steady_onTracked slice) fun out => steady_bind steady_simCpu fun cpu => ?_
    split
    · exact steady_pure _
    · exact steady_pure _
    · exact steady_pure _
    · exact ih _

/-- The entry points of the driver keep the property. -/
structure KeptByDriver (env : Env) (holds : Tracked → Prop) : Prop where
  slice : ∀ {poll budget out t t'}, (runSlice env poll budget).run t = .ok out t' →
    holds t → holds t'
  halt : ∀ {t : Tracked}, holds t → holds (t.withCpu { t.cpu with isHalted := true })
  watch : ∀ {t : Tracked} breakpoints, holds t →
    holds (t.withCpu { t.cpu with breakpoints := breakpoints })

theorem KeptByDriver.run (kept : KeptByDriver env holds) {polls : Nat → Nat → Poll}
    {fuel slice : Nat} {code : U32}
    {t t' : Tracked} (ran : (RiscvRs.run env polls fuel slice).run t = .ok code t')
    (before : holds t) : holds t' :=
  run_kept holds kept.slice kept.halt ran before

theorem KeptByDriver.runUntilBreakpoint (kept : KeptByDriver env holds) (polls : Nat → Nat → Poll)
    (fuel slice : Nat) :
    Steady (keeping holds) (RiscvRs.runUntilBreakpoint env polls fuel slice) :=
  steady_runUntilBreakpoint holds kept.slice polls fuel slice

theorem KeptByDriver.runToTemporary (kept : KeptByDriver env holds) (polls : Nat → Nat → Poll)
    (fuel : Nat)
    (addr : U32) : Steady (keeping holds) (RiscvRs.runToTemporary env polls fuel addr) := by
  refine steady_bind steady_simCpu fun cpu => ?_
  refine steady_bind (steady_onCpu fun _ => kept.watch _) fun _ =>
    steady_bind (kept.runUntilBreakpoint polls fuel 0) fun snap => ?_
  split
  · exact steady_bind (steady_onCpu fun _ => kept.watch _) fun _ => steady_pure _
  · exact steady_pure _

end Commands

section Loader

variable {F : Frame Simulator} (env : Env) (bytes : List U8)

/-- The elementary steps of the loader stay within the frame. -/
structure LoadsWithin (F : Frame Simulator) : Prop where
  copy : ∀ addr content, Steady F (onMemory (Memory.writeBytes addr content))
  place : ∀ entry, Steady F (onCpu fun cpu => { cpu with pc := entry })
  name : ∀ addr name, Steady F (insertSymbol addr name)
  init : ∀ r val, Steady F (onCpu (·.writeReg r val))

variable (within : LoadsWithin F)

include within

theorem steady_loadSegments (headers : List ProgramHeader) :
    Steady F (loadSegments env bytes headers) := by
  induction headers with
  | nil => exact steady_pure _
  | cons phdr rest ih =>
    have sum (a b : Nat) := (steady_arith (F := F) env 0 0 a b).2.2
    rw [loadSegments]
    split
    · refine steady_bind (sum _ _) fun stop => ?_
      dsimp only
      split
      · exact steady_bind (sum _ _) fun _ => steady_bind (steady_expect _) fun _ =>
          steady_bind (within.copy _ _) fun _ => ih
      · exact ih
    · exact ih

theorem steady_loadLinkedSymbols (strtab : Nat → Option Text) (syms : List Sym) :
    Steady F (loadLinkedSymbols strtab syms) := by
  induction syms with
  | nil => exact steady_pure _
  | cons sym rest ih =>
    rw [loadLinkedSymbols]
    split
    · split
      · exact steady_bind (within.name _ _) fun _ => ih
      · exact ih
    · exact ih

omit within in
theorem steady_placeSection (shdr : SectionHeader) (currentAddr : U32) :
    Steady F (placeSection env shdr currentAddr) := by
  have sum (a b : U32) := (steady_arith (F := F) env a b 0 0).1
  have difference (a b : U32) := (steady_arith (F := F) env a b 0 0).2.1
  unfold placeSection
  split
  · exact steady_pure _
  · exact steady_bind (sum _ _) fun _ => steady_bind (difference _ _) fun _ =>
      steady_bind (difference _ _) fun _ => steady_bind (sum _ _) fun _ => steady_pure _

theorem steady_loadSections (headers : List SectionHeader) (currentAddr : U32)
    (sectionAddrs : List U32) :
    Steady F (loadSections env bytes headers currentAddr sectionAddrs) := by
  induction headers generalizing currentAddr sectionAddrs with
  | nil => exact steady_pure _
  | cons shdr rest ih =>
    have sum (a b : Nat) := (steady_arith (F := F) env 0 0 a b).2.2
    rw [loadSections]
    dsimp only
    split
    · refine steady_bind (steady_placeSection env shdr currentAddr) fun placed => ?_
      split
      · refine steady_bind (sum _ _) fun stop => ?_
        split
        · exact steady_bind (sum _ _) fun _ => steady_bind (steady_expect _) fun _ =>
            steady_bind (within.copy _ _) fun _ => ih _ _
        · exact ih _ _
      · exact ih _ _
    · exact ih _ _

theorem steady_loadObjectSymbols (strtab : Nat → Option Text) (sectionAddrs : List U32)
    (syms : List Sym)
    (entryPoint : U32) : Steady F (loadObjectSymbols strtab sectionAddrs syms entryPoint) := by
  induction syms generalizing entryPoint with
  | nil => exact steady_pure _
  | cons sym rest ih =>
    rw [loadObjectSymbols]
    split
    · split
      · refine steady_bind (within.name _ _) fun _ => ?_
        split
        · exact ih _
        · exact ih _
      · exact ih _
    · exact ih _

theorem steady_loadElf (elf : Elf) : Steady F (loadElf env bytes elf) := by
  have placed (entry : U32) : Steady F (do
      onCpu fun cpu => { cpu with pc := entry }
      return entry : Api U32) :=
    steady_bind (within.place entry) fun _ => steady_pure _
  unfold loadElf
  dsimp only
  split
  · exact steady_bind (steady_loadSegments env bytes within _) fun _ =>
      steady_bind (steady_loadLinkedSymbols within _ _) fun _ => steady_bind (steady_pure _)
        fun _ => placed _
  · exact steady_bind (steady_loadSections env bytes within _ _ _) fun _ =>
      steady_bind (steady_loadObjectSymbols within _ _ _ _) fun _ => steady_bind (steady_pure _)
        fun _ => placed _

theorem steady_initRegisters (inits : List (Nat × U32)) : Steady F (initRegisters inits) := by
  induction inits with
  | nil => exact steady_pure _
  | cons init rest ih =>
    obtain ⟨regIdx, val⟩ := init
    rw [initRegisters]
    split
    · exact steady_bind (within.init _ _) fun _ => ih
    · exact steady_bind steady_panic fun _ => ih

end Loader

/-- The simulator as a load leaves it before it writes anything. -/
def Simulator.reset (s : Simulator) : Simulator where
  tracked :=
    { machine :=
        { cpu := { Cpu.new with hasCustomSyscalls := s.tracked.cpu.hasCustomSyscalls }
          bus := { s.tracked.machine.bus with mem := Memory.new } }
      history := .loaded :: s.tracked.history }
  symbols := fun _ => none

/-- A load starts from a reset simulator, whatever was there before. -/
theorem loadBinaryWithArgs_within {F : Frame Simulator} (within : LoadsWithin F) {env : Env}
    {bytes : List U8}
    {parse : ElfParser} {args : List Text} {entry : U32} {s s' : Simulator}
    (run : (loadBinaryWithArgs env bytes parse args).run s = .ok entry s') : F.rel s.reset s' := by
  unfold loadBinaryWithArgs at run
  cases parsed : parse bytes with
  | some elf =>
    rw [parsed] at run
    have load : Steady F (do
        initRegisters (SimConfig.parseArgs env.build.usizeBits args).registerInits
        loadElf env bytes elf : Api U32) :=
      steady_bind (steady_initRegisters within _) fun _ => steady_loadElf env bytes within elf
    exact load.ok run
  | none =>
    rw [parsed] at run
    have load : Steady F (do
        initRegisters (SimConfig.parseArgs env.build.usizeBits args).registerInits
        onMemory (Memory.writeBytes 0 bytes)
        onCpu fun cpu => { cpu with pc := 0 }
        return 0 : Api U32) := by
      refine steady_bind (steady_initRegisters within _) fun _ => ?_
      exact steady_bind (within.copy 0 bytes) fun _ => steady_bind (within.place 0) fun _ =>
        steady_pure _
    exact load.ok run

end RiscvRs
