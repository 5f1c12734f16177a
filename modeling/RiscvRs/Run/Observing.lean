import RiscvRs.Exec.Blind
import RiscvRs.Run.Fetch

/-! What the drivers do not see: the drivers reach processor, memory and host only through
instructions and a few looks at the processor, so an observer to whom no instruction shows what
he misses is shown nothing by a run. -/

namespace RiscvRs

open Effects Prog

/-- A machine with its record as the two observers see it. -/
def Tracked.seen {κ β : Type} (cpu : Cpu → κ) (bus : Bus → β) (t : Tracked) :
    (κ × β) × List GuestEvent :=
  (t.machine.seen cpu bus, t.history)

section Drivers

variable {κ β α : Type} {cpu : Cpu → κ} {bus : Bus → β} {env : Env}

theorem machineSeen {t t' : Tracked} (same : t.seen cpu bus = t'.seen cpu bus) :
    t.machine.seen cpu bus = t'.machine.seen cpu bus := congrArg Prod.fst same

theorem historySeen {t t' : Tracked} (same : t.seen cpu bus = t'.seen cpu bus) :
    t.history = t'.history :=
  congrArg Prod.snd same

theorem trackedCpuSeen {t t' : Tracked} (same : t.seen cpu bus = t'.seen cpu bus) :
    cpu t.cpu = cpu t'.cpu :=
  cpuSeen (machineSeen same)

theorem blind_onMachine {x : Prog Machine Empty α} (blind : Blind (Machine.seen cpu bus) x) :
    Blind (Tracked.seen cpu bus) (onMachine x) := by
  refine blind_zoom blind (fun _ _ same => machineSeen same) ?_
  intro t t' m m' same machine
  have history : t.history = t'.history := historySeen same
  exact Prod.ext machine history

theorem blind_record (event : GuestEvent) : Blind (Tracked.seen cpu bus) (record event) := by
  refine blind_modify fun t t' same => ?_
  have machine : t.machine.seen cpu bus = t'.machine.seen cpu bus := machineSeen same
  have history : event :: t.history = event :: t'.history :=
    congrArg (event :: ·) (historySeen same)
  exact Prod.ext machine history

/-- A change of the processor that no debug setting goes into. -/
theorem blind_change (sees : SeesCpu cpu) {f : Cpu → Cpu}
    (alike : ∀ c, (f c.bare).bare = (f c).bare) :
    Blind (Tracked.seen cpu bus) (onMachine (modifyCpu f)) :=
      blind_onMachine (blind_modifyCpu sees alike)

theorem blind_diagnose (reaches : SeesBus env.host bus) (message : Diagnostic) :
    Blind (Tracked.seen cpu bus) (diagnose message) := 
  blind_onMachine (blind_onBus
    (reaches.said fun world => { world with diagnostics := message :: world.diagnostics }))

theorem blind_reportSliceError (reaches : SeesBus env.host bus) (pc : U32) (inst : Fetched)
    (err : CpuError) :
    Blind (Tracked.seen cpu bus) (reportSliceError pc inst err) := by
  unfold reportSliceError
  split
  · exact blind_bind (blind_diagnose reaches _) fun _ => blind_diagnose reaches _
  · cases inst with
    | half _ => exact blind_diagnose reaches _
    | word _ => exact blind_diagnose reaches _

theorem blind_reportStepError (reaches : SeesBus env.host bus) (err : CpuError) :
    Blind (Tracked.seen cpu bus) (reportStepError err) := by
  refine blind_bind (blind_diagnose reaches _) fun _ => ?_
  split
  · exact blind_bind (blind_diagnose reaches _) fun _ => blind_diagnose reaches _
  · exact blind_pure ()

theorem blind_plainFetch (reaches : SeesBus env.host bus) (pc : U32) :
    Blind bus (plainFetch env.host pc) := by
  refine blind_bind (reaches.readAt .half pc) fun inst16 => ?_
  split
  · exact blind_pure _
  · exact blind_bind (reaches.readAt .word pc) fun _ => blind_pure _

theorem blind_fetchExecute (sees : SeesCpu cpu) (reaches : SeesBus env.host bus) (pc : U32) :
    Blind (Tracked.seen cpu bus) (fetchExecute env pc) := by
  rw [fetchExecute_plain]
  refine blind_bind (blind_onMachine (blind_onBus (blind_plainFetch reaches pc))) fun inst => ?_
  exact blind_bind (blind_onMachine (blind_attempt (inst.blind_execute sees reaches))) fun _ =>
    blind_pure _

/-- A look at the processor that uses only what the observer sees. -/
theorem blind_lookCpu {f : Cpu → Driver α} (alike : ∀ c c', cpu c = cpu c' → f c = f c')
    (each : ∀ c, Blind (Tracked.seen cpu bus) (f c)) :
    Blind (Tracked.seen cpu bus) (onMachine getCpu >>= f) :=
  blind_look Tracked.cpu (fun _ => rfl) (fun _ _ same => alike _ _ (trackedCpuSeen same))
    fun t => each t.cpu

/-- Only a loop that watches for breakpoints reads the settings. -/
theorem blind_chunkLoop (sees : SeesCpu cpu) (reaches : SeesBus env.host bus) {watch : Bool}
    (all : watch = true → Function.Injective cpu) (left : Nat) (skip : Option U32) (done : Nat) :
    Blind (Tracked.seen cpu bus) (chunkLoop env watch left skip done) := by
  induction left generalizing skip done with
  | zero => exact blind_pure _
  | succ left ih =>
    refine blind_lookCpu (fun c c' same => ?_) fun c => ?_
    · cases watch with
      | false =>
        simp only [Bool.false_eq_true, false_and, if_false, sees.pc same, sees.isHalted same]
      | true => rw [all rfl same]
    · dsimp only
      split
      · exact blind_pure _
      · split
        · exact blind_bind (blind_change sees fun _ => rfl) fun _ => blind_pure _
        · refine blind_bind (blind_fetchExecute sees reaches _) fun attempted => ?_
          refine blind_lookCpu (fun c c' same => ?_) fun u => ?_
          · rw [sees.pc same]
          · refine blind_bind (blind_record _) fun _ => ?_
            split
            · exact blind_bind (blind_reportSliceError reaches _ _ _) fun _ =>
                blind_bind (blind_change sees fun _ => rfl) fun _ => blind_pure _
            · exact blind_bind (blind_change sees fun _ => rfl) fun _ => ih _ _

end Drivers

section Whole

/-! Observers who see all of the processor. -/

variable {β α : Type} {bus : Bus → β} {env : Env}

theorem blind_readCpu {f : Cpu → Driver α} (each : ∀ c, Blind (Tracked.seen id bus) (f c)) :
    Blind (Tracked.seen id bus) (onMachine getCpu >>= f) :=
      blind_lookCpu (fun _ _ same => congrArg f same) each

theorem blind_setCpu (f : Cpu → Cpu) : Blind (Tracked.seen id bus) (onMachine (modifyCpu f)) := by
  refine blind_onMachine (blind_modify fun m m' same => ?_)
  have cpus : f m.cpu = f m'.cpu := congrArg f (cpuSeen same)
  have buses : bus m.bus = bus m'.bus := busSeen same
  exact Prod.ext cpus buses

theorem blind_stepInstruction (reaches : SeesBus env.host bus) :
    Blind (Tracked.seen id bus) (stepInstruction env) := by
  refine blind_readCpu fun c => ?_
  dsimp only
  split
  · exact blind_bind (blind_setCpu _) fun _ => blind_pure _
  · refine blind_bind (blind_setCpu _) fun _ => ?_
    split
    · exact blind_pure _
    · refine blind_bind (blind_fetchExecute seesCpu_id reaches _) fun attempted => blind_readCpu
        fun after => ?_
      refine blind_bind (blind_record _) fun _ => blind_bind (blind_setCpu _) fun _ => ?_
      split
      · exact blind_bind (blind_reportStepError reaches _) fun _ => blind_bind (blind_setCpu _)
          fun _ => blind_pure _
      · exact blind_pure _

theorem blind_pollInterrupt (answer : Poll) :
    Blind (Tracked.seen id bus) (pollInterrupt answer) := by
  refine blind_readCpu fun c => ?_
  split
  · exact blind_bind (blind_setCpu _) fun _ => blind_readCpu fun after => blind_record _
  · exact blind_pure ()

theorem blind_sliceLoop (reaches : SeesBus env.host bus) (poll : Nat → Poll) (watch : Bool)
    (budget fuel polls : Nat) (skip : Option U32) (executed : Nat) :
    Blind (Tracked.seen id bus) (sliceLoop env poll watch budget fuel polls skip executed) := by
  induction fuel generalizing polls skip executed with
  | zero => exact blind_exhausted
  | succ fuel ih =>
    refine blind_readCpu fun c => ?_
    split
    · exact blind_pure _
    · split
      · exact blind_pure _
      · refine blind_bind (blind_pollInterrupt _) fun _ => ?_
        refine blind_bind (blind_chunkLoop seesCpu_id reaches (fun _ => Function.injective_id) _ _
          _) fun result => ?_
        dsimp only
        split
        · exact blind_pure _
        · exact ih _ _ _

theorem blind_runSlice (reaches : SeesBus env.host bus) (poll : Nat → Poll) (budget : U32) :
    Blind (Tracked.seen id bus) (runSlice env poll budget) := by
  refine blind_readCpu fun c => blind_bind (blind_setCpu _) fun _ => ?_
  exact blind_bind (blind_sliceLoop reaches poll _ _ _ _ _ _) fun _ => blind_readCpu fun c =>
    blind_pure _

theorem blind_run (reaches : SeesBus env.host bus) (polls : Nat → Nat → Poll) (fuel slice : Nat) :
    Blind (Tracked.seen id bus) (run env polls fuel slice) := by
  induction fuel generalizing slice with
  | zero => exact blind_exhausted
  | succ fuel ih =>
    refine blind_bind (blind_runSlice reaches _ _) fun outcome => ?_
    split
    · exact ih _
    · exact ih _
    · exact blind_bind (blind_setCpu _) fun _ => blind_readCpu fun c => blind_pure _
    · exact blind_bind (blind_setCpu _) fun _ => blind_readCpu fun c => blind_pure _

end Whole

end RiscvRs
