import Mathlib

/-! Runs of a labelled transition system, with the state before each step kept:
what a step preserves under a condition, a run whose steps meet the condition
preserves, from the start or from any step on. -/

namespace Effects

variable {σ ι : Type}

/-- A run, newest step first. -/
inductive Trace (step : σ → ι → σ → Prop) (start : σ) : List (σ × ι) → σ → Prop where
  | start : Trace step start [] start
  | step {moves : List (σ × ι)} {s t : σ} {label : ι} (before : Trace step start moves s)
    (last : step s label t) :
      Trace step start ((s, label) :: moves) t

namespace Trace

variable {step : σ → ι → σ → Prop} {start middle last : σ} {moves later : List (σ × ι)}

theorem single {s t : σ} {label : ι} (one : step s label t) : Trace step s [(s, label)] t :=
  .step .start one

theorem trans (first : Trace step start moves middle) (second : Trace step middle later last) :
    Trace step start (later ++ moves) last := by
  induction second with
  | start => exact first
  | step _ one ih => exact .step ih one

/-- An invariant of the steps that meet a condition holds after every run of such steps. -/
theorem invariant {G : σ → ι → Prop} {P : σ → Prop}
    (keep : ∀ s label t, step s label t → G s label → P s → P t)
    (run : Trace step start moves last) (good : ∀ move ∈ moves, G move.1 move.2) (init : P start) :
    P last := by
  induction run with
  | start => exact init
  | step before one ih =>
    apply keep _ _ _ one
    · exact good _ List.mem_cons_self
    · exact ih fun move member => good move (List.mem_cons_of_mem _ member)

/-- Where a condition is exactly what a step needs to keep `P`, a run holds `P`
throughout exactly when all its steps meet the condition. -/
theorem holds_iff {G : σ → ι → Prop} {P : σ → Prop}
    (exact_ : ∀ s label t, step s label t → P s → (P t ↔ G s label))
    (run : Trace step start moves last) (init : P start) :
    (P last ∧ ∀ move ∈ moves, P move.1) ↔ ∀ move ∈ moves, G move.1 move.2 := by
  induction run with
  | start => simp [init]
  | @step moves s t label before one ih =>
    simp only [List.forall_mem_cons]
    constructor
    · rintro ⟨after, here, earlier⟩
      exact ⟨(exact_ s label t one here).mp after, ih.mp ⟨here, earlier⟩⟩
    · rintro ⟨good, earlier⟩
      obtain ⟨here, before⟩ := ih.mpr earlier
      exact ⟨(exact_ s label t one here).mpr good, here, before⟩

/-- A run cut at one of its steps. -/
theorem cut {early late : List (σ × ι)} {s : σ} {label : ι}
    (run : Trace step start (late ++ (s, label) :: early) last) :
    ∃ t, Trace step start early s ∧ step s label t ∧ Trace step t late last := by
  induction late generalizing last with
  | nil =>
    cases run with
    | step before one => exact ⟨last, before, one, .start⟩
  | cons move late ih =>
    cases run with
    | step before one =>
      obtain ⟨t, first, at_, rest⟩ := ih before
      exact ⟨t, first, at_, .step rest one⟩

/-- What one step establishes and the later ones keep. -/
theorem since {G : σ → ι → Prop} {P : σ → Prop} {early late : List (σ × ι)} {s : σ} {label : ι}
    (keep : ∀ s label t, step s label t → G s label → P s → P t)
    (establish : ∀ t, step s label t → P t)
    (run : Trace step start (late ++ (s, label) :: early) last)
    (good : ∀ move ∈ late, G move.1 move.2) :
    P last := by
  obtain ⟨t, -, at_, rest⟩ := run.cut
  exact rest.invariant keep good (establish t at_)

end Trace

end Effects
