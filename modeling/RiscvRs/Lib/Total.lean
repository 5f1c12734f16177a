import RiscvRs.Lib.Frame
import RiscvRs.Lib.Table

/-! Runs that end: with a value or with a reported error, not with a panic and not
for want of fuel. The rules carry what is known of the value, since a later checked
lookup may depend on it. -/

namespace Effects

/-- The run ended with a value or an error. -/
def Outcome.Ends {σ ε α : Type} : Outcome σ ε α → Prop
  | ok .. | err .. => True
  | panic | exhausted => False

/-- Before a continuation that always ends. -/
theorem Outcome.ends_andThen_iff {σ ε α β : Type} {outcome : Outcome σ ε α}
    {f : α → σ → Outcome σ ε β}
    (second : ∀ a t, (f a t).Ends) : (outcome.andThen f).Ends ↔ outcome.Ends := by
  cases outcome with
  | ok a t => exact iff_of_true (second a t) trivial
  | err e t => rfl
  | panic => rfl
  | exhausted => rfl

namespace Prog

variable {σ τ ε ε' α β : Type} {P : α → Prop} {Q : β → Prop}

/-- From every state the run ends, and a value it ends with is in `P`. -/
def Yields (P : α → Prop) (x : Prog σ ε α) : Prop :=
  ∀ s, (∃ a t, x.run s = .ok a t ∧ P a) ∨ ∃ e t, x.run s = .err e t

/-- From every state the run ends. -/
def Total (x : Prog σ ε α) : Prop := Yields (fun _ => True) x

theorem Yields.ends {x : Prog σ ε α} (yields : Yields P x) (s : σ) : (x.run s).Ends := by
  rcases yields s with ⟨a, t, run, -⟩ | ⟨e, t, run⟩
  · rw [run]
    trivial
  · rw [run]
    trivial

theorem yields_pure {a : α} (here : P a) : Yields P (pure a : Prog σ ε α) :=
  fun s => .inl ⟨a, s, rfl, here⟩

@[simp] theorem total_pure (a : α) : Total (pure a : Prog σ ε α) := yields_pure trivial

@[simp] theorem total_get : Total (get : Prog σ ε σ) := fun s => .inl ⟨s, s, rfl, trivial⟩

@[simp] theorem total_modify (f : σ → σ) : Total (modify f : Prog σ ε Unit) :=
  fun s => .inl ⟨(), f s, rfl, trivial⟩

@[simp] theorem total_fail (error : ε) : Total (fail error : Prog σ ε α) :=
  fun s => .inr ⟨error, s, rfl⟩

theorem yields_expect {value : Option α} (here : ∃ a, value = some a ∧ P a) :
    Yields P (expect value : Prog σ ε α) := by
  obtain ⟨a, rfl, holds⟩ := here
  exact yields_pure holds

theorem yields_bind {x : Prog σ ε α} {f : α → Prog σ ε β} (first : Yields P x)
    (second : ∀ a, P a → Yields Q (f a)) : Yields Q (x >>= f) := by
  intro s
  rw [run_bind]
  rcases first s with ⟨a, t, run, here⟩ | ⟨e, t, run⟩
  · rw [run]
    exact second a here t
  · rw [run]
    exact .inr ⟨e, t, rfl⟩

theorem total_bind {x : Prog σ ε α} {f : α → Prog σ ε β} (first : Total x)
    (second : ∀ a, Total (f a)) :
    Total (x >>= f) :=
  yields_bind first fun a _ => second a

theorem yields_zoom {view : σ → τ} {put : τ → σ → σ} {x : Prog τ ε α} (inner : Yields P x) :
    Yields P (zoom view put x) := by
  intro s
  rw [run_zoom]
  rcases inner (view s) with ⟨a, c, run, here⟩ | ⟨e, c, run⟩
  · rw [run]
    exact .inl ⟨a, put c s, rfl, here⟩
  · rw [run]
    exact .inr ⟨e, put c s, rfl⟩

/-- A view ends where the inner program does. -/
theorem ends_zoom_iff (view : σ → τ) (put : τ → σ → σ) (x : Prog τ ε α) (s : σ) :
    ((zoom view put x).run s).Ends ↔ (x.run (view s)).Ends := by
  rw [run_zoom]
  cases x.run (view s) <;> rfl

/-- An attempt ends where the program does. -/
theorem ends_attempt_iff (x : Prog σ ε α) (s : σ) :
    ((attempt x : Prog σ ε' (Except ε α)).run s).Ends ↔ (x.run s).Ends := by
  rw [run_attempt]
  cases x.run s <;> rfl

/-- A total program that raises no error ends with a value. -/
theorem Total.ok {F : Frame σ} {x : Prog σ ε α} (total : Total x) (steady : Steady F x) (s : σ) :
    ∃ a t, x.run s = .ok a t := by
  rcases total s with ⟨a, t, run, -⟩ | ⟨e, t, run⟩
  · exact ⟨a, t, run⟩
  · exact absurd run steady.ne_err

/-- After a program that succeeded, the sequence ends where its second part does. -/
theorem ends_bind_of_ok {x : Prog σ ε α} {f : α → Prog σ ε β} {s t : σ} {a : α}
    (run : x.run s = .ok a t) :
    ((x >>= f).run s).Ends ↔ ((f a).run t).Ends := by
  rw [run_bind, run, Outcome.andThen_ok]

/-- Before a total continuation, the sequence ends where its first part does. -/
theorem ends_bind_iff {x : Prog σ ε α} {f : α → Prog σ ε β} (second : ∀ a, Total (f a)) (s : σ) :
    ((x >>= f).run s).Ends ↔ (x.run s).Ends :=
  Outcome.ends_andThen_iff fun a t => (second a).ends t

/-- No run stops for want of fuel, though it may panic. -/
def Fueled (x : Prog σ ε α) : Prop := ∀ s, x.run s ≠ .exhausted

theorem Total.fueled {x : Prog σ ε α} (total : Total x) : Fueled x := by
  intro s
  rcases total s with ⟨a, t, run, -⟩ | ⟨e, t, run⟩
  · rw [run]
    simp
  · rw [run]
    simp

theorem fueled_bind {x : Prog σ ε α} {f : α → Prog σ ε β} (first : Fueled x)
    (second : ∀ a, Fueled (f a)) :
    Fueled (x >>= f) := by
  intro s
  rw [run_bind]
  cases run : x.run s with
  | ok a t => exact second a t
  | err e t => simp
  | panic => simp
  | exhausted => exact absurd run (first s)

theorem fueled_zoom {view : σ → τ} {put : τ → σ → σ} {x : Prog τ ε α} (inner : Fueled x) :
    Fueled (zoom view put x) := by
  intro s
  rw [run_zoom]
  cases run : x.run (view s) with
  | ok a c => simp
  | err e c => simp
  | panic => simp
  | exhausted => exact absurd run (inner (view s))

theorem fueled_attempt {x : Prog σ ε α} (inner : Fueled x) :
    Fueled (attempt x : Prog σ ε' (Except ε α)) := by
  intro s
  rw [run_attempt]
  cases run : x.run s with
  | ok a t => simp
  | err e t => simp
  | panic => simp
  | exhausted => exact absurd run (inner s)

theorem fueled_expect (value : Option α) : Fueled (expect value : Prog σ ε α) := by
  intro s
  cases value <;> simp

end Prog

/-- A part that fits in keeps the length, and is there after what stood before it. -/
theorem splice?_of_room {α : Type} (values : List α) (start : Nat) (part : List α)
    (room : start + part.length ≤ values.length) :
    ∃ spliced, splice? values start part = some spliced ∧ spliced.length = values.length ∧
      spliced.take (start + part.length) = values.take start ++ part := by
  refine ⟨_, if_pos room, ?_, ?_⟩
  · simp only [List.length_append, List.length_take, List.length_drop]
    omega
  · apply List.take_left'
    rw [List.length_append, List.length_take, min_eq_left (by omega)]

theorem length_sliceOf? {α : Type} {values : List α} {start len : Nat}
    (room : start + len ≤ values.length) :
    ∃ part, sliceOf? values start len = some part ∧ part.length = len := by
  refine ⟨_, if_pos room, ?_⟩
  simp only [List.length_take, List.length_drop]
  omega

end Effects
