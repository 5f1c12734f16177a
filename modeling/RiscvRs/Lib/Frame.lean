import RiscvRs.Lib.Program

/-! What a program may do to its state, as a reflexive and transitive relation,
and the rules that carry such relations through sequencing, errors and views. -/

namespace Effects

/-- A bound on how a run may change the state. -/
structure Frame (σ : Type) where
  rel : σ → σ → Prop
  refl : ∀ s, rel s s
  trans : ∀ {r s t}, rel r s → rel s t → rel r t

/-- The frame of the programs that keep one observation of the state. -/
def Frame.of {σ ρ : Type} (observe : σ → ρ) : Frame σ where
  rel s t := observe t = observe s
  refl _ := rfl
  trans first second := second.trans first

/-- The frame of the programs that keep an invariant. -/
def Frame.invariant {σ : Type} (holds : σ → Prop) : Frame σ where
  rel s t := holds s → holds t
  refl _ := id
  trans first second := second ∘ first

/-- The frame of the programs that change the state by elementary updates only. -/
def Frame.closure {σ : Type} (touch : σ → σ → Prop) : Frame σ where
  rel := Relation.ReflTransGen touch
  refl _ := .refl
  trans first second := first.trans second

/-- The frame of the programs that add to a log only entries in `P`. -/
def Frame.logs {σ ρ : Type} (log : σ → List ρ) (P : ρ → Prop) : Frame σ where
  rel s t := ∃ entries, log t = entries ++ log s ∧ ∀ entry ∈ entries, P entry
  refl s := ⟨[], rfl, by simp⟩
  trans := by
    rintro r s t ⟨first, grown, fine⟩ ⟨second, grown', fine'⟩
    refine ⟨second ++ first, ?_, ?_⟩
    · rw [grown', grown, List.append_assoc]
    · intro entry member
      rcases List.mem_append.mp member with new | old
      · exact fine' entry new
      · exact fine entry old

theorem Frame.logs_mono {σ ρ : Type} {log : σ → List ρ} {P Q : ρ → Prop}
    (weaker : ∀ entry, P entry → Q entry)
    {s t : σ} (within : (Frame.logs log P).rel s t) : (Frame.logs log Q).rel s t := by
  obtain ⟨entries, grown, fine⟩ := within
  exact ⟨entries, grown, fun entry member => weaker entry (fine entry member)⟩

/-- The entries added are determined by the two logs. -/
theorem Frame.logs_iff {σ ρ : Type} {log : σ → List ρ} {P : ρ → Prop} {s t : σ} {entries : List ρ}
    (grown : log t = entries ++ log s) :
    (Frame.logs log P).rel s t ↔ ∀ entry ∈ entries, P entry := by
  constructor
  · rintro ⟨others, again, fine⟩
    obtain rfl := List.append_cancel_right (again.symm.trans grown)
    exact fine
  · exact fun fine => ⟨entries, grown, fine⟩

/-- What every elementary update respects, their closure respects. -/
theorem Frame.of_closure {σ : Type} {touch : σ → σ → Prop} {F : Frame σ}
    (each : ∀ s t, touch s t → F.rel s t) {s t : σ} (path : (Frame.closure touch).rel s t) :
    F.rel s t := by
  induction path with
  | refl => exact F.refl _
  | tail _ last ih => exact F.trans ih (each _ _ last)

namespace Prog

variable {σ τ ε ε' α β : Type} {F Q : Frame σ}

/-- Every run stays within the frame and none raises an error. -/
def Steady (F : Frame σ) (x : Prog σ ε α) : Prop :=
  ∀ s, (∃ a t, x.run s = .ok a t ∧ F.rel s t) ∨ x.run s = .panic ∨ x.run s = .exhausted

/-- Successful runs stay within `F`; a run that raises an error stayed within `Q`. -/
structure Guarded (F Q : Frame σ) (x : Prog σ ε α) : Prop where
  ok : ∀ {s t a}, x.run s = .ok a t → F.rel s t
  err : ∀ {s t e}, x.run s = .err e t → Q.rel s t

theorem Steady.ok {x : Prog σ ε α} (steady : Steady F x) {s t : σ} {a : α}
    (run : x.run s = .ok a t) :
    F.rel s t := by
  rcases steady s with ⟨b, u, done, within⟩ | stop | stop
  · obtain ⟨-, rfl⟩ := Outcome.ok.inj (run.symm.trans done)
    exact within
  · rw [run] at stop
    cases stop
  · rw [run] at stop
    cases stop

theorem Steady.ne_err {x : Prog σ ε α} (steady : Steady F x) {s t : σ} {e : ε} :
    x.run s ≠ .err e t := by
  intro run
  rcases steady s with ⟨b, u, done, -⟩ | stop | stop
  · rw [run] at done
    cases done
  · rw [run] at stop
    cases stop
  · rw [run] at stop
    cases stop

/-- Where no error exists, the successful runs decide. -/
theorem steady_of_ok {x : Prog σ Empty α} (kept : ∀ {s t a}, x.run s = .ok a t → F.rel s t) :
    Steady F x := by
  intro s
  cases run : x.run s with
  | ok a t => exact .inl ⟨a, t, rfl, kept run⟩
  | err e t => exact e.elim
  | panic => exact .inr (.inl rfl)
  | exhausted => exact .inr (.inr rfl)

theorem Steady.mono {G : Frame σ} {x : Prog σ ε α} (steady : Steady F x)
    (within : ∀ {s t}, F.rel s t → G.rel s t) : Steady G x := by
  intro s
  rcases steady s with ⟨a, t, done, kept⟩ | stop
  · exact .inl ⟨a, t, done, within kept⟩
  · exact .inr stop

@[simp] theorem steady_pure (a : α) : Steady F (pure a : Prog σ ε α) :=
  fun s => .inl ⟨a, s, rfl, F.refl s⟩

@[simp] theorem steady_get : Steady F (get : Prog σ ε σ) :=
  fun s => .inl ⟨s, s, rfl, F.refl s⟩

@[simp] theorem steady_panic : Steady F (panic : Prog σ ε α) :=
  fun _ => .inr (.inl rfl)

@[simp] theorem steady_exhausted : Steady F (exhausted : Prog σ ε α) :=
  fun _ => .inr (.inr rfl)

@[simp] theorem steady_expect (value : Option α) : Steady F (expect value : Prog σ ε α) := by
  cases value <;> simp

theorem steady_modify {f : σ → σ} (within : ∀ s, F.rel s (f s)) :
    Steady F (modify f : Prog σ ε Unit) :=
  fun s => .inl ⟨(), f s, rfl, within s⟩

/-- What follows may rely on what the first program returns. -/
theorem steady_bind_of {x : Prog σ ε α} {f : α → Prog σ ε β} (first : Steady F x)
    (second : ∀ s a t, x.run s = .ok a t → Steady F (f a)) : Steady F (x >>= f) := by
  intro s
  rw [run_bind]
  rcases first s with ⟨a, t, done, kept⟩ | stop | stop
  · rw [done, Outcome.andThen_ok]
    rcases second s a t done t with ⟨b, u, done', kept'⟩ | stop
    · exact .inl ⟨b, u, done', F.trans kept kept'⟩
    · exact .inr stop
  · rw [stop]
    exact .inr (.inl rfl)
  · rw [stop]
    exact .inr (.inr rfl)

theorem steady_bind {x : Prog σ ε α} {f : α → Prog σ ε β} (first : Steady F x)
    (second : ∀ a, Steady F (f a)) : Steady F (x >>= f) :=
  steady_bind_of first fun _ a _ _ => second a

/-- A view is steady when its own frame, put back, is within the large one. -/
theorem steady_zoom {G : Frame τ} {view : σ → τ} {put : τ → σ → σ} {x : Prog τ ε α}
    (inner : Steady G x) (within : ∀ s c, G.rel (view s) c → F.rel s (put c s)) :
    Steady F (zoom view put x) := by
  intro s
  rw [run_zoom]
  rcases inner (view s) with ⟨a, c, done, kept⟩ | stop | stop
  · rw [done]
    exact .inl ⟨a, put c s, rfl, within s c kept⟩
  · rw [stop]
    exact .inr (.inl rfl)
  · rw [stop]
    exact .inr (.inr rfl)

/-- Successful runs stay within `F`, whatever else may happen. -/
def Kept (F : Frame σ) (x : Prog σ ε α) : Prop := ∀ s t a, x.run s = .ok a t → F.rel s t

theorem Kept.pure (a : α) : Kept F (Pure.pure a : Prog σ ε α) := by
  intro s t b run
  obtain ⟨-, rfl⟩ := Outcome.ok.inj run
  exact F.refl s

theorem Kept.fail (error : ε) : Kept F (fail error : Prog σ ε α) := by
  intro s t a run
  cases run

theorem Kept.panic : Kept F (panic : Prog σ ε α) := by
  intro s t a run
  cases run

theorem Kept.expect (value : Option α) : Kept F (expect value : Prog σ ε α) := by
  cases value with
  | none => exact .panic
  | some a => exact .pure a

theorem Kept.modify {f : σ → σ} (within : ∀ s, F.rel s (f s)) :
    Kept F (modify f : Prog σ ε Unit) := by
  intro s t a run
  obtain ⟨-, rfl⟩ := Outcome.ok.inj run
  exact within s

theorem Kept.bind {x : Prog σ ε α} {f : α → Prog σ ε β} (first : Kept F x)
    (second : ∀ a, Kept F (f a)) :
    Kept F (x >>= f) := by
  intro s t b run
  obtain ⟨a, s', one, two⟩ := bind_ok.mp run
  exact F.trans (first _ _ _ one) (second a _ _ _ two)

/-- A view in which every change is allowed. -/
theorem Kept.zoom {view : σ → τ} {put : τ → σ → σ} (within : ∀ s c, F.rel s (put c s))
    (x : Prog τ ε α) :
    Kept F (zoom view put x) := by
  intro s t a run
  obtain ⟨c, -, rfl⟩ := zoom_ok.mp run
  exact within s c

theorem Steady.guarded {x : Prog σ ε α} (steady : Steady F x) : Guarded F Q x where
  ok run := steady.ok run
  err run := absurd run steady.ne_err

@[simp] theorem guarded_fail (error : ε) : Guarded F Q (fail error : Prog σ ε α) where
  ok run := by cases run
  err run := by
    obtain ⟨-, rfl⟩ := Outcome.err.inj run
    exact Q.refl _

/-- Work within the error frame may come before a check. -/
theorem guarded_bind {x : Prog σ ε α} {f : α → Prog σ ε β} (inside : ∀ {s t}, Q.rel s t → F.rel s t)
    (first : Steady Q x) (second : ∀ a, Guarded F Q (f a)) : Guarded F Q (x >>= f) where
  ok run := by
    obtain ⟨a, s', one, two⟩ := bind_ok.mp run
    exact F.trans (inside (first.ok one)) ((second a).ok two)
  err run := by
    rcases bind_err.mp run with one | ⟨a, s', one, two⟩
    · exact absurd one first.ne_err
    · exact Q.trans (first.ok one) ((second a).err two)

/-- After the last check anything steady may follow. -/
theorem guarded_bind_steady {x : Prog σ ε α} {f : α → Prog σ ε β} (first : Guarded F Q x)
    (second : ∀ a, Steady F (f a)) : Guarded F Q (x >>= f) where
  ok run := by
    obtain ⟨a, s', one, two⟩ := bind_ok.mp run
    exact F.trans (first.ok one) ((second a).ok two)
  err run := by
    rcases bind_err.mp run with one | ⟨a, s', -, two⟩
    · exact first.err one
    · exact absurd two (second a).ne_err

end Prog

end Effects
