import RiscvRs.Lib.Program

/-! Programs that do not see part of their state, and runs of a step that goes on or
stops. A step that does not see a part of the state settles alike from states that
differ in that part only. -/

namespace Effects

variable {σ τ ρ ν ε ε' α β : Type}

/-- Outcomes that an observer of the state cannot tell apart. -/
inductive Outcome.Alike (view : σ → ρ) : Outcome σ ε α → Outcome σ ε α → Prop where
  | ok (value : α) {s s' : σ} (same : view s = view s') : Alike view (.ok value s) (.ok value s')
  | err (error : ε) {s s' : σ} (same : view s = view s') : Alike view (.err error s) (.err error s')
  | panic : Alike view .panic .panic
  | exhausted : Alike view .exhausted .exhausted

namespace Prog

variable {view : σ → ρ}

/-- From states that look alike the program does alike. -/
def Blind (view : σ → ρ) (x : Prog σ ε α) : Prop :=
  ∀ s s', view s = view s' → (x.run s).Alike view (x.run s')

/-- Views that tell the same states apart. -/
theorem Blind.congr {view' : σ → ν} {x : Prog σ ε α} (blind : Blind view x)
    (same : ∀ s s', view s = view s' ↔ view' s = view' s') : Blind view' x := by
  intro s s' equal
  have alike := blind s s' ((same s s').mpr equal)
  generalize x.run s = outcome, x.run s' = outcome' at alike ⊢
  cases alike with
  | ok a seen => exact .ok a ((same _ _).mp seen)
  | err e seen => exact .err e ((same _ _).mp seen)
  | panic => exact .panic
  | exhausted => exact .exhausted

/-- A program that does what a blind one does. -/
theorem Blind.of_run {x y : Prog σ ε α} (blind : Blind view y) (same : ∀ s, x.run s = y.run s) :
    Blind view x := by
  intro s s' seen
  rw [same, same]
  exact blind s s' seen

/-- A program that always ends, with what is seen of its start. -/
theorem blind_of_ok {x : Prog σ ε α} (value : σ → α) (after : σ → σ)
    (ends : ∀ s, x.run s = .ok (value s) (after s))
    (alike : ∀ s s', view s = view s' → value s = value s' ∧ view (after s) = view (after s')) :
    Blind view x := by
  intro s s' same
  obtain ⟨values, states⟩ := alike s s' same
  rw [ends, ends, values]
  exact .ok _ states

theorem blind_exhausted : Blind view (exhausted : Prog σ ε α) := fun _ _ _ => .exhausted

theorem blind_pure (a : α) : Blind view (pure a : Prog σ ε α) := fun _ _ same => .ok a same

theorem blind_fail (error : ε) : Blind view (fail error : Prog σ ε α) :=
  fun _ _ same => .err error same

theorem blind_panic : Blind view (panic : Prog σ ε α) := fun _ _ _ => .panic

theorem blind_expect (value : Option α) : Blind view (expect value : Prog σ ε α) := by
  cases value with
  | none => exact blind_panic
  | some a => exact blind_pure a

theorem blind_modify {f : σ → σ} (alike : ∀ s s', view s = view s' → view (f s) = view (f s')) :
    Blind view (modify f : Prog σ ε Unit) :=
  fun s s' same => .ok () (alike s s' same)

theorem blind_bind {x : Prog σ ε α} {f : α → Prog σ ε β} (first : Blind view x)
    (second : ∀ a, Blind view (f a)) :
    Blind view (x >>= f) := by
  intro s s' same
  have alike := first s s' same
  rw [run_bind, run_bind]
  generalize x.run s = outcome, x.run s' = outcome' at alike ⊢
  cases alike with
  | ok a same => exact second a _ _ same
  | err e same => exact .err e same
  | panic => exact .panic
  | exhausted => exact .exhausted

/-- A look at the state that uses only what is seen. -/
theorem blind_look {x : Prog σ ε α} (look : σ → α) (looks : ∀ s, x.run s = .ok (look s) s)
    {f : α → Prog σ ε β}
    (alike : ∀ s s', view s = view s' → f (look s) = f (look s'))
    (each : ∀ s, Blind view (f (look s))) :
    Blind view (x >>= f) := by
  intro s s' same
  rw [run_bind, run_bind, looks, looks, Outcome.andThen_ok, Outcome.andThen_ok, ← alike s s' same]
  exact each s s s' same

theorem blind_id (x : Prog σ ε α) : Blind id x := by
  intro s s' same
  obtain rfl : s = s' := same
  cases x.run s with
  | ok a t => exact .ok a rfl
  | err e t => exact .err e rfl
  | panic => exact .panic
  | exhausted => exact .exhausted

/-- A component that is seen no more of than the program on it sees. -/
theorem blind_zoom {inner : σ → τ} {put : τ → σ → σ} {part : τ → ν} {x : Prog τ ε α}
    (blind : Blind part x)
    (shown : ∀ s s', view s = view s' → part (inner s) = part (inner s'))
    (alike : ∀ s s' c c', view s = view s' → part c = part c' → view (put c s) = view (put c' s')) :
    Blind view (zoom inner put x) := by
  intro s s' same
  have inside := blind _ _ (shown s s' same)
  rw [run_zoom, run_zoom]
  generalize x.run (inner s) = outcome, x.run (inner s') = outcome' at inside ⊢
  cases inside with
  | ok a equal => exact .ok a (alike s s' _ _ same equal)
  | err e equal => exact .err e (alike s s' _ _ same equal)
  | panic => exact .panic
  | exhausted => exact .exhausted

theorem blind_attempt {x : Prog σ ε α} (blind : Blind view x) :
    Blind view (attempt x : Prog σ ε' (Except ε α)) := by
  intro s s' same
  have inside := blind s s' same
  rw [run_attempt, run_attempt]
  generalize x.run s = outcome, x.run s' = outcome' at inside ⊢
  cases inside with
  | ok a same => exact .ok _ same
  | err e same => exact .ok _ same
  | panic => exact .panic
  | exhausted => exact .exhausted

end Prog

section Settling

variable (next : Prog σ ε (Option β))

/-- After `n` steps the next one stops, with a reason and a last state. -/
inductive Settles : Nat → σ → β → σ → Prop where
  | stop {s t : σ} {reason : β} (last : next.run s = .ok (some reason) t) : Settles 0 s reason t
  | step {n : Nat} {s t u : σ} {reason : β} (first : next.run s = .ok none t)
    (rest : Settles n t reason u) :
      Settles (n + 1) s reason u

variable {next}

theorem Settles.of_stop {n : Nat} {s t u : σ} {reason reason' : β}
    (settles : Settles next n s reason t)
    (stop : next.run s = .ok (some reason') u) : n = 0 ∧ reason = reason' ∧ t = u := by
  cases settles with
  | stop last =>
    obtain ⟨same, rfl⟩ := Outcome.ok.inj (last.symm.trans stop)
    exact ⟨rfl, Option.some.inj same, rfl⟩
  | step first rest =>
    obtain ⟨same, -⟩ := Outcome.ok.inj (first.symm.trans stop)
    cases same

theorem Settles.of_step {n : Nat} {s t u : σ} {reason : β} (settles : Settles next n s reason t)
    (step : next.run s = .ok none u) : ∃ k, n = k + 1 ∧ Settles next k u reason t := by
  cases settles with
  | stop last =>
    obtain ⟨same, -⟩ := Outcome.ok.inj (last.symm.trans step)
    cases same
  | step first rest =>
    obtain ⟨-, rfl⟩ := Outcome.ok.inj (first.symm.trans step)
    exact ⟨_, rfl, rest⟩

/-- What a step does not see does not change where it settles. -/
theorem Settles.alike {view : σ → ρ} (blind : Prog.Blind view next) {n : Nat} {s t s' : σ} {reason : β}
    (settles : Settles next n s reason t) (same : view s = view s') :
    ∃ t', Settles next n s' reason t' ∧ view t = view t' := by
  induction settles generalizing s' with
  | stop last =>
    have alike := blind _ s' same
    rw [last] at alike
    generalize run : next.run s' = outcome at alike
    cases alike with
    | ok _ seen => exact ⟨_, .stop run, seen⟩
  | step first _ ih =>
    have alike := blind _ s' same
    rw [first] at alike
    generalize run : next.run s' = outcome at alike
    cases alike with
    | ok _ seen =>
      obtain ⟨t', rest, last⟩ := ih seen
      exact ⟨t', .step run rest, last⟩

end Settling

section Endings

variable {next : Prog σ ε (Option β)} {verdict : σ → ν}

/-- What is to be said of the state where the step settles. -/
def EndsIn (next : Prog σ ε (Option β)) (verdict : σ → ν) (s : σ) (v : ν) : Prop :=
  ∃ n reason t, Settles next n s reason t ∧ verdict t = v

/-- From both states the step settles, or from neither, and the same is to be said of the end. -/
def SameEnd (next : Prog σ ε (Option β)) (verdict : σ → ν) (s t : σ) : Prop :=
  ∀ v, EndsIn next verdict s v ↔ EndsIn next verdict t v

theorem SameEnd.refl (s : σ) : SameEnd next verdict s s := fun _ => Iff.rfl

theorem SameEnd.symm {s t : σ} (same : SameEnd next verdict s t) : SameEnd next verdict t s :=
  fun v => (same v).symm

theorem SameEnd.trans {s t u : σ} (first : SameEnd next verdict s t)
    (second : SameEnd next verdict t u) :
    SameEnd next verdict s u := fun v => (first v).trans (second v)

theorem sameEnd_of_step {s t : σ} (step : next.run s = .ok none t) : SameEnd next verdict s t := by
  intro v
  constructor
  · rintro ⟨n, reason, u, settles, rfl⟩
    obtain ⟨k, rfl, rest⟩ := settles.of_step step
    exact ⟨k, reason, u, rest, rfl⟩
  · rintro ⟨n, reason, u, settles, rfl⟩
    exact ⟨n + 1, reason, u, .step step settles, rfl⟩

theorem endsIn_of_stop {s t : σ} {reason : β} (stop : next.run s = .ok (some reason) t) (v : ν) :
    EndsIn next verdict s v ↔ verdict t = v := by
  constructor
  · rintro ⟨n, reason', u, settles, rfl⟩
    obtain ⟨-, -, rfl⟩ := settles.of_stop stop
    rfl
  · exact fun said => ⟨0, reason, t, .stop stop, said⟩

/-- Two states where the step stops at once, and of whose last states the same is to be said. -/
theorem sameEnd_of_stop {s s' t t' : σ} {reason reason' : β}
    (stop : next.run s = .ok (some reason) t)
    (stop' : next.run s' = .ok (some reason') t') (said : verdict t = verdict t') :
    SameEnd next verdict s s' := by
  intro v
  rw [endsIn_of_stop stop, endsIn_of_stop stop', said]

/-- States that differ in what neither the step sees nor the verdict tells. -/
theorem sameEnd_of_alike {view : σ → ρ} (blind : Prog.Blind view next)
    (told : ∀ t t', view t = view t' → verdict t = verdict t') {s s' : σ}
    (same : view s = view s') :
    SameEnd next verdict s s' := by
  have one {s s' : σ} (same : view s = view s') (v : ν) (ends : EndsIn next verdict s v) :
      EndsIn next verdict s' v := by
    obtain ⟨n, reason, t, settles, rfl⟩ := ends
    obtain ⟨t', settles', seen⟩ := settles.alike blind same
    exact ⟨n, reason, t', settles', (told t t' seen).symm⟩
  exact fun v => ⟨one same v, one same.symm v⟩

end Endings

end Effects
