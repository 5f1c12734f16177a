import Mathlib

/-! Stateful programs that may report an error, panic, or run out of loop fuel.
An error keeps the state it was raised in: what a failed program already wrote
stays visible, so the absence of such writes is a theorem and not a convention. -/

namespace Effects

/-- How a run ends. `exhausted` marks a loop whose fuel did not suffice. -/
inductive Outcome (σ ε α : Type) where
  | ok (value : α) (state : σ)
  | err (error : ε) (state : σ)
  | panic
  | exhausted

/-- A program over states `σ`. -/
@[ext] structure Prog (σ ε α : Type) where
  run : σ → Outcome σ ε α

namespace Outcome

variable {σ τ ε ε' α β : Type}

/-- Continue with `f` after success. -/
def andThen (outcome : Outcome σ ε α) (f : α → σ → Outcome σ ε β) : Outcome σ ε β :=
  match outcome with
  | ok value s => f value s
  | err error s => err error s
  | panic => panic
  | exhausted => exhausted

@[simp] theorem andThen_ok (value : α) (s : σ) (f : α → σ → Outcome σ ε β) :
    (ok value s).andThen f = f value s := rfl

@[simp] theorem andThen_err (error : ε) (s : σ) (f : α → σ → Outcome σ ε β) :
    (err error s).andThen f = err error s := rfl

@[simp] theorem andThen_panic (f : α → σ → Outcome σ ε β) :
    (panic : Outcome σ ε α).andThen f = panic := rfl

@[simp] theorem andThen_exhausted (f : α → σ → Outcome σ ε β) :
    (exhausted : Outcome σ ε α).andThen f = exhausted := rfl

/-- A successful sequence splits at its first part. -/
theorem andThen_eq_ok {outcome : Outcome σ ε α} {f : α → σ → Outcome σ ε β} {b : β} {t : σ} :
    outcome.andThen f = ok b t ↔ ∃ a s, outcome = ok a s ∧ f a s = ok b t := by
  cases outcome <;> simp

/-- Rewrap value, error and state. -/
def reshape (outcome : Outcome τ ε α) (onOk : α → τ → Outcome σ ε' β)
    (onErr : ε → τ → Outcome σ ε' β) :
    Outcome σ ε' β :=
  match outcome with
  | ok value s => onOk value s
  | err error s => onErr error s
  | panic => panic
  | exhausted => exhausted

@[simp] theorem reshape_ok (value : α) (s : τ) (f : α → τ → Outcome σ ε' β)
    (g : ε → τ → Outcome σ ε' β) :
    (ok value s).reshape f g = f value s := rfl

@[simp] theorem reshape_err (error : ε) (s : τ) (f : α → τ → Outcome σ ε' β)
    (g : ε → τ → Outcome σ ε' β) :
    (err error s).reshape f g = g error s := rfl

@[simp] theorem reshape_panic (f : α → τ → Outcome σ ε' β) (g : ε → τ → Outcome σ ε' β) :
    (panic : Outcome τ ε α).reshape f g = panic := rfl

@[simp] theorem reshape_exhausted (f : α → τ → Outcome σ ε' β) (g : ε → τ → Outcome σ ε' β) :
    (exhausted : Outcome τ ε α).reshape f g = exhausted := rfl

end Outcome

namespace Prog

variable {σ τ ε ε' α β : Type}

instance : Monad (Prog σ ε) where
  pure value := ⟨fun s => .ok value s⟩
  bind x f := ⟨fun s => (x.run s).andThen fun value s' => (f value).run s'⟩

/-- Stop with an error in the current state. -/
def fail (error : ε) : Prog σ ε α := ⟨fun s => .err error s⟩

def panic : Prog σ ε α := ⟨fun _ => .panic⟩

def exhausted : Prog σ ε α := ⟨fun _ => .exhausted⟩

def get : Prog σ ε σ := ⟨fun s => .ok s s⟩

def modify (f : σ → σ) : Prog σ ε Unit := ⟨fun s => .ok () (f s)⟩

/-- A partial lookup: a missing value is a panic. -/
def expect (value : Option α) : Prog σ ε α :=
  match value with
  | some a => pure a
  | none => panic

/-- Turn a reported error into a value, keeping the state it was raised in. -/
def attempt (x : Prog σ ε α) : Prog σ ε' (Except ε α) :=
  ⟨fun s => (x.run s).reshape (fun value s' => .ok (.ok value) s')
    (fun error s' => .ok (.error error) s')⟩

/-- Run a program on one component of a larger state. -/
def zoom (view : σ → τ) (put : τ → σ → σ) (x : Prog τ ε α) : Prog σ ε α :=
  ⟨fun s => (x.run (view s)).reshape (fun value t => .ok value (put t s))
    (fun error t => .err error (put t s))⟩

@[simp] theorem run_pure (value : α) (s : σ) : (pure value : Prog σ ε α).run s = .ok value s := rfl

@[simp] theorem run_bind (x : Prog σ ε α) (f : α → Prog σ ε β) (s : σ) :
    (x >>= f).run s = (x.run s).andThen fun value s' => (f value).run s' := rfl

@[simp] theorem run_map (f : α → β) (x : Prog σ ε α) (s : σ) :
    (f <$> x).run s = (x.run s).andThen fun value s' => .ok (f value) s' := rfl

@[simp] theorem run_fail (error : ε) (s : σ) : (fail error : Prog σ ε α).run s = .err error s := rfl

@[simp] theorem run_panic (s : σ) : (panic : Prog σ ε α).run s = .panic := rfl

@[simp] theorem run_exhausted (s : σ) : (exhausted : Prog σ ε α).run s = .exhausted := rfl

@[simp] theorem run_get (s : σ) : (get : Prog σ ε σ).run s = .ok s s := rfl

@[simp] theorem run_modify (f : σ → σ) (s : σ) : (modify f : Prog σ ε Unit).run s = .ok () (f s) := rfl

@[simp] theorem run_zoom (view : σ → τ) (put : τ → σ → σ) (x : Prog τ ε α) (s : σ) :
    (zoom view put x).run s =
      (x.run (view s)).reshape (fun value t => .ok value (put t s))
        (fun error t => .err error (put t s)) := rfl

@[simp] theorem run_attempt (x : Prog σ ε α) (s : σ) :
    (attempt x : Prog σ ε' (Except ε α)).run s =
      (x.run s).reshape (fun value s' => .ok (.ok value) s')
        (fun error s' => .ok (.error error) s') := rfl

@[simp] theorem expect_some (a : α) : (expect (some a) : Prog σ ε α) = pure a := rfl

@[simp] theorem expect_none : (expect none : Prog σ ε α) = panic := rfl

private theorem id_map_prog (x : Prog σ ε α) : id <$> x = x := by
  ext s
  rw [run_map]
  cases x.run s <;> rfl

private theorem bind_assoc_prog {γ : Type} (x : Prog σ ε α) (f : α → Prog σ ε β)
    (g : β → Prog σ ε γ) :
    x >>= f >>= g = x >>= fun a => f a >>= g := by
  ext s
  simp only [run_bind]
  cases x.run s <;> rfl

instance : LawfulMonad (Prog σ ε) :=
  LawfulMonad.mk' (Prog σ ε) id_map_prog (fun _ _ => rfl) bind_assoc_prog

theorem bind_ok {x : Prog σ ε α} {f : α → Prog σ ε β} {s t : σ} {b : β} :
    (x >>= f).run s = .ok b t ↔ ∃ a s', x.run s = .ok a s' ∧ (f a).run s' = .ok b t := by
  rw [run_bind]
  exact Outcome.andThen_eq_ok

theorem bind_err {x : Prog σ ε α} {f : α → Prog σ ε β} {s t : σ} {error : ε} :
    (x >>= f).run s = .err error t ↔
      x.run s = .err error t ∨ ∃ a s', x.run s = .ok a s' ∧ (f a).run s' = .err error t := by
  rw [run_bind]
  cases outcome : x.run s <;> simp

theorem zoom_ok {view : σ → τ} {put : τ → σ → σ} {x : Prog τ ε α} {s t : σ} {a : α} :
    (zoom view put x).run s = .ok a t ↔ ∃ c, x.run (view s) = .ok a c ∧ put c s = t := by
  rw [run_zoom]
  cases x.run (view s) <;> simp

end Prog

end Effects
