import Mathlib

/-! Machines whose step may be undefined, their runs of a given length, and what it
takes for another machine to follow such a run. -/

namespace Steps

variable {σ τ : Type}

/-- The state after `n` steps. -/
def after (step : σ → Option σ) : Nat → σ → Option σ
  | 0, s => some s
  | n + 1, s => (step s).bind (after step n)

theorem after_add (step : σ → Option σ) (n k : Nat) (s : σ) :
    after step (n + k) s = (after step n s).bind (after step k) := by
  induction n generalizing s with
  | zero => rw [Nat.zero_add, after, Option.bind_some]
  | succ n ih =>
    rw [Nat.add_right_comm, after, after, Option.bind_assoc]
    exact congrArg _ (funext ih)

theorem after_succ (step : σ → Option σ) (n : Nat) (s : σ) :
    after step (n + 1) s = (after step n s).bind step := by
  rw [after_add]
  refine congrArg _ (funext fun t => ?_)
  exact Option.bind_fun_some (step t)

/-- A run of any length starts with the shorter ones. -/
theorem after_prefix {step : σ → Option σ} {n k : Nat} {s t : σ}
    (run : after step (n + k) s = some t) :
    ∃ u, after step n s = some u ∧ after step k u = some t := by
  rw [after_add] at run
  exact Option.bind_eq_some_iff.mp run

/-- A state without a step ends every run. -/
theorem after_stuck {step : σ → Option σ} {n : Nat} {s t : σ} (stuck : step s = none)
    (run : after step n s = some t) : n = 0 ∧ s = t := by
  cases n with
  | zero => exact ⟨rfl, Option.some.inj run⟩
  | succ n =>
    rw [after, stuck] at run
    cases run

/-- Forward simulation. Where each step of the abstract machine's run is matched from the states
that the concrete one has reached, the whole run is. -/
theorem follow {step : σ → Option σ} (view : τ → σ) (reach : Nat → τ → Prop) {start : τ}
    (init : reach 0 start)
    {n : Nat} (each : ∀ k < n, ∀ t s, reach k t → after step k (view start) = some (view t) →
      step (view t) = some s →
      ∃ t', reach (k + 1) t' ∧ view t' = s)
    {s : σ} (run : after step n (view start) = some s) : ∃ t, reach n t ∧ view t = s := by
  induction n generalizing s with
  | zero => exact ⟨start, init, Option.some.inj run⟩
  | succ n ih =>
    rw [after_succ] at run
    obtain ⟨u, before, last⟩ := Option.bind_eq_some_iff.mp run
    obtain ⟨t, reached, rfl⟩ := ih (fun k less => each k (Nat.lt_succ_of_lt less)) before
    exact each n (Nat.lt_succ_self n) t s reached before last

/-- A run that never gets stuck goes on from each of its states. -/
theorem after_later {step : σ → Option σ} {j : Nat} {s t : σ}
    (run : after step j s = some t) (k : Nat) :
    after step (j + k) s = after step k t := by
  rw [after_add, run, Option.bind_some]

end Steps
