import Mathlib.Data.List.Basic
import Mathlib.Tactic.Linarith

/-! Calls and returns along a run: which calls are open, how deep they are nested, and when
control comes back to the call at the bottom. -/

namespace Nesting

variable {α : Type}

/-- What one step means for the open calls, with the place where control goes. -/
inductive Hop (α : Type) where
  | call (back target : α)
  | ret (target : α)
  | other (target : Option α)

def Hop.target? : Hop α → Option α
  | call _ target => some target
  | ret target => some target
  | other target => target

/-- The places to return to, innermost first. Hops are listed newest first, and `base`
was open before them. -/
def openCalls (base : List α) : List (Hop α) → List α
  | [] => base
  | .call back _ :: earlier => back :: openCalls base earlier
  | .ret _ :: earlier => (openCalls base earlier).tail
  | .other _ :: earlier => openCalls base earlier

/-- Calls count one up and returns one down. -/
def depth : List (Hop α) → Int
  | [] => 0
  | .call _ _ :: earlier => depth earlier + 1
  | .ret _ :: earlier => depth earlier - 1
  | .other _ :: earlier => depth earlier

/-- Every hop meets a condition on it and on the hops before it. -/
def Throughout (good : List (Hop α) → Hop α → Prop) : List (Hop α) → Prop
  | [] => True
  | hop :: earlier => good earlier hop ∧ Throughout good earlier

/-- A return goes back to the innermost open call. -/
def ReturnsToCaller (base : List α) (earlier : List (Hop α)) (hop : Hop α) : Prop :=
  ∀ target, hop = .ret target → (openCalls base earlier).head? = some target

/-- No call is made that returns to `site` while one is open. -/
def NotReentered (base : List α) (site : α) (earlier : List (Hop α)) (hop : Hop α) : Prop :=
  ∀ target, hop = .call site target → site ∉ openCalls base earlier

/-- Only a return goes to `site`. -/
def OnlyReturnedTo (site : α) (hop : Hop α) : Prop := hop.target? = some site → hop = .ret site

theorem Throughout.mono {good better : List (Hop α) → Hop α → Prop}
    (weaker : ∀ earlier hop, good earlier hop → better earlier hop) {hops : List (Hop α)}
    (all : Throughout good hops) :
    Throughout better hops := by
  induction hops with
  | nil => trivial
  | cons hop earlier ih => exact ⟨weaker _ _ all.1, ih all.2⟩

/-- Where returns match calls, the depth is the number of open calls. -/
theorem length_openCalls {base : List α} {hops : List (Hop α)}
    (matched : Throughout (ReturnsToCaller base) hops) :
    ((openCalls base hops).length : Int) = base.length + depth hops := by
  induction hops with
  | nil => simp [openCalls, depth]
  | cons hop earlier ih =>
    have before := ih matched.2
    cases hop with
    | call back target =>
      simp only [openCalls, depth, List.length_cons, Nat.cast_add, Nat.cast_one]
      linarith
    | ret target =>
      obtain ⟨rest, shape⟩ := List.head?_eq_some_iff.mp (matched.1 target rfl)
      simp only [openCalls, depth, shape, List.tail_cons] at before ⊢
      simp only [List.length_cons, Nat.cast_add, Nat.cast_one] at before
      linarith
    | other target => exact before

/-- A hop above the call at the bottom: it stays open, or this is its return. -/
theorem openCalls_bottom {base calls : List α} {bottom : α} {earlier : List (Hop α)} {hop : Hop α}
    (inside : openCalls base earlier = calls ++ [bottom])
    (matched : ReturnsToCaller base earlier hop) :
    (∃ calls', openCalls base (hop :: earlier) = calls' ++ [bottom] ∧
      (∀ back ∈ calls', back ∈ calls ∨ ∃ target, hop = .call back target) ∧
        ∀ target, hop = .ret target → target ∈ calls) ∨
      (hop = .ret bottom ∧ openCalls base (hop :: earlier) = []) := by
  cases hop with
  | call back target =>
    refine .inl ⟨back :: calls,
      by rw [openCalls, inside, List.cons_append], ?_, fun target returned => by cases returned⟩
    intro other member
    rcases List.mem_cons.mp member with rfl | before
    · exact .inr ⟨target, rfl⟩
    · exact .inl before
  | other target =>
    exact .inl ⟨calls, inside, fun back member => .inl member,
      fun target returned => by cases returned⟩
  | ret target =>
    have home := matched target rfl
    rw [inside] at home
    cases calls with
    | nil =>
      obtain rfl := Option.some.inj home
      exact .inr ⟨rfl, by rw [openCalls, inside]; rfl⟩
    | cons back rest =>
      obtain rfl := Option.some.inj home
      refine .inl ⟨rest, by rw [openCalls, inside]; rfl,
        fun other member => .inl (List.mem_cons_of_mem _ member), ?_⟩
      intro target returned
      obtain rfl := Hop.ret.inj returned
      exact List.mem_cons_self

/-- What holds while a call from `site` is open and has not come back. -/
def InsideCall (site : α) (hops : List (Hop α)) : Prop :=
  ∃ calls, openCalls [] hops = calls ++ [site] ∧ site ∉ calls

/-- Inside a call that is not re-entered, control comes to its return address by its own
return and not before. -/
theorem InsideCall.step {site : α} {earlier : List (Hop α)} {hop : Hop α}
    (inside : InsideCall site earlier)
    (matched : ReturnsToCaller [] earlier hop) (fresh : NotReentered [] site earlier hop)
    (only : OnlyReturnedTo site hop) :
    (InsideCall site (hop :: earlier) ∧ hop.target? ≠ some site) ∨
      (hop = .ret site ∧ openCalls [] (hop :: earlier) = []) := by
  obtain ⟨calls, shape, outside⟩ := inside
  rcases openCalls_bottom shape matched with ⟨calls', still, grown, returned⟩ | back
  · refine .inl ⟨⟨calls', still, fun again => ?_⟩,
      fun arrives => outside (returned site (only arrives))⟩
    rcases grown site again with before | ⟨target, call⟩
    · exact outside before
    · exact fresh target call (by rw [shape]; simp)
  · exact .inr back

end Nesting
