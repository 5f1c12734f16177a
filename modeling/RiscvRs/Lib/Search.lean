import Mathlib.Data.List.Basic
import Mathlib.Data.List.Perm.Basic

/-! What a search for the first match finds, and when it finds the same in any order. -/

namespace Search

variable {α β : Type} {p : α → Bool} {f : α → β} {xs before after : List α} {x : α} {b : β}

theorem find?_ne_none (member : x ∈ xs) (hit : p x = true) : xs.find? p ≠ none :=
  fun none => List.find?_eq_none.mp none x member hit

/-- A match is what counts unless an earlier one says something else. -/
theorem map_find?_middle (hit : p x = true) :
    ((before ++ x :: after).find? p).map f = some (f x) ↔ ∀ y, before.find? p = some y → f y = f x := by
  rw [List.find?_append, List.find?_cons_of_pos hit]
  cases before.find? p with
  | none => exact iff_of_true rfl nofun
  | some y =>
    rw [Option.some_or, Option.map_some, Option.some_inj]
    constructor
    · intro same y' found
      exact Option.some_inj.mp found ▸ same
    · exact fun agree => agree y rfl

/-- In every order the search says the same exactly when all matches do. -/
theorem map_find?_perm : (∀ ys : List α, ys.Perm xs → (ys.find? p).map f = some b) ↔
    (∃ x ∈ xs, p x = true) ∧ ∀ x ∈ xs, p x = true → f x = b := by
  constructor
  · intro same
    refine ⟨?_, fun x member hit => ?_⟩
    · obtain ⟨x, found, -⟩ := Option.map_eq_some_iff.mp (same xs (List.Perm.refl xs))
      exact ⟨x, List.mem_of_find?_eq_some found, List.find?_some found⟩
    · -- an order with this match in front
      obtain ⟨before, after, rfl⟩ := List.append_of_mem member
      have front := same (x :: (before ++ after)) List.perm_middle.symm
      rw [List.find?_cons_of_pos hit, Option.map_some, Option.some_inj] at front
      exact front
  · rintro ⟨⟨x, member, hit⟩, agree⟩ ys perm
    obtain ⟨y, found⟩ := Option.ne_none_iff_exists'.mp (find?_ne_none (perm.mem_iff.mpr member) hit)
    rw [found, Option.map_some]
    exact congrArg some (agree y (perm.mem_iff.mp (List.mem_of_find?_eq_some found))
      (List.find?_some found))

section First

/-- The first of a list with a property. -/
def First (p : α → Prop) (xs : List α) (x : α) : Prop :=
  ∃ before after, xs = before ++ x :: after ∧ p x ∧ ∀ y ∈ before, ¬p y

variable {p : α → Prop} {x y : α}

theorem first_iff [DecidablePred p] : First p xs x ↔ xs.find? (fun x => decide (p x)) = some x := by
  rw [List.find?_eq_some_iff_append]
  constructor
  · rintro ⟨before, after, rfl, hit, none⟩
    exact ⟨decide_eq_true hit, before, after, rfl, fun y member => by simpa using none y member⟩
  · rintro ⟨hit, before, after, rfl, none⟩
    exact ⟨before, after, rfl, of_decide_eq_true hit, fun y member => by simpa using none y member⟩

theorem First.unique (first : First p xs x) (other : First p xs y) : x = y := by
  classical
  exact Option.some_inj.mp ((first_iff.mp first).symm.trans (first_iff.mp other))

theorem First.exists (first : First p xs x) : ∃ x ∈ xs, p x := by
  obtain ⟨before, after, rfl, hit, -⟩ := first
  exact ⟨x, by simp, hit⟩

end First

/-- The last thing that the members of a list say. -/
theorem getLast?_filterMap_eq_some {f : α → Option β} : (xs.filterMap f).getLast? = some b ↔
    ∃ before x after, xs = before ++ x :: after ∧ f x = some b ∧ ∀ y ∈ after, f y = none := by
  rw [List.getLast?_filterMap, List.findSome?_eq_some_iff]
  constructor
  · rintro ⟨late, x, early, split, said, silent⟩
    refine ⟨early.reverse, x, late.reverse, ?_, said,
      fun y member => silent y (List.mem_reverse.mp member)⟩
    rw [← List.reverse_reverse xs, split]
    simp
  · rintro ⟨before, x, after, rfl, said, silent⟩
    exact ⟨after.reverse, x, before.reverse,
      by simp, said, fun y member => silent y (List.mem_reverse.mp member)⟩

end Search
