import Mathlib

/-! Arrays of a fixed length with checked indexing, and checked slices of lists. -/

namespace Effects

/-- An array of `n` cells. -/
abbrev Table (α : Type) (n : Nat) := Fin n → α

namespace Table

variable {α : Type} {n : Nat}

def replicate (n : Nat) (a : α) : Table α n := fun _ => a

def get? (table : Table α n) (index : Nat) : Option α :=
  if bound : index < n then some (table ⟨index, bound⟩) else none

def set? (table : Table α n) (index : Nat) (a : α) : Option (Table α n) :=
  if bound : index < n then some (Function.update table ⟨index, bound⟩ a) else none

/-- The cells `start, …, start + len - 1`, if they all exist. -/
def slice? (table : Table α n) (start len : Nat) : Option (List α) :=
  if bound : start + len ≤ n then
    some (List.ofFn fun i : Fin len => table ⟨start + i.val, by omega⟩)
  else none

/-- Overwrite the cells from `start` on with `values`, if they all exist. -/
def blit? (table : Table α n) (start : Nat) (values : List α) : Option (Table α n) :=
  if start + values.length ≤ n then
    some fun i => if start ≤ i.val then values.getD (i.val - start) (table i) else table i
  else none

theorem get?_of_lt (table : Table α n) {index : Nat} (bound : index < n) :
    table.get? index = some (table ⟨index, bound⟩) :=
  dif_pos bound

theorem get?_isSome_iff (table : Table α n) (index : Nat) :
    (table.get? index).isSome ↔ index < n := by
  unfold get?
  split
  · next bound => exact iff_of_true rfl bound
  · next outside => exact iff_of_false Bool.false_ne_true outside

theorem set?_of_lt (table : Table α n) {index : Nat} (bound : index < n) (a : α) :
    table.set? index a = some (Function.update table ⟨index, bound⟩ a) :=
  dif_pos bound

theorem room_of_blit? {table copied : Table α n} {start : Nat} {values : List α}
    (blitted : table.blit? start values = some copied) : start + values.length ≤ n := by
  by_contra outside
  rw [blit?, if_neg outside] at blitted
  cases blitted

theorem blit?_nil {table : Table α n} {start : Nat} (room : start + ([] : List α).length ≤ n) :
    table.blit? start [] = some table := by
  rw [blit?, if_pos room]
  simp

/-- A copy writes its first cell, then the others. -/
theorem blit?_cons (table : Table α n) {start : Nat} (bound : start < n) (a : α) (values : List α) :
    table.blit? start (a :: values) = blit? (Function.update table ⟨start, bound⟩ a)
      (start + 1) values := by
  have room : start + (a :: values).length ≤ n ↔ start + 1 + values.length ≤ n := by
    rw [List.length_cons]
    omega
  simp only [blit?, room]
  congr 2
  funext i
  by_cases here : i = ⟨start, bound⟩
  · subst here
    simp
  · have apart : i.val ≠ start := fun same => here (Fin.ext same)
    rw [Function.update_of_ne here]
    by_cases later : start + 1 ≤ i.val
    · obtain ⟨k, offset⟩ : ∃ k, i.val - start = k + 1 := ⟨i.val - start - 1, by omega⟩
      have rest : i.val - (start + 1) = k := by omega
      rw [if_pos later, if_pos (by omega), offset, rest, List.getD_cons_succ]
    · rw [if_neg later, if_neg (by omega)]

end Table

/-- The elements `start, …, start + len - 1` of a list, if they all exist. -/
def sliceOf? {α : Type} (values : List α) (start len : Nat) : Option (List α) :=
  if start + len ≤ values.length then some ((values.drop start).take len) else none

/-- Overwrite a stretch of a list of the length of `part`, if it exists. -/
def splice? {α : Type} (values : List α) (start : Nat) (part : List α) : Option (List α) :=
  if start + part.length ≤ values.length then
    some (values.take start ++ part ++ values.drop (start + part.length))
  else none

end Effects
