import Mathlib

/-! Lines of text that can be read back: numerals, and a word followed by items
with commas between them. -/

namespace Text

section Digits

theorem digitChar_inj : ∀ i j : Fin 16, Nat.digitChar i = Nat.digitChar j → i = j := by decide

/-- Different numbers have different hexadecimal digits. -/
theorem hexDigits_inj {m n : Nat} (same : Nat.toDigits 16 m = Nat.toDigits 16 n) : m = n := by
  induction m using Nat.strongRecOn generalizing n with
  | ind m ih =>
    rw [Nat.toDigits_eq_if (n := m) (by decide), Nat.toDigits_eq_if (n := n) (by decide)] at same
    have last (i j : Nat) (equal : (i % 16).digitChar = (j % 16).digitChar) : i % 16 = j % 16 :=
      congrArg Fin.val (digitChar_inj ⟨i % 16, Nat.mod_lt i (by decide)⟩
        ⟨j % 16, Nat.mod_lt j (by decide)⟩ equal)
    have unit (k : Nat) : Nat.toDigits 16 k ≠ [] := Nat.toDigits_ne_nil
    split at same <;> rename_i small <;> split at same <;> rename_i small'
    · have equal := last m n (by simpa [Nat.mod_eq_of_lt, small, small'] using same)
      omega
    · exact absurd (List.append_eq_singleton_iff.mp same.symm) (by simp [unit])
    · exact absurd (List.append_eq_singleton_iff.mp same) (by simp [unit])
    · obtain ⟨high, low⟩ := List.append_inj' same rfl
      have quotients := ih (m / 16) (by omega) high
      have equal := last m n (List.singleton_inj.mp low)
      omega

def hexChars : List Char := "0123456789abcdef".toList

theorem digitChar_mem : ∀ i : Fin 16, Nat.digitChar i ∈ hexChars := by decide

theorem mem_hexDigits {n : Nat} {c : Char} (member : c ∈ Nat.toDigits 16 n) : c ∈ hexChars := by
  induction n using Nat.strongRecOn with
  | ind n ih =>
    have last (i : Nat) : (i % 16).digitChar ∈ hexChars :=
      digitChar_mem ⟨i % 16, Nat.mod_lt i (by decide)⟩
    rw [Nat.toDigits_eq_if (by decide)] at member
    split at member
    · rename_i small
      have digit := last n
      rw [Nat.mod_eq_of_lt small] at digit
      rwa [List.mem_singleton.mp member]
    · rcases List.mem_append.mp member with high | low
      · exact ih (n / 16) (by omega) high
      · rw [List.mem_singleton.mp low]
        exact last n

theorem mem_decimal {i : Int} {c : Char} (member : c ∈ (toString i).toList) :
    c = '-' ∨ c.isDigit := by
  have digit {n : Nat} (inside : c ∈ n.repr.toList) : c.isDigit := by
    rw [Nat.toList_repr] at inside
    exact Nat.isDigit_of_mem_toDigits (by decide) (by decide) inside
  rw [Int.toString_eq_repr] at member
  cases i with
  | ofNat n => exact .inr (digit member)
  | negSucc n =>
    have cut : c ∈ '-' :: n.succ.repr.toList := by simpa [Int.repr] using member
    rcases List.mem_cons.mp cut with sign | inside
    · exact .inl sign
    · exact .inr (digit inside)

theorem decimal_inj {i j : Int} (same : toString i = toString j) : i = j := by
  rw [Int.toString_eq_repr, Int.toString_eq_repr] at same
  exact Int.repr_injective same

end Digits

section Lines

variable {α : Type}

/-- The first separator tells where the front ends. -/
theorem front_inj {sep : α} {front front' rest rest' : List α} (free : sep ∉ front)
    (free' : sep ∉ front')
    (same : front ++ sep :: rest = front' ++ sep :: rest') : front = front' ∧ rest = rest' := by
  induction front generalizing front' with
  | nil =>
    cases front' with
    | nil => exact ⟨rfl, (List.cons.inj same).2⟩
    | cons c front' =>
      have head := (List.cons.inj same).1
      exact absurd (head ▸ List.mem_cons_self) free'
  | cons c front ih =>
    cases front' with
    | nil =>
      have head := (List.cons.inj same).1
      exact absurd (head ▸ List.mem_cons_self) free
    | cons c' front' =>
      obtain ⟨rfl, tail⟩ := List.cons.inj same
      obtain ⟨rfl, rest⟩ := ih (fun inside => free (List.mem_cons_of_mem c inside))
        (fun inside => free' (List.mem_cons_of_mem c inside)) tail
      exact ⟨rfl, rest⟩

/-- Items with `", "` between them. -/
def items (parts : List String) : String := ", ".intercalate parts

theorem toList_items_cons (part next : String) (parts : List String) :
    (items (part :: next :: parts)).toList = part.toList ++ ',' ::
      (' ' :: (items (next :: parts)).toList) := by
  simp [items, String.intercalate_cons_cons]

theorem items_inj {part part' : String} {parts parts' : List String}
    (free : ∀ s ∈ part :: parts, ',' ∉ s.toList) (free' : ∀ s ∈ part' :: parts', ',' ∉ s.toList)
    (same : items (part :: parts) = items (part' :: parts')) : part :: parts = part' :: parts' := by
  have one (s : String) : items [s] = s := String.intercalate_singleton
  -- a lone item has no comma, and a longer list has one after its first item
  have lone {s t u : String} {rest : List String} (clear : ',' ∉ s.toList)
      (equal : items [s] = items (t :: u :: rest)) : False := by
    apply clear
    rw [← one s, equal, toList_items_cons]
    exact List.mem_append_right _ List.mem_cons_self
  induction parts generalizing part part' parts' with
  | nil =>
    cases parts' with
    | nil => rw [one, one] at same; rw [same]
    | cons next' parts' => exact (lone (free part List.mem_cons_self) same).elim
  | cons next parts ih =>
    cases parts' with
    | nil => exact (lone (free' part' List.mem_cons_self) same.symm).elim
    | cons next' parts' =>
      have chars := congrArg String.toList same
      rw [toList_items_cons, toList_items_cons] at chars
      obtain ⟨first, rest⟩ :=
        front_inj (free part List.mem_cons_self) (free' part' List.mem_cons_self) chars
      have tail : next :: parts = next' :: parts' := by
        refine ih (fun s inside => free s (List.mem_cons_of_mem part inside))
          (fun s inside => free' s (List.mem_cons_of_mem part' inside)) ?_
        exact String.toList_inj.mp (List.cons.inj rest).2
      rw [String.toList_inj.mp first, tail]

/-- A word, and after a blank its items. -/
def line (word : String) (parts : List String) : String :=
  if parts = [] then word else word ++ " " ++ items parts

theorem line_inj {word word' : String} {parts parts' : List String}
    (whole : ' ' ∉ word.toList) (whole' : ' ' ∉ word'.toList)
    (free : ∀ s ∈ parts, ',' ∉ s.toList) (free' : ∀ s ∈ parts', ',' ∉ s.toList)
    (same : line word parts = line word' parts') : word = word' ∧ parts = parts' := by
  have split (w part : String) (rest : List String) :
      (line w (part :: rest)).toList = w.toList ++ ' ' :: (items (part :: rest)).toList := by
    simp [line]
  have bare {w w' part : String} {rest : List String} (clear : ' ' ∉ w.toList)
      (equal : line w [] = line w' (part :: rest)) : False := by
    apply clear
    have word : w = line w [] := rfl
    rw [word, equal, split]
    exact List.mem_append_right _ List.mem_cons_self
  cases parts with
  | nil =>
    cases parts' with
    | nil => exact ⟨same, rfl⟩
    | cons part' rest' => exact (bare whole same).elim
  | cons part rest =>
    cases parts' with
    | nil => exact (bare whole' same.symm).elim
    | cons part' rest' =>
      have chars := congrArg String.toList same
      rw [split, split] at chars
      obtain ⟨first, tail⟩ := front_inj whole whole' chars
      exact ⟨String.toList_inj.mp first, items_inj free free' (String.toList_inj.mp tail)⟩

/-- What stands before the last item: items, commas and blanks. -/
theorem items_snoc (parts : List String) (last : String) :
    ∃ front, items (parts ++ [last]) = front ++ last ∧
      ∀ c ∈ front.toList, c = ',' ∨ c = ' ' ∨ ∃ part ∈ parts, c ∈ part.toList := by
  induction parts with
  | nil => exact ⟨"", by simp [items], by simp⟩
  | cons part rest ih =>
    obtain ⟨front, split, clear⟩ := ih
    obtain ⟨next, others, more⟩ := List.exists_cons_of_ne_nil (List.concat_ne_nil last rest)
    refine ⟨part ++ ", " ++ front, ?_, ?_⟩
    · apply String.toList_inj.mp
      rw [List.cons_append, more, toList_items_cons, ← more, split]
      simp
    · intro c member
      simp only [String.toList_append, List.mem_append] at member
      rcases member with (here | mark) | later
      · exact .inr (.inr ⟨part, List.mem_cons_self, here⟩)
      · simpa [or_assoc] using Or.inl mark
      · rcases clear c later with comma | blank | ⟨other, inside, here⟩
        · exact .inl comma
        · exact .inr (.inl blank)
        · exact .inr (.inr ⟨other, List.mem_cons_of_mem part inside, here⟩)

/-- The first word of a text. -/
def word (text : String) : String := String.ofList (text.toList.takeWhile (· != ' '))

theorem word_line {w : String} (whole : ' ' ∉ w.toList) (parts : List String) :
    word (line w parts) = w := by
  have clear : ∀ c ∈ w.toList, (c != ' ') = true := by
    intro c member
    exact bne_iff_ne.mpr fun blank => whole (blank ▸ member)
  have front (rest : List Char) (stop : rest.takeWhile (· != ' ') = []) :
      (w.toList ++ rest).takeWhile (· != ' ') = w.toList := by
    rw [List.takeWhile_append_of_pos clear, stop, List.append_nil]
  rw [word, line]
  split
  · rw [← List.append_nil w.toList, front [] rfl, String.ofList_toList]
  · rw [String.toList_append, String.toList_append, List.append_assoc, front _ rfl,
      String.ofList_toList]

end Lines

end Text
