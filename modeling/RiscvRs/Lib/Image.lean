import Mathlib

/-! Images made of pieces laid over one another, and pieces placed behind one another
at aligned addresses. -/

namespace Image

section Stack

variable {α β : Type}

/-- A partial store laid over a total one. -/
def lay (base : α → β) (piece : α → Option β) : α → β := fun x => (piece x).getD (base x)

/-- Pieces laid one after another, the last on top. -/
def stack (base : α → β) (pieces : List (α → Option β)) : α → β := pieces.foldl lay base

/-- The last piece that has something at a place decides. -/
theorem stack_apply (base : α → β) (pieces : List (α → Option β)) (x : α) :
    stack base pieces x = (pieces.filterMap (· x)).getLast?.getD (base x) := by
  induction pieces generalizing base with
  | nil => rfl
  | cons piece rest ih =>
    rw [stack, List.foldl_cons, ← stack, ih, lay]
    cases here : piece x with
    | none => simp only [List.filterMap_cons, here, Option.getD_none]
    | some b => simp only [List.filterMap_cons, here, List.getLast?_cons, Option.getD_some]

theorem stack_append (base : α → β) (first second : List (α → Option β)) :
    stack base (first ++ second) = stack (stack base first) second :=
  List.foldl_append

/-- Where no piece has anything, the base shows. -/
theorem stack_free (base : α → β) {pieces : List (α → Option β)} {x : α}
    (free : ∀ piece ∈ pieces, piece x = none) :
    stack base pieces x = base x := by
  rw [stack_apply, List.filterMap_eq_nil_iff.mpr free]
  rfl

/-- A piece shows where nothing later covers it. -/
theorem stack_shows (base : α → β) {before after : List (α → Option β)} {piece : α → Option β}
    {x : α} {b : β}
    (here : piece x = some b) (free : ∀ later ∈ after, later x = none) :
    stack base (before ++ piece :: after) x = b := by
  rw [stack_append, stack, List.foldl_cons, ← stack, stack_free _ free, lay, here]
  rfl

/-- The same by position. -/
theorem stack_shows_at (base : α → β) {pieces : List (α → Option β)} {i : Nat}
    {piece : α → Option β} {x : α} {b : β}
    (at_ : pieces[i]? = some piece) (here : piece x = some b)
    (free : ∀ j later, i < j → pieces[j]? = some later → later x = none) :
    stack base pieces x = b := by
  obtain ⟨inside, same⟩ := List.getElem?_eq_some_iff.mp at_
  have split : pieces = pieces.take i ++ piece :: pieces.drop (i + 1) := by
    rw [← same, List.getElem_cons_drop, List.take_append_drop]
  rw [split]
  refine stack_shows base here fun later member => ?_
  obtain ⟨k, found⟩ := List.mem_iff_getElem?.mp member
  rw [List.getElem?_drop] at found
  exact free (i + 1 + k) later (by omega) found

end Stack

section Align

/-- The least multiple of `align` from `n` on. -/
def alignUp (align n : Nat) : Nat := (n + align - 1) / align * align

variable {align : Nat}

theorem dvd_alignUp (align n : Nat) : align ∣ alignUp align n := Nat.dvd_mul_left _ _

theorem le_alignUp (positive : 0 < align) (n : Nat) : n ≤ alignUp align n := by
  have split := Nat.div_add_mod (n + align - 1) align
  have small := Nat.mod_lt (n + align - 1) positive
  rw [Nat.mul_comm] at split
  unfold alignUp
  omega

/-- Clearing low bits rounds down. -/
theorem toNat_and_not_mask {w k : Nat} (narrow : k < w) (x : BitVec w) :
    (x &&& ~~~(BitVec.ofNat w (2 ^ k) - 1)).toNat = x.toNat / 2 ^ k * 2 ^ k := by
  have one : 1 ≤ 2 ^ k := Nat.one_le_two_pow
  have mask : BitVec.ofNat w (2 ^ k) - 1 = BitVec.ofNat w (2 ^ k - 1) :=
    BitVec.ofNat_sub_ofNat_of_le _ _ (Nat.one_lt_two_pow (by omega)) one
  have shifted : x &&& ~~~(BitVec.ofNat w (2 ^ k) - 1) = (x >>> k) <<< k := by
    rw [mask]
    apply BitVec.eq_of_getLsbD_eq
    intro i bound
    rw [BitVec.getLsbD_and, BitVec.getLsbD_not, BitVec.getLsbD_ofNat, Nat.testBit_two_pow_sub_one,
      BitVec.getLsbD_shiftLeft, BitVec.getLsbD_ushiftRight]
    by_cases low : i < k
    · simp [low, bound]
    · have back : k + (i - k) = i := by omega
      simp [low, bound, back]
  rw [shifted, BitVec.toNat_shiftLeft, BitVec.toNat_ushiftRight, Nat.shiftLeft_eq,
    Nat.shiftRight_eq_div_pow]
  exact Nat.mod_eq_of_lt (Nat.lt_of_le_of_lt (Nat.div_mul_le_self _ _) x.isLt)

end Align

section Layout

variable {ι : Type}

/-- The addresses of the items that want a place (an alignment and a size) when they are put
behind one another from `start` on. -/
def layOut (want : ι → Option (Nat × Nat)) : Nat → List ι → List (Option Nat)
  | _, [] => []
  | start, item :: rest =>
    match want item with
    | some (align, size) =>
      some (alignUp align start) :: layOut want (alignUp align start + size) rest
    | none => none :: layOut want start rest

variable {want : ι → Option (Nat × Nat)}

@[simp] theorem length_layOut (start : Nat) (items : List ι) :
    (layOut want start items).length = items.length := by
  induction items generalizing start with
  | nil => rfl
  | cons item rest ih =>
    rw [layOut]
    split
    · rw [List.length_cons, List.length_cons, ih]
    · rw [List.length_cons, List.length_cons, ih]

/-- An item that wants a place gets one. -/
theorem layOut_placed (start : Nat) {items : List ι} {i : Nat} {item : ι} {w : Nat × Nat}
    (here : items[i]? = some item)
    (wanted : want item = some w) : ∃ a, (layOut want start items)[i]? = some (some a) := by
  induction items generalizing start i with
  | nil => cases here
  | cons head rest ih =>
    cases i with
    | zero =>
      obtain rfl := Option.some_inj.mp here
      rw [layOut, wanted]
      exact ⟨_, rfl⟩
    | succ i =>
      rw [layOut]
      split
      · exact ih _ here
      · exact ih _ here

/-- A place lies behind the start, at a multiple of its alignment. -/
theorem layOut_place {start : Nat} {items : List ι}
    (positive : ∀ item ∈ items, ∀ w, want item = some w → 0 < w.1)
    {i a : Nat} (placed : (layOut want start items)[i]? = some (some a)) :
    ∃ item align size, items[i]? = some item ∧ want item = some (align, size) ∧ start ≤ a ∧
      align ∣ a := by
  induction items generalizing start i with
  | nil => cases placed
  | cons item rest ih =>
    have behind : ∀ other ∈ rest, ∀ w, want other = some w → 0 < w.1 :=
      fun other member => positive other (List.mem_cons_of_mem _ member)
    rw [layOut] at placed
    split at placed
    · next align size wanted =>
      have least : start ≤ alignUp align start :=
        le_alignUp (positive item List.mem_cons_self _ wanted) start
      cases i with
      | zero =>
        obtain rfl := Option.some_inj.mp (Option.some_inj.mp placed)
        exact ⟨item, align, size, rfl, wanted, least, dvd_alignUp align start⟩
      | succ i =>
        obtain ⟨item', align', size', at_, wanted', least', divides⟩ := ih behind placed
        exact ⟨item', align', size', at_, wanted', by omega, divides⟩
    · cases i with
      | zero => cases placed
      | succ i => exact ih behind placed

/-- A later place lies behind the end of an earlier one. -/
theorem layOut_apart {start : Nat} {items : List ι}
    (positive : ∀ item ∈ items, ∀ w, want item = some w → 0 < w.1)
    {i j a b align size : Nat} {item : ι} (later : i < j)
    (first : (layOut want start items)[i]? = some (some a))
    (second : (layOut want start items)[j]? = some (some b)) (here : items[i]? = some item)
    (wanted : want item = some (align, size)) : a + size ≤ b := by
  induction items generalizing start i j with
  | nil => cases first
  | cons head rest ih =>
    have behind : ∀ other ∈ rest, ∀ w, want other = some w → 0 < w.1 :=
      fun other member => positive other (List.mem_cons_of_mem _ member)
    obtain ⟨j, rfl⟩ : ∃ k, j = k + 1 := ⟨j - 1, by omega⟩
    cases i with
    | zero =>
      obtain rfl := Option.some_inj.mp here
      rw [layOut, wanted] at first second
      obtain rfl := Option.some_inj.mp (Option.some_inj.mp first)
      obtain ⟨-, -, -, -, -, least, -⟩ := layOut_place behind second
      exact least
    | succ i =>
      rw [layOut] at first second
      split at first
      · next wanted' =>
        rw [wanted'] at second
        exact ih behind (by omega) first second here
      · next wanted' =>
        rw [wanted'] at second
        exact ih behind (by omega) first second here

end Layout

end Image
