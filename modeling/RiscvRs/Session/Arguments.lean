import RiscvRs.Lib.Program
import RiscvRs.Session.Cli

/-! The argument loop of `cli.rs` with its indices and slices, and the command line it reads. -/

namespace RiscvRs

open Effects Prog

section Slices

/-- The register names that `parse_setreg` spells out. -/
def registerAliases : List (Text × Nat) :=
  [("sp".toList, 2), ("x2".toList, 2), ("ra".toList, 1), ("x1".toList, 1), ("gp".toList, 3),
    ("x3".toList, 3),
    ("tp".toList, 4), ("x4".toList, 4), ("t0".toList, 5), ("x5".toList, 5), ("a0".toList, 10),
      ("x10".toList, 10),
    ("a1".toList, 11), ("x11".toList, 11), ("a7".toList, 17), ("x17".toList, 17)]

end Slices

section Loop

variable (usizeBits : Nat)

end Loop

section Bounds

variable (usizeBits : Nat)

/-- Names that are not spelled out are looked at as `x` and a number. -/
theorem registerIndex_other {name : Text} (other : name ∉ registerAliases.map Prod.fst) :
    registerIndex usizeBits name =
      if name.head? = some 'x' then (parseUnsigned 10 usizeBits name.tail).getD 0 else 0 := by
  simp only [registerAliases, List.map_cons, List.map_nil, List.mem_cons, List.not_mem_nil,
    or_false, not_or] at other
  obtain ⟨sp, x2, ra, x1, gp, x3, tp, x4, t0, x5, a0, x10, a1, x11, a7, x17⟩ := other
  rw [registerIndex.eq_def, if_neg (not_or.mpr ⟨sp, x2⟩), if_neg (not_or.mpr ⟨ra, x1⟩),
    if_neg (not_or.mpr ⟨gp, x3⟩),
    if_neg (not_or.mpr ⟨tp, x4⟩), if_neg (not_or.mpr ⟨t0, x5⟩), if_neg (not_or.mpr ⟨a0, x10⟩),
    if_neg (not_or.mpr ⟨a1, x11⟩), if_neg (not_or.mpr ⟨a7, x17⟩)]
  split
  · next digits => exact (if_pos (Eq.refl (some 'x'))).symm
  · next plain =>
    rw [if_neg]
    intro x
    obtain ⟨digits, rfl⟩ := List.head?_eq_some_iff.mp x
    exact plain digits rfl

theorem registerIndex_alias {name : Text} {regIdx : Nat}
    (known : (name, regIdx) ∈ registerAliases) :
    registerIndex usizeBits name = regIdx ∧ registerAliases.lookup name = some regIdx := by
  simp only [registerAliases, List.mem_cons, List.not_mem_nil, or_false, Prod.mk.injEq] at known
  rcases known with ⟨rfl, rfl⟩ | ⟨rfl, rfl⟩ | ⟨rfl, rfl⟩ | ⟨rfl, rfl⟩ | ⟨rfl, rfl⟩ | ⟨rfl,
    rfl⟩ | ⟨rfl, rfl⟩ |
    ⟨rfl, rfl⟩ | ⟨rfl, rfl⟩ | ⟨rfl, rfl⟩ | ⟨rfl, rfl⟩ | ⟨rfl, rfl⟩ | ⟨rfl, rfl⟩ | ⟨rfl,
      rfl⟩ | ⟨rfl, rfl⟩ |
    ⟨rfl, rfl⟩ <;> exact ⟨rfl, rfl⟩

section Round

variable {usizeBits} {args : List Text} {i : Nat} {arg : Text} (here : args[i]? = some arg)
  (config : SimConfig)

include here

end Round

end Bounds

end RiscvRs
