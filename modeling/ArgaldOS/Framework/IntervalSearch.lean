import Mathlib.Data.Int.Order.Basic
import Mathlib.Data.List.Chain
import Mathlib.Order.Lattice

/-! # Binary search in a table of intervals

    A set is given as a table of closed intervals `[first, last]`, in ascending
    order and without overlaps.  `bisect` looks for a value between the indices `lo`
    and `hi`.  Both are integers, since `hi` may pass the lower end of the table.

    * `Separated.pairwise`: neighbours in order are enough;
    * `bisect_eq_true_iff`: the search succeeds if and only if one of the intervals
      between `lo` and `hi` contains the value.
-/

namespace IntervalSearch

/-! ## Section 1: The search -/

section search
variable {A : Type u} [LT A] [DecidableLT A]

/-- The search for `x` between the indices `lo` and `hi`. -/
def bisect (table : Nat → A × A) (x : A) (lo hi : Int) : Bool :=
  if hi < lo then false
  else
    let mid := (lo + hi) / 2
    if (table mid.toNat).2 < x then bisect table x (mid + 1) hi
    else if x < (table mid.toNat).1 then bisect table x lo (mid - 1)
    else true
  termination_by (hi + 1 - lo).toNat

end search

/-! ## Section 2: Tables -/

section tables
variable {A : Type u} [Preorder A]

/-- `i` is an interval, and all of it is before the interval `j`. -/
def Separated (i j : A × A) : Prop := i.1 ≤ i.2 ∧ i.2 < j.1 ∧ j.1 ≤ j.2

theorem Separated.trans {i j k : A × A} (h : Separated i j) (h' : Separated j k) :
    Separated i k :=
  ⟨h.1, (h.2.1.trans_le h'.1).trans h'.2.1, h'.2.2⟩

instance : Trans (Separated (A := A)) Separated Separated := ⟨Separated.trans⟩

/-- In a list of intervals in which neighbours are in order, any two are. -/
theorem Separated.pairwise {table : List (A × A)} (h : table.IsChain Separated) :
    table.Pairwise Separated := List.isChain_iff_pairwise.mp h

/-- The value is in one of the intervals between `lo` and `hi`. -/
def Covered (table : Nat → A × A) (x : A) (lo hi : Int) : Prop :=
  ∃ i : Nat, lo ≤ i ∧ i ≤ hi ∧ (table i).1 ≤ x ∧ x ≤ (table i).2

end tables

/-! ## Section 3: Correctness -/

section correctness
variable {A : Type u} [LinearOrder A]

/-- **Binary search**: in a table in ascending order the search succeeds if and only
    if an interval between the two indices contains the value. -/
theorem bisect_eq_true_iff {table : Nat → A × A} {n : Nat}
    (hsorted : ∀ i j, i < j → j < n → Separated (table i) (table j)) (x : A) {lo hi : Int}
    (hlo : 0 ≤ lo) (hhi : hi < n) : bisect table x lo hi = true ↔ Covered table x lo hi := by
  induction lo, hi using bisect.induct table x with
  | case1 lo hi hlt =>
    rw [bisect, if_pos hlt]
    refine ⟨fun h => absurd h Bool.false_ne_true, fun h => ?_⟩
    obtain ⟨i, hi₁, hi₂, -⟩ := h
    omega
  | case2 lo hi hle mid hright ih =>
    -- All of the middle interval is below the value, and so is everything before it.
    have hmid : mid = (lo + hi) / 2 := rfl
    rw [bisect, if_neg hle, if_pos hright, ih (by omega) hhi]
    constructor
    · intro h
      obtain ⟨i, hi₁, hi₂, hx⟩ := h
      exact ⟨i, by omega, hi₂, hx⟩
    · intro h
      obtain ⟨i, hi₁, hi₂, hx⟩ := h
      refine ⟨i, ?_, hi₂, hx⟩
      by_contra hlt
      rcases Nat.lt_or_ge i mid.toNat with h | h
      · have hsep := hsorted i mid.toNat h (by omega)
        exact absurd (hx.2.trans_lt (hsep.2.1.trans_le hsep.2.2)) (not_lt_of_gt hright)
      · have heq : i = mid.toNat := by omega
        subst heq
        exact absurd hx.2 (not_le_of_gt hright)
  | case3 lo hi hle mid hright hleft ih =>
    -- All of the middle interval is above the value, and so is everything behind it.
    have hmid : mid = (lo + hi) / 2 := rfl
    rw [bisect, if_neg hle, if_neg hright, if_pos hleft, ih hlo (by omega)]
    constructor
    · intro h
      obtain ⟨i, hi₁, hi₂, hx⟩ := h
      exact ⟨i, hi₁, by omega, hx⟩
    · intro h
      obtain ⟨i, hi₁, hi₂, hx⟩ := h
      refine ⟨i, hi₁, ?_, hx⟩
      by_contra hlt
      rcases Nat.lt_or_ge mid.toNat i with h | h
      · have hsep := hsorted mid.toNat i h (by omega)
        exact absurd ((hleft.trans_le hsep.1).trans hsep.2.1) (not_lt_of_ge hx.1)
      · have heq : i = mid.toNat := by omega
        subst heq
        exact absurd hx.1 (not_le_of_gt hleft)
  | case4 lo hi hle mid hright hleft =>
    have hmid : mid = (lo + hi) / 2 := rfl
    rw [bisect, if_neg hle, if_neg hright, if_neg hleft]
    exact ⟨fun _ => ⟨mid.toNat, by omega, by omega, not_lt.mp hleft, not_lt.mp hright⟩,
      fun _ => rfl⟩

end correctness

end IntervalSearch
