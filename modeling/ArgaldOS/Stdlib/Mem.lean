import ArgaldOS.Framework.Loops

/-! # Memory blocks (`kernel/mem.c`) -/

namespace ArgaldOS

/-- `memcmp`: the sign of the first difference among the first `n` bytes. -/
def memcmp (s1 s2 : Nat → UInt8) (n : Nat) : Int :=
  (Loops.searchFrom
    (fun i => if s1 i ≠ s2 i then some (if s1 i < s2 i then (-1 : Int) else 1) else none) n 0).getD 0

/-- Blocks compare equal exactly if they are. -/
theorem memcmp_eq_zero_iff (s1 s2 : Nat → UInt8) (n : Nat) :
    memcmp s1 s2 n = 0 ↔ ∀ i < n, s1 i = s2 i := by
  unfold memcmp
  cases h : Loops.searchFrom
      (fun i => if s1 i ≠ s2 i then some (if s1 i < s2 i then (-1 : Int) else 1) else none) n 0 with
  | none =>
    refine ⟨fun _ i hi => ?_, fun _ => rfl⟩
    have hi' := Loops.searchFrom_eq_none h i (Nat.zero_le i) (by omega)
    by_contra hne
    simp [hne] at hi'
  | some r =>
    obtain ⟨k, -, hk, hr, -⟩ := Loops.searchFrom_eq_some h
    by_cases hne : s1 k = s2 k
    · simp [hne] at hr
    · rw [if_pos hne] at hr
      refine ⟨fun h0 => ?_, fun hall => absurd (hall k (by omega)) hne⟩
      -- The result of a difference is -1 or 1.
      obtain rfl := Option.some.inj hr
      by_cases hlt : s1 k < s2 k <;> simp [hlt] at h0

end ArgaldOS
