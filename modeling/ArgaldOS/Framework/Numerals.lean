import Mathlib.Data.Nat.Digits.Lemmas

/-! # Numerals

    A numeral is a list of digits, the most significant one first, without
    leading zeros.

    * `readDigits b ds`: the number that is read from the left;
    * `IsNumeral b n ds`: `ds` is the numeral of `n` in base `b`, and
      `numeral b n` is one (`isNumeral_numeral`);
    * `Extracted b n ds v`: what a loop that takes the digits off from the right
      has after some rounds, with the rule for one round.
-/

namespace Numerals

/-! ## Section 1: Numerals -/

/-- The number that is read from the left. -/
def readDigits (b : Nat) (ds : List Nat) : Nat := ds.foldl (fun v d => v * b + d) 0

/-- The numeral of a number. -/
def numeral (b n : Nat) : List Nat := if n = 0 then [0] else (Nat.digits b n).reverse

/-- **A canonical numeral**: it is read as the number, and starts with a zero
    only if there is nothing else. -/
structure IsNumeral (b n : Nat) (ds : List Nat) : Prop where
  small   : ∀ d ∈ ds, d < b
  value   : readDigits b ds = n
  digit   : ds ≠ []
  leading : ds.head? = some 0 → ds = [0]

variable {b n v : Nat} {ds : List Nat}

/-- Reading from the left is reading the reversed digits from the right. -/
theorem readDigits_reverse (ds : List Nat) : readDigits b ds.reverse = Nat.ofDigits b ds := by
  unfold readDigits
  rw [List.foldl_reverse, Nat.ofDigits_eq_foldr]
  congr 1
  funext d v
  rw [Nat.cast_id, Nat.mul_comm, Nat.add_comm]

theorem numeral_of_ne_zero (h : n ≠ 0) : numeral b n = (Nat.digits b n).reverse := if_neg h

theorem isNumeral_numeral (hb : 1 < b) (n : Nat) : IsNumeral b n (numeral b n) := by
  by_cases hn : n = 0
  · subst hn
    have hzero : numeral b 0 = [0] := if_pos rfl
    rw [hzero]
    exact ⟨by simp; omega, by simp [readDigits], by simp, fun _ => rfl⟩
  · rw [numeral_of_ne_zero hn]
    have hne : Nat.digits b n ≠ [] := Nat.digits_ne_nil_iff_ne_zero.mpr hn
    refine ⟨?_, ?_, fun h => hne (List.reverse_eq_nil_iff.mp h), ?_⟩
    · intro d hd
      exact Nat.digits_lt_base hb (List.mem_reverse.mp hd)
    · rw [readDigits_reverse, Nat.ofDigits_digits]
    · intro hhead
      rw [List.head?_reverse, List.getLast?_eq_some_getLast hne] at hhead
      exact absurd (Option.some.inj hhead) (Nat.getLast_digit_ne_zero b hn)

/-- The numeral of a number other than zero has a digit other than zero. -/
theorem IsNumeral.exists_ne_zero (h : IsNumeral b n ds) (hn : n ≠ 0) : ∃ d ∈ ds, d ≠ 0 := by
  obtain ⟨d, rest, rfl⟩ := List.exists_cons_of_ne_nil h.digit
  refine ⟨d, List.mem_cons_self, ?_⟩
  rintro rfl
  have hvalue := h.value
  rw [h.leading rfl] at hvalue
  exact hn (by simpa [readDigits] using hvalue.symm)

/-- A number below a power of the base has no more digits than that. -/
theorem length_numeral_le {k : Nat} (hb : 1 < b) (hk : 0 < k) (h : n < b ^ k) :
    (numeral b n).length ≤ k := by
  unfold numeral
  split
  · exact hk
  · rw [List.length_reverse]
    exact (Nat.digits_length_le_iff hb n).mpr h

/-- The numeral in base ten as text. -/
def decimal (n : Nat) : List UInt8 := (numeral 10 n).map fun d => UInt8.ofNat (0x30 + d)

/-! ## Section 2: Taking digits off -/

/-- The digits `ds` of `n`, the least significant one first, have been taken
    off, and `v` is left. -/
def Extracted (b n : Nat) (ds : List Nat) (v : Nat) : Prop := Nat.digits b n = ds ++ Nat.digits b v

theorem extracted_nil (b n : Nat) : Extracted b n [] n := rfl

/-- **One digit more**. -/
theorem Extracted.step (h : Extracted b n ds v) (hb : 1 < b) (hv : v ≠ 0) :
    Extracted b n (ds ++ [v % b]) (v / b) := by
  unfold Extracted at h ⊢
  rw [h, Nat.digits_eq_cons_digits_div hb hv, List.append_assoc]
  rfl

/-- When nothing is left the digits are those of the numeral. -/
theorem Extracted.reverse (h : Extracted b n ds 0) (hn : n ≠ 0) : ds.reverse = numeral b n := by
  unfold Extracted at h
  rw [Nat.digits_zero, List.append_nil] at h
  rw [numeral_of_ne_zero hn, h]

end Numerals
