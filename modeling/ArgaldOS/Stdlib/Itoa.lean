import ArgaldOS.Stdlib.Numbers

/-! # Decimal and other numerals (`int_to_ascii` and `itoa` of `stdlib/string.c`)

    `int_to_ascii` and `itoa` negate a negative number before they take its
    digits off, and the smallest `int` has no negation.  The string that is
    written for it here is that of a negation that wraps, which is one choice for
    undefined behaviour.  In other bases than 10
    `itoa` does not negate at all, but a remainder in C has the sign of the
    number.

    * `writesDecimal_iff`: the numbers whose decimal numeral both functions
      write;
    * `writesUnsigned_iff`: the numbers whose numeral in another base `itoa`
      writes.
-/

namespace ArgaldOS.Buffer

open Cells Program Numerals

/-! ## Section 1: Decimal numerals -/

/-- The canonical decimal numeral of `n`. -/
def IsDecimal (n : Int) (text : CString) : Prop :=
  ∃ ds, IsNumeral 10 n.natAbs ds ∧
    text = (if n < 0 then [0x2D] else []) ++ ds.map (digitChar 0x61)

/-- **Both functions write the decimal numeral**, within 12 bytes. -/
def WritesDecimal (m : Memory) (s : Int) (n : Int32) : Prop :=
  ∃ text, IsDecimal n.toInt text ∧ text.length + 1 ≤ 12 ∧
    (Ends (int_to_ascii n s) m fun _ m' => StringAt 0 m' s text ∧
      Touches (Set.Ico s (s + 12)) (Set.Ico s (s + 12)) m m') ∧
    Ends (itoa n s 10) m fun r m' => r = s ∧ StringAt 0 m' s text ∧
      Touches (Set.Ico s (s + 12)) (Set.Ico s (s + 12)) m m'

section decimal
variable {n : Int32}

/-- Every `int` but the smallest has an absolute value. -/
theorem toInt_abs (h : n ≠ Int32.minValue) :
    (if n < 0 then -n else n).toInt = n.toInt.natAbs := by
  have hlow := n.le_toInt
  have hhigh := n.toInt_lt
  have hzero : (0 : Int32).toInt = 0 := rfl
  have hne : n.toInt ≠ -2 ^ 31 := fun heq => h (Int32.toInt_inj.mp heq)
  by_cases hneg : n < 0
  · have hlt := Int32.lt_iff_toInt_lt.mp hneg
    rw [if_pos hneg, Int32.toInt_neg, Int.bmod_eq_of_le (by omega) (by omega)]
    omega
  · have hge : ¬ n.toInt < (0 : Int32).toInt := fun hlt => hneg (Int32.lt_iff_toInt_lt.mpr hlt)
    rw [if_neg hneg]
    omega

theorem lt_zero_iff : n < 0 ↔ n.toInt < 0 := Int32.lt_iff_toInt_lt

/-- A decimal numeral has at most ten digits. -/
theorem length_decimal_le (n : Int32) : (numeral 10 n.toInt.natAbs).length ≤ 10 := by
  have hlow := n.le_toInt
  have hhigh := n.toInt_lt
  exact length_numeral_le (by simp) (by simp) (by omega)

/-- What `int_to_ascii` makes of the smallest `int`. -/
theorem int_to_ascii_minValue (m : Memory) (s : Int) :
    Ends (int_to_ascii Int32.minValue s) m fun _ m' => StringAt 0 m' s [0x2D, 0x28] := by
  have habs : (if Int32.minValue < 0 then -Int32.minValue else Int32.minValue) =
      Int32.minValue := by decide
  have hchar : charOf (Int32.minValue % 10 + 0x30) = 0x28 := by decide
  unfold int_to_ascii
  simp only [habs]
  apply Ends.bind
  apply Ends.loop_leave
  apply Ends.bind
  apply ends_store
  simp only [if_neg (by decide : ¬ Int32.minValue / 10 > 0)]
  apply Ends.leave
  rw [hchar]
  have hheld : Holds (m.stored (s + (0 : Nat)) 0x28) s [0x28] := holds_nil.snoc rfl
  apply (finishNumber_ends true hheld (by simp)).mono
  rintro - m' ⟨hstring, -⟩
  exact hstring

/-- That is no numeral: the character behind the sign is no digit. -/
theorem minValue_not_decimal {ds : List Nat} (hds : IsNumeral 10 Int32.minValue.toInt.natAbs ds)
    (heq : (if Int32.minValue.toInt < 0 then [0x2D] else []) ++ ds.map (digitChar 0x61) =
      ([0x2D, 0x28] : CString)) : False := by
  have hneg : Int32.minValue.toInt < 0 := by decide
  have hnone : ∀ d < 10, digitChar 0x61 d ≠ 0x28 := by decide
  rw [if_pos hneg, List.singleton_append, List.cons.injEq] at heq
  obtain ⟨d, hd, hchar⟩ := List.mem_map.mp (heq.2 ▸ List.mem_singleton_self (0x28 : UInt8))
  exact hnone d (hds.small d hd) hchar

/-- The smallest `int` is not written as a numeral anywhere. -/
theorem minValue_not_written (m : Memory) (s : Int) : ¬ WritesDecimal m s Int32.minValue := by
  rintro ⟨text, ⟨ds, hds, rfl⟩, -, hascii, -⟩
  apply (hascii.unique (int_to_ascii_minValue m s)).elim
  rintro - m' ⟨⟨hstring, -⟩, hwritten⟩
  exact minValue_not_decimal hds (hstring.unique hwritten)

/-- **The decimal numeral** is written for every number but the smallest. -/
theorem writesDecimal_iff (m : Memory) (s : Int) (n : Int32) :
    WritesDecimal m s n ↔ n ≠ Int32.minValue := by
  constructor
  · rintro hwrites rfl
    exact minValue_not_written m s hwrites
  · intro hn
    have habs := toInt_abs hn
    have hlen := length_decimal_le n
    refine ⟨(if n.toInt < 0 then [0x2D] else []) ++
      (numeral 10 n.toInt.natAbs).map (digitChar 0x61),
      ⟨_, isNumeral_numeral (by simp) _, rfl⟩, ?_, ?_, ?_⟩
    · rw [List.length_append, List.length_map]
      split <;> simp <;> omega
    · apply (int_to_ascii_ends habs).mono
      rintro - m' ⟨hstring, hinside⟩
      rw [if_congr lt_zero_iff rfl rfl] at hstring
      exact ⟨hstring, hinside.mono (Set.Ico_subset_Ico (by omega) (by omega))
        (Set.Ico_subset_Ico (by omega) (by omega))⟩
    · by_cases hzero : n = 0
      · subst hzero
        apply (itoa_zero_ends 10).mono
        rintro r m' ⟨hr, hstring, hinside⟩
        exact ⟨hr, hstring, hinside.mono (Set.Ico_subset_Ico (by omega) (by omega))
          (Set.Ico_subset_Ico (by omega) (by omega))⟩
      · have hn0 : n.toInt.natAbs ≠ 0 := fun h0 =>
          hzero (Int32.toInt_inj.mp (Int.natAbs_eq_zero.mp h0))
        have hnum : (if n < 0 ∧ (10 : Int32) = 10 then -n else n).toInt =
            1 * (n.toInt.natAbs : Int) := by
          simpa using habs
        apply (itoa_ends (b := 10) (.inl rfl) (by simp) (by simp) rfl hzero hn0 hnum).mono
        rintro r m' ⟨hr, hstring, hinside⟩
        rw [map_itoaDigit_one (by simp) (by simp), if_congr (and_iff_left rfl) rfl rfl,
          if_congr lt_zero_iff rfl rfl] at hstring
        exact ⟨hr, hstring, hinside.mono (Set.Ico_subset_Ico (by omega) (by omega))
          (Set.Ico_subset_Ico (by omega) (by omega))⟩

end decimal

/-- The decimal numeral of the smallest `int` is written by neither function. -/
theorem not_writesDecimal_minValue : ¬ WritesDecimal (ofList 0 [] 0) 0 Int32.minValue :=
  minValue_not_written _ 0

/-! ## Section 2: Numerals in other bases -/

/-- **`itoa` writes the numeral of the unsigned number**, which is read back as
    that number. -/
def WritesUnsigned (m : Memory) (s : Int) (num base : Int32) : Prop :=
  ∃ ds, IsNumeral base.toInt.toNat num.toUInt32.toNat ds ∧
    readText 0x61 base.toInt.toNat (ds.map (digitChar 0x61)) = num.toUInt32.toNat ∧
    Ends (itoa num s base) m fun r m' => r = s ∧ StringAt 0 m' s (ds.map (digitChar 0x61))

section unsigned
variable {num base : Int32}

/-- A number that is not negative is the same as an unsigned one. -/
theorem toNat_toUInt32 (h : 0 ≤ num) : num.toUInt32.toNat = num.toInt.natAbs := by
  have hge := Int32.le_iff_toInt_le.mp h
  have hz : (0 : Int32).toInt = 0 := rfl
  have hclamp : num.toNatClampNeg = num.toInt.toNat := rfl
  rw [Int32.toNat_toUInt32_of_le h, hclamp]
  omega

/-- A negative number is not written as a numeral: one of the characters in
    memory comes before all digits. -/
theorem negative_not_written (m : Memory) (s : Int) (hlow : 2 ≤ base.toInt)
    (hhigh : base.toInt ≤ 36) (h10 : base ≠ 10) (hneg : num < 0) :
    ¬ WritesUnsigned m s num base := by
  rintro ⟨ds, hds, -, hwrites⟩
  have hb : 1 < base.toInt.toNat := by omega
  have hbase : base.toInt = (base.toInt.toNat : Int) := by omega
  have hlt : num.toInt < 0 := lt_zero_iff.mp hneg
  have hn0 : num.toInt.natAbs ≠ 0 := by omega
  have hnum0 : num ≠ 0 := by
    rintro rfl
    exact absurd hlt (by simp)
  have hnum : (if num < 0 ∧ base = 10 then -num else num).toInt =
      -1 * (num.toInt.natAbs : Int) := by
    rw [if_neg fun h => h10 h.2]
    omega
  have hnegative := itoa_ends (m := m) (s := s) (.inr rfl) hb (by omega) hbase hnum0 hn0 hnum
  apply (hwrites.unique hnegative).elim
  rintro r m' ⟨⟨-, hstring⟩, -, hwritten, -⟩
  have heq := hstring.unique hwritten
  rw [if_neg fun h => h10 h.2, List.nil_append] at heq
  have hnumeral := isNumeral_numeral hb num.toInt.natAbs
  obtain ⟨d, hd, hd0⟩ := hnumeral.exists_ne_zero hn0
  have hdb := hnumeral.small d hd
  have hmem : itoaDigit (-1) d ∈ ds.map (digitChar 0x61) := by
    rw [heq]
    exact List.mem_map_of_mem hd
  obtain ⟨d', hd', hchar⟩ := List.mem_map.mp hmem
  have hdb' := hds.small d' hd'
  have hsmall := itoaDigit_neg_lt d (by omega) hd0
  have hlarge := le_digitChar d' (by omega)
  rw [hchar] at hlarge
  omega

/-- **The unsigned numeral** is written for the numbers that are not negative.
    The digits of the others are no digits. -/
theorem writesUnsigned_iff (m : Memory) (s : Int) (num : Int32) (hlow : 2 ≤ base.toInt)
    (hhigh : base.toInt ≤ 36) (h10 : base ≠ 10) : WritesUnsigned m s num base ↔ 0 ≤ num := by
  constructor
  · intro hwrites
    by_contra hge
    have hneg : num < 0 := Int32.not_le.mp hge
    exact negative_not_written m s hlow hhigh h10 hneg hwrites
  · intro hge
    have hb : 1 < base.toInt.toNat := by omega
    have hbase : base.toInt = (base.toInt.toNat : Int) := by omega
    have hvalue := toNat_toUInt32 hge
    have hnumeral := isNumeral_numeral hb num.toUInt32.toNat
    have hread : readText 0x61 base.toInt.toNat ((numeral base.toInt.toNat
        num.toUInt32.toNat).map (digitChar 0x61)) = num.toUInt32.toNat := by
      rw [readText_digits (.inr rfl) fun d hd => by have := hnumeral.small d hd; omega]
      exact hnumeral.value
    refine ⟨_, hnumeral, hread, ?_⟩
    by_cases hzero : num = 0
    · subst hzero
      apply (itoa_zero_ends base).mono
      rintro r m' ⟨hr, hstring, -⟩
      exact ⟨hr, hstring⟩
    · have hn0 : num.toInt.natAbs ≠ 0 := fun h0 =>
        hzero (Int32.toInt_inj.mp (Int.natAbs_eq_zero.mp h0))
      have hnum : (if num < 0 ∧ base = 10 then -num else num).toInt =
          1 * (num.toInt.natAbs : Int) := by
        have hge' := Int32.le_iff_toInt_le.mp hge
        have hz : (0 : Int32).toInt = 0 := rfl
        rw [if_neg fun h => h10 h.2]
        omega
      apply (itoa_ends (.inl rfl) hb (by omega) hbase hzero hn0 hnum).mono
      rintro r m' ⟨hr, hstring, -⟩
      rw [if_neg fun h => h10 h.2, List.nil_append, map_itoaDigit_one hb (by omega),
        ← hvalue] at hstring
      exact ⟨hr, hstring⟩

/-- 255 in base 16. -/
theorem writesUnsigned_255 : WritesUnsigned (ofList 0 [] 0) 0 255 16 ↔ (0 : Int32) ≤ 255 :=
  writesUnsigned_iff (ofList 0 [] 0) 0 255 (by decide) (by decide) (by decide)

/-- The largest unsigned number in base 16: the one digit that is written is the
    character in front of the zero. -/
theorem not_writesUnsigned_neg_one : ¬ WritesUnsigned (ofList 0 [] 0) 0 (-1) 16 :=
  negative_not_written _ 0 (by decide) (by decide) (by decide) (by decide)

end unsigned

end ArgaldOS.Buffer
