import ArgaldOS.Framework.Numerals
import ArgaldOS.Stdlib.Buffer

/-! # Numbers as strings (`stdlib/string.c`)

    The conversions write the digits of a number from the last one to the first,
    and then reverse the string.

    The negation of the smallest `int` is undefined in C.  Here it wraps, which is
    one of the results that a compiler may choose; no other number depends on it.

    * `DigitsWritten`: what is in memory before each round of such a loop, with
      one lemma for the round (`DigitsWritten.step`) and one for the end;
    * `finishNumber_ends`: the sign, the terminator and the reversal;
    * `int_to_ascii_ends`, `itoa_ends`: the strings of the two conversions.
-/

namespace ArgaldOS

open Cells Program Numerals

/-! ## Section 1: Digits as characters -/

/-- The character of a digit, with letters from `letter` on. -/
def digitChar (letter d : Nat) : UInt8 :=
  UInt8.ofNat (if d < 10 then 0x30 + d else letter + (d - 10))

/-- The digit of a character. -/
def digitValue (letter : Nat) (c : UInt8) : Nat :=
  if c.toNat < 0x3A then c.toNat - 0x30 else c.toNat - letter + 10

/-- The number that a string is read as. -/
def readText (letter b : Nat) (text : CString) : Nat := readDigits b (text.map (digitValue letter))

/-- Digits up to 35 are read back. -/
theorem digitValue_digitChar {letter d : Nat} (hletter : letter = 0x41 ∨ letter = 0x61)
    (hd : d < 36) : digitValue letter (digitChar letter d) = d := by
  unfold digitValue digitChar
  rw [UInt8.toNat_ofNat']
  split <;> split <;> omega

theorem readText_digits {letter b : Nat} {ds : List Nat}
    (hletter : letter = 0x41 ∨ letter = 0x61) (hds : ∀ d ∈ ds, d < 36) :
    readText letter b (ds.map (digitChar letter)) = readDigits b ds := by
  unfold readText
  rw [List.map_map, List.map_congr_left (g := id), List.map_id]
  intro d hd
  exact digitValue_digitChar hletter (hds d hd)

/-- A digit is no terminator. -/
theorem digitChar_ne_zero {letter d : Nat} (hletter : letter = 0x41 ∨ letter = 0x61)
    (hd : d < 36) : digitChar letter d ≠ 0 := by
  intro hzero
  have hnat := congrArg UInt8.toNat hzero
  unfold digitChar at hnat
  rw [UInt8.toNat_ofNat', UInt8.toNat_zero] at hnat
  split at hnat <;> omega

namespace Buffer

/-! ## Section 2: The conversions -/

/-- An `int` stored in a `char`. -/
def charOf (c : Int32) : UInt8 := c.toUInt32.toUInt8

/-- The sign, if there is one, the terminator, and the reversal. -/
def finishNumber (negative : Bool) (str : Int) (i : Nat) : Program Memory Unit :=
  if negative then do
    store (str + i) 0x2D
    store (str + (i + 1)) 0
    reverse str
  else do
    store (str + i) 0
    reverse str

/-- The loop of `int_to_ascii`: there is a first round in any case. -/
def asciiLoop (s : Int) (n : Int32) : Program Memory Nat :=
  loop (fun (i, n) => do
    store (s + (i : Nat)) (charOf (n % 10 + 0x30))
    if n / 10 > 0 then again (i + 1, n / 10)
    else leave (i + 1)) (0, n)

/-- `int_to_ascii`: the negation wraps. -/
def int_to_ascii (n : Int32) (s : Int) : Program Memory Unit := do
  let sign := n
  let i ← asciiLoop s (if sign < 0 then -n else n)
  finishNumber (sign < 0) s i

/-- The character of a remainder. -/
def itoaChar (rem : Int32) : UInt8 :=
  charOf (if rem > 9 then rem - 10 + 0x61 else rem + 0x30)

/-- The loop of `itoa`, which also runs for a negative number. -/
def itoaLoop (str : Int) (base num : Int32) : Program Memory Nat :=
  loop (fun (i, num) => do
    if num ≠ 0 then
      store (str + (i : Nat)) (itoaChar (num % base))
      again (i + 1, num / base)
    else leave i) (0, num)

/-- `itoa`: only in base 10 is the number negated, and the negation wraps. -/
def itoa (num : Int32) (str : Int) (base : Int32) : Program Memory Int :=
  if num = 0 then do
    store str 0x30
    store (str + 1) 0
    return str
  else do
    let isNegative := num < 0 ∧ base = 10
    let i ← itoaLoop str base (if isNegative then -num else num)
    finishNumber isNegative str i
    return str

/-! ## Section 3: Writing digits -/

section digits
variable {m m' : Memory} {s : Int} {chr : Nat → UInt8} {b n i v : Nat} {l : List UInt8}

/-- The last `i` digits of `n` are in memory, the last one first, and `v` is
    left. -/
structure DigitsWritten (m : Memory) (s : Int) (chr : Nat → UInt8) (b n i v : Nat)
    (m' : Memory) : Prop where
  digits : ∃ ds, ds.length = i ∧ Extracted b n ds v ∧ Holds m' s (ds.map chr)
  inside : Touches ∅ (Set.Ico s (s + i)) m m'

theorem digitsWritten_zero (m : Memory) (s : Int) (chr : Nat → UInt8) (b n : Nat) :
    DigitsWritten m s chr b n 0 n m where
  digits := ⟨[], rfl, extracted_nil b n, holds_nil⟩
  inside := Touches.refl _ _ m

/-- **One round** writes one digit. -/
theorem DigitsWritten.step (h : DigitsWritten m s chr b n i v m') (hb : 1 < b) (hv : v ≠ 0) :
    DigitsWritten m s chr b n (i + 1) (v / b) (m'.stored (s + i) (chr (v % b))) where
  digits := by
    obtain ⟨ds, rfl, hextracted, hheld⟩ := h.digits
    refine ⟨ds ++ [v % b], by simp, hextracted.step hb hv, ?_⟩
    rw [List.map_append]
    exact hheld.snoc (by simp)
  inside := by
    have hmore := h.inside.mono Set.Subset.rfl (Q := Set.Ico s (s + (i + 1 : Nat)))
      (Set.Ico_subset_Ico (by omega) (by omega))
    exact hmore.stored ⟨by omega, by omega⟩

/-- **After the last round** the numeral is there, the wrong way round. -/
theorem DigitsWritten.numeral (h : DigitsWritten m s chr b n i 0 m') (hn : n ≠ 0) :
    i = (numeral b n).length ∧ Holds m' s ((Numerals.numeral b n).reverse.map chr) := by
  obtain ⟨ds, rfl, hextracted, hheld⟩ := h.digits
  rw [← hextracted.reverse hn, List.length_reverse, List.reverse_reverse]
  exact ⟨rfl, hheld⟩

/-- The terminator and the reversal. -/
theorem terminate_reverse_ends (h : Holds m s l) (hplain : ∀ c ∈ l, c ≠ 0) {a : Int}
    (ha : a = s + l.length) :
    Ends (do store a 0; reverse s) m fun _ m' => StringAt 0 m' s l.reverse ∧
      Touches (Set.Ico s (s + l.length + 1)) (Set.Ico s (s + l.length + 1)) m m' := by
  apply Ends.bind
  apply ends_store
  have hstring : StringAt 0 (m.stored a 0) s l := (h.snoc ha).stringAt hplain
  apply (reverse_ends hstring).mono
  rintro - m' ⟨hreversed, hinside⟩
  have hfirst := (Touches.refl (Set.Ico s (s + l.length + 1)) (Set.Ico s (s + l.length + 1))
    m).stored (a := a) (v := 0) ⟨by omega, by omega⟩
  have hsecond := hinside.mono Set.Subset.rfl (Q := Set.Ico s (s + l.length + 1))
    (Set.Ico_subset_Ico (by omega) (by omega))
  exact ⟨hreversed, hfirst.trans hsecond⟩

/-- **The end of a conversion**. -/
theorem finishNumber_ends (negative : Bool) (h : Holds m s l) (hplain : ∀ c ∈ l, c ≠ 0) :
    Ends (finishNumber negative s l.length) m fun _ m' =>
      StringAt 0 m' s ((if negative then [0x2D] else []) ++ l.reverse) ∧
        Touches (Set.Ico s (s + l.length + 2)) (Set.Ico s (s + l.length + 2)) m m' := by
  unfold finishNumber
  cases negative with
  | false =>
    apply (terminate_reverse_ends h hplain rfl).mono
    rintro - m' ⟨hreversed, hinside⟩
    exact ⟨hreversed, hinside.mono (Set.Ico_subset_Ico (by omega) (by omega))
      (Set.Ico_subset_Ico (by omega) (by omega))⟩
  | true =>
    have hsigned : ∀ c ∈ l ++ [0x2D], c ≠ 0 := by
      intro c hc
      rcases List.mem_append.mp hc with hmem | hmem
      · exact hplain c hmem
      · rw [List.mem_singleton.mp hmem]
        simp
    apply Ends.bind
    apply ends_store
    have hfirst := (Touches.refl (Set.Ico s (s + l.length + 2)) (Set.Ico s (s + l.length + 2))
      m).stored (a := s + l.length) (v := 0x2D) ⟨by omega, by omega⟩
    apply (terminate_reverse_ends (h.snoc rfl) hsigned (by simp)).mono
    rintro - m' ⟨hreversed, hinside⟩
    rw [List.length_append, List.length_singleton] at hinside
    have hsecond := hinside.mono (P := Set.Ico s (s + l.length + 2))
      (Q := Set.Ico s (s + l.length + 2)) (Set.Ico_subset_Ico (by omega) (by omega))
      (Set.Ico_subset_Ico (by omega) (by omega))
    rw [List.reverse_append] at hreversed
    exact ⟨hreversed, hfirst.trans hsecond⟩

/-! ## Section 4: The two loops -/

/-- A remainder has the sign of the number. -/
theorem tmod_sign {σ : Int} (hσ : σ = 1 ∨ σ = -1) (v b : Nat) :
    (σ * v).tmod b = σ * (v % b : Nat) := by
  rcases hσ with rfl | rfl
  · rw [Int.one_mul, Int.one_mul, Int.ofNat_tmod]
  · rw [Int.neg_mul, Int.one_mul, Int.neg_tmod, Int.neg_mul, Int.one_mul, Int.ofNat_tmod]

/-- A quotient is rounded towards zero. -/
theorem tdiv_sign {σ : Int} (hσ : σ = 1 ∨ σ = -1) (v b : Nat) :
    (σ * v).tdiv b = σ * (v / b : Nat) := by
  rcases hσ with rfl | rfl
  · rw [Int.one_mul, Int.one_mul, Int.ofNat_tdiv]
  · rw [Int.neg_mul, Int.one_mul, Int.neg_tdiv, Int.neg_mul, Int.one_mul, Int.ofNat_tdiv]

theorem natAbs_sign {σ : Int} (hσ : σ = 1 ∨ σ = -1) (v : Nat) : (σ * v).natAbs = v := by
  rcases hσ with rfl | rfl
  · rw [Int.one_mul, Int.natAbs_natCast]
  · rw [Int.neg_mul, Int.one_mul, Int.natAbs_neg, Int.natAbs_natCast]

/-- The two operations of a round. -/
theorem round_eq {σ : Int} (hσ : σ = 1 ∨ σ = -1) {num base : Int32} (hb : 1 < b)
    (hbase : base.toInt = b) (hnum : num.toInt = σ * v) :
    num % base = Int32.ofInt (σ * (v % b : Nat)) ∧ (num / base).toInt = σ * (v / b : Nat) := by
  constructor
  · rw [← Int32.ofInt_toInt (num % base), Int32.toInt_mod, hnum, hbase, tmod_sign hσ]
  · have hne : base ≠ -1 := by
      rintro rfl
      have hneg : (-1 : Int32).toInt = -1 := rfl
      omega
    rw [Int32.toInt_div_of_ne_right _ _ hne, hnum, hbase, tdiv_sign hσ]

/-- The character of a digit, for a number of sign `σ`. -/
def itoaDigit (σ : Int) (d : Nat) : UInt8 := itoaChar (Int32.ofInt (σ * d))

/-- **The loop of `itoa`** writes the numeral of the absolute value, in the
    characters that belong to the sign. -/
theorem itoaLoop_ends {σ : Int} (hσ : σ = 1 ∨ σ = -1) {num base : Int32} (hb : 1 < b)
    (hbase : base.toInt = b) (hnum : num.toInt = σ * n) (hn : n ≠ 0) :
    Ends (itoaLoop s base num) m fun i m' => i = (numeral b n).length ∧
      Holds m' s ((numeral b n).reverse.map (itoaDigit σ)) ∧
      Touches ∅ (Set.Ico s (s + i)) m m' := by
  apply Ends.loop (fun x m' => ∃ v : Nat, x.2.toInt = σ * v ∧
    DigitsWritten m s (itoaDigit σ) b n x.1 v m') (fun x => x.2.toInt.natAbs)
  · rintro ⟨i, num⟩ m' ⟨v, hv, hwritten⟩
    obtain ⟨hrem, hquot⟩ := round_eq hσ hb hbase hv
    by_cases hzero : v = 0
    · subst hzero
      have hnum0 : num = 0 := by
        apply Int32.toInt_inj.mp
        rw [hv]
        simp
      simp only [hnum0, ne_eq, not_true_eq_false, if_false]
      apply Ends.leave
      obtain ⟨hlen, hheld⟩ := hwritten.numeral hn
      exact ⟨hlen, hheld, hwritten.inside⟩
    · have hnum0 : num ≠ 0 := by
        rintro rfl
        have habs := congrArg Int.natAbs hv
        rw [natAbs_sign hσ] at habs
        exact hzero habs.symm
      simp only [if_pos hnum0]
      apply Ends.bind
      apply ends_store
      apply Ends.again
      rw [hrem]
      refine ⟨⟨v / b, hquot, hwritten.step hb hzero⟩, ?_⟩
      show (num / base).toInt.natAbs < num.toInt.natAbs
      rw [hquot, hv, natAbs_sign hσ, natAbs_sign hσ]
      exact Nat.div_lt_self (Nat.pos_of_ne_zero hzero) hb
  · exact ⟨n, hnum, digitsWritten_zero m s (itoaDigit σ) b n⟩

/-- The character of a digit in `int_to_ascii`. -/
def asciiDigit (d : Nat) : UInt8 := charOf (Int32.ofInt d + 0x30)

theorem pos_iff_of_toInt {num : Int32} (h : num.toInt = v) : num > 0 ↔ v ≠ 0 := by
  have hz : (0 : Int32).toInt = 0 := rfl
  have hlt : num > 0 ↔ (0 : Int32).toInt < num.toInt := Int32.lt_iff_toInt_lt
  rw [hlt, hz, h]
  omega

/-- **The loop of `int_to_ascii`** on a number that is not negative. -/
theorem asciiLoop_ends {num : Int32} (hnum : num.toInt = n) :
    Ends (asciiLoop s num) m fun i m' => i = (numeral 10 n).length ∧
      Holds m' s ((numeral 10 n).reverse.map asciiDigit) ∧
      Touches ∅ (Set.Ico s (s + i)) m m' := by
  have hbase : (10 : Int32).toInt = (10 : Nat) := rfl
  have hσ : (1 : Int) = 1 ∨ (1 : Int) = -1 := .inl rfl
  by_cases hn : n = 0
  · -- The first round is the last, and writes a zero.
    subst hn
    obtain rfl : num = 0 := Int32.toInt_inj.mp hnum
    apply Ends.loop_leave
    apply Ends.bind
    apply ends_store
    simp only [if_neg (by decide : ¬ (0 : Int32) / 10 > 0)]
    apply Ends.leave
    have hfirst := (Touches.refl ∅ (Set.Ico s (s + (0 + 1 : Nat))) m).stored
      (a := s + (0 : Nat)) (v := charOf (0 % 10 + 0x30)) ⟨by omega, by omega⟩
    exact ⟨rfl, holds_nil.snoc rfl, hfirst⟩
  · apply Ends.loop (fun x m' => ∃ v : Nat, v ≠ 0 ∧ x.2.toInt = (v : Int) ∧
      DigitsWritten m s asciiDigit 10 n x.1 v m') (fun x => x.2.toInt.natAbs)
    · rintro ⟨i, num⟩ m' ⟨v, hpos, hv, hwritten⟩
      obtain ⟨hrem, hquot⟩ := round_eq hσ (by simp) hbase (hv.trans (Int.one_mul _).symm)
      rw [Int.one_mul] at hrem hquot
      have hstep := hwritten.step (by simp) hpos
      apply Ends.bind
      apply ends_store
      rw [hrem]
      by_cases hmore : num / 10 > 0
      · have hquot0 : v / 10 ≠ 0 := (pos_iff_of_toInt hquot).mp hmore
        simp only [if_pos hmore]
        apply Ends.again
        refine ⟨⟨v / 10, hquot0, hquot, hstep⟩, ?_⟩
        show (num / 10).toInt.natAbs < num.toInt.natAbs
        rw [hquot, hv]
        omega
      · have hquot0 : v / 10 = 0 := not_not.mp (mt (pos_iff_of_toInt hquot).mpr hmore)
        simp only [if_neg hmore]
        apply Ends.leave
        rw [hquot0] at hstep
        obtain ⟨hlen, hheld⟩ := hstep.numeral hn
        exact ⟨hlen, hheld, hstep.inside⟩
    · exact ⟨n, hn, hnum, digitsWritten_zero m s asciiDigit 10 n⟩

/-! ## Section 5: The strings -/

theorem asciiDigit_eq : ∀ d < 10, asciiDigit d = digitChar 0x61 d := by decide

theorem itoaDigit_one : ∀ d < 36, itoaDigit 1 d = digitChar 0x61 d := by decide

/-- The digits of a number that is not negative. -/
theorem map_itoaDigit_one (hb : 1 < b) (hb36 : b ≤ 36) :
    (numeral b n).map (itoaDigit 1) = (numeral b n).map (digitChar 0x61) := by
  apply List.map_congr_left
  intro d hd
  have hdb := (isNumeral_numeral hb n).small d hd
  exact itoaDigit_one d (by omega)

/-- The digits of a negative number, zero apart, are no digits. -/
theorem itoaDigit_neg_lt : ∀ d < 36, d ≠ 0 → (itoaDigit (-1) d).toNat < 0x30 := by decide

theorem le_digitChar : ∀ d < 36, 0x30 ≤ (digitChar 0x61 d).toNat := by decide

theorem itoaDigit_neg_ne_zero : ∀ d < 36, itoaDigit (-1) d ≠ 0 := by decide

theorem itoaDigit_ne_zero {σ : Int} (hσ : σ = 1 ∨ σ = -1) {d : Nat} (hd : d < 36) :
    itoaDigit σ d ≠ 0 := by
  rcases hσ with rfl | rfl
  · rw [itoaDigit_one d hd]
    exact digitChar_ne_zero (.inr rfl) hd
  · exact itoaDigit_neg_ne_zero d hd

/-- **`int_to_ascii`** on a number whose absolute value is an `int`. -/
theorem int_to_ascii_ends {num : Int32}
    (hnum : (if num < 0 then -num else num).toInt = n) :
    Ends (int_to_ascii num s) m fun _ m' =>
      StringAt 0 m' s ((if num < 0 then [0x2D] else []) ++ (numeral 10 n).map (digitChar 0x61)) ∧
        Touches (Set.Ico s (s + (numeral 10 n).length + 2))
          (Set.Ico s (s + (numeral 10 n).length + 2)) m m' := by
  have hsmall : ∀ d ∈ numeral 10 n, d < 10 := (isNumeral_numeral (by simp) n).small
  have hmap : (numeral 10 n).map asciiDigit = (numeral 10 n).map (digitChar 0x61) :=
    List.map_congr_left fun d hd => asciiDigit_eq d (hsmall d hd)
  apply Ends.bind
  apply (asciiLoop_ends hnum).mono
  rintro i m₁ ⟨hi, hheld, hloop⟩
  have hlen : ((numeral 10 n).reverse.map asciiDigit).length = i := by simp [hi]
  have hplain : ∀ c ∈ (numeral 10 n).reverse.map asciiDigit, c ≠ 0 := by
    intro c hc
    obtain ⟨d, hd, rfl⟩ := List.mem_map.mp hc
    have hd10 := hsmall d (List.mem_reverse.mp hd)
    rw [asciiDigit_eq d hd10]
    exact digitChar_ne_zero (.inr rfl) (by omega)
  have hfinish := finishNumber_ends (decide (num < 0)) hheld hplain
  rw [hlen] at hfinish
  apply hfinish.mono
  rintro - m' ⟨hstring, hinside⟩
  rw [List.map_reverse, List.reverse_reverse, hmap] at hstring
  constructor
  · simpa using hstring
  · rw [← hi]
    exact (hloop.mono (Set.empty_subset _) (Set.Ico_subset_Ico (by omega) (by omega))).trans hinside

/-- **`itoa`** on a number that is not zero, which the loop takes for one of sign
    `σ`. -/
theorem itoa_ends {σ : Int} (hσ : σ = 1 ∨ σ = -1) {num base : Int32} (hb : 1 < b) (hb36 : b ≤ 36)
    (hbase : base.toInt = b) (hnum0 : num ≠ 0) (hn : n ≠ 0)
    (hnum : (if num < 0 ∧ base = 10 then -num else num).toInt = σ * n) :
    Ends (itoa num s base) m fun r m' => r = s ∧
      StringAt 0 m' s ((if num < 0 ∧ base = 10 then [0x2D] else []) ++
        (numeral b n).map (itoaDigit σ)) ∧
      Touches (Set.Ico s (s + (numeral b n).length + 2))
        (Set.Ico s (s + (numeral b n).length + 2)) m m' := by
  have hsmall : ∀ d ∈ numeral b n, d < b := (isNumeral_numeral hb n).small
  unfold itoa
  rw [if_neg hnum0]
  apply Ends.bind
  apply (itoaLoop_ends hσ hb hbase (by simpa using hnum) hn).mono
  rintro i m₁ ⟨hi, hheld, hloop⟩
  have hlen : ((numeral b n).reverse.map (itoaDigit σ)).length = i := by simp [hi]
  have hplain : ∀ c ∈ (numeral b n).reverse.map (itoaDigit σ), c ≠ 0 := by
    intro c hc
    obtain ⟨d, hd, rfl⟩ := List.mem_map.mp hc
    have hdb := hsmall d (List.mem_reverse.mp hd)
    exact itoaDigit_ne_zero hσ (by omega)
  have hfinish := finishNumber_ends (decide (num < 0 ∧ base = 10)) hheld hplain
  rw [hlen] at hfinish
  apply Ends.bind
  apply hfinish.mono
  rintro - m' ⟨hstring, hinside⟩
  rw [List.map_reverse, List.reverse_reverse] at hstring
  apply Ends.pure
  refine ⟨rfl, by simpa using hstring, ?_⟩
  rw [← hi]
  exact (hloop.mono (Set.empty_subset _) (Set.Ico_subset_Ico (by omega) (by omega))).trans hinside

/-- `itoa` on zero, which has no loop. -/
theorem itoa_zero_ends (base : Int32) : Ends (itoa 0 s base) m fun r m' => r = s ∧
    StringAt 0 m' s [0x30] ∧ Touches (Set.Ico s (s + 3)) (Set.Ico s (s + 3)) m m' := by
  unfold itoa
  rw [if_pos rfl]
  apply Ends.bind
  apply ends_store
  apply Ends.bind
  apply ends_store
  apply Ends.pure
  refine ⟨rfl, ?_, ?_⟩
  · have hheld : Holds (m.stored s 0x30) s [0x30] := holds_nil.snoc (by simp)
    exact (hheld.snoc rfl).stringAt (by simp)
  · have hfirst := (Touches.refl (Set.Ico s (s + 3)) (Set.Ico s (s + 3)) m).stored (a := s)
      (v := 0x30) ⟨by omega, by omega⟩
    exact hfirst.stored ⟨by omega, by omega⟩

end digits
end Buffer
end ArgaldOS
