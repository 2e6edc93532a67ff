import Mathlib.Algebra.Group.Nat.Defs
import Mathlib.Tactic.Common

/-! # Fixed-width words

    What the bit masks and shifts of a C program compute, as arithmetic on the
    value of the word: a low mask is a remainder, a high mask rounds down, an
    or of words without common bits is a sum.  After these rewrites the facts
    about addresses are linear and `omega` decides them.
-/

namespace Words

/-! ## Section 1: Natural numbers -/

/-- Clearing the low `k` bits of a `w`-bit number rounds it down to a multiple
    of `2 ^ k`. -/
theorem land_high_mask (x k w : Nat) (hx : x < 2 ^ w) :
    x &&& (2 ^ w - 1 - (2 ^ k - 1)) = x / 2 ^ k * 2 ^ k := by
  apply Nat.eq_of_testBit_eq
  intro i
  have hmask : (2 ^ w - 1 - (2 ^ k - 1)).testBit i = (decide (k ≤ i) && decide (i < w)) := by
    by_cases hkw : k ≤ w
    · have hsum : 2 ^ w - 1 - (2 ^ k - 1) = 2 ^ k * (2 ^ (w - k) - 1) := by
        have hpow : 2 ^ w = 2 ^ k * 2 ^ (w - k) := by
          rw [← Nat.pow_add, Nat.add_sub_cancel' hkw]
        have hpos : 0 < 2 ^ k := Nat.two_pow_pos k
        rw [Nat.mul_sub, Nat.mul_one, ← hpow]
        omega
      rw [hsum, Nat.testBit_two_pow_mul, Nat.testBit_two_pow_sub_one]
      by_cases hki : k ≤ i <;> simp [hki]
      omega
    · have hle : 2 ^ w ≤ 2 ^ k := Nat.pow_le_pow_right (by simp) (by omega)
      have hzero : 2 ^ w - 1 - (2 ^ k - 1) = 0 := by omega
      rw [hzero, Nat.zero_testBit]
      by_cases hki : k ≤ i <;> simp [hki]
      omega
  rw [Nat.testBit_and, hmask, Nat.testBit_mul_two_pow, Nat.testBit_div_two_pow]
  by_cases hki : k ≤ i
  · rw [Nat.sub_add_cancel hki]
    by_cases hiw : i < w
    · simp [hki, hiw]
    · have hbit : x.testBit i = false :=
        Nat.testBit_lt_two_pow (Nat.lt_of_lt_of_le hx (Nat.pow_le_pow_right (by simp) (by omega)))
      simp [hbit]
  · simp [hki]

/-- The bits from `k` to `w` of any number. -/
theorem land_middle_mask (x k w : Nat) :
    x &&& (2 ^ w - 1 - (2 ^ k - 1)) = x % 2 ^ w / 2 ^ k * 2 ^ k := by
  have hpos : 0 < 2 ^ w := Nat.two_pow_pos w
  have hmod : (2 ^ w - 1) &&& (2 ^ w - 1 - (2 ^ k - 1)) = 2 ^ w - 1 - (2 ^ k - 1) := by
    rw [Nat.and_comm, Nat.and_two_pow_sub_one_eq_mod, Nat.mod_eq_of_lt (by omega)]
  have hlow := land_high_mask (x % 2 ^ w) k w (Nat.mod_lt x hpos)
  rw [← Nat.and_two_pow_sub_one_eq_mod x w, Nat.and_assoc, hmod] at hlow
  rw [hlow, Nat.and_two_pow_sub_one_eq_mod]

/-- The or of a multiple of `2 ^ k` with a number below `2 ^ k` is their sum. -/
theorem lor_eq_add (x y k : Nat) (hx : x % 2 ^ k = 0) (hy : y < 2 ^ k) :
    x ||| y = x + y := by
  obtain ⟨a, rfl⟩ := Nat.dvd_of_mod_eq_zero hx
  exact (Nat.two_pow_add_eq_or_of_lt hy a).symm

/-- `x | (2^k - 1)` on numbers. -/
theorem lor_mask (x k : Nat) : x ||| (2 ^ k - 1) = x / 2 ^ k * 2 ^ k + (2 ^ k - 1) := by
  have hpos : 0 < 2 ^ k := Nat.two_pow_pos k
  have hhigh : x ||| (2 ^ k - 1) = x / 2 ^ k * 2 ^ k ||| (2 ^ k - 1) := by
    apply Nat.eq_of_testBit_eq
    intro i
    rw [Nat.testBit_or, Nat.testBit_or, Nat.testBit_two_pow_sub_one, Nat.testBit_mul_two_pow]
    by_cases hi : i < k
    · simp [hi]
    · have hki : k ≤ i := by omega
      simp [hi, hki, Nat.testBit_div_two_pow, Nat.sub_add_cancel hki]
  rw [hhigh]
  exact lor_eq_add _ _ k (Nat.mul_mod_left _ _) (by omega)

/-- A number whose bit `k` is clear has nothing in common with `2 ^ k`. -/
theorem land_two_pow_eq_zero (x k : Nat) (h : x / 2 ^ k % 2 = 0) : x &&& 2 ^ k = 0 := by
  apply Nat.eq_of_testBit_eq
  intro i
  rw [Nat.testBit_and, Nat.testBit_two_pow, Nat.zero_testBit]
  by_cases hi : k = i
  · subst hi
    simp [Nat.testBit_eq_decide_div_mod_eq, h]
  · simp [hi]

/-- `x & 2^k` tests bit `k`. -/
theorem land_two_pow_eq_zero_iff (x k : Nat) : x &&& 2 ^ k = 0 ↔ x.testBit k = false := by
  constructor
  · intro hzero
    have hand := congrArg (Nat.testBit · k) hzero
    simpa using hand
  · intro hbit
    exact land_two_pow_eq_zero x k (by simpa [Nat.testBit_eq_decide_div_mod_eq] using hbit)

/-- A number below a shifted one adds to it. -/
theorem shiftLeft_or (a : Nat) {b i : Nat} (h : b < 2 ^ i) : a <<< i ||| b = a * 2 ^ i + b := by
  rw [← Nat.shiftLeft_add_eq_or_of_lt h, Nat.shiftLeft_eq]

/-! ## Section 2: `UInt64` -/

/-- `x & (2^k - 1)`. -/
theorem toNat_and_mask (x m : UInt64) (k : Nat) (hm : m.toNat = 2 ^ k - 1) :
    (x &&& m).toNat = x.toNat % 2 ^ k := by
  rw [UInt64.toNat_and, hm, Nat.and_two_pow_sub_one_eq_mod]

/-- `x & ~(2^k - 1)`. -/
theorem toNat_and_not_mask (x m : UInt64) (k : Nat) (hm : m.toNat = 2 ^ k - 1) :
    (x &&& ~~~m).toNat = x.toNat / 2 ^ k * 2 ^ k := by
  rw [UInt64.toNat_and, UInt64.toNat_not, hm]
  exact land_high_mask x.toNat k 64 x.toNat_lt

/-- `x | (2^k - 1)`. -/
theorem toNat_or_mask (x m : UInt64) (k : Nat) (hm : m.toNat = 2 ^ k - 1) :
    (x ||| m).toNat = x.toNat / 2 ^ k * 2 ^ k + (2 ^ k - 1) := by
  rw [UInt64.toNat_or, hm]
  exact lor_mask x.toNat k

/-- `x | y` where `y` fits in the `k` bits that are clear in `x`. -/
theorem toNat_or_disjoint (x y : UInt64) (k : Nat) (hx : x.toNat % 2 ^ k = 0)
    (hy : y.toNat < 2 ^ k) : (x ||| y).toNat = x.toNat + y.toNat := by
  rw [UInt64.toNat_or]
  exact lor_eq_add x.toNat y.toNat k hx hy

/-- `x >> n` for a shift by less than the width. -/
theorem toNat_shiftRight_lt (x n : UInt64) (hn : n.toNat < 64) :
    (x >>> n).toNat = x.toNat / 2 ^ n.toNat := by
  rw [UInt64.toNat_shiftRight, Nat.mod_eq_of_lt hn, Nat.shiftRight_eq_div_pow]

theorem toNat_add_lt (x y : UInt64) (h : x.toNat + y.toNat < 2 ^ 64) :
    (x + y).toNat = x.toNat + y.toNat := by
  rw [UInt64.toNat_add, Nat.mod_eq_of_lt h]

theorem toNat_sub_le (x y : UInt64) (h : y.toNat ≤ x.toNat) :
    (x - y).toNat = x.toNat - y.toNat := by
  have hx := x.toNat_lt
  rw [UInt64.toNat_sub]
  omega

theorem toNat_mul_lt (x y : UInt64) (h : x.toNat * y.toNat < 2 ^ 64) :
    (x * y).toNat = x.toNat * y.toNat := by
  rw [UInt64.toNat_mul, Nat.mod_eq_of_lt h]

theorem ofNat_toNat_lt (n : Nat) (h : n < 2 ^ 64) : (UInt64.ofNat n).toNat = n := by
  rw [UInt64.toNat_ofNat']
  exact Nat.mod_eq_of_lt h

/-- `x & 2^k` tests bit `k`. -/
theorem and_two_pow_ne_zero_iff (x m : UInt64) (k : Nat) (hm : m.toNat = 2 ^ k) :
    x &&& m ≠ 0 ↔ x.toNat.testBit k = true := by
  have hiff : x &&& m = 0 ↔ x.toNat.testBit k = false := by
    rw [← UInt64.toNat_inj, UInt64.toNat_and, hm]
    exact land_two_pow_eq_zero_iff x.toNat k
  rw [Ne, hiff, Bool.not_eq_false]

/-- Two words are equal as soon as their values are. -/
theorem ext {x y : UInt64} (h : x.toNat = y.toNat) : x = y := UInt64.toNat_inj.mp h

/-! ## Section 3: Bytes, and words of 16 and 32 bits -/

/-- `x & (2^k - 1)`. -/
theorem toNat_and_mask32 (x m : UInt32) (k : Nat) (hm : m.toNat = 2 ^ k - 1) :
    (x &&& m).toNat = x.toNat % 2 ^ k := by
  rw [UInt32.toNat_and, hm, Nat.and_two_pow_sub_one_eq_mod]

/-- `(uint16_t) hi << 8 | lo` for two bytes. -/
theorem toNat_word16 (hi lo : UInt8) :
    ((hi.toUInt16 <<< 8) ||| lo.toUInt16).toNat = hi.toNat * 2 ^ 8 + lo.toNat := by
  have h1 := hi.toNat_lt
  have h2 := lo.toNat_lt
  have hshift : (hi.toUInt16 <<< 8).toNat = hi.toNat <<< 8 := by
    simp only [UInt16.toNat_shiftLeft, UInt8.toNat_toUInt16, UInt16.reduceToNat, Nat.reduceMod]
    exact Nat.mod_eq_of_lt (by rw [Nat.shiftLeft_eq]; omega)
  rw [UInt16.toNat_or, hshift, UInt8.toNat_toUInt16, shiftLeft_or _ (by omega)]

/-- The low byte of a 16-bit word. -/
theorem toNat_lowByte (w : UInt16) : (w &&& 0xFF).toUInt8.toNat = w.toNat % 2 ^ 8 := by
  have hmask : w.toNat &&& 0xFF = w.toNat % 2 ^ 8 := Nat.and_two_pow_sub_one_eq_mod _ 8
  rw [UInt16.toNat_toUInt8, UInt16.toNat_and]
  show (w.toNat &&& 0xFF) % 2 ^ 8 = _
  rw [hmask, Nat.mod_mod]

/-- The high byte of a 16-bit word. -/
theorem toNat_highByte (w : UInt16) : ((w >>> 8) &&& 0xFF).toUInt8.toNat = w.toNat / 2 ^ 8 := by
  have hlt := w.toNat_lt
  have hshift : (w >>> 8).toNat = w.toNat / 2 ^ 8 := by
    rw [UInt16.toNat_shiftRight]
    exact Nat.shiftRight_eq_div_pow _ 8
  rw [toNat_lowByte, hshift]
  omega

/-- A byte of a word, from bit `n` on. -/
theorem toNat_byte16 (w n : UInt16) (hn : n.toNat < 16) :
    (w >>> n).toUInt8.toNat = w.toNat / 2 ^ n.toNat % 2 ^ 8 := by
  rw [UInt16.toNat_toUInt8, UInt16.toNat_shiftRight, Nat.mod_eq_of_lt hn,
    Nat.shiftRight_eq_div_pow]

theorem toNat_byte32 (w n : UInt32) (hn : n.toNat < 32) :
    (w >>> n).toUInt8.toNat = w.toNat / 2 ^ n.toNat % 2 ^ 8 := by
  rw [UInt32.toNat_toUInt8, UInt32.toNat_shiftRight, Nat.mod_eq_of_lt hn,
    Nat.shiftRight_eq_div_pow]

/-- Eight bits of a signed number, from bit `n` on: the sign that an arithmetic
    shift copies is not among them. -/
theorem toNat_sar_byte (x k : Int32) {n : Nat} (hk : (k.toBitVec.smod 32).toNat = n)
    (hn : n + 8 ≤ 32) :
    (x >>> k).toUInt32.toUInt8.toNat = x.toUInt32.toNat / 2 ^ n % 2 ^ 8 := by
  have hbits : (x >>> k).toUInt32.toUInt8.toBitVec = (x.toBitVec >>> n).setWidth 8 := by
    apply BitVec.eq_of_getLsbD_eq
    intro i hi
    rw [UInt32.toBitVec_toUInt8, Int32.toBitVec_toUInt32, Int32.toBitVec_shiftRight,
      BitVec.sshiftRight', hk, BitVec.getLsbD_setWidth, BitVec.getLsbD_setWidth,
      BitVec.getLsbD_sshiftRight, BitVec.getLsbD_ushiftRight]
    have h1 : ¬ 32 ≤ i := by omega
    have h2 : n + i < 32 := by omega
    simp [h1, h2]
  have hval := congrArg BitVec.toNat hbits
  rw [UInt8.toNat_toBitVec, BitVec.toNat_setWidth, BitVec.toNat_ushiftRight,
    Nat.shiftRight_eq_div_pow] at hval
  exact hval

end Words
