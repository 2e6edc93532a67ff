import ArgaldOS.Framework.Words

/-! # Bit fields of a byte

    A bit field of a C structure is a range of bits inside a byte.  Storing to
    it reads the byte, replaces the range and writes the byte back: the other
    bits keep whatever value they had (`get_put_disjoint`).
-/

namespace BitFields

/-- Bits `offset, ..., offset + width - 1` of a byte. -/
structure Field where
  offset : Nat
  width  : Nat
  fits   : offset + width ≤ 8

namespace Field
variable (F : Field)

/-- The value of the field. -/
def get (b : UInt8) : Nat := b.toNat / 2 ^ F.offset % 2 ^ F.width

/-- The byte with the field replaced by the low bits of `v`. -/
def put (b : UInt8) (v : Nat) : UInt8 :=
  UInt8.ofNat (b.toNat % 2 ^ F.offset ||| (v % 2 ^ F.width) <<< F.offset
    ||| (b.toNat >>> (F.offset + F.width)) <<< (F.offset + F.width))

/-- The two fields have no bit in common. -/
def Disjoint (G : Field) : Prop :=
  F.offset + F.width ≤ G.offset ∨ G.offset + G.width ≤ F.offset

instance (G : Field) : Decidable (F.Disjoint G) := inferInstanceAs (Decidable (_ ∨ _))

variable {F}

theorem testBit_get (b : UInt8) (i : Nat) :
    (F.get b).testBit i = (decide (i < F.width) && b.toNat.testBit (F.offset + i)) := by
  unfold get
  rw [Nat.testBit_mod_two_pow, Nat.testBit_div_two_pow, Nat.add_comm i]

/-- The bits of the new byte. -/
theorem testBit_put (b : UInt8) (v : Nat) {i : Nat} (hi : i < 8) :
    (F.put b v).toNat.testBit i =
      if F.offset ≤ i ∧ i < F.offset + F.width then v.testBit (i - F.offset)
      else b.toNat.testBit i := by
  have hbyte : ∀ n : Nat, (UInt8.ofNat n).toNat.testBit i = n.testBit i := by
    intro n
    rw [UInt8.toNat_ofNat', Nat.testBit_mod_two_pow]
    simp [hi]
  unfold put
  rw [hbyte, Nat.testBit_or, Nat.testBit_or, Nat.testBit_mod_two_pow, Nat.testBit_shiftLeft,
    Nat.testBit_shiftLeft, Nat.testBit_shiftRight, Nat.testBit_mod_two_pow]
  by_cases hlow : i < F.offset
  · have h1 : ¬ F.offset ≤ i := by omega
    have h2 : ¬ F.offset + F.width ≤ i := by omega
    simp [hlow, h1, h2]
  · by_cases hin : i < F.offset + F.width
    · have h1 : i - F.offset < F.width := by omega
      have h2 : ¬ F.offset + F.width ≤ i := by omega
      simp [hlow, hin, h1, h2, Nat.le_of_not_lt hlow]
    · have h1 : ¬ i - F.offset < F.width := by omega
      have h2 : F.offset + F.width + (i - (F.offset + F.width)) = i := by omega
      simp [hlow, hin, h1, h2, Nat.le_of_not_lt hin]

@[simp] theorem get_put_self (b : UInt8) (v : Nat) : F.get (F.put b v) = v % 2 ^ F.width := by
  have hfits := F.fits
  apply Nat.eq_of_testBit_eq
  intro i
  rw [testBit_get, Nat.testBit_mod_two_pow]
  by_cases hi : i < F.width
  · rw [testBit_put b v (by omega), if_pos ⟨by omega, by omega⟩, Nat.add_sub_cancel_left]
  · simp [hi]

/-- **A store to a field leaves the others alone.** -/
theorem get_put_disjoint {G : Field} (h : G.Disjoint F) (b : UInt8) (v : Nat) :
    G.get (F.put b v) = G.get b := by
  have hfits := G.fits
  apply Nat.eq_of_testBit_eq
  intro i
  rw [testBit_get, testBit_get]
  by_cases hi : i < G.width
  · unfold Disjoint at h
    rw [testBit_put b v (by omega), if_neg (by omega)]
  · simp [hi]

end Field

end BitFields
