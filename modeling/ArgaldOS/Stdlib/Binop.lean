import ArgaldOS.Framework.Words

/-! # Binary operation helpers (`stdlib/binop.c`, `setBit` of `pmm.c`)

    `getBit` and `setBit` are the two operations the frame allocator does on a
    byte of its bitmap; `combine32bit` and `combine64bit` assemble a
    little-endian number from bytes given most significant first.
-/

namespace ArgaldOS

/-! ## Section 1: Bits of a byte -/

/-- `getBit`: the byte is promoted to `int` before the shift. -/
def getBit (num : UInt8) (x : Nat) : Nat := (num.toNat >>> x) &&& 1

/-- `setBit`: positions from 8 on leave the byte unchanged. -/
def setBit (byte bitPosition : UInt8) (setTo : Bool) : UInt8 :=
  if bitPosition < 8 then
    if setTo then byte ||| (1 <<< bitPosition) else byte &&& ~~~(1 <<< bitPosition)
  else byte

theorem getBit_eq_testBit (num : UInt8) (x : Nat) : getBit num x = (num.toNat.testBit x).toNat := by
  unfold getBit
  rw [Nat.and_one_is_mod, Nat.testBit_eq_decide_div_mod_eq, Nat.shiftRight_eq_div_pow]
  rcases Nat.mod_two_eq_zero_or_one (num.toNat / 2 ^ x) with h | h <;> simp [h]

@[simp] theorem getBit_zero (x : Nat) : getBit 0 x = 0 := by
  simp [getBit]

theorem getBit_lt_two (num : UInt8) (x : Nat) : getBit num x < 2 := by
  rw [getBit_eq_testBit]
  cases num.toNat.testBit x <;> decide

/-- Setting a bit changes that bit and no other. -/
theorem getBit_setBit (byte : UInt8) (p x : Nat) (b : Bool) (hp : p < 8) (hx : x < 8) :
    getBit (setBit byte (UInt8.ofNat p) b) x = if x = p then b.toNat else getBit byte x := by
  have hpv : (UInt8.ofNat p).toNat = p := by simp [UInt8.toNat_ofNat']; omega
  have hlt : UInt8.ofNat p < 8 := by
    rw [UInt8.lt_iff_toNat_lt, hpv]
    exact hp
  have hone : ((1 : UInt8) <<< UInt8.ofNat p).toNat = 2 ^ p := by
    have hpow : 2 ^ p < 2 ^ 8 := Nat.pow_lt_pow_right (by simp) hp
    rw [UInt8.toNat_shiftLeft, hpv, Nat.mod_eq_of_lt hp]
    simp only [UInt8.toNat_ofNat, Nat.reducePow, Nat.one_mod, Nat.one_shiftLeft]
    exact Nat.mod_eq_of_lt hpow
  rw [getBit_eq_testBit, getBit_eq_testBit]
  unfold setBit
  rw [if_pos hlt]
  cases b with
  | true =>
    rw [if_pos rfl, UInt8.toNat_or, Nat.testBit_or, hone, Nat.testBit_two_pow]
    by_cases hxp : x = p
    · simp [hxp]
    · simp [hxp, Ne.symm hxp]
  | false =>
    have hnot : (~~~((1 : UInt8) <<< UInt8.ofNat p)).toNat.testBit x = !decide (p = x) := by
      have := Nat.testBit_two_pow (n := p) (m := x)
      rw [← hone] at this
      rw [← this, ← UInt8.toNat_toBitVec, ← UInt8.toNat_toBitVec, BitVec.testBit_toNat,
        BitVec.testBit_toNat, UInt8.toBitVec_not, BitVec.getLsbD_not]
      simp [hx]
    rw [if_neg (by simp), UInt8.toNat_and, Nat.testBit_and, hnot]
    by_cases hxp : x = p
    · simp [hxp]
    · simp [hxp, Ne.symm hxp]

/-! ## Section 2: Little-endian numbers -/

/-- `combine32bit`: four bytes, most significant first. -/
def combine32bit (byte1 byte2 byte3 byte4 : UInt8) : UInt32 :=
  (byte1.toUInt32 <<< 24) ||| (byte2.toUInt32 <<< 16) ||| (byte3.toUInt32 <<< 8) ||| byte4.toUInt32

/-- `combine64bit`: eight bytes, most significant first. -/
def combine64bit (byte1 byte2 byte3 byte4 byte5 byte6 byte7 byte8 : UInt8) : UInt64 :=
  (byte1.toUInt64 <<< 56) ||| (byte2.toUInt64 <<< 48) ||| (byte3.toUInt64 <<< 40)
    ||| (byte4.toUInt64 <<< 32) ||| (byte5.toUInt64 <<< 24) ||| (byte6.toUInt64 <<< 16)
    ||| (byte7.toUInt64 <<< 8) ||| byte8.toUInt64

/-- The bytes are the digits of the number. -/
theorem toNat_combine32bit (byte1 byte2 byte3 byte4 : UInt8) :
    (combine32bit byte1 byte2 byte3 byte4).toNat =
      byte1.toNat * 2 ^ 24 + byte2.toNat * 2 ^ 16 + byte3.toNat * 2 ^ 8 + byte4.toNat := by
  have h1 := byte1.toNat_lt
  have h2 := byte2.toNat_lt
  have h3 := byte3.toNat_lt
  have h4 := byte4.toNat_lt
  have e1 : (byte1.toUInt32 <<< 24).toNat = byte1.toNat <<< 24 := by
    simp only [UInt32.toNat_shiftLeft, UInt8.toNat_toUInt32, UInt32.reduceToNat, Nat.reduceMod]
    exact Nat.mod_eq_of_lt (by rw [Nat.shiftLeft_eq]; omega)
  have e2 : (byte2.toUInt32 <<< 16).toNat = byte2.toNat <<< 16 := by
    simp only [UInt32.toNat_shiftLeft, UInt8.toNat_toUInt32, UInt32.reduceToNat, Nat.reduceMod]
    exact Nat.mod_eq_of_lt (by rw [Nat.shiftLeft_eq]; omega)
  have e3 : (byte3.toUInt32 <<< 8).toNat = byte3.toNat <<< 8 := by
    simp only [UInt32.toNat_shiftLeft, UInt8.toNat_toUInt32, UInt32.reduceToNat, Nat.reduceMod]
    exact Nat.mod_eq_of_lt (by rw [Nat.shiftLeft_eq]; omega)
  have l3 : byte3.toNat <<< 8 ||| byte4.toNat = byte3.toNat * 2 ^ 8 + byte4.toNat :=
    Words.shiftLeft_or _ (by omega)
  have l2 : byte2.toNat <<< 16 ||| (byte3.toNat * 2 ^ 8 + byte4.toNat) =
      byte2.toNat * 2 ^ 16 + (byte3.toNat * 2 ^ 8 + byte4.toNat) :=
    Words.shiftLeft_or _ (by omega)
  unfold combine32bit
  rw [UInt32.toNat_or, UInt32.toNat_or, UInt32.toNat_or, e1, e2, e3, UInt8.toNat_toUInt32,
    Nat.or_assoc, Nat.or_assoc, l3, l2, Words.shiftLeft_or _ (by omega)]
  omega

/-- A byte moved up inside a 64-bit word. -/
theorem toNat_byte_shiftLeft (b : UInt8) (n : UInt64) (hn : n.toNat + 8 ≤ 64) :
    (b.toUInt64 <<< n).toNat = b.toNat * 2 ^ n.toNat := by
  have hb := b.toNat_lt
  rw [UInt64.toNat_shiftLeft, UInt8.toNat_toUInt64, Nat.mod_eq_of_lt (by omega : n.toNat < 64),
    Nat.shiftLeft_eq]
  apply Nat.mod_eq_of_lt
  calc b.toNat * 2 ^ n.toNat < 2 ^ 8 * 2 ^ n.toNat :=
        Nat.mul_lt_mul_of_pos_right hb (Nat.two_pow_pos _)
    _ = 2 ^ (8 + n.toNat) := (Nat.pow_add 2 8 n.toNat).symm
    _ ≤ 2 ^ 64 := Nat.pow_le_pow_right (by simp) (by omega)

/-- The next byte of a word that is assembled from its high end. -/
theorem toNat_or_byte {w n : UInt64} {a : Nat} (b : UInt8) (hn : n.toNat + 8 ≤ 64)
    (hw : w.toNat = a * 2 ^ (n.toNat + 8)) :
    (w ||| (b.toUInt64 <<< n)).toNat = (a * 2 ^ 8 + b.toNat) * 2 ^ n.toNat := by
  have hshift := toNat_byte_shiftLeft b n hn
  have hlt : b.toNat * 2 ^ n.toNat < 2 ^ (n.toNat + 8) := by
    rw [Nat.pow_add, Nat.mul_comm (2 ^ n.toNat)]
    exact Nat.mul_lt_mul_of_pos_right b.toNat_lt (Nat.two_pow_pos _)
  rw [Words.toNat_or_disjoint _ _ (n.toNat + 8) (by rw [hw]; exact Nat.mul_mod_left _ _)
    (by rw [hshift]; exact hlt), hw, hshift, Nat.add_mul, Nat.mul_assoc, Nat.pow_add,
    Nat.mul_comm (2 ^ n.toNat)]

theorem toNat_combine64bit (byte1 byte2 byte3 byte4 byte5 byte6 byte7 byte8 : UInt8) :
    (combine64bit byte1 byte2 byte3 byte4 byte5 byte6 byte7 byte8).toNat =
      byte1.toNat * 2 ^ 56 + byte2.toNat * 2 ^ 48 + byte3.toNat * 2 ^ 40 + byte4.toNat * 2 ^ 32
        + byte5.toNat * 2 ^ 24 + byte6.toNat * 2 ^ 16 + byte7.toNat * 2 ^ 8 + byte8.toNat := by
  have h8 := byte8.toNat_lt
  have e1 := toNat_byte_shiftLeft byte1 56 (by simp)
  have e2 := toNat_or_byte byte2 (n := 48) (by simp) e1
  have e3 := toNat_or_byte byte3 (n := 40) (by simp) e2
  have e4 := toNat_or_byte byte4 (n := 32) (by simp) e3
  have e5 := toNat_or_byte byte5 (n := 24) (by simp) e4
  have e6 := toNat_or_byte byte6 (n := 16) (by simp) e5
  have e7 := toNat_or_byte byte7 (n := 8) (by simp) e6
  unfold combine64bit
  have hlow : byte8.toUInt64.toNat = byte8.toNat := UInt8.toNat_toUInt64 byte8
  have hmod : ∀ a : Nat, a * 2 ^ (8 : UInt64).toNat % 2 ^ 8 = 0 := fun a => Nat.mul_mod_left a _
  rw [Words.toNat_or_disjoint _ _ 8 (by rw [e7]; exact hmod _) (by rw [hlow]; exact h8), e7, hlow]
  simp only [UInt64.reduceToNat]
  omega

example : combine32bit 0x12 0x34 0x56 0x78 = 0x12345678 := by decide

end ArgaldOS
