import ArgaldOS.Stdlib.Directives
import ArgaldOS.Stdlib.Numbers

/-! # What an integer looks like

    The formatter collects the digits of a number in a buffer of 32 characters, the last one
    first, adds zeros and the sign behind them, and prints the buffer backwards.  What comes
    out are the spaces, the sign, the zeros and the numeral, in this order or with the
    spaces last.

    What has no room in the buffer is lost: the first digits of a number in base two, zeros, and
    after 32 digits or zeros the sign.  A field that is filled with zeros gets no spaces, so
    it is never wider than the buffer.  On the left side of its field a number gets no zeros,
    and the precision is ignored there.

    * `ntoa_digits_eq`: the digits;
    * `ntoa_long_eq`: the text of a number;
    * `readNumber_numberText`: the text is read back as the number;
    * `integer_layout`: an integer conversion without the `#` flag.
-/

namespace ArgaldOS.Printf

open Numerals

/-! ## Section 1: Digits -/

/-- The letter of the digit ten. -/
def digitLetter (flags : Flags) : Nat := if flags.uppercase then 0x41 else 0x61

section digits
variable {uppercase : Bool} {base room value : Nat}

/-- The character that `_ntoa_long` puts into the buffer. -/
theorem digitChar_eq (flags : Flags) (digit : Nat) :
    (if digit < 10 then UInt8.ofNat (0x30 + digit)
      else UInt8.ofNat ((if flags.uppercase then 0x41 else 0x61) + digit - 10))
      = digitChar (digitLetter flags) digit := by
  rw [digitChar, digitLetter]
  split
  · rfl
  · next hletter => rw [Nat.add_sub_assoc (Nat.le_of_not_lt hletter)]

/-- The digits of a positive number, up to the end of the buffer. -/
theorem ntoa_digits_of_pos (flags : Flags) (hbase : 1 < base) (hvalue : 0 < value) :
    ntoa_digits flags.uppercase base room value
      = ((Nat.digits base value).map (digitChar (digitLetter flags))).take room := by
  induction room generalizing value with
  | zero => rw [ntoa_digits, List.take_zero]
  | succ room ih =>
    rw [ntoa_digits, Nat.digits_def' hbase hvalue, List.map_cons, List.take_succ_cons]
    rw [digitChar_eq]
    by_cases hlast : value / base = 0
    · rw [if_pos hlast, hlast, Nat.digits_zero, List.map_nil, List.take_nil]
    · rw [if_neg hlast, ih (Nat.pos_of_ne_zero hlast)]

/-- **The digits**: the numeral from its end, up to the end of the buffer. -/
theorem ntoa_digits_eq (flags : Flags) (hbase : 1 < base) (hpos : 0 < room) :
    ntoa_digits flags.uppercase base room value
      = ((numeral base value).map (digitChar (digitLetter flags))).reverse.take room := by
  rcases Nat.eq_zero_or_pos value with rfl | hvalue
  · obtain ⟨room, rfl⟩ := Nat.exists_eq_succ_of_ne_zero (Nat.ne_of_gt hpos)
    have hzero : numeral base 0 = [0] := if_pos rfl
    rw [ntoa_digits, Nat.zero_mod, Nat.zero_div, if_pos rfl, hzero, List.map_singleton,
      List.reverse_singleton, List.take_of_length_le (Nat.succ_le_succ (Nat.zero_le room))]
    exact congrArg (· :: []) (digitChar_eq flags 0)
  · rw [ntoa_digits_of_pos flags hbase hvalue, numeral_of_ne_zero (Nat.ne_of_gt hvalue),
      List.map_reverse, List.reverse_reverse]

end digits

/-! ## Section 2: Layout -/

/-- The text in a field: spaces in front of it, or behind it. -/
def justified (width : Nat) (left : Bool) (text : List UInt8) : List UInt8 :=
  if left then text ++ pad width text.length else pad width text.length ++ text

/-- The sign. -/
def signText (negative : Bool) (flags : Flags) : List UInt8 :=
  if negative then [0x2D] else if flags.plus then [0x2B] else if flags.space then [0x20] else []

/-- The numeral.  With a precision zero has no digits. -/
def digitText (value base : Nat) (flags : Flags) : List UInt8 :=
  if flags.precision ∧ value = 0 then []
  else (numeral base value).map (digitChar (digitLetter flags))

/-- The number of zeros in front of the digits. -/
def leadingZeros (digits sign prec width : Nat) (flags : Flags) : Nat :=
  if flags.left then 0 else max prec (if flags.zeropad then width - sign else 0) - digits

/-- What of a number has room in the buffer: its last digits, zeros, and the sign. -/
def bufferText (digits sign : List UInt8) (zeros : Nat) : List UInt8 :=
  let kept := digits.drop (digits.length - 32)
  let zeros := min zeros (32 - kept.length)
  (if kept.length + zeros < 32 then sign else []) ++ List.replicate zeros 0x30 ++ kept

/-- The text of a number. -/
def numberText (value : Nat) (negative : Bool) (base prec width : Nat) (flags : Flags) :
    List UInt8 :=
  let digits := digitText value base flags
  let sign := signText negative flags
  justified (if flags.zeropad && !flags.left then 0 else width) flags.left
    (bufferText digits sign (leadingZeros (min digits.length 32) sign.length prec width flags))

section layout
variable {flags : Flags} {negative : Bool} {prec width : Nat} {buf : List UInt8}

/-- The sign, if there is room for it. -/
theorem putSign_eq (buf : List UInt8) : putSign buf negative flags
    = buf ++ if buf.length < 32 then signText negative flags else [] := by
  rw [putSign, signText]
  by_cases hroom : buf.length < 32
  · simp only [put, if_pos hroom]
    split
    · rfl
    · split
      · rfl
      · split
        · rfl
        · exact (List.append_nil buf).symm
  · simp only [put, if_neg hroom, ite_self, List.append_nil]

/-- The signs that there are. -/
theorem signText_cases (negative : Bool) (flags : Flags) :
    negative = true ∧ signText negative flags = [0x2D] ∨
      negative = false ∧ (signText negative flags = [0x2B] ∨ signText negative flags = [0x20] ∨
        signText negative flags = []) := by
  rw [signText]
  cases negative
  · refine .inr ⟨rfl, ?_⟩
    cases flags.plus
    · cases flags.space
      · exact .inr (.inr rfl)
      · exact .inr (.inl rfl)
    · exact .inl rfl
  · exact .inl ⟨rfl, rfl⟩

theorem signText_reverse : (signText negative flags).reverse = signText negative flags := by
  rcases signText_cases negative flags with ⟨-, h⟩ | ⟨-, h | h | h⟩
  all_goals rw [h]; rfl

theorem length_signText_le (negative : Bool) (flags : Flags) :
    (signText negative flags).length ≤ 1 := by
  rcases signText_cases negative flags with ⟨-, h⟩ | ⟨-, h | h | h⟩
  all_goals rw [h]; decide

/-- The field for the zeros is smaller by the sign. -/
theorem width_sub_sign (negative : Bool) (width : Nat) (hzeropad : flags.zeropad = true)
    (hleft : flags.left = false) :
    (if !flags.left && width ≠ 0 && flags.zeropad && (negative || flags.plus || flags.space) then
      width - 1 else width) = width - (signText negative flags).length := by
  have hzero : ∀ n : Nat, (if (n ≠ 0 : Bool) then n - 1 else n) = n - 1 := by
    intro n
    cases n <;> rfl
  rw [signText, hzeropad, hleft]
  cases negative <;> cases flags.plus <;> cases flags.space <;>
    simp only [Bool.not_false, Bool.true_and, Bool.and_true, Bool.or_true, Bool.or_false,
      Bool.and_false, Bool.false_eq_true, if_true, if_false, List.length_singleton,
      List.length_nil, Nat.sub_zero, hzero]

/-- The zeros of the precision, and those of the width. -/
theorem padZeros_padZeros (hbuf : buf.length ≤ 32) (n m : Nat) : padZeros (padZeros buf n) m
    = buf ++ List.replicate (min (max n m - buf.length) (32 - buf.length)) 0x30 := by
  rw [padZeros, padZeros, List.append_assoc, ← List.replicate_add, List.length_append,
    List.length_replicate]
  congr 2
  omega

/-- **The zeros**: those of the precision, and of the width if the flag asks for them. -/
theorem padded_buffer (hbuf : buf.length ≤ 32) (width w : Nat) (hw : flags.zeropad = true →
      flags.left = false → w = width - (signText negative flags).length) :
    (if !flags.left && flags.zeropad then
        padZeros (if flags.left then buf else padZeros buf prec) w
      else if flags.left then buf else padZeros buf prec)
      = buf ++ List.replicate (min (leadingZeros buf.length (signText negative flags).length prec
          width flags) (32 - buf.length)) 0x30 := by
  rw [leadingZeros]
  cases hleft : flags.left with
  | true => exact (List.append_nil buf).symm
  | false =>
    cases hzeropad : flags.zeropad with
    | true =>
      rw [hw hzeropad hleft]
      exact padZeros_padZeros hbuf _ _
    | false =>
      -- A field of width zero asks for no zeros.
      have hzeros := padZeros_padZeros hbuf prec 0
      rwa [padZeros, Nat.zero_min, Nat.zero_sub, List.replicate_zero, List.append_nil] at hzeros

/-- The buffer backwards, in its field.  Zeros have filled the field already. -/
theorem out_rev_eq (buf : List UInt8) (width : Nat) (flags : Flags) : out_rev buf width flags
    = justified (if flags.zeropad && !flags.left then 0 else width) flags.left buf.reverse := by
  have hnone : pad 0 buf.length = [] := by rw [pad, Nat.zero_sub, List.replicate_zero]
  rw [out_rev, justified, List.length_reverse]
  cases flags.left
  · cases flags.zeropad
    · exact List.append_nil _
    · exact (List.append_nil _).trans (congrArg (· ++ buf.reverse) hnone.symm)
  · cases flags.zeropad <;> rfl

/-- **The format of a number** whose digits are in the buffer. -/
theorem ntoa_format_eq (base : Nat) (hhash : flags.hash = false) (digits : List UInt8) :
    ntoa_format (digits.reverse.take 32) negative base prec width flags
      = justified (if flags.zeropad && !flags.left then 0 else width) flags.left
          (bufferText digits (signText negative flags) (leadingZeros (min digits.length 32)
            (signText negative flags).length prec width flags)) := by
  have hlength : (digits.reverse.take 32).length = min digits.length 32 := by
    rw [List.length_take, List.length_reverse, Nat.min_comm]
  have hkept : (digits.reverse.take 32).reverse = digits.drop (digits.length - 32) := by
    rw [List.reverse_take, List.reverse_reverse, List.length_reverse]
  have hkeptLength : (digits.drop (digits.length - 32)).length = min digits.length 32 := by
    rw [← hkept, List.length_reverse, hlength]
  -- The width is made smaller only where no spaces are printed.
  have hspaces : ∀ sign : Bool, (if flags.zeropad && !flags.left then 0
      else if !flags.left && width ≠ 0 && flags.zeropad && sign then width - 1 else width)
      = if flags.zeropad && !flags.left then 0 else width := by
    intro sign
    cases flags.left <;> cases flags.zeropad <;> simp
  rw [ntoa_format]
  simp only [hhash, Bool.false_eq_true, if_false]
  rw [padded_buffer (by rw [hlength]; omega) width _
    (fun hzeropad hleft => width_sub_sign negative width hzeropad hleft), putSign_eq, out_rev_eq,
    hspaces, bufferText, List.reverse_append, List.reverse_append, List.reverse_replicate, hkept,
    apply_ite List.reverse, signText_reverse, List.reverse_nil, List.length_append,
    List.length_replicate, hlength, hkeptLength, List.append_assoc]

/-- **The text of a number**: the digits, zeros and sign that have room, in their field. -/
theorem ntoa_long_eq {value base : Nat} (hhash : flags.hash = false) (hbase : 1 < base) :
    ntoa_long value negative base prec width flags
      = numberText value negative base prec width flags := by
  have hflags : (if value = 0 then { flags with hash := false } else flags) = flags := by
    rw [← hhash]
    split <;> rfl
  have hbuf : (if !flags.precision || value ≠ 0 then ntoa_digits flags.uppercase base 32 value
      else []) = (digitText value base flags).reverse.take 32 := by
    rw [digitText]
    by_cases hnone : flags.precision = true ∧ value = 0
    · rw [if_pos hnone, if_neg (by simp [hnone.1, hnone.2])]
      rfl
    · rw [if_neg hnone, if_pos, ntoa_digits_eq flags hbase (by omega)]
      cases hp : flags.precision with
      | true => simpa [hp] using hnone
      | false => rfl
  rw [ntoa_long]
  simp only [hflags, hbuf]
  exact ntoa_format_eq base hhash _

end layout

/-! ## Section 3: Reading a number back -/

/-- The number that is read from a text: a sign, and digits.  Spaces are skipped. -/
def readNumber (letter base : Nat) (text : CString) : Int :=
  match text.filter (· ≠ 0x20) with
  | [] => 0
  | c :: digits =>
    if c = 0x2D then -(readText letter base digits : Int)
    else if c = 0x2B then readText letter base digits
    else readText letter base (c :: digits)

/-- The digits, the zeros and the sign have room in the buffer. -/
def HasRoom (value : Nat) (negative : Bool) (base prec width : Nat) (flags : Flags) : Prop :=
  let digits := (digitText value base flags).length
  let sign := (signText negative flags).length
  digits + leadingZeros digits sign prec width flags + sign ≤ 32

/-- Leading zeros do not count. -/
theorem readDigits_zeros (base k : Nat) (ds : List Nat) :
    readDigits base (List.replicate k 0 ++ ds) = readDigits base ds := by
  induction k with
  | zero => rfl
  | succ k ih =>
    rw [List.replicate_succ, List.cons_append, ← ih]
    show List.foldl _ (0 * base + 0) _ = _
    rw [Nat.zero_mul]
    rfl

/-- A digit is neither a space nor a sign. -/
theorem digitChar_plain {letter d : Nat} (hletter : letter = 0x41 ∨ letter = 0x61) (hd : d < 36) :
    digitChar letter d ≠ 0x20 ∧ digitChar letter d ≠ 0x2D ∧ digitChar letter d ≠ 0x2B := by
  have hlow : 0x30 ≤ (digitChar letter d).toNat := by
    rw [digitChar, UInt8.toNat_ofNat']
    split <;> omega
  refine ⟨?_, ?_, ?_⟩ <;>
  · intro heq
    rw [heq] at hlow
    exact absurd hlow (by decide)

section read
variable {letter base : Nat} {ds : List Nat}

/-- Digits are no spaces. -/
theorem filter_digits (hletter : letter = 0x41 ∨ letter = 0x61) (hds : ∀ d ∈ ds, d < 36) :
    (ds.map (digitChar letter)).filter (· ≠ 0x20) = ds.map (digitChar letter) := by
  apply List.filter_eq_self.mpr
  intro c hc
  obtain ⟨d, hd, rfl⟩ := List.mem_map.mp hc
  exact decide_eq_true (digitChar_plain hletter (hds d hd)).1

/-- Spaces do not count. -/
theorem filter_pad (width len : Nat) : (pad width len).filter (· ≠ 0x20) = [] := by
  apply List.filter_eq_nil_iff.mpr
  intro c hc
  rw [List.eq_of_mem_replicate hc]
  decide

/-- **A sign and digits** are read back. -/
theorem readNumber_signed (hletter : letter = 0x41 ∨ letter = 0x61) (hds : ∀ d ∈ ds, d < 36)
    (negative : Bool) (flags : Flags) (width : Nat) (left : Bool) :
    readNumber letter base
        (justified width left (signText negative flags ++ ds.map (digitChar letter)))
      = if negative then -(readDigits base ds : Int) else readDigits base ds := by
  have hread : readText letter base (ds.map (digitChar letter)) = readDigits base ds :=
    readText_digits hletter hds
  have hfilter : (justified width left (signText negative flags
        ++ ds.map (digitChar letter))).filter (· ≠ 0x20)
      = (signText negative flags).filter (· ≠ 0x20) ++ ds.map (digitChar letter) := by
    rw [justified]
    split <;> simp only [List.filter_append, filter_pad, filter_digits hletter hds,
      List.nil_append, List.append_nil]
  have hunsigned : ∀ text : CString, text.filter (· ≠ 0x20) = ds.map (digitChar letter) →
      readNumber letter base text = readDigits base ds := by
    intro text htext
    rw [readNumber, htext, ← hread]
    cases ds with
    | nil => rfl
    | cons d ds =>
      obtain ⟨-, hminus, hplus⟩ := digitChar_plain hletter (hds d List.mem_cons_self)
      exact (if_neg hminus).trans (if_neg hplus)
  rcases signText_cases negative flags with ⟨rfl, hsign⟩ | ⟨rfl, hsign | hsign | hsign⟩
  all_goals rw [hsign] at hfilter ⊢
  · rw [readNumber, hfilter, ← hread]
    rfl
  · rw [readNumber, hfilter, ← hread]
    rfl
  -- A space in the place of the sign is skipped.
  · exact hunsigned _ hfilter
  · exact hunsigned _ hfilter

end read

/-- **The text of a number is read back**, with its sign, if nothing of it is lost. -/
theorem readNumber_numberText {value base prec width : Nat} {negative : Bool} {flags : Flags}
    (hbase : 1 < base) (hsmall : base ≤ 36)
    (hroom : HasRoom value negative base prec width flags) :
    readNumber (digitLetter flags) base (numberText value negative base prec width flags)
      = if negative then -(value : Int) else value := by
  have hletter : digitLetter flags = 0x41 ∨ digitLetter flags = 0x61 := by
    rw [digitLetter]
    split
    · exact .inl rfl
    · exact .inr rfl
  have hnumeral := isNumeral_numeral hbase value
  -- The digits, and the number that they stand for.
  obtain ⟨ds, hdigits, hds, hvalue⟩ : ∃ ds,
      digitText value base flags = ds.map (digitChar (digitLetter flags)) ∧
        (∀ d ∈ ds, d < 36) ∧ readDigits base ds = value := by
    rw [digitText]
    split
    · next hnone => exact ⟨[], rfl, fun d hd => absurd hd List.not_mem_nil, hnone.2.symm⟩
    · exact ⟨_, rfl, fun d hd => (hnumeral.small d hd).trans_le hsmall, hnumeral.value⟩
  unfold HasRoom at hroom
  dsimp only at hroom
  rw [hdigits, List.length_map] at hroom
  have hzero : digitChar (digitLetter flags) 0 = 0x30 := by
    rw [digitChar, if_pos (by omega)]
    rfl
  have htext : bufferText (digitText value base flags) (signText negative flags)
      (leadingZeros (min (digitText value base flags).length 32) (signText negative flags).length
        prec width flags)
      = signText negative flags ++ (List.replicate (leadingZeros ds.length
          (signText negative flags).length prec width flags) 0 ++ ds).map
            (digitChar (digitLetter flags)) := by
    rw [bufferText, hdigits, List.length_map, Nat.sub_eq_zero_of_le (by omega), List.drop_zero,
      List.length_map, Nat.min_eq_left (by omega : ds.length ≤ 32), Nat.min_eq_left (by omega),
      List.map_append, List.map_replicate, hzero, List.append_assoc]
    congr 1
    split
    · rfl
    · -- The sign has room, so there is none where the buffer is full.
      exact (List.eq_nil_of_length_eq_zero (by omega)).symm
  rw [numberText, htext, readNumber_signed hletter, readDigits_zeros, hvalue]
  intro d hd
  rcases List.mem_append.mp hd with hd | hd
  · rw [List.eq_of_mem_replicate hd]
    omega
  · exact hds d hd

/-! ## Section 4: Conversions -/

/-- The number that an argument stands for. -/
def argumentValue (specifier : UInt8) (flags : Flags) (word : UInt64) : Int :=
  if isSigned specifier then signed (argumentBits flags) word
  else unsigned (argumentBits flags) word

theorem argumentBits_le (flags : Flags) : argumentBits flags ≤ 64 := by
  rw [argumentBits]
  split
  · exact Nat.le_refl 64
  · split
    · omega
    · split <;> omega

/-- A number of 64 bits. -/
theorem natAbs_argumentValue_lt (specifier : UInt8) (flags : Flags) (word : UInt64) :
    (argumentValue specifier flags word).natAbs < 2 ^ 64 := by
  have hpow : 2 ^ argumentBits flags ≤ 2 ^ 64 :=
    Nat.pow_le_pow_right (by omega) (argumentBits_le flags)
  rw [argumentValue]
  split
  · have hlt := (BitVec.ofNat (argumentBits flags) word.toNat).isLt
    rw [signed, BitVec.toInt_eq_toNat_cond]
    split <;> omega
  · have hlt := Nat.mod_lt word.toNat (Nat.two_pow_pos (argumentBits flags))
    rw [unsigned]
    omega

/-- Only base two needs more digits than the buffer has room for. -/
theorem integerSpecifiers_base : ∀ c ∈ integerSpecifiers, 1 < baseOf c ∧ baseOf c ≤ 36 ∧
    (c ≠ 0x62 → 8 ≤ baseOf c) ∧ (c = 0x62 → baseOf c = 2 ∧ isSigned c = false) := by
  exact List.all_iff_forall_prop.mp (by decide)

/-- An unsigned number has no sign. -/
theorem signText_unsigned {specifier : UInt8} (h : isSigned specifier = false) (flags : Flags) :
    signText false (integerFlags specifier flags) = [] := by
  have hplus : (integerFlags specifier flags).plus = false := by
    rw [integerFlags, h]
    exact Bool.and_false _
  have hspace : (integerFlags specifier flags).space = false := by
    rw [integerFlags, h]
    exact Bool.and_false _
  rw [signText, hplus, hspace]
  rfl

/-- The text of an argument is that of its number. -/
theorem integerText_eq (specifier : UInt8) (prec width : Nat) (flags : Flags) (word : UInt64) :
    integerText specifier prec width flags word
      = ntoa_long (argumentValue specifier flags word).natAbs
          (argumentValue specifier flags word < 0) (baseOf specifier) prec width
          (integerFlags specifier flags) := by
  have hbits : argumentBits (integerFlags specifier flags) = argumentBits flags := rfl
  rw [integerText, argumentValue, hbits]
  split
  · rfl
  · rw [Int.natAbs_natCast, decide_eq_false (Int.not_lt.mpr (Int.natCast_nonneg _))]

/-- The digits and the sign of an argument have room, unless it is one of more than 32 binary
    digits. -/
theorem length_digits_sign_le {specifier : UInt8} (hspecifier : specifier ∈ integerSpecifiers)
    (flags : Flags) {value : Int} (hlt : value.natAbs < 2 ^ 64)
    (hbinary : specifier = 0x62 → 0 ≤ value ∧ value.natAbs < 2 ^ 32) :
    (digitText value.natAbs (baseOf specifier) (integerFlags specifier flags)).length
      + (signText (value < 0) (integerFlags specifier flags)).length ≤ 32 := by
  obtain ⟨hbase, -, hlarge, htwo⟩ := integerSpecifiers_base specifier hspecifier
  have hsign := length_signText_le (value < 0) (integerFlags specifier flags)
  have hdigits : (digitText value.natAbs (baseOf specifier) (integerFlags specifier flags)).length
      ≤ (numeral (baseOf specifier) value.natAbs).length := by
    rw [digitText]
    split
    · exact Nat.zero_le _
    · rw [List.length_map]
  by_cases hb : specifier = 0x62
  · obtain ⟨hbase₂, hunsigned⟩ := htwo hb
    obtain ⟨hnonneg, hsmall⟩ := hbinary hb
    have hnumeral := length_numeral_le (k := 32) hbase (by omega) (hbase₂ ▸ hsmall)
    rw [decide_eq_false (Int.not_lt.mpr hnonneg), signText_unsigned hunsigned]
    exact hdigits.trans hnumeral
  · have hpow : value.natAbs < baseOf specifier ^ 31 :=
      calc value.natAbs < 2 ^ 64 := hlt
        _ ≤ 8 ^ 31 := by decide
        _ ≤ baseOf specifier ^ 31 := Nat.pow_le_pow_left (hlarge hb) 31
    have hnumeral := length_numeral_le hbase (by omega) hpow
    omega

section integer
variable {A : Type} (host : Surroundings A)

/-- **An integer conversion** without the `#` flag prints what of the number has room in the
    buffer, and takes one argument; with the length `ll` it does neither.  Where nothing is
    lost the text is read back as the argument's value, and there is room for numbers of up to
    31 digits, precision and width included, and for 32 binary digits. -/
theorem integer_layout (s : Conversion A) (hspecifier : s.next ∈ integerSpecifiers)
    (hhash : s.flags.hash = false ∨ baseOf s.next = 10) :
    let value := argumentValue s.next s.flags (host.word s.va).1
    let flags := integerFlags s.next s.flags
    let text := numberText value.natAbs (value < 0) (baseOf s.next) s.precision s.width flags
    let room := HasRoom value.natAbs (value < 0) (baseOf s.next) s.precision s.width flags
    (specifier host s =
        if s.flags.long_long then ([], s.va) else (text, (host.word s.va).2)) ∧
      (room → readNumber (digitLetter flags) (baseOf s.next) text = value) ∧
      (s.precision ≤ 31 → (s.flags.zeropad = true → s.width ≤ 32) →
        (s.next = 0x62 → value.natAbs < 2 ^ 32) → room) := by
  intro value flags text room
  obtain ⟨hbase, hsmall, -, htwo⟩ := integerSpecifiers_base s.next hspecifier
  have hnone : flags.hash = false := by
    show (s.flags.hash && decide (baseOf s.next ≠ 10)) = false
    rcases hhash with hoff | hten
    · rw [hoff]
      rfl
    · rw [hten]
      exact Bool.and_false _
  refine ⟨?_, ?_, ?_⟩
  · have htext : integerText s.next s.precision s.width s.flags (host.word s.va).1 = text := by
      rw [integerText_eq]
      exact ntoa_long_eq hnone hbase
    rw [specifier, if_pos hspecifier, integer, htext]
  · intro hroom
    rw [readNumber_numberText hbase hsmall hroom]
    by_cases hneg : value < 0
    · rw [if_pos (decide_eq_true hneg)]
      omega
    · rw [if_neg (by rw [decide_eq_true_iff]; exact hneg)]
      omega
  · intro hprec hwidth hbinary
    have hlt : value.natAbs < 2 ^ 64 := natAbs_argumentValue_lt _ _ _
    have hdigits : (digitText value.natAbs (baseOf s.next) flags).length
        + (signText (value < 0) flags).length ≤ 32 := by
      refine length_digits_sign_le hspecifier s.flags hlt fun hb => ⟨?_, hbinary hb⟩
      show 0 ≤ argumentValue s.next s.flags (host.word s.va).1
      rw [argumentValue, (htwo hb).2]
      exact Int.natCast_nonneg _
    have hsign := length_signText_le (value < 0) flags
    show _ + leadingZeros _ _ _ _ flags + _ ≤ 32
    rw [leadingZeros]
    split
    · exact hdigits
    · split
      · next hzeropad =>
        have hfield := hwidth (Bool.and_elim_left hzeropad)
        omega
      · omega

end integer

/-- `%+06d` of -42, which is read back, and `%040d` of 7, which is no wider than the buffer. -/
theorem integer_layout_fields :
    let host : Surroundings (List UInt64) := ⟨fun va => (va.headD 0, va.tail), fun _ => []⟩
    specifier host ⟨{ zeropad := true, plus := true }, 6, 0, [0x64], [UInt64.ofNat (2 ^ 32 - 42)]⟩
        = ([0x2D, 0x30, 0x30, 0x30, 0x34, 0x32], []) ∧
      readNumber 0x61 10 [0x2D, 0x30, 0x30, 0x30, 0x34, 0x32] = -42 ∧
      specifier host ⟨{ zeropad := true }, 40, 0, [0x64], [7]⟩
        = (List.replicate 31 0x30 ++ [0x37], []) := by
  intro host
  have htext : numberText 42 true 10 0 6 { zeropad := true, plus := true }
      = [0x2D, 0x30, 0x30, 0x30, 0x34, 0x32] := by decide +kernel
  have hwide : numberText 7 false 10 0 40 { zeropad := true }
      = List.replicate 31 0x30 ++ [0x37] := by decide +kernel
  obtain ⟨hprint, hread, hroom⟩ := integer_layout host
    ⟨{ zeropad := true, plus := true }, 6, 0, [0x64], [UInt64.ofNat (2 ^ 32 - 42)]⟩
    (show 0x64 ∈ integerSpecifiers by decide) (.inl rfl)
  obtain ⟨hcut, -, -⟩ := integer_layout host ⟨{ zeropad := true }, 40, 0, [0x64], [7]⟩
    (show 0x64 ∈ integerSpecifiers by decide) (.inl rfl)
  refine ⟨hprint.trans (congrArg (·, []) htext), ?_, hcut.trans (congrArg (·, []) hwide)⟩
  rw [← htext]
  exact hread (hroom (by decide) (fun _ => by decide) (fun h => absurd h (by decide)))

end ArgaldOS.Printf
