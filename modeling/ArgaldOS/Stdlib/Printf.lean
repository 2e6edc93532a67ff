import ArgaldOS.Stdlib.String
import Mathlib.Algebra.Group.Nat.Defs
import Mathlib.Tactic.Common

/-! # The formatter (`stdlib/printf.c`)

    `_vsnprintf` hands the characters of a message to an output function, one by
    one; here it is the list of these characters.  The arguments and the strings in
    memory come from the surroundings.

    The kernel is built with `PRINTF_DISABLE_SUPPORT_FLOAT`, `_EXPONENTIAL` and
    `_LONG_LONG` (`GNUmakefile`): the letters of the floating point conversions are
    no specifiers, and with the length `ll` an integer conversion prints nothing and
    takes no argument.

    A conversion that ends with the format prints its terminator, and the
    program then reads on behind it.  A format stands for all that lies in memory
    from its first character on, as far as that is known.

    * `length_fields_le`: a conversion does not go back in the format;
    * `vsnprintf_percent`: one conversion, and then the rest of the format;
    * `vsnprintf_plain`: a format without conversions prints itself;
    * `vsnprintf_integer`: an integer takes one argument.
-/

namespace ArgaldOS.Printf

/-! ## Section 1: Fields of a conversion -/

/-- `flags`. -/
structure Flags where
  zeropad   : Bool := false
  left      : Bool := false
  plus      : Bool := false
  space     : Bool := false
  hash      : Bool := false
  uppercase : Bool := false
  char      : Bool := false
  short     : Bool := false
  long      : Bool := false
  long_long : Bool := false
  precision : Bool := false

/-- What a message depends on besides its format.  `A` is the type of the
    argument lists. -/
structure Surroundings (A : Type) where
  /-- `va_arg`, and the list behind it. -/
  word   : A → UInt64 × A
  /-- The string at an address. -/
  string : UInt64 → CString

/-- The local variables of `_vsnprintf` during a conversion. -/
structure Conversion (A : Type) where
  flags     : Flags
  width     : Nat
  precision : Nat
  format    : List UInt8
  va        : A

/-- `*format`. -/
def Conversion.next {A : Type} (s : Conversion A) : UInt8 := s.format.headD 0

/-- `_is_digit`. -/
def is_digit (ch : UInt8) : Bool := 0x30 ≤ ch && ch ≤ 0x39

/-- `_atoi`: the number and the rest of the string. -/
def atoi : List UInt8 → Nat → Nat × List UInt8
  | [], i => (i, [])
  | ch :: str, i =>
    if is_digit ch then atoi str ((i * 10 + (ch.toNat - 0x30)) % 2 ^ 32) else (i, ch :: str)

/-- The low bits of an argument, as a signed number. -/
def signed (bits : Nat) (word : UInt64) : Int := (BitVec.ofNat bits word.toNat).toInt

/-- The low bits of an argument, as an unsigned number. -/
def unsigned (bits : Nat) (word : UInt64) : Nat := word.toNat % 2 ^ bits

/-- The flags at the start of a format, and what follows. -/
def parseFlags : List UInt8 → Flags → Flags × List UInt8
  | [], flags => (flags, [])
  | c :: format, flags =>
    if c = 0x30 then parseFlags format { flags with zeropad := true }
    else if c = 0x2D then parseFlags format { flags with left := true }
    else if c = 0x2B then parseFlags format { flags with plus := true }
    else if c = 0x20 then parseFlags format { flags with space := true }
    else if c = 0x23 then parseFlags format { flags with hash := true }
    else (flags, c :: format)

section fields
variable {A : Type} (host : Surroundings A)

/-- The width field. -/
def parseWidth (s : Conversion A) : Conversion A :=
  if is_digit s.next then
    { s with width := (atoi s.format 0).1, format := (atoi s.format 0).2 }
  else if s.next = 0x2A then
    let w := signed 32 (host.word s.va).1
    { s with
      flags  := if w < 0 then { s.flags with left := true } else s.flags
      width  := w.natAbs
      format := s.format.tail
      va     := (host.word s.va).2 }
  else s

/-- The number behind the point of the precision field. -/
def parseDigits (s : Conversion A) : Conversion A :=
  if is_digit s.next then
    { s with precision := (atoi s.format 0).1, format := (atoi s.format 0).2 }
  else if s.next = 0x2A then
    { s with
      precision := (signed 32 (host.word s.va).1).toNat
      format    := s.format.tail
      va        := (host.word s.va).2 }
  else s

/-- The precision field. -/
def parsePrecision (s : Conversion A) : Conversion A :=
  if s.next = 0x2E then
    parseDigits host
      { s with flags := { s.flags with precision := true }, format := s.format.tail }
  else s

/-- The length field, where `ptrdiff_t`, `intmax_t` and `size_t` are as large as `long`. -/
def parseLength (s : Conversion A) : Conversion A :=
  let long : Conversion A :=
    { s with flags := { s.flags with long := true }, format := s.format.tail }
  let short : Conversion A :=
    { s with flags := { s.flags with short := true }, format := s.format.tail }
  if s.next = 0x6C then
    if long.next = 0x6C then
      { long with flags := { long.flags with long_long := true }, format := long.format.tail }
    else long
  else if s.next = 0x68 then
    if short.next = 0x68 then
      { short with flags := { short.flags with char := true }, format := short.format.tail }
    else short
  else if s.next = 0x74 ∨ s.next = 0x6A ∨ s.next = 0x7A then long
  else s

end fields

/-! ## Section 2: Numbers -/

/-- Spaces up to the width. -/
def pad (width len : Nat) : List UInt8 := List.replicate (width - len) 0x20

/-- `_out_rev`. -/
def out_rev (buf : List UInt8) (width : Nat) (flags : Flags) : List UInt8 :=
  (if flags.left || flags.zeropad then [] else pad width buf.length) ++ buf.reverse ++
    (if flags.left then pad width buf.length else [])

/-- `buf[len++] = c`, where there is room for it (`PRINTF_NTOA_BUFFER_SIZE`). -/
def put (buf : List UInt8) (c : UInt8) : List UInt8 :=
  if buf.length < 32 then buf ++ [c] else buf

/-- Zeros up to a length. -/
def padZeros (buf : List UInt8) (len : Nat) : List UInt8 :=
  buf ++ List.replicate (min len 32 - buf.length) 0x30

/-- The prefix of the `#` flag, which may take the place of padding zeros. -/
def putHash (buf : List UInt8) (base prec width : Nat) (flags : Flags) : List UInt8 :=
  let buf :=
    if !flags.precision && buf ≠ [] && (buf.length = prec || buf.length = width) then
      if buf.dropLast ≠ [] && base = 16 then buf.dropLast.dropLast else buf.dropLast
    else buf
  let buf :=
    if base = 16 then put buf (if flags.uppercase then 0x58 else 0x78)
    else if base = 2 then put buf 0x62
    else buf
  put buf 0x30

/-- The sign. -/
def putSign (buf : List UInt8) (negative : Bool) (flags : Flags) : List UInt8 :=
  if negative then put buf 0x2D
  else if flags.plus then put buf 0x2B
  else if flags.space then put buf 0x20
  else buf

/-- `_ntoa_format`. -/
def ntoa_format (buf : List UInt8) (negative : Bool) (base prec width : Nat) (flags : Flags) :
    List UInt8 :=
  let width :=
    if !flags.left && width ≠ 0 && flags.zeropad && (negative || flags.plus || flags.space) then
      width - 1
    else width
  let buf := if flags.left then buf else padZeros buf prec
  let buf := if !flags.left && flags.zeropad then padZeros buf width else buf
  let buf := if flags.hash then putHash buf base prec width flags else buf
  out_rev (putSign buf negative flags) width flags

/-- The digits, the last one first. -/
def ntoa_digits (uppercase : Bool) (base : Nat) : Nat → Nat → List UInt8
  | 0, _ => []
  | room + 1, value =>
    let digit := value % base
    (if digit < 10 then UInt8.ofNat (0x30 + digit)
      else UInt8.ofNat ((if uppercase then 0x41 else 0x61) + digit - 10)) ::
      if value / base = 0 then [] else ntoa_digits uppercase base room (value / base)

/-- `_ntoa_long`. -/
def ntoa_long (value : Nat) (negative : Bool) (base prec width : Nat) (flags : Flags) :
    List UInt8 :=
  let flags := if value = 0 then { flags with hash := false } else flags
  let buf :=
    if !flags.precision || value ≠ 0 then ntoa_digits flags.uppercase base 32 value else []
  ntoa_format buf negative base prec width flags

/-! ## Section 3: The formatter -/

section formatter
variable {A : Type} (host : Surroundings A)

/-- The base of an integer conversion. -/
def baseOf (specifier : UInt8) : Nat :=
  if specifier = 0x78 ∨ specifier = 0x58 then 16
  else if specifier = 0x6F then 8
  else if specifier = 0x62 then 2
  else 10

/-- `d` and `i`. -/
def isSigned (specifier : UInt8) : Bool := specifier == 0x64 || specifier == 0x69

/-- The flags that an integer conversion goes by. -/
def integerFlags (specifier : UInt8) (flags : Flags) : Flags :=
  { flags with
    hash      := flags.hash && baseOf specifier ≠ 10
    uppercase := flags.uppercase || specifier == 0x58
    plus      := flags.plus && isSigned specifier
    space     := flags.space && isSigned specifier
    zeropad   := flags.zeropad && !flags.precision }

/-- The size of an integer argument. -/
def argumentBits (flags : Flags) : Nat :=
  if flags.long then 64
  else if flags.char then 8
  else if flags.short then 16
  else 32

/-- `d`, `i`, `u`, `x`, `X`, `o` and `b`: the text of an argument. -/
def integerText (specifier : UInt8) (precision width : Nat) (flags : Flags) (word : UInt64) :
    List UInt8 :=
  let flags := integerFlags specifier flags
  if isSigned specifier then
    let value := signed (argumentBits flags) word
    ntoa_long value.natAbs (value < 0) (baseOf specifier) precision width flags
  else
    ntoa_long (unsigned (argumentBits flags) word) false (baseOf specifier) precision width flags

/-- An integer conversion.  There is no code for `long long`. -/
def integer (s : Conversion A) : List UInt8 × A :=
  if s.flags.long_long then ([], s.va)
  else (integerText s.next s.precision s.width s.flags (host.word s.va).1, (host.word s.va).2)

/-- Text between its spaces. -/
def padded (s : Conversion A) (len : Nat) (text : List UInt8) : List UInt8 :=
  (if s.flags.left then [] else pad s.width len) ++ text ++
    (if s.flags.left then pad s.width len else [])

/-- `c`. -/
def character (s : Conversion A) : List UInt8 × A :=
  (padded s 1 [(host.word s.va).1.toUInt8], (host.word s.va).2)

/-- `_strnlen_s`. -/
def strnlen_s (str : CString) (maxsize : Nat) : Nat := min str.length maxsize

/-- `s`. -/
def string (s : Conversion A) : List UInt8 × A :=
  let p := host.string (host.word s.va).1
  let l := if s.precision ≠ 0 then strnlen_s p s.precision else p.length
  let l := if s.flags.precision then min l s.precision else l
  (padded s l (if s.flags.precision then p.take s.precision else p), (host.word s.va).2)

/-- `p`. -/
def pointer (s : Conversion A) : List UInt8 × A :=
  let flags := { s.flags with zeropad := true, uppercase := true }
  (ntoa_long (host.word s.va).1.toNat false 16 s.precision 16 flags, (host.word s.va).2)

/-- The specifiers `d`, `i`, `u`, `x`, `X`, `o` and `b`. -/
def integerSpecifiers : List UInt8 := [0x64, 0x69, 0x75, 0x78, 0x58, 0x6F, 0x62]

/-- The specifier.  The percent sign prints itself, as does any character that
    is no specifier. -/
def specifier (s : Conversion A) : List UInt8 × A :=
  if s.next ∈ integerSpecifiers then integer host s
  else if s.next = 0x63 then character host s
  else if s.next = 0x73 then string host s
  else if s.next = 0x70 then pointer host s
  else ([s.next], s.va)

/-- The fields of a conversion, behind its percent sign. -/
def fields (format : List UInt8) (va : A) : Conversion A :=
  let flags := parseFlags format {}
  parseLength (parsePrecision host (parseWidth host ⟨flags.1, 0, 0, flags.2, va⟩))

/-- The loop over the format; every pass consumes a character of it. -/
def formatLoop : Nat → List UInt8 → A → List UInt8
  | 0, _, _ => []
  | _ + 1, [], _ => []
  | n + 1, c :: format, va =>
    if c = 0 then []
    else if c ≠ 0x25 then c :: formatLoop n format va
    else
      let s := fields host format va
      (specifier host s).1 ++ formatLoop n s.format.tail (specifier host s).2

/-- `_vsnprintf`: the characters that are handed to the output function, without
    the terminator. -/
def vsnprintf (format : CString) (va : A) : CString :=
  formatLoop host format.length format va

/-! ## Section 4: How a format is read -/

theorem length_parseFlags_le (format : List UInt8) (flags : Flags) :
    (parseFlags format flags).2.length ≤ format.length := by
  induction format generalizing flags with
  | nil => exact Nat.le_refl 0
  | cons c format ih =>
    have hskip : ∀ flags, (parseFlags format flags).2.length ≤ (c :: format).length :=
      fun flags => Nat.le_succ_of_le (ih flags)
    unfold parseFlags
    split_ifs
    all_goals first | exact hskip _ | exact Nat.le_refl _

theorem length_atoi_le (str : List UInt8) (i : Nat) : (atoi str i).2.length ≤ str.length := by
  induction str generalizing i with
  | nil => exact Nat.le_refl 0
  | cons ch str ih =>
    unfold atoi
    split_ifs
    · exact Nat.le_succ_of_le (ih _)
    · exact Nat.le_refl _

theorem length_tail_le (format : List UInt8) : format.tail.length ≤ format.length := by
  rw [List.length_tail]
  exact Nat.sub_le _ _

theorem length_parseWidth_le (s : Conversion A) :
    (parseWidth host s).format.length ≤ s.format.length := by
  unfold parseWidth
  split_ifs
  · exact length_atoi_le _ _
  · exact length_tail_le _
  · exact Nat.le_refl _

theorem length_parsePrecision_le (s : Conversion A) :
    (parsePrecision host s).format.length ≤ s.format.length := by
  have hdigits : ∀ s : Conversion A, (parseDigits host s).format.length ≤ s.format.length := by
    intro s
    unfold parseDigits
    split_ifs
    · exact length_atoi_le _ _
    · exact length_tail_le _
    · exact Nat.le_refl _
  unfold parsePrecision
  split_ifs
  · exact (hdigits _).trans (length_tail_le _)
  · exact Nat.le_refl _

theorem length_parseLength_le (s : Conversion A) :
    (parseLength s).format.length ≤ s.format.length := by
  have htwo : s.format.tail.tail.length ≤ s.format.length :=
    (length_tail_le _).trans (length_tail_le _)
  unfold parseLength
  dsimp only
  split_ifs
  all_goals first | exact htwo | exact length_tail_le _ | exact Nat.le_refl _

/-- **A conversion does not go back** in the format. -/
theorem length_fields_le (format : List UInt8) (va : A) :
    (fields host format va).format.length ≤ format.length :=
  (length_parseLength_le _).trans <| (length_parsePrecision_le host _).trans <|
    (length_parseWidth_le host _).trans (length_parseFlags_le format {})

/-- As many passes as the format has characters are enough. -/
theorem formatLoop_enough {n m : Nat} {format : List UInt8} (hn : format.length ≤ n)
    (hm : format.length ≤ m) (va : A) :
    formatLoop host n format va = formatLoop host m format va := by
  induction n generalizing m format va with
  | zero =>
    obtain rfl := List.length_eq_zero_iff.mp (Nat.le_zero.mp hn)
    cases m <;> rfl
  | succ n ih =>
    cases format with
    | nil => cases m <;> rfl
    | cons c format =>
      cases m with
      | zero => exact absurd hm (Nat.not_succ_le_zero _)
      | succ m =>
        have hn' : format.length ≤ n := Nat.le_of_succ_le_succ hn
        have hm' : format.length ≤ m := Nat.le_of_succ_le_succ hm
        have hrest : (fields host format va).format.tail.length ≤ format.length :=
          (length_tail_le _).trans (length_fields_le host format va)
        simp only [formatLoop]
        rw [ih hn' hm', ih (hrest.trans hn') (hrest.trans hm')]

theorem vsnprintf_nil (va : A) : vsnprintf host [] va = [] := rfl

/-- **A character** that starts no conversion prints itself. -/
theorem vsnprintf_cons {c : UInt8} (hnul : c ≠ 0) (hpercent : c ≠ 0x25) (format : CString)
    (va : A) : vsnprintf host (c :: format) va = c :: vsnprintf host format va := by
  show (if c = 0 then [] else if c ≠ 0x25 then _ else _) = _
  rw [if_neg hnul, if_pos hpercent]
  rfl

/-- **A conversion** is followed by the rest of the format, with the arguments
    that it left. -/
theorem vsnprintf_percent (format : CString) (va : A) :
    vsnprintf host (0x25 :: format) va =
      (specifier host (fields host format va)).1 ++
        vsnprintf host (fields host format va).format.tail
          (specifier host (fields host format va)).2 := by
  have hrest : (fields host format va).format.tail.length ≤ format.length :=
    (length_tail_le _).trans (length_fields_le host format va)
  unfold vsnprintf
  rw [formatLoop_enough host (Nat.le_refl _) hrest]
  rfl

/-- Characters that start no conversion, and then the rest of the format. -/
theorem vsnprintf_append {text : CString} (h : ∀ c ∈ text, c ≠ 0 ∧ c ≠ 0x25) (format : CString)
    (va : A) : vsnprintf host (text ++ format) va = text ++ vsnprintf host format va := by
  induction text with
  | nil => rfl
  | cons c text ih =>
    obtain ⟨hnul, hpercent⟩ := h c List.mem_cons_self
    rw [List.cons_append, vsnprintf_cons host hnul hpercent,
      ih fun d hd => h d (List.mem_cons_of_mem c hd), List.cons_append]

/-- **A format without conversions** prints itself, whatever the arguments. -/
theorem vsnprintf_plain {format : CString} (h : ∀ c ∈ format, c ≠ 0 ∧ c ≠ 0x25) (va : A) :
    vsnprintf host format va = format := by
  have happend := vsnprintf_append host h [] va
  rwa [List.append_nil, vsnprintf_nil, List.append_nil] at happend

/-- **An integer** without flags, width, precision and length takes one argument. -/
theorem vsnprintf_integer {c : UInt8} (hc : c ∈ integerSpecifiers) (format : CString) (va : A) :
    vsnprintf host (0x25 :: c :: format) va =
      integerText c 0 0 {} (host.word va).1 ++ vsnprintf host format (host.word va).2 := by
  have hfields : fields host (c :: format) va = ⟨{}, 0, 0, c :: format, va⟩ := by
    simp only [integerSpecifiers, List.mem_cons, List.not_mem_nil, or_false] at hc
    rcases hc with rfl | rfl | rfl | rfl | rfl | rfl | rfl <;> rfl
  have hspecifier : specifier host ⟨{}, 0, 0, c :: format, va⟩ =
      integer host ⟨{}, 0, 0, c :: format, va⟩ := if_pos hc
  rw [vsnprintf_percent, hfields, hspecifier]
  rfl

end formatter

/-- The digits of 0 and 1 are the same in all bases. -/
theorem integerText_bit : ∀ c ∈ integerSpecifiers,
    integerText c 0 0 {} 0 = [0x30] ∧ integerText c 0 0 {} 1 = [0x31] := by decide +kernel

end ArgaldOS.Printf
