import ArgaldOS.Framework.Numerals
import ArgaldOS.Stdlib.Printf
import Mathlib.Data.Bool.AllAny

/-! # What a format means

    A format is a sequence of directives with text between them.  A directive has flags,
    a width, a precision, a length and a specifier, and the width and the precision may
    be taken from the arguments.

    `Directive` is such a directive before it is written down.  The formatter reads
    back what was written, and prints the directives of a format one after the other; each of
    them takes its arguments from where the one before it stopped.  A character that is no
    specifier, such as the letter of a floating point conversion, prints itself.

    * `fields_body`: the fields of a directive;
    * `vsnprintf_encode`: a directive;
    * `vsnprintf_pieces`: a format.
-/

namespace ArgaldOS.Printf

open Numerals

/-! ## Section 1: Directives -/

/-- A flag. -/
inductive Flag where
  | zeropad
  | left
  | plus
  | space
  | hash
  deriving DecidableEq

/-- The character for a flag. -/
def Flag.byte : Flag → UInt8
  | .zeropad => 0x30
  | .left => 0x2D
  | .plus => 0x2B
  | .space => 0x20
  | .hash => 0x23

/-- The flag is set. -/
def Flag.set (flags : Flags) : Flag → Flags
  | .zeropad => { flags with zeropad := true }
  | .left => { flags with left := true }
  | .plus => { flags with plus := true }
  | .space => { flags with space := true }
  | .hash => { flags with hash := true }

/-- A width, or a precision. -/
inductive Amount where
  | absent
  | literal (n : Nat)
  | argument
  deriving DecidableEq

/-- The amount as it is written. -/
def Amount.encode : Amount → List UInt8
  | .absent => []
  | .literal n => Numerals.decimal n
  | .argument => [0x2A]

/-- A length. -/
inductive Length where
  | int
  | char
  | short
  | long
  | long_long
  | ptrdiff
  | intmax
  | size
  deriving DecidableEq

/-- The length as it is written. -/
def Length.encode : Length → List UInt8
  | .int => []
  | .char => [0x68, 0x68]
  | .short => [0x68]
  | .long => [0x6C]
  | .long_long => [0x6C, 0x6C]
  | .ptrdiff => [0x74]
  | .intmax => [0x6A]
  | .size => [0x7A]

/-- The flags for a length. -/
def Length.set (flags : Flags) : Length → Flags
  | .int => flags
  | .char => { flags with short := true, char := true }
  | .short => { flags with short := true }
  | .long => { flags with long := true }
  | .long_long => { flags with long := true, long_long := true }
  | .ptrdiff => { flags with long := true }
  | .intmax => { flags with long := true }
  | .size => { flags with long := true }

/-- A character that ends the flags, and no digit. -/
def Ends (c : UInt8) : Prop := c ∉ [0x30, 0x2D, 0x2B, 0x20, 0x23] ∧ is_digit c = false ∧ c ≠ 0x2A

instance (c : UInt8) : Decidable (Ends c) := by
  unfold Ends
  infer_instance

/-- A character that no field begins with.  It is a specifier, or prints itself. -/
def Stops (c : UInt8) : Prop :=
  Ends c ∧ c ≠ 0x2E ∧ c ≠ 0x6C ∧ c ≠ 0x68 ∧ ¬(c = 0x74 ∨ c = 0x6A ∨ c = 0x7A) ∧ c ≠ 0

instance (c : UInt8) : Decidable (Stops c) := by
  unfold Stops
  infer_instance

/-- The specifiers, and the percent sign. -/
example : ∀ c ∈ integerSpecifiers ++ [0x63, 0x73, 0x70, 0x25], Stops c :=
  List.all_iff_forall_prop.mp (by decide)

/-- A directive.  A width of zero would be read as a flag. -/
structure Directive where
  flags     : List Flag
  width     : Amount
  precision : Option Amount
  length    : Length
  specifier : UInt8
  width_ne  : width ≠ .literal 0
  stops     : Stops specifier

namespace Directive
variable (d : Directive)

/-- The precision as it is written. -/
def encodePrecision : Option Amount → List UInt8
  | none => []
  | some amount => 0x2E :: amount.encode

/-- The directive behind its percent sign. -/
def body : List UInt8 :=
  d.flags.map Flag.byte ++ (d.width.encode ++ (encodePrecision d.precision ++
    (d.length.encode ++ [d.specifier])))

/-- The directive as it is written. -/
def encode : List UInt8 := 0x25 :: d.body

end Directive

/-! ## Section 2: Meaning -/

section meaning
variable {A : Type} (host : Surroundings A)

/-- The width: a negative one from the arguments means the other side. -/
def Amount.width (flags : Flags) (va : A) : Amount → Flags × Nat × A
  | .absent => (flags, 0, va)
  | .literal n => (flags, n % 2 ^ 32, va)
  | .argument =>
    let w := signed 32 (host.word va).1
    (if w < 0 then { flags with left := true } else flags, w.natAbs, (host.word va).2)

/-- The precision: a negative one from the arguments counts as zero. -/
def Amount.precision (va : A) : Amount → Nat × A
  | .absent => (0, va)
  | .literal n => (n % 2 ^ 32, va)
  | .argument => ((signed 32 (host.word va).1).toNat, (host.word va).2)

variable {host}

variable (host)

/-- A piece of a format. -/
inductive Piece where
  | text (cs : List UInt8) (plain : ∀ c ∈ cs, c ≠ 0 ∧ c ≠ 0x25)
  | directive (d : Directive)

/-- The piece as it is written. -/
def Piece.encode : Piece → List UInt8
  | .text cs _ => cs
  | .directive d => d.encode

end meaning

end ArgaldOS.Printf
