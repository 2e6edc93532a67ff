import ArgaldOS.Framework.Runs
import ArgaldOS.Framework.Terminated
import ArgaldOS.Stdlib.String

/-! # The keyboard driver (`drivers/keyboard.c`)

    The handler of the keyboard interrupt is also the line editor of the shell:
    it collects the characters of a command in `wholeInput` and calls
    `process_command` when Enter is pressed.

    `wholeInput` is an array of 100 bytes.  In the model it is a function from
    indices to bytes, so that a write behind the array is a write like any
    other.  The state also keeps a history: the indices that were written, and
    the strings that were passed to `process_command`.
-/

namespace ArgaldOS

open Terminated

/-! ## Section 1: State -/

/-- The size of `wholeInput`. -/
def INPUT_SIZE : Nat := 100

/-- The globals of the driver, with their history. -/
structure KeyboardState where
  wholeInput  : Nat → UInt8
  inputLength : UInt32
  shifted     : Bool
  capslock    : Bool
  inScanf     : Bool
  /-- The indices of `wholeInput` that were written, oldest first. -/
  written     : List Nat
  /-- What `process_command` was called with, oldest call first. -/
  commands    : List CString

/-- The state at boot.  Nothing is known about the memory behind the array. -/
def keyboardBoot (behind : Nat → UInt8) : KeyboardState where
  wholeInput  := fun i => if i < INPUT_SIZE then 0 else behind i
  inputLength := 0
  shifted     := false
  capslock    := false
  inScanf     := false
  written     := []
  commands    := []

/-- An interrupt: what the two ports read as, and what `process_command`
    returns if the handler calls it. -/
structure KeyboardInterrupt where
  status    : UInt8
  scan_code : UInt8
  result    : Bool

namespace KeyboardState

/-- `wholeInput[i] = c`. -/
def store (s : KeyboardState) (i : Nat) (c : UInt8) : KeyboardState :=
  { s with
    wholeInput := Function.update s.wholeInput i c
    written    := s.written ++ [i] }

/-- `strlen(wholeInput)`: the loop leaves the array at index 100. -/
def strlen (s : KeyboardState) : Nat := scan 0 s.wholeInput INPUT_SIZE 0

/-- The string in `wholeInput`. -/
def text (s : KeyboardState) : CString := readFrom 0 s.wholeInput INPUT_SIZE 0

end KeyboardState

/-- `addCharToString(wholeInput, c)`. -/
def addCharToString (s : KeyboardState) (c : UInt8) : KeyboardState :=
  let i := s.strlen
  (s.store i c).store (i + 1) 0

/-! ## Section 2: Scan codes -/

/-- Character constants. -/
def ascii (cs : List Char) : List UInt8 := cs.map Char.toUInt8

/-- `characterTable`, row by row. -/
def characterTable : List UInt8 :=
  [0, 0] ++ ascii ['1', '2', '3', '4', '5', '6', '7', '8', '9', '0']
  ++ ascii ['-', '='] ++ [0, 0x09] ++ ascii ['q', 'w', 'e', 'r', 't', 'y', 'u', 'i']
  ++ ascii ['o', 'p', '[', ']'] ++ [0, 0] ++ ascii ['a', 's', 'd', 'f', 'g', 'h']
  -- 0x27 is the single quote, 0x60 the backquote, 0x5C the backslash
  ++ ascii ['j', 'k', 'l', ';'] ++ [0x27, 0x60, 0, 0x5C] ++ ascii ['z', 'x', 'c', 'v']
  ++ ascii ['b', 'n', 'm', ',', '.', '/'] ++ [0] ++ ascii ['*'] ++ [0] ++ ascii [' '] ++ [0, 0]
  ++ [0, 0, 0, 0, 0, 0, 0, 0, 0, 0, 0, 0]
  ++ [0, 0, 0, 0, 0, 0, 0, 0, 0x1B, 0, 0, 0]
  ++ [0, 0, 0, 0, 0, 0, 0, 0x0E, 0x1C, 0, 0, 0]
  ++ [0, 0, 0, 0, 0] ++ ascii ['/'] ++ [0, 0, 0, 0, 0, 0]
  ++ [0, 0, 0, 0, 0, 0, 0, 0, 0, 0, 0, 0]
  ++ [0x1E, 0x1F, 0x20, 0x21, 0x22, 0x23, 0x24, 0x25, 0x26, 0x27, 0x28, 0]
  ++ [0, 0, 0, 0, 0, 0, 0, 0x2C]

/-- `shiftedCharacterTable`, row by row. -/
def shiftedCharacterTable : List UInt8 :=
  [0, 0] ++ ascii ['!', '@', '#', '$', '%', '^', '&', '*', '(', ')']
  ++ ascii ['_', '+'] ++ [0, 0x09] ++ ascii ['Q', 'W', 'E', 'R', 'T', 'Y', 'U', 'I']
  -- 0x7B and 0x7D are the braces
  ++ ascii ['O', 'P'] ++ [0x7B, 0x7D, 0, 0] ++ ascii ['A', 'S', 'D', 'F', 'G', 'H']
  -- 0x22 is the double quote
  ++ ascii ['J', 'K', 'L', ':'] ++ [0x22] ++ ascii ['~'] ++ [0] ++ ascii ['|', 'Z', 'X', 'C', 'V']
  ++ ascii ['B', 'N', 'M', '<', '>', '?'] ++ [0] ++ ascii ['*'] ++ [0] ++ ascii [' '] ++ [0, 0]
  ++ [0, 0, 0, 0, 0, 0, 0, 0, 0, 0, 0, 0]
  ++ [0, 0, 0, 0, 0, 0, 0, 0, 0x1B, 0, 0, 0]
  ++ [0, 0, 0, 0, 0, 0, 0, 0x0E, 0x1C, 0, 0, 0]
  ++ [0, 0, 0, 0, 0] ++ ascii ['?'] ++ [0, 0, 0, 0, 0, 0]
  ++ [0, 0, 0, 0, 0, 0, 0, 0, 0, 0, 0, 0]
  ++ [0x1E, 0x1F, 0x20, 0x21, 0x22, 0x23, 0x24, 0x25, 0x26, 0x27, 0x28, 0]
  ++ [0, 0, 0, 0, 0, 0, 0, 0x2C]

/-- `convertScancode`: the character of a key press, and the state after it. -/
def convertScancode (s : KeyboardState) (scancode : UInt8) : UInt8 × KeyboardState :=
  if scancode = 0x0E then (0x08, s)
  else if scancode = 0x3A then
    -- The `inputLength` that is set to 0 here is a local variable.
    (0, { s with capslock := !s.capslock })
  else if scancode = 0x2A ∨ scancode = 0x36 then (0, { s with shifted := true })
  -- The next test of the code is for 0x0E again, which never gets here.
  else if scancode = 0x1C then (0, s)
  else
    let s' := { s with inputLength := s.inputLength + 1, shifted := false }
    if s.capslock || s.shifted then (shiftedCharacterTable.getD scancode.toNat 0, s')
    else (characterTable.getD scancode.toNat 0, s')

/-! ## Section 3: The interrupt handler -/

/-- Enter, while the shell is active. -/
def runCommand (s : KeyboardState) (result : Bool) : KeyboardState :=
  let s := addCharToString s 0
  let s := { s with commands := s.commands ++ [s.text] }
  let s := { s with inScanf := !result }
  s.store 0 0

/-- A key press, while the shell is active. -/
def handleKey (s : KeyboardState) (scan_code : UInt8) : KeyboardState :=
  let combined := (convertScancode s scan_code).1
  let s := (convertScancode s scan_code).2
  if combined ≠ 0 then
    if combined = 0x08 then
      if s.strlen = 0 then s else s.store (s.strlen - 1) 0
    else addCharToString s combined
  else s

/-- `isr_keyboard`. -/
def isr_keyboard (s : KeyboardState) (e : KeyboardInterrupt) : KeyboardState :=
  if e.status &&& 0x01 ≠ 0 then
    let s :=
      if e.scan_code = 28 ∧ s.inScanf then runCommand s e.result
      else if e.scan_code = 59 then { s with inScanf := true }
      else s
    if e.scan_code &&& 0x80 = 0 ∧ s.inScanf then handleKey s e.scan_code else s
  else s

end ArgaldOS
