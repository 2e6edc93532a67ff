import ArgaldOS.Console.Serial
import ArgaldOS.Stdlib.Printf

/-! # Kernel messages (`kernel/printk.c`)

    `printk` formats a message for the terminal, and once more for the serial
    port, into a buffer of 1024 bytes.  The formatter is a function from a format
    and an argument list to the characters that it hands over one by one; the
    argument lists may be of any type.

    The first call gets the arguments of `printk`.  The second is a call of
    `snprintf` with the `va_list` itself as its one argument: the arguments that
    it sees are the address of that list, and then whatever the registers and
    the stack hold.  They are a parameter (`passed`), and so is the content of
    the buffer before.

    * `snprintf_stores`: the string in the buffer;
    * `printk_ends`, `kdebug_ends`: what is sent to the two consoles;
    * `outputsAgree_iff`: the messages that are the same on both;
    * `outputsAgree_plain`, `not_ignoresArguments_integer`: messages without
      conversions are, messages that begin with an integer never.
-/

namespace ArgaldOS

open Program Terminated

/-! ## Section 1: The sinks of the formatter -/

/-- `_out_char`: null characters are left out. -/
def out_char (terminal : List UInt8) (character : UInt8) : List UInt8 :=
  if character ≠ 0 then terminal ++ [character] else terminal

/-- `_out_buffer`. -/
def out_buffer (maxlen : Nat) (buffer : Nat → UInt8) (idx : Nat) (character : UInt8) :
    Nat → UInt8 :=
  if idx < maxlen then Function.update buffer idx character else buffer

/-- The characters from index `idx` on, one after the other. -/
def fillBuffer (maxlen : Nat) : List UInt8 → Nat → (Nat → UInt8) → Nat → UInt8
  | [], _, buffer => buffer
  | character :: text, idx, buffer =>
    fillBuffer maxlen text (idx + 1) (out_buffer maxlen buffer idx character)

section printk
variable {A : Type} (formatter : CString → A → CString)

/-- `vprintf`: the last character is the terminator. -/
def vprintf (format : CString) (va : A) : Program Console Nat :=
  step fun c =>
    ((formatter format va).length,
      { c with terminal := (formatter format va ++ [0]).foldl out_char c.terminal })

/-- `snprintf`: the buffer after the call. -/
def snprintf (buffer : Nat → UInt8) (count : Nat) (format : CString) (va : A) : Nat → UInt8 :=
  let text := formatter format va
  out_buffer count (fillBuffer count text 0 buffer)
    (if text.length < count then text.length else count - 1) 0

/-! ## Section 2: Messages -/

/-- `printk`. -/
def printk (serial_output : Bool) (format : CString) (args passed : A) (buffer : Nat → UInt8) :
    Program Console Nat := do
  let ret ← vprintf formatter format args
  if serial_output then
    writeserial (snprintf formatter buffer 1024 format passed)
  return ret

/-- `kdebug`. -/
def kdebug (debug serial_output : Bool) (format : CString) (args passed : A)
    (buffer : Nat → UInt8) : Program Console Nat :=
  if debug then do
    let ret ← vprintf formatter format args
    if serial_output then
      writeserial (snprintf formatter buffer 1024 format passed)
    return ret
  else return 0

/-- The text that is sent to the terminal. -/
def terminalText (format : CString) (args : A) : CString :=
  (formatter format args).filter (· ≠ 0)

/-- **The outputs agree**: the string that is passed to `writeserial` is the text
    on the terminal, up to 1023 characters of it, and the port gets that string
    with its line feeds replaced. -/
structure OutputsAgree (format : CString) (args passed : A) : Prop where
  passes : ∀ buffer, Stores 0 (snprintf formatter buffer 1024 format passed)
    ((terminalText formatter format args).take 1023)
  printk : ∀ buffer c, Ready c → Ends (printk formatter true format args passed buffer) c
    fun _ c' => c'.terminal = c.terminal ++ terminalText formatter format args ∧
      c'.port = c.port ++ crlf ((terminalText formatter format args).take 1023)
  kdebug : ∀ buffer c, Ready c → Ends (kdebug formatter true true format args passed buffer) c
    fun _ c' => c'.terminal = c.terminal ++ terminalText formatter format args ∧
      c'.port = c.port ++ crlf ((terminalText formatter format args).take 1023)

/-! ## Section 3: What the consoles get -/

/-- The string in a buffer of 1024 bytes: it ends with the first null character,
    which a conversion may have printed. -/
def shown (text : CString) : CString := (text.take 1023).takeWhile (· ≠ 0)

theorem foldl_out_char (text terminal : List UInt8) :
    text.foldl out_char terminal = terminal ++ text.filter (· ≠ 0) := by
  induction text generalizing terminal with
  | nil => rw [List.foldl_nil, List.filter_nil, List.append_nil]
  | cons c text ih =>
    rw [List.foldl_cons, ih, out_char]
    by_cases hc : c ≠ 0
    · rw [if_pos hc, List.filter_cons_of_pos (by simpa using hc), List.append_assoc,
        List.singleton_append]
    · rw [if_neg hc, List.filter_cons_of_neg (by simpa using hc)]

/-- A cell of the buffer after the characters from index `idx` on. -/
theorem fillBuffer_eq (maxlen : Nat) (text : List UInt8) (idx : Nat) (buffer : Nat → UInt8)
    {i : Nat} (hi : i < maxlen) :
    fillBuffer maxlen text idx buffer i =
      if idx ≤ i then text[i - idx]?.getD (buffer i) else buffer i := by
  induction text generalizing idx buffer with
  | nil => rw [fillBuffer, List.getElem?_nil, Option.getD_none, ite_self]
  | cons c text ih =>
    rw [fillBuffer, ih, out_buffer]
    rcases Nat.lt_trichotomy i idx with hlt | rfl | hlt
    · rw [if_neg (Nat.not_le.mpr (Nat.lt_succ_of_lt hlt)), if_neg (Nat.not_le.mpr hlt)]
      by_cases hidx : idx < maxlen
      · rw [if_pos hidx, Function.update_of_ne (by omega)]
      · rw [if_neg hidx]
    · rw [if_neg (Nat.not_succ_le_self i), if_pos (Nat.le_refl i), if_pos hi,
        Function.update_self, Nat.sub_self, List.getElem?_cons_zero, Option.getD_some]
    · have hnext : i - idx = i - (idx + 1) + 1 := by omega
      rw [if_pos (Nat.succ_le_of_lt hlt), if_pos (Nat.le_of_lt hlt),
        if_pos (Nat.lt_trans hlt hi), hnext, List.getElem?_cons_succ,
        Function.update_of_ne (by omega)]

/-- **The string in the buffer**: the first characters, up to a null character
    that is printed among them. -/
theorem snprintf_stores (buffer : Nat → UInt8) {count : Nat} (h : 0 < count) (format : CString)
    (va : A) :
    Stores 0 (snprintf formatter buffer count format va)
      (((formatter format va).take (count - 1)).takeWhile (· ≠ 0)) := by
  have hlen : ((formatter format va).take (count - 1)).length =
      if (formatter format va).length < count then (formatter format va).length
      else count - 1 := by
    rw [List.length_take]
    split <;> omega
  have hcount : ((formatter format va).take (count - 1)).length < count := by
    rw [List.length_take]
    omega
  apply stores_takeWhile
  · intro i hi
    have hchar : i < (formatter format va).length := by
      rw [List.length_take] at hi
      omega
    rw [snprintf, out_buffer, ← hlen, if_pos hcount, Function.update_of_ne (by omega),
      fillBuffer_eq count _ 0 buffer (by omega), if_pos (Nat.zero_le i), Nat.sub_zero,
      List.getElem?_eq_getElem hchar, Option.getD_some, List.getElem_take]
  · rw [snprintf, out_buffer, ← hlen, if_pos hcount, Function.update_self]

theorem vprintf_ends (format : CString) (va : A) (c : Console) :
    Ends (vprintf formatter format va) c fun ret c' => ret = (formatter format va).length ∧
      c' = { c with terminal := c.terminal ++ terminalText formatter format va } := by
  apply Ends.step
  have hnul : [(0 : UInt8)].filter (· ≠ 0) = [] := rfl
  rw [foldl_out_char, List.filter_append, hnul, List.append_nil]
  exact ⟨rfl, rfl⟩

/-- **A message**: the terminal gets the text of the arguments, the port that of
    what is passed in their place. -/
theorem printk_ends (format : CString) (args passed : A) (buffer : Nat → UInt8) {c : Console}
    (hready : Ready c) :
    Ends (printk formatter true format args passed buffer) c fun ret c' =>
      ret = (formatter format args).length ∧
      c'.terminal = c.terminal ++ terminalText formatter format args ∧
      c'.port = c.port ++ crlf (shown (formatter format passed)) := by
  apply Ends.bind
  apply (vprintf_ends formatter format args c).mono
  rintro ret c₁ ⟨hret, rfl⟩
  apply Ends.bind
  have hstores : Stores 0 (snprintf formatter buffer 1024 format passed)
      (shown (formatter format passed)) :=
    snprintf_stores formatter buffer (by decide) format passed
  have hready₁ : Ready { c with terminal := c.terminal ++ terminalText formatter format args } :=
    hready
  apply (writeserial_ends hstores hready₁).mono
  intro _ c₂ hsent
  apply Ends.pure
  exact ⟨hret, hsent.terminal, hsent.port⟩

/-- **A debug message** with `kernel.debug` on is a message. -/
theorem kdebug_eq (serial_output : Bool) (format : CString) (args passed : A)
    (buffer : Nat → UInt8) :
    kdebug formatter true serial_output format args passed buffer =
      printk formatter serial_output format args passed buffer := rfl

/-! ## Section 4: When the consoles agree -/

/-- The outputs agree exactly if the two calls fill a buffer of 1024 bytes with
    the same string, and the terminal drops no null character from the middle
    of it. -/
theorem outputsAgree_of_passed (format : CString) (args passed : A) :
    OutputsAgree formatter format args passed ↔
      shown (formatter format passed) = (terminalText formatter format args).take 1023 := by
  constructor
  · intro h
    exact (snprintf_stores formatter (fun _ => 0) (by decide) format passed).unique (h.passes _)
  · intro h
    have hprintk : ∀ buffer c, Ready c →
        Ends (printk formatter true format args passed buffer) c fun _ c' =>
          c'.terminal = c.terminal ++ terminalText formatter format args ∧
          c'.port = c.port ++ crlf ((terminalText formatter format args).take 1023) := by
      intro buffer c hready
      apply (printk_ends formatter format args passed buffer hready).mono
      rintro ret c' ⟨-, hterminal, hport⟩
      rw [h] at hport
      exact ⟨hterminal, hport⟩
    constructor
    · intro buffer
      rw [← h]
      exact snprintf_stores formatter buffer (by decide) format passed
    · exact hprintk
    · intro buffer c hready
      rw [kdebug_eq]
      exact hprintk buffer c hready

/-- Another argument list does not change what fits into the buffer. -/
def IgnoresArguments (format : CString) (args : A) : Prop :=
  ∀ passed, shown (formatter format passed) = shown (formatter format args)

/-- **Console and serial output agree**, whatever the second call finds in place
    of the arguments, exactly for the messages that do not depend on their
    arguments and print no null character in front of another one. -/
theorem outputsAgree_iff (format : CString) (args : A) :
    (∀ passed, OutputsAgree formatter format args passed) ↔
      IgnoresArguments formatter format args ∧ NulsLast 0 1023 (formatter format args) := by
  have hnuls : shown (formatter format args) = (terminalText formatter format args).take 1023 ↔
      NulsLast 0 1023 (formatter format args) := takeWhile_take_eq_iff 0 1023 _
  constructor
  · intro h
    have hself := (outputsAgree_of_passed formatter format args args).mp (h args)
    constructor
    · intro passed
      rw [(outputsAgree_of_passed formatter format args passed).mp (h passed), hself]
    · exact hnuls.mp hself
  · rintro ⟨hignores, hlast⟩ passed
    apply (outputsAgree_of_passed formatter format args passed).mpr
    rw [hignores passed]
    exact hnuls.mpr hlast

end printk

/-- Arguments of one word each, and nothing else. -/
def wordArguments : Printf.Surroundings (Nat → UInt64) where
  word   := fun va => (va 0, fun i => va (i + 1))
  string := fun _ => []

/-- `printk("%d", 5)`: the port gets the low half of an address, as a decimal
    number. -/
theorem not_outputsAgree_decimal :
    ¬ OutputsAgree (Printf.vsnprintf wordArguments) [0x25, 0x64] (fun _ => 5)
      (fun _ => 0xFFFF800000012340) := by
  intro h
  have hshown := (outputsAgree_of_passed _ _ _ _).mp h
  revert hshown
  decide

/-- **A message without conversions** is the same on both consoles. -/
theorem outputsAgree_plain {A : Type} (host : Printf.Surroundings A) {format : CString}
    (h : ∀ c ∈ format, c ≠ 0 ∧ c ≠ 0x25) (args passed : A) :
    OutputsAgree (Printf.vsnprintf host) format args passed := by
  apply (outputsAgree_of_passed _ _ _ _).mpr
  have hplain : ∀ va, Printf.vsnprintf host format va = format := Printf.vsnprintf_plain host h
  have hnuls : NulsLast 0 1023 format := by
    intro k _ hnul
    exact absurd rfl (h 0 (List.mem_of_getElem? hnul)).1
  unfold shown terminalText
  rw [hplain passed, hplain args]
  exact (takeWhile_take_eq_iff 0 1023 format).mpr hnuls

/-- The character behind a text without null characters is shown if there is
    room for it. -/
theorem getElem?_shown_append {text : CString} (h : ∀ c ∈ text, c ≠ 0)
    (hlen : text.length < 1023) {c : UInt8} (hc : c ≠ 0) (rest : CString) :
    (shown (text ++ c :: rest))[text.length]? = some c := by
  obtain ⟨room, hroom⟩ := Nat.exists_eq_add_of_lt hlen
  have htake : (text ++ c :: rest).take 1023 = text ++ c :: rest.take room := by
    rw [hroom, Nat.add_assoc, List.take_append, List.take_of_length_le (by omega),
      Nat.add_sub_cancel_left, List.take_succ_cons]
  have hall : ∀ d ∈ text, decide (d ≠ 0) = true := by
    intro d hd
    simpa using h d hd
  unfold shown
  rw [htake, List.takeWhile_append_of_pos hall, List.takeWhile_cons_of_pos (by simpa using hc),
    List.getElem?_append_right (Nat.le_refl _), Nat.sub_self, List.getElem?_cons_zero]

/-- **A message whose first conversion is an integer** depends on its arguments:
    there are argument lists that begin with 0 and with 1. -/
theorem not_ignoresArguments_integer {A : Type} (host : Printf.Surroundings A) {text : CString}
    (h : ∀ c ∈ text, c ≠ 0 ∧ c ≠ 0x25) (hlen : text.length < 1023) {c : UInt8}
    (hc : c ∈ Printf.integerSpecifiers) (format : CString) {va₀ va₁ : A}
    (h₀ : (host.word va₀).1 = 0) (h₁ : (host.word va₁).1 = 1) (args : A) :
    ¬ IgnoresArguments (Printf.vsnprintf host) (text ++ 0x25 :: c :: format) args := by
  intro hignores
  obtain ⟨hzero, hone⟩ := Printf.integerText_bit c hc
  have hplain : ∀ d ∈ text, d ≠ 0 := fun d hd => (h d hd).1
  have hshown : shown (Printf.vsnprintf host (text ++ 0x25 :: c :: format) va₀) =
      shown (Printf.vsnprintf host (text ++ 0x25 :: c :: format) va₁) :=
    (hignores va₀).trans (hignores va₁).symm
  rw [Printf.vsnprintf_append host h, Printf.vsnprintf_append host h,
    Printf.vsnprintf_integer host hc, Printf.vsnprintf_integer host hc, h₀, h₁, hzero, hone,
    List.singleton_append, List.singleton_append] at hshown
  have hchar := getElem?_shown_append hplain hlen (by simp : (0x30 : UInt8) ≠ 0)
    (Printf.vsnprintf host format (host.word va₀).2)
  rw [hshown, getElem?_shown_append hplain hlen (by simp)] at hchar
  exact absurd hchar (by simp)

end ArgaldOS
