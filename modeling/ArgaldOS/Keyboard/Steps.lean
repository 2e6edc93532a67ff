import ArgaldOS.Keyboard.Model

/-! # What one keyboard interrupt does

    The handler falls through several tests, and Enter and F1 reach
    `convertScancode` as well.  This module sorts the interrupts by what they
    come to:

    * `isr_keyboard_enter`: Enter while the shell is active;
    * `isr_keyboard_press`: any other key press while it is active, or F1;
    * `isr_keyboard_ignored`: everything else.

    A key press removes a character, appends the entry of one of the tables or
    leaves the line alone (`handleKey_eq`).
-/

namespace ArgaldOS

open Terminated

/-! ## Section 1: Keys -/

/-- The character of a key in the tables of `convertScancode`. -/
def keyEntry (upper : Bool) (scan_code : UInt8) : UInt8 :=
  (if upper then shiftedCharacterTable else characterTable).getD scan_code.toNat 0

/-- The rule of the line editor: backspace removes the last character, a key
    with a character appends it, any other key leaves the line alone. -/
def editLine (upper : Bool) (line : CString) (scan_code : UInt8) : CString :=
  if scan_code = 0x0E then line.dropLast
  else if keyEntry upper scan_code = 0 then line
  else line ++ [keyEntry upper scan_code]

theorem length_editLine_le (upper : Bool) (line : CString) (scan_code : UInt8) :
    (editLine upper line scan_code).length ≤ line.length + 1 := by
  unfold editLine
  split_ifs <;> grind

/-- Only a character makes the line longer. -/
theorem length_editLine_of_zero {upper : Bool} {scan_code : UInt8} (line : CString)
    (hc : keyEntry upper scan_code = 0) :
    (editLine upper line scan_code).length ≤ line.length := by
  unfold editLine
  rw [if_pos hc]
  split_ifs <;> simp

/-- The modifiers after the press of a key other than Enter. -/
def modifiersAfter (scan_code : UInt8) (s : KeyboardState) : KeyboardState :=
  if scan_code = 0x0E then s
  else if scan_code = 0x3A then { s with capslock := !s.capslock }
  else if scan_code = 0x2A ∨ scan_code = 0x36 then { s with shifted := true }
  else { s with inputLength := s.inputLength + 1, shifted := false }

@[simp] theorem modifiersAfter_wholeInput (scan_code : UInt8) (s : KeyboardState) :
    (modifiersAfter scan_code s).wholeInput = s.wholeInput := by
  unfold modifiersAfter
  split_ifs <;> rfl

@[simp] theorem modifiersAfter_written (scan_code : UInt8) (s : KeyboardState) :
    (modifiersAfter scan_code s).written = s.written := by
  unfold modifiersAfter
  split_ifs <;> rfl

@[simp] theorem modifiersAfter_commands (scan_code : UInt8) (s : KeyboardState) :
    (modifiersAfter scan_code s).commands = s.commands := by
  unfold modifiersAfter
  split_ifs <;> rfl

@[simp] theorem modifiersAfter_inScanf (scan_code : UInt8) (s : KeyboardState) :
    (modifiersAfter scan_code s).inScanf = s.inScanf := by
  unfold modifiersAfter
  split_ifs <;> rfl

/-- No table holds the code that stands for the backspace. -/
theorem keyEntry_ne_backspace (upper : Bool) (scan_code : UInt8) :
    keyEntry upper scan_code ≠ 0x08 := by
  have hall (table : List UInt8) (h : table.all (· != 0x08) = true) :
      table.getD scan_code.toNat 0 ≠ 0x08 := by
    rw [List.getD_eq_getElem?_getD]
    cases hget : table[scan_code.toNat]? with
    | none => decide
    | some c => simpa using List.all_eq_true.mp h c (List.mem_of_getElem? hget)
  unfold keyEntry
  cases upper
  · exact hall characterTable (by decide)
  · exact hall shiftedCharacterTable (by decide)

/-- The keys that `convertScancode` treats apart have no entry. -/
theorem keyEntry_special (upper : Bool) {scan_code : UInt8}
    (h : scan_code ∈ [0x0E, 0x3A, 0x2A, 0x36, 0x1C]) : keyEntry upper scan_code = 0 := by
  have hall : [0x0E, 0x3A, 0x2A, 0x36, 0x1C].all (keyEntry upper · == 0) = true := by
    cases upper <;> decide
  exact eq_of_beq (List.all_eq_true.mp hall scan_code h)

/-- The other keys have the entry of a table, and take back the shift. -/
theorem convertScancode_entry (s : KeyboardState) {scan_code : UInt8} (hback : scan_code ≠ 0x0E)
    (hcaps : scan_code ≠ 0x3A) (hshift : ¬ (scan_code = 0x2A ∨ scan_code = 0x36))
    (henter : scan_code ≠ 0x1C) :
    convertScancode s scan_code = (keyEntry (s.capslock || s.shifted) scan_code,
      { s with inputLength := s.inputLength + 1, shifted := false }) := by
  unfold convertScancode keyEntry
  rw [if_neg hback, if_neg hcaps, if_neg hshift, if_neg henter]
  cases s.capslock || s.shifted <;> rfl

/-- **A key press** other than Enter: backspace, or the entry of a table. -/
theorem handleKey_eq (s : KeyboardState) {scan_code : UInt8} (henter : scan_code ≠ 28) :
    handleKey s scan_code =
      let s' := modifiersAfter scan_code s
      let c := keyEntry (s.capslock || s.shifted) scan_code
      if scan_code = 0x0E then
        if s'.strlen = 0 then s' else s'.store (s'.strlen - 1) 0
      else if c = 0 then s'
      else addCharToString s' c := by
  have hspecial := @keyEntry_special (s.capslock || s.shifted) scan_code
  by_cases hback : scan_code = 0x0E
  · subst hback
    rfl
  -- The two modifiers: `convertScancode` returns 0, and so does the table.
  by_cases hcaps : scan_code = 0x3A
  · have hc := hspecial (by simp [hcaps])
    unfold handleKey convertScancode modifiersAfter
    simp only [if_neg hback, if_pos hcaps, hc]
    rfl
  by_cases hshift : scan_code = 0x2A ∨ scan_code = 0x36
  · have hc := hspecial (by rcases hshift with h | h <;> simp [h])
    unfold handleKey convertScancode modifiersAfter
    simp only [if_neg hback, if_neg hcaps, if_pos hshift, hc]
    rfl
  -- Any other key has an entry; the test for 0x1C is the test for Enter.
  have hchar := convertScancode_entry s hback hcaps hshift henter
  have hne := keyEntry_ne_backspace (s.capslock || s.shifted) scan_code
  unfold handleKey modifiersAfter
  simp only [hchar, if_neg hback, if_neg hcaps, if_neg hshift]
  by_cases hc : keyEntry (s.capslock || s.shifted) scan_code = 0
  · rw [if_neg (not_not.mpr hc), if_pos hc]
  · rw [if_pos hc, if_neg hne, if_neg hc]

/-- The fields of the state that a key press changes apart from the buffer. -/
theorem handleKey_fields (s : KeyboardState) {scan_code : UInt8} (henter : scan_code ≠ 28) :
    (handleKey s scan_code).inScanf = s.inScanf ∧
      (handleKey s scan_code).commands = s.commands ∧
      (handleKey s scan_code).capslock = (modifiersAfter scan_code s).capslock ∧
      (handleKey s scan_code).shifted = (modifiersAfter scan_code s).shifted := by
  rw [handleKey_eq s henter]
  dsimp only
  split_ifs <;> simp [addCharToString, KeyboardState.store]

/-! ## Section 2: Interrupts -/

/-- Enter arrives while the shell is active. -/
def Enters (s : KeyboardState) (e : KeyboardInterrupt) : Prop :=
  e.status &&& 0x01 ≠ 0 ∧ e.scan_code = 28 ∧ s.inScanf = true

/-- Any other key is pressed while the shell is active, or F1 is. -/
def Presses (s : KeyboardState) (e : KeyboardInterrupt) : Prop :=
  e.status &&& 0x01 ≠ 0 ∧ e.scan_code &&& 0x80 = 0 ∧ e.scan_code ≠ 28 ∧
    (s.inScanf = true ∨ e.scan_code = 59)

instance (s : KeyboardState) (e : KeyboardInterrupt) : Decidable (Enters s e) :=
  inferInstanceAs (Decidable (_ ∧ _))

instance (s : KeyboardState) (e : KeyboardInterrupt) : Decidable (Presses s e) :=
  inferInstanceAs (Decidable (_ ∧ _))

/-- The press of a key that has a character. -/
def Appends (s : KeyboardState) (e : KeyboardInterrupt) : Prop :=
  Presses s e ∧ keyEntry (s.capslock || s.shifted) e.scan_code ≠ 0

instance (s : KeyboardState) (e : KeyboardInterrupt) : Decidable (Appends s e) :=
  inferInstanceAs (Decidable (_ ∧ _))

/-- **Enter** passes the line to the command. -/
theorem isr_keyboard_enter {s : KeyboardState} {e : KeyboardInterrupt} (h : Enters s e) :
    isr_keyboard s e = runCommand s e.result := by
  obtain ⟨hdata, hactive⟩ := h
  unfold isr_keyboard
  simp only [if_pos hdata, if_pos hactive]
  rw [hactive.1]
  -- The handler goes on to `convertScancode`, which has no character for Enter.
  split_ifs <;> rfl

/-- **A key press** is handled in the active state; F1 makes the state active. -/
theorem isr_keyboard_press {s : KeyboardState} {e : KeyboardInterrupt} (h : Presses s e) :
    isr_keyboard s e = handleKey { s with inScanf := true } e.scan_code := by
  obtain ⟨hdata, hpress, henter, hactive⟩ := h
  have hnotEnter : ¬ (e.scan_code = 28 ∧ s.inScanf = true) := fun h => henter h.1
  unfold isr_keyboard
  simp only [if_pos hdata, if_neg hnotEnter]
  -- F1 falls through to `convertScancode` like a key of the active state.
  by_cases hF1 : e.scan_code = 59
  · simp only [if_pos hF1]
    exact if_pos ⟨hpress, trivial⟩
  · have hscan : s.inScanf = true := hactive.resolve_right hF1
    have heta : { s with inScanf := true } = s := by rw [← hscan]
    rw [heta]
    simp only [if_neg hF1]
    exact if_pos ⟨hpress, hscan⟩

/-- Everything else has no effect. -/
theorem isr_keyboard_ignored {s : KeyboardState} {e : KeyboardInterrupt} (henter : ¬ Enters s e)
    (hpress : ¬ Presses s e) : isr_keyboard s e = s := by
  unfold isr_keyboard
  by_cases hdata : e.status &&& 0x01 ≠ 0
  · have hnotEnter : ¬ (e.scan_code = 28 ∧ s.inScanf = true) := fun h => henter ⟨hdata, h⟩
    -- F1 is a press, so it is not ignored.
    have hF1 : e.scan_code ≠ 59 := fun hF1 =>
      hpress ⟨hdata, by rw [hF1]; decide, by rw [hF1]; decide, Or.inr hF1⟩
    simp only [if_pos hdata, if_neg hnotEnter, if_neg hF1]
    refine if_neg fun h => ?_
    obtain ⟨hbit, hscan⟩ := h
    exact hpress ⟨hdata, hbit, fun h28 => hnotEnter ⟨h28, hscan⟩, Or.inl hscan⟩
  · rw [if_neg hdata]

end ArgaldOS
