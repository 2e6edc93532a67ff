import ArgaldOS.Keyboard.Bounds

/-! # The line editor of the shell

    `LineEditor` says what the keyboard handler is for.  It has no buffer: it
    remembers the keys typed since the last Enter, and the line is what the
    rule `editLine` makes of them, starting from the empty line.

    * `Shows s ed`: the driver's state `s` shows the editor `ed`;
    * `isr_keyboard_simulates`: one interrupt, on a line that fits;
    * `isr_keyboard_edits`: whole runs, with the strings that
      `process_command` is called with.
-/

namespace ArgaldOS

open Terminated Runs

/-! ## Section 1: The editor -/

/-- A line editor. -/
structure LineEditor where
  /-- The keys typed since the last Enter, each with the shift state at the time. -/
  typed    : List (Bool × UInt8)
  active   : Bool
  shifted  : Bool
  capslock : Bool
  /-- The lines that were entered. -/
  entered  : List CString

namespace LineEditor

/-- Nothing typed yet, and not active. -/
def start : LineEditor where
  typed    := []
  active   := false
  shifted  := false
  capslock := false
  entered  := []

/-- The line: the rule, folded over the typed keys. -/
def line (ed : LineEditor) : CString :=
  ed.typed.foldl (fun line key => editLine key.1 line key.2) []

/-- Enter: the line is handed over, and the next one starts empty. -/
def enter (ed : LineEditor) (result : Bool) : LineEditor :=
  { ed with
    typed   := []
    active  := !result
    entered := ed.entered ++ [ed.line] }

/-- A key other than Enter.  Shift holds for one key; caps lock stays. -/
def press (ed : LineEditor) (scan_code : UInt8) : LineEditor :=
  { ed with
    typed    := ed.typed ++ [(ed.capslock || ed.shifted, scan_code)]
    capslock := if scan_code = 0x3A then !ed.capslock else ed.capslock
    shifted  :=
      if scan_code = 0x2A ∨ scan_code = 0x36 then true
      else if scan_code = 0x0E ∨ scan_code = 0x3A then ed.shifted
      else false }

/-- One interrupt.  Releases, and keys while the editor is not active, do
    nothing; F1 makes it active. -/
def handle (ed : LineEditor) (e : KeyboardInterrupt) : LineEditor :=
  if e.status &&& 0x01 = 0 ∨ e.scan_code &&& 0x80 ≠ 0 then ed
  else if e.scan_code = 28 then
    if ed.active then ed.enter e.result else ed
  else if ed.active ∨ e.scan_code = 59 then
    { ed with active := true }.press e.scan_code
  else ed

/-- Typing a key applies the rule once more. -/
@[simp] theorem line_press (ed : LineEditor) (scan_code : UInt8) :
    (ed.press scan_code).line = editLine (ed.capslock || ed.shifted) ed.line scan_code := by
  unfold line press
  rw [List.foldl_append]
  rfl

@[simp] theorem line_enter (ed : LineEditor) (result : Bool) : (ed.enter result).line = [] := rfl

end LineEditor

/-! ## Section 2: Simulation -/

/-- The driver's state shows the editor: the buffer holds its line, whatever is
    behind the terminator. -/
structure Shows (s : KeyboardState) (ed : LineEditor) : Prop where
  line     : Stores 0 s.wholeInput ed.line
  active   : s.inScanf = ed.active
  shifted  : s.shifted = ed.shifted
  capslock : s.capslock = ed.capslock
  commands : s.commands = ed.entered

theorem keyboardBoot_shows (behind : Nat → UInt8) : Shows (keyboardBoot behind) .start where
  line     := keyboardBoot_stores behind
  active   := rfl
  shifted  := rfl
  capslock := rfl
  commands := rfl

/-- A line of at most 98 characters: the terminator behind it, and the one that
    Enter writes behind that, are inside the array. -/
def Fits (ed : LineEditor) : Prop := ed.line.length ≤ 98

instance (ed : LineEditor) : Decidable (Fits ed) := inferInstanceAs (Decidable (_ ≤ _))

section simulation
variable {s : KeyboardState} {ed : LineEditor}

/-- Enter hands the line to `process_command`. -/
theorem runCommand_simulates (h : Shows s ed) (hfits : Fits ed) (result : Bool) :
    Shows (runCommand s result) (ed.enter result) where
  line     := runCommand_stores result
  active   := rfl
  shifted  := h.shifted
  capslock := h.capslock
  commands := by
    unfold Fits at hfits
    have hlen : ed.line.length ≤ INPUT_SIZE := by
      unfold INPUT_SIZE
      omega
    -- The terminator of Enter is written over the one of the line.
    have htext := text_eq (stores_addCharToString_zero h.line hlen) hlen
    show (addCharToString s 0).commands ++ [(addCharToString s 0).text] = ed.entered ++ [ed.line]
    rw [htext]
    exact congrArg (· ++ [ed.line]) h.commands

/-- Any other key edits the line. -/
theorem handleKey_simulates (h : Shows s ed) (hfits : Fits ed) {scan_code : UInt8}
    (henter : scan_code ≠ 28) : Shows (handleKey s scan_code) (ed.press scan_code) := by
  have hlen : ed.line.length < INPUT_SIZE := Nat.lt_of_le_of_lt hfits (by decide)
  obtain ⟨hactive, hcommands, hcapslock, hshifted⟩ := handleKey_fields s henter
  refine ⟨?_, hactive.trans h.active, ?_, ?_, hcommands.trans h.commands⟩
  · rw [LineEditor.line_press, ← h.capslock, ← h.shifted]
    exact handleKey_stores h.line hlen henter
  · rw [hshifted, LineEditor.press, ← h.shifted]
    unfold modifiersAfter
    grind
  · rw [hcapslock, LineEditor.press, ← h.capslock]
    unfold modifiersAfter
    grind

/-- **One interrupt** of the driver is one step of the editor. -/
theorem isr_keyboard_simulates (h : Shows s ed) (hfits : Fits ed) (e : KeyboardInterrupt) :
    Shows (isr_keyboard s e) (ed.handle e) := by
  unfold LineEditor.handle
  rw [← h.active]
  by_cases henter : Enters s e
  · obtain ⟨hdata, h28, hscan⟩ := henter
    have hpress : ¬ (e.status &&& 0x01 = 0 ∨ e.scan_code &&& 0x80 ≠ 0) :=
      not_or.mpr ⟨hdata, by rw [h28]; decide⟩
    rw [isr_keyboard_enter ⟨hdata, h28, hscan⟩, if_neg hpress, if_pos h28, if_pos hscan]
    exact runCommand_simulates h hfits e.result
  by_cases hpress : Presses s e
  · obtain ⟨hdata, hbit, h28, hactive⟩ := hpress
    have hpress : ¬ (e.status &&& 0x01 = 0 ∨ e.scan_code &&& 0x80 ≠ 0) :=
      not_or.mpr ⟨hdata, not_not.mpr hbit⟩
    have hshows : Shows { s with inScanf := true } { ed with active := true } :=
      ⟨h.line, rfl, h.shifted, h.capslock, h.commands⟩
    rw [isr_keyboard_press ⟨hdata, hbit, h28, hactive⟩, if_neg hpress, if_neg h28, if_pos hactive]
    exact handleKey_simulates hshows hfits h28
  · -- Neither the driver nor the editor does anything.
    rw [isr_keyboard_ignored henter hpress]
    unfold Enters at henter
    unfold Presses at hpress
    split_ifs with hignored h28 hscan hactive
    · exact h
    · exact absurd ⟨fun hz => hignored (Or.inl hz), h28, hscan⟩ henter
    · exact h
    · refine absurd ⟨fun hz => hignored (Or.inl hz), ?_, h28, hactive⟩ hpress
      exact not_not.mp fun hz => hignored (Or.inr hz)
    · exact h

end simulation

/-! ## Section 3: Runs -/

/-- No line of the run grows beyond 98 characters. -/
def LinesFit (events : List KeyboardInterrupt) : Prop :=
  Along LineEditor.handle (fun ed e => Fits (ed.handle e)) .start events

/-- The driver shows the editor all along a run whose lines fit. -/
theorem run_shows (behind : Nat → UInt8) {events : List KeyboardInterrupt}
    (h : LinesFit events) :
    Shows (run isr_keyboard (keyboardBoot behind) events) (run LineEditor.handle .start events) ∧
      Fits (run LineEditor.handle .start events) := by
  unfold LinesFit at h
  have hfits : Fits LineEditor.start := by decide
  have hshows := keyboardBoot_shows behind
  generalize keyboardBoot behind = s at hshows ⊢
  generalize LineEditor.start = ed at h hfits hshows ⊢
  -- One simulated step after the other; the line fits before each of them.
  induction events generalizing s ed with
  | nil => exact ⟨hshows, hfits⟩
  | cons e events ih =>
    obtain ⟨hstep, hrest⟩ := h
    exact ih _ _ hrest hstep (isr_keyboard_simulates hshows hfits e)

/-- **The strings that `process_command` is called with** are the lines of the
    editor, and each command starts on an empty line. -/
theorem isr_keyboard_edits (behind : Nat → UInt8) (events : List KeyboardInterrupt)
    (h : LinesFit events) :
    let s := run isr_keyboard (keyboardBoot behind) events
    let ed := run LineEditor.handle .start events
    s.commands = ed.entered ∧ s.text = ed.line ∧
      ∀ e, Enters s e →
        (isr_keyboard s e).commands = s.commands ++ [ed.line] ∧ (isr_keyboard s e).text = [] := by
  intro s ed
  obtain ⟨hshows, hfits⟩ := run_shows behind h
  have hlen : ed.line.length ≤ INPUT_SIZE := Nat.le_trans hfits (by decide)
  refine ⟨hshows.commands, text_eq hshows.line hlen, ?_⟩
  intro e henter
  have hafter := runCommand_simulates hshows hfits e.result
  rw [isr_keyboard_enter henter]
  refine ⟨?_, text_eq hafter.line (by decide)⟩
  rw [hshows.commands]
  exact hafter.commands

/-- F1, "h", "x", backspace, "i", Enter, with releases in between. -/
def hiCommand : List KeyboardInterrupt :=
  [⟨1, 59, false⟩, ⟨1, 0x23, false⟩, ⟨1, 0xA3, false⟩, ⟨1, 0x2D, false⟩, ⟨1, 0x0E, false⟩,
    ⟨1, 0x17, false⟩, ⟨1, 28, false⟩]

theorem isr_keyboard_edits_hi :
    (run isr_keyboard (keyboardBoot fun _ => 0) hiCommand).commands = [[0x68, 0x69]] := by
  have hfit : LinesFit hiCommand := by
    unfold LinesFit hiCommand
    simp only [along_cons, along_nil, and_true]
    decide
  exact (isr_keyboard_edits (fun _ => 0) hiCommand hfit).1

end ArgaldOS
