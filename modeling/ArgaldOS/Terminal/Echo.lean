import ArgaldOS.Keyboard.Editor
import ArgaldOS.Stdlib.Printf
import ArgaldOS.Terminal.Editing
import ArgaldOS.Terminal.Messages

/-! # The line that is typed (`drivers/keyboard.c`)

    The keyboard handler prints what it does to the line: a character is printed as it is
    appended, and a backspace is followed by a blank and another backspace.  So the line that
    Enter hands over to `process_command` is what is to be seen behind the prompt, as long as
    the row has room for it.  Keys with a control character are left out (`typing_iff`): the
    terminal prints something else for them, or nothing.

    The messages go through `printk`, its formatter and the terminal.

    * `Prompt.write_typed`, `Prompt.write_erase`: the steps on the screen;
    * `interrupt_shows`: an interrupt;
    * `typed_line`: a run.
-/

namespace ArgaldOS

namespace Flanterm

open Runs

/-! ## Section 1: Messages of the handler -/

/-- A message: its format and its arguments. -/
abbrev Message := CString × List UInt64

/-- Arguments that are taken from a list.  The strings in memory are a parameter. -/
def argumentList (string : UInt64 → CString) : Printf.Surroundings (List UInt64) where
  word va := (va.headD 0, va.tail)
  string  := string

/-- What `isr_keyboard` prints for a key.  A `char` is extended to an `int`; the tables have
    no negative one. -/
def keyMessages (s : KeyboardState) (scan_code : UInt8) : List Message :=
  let combined := (convertScancode s scan_code).1
  let s := (convertScancode s scan_code).2
  if combined ≠ 0 then
    if combined = 0x08 then
      if s.strlen = 0 then []
      else [(ascii ['%', 'c', '%', 'c', '%', 'c'], [0x08, 0x20, 0x08])]
    else [(ascii ['%', 'c'], [combined.toUInt64])]
  else []

/-- What `isr_keyboard` prints; `output` is what a command prints. -/
def interruptMessages (output : CString → List Message) (s : KeyboardState)
    (e : KeyboardInterrupt) : List Message :=
  if e.status &&& 0x01 ≠ 0 then
    let first : List Message × KeyboardState :=
      if e.scan_code = 28 ∧ s.inScanf then
        ((ascii ['\n'], []) :: output (addCharToString s 0).text
            ++ (if e.result then [] else [(ascii ['#', ' '], [])]),
          runCommand s e.result)
      else if e.scan_code = 59 then
        ([(ascii "[argaldOS:kernel:DRV:shell] Starting pseudo-shell\n\n".toList, []),
            (ascii ['#', ' '], [])],
          { s with inScanf := true })
      else ([], s)
    first.1 ++
      if e.scan_code &&& 0x80 = 0 ∧ first.2.inScanf then keyMessages first.2 e.scan_code else []
  else [(ascii "no data available\n".toList, [])]

/-- The messages of a run. -/
def runMessages (output : CString → List Message) :
    KeyboardState → List KeyboardInterrupt → List Message
  | _, [] => []
  | s, e :: events =>
    interruptMessages output s e ++ runMessages output (isr_keyboard s e) events

/-- A key that has no character, or one that is printed, and is neither Enter nor F1. -/
structure Typing (e : KeyboardInterrupt) : Prop where
  data      : e.status &&& 0x01 ≠ 0
  enter     : e.scan_code ≠ 28
  start     : e.scan_code ≠ 59
  printable : ∀ upper, keyEntry upper e.scan_code = 0 ∨
    (0x20 ≤ (keyEntry upper e.scan_code).toNat ∧ (keyEntry upper e.scan_code).toNat < 0x7f)

/-- The keys that are left out: Enter, F1, and those with a control character. -/
theorem typing_iff (e : KeyboardInterrupt) : Typing e ↔ e.status &&& 0x01 ≠ 0 ∧
    e.scan_code ∉ ([15, 28, 59, 80, 91, 92, 120, 121] : List UInt8) := by
  have hall : ∀ n < 256, (UInt8.ofNat n ≠ 28 ∧ UInt8.ofNat n ≠ 59 ∧
      ∀ upper, keyEntry upper (UInt8.ofNat n) = 0 ∨ (0x20 ≤ (keyEntry upper (UInt8.ofNat n)).toNat ∧
        (keyEntry upper (UInt8.ofNat n)).toNat < 0x7f)) ↔
      UInt8.ofNat n ∉ ([15, 28, 59, 80, 91, 92, 120, 121] : List UInt8) := by
    decide +kernel
  have hkey := hall e.scan_code.toNat e.scan_code.toNat_lt
  rw [UInt8.ofNat_toNat] at hkey
  rw [← hkey]
  exact ⟨fun h => ⟨h.data, h.enter, h.start, h.printable⟩,
    fun h => ⟨h.1, h.2.1, h.2.2.1, h.2.2.2⟩⟩

instance (e : KeyboardInterrupt) : Decidable (Typing e) := decidable_of_iff _ (typing_iff e).symm

/-- The messages of a key other than Enter. -/
theorem keyMessages_eq (s : KeyboardState) {scan_code : UInt8} (henter : scan_code ≠ 28) :
    keyMessages s scan_code =
      let c := keyEntry (s.capslock || s.shifted) scan_code
      if scan_code = 0x0E then
        if s.strlen = 0 then []
        else [(ascii ['%', 'c', '%', 'c', '%', 'c'], [0x08, 0x20, 0x08])]
      else if c = 0 then []
      else [(ascii ['%', 'c'], [c.toUInt64])] := by
  have hspecial := @keyEntry_special (s.capslock || s.shifted) scan_code
  by_cases hback : scan_code = 0x0E
  · subst hback
    rfl
  by_cases hcaps : scan_code = 0x3A
  · have hc := hspecial (by simp [hcaps])
    unfold keyMessages convertScancode
    simp only [if_neg hback, if_pos hcaps, hc]
    rfl
  by_cases hshift : scan_code = 0x2A ∨ scan_code = 0x36
  · have hc := hspecial (by rcases hshift with h | h <;> simp [h])
    unfold keyMessages convertScancode
    simp only [if_neg hback, if_neg hcaps, if_pos hshift, hc]
    rfl
  have hchar := convertScancode_entry s hback hcaps hshift henter
  have hne := keyEntry_ne_backspace (s.capslock || s.shifted) scan_code
  unfold keyMessages
  simp only [hchar, if_neg hback]
  by_cases hc : keyEntry (s.capslock || s.shifted) scan_code = 0
  · rw [if_neg (not_not.mpr hc), if_pos hc]
  · rw [if_pos hc, if_neg hne, if_neg hc]

/-! ## Section 2: The row of the prompt -/

/-- The cursor is behind a prompt, and the rest of its row is empty. -/
structure Prompt (a : ScreenTerminal) (x y : Nat) : Prop where
  plain  : a.term.Plain
  cursor : a.screen.CursorAt a.term x y
  blank  : ∀ x', x ≤ x' → x' < a.term.cols → a.screen.cell y x' = a.screen.pen.empty

/-- With a line behind the prompt. -/
def ScreenTerminal.typed (a : ScreenTerminal) (line : CString) : ScreenTerminal :=
  ⟨a.term, a.screen.prints a.term line⟩

/-- A line in row `y`, from column `x` on, with the cursor behind it. -/
def Screen.withLine (screen : Screen) (x y : Nat) (line : CString) : Screen where
  cell := rowText screen.cell y x line screen.pen.text_fg screen.pen.text_bg
  pen  := (screen.place (x + line.length) y).pen

section row
variable (fb : FbSettings) {a : ScreenTerminal} {x y : Nat} {line : CString}

/-- The line in the row. -/
theorem Prompt.typed_eq (h : Prompt a x y) (hroom : x + line.length ≤ a.term.cols) :
    a.typed line = ⟨a.term, a.screen.withLine x y line⟩ := by
  obtain ⟨-, rfl, rfl⟩ := h.cursor
  rw [ScreenTerminal.typed, prints_row a.term a.screen line hroom]
  rfl

/-- **A character** is added to the line. -/
theorem Prompt.write_typed (h : Prompt a x y) {c : UInt8} (hlow : 0x20 ≤ c.toNat)
    (hhigh : c.toNat < 0x7f) : (a.typed line).write fb [c] = a.typed (line ++ [c]) := by
  rw [ScreenTerminal.write, Runs.run_cons, Runs.run_nil,
    putchar_ascii fb (a := a.typed line) h.plain hlow hhigh, ScreenTerminal.typed,
    ScreenTerminal.typed, Screen.prints, Screen.prints, List.foldl_append]
  rfl

/-- A backspace. -/
theorem putchar_backspace {ctx : FlantermContext} {screen : Screen} (h : ctx.Plain)
    (hcursor : screen.CursorAt ctx (x + 1) y) (hcols : ctx.cols < 2 ^ 64) :
    ScreenTerminal.putchar fb ⟨ctx, screen⟩ 0x08 = ⟨ctx, screen.place x y⟩ := by
  have hget := Screen.CursorAt.get (a := ⟨ctx, screen⟩) hcursor
  obtain ⟨hx, hy⟩ := hcursor.1
  have hbyte : ∀ x y, flanterm_putchar ctx 0x08 x y
      = (ctx, ctx.calls [.set_cursor_pos (sizeSub x 1) y]) := by
    intro x y
    have hcancel : ¬(ctx.discard_next = true ∨ (0x08 : UInt8) = 0x18 ∨ (0x08 : UInt8) = 0x1a) := by
      rw [h.discard_next]
      decide
    have hlead : ¬((0xc0 : UInt8) ≤ 0x08 ∧ (0x08 : UInt8) ≤ 0xf7) := by decide
    have hplain : plainByte ctx 0x08 x y
        = (ctx, ctx.calls [.set_cursor_pos (sizeSub x 1) y]) := rfl
    simp only [flanterm_putchar, if_neg hcancel, h.unicode_remaining, unicode_error,
      if_neg hlead, h.escape, h.g_select, ne_eq, not_true_eq_false, Bool.false_eq_true,
      if_false, hplain]
  rw [ScreenTerminal.putchar, hget, hbyte, sizeSub_of_le (Nat.succ_pos x) (by omega)]
  exact congrArg (ScreenTerminal.mk ctx)
    (performOps_place fb ctx screen (show x + 1 - 1 < ctx.cols by omega) hy)

/-- A backspace, a blank and another backspace. -/
theorem write_rubout {ctx : FlantermContext} {screen : Screen} (h : ctx.Plain)
    (hcursor : screen.CursorAt ctx (x + 1) y) (hcols : ctx.cols < 2 ^ 64) :
    ScreenTerminal.write fb ⟨ctx, screen⟩ [0x08, 0x20, 0x08] = ⟨ctx,
      { cell := Screen.put screen.cell y x screen.pen.empty
        pen := (screen.place x y).pen }⟩ := by
  obtain ⟨hx, hy⟩ := hcursor.1
  have hplaced : (screen.place x y).pen.cursor_x < ctx.cols := Nat.lt_of_succ_lt hx
  have hprint := putchar_ascii fb (a := ⟨ctx, screen.place x y⟩) h (c := 0x20) (by decide)
    (by decide)
  rw [Screen.print_of_lt hplaced] at hprint
  simp only [ScreenTerminal.write, Runs.run_cons, Runs.run_nil]
  rw [putchar_backspace fb h hcursor hcols, hprint]
  exact putchar_backspace fb h ⟨⟨hx, hy⟩, rfl, rfl⟩ hcols

/-- **The last character** of the line is removed. -/
theorem Prompt.write_erase (h : Prompt a x y) (hcols : a.term.cols < 2 ^ 64) {c : UInt8}
    (hroom : x + (line ++ [c]).length < a.term.cols) :
    (a.typed (line ++ [c])).write fb [0x08, 0x20, 0x08] = a.typed line := by
  have hlength : (line ++ [c]).length = line.length + 1 := List.length_append
  rw [hlength] at hroom
  have hcursor : (a.screen.withLine x y (line ++ [c])).CursorAt a.term (x + line.length + 1) y :=
    ⟨⟨hroom, h.cursor.1.2⟩, congrArg (x + ·) hlength, rfl⟩
  have hcell : Screen.put (a.screen.withLine x y (line ++ [c])).cell y (x + line.length)
      a.screen.pen.empty = (a.screen.withLine x y line).cell := by
    funext y' x'
    have hrow : ∀ line : CString, (a.screen.withLine x y line).cell y' x'
        = if y' = y ∧ x ≤ x' ∧ x' < x + line.length then
            glyphChar a.screen.pen.text_fg a.screen.pen.text_bg (line)[x' - x]?
          else a.screen.cell y' x' := fun _ => rfl
    rw [Screen.put_apply, hrow, hrow, hlength]
    by_cases hat : y' = y ∧ x' = x + line.length
    · rw [if_pos hat, if_neg (by omega), hat.1, hat.2]
      exact (h.blank _ (by omega) (by omega)).symm
    · rw [if_neg hat]
      by_cases hin : y' = y ∧ x ≤ x' ∧ x' < x + line.length
      · rw [if_pos (by omega), if_pos hin, List.getElem?_append_left (by omega)]
      · rw [if_neg (by omega), if_neg hin]
  rw [h.typed_eq (by omega), h.typed_eq (by omega), write_rubout fb h.plain hcursor hcols]
  exact congrArg (fun cell => (⟨a.term, cell, (a.screen.withLine x y line).pen⟩ : ScreenTerminal))
    hcell

end row

/-! ## Section 3: Interrupts -/

section interrupts
variable (string : UInt64 → CString) (output : CString → List Message) (fb : FbSettings)

/-- The characters of messages. -/
def kernelText (messages : List Message) : CString :=
  messagesText (Printf.vsnprintf (argumentList string)) messages

/-- A character is formatted as itself. -/
theorem vsnprintf_char (format : CString) (w : UInt64) (va : List UInt64) :
    Printf.vsnprintf (argumentList string) (0x25 :: 0x63 :: format) (w :: va)
      = w.toUInt8 :: Printf.vsnprintf (argumentList string) format va := by
  rw [Printf.vsnprintf_percent]
  rfl

/-- The message of a backspace. -/
theorem kernelText_rubout : kernelText string
    [(ascii ['%', 'c', '%', 'c', '%', 'c'], [0x08, 0x20, 0x08])] = [0x08, 0x20, 0x08] := by
  have hformat : ascii ['%', 'c', '%', 'c', '%', 'c']
      = [0x25, 0x63, 0x25, 0x63, 0x25, 0x63] := rfl
  rw [kernelText, messagesText, List.flatMap_singleton, terminalText, hformat, vsnprintf_char,
    vsnprintf_char, vsnprintf_char]
  rfl

/-- The message of a character. -/
theorem kernelText_char {c : UInt8} (hc : c ≠ 0) :
    kernelText string [(ascii ['%', 'c'], [c.toUInt64])] = [c] := by
  have hformat : ascii ['%', 'c'] = [0x25, 0x63] := rfl
  have hbyte : c.toUInt64.toUInt8 = c := UInt8.toUInt8_toUInt64 c
  rw [kernelText, messagesText, List.flatMap_singleton, terminalText, hformat, vsnprintf_char,
    hbyte, Printf.vsnprintf_nil]
  exact List.filter_cons_of_pos (by simpa using hc)

variable {string fb}
variable {a : ScreenTerminal} {x y : Nat} {s : KeyboardState} {ed : LineEditor}
variable {e : KeyboardInterrupt}

/-- A key prints what it does to the line. -/
theorem keyMessages_show (h : Prompt a x y) (hcols : a.term.cols < 2 ^ 64)
    (hline : ArgaldOS.Shows s ed) (hfits : Fits ed) (he : Typing e)
    (hroom : x + ed.line.length < a.term.cols) :
    (a.typed ed.line).write fb (kernelText string (keyMessages s e.scan_code))
      = a.typed (editLine (ed.capslock || ed.shifted) ed.line e.scan_code) := by
  have hstrlen : s.strlen = ed.line.length :=
    strlen_eq hline.line (Nat.le_trans hfits (by decide))
  have hentry := he.printable (ed.capslock || ed.shifted)
  rw [keyMessages_eq s he.enter, editLine, hline.capslock, hline.shifted, hstrlen]
  dsimp only
  by_cases hback : e.scan_code = 0x0E
  · rw [if_pos hback, if_pos hback]
    rcases List.eq_nil_or_concat ed.line with hnil | ⟨line, c, hconcat⟩
    · rw [hnil]
      rfl
    · rw [List.concat_eq_append] at hconcat
      rw [hconcat] at hroom ⊢
      rw [if_neg (by rw [List.length_append]; exact Nat.succ_ne_zero _), kernelText_rubout,
        h.write_erase fb hcols hroom, List.dropLast_concat]
  · rw [if_neg hback, if_neg hback]
    by_cases hc : keyEntry (ed.capslock || ed.shifted) e.scan_code = 0
    · rw [if_pos hc, if_pos hc]
      rfl
    · obtain ⟨hlow, hhigh⟩ := hentry.resolve_left hc
      rw [if_neg hc, if_neg hc, kernelText_char string hc, h.write_typed fb hlow hhigh]

/-- **An interrupt**: the screen shows the line after it. -/
theorem interrupt_shows (h : Prompt a x y) (hcols : a.term.cols < 2 ^ 64)
    (hline : ArgaldOS.Shows s ed) (hfits : Fits ed) (he : Typing e)
    (hroom : x + ed.line.length < a.term.cols) :
    (a.typed ed.line).write fb (kernelText string (interruptMessages output s e))
      = a.typed (ed.handle e).line := by
  have hnotEnter : ¬(e.scan_code = 28 ∧ s.inScanf = true) := fun h => he.enter h.1
  simp only [interruptMessages, if_pos he.data, if_neg hnotEnter, if_neg he.start, List.nil_append]
  rw [LineEditor.handle, ← hline.active]
  by_cases hpress : e.scan_code &&& 0x80 = 0 ∧ s.inScanf = true
  · rw [if_pos hpress, if_neg (by rw [not_or, not_not]; exact ⟨he.data, hpress.1⟩),
      if_neg he.enter, if_pos (Or.inl hpress.2), LineEditor.line_press]
    exact keyMessages_show h hcols hline hfits he hroom
  · -- A release, or a key that is not for the shell.
    rw [if_neg hpress]
    split
    · rfl
    · next hbit =>
      rw [if_neg he.enter, if_neg]
      · rfl
      · intro hactive
        exact hpress ⟨not_not.mp fun hz => hbit (Or.inr hz), hactive.resolve_right he.start⟩

/-! ## Section 4: Runs -/

/-- The line fits into its array and into the row of the prompt, all along a run. -/
def RowFits (width x : Nat) (ed : LineEditor) (events : List KeyboardInterrupt) : Prop :=
  Along LineEditor.handle
    (fun ed e => Fits (ed.handle e) ∧ x + (ed.handle e).line.length < width) ed events

variable (string fb)

/-- The keys of a run print what they do to the line. -/
theorem run_shows_line (h : Prompt a x y) (hcols : a.term.cols < 2 ^ 64)
    (hline : ArgaldOS.Shows s ed) (hfits : Fits ed) {events : List KeyboardInterrupt}
    (hroom : x + ed.line.length < a.term.cols) (hevents : ∀ e ∈ events, Typing e)
    (hrow : RowFits a.term.cols x ed events) :
    (a.typed ed.line).write fb (kernelText string (runMessages output s events))
        = a.typed (run LineEditor.handle ed events).line ∧
      ArgaldOS.Shows (run isr_keyboard s events) (run LineEditor.handle ed events) ∧
      Fits (run LineEditor.handle ed events) ∧
      x + (run LineEditor.handle ed events).line.length < a.term.cols := by
  induction events generalizing s ed with
  | nil => exact ⟨rfl, hline, hfits, hroom⟩
  | cons e events ih =>
    obtain ⟨⟨hfits', hroom'⟩, hrest⟩ := hrow
    obtain ⟨hwrite, hend⟩ := ih (isr_keyboard_simulates hline hfits e) hfits' hroom'
      (fun e' he' => hevents e' (List.mem_cons_of_mem e he')) hrest
    refine ⟨?_, hend⟩
    rw [runMessages, kernelText, messagesText, List.flatMap_append, ScreenTerminal.write_append,
      ← messagesText, ← messagesText, ← kernelText, ← kernelText,
      interrupt_shows output h hcols hline hfits (hevents e List.mem_cons_self) hroom]
    exact hwrite

/-- **The line that is typed** at a prompt is what is to be seen behind the prompt, and what
    Enter hands over to `process_command`. -/
theorem typed_line (h : Prompt a x y) (hcols : a.term.cols < 2 ^ 64) (behind : Nat → UInt8)
    {before events : List KeyboardInterrupt} (hbefore : LinesFit before)
    (hempty : (run isr_keyboard (keyboardBoot behind) before).text = [])
    (hevents : ∀ e ∈ events, Typing e)
    (hrow : RowFits a.term.cols x (run LineEditor.handle .start before) events) :
    let s := run isr_keyboard (keyboardBoot behind) before
    let s' := run isr_keyboard s events
    a.write fb (kernelText string (runMessages output s events))
        = ⟨a.term, a.screen.withLine x y s'.text⟩ ∧
      ∀ e, Enters s' e → (isr_keyboard s' e).commands = s'.commands ++ [s'.text] := by
  intro s s'
  have htext : ∀ {s : KeyboardState} {ed : LineEditor}, ArgaldOS.Shows s ed → Fits ed →
      s.text = ed.line := fun hshows hfits => text_eq hshows.line (Nat.le_trans hfits (by decide))
  obtain ⟨hshows, hfits⟩ := run_shows behind hbefore
  have hnil : (run LineEditor.handle .start before).line = [] :=
    (htext hshows hfits).symm.trans hempty
  have hroom : x + (run LineEditor.handle .start before).line.length < a.term.cols := by
    rw [hnil]
    exact h.cursor.1.1
  obtain ⟨hwrite, hshows', hfits', hroom'⟩ :=
    run_shows_line string output fb h hcols hshows hfits hroom hevents hrow
  rw [hnil, h.typed_eq (Nat.le_of_lt hroom'), ← htext hshows' hfits'] at hwrite
  refine ⟨hwrite, ?_⟩
  intro e henter
  have hafter := (runCommand_simulates hshows' hfits' e.result).commands
  rw [isr_keyboard_enter henter, htext hshows' hfits', hshows'.commands]
  exact hafter

/-- "h", "x", backspace and "i", with a release in between. -/
def hiKeys : List KeyboardInterrupt :=
  [⟨1, 0x23, false⟩, ⟨1, 0xA3, false⟩, ⟨1, 0x2D, false⟩, ⟨1, 0x0E, false⟩, ⟨1, 0x17, false⟩]

theorem typed_line_hi :
    ScreenTerminal.vga.write vgaSettings (kernelText (fun _ => [])
        (runMessages (fun _ => []) (run isr_keyboard (keyboardBoot fun _ => 0) [⟨1, 59, false⟩])
          hiKeys))
      = ⟨ScreenTerminal.vga.term, ScreenTerminal.vga.screen.withLine 0 0 [0x68, 0x69]⟩ := by
  have hprompt : Prompt .vga 0 0 :=
    ⟨vga_plain, vga_cursor, fun _ _ _ => rfl⟩
  have hfit : LinesFit [⟨1, 59, false⟩] := by
    unfold LinesFit
    simp only [along_cons, along_nil, and_true]
    decide
  have hrow : RowFits ScreenTerminal.vga.term.cols 0
      (run LineEditor.handle .start [⟨1, 59, false⟩]) hiKeys := by
    unfold RowFits hiKeys
    simp only [along_cons, along_nil, and_true]
    decide
  exact (typed_line _ _ vgaSettings hprompt (by decide) (fun _ => 0) hfit (by decide)
    (by decide) hrow).1

end interrupts

end Flanterm

end ArgaldOS
