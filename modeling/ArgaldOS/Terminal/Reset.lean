import ArgaldOS.Terminal.Sequences
import ArgaldOS.Terminal.Text

/-! # Bringing the terminal back

    A text may end in the middle of a character or of a sequence, and it may leave modes,
    margins and character sets behind.  The bytes CAN and SUB break off whatever has begun,
    and after one of them `ESC c` brings back the modes of a new terminal and clears the
    screen, but leaves the colours as they are.

    * `ScreenTerminal.write_keeps`: the invariant of the front end, over any text;
    * `cancelled_ground`, `cancel_prints`: after CAN and SUB;
    * `write_reset`: the reset;
    * `reset_shows_text`: a text behind a reset is laid out as on a new terminal, whatever
      was written before.
-/

namespace ArgaldOS

namespace Flanterm

open TextLayout

/-- CAN and SUB. -/
def Cancels (c : UInt8) : Prop := c = 0x18 ∨ c = 0x1a

/-- CAN, and then `ESC c`. -/
def resetBytes : List UInt8 := [0x18, 0x1b, 0x63]

section reset
variable (fb : FbSettings) {a : ScreenTerminal}

/-- **Any text** keeps the invariant of the front end. -/
theorem ScreenTerminal.write_keeps (h : a.term.Ok) (buf : List UInt8) :
    Keeps a.term (a.write fb buf).term := by
  induction buf generalizing a with
  | nil => exact Keeps.refl h
  | cons c buf ih =>
    obtain ⟨hx, hy⟩ := get_cursor_pos_lt a.term a.screen.pen
    have hstep := flanterm_putchar_emits h hx hy c
    have hrest := ih (a := a.putchar fb c) hstep.ok
    exact ⟨hrest.ok, hrest.rows_eq.trans hstep.rows_eq, hrest.cols_eq.trans hstep.cols_eq⟩

/-- What has begun is broken off, and nothing is shown. -/
theorem putchar_cancels (a : ScreenTerminal) {c : UInt8} (hc : Cancels c) :
    a.putchar fb c = ⟨cancelled a.term, a.screen⟩ := by
  have hbyte : ∀ x y, flanterm_putchar a.term c x y = (cancelled a.term, []) :=
    fun x y => if_pos (Or.inr hc)
  rw [ScreenTerminal.putchar, hbyte]
  rfl

theorem cancelled_ground (ctx : FlantermContext) : (cancelled ctx).Ground :=
  ⟨rfl, rfl, rfl, rfl, rfl, rfl⟩

/-- **A text behind CAN or SUB** is printed, whatever was in progress before, unless a mode is
    on that changes what is printed: insert mode, or the line drawing characters. -/
theorem cancel_prints (a : ScreenTerminal) {c : UInt8} (hc : Cancels c)
    (hinsert : a.term.insert_mode = false)
    (hcharset : a.term.charsets a.term.current_charset ≠ CHARSET_DEC_SPECIAL) {text : List Char}
    (htext : ∀ d ∈ text, Graphic d) :
    ∃ cp, a.write fb (c :: text.flatMap String.utf8EncodeChar)
      = ⟨(cancelled a.term).decoding 0 cp, a.screen.prints a.term (lineGlyphs text)⟩ := by
  have hplain : (cancelled a.term).Plain :=
    { cancelled_ground a.term with insert_mode := hinsert, charset := hcharset }
  obtain ⟨cp, hwrite⟩ := write_chars fb (a := ⟨cancelled a.term, a.screen⟩) hplain htext
  refine ⟨cp, ?_⟩
  rw [ScreenTerminal.write, Runs.run_cons, putchar_cancels fb a hc]
  exact hwrite

/-- CAN in the middle of a sequence. -/
theorem cancel_prints_sequence :
    let a : ScreenTerminal := ⟨ScreenTerminal.vga.term.reading 2 [7], ScreenTerminal.vga.screen⟩
    ∃ cp, a.write vgaSettings (0x18 :: ['h'].flatMap String.utf8EncodeChar)
      = ⟨(cancelled a.term).decoding 0 cp, a.screen.prints a.term (lineGlyphs ['h'])⟩ :=
  cancel_prints vgaSettings _ (Or.inl rfl) rfl (by decide) (List.all_iff_forall_prop.mp (by decide))

/-- **The reset** of the terminal. -/
theorem write_reset (a : ScreenTerminal) : a.write fb resetBytes =
    ⟨flanterm_context_reinit a.term,
      { cell := fun _ _ => a.screen.pen.empty
        pen := { a.screen.pen with cursor_x := 0, cursor_y := 0 } }⟩ := by
  rw [resetBytes, ScreenTerminal.write, Runs.run_cons, putchar_cancels fb a (Or.inl rfl)]
  exact write_escape fb (cancelled_ground a.term) (c := 0x63) (by decide) (by decide)

/-- The terminal is a typewriter again. -/
theorem reinit_typewriter {ctx : FlantermContext} (hwide : ctx.rows ≤ ctx.cols)
    (hrows : ctx.rows < 2 ^ 64) : (flanterm_context_reinit ctx).Typewriter where
  discard_next      := rfl
  unicode_remaining := rfl
  escape            := rfl
  control_sequence  := rfl
  osc               := rfl
  g_select          := rfl
  insert_mode       := rfl
  charset           := by
    show Function.update (Function.update ctx.charsets 0 CHARSET_DEFAULT) 1 CHARSET_DEC_SPECIAL 0
      ≠ CHARSET_DEC_SPECIAL
    rw [Function.update_of_ne (by decide), Function.update_self]
    decide
  scroll_enabled    := rfl
  margins           := ctx.rows_pos
  bottom            := Nat.le_refl _
  onlcr             := by
    show FLANTERM_OOB_OUTPUT_ONLCR &&& FLANTERM_OOB_OUTPUT_ONLCR ≠ 0
    decide
  rows_le_cols      := hwide
  rows_lt           := hrows

/-- Its sheet is empty. -/
theorem reset_types (ctx : FlantermContext) (pen : FbPen) :
    Types pen.text_fg pen.text_bg (flanterm_context_reinit ctx)
      { cell := fun _ _ => pen.empty, pen := { pen with cursor_x := 0, cursor_y := 0 } }
      ⟨[], []⟩ where
  last     := Nat.zero_le _
  cursor_x := rfl
  row      := by
    have hrows := ctx.rows_pos
    show 0 + (0 + 1 - ctx.rows) = 0
    omega
  cursor_y := ⟨Nat.le_refl 0, ctx.rows_pos⟩
  text_fg  := rfl
  text_bg  := rfl
  cell     := by
    intro y x _ _
    rw [show Sheet.lines (⟨[], []⟩ : Sheet UInt8) = [[]] from rfl, symbolAt_nil]
    rfl

/-- **A text behind a reset** is laid out on an empty screen, in the colours that were set
    last, whatever was written before. -/
theorem reset_shows_text (f : LimineFramebuffer) (hwide : f.rows ≤ f.cols) (buf : List UInt8)
    {first : List Char} {others : List (List Char)}
    (hgraphic : ∀ line ∈ first :: others, ∀ c ∈ line, Graphic c) {x y : Nat} (hx : x < f.cols)
    (hy : y < f.rows) :
    let before := (ScreenTerminal.fresh f fb).write fb buf
    ((ScreenTerminal.fresh f fb).write fb
        (buf ++ resetBytes ++ encodeLines (first :: others))).shown x y
      = textChar before.screen.pen.text_fg before.screen.pen.text_bg f.rows f.cols
          ((first :: others).map lineGlyphs) x y := by
  intro before
  have hkeeps := ScreenTerminal.write_keeps fb (a := .fresh f fb) (freshTerm_ok f) buf
  have hrows : before.term.rows = f.rows := hkeeps.rows_eq
  have hcols : before.term.cols = f.cols := hkeeps.cols_eq
  have hlt : f.rows < 2 ^ 64 := (cells_le f).1.trans_lt (by omega)
  have hshown := (reset_types before.term before.screen.pen).shows_text fb
    (reinit_typewriter (hrows ▸ hcols ▸ hwide) (hrows ▸ hlt)) rfl hgraphic (x := x) (y := y)
    (show x < before.term.cols from hcols ▸ hx) (show y < before.term.rows from hrows ▸ hy)
  have htop : (flanterm_context_reinit before.term).scroll_top_margin + y = y := Nat.zero_add y
  rw [htop] at hshown
  rw [ScreenTerminal.write_append, ScreenTerminal.write_append, write_reset, hshown]
  show textChar _ _ before.term.rows before.term.cols _ x y = _
  rw [hrows, hcols]

/-- A text behind one that ends in the middle of a sequence. -/
theorem reset_shows_text_sequence :
    let before := ScreenTerminal.vga.write vgaSettings [0x78, 0x1b, 0x5b, 0x33]
    (ScreenTerminal.vga.write vgaSettings
        ([0x78, 0x1b, 0x5b, 0x33] ++ resetBytes ++ encodeLines [['h']])).shown 0 0
      = textChar before.screen.pen.text_fg before.screen.pen.text_bg LimineFramebuffer.vga.rows
          LimineFramebuffer.vga.cols [lineGlyphs ['h']] 0 0 :=
  reset_shows_text vgaSettings .vga (by decide) [0x78, 0x1b, 0x5b, 0x33]
    (List.forall_mem_singleton.mpr (List.all_iff_forall_prop.mp (by decide))) (by decide) (by decide)

end reset

end Flanterm

end ArgaldOS
