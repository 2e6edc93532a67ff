import ArgaldOS.Framework.TextLayout
import ArgaldOS.Terminal.Setup
import ArgaldOS.Terminal.Utf8

/-! # What a text looks like

    A text of printable characters and line breaks is laid out in the scrolling region like
    on a typewriter: a line that is too long continues in the next row, and when there are
    more rows than the region has, the last ones remain.  A character may need no column,
    one, or two.  As long as nobody sets its margins, the region is the whole screen.

    The back end moves the cursor with the number of columns where it should use the
    number of rows (`wrapped`).  This makes no difference as long as the screen is at
    least as wide as it is high, in characters.

    * `Types.print`, `Types.lineBreak`: the steps;
    * `write_encodeLines`: a text, on a screen on which something is typed already;
    * `Types.shows_text`, `fresh_shows_text`: a text in an empty region, and on a new terminal.
-/

namespace ArgaldOS

namespace Flanterm

open TextLayout

/-! ## Section 1: The terminal as a typewriter -/

/-- A text is typed in the scrolling region, and a line break begins a new line. -/
structure FlantermContext.Typewriter (ctx : FlantermContext) : Prop extends ctx.Plain where
  scroll_enabled : ctx.scroll_enabled = true
  margins        : ctx.scroll_top_margin < ctx.scroll_bottom_margin
  bottom         : ctx.scroll_bottom_margin ≤ ctx.rows
  onlcr          : ctx.oob_output &&& FLANTERM_OOB_OUTPUT_ONLCR ≠ 0
  rows_le_cols   : ctx.rows ≤ ctx.cols
  rows_lt        : ctx.rows < 2 ^ 64

/-- The number of rows of the scrolling region. -/
def FlantermContext.height (ctx : FlantermContext) : Nat :=
  ctx.scroll_bottom_margin - ctx.scroll_top_margin

/-- A row of the scrolling region. -/
def FlantermContext.InRegion (ctx : FlantermContext) (y : Nat) : Prop :=
  ctx.scroll_top_margin ≤ y ∧ y < ctx.scroll_bottom_margin

/-- The character for a glyph; a place without one is blank. -/
def glyphChar (fg bg : UInt32) (glyph : Option UInt8) : FlantermFbChar :=
  ⟨(glyph.getD 0x20).toUInt32, fg, bg⟩

/-- The scrolling region shows the end of the sheet `s`, and the cursor is behind its last
    symbol. -/
structure Types (fg bg : UInt32) (ctx : FlantermContext) (screen : Screen) (s : Sheet UInt8) :
    Prop where
  last     : s.last.length ≤ ctx.cols
  cursor_x : screen.pen.cursor_x = s.last.length
  row      : screen.pen.cursor_y + (s.above.length + 1 - ctx.height)
    = ctx.scroll_top_margin + s.above.length
  cursor_y : ctx.InRegion screen.pen.cursor_y
  text_fg  : screen.pen.text_fg = fg
  text_bg  : screen.pen.text_bg = bg
  cell     : ∀ y x, y < ctx.height → x < ctx.cols → screen.cell (ctx.scroll_top_margin + y) x
    = glyphChar fg bg (symbolAt ctx.height s.lines y x)

/-- The cursor goes to the beginning of the next line. -/
def Screen.lineBreak (ctx : FlantermContext) (screen : Screen) : Screen :=
  if screen.pen.cursor_y + 1 = ctx.scroll_bottom_margin then
    { cell := Screen.moveUp ctx.scroll_top_margin ctx.scroll_bottom_margin screen.pen.empty
        screen.cell
      pen  := { screen.pen with cursor_x := 0 } }
  else { screen with pen := { screen.pen with cursor_x := 0, cursor_y := screen.pen.cursor_y + 1 } }

/-- A glyph in a row that has room for it. -/
theorem Screen.print_of_lt {ctx : FlantermContext} {screen : Screen}
    (hx : screen.pen.cursor_x < ctx.cols) (g : UInt8) : screen.print ctx g
      = { cell := put screen.cell screen.pen.cursor_y screen.pen.cursor_x
            ⟨g.toUInt32, screen.pen.text_fg, screen.pen.text_bg⟩
          pen  := { screen.pen with cursor_x := screen.pen.cursor_x + 1 } } := by
  have hwraps : ¬wraps ctx screen.pen := fun hw => absurd hw.1 (Nat.not_le_of_lt hx)
  simp only [print, printPen, if_neg hwraps, if_neg fun hw => hwraps (And.left hw), if_pos hx]

section steps
variable {fg bg : UInt32} {ctx : FlantermContext} {screen : Screen} {s : Sheet UInt8}

/-- **A new line**: if there is no row for it, the rows move up. -/
theorem Types.lineBreak (h : Types fg bg ctx screen s) :
    Types fg bg ctx (screen.lineBreak ctx) s.newline := by
  have hlen : s.lines.length = s.above.length + 1 := List.length_append
  have hheight : ctx.height = ctx.scroll_bottom_margin - ctx.scroll_top_margin := rfl
  have hrow := h.row
  obtain ⟨htop, hbottom⟩ := h.cursor_y
  rw [Screen.lineBreak]
  split
  · next hscroll =>
    refine ⟨Nat.zero_le _, rfl, ?_, ⟨htop, hbottom⟩, h.text_fg, h.text_bg, ?_⟩
    · show screen.pen.cursor_y + (s.lines.length + 1 - ctx.height)
        = ctx.scroll_top_margin + s.lines.length
      omega
    · intro y x hy hx
      show Screen.moveUp ctx.scroll_top_margin ctx.scroll_bottom_margin screen.pen.empty screen.cell
        (ctx.scroll_top_margin + y) x = _
      rw [Sheet.lines_newline, symbolAt_append_of_le (by omega) [] hy, Screen.moveUp]
      by_cases hlast : y + 1 = ctx.height
      · rw [if_pos (by omega), if_pos hlast, FbPen.empty, h.text_fg, h.text_bg]
        rfl
      · rw [if_neg (by omega), if_neg hlast, if_pos (by omega), Nat.add_assoc]
        exact h.cell (y + 1) x (by omega) hx
  · next hscroll =>
    refine ⟨Nat.zero_le _, rfl, ?_, ?_, h.text_fg, h.text_bg, ?_⟩
    · show screen.pen.cursor_y + 1 + (s.lines.length + 1 - ctx.height)
        = ctx.scroll_top_margin + s.lines.length
      omega
    · show ctx.InRegion (screen.pen.cursor_y + 1)
      exact ⟨by omega, by omega⟩
    · intro y x hy hx
      rw [Sheet.lines_newline, symbolAt_append_of_lt (by omega), h.cell y x hy hx]
      split
      · next heq =>
        have hnone : symbolAt ctx.height s.lines y x = none := by
          rw [symbolAt, List.getElem?_eq_none (by omega)]
          rfl
        rw [hnone]
        rfl
      · rfl

/-- A symbol in a line that has room for it. -/
theorem Types.print_room (h : Types fg bg ctx screen s) (hroom : s.last.length < ctx.cols)
    (g : UInt8) : Types fg bg ctx (screen.print ctx g) { s with last := s.last ++ [g] } := by
  have hrow := h.row
  obtain ⟨y₀, hy₀⟩ := Nat.exists_eq_add_of_le h.cursor_y.1
  rw [hy₀] at hrow
  have hwindow : y₀ + (s.above.length + 1 - ctx.height) = s.above.length := by omega
  rw [Screen.print_of_lt (h.cursor_x ▸ hroom)]
  refine ⟨?_, ?_, h.row, h.cursor_y, h.text_fg, h.text_bg, ?_⟩
  · rw [List.length_append]
    exact hroom
  · show screen.pen.cursor_x + 1 = _
    rw [h.cursor_x, List.length_append, List.length_singleton]
  · intro y x hy hx
    show Screen.put screen.cell screen.pen.cursor_y screen.pen.cursor_x _
        (ctx.scroll_top_margin + y) x
      = glyphChar fg bg (symbolAt ctx.height (s.above ++ [s.last ++ [g]]) y x)
    rw [Screen.put_apply, symbolAt_type hwindow, h.cursor_x, h.text_fg, h.text_bg,
      h.cell y x hy hx, Sheet.lines, hy₀]
    simp only [Nat.add_left_cancel_iff]
    split <;> rfl

/-- In a line that is full, a symbol begins the next one. -/
theorem Screen.print_of_full (hctx : ctx.Typewriter) (hfull : ctx.cols ≤ screen.pen.cursor_x)
    (hy : ctx.InRegion screen.pen.cursor_y) (g : UInt8) :
    screen.print ctx g = (screen.lineBreak ctx).print ctx g := by
  have hrows := hctx.rows_le_cols
  have hbottom := hctx.bottom
  have hcols := ctx.cols_pos
  have hwraps : wraps ctx screen.pen := ⟨hfull, Or.inr hctx.scroll_enabled⟩
  have hlt := hy.2
  rw [Screen.lineBreak]
  split
  · next hlast =>
    have hscrolls : wrapScrolls ctx screen.pen := hlast
    have hnext : ¬wraps ctx { screen.pen with cursor_x := 0 } := fun hw =>
      absurd hw.1 (Nat.not_le_of_lt hcols)
    have hclamp : ¬screen.pen.cursor_y ≥ ctx.cols := by omega
    simp only [Screen.print, printPen, if_neg hnext, wrapped, hscrolls, if_true, if_neg hclamp,
      and_true, if_neg fun hw => hnext (And.left hw), hwraps]
  · next hlast =>
    have hscrolls : ¬wrapScrolls ctx screen.pen := hlast
    have hnext : ¬wraps ctx
        { screen.pen with cursor_x := 0, cursor_y := screen.pen.cursor_y + 1 } := fun hw =>
      absurd hw.1 (Nat.not_le_of_lt hcols)
    have hclamp : ¬screen.pen.cursor_y + 1 ≥ ctx.cols := by omega
    simp only [Screen.print, printPen, if_pos hwraps, if_neg hnext, wrapped, hscrolls, if_false,
      if_neg hclamp, and_false, if_neg fun hw => hnext (And.left hw)]

/-- **A symbol** is typed. -/
theorem Types.print (h : Types fg bg ctx screen s) (hctx : ctx.Typewriter) (g : UInt8) :
    Types fg bg ctx (screen.print ctx g) (s.type ctx.cols g) := by
  rw [Sheet.type]
  split
  · next hroom => exact h.print_room hroom g
  · next hfull =>
    rw [Screen.print_of_full hctx (h.cursor_x ▸ Nat.le_of_not_lt hfull) h.cursor_y]
    exact h.lineBreak.print_room ctx.cols_pos g

/-- Symbols are typed. -/
theorem Types.prints (h : Types fg bg ctx screen s) (hctx : ctx.Typewriter)
    (glyphs : List UInt8) :
    Types fg bg ctx (screen.prints ctx glyphs) (glyphs.foldl (Sheet.type ctx.cols) s) := by
  induction glyphs generalizing screen s with
  | nil => exact h
  | cons g glyphs ih => exact ih (h.print hctx g)

end steps

/-! ## Section 2: Lines of characters -/

/-- The bytes of a text: its lines in UTF-8, and a line feed between any two. -/
def encodeLines (lines : List (List Char)) : List UInt8 :=
  [0x0a].intercalate (lines.map fun line => line.flatMap String.utf8EncodeChar)

/-- The glyphs of a line. -/
def lineGlyphs (line : List Char) : List UInt8 := line.flatMap charGlyphs

theorem encodeLines_cons (first : List Char) (others : List (List Char)) :
    encodeLines (first :: others) = first.flatMap String.utf8EncodeChar
      ++ others.flatMap fun line => 0x0a :: line.flatMap String.utf8EncodeChar := by
  rw [encodeLines, List.map_cons, intercalate_cons_eq, List.flatMap_map]

section text
variable (fb : FbSettings) {fg bg : UInt32} {ctx : FlantermContext} {screen : Screen}
variable {s : Sheet UInt8}

/-- A line feed that goes to the beginning of the line, as well. -/
theorem putchar_newline (h : ctx.Plain)
    (honlcr : ctx.oob_output &&& FLANTERM_OOB_OUTPUT_ONLCR ≠ 0) :
    ScreenTerminal.putchar fb ⟨ctx, screen⟩ 0x0a = ⟨ctx,
      (ctx.calls (lineFeed ctx 0 (get_cursor_pos ctx screen.pen).2)).foldl
        (Screen.perform fb) screen⟩ := by
  have hbyte : ∀ x y, flanterm_putchar ctx 0x0a x y = (ctx, ctx.calls (lineFeed ctx 0 y)) := by
    intro x y
    have hcancel : ¬(ctx.discard_next = true ∨ (0x0a : UInt8) = 0x18 ∨ (0x0a : UInt8) = 0x1a) := by
      rw [h.discard_next]
      decide
    have hlead : ¬((0xc0 : UInt8) ≤ 0x0a ∧ (0x0a : UInt8) ≤ 0xf7) := by decide
    have hplain : plainByte ctx 0x0a x y = (ctx, ctx.calls (lineFeed ctx
      (if ctx.oob_output &&& FLANTERM_OOB_OUTPUT_ONLCR ≠ 0 then 0 else x) y)) := rfl
    simp only [flanterm_putchar, if_neg hcancel, h.unicode_remaining, unicode_error,
      if_neg hlead, h.escape, h.g_select, ne_eq, not_true_eq_false, Bool.false_eq_true,
      if_false, hplain, honlcr, not_false_eq_true, if_true]
  rw [ScreenTerminal.putchar, hbyte]

/-- A line feed in the region. -/
theorem putchar_lineFeed (hctx : ctx.Typewriter) (hy : ctx.InRegion screen.pen.cursor_y) :
    ScreenTerminal.putchar fb ⟨ctx, screen⟩ 0x0a = ⟨ctx, screen.lineBreak ctx⟩ := by
  obtain ⟨htop, hbottom⟩ := hy
  have hrows := hctx.bottom
  have hlt := hctx.rows_lt
  have hcursor : (get_cursor_pos ctx screen.pen).2 = screen.pen.cursor_y := if_neg (by omega)
  have hlast : sizeSub ctx.scroll_bottom_margin 1 = ctx.scroll_bottom_margin - 1 :=
    sizeSub_of_le (by omega) (by omega)
  have hx0 : clampPos 0 ctx.cols = 0 := if_neg (Nat.not_le_of_lt ctx.cols_pos)
  rw [putchar_newline fb hctx.toPlain hctx.onlcr, hcursor, lineFeed, hlast, Screen.lineBreak]
  split
  · next hscroll =>
    have hclamp : clampPos screen.pen.cursor_y ctx.rows = screen.pen.cursor_y := if_neg (by omega)
    rw [if_pos (by omega)]
    simp only [FlantermContext.calls, FlantermContext.call, List.map_cons, List.map_nil,
      List.foldl_cons, List.foldl_nil, Screen.perform, set_cursor_pos, hx0, hclamp]
  · next hscroll =>
    have hclamp : clampPos (screen.pen.cursor_y + 1) ctx.rows = screen.pen.cursor_y + 1 :=
      if_neg (by omega)
    rw [if_neg (by omega)]
    simp only [FlantermContext.calls, FlantermContext.call, List.map_cons, List.map_nil,
      List.foldl_cons, List.foldl_nil, Screen.perform, set_cursor_pos, hx0, hclamp]

/-- The last code point does not matter. -/
theorem FlantermContext.Typewriter.decoding (h : ctx.Typewriter) (cp : UInt64) :
    (ctx.decoding 0 cp).Typewriter := { h with unicode_remaining := rfl }

theorem Types.decoding (h : Types fg bg ctx screen s) (cp : UInt64) :
    Types fg bg (ctx.decoding 0 cp) screen s :=
  ⟨h.last, h.cursor_x, h.row, h.cursor_y, h.text_fg, h.text_bg, h.cell⟩

/-- A line of characters is typed. -/
theorem write_line (h : Types fg bg ctx screen s) (hctx : ctx.Typewriter) {line : List Char}
    (hline : ∀ c ∈ line, Graphic c) :
    ∃ cp screen', ScreenTerminal.write fb ⟨ctx, screen⟩ (line.flatMap String.utf8EncodeChar)
        = ⟨ctx.decoding 0 cp, screen'⟩ ∧
      Types fg bg (ctx.decoding 0 cp) screen'
        ((lineGlyphs line).foldl (Sheet.type ctx.cols) s) := by
  obtain ⟨cp, hwrite⟩ := write_chars fb (a := ⟨ctx, screen⟩) hctx.toPlain hline
  exact ⟨cp, _, hwrite, (h.prints hctx (lineGlyphs line)).decoding cp⟩

/-- **A text** is typed, line after line. -/
theorem write_encodeLines (h : Types fg bg ctx screen s) (hctx : ctx.Typewriter)
    {first : List Char} {others : List (List Char)} (hfirst : ∀ c ∈ first, Graphic c)
    (hothers : ∀ line ∈ others, ∀ c ∈ line, Graphic c) :
    ∃ cp screen', ScreenTerminal.write fb ⟨ctx, screen⟩ (encodeLines (first :: others))
        = ⟨ctx.decoding 0 cp, screen'⟩ ∧
      Types fg bg (ctx.decoding 0 cp) screen'
        (s.typeAll ctx.cols (lineGlyphs first) (others.map lineGlyphs)) := by
  obtain ⟨cp, screen₁, hwrite, h₁⟩ := write_line fb h hctx hfirst
  rw [encodeLines_cons, ScreenTerminal.write_append, hwrite, Sheet.typeAll, List.foldl_map]
  generalize (lineGlyphs first).foldl (Sheet.type ctx.cols) s = s₁ at h₁
  clear hwrite hfirst
  induction others generalizing cp screen₁ s₁ with
  | nil => exact ⟨cp, screen₁, rfl, h₁⟩
  | cons line others ih =>
    have hctx₁ := hctx.decoding cp
    obtain ⟨cp₂, screen₂, hwrite₂, h₂⟩ :=
      write_line fb h₁.lineBreak hctx₁ (hothers line List.mem_cons_self)
    obtain ⟨cp₃, screen₃, hwrite₃, h₃⟩ := ih
      (fun line' hline' => hothers line' (List.mem_cons_of_mem line hline')) cp₂ screen₂ _ h₂
    refine ⟨cp₃, screen₃, ?_, h₃⟩
    rw [List.flatMap_cons, List.cons_append, ScreenTerminal.write, Runs.run_cons,
      putchar_lineFeed fb hctx₁ h₁.cursor_y]
    show ScreenTerminal.write fb ⟨ctx.decoding 0 cp, _⟩ (_ ++ _) = _
    rw [ScreenTerminal.write_append, hwrite₂]
    exact hwrite₃

end text

/-! ## Section 3: A text in an empty region -/

/-- What a text looks like in column `x` of row `y`, with the cursor behind its last
    character. -/
def textChar (fg bg : UInt32) (rows cols : Nat) (text : List (List UInt8)) (x y : Nat) :
    FlantermFbChar :=
  let c := glyphChar fg bg (symbolAt rows (TextLayout.layout cols text) y x)
  if y + ((TextLayout.layout cols text).length - rows) + 1 = (TextLayout.layout cols text).length ∧
      some x = (TextLayout.layout cols text).getLast?.map List.length then c.inverted
  else c

/-- A region that shows a sheet with a text on it. -/
theorem Types.shown {fg bg : UInt32} {ctx : FlantermContext} {screen : Screen} {s : Sheet UInt8}
    (h : Types fg bg ctx screen s) (hctx : ctx.Typewriter) (hlit : ctx.cursor_enabled = true)
    {text : List (List UInt8)} (hlines : s.lines = TextLayout.layout ctx.cols text) {x y : Nat}
    (hx : x < ctx.cols) (hy : y < ctx.height) :
    ScreenTerminal.shown ⟨ctx, screen⟩ x (ctx.scroll_top_margin + y)
      = textChar fg bg ctx.height ctx.cols text x y := by
  have hcell := h.cell y x hy hx
  have hlength : (TextLayout.layout ctx.cols text).length = s.above.length + 1 := by
    rw [← hlines]
    exact List.length_append
  have hlast : (TextLayout.layout ctx.cols text).getLast? = some s.last := by
    rw [← hlines]
    exact List.getLast?_concat
  have hrow := h.row
  have hrows : screen.pen.cursor_y < ctx.rows := h.cursor_y.2.trans_le hctx.bottom
  -- The cursor of the front end, and the place behind the last character.
  have hat : Lit ctx screen.pen ∧ screen.pen.At x (ctx.scroll_top_margin + y) ↔
      y + (s.above.length + 1 - ctx.height) + 1 = s.above.length + 1 ∧
        some x = some s.last.length := by
    rw [FbPen.At, h.cursor_x, Option.some.injEq]
    constructor
    · intro ⟨_, hatx, haty⟩
      exact ⟨by omega, hatx⟩
    · intro ⟨haty, hatx⟩
      exact ⟨⟨hlit, by rw [h.cursor_x, ← hatx]; exact hx, hrows⟩, hatx, by omega⟩
  rw [hlines] at hcell
  rw [textChar, hlength, hlast, Option.map_some, ScreenTerminal.shown, shownChar, hcell]
  simp only [hat]

/-- **A text in an empty region**: its lines are wrapped, the last of them are shown, and the
    cursor is behind the last character. -/
theorem Types.shows_text (fb : FbSettings) {fg bg : UInt32} {ctx : FlantermContext}
    {screen : Screen} (h : Types fg bg ctx screen ⟨[], []⟩) (hctx : ctx.Typewriter)
    (hlit : ctx.cursor_enabled = true) {first : List Char} {others : List (List Char)}
    (hgraphic : ∀ line ∈ first :: others, ∀ c ∈ line, Graphic c) {x y : Nat}
    (hx : x < ctx.cols) (hy : y < ctx.height) :
    (ScreenTerminal.write fb ⟨ctx, screen⟩ (encodeLines (first :: others))).shown x
        (ctx.scroll_top_margin + y)
      = textChar fg bg ctx.height ctx.cols ((first :: others).map lineGlyphs) x y := by
  obtain ⟨cp, screen', hwrite, htypes⟩ := write_encodeLines fb h hctx
    (hgraphic first List.mem_cons_self)
    fun line hline => hgraphic line (List.mem_cons_of_mem first hline)
  have hlines := Sheet.lines_typeAll (s := ⟨[], []⟩) ctx.cols_pos (lineGlyphs first)
    (others.map lineGlyphs) rfl
  rw [hwrite]
  exact htypes.shown (hctx.decoding cp) hlit hlines hx hy

/-! ## Section 4: A new terminal -/

section fresh
variable (f : LimineFramebuffer) (fb : FbSettings)

theorem freshTerm_typewriter (hwide : f.rows ≤ f.cols) : (freshTerm f).Typewriter where
  discard_next      := rfl
  unicode_remaining := rfl
  escape            := rfl
  control_sequence  := rfl
  osc               := rfl
  g_select          := rfl
  insert_mode       := rfl
  charset           := by
    show CHARSET_DEFAULT ≠ CHARSET_DEC_SPECIAL
    decide
  scroll_enabled    := rfl
  margins           := rows_pos f
  bottom            := Nat.le_refl _
  onlcr             := by
    show FLANTERM_OOB_OUTPUT_ONLCR &&& FLANTERM_OOB_OUTPUT_ONLCR ≠ 0
    decide
  rows_le_cols      := hwide
  rows_lt           := (cells_le f).1.trans_lt (by omega)

/-- A new terminal shows an empty sheet. -/
theorem fresh_types : Types fb.default_fg 0xffffffff (freshTerm f)
    (ScreenTerminal.fresh f fb).screen ⟨[], []⟩ where
  last     := Nat.zero_le _
  cursor_x := rfl
  row      := by
    have := rows_pos f
    show 0 + (0 + 1 - f.rows) = 0
    omega
  cursor_y := ⟨Nat.le_refl 0, rows_pos f⟩
  text_fg  := rfl
  text_bg  := rfl
  cell     := by
    intro y x _ _
    rw [show Sheet.lines (⟨[], []⟩ : Sheet UInt8) = [[]] from rfl, symbolAt_nil]
    rfl

/-- **A text on a new terminal.** -/
theorem fresh_shows_text (hwide : f.rows ≤ f.cols) {first : List Char}
    {others : List (List Char)} (hgraphic : ∀ line ∈ first :: others, ∀ c ∈ line, Graphic c)
    {x y : Nat} (hx : x < f.cols) (hy : y < f.rows) :
    ((ScreenTerminal.fresh f fb).write fb (encodeLines (first :: others))).shown x y
      = textChar fb.default_fg 0xffffffff f.rows f.cols ((first :: others).map lineGlyphs) x y := by
  have hshown := (fresh_types f fb).shows_text fb (freshTerm_typewriter f hwide) rfl hgraphic hx hy
  rwa [show (freshTerm f).scroll_top_margin + y = y from Nat.zero_add y] at hshown

end fresh

end Flanterm

end ArgaldOS
