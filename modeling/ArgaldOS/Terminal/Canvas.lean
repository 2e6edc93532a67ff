import ArgaldOS.Framework.Words
import ArgaldOS.Terminal.Regions

/-! # Drawing on the screen

    A program that draws on the whole screen moves the cursor, chooses colours, prints, erases,
    and inserts and deletes characters and lines.  What its commands mean is said here by a
    function on screens, which knows nothing of bytes, modes or parameters.  The bytes of any
    program, written to the terminal, draw what its commands mean, one after the other.

    * `write_colour`: a colour is set;
    * `write_encode`: one command;
    * `draw_inside`: the cursor stays on the screen;
    * `write_program`: a whole program;
    * `flanterm_fb_init_draws`: a program from the boot loader's framebuffer to the pixels.
-/

namespace ArgaldOS

namespace Flanterm

open Runs

/-! ## Section 1: Commands -/

/-- The commands of a program.  Rows, columns and modes are counted from zero. -/
inductive Command where
  | goto (row column : Nat)
  | up (n : Nat)
  | down (n : Nat)
  | right (n : Nat)
  | left (n : Nat)
  | print (text : List Char)
  | insert (text : List UInt8)
  | insertBlanks (n : Nat)
  | deleteCharacters (n : Nat)
  | insertLines (n : Nat)
  | deleteLines (n : Nat)
  | eraseCharacters (n : Nat)
  | eraseLine (mode : Nat)
  | eraseDisplay (mode : Nat)
  | colour (fg : Bool) (r g b : UInt8)

/-- The parameters that set a colour. -/
def colourParams (fg : Bool) (r g b : UInt8) : List Nat :=
  [if fg then 38 else 48, 2, r.toNat, g.toNat, b.toNat]

/-- A command as bytes. -/
def Command.encode : Command → List UInt8
  | .goto row column    => csi [row + 1, column + 1] 0x48
  | .up n               => csi [n] 0x41
  | .down n             => csi [n] 0x42
  | .right n            => csi [n] 0x43
  | .left n             => csi [n] 0x44
  | .print text         => text.flatMap String.utf8EncodeChar
  | .insert text        => csi [4] 0x68 ++ text ++ csi [4] 0x6c
  | .insertBlanks n     => csi [n] 0x40
  | .deleteCharacters n => csi [n] 0x50
  | .insertLines n      => csi [n] 0x4c
  | .deleteLines n      => csi [n] 0x4d
  | .eraseCharacters n  => csi [n] 0x58
  | .eraseLine mode     => csi [mode] 0x4b
  | .eraseDisplay mode  => csi [mode] 0x4a
  | .colour fg r g b    => csi (colourParams fg r g b) 0x6d

/-- The numbers of a command fit into a parameter, and its text into the row of the cursor. -/
def Command.Fits (cols : Nat) (screen : Screen) : Command → Prop
  | .goto row column    => row + 1 < 2 ^ 32 ∧ column + 1 < 2 ^ 32
  | .print text         =>
    (∀ c ∈ text, Graphic c) ∧ screen.pen.cursor_x + (lineGlyphs text).length < cols
  | .insert text        =>
    (∀ c ∈ text, 0x20 ≤ c.toNat ∧ c.toNat < 0x7f) ∧ screen.pen.cursor_x + text.length < cols
  | .insertBlanks n     => 0 < n ∧ n < 2 ^ 32
  | .deleteCharacters n => n ≤ 2 ^ 31
  | .eraseCharacters n  => screen.pen.cursor_x + n ≤ cols
  | .eraseLine mode     => mode ≤ 2
  | .eraseDisplay mode  => mode ≤ 3
  | .colour ..          => True
  | .up n | .down n | .right n | .left n | .insertLines n | .deleteLines n => n < 2 ^ 32

/-- A colour with three components. -/
def rgbColour (r g b : UInt8) : UInt32 :=
  UInt32.ofNat (r.toNat * 2 ^ 16 + g.toNat * 2 ^ 8 + b.toNat)

/-- The pen with another colour of the characters, or of what is behind them. -/
def FbPen.coloured (pen : FbPen) (fg : Bool) (colour : UInt32) : FbPen :=
  if fg then { pen with text_fg := colour } else { pen with text_bg := colour }

/-- What a command means on a screen with this many rows and columns.  Colours are stored as the
    framebuffer wants them. -/
def Screen.draw (fb : FbSettings) (rows cols : Nat) (screen : Screen) (command : Command) :
    Screen :=
  let x := screen.pen.cursor_x
  let y := screen.pen.cursor_y
  match command with
  | .goto row column    => screen.place (min column (cols - 1)) (min row (rows - 1))
  | .up n               => screen.place x (y - n)
  | .down n             => screen.place x (min (y + n) (rows - 1))
  | .right n            => screen.place (min (x + n) (cols - 1)) y
  | .left n             => screen.place (x - n) y
  | .print text         =>
    { cell := rowText screen.cell y x (lineGlyphs text) screen.pen.text_fg screen.pen.text_bg
      pen  := { screen.pen with cursor_x := x + (lineGlyphs text).length } }
  | .insert text        =>
    { cell := rowInsert cols screen.cell y x (text.map screen.pen.char)
      pen  := { screen.pen with cursor_x := x + text.length } }
  | .insertBlanks n     =>
    { screen with
      cell := rowInsert cols screen.cell y x (List.replicate n screen.pen.empty) }
  | .deleteCharacters n =>
    { screen with cell := rowDelete cols screen.cell y x n screen.pen.empty }
  | .insertLines n      =>
    { screen with cell := lowerRows y rows n screen.pen.empty screen.cell }
  | .deleteLines n      =>
    { screen with cell := liftRows 0 rows n screen.pen.empty screen.cell }
  | .eraseCharacters n  =>
    { screen with cell := rowBlank screen.cell y x n screen.pen.empty }
  | .eraseLine mode     =>
    { screen with
      cell := rowBlank screen.cell y (if mode = 0 then x else 0)
        (if mode = 0 then cols - x else if mode = 1 then x else cols) screen.pen.empty }
  | .eraseDisplay mode  =>
    { screen with cell := eraseCells rows cols mode x y screen.cell screen.pen.empty }
  | .colour fg r g b    =>
    { screen with pen := screen.pen.coloured fg (convert_colour fb (rgbColour r g b)) }

/-- The cursor is on the screen. -/
def Screen.CursorInside (rows cols : Nat) (screen : Screen) : Prop :=
  screen.pen.cursor_x < cols ∧ screen.pen.cursor_y < rows

/-- What is to be seen in column `x` of row `y`: at the cursor the colours are reversed. -/
def Screen.shown (screen : Screen) (x y : Nat) : FlantermFbChar :=
  if screen.pen.At x y then (screen.cell y x).inverted else screen.cell y x

/-- The terminal is between two commands: the whole screen scrolls, the cursor is drawn, and no
    text is inserted or printed in another character set. -/
structure FlantermContext.Drawing (rows cols : Nat) (ctx : FlantermContext) : Prop
    extends ctx.Plain where
  rows_eq      : ctx.rows = rows
  cols_eq      : ctx.cols = cols
  dec_private  : ctx.dec_private = false
  cursor       : ctx.cursor_enabled = true
  top          : ctx.scroll_top_margin = 0
  bottom       : ctx.scroll_bottom_margin = ctx.rows
  rows_le_cols : rows ≤ cols
  cols_lt      : cols < 2 ^ 31

/-! ## Section 2: Colours -/

/-- The value of a component that is shifted to its place. -/
theorem toNat_component (v : UInt8) {k : UInt32} (hk : k.toNat ≤ 16) :
    (UInt32.ofNat v.toNat <<< k).toNat = v.toNat * 2 ^ k.toNat := by
  have hv := v.toNat_lt
  have hpow : v.toNat * 2 ^ k.toNat < 2 ^ 8 * 2 ^ 16 :=
    Nat.mul_lt_mul_of_lt_of_le hv (Nat.pow_le_pow_right Nat.two_pos hk) (Nat.two_pow_pos _)
  rw [UInt32.toNat_shiftLeft, UInt32.toNat_ofNat', Nat.mod_eq_of_lt (by omega : v.toNat < 2 ^ 32),
    Nat.mod_eq_of_lt (by omega : k.toNat < 32), Nat.shiftLeft_eq, Nat.mod_eq_of_lt (by omega)]

/-- The back end gets a colour as one number. -/
theorem shifts_eq_rgbColour (r g b : UInt8) :
    UInt32.ofNat r.toNat <<< 16 ||| UInt32.ofNat g.toNat <<< 8 ||| UInt32.ofNat b.toNat
      = rgbColour r g b := by
  have hr := r.toNat_lt
  have hg := g.toNat_lt
  have hb := b.toNat_lt
  have hhigh := Words.lor_eq_add (r.toNat * 2 ^ 16) (g.toNat * 2 ^ 8) 16 (by omega) (by omega)
  have hlow := Words.lor_eq_add (r.toNat * 2 ^ 16 + g.toNat * 2 ^ 8) b.toNat 8 (by omega)
    (by omega)
  apply UInt32.toNat_inj.mp
  rw [rgbColour, UInt32.toNat_or, UInt32.toNat_or, toNat_component r (by decide),
    toNat_component g (by decide), UInt32.toNat_ofNat', UInt32.toNat_ofNat',
    Nat.mod_eq_of_lt (by omega : b.toNat < _), Nat.mod_eq_of_lt (by omega)]
  show r.toNat * 2 ^ 16 ||| g.toNat * 2 ^ 8 ||| b.toNat = _
  rw [hhigh, hlow]

section canvas
variable (fb : FbSettings) {a : ScreenTerminal} {rows cols : Nat}

/-- The calls for a colour. -/
theorem sgr_colour (ctx : FlantermContext) (fg : Bool) (r g b : UInt8)
    (hvalues : ctx.values = (colourParams fg r g b).map UInt32.ofNat)
    (hi : ctx.esc_values_i ≠ 0) : sgr ctx = (ctx, ctx.calls
      [if fg then .set_text_fg_rgb (rgbColour r g b) else .set_text_bg_rgb (rgbColour r g b)]) := by
  rw [sgr, if_neg hi, hvalues, ← shifts_eq_rgbColour]
  cases fg
  · simp [colourParams, sgrLoop, sgrRgb]
  · simp [colourParams, sgrLoop, sgrRgb]

/-- **A colour is set**, of the characters or of what is behind them. -/
theorem write_colour (h : a.term.Ground) (hprivate : a.term.dec_private = false) (fg : Bool)
    (r g b : UInt8) : ∃ offset values i, a.write fb (csi (colourParams fg r g b) 0x6d)
      = ⟨a.term.afterSequence offset values i, { a.screen with
          pen := a.screen.pen.coloured fg (convert_colour fb (rgbColour r g b)) }⟩ := by
  obtain ⟨offset, hwrite⟩ := write_command fb h hprivate (colourParams fg r g b)
    (show Final 0x6d by decide)
  have hcontrol : ∀ x y, controlSequence (a.term.executing offset
      (parameters a.term (escDefault 0x6d) (colourParams fg r g b))
      (min (colourParams fg r g b).length FLANTERM_MAX_ESC_VALUES)) 0x6d x y = _ :=
    fun x y => sgr_colour _ fg r g b rfl (Nat.succ_ne_zero 4)
  refine ⟨offset, parameters a.term (escDefault 0x6d) (colourParams fg r g b), 5, ?_⟩
  simp only [hwrite, hcontrol]
  cases fg
  · rfl
  · rfl

/-! ## Section 3: One command -/

theorem FlantermContext.Drawing.afterSequence {ctx : FlantermContext} (h : ctx.Drawing rows cols)
    (offset : Nat) (values : Nat → UInt32) (i : Nat) :
    (ctx.afterSequence offset values i).Drawing rows cols :=
  { h with escape := rfl, control_sequence := rfl }

theorem FlantermContext.Drawing.decoding {ctx : FlantermContext} (h : ctx.Drawing rows cols)
    (cp : UInt64) : (ctx.decoding 0 cp).Drawing rows cols := { h with unicode_remaining := rfl }

/-- Erased parts of the screen are printed over. -/
theorem FlantermContext.Drawing.wholeScreen {ctx : FlantermContext} (h : ctx.Drawing rows cols) :
    WholeScreen ctx.still where
  scroll_enabled := rfl
  bottom         := h.bottom
  rows_le_cols   := by
    show ctx.rows ≤ ctx.cols
    rw [h.rows_eq, h.cols_eq]
    exact h.rows_le_cols
  rows_lt        := by
    show ctx.rows < 2 ^ 64
    have hle := h.rows_le_cols
    have hlt := h.cols_lt
    rw [h.rows_eq]
    omega

/-- Rows and columns are numbers that fit into a parameter. -/
theorem FlantermContext.Drawing.size_le {ctx : FlantermContext} (h : ctx.Drawing rows cols) :
    ctx.rows ≤ 2 ^ 32 ∧ ctx.cols ≤ 2 ^ 32 := by
  have hle := h.rows_le_cols
  have hlt := h.cols_lt
  rw [h.rows_eq, h.cols_eq]
  omega

/-- A cursor on the screen. -/
theorem FlantermContext.Drawing.cursorAt (h : a.term.Drawing rows cols)
    (hinside : a.screen.CursorInside rows cols) :
    a.screen.CursorAt a.term a.screen.pen.cursor_x a.screen.pen.cursor_y :=
  ⟨⟨hinside.1.trans_eq h.cols_eq.symm, hinside.2.trans_eq h.rows_eq.symm⟩, rfl, rfl⟩

/-- The screen after a sequence that changes no mode. -/
theorem FlantermContext.Drawing.drawn (h : a.term.Drawing rows cols) {buf : List UInt8}
    {screen : Screen} (hwrite : ∃ offset values i,
      a.write fb buf = ⟨a.term.afterSequence offset values i, screen⟩) :
    ∃ ctx, ctx.Drawing rows cols ∧ a.write fb buf = ⟨ctx, screen⟩ := by
  obtain ⟨offset, values, i, hwrite⟩ := hwrite
  exact ⟨_, h.afterSequence offset values i, hwrite⟩

/-- The cursor moves. -/
theorem write_moved (h : a.term.Drawing rows cols) (hinside : a.screen.CursorInside rows cols)
    {params : List Nat} {c : UInt8} (hc : Final c) {x y : Nat} (hx : x < cols) (hy : y < rows)
    (hcontrol : ∀ offset i, ∃ values, controlSequence
        (a.term.executing offset (parameters a.term (escDefault c) params) i) c
        a.screen.pen.cursor_x a.screen.pen.cursor_y
      = (a.term.executing offset values i,
          (a.term.executing offset values i).calls [.set_cursor_pos x y])) :
    ∃ ctx, ctx.Drawing rows cols ∧ a.write fb (csi params c) = ⟨ctx, a.screen.place x y⟩ := by
  have hplace : a.screen.performOps fb a.term.still [.set_cursor_pos x y] = a.screen.place x y :=
    performOps_place fb a.term.still a.screen (hx.trans_eq h.cols_eq.symm)
      (hy.trans_eq h.rows_eq.symm)
  apply h.drawn fb
  apply write_calls fb h.toGround h.dec_private params hc hplace
  rw [(h.cursorAt hinside).get]
  exact hcontrol

/-- The top of the screen is the upper margin. -/
theorem rowUp_zero (y n : Nat) : rowUp 0 y n = y - n := by
  rw [rowUp, if_pos (Nat.zero_le y), Nat.zero_max]

/-- The end of the screen is the lower margin. -/
theorem rowDown_rows {rows : Nat} (hrows : 0 < rows) (y n : Nat) :
    rowDown rows rows y n = min (y + n) (rows - 1) :=
  if_neg (by omega)

/-- **A movement**: up, down, right or left. -/
theorem write_movement (h : a.term.Drawing rows cols) (hinside : a.screen.CursorInside rows cols)
    {n : Nat} (hn : n < 2 ^ 32) {command : Command}
    (hcommand : command = .up n ∨ command = .down n ∨ command = .right n ∨ command = .left n) :
    ∃ ctx, ctx.Drawing rows cols ∧
      a.write fb command.encode = ⟨ctx, a.screen.draw fb rows cols command⟩ := by
  have hx : a.screen.pen.cursor_x < a.term.cols := hinside.1.trans_eq h.cols_eq.symm
  have hy : a.screen.pen.cursor_y < a.term.rows := hinside.2.trans_eq h.rows_eq.symm
  obtain ⟨hrows, hcols⟩ := h.size_le
  have hmargins : a.term.scroll_top_margin < a.term.scroll_bottom_margin := by
    rw [h.top, h.bottom]
    exact a.term.rows_pos
  obtain rfl | rfl | rfl | rfl := hcommand
  · apply write_moved fb h hinside (by decide) hinside.1
      ((Nat.sub_le _ n).trans_lt hinside.2)
    intro offset i
    have hcursor := cursorUp_eq
      (a.term.executing offset (parameters a.term (escDefault 0x41) [n]) i) hmargins hrows
      a.screen.pen.cursor_x hy
    rw [value_executing a.term offset i (escDefault 0x41) hn] at hcursor
    rw [← rowUp_zero, ← h.top]
    exact hcursor
  · apply write_moved fb h hinside (by decide) hinside.1
      (y := min (a.screen.pen.cursor_y + n) (rows - 1))
      ((Nat.min_le_right _ _).trans_lt (Nat.sub_one_lt_of_lt hinside.2))
    intro offset i
    have hcursor := cursorDown_eq
      (a.term.executing offset (parameters a.term (escDefault 0x42) [n]) i) hmargins hrows
      h.bottom.le a.screen.pen.cursor_x hy
    rw [value_executing a.term offset i (escDefault 0x42) hn] at hcursor
    have hrow : min (a.screen.pen.cursor_y + n) (rows - 1)
        = rowDown a.term.rows a.term.scroll_bottom_margin a.screen.pen.cursor_y n := by
      rw [h.bottom, rowDown_rows a.term.rows_pos, h.rows_eq]
    rw [hrow]
    exact hcursor
  · apply write_moved fb h hinside (by decide)
      (x := min (a.screen.pen.cursor_x + n) (cols - 1))
      ((Nat.min_le_right _ _).trans_lt (Nat.sub_one_lt_of_lt hinside.1)) hinside.2
    intro offset i
    have hcursor := cursorRight_eq
      (a.term.executing offset (parameters a.term (escDefault 0x43) [n]) i) hcols hx
      a.screen.pen.cursor_y
    rw [value_executing a.term offset i (escDefault 0x43) hn] at hcursor
    rw [← h.cols_eq]
    exact hcursor
  · apply write_moved fb h hinside (by decide) ((Nat.sub_le _ n).trans_lt hinside.1) hinside.2
    intro offset i
    have hcursor := cursorLeft_eq
      (a.term.executing offset (parameters a.term (escDefault 0x44) [n]) i) hcols hx
      a.screen.pen.cursor_y
    rw [value_executing a.term offset i (escDefault 0x44) hn] at hcursor
    exact hcursor

/-- **A command**: its bytes draw what it means. -/
theorem write_encode (h : a.term.Drawing rows cols) (hinside : a.screen.CursorInside rows cols)
    {command : Command} (hfits : command.Fits cols a.screen) : ∃ ctx, ctx.Drawing rows cols ∧
      a.write fb command.encode = ⟨ctx, a.screen.draw fb rows cols command⟩ := by
  have hcursor := h.cursorAt hinside
  obtain ⟨hrows, hcols⟩ := h.size_le
  have hbottom : a.term.scroll_bottom_margin = rows := h.bottom.trans h.rows_eq
  have hmargin : a.screen.pen.cursor_y < a.term.scroll_bottom_margin :=
    hinside.2.trans_eq hbottom.symm
  cases command with
  | goto row column =>
    obtain ⟨hrow, hcolumn⟩ := hfits
    have hwrite := write_cursorPosition fb h.toGround h.dec_private hrows hcols (row + 1)
      (column + 1)
    rw [Nat.mod_eq_of_lt hrow, Nat.mod_eq_of_lt hcolumn, Nat.add_sub_cancel, Nat.add_sub_cancel,
      h.rows_eq, h.cols_eq] at hwrite
    exact h.drawn fb hwrite
  | up n => exact write_movement fb h hinside hfits (.inl rfl)
  | down n => exact write_movement fb h hinside hfits (.inr (.inl rfl))
  | right n => exact write_movement fb h hinside hfits (.inr (.inr (.inl rfl)))
  | left n => exact write_movement fb h hinside hfits (.inr (.inr (.inr rfl)))
  | print text =>
    obtain ⟨htext, hroom⟩ := hfits
    obtain ⟨cp, hwrite⟩ := write_text fb h.toPlain htext (hroom.le.trans_eq h.cols_eq.symm)
    exact ⟨_, h.decoding cp, hwrite⟩
  | insert text =>
    obtain ⟨htext, hroom⟩ := hfits
    have hwrite := write_inserted fb h.toPlain h.dec_private hcursor htext
      (hroom.le.trans_eq h.cols_eq.symm)
    rw [h.cols_eq] at hwrite
    exact h.drawn fb hwrite
  | insertBlanks n =>
    have hwrite := write_insertBlanks fb h.toGround h.dec_private hcursor hfits.1 hfits.2
    rw [h.cols_eq] at hwrite
    exact h.drawn fb hwrite
  | deleteCharacters n =>
    have hwrite := write_deleteCharacters fb h.toGround h.dec_private hcursor hfits
      (h.cols_eq.trans_lt h.cols_lt)
    rw [h.cols_eq] at hwrite
    exact h.drawn fb hwrite
  | insertLines n =>
    have hwrite := write_insertLines fb h.toGround h.dec_private hcursor hmargin h.bottom.le hfits
    rw [hbottom] at hwrite
    exact h.drawn fb hwrite
  | deleteLines n =>
    have hwrite := write_deleteLines fb h.toGround h.dec_private
      (h.top.trans_lt (Nat.zero_lt_of_lt hmargin)) h.bottom.le hfits
    rw [h.top, hbottom] at hwrite
    exact h.drawn fb hwrite
  | eraseCharacters n =>
    have hlt := h.cols_lt
    have hsmall : n < 2 ^ 32 := by
      have hroom : a.screen.pen.cursor_x + n ≤ cols := hfits
      omega
    exact h.drawn fb (write_eraseCharacters fb h.toGround h.dec_private hcursor hsmall
      (hfits.trans_eq h.cols_eq.symm))
  | eraseLine mode =>
    have hwrite := write_eraseLine fb h.toGround h.dec_private hcursor hfits
    rw [h.cols_eq] at hwrite
    exact h.drawn fb hwrite
  | eraseDisplay mode =>
    have hwrite := write_eraseDisplay fb h.toGround h.dec_private h.wholeScreen hcursor hfits
    rw [h.rows_eq, h.cols_eq] at hwrite
    exact h.drawn fb hwrite
  | colour fg r g b => exact h.drawn fb (write_colour fb h.toGround h.dec_private fg r g b)

/-! ## Section 4: Programs -/

/-- A command leaves the cursor on the screen. -/
theorem draw_inside {screen : Screen} (hinside : screen.CursorInside rows cols)
    {command : Command} (hfits : command.Fits cols screen) :
    (screen.draw fb rows cols command).CursorInside rows cols := by
  obtain ⟨hx, hy⟩ := hinside
  cases command with
  | goto row column =>
    exact ⟨(Nat.min_le_right _ _).trans_lt (Nat.sub_one_lt_of_lt hx),
      (Nat.min_le_right _ _).trans_lt (Nat.sub_one_lt_of_lt hy)⟩
  | up n => exact ⟨hx, (Nat.sub_le _ n).trans_lt hy⟩
  | down n => exact ⟨hx, (Nat.min_le_right _ _).trans_lt (Nat.sub_one_lt_of_lt hy)⟩
  | right n => exact ⟨(Nat.min_le_right _ _).trans_lt (Nat.sub_one_lt_of_lt hx), hy⟩
  | left n => exact ⟨(Nat.sub_le _ n).trans_lt hx, hy⟩
  | print text | insert text => exact ⟨hfits.2, hy⟩
  | colour fg r g b =>
    cases fg
    · exact ⟨hx, hy⟩
    · exact ⟨hx, hy⟩
  | _ => exact ⟨hx, hy⟩

/-- **A program**: written to the terminal, the bytes of its commands draw what they mean, one
    after the other. -/
theorem write_program (h : a.term.Drawing rows cols) (hinside : a.screen.CursorInside rows cols)
    {program : List Command}
    (hfits : Along (Screen.draw fb rows cols) (fun screen command => command.Fits cols screen)
      a.screen program) :
    ∃ ctx, ctx.Drawing rows cols ∧
      (run (Screen.draw fb rows cols) a.screen program).CursorInside rows cols ∧
      a.write fb (program.flatMap Command.encode)
        = ⟨ctx, run (Screen.draw fb rows cols) a.screen program⟩ := by
  induction program generalizing a with
  | nil => exact ⟨a.term, h, hinside, rfl⟩
  | cons command program ih =>
    obtain ⟨hcommand, hrest⟩ := hfits
    obtain ⟨ctx, hctx, hwrite⟩ := write_encode fb h hinside hcommand
    obtain ⟨ctx', hctx', hinside', hprogram⟩ :=
      ih (a := ⟨ctx, a.screen.draw fb rows cols command⟩) hctx (draw_inside fb hinside hcommand)
        hrest
    refine ⟨ctx', hctx', hinside', ?_⟩
    rw [List.flatMap_cons, ScreenTerminal.write_append, hwrite, hprogram]
    rfl

/-- The cursor is shown at its place. -/
theorem FlantermContext.Drawing.shown_eq (h : a.term.Drawing rows cols)
    (hinside : a.screen.CursorInside rows cols) (x y : Nat) :
    a.shown x y = a.screen.shown x y := by
  have hlit : Lit a.term a.screen.pen :=
    ⟨h.cursor, hinside.1.trans_eq h.cols_eq.symm, hinside.2.trans_eq h.rows_eq.symm⟩
  rw [ScreenTerminal.shown, shownChar, Screen.shown]
  simp only [hlit, true_and]

end canvas

/-! ## Section 5: From the framebuffer to the pixels -/

section pixels
variable (f : LimineFramebuffer)

/-- A new terminal. -/
theorem freshTerm_drawing (hwide : f.rows ≤ f.cols) : (freshTerm f).Drawing f.rows f.cols where
  toPlain      := (freshTerm_typewriter f hwide).toPlain
  rows_eq      := rfl
  cols_eq      := rfl
  dec_private  := rfl
  cursor       := rfl
  top          := rfl
  bottom       := rfl
  rows_le_cols := hwide
  cols_lt      := (cells_le f).2.trans_lt (by omega)

/-- **A program on a new terminal**: it does not matter how its bytes are divided into texts;
    in the end each pixel belongs to the character that the program has drawn there. -/
theorem flanterm_fb_init_draws (hwide : f.rows ≤ f.cols) (builtin_font : Nat → UInt8)
    (mem : Nat → UInt32) {program : List Command} {texts : List (List UInt8)}
    (htexts : texts.flatten = program.flatMap Command.encode)
    (hfits : ∀ font_bool, Along (Screen.draw (settings f font_bool) f.rows f.cols)
      (fun screen command => command.Fits f.cols screen)
      (ScreenTerminal.fresh f (settings f font_bool)).screen program) : ∃ font_bool t t' pool,
    flanterm_fb_init f builtin_font mem ⟨0, false⟩ = some (some (settings f font_bool, t), pool) ∧
      exec (flanterm_write (settings f font_bool)) t texts = some t' ∧
      ∀ x y gy gx, x < f.cols → y < f.rows → gy < f.glyphHeight → gx < f.glyphWidth →
        t'.fb.framebuffer (wordIndex (settings f font_bool) x y gy gx)
          = f.pixel builtin_font (settings f font_bool)
              ((run (Screen.draw (settings f font_bool) f.rows f.cols)
                  (ScreenTerminal.fresh f (settings f font_bool)).screen program).shown x y)
              gy gx := by
  obtain ⟨font_bool, t, pool, hinit, -, hdots, hshows, -⟩ :=
    flanterm_fb_init_spec f builtin_font mem
  obtain ⟨t', hrun, hshows', -⟩ :=
    writes_show (settings_fits f font_bool) (settings_draws f font_bool) hshows texts
  obtain ⟨ctx, hctx, hinside, hwrite⟩ := write_program (settings f font_bool)
    (freshTerm_drawing f hwide) ⟨cols_pos f, rows_pos f⟩ (hfits font_bool)
  refine ⟨font_bool, t, t', pool, hinit, hrun, ?_⟩
  intro x y gy gx hx hy hgy hgx
  rw [hshows'.pixel hdots hx hy hgy hgx, htexts, hwrite, hctx.shown_eq hinside]

/-- A character behind a colour. -/
theorem flanterm_fb_init_draws_vga : ∃ font_bool t t' pool,
    flanterm_fb_init .vga (fun _ => 0xff) (fun _ => 0) ⟨0, false⟩
      = some (some (settings .vga font_bool, t), pool) ∧
      exec (flanterm_write (settings .vga font_bool)) t
        [csi [2, 4] 0x48, csi [38, 2, 255, 128, 0] 0x6d ++ [0x78]] = some t' ∧
      t'.fb.framebuffer (wordIndex (settings .vga font_bool) 3 1 0 0)
        = LimineFramebuffer.vga.pixel (fun _ => 0xff) (settings .vga font_bool)
            ⟨0x78, convert_colour (settings .vga font_bool) 0xff8000, 0xffffffff⟩ 0 0 := by
  obtain ⟨font_bool, t, t', pool, hinit, hrun, hpixel⟩ := flanterm_fb_init_draws .vga (by decide)
    (fun _ => 0xff) (fun _ => 0)
    (show [csi [2, 4] 0x48, csi [38, 2, 255, 128, 0] 0x6d ++ [0x78]].flatten
      = [.goto 1 3, .colour true 0xff 0x80 0, .print ['x']].flatMap Command.encode from rfl)
    fun _ => ⟨⟨by decide, by decide⟩, trivial,
      ⟨List.all_iff_forall_prop.mp (by decide), show 3 + 1 < 71 by decide⟩, trivial⟩
  exact ⟨font_bool, t, t', pool, hinit, hrun,
    hpixel 3 1 0 0 (by decide) (by decide) (by decide) (by decide)⟩

end pixels

end Flanterm

end ArgaldOS
