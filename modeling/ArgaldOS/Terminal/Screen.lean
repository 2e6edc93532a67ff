import ArgaldOS.Terminal.Model

/-! # What the terminal is for

    A screen is a grid of characters with a cursor.  The back end is to behave as if
    every call changed the screen at once: lines move up or down between the
    margins, characters move inside a line, and a character that is printed appears
    at the cursor.  Nothing is queued here.

    * `Screen.perform`: the effect of a call;
    * `Call.Valid`: the calls that the front end makes;
    * `Refines`: the back end shows the screen.
-/

namespace ArgaldOS

namespace Flanterm

open Arrays

/-! ## Section 1: Screens -/

/-- A screen: the character in row `y` and column `x` is `cell y x`. -/
structure Screen where
  cell : Nat → Nat → FlantermFbChar
  pen  : FbPen

namespace Screen

/-- `c` appears in row `y` and column `x`. -/
def put (cell : Nat → Nat → FlantermFbChar) (y x : Nat) (c : FlantermFbChar) :
    Nat → Nat → FlantermFbChar :=
  Function.update cell y (Function.update (cell y) x c)

theorem put_apply (cell : Nat → Nat → FlantermFbChar) (y x : Nat) (c : FlantermFbChar)
    (y' x' : Nat) : put cell y x c y' x' = if y' = y ∧ x' = x then c else cell y' x' := by
  by_cases hy : y' = y
  · by_cases hx : x' = x
    · rw [put, hy, hx, Function.update_self, Function.update_self, if_pos ⟨rfl, rfl⟩]
    · rw [put, hy, Function.update_self, Function.update_of_ne hx, if_neg (fun h => hx h.2)]
  · rw [put, Function.update_of_ne hy, if_neg (fun h => hy h.1)]

/-- The lines from `top` to `bottom - 1` move up by one, and the last of them is
    cleared. -/
def moveUp (top bottom : Nat) (blank : FlantermFbChar) (cell : Nat → Nat → FlantermFbChar) :
    Nat → Nat → FlantermFbChar := fun y x =>
  if y + 1 = bottom then blank
  else if top ≤ y ∧ y + 1 < bottom then cell (y + 1) x
  else cell y x

/-- The lines from `top` to `bottom - 1` move down by one, and the first of them is
    cleared. -/
def moveDown (top bottom : Nat) (blank : FlantermFbChar) (cell : Nat → Nat → FlantermFbChar) :
    Nat → Nat → FlantermFbChar := fun y x =>
  if y = top then blank
  else if top < y ∧ y < bottom then cell (y - 1) x
  else cell y x

/-- The colours after a call that sets one. -/
def recolour (fb : FbSettings) (pen : FbPen) : Op → FbPen
  | .set_text_fg fg => { pen with text_fg := fb.ansi_colours fg }
  | .set_text_bg bg => { pen with text_bg := fb.ansi_colours bg }
  | .set_text_fg_bright fg => { pen with text_fg := fb.ansi_bright_colours fg }
  | .set_text_bg_bright bg => { pen with text_bg := fb.ansi_bright_colours bg }
  | .set_text_fg_rgb fg => { pen with text_fg := convert_colour fb fg }
  | .set_text_bg_rgb bg => { pen with text_bg := convert_colour fb bg }
  | .set_text_fg_default => { pen with text_fg := fb.default_fg }
  | .set_text_bg_default => { pen with text_bg := 0xffffffff }
  | .set_text_fg_default_bright => { pen with text_fg := fb.default_fg_bright }
  | .set_text_bg_default_bright => { pen with text_bg := fb.default_bg_bright }
  | _ => pen

/-- A character is printed at the cursor, in the next line if this one is full. -/
def print (ctx : FlantermContext) (s : Screen) (c : UInt8) : Screen :=
  let cell :=
    if wraps ctx s.pen ∧ wrapScrolls ctx s.pen then
      moveUp ctx.scroll_top_margin ctx.scroll_bottom_margin s.pen.empty s.cell
    else s.cell
  let pen := printPen ctx s.pen
  { cell :=
      if pen.cursor_x < ctx.cols then
        put cell pen.cursor_y pen.cursor_x ⟨c.toUInt32, pen.text_fg, pen.text_bg⟩
      else cell
    pen := { pen with cursor_x := pen.cursor_x + 1 } }

/-- The effect of a call. -/
def perform (fb : FbSettings) (s : Screen) (call : Call) : Screen :=
  let ctx := call.ctx
  match call.op with
  | .raw_putchar c => s.print ctx c
  | .clear move =>
    { cell := fun _ _ => s.pen.empty
      pen := if move then { s.pen with cursor_x := 0, cursor_y := 0 } else s.pen }
  | .set_cursor_pos x y => { s with pen := set_cursor_pos ctx s.pen x y }
  | .move_character new_x new_y old_x old_y =>
    if new_x < ctx.cols ∧ old_x < ctx.cols ∧ old_y < ctx.rows then
      { s with cell := put s.cell new_y new_x (s.cell old_y old_x) }
    else s
  | .scroll =>
    { s with cell := moveUp ctx.scroll_top_margin ctx.scroll_bottom_margin s.pen.empty s.cell }
  | .revscroll =>
    { s with cell := moveDown ctx.scroll_top_margin ctx.scroll_bottom_margin s.pen.empty s.cell }
  | .swap_palette => { s with pen := swap_palette s.pen }
  | .save_state => { s with pen := save_state s.pen }
  | .restore_state => { s with pen := restore_state s.pen }
  | op => { s with pen := recolour fb s.pen op }

end Screen

/-- The back end of this terminal is large enough for `rows` lines of `cols` columns. -/
structure FbSettings.Fits (fb : FbSettings) (rows cols : Nat) : Prop where
  cells    : fb.cells = rows * cols
  rows_lt  : rows < 2 ^ 31
  cols_lt  : cols < 2 ^ 31

/-- The number of a colour is one of eight. -/
def Op.InPalette : Op → Prop
  | .set_text_fg n | .set_text_bg n | .set_text_fg_bright n | .set_text_bg_bright n => n < 8
  | _ => True

/-- The front end makes only calls like this one: the margins are inside the screen, and
    a colour is one of eight. -/
structure Call.Valid (rows cols : Nat) (call : Call) : Prop where
  rows_eq : call.ctx.rows = rows
  cols_eq : call.ctx.cols = cols
  top     : call.ctx.scroll_top_margin < rows
  bottom  : 0 < call.ctx.scroll_bottom_margin ∧ call.ctx.scroll_bottom_margin ≤ rows
  margins : call.op ≠ .revscroll → call.ctx.scroll_top_margin < call.ctx.scroll_bottom_margin
  colour  : call.op.InPalette

/-! ## Section 2: The queue as a buffer of deferred writes -/

/-- The grid with its queue, where an item is for the index of its place. -/
def FbBuffer.toBuffer (cols : Nat) (b : FbBuffer) : WriteBack.Buffer FlantermFbChar where
  base  := b.grid
  queue := fun q => ((b.queue q).y * cols + (b.queue q).x, (b.queue q).c)
  count := b.queue_i
  slot  := b.map

/-- What the back end shows at index `i`, once the queue is drawn. -/
def FbBuffer.view (cols : Nat) (b : FbBuffer) : Nat → FlantermFbChar := (b.toBuffer cols).view

/-- The queue is consistent, and its items are inside the screen. -/
structure FbBuffer.Ok (rows cols : Nat) (b : FbBuffer) : Prop where
  linked : (b.toBuffer cols).Linked (rows * cols)
  inside : ∀ q, q < b.queue_i → (b.queue q).x < cols ∧ (b.queue q).y < rows

/-- The characters of a grid, read by index. -/
def Shows (rows cols : Nat) (v : Nat → FlantermFbChar) (cell : Nat → Nat → FlantermFbChar) :
    Prop := ∀ y, y < rows → ∀ x, x < cols → v (y * cols + x) = cell y x

/-- The back end shows the screen. -/
structure Refines (rows cols : Nat) (s : FlantermFbContext) (screen : Screen) : Prop where
  ok    : s.buffer.Ok rows cols
  shows : Shows rows cols (s.buffer.view cols) screen.cell
  pen   : s.pen = screen.pen

end Flanterm

end ArgaldOS
