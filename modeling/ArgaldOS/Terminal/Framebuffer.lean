import ArgaldOS.Framework.Arrays
import ArgaldOS.Framework.WriteBack
import ArgaldOS.Terminal.Context

/-! # The back end of the terminal (`flanterm/backends/fb.c`)

    The screen is a grid of characters.  The functions that change it do not draw:
    they queue the characters, and `double_buffer_flush` draws what is in the queue.
    `map` tells for each place of the grid whether a character is queued for it, and
    where in the queue.

    Every access to `grid`, `queue`, `map`, `font_bool`, the colour tables and the
    framebuffer is checked: the result `none` is an access out of bounds.
    `framebuffer` is the memory from the pointer `ctx->framebuffer` on, in words of
    32 bits.

    The kernel has no canvas, and is built without `FLANTERM_FB_ENABLE_MASKING`.
-/

namespace ArgaldOS

namespace Flanterm

open Arrays

/-! ## Section 1: State -/

/-- `struct flanterm_fb_char`. -/
structure FlantermFbChar where
  c  : UInt32
  fg : UInt32
  bg : UInt32
  deriving DecidableEq, Repr

/-- `struct flanterm_fb_queue_item`. -/
structure FlantermFbQueueItem where
  x : Nat
  y : Nat
  c : FlantermFbChar

/-- The fields of `struct flanterm_fb_context` that `flanterm_fb_init` sets and
    nothing changes. -/
structure FbSettings where
  font_width          : Nat
  font_height         : Nat
  glyph_width         : Nat
  glyph_height        : Nat
  font_scale_x        : Nat
  font_scale_y        : Nat
  offset_x            : Nat
  offset_y            : Nat
  pitch               : Nat
  width               : Nat
  height              : Nat
  red_mask_shift      : UInt32
  green_mask_shift    : UInt32
  blue_mask_shift     : UInt32
  font_bool_size      : Nat
  font_bool           : Nat → Bool
  ansi_colours        : Nat → UInt32
  ansi_bright_colours : Nat → UInt32
  default_fg          : UInt32
  default_bg          : UInt32
  default_fg_bright   : UInt32
  default_bg_bright   : UInt32
  /-- The number of elements of `grid`, of `queue` and of `map`. -/
  cells               : Nat
  /-- The number of words behind `framebuffer`. -/
  words               : Nat

/-- The grid and what is queued for it. -/
structure FbBuffer where
  grid    : Nat → FlantermFbChar
  queue   : Nat → FlantermFbQueueItem
  queue_i : Nat
  /-- A pointer into `queue` is the index of the item. -/
  map     : Nat → Option Nat

/-- The cursor and the colours, with what is saved of them. -/
structure FbPen where
  text_fg              : UInt32
  text_bg              : UInt32
  cursor_x             : Nat
  cursor_y             : Nat
  saved_state_text_fg  : UInt32
  saved_state_text_bg  : UInt32
  saved_state_cursor_x : Nat
  saved_state_cursor_y : Nat
  deriving DecidableEq

/-- `struct flanterm_fb_context`: the fields that change. -/
structure FlantermFbContext where
  buffer       : FbBuffer
  pen          : FbPen
  framebuffer  : Nat → UInt32
  old_cursor_x : Nat
  old_cursor_y : Nat

/-! ## Section 2: The queue -/

section queue
variable (fb : FbSettings) (ctx : FlantermContext)

/-- `compare_char`. -/
def compare_char (a b : FlantermFbChar) : Bool :=
  !(a.c != b.c || a.bg != b.bg || a.fg != b.fg)

/-- `push_to_queue`. -/
def push_to_queue (b : FbBuffer) (c : FlantermFbChar) (x y : Nat) : Option FbBuffer :=
  if x ≥ ctx.cols ∨ y ≥ ctx.rows then some b
  else do
    let i := y * ctx.cols + x
    match ← load fb.cells b.map i with
    | some q =>
      let item ← load fb.cells b.queue q
      let queue ← store fb.cells b.queue q { item with c := c }
      some { b with queue := queue }
    | none =>
      let old ← load fb.cells b.grid i
      if compare_char old c then some b
      else
        let queue ← store fb.cells b.queue b.queue_i ⟨x, y, c⟩
        let map ← store fb.cells b.map i (some b.queue_i)
        some { b with queue := queue, queue_i := b.queue_i + 1, map := map }

/-- The character at index `i`: the queued one, if there is one. -/
def charAt (b : FbBuffer) (i : Nat) : Option FlantermFbChar := do
  match ← load fb.cells b.map i with
  | some q => some (← load fb.cells b.queue q).c
  | none => load fb.cells b.grid i

/-- The character at index `i` is queued for index `j`. -/
def copyChar (b : FbBuffer) (i j : Nat) : Option FbBuffer := do
  let c ← charAt fb b i
  push_to_queue fb ctx b c (j % ctx.cols) (j / ctx.cols)

/-- The variable `empty` of the functions that clear: a blank in the current
    colours. -/
def FbPen.empty (pen : FbPen) : FlantermFbChar := ⟨0x20, pen.text_fg, pen.text_bg⟩

/-- A line is cleared. -/
def clearLine (pen : FbPen) (b : FbBuffer) (y : Nat) : Option FbBuffer :=
  (List.range ctx.cols).foldlM (fun b i => push_to_queue fb ctx b pen.empty i y) b

/-- `flanterm_fb_revscroll`. -/
def revscroll (pen : FbPen) (b : FbBuffer) : Option FbBuffer := do
  let bottom := sizeSub ctx.scroll_bottom_margin 1 * ctx.cols
  let top := ctx.scroll_top_margin * ctx.cols
  let b ← (List.range' top (bottom - top)).reverse.foldlM
    (fun b i => copyChar fb ctx b i (i + ctx.cols)) b
  clearLine fb ctx pen b ctx.scroll_top_margin

/-- `flanterm_fb_scroll`. -/
def scroll (pen : FbPen) (b : FbBuffer) : Option FbBuffer := do
  let top := (ctx.scroll_top_margin + 1) * ctx.cols
  let bottom := ctx.scroll_bottom_margin * ctx.cols
  let b ← (List.range' top (bottom - top)).foldlM
    (fun b i => copyChar fb ctx b i (i - ctx.cols)) b
  clearLine fb ctx pen b (sizeSub ctx.scroll_bottom_margin 1)

/-- The loop of `flanterm_fb_clear`. -/
def clear (pen : FbPen) (b : FbBuffer) : Option FbBuffer :=
  (List.range (ctx.rows * ctx.cols)).foldlM
    (fun b i => push_to_queue fb ctx b pen.empty (i % ctx.cols) (i / ctx.cols)) b

/-- `flanterm_fb_move_character`. -/
def move_character (b : FbBuffer) (new_x new_y old_x old_y : Nat) : Option FbBuffer :=
  if old_x ≥ ctx.cols ∨ old_y ≥ ctx.rows ∨ new_x ≥ ctx.cols ∨ new_y ≥ ctx.rows then some b
  else do
    let c ← charAt fb b (old_x + old_y * ctx.cols)
    push_to_queue fb ctx b c new_x new_y

end queue

/-! ## Section 3: The cursor and the colours -/

section pen
variable (ctx : FlantermContext) (pen : FbPen)

/-- A coordinate that `flanterm_fb_set_cursor_pos` puts into the screen: `(int)x < 0` looks
    at bit 31. -/
def clampPos (x limit : Nat) : Nat :=
  if x ≥ limit then if x % 2 ^ 32 ≥ 2 ^ 31 then 0 else limit - 1 else x

/-- `flanterm_fb_set_cursor_pos`. -/
def set_cursor_pos (x y : Nat) : FbPen :=
  { pen with cursor_x := clampPos x ctx.cols, cursor_y := clampPos y ctx.rows }

/-- `flanterm_fb_get_cursor_pos`. -/
def get_cursor_pos : Nat × Nat :=
  (if pen.cursor_x ≥ ctx.cols then ctx.cols - 1 else pen.cursor_x,
   if pen.cursor_y ≥ ctx.rows then ctx.rows - 1 else pen.cursor_y)

/-- `flanterm_fb_save_state`. -/
def save_state : FbPen :=
  { pen with
    saved_state_text_fg  := pen.text_fg
    saved_state_text_bg  := pen.text_bg
    saved_state_cursor_x := pen.cursor_x
    saved_state_cursor_y := pen.cursor_y }

/-- `flanterm_fb_restore_state`. -/
def restore_state : FbPen :=
  { pen with
    text_fg  := pen.saved_state_text_fg
    text_bg  := pen.saved_state_text_bg
    cursor_x := pen.saved_state_cursor_x
    cursor_y := pen.saved_state_cursor_y }

/-- `flanterm_fb_swap_palette`. -/
def swap_palette : FbPen := { pen with text_fg := pen.text_bg, text_bg := pen.text_fg }

/-- `convert_colour`. -/
def convert_colour (fb : FbSettings) (colour : UInt32) : UInt32 :=
  let r := (colour >>> 16) &&& 0xff
  let g := (colour >>> 8) &&& 0xff
  let b := colour &&& 0xff
  (r <<< fb.red_mask_shift) ||| (g <<< fb.green_mask_shift) ||| (b <<< fb.blue_mask_shift)

/-- The functions of the back end that set a colour. -/
def set_colour (fb : FbSettings) : Op → Option FbPen
  | .set_text_fg fg => do some { pen with text_fg := ← load 8 fb.ansi_colours fg }
  | .set_text_bg bg => do some { pen with text_bg := ← load 8 fb.ansi_colours bg }
  | .set_text_fg_bright fg => do some { pen with text_fg := ← load 8 fb.ansi_bright_colours fg }
  | .set_text_bg_bright bg => do some { pen with text_bg := ← load 8 fb.ansi_bright_colours bg }
  | .set_text_fg_rgb fg => some { pen with text_fg := convert_colour fb fg }
  | .set_text_bg_rgb bg => some { pen with text_bg := convert_colour fb bg }
  | .set_text_fg_default => some { pen with text_fg := fb.default_fg }
  | .set_text_bg_default => some { pen with text_bg := 0xffffffff }
  | .set_text_fg_default_bright => some { pen with text_fg := fb.default_fg_bright }
  | .set_text_bg_default_bright => some { pen with text_bg := fb.default_bg_bright }
  | _ => some pen

/-- The first `if` of `flanterm_fb_raw_putchar`: a new line has to begin. -/
def wraps : Prop :=
  pen.cursor_x ≥ ctx.cols ∧
    (pen.cursor_y < sizeSub ctx.scroll_bottom_margin 1 ∨ ctx.scroll_enabled = true)

instance : Decidable (wraps ctx pen) := by unfold wraps; infer_instance

/-- The new line is below the margin. -/
def wrapScrolls : Prop := pen.cursor_y + 1 = ctx.scroll_bottom_margin

instance : Decidable (wrapScrolls ctx pen) := by unfold wrapScrolls; infer_instance

/-- The cursor at the beginning of the new line.  The last row that it may reach is
    computed from `cols`. -/
def wrapped : FbPen :=
  let cursor_y := if wrapScrolls ctx pen then pen.cursor_y else pen.cursor_y + 1
  { pen with cursor_x := 0, cursor_y := if cursor_y ≥ ctx.cols then ctx.cols - 1 else cursor_y }

/-- Where and how the next character is printed. -/
def printPen : FbPen := if wraps ctx pen then wrapped ctx pen else pen

end pen

/-! ## Section 4: Calls -/

section perform
variable (fb : FbSettings)

/-- The grid, when the next character is printed. -/
def printBuffer (ctx : FlantermContext) (s : FlantermFbContext) : Option FbBuffer :=
  if wraps ctx s.pen ∧ wrapScrolls ctx s.pen then scroll fb ctx s.pen s.buffer
  else some s.buffer

/-- `flanterm_fb_raw_putchar`. -/
def raw_putchar (ctx : FlantermContext) (s : FlantermFbContext) (c : UInt8) :
    Option FlantermFbContext := do
  let buffer ← printBuffer fb ctx s
  let pen := printPen ctx s.pen
  let buffer ← push_to_queue fb ctx buffer ⟨c.toUInt32, pen.text_fg, pen.text_bg⟩
    pen.cursor_x pen.cursor_y
  some { s with buffer := buffer, pen := { pen with cursor_x := pen.cursor_x + 1 } }

/-- A call of the back end. -/
def perform (s : FlantermFbContext) (call : Call) : Option FlantermFbContext :=
  let ctx := call.ctx
  match call.op with
  | .raw_putchar c => raw_putchar fb ctx s c
  | .clear move => do
    let buffer ← clear fb ctx s.pen s.buffer
    some { s with
      buffer := buffer
      pen := if move then { s.pen with cursor_x := 0, cursor_y := 0 } else s.pen }
  | .set_cursor_pos x y => some { s with pen := set_cursor_pos ctx s.pen x y }
  | .move_character new_x new_y old_x old_y => do
    some { s with buffer := ← move_character fb ctx s.buffer new_x new_y old_x old_y }
  | .scroll => do some { s with buffer := ← scroll fb ctx s.pen s.buffer }
  | .revscroll => do some { s with buffer := ← revscroll fb ctx s.pen s.buffer }
  | .swap_palette => some { s with pen := swap_palette s.pen }
  | .save_state => some { s with pen := save_state s.pen }
  | .restore_state => some { s with pen := restore_state s.pen }
  | op => do some { s with pen := ← set_colour s.pen fb op }

end perform

/-! ## Section 5: Drawing -/

section drawing
variable (fb : FbSettings) (ctx : FlantermContext)

/-- The colour of a pixel: `draw` tells whether the glyph has a dot there. -/
def pixelColour (c : FlantermFbChar) (draw : Bool) : UInt32 :=
  let bg := if c.bg = 0xffffffff then fb.default_bg else c.bg
  let fg := if c.fg = 0xffffffff then fb.default_bg else c.fg
  if draw then fg else bg

/-- The three loops of `plot_char`: the row of the glyph, the column in the font,
    and the column of the enlarged dot. -/
def glyphDots : List (Nat × Nat × Nat) :=
  (List.range fb.glyph_height).flatMap fun gy =>
    (List.range fb.font_width).flatMap fun fx =>
      (List.range fb.font_scale_x).map fun i => (gy, fx, i)

/-- The index in `font_bool` of a dot of the glyph. -/
def fontIndex (c : FlantermFbChar) (gy fx : Nat) : Nat :=
  c.c.toNat * fb.font_height * fb.font_width + gy / fb.font_scale_y % 256 * fb.font_width + fx

/-- The word of the framebuffer for a dot of the glyph in column `x` of row `y`. -/
def wordIndex (x y gy gx : Nat) : Nat :=
  fb.offset_x + x * fb.glyph_width +
    (fb.offset_y + y * fb.glyph_height + gy) * (fb.pitch / 4) + gx

/-- `plot_char`. -/
def plot_char (mem : Nat → UInt32) (c : FlantermFbChar) (x y : Nat) : Option (Nat → UInt32) :=
  if x ≥ ctx.cols ∨ y ≥ ctx.rows then some mem
  else
    (glyphDots fb).foldlM
      (fun mem (gy, fx, i) => do
        let draw ← load fb.font_bool_size fb.font_bool (fontIndex fb c gy fx)
        store fb.words mem (wordIndex fb x y gy (fb.font_scale_x * fx + i))
          (pixelColour fb c draw))
      mem

/-- A character with its colours exchanged. -/
def FlantermFbChar.inverted (c : FlantermFbChar) : FlantermFbChar :=
  { c with fg := c.bg, bg := c.fg }

/-- `draw_cursor`. -/
def draw_cursor (s : FlantermFbContext) : Option FlantermFbContext :=
  if s.pen.cursor_x ≥ ctx.cols ∨ s.pen.cursor_y ≥ ctx.rows then some s
  else do
    let i := s.pen.cursor_x + s.pen.cursor_y * ctx.cols
    let c ← charAt fb s.buffer i
    let mem ← plot_char fb ctx s.framebuffer c.inverted s.pen.cursor_x s.pen.cursor_y
    let s := { s with framebuffer := mem }
    match ← load fb.cells s.buffer.map i with
    | some q =>
      let item ← load fb.cells s.buffer.queue q
      let grid ← store fb.cells s.buffer.grid i item.c
      let map ← store fb.cells s.buffer.map i none
      some { s with buffer := { s.buffer with grid := grid, map := map } }
    | none => some s

/-- A round of the loop of `flanterm_fb_double_buffer_flush`. -/
def flushItem (s : FlantermFbContext) (i : Nat) : Option FlantermFbContext := do
  let q ← load fb.cells s.buffer.queue i
  let offset := q.y * ctx.cols + q.x
  match ← load fb.cells s.buffer.map offset with
  | none => some s
  | some _ =>
    let mem ← plot_char fb ctx s.framebuffer q.c q.x q.y
    let grid ← store fb.cells s.buffer.grid offset q.c
    let map ← store fb.cells s.buffer.map offset none
    some { s with framebuffer := mem, buffer := { s.buffer with grid := grid, map := map } }

/-- The end of `flanterm_fb_double_buffer_flush`: the cursor is removed from where it
    was. -/
def removeOldCursor (s : FlantermFbContext) : Option FlantermFbContext :=
  if (s.old_cursor_x ≠ s.pen.cursor_x ∨ s.old_cursor_y ≠ s.pen.cursor_y
      ∨ ctx.cursor_enabled = false) ∧ s.old_cursor_x < ctx.cols ∧ s.old_cursor_y < ctx.rows then do
    let c ← load fb.cells s.buffer.grid (s.old_cursor_x + s.old_cursor_y * ctx.cols)
    let mem ← plot_char fb ctx s.framebuffer c s.old_cursor_x s.old_cursor_y
    some { s with framebuffer := mem }
  else some s

/-- `flanterm_fb_double_buffer_flush`. -/
def double_buffer_flush (s : FlantermFbContext) : Option FlantermFbContext := do
  let s ← if ctx.cursor_enabled then draw_cursor fb ctx s else some s
  let s ← (List.range s.buffer.queue_i).foldlM (flushItem fb ctx) s
  let s ← removeOldCursor fb ctx s
  some { s with
    old_cursor_x := s.pen.cursor_x
    old_cursor_y := s.pen.cursor_y
    buffer := { s.buffer with queue_i := 0 } }

/-- The body of the second loop of `flanterm_fb_full_refresh`. -/
def plotCell (grid : Nat → FlantermFbChar) (mem : Nat → UInt32) (i : Nat) :
    Option (Nat → UInt32) := do
  let c ← load fb.cells grid i
  plot_char fb ctx mem c (i % ctx.cols) (i / ctx.cols)

/-- `flanterm_fb_full_refresh`. -/
def full_refresh (s : FlantermFbContext) : Option FlantermFbContext := do
  let mem ← ((List.range fb.height).flatMap fun y =>
      (List.range fb.width).map fun x => y * (fb.pitch / 4) + x).foldlM
    (fun mem i => store fb.words mem i fb.default_bg) s.framebuffer
  let mem ← (List.range (ctx.rows * ctx.cols)).foldlM (plotCell fb ctx s.buffer.grid) mem
  let s := { s with framebuffer := mem }
  if ctx.cursor_enabled then draw_cursor fb ctx s else some s

end drawing

end Flanterm

end ArgaldOS
