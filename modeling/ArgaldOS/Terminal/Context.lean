import Mathlib.Algebra.Group.Nat.Defs
import Mathlib.Logic.Function.Basic

/-! # The state of the terminal (`flanterm/flanterm.h`)

    `flanterm` is split in two.  The front end (`flanterm.c`) reads a stream of
    bytes, in which control characters and escape sequences are mixed with the
    text.  It keeps its state in `struct flanterm_context` and calls the functions
    of a back end through pointers in that structure; the back end of this kernel
    (`backends/fb.c`) draws into a framebuffer.

    A call of the back end is a value here: the function with its arguments
    (`Op`), and the context as it is at the time of the call.  No function of
    the back end writes to the context, and the front end reads nothing from the
    back end except the position of the cursor.

    `setup_terminal` and its callers leave `callback` at `NULL`.  The branches that
    call it do nothing then, and the model has no such field.
-/

namespace ArgaldOS

namespace Flanterm

/-! ## Section 1: The context -/

/-- `FLANTERM_MAX_ESC_VALUES`. -/
def FLANTERM_MAX_ESC_VALUES : Nat := 16

/-- `FLANTERM_OOB_OUTPUT_ONLCR`. -/
def FLANTERM_OOB_OUTPUT_ONLCR : UInt64 := (1 : UInt64) <<< (4 : UInt64)

/-- `CHARSET_DEFAULT`. -/
def CHARSET_DEFAULT : UInt8 := 0

/-- `CHARSET_DEC_SPECIAL`. -/
def CHARSET_DEC_SPECIAL : UInt8 := 1

/-- `(size_t)-1`. -/
def SIZE_MAX : Nat := 2 ^ 64 - 1

/-- `a - b` on `size_t`. -/
def sizeSub (a b : Nat) : Nat := (a + 2 ^ 64 - b) % 2 ^ 64

/-- `struct flanterm_context`.  The arrays are functions from indices; a back end
    has at least one row and one column. -/
structure FlantermContext where
  tab_size                     : Nat
  autoflush                    : Bool
  cursor_enabled               : Bool
  scroll_enabled               : Bool
  control_sequence             : Bool
  escape                       : Bool
  osc                          : Bool
  osc_escape                   : Bool
  rrr                          : Bool
  discard_next                 : Bool
  bold                         : Bool
  bg_bold                      : Bool
  reverse_video                : Bool
  dec_private                  : Bool
  insert_mode                  : Bool
  code_point                   : UInt64
  unicode_remaining            : Nat
  g_select                     : UInt8
  charsets                     : Nat → UInt8
  current_charset              : Nat
  escape_offset                : Nat
  esc_values_i                 : Nat
  saved_cursor_x               : Nat
  saved_cursor_y               : Nat
  current_primary              : Nat
  current_bg                   : Nat
  scroll_top_margin            : Nat
  scroll_bottom_margin         : Nat
  esc_values                   : Nat → UInt32
  oob_output                   : UInt64
  saved_state_bold             : Bool
  saved_state_bg_bold          : Bool
  saved_state_reverse_video    : Bool
  saved_state_current_charset  : Nat
  saved_state_current_primary  : Nat
  saved_state_current_bg       : Nat
  rows                         : Nat
  cols                         : Nat
  rows_pos                     : 0 < rows
  cols_pos                     : 0 < cols

/-- The functions of the back end that draw or set a colour, with their arguments. -/
inductive Op where
  | raw_putchar (c : UInt8)
  | clear (move : Bool)
  | set_cursor_pos (x y : Nat)
  | set_text_fg (fg : Nat)
  | set_text_bg (bg : Nat)
  | set_text_fg_bright (fg : Nat)
  | set_text_bg_bright (bg : Nat)
  | set_text_fg_rgb (fg : UInt32)
  | set_text_bg_rgb (bg : UInt32)
  | set_text_fg_default
  | set_text_bg_default
  | set_text_fg_default_bright
  | set_text_bg_default_bright
  | move_character (new_x new_y old_x old_y : Nat)
  | scroll
  | revscroll
  | swap_palette
  | save_state
  | restore_state
  deriving DecidableEq, Repr

/-- A call of the back end: the context that it gets, and what it is to do. -/
structure Call where
  ctx : FlantermContext
  op  : Op

/-! ## Section 2: Initialisation -/

/-- `flanterm_context_reinit`. -/
def flanterm_context_reinit (ctx : FlantermContext) : FlantermContext :=
  { ctx with
    tab_size             := 8
    autoflush            := true
    cursor_enabled       := true
    scroll_enabled       := true
    control_sequence     := false
    escape               := false
    osc                  := false
    osc_escape           := false
    rrr                  := false
    discard_next         := false
    bold                 := false
    bg_bold              := false
    reverse_video        := false
    dec_private          := false
    insert_mode          := false
    unicode_remaining    := 0
    g_select             := 0
    charsets             := Function.update (Function.update ctx.charsets 0 CHARSET_DEFAULT)
                              1 CHARSET_DEC_SPECIAL
    current_charset      := 0
    escape_offset        := 0
    esc_values_i         := 0
    saved_cursor_x       := 0
    saved_cursor_y       := 0
    current_primary      := SIZE_MAX
    current_bg           := SIZE_MAX
    scroll_top_margin    := 0
    scroll_bottom_margin := ctx.rows
    oob_output           := FLANTERM_OOB_OUTPUT_ONLCR }

/-- The context after `memset(ctx, 0, sizeof(struct flanterm_fb_context))`, with the
    size of the screen filled in. -/
def zeroContext (rows cols : Nat) (rows_pos : 0 < rows) (cols_pos : 0 < cols) :
    FlantermContext where
  tab_size                     := 0
  autoflush                    := false
  cursor_enabled               := false
  scroll_enabled               := false
  control_sequence             := false
  escape                       := false
  osc                          := false
  osc_escape                   := false
  rrr                          := false
  discard_next                 := false
  bold                         := false
  bg_bold                      := false
  reverse_video                := false
  dec_private                  := false
  insert_mode                  := false
  code_point                   := 0
  unicode_remaining            := 0
  g_select                     := 0
  charsets                     := fun _ => 0
  current_charset              := 0
  escape_offset                := 0
  esc_values_i                 := 0
  saved_cursor_x               := 0
  saved_cursor_y               := 0
  current_primary              := 0
  current_bg                   := 0
  scroll_top_margin            := 0
  scroll_bottom_margin         := 0
  esc_values                   := fun _ => 0
  oob_output                   := 0
  saved_state_bold             := false
  saved_state_bg_bold          := false
  saved_state_reverse_video    := false
  saved_state_current_charset  := 0
  saved_state_current_primary  := 0
  saved_state_current_bg       := 0
  rows                         := rows
  cols                         := cols
  rows_pos                     := rows_pos
  cols_pos                     := cols_pos

theorem sizeSub_of_le {a b : Nat} (h : b ≤ a) (ha : a < 2 ^ 64) : sizeSub a b = a - b := by
  have heq : a + 2 ^ 64 - b = a - b + 2 ^ 64 := by omega
  rw [sizeSub, heq, Nat.add_mod_right]
  exact Nat.mod_eq_of_lt (by omega)

end Flanterm

end ArgaldOS
