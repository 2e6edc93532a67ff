import ArgaldOS.Framework.Loops
import ArgaldOS.Terminal.Context
import ArgaldOS.Terminal.Unicode

/-! # The front end of the terminal (`flanterm/flanterm.c`)

    `flanterm_putchar` is a state machine.  Its input is a byte, and the position
    of the cursor, which the code asks the back end for at most once before the first
    call that can change it.  Its output is the list of the calls of the back end.

    The functions here are those of the source, with the same names.  Where a
    `switch` of the source is long, its cases are functions of their own.
-/

namespace ArgaldOS

namespace Flanterm

/-- A call of the back end in the context `ctx`. -/
def FlantermContext.call (ctx : FlantermContext) (op : Op) : Call := ⟨ctx, op⟩

/-- Calls of the back end in the context `ctx`. -/
def FlantermContext.calls (ctx : FlantermContext) (ops : List Op) : List Call :=
  ops.map ctx.call

/-- A byte as a character constant of the source. -/
def charOf (c : UInt8) : Char := Char.ofNat c.toNat

theorem charOf_injective {c c' : UInt8} (h : charOf c = charOf c') : c = c' := by
  have hval : ∀ c : UInt8, (charOf c).toNat = c.toNat := by
    intro c
    have hvalid : c.toNat.isValidChar := Or.inl (by have := c.toNat_lt; omega)
    rw [charOf, Char.ofNat, dif_pos hvalid]
    rfl
  have hnat : c.toNat = c'.toNat := by rw [← hval c, h, hval c']
  exact UInt8.toNat_inj.mp hnat

/-! ## Section 1: Colours -/

section sgr
variable (ctx : FlantermContext)

/-- The label `def` of `sgr`. -/
def sgrDefault : FlantermContext × List Call :=
  let unswapped := { ctx with reverse_video := false }
  let ctx' := { unswapped with
    bold            := false
    bg_bold         := false
    current_primary := SIZE_MAX
    current_bg      := SIZE_MAX }
  (ctx', (if ctx.reverse_video then unswapped.calls [.swap_palette] else [])
    ++ ctx'.calls [.set_text_bg_default, .set_text_fg_default])

/-- The label `set_fg` of `sgr`. -/
def setFg (n : Nat) : Op :=
  if (ctx.bold && !ctx.reverse_video) || (ctx.bg_bold && ctx.reverse_video) then
    .set_text_fg_bright n
  else .set_text_fg n

/-- The label `set_bg` of `sgr`. -/
def setBg (n : Nat) : Op :=
  if (ctx.bold && ctx.reverse_video) || (ctx.bg_bold && !ctx.reverse_video) then
    .set_text_bg_bright n
  else .set_text_bg n

/-- `op`, between two calls of `swap_palette` if the colours are reversed. -/
def swapped (op : Op) : List Op :=
  if ctx.reverse_video then [.swap_palette, op, .swap_palette] else [op]

/-- The function that sets the foreground or the background to one of the eight colours,
    or to its bright variant. -/
def textColour (fg bright : Bool) (n : Nat) : Op :=
  match fg, bright with
  | true, false => .set_text_fg n
  | true, true => .set_text_fg_bright n
  | false, false => .set_text_bg n
  | false, true => .set_text_bg_bright n

/-- The same for the default colours. -/
def defaultColour (fg bright : Bool) : Op :=
  match fg, bright with
  | true, false => .set_text_fg_default
  | true, true => .set_text_fg_default_bright
  | false, false => .set_text_bg_default
  | false, true => .set_text_bg_default_bright

/-- The values 1 and 22: bold on, and off. -/
def sgrBold (bold : Bool) : FlantermContext × List Call :=
  let ctx := { ctx with bold := bold }
  (ctx, ctx.calls [
    if ctx.current_primary ≠ SIZE_MAX then textColour (!ctx.reverse_video) bold ctx.current_primary
    else defaultColour (!ctx.reverse_video) bold])

/-- The values 5 and 25: a bright background, and a normal one. -/
def sgrBgBold (bg_bold : Bool) : FlantermContext × List Call :=
  let ctx := { ctx with bg_bold := bg_bold }
  (ctx, ctx.calls [
    if ctx.current_bg ≠ SIZE_MAX then textColour ctx.reverse_video bg_bold ctx.current_bg
    else defaultColour ctx.reverse_video bg_bold])

/-- The values from 30 to 37. -/
def sgrPrimary (n : Nat) : FlantermContext × List Call :=
  let ctx := { ctx with current_primary := n }
  (ctx, ctx.calls [if ctx.reverse_video then setBg ctx n else setFg ctx n])

/-- The values from 40 to 47. -/
def sgrBg (n : Nat) : FlantermContext × List Call :=
  let ctx := { ctx with current_bg := n }
  (ctx, ctx.calls [if ctx.reverse_video then setFg ctx n else setBg ctx n])

/-- The values from 90 to 97. -/
def sgrPrimaryBright (n : Nat) : FlantermContext × List Call :=
  let ctx := { ctx with current_primary := n }
  (ctx, ctx.calls [textColour (!ctx.reverse_video) true n])

/-- The values from 100 to 107. -/
def sgrBgBright (n : Nat) : FlantermContext × List Call :=
  let ctx := { ctx with current_bg := n }
  (ctx, ctx.calls [textColour ctx.reverse_video true n])

/-- The value 39. -/
def sgrPrimaryDefault : FlantermContext × List Call :=
  let ctx := { ctx with current_primary := SIZE_MAX }
  (ctx, ctx.calls (swapped ctx (defaultColour true ctx.bold)))

/-- The value 49. -/
def sgrBgDefault : FlantermContext × List Call :=
  let ctx := { ctx with current_bg := SIZE_MAX }
  (ctx, ctx.calls (swapped ctx (defaultColour false ctx.bg_bold)))

/-- The values 7 and 27: reversed colours on, and off. -/
def sgrReverse (reverse_video : Bool) : FlantermContext × List Call :=
  if ctx.reverse_video = reverse_video then (ctx, [])
  else
    let ctx := { ctx with reverse_video := reverse_video }
    (ctx, ctx.calls [.swap_palette])

/-- The values of `sgr` that stand alone. -/
def sgrValue (v : Nat) : FlantermContext × List Call :=
  if v = 0 then sgrDefault ctx
  else if v = 1 then sgrBold ctx true
  else if v = 5 then sgrBgBold ctx true
  else if v = 22 then sgrBold ctx false
  else if v = 25 then sgrBgBold ctx false
  else if 30 ≤ v ∧ v ≤ 37 then sgrPrimary ctx (v - 30)
  else if 40 ≤ v ∧ v ≤ 47 then sgrBg ctx (v - 40)
  else if 90 ≤ v ∧ v ≤ 97 then sgrPrimaryBright ctx (v - 90)
  else if 100 ≤ v ∧ v ≤ 107 then sgrBgBright ctx (v - 100)
  else if v = 39 then sgrPrimaryDefault ctx
  else if v = 49 then sgrBgDefault ctx
  else if v = 7 then sgrReverse ctx true
  else if v = 27 then sgrReverse ctx false
  else (ctx, [])

/-- The colour number `col` after `38;5` or `48;5`. -/
def sgrColour (fg : Bool) (col : UInt32) : List Op :=
  if col < 8 then [textColour fg false col.toNat]
  else if col < 16 then [textColour fg true (col - 8).toNat]
  else if col < 256 then
    let rgb_value := col256.getD (col - 16).toNat 0
    [if fg then .set_text_fg_rgb rgb_value else .set_text_bg_rgb rgb_value]
  else []

/-- The three values after `38;2` or `48;2`. -/
def sgrRgb (fg : Bool) (r g b : UInt32) : List Op :=
  let rgb_value := (r <<< 16) ||| (g <<< 8) ||| b
  [if fg then .set_text_fg_rgb rgb_value else .set_text_bg_rgb rgb_value]

end sgr

/-- The loop of `sgr`, over the values that are left. -/
def sgrLoop : List UInt32 → FlantermContext → FlantermContext × List Call
  | [], ctx => (ctx, [])
  | v :: rest, ctx =>
    if v = 38 ∨ v = 48 then
      match rest with
      | [] => (ctx, [])
      | mode :: rest =>
        if mode = 2 then
          match rest with
          | r :: g :: b :: rest =>
            let next := sgrLoop rest ctx
            (next.1, ctx.calls (sgrRgb (v == 38) r g b) ++ next.2)
          | _ => (ctx, [])
        else if mode = 5 then
          match rest with
          | col :: rest =>
            let next := sgrLoop rest ctx
            (next.1, ctx.calls (sgrColour (v == 38) col) ++ next.2)
          | [] => (ctx, [])
        else sgrLoop rest ctx
    else
      let one := sgrValue ctx v.toNat
      let next := sgrLoop rest one.1
      (next.1, one.2 ++ next.2)

/-- The parameters of the control sequence that is being read. -/
def FlantermContext.values (ctx : FlantermContext) : List UInt32 :=
  (List.range ctx.esc_values_i).map ctx.esc_values

/-- `sgr`. -/
def sgr (ctx : FlantermContext) : FlantermContext × List Call :=
  if ctx.esc_values_i = 0 then sgrDefault ctx else sgrLoop ctx.values ctx

/-! ## Section 2: Modes and operating system commands -/

/-- `dec_private_parse`. -/
def dec_private_parse (ctx : FlantermContext) (c : UInt8) : FlantermContext :=
  let ctx := { ctx with dec_private := false }
  if ctx.esc_values_i = 0 then ctx
  else
    match charOf c with
    | 'h' => if ctx.esc_values 0 = 25 then { ctx with cursor_enabled := true } else ctx
    | 'l' => if ctx.esc_values 0 = 25 then { ctx with cursor_enabled := false } else ctx
    | _ => ctx

/-- `mode_toggle`. -/
def mode_toggle (ctx : FlantermContext) (c : UInt8) : FlantermContext :=
  if ctx.esc_values_i = 0 then ctx
  else
    match charOf c with
    | 'h' => if ctx.esc_values 0 = 4 then { ctx with insert_mode := true } else ctx
    | 'l' => if ctx.esc_values 0 = 4 then { ctx with insert_mode := false } else ctx
    | _ => ctx

/-- `osc_parse`. -/
def osc_parse (ctx : FlantermContext) (c : UInt8) : FlantermContext :=
  let cleanup := { ctx with osc_escape := false, osc := false, escape := false }
  if ctx.osc_escape && charOf c == '\\' then cleanup
  else if c = 0x1b then { ctx with osc_escape := true }
  else if c = 0x07 then cleanup
  else { ctx with osc_escape := false }

/-! ## Section 3: Control sequences -/

section commands
variable (ctx : FlantermContext)

/-- `esc_values[i]`, as a `size_t`. -/
def FlantermContext.value (i : Nat) : Nat := (ctx.esc_values i).toNat

/-- `esc_values[i] = v`. -/
def FlantermContext.setValue (i : Nat) (v : UInt32) : FlantermContext :=
  { ctx with esc_values := Function.update ctx.esc_values i v }

/-- The cases `F` and `A`: the cursor goes up. -/
def cursorUp (x y : Nat) : FlantermContext × List Call :=
  let ctx := if ctx.value 0 > y then ctx.setValue 0 (UInt32.ofNat y) else ctx
  let dest_y := y - ctx.value 0
  let will_be_in_scroll_region :=
    (ctx.scroll_top_margin ≥ dest_y ∧ ctx.scroll_top_margin ≤ y) ∨
      (ctx.scroll_bottom_margin ≥ dest_y ∧ ctx.scroll_bottom_margin ≤ y)
  let dest_y :=
    if will_be_in_scroll_region ∧ dest_y < ctx.scroll_top_margin then ctx.scroll_top_margin
    else dest_y
  (ctx, ctx.calls [.set_cursor_pos x dest_y])

/-- The cases `E`, `e` and `B`: the cursor goes down. -/
def cursorDown (x y : Nat) : FlantermContext × List Call :=
  let ctx :=
    if y + ctx.value 0 > ctx.rows - 1 then ctx.setValue 0 (UInt32.ofNat (ctx.rows - 1 - y))
    else ctx
  let dest_y := y + ctx.value 0
  let will_be_in_scroll_region :=
    (ctx.scroll_top_margin ≥ y ∧ ctx.scroll_top_margin ≤ dest_y) ∨
      (ctx.scroll_bottom_margin ≥ y ∧ ctx.scroll_bottom_margin ≤ dest_y)
  let dest_y :=
    if will_be_in_scroll_region ∧ dest_y ≥ ctx.scroll_bottom_margin then
      sizeSub ctx.scroll_bottom_margin 1
    else dest_y
  (ctx, ctx.calls [.set_cursor_pos x dest_y])

/-- The cases `a` and `C`: the cursor goes right. -/
def cursorRight (x y : Nat) : FlantermContext × List Call :=
  let ctx :=
    if x + ctx.value 0 > ctx.cols - 1 then ctx.setValue 0 (UInt32.ofNat (ctx.cols - 1 - x))
    else ctx
  (ctx, ctx.calls [.set_cursor_pos (x + ctx.value 0) y])

/-- The case `D`: the cursor goes left. -/
def cursorLeft (x y : Nat) : FlantermContext × List Call :=
  let ctx := if ctx.value 0 > x then ctx.setValue 0 (UInt32.ofNat x) else ctx
  (ctx, ctx.calls [.set_cursor_pos (x - ctx.value 0) y])

/-- The case `d`: the cursor goes to a row. -/
def cursorRow (x : Nat) : FlantermContext × List Call :=
  let ctx := ctx.setValue 0 (ctx.esc_values 0 - 1)
  let ctx := if ctx.value 0 ≥ ctx.rows then ctx.setValue 0 (UInt32.ofNat (ctx.rows - 1)) else ctx
  (ctx, ctx.calls [.set_cursor_pos x (ctx.value 0)])

/-- The cases `G` and backquote: the cursor goes to a column. -/
def cursorColumn (y : Nat) : FlantermContext × List Call :=
  let ctx := ctx.setValue 0 (ctx.esc_values 0 - 1)
  let ctx := if ctx.value 0 ≥ ctx.cols then ctx.setValue 0 (UInt32.ofNat (ctx.cols - 1)) else ctx
  (ctx, ctx.calls [.set_cursor_pos (ctx.value 0) y])

/-- The cases `H` and `f`: the cursor goes to a row and a column. -/
def cursorPosition : FlantermContext × List Call :=
  let ctx := if ctx.esc_values 0 ≠ 0 then ctx.setValue 0 (ctx.esc_values 0 - 1) else ctx
  let ctx := if ctx.esc_values 1 ≠ 0 then ctx.setValue 1 (ctx.esc_values 1 - 1) else ctx
  let ctx := if ctx.value 1 ≥ ctx.cols then ctx.setValue 1 (UInt32.ofNat (ctx.cols - 1)) else ctx
  let ctx := if ctx.value 0 ≥ ctx.rows then ctx.setValue 0 (UInt32.ofNat (ctx.rows - 1)) else ctx
  (ctx, ctx.calls [.set_cursor_pos (ctx.value 1) (ctx.value 0)])

/-- The case `M`: lines are deleted. -/
def deleteLines : FlantermContext × List Call :=
  let count := if ctx.value 0 > ctx.rows then ctx.rows else ctx.value 0
  (ctx, ctx.calls (List.replicate count .scroll))

/-- The case `L`: lines are inserted.  `revscroll` is called with another top margin. -/
def insertLines (y : Nat) : FlantermContext × List Call :=
  let count := if ctx.value 0 > ctx.rows then ctx.rows else ctx.value 0
  (ctx, { ctx with scroll_top_margin := y }.calls (List.replicate count .revscroll))

/-- The loops of `ESC [ 1 J`: blanks are printed up to column `x` of row `y`, and the
    cursor goes back there. -/
def eraseUpTo (rows cols x y : Nat) : List Op :=
  let cells := (List.range rows).flatMap fun yc => (List.range cols).map fun xc => (xc, yc)
  (Loops.untilReturn
    (fun (cell : Nat × Nat) ops =>
      if cell.1 = x ∧ cell.2 = y then (true, ops ++ [.raw_putchar 0x20, .set_cursor_pos x y])
      else (false, ops ++ [.raw_putchar 0x20]))
    cells [.set_cursor_pos 0 0]).2

/-- The case `J`: a part of the screen is erased. -/
def eraseDisplay (x y : Nat) : FlantermContext × List Call :=
  if ctx.value 0 = 0 then
    let rows_remaining := ctx.rows - (y + 1)
    let cols_diff := ctx.cols - (x + 1)
    let to_clear := rows_remaining * ctx.cols + cols_diff + 1
    (ctx, ctx.calls (List.replicate to_clear (.raw_putchar 0x20) ++ [.set_cursor_pos x y]))
  else if ctx.value 0 = 1 then (ctx, ctx.calls (eraseUpTo ctx.rows ctx.cols x y))
  else if ctx.value 0 = 2 ∨ ctx.value 0 = 3 then (ctx, ctx.calls [.clear false])
  else (ctx, [])

/-- The case `K`: a part of the line is erased. -/
def eraseLine (x y : Nat) : FlantermContext × List Call :=
  if ctx.value 0 = 0 then
    (ctx, ctx.calls (List.replicate (ctx.cols - x) (.raw_putchar 0x20) ++ [.set_cursor_pos x y]))
  else if ctx.value 0 = 1 then
    (ctx, ctx.calls (.set_cursor_pos 0 y :: List.replicate x (.raw_putchar 0x20)))
  else if ctx.value 0 = 2 then
    (ctx, ctx.calls (.set_cursor_pos 0 y ::
      List.replicate ctx.cols (.raw_putchar 0x20) ++ [.set_cursor_pos x y]))
  else (ctx, [])

/-- The columns from `cols - 1` down to `x`. -/
def columnsDown (cols x : Nat) : List Nat := (List.range' x (cols - x)).reverse

/-- The case `@`: blanks are inserted. -/
def insertBlanks (x y : Nat) : FlantermContext × List Call :=
  (ctx, ctx.calls ((columnsDown ctx.cols x).flatMap (fun i =>
      [.move_character (i + ctx.value 0) y i y, .set_cursor_pos i y, .raw_putchar 0x20])
    ++ [.set_cursor_pos x y]))

/-- The case `X`: characters are erased. -/
def eraseCharacters (x y : Nat) : FlantermContext × List Call :=
  let count := if ctx.value 0 > ctx.cols then ctx.cols else ctx.value 0
  (ctx, ctx.calls (List.replicate count (.raw_putchar 0x20) ++ [.set_cursor_pos x y]))

/-- The case `P`: characters are deleted.  It falls through to the case `X`. -/
def deleteCharacters (x y : Nat) : FlantermContext × List Call :=
  let moves := (List.range' (x + ctx.value 0) (ctx.cols - (x + ctx.value 0))).map fun i =>
    Op.move_character (i - ctx.value 0) y i y
  let next := eraseCharacters ctx x y
  (next.1, ctx.calls (moves ++ [.set_cursor_pos (sizeSub ctx.cols (ctx.value 0)) y]) ++ next.2)

/-- The case `r`: the margins of the scrolling region. -/
def setMargins : FlantermContext × List Call :=
  let ctx := if ctx.esc_values 0 = 0 then ctx.setValue 0 1 else ctx
  let ctx := if ctx.esc_values 1 = 0 then ctx.setValue 1 1 else ctx
  let top := if ctx.esc_values_i > 0 then (ctx.esc_values 0 - 1).toNat else 0
  let bottom := if ctx.esc_values_i > 1 then ctx.value 1 else ctx.rows
  let ctx :=
    if top ≥ ctx.rows ∨ bottom > ctx.rows ∨ top ≥ sizeSub bottom 1 then
      { ctx with scroll_top_margin := 0, scroll_bottom_margin := ctx.rows }
    else { ctx with scroll_top_margin := top, scroll_bottom_margin := bottom }
  (ctx, ctx.calls [.set_cursor_pos 0 0])

/-- The second `switch` of `control_sequence_parse`: what the sequence does. -/
def controlSequence (c : UInt8) (x y : Nat) : FlantermContext × List Call :=
  match charOf c with
  | 'F' => cursorUp ctx 0 y
  | 'A' => cursorUp ctx x y
  | 'E' => cursorDown ctx 0 y
  | 'e' | 'B' => cursorDown ctx x y
  | 'a' | 'C' => cursorRight ctx x y
  | 'D' => cursorLeft ctx x y
  | 'd' => cursorRow ctx x
  | 'G' | '\x60' => cursorColumn ctx y
  | 'H' | 'f' => cursorPosition ctx
  | 'M' => deleteLines ctx
  | 'L' => insertLines ctx y
  | 'J' => eraseDisplay ctx x y
  | '@' => insertBlanks ctx x y
  | 'P' => deleteCharacters ctx x y
  | 'X' => eraseCharacters ctx x y
  | 'm' => sgr ctx
  | 's' => ({ ctx with saved_cursor_x := x, saved_cursor_y := y }, [])
  | 'u' => (ctx, ctx.calls [.set_cursor_pos ctx.saved_cursor_x ctx.saved_cursor_y])
  | 'K' => eraseLine ctx x y
  | 'r' => setMargins ctx
  | 'l' | 'h' => (mode_toggle ctx c, [])
  -- `c`, `n` and `q` only call back, and so does `linux_private_parse`.
  | _ => (ctx, [])

/-- The label `cleanup` of `control_sequence_parse`. -/
def endSequence : FlantermContext := { ctx with control_sequence := false, escape := false }

/-- `esc_default`. -/
def escDefault (c : UInt8) : UInt32 :=
  match charOf c with
  | 'J' | 'K' | 'q' => 0
  | _ => 1

/-- The parameters that were not given get their default. -/
def FlantermContext.fillDefaults (esc_default : UInt32) : FlantermContext :=
  { ctx with
    esc_values := fun i =>
      if ctx.esc_values_i ≤ i ∧ i < FLANTERM_MAX_ESC_VALUES then esc_default
      else ctx.esc_values i }

/-- `control_sequence_parse` from the byte that ends the sequence on. -/
def finishSequence (c : UInt8) (x y : Nat) : FlantermContext × List Call :=
  let ctx := ctx.fillDefaults (escDefault c)
  if ctx.dec_private then (endSequence (dec_private_parse ctx c), [])
  else
    let r := ctx.scroll_enabled
    let next := controlSequence { ctx with scroll_enabled := false } c x y
    (endSequence { next.1 with scroll_enabled := r }, next.2)

/-- `c - '0'`, if `c` is a digit. -/
def digitOf (c : UInt8) : Option UInt32 :=
  if 0x30 ≤ c ∧ c ≤ 0x39 then some (c - 0x30).toUInt32 else none

/-- `control_sequence_parse` from the second `if` on: parameters. -/
def parameterByte (c : UInt8) (x y : Nat) : FlantermContext × List Call :=
  match digitOf c with
  | some d =>
    if ctx.esc_values_i = FLANTERM_MAX_ESC_VALUES then (ctx, [])
    else
      ({ ctx with rrr := true }.setValue ctx.esc_values_i
        (ctx.esc_values ctx.esc_values_i * 10 + d), [])
  | none =>
    if ctx.rrr then
      let ctx := { ctx with esc_values_i := ctx.esc_values_i + 1, rrr := false }
      if charOf c == ';' then (ctx, []) else finishSequence ctx c x y
    else if charOf c == ';' then
      if ctx.esc_values_i = FLANTERM_MAX_ESC_VALUES then (ctx, [])
      else
        ({ ctx.setValue ctx.esc_values_i 0 with esc_values_i := ctx.esc_values_i + 1 }, [])
    else finishSequence ctx c x y

/-- `control_sequence_parse`. -/
def control_sequence_parse (c : UInt8) (x y : Nat) : FlantermContext × List Call :=
  if ctx.escape_offset = 2 ∧ charOf c = '[' then
    (endSequence { ctx with discard_next := true }, [])
  else if ctx.escape_offset = 2 ∧ charOf c = '?' then ({ ctx with dec_private := true }, [])
  else parameterByte ctx c x y

end commands

/-! ## Section 4: Escape sequences -/

section escape
variable (ctx : FlantermContext)

/-- `restore_state`. -/
def restoreState : FlantermContext × List Call :=
  let ctx := { ctx with
    bold            := ctx.saved_state_bold
    bg_bold         := ctx.saved_state_bg_bold
    reverse_video   := ctx.saved_state_reverse_video
    current_charset := ctx.saved_state_current_charset
    current_primary := ctx.saved_state_current_primary
    current_bg      := ctx.saved_state_current_bg }
  (ctx, ctx.calls [.restore_state])

/-- `save_state`. -/
def saveState : FlantermContext × List Call :=
  ({ ctx with
      saved_state_bold            := ctx.bold
      saved_state_bg_bold         := ctx.bg_bold
      saved_state_reverse_video   := ctx.reverse_video
      saved_state_current_charset := ctx.current_charset
      saved_state_current_primary := ctx.current_primary
      saved_state_current_bg      := ctx.current_bg },
    ctx.calls [.save_state])

/-- The end of `escape_parse`. -/
def endEscape (next : FlantermContext × List Call) : FlantermContext × List Call :=
  ({ next.1 with escape := false }, next.2)

/-- A line feed: the region scrolls, or the cursor goes down, to column `x`. -/
def lineFeed (x y : Nat) : List Op :=
  if y = sizeSub ctx.scroll_bottom_margin 1 then [.scroll, .set_cursor_pos x y]
  else [.set_cursor_pos x (y + 1)]

/-- The `switch` of `escape_parse`. -/
def escapeByte (c : UInt8) (x y : Nat) : FlantermContext × List Call :=
  match charOf c with
  | ']' => ({ ctx with osc_escape := false, osc := true }, [])
  | '[' =>
    ({ ctx with
        esc_values := fun i => if i < FLANTERM_MAX_ESC_VALUES then 0 else ctx.esc_values i
        esc_values_i := 0
        rrr := false
        control_sequence := true }, [])
  | '7' => endEscape (saveState ctx)
  | '8' => endEscape (restoreState ctx)
  | 'c' =>
    let ctx := flanterm_context_reinit ctx
    endEscape (ctx, ctx.calls [.clear true])
  | 'D' => endEscape (ctx, ctx.calls (lineFeed ctx x y))
  | 'E' => endEscape (ctx, ctx.calls (lineFeed ctx 0 y))
  | 'M' =>
    endEscape (ctx, ctx.calls
      (if y = ctx.scroll_top_margin then [.revscroll, .set_cursor_pos 0 y]
      else [.set_cursor_pos 0 (sizeSub y 1)]))
  -- 0x27 is the single quote
  | '(' | ')' => endEscape ({ ctx with g_select := c - 0x27 }, [])
  | _ => endEscape (ctx, [])

/-- `escape_parse`. -/
def escape_parse (c : UInt8) (x y : Nat) : FlantermContext × List Call :=
  let ctx := { ctx with escape_offset := ctx.escape_offset + 1 }
  if ctx.osc then (osc_parse ctx c, [])
  else if ctx.control_sequence then control_sequence_parse ctx c x y
  else escapeByte ctx c x y

end escape

/-! ## Section 5: Characters -/

section putchar
variable (ctx : FlantermContext)

/-- A complete code point is printed. -/
def printCodePoint : List Op :=
  match unicode_to_cp437 ctx.code_point with
  | some cc => [.raw_putchar cc]
  | none =>
    let replacement_width := mk_wcwidth ctx.code_point.toUInt32
    (if replacement_width > 0 then [.raw_putchar 0xfe] else [])
      ++ List.replicate (replacement_width - 1) (.raw_putchar 0x20)

/-- A byte that continues a UTF-8 sequence. -/
def continuationByte (c : UInt8) : FlantermContext × List Call :=
  let unicode_remaining := ctx.unicode_remaining - 1
  let ctx := { ctx with
    unicode_remaining := unicode_remaining
    code_point := ctx.code_point |||
      ((c &&& 0x3f).toUInt64 <<< (UInt64.ofNat (6 * unicode_remaining))) }
  if unicode_remaining ≠ 0 then (ctx, []) else (ctx, ctx.calls (printCodePoint ctx))

/-- A byte that starts a UTF-8 sequence. -/
def leadByte (c : UInt8) : FlantermContext :=
  if c ≤ 0xdf then
    { ctx with unicode_remaining := 1, code_point := (c &&& 0x1f).toUInt64 <<< (6 : UInt64) }
  else if c ≤ 0xef then
    { ctx with unicode_remaining := 2, code_point := (c &&& 0x0f).toUInt64 <<< (12 : UInt64) }
  else
    { ctx with unicode_remaining := 3, code_point := (c &&& 0x07).toUInt64 <<< (18 : UInt64) }

/-- A byte after `ESC (` or `ESC )`: the character set. -/
def selectCharset (c : UInt8) : FlantermContext :=
  let g_select := ctx.g_select - 1
  let charsets :=
    match charOf c with
    | 'B' => Function.update ctx.charsets g_select.toNat CHARSET_DEFAULT
    | '0' => Function.update ctx.charsets g_select.toNat CHARSET_DEC_SPECIAL
    | _ => ctx.charsets
  { ctx with charsets := charsets, g_select := 0 }

/-- The glyph of a printable character. -/
def glyphOf (c : UInt8) : UInt8 := if 0x20 ≤ c ∧ c ≤ 0x7e then c else 0xfe

/-- A character that is not a control character. -/
def printByte (c : UInt8) (x y : Nat) : List Op :=
  (if ctx.insert_mode then
      (columnsDown ctx.cols x).map fun i => Op.move_character (i + 1) y i y
    else [])
  ++ [.raw_putchar
      (if ctx.charsets ctx.current_charset = CHARSET_DEC_SPECIAL then
        (decSpecialCases.lookup c).getD (glyphOf c)
      else glyphOf c)]

/-- `flanterm_putchar` from the last `switch` on. -/
def plainByte (c : UInt8) (x y : Nat) : FlantermContext × List Call :=
  let column := if ctx.oob_output &&& FLANTERM_OOB_OUTPUT_ONLCR ≠ 0 then 0 else x
  match c.toNat with
  | 0x00 | 0x7f => (ctx, [])
  | 0x1b => ({ ctx with escape_offset := 0, escape := true }, [])
  | 0x09 =>
    (ctx, ctx.calls
      (if x / ctx.tab_size + 1 ≥ ctx.cols then [.set_cursor_pos (ctx.cols - 1) y]
      else [.set_cursor_pos ((x / ctx.tab_size + 1) * ctx.tab_size) y]))
  | 0x0b | 0x0c | 0x0a => (ctx, ctx.calls (lineFeed ctx column y))
  | 0x08 => (ctx, ctx.calls [.set_cursor_pos (sizeSub x 1) y])
  | 0x0d => (ctx, ctx.calls [.set_cursor_pos 0 y])
  | 0x07 => (ctx, [])
  | 14 => ({ ctx with current_charset := 1 }, [])
  | 15 => ({ ctx with current_charset := 0 }, [])
  | _ => (ctx, ctx.calls (printByte ctx c x y))

/-- `flanterm_putchar` from the label `unicode_error` on. -/
def unicode_error (c : UInt8) (x y : Nat) : FlantermContext × List Call :=
  if 0xc0 ≤ c ∧ c ≤ 0xf7 then (leadByte ctx c, [])
  else if ctx.escape then escape_parse ctx c x y
  else if ctx.g_select ≠ 0 then (selectCharset ctx c, [])
  else plainByte ctx c x y

/-- The first branch of `flanterm_putchar`: everything that was begun is dropped. -/
def cancelled : FlantermContext :=
  { ctx with
    discard_next      := false
    escape            := false
    control_sequence  := false
    unicode_remaining := 0
    osc               := false
    osc_escape        := false
    g_select          := 0 }

/-- `flanterm_putchar`, with the cursor in column `x` of row `y`. -/
def flanterm_putchar (c : UInt8) (x y : Nat) : FlantermContext × List Call :=
  if ctx.discard_next ∨ c = 0x18 ∨ c = 0x1a then (cancelled ctx, [])
  else if ctx.unicode_remaining ≠ 0 then
    if c &&& 0xc0 ≠ 0x80 then unicode_error { ctx with unicode_remaining := 0 } c x y
    else continuationByte ctx c
  else unicode_error ctx c x y

end putchar

end Flanterm

end ArgaldOS
