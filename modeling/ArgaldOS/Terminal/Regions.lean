import ArgaldOS.Terminal.Editing

/-! # Editing the screen

    Parts of the screen are erased by printing blanks over them, and lines are inserted and
    deleted by scrolling a part of the screen one line at a time.

    * `write_eraseDisplay`: the screen is erased, behind the cursor, before it, or all of it;
    * `write_insertLines`, `write_deleteLines`: lines move;
    * `write_region`: a text in the scrolling region stays there;
    * `write_window`: a text in a window of its own.
-/

namespace ArgaldOS

namespace Flanterm

open TextLayout

/-! ## Section 1: Printing over the end of a row -/

/-- The places from the `p`-th to the `k`-th are blank; places are counted row by row. -/
def blankPlaces (cols : Nat) (cell : Nat → Nat → FlantermFbChar) (p k : Nat)
    (blank : FlantermFbChar) : Nat → Nat → FlantermFbChar := fun y x =>
  if x < cols ∧ p ≤ y * cols + x ∧ y * cols + x < k then blank else cell y x

/-- The whole screen is the scrolling region, and it is wide enough. -/
structure WholeScreen (ctx : FlantermContext) : Prop where
  scroll_enabled : ctx.scroll_enabled = false
  bottom         : ctx.scroll_bottom_margin = ctx.rows
  rows_le_cols   : ctx.rows ≤ ctx.cols
  rows_lt        : ctx.rows < 2 ^ 64

section blanks
variable (fb : FbSettings) {ctx : FlantermContext} {screen : Screen}

/-- A glyph behind the last column appears in the next row. -/
theorem print_of_full (hctx : WholeScreen ctx) (hx : screen.pen.cursor_x = ctx.cols)
    (hy : screen.pen.cursor_y + 1 < ctx.rows) (g : UInt8) :
    screen.print ctx g = (screen.place 0 (screen.pen.cursor_y + 1)).print ctx g := by
  have hcols := ctx.cols_pos
  have hrows := hctx.rows_le_cols
  have hlast : sizeSub ctx.scroll_bottom_margin 1 = ctx.rows - 1 := by
    rw [hctx.bottom]
    exact sizeSub_of_le ctx.rows_pos hctx.rows_lt
  have hwraps : wraps ctx screen.pen := ⟨Nat.le_of_eq hx.symm, Or.inl (by rw [hlast]; omega)⟩
  have hscrolls : ¬wrapScrolls ctx screen.pen := by
    rw [wrapScrolls, hctx.bottom]
    omega
  have hclamp : ¬screen.pen.cursor_y + 1 ≥ ctx.cols := by omega
  have hnext : (screen.place 0 (screen.pen.cursor_y + 1)).print ctx g = _ :=
    Screen.print_of_lt hcols g
  rw [hnext]
  simp only [Screen.print, printPen, if_pos hwraps, if_neg fun hw => hscrolls (And.right hw),
    wrapped, if_neg hscrolls, if_neg hclamp, if_pos hcols]
  rfl

/-- A blank in a place of a row. -/
theorem put_eq_blankPlaces {cols x : Nat} (hx : x < cols) (cell : Nat → Nat → FlantermFbChar)
    (y : Nat) (blank : FlantermFbChar) :
    Screen.put cell y x blank = blankPlaces cols cell (y * cols + x) (y * cols + x + 1) blank := by
  funext y' x'
  rw [Screen.put_apply, blankPlaces]
  by_cases hx' : x' < cols
  · have hiff : (y' = y ∧ x' = x) ↔ (x' < cols ∧ y * cols + x ≤ y' * cols + x' ∧
        y' * cols + x' < y * cols + x + 1) := by
      rw [← index_inj hx' hx]
      omega
    simp only [hiff]
  · rw [if_neg (by omega), if_neg fun h => hx' h.1]

/-- **A blank at the cursor**, in this row or, if it is full, in the next one. -/
theorem print_blank (hctx : WholeScreen ctx) (hx : screen.pen.cursor_x ≤ ctx.cols) {p : Nat}
    (hp : screen.pen.cursor_y * ctx.cols + screen.pen.cursor_x = p)
    (hroom : p < ctx.rows * ctx.cols) : ∃ x y, x ≤ ctx.cols ∧ y * ctx.cols + x = p + 1 ∧
      screen.print ctx 0x20 =
        { cell := blankPlaces ctx.cols screen.cell p (p + 1) screen.pen.empty
          pen := { screen.pen with cursor_x := x, cursor_y := y } } := by
  rcases Nat.lt_or_eq_of_le hx with hlt | hfull
  · refine ⟨screen.pen.cursor_x + 1, screen.pen.cursor_y, hlt, by omega, ?_⟩
    rw [Screen.print_of_lt hlt, ← hp, ← put_eq_blankPlaces hlt]
    rfl
  · have hnext : (screen.pen.cursor_y + 1) * ctx.cols + 0 = p := by
      rw [Nat.succ_mul]
      omega
    have hy : screen.pen.cursor_y + 1 < ctx.rows := by
      apply Nat.lt_of_mul_lt_mul_right (a := ctx.cols)
      omega
    have hprint : (screen.place 0 (screen.pen.cursor_y + 1)).print ctx 0x20 = _ :=
      Screen.print_of_lt ctx.cols_pos 0x20
    refine ⟨1, screen.pen.cursor_y + 1, ctx.cols_pos, by omega, ?_⟩
    rw [print_of_full hctx hfull hy, hprint, ← hnext, ← put_eq_blankPlaces ctx.cols_pos]
    rfl

/-- Blanks behind each other. -/
theorem blankPlaces_blankPlaces {cols p q k : Nat} (hpq : p ≤ q) (hqk : q ≤ k)
    (cell : Nat → Nat → FlantermFbChar) (blank : FlantermFbChar) :
    blankPlaces cols (blankPlaces cols cell p q blank) q k blank
      = blankPlaces cols cell p k blank := by
  funext y x
  simp only [blankPlaces]
  generalize y * cols + x = i
  by_cases hlater : x < cols ∧ q ≤ i ∧ i < k
  · rw [if_pos hlater, if_pos (by omega)]
  · rw [if_neg hlater]
    by_cases hbefore : x < cols ∧ p ≤ i ∧ i < q
    · rw [if_pos hbefore, if_pos (by omega)]
    · rw [if_neg hbefore, if_neg (by omega)]

/-- **Blanks over the screen**, from the cursor on. -/
theorem performOps_blanks_over (hctx : WholeScreen ctx) (n : Nat)
    (hx : screen.pen.cursor_x ≤ ctx.cols) {p : Nat}
    (hp : screen.pen.cursor_y * ctx.cols + screen.pen.cursor_x = p)
    (hroom : p + n ≤ ctx.rows * ctx.cols) : ∃ x y,
      screen.performOps fb ctx (List.replicate n (.raw_putchar 0x20)) =
        { cell := blankPlaces ctx.cols screen.cell p (p + n) screen.pen.empty
          pen := { screen.pen with cursor_x := x, cursor_y := y } } := by
  induction n generalizing screen p with
  | zero =>
    refine ⟨screen.pen.cursor_x, screen.pen.cursor_y, ?_⟩
    have hcell : blankPlaces ctx.cols screen.cell p (p + 0) screen.pen.empty = screen.cell := by
      funext y x
      rw [blankPlaces, if_neg (by omega)]
    rw [hcell]
    rfl
  | succ n ih =>
    obtain ⟨x, y, hx', hp', hprint⟩ := print_blank hctx hx hp (by omega)
    have hfirst : screen.perform fb (ctx.call (.raw_putchar 0x20)) = _ := hprint
    let next : Screen :=
      { cell := blankPlaces ctx.cols screen.cell p (p + 1) screen.pen.empty
        pen := { screen.pen with cursor_x := x, cursor_y := y } }
    have hnext : next.pen.cursor_x ≤ ctx.cols := hx'
    obtain ⟨x', y', hrest⟩ := ih hnext hp' (by omega)
    refine ⟨x', y', ?_⟩
    rw [List.replicate_succ, performOps_cons, hfirst, hrest,
      show p + (n + 1) = p + 1 + n by omega,
      ← blankPlaces_blankPlaces (Nat.le_add_right p 1) (Nat.le_add_right (p + 1) n)]
    rfl

end blanks

/-! ## Section 2: Erasing -/

section commands
variable (fb : FbSettings) {a : ScreenTerminal} {x y : Nat}

/-- A mode of the erasing command covers this place of the screen. -/
def Erased (mode x y x' y' : Nat) : Prop :=
  if mode = 0 then y < y' ∨ (y' = y ∧ x ≤ x') else if mode = 1 then y' < y ∨ (y' = y ∧ x' ≤ x)
  else True

instance (mode x y x' y' : Nat) : Decidable (Erased mode x y x' y') := by
  unfold Erased
  infer_instance

/-- The screen without the places that a mode covers.  The back end clears more than the
    screen if everything is erased. -/
def eraseCells (rows cols mode x y : Nat) (cell : Nat → Nat → FlantermFbChar)
    (blank : FlantermFbChar) : Nat → Nat → FlantermFbChar := fun y' x' =>
  if (2 ≤ mode ∨ (x' < cols ∧ y' < rows)) ∧ Erased mode x y x' y' then blank else cell y' x'

/-- Places are counted row by row. -/
theorem index_le_index_iff {cols : Nat} (hx : x < cols) {x' y' : Nat} (hx' : x' < cols) :
    y * cols + x ≤ y' * cols + x' ↔ y < y' ∨ (y' = y ∧ x ≤ x') := by
  rcases Nat.lt_trichotomy y y' with hlt | rfl | hgt
  · have hle : (y + 1) * cols ≤ y' * cols := Nat.mul_le_mul_right cols hlt
    rw [Nat.succ_mul] at hle
    omega
  · omega
  · have hle : (y' + 1) * cols ≤ y * cols := Nat.mul_le_mul_right cols hgt
    rw [Nat.succ_mul] at hle
    omega

/-- Blanks over the screen, and back to the cursor. -/
theorem performOps_blanks_back {ctx : FlantermContext} (hctx : WholeScreen ctx) (screen : Screen)
    (hx : x < ctx.cols) (hy : y < ctx.rows) {x₀ y₀ n : Nat} (hx₀ : x₀ < ctx.cols)
    (hroom : y₀ * ctx.cols + x₀ + n ≤ ctx.rows * ctx.cols) :
    (screen.place x₀ y₀).performOps fb ctx
        (List.replicate n (.raw_putchar 0x20) ++ [.set_cursor_pos x y])
      = { cell := blankPlaces ctx.cols screen.cell (y₀ * ctx.cols + x₀)
            (y₀ * ctx.cols + x₀ + n) screen.pen.empty
          pen := (screen.place x y).pen } := by
  have hstart : (screen.place x₀ y₀).pen.cursor_x ≤ ctx.cols := Nat.le_of_lt hx₀
  obtain ⟨x', y', hblanks⟩ := performOps_blanks_over fb hctx n hstart rfl hroom
  rw [performOps_append, hblanks]
  exact performOps_place fb ctx _ hx hy

/-- **A part of the screen is erased**: what is behind the cursor, what is before it, or
    everything. -/
theorem write_eraseDisplay (h : a.term.Ground) (hprivate : a.term.dec_private = false)
    (hctx : WholeScreen a.term.still) (hcursor : a.screen.CursorAt a.term x y) {mode : Nat}
    (hmode : mode ≤ 3) : ∃ offset values i, a.write fb (csi [mode] 0x4a)
      = ⟨a.term.afterSequence offset values i, { a.screen with
          cell := eraseCells a.term.rows a.term.cols mode x y a.screen.cell
            a.screen.pen.empty }⟩ := by
  obtain ⟨hx, hy⟩ := hcursor.1
  have hget := hcursor.get
  have hplace := hcursor.place
  have hindex := index_lt hx hy
  -- A place inside of the screen, and its number.
  have hinside : ∀ {x' y'}, x' < a.term.cols → (y' * a.term.cols + x' < a.term.rows * a.term.cols
      ↔ y' < a.term.rows) := by
    intro x' y' hx'
    constructor
    · intro hlt
      apply Nat.lt_of_mul_lt_mul_right (a := a.term.cols)
      omega
    · exact index_lt hx'
  obtain rfl | rfl | hall : mode = 0 ∨ mode = 1 ∨ (mode = 2 ∨ mode = 3) := by omega
  · have hrest : (a.term.rows - (y + 1)) * a.term.cols + (y + 1) * a.term.cols
        = a.term.rows * a.term.cols := by
      rw [← Nat.add_mul, Nat.sub_add_cancel hy]
    rw [Nat.succ_mul] at hrest
    have hlast : y * a.term.cols + x + ((a.term.rows - (y + 1)) * a.term.cols
        + (a.term.cols - (x + 1)) + 1) = a.term.rows * a.term.cols := by omega
    have hcell : blankPlaces a.term.cols a.screen.cell (y * a.term.cols + x)
        (a.term.rows * a.term.cols) a.screen.pen.empty
        = eraseCells a.term.rows a.term.cols 0 x y a.screen.cell a.screen.pen.empty := by
      funext y' x'
      have herased : (x' < a.term.cols ∧ y * a.term.cols + x ≤ y' * a.term.cols + x' ∧
          y' * a.term.cols + x' < a.term.rows * a.term.cols)
          ↔ (2 ≤ 0 ∨ (x' < a.term.cols ∧ y' < a.term.rows)) ∧ Erased 0 x y x' y' := by
        rw [Erased, if_pos rfl]
        constructor
        · intro ⟨hx', hle, hlt⟩
          exact ⟨Or.inr ⟨hx', (hinside hx').mp hlt⟩, (index_le_index_iff hx hx').mp hle⟩
        · intro ⟨hscreen, hbehind⟩
          obtain ⟨hx', hy'⟩ := hscreen.resolve_left (by omega)
          exact ⟨hx', (index_le_index_iff hx hx').mpr hbehind, index_lt hx' hy'⟩
      exact if_congr herased rfl rfl
    have hscreen := performOps_blanks_back fb hctx a.screen hx hy hx (Nat.le_of_eq hlast)
    rw [hplace, show a.term.still.cols = a.term.cols from rfl, hlast, hcell] at hscreen
    exact write_calls fb h hprivate [0] (by decide) hscreen fun offset i => by
      rw [hget]
      exact ⟨_, rfl⟩
  · have hroom : 0 * a.term.cols + 0 + (y * a.term.cols + x + 1) ≤ a.term.rows * a.term.cols := by
      omega
    have hcell : blankPlaces a.term.cols a.screen.cell (0 * a.term.cols + 0)
        (0 * a.term.cols + 0 + (y * a.term.cols + x + 1)) a.screen.pen.empty
        = eraseCells a.term.rows a.term.cols 1 x y a.screen.cell a.screen.pen.empty := by
      funext y' x'
      have herased : (x' < a.term.cols ∧ 0 * a.term.cols + 0 ≤ y' * a.term.cols + x' ∧
          y' * a.term.cols + x' < 0 * a.term.cols + 0 + (y * a.term.cols + x + 1))
          ↔ (2 ≤ 1 ∨ (x' < a.term.cols ∧ y' < a.term.rows)) ∧ Erased 1 x y x' y' := by
        rw [Erased, if_neg Nat.one_ne_zero, if_pos rfl, eq_comm (a := y')]
        constructor
        · intro ⟨hx', _, hlt⟩
          exact ⟨Or.inr ⟨hx', (hinside hx').mp (by omega)⟩,
            (index_le_index_iff hx' hx).mp (by omega)⟩
        · intro ⟨hscreen, hbefore⟩
          obtain ⟨hx', -⟩ := hscreen.resolve_left (by omega)
          have hle := (index_le_index_iff hx' hx).mpr hbefore
          exact ⟨hx', by omega, by omega⟩
      exact if_congr herased rfl rfl
    have hscreen : a.screen.performOps fb a.term.still (eraseUpTo a.term.rows a.term.cols x y)
        = { a.screen with
            cell := eraseCells a.term.rows a.term.cols 1 x y a.screen.cell a.screen.pen.empty } := by
      rw [eraseUpTo_eq hx hy, List.cons_append, ← List.singleton_append, performOps_append,
        performOps_place fb a.term.still _ a.term.cols_pos a.term.rows_pos, ← hcell]
      have hback := performOps_blanks_back fb hctx a.screen hx hy a.term.cols_pos hroom
      rwa [hplace] at hback
    exact write_calls fb h hprivate [1] (by decide) hscreen fun offset i => by
      rw [hget]
      exact ⟨_, rfl⟩
  · have hscreen : a.screen.performOps fb a.term.still [.clear false]
        = { a.screen with
            cell := eraseCells a.term.rows a.term.cols mode x y a.screen.cell
              a.screen.pen.empty } := by
      have hcell : (fun _ _ => a.screen.pen.empty)
          = eraseCells a.term.rows a.term.cols mode x y a.screen.cell a.screen.pen.empty := by
        funext y' x'
        have herased : Erased mode x y x' y' := by
          rw [Erased, if_neg (by omega), if_neg (by omega)]
          trivial
        exact (if_pos ⟨Or.inl (by omega), herased⟩).symm
      rw [← hcell]
      rfl
    obtain rfl | rfl := hall
    · exact write_calls fb h hprivate [2] (by decide) hscreen fun offset i => ⟨_, rfl⟩
    · exact write_calls fb h hprivate [3] (by decide) hscreen fun offset i => ⟨_, rfl⟩

/-! ## Section 3: Lines -/

/-- The rows from `top` to `bottom - 1` without the first `n`; blank ones follow. -/
def liftRows (top bottom n : Nat) (blank : FlantermFbChar) (cell : Nat → Nat → FlantermFbChar) :
    Nat → Nat → FlantermFbChar := fun y x =>
  if top ≤ y ∧ y < bottom then if y + n < bottom then cell (y + n) x else blank else cell y x

/-- The rows from `top` to `bottom - 1` behind `n` blank ones; what has no room is lost. -/
def lowerRows (top bottom n : Nat) (blank : FlantermFbChar) (cell : Nat → Nat → FlantermFbChar) :
    Nat → Nat → FlantermFbChar := fun y x =>
  if top ≤ y ∧ y < bottom then if y < top + n then blank else cell (y - n) x else cell y x

/-- A region that scrolls `n` times. -/
theorem performOps_scrolls (ctx : FlantermContext) (screen : Screen)
    (hmargins : ctx.scroll_top_margin < ctx.scroll_bottom_margin) (n : Nat) :
    screen.performOps fb ctx (List.replicate n .scroll) = { screen with
      cell := liftRows ctx.scroll_top_margin ctx.scroll_bottom_margin n screen.pen.empty
        screen.cell } := by
  induction n generalizing screen with
  | zero =>
    have hcell : liftRows ctx.scroll_top_margin ctx.scroll_bottom_margin 0 screen.pen.empty
        screen.cell = screen.cell := by
      funext y x
      rw [liftRows]
      split
      · next hin => rw [Nat.add_zero, if_pos hin.2]
      · rfl
    rw [hcell]
    rfl
  | succ n ih =>
    have hcell : liftRows ctx.scroll_top_margin ctx.scroll_bottom_margin n screen.pen.empty
        (Screen.moveUp ctx.scroll_top_margin ctx.scroll_bottom_margin screen.pen.empty screen.cell)
        = liftRows ctx.scroll_top_margin ctx.scroll_bottom_margin (n + 1) screen.pen.empty
            screen.cell := by
      funext y x
      rw [liftRows, liftRows, Screen.moveUp, Screen.moveUp]
      by_cases hin : ctx.scroll_top_margin ≤ y ∧ y < ctx.scroll_bottom_margin
      · rw [if_pos hin, if_pos hin]
        rcases Nat.lt_trichotomy (y + n + 1) ctx.scroll_bottom_margin with hlt | heq | hgt
        · rw [if_pos (by omega), if_neg (by omega), if_pos (by omega), if_pos (by omega),
            Nat.add_assoc]
        · rw [if_pos (by omega), if_pos heq, if_neg (by omega)]
        · rw [if_neg (by omega), if_neg (by omega)]
      · rw [if_neg hin, if_neg hin, if_neg (by omega), if_neg (by omega)]
    have hfirst : screen.perform fb (ctx.call .scroll) = { screen with
      cell := Screen.moveUp ctx.scroll_top_margin ctx.scroll_bottom_margin screen.pen.empty
        screen.cell } := rfl
    rw [List.replicate_succ, performOps_cons, hfirst, ih, ← hcell]

/-- A region that scrolls back `n` times. -/
theorem performOps_revscrolls (ctx : FlantermContext) (screen : Screen)
    (hmargins : ctx.scroll_top_margin < ctx.scroll_bottom_margin) (n : Nat) :
    screen.performOps fb ctx (List.replicate n .revscroll) = { screen with
      cell := lowerRows ctx.scroll_top_margin ctx.scroll_bottom_margin n screen.pen.empty
        screen.cell } := by
  induction n generalizing screen with
  | zero =>
    have hcell : lowerRows ctx.scroll_top_margin ctx.scroll_bottom_margin 0 screen.pen.empty
        screen.cell = screen.cell := by
      funext y x
      rw [lowerRows]
      split
      · next hin => rw [if_neg (by omega), Nat.sub_zero]
      · rfl
    rw [hcell]
    rfl
  | succ n ih =>
    have hcell : lowerRows ctx.scroll_top_margin ctx.scroll_bottom_margin n screen.pen.empty
        (Screen.moveDown ctx.scroll_top_margin ctx.scroll_bottom_margin screen.pen.empty
          screen.cell)
        = lowerRows ctx.scroll_top_margin ctx.scroll_bottom_margin (n + 1) screen.pen.empty
            screen.cell := by
      funext y x
      rw [lowerRows, lowerRows, Screen.moveDown, Screen.moveDown]
      by_cases hin : ctx.scroll_top_margin ≤ y ∧ y < ctx.scroll_bottom_margin
      · rw [if_pos hin, if_pos hin]
        rcases Nat.lt_trichotomy y (ctx.scroll_top_margin + n) with hlt | heq | hgt
        · rw [if_pos hlt, if_pos (by omega)]
        · rw [if_neg (by omega), if_pos (by omega), if_pos (by omega)]
        · rw [if_neg (by omega), if_neg (by omega), if_pos (by omega), if_neg (by omega),
            Nat.sub_sub]
      · rw [if_neg hin, if_neg hin, if_neg (by omega), if_neg (by omega)]
    have hfirst : screen.perform fb (ctx.call .revscroll) = { screen with
      cell := Screen.moveDown ctx.scroll_top_margin ctx.scroll_bottom_margin screen.pen.empty
        screen.cell } := rfl
    rw [List.replicate_succ, performOps_cons, hfirst, ih, ← hcell]

/-- The number of lines is limited to the height of the screen. -/
theorem count_eq {n rows : Nat} : (if n > rows then rows else n) = min n rows := by
  split <;> omega

/-- **Lines are deleted** at the top of the scrolling region, wherever the cursor is. -/
theorem write_deleteLines (h : a.term.Ground) (hprivate : a.term.dec_private = false)
    (hmargins : a.term.scroll_top_margin < a.term.scroll_bottom_margin)
    (hbottom : a.term.scroll_bottom_margin ≤ a.term.rows) {n : Nat} (hn : n < 2 ^ 32) :
    ∃ offset values i, a.write fb (csi [n] 0x4d) = ⟨a.term.afterSequence offset values i,
      { a.screen with
        cell := liftRows a.term.scroll_top_margin a.term.scroll_bottom_margin n
          a.screen.pen.empty a.screen.cell }⟩ := by
  have hcell : liftRows a.term.scroll_top_margin a.term.scroll_bottom_margin
      (min n a.term.rows) a.screen.pen.empty a.screen.cell
      = liftRows a.term.scroll_top_margin a.term.scroll_bottom_margin n a.screen.pen.empty
          a.screen.cell := by
    funext y x
    rcases Nat.le_total n a.term.rows with hle | hge
    · rw [Nat.min_eq_left hle]
    · rw [Nat.min_eq_right hge, liftRows, liftRows]
      split
      · rw [if_neg (by omega), if_neg (by omega)]
      · rfl
  have hscreen : a.screen.performOps fb a.term.still
      (List.replicate (min n a.term.rows) .scroll) = _ :=
    performOps_scrolls fb a.term.still a.screen hmargins _
  rw [← hcell]
  apply write_calls fb h hprivate [n] (by decide) hscreen
  intro offset i
  refine ⟨parameters a.term (escDefault 0x4d) [n], ?_⟩
  show deleteLines _ = _
  have hvalue := value_executing a.term offset i (escDefault 0x4d) hn
  rw [deleteLines, hvalue, count_eq]
  rfl

/-- The calls that insert lines are made with another top margin. -/
def FlantermContext.below (ctx : FlantermContext) (y : Nat) : FlantermContext :=
  { ctx with scroll_top_margin := y }

/-- **Lines are inserted** at the cursor, in the scrolling region. -/
theorem write_insertLines (h : a.term.Ground) (hprivate : a.term.dec_private = false)
    (hcursor : a.screen.CursorAt a.term x y) (hmargin : y < a.term.scroll_bottom_margin)
    (hbottom : a.term.scroll_bottom_margin ≤ a.term.rows) {n : Nat} (hn : n < 2 ^ 32) :
    ∃ offset values i, a.write fb (csi [n] 0x4c) = ⟨a.term.afterSequence offset values i,
      { a.screen with
        cell := lowerRows y a.term.scroll_bottom_margin n a.screen.pen.empty a.screen.cell }⟩ := by
  have hcell : lowerRows y a.term.scroll_bottom_margin (min n a.term.rows) a.screen.pen.empty
      a.screen.cell
      = lowerRows y a.term.scroll_bottom_margin n a.screen.pen.empty a.screen.cell := by
    funext y' x'
    rcases Nat.le_total n a.term.rows with hle | hge
    · rw [Nat.min_eq_left hle]
    · rw [Nat.min_eq_right hge, lowerRows, lowerRows]
      split
      · rw [if_pos (by omega), if_pos (by omega)]
      · rfl
  obtain ⟨offset, hwrite⟩ := write_command fb h hprivate [n] (c := 0x4c) (by decide)
  let values := parameters a.term (escDefault 0x4c) [n]
  let ctx := a.term.executing offset values (min [n].length FLANTERM_MAX_ESC_VALUES)
  have hvalue : ctx.value 0 = n := value_executing a.term offset _ (escDefault 0x4c) hn
  have hcommand : controlSequence ctx 0x4c x y
      = (ctx, (ctx.below y).calls (List.replicate (min n a.term.rows) .revscroll)) := by
    show insertLines ctx y = _
    rw [insertLines, hvalue, count_eq]
    rfl
  have hframe : SameFrame (ctx.below y) (a.term.still.below y) := ⟨rfl, rfl, rfl, rfl, rfl⟩
  have hscreen := performOps_revscrolls fb (a.term.still.below y) a.screen hmargin
    (min n a.term.rows)
  rw [← performOps_congr fb hframe] at hscreen
  refine ⟨offset, values, min [n].length FLANTERM_MAX_ESC_VALUES, ?_⟩
  rw [hwrite, hcursor.get, hcommand, ← hcell]
  exact congrArg (ScreenTerminal.mk _) hscreen

end commands

/-! ## Section 4: The scrolling region -/

/-- The cursor is in the scrolling region, and outside of it the screen is as in `before`. -/
structure Inside (ctx : FlantermContext) (before screen : Screen) : Prop where
  cursor : ctx.InRegion screen.pen.cursor_y
  cell   : ∀ y, ¬ctx.InRegion y → ∀ x, screen.cell y x = before.cell y x

section region
variable (fb : FbSettings) {ctx : FlantermContext} {before screen : Screen}

/-- Rows that move up are in the region. -/
theorem moveUp_outside {top bottom : Nat} (hmargins : top < bottom)
    (cell : Nat → Nat → FlantermFbChar) (blank : FlantermFbChar) {y : Nat}
    (hy : ¬(top ≤ y ∧ y < bottom)) (x : Nat) :
    Screen.moveUp top bottom blank cell y x = cell y x := by
  rw [Screen.moveUp, if_neg (by omega), if_neg (by omega)]

/-- **A line break** in the region. -/
theorem Inside.lineBreak (h : Inside ctx before screen) :
    Inside ctx before (screen.lineBreak ctx) := by
  obtain ⟨⟨htop, hbottom⟩, hcell⟩ := h
  rw [Screen.lineBreak]
  split
  · refine ⟨⟨htop, hbottom⟩, ?_⟩
    intro y hy x
    rw [← hcell y hy x]
    exact moveUp_outside (htop.trans_lt hbottom) screen.cell screen.pen.empty hy x
  · next hlast => exact ⟨⟨Nat.le_succ_of_le htop, Nat.lt_of_le_of_ne hbottom hlast⟩, hcell⟩

/-- A glyph in a row of the region that has room for it. -/
theorem Inside.print_room (h : Inside ctx before screen) (hroom : screen.pen.cursor_x < ctx.cols)
    (g : UInt8) : Inside ctx before (screen.print ctx g) := by
  rw [Screen.print_of_lt hroom]
  refine ⟨h.cursor, ?_⟩
  intro y hy x
  have hne : y ≠ screen.pen.cursor_y := fun heq => hy (heq ▸ h.cursor)
  show Screen.put screen.cell screen.pen.cursor_y screen.pen.cursor_x _ y x = _
  rw [Screen.put_apply, if_neg fun hat => hne hat.1]
  exact h.cell y hy x

/-- **A glyph** in the region. -/
theorem Inside.print (h : Inside ctx before screen) (hctx : ctx.Typewriter) (g : UInt8) :
    Inside ctx before (screen.print ctx g) := by
  rcases Nat.lt_or_ge screen.pen.cursor_x ctx.cols with hroom | hfull
  · exact h.print_room hroom g
  · rw [Screen.print_of_full hctx hfull h.cursor]
    apply h.lineBreak.print_room
    rw [Screen.lineBreak]
    split
    · exact ctx.cols_pos
    · exact ctx.cols_pos

/-- Glyphs in the region. -/
theorem Inside.prints (h : Inside ctx before screen) (hctx : ctx.Typewriter)
    (glyphs : List UInt8) : Inside ctx before (screen.prints ctx glyphs) := by
  induction glyphs generalizing screen with
  | nil => exact h
  | cons g glyphs ih => exact ih (h.print hctx g)

/-- **A text in the scrolling region**: however long it is, the rows outside of the region stay
    as they were. -/
theorem write_region (h : Inside ctx before screen) (hctx : ctx.Typewriter) {first : List Char}
    {others : List (List Char)} (hgraphic : ∀ line ∈ first :: others, ∀ c ∈ line, Graphic c) :
    ∃ cp screen', ScreenTerminal.write fb ⟨ctx, screen⟩ (encodeLines (first :: others))
        = ⟨ctx.decoding 0 cp, screen'⟩ ∧ Inside ctx before screen' := by
  obtain ⟨cp, hwrite⟩ := write_chars fb (a := ⟨ctx, screen⟩) hctx.toPlain
    (hgraphic first List.mem_cons_self)
  rw [encodeLines_cons, ScreenTerminal.write_append, hwrite]
  have hothers : ∀ line ∈ others, ∀ c ∈ line, Graphic c :=
    fun line hline => hgraphic line (List.mem_cons_of_mem first hline)
  have hfirst := h.prints hctx (first.flatMap charGlyphs)
  show ∃ cp' screen', ScreenTerminal.write fb
    ⟨ctx.decoding 0 cp, screen.prints ctx (first.flatMap charGlyphs)⟩ _ = _ ∧ _
  generalize screen.prints ctx (first.flatMap charGlyphs) = screen₁ at hfirst
  clear hwrite hgraphic
  induction others generalizing cp screen₁ with
  | nil => exact ⟨cp, screen₁, rfl, hfirst⟩
  | cons line others ih =>
    have hctx' := hctx.decoding cp
    have hinside : Inside (ctx.decoding 0 cp) before screen₁ := ⟨hfirst.cursor, hfirst.cell⟩
    obtain ⟨cp₂, hline⟩ := write_chars fb (a := ⟨ctx.decoding 0 cp, _⟩) hctx'.toPlain
      (hothers line List.mem_cons_self)
    have hlined := hinside.lineBreak.prints hctx' (line.flatMap charGlyphs)
    obtain ⟨cp₃, screen₃, hrest, hinside₃⟩ := ih cp₂
      (fun line' hline' => hothers line' (List.mem_cons_of_mem line hline')) _
      ⟨hlined.cursor, hlined.cell⟩
    refine ⟨cp₃, screen₃, ?_, hinside₃⟩
    rw [List.flatMap_cons, List.cons_append, ScreenTerminal.write, Runs.run_cons,
      putchar_lineFeed fb hctx' hinside.cursor]
    show ScreenTerminal.write fb ⟨ctx.decoding 0 cp, _⟩ (_ ++ _) = _
    rw [ScreenTerminal.write_append]
    exact (congrArg (fun a => ScreenTerminal.write fb a _) hline).trans hrest

end region

/-! ## Section 5: A window -/

/-- The scrolling region goes from row `top` to row `bottom - 1`. -/
def FlantermContext.withMargins (ctx : FlantermContext) (top bottom : Nat) : FlantermContext :=
  { ctx with scroll_top_margin := top, scroll_bottom_margin := bottom }

section window
variable (fb : FbSettings) {a : ScreenTerminal} {top bottom : Nat}

/-- Margins with a row between them. -/
theorem setMargins_eq (ctx : FlantermContext) (htop : ctx.value 0 = top + 1)
    (hbottom : ctx.value 1 = bottom) (hi : 1 < ctx.esc_values_i) (hmargins : top + 1 < bottom)
    (hrows : bottom ≤ ctx.rows) : setMargins ctx
      = (ctx.withMargins top bottom, (ctx.withMargins top bottom).calls [.set_cursor_pos 0 0]) := by
  have hzero : ∀ {i}, ctx.value i ≠ 0 → ctx.esc_values i ≠ 0 := by
    intro i hne heq
    exact hne (congrArg UInt32.toNat heq)
  have hpred : (ctx.esc_values 0 - 1).toNat = top := by
    have hle : (1 : UInt32) ≤ ctx.esc_values 0 := by
      rw [UInt32.le_iff_toNat_le]
      show 1 ≤ ctx.value 0
      omega
    rw [UInt32.toNat_sub_of_le _ _ hle]
    show ctx.value 0 - 1 = top
    omega
  have hlt : bottom < 2 ^ 32 := hbottom ▸ UInt32.toNat_lt _
  have hout : ¬(top ≥ ctx.rows ∨ bottom > ctx.rows ∨ top ≥ sizeSub bottom 1) := by
    rw [sizeSub_of_le (by omega) (by omega)]
    omega
  simp only [setMargins, if_neg (hzero (i := 0) (by omega)), if_neg (hzero (i := 1) (by omega)),
    if_pos (Nat.lt_of_succ_lt hi), if_pos hi, hpred, hbottom, if_neg hout]
  rfl

/-- **The margins are set**, and the cursor goes to the corner of the screen. -/
theorem write_margins (h : a.term.Ground) (hprivate : a.term.dec_private = false)
    (hrows : a.term.rows < 2 ^ 32) (hmargins : top + 1 < bottom) (hbottom : bottom ≤ a.term.rows) :
    ∃ offset values i, a.write fb (csi [top + 1, bottom] 0x72)
      = ⟨(a.term.afterSequence offset values i).withMargins top bottom, a.screen.place 0 0⟩ := by
  obtain ⟨offset, hwrite⟩ := write_command fb h hprivate [top + 1, bottom] (c := 0x72) (by decide)
  let values := parameters a.term (escDefault 0x72) [top + 1, bottom]
  let count := min [top + 1, bottom].length FLANTERM_MAX_ESC_VALUES
  let ctx := a.term.executing offset values count
  have hvalue : ∀ n, n < 2 ^ 32 → (UInt32.ofNat n).toNat = n := by
    intro n hn
    rw [UInt32.toNat_ofNat']
    exact Nat.mod_eq_of_lt hn
  have hset : ∀ x y, controlSequence ctx 0x72 x y
      = (ctx.withMargins top bottom, (ctx.withMargins top bottom).calls [.set_cursor_pos 0 0]) :=
    fun _ _ => setMargins_eq ctx (hvalue (top + 1) (by omega)) (hvalue bottom (by omega))
      (Nat.lt_succ_self 1) hmargins hbottom
  refine ⟨offset, values, count, ?_⟩
  rw [hwrite, hset]
  exact congrArg (ScreenTerminal.mk _)
    (performOps_place fb (ctx.withMargins top bottom) a.screen ctx.cols_pos ctx.rows_pos)

/-- The rows from `top` to `bottom - 1` are blank, and the cursor is in the first of them. -/
def Screen.window (screen : Screen) (top bottom : Nat) : Screen where
  cell := fun y x => if top ≤ y ∧ y < bottom then screen.pen.empty else screen.cell y x
  pen  := { screen.pen with cursor_x := 0, cursor_y := top }

/-- A window is opened: margins are set, all lines between them are deleted, and the cursor is
    placed there. -/
theorem write_openWindow (h : a.term.Ground) (hprivate : a.term.dec_private = false)
    (hrows : a.term.rows < 2 ^ 32) (hcols : a.term.cols < 2 ^ 32) (hmargins : top + 1 < bottom)
    (hbottom : bottom ≤ a.term.rows) : ∃ offset values i,
      a.write fb (csi [top + 1, bottom] 0x72 ++ csi [bottom] 0x4d ++ csi [top + 1, 1] 0x48)
        = ⟨(a.term.withMargins top bottom).afterSequence offset values i,
            a.screen.window top bottom⟩ := by
  obtain ⟨offset, values, i, hset⟩ := write_margins fb h hprivate hrows hmargins hbottom
  let ctx := (a.term.afterSequence offset values i).withMargins top bottom
  have hctx : ctx.Ground := { h with escape := rfl, control_sequence := rfl }
  obtain ⟨offset₁, values₁, i₁, hdelete⟩ := write_deleteLines fb (a := ⟨ctx, a.screen.place 0 0⟩)
    hctx hprivate (Nat.lt_of_succ_lt hmargins) hbottom (show bottom < 2 ^ 32 by omega)
  have hcell : liftRows top bottom bottom a.screen.pen.empty a.screen.cell
      = (a.screen.window top bottom).cell := by
    funext y x
    rw [liftRows]
    show _ = if top ≤ y ∧ y < bottom then a.screen.pen.empty else a.screen.cell y x
    split
    · rw [if_neg (by omega)]
    · rfl
  have hblank : ScreenTerminal.write fb ⟨ctx, a.screen.place 0 0⟩ (csi [bottom] 0x4d)
      = ⟨ctx.afterSequence offset₁ values₁ i₁,
          ⟨(a.screen.window top bottom).cell, (a.screen.place 0 0).pen⟩⟩ := by
    rw [← hcell]
    exact hdelete
  obtain ⟨offset₂, values₂, i₂, hplace⟩ := write_cursorPosition fb
    (a := ⟨ctx.afterSequence offset₁ values₁ i₁,
      ⟨(a.screen.window top bottom).cell, (a.screen.place 0 0).pen⟩⟩)
    (hctx.afterSequence offset₁ values₁ i₁) hprivate (Nat.le_of_lt hrows) (Nat.le_of_lt hcols)
    (top + 1) 1
  have hrow : min ((top + 1) % 2 ^ 32 - 1) (a.term.rows - 1) = top := by
    rw [Nat.mod_eq_of_lt (by omega)]
    omega
  refine ⟨offset₂, values₂, i₂, ?_⟩
  rw [ScreenTerminal.write_append, ScreenTerminal.write_append, hset, hblank, hplace]
  show ScreenTerminal.mk _ (Screen.place _ (min 0 _)
    (min ((top + 1) % 2 ^ 32 - 1) (a.term.rows - 1))) = _
  rw [hrow, Nat.zero_min]
  rfl

/-- An empty window. -/
theorem window_types (ctx : FlantermContext) (screen : Screen) (hmargins : top < bottom)
    (offset : Nat) (values : Nat → UInt32) (i : Nat) :
    Types screen.pen.text_fg screen.pen.text_bg
      ((ctx.withMargins top bottom).afterSequence offset values i) (screen.window top bottom)
      ⟨[], []⟩ where
  last     := Nat.zero_le _
  cursor_x := rfl
  row      := by
    show top + (0 + 1 - (bottom - top)) = top + 0
    omega
  cursor_y := ⟨Nat.le_refl top, hmargins⟩
  text_fg  := rfl
  text_bg  := rfl
  cell     := by
    intro y x hy _
    have hin : y < bottom - top := hy
    show (if top ≤ top + y ∧ top + y < bottom then _ else _) = _
    rw [show Sheet.lines (⟨[], []⟩ : Sheet UInt8) = [[]] from rfl, symbolAt_nil,
      if_pos ⟨Nat.le_add_right top y, by omega⟩]
    rfl

/-- **A window**: a text is shown between the margins `top + 1` and `bottom` as on a terminal
    that has only these rows, and the rest of the screen stays as it is. -/
theorem write_window (h : a.term.Plain) (hprivate : a.term.dec_private = false)
    (hscroll : a.term.scroll_enabled = true)
    (honlcr : a.term.oob_output &&& FLANTERM_OOB_OUTPUT_ONLCR ≠ 0)
    (hlit : a.term.cursor_enabled = true) (hwide : a.term.rows ≤ a.term.cols)
    (hcols : a.term.cols < 2 ^ 32) (hmargins : top + 1 < bottom) (hbottom : bottom ≤ a.term.rows)
    {first : List Char} {others : List (List Char)}
    (hgraphic : ∀ line ∈ first :: others, ∀ c ∈ line, Graphic c) :
    let after := a.write fb (csi [top + 1, bottom] 0x72 ++ csi [bottom] 0x4d
      ++ csi [top + 1, 1] 0x48 ++ encodeLines (first :: others))
    (∀ x y, x < a.term.cols → y < bottom - top → after.shown x (top + y)
      = textChar a.screen.pen.text_fg a.screen.pen.text_bg (bottom - top) a.term.cols
          ((first :: others).map lineGlyphs) x y) ∧
      ∀ y, ¬(top ≤ y ∧ y < bottom) → ∀ x, after.screen.cell y x = a.screen.cell y x := by
  intro after
  obtain ⟨offset, values, i, hopen⟩ := write_openWindow fb h.toGround hprivate
    (hwide.trans_lt hcols) hcols hmargins hbottom
  let ctx := (a.term.withMargins top bottom).afterSequence offset values i
  have hctx : ctx.Typewriter :=
    { h with
      escape           := rfl
      control_sequence := rfl
      scroll_enabled   := hscroll
      margins          := Nat.lt_of_succ_lt hmargins
      bottom           := hbottom
      onlcr            := honlcr
      rows_le_cols     := hwide
      rows_lt          := (hwide.trans_lt hcols).trans (by decide) }
  have htypes : Types _ _ ctx (a.screen.window top bottom) ⟨[], []⟩ :=
    window_types a.term a.screen (Nat.lt_of_succ_lt hmargins) offset values i
  have hinside : Inside ctx a.screen (a.screen.window top bottom) :=
    ⟨htypes.cursor_y, fun y hy x => if_neg hy⟩
  have hafter : after = ScreenTerminal.write fb ⟨ctx, a.screen.window top bottom⟩
      (encodeLines (first :: others)) := by
    show a.write fb _ = _
    rw [ScreenTerminal.write_append, hopen]
  obtain ⟨cp, screen', hwrite, hframe⟩ := write_region fb hinside hctx hgraphic
  rw [hafter]
  refine ⟨fun x y hx hy => htypes.shows_text fb hctx hlit hgraphic hx hy, ?_⟩
  intro y hy x
  rw [hwrite]
  exact hframe.cell y hy x

/-- A window of three rows. -/
theorem write_window_vga :
    let after := ScreenTerminal.vga.write vgaSettings (csi [4 + 1, 7] 0x72 ++ csi [7] 0x4d
      ++ csi [4 + 1, 1] 0x48 ++ encodeLines [['h'], ['i']])
    (∀ x y, x < ScreenTerminal.vga.term.cols → y < 7 - 4 → after.shown x (4 + y)
      = textChar ScreenTerminal.vga.screen.pen.text_fg ScreenTerminal.vga.screen.pen.text_bg (7 - 4)
          ScreenTerminal.vga.term.cols ([['h'], ['i']].map lineGlyphs) x y) ∧
      ∀ y, ¬(4 ≤ y ∧ y < 7) → ∀ x,
        after.screen.cell y x = ScreenTerminal.vga.screen.cell y x :=
  write_window vgaSettings vga_plain rfl rfl (by decide) rfl (by decide) (by decide) (by decide)
    (by decide) (List.forall_mem_cons.mpr ⟨List.all_iff_forall_prop.mp (by decide),
      List.forall_mem_singleton.mpr (List.all_iff_forall_prop.mp (by decide))⟩)

end window

end Flanterm

end ArgaldOS
