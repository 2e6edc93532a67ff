import ArgaldOS.Terminal.Commands
import Mathlib.Data.List.GetD

/-! # Editing a row

    Characters of a row are erased, deleted, or make room for others.  The row is edited in
    place, one character after the other; so the direction matters in which characters are
    copied.

    * `write_eraseLine`, `write_eraseCharacters`: characters are erased;
    * `write_deleteCharacters`, `write_insertBlanks`: the rest of the row moves;
    * `write_insert_delete`: what is left of a row after both.
-/

namespace ArgaldOS

namespace Flanterm

open Arrays

section editing
variable (fb : FbSettings) {a : ScreenTerminal}

/-! ## Section 1: Erasing -/

/-- `n` places of row `y`, from column `x` on, are blank. -/
def rowBlank (cell : Nat → Nat → FlantermFbChar) (y x n : Nat) (blank : FlantermFbChar) :
    Nat → Nat → FlantermFbChar := fun y' x' =>
  if y' = y ∧ x ≤ x' ∧ x' < x + n then blank else cell y' x'

/-- **Blanks in a row** that has room for them. -/
theorem performOps_blanks (ctx : FlantermContext) (screen : Screen) (n : Nat)
    (hroom : screen.pen.cursor_x + n ≤ ctx.cols) :
    screen.performOps fb ctx (List.replicate n (.raw_putchar 0x20)) =
      { cell := rowBlank screen.cell screen.pen.cursor_y screen.pen.cursor_x n screen.pen.empty
        pen := { screen.pen with cursor_x := screen.pen.cursor_x + n } } := by
  have hops : List.replicate n (Op.raw_putchar 0x20)
      = (List.replicate n 0x20).map Op.raw_putchar := List.map_replicate.symm
  rw [hops, Screen.performOps, foldl_raw_putchar,
    prints_row ctx screen _ (by rwa [List.length_replicate]), List.length_replicate]
  have hcell : rowText screen.cell screen.pen.cursor_y screen.pen.cursor_x (List.replicate n 0x20)
      screen.pen.text_fg screen.pen.text_bg
      = rowBlank screen.cell screen.pen.cursor_y screen.pen.cursor_x n screen.pen.empty := by
    funext y x
    rw [rowText, rowBlank, List.length_replicate]
    split
    · next hin =>
      rw [List.getElem?_replicate, if_pos (by omega)]
      rfl
    · rfl
  rw [hcell]

/-- Blanks between two placements of the cursor. -/
theorem performOps_blanks_at (ctx : FlantermContext) (screen : Screen) {x y x' n : Nat}
    (hx : x < ctx.cols) (hy : y < ctx.rows) (hroom : x' + n ≤ ctx.cols) :
    (screen.place x' y).performOps fb ctx
        (List.replicate n (.raw_putchar 0x20) ++ [.set_cursor_pos x y])
      = { cell := rowBlank screen.cell y x' n screen.pen.empty
          pen := (screen.place x y).pen } := by
  rw [performOps_append, performOps_blanks fb ctx (screen.place x' y) n hroom]
  exact performOps_place fb ctx _ hx hy

section row
variable {x y : Nat}

/-- **A part of a row is erased**: the rest of it, what is before the cursor, or all of it. -/
theorem write_eraseLine (h : a.term.Ground) (hprivate : a.term.dec_private = false)
    (hcursor : a.screen.CursorAt a.term x y) {mode : Nat} (hmode : mode ≤ 2) :
    ∃ offset values i, a.write fb (csi [mode] 0x4b)
      = ⟨a.term.afterSequence offset values i, { a.screen with
          cell := rowBlank a.screen.cell y (if mode = 0 then x else 0)
            (if mode = 0 then a.term.cols - x else if mode = 1 then x else a.term.cols)
            a.screen.pen.empty }⟩ := by
  obtain ⟨hx, hy⟩ := hcursor.1
  have hzero := a.term.cols_pos
  have hget := hcursor.get
  have hplace := hcursor.place
  obtain rfl | rfl | rfl : mode = 0 ∨ mode = 1 ∨ mode = 2 := by omega
  · have hscreen := performOps_blanks_at fb a.term.still a.screen hx hy
      (show x + (a.term.cols - x) ≤ a.term.cols by omega)
    rw [hplace] at hscreen
    exact write_calls fb h hprivate [0] (by decide) hscreen fun offset i => by
      rw [hget]
      exact ⟨_, rfl⟩
  · have hscreen : a.screen.performOps fb a.term.still
        (.set_cursor_pos 0 y :: List.replicate x (.raw_putchar 0x20))
        = { a.screen with cell := rowBlank a.screen.cell y 0 x a.screen.pen.empty } := by
      rw [← List.singleton_append, performOps_append, performOps_place fb a.term.still _ hzero hy,
        performOps_blanks fb a.term.still _ x (by show 0 + x ≤ a.term.cols; omega)]
      show Screen.mk _ (a.screen.place (0 + x) y).pen = _
      rw [Nat.zero_add, hplace]
      rfl
    exact write_calls fb h hprivate [1] (by decide) hscreen fun offset i => by
      rw [hget]
      exact ⟨_, rfl⟩
  · have hscreen : a.screen.performOps fb a.term.still
        (.set_cursor_pos 0 y ::
          (List.replicate a.term.cols (.raw_putchar 0x20) ++ [.set_cursor_pos x y]))
        = { a.screen with cell := rowBlank a.screen.cell y 0 a.term.cols a.screen.pen.empty } := by
      rw [← List.singleton_append, performOps_append, performOps_place fb a.term.still _ hzero hy,
        performOps_blanks_at fb a.term.still _ hx hy
          (show 0 + a.term.cols ≤ a.term.still.cols by rw [Nat.zero_add]; exact Nat.le_refl _),
        hplace]
    exact write_calls fb h hprivate [2] (by decide) hscreen fun offset i => by
      rw [hget]
      exact ⟨_, rfl⟩

/-- **Characters are erased** behind the cursor. -/
theorem write_eraseCharacters (h : a.term.Ground) (hprivate : a.term.dec_private = false)
    (hcursor : a.screen.CursorAt a.term x y) {n : Nat} (hn : n < 2 ^ 32)
    (hroom : x + n ≤ a.term.cols) : ∃ offset values i, a.write fb (csi [n] 0x58)
      = ⟨a.term.afterSequence offset values i, { a.screen with
          cell := rowBlank a.screen.cell y x n a.screen.pen.empty }⟩ := by
  obtain ⟨hx, hy⟩ := hcursor.1
  have hget := hcursor.get
  have hscreen := performOps_blanks_at fb a.term.still a.screen hx hy hroom
  rw [hcursor.place] at hscreen
  apply write_calls fb h hprivate [n] (by decide) hscreen
  intro offset i
  refine ⟨parameters a.term (escDefault 0x58) [n], ?_⟩
  show eraseCharacters _ _ _ = _
  have hvalue := value_executing a.term offset i (escDefault 0x58) hn
  have hcount : ¬n > (a.term.executing offset (parameters a.term (escDefault 0x58) [n]) i).cols :=
    Nat.not_lt_of_le (show n ≤ a.term.cols by omega)
  rw [hget, eraseCharacters, hvalue, if_neg hcount]

/-! ## Section 2: Moving the rest of a row -/

/-- Characters of row `y` that are copied, each one from a column to another. -/
theorem performOps_moves (ctx : FlantermContext) (screen : Screen) (hy : y < ctx.rows)
    (dst : Nat → Nat) (is : List Nat) (his : ∀ i ∈ is, i < ctx.cols) :
    screen.performOps fb ctx (is.map fun i => .move_character (dst i) y i y)
      = { screen with
          cell := Function.update screen.cell y (is.foldl (fun row i =>
            if dst i < ctx.cols then Function.update row (dst i) (row i) else row)
            (screen.cell y)) } := by
  induction is generalizing screen with
  | nil =>
    rw [List.foldl_nil, Function.update_eq_self]
    rfl
  | cons i is ih =>
    have hi := his i List.mem_cons_self
    rw [List.map_cons, performOps_cons, ih _ fun j hj => his j (List.mem_cons_of_mem i hj),
      List.foldl_cons]
    by_cases hdst : dst i < ctx.cols
    · have hmove : Screen.perform fb screen (ctx.call (.move_character (dst i) y i y))
          = { screen with cell := Screen.put screen.cell y (dst i) (screen.cell y i) } :=
        if_pos ⟨hdst, hi, hy⟩
      rw [hmove, if_pos hdst]
      simp only [Screen.put, Function.update_idem, Function.update_self]
    · have hmove : Screen.perform fb screen (ctx.call (.move_character (dst i) y i y)) = screen :=
        if_neg fun hin => hdst hin.1
      rw [hmove, if_neg hdst]

/-- Row `y` without `n` characters from column `x` on; blanks follow at the end. -/
def rowDelete (cols : Nat) (cell : Nat → Nat → FlantermFbChar) (y x n : Nat)
    (blank : FlantermFbChar) : Nat → Nat → FlantermFbChar := fun y' x' =>
  if y' = y ∧ x' < cols ∧ cols ≤ x' + n then blank
  else if y' = y ∧ x ≤ x' ∧ x' < cols then cell y (x' + n)
  else cell y' x'

/-- Row `y` with the characters `cs` inserted in column `x`; what has no room is lost. -/
def rowInsert (cols : Nat) (cell : Nat → Nat → FlantermFbChar) (y x : Nat)
    (cs : List FlantermFbChar) : Nat → Nat → FlantermFbChar := fun y' x' =>
  if y' = y ∧ x ≤ x' ∧ x' < cols then cs.getD (x' - x) (cell y (x' - cs.length)) else cell y' x'

theorem rowInsert_of_mem {cols x x' : Nat} (cell : Nat → Nat → FlantermFbChar) (y : Nat)
    (cs : List FlantermFbChar) (hx : x ≤ x') (hcols : x' < cols) :
    rowInsert cols cell y x cs y x' = cs.getD (x' - x) (cell y (x' - cs.length)) :=
  if_pos ⟨rfl, hx, hcols⟩

/-- Insertion composes: the first character, and then the others behind it. -/
theorem rowInsert_cons (cols : Nat) (cell : Nat → Nat → FlantermFbChar) (y x : Nat)
    (c : FlantermFbChar) (cs : List FlantermFbChar) :
    rowInsert cols (rowInsert cols cell y x [c]) y (x + 1) cs
      = rowInsert cols cell y x (c :: cs) := by
  funext y' x'
  by_cases hin : y' = y ∧ x ≤ x' ∧ x' < cols
  · obtain ⟨rfl, hx, hcols⟩ := hin
    rw [rowInsert_of_mem cell y' (c :: cs) hx hcols]
    rcases Nat.eq_or_lt_of_le hx with rfl | hlt
    · have hout : ¬(y' = y' ∧ x + 1 ≤ x ∧ x < cols) := by omega
      rw [rowInsert, if_neg hout, rowInsert_of_mem cell y' [c] hx hcols, Nat.sub_self]
      rfl
    · have hindex : x' - x = x' - (x + 1) + 1 := by omega
      rw [rowInsert_of_mem _ y' cs hlt hcols, hindex, List.getD_cons_succ, List.length_cons]
      -- A character behind the inserted ones has moved by one place, and then by the others.
      rcases Nat.lt_or_ge (x' - (x + 1)) cs.length with hnew | hmoved
      · rw [List.getD_eq_getElem _ _ hnew, List.getD_eq_getElem _ _ hnew]
      · rw [List.getD_eq_default _ _ hmoved, List.getD_eq_default _ _ hmoved,
          rowInsert_of_mem cell y' [c] (by omega) (by omega),
          List.getD_eq_default _ _ (by rw [List.length_singleton]; omega), Nat.sub_sub]
        rfl
  · have hout : ¬(y' = y ∧ x + 1 ≤ x' ∧ x' < cols) := by omega
    rw [rowInsert, if_neg hout, rowInsert, if_neg hin, rowInsert, if_neg hin]

/-- Where the blanks begin that take the place of `n` deleted characters. -/
theorem clampPos_sizeSub {cols n : Nat} (hn : n ≤ 2 ^ 31) (hcols : cols < 2 ^ 31) (hpos : 0 < n) :
    clampPos (sizeSub cols n) cols + min n cols = cols := by
  rw [clampPos]
  rcases Nat.lt_or_ge cols n with hlt | hle
  · have hhuge : sizeSub cols n = 2 ^ 64 - (n - cols) := by
      rw [sizeSub, Nat.mod_eq_of_lt (by omega)]
      omega
    rw [hhuge, if_pos (by omega), if_pos (by omega), Nat.zero_add, Nat.min_eq_right (by omega)]
  · rw [sizeSub_of_le hle (by omega), if_neg (by omega), Nat.min_eq_left hle]
    omega

/-- The calls that delete characters. -/
theorem performOps_delete (ctx : FlantermContext) (screen : Screen) {n : Nat} (hn : n ≤ 2 ^ 31)
    (hcols : ctx.cols < 2 ^ 31) (hx : x < ctx.cols) (hy : y < ctx.rows) :
    screen.performOps fb ctx
      (((List.range' (x + n) (ctx.cols - (x + n))).map fun i => .move_character (i - n) y i y)
        ++ [.set_cursor_pos (sizeSub ctx.cols n) y]
        ++ (List.replicate (if n > ctx.cols then ctx.cols else n) (.raw_putchar 0x20)
        ++ [.set_cursor_pos x y]))
      = { screen.place x y with
          cell := rowDelete ctx.cols screen.cell y x n screen.pen.empty } := by
  have hcount : (if n > ctx.cols then ctx.cols else n) = min n ctx.cols := by
    split <;> omega
  have hsource : ∀ i ∈ List.range' (x + n) (ctx.cols - (x + n)), i < ctx.cols := by
    intro i hi
    rw [List.mem_range'_1] at hi
    omega
  have hinside : (List.range' (x + n) (ctx.cols - (x + n))).foldl (fun row i =>
        if i - n < ctx.cols then Function.update row (i - n) (row i) else row) (screen.cell y)
      = (List.range' (x + n) (ctx.cols - (x + n))).foldl (fun row i =>
        Function.update row (i - n) (row i)) (screen.cell y) := by
    apply List.foldl_ext
    intro row i hi
    rw [if_pos ((Nat.sub_le i n).trans_lt (hsource i hi))]
  have hplace : ∀ screen : Screen, screen.performOps fb ctx
      [.set_cursor_pos (sizeSub ctx.cols n) y]
      = screen.place (clampPos (sizeSub ctx.cols n) ctx.cols) y := by
    intro screen
    show ({ screen with pen := set_cursor_pos ctx screen.pen (sizeSub ctx.cols n) y } : Screen) = _
    rw [set_cursor_pos, clampPos_of_lt hy]
    rfl
  have hstart : clampPos (sizeSub ctx.cols n) ctx.cols + min n ctx.cols = ctx.cols ∨
      n = 0 ∧ clampPos (sizeSub ctx.cols n) ctx.cols < ctx.cols := by
    rcases Nat.eq_zero_or_pos n with rfl | hpos
    · right
      rw [sizeSub_of_le (Nat.zero_le _) (by omega), Nat.sub_zero, clampPos, if_pos (Nat.le_refl _)]
      refine ⟨rfl, ?_⟩
      split <;> omega
    · exact Or.inl (clampPos_sizeSub hn hcols hpos)
  generalize clampPos (sizeSub ctx.cols n) ctx.cols = start at hplace hstart
  rw [hcount, performOps_append, performOps_append fb ctx screen _ [.set_cursor_pos _ _],
    performOps_moves fb ctx screen hy (fun i => i - n) _ hsource, hplace,
    performOps_blanks_at fb ctx _ hx hy (by omega), hinside,
    foldl_shiftDown (screen.cell y) _ (Nat.le_add_left n x)]
  have hcell : rowBlank (Function.update screen.cell y fun j =>
        if x + n - n ≤ j ∧ j < x + n + (ctx.cols - (x + n)) - n then screen.cell y (j + n)
        else screen.cell y j) y start (min n ctx.cols) screen.pen.empty
      = rowDelete ctx.cols screen.cell y x n screen.pen.empty := by
    funext y' x'
    rw [rowBlank, rowDelete, Function.update_apply]
    by_cases hrow : y' = y
    · simp only [hrow, true_and, if_true]
      rcases Nat.lt_or_ge x' ctx.cols with hin | hout
      · rcases Nat.lt_or_ge (x' + n) ctx.cols with hkept | hblank
        · have hblank : ¬(start ≤ x' ∧ x' < start + min n ctx.cols) := by omega
          have hlost : ¬(x' < ctx.cols ∧ ctx.cols ≤ x' + n) := by omega
          rw [if_neg hblank, if_neg hlost]
          simp only [show (x + n - n ≤ x' ∧ x' < x + n + (ctx.cols - (x + n)) - n) ↔
            (x ≤ x' ∧ x' < ctx.cols) by omega]
        · rw [if_pos (by omega), if_pos (by omega)]
      · rw [if_neg (by omega), if_neg (by omega), if_neg (by omega), if_neg (by omega)]
    · rw [if_neg fun h => hrow h.1, if_neg hrow, if_neg fun h => hrow h.1, if_neg fun h => hrow h.1]
  rw [← hcell]
  rfl

/-- **Characters are deleted**: the rest of the row moves to the left. -/
theorem write_deleteCharacters (h : a.term.Ground) (hprivate : a.term.dec_private = false)
    (hcursor : a.screen.CursorAt a.term x y) {n : Nat} (hn : n ≤ 2 ^ 31)
    (hcols : a.term.cols < 2 ^ 31) : ∃ offset values i, a.write fb (csi [n] 0x50)
      = ⟨a.term.afterSequence offset values i, { a.screen with
          cell := rowDelete a.term.cols a.screen.cell y x n a.screen.pen.empty }⟩ := by
  obtain ⟨hx, hy⟩ := hcursor.1
  have hget := hcursor.get
  have hscreen := performOps_delete fb a.term.still a.screen hn hcols hx hy
  rw [hcursor.place] at hscreen
  apply write_calls fb h hprivate [n] (by decide) hscreen
  intro offset i
  refine ⟨parameters a.term (escDefault 0x50) [n], ?_⟩
  show deleteCharacters _ _ _ = _
  have hvalue := value_executing a.term offset i (escDefault 0x50) (show n < 2 ^ 32 by omega)
  rw [hget, deleteCharacters, eraseCharacters, hvalue, FlantermContext.calls, FlantermContext.calls,
    ← List.map_append]
  rfl

/-- A character is copied, and a blank takes its place. -/
theorem performOps_replace (ctx : FlantermContext) (screen : Screen) (n : Nat) {i : Nat}
    (hi : i < ctx.cols) (hy : y < ctx.rows) : screen.performOps fb ctx
        [.move_character (i + n) y i y, .set_cursor_pos i y, .raw_putchar 0x20]
      = { screen.place (i + 1) y with
          cell := Function.update screen.cell y (Function.update
            (if i + n < ctx.cols then Function.update (screen.cell y) (i + n) (screen.cell y i)
              else screen.cell y) i screen.pen.empty) } := by
  have hmove := performOps_moves fb ctx screen hy (fun i => i + n) [i] fun j hj => by
    rwa [List.mem_singleton.mp hj]
  rw [List.map_singleton, List.foldl_cons, List.foldl_nil] at hmove
  generalize (if i + n < ctx.cols then Function.update (screen.cell y) (i + n) (screen.cell y i)
    else screen.cell y) = row at hmove
  have hprint : ∀ screen : Screen, screen.performOps fb ctx [.raw_putchar 0x20]
      = screen.print ctx 0x20 := fun _ => rfl
  rw [← List.singleton_append, performOps_append, hmove, ← List.singleton_append,
    performOps_append, performOps_place fb ctx _ hi hy, hprint, Screen.print_of_lt hi]
  simp only [Screen.place, Screen.put, Function.update_idem, Function.update_self]
  rfl

/-- The calls that insert blanks, for some columns. -/
theorem performOps_insert (ctx : FlantermContext) (screen : Screen) (n : Nat) (hy : y < ctx.rows)
    {is : List Nat} (his : ∀ i ∈ is, i < ctx.cols) :
    (screen.performOps fb ctx (is.flatMap fun i =>
        [.move_character (i + n) y i y, .set_cursor_pos i y, .raw_putchar 0x20])).place x y
      = { screen.place x y with
          cell := Function.update screen.cell y (is.foldl (fun row i => Function.update
            (if i + n < ctx.cols then Function.update row (i + n) (row i) else row) i
            screen.pen.empty) (screen.cell y)) } := by
  induction is generalizing screen with
  | nil =>
    rw [List.foldl_nil, Function.update_eq_self]
    rfl
  | cons i is ih =>
    rw [List.flatMap_cons, performOps_append,
      performOps_replace fb ctx screen n (his i List.mem_cons_self) hy,
      ih _ fun j hj => his j (List.mem_cons_of_mem i hj)]
    simp only [Screen.place, Function.update_idem, Function.update_self]
    rfl

/-- **Blanks are inserted**: the rest of the row moves to the right. -/
theorem write_insertBlanks (h : a.term.Ground) (hprivate : a.term.dec_private = false)
    (hcursor : a.screen.CursorAt a.term x y) {n : Nat} (hpos : 0 < n) (hn : n < 2 ^ 32) :
    ∃ offset values i, a.write fb (csi [n] 0x40)
      = ⟨a.term.afterSequence offset values i, { a.screen with
          cell := rowInsert a.term.cols a.screen.cell y x
            (List.replicate n a.screen.pen.empty) }⟩ := by
  obtain ⟨hx, hy⟩ := hcursor.1
  have hget := hcursor.get
  have hcolumns : ∀ i ∈ columnsDown a.term.cols x, i < a.term.still.cols := by
    intro i hi
    rw [columnsDown, List.mem_reverse, List.mem_range'_1] at hi
    show i < a.term.cols
    omega
  have hrow : Function.update a.screen.cell y ((columnsDown a.term.cols x).foldl
        (fun row i => Function.update (if i + n < a.term.cols then
          Function.update row (i + n) (row i) else row) i a.screen.pen.empty) (a.screen.cell y))
      = rowInsert a.term.cols a.screen.cell y x (List.replicate n a.screen.pen.empty) := by
    rw [columnsDown, foldl_insert (a.screen.cell y) a.screen.pen.empty _ hpos (by omega)]
    funext y' x'
    rw [Function.update_apply, rowInsert]
    by_cases hrow : y' = y
    · simp only [hrow, true_and, if_true]
      split
      · rw [List.length_replicate]
        split
        · rw [List.getD_replicate _ (by omega)]
        · rw [List.getD_eq_default _ _ (by rw [List.length_replicate]; omega)]
      · rfl
    · rw [if_neg hrow, if_neg fun h => hrow h.1]
  have hscreen : a.screen.performOps fb a.term.still
      ((columnsDown a.term.cols x).flatMap (fun i =>
        [.move_character (i + n) y i y, .set_cursor_pos i y, .raw_putchar 0x20])
        ++ [.set_cursor_pos x y])
      = { a.screen with
          cell := rowInsert a.term.cols a.screen.cell y x
            (List.replicate n a.screen.pen.empty) } := by
    rw [performOps_append, performOps_place fb a.term.still _ hx hy,
      performOps_insert fb a.term.still a.screen n hy hcolumns, hcursor.place, ← hrow]
    rfl
  apply write_calls fb h hprivate [n] (by decide) hscreen
  intro offset i
  refine ⟨parameters a.term (escDefault 0x40) [n], ?_⟩
  show insertBlanks _ _ _ = _
  have hvalue := value_executing a.term offset i (escDefault 0x40) hn
  rw [hget, insertBlanks, hvalue]
  rfl

/-- After a sequence the front end is between two characters again. -/
theorem FlantermContext.Ground.afterSequence {ctx : FlantermContext} (h : ctx.Ground)
    (offset : Nat) (values : Nat → UInt32) (i : Nat) : (ctx.afterSequence offset values i).Ground :=
  { h with escape := rfl, control_sequence := rfl }

/-- **Insertion and deletion**: what is left of the row is what had room. -/
theorem write_insert_delete (h : a.term.Ground) (hprivate : a.term.dec_private = false)
    (hcursor : a.screen.CursorAt a.term x y) {n : Nat} (hpos : 0 < n) (hn : n ≤ 2 ^ 31)
    (hcols : a.term.cols < 2 ^ 31) : ∃ offset values i,
      a.write fb (csi [n] 0x40 ++ csi [n] 0x50) = ⟨a.term.afterSequence offset values i,
        { a.screen with cell := fun y' x' =>
            if y' = y ∧ x' < a.term.cols ∧ a.term.cols ≤ x' + n then a.screen.pen.empty
            else a.screen.cell y' x' }⟩ := by
  obtain ⟨offset, values, i, hinsert⟩ :=
    write_insertBlanks fb h hprivate hcursor hpos (show n < 2 ^ 32 by omega)
  obtain ⟨offset', values', i', hdelete⟩ := write_deleteCharacters fb
    (a := ⟨a.term.afterSequence offset values i, { a.screen with
      cell := rowInsert a.term.cols a.screen.cell y x (List.replicate n a.screen.pen.empty) }⟩)
    (h.afterSequence offset values i) hprivate hcursor hn hcols
  refine ⟨offset', values', i', ?_⟩
  have hcell : rowDelete a.term.cols (rowInsert a.term.cols a.screen.cell y x
        (List.replicate n a.screen.pen.empty)) y x n a.screen.pen.empty
      = fun y' x' => if y' = y ∧ x' < a.term.cols ∧ a.term.cols ≤ x' + n then a.screen.pen.empty
          else a.screen.cell y' x' := by
    funext y' x'
    rw [rowDelete]
    split
    · rfl
    · next hkept =>
      split
      · next hmoved =>
        rw [rowInsert_of_mem _ y _ (by omega) (by omega),
          List.getD_eq_default _ _ (by rw [List.length_replicate]; omega), List.length_replicate,
          Nat.add_sub_cancel, hmoved.1]
      · next hleft =>
        rw [rowInsert, if_neg (by omega)]
  rw [ScreenTerminal.write_append, hinsert, hdelete, ← hcell]
  rfl

/-- A screen full of letters, with the cursor in row 2 and column 5: three letters are pushed
    over the end of the row, and blanks come back. -/
theorem write_insert_delete_letters :
    let letter (y x : Nat) : FlantermFbChar := ⟨UInt32.ofNat (0x61 + (y + x) % 26), 0xFFFFFF, 0⟩
    let a : ScreenTerminal := ⟨ScreenTerminal.vga.term,
      ⟨letter, { ScreenTerminal.vga.screen.pen with cursor_x := 5, cursor_y := 2 }⟩⟩
    let after := (a.write vgaSettings (csi [3] 0x40 ++ csi [3] 0x50)).screen
    (∀ x < 68, after.cell 2 x = letter 2 x) ∧
      (∀ x, 68 ≤ x → x < 71 → after.cell 2 x = a.screen.pen.empty) ∧
      ∀ x y, y ≠ 2 → after.cell y x = letter y x := by
  intro letter a after
  have hcursor : a.screen.CursorAt a.term 5 2 := ⟨⟨by decide, by decide⟩, rfl, rfl⟩
  have hcols : a.term.cols = 71 := by decide
  obtain ⟨offset, values, i, hwrite⟩ := write_insert_delete vgaSettings (a := a)
    vga_plain.toGround rfl hcursor (n := 3) (by decide) (by decide) (by decide)
  have hcell : after.cell = fun y' x' => if y' = 2 ∧ x' < 71 ∧ 71 ≤ x' + 3 then a.screen.pen.empty
      else letter y' x' := by
    rw [← hcols]
    exact congrArg (fun t : ScreenTerminal => t.screen.cell) hwrite
  rw [hcell]
  exact ⟨fun x hx => if_neg (by omega), fun x hlow hhigh => if_pos ⟨rfl, hhigh, by omega⟩,
    fun x y hy => if_neg fun h => hy h.1⟩

/-! ## Section 3: Insert mode -/

/-- **A byte in insert mode**: the rest of the row makes room for it. -/
theorem putchar_inserting (h : a.term.Ground) (hinsert : a.term.insert_mode = true)
    (hcharset : a.term.charsets a.term.current_charset ≠ CHARSET_DEC_SPECIAL)
    (hcursor : a.screen.CursorAt a.term x y) {c : UInt8} (hlow : 0x20 ≤ c.toNat)
    (hhigh : c.toNat < 0x7f) : a.putchar fb c = ⟨a.term,
      { cell := rowInsert a.term.cols a.screen.cell y x
          [⟨c.toUInt32, a.screen.pen.text_fg, a.screen.pen.text_bg⟩]
        pen := { a.screen.pen with cursor_x := x + 1 } }⟩ := by
  obtain ⟨⟨hx, hy⟩, hpx, hpy⟩ := id hcursor
  have hcolumns : ∀ i ∈ columnsDown a.term.cols x, i < a.term.cols := by
    intro i hi
    rw [columnsDown, List.mem_reverse, List.mem_range'_1] at hi
    omega
  have hprint : printByte a.term c x y
      = ((columnsDown a.term.cols x).map fun i => Op.move_character (i + 1) y i y)
        ++ [.raw_putchar c] := by
    rw [printByte, if_pos hinsert, if_neg hcharset, glyphOf_eq hlow hhigh]
  have hlast : ∀ screen : Screen, screen.performOps fb a.term [.raw_putchar c]
      = screen.print a.term c := fun _ => rfl
  generalize hnew :
    (⟨c.toUInt32, a.screen.pen.text_fg, a.screen.pen.text_bg⟩ : FlantermFbChar) = new
  have hcell : Screen.put (Function.update a.screen.cell y fun j =>
        if x + 1 ≤ j ∧ j < a.term.cols then a.screen.cell y (j - 1) else a.screen.cell y j) y x new
      = rowInsert a.term.cols a.screen.cell y x [new] := by
    funext y' x'
    rw [Screen.put_apply, rowInsert, Function.update_apply]
    by_cases hrow : y' = y
    · subst hrow
      rcases Nat.lt_trichotomy x' x with hlt | rfl | hgt
      · rw [if_neg (by omega), if_pos rfl, if_neg (by omega), if_neg (by omega)]
      · rw [if_pos ⟨rfl, rfl⟩, if_pos ⟨rfl, Nat.le_refl _, hx⟩, Nat.sub_self]
        rfl
      · rw [if_neg (by omega), if_pos rfl]
        simp only [true_and, show (x + 1 ≤ x' ∧ x' < a.term.cols) ↔ (x ≤ x' ∧ x' < a.term.cols)
          by omega]
        rw [List.getD_eq_default _ _ (by rw [List.length_singleton]; omega)]
        rfl
    · rw [if_neg fun h => hrow h.1, if_neg hrow, if_neg fun h => hrow h.1]
  have hscreen : a.screen.performOps fb a.term (printByte a.term c x y)
      = { cell := rowInsert a.term.cols a.screen.cell y x [new]
          pen := { a.screen.pen with cursor_x := x + 1 } } := by
    rw [hprint, performOps_append,
      performOps_moves fb a.term a.screen hy (fun i => i + 1) _ hcolumns, hlast,
      Screen.print_of_lt (by show a.screen.pen.cursor_x < _; omega), columnsDown,
      foldl_shiftUp_within (a.screen.cell y) _ (by omega), ← hcell]
    simp only [hpx, hpy, hnew]
  rw [putchar_printable fb h hlow hhigh, hcursor.get]
  exact congrArg (ScreenTerminal.mk _) hscreen

/-- A glyph in the colours of the pen. -/
def FbPen.char (pen : FbPen) (c : UInt8) : FlantermFbChar := ⟨c.toUInt32, pen.text_fg, pen.text_bg⟩

/-- **A text in insert mode**, in a row that has room for it. -/
theorem write_inserting (h : a.term.Ground) (hinsert : a.term.insert_mode = true)
    (hcharset : a.term.charsets a.term.current_charset ≠ CHARSET_DEC_SPECIAL)
    (hy : y < a.term.rows) (hpx : a.screen.pen.cursor_x = x) (hpy : a.screen.pen.cursor_y = y)
    {text : List UInt8} (htext : ∀ c ∈ text, 0x20 ≤ c.toNat ∧ c.toNat < 0x7f)
    (hroom : x + text.length ≤ a.term.cols) : a.write fb text = ⟨a.term,
      { cell := rowInsert a.term.cols a.screen.cell y x (text.map a.screen.pen.char)
        pen := { a.screen.pen with cursor_x := x + text.length } }⟩ := by
  induction text generalizing a x with
  | nil =>
    have hcell : rowInsert a.term.cols a.screen.cell y x [] = a.screen.cell := by
      funext y' x'
      rw [rowInsert]
      split
      · next hin =>
        rw [hin.1]
        rfl
      · rfl
    show a = ⟨a.term, ⟨rowInsert a.term.cols a.screen.cell y x [], _⟩⟩
    rw [hcell, ← hpx]
    rfl
  | cons c text ih =>
    rw [List.length_cons] at hroom
    obtain ⟨hlow, hhigh⟩ := htext c List.mem_cons_self
    have hstep := putchar_inserting fb h hinsert hcharset ⟨⟨by omega, hy⟩, hpx, hpy⟩ hlow hhigh
    have hrest := ih (a := ⟨a.term,
      { cell := rowInsert a.term.cols a.screen.cell y x [a.screen.pen.char c]
        pen := { a.screen.pen with cursor_x := x + 1 } }⟩) h hinsert hcharset hy rfl hpy
      (fun c' hc' => htext c' (List.mem_cons_of_mem c hc')) (by show x + 1 + _ ≤ a.term.cols; omega)
    have hcell := rowInsert_cons a.term.cols a.screen.cell y x (a.screen.pen.char c)
      (text.map a.screen.pen.char)
    have hlength : x + 1 + text.length = x + (text.length + 1) := by omega
    rw [ScreenTerminal.write, Runs.run_cons, hstep, List.map_cons, ← hcell, List.length_cons,
      ← hlength]
    exact hrest

/-- The mode is set or reset. -/
def FlantermContext.inserting (ctx : FlantermContext) (insert_mode : Bool) : FlantermContext :=
  { ctx with insert_mode := insert_mode }

/-- Insert mode on, and off. -/
theorem write_insertMode (h : a.term.Ground) (hprivate : a.term.dec_private = false)
    (on : Bool) : ∃ offset values i, a.write fb (csi [4] (if on then 0x68 else 0x6c))
      = ⟨(a.term.afterSequence offset values i).inserting on, a.screen⟩ := by
  cases on with
  | true =>
    obtain ⟨offset, hwrite⟩ := write_command fb h hprivate [4] (c := 0x68) (by decide)
    exact ⟨offset, _, _, hwrite⟩
  | false =>
    obtain ⟨offset, hwrite⟩ := write_command fb h hprivate [4] (c := 0x6c) (by decide)
    exact ⟨offset, _, _, hwrite⟩

/-- **A text is inserted** in a row: insert mode is turned on, and off again. -/
theorem write_inserted (h : a.term.Plain) (hprivate : a.term.dec_private = false)
    (hcursor : a.screen.CursorAt a.term x y) {text : List UInt8}
    (htext : ∀ c ∈ text, 0x20 ≤ c.toNat ∧ c.toNat < 0x7f)
    (hroom : x + text.length ≤ a.term.cols) : ∃ offset values i,
      a.write fb (csi [4] 0x68 ++ text ++ csi [4] 0x6c) = ⟨a.term.afterSequence offset values i,
        { cell := rowInsert a.term.cols a.screen.cell y x (text.map a.screen.pen.char)
          pen := { a.screen.pen with cursor_x := x + text.length } }⟩ := by
  obtain ⟨offset, values, i, hon⟩ := write_insertMode fb h.toGround hprivate true
  have htyped := write_inserting fb
    (a := ⟨(a.term.afterSequence offset values i).inserting true, a.screen⟩)
    { h with escape := rfl, control_sequence := rfl } rfl h.charset hcursor.1.2 hcursor.2.1
    hcursor.2.2 htext hroom
  obtain ⟨offset', values', i', hoff⟩ := write_insertMode fb (a := ⟨_, _⟩)
    (show FlantermContext.Ground ((a.term.afterSequence offset values i).inserting true) from
      { h with escape := rfl, control_sequence := rfl }) hprivate false
  refine ⟨offset', values', i', ?_⟩
  have hterm : ((a.term.inserting false).afterSequence offset' values' i')
      = a.term.afterSequence offset' values' i' := by
    rw [FlantermContext.inserting, ← h.insert_mode]
  rw [ScreenTerminal.write_append, ScreenTerminal.write_append]
  refine (congrArg (fun a => (ScreenTerminal.write fb a text).write fb _) hon).trans ?_
  rw [htyped, ← hterm]
  exact hoff

end row

end editing

end Flanterm

end ArgaldOS
