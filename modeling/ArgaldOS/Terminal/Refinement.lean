import ArgaldOS.Terminal.Screen

/-! # The back end shows the screen

    Every call of the back end has the effect that `Screen.perform` says, although it
    only queues what is to be drawn.  It makes no access out of bounds: the queue
    is as long as the grid, and no place of the grid is queued twice.

    * `push_to_queue_spec`: the one function that writes to the queue is the `push` of
      a buffer of deferred writes;
    * `scroll_spec`, `revscroll_spec`, `clear_spec`: the loops;
    * `perform_refines`: every call.
-/

namespace ArgaldOS

namespace Flanterm

open Arrays WriteBack

/-! ## Section 1: Indices -/

section indices
variable {rows cols x y x' y' : Nat}

theorem index_lt (hx : x < cols) (hy : y < rows) : y * cols + x < rows * cols :=
  calc y * cols + x < y * cols + cols := Nat.add_lt_add_left hx _
    _ = (y + 1) * cols := (Nat.succ_mul y cols).symm
    _ ≤ rows * cols := Nat.mul_le_mul_right cols hy

theorem index_div (hx : x < cols) : (y * cols + x) / cols = y := by
  rw [Nat.mul_comm, Nat.mul_add_div (by omega), Nat.div_eq_of_lt hx, Nat.add_zero]

theorem index_mod (hx : x < cols) : (y * cols + x) % cols = x := by
  rw [Nat.mul_comm, Nat.mul_add_mod, Nat.mod_eq_of_lt hx]

theorem index_inj (hx : x < cols) (hx' : x' < cols) :
    y * cols + x = y' * cols + x' ↔ y = y' ∧ x = x' := by
  constructor
  · intro h
    have hy : y = y' :=
      calc y = (y * cols + x) / cols := (index_div hx).symm
        _ = (y' * cols + x') / cols := by rw [h]
        _ = y' := index_div hx'
    exact ⟨hy, by rw [hy] at h; omega⟩
  · intro ⟨hy, hx⟩
    rw [hy, hx]

theorem le_index_iff (hx : x < cols) : y' * cols ≤ y * cols + x ↔ y' ≤ y := by
  rw [← Nat.le_div_iff_mul_le (by omega), index_div hx]

theorem index_lt_iff (hx : x < cols) : y * cols + x < y' * cols ↔ y < y' := by
  rw [← Nat.not_le, le_index_iff hx, Nat.not_le]

end indices

/-! ## Section 2: The queue -/

section queue
variable {fb : FbSettings} {ctx : FlantermContext} {b : FbBuffer} {g v : Nat → FlantermFbChar}

theorem compare_char_iff (a b : FlantermFbChar) : compare_char a b = true ↔ a = b := by
  obtain ⟨ac, afg, abg⟩ := a
  obtain ⟨bc, bfg, bbg⟩ := b
  simp only [compare_char, Bool.not_eq_true', Bool.or_eq_false_iff, bne_eq_false_iff_eq,
    FlantermFbChar.mk.injEq, and_assoc]
  tauto

/-- The buffer `b` shows `v`, and `g` is drawn of it. -/
structure FbBuffer.Holds (rows cols : Nat) (g : Nat → FlantermFbChar) (b : FbBuffer)
    (v : Nat → FlantermFbChar) : Prop where
  ok   : b.Ok rows cols
  view : b.view cols = v
  grid : b.grid = g

/-- Reading a character gives what is shown. -/
theorem charAt_spec (hfits : fb.Fits ctx.rows ctx.cols) (h : b.Holds ctx.rows ctx.cols g v)
    {i : Nat} (hi : i < ctx.rows * ctx.cols) : charAt fb b i = some (v i) := by
  have hcells : i < fb.cells := hfits.cells ▸ hi
  have hview : v i = (b.toBuffer ctx.cols).view i := congrFun h.view.symm i
  rw [hview]
  cases hmap : b.map i with
  | none =>
    have hslot : (b.toBuffer ctx.cols).slot i = none := hmap
    simp only [charAt, load_of_lt hcells, hmap, Option.bind_eq_bind, Option.bind_some,
      Buffer.view, hslot]
    rfl
  | some q =>
    have hslot : (b.toBuffer ctx.cols).slot i = some q := hmap
    have hq : q < fb.cells := by
      have hlt : q < b.queue_i := (h.ok.linked.pending i q hslot).1
      have hle : b.queue_i ≤ ctx.rows * ctx.cols := h.ok.linked.count_le
      rw [hfits.cells]
      omega
    simp only [charAt, load_of_lt hcells, hmap, Option.bind_eq_bind, Option.bind_some,
      load_of_lt hq, Buffer.view, hslot]
    rfl

/-- Outside the screen `push_to_queue` does nothing. -/
theorem push_to_queue_outside (fb : FbSettings) (b : FbBuffer) (c : FlantermFbChar) {x y : Nat}
    (h : x ≥ ctx.cols ∨ y ≥ ctx.rows) : push_to_queue fb ctx b c x y = some b := if_pos h

/-- **Queueing a character** is the `push` of a buffer of deferred writes. -/
theorem push_to_queue_spec (hfits : fb.Fits ctx.rows ctx.cols) (h : b.Holds ctx.rows ctx.cols g v)
    (c : FlantermFbChar) {x y : Nat} (hx : x < ctx.cols) (hy : y < ctx.rows) :
    ∃ b', push_to_queue fb ctx b c x y = some b' ∧
      b'.Holds ctx.rows ctx.cols g (Function.update v (y * ctx.cols + x) c) := by
  have hi : y * ctx.cols + x < ctx.rows * ctx.cols := index_lt hx hy
  have hin : ¬(x ≥ ctx.cols ∨ y ≥ ctx.rows) := by omega
  have hcells : y * ctx.cols + x < fb.cells := hfits.cells ▸ hi
  have hlinked := h.ok.linked
  -- A state that behaves as `push` has what is wanted.
  have hdone : ∀ b' : FbBuffer,
      b'.toBuffer ctx.cols = (b.toBuffer ctx.cols).push (y * ctx.cols + x) c →
      (∀ q, q < b'.queue_i → (b'.queue q).x < ctx.cols ∧ (b'.queue q).y < ctx.rows) →
      b'.grid = g →
      b'.Holds ctx.rows ctx.cols g (Function.update v (y * ctx.cols + x) c) := by
    intro b' heq hinside hgrid
    refine ⟨⟨heq ▸ hlinked.push hi c, hinside⟩, ?_, hgrid⟩
    show (b'.toBuffer ctx.cols).view = _
    rw [heq, hlinked.view_push, ← h.view]
    rfl
  cases hmap : b.map (y * ctx.cols + x) with
  | some q =>
    have hslot : (b.toBuffer ctx.cols).slot (y * ctx.cols + x) = some q := hmap
    obtain ⟨hq, htarget⟩ := hlinked.pending _ q hslot
    have hqc : q < fb.cells := by
      have hle : b.queue_i ≤ ctx.rows * ctx.cols := hlinked.count_le
      have hlt : q < b.queue_i := hq
      rw [hfits.cells]
      omega
    refine ⟨{ b with queue := Function.update b.queue q { b.queue q with c := c } }, ?_, ?_⟩
    · simp only [push_to_queue, if_neg hin, load_of_lt hcells, hmap, Option.bind_eq_bind,
        Option.bind_some, load_of_lt hqc, store_of_lt hqc]
    · refine hdone _ ?_ ?_ h.grid
      · simp only [Buffer.push, hslot]
        show Buffer.mk _ _ _ _ = Buffer.mk _ _ _ _
        congr 1
        funext p
        by_cases hp : p = q
        · simp only [hp, Function.update_self]
          exact congrArg (·, c) htarget
        · simp only [Function.update_of_ne hp]
          rfl
      · intro p hp
        by_cases hpq : p = q
        · simp only [hpq, Function.update_self]
          exact h.ok.inside q hq
        · simp only [Function.update_of_ne hpq]
          exact h.ok.inside p hp
  | none =>
    have hslot : (b.toBuffer ctx.cols).slot (y * ctx.cols + x) = none := hmap
    by_cases hsame : b.grid (y * ctx.cols + x) = c
    · refine ⟨b, ?_, hdone b ?_ h.ok.inside h.grid⟩
      · simp only [push_to_queue, if_neg hin, load_of_lt hcells, hmap, Option.bind_eq_bind,
          Option.bind_some, if_pos ((compare_char_iff _ _).mpr hsame)]
      · have hbase : (b.toBuffer ctx.cols).base (y * ctx.cols + x) = c := hsame
        simp only [Buffer.push, hslot, if_pos hbase]
    · have hcount : b.queue_i < fb.cells := hfits.cells ▸ hlinked.count_lt hi hslot
      have hne : ¬compare_char (b.grid (y * ctx.cols + x)) c = true := fun heq =>
        hsame ((compare_char_iff _ _).mp heq)
      refine ⟨{ b with
        queue := Function.update b.queue b.queue_i ⟨x, y, c⟩
        queue_i := b.queue_i + 1
        map := Function.update b.map (y * ctx.cols + x) (some b.queue_i) }, ?_, ?_⟩
      · simp only [push_to_queue, if_neg hin, load_of_lt hcells, hmap, Option.bind_eq_bind,
          Option.bind_some, if_neg hne, store_of_lt hcells, store_of_lt hcount]
      · have hbase : ¬(b.toBuffer ctx.cols).base (y * ctx.cols + x) = c := hsame
        refine hdone _ ?_ ?_ h.grid
        · simp only [Buffer.push, hslot, if_neg hbase]
          show Buffer.mk _ _ _ _ = Buffer.mk _ _ _ _
          congr 1
          funext p
          have hcount' : (b.toBuffer ctx.cols).count = b.queue_i := rfl
          rw [hcount']
          by_cases hp : p = b.queue_i
          · simp only [hp, Function.update_self]
          · simp only [Function.update_of_ne hp]
            rfl
        · intro p hp
          rcases Nat.lt_succ_iff_lt_or_eq.mp hp with hlt | heq
          · simp only [Function.update_of_ne (Nat.ne_of_lt hlt)]
            exact h.ok.inside p hlt
          · simp only [heq, Function.update_self]
            exact ⟨hx, hy⟩

/-! ## Section 3: Loops over the grid -/

/-- A cleared line. -/
theorem clearLine_spec (hfits : fb.Fits ctx.rows ctx.cols) (h : b.Holds ctx.rows ctx.cols g v)
    (pen : FbPen) {y : Nat} (hy : y < ctx.rows) :
    ∃ b', clearLine fb ctx pen b y = some b' ∧
      b'.Holds ctx.rows ctx.cols g (fun j => if j / ctx.cols = y then pen.empty else v j) := by
  obtain ⟨b', hb', hholds⟩ := exists_foldlM
    (R := fun b v => b.Holds ctx.rows ctx.cols g v)
    (f := fun b i => push_to_queue fb ctx b pen.empty i y)
    (g := fun v i => Function.update v (y * ctx.cols + i) pen.empty)
    (l := List.range ctx.cols)
    (fun i hi b v hb => push_to_queue_spec hfits hb _ (List.mem_range.mp hi) hy) h
  refine ⟨b', hb', ?_⟩
  convert hholds using 1
  funext j
  rw [foldl_fill]
  have hmem : j ∈ (List.range ctx.cols).map (fun i => y * ctx.cols + i) ↔ j / ctx.cols = y := by
    simp only [List.mem_map, List.mem_range]
    constructor
    · intro ⟨i, hi, heq⟩
      rw [← heq, index_div hi]
    · intro heq
      refine ⟨j % ctx.cols, Nat.mod_lt _ ctx.cols_pos, ?_⟩
      rw [← heq, Nat.div_add_mod']
  simp only [hmem]

/-- Copying a character inside the grid. -/
theorem copyChar_spec (hfits : fb.Fits ctx.rows ctx.cols) (h : b.Holds ctx.rows ctx.cols g v)
    {i j : Nat} (hi : i < ctx.rows * ctx.cols) (hj : j < ctx.rows * ctx.cols) :
    ∃ b', copyChar fb ctx b i j = some b' ∧
      b'.Holds ctx.rows ctx.cols g (Function.update v j (v i)) := by
  have hx : j % ctx.cols < ctx.cols := Nat.mod_lt _ ctx.cols_pos
  have hy : j / ctx.cols < ctx.rows := by
    rw [Nat.div_lt_iff_lt_mul ctx.cols_pos]
    exact hj
  obtain ⟨b', hb', hholds⟩ := push_to_queue_spec hfits h (v i) hx hy
  rw [Nat.div_add_mod'] at hholds
  exact ⟨b', by rw [copyChar, charAt_spec hfits h hi]; exact hb', hholds⟩

/-- **Scrolling**: the lines between the margins move up. -/
theorem scroll_spec (hfits : fb.Fits ctx.rows ctx.cols) (h : b.Holds ctx.rows ctx.cols g v)
    (pen : FbPen) (htop : ctx.scroll_top_margin < ctx.scroll_bottom_margin)
    (hbottom : ctx.scroll_bottom_margin ≤ ctx.rows) {cell : Nat → Nat → FlantermFbChar}
    (hshows : Shows ctx.rows ctx.cols v cell) :
    ∃ b' v', scroll fb ctx pen b = some b' ∧ b'.Holds ctx.rows ctx.cols g v' ∧
      Shows ctx.rows ctx.cols v'
        (Screen.moveUp ctx.scroll_top_margin ctx.scroll_bottom_margin pen.empty cell) := by
  have hsub : sizeSub ctx.scroll_bottom_margin 1 = ctx.scroll_bottom_margin - 1 :=
    sizeSub_of_le (by omega) (by have := hfits.rows_lt; omega)
  have hlast : ctx.scroll_bottom_margin * ctx.cols ≤ ctx.rows * ctx.cols :=
    Nat.mul_le_mul_right _ hbottom
  have hone : ctx.cols ≤ (ctx.scroll_top_margin + 1) * ctx.cols :=
    Nat.le_mul_of_pos_left _ (Nat.succ_pos _)
  obtain ⟨b₁, hb₁, hholds₁⟩ := exists_foldlM
    (R := fun b v => b.Holds ctx.rows ctx.cols g v)
    (f := fun b i => copyChar fb ctx b i (i - ctx.cols))
    (g := fun v i => Function.update v (i - ctx.cols) (v i))
    (l := List.range' ((ctx.scroll_top_margin + 1) * ctx.cols)
      (ctx.scroll_bottom_margin * ctx.cols - (ctx.scroll_top_margin + 1) * ctx.cols))
    (fun i hi b v hb => by
      have hi' := List.mem_range'_1.mp hi
      exact copyChar_spec hfits hb (by omega) (by omega)) h
  rw [foldl_shiftDown v _ hone] at hholds₁
  obtain ⟨b₂, hb₂, hholds₂⟩ := clearLine_spec hfits hholds₁ pen
    (y := ctx.scroll_bottom_margin - 1) (by omega)
  refine ⟨b₂, _, ?_, hholds₂, ?_⟩
  · simp only [scroll, hsub, hb₁, Option.bind_eq_bind, Option.bind_some, hb₂]
  · intro y hy x hx
    have hregion : ((ctx.scroll_top_margin + 1) * ctx.cols - ctx.cols ≤ y * ctx.cols + x ∧
        y * ctx.cols + x < (ctx.scroll_top_margin + 1) * ctx.cols
          + (ctx.scroll_bottom_margin * ctx.cols - (ctx.scroll_top_margin + 1) * ctx.cols)
          - ctx.cols) ↔ ctx.scroll_top_margin ≤ y ∧ y < ctx.scroll_bottom_margin - 1 := by
      have hfirst : (ctx.scroll_top_margin + 1) * ctx.cols ≤ ctx.scroll_bottom_margin * ctx.cols :=
        Nat.mul_le_mul_right _ htop
      rw [Nat.add_sub_cancel' hfirst, ← Nat.sub_one_mul, ← Nat.sub_one_mul, Nat.add_sub_cancel,
        le_index_iff hx, index_lt_iff hx]
    simp only [index_div hx, hregion, Screen.moveUp]
    by_cases hlastRow : y + 1 = ctx.scroll_bottom_margin
    · rw [if_pos (by omega), if_pos hlastRow]
    · rw [if_neg (by omega), if_neg hlastRow]
      by_cases hin : ctx.scroll_top_margin ≤ y ∧ y + 1 < ctx.scroll_bottom_margin
      · have hnext : y * ctx.cols + x + ctx.cols = (y + 1) * ctx.cols + x := by
          rw [Nat.succ_mul]
          omega
        rw [if_pos (by omega), if_pos hin, hnext]
        exact hshows (y + 1) (by omega) x hx
      · rw [if_neg (by omega), if_neg hin]
        exact hshows y hy x hx

/-- **Scrolling back**: the lines between the margins move down. -/
theorem revscroll_spec (hfits : fb.Fits ctx.rows ctx.cols) (h : b.Holds ctx.rows ctx.cols g v)
    (pen : FbPen) (htop : ctx.scroll_top_margin < ctx.rows)
    (hbottom : 0 < ctx.scroll_bottom_margin ∧ ctx.scroll_bottom_margin ≤ ctx.rows)
    {cell : Nat → Nat → FlantermFbChar} (hshows : Shows ctx.rows ctx.cols v cell) :
    ∃ b' v', revscroll fb ctx pen b = some b' ∧ b'.Holds ctx.rows ctx.cols g v' ∧
      Shows ctx.rows ctx.cols v'
        (Screen.moveDown ctx.scroll_top_margin ctx.scroll_bottom_margin pen.empty cell) := by
  have hsub : sizeSub ctx.scroll_bottom_margin 1 = ctx.scroll_bottom_margin - 1 :=
    sizeSub_of_le (by omega) (by have := hfits.rows_lt; omega)
  have hnext : (ctx.scroll_bottom_margin - 1) * ctx.cols + ctx.cols
      = ctx.scroll_bottom_margin * ctx.cols := by
    rw [← Nat.succ_mul, Nat.succ_eq_add_one, Nat.sub_add_cancel hbottom.1]
  have hlast : ctx.scroll_bottom_margin * ctx.cols ≤ ctx.rows * ctx.cols :=
    Nat.mul_le_mul_right _ hbottom.2
  obtain ⟨b₁, hb₁, hholds₁⟩ := exists_foldlM
    (R := fun b v => b.Holds ctx.rows ctx.cols g v)
    (f := fun b i => copyChar fb ctx b i (i + ctx.cols))
    (g := fun v i => Function.update v (i + ctx.cols) (v i))
    (l := (List.range' (ctx.scroll_top_margin * ctx.cols)
      ((ctx.scroll_bottom_margin - 1) * ctx.cols - ctx.scroll_top_margin * ctx.cols)).reverse)
    (fun i hi b v hb => by
      have hi' := List.mem_range'_1.mp (List.mem_reverse.mp hi)
      exact copyChar_spec hfits hb (by omega) (by omega)) h
  rw [foldl_shiftUp] at hholds₁
  obtain ⟨b₂, hb₂, hholds₂⟩ := clearLine_spec hfits hholds₁ pen htop
  refine ⟨b₂, _, ?_, hholds₂, ?_⟩
  · simp only [revscroll, hsub, hb₁, Option.bind_eq_bind, Option.bind_some, hb₂]
  · intro y hy x hx
    have hregion : (ctx.scroll_top_margin * ctx.cols + ctx.cols ≤ y * ctx.cols + x ∧
        y * ctx.cols + x < ctx.scroll_top_margin * ctx.cols
          + ((ctx.scroll_bottom_margin - 1) * ctx.cols - ctx.scroll_top_margin * ctx.cols)
          + ctx.cols) ↔ ctx.scroll_top_margin < y ∧ y < ctx.scroll_bottom_margin := by
      have hlo : ctx.scroll_top_margin * ctx.cols + ctx.cols ≤ y * ctx.cols + x
          ↔ ctx.scroll_top_margin + 1 ≤ y := by
        rw [← Nat.succ_mul]
        exact le_index_iff hx
      have hhi : y * ctx.cols + x < ctx.scroll_bottom_margin * ctx.cols
          ↔ y < ctx.scroll_bottom_margin := index_lt_iff hx
      omega
    simp only [index_div hx, hregion, Screen.moveDown]
    by_cases hfirstRow : y = ctx.scroll_top_margin
    · rw [if_pos hfirstRow, if_pos hfirstRow]
    · rw [if_neg hfirstRow, if_neg hfirstRow]
      by_cases hin : ctx.scroll_top_margin < y ∧ y < ctx.scroll_bottom_margin
      · have hprev : y * ctx.cols + x - ctx.cols = (y - 1) * ctx.cols + x := by
          have hrow : y * ctx.cols = (y - 1) * ctx.cols + ctx.cols := by
            rw [← Nat.succ_mul, Nat.succ_eq_add_one, Nat.sub_add_cancel (by omega)]
          omega
        rw [if_pos hin, if_pos hin, hprev]
        exact hshows (y - 1) (by omega) x hx
      · rw [if_neg hin, if_neg hin]
        exact hshows y hy x hx

/-- **Clearing**: every character is a blank. -/
theorem clear_spec (hfits : fb.Fits ctx.rows ctx.cols) (h : b.Holds ctx.rows ctx.cols g v)
    (pen : FbPen) : ∃ b' v', clear fb ctx pen b = some b' ∧ b'.Holds ctx.rows ctx.cols g v' ∧
      Shows ctx.rows ctx.cols v' (fun _ _ => pen.empty) := by
  obtain ⟨b', hb', hholds⟩ := exists_foldlM
    (R := fun b v => b.Holds ctx.rows ctx.cols g v)
    (f := fun b i => push_to_queue fb ctx b pen.empty (i % ctx.cols) (i / ctx.cols))
    (g := fun v i => Function.update v (i / ctx.cols * ctx.cols + i % ctx.cols) pen.empty)
    (l := List.range (ctx.rows * ctx.cols))
    (fun i hi b v hb => push_to_queue_spec hfits hb _ (Nat.mod_lt _ ctx.cols_pos) (by
      rw [Nat.div_lt_iff_lt_mul ctx.cols_pos]
      exact List.mem_range.mp hi)) h
  refine ⟨b', _, hb', hholds, ?_⟩
  intro y hy x hx
  rw [foldl_fill]
  have hmem : y * ctx.cols + x ∈ (List.range (ctx.rows * ctx.cols)).map
      (fun i => i / ctx.cols * ctx.cols + i % ctx.cols) :=
    List.mem_map.mpr ⟨_, List.mem_range.mpr (index_lt hx hy), Nat.div_add_mod' _ _⟩
  rw [if_pos hmem]

/-- **Queueing a character** puts it on the screen, if its column exists.  In a row
    below the screen nobody sees it. -/
theorem push_to_queue_shows (hfits : fb.Fits ctx.rows ctx.cols)
    (h : b.Holds ctx.rows ctx.cols g v) {cell : Nat → Nat → FlantermFbChar}
    (hshows : Shows ctx.rows ctx.cols v cell) (c : FlantermFbChar) (x y : Nat) :
    ∃ b' v', push_to_queue fb ctx b c x y = some b' ∧ b'.Holds ctx.rows ctx.cols g v' ∧
      Shows ctx.rows ctx.cols v' (if x < ctx.cols then Screen.put cell y x c else cell) := by
  by_cases hx : x < ctx.cols
  · rw [if_pos hx]
    by_cases hy : y < ctx.rows
    · obtain ⟨b', hb', hholds⟩ := push_to_queue_spec hfits h c hx hy
      refine ⟨b', _, hb', hholds, ?_⟩
      intro y' hy' x' hx'
      rw [Screen.put_apply, Function.update_apply, ← hshows y' hy' x' hx']
      simp only [index_inj hx' hx]
    · refine ⟨b, v, push_to_queue_outside fb b c (Or.inr (by omega)), h, ?_⟩
      intro y' hy' x' hx'
      rw [Screen.put_apply, if_neg (by omega)]
      exact hshows y' hy' x' hx'
  · rw [if_neg hx]
    exact ⟨b, v, push_to_queue_outside fb b c (Or.inl (by omega)), h, hshows⟩

/-- **Moving a character**. -/
theorem move_character_spec (hfits : fb.Fits ctx.rows ctx.cols)
    (h : b.Holds ctx.rows ctx.cols g v) {cell : Nat → Nat → FlantermFbChar}
    (hshows : Shows ctx.rows ctx.cols v cell) (new_x new_y old_x old_y : Nat) :
    ∃ b' v', move_character fb ctx b new_x new_y old_x old_y = some b' ∧
      b'.Holds ctx.rows ctx.cols g v' ∧
      Shows ctx.rows ctx.cols v'
        (if new_x < ctx.cols ∧ old_x < ctx.cols ∧ old_y < ctx.rows then
          Screen.put cell new_y new_x (cell old_y old_x)
        else cell) := by
  by_cases hin : new_x < ctx.cols ∧ old_x < ctx.cols ∧ old_y < ctx.rows
  · obtain ⟨hnew, hold, hrow⟩ := hin
    rw [if_pos ⟨hnew, hold, hrow⟩]
    obtain ⟨b', v', hb', hholds, hput⟩ :=
      push_to_queue_shows hfits h hshows (cell old_y old_x) new_x new_y
    rw [if_pos hnew] at hput
    by_cases hnewRow : new_y < ctx.rows
    · refine ⟨b', v', ?_, hholds, hput⟩
      have hread : charAt fb b (old_x + old_y * ctx.cols) = some (cell old_y old_x) := by
        rw [Nat.add_comm, charAt_spec hfits h (index_lt hold hrow), hshows old_y hrow old_x hold]
      rw [move_character, if_neg (by omega), hread]
      exact hb'
    · refine ⟨b, v, by rw [move_character, if_pos (by omega)], h, ?_⟩
      intro y hy x hx
      rw [Screen.put_apply, if_neg (by omega)]
      exact hshows y hy x hx
  · rw [if_neg hin]
    exact ⟨b, v, by rw [move_character, if_pos (by omega)], h, hshows⟩

end queue

/-! ## Section 4: Calls -/

section calls
variable {fb : FbSettings} {rows cols : Nat} {s : FlantermFbContext} {screen : Screen} {call : Call}

/-- What is drawn stays as it is. -/
structure Undrawn (s s' : FlantermFbContext) : Prop where
  grid         : s'.buffer.grid = s.buffer.grid
  framebuffer  : s'.framebuffer = s.framebuffer
  old_cursor_x : s'.old_cursor_x = s.old_cursor_x
  old_cursor_y : s'.old_cursor_y = s.old_cursor_y

theorem Undrawn.trans {s s' s'' : FlantermFbContext} (h : Undrawn s s') (h' : Undrawn s' s'') :
    Undrawn s s'' where
  grid         := h'.grid.trans h.grid
  framebuffer  := h'.framebuffer.trans h.framebuffer
  old_cursor_x := h'.old_cursor_x.trans h.old_cursor_x
  old_cursor_y := h'.old_cursor_y.trans h.old_cursor_y

/-- The calls that set a colour. -/
theorem set_colour_eq (pen : FbPen) {op : Op} (h : op.InPalette) :
    set_colour pen fb op = some (Screen.recolour fb pen op) := by
  cases op with
  | set_text_fg n | set_text_bg n | set_text_fg_bright n | set_text_bg_bright n =>
    show (load 8 _ n).bind _ = _
    rw [load_of_lt h]
    rfl
  | _ => rfl

/-- A character that is printed. -/
theorem raw_putchar_refines {ctx : FlantermContext} (hfits : fb.Fits ctx.rows ctx.cols)
    (htop : ctx.scroll_top_margin < ctx.scroll_bottom_margin)
    (hbottom : ctx.scroll_bottom_margin ≤ ctx.rows) (h : Refines ctx.rows ctx.cols s screen)
    (c : UInt8) : ∃ s', raw_putchar fb ctx s c = some s' ∧
      Refines ctx.rows ctx.cols s' (screen.print ctx c) ∧ Undrawn s s' := by
  have hholds : s.buffer.Holds ctx.rows ctx.cols s.buffer.grid (s.buffer.view ctx.cols) :=
    ⟨h.ok, rfl, rfl⟩
  -- The line above, if the character begins a new one at the bottom of the region.
  have hscroll : ∃ b v, printBuffer fb ctx s = some b ∧
      b.Holds ctx.rows ctx.cols s.buffer.grid v ∧
      Shows ctx.rows ctx.cols v (if wraps ctx s.pen ∧ wrapScrolls ctx s.pen then
        Screen.moveUp ctx.scroll_top_margin ctx.scroll_bottom_margin s.pen.empty screen.cell
        else screen.cell) := by
    by_cases hw : wraps ctx s.pen ∧ wrapScrolls ctx s.pen
    · simp only [printBuffer, if_pos hw]
      exact scroll_spec hfits hholds s.pen htop hbottom h.shows
    · simp only [printBuffer, if_neg hw]
      exact ⟨s.buffer, _, rfl, hholds, h.shows⟩
  obtain ⟨b, v, hb, hbholds, hbshows⟩ := hscroll
  obtain ⟨b', v', hb', hholds', hshows'⟩ := push_to_queue_shows hfits hbholds hbshows
    ⟨c.toUInt32, (printPen ctx s.pen).text_fg, (printPen ctx s.pen).text_bg⟩
    (printPen ctx s.pen).cursor_x (printPen ctx s.pen).cursor_y
  refine ⟨{ s with
    buffer := b'
    pen := { printPen ctx s.pen with cursor_x := (printPen ctx s.pen).cursor_x + 1 } }, ?_, ?_, ?_⟩
  · simp only [raw_putchar, hb, Option.bind_eq_bind, Option.bind_some, hb']
  · refine { ok := hholds'.ok, shows := ?_, pen := by simp only [Screen.print, ← h.pen] }
    rw [show FbBuffer.view ctx.cols b' = v' from hholds'.view, Screen.print, ← h.pen]
    exact hshows'
  · exact ⟨hholds'.grid, rfl, rfl, rfl⟩

/-- **Every call** has the effect that it is to have on the screen, and makes no access
    out of bounds. -/
theorem perform_refines (hfits : fb.Fits rows cols) (hcall : call.Valid rows cols)
    (h : Refines rows cols s screen) : ∃ s', perform fb s call = some s' ∧
      Refines rows cols s' (screen.perform fb call) ∧ Undrawn s s' := by
  obtain ⟨ctx, op⟩ := call
  obtain ⟨rfl, rfl, htop, hbottom, hmargins, hcolour⟩ := hcall
  have hholds : s.buffer.Holds ctx.rows ctx.cols s.buffer.grid (s.buffer.view ctx.cols) :=
    ⟨h.ok, rfl, rfl⟩
  -- A call that changes the grid only, and one that changes the pen only.
  have hgrid : ∀ {r : Option FbBuffer} {cell : Nat → Nat → FlantermFbChar},
      (∃ b' v', r = some b' ∧ b'.Holds ctx.rows ctx.cols s.buffer.grid v' ∧
        Shows ctx.rows ctx.cols v' cell) →
      ∃ s', (r.bind fun b => some { s with buffer := b }) = some s' ∧
        Refines ctx.rows ctx.cols s' { screen with cell := cell } ∧ Undrawn s s' := by
    intro r cell ⟨b', v', hr, hholds', hshows'⟩
    refine ⟨{ s with buffer := b' }, by rw [hr]; rfl, ⟨hholds'.ok, ?_, h.pen⟩,
      ⟨hholds'.grid, rfl, rfl, rfl⟩⟩
    rw [show FbBuffer.view ctx.cols b' = v' from hholds'.view]
    exact hshows'
  have hpen : ∀ f : FbPen → FbPen, ∃ s', some { s with pen := f s.pen } = some s' ∧
      Refines ctx.rows ctx.cols s' { screen with pen := f screen.pen } ∧ Undrawn s s' := fun f =>
    ⟨_, rfl, ⟨h.ok, h.shows, congrArg f h.pen⟩, ⟨rfl, rfl, rfl, rfl⟩⟩
  cases op with
  | raw_putchar c =>
    exact raw_putchar_refines hfits (hmargins (by simp)) hbottom.2 h c
  | clear move =>
    obtain ⟨b', v', hb', hholds', hshows'⟩ := clear_spec hfits hholds s.pen
    refine ⟨{ s with
      buffer := b'
      pen := if move then { s.pen with cursor_x := 0, cursor_y := 0 } else s.pen }, ?_, ?_, ?_⟩
    · simp only [perform, hb', Option.bind_eq_bind, Option.bind_some]
    · refine { ok := hholds'.ok, shows := ?_, pen := by simp only [Screen.perform, h.pen] }
      rw [show FbBuffer.view ctx.cols b' = v' from hholds'.view, Screen.perform, ← h.pen]
      exact hshows'
    · exact ⟨hholds'.grid, rfl, rfl, rfl⟩
  | set_cursor_pos x y => exact hpen fun pen => set_cursor_pos ctx pen x y
  | move_character new_x new_y old_x old_y =>
    have hmove := hgrid (move_character_spec hfits hholds h.shows new_x new_y old_x old_y)
    simp only [Screen.perform]
    split at hmove
    · next hin => rw [if_pos hin]; exact hmove
    · next hin => rw [if_neg hin]; exact hmove
  | scroll =>
    have hscroll := hgrid (scroll_spec hfits hholds s.pen (hmargins (by simp)) hbottom.2 h.shows)
    simp only [Screen.perform, ← h.pen]
    rw [← h.pen] at hscroll
    exact hscroll
  | revscroll =>
    have hscroll := hgrid (revscroll_spec hfits hholds s.pen htop hbottom h.shows)
    simp only [Screen.perform, ← h.pen]
    rw [← h.pen] at hscroll
    exact hscroll
  | swap_palette => exact hpen swap_palette
  | save_state => exact hpen save_state
  | restore_state => exact hpen restore_state
  | _ =>
    obtain ⟨s', hs', hrefines, hundrawn⟩ := hpen fun pen => Screen.recolour fb pen _
    exact ⟨s', by rw [← hs']; simp only [perform]; rw [set_colour_eq s.pen hcolour]; rfl,
      hrefines, hundrawn⟩

end calls

end Flanterm

end ArgaldOS
