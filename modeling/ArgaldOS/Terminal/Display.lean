import ArgaldOS.Terminal.Pixels

/-! # Drawing the screen

    `double_buffer_flush` draws what is queued, and the cursor: a character with its
    colours exchanged.  Between two flushes the framebuffer shows the grid, except in
    the place where the cursor was (`Clean`).  A flush leaves the framebuffer with the
    whole screen, the cursor in its new place and nowhere else.

    * `draw_cursor_spec`, `flushItem_spec`, `removeOldCursor_spec`: the steps;
    * `double_buffer_flush_spec`: the flush;
    * `full_refresh_spec`: the first drawing.
-/

namespace ArgaldOS

namespace Flanterm

open Arrays WriteBack

/-! ## Section 1: What the framebuffer shows -/

/-- The cursor is on the screen, and drawn there. -/
def Lit (ctx : FlantermContext) (pen : FbPen) : Prop :=
  ctx.cursor_enabled = true ∧ pen.cursor_x < ctx.cols ∧ pen.cursor_y < ctx.rows

instance (ctx : FlantermContext) (pen : FbPen) : Decidable (Lit ctx pen) := by
  unfold Lit
  infer_instance

/-- The place of the cursor. -/
def FbPen.At (pen : FbPen) (x y : Nat) : Prop := x = pen.cursor_x ∧ y = pen.cursor_y

instance (pen : FbPen) (x y : Nat) : Decidable (pen.At x y) := by
  unfold FbPen.At
  infer_instance

/-- What is to be seen in column `x` of row `y`. -/
def shownChar (ctx : FlantermContext) (pen : FbPen) (x y : Nat) (c : FlantermFbChar) :
    FlantermFbChar :=
  if Lit ctx pen ∧ pen.At x y then c.inverted else c

/-- A pixel that belongs to no place of the screen. -/
def Outside (fb : FbSettings) (rows cols k : Nat) : Prop :=
  ∀ x y gy gx, x < cols → y < rows → gy < fb.glyph_height → gx < fb.glyph_width →
    k ≠ wordIndex fb x y gy gx

/-- The framebuffer shows the grid, except where the cursor was. -/
def Clean (fb : FbSettings) (ctx : FlantermContext) (s : FlantermFbContext) : Prop :=
  ∀ x y, x < ctx.cols → y < ctx.rows → ¬(x = s.old_cursor_x ∧ y = s.old_cursor_y) →
    Drawn fb s.framebuffer x y (s.buffer.grid (y * ctx.cols + x))

/-- All characters have a glyph. -/
def Printable (rows cols : Nat) (v : Nat → FlantermFbChar) : Prop :=
  ∀ i, i < rows * cols → (v i).c.toNat < 256

section flush
variable {fb : FbSettings} {ctx : FlantermContext} {s s₀ : FlantermFbContext}
variable {v : Nat → FlantermFbChar}

/-- Where a flush of `s₀` stands before the item `k` of the queue. -/
structure Flushing (fb : FbSettings) (ctx : FlantermContext) (v : Nat → FlantermFbChar)
    (s₀ : FlantermFbContext) (k : Nat) (s : FlantermFbContext) : Prop where
  sound        : (s.buffer.toBuffer ctx.cols).Sound (ctx.rows * ctx.cols)
  flushed      : (s.buffer.toBuffer ctx.cols).FlushedTo k
  view         : s.buffer.view ctx.cols = v
  queue        : s.buffer.queue = s₀.buffer.queue
  queue_i      : s.buffer.queue_i = s₀.buffer.queue_i
  pen          : s.pen = s₀.pen
  old_cursor_x : s.old_cursor_x = s₀.old_cursor_x
  old_cursor_y : s.old_cursor_y = s₀.old_cursor_y
  cursor       : Lit ctx s.pen → s.buffer.map (s.pen.cursor_y * ctx.cols + s.pen.cursor_x) = none
  drawn        : ∀ x y, x < ctx.cols → y < ctx.rows →
    (¬(x = s.old_cursor_x ∧ y = s.old_cursor_y) ∨ (Lit ctx s.pen ∧ s.pen.At x y)) →
    Drawn fb s.framebuffer x y
      (if Lit ctx s.pen ∧ s.pen.At x y then (v (y * ctx.cols + x)).inverted
      else s.buffer.grid (y * ctx.cols + x))
  outside      : ∀ k, Outside fb ctx.rows ctx.cols k → s.framebuffer k = s₀.framebuffer k

/-! ## Section 2: The steps of a flush -/

/-- Committing a pending character: the assignments to `grid` and `map`. -/
theorem toBuffer_commit (cols : Nat) (b : FbBuffer) {i q : Nat} (hq : b.map i = some q) :
    FbBuffer.toBuffer cols { b with
        grid := Function.update b.grid i (b.queue q).c
        map := Function.update b.map i none }
      = (b.toBuffer cols).commit i := by
  have hslot : (b.toBuffer cols).slot i = some q := hq
  simp only [Buffer.commit, hslot]
  rfl

/-- A pixel outside all rectangles is not drawn. -/
theorem plot_char_outside (hdraws : fb.Draws ctx.rows ctx.cols) {mem mem' : Nat → UInt32}
    {c : FlantermFbChar} (hc : c.c.toNat < 256) {x y : Nat} (hx : x < ctx.cols) (hy : y < ctx.rows)
    (hplot : plot_char fb ctx mem c x y = some mem') {k : Nat}
    (hk : Outside fb ctx.rows ctx.cols k) : mem' k = mem k := by
  obtain ⟨mem'', hmem'', -, hframe⟩ := plot_char_spec hdraws mem hc hx hy
  obtain rfl : mem' = mem'' := Option.some.inj (hplot.symm.trans hmem'')
  exact hframe k fun gy gx hgy hgx => hk x y gy gx hx hy hgy hgx

/-- **The beginning of a flush**: the cursor is drawn. -/
theorem draw_cursor_spec (hdraws : fb.Draws ctx.rows ctx.cols) (hfits : fb.Fits ctx.rows ctx.cols)
    (hok : s.buffer.Ok ctx.rows ctx.cols)
    (hprint : Printable ctx.rows ctx.cols (s.buffer.view ctx.cols)) (hclean : Clean fb ctx s) :
    ∃ s', (if ctx.cursor_enabled then draw_cursor fb ctx s else some s) = some s' ∧
      Flushing fb ctx (s.buffer.view ctx.cols) s 0 s' := by
  by_cases hlit : Lit ctx s.pen
  · obtain ⟨henabled, hx, hy⟩ := hlit
    have hi : s.pen.cursor_y * ctx.cols + s.pen.cursor_x < ctx.rows * ctx.cols := index_lt hx hy
    have hcells : s.pen.cursor_y * ctx.cols + s.pen.cursor_x < fb.cells := hfits.cells ▸ hi
    have hread := charAt_spec hfits (g := s.buffer.grid) ⟨hok, rfl, rfl⟩ hi
    generalize hidx : s.pen.cursor_y * ctx.cols + s.pen.cursor_x = i at *
    have hc : ((s.buffer.view ctx.cols i).inverted).c.toNat < 256 := hprint i hi
    obtain ⟨mem, hmem, hdrawn, -⟩ := plot_char_spec hdraws s.framebuffer hc hx hy
    -- What holds whether or not a character is queued for the place of the cursor.
    have hdone : ∀ b : FbBuffer, b.toBuffer ctx.cols = (s.buffer.toBuffer ctx.cols).commit i →
        b.queue = s.buffer.queue → b.queue_i = s.buffer.queue_i →
        Flushing fb ctx (s.buffer.view ctx.cols) s 0
          { s with framebuffer := mem, buffer := b } := by
      intro b hcommit hqueue hqueue_i
      have hsound := hok.linked.toSound.commit i
      rw [← hcommit] at hsound
      have hmap : b.map = Function.update s.buffer.map i none := by
        show (b.toBuffer ctx.cols).slot = _
        rw [hcommit, slot_commit]
        rfl
      refine ⟨hsound, Buffer.FlushedTo.zero _, ?_, hqueue, hqueue_i, rfl, rfl, rfl, ?_, ?_, ?_⟩
      · show (b.toBuffer ctx.cols).view = _
        rw [hcommit, view_commit]
        rfl
      · intro _
        rw [hmap, hidx]
        exact Function.update_self ..
      · intro x y hx' hy' hplace
        by_cases hat : Lit ctx s.pen ∧ s.pen.At x y
        · obtain ⟨rfl, rfl⟩ := hat.2
          rw [if_pos hat, hidx]
          exact hdrawn
        · have hnot : ¬(x = s.pen.cursor_x ∧ y = s.pen.cursor_y) := fun h =>
            hat ⟨⟨henabled, hx, hy⟩, h⟩
          have hne : y * ctx.cols + x ≠ i := fun heq => hnot (by
            rw [← hidx, index_inj hx' hx] at heq
            exact ⟨heq.2, heq.1⟩)
          have hgrid : b.grid (y * ctx.cols + x) = s.buffer.grid (y * ctx.cols + x) := by
            show (b.toBuffer ctx.cols).base _ = _
            rw [hcommit, base_commit_of_ne _ hne]
            rfl
          rw [if_neg hat, hgrid]
          exact Drawn.plot_char_other hdraws hc hx hy hx' hnot hmem
            (hclean x y hx' hy' (hplace.resolve_right hat))
      · intro k hk
        exact plot_char_outside hdraws hc hx hy hmem hk
    have hin : ¬(s.pen.cursor_x ≥ ctx.cols ∨ s.pen.cursor_y ≥ ctx.rows) := by omega
    rw [if_pos henabled, draw_cursor, if_neg hin, Nat.add_comm, hidx]
    cases hmap : s.buffer.map i with
    | none =>
      have hslot : (s.buffer.toBuffer ctx.cols).slot i = none := hmap
      refine ⟨_, ?_, hdone s.buffer (by simp only [Buffer.commit, hslot]) rfl rfl⟩
      simp only [hread, hmem, load_of_lt hcells, hmap, Option.bind_eq_bind, Option.bind_some]
    | some q =>
      have hq : q < fb.cells := by
        have hlt : q < s.buffer.queue_i := (hok.linked.pending i q hmap).1
        have hle : s.buffer.queue_i ≤ ctx.rows * ctx.cols := hok.linked.count_le
        rw [hfits.cells]
        omega
      refine ⟨_, ?_, hdone _ (toBuffer_commit ctx.cols s.buffer hmap) rfl rfl⟩
      simp only [hread, hmem, load_of_lt hcells, hmap, Option.bind_eq_bind, Option.bind_some,
        load_of_lt hq, store_of_lt hcells]
  · -- Nothing is drawn.
    refine ⟨s, ?_, hok.linked.toSound, Buffer.FlushedTo.zero _, rfl, rfl, rfl, rfl, rfl, rfl,
      fun h => absurd h hlit, ?_, fun _ _ => rfl⟩
    · split
      · next henabled =>
        have hout : s.pen.cursor_x ≥ ctx.cols ∨ s.pen.cursor_y ≥ ctx.rows := by
          by_contra hin
          exact hlit ⟨henabled, by omega, by omega⟩
        rw [draw_cursor, if_pos hout]
      · rfl
    · intro x y hx hy hplace
      rw [if_neg fun h => hlit h.1]
      exact hclean x y hx hy (hplace.resolve_right fun h => hlit h.1)

/-- **A round of the flush**. -/
theorem flushItem_spec (hdraws : fb.Draws ctx.rows ctx.cols) (hfits : fb.Fits ctx.rows ctx.cols)
    (hprint : Printable ctx.rows ctx.cols v)
    (hinside : ∀ q, q < s₀.buffer.queue_i →
      (s₀.buffer.queue q).x < ctx.cols ∧ (s₀.buffer.queue q).y < ctx.rows)
    (hle : s₀.buffer.queue_i ≤ ctx.rows * ctx.cols) {k : Nat} (hk : k < s₀.buffer.queue_i)
    (h : Flushing fb ctx v s₀ k s) :
    ∃ s', flushItem fb ctx s k = some s' ∧ Flushing fb ctx v s₀ (k + 1) s' := by
  have hkc : k < fb.cells := by rw [hfits.cells]; omega
  obtain ⟨hx, hy⟩ : (s.buffer.queue k).x < ctx.cols ∧ (s.buffer.queue k).y < ctx.rows := by
    rw [h.queue]
    exact hinside k hk
  have hi := index_lt hx hy
  have hcells : (s.buffer.queue k).y * ctx.cols + (s.buffer.queue k).x < fb.cells :=
    hfits.cells ▸ hi
  have hsucc := h.flushed.succ h.sound
  have hsound := h.sound.commit ((s.buffer.queue k).y * ctx.cols + (s.buffer.queue k).x)
  have hks : k < s.buffer.queue_i := h.queue_i ▸ hk
  have hnamed := h.sound.named k hks
  rw [show ((s.buffer.toBuffer ctx.cols).queue k).1
    = (s.buffer.queue k).y * ctx.cols + (s.buffer.queue k).x from rfl] at hsucc hnamed
  generalize hitem : s.buffer.queue k = item at *
  generalize hidx : item.y * ctx.cols + item.x = i at *
  cases hmap : s.buffer.map i with
  | none =>
    -- It was drawn already, with the cursor.
    have hslot : (s.buffer.toBuffer ctx.cols).slot i = none := hmap
    simp only [Buffer.commit, hslot] at hsucc
    refine ⟨s, ?_, { h with flushed := hsucc }⟩
    simp only [flushItem, load_of_lt hkc, hitem, hidx, load_of_lt hcells, hmap,
      Option.bind_eq_bind, Option.bind_some]
  | some q =>
    have hslot : (s.buffer.toBuffer ctx.cols).slot i = some q := hmap
    have hqk : q = k := by
      rw [hslot] at hnamed
      exact Option.some.inj (hnamed.resolve_left (by simp))
    obtain rfl := hqk
    have hchar : item.c = v i := by
      rw [← h.view, ← hitem]
      simp only [FbBuffer.view, Buffer.view, hslot]
      rfl
    have hc : item.c.c.toNat < 256 := hchar ▸ hprint i hi
    obtain ⟨mem, hmem, hdrawn, -⟩ := plot_char_spec hdraws s.framebuffer hc hx hy
    have hcommit := toBuffer_commit ctx.cols s.buffer hmap
    rw [hitem] at hcommit
    -- The item is not in the place of the cursor.
    have hnotCursor : ¬(Lit ctx s.pen ∧ s.pen.At item.x item.y) := by
      intro hat
      obtain ⟨hlit, hatx, haty⟩ := hat
      have hnone := h.cursor hlit
      rw [← hatx, ← haty, hidx, hmap] at hnone
      cases hnone
    refine ⟨{ s with
      framebuffer := mem
      buffer := { s.buffer with
        grid := Function.update s.buffer.grid i item.c
        map := Function.update s.buffer.map i none } }, ?_, ?_⟩
    · simp only [flushItem, load_of_lt hkc, hitem, hidx, load_of_lt hcells, hmap, hmem,
        store_of_lt hcells, Option.bind_eq_bind, Option.bind_some]
    · refine ⟨hcommit ▸ hsound, hcommit ▸ hsucc, ?_, h.queue, h.queue_i, h.pen, h.old_cursor_x,
        h.old_cursor_y, ?_, ?_, ?_⟩
      · rw [FbBuffer.view, hcommit, view_commit]
        exact h.view
      · intro hlit
        have hnone := h.cursor hlit
        by_cases heq : s.pen.cursor_y * ctx.cols + s.pen.cursor_x = i
        · exact (congrArg _ heq).trans (Function.update_self ..)
        · exact (Function.update_of_ne heq ..).trans hnone
      · intro x y hx' hy' hplace
        by_cases hat : x = item.x ∧ y = item.y
        · obtain ⟨rfl, rfl⟩ := hat
          rw [if_neg hnotCursor, hidx]
          show Drawn fb mem _ _ (Function.update s.buffer.grid i item.c i)
          rw [Function.update_self]
          exact hdrawn
        · have hne : y * ctx.cols + x ≠ i := fun heq => hat (by
            rw [← hidx, index_inj hx' hx] at heq
            exact ⟨heq.2, heq.1⟩)
          have hsame : Function.update s.buffer.grid i item.c (y * ctx.cols + x)
              = s.buffer.grid (y * ctx.cols + x) := Function.update_of_ne hne _ _
          have hkeep := h.drawn x y hx' hy' hplace
          rw [← hsame] at hkeep
          exact Drawn.plot_char_other hdraws hc hx hy hx' hat hmem hkeep
      · intro k hk
        exact (plot_char_outside hdraws hc hx hy hmem hk).trans (h.outside k hk)

/-- **The end of a flush**: the cursor is removed from where it was. -/
theorem removeOldCursor_spec (hdraws : fb.Draws ctx.rows ctx.cols)
    (hfits : fb.Fits ctx.rows ctx.cols) (hprint : Printable ctx.rows ctx.cols v)
    (h : Flushing fb ctx v s₀ s.buffer.queue_i s) :
    ∃ mem, removeOldCursor fb ctx s = some { s with framebuffer := mem } ∧
      (∀ x y, x < ctx.cols → y < ctx.rows →
        Drawn fb mem x y (shownChar ctx s.pen x y (v (y * ctx.cols + x)))) ∧
      ∀ k, Outside fb ctx.rows ctx.cols k → mem k = s₀.framebuffer k := by
  have hgrid : s.buffer.grid = v := (flushed_view h.sound h.flushed).2.trans h.view
  have hdrawn : ∀ x y, x < ctx.cols → y < ctx.rows →
      (¬(x = s.old_cursor_x ∧ y = s.old_cursor_y) ∨ (Lit ctx s.pen ∧ s.pen.At x y)) →
      Drawn fb s.framebuffer x y (shownChar ctx s.pen x y (v (y * ctx.cols + x))) := by
    intro x y hx hy hplace
    rw [shownChar, ← hgrid]
    have := h.drawn x y hx hy hplace
    rw [← hgrid] at this
    split
    · next hat => rw [if_pos hat] at this; exact this
    · next hat => rw [if_neg hat] at this; exact this
  by_cases hmoved : (s.old_cursor_x ≠ s.pen.cursor_x ∨ s.old_cursor_y ≠ s.pen.cursor_y
      ∨ ctx.cursor_enabled = false) ∧ s.old_cursor_x < ctx.cols ∧ s.old_cursor_y < ctx.rows
  · obtain ⟨hwhy, hx, hy⟩ := hmoved
    have hi := index_lt hx hy
    have hc : (v (s.old_cursor_y * ctx.cols + s.old_cursor_x)).c.toNat < 256 := hprint _ hi
    obtain ⟨mem, hmem, hold, -⟩ := plot_char_spec hdraws s.framebuffer hc hx hy
    -- The cursor is not where it was, or it is not drawn.
    have hnot : ¬(Lit ctx s.pen ∧ s.pen.At s.old_cursor_x s.old_cursor_y) := by
      intro hat
      obtain ⟨hlit, hatx, haty⟩ := hat
      rcases hwhy with hne | hne | hoff
      · exact hne hatx
      · exact hne haty
      · rw [hlit.1] at hoff
        cases hoff
    refine ⟨mem, ?_, ?_, ?_⟩
    · rw [removeOldCursor, if_pos ⟨hwhy, hx, hy⟩, Nat.add_comm, hgrid,
        load_of_lt (hfits.cells ▸ hi)]
      simp only [Option.bind_eq_bind, Option.bind_some, hmem]
    · intro x y hx' hy'
      by_cases hat : x = s.old_cursor_x ∧ y = s.old_cursor_y
      · obtain ⟨rfl, rfl⟩ := hat
        rw [shownChar, if_neg hnot]
        exact hold
      · exact Drawn.plot_char_other hdraws hc hx hy hx' hat hmem (hdrawn x y hx' hy' (Or.inl hat))
    · intro k hk
      exact (plot_char_outside hdraws hc hx hy hmem hk).trans (h.outside k hk)
  · refine ⟨s.framebuffer, by rw [removeOldCursor, if_neg hmoved], ?_, h.outside⟩
    intro x y hx hy
    refine hdrawn x y hx hy ?_
    by_cases hat : x = s.old_cursor_x ∧ y = s.old_cursor_y
    · -- The cursor is still there.
      obtain ⟨rfl, rfl⟩ := hat
      have hsame : s.old_cursor_x = s.pen.cursor_x ∧ s.old_cursor_y = s.pen.cursor_y ∧
          ctx.cursor_enabled = true := by
        by_contra hne
        refine hmoved ⟨?_, hx, hy⟩
        rw [← Bool.not_eq_true]
        tauto
      exact Or.inr ⟨⟨hsame.2.2, hsame.1 ▸ hx, hsame.2.1 ▸ hy⟩, hsame.1, hsame.2.1⟩
    · exact Or.inl hat

/-- **A flush** makes no access out of bounds.  After it the framebuffer shows the screen
    with its cursor, and the pixels outside the screen are as they were. -/
theorem double_buffer_flush_spec (hdraws : fb.Draws ctx.rows ctx.cols)
    (hfits : fb.Fits ctx.rows ctx.cols) (hok : s.buffer.Ok ctx.rows ctx.cols)
    (hprint : Printable ctx.rows ctx.cols (s.buffer.view ctx.cols)) (hclean : Clean fb ctx s) :
    ∃ s', double_buffer_flush fb ctx s = some s' ∧ s'.buffer.Ok ctx.rows ctx.cols ∧
      s'.buffer.view ctx.cols = s.buffer.view ctx.cols ∧ s'.buffer.queue_i = 0 ∧
      s'.pen = s.pen ∧ Clean fb ctx s' ∧
      (∀ x y, x < ctx.cols → y < ctx.rows → Drawn fb s'.framebuffer x y
        (shownChar ctx s.pen x y (s.buffer.view ctx.cols (y * ctx.cols + x)))) ∧
      ∀ k, Outside fb ctx.rows ctx.cols k → s'.framebuffer k = s.framebuffer k := by
  obtain ⟨s₁, hs₁, h₁⟩ := draw_cursor_spec hdraws hfits hok hprint hclean
  obtain ⟨s₂, hs₂, h₂⟩ := exists_foldlM_range
    (f := flushItem fb ctx) (n := s.buffer.queue_i)
    (Flushing fb ctx (s.buffer.view ctx.cols) s)
    (fun k _ hk h => flushItem_spec hdraws hfits hprint hok.inside hok.linked.count_le hk h) h₁
  rw [← h₂.queue_i] at h₂
  obtain ⟨mem, hmem, hdrawn, houtside⟩ := removeOldCursor_spec hdraws hfits hprint h₂
  obtain ⟨hmap, hgrid⟩ := flushed_view h₂.sound h₂.flushed
  have hview : s₂.buffer.grid = s.buffer.view ctx.cols := hgrid.trans h₂.view
  refine ⟨{ s₂ with
    framebuffer := mem
    old_cursor_x := s₂.pen.cursor_x
    old_cursor_y := s₂.pen.cursor_y
    buffer := { s₂.buffer with queue_i := 0 } }, ?_, ?_, ?_, rfl, h₂.pen, ?_, ?_, houtside⟩
  · rw [← h₁.queue_i] at hs₂
    cases henabled : ctx.cursor_enabled <;>
      simp only [henabled, if_true, if_false, Bool.false_eq_true, Option.some.injEq] at hs₁ <;>
      simp only [double_buffer_flush, henabled, if_true, if_false, Bool.false_eq_true, hs₁,
        Option.bind_eq_bind, Option.bind_some, hs₂, hmem]
  · exact ⟨linked_reset (b := s₂.buffer.toBuffer ctx.cols) hmap,
      fun q hq => absurd hq (Nat.not_lt_zero q)⟩
  · exact h₂.view
  · intro x y hx hy hplace
    have := hdrawn x y hx hy
    rw [shownChar, if_neg fun hat => hplace hat.2, ← hview] at this
    exact this
  · rw [← h₂.pen]
    exact hdrawn

/-! ## Section 3: The first drawing -/

/-- A pixel of the part of the framebuffer that the terminal uses. -/
def Used (fb : FbSettings) (k : Nat) : Prop :=
  ∃ x y, x < fb.width ∧ y < fb.height ∧ k = y * (fb.pitch / 4) + x

/-- The first loops of `full_refresh`: all of it gets the background colour. -/
theorem fill_spec (hdraws : fb.Draws ctx.rows ctx.cols) (framebuffer : Nat → UInt32) :
    ∃ mem, ((List.range fb.height).flatMap fun y =>
        (List.range fb.width).map fun x => y * (fb.pitch / 4) + x).foldlM
          (fun mem i => store fb.words mem i fb.default_bg) framebuffer = some mem ∧
      (∀ k, Used fb k → mem k = fb.default_bg) ∧ ∀ k, ¬Used fb k → mem k = framebuffer k := by
  have hmem : ∀ k, k ∈ ((List.range fb.height).flatMap fun y =>
      (List.range fb.width).map fun x => y * (fb.pitch / 4) + x) ↔ Used fb k := by
    intro k
    simp only [List.mem_flatMap, List.mem_map, List.mem_range]
    constructor
    · intro ⟨y, hy, x, hx, heq⟩
      exact ⟨x, y, hx, hy, heq.symm⟩
    · intro ⟨x, y, hx, hy, heq⟩
      exact ⟨y, hy, x, hx, heq.symm⟩
  obtain ⟨mem, hfill, rfl⟩ := exists_foldlM
    (R := fun mem mem' : Nat → UInt32 => mem = mem')
    (f := fun mem i => store fb.words mem i fb.default_bg)
    (g := fun mem i => Function.update mem i fb.default_bg)
    (l := (List.range fb.height).flatMap fun y =>
      (List.range fb.width).map fun x => y * (fb.pitch / 4) + x)
    (fun k hk mem mem' heq => by
      obtain ⟨x, y, hx, hy, rfl⟩ := (hmem k).mp hk
      exact ⟨_, store_of_lt (hdraws.words x y hx hy) _ _, by rw [heq]⟩)
    (rfl : framebuffer = framebuffer)
  refine ⟨_, hfill, ?_, ?_⟩
  · intro k hk
    exact foldl_update_of_mem framebuffer ⟨k, (hmem k).mpr hk, rfl⟩ fun _ _ _ => rfl
  · intro k hk
    exact foldl_update_of_not_mem framebuffer fun i hi heq => hk ((hmem k).mp (heq ▸ hi))

/-- The second loop: the characters of the grid. -/
theorem plotGrid_spec (hdraws : fb.Draws ctx.rows ctx.cols) (hfits : fb.Fits ctx.rows ctx.cols)
    {grid : Nat → FlantermFbChar} (hprint : Printable ctx.rows ctx.cols grid)
    (mem₀ : Nat → UInt32) :
    ∃ mem, (List.range (ctx.rows * ctx.cols)).foldlM (plotCell fb ctx grid) mem₀ = some mem ∧
      (∀ x y, x < ctx.cols → y < ctx.rows → Drawn fb mem x y (grid (y * ctx.cols + x))) ∧
      ∀ k, Outside fb ctx.rows ctx.cols k → mem k = mem₀ k := by
  obtain ⟨mem, hplot, hdrawn, hframe⟩ := exists_foldlM_range
    (f := plotCell fb ctx grid) (n := ctx.rows * ctx.cols)
    (fun k mem => (∀ x y, x < ctx.cols → y < ctx.rows → y * ctx.cols + x < k →
        Drawn fb mem x y (grid (y * ctx.cols + x))) ∧
      ∀ j, Outside fb ctx.rows ctx.cols j → mem j = mem₀ j)
    (fun k mem hk ⟨hdrawn, hframe⟩ => by
      have hx : k % ctx.cols < ctx.cols := Nat.mod_lt _ ctx.cols_pos
      have hy : k / ctx.cols < ctx.rows := Nat.div_lt_of_lt_mul (by rwa [Nat.mul_comm])
      obtain ⟨mem', hmem', hnew, -⟩ := plot_char_spec hdraws mem (hprint k hk) hx hy
      refine ⟨mem', ?_, ?_, ?_⟩
      · rw [plotCell, load_of_lt (hfits.cells ▸ hk)]
        exact hmem'
      · intro x y hx' hy' hlt
        by_cases hat : x = k % ctx.cols ∧ y = k / ctx.cols
        · obtain ⟨rfl, rfl⟩ := hat
          rw [Nat.div_add_mod']
          exact hnew
        · have hne : y * ctx.cols + x ≠ k := fun heq => hat (by
            rw [← heq, index_mod hx', index_div hx']
            exact ⟨rfl, rfl⟩)
          exact Drawn.plot_char_other hdraws (hprint k hk) hx hy hx' hat hmem'
            (hdrawn x y hx' hy' (by omega))
      · intro j hj
        exact (plot_char_outside hdraws (hprint k hk) hx hy hmem' hj).trans (hframe j hj))
    (⟨fun _ _ _ _ hlt => absurd hlt (Nat.not_lt_zero _), fun _ _ => rfl⟩ : _ ∧ _)
  exact ⟨mem, hplot, fun x y hx hy => hdrawn x y hx hy (index_lt hx hy), hframe⟩

/-- `draw_cursor`, where nothing is queued. -/
theorem draw_cursor_empty (hdraws : fb.Draws ctx.rows ctx.cols)
    (hfits : fb.Fits ctx.rows ctx.cols) (hempty : s.buffer.map = fun _ => none)
    (hprint : Printable ctx.rows ctx.cols s.buffer.grid)
    (hdrawn : ∀ x y, x < ctx.cols → y < ctx.rows →
      Drawn fb s.framebuffer x y (s.buffer.grid (y * ctx.cols + x))) :
    ∃ mem, (if ctx.cursor_enabled then draw_cursor fb ctx s else some s)
        = some { s with framebuffer := mem } ∧
      (∀ x y, x < ctx.cols → y < ctx.rows →
        Drawn fb mem x y (shownChar ctx s.pen x y (s.buffer.grid (y * ctx.cols + x)))) ∧
      ∀ k, Outside fb ctx.rows ctx.cols k → mem k = s.framebuffer k := by
  by_cases hlit : Lit ctx s.pen
  · obtain ⟨henabled, hx, hy⟩ := hlit
    have hi := index_lt hx hy
    have hcells : s.pen.cursor_y * ctx.cols + s.pen.cursor_x < fb.cells := hfits.cells ▸ hi
    have hc : (s.buffer.grid (s.pen.cursor_y * ctx.cols + s.pen.cursor_x)).inverted.c.toNat < 256 :=
      hprint _ hi
    obtain ⟨mem, hmem, hcursor, -⟩ := plot_char_spec hdraws s.framebuffer hc hx hy
    have hin : ¬(s.pen.cursor_x ≥ ctx.cols ∨ s.pen.cursor_y ≥ ctx.rows) := by omega
    refine ⟨mem, ?_, ?_, fun k hk => plot_char_outside hdraws hc hx hy hmem hk⟩
    · rw [if_pos henabled, draw_cursor, if_neg hin, Nat.add_comm]
      simp only [charAt, load_of_lt hcells, hempty, Option.bind_eq_bind, Option.bind_some, hmem]
    · intro x y hx' hy'
      rw [shownChar]
      by_cases hat : x = s.pen.cursor_x ∧ y = s.pen.cursor_y
      · obtain ⟨rfl, rfl⟩ := hat
        rw [if_pos ⟨⟨henabled, hx, hy⟩, rfl, rfl⟩]
        exact hcursor
      · rw [if_neg fun h => hat h.2]
        exact Drawn.plot_char_other hdraws hc hx hy hx' hat hmem (hdrawn x y hx' hy')
  · refine ⟨s.framebuffer, ?_, ?_, fun _ _ => rfl⟩
    · split
      · next henabled =>
        have hout : s.pen.cursor_x ≥ ctx.cols ∨ s.pen.cursor_y ≥ ctx.rows := by
          by_contra hin
          exact hlit ⟨henabled, by omega, by omega⟩
        rw [draw_cursor, if_pos hout]
      · rfl
    · intro x y hx hy
      rw [shownChar, if_neg fun h => hlit h.1]
      exact hdrawn x y hx hy

/-- **The first drawing**: with an empty queue, the framebuffer shows the grid and the
    cursor, and the rest of what the terminal uses has the background colour. -/
theorem full_refresh_spec (hdraws : fb.Draws ctx.rows ctx.cols)
    (hfits : fb.Fits ctx.rows ctx.cols) (hempty : s.buffer.map = fun _ => none)
    (hprint : Printable ctx.rows ctx.cols s.buffer.grid) :
    ∃ mem, full_refresh fb ctx s = some { s with framebuffer := mem } ∧
      (∀ x y, x < ctx.cols → y < ctx.rows →
        Drawn fb mem x y (shownChar ctx s.pen x y (s.buffer.grid (y * ctx.cols + x)))) ∧
      (∀ k, Outside fb ctx.rows ctx.cols k → Used fb k → mem k = fb.default_bg) ∧
      ∀ k, Outside fb ctx.rows ctx.cols k → ¬Used fb k → mem k = s.framebuffer k := by
  obtain ⟨mem₀, hfill, hused, hunused⟩ := fill_spec hdraws s.framebuffer
  obtain ⟨mem₁, hplot, hdrawn, hframe₁⟩ := plotGrid_spec hdraws hfits hprint mem₀
  obtain ⟨mem, hcursor, hshown, hframe⟩ := draw_cursor_empty
    (s := { s with framebuffer := mem₁ }) hdraws hfits hempty hprint hdrawn
  refine ⟨mem, ?_, hshown, ?_, ?_⟩
  · simp only [full_refresh, hfill, hplot, Option.bind_eq_bind, Option.bind_some]
    exact hcursor
  · intro k hk hin
    exact ((hframe k hk).trans (hframe₁ k hk)).trans (hused k hin)
  · intro k hk hout
    exact ((hframe k hk).trans (hframe₁ k hk)).trans (hunused k hout)

end flush

end Flanterm

end ArgaldOS
