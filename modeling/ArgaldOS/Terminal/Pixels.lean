import ArgaldOS.Terminal.Refinement

/-! # Glyphs in the framebuffer

    A place of the screen is a rectangle of pixels, and the rectangles are
    disjoint.  `plot_char` draws a glyph into the rectangle of a place, and changes no
    other pixel.

    * `plot_char_spec`: what is drawn, and what stays;
    * `Drawn.plot_char_other`: the glyphs in other places stay as they are.
-/

namespace ArgaldOS

namespace Flanterm

open Arrays

/-! ## Section 1: Geometry -/

/-- The settings describe a screen of `rows` lines of `cols` columns that is inside the
    framebuffer, and a font of 256 glyphs. -/
structure FbSettings.Draws (fb : FbSettings) (rows cols : Nat) : Prop where
  glyph_width    : fb.glyph_width = fb.font_width * fb.font_scale_x
  glyph_height   : fb.glyph_height = fb.font_height * fb.font_scale_y
  font_scale_x   : 0 < fb.font_scale_x
  font_scale_y   : 0 < fb.font_scale_y
  font_height    : fb.font_height ≤ 256
  font_bool_size : fb.font_bool_size = 256 * fb.font_height * fb.font_width
  right          : fb.offset_x + cols * fb.glyph_width ≤ fb.width
  bottom         : fb.offset_y + rows * fb.glyph_height ≤ fb.height
  pitch          : fb.width ≤ fb.pitch / 4
  words          : ∀ x y, x < fb.width → y < fb.height → y * (fb.pitch / 4) + x < fb.words

theorem wordIndex_eq (fb : FbSettings) (x y gy gx : Nat) : wordIndex fb x y gy gx
    = (fb.offset_y + y * fb.glyph_height + gy) * (fb.pitch / 4)
      + (fb.offset_x + x * fb.glyph_width + gx) := by
  rw [wordIndex]
  omega

section geometry
variable {fb : FbSettings} {rows cols : Nat} (h : fb.Draws rows cols)
include h

/-- The pixel row of a place. -/
theorem pixel_y_lt {y gy : Nat} (hy : y < rows) (hgy : gy < fb.glyph_height) :
    fb.offset_y + y * fb.glyph_height + gy < fb.height := by
  have hlt := index_lt hgy hy
  have := h.bottom
  omega

/-- The pixel column of a place. -/
theorem pixel_x_lt {x gx : Nat} (hx : x < cols) (hgx : gx < fb.glyph_width) :
    fb.offset_x + x * fb.glyph_width + gx < fb.width := by
  have hlt := index_lt hgx hx
  have := h.right
  omega

/-- **A pixel is inside the framebuffer.** -/
theorem wordIndex_lt {x y gy gx : Nat} (hx : x < cols) (hy : y < rows) (hgy : gy < fb.glyph_height)
    (hgx : gx < fb.glyph_width) : wordIndex fb x y gy gx < fb.words := by
  rw [wordIndex_eq]
  exact h.words _ _ (pixel_x_lt h hx hgx) (pixel_y_lt h hy hgy)

/-- **The rectangles are disjoint**: a pixel belongs to one place, and to one dot of the
    glyph there. -/
theorem wordIndex_inj {x y gy gx x' y' gy' gx' : Nat} (hx : x < cols) (hx' : x' < cols)
    (hgy : gy < fb.glyph_height) (hgy' : gy' < fb.glyph_height) (hgx : gx < fb.glyph_width)
    (hgx' : gx' < fb.glyph_width) (heq : wordIndex fb x y gy gx = wordIndex fb x' y' gy' gx') :
    (x = x' ∧ y = y') ∧ gy = gy' ∧ gx = gx' := by
  have hlt := pixel_x_lt h hx hgx
  have hlt' := pixel_x_lt h hx' hgx'
  have hpitch := h.pitch
  rw [wordIndex_eq, wordIndex_eq, index_inj (by omega) (by omega)] at heq
  have hrow : y * fb.glyph_height + gy = y' * fb.glyph_height + gy' := by omega
  have hcol : x * fb.glyph_width + gx = x' * fb.glyph_width + gx' := by omega
  rw [index_inj hgy hgy'] at hrow
  rw [index_inj hgx hgx'] at hcol
  exact ⟨⟨hcol.1, hrow.1⟩, hrow.2, hcol.2⟩

end geometry

/-! ## Section 2: Glyphs -/

/-- The colour of a pixel of a character: the dot of the glyph there, enlarged. -/
def glyphPixel (fb : FbSettings) (c : FlantermFbChar) (gy gx : Nat) : UInt32 :=
  pixelColour fb c (fb.font_bool (fontIndex fb c gy (gx / fb.font_scale_x)))

/-- The character `c` is drawn in column `x` of row `y`. -/
def Drawn (fb : FbSettings) (mem : Nat → UInt32) (x y : Nat) (c : FlantermFbChar) : Prop :=
  ∀ gy gx, gy < fb.glyph_height → gx < fb.glyph_width →
    mem (wordIndex fb x y gy gx) = glyphPixel fb c gy gx

section plot
variable {fb : FbSettings} {ctx : FlantermContext} {mem : Nat → UInt32} {c : FlantermFbChar}

theorem fontIndex_lt {rows cols : Nat} (h : fb.Draws rows cols) (hc : c.c.toNat < 256) {gy fx : Nat}
    (hgy : gy < fb.glyph_height) (hfx : fx < fb.font_width) :
    fontIndex fb c gy fx < fb.font_bool_size := by
  have hfy : gy / fb.font_scale_y < fb.font_height := by
    rw [Nat.div_lt_iff_lt_mul h.font_scale_y, ← h.glyph_height]
    exact hgy
  have hmod : gy / fb.font_scale_y % 256 = gy / fb.font_scale_y :=
    Nat.mod_eq_of_lt (hfy.trans_le h.font_height)
  have hline := index_lt hfx hfy
  have hglyph := index_lt hline hc
  rw [fontIndex, hmod, h.font_bool_size, Nat.mul_assoc, Nat.mul_assoc, Nat.add_assoc]
  exact hglyph

theorem mem_glyphDots {gy fx i : Nat} : (gy, fx, i) ∈ glyphDots fb
    ↔ gy < fb.glyph_height ∧ fx < fb.font_width ∧ i < fb.font_scale_x := by
  simp only [glyphDots, List.mem_flatMap, List.mem_map, List.mem_range, Prod.mk.injEq]
  constructor
  · intro ⟨_, h1, _, h2, _, h3, rfl, rfl, rfl⟩
    exact ⟨h1, h2, h3⟩
  · intro ⟨h1, h2, h3⟩
    exact ⟨gy, h1, fx, h2, i, h3, rfl, rfl, rfl⟩

/-- The column of the rectangle in which a dot of the font is drawn. -/
theorem dot_column {rows cols : Nat} (h : fb.Draws rows cols) {fx i : Nat}
    (hfx : fx < fb.font_width) (hi : i < fb.font_scale_x) : fb.font_scale_x * fx + i < fb.glyph_width ∧
      (fb.font_scale_x * fx + i) / fb.font_scale_x = fx := by
  rw [Nat.mul_comm, h.glyph_width, index_div hi]
  exact ⟨index_lt hi hfx, rfl⟩

/-- **Drawing a glyph**: the rectangle of the place shows the character, and all other
    pixels stay. -/
theorem plot_char_spec (h : fb.Draws ctx.rows ctx.cols) (mem : Nat → UInt32)
    (hc : c.c.toNat < 256) {x y : Nat} (hx : x < ctx.cols) (hy : y < ctx.rows) :
    ∃ mem', plot_char fb ctx mem c x y = some mem' ∧ Drawn fb mem' x y c ∧
      ∀ k, (∀ gy gx, gy < fb.glyph_height → gx < fb.glyph_width → k ≠ wordIndex fb x y gy gx) →
        mem' k = mem k := by
  let key := fun dot : Nat × Nat × Nat =>
    wordIndex fb x y dot.1 (fb.font_scale_x * dot.2.1 + dot.2.2)
  let val := fun dot : Nat × Nat × Nat =>
    pixelColour fb c (fb.font_bool (fontIndex fb c dot.1 dot.2.1))
  obtain ⟨mem', hmem', rfl⟩ := exists_foldlM
    (R := fun mem' mem'' => mem' = mem'')
    (f := fun mem (dot : Nat × Nat × Nat) => do
      let draw ← load fb.font_bool_size fb.font_bool (fontIndex fb c dot.1 dot.2.1)
      store fb.words mem (key dot) (pixelColour fb c draw))
    (g := fun mem dot => Function.update mem (key dot) (val dot))
    (l := glyphDots fb)
    (fun dot hdot mem' mem'' heq => by
      obtain ⟨gy, fx, i⟩ := dot
      obtain ⟨hgy, hfx, hi⟩ := mem_glyphDots.mp hdot
      refine ⟨Function.update mem'' (key (gy, fx, i)) (val (gy, fx, i)), ?_, rfl⟩
      rw [load_of_lt (fontIndex_lt h hc hgy hfx), heq]
      exact store_of_lt (wordIndex_lt h hx hy hgy (dot_column h hfx hi).1) _ _)
    (rfl : mem = mem)
  refine ⟨(glyphDots fb).foldl (fun mem dot => Function.update mem (key dot) (val dot)) mem,
    ?_, ?_, ?_⟩
  · rw [plot_char, if_neg (by omega)]
    exact hmem'
  · intro gy gx hgy hgx
    have hcol : fb.font_scale_x * (gx / fb.font_scale_x) + gx % fb.font_scale_x = gx :=
      Nat.div_add_mod gx fb.font_scale_x
    have hfx : gx / fb.font_scale_x < fb.font_width := by
      rw [Nat.div_lt_iff_lt_mul h.font_scale_x, ← h.glyph_width]
      exact hgx
    refine foldl_update_of_mem mem ⟨(gy, gx / fb.font_scale_x, gx % fb.font_scale_x),
      mem_glyphDots.mpr ⟨hgy, hfx, Nat.mod_lt _ h.font_scale_x⟩, ?_⟩ ?_
    · simp only [key, hcol]
    · intro ⟨gy', fx, i⟩ hdot heq
      obtain ⟨hgy', hfx', hi⟩ := mem_glyphDots.mp hdot
      obtain ⟨hlt, hdiv⟩ := dot_column h hfx' hi
      obtain ⟨-, hrow, hcolumn⟩ := wordIndex_inj h hx hx hgy' hgy hlt hgx heq
      have hfx : gx / fb.font_scale_x = fx := by rw [← hcolumn, hdiv]
      simp only [val, glyphPixel, hfx, hrow]
  · intro k hk
    refine foldl_update_of_not_mem mem ?_
    intro ⟨gy, fx, i⟩ hdot heq
    obtain ⟨hgy, hfx, hi⟩ := mem_glyphDots.mp hdot
    exact hk gy _ hgy (dot_column h hfx hi).1 heq.symm

/-- The glyph in another place stays as it is. -/
theorem Drawn.plot_char_other {c' : FlantermFbChar} {x y x' y' : Nat}
    (h : fb.Draws ctx.rows ctx.cols) (hc : c.c.toNat < 256) (hx : x < ctx.cols) (hy : y < ctx.rows)
    (hx' : x' < ctx.cols) (hne : ¬(x' = x ∧ y' = y)) {mem' : Nat → UInt32}
    (hplot : plot_char fb ctx mem c x y = some mem') (hdrawn : Drawn fb mem x' y' c') :
    Drawn fb mem' x' y' c' := by
  obtain ⟨mem'', hmem'', -, hframe⟩ := plot_char_spec h mem hc hx hy
  obtain rfl : mem' = mem'' := Option.some.inj (hplot.symm.trans hmem'')
  intro gy gx hgy hgx
  rw [hframe _ fun gy' gx' hgy' hgx' heq =>
    hne (wordIndex_inj h hx' hx hgy hgy' hgx hgx' heq).1]
  exact hdrawn gy gx hgy hgx

end plot

end Flanterm

end ArgaldOS
