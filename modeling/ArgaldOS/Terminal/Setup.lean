import ArgaldOS.Terminal.Runs
import Mathlib.Algebra.GroupWithZero.Nat

/-! # Setting up the terminal (`flanterm_fb_init`, `drivers/terminal/terminal.c`)

    `setup_terminal` passes `flanterm_fb_init` the framebuffer of the boot loader, and
    `NULL` or zero for everything that may be left to it: memory comes from a pool
    of fixed size, the font is the built-in one, there is no canvas and no margin, and
    the scale of the font depends on the size of the framebuffer.  A framebuffer that
    is larger than the pool allows is used in its middle.

    * `cells_le`, `allocations_fit`: the pool is large enough for every framebuffer;
    * `fontBool_spec`: the dots of the font;
    * `flanterm_fb_init_spec`: the terminal after its initialisation;
    * `flanterm_fb_init_writes`: and after any texts;
    * `flanterm_fb_init_refresh`: nothing is left to be drawn then.
-/

namespace ArgaldOS

namespace Flanterm

open Arrays

/-! ## Section 1: The framebuffer -/

/-- `struct limine_framebuffer`, for words of 32 bits: one character has its place, and a
    line of pixels ends before the next begins. -/
structure LimineFramebuffer where
  width         : Nat
  height        : Nat
  pitch         : Nat
  width_ge      : 9 ≤ width
  height_ge     : 16 ≤ height
  pitch_ge      : width * 4 ≤ pitch
  pitch_aligned : pitch % 4 = 0
  size_lt       : height * pitch < 2 ^ 64

/-- `FLANTERM_FB_WIDTH_LIMIT`. -/
def FLANTERM_FB_WIDTH_LIMIT : Nat := 1920

/-- `FLANTERM_FB_HEIGHT_LIMIT`. -/
def FLANTERM_FB_HEIGHT_LIMIT : Nat := 1200

/-- The scale of the font, in both directions. -/
def fontScale (width height : Nat) : Nat :=
  let scale := if width ≥ 1920 + 1920 / 3 ∧ height ≥ 1080 + 1080 / 3 then 2 else 1
  if width ≥ 3840 + 3840 / 3 ∧ height ≥ 2160 + 2160 / 3 then 4 else scale

/-- `width_limit` and `height_limit`. -/
def limited (size limit : Nat) : Nat := if size > limit then limit else size

namespace LimineFramebuffer
variable (f : LimineFramebuffer)

/-- The scale of the font. -/
def scale : Nat := fontScale f.width f.height

/-- `ctx->width`. -/
def limitedWidth : Nat := limited f.width FLANTERM_FB_WIDTH_LIMIT

/-- `ctx->height`. -/
def limitedHeight : Nat := limited f.height FLANTERM_FB_HEIGHT_LIMIT

/-- The distance, in words, from the beginning of the framebuffer to `ctx->framebuffer`. -/
def base : Nat :=
  (f.height / 2 - f.limitedHeight / 2) * (f.pitch / 4) + (f.width / 2 - f.limitedWidth / 2)

/-- `glyph_width`: the font is eight dots wide, and one column is empty. -/
def glyphWidth : Nat := (8 + 1) * f.scale

/-- `glyph_height`. -/
def glyphHeight : Nat := 16 * f.scale

/-- `_ctx->cols`. -/
def cols : Nat := f.limitedWidth / f.glyphWidth

/-- `_ctx->rows`. -/
def rows : Nat := f.limitedHeight / f.glyphHeight

/-- A framebuffer of 640 times 480 pixels: 30 rows of 71 characters. -/
def vga : LimineFramebuffer where
  width         := 640
  height        := 480
  pitch         := 2560
  width_ge      := by decide
  height_ge     := by decide
  pitch_ge      := by decide
  pitch_aligned := by decide
  size_lt       := by decide

end LimineFramebuffer

/-! ## Section 2: The font -/

/-- `FLANTERM_FB_FONT_GLYPHS`. -/
def FLANTERM_FB_FONT_GLYPHS : Nat := 256

/-- The bit for column `x` of glyph `i` in `bits`, its line of the font: the ninth column
    repeats the eighth in the glyphs that draw lines. -/
def fontDot (bits : UInt8) (i x : Nat) : Bool :=
  if x < 8 then bits &&& (0x80 >>> UInt8.ofNat x) ≠ 0
  else if 0xc0 ≤ i ∧ i ≤ 0xdf then bits &&& 1 ≠ 0
  else false

/-- The loops over the glyphs, their lines and their columns. -/
def fontDots (font_height font_width : Nat) : List (Nat × Nat × Nat) :=
  (List.range FLANTERM_FB_FONT_GLYPHS).flatMap fun i =>
    (List.range font_height).flatMap fun y =>
      (List.range font_width).map fun x => (i, y, x)

/-- `font_bool` for the font `font_bits`, which is eight dots wide. -/
def fontBool (font_bits : Nat → UInt8) (font_height font_width : Nat) : Option (Nat → Bool) :=
  (fontDots font_height font_width).foldlM
    (fun font_bool (i, y, x) => do
      let bits ← load (8 * font_height * FLANTERM_FB_FONT_GLYPHS / 8) font_bits
        (i * font_height + y)
      store (FLANTERM_FB_FONT_GLYPHS * font_height * font_width) font_bool
        (i * font_height * font_width + y * font_width + x) (fontDot bits i x))
    fun _ => false

/-! ## Section 3: Memory -/

/-- `FLANTERM_FB_BUMP_ALLOC_POOL_SIZE`. -/
def FLANTERM_FB_BUMP_ALLOC_POOL_SIZE : Nat := 873000

/-- The variables of the allocator. -/
structure BumpPool where
  bump_alloc_ptr          : Nat
  bump_allocated_instance : Bool
  deriving DecidableEq

/-- `bump_alloc` of `s` bytes, which begin at `ptr`: the new `bump_alloc_ptr`. -/
def bump_alloc (ptr s : Nat) : Option Nat :=
  if ptr + s > FLANTERM_FB_BUMP_ALLOC_POOL_SIZE then none else some (ptr + s)

/-- `sizeof(struct flanterm_fb_context)`. -/
def contextSize : Nat := 792

/-- What is allocated after the context: `font_bits`, `font_bool`, `grid`, `queue` and
    `map`. -/
def allocations (cells : Nat) : List Nat :=
  [8 * 16 * FLANTERM_FB_FONT_GLYPHS / 8, FLANTERM_FB_FONT_GLYPHS * 16 * 9,
    cells * 12, cells * 32, cells * 8]

/-! ## Section 4: Initialisation -/

/-- The eight colours, and the bright ones. -/
def ansiColours : List UInt32 :=
  [0x00000000, 0x00aa0000, 0x0000aa00, 0x00aa5500, 0x000000aa, 0x00aa00aa, 0x0000aaaa, 0x00aaaaaa]

@[inherit_doc ansiColours]
def ansiBrightColours : List UInt32 :=
  [0x00555555, 0x00ff5555, 0x0055ff55, 0x00ffff55, 0x005555ff, 0x00ff55ff, 0x0055ffff, 0x00ffffff]

section init
variable (f : LimineFramebuffer)

/-- The settings before the colours are converted. -/
def geometry (font_bool : Nat → Bool) : FbSettings where
  font_width          := 8 + 1
  font_height         := 16
  glyph_width         := f.glyphWidth
  glyph_height        := f.glyphHeight
  font_scale_x        := f.scale
  font_scale_y        := f.scale
  offset_x            := f.limitedWidth % f.glyphWidth / 2
  offset_y            := f.limitedHeight % f.glyphHeight / 2
  pitch               := f.pitch
  width               := f.limitedWidth
  height              := f.limitedHeight
  red_mask_shift      := 16 + (8 - 8)
  green_mask_shift    := 8 + (8 - 8)
  blue_mask_shift     := 0 + (8 - 8)
  font_bool_size      := FLANTERM_FB_FONT_GLYPHS * 16 * (8 + 1)
  font_bool           := font_bool
  ansi_colours        := fun _ => 0
  ansi_bright_colours := fun _ => 0
  default_fg          := 0
  default_bg          := 0
  default_fg_bright   := 0
  default_bg_bright   := 0
  cells               := f.rows * f.cols
  words               := f.height * (f.pitch / 4) - f.base

/-- The settings of the terminal. -/
def settings (font_bool : Nat → Bool) : FbSettings :=
  let fb := geometry f font_bool
  { fb with
    ansi_colours        := fun i => convert_colour fb (ansiColours.getD i 0)
    ansi_bright_colours := fun i => convert_colour fb (ansiBrightColours.getD i 0)
    default_fg          := convert_colour fb 0x00aaaaaa
    default_bg          := 0x00000000
    default_fg_bright   := convert_colour fb 0x00ffffff
    default_bg_bright   := convert_colour fb 0x00555555 }

/-- The cursor and the colours at first. -/
def freshPen (fb : FbSettings) : FbPen where
  text_fg              := fb.default_fg
  text_bg              := 0xffffffff
  cursor_x             := 0
  cursor_y             := 0
  saved_state_text_fg  := 0
  saved_state_text_bg  := 0
  saved_state_cursor_x := 0
  saved_state_cursor_y := 0

/-- The back end before its first drawing: the grid is blank. -/
def freshContext (fb : FbSettings) (framebuffer : Nat → UInt32) : FlantermFbContext where
  buffer :=
    { grid    := fun _ => ⟨0x20, fb.default_fg, 0xffffffff⟩
      queue   := fun _ => ⟨0, 0, ⟨0, 0, 0⟩⟩
      queue_i := 0
      map     := fun _ => none }
  pen          := freshPen fb
  framebuffer  := framebuffer
  old_cursor_x := 0
  old_cursor_y := 0

theorem le_limited {n size limit : Nat} : n ≤ limited size limit ↔ n ≤ size ∧ n ≤ limit := by
  rw [limited]
  split <;> omega

/-- The larger scales are for framebuffers that have enough pixels. -/
theorem scale_cases : f.scale = 1 ∨ (f.scale = 2 ∧ 2560 ≤ f.width ∧ 1440 ≤ f.height) ∨
    (f.scale = 4 ∧ 5120 ≤ f.width ∧ 2880 ≤ f.height) := by
  rw [LimineFramebuffer.scale, fontScale]
  split
  · next h => exact Or.inr (Or.inr ⟨rfl, h⟩)
  · split
    · next h => exact Or.inr (Or.inl ⟨rfl, h⟩)
    · exact Or.inl rfl

theorem scale_pos : 0 < f.scale := by
  have := scale_cases f
  omega

/-- A character has its place. -/
theorem glyph_le : f.glyphWidth ≤ f.limitedWidth ∧ f.glyphHeight ≤ f.limitedHeight := by
  have hwidth := f.width_ge
  have hheight := f.height_ge
  have hscale := scale_cases f
  rw [LimineFramebuffer.limitedWidth, LimineFramebuffer.limitedHeight, le_limited, le_limited,
    LimineFramebuffer.glyphWidth, LimineFramebuffer.glyphHeight, FLANTERM_FB_WIDTH_LIMIT,
    FLANTERM_FB_HEIGHT_LIMIT]
  omega

theorem cols_pos : 0 < f.cols :=
  Nat.div_pos (glyph_le f).1 (Nat.mul_pos (Nat.succ_pos 8) (scale_pos f))

theorem rows_pos : 0 < f.rows :=
  Nat.div_pos (glyph_le f).2 (Nat.mul_pos (Nat.succ_pos 15) (scale_pos f))

/-- The front end before the first byte. -/
def freshTerm : FlantermContext :=
  flanterm_context_reinit (zeroContext f.rows f.cols (rows_pos f) (cols_pos f))

/-- `flanterm_fb_init`, with the arguments of `setup_terminal`.  `mem` is the memory of the
    framebuffer.  The inner `none` is `NULL`. -/
def flanterm_fb_init (builtin_font : Nat → UInt8) (mem : Nat → UInt32) (pool : BumpPool) :
    Option (Option (FbSettings × Terminal) × BumpPool) :=
  if pool.bump_allocated_instance then some (none, pool)
  else
    match bump_alloc pool.bump_alloc_ptr contextSize with
    | none => some (none, pool)
    | some ptr =>
      match (allocations (f.rows * f.cols)).foldlM bump_alloc ptr with
      | none => some (none, { pool with bump_alloc_ptr := 0 })
      | some ptr => do
        let font_bool ← fontBool builtin_font 16 (8 + 1)
        let fb := settings f font_bool
        let term := freshTerm f
        let s ← full_refresh fb term (freshContext fb fun k => mem (f.base + k))
        some (some (fb, ⟨term, s⟩), ⟨ptr, true⟩)

end init

/-! ## Section 5: The pool is large enough -/

section memory
variable (f : LimineFramebuffer)

/-- **The largest screen** has 75 lines of 213 columns. -/
theorem cells_le : f.rows ≤ 75 ∧ f.cols ≤ 213 := by
  have hscale := scale_pos f
  have hwidth : f.limitedWidth ≤ 1920 := (le_limited.mp (Nat.le_refl _)).2
  have hheight : f.limitedHeight ≤ 1200 := (le_limited.mp (Nat.le_refl _)).2
  constructor
  · rw [LimineFramebuffer.rows, LimineFramebuffer.glyphHeight]
    exact (Nat.div_le_div hheight (Nat.le_mul_of_pos_right 16 hscale) (by omega)).trans
      (Nat.le_refl 75)
  · rw [LimineFramebuffer.cols, LimineFramebuffer.glyphWidth]
    exact (Nat.div_le_div hwidth (Nat.le_mul_of_pos_right 9 hscale) (by omega)).trans
      (Nat.le_refl 213)

/-- Allocations succeed as long as their sum fits. -/
theorem foldlM_bump_alloc {sizes : List Nat} {ptr : Nat}
    (h : ptr + sizes.sum ≤ FLANTERM_FB_BUMP_ALLOC_POOL_SIZE) :
    sizes.foldlM bump_alloc ptr = some (ptr + sizes.sum) := by
  induction sizes generalizing ptr with
  | nil => rfl
  | cons s sizes ih =>
    rw [List.sum_cons] at h ⊢
    rw [List.foldlM_cons, bump_alloc, if_neg (by omega), Option.bind_eq_bind, Option.bind_some,
      ih (by omega), Nat.add_assoc]

/-- **No allocation fails**, whatever the framebuffer. -/
theorem allocations_fit : ∃ ptr, (contextSize :: allocations (f.rows * f.cols)).foldlM bump_alloc 0
    = some ptr ∧ ptr ≤ FLANTERM_FB_BUMP_ALLOC_POOL_SIZE := by
  obtain ⟨hrows, hcols⟩ := cells_le f
  have hcells : f.rows * f.cols ≤ 75 * 213 := Nat.mul_le_mul hrows hcols
  have hsum : (contextSize :: allocations (f.rows * f.cols)).sum
      = 41752 + 52 * (f.rows * f.cols) := by
    simp only [allocations, List.sum_cons, List.sum_nil, contextSize, FLANTERM_FB_FONT_GLYPHS]
    omega
  have hle : 0 + (contextSize :: allocations (f.rows * f.cols)).sum
      ≤ FLANTERM_FB_BUMP_ALLOC_POOL_SIZE := by
    rw [hsum, FLANTERM_FB_BUMP_ALLOC_POOL_SIZE]
    omega
  exact ⟨_, foldlM_bump_alloc hle, hle⟩

end memory

/-! ## Section 6: The font and the geometry -/

theorem mem_fontDots {font_height font_width i y x : Nat} :
    (i, y, x) ∈ fontDots font_height font_width ↔
      i < FLANTERM_FB_FONT_GLYPHS ∧ y < font_height ∧ x < font_width := by
  simp only [fontDots, List.mem_flatMap, List.mem_map, List.mem_range, Prod.mk.injEq]
  constructor
  · intro ⟨_, h1, _, h2, _, h3, rfl, rfl, rfl⟩
    exact ⟨h1, h2, h3⟩
  · intro ⟨h1, h2, h3⟩
    exact ⟨i, h1, y, h2, x, h3, rfl, rfl, rfl⟩

/-- **The dots of the font**: each line of a glyph is one byte of the font. -/
theorem fontBool_spec (font_bits : Nat → UInt8) (font_height font_width : Nat) :
    ∃ font_bool, fontBool font_bits font_height font_width = some font_bool ∧
      ∀ i y x, i < FLANTERM_FB_FONT_GLYPHS → y < font_height → x < font_width →
        font_bool (i * font_height * font_width + y * font_width + x)
          = fontDot (font_bits (i * font_height + y)) i x := by
  let key := fun dot : Nat × Nat × Nat =>
    dot.1 * font_height * font_width + dot.2.1 * font_width + dot.2.2
  let val := fun dot : Nat × Nat × Nat =>
    fontDot (font_bits (dot.1 * font_height + dot.2.1)) dot.1 dot.2.2
  have hkey : ∀ i y x, key (i, y, x) = (i * font_height + y) * font_width + x := by
    intro i y x
    simp only [key, Nat.add_mul]
  obtain ⟨font_bool, hfont_bool, heq⟩ := exists_foldlM
    (R := fun a a' : Nat → Bool => a = a')
    (f := fun a (dot : Nat × Nat × Nat) => do
      let bits ← load (8 * font_height * FLANTERM_FB_FONT_GLYPHS / 8) font_bits
        (dot.1 * font_height + dot.2.1)
      store (FLANTERM_FB_FONT_GLYPHS * font_height * font_width) a (key dot)
        (fontDot bits dot.1 dot.2.2))
    (g := fun a dot => Function.update a (key dot) (val dot))
    (l := fontDots font_height font_width)
    (fun dot hdot a a' heq => by
      obtain ⟨i, y, x⟩ := dot
      obtain ⟨hi, hy, hx⟩ := mem_fontDots.mp hdot
      have hline : i * font_height + y < FLANTERM_FB_FONT_GLYPHS * font_height := index_lt hy hi
      have hload : i * font_height + y < 8 * font_height * FLANTERM_FB_FONT_GLYPHS / 8 := by
        rw [Nat.mul_assoc, Nat.mul_div_cancel_left _ (by omega), Nat.mul_comm font_height]
        exact hline
      refine ⟨_, ?_, rfl⟩
      rw [load_of_lt hload, heq, Option.bind_eq_bind, Option.bind_some]
      refine store_of_lt ?_ _ _
      rw [hkey]
      exact index_lt hx hline)
    (rfl : (fun _ => false) = fun _ => false)
  refine ⟨font_bool, hfont_bool, ?_⟩
  intro i y x hi hy hx
  rw [heq]
  refine foldl_update_of_mem _ ⟨(i, y, x), mem_fontDots.mpr ⟨hi, hy, hx⟩, rfl⟩ ?_
  intro ⟨i', y', x'⟩ hdot hsame
  obtain ⟨hi', hy', hx'⟩ := mem_fontDots.mp hdot
  change key (i', y', x') = key (i, y, x) at hsame
  rw [hkey, hkey, index_inj hx' hx, index_inj hy' hy] at hsame
  obtain ⟨⟨rfl, rfl⟩, rfl⟩ := hsame
  rfl

section geometry
variable (f : LimineFramebuffer) (font_bool : Nat → Bool)

theorem settings_fits : (settings f font_bool).Fits f.rows f.cols where
  cells   := rfl
  rows_lt := (cells_le f).1.trans_lt (by omega)
  cols_lt := (cells_le f).2.trans_lt (by omega)

/-- The part of the framebuffer that is used is inside it. -/
theorem used_lt {x y : Nat} (hx : x < f.limitedWidth) (hy : y < f.limitedHeight) :
    f.base + (y * (f.pitch / 4) + x) < f.height * (f.pitch / 4) := by
  have hwidth : f.limitedWidth ≤ f.width := (le_limited.mp (Nat.le_refl _)).1
  have hheight : f.limitedHeight ≤ f.height := (le_limited.mp (Nat.le_refl _)).1
  have hpitch := f.pitch_ge
  have hrow : f.height / 2 - f.limitedHeight / 2 + y < f.height := by omega
  have hcol : f.width / 2 - f.limitedWidth / 2 + x < f.pitch / 4 := by omega
  have hlt := index_lt hcol hrow
  rw [Nat.add_mul] at hlt
  rw [LimineFramebuffer.base]
  omega

/-- **The screen is inside the framebuffer.** -/
theorem settings_draws : (settings f font_bool).Draws f.rows f.cols where
  glyph_width    := rfl
  glyph_height   := rfl
  font_scale_x   := scale_pos f
  font_scale_y   := scale_pos f
  font_height    := by show 16 ≤ 256; omega
  font_bool_size := rfl
  right          := by
    show f.limitedWidth % f.glyphWidth / 2 + f.limitedWidth / f.glyphWidth * f.glyphWidth
      ≤ f.limitedWidth
    have := Nat.div_add_mod' f.limitedWidth f.glyphWidth
    omega
  bottom         := by
    show f.limitedHeight % f.glyphHeight / 2 + f.limitedHeight / f.glyphHeight * f.glyphHeight
      ≤ f.limitedHeight
    have := Nat.div_add_mod' f.limitedHeight f.glyphHeight
    omega
  pitch          := by
    show f.limitedWidth ≤ f.pitch / 4
    have hwidth : f.limitedWidth ≤ f.width := (le_limited.mp (Nat.le_refl _)).1
    have hpitch := f.pitch_ge
    omega
  words          := by
    intro x y hx hy
    show y * (f.pitch / 4) + x < f.height * (f.pitch / 4) - f.base
    have := used_lt f hx hy
    omega

end geometry

/-! ## Section 7: The terminal from its initialisation on -/

/-- The terminal that has shown nothing yet. -/
def ScreenTerminal.fresh (f : LimineFramebuffer) (fb : FbSettings) : ScreenTerminal where
  term   := freshTerm f
  screen := ⟨fun _ _ => ⟨0x20, fb.default_fg, 0xffffffff⟩, freshPen fb⟩

/-- The settings for a framebuffer of 640 times 480 pixels and an empty font. -/
def vgaSettings : FbSettings := settings .vga fun _ => false

/-- A new terminal on that framebuffer. -/
def ScreenTerminal.vga : ScreenTerminal := .fresh .vga vgaSettings

section setup
variable (f : LimineFramebuffer) (builtin_font : Nat → UInt8) (mem : Nat → UInt32)

theorem freshTerm_ok : (freshTerm f).Ok where
  autoflush                   := rfl
  tab_size                    := Nat.succ_pos 7
  unicode_remaining           := Nat.zero_le _
  g_select                    := Nat.zero_le _
  current_charset             := Nat.succ_pos 1
  saved_state_current_charset := Nat.succ_pos 1
  esc_values_i                := Nat.zero_le _
  rrr                         := fun h => absurd h Bool.false_ne_true
  top                         := rows_pos f
  bottom                      := Nat.le_refl _
  current_primary             := Or.inr rfl
  current_bg                  := Or.inr rfl
  saved_state_current_primary := Or.inl (Nat.succ_pos 7)
  saved_state_current_bg      := Or.inl (Nat.succ_pos 7)

/-- An empty queue is consistent. -/
theorem freshContext_ok (fb : FbSettings) (framebuffer : Nat → UInt32) :
    (freshContext fb framebuffer).buffer.Ok f.rows f.cols where
  linked :=
    { target  := fun _ hq => absurd hq (Nat.not_lt_zero _)
      pending := fun _ _ hq => nomatch hq
      named   := fun _ hq => absurd hq (Nat.not_lt_zero _)
      linked  := fun _ hq => absurd hq (Nat.not_lt_zero _) }
  inside := fun _ hq => absurd hq (Nat.not_lt_zero _)

/-- **Initialisation**: every framebuffer gets a terminal, with a blank screen; it shows the
    cursor in the corner, and the background around the screen.  There is no second one. -/
theorem flanterm_fb_init_spec : ∃ font_bool t pool,
    flanterm_fb_init f builtin_font mem ⟨0, false⟩ = some (some (settings f font_bool, t), pool) ∧
      pool.bump_alloc_ptr ≤ FLANTERM_FB_BUMP_ALLOC_POOL_SIZE ∧
      (∀ i y x, i < FLANTERM_FB_FONT_GLYPHS → y < 16 → x < 9 →
        font_bool (i * 16 * 9 + y * 9 + x) = fontDot (builtin_font (i * 16 + y)) i x) ∧
      ShowsAll (settings f font_bool) f.rows f.cols t (.fresh f (settings f font_bool)) ∧
      (∀ k, Outside (settings f font_bool) f.rows f.cols k → Used (settings f font_bool) k →
        t.fb.framebuffer k = 0) ∧
      (∀ k, Outside (settings f font_bool) f.rows f.cols k → ¬Used (settings f font_bool) k →
        t.fb.framebuffer k = mem (f.base + k)) ∧
      ∀ f' mem', flanterm_fb_init f' builtin_font mem' pool = some (none, pool) := by
  obtain ⟨ptr, halloc, hle⟩ := allocations_fit f
  rw [List.foldlM_cons] at halloc
  obtain ⟨ptr₁, hptr₁, hptr⟩ := Option.bind_eq_some_iff.mp halloc
  obtain ⟨font_bool, hfont, hdots⟩ := fontBool_spec builtin_font 16 9
  let fb := settings f font_bool
  let s := freshContext fb fun k => mem (f.base + k)
  have hdraws : fb.Draws (freshTerm f).rows (freshTerm f).cols := settings_draws f font_bool
  have hfits : fb.Fits (freshTerm f).rows (freshTerm f).cols := settings_fits f font_bool
  have hprint : Printable (freshTerm f).rows (freshTerm f).cols s.buffer.grid :=
    fun _ _ => Nat.lt_of_sub_eq_succ rfl
  obtain ⟨framebuffer, hrefresh, hdrawn, hused, hunused⟩ :=
    full_refresh_spec (s := s) hdraws hfits rfl hprint
  refine ⟨font_bool, ⟨freshTerm f, { s with framebuffer := framebuffer }⟩, ⟨ptr, true⟩, ?_, hle,
    hdots, ?_, hused, hunused, fun _ _ => rfl⟩
  · simp only [flanterm_fb_init, if_neg Bool.false_ne_true, hptr₁, hptr, hfont,
      Option.bind_eq_bind, Option.bind_some]
    rw [hrefresh, Option.bind_some]
  · exact {
      term := rfl
      rows_eq := rfl
      cols_eq := rfl
      ok := freshTerm_ok f
      refines := ⟨freshContext_ok f fb framebuffer, fun _ _ _ _ => rfl, rfl⟩
      printable := fun _ _ _ _ => Nat.lt_of_sub_eq_succ rfl
      clean := by
        intro x y hx hy hplace
        have hshown := hdrawn x y hx hy
        rwa [shownChar, if_neg fun h => hplace h.2] at hshown
      flushed := rfl
      drawn := hdrawn }

/-- The pixel in line `gy` and column `gx` of a character: a dot of its glyph is a square of
    pixels in the colour of the text, and the others have the colour of the background. -/
def LimineFramebuffer.pixel (fb : FbSettings) (c : FlantermFbChar) (gy gx : Nat) : UInt32 :=
  pixelColour fb c
    (fontDot (builtin_font (c.c.toNat * 16 + gy / f.scale)) c.c.toNat (gx / f.scale))

variable {f builtin_font}

/-- The pixels of a character come from the font. -/
theorem glyphPixel_settings {font_bool : Nat → Bool}
    (hdots : ∀ i y x, i < FLANTERM_FB_FONT_GLYPHS → y < 16 → x < 9 →
      font_bool (i * 16 * 9 + y * 9 + x) = fontDot (builtin_font (i * 16 + y)) i x)
    {c : FlantermFbChar} (hc : c.c.toNat < 256) {gy gx : Nat} (hgy : gy < f.glyphHeight)
    (hgx : gx < f.glyphWidth) : glyphPixel (settings f font_bool) c gy gx
      = f.pixel builtin_font (settings f font_bool) c gy gx := by
  have hfy : gy / f.scale < 16 := by
    rw [Nat.div_lt_iff_lt_mul (scale_pos f)]
    exact hgy
  have hfx : gx / f.scale < 9 := by
    rw [Nat.div_lt_iff_lt_mul (scale_pos f)]
    exact hgx
  rw [LimineFramebuffer.pixel, ← hdots _ _ _ hc hfy hfx]
  show pixelColour _ c (font_bool (c.c.toNat * 16 * 9 + gy / f.scale % 256 * 9 + gx / f.scale)) = _
  rw [Nat.mod_eq_of_lt (by omega)]

/-- A terminal that shows a screen draws its characters with the font. -/
theorem ShowsAll.pixel {font_bool : Nat → Bool}
    (hdots : ∀ i y x, i < FLANTERM_FB_FONT_GLYPHS → y < 16 → x < 9 →
      font_bool (i * 16 * 9 + y * 9 + x) = fontDot (builtin_font (i * 16 + y)) i x)
    {t : Terminal} {a : ScreenTerminal}
    (h : ShowsAll (settings f font_bool) f.rows f.cols t a) {x y gy gx : Nat} (hx : x < f.cols)
    (hy : y < f.rows) (hgy : gy < f.glyphHeight) (hgx : gx < f.glyphWidth) :
    t.fb.framebuffer (wordIndex (settings f font_bool) x y gy gx)
      = f.pixel builtin_font (settings f font_bool) (a.shown x y) gy gx := by
  rw [← glyphPixel_settings hdots (h.shown_lt hx hy) hgy hgx]
  exact h.drawn x y hx hy gy gx hgy hgx

variable (f builtin_font)

/-- **From the framebuffer of the boot loader to the pixels**: the terminal is set up, no text
    makes an access out of bounds, and after any texts every pixel of a place has the colour
    that the glyph of its character gives it, the border is black, and nothing else of the
    framebuffer has changed.  The indices into the arrays of the context, which the model has
    as functions, are within the bounds of `FlantermContext.Ok`. -/
theorem flanterm_fb_init_writes (texts : List (List UInt8)) : ∃ font_bool t t' pool,
    flanterm_fb_init f builtin_font mem ⟨0, false⟩ = some (some (settings f font_bool, t), pool) ∧
      Runs.exec (flanterm_write (settings f font_bool)) t texts = some t' ∧
      t'.term.Ok ∧
      (∀ x y gy gx, x < f.cols → y < f.rows → gy < f.glyphHeight → gx < f.glyphWidth →
        t'.fb.framebuffer (wordIndex (settings f font_bool) x y gy gx)
          = f.pixel builtin_font (settings f font_bool)
              (((ScreenTerminal.fresh f (settings f font_bool)).write (settings f font_bool)
                texts.flatten).shown x y) gy gx) ∧
      (∀ k, Outside (settings f font_bool) f.rows f.cols k → Used (settings f font_bool) k →
        t'.fb.framebuffer k = 0) ∧
      ∀ k, Outside (settings f font_bool) f.rows f.cols k → ¬Used (settings f font_bool) k →
        t'.fb.framebuffer k = mem (f.base + k) := by
  obtain ⟨font_bool, t, pool, hinit, -, hdots, hshows, hused, hunused, -⟩ :=
    flanterm_fb_init_spec f builtin_font mem
  obtain ⟨t', hrun, hshows', hframe⟩ :=
    writes_show (settings_fits f font_bool) (settings_draws f font_bool) hshows texts
  refine ⟨font_bool, t, t', pool, hinit, hrun, hshows'.term ▸ hshows'.ok, ?_, ?_, ?_⟩
  · intro x y gy gx hx hy hgy hgx
    exact hshows'.pixel hdots hx hy hgy hgx
  · intro k hk hin
    exact (hframe k hk).trans (hused k hk hin)
  · intro k hk hout
    exact (hframe k hk).trans (hunused k hk hout)

/-- **The whole screen is up to date**: after any texts, to draw everything again changes
    no pixel. -/
theorem flanterm_fb_init_refresh (texts : List (List UInt8)) : ∃ font_bool t t' pool,
    flanterm_fb_init f builtin_font mem ⟨0, false⟩ = some (some (settings f font_bool, t), pool) ∧
      Runs.exec (flanterm_write (settings f font_bool)) t texts = some t' ∧
      full_refresh (settings f font_bool) t'.term t'.fb = some t'.fb := by
  obtain ⟨font_bool, t, pool, hinit, -, hdots, hshows, hused, hunused, -⟩ :=
    flanterm_fb_init_spec f builtin_font mem
  obtain ⟨t', hrun, hshows', hframe⟩ :=
    writes_show (settings_fits f font_bool) (settings_draws f font_bool) hshows texts
  exact ⟨font_bool, t, t', pool, hinit, hrun, hshows'.full_refresh_eq (settings_fits f font_bool)
    (settings_draws f font_bool) fun k hk hin => (hframe k hk).trans (hused k hk hin)⟩

end setup

end Flanterm

end ArgaldOS
