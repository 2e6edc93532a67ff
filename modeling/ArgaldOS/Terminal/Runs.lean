import ArgaldOS.Framework.Runs
import ArgaldOS.Terminal.Display
import ArgaldOS.Terminal.Safety

/-! # Everything that is written to the terminal

    The users of the terminal write one text after another.  A text may end in the
    middle of an escape sequence or of a character, and any byte may follow any other.

    `ScreenTerminal` is the front end on a screen that changes at once.  The terminal
    follows it, byte after byte; and whenever a text is complete, the framebuffer shows
    what is on that screen.

    * `putchar_follows`: the step;
    * `writes_show`: the run;
    * `ShowsAll.full_refresh_eq`: drawing everything again makes no difference.
-/

namespace ArgaldOS

namespace Flanterm

open Arrays

/-! ## Section 1: The terminal without its back end -/

/-- The front end, and the screen that it changes. -/
structure ScreenTerminal where
  term   : FlantermContext
  screen : Screen

namespace ScreenTerminal

/-- A byte. -/
def putchar (fb : FbSettings) (a : ScreenTerminal) (c : UInt8) : ScreenTerminal :=
  let cursor := get_cursor_pos a.term a.screen.pen
  let next := flanterm_putchar a.term c cursor.1 cursor.2
  ⟨next.1, next.2.foldl (Screen.perform fb) a.screen⟩

/-- A text. -/
def write (fb : FbSettings) (a : ScreenTerminal) (buf : List UInt8) : ScreenTerminal :=
  Runs.run (putchar fb) a buf

/-- What is to be seen in column `x` of row `y`. -/
def shown (a : ScreenTerminal) (x y : Nat) : FlantermFbChar :=
  shownChar a.term a.screen.pen x y (a.screen.cell y x)

theorem write_append (fb : FbSettings) (a : ScreenTerminal) (buf buf' : List UInt8) :
    a.write fb (buf ++ buf') = (a.write fb buf).write fb buf' := Runs.run_append _ _ _ _

end ScreenTerminal

/-- All characters of a screen have a glyph. -/
def Screen.Printable (rows cols : Nat) (screen : Screen) : Prop :=
  ∀ y, y < rows → ∀ x, x < cols → (screen.cell y x).c.toNat < 256

section screen
variable {fb : FbSettings} {rows cols : Nat} {screen : Screen}

/-- Where the front end is told that the cursor is. -/
theorem get_cursor_pos_lt (ctx : FlantermContext) (pen : FbPen) :
    (get_cursor_pos ctx pen).1 < ctx.cols ∧ (get_cursor_pos ctx pen).2 < ctx.rows := by
  have hrows := ctx.rows_pos
  have hcols := ctx.cols_pos
  simp only [get_cursor_pos]
  constructor
  · split <;> omega
  · split <;> omega

/-- Lines that move stay printable. -/
theorem printable_moveUp {cell : Nat → Nat → FlantermFbChar} {top bottom : Nat} (pen : FbPen)
    (h : ∀ y, y < rows → ∀ x, x < cols → (cell y x).c.toNat < 256) (hbottom : bottom ≤ rows) :
    ∀ y, y < rows → ∀ x, x < cols →
      (Screen.moveUp top bottom pen.empty cell y x).c.toNat < 256 := by
  intro y hy x hx
  rw [Screen.moveUp]
  split
  · exact Nat.lt_of_sub_eq_succ rfl
  · split
    · exact h _ (by omega) x hx
    · exact h y hy x hx

theorem printable_moveDown {cell : Nat → Nat → FlantermFbChar} {top bottom : Nat} (pen : FbPen)
    (h : ∀ y, y < rows → ∀ x, x < cols → (cell y x).c.toNat < 256) :
    ∀ y, y < rows → ∀ x, x < cols →
      (Screen.moveDown top bottom pen.empty cell y x).c.toNat < 256 := by
  intro y hy x hx
  rw [Screen.moveDown]
  split
  · exact Nat.lt_of_sub_eq_succ rfl
  · split
    · exact h _ (by omega) x hx
    · exact h y hy x hx

theorem printable_put {cell : Nat → Nat → FlantermFbChar} {c : FlantermFbChar}
    (h : ∀ y, y < rows → ∀ x, x < cols → (cell y x).c.toNat < 256) (hc : c.c.toNat < 256)
    (y' x' : Nat) :
    ∀ y, y < rows → ∀ x, x < cols → (Screen.put cell y' x' c y x).c.toNat < 256 := by
  intro y hy x hx
  rw [Screen.put_apply]
  split
  · exact hc
  · exact h y hy x hx

/-- **Every call** leaves a screen whose characters have a glyph. -/
theorem Screen.perform_printable {call : Call} (hcall : call.Valid rows cols)
    (h : screen.Printable rows cols) : (screen.perform fb call).Printable rows cols := by
  obtain ⟨ctx, op⟩ := call
  obtain ⟨rfl, rfl, -, hbottom, -, -⟩ := hcall
  cases op with
  | raw_putchar c =>
    have hc : c.toUInt32.toNat < 256 := by
      rw [UInt8.toNat_toUInt32]
      exact c.toNat_lt
    have hcell : ∀ y, y < ctx.rows → ∀ x, x < ctx.cols →
        ((if wraps ctx screen.pen ∧ wrapScrolls ctx screen.pen then
            moveUp ctx.scroll_top_margin ctx.scroll_bottom_margin screen.pen.empty screen.cell
          else screen.cell) y x).c.toNat < 256 := by
      split
      · exact printable_moveUp screen.pen h hbottom.2
      · exact h
    show ∀ y, y < ctx.rows → ∀ x, x < ctx.cols → ((screen.print ctx c).cell y x).c.toNat < 256
    simp only [print]
    split
    · exact printable_put hcell hc _ _
    · exact hcell
  | clear move =>
    intro y _ x _
    exact Nat.lt_of_sub_eq_succ rfl
  | move_character new_x new_y old_x old_y =>
    simp only [perform]
    split
    · next hin => exact printable_put h (h old_y hin.2.2 old_x hin.2.1) new_y new_x
    · exact h
  | scroll => exact printable_moveUp screen.pen h hbottom.2
  | revscroll => exact printable_moveDown screen.pen h
  | _ => exact h

/-- A screen that is read by index. -/
theorem Shows.printable {v : Nat → FlantermFbChar} (h : Shows rows cols v screen.cell)
    (hcols : 0 < cols) (hprint : screen.Printable rows cols) : Printable rows cols v := by
  intro i hi
  have hx : i % cols < cols := Nat.mod_lt _ hcols
  have hy : i / cols < rows := Nat.div_lt_of_lt_mul (by rwa [Nat.mul_comm])
  have hcell := h _ hy _ hx
  rw [Nat.div_add_mod'] at hcell
  rw [hcell]
  exact hprint _ hy _ hx

end screen

/-! ## Section 2: A byte -/

/-- The terminal follows `a`: the front ends are the same, and the back end shows the
    screen; the framebuffer shows the grid. -/
structure Follows (fb : FbSettings) (rows cols : Nat) (t : Terminal) (a : ScreenTerminal) :
    Prop where
  term      : t.term = a.term
  rows_eq   : a.term.rows = rows
  cols_eq   : a.term.cols = cols
  ok        : a.term.Ok
  refines   : Refines rows cols t.fb a.screen
  printable : a.screen.Printable rows cols
  clean     : Clean fb t.term t.fb

/-- The terminal follows `a`, nothing is queued, and the framebuffer shows the screen with
    its cursor. -/
structure ShowsAll (fb : FbSettings) (rows cols : Nat) (t : Terminal) (a : ScreenTerminal) :
    Prop extends Follows fb rows cols t a where
  flushed : t.fb.buffer.queue_i = 0
  drawn : ∀ x y, x < cols → y < rows →
    Drawn fb t.fb.framebuffer x y (a.shown x y)

section runs
variable {fb : FbSettings} {rows cols : Nat} {t : Terminal} {a : ScreenTerminal}

/-- A character with its colours exchanged has the same glyph. -/
theorem Follows.shown_lt (h : Follows fb rows cols t a) {x y : Nat} (hx : x < cols)
    (hy : y < rows) : (a.shown x y).c.toNat < 256 := by
  rw [ScreenTerminal.shown, shownChar]
  split
  · exact h.printable y hy x hx
  · exact h.printable y hy x hx

/-- The calls of a byte, one after the other. -/
theorem performAll_refines (hfits : fb.Fits rows cols) {calls : List Call}
    (hcalls : ∀ call ∈ calls, call.Valid rows cols) {s : FlantermFbContext} {screen : Screen}
    (h : Refines rows cols s screen) (hprint : screen.Printable rows cols) :
    ∃ s', performAll fb s calls = some s' ∧
      Refines rows cols s' (calls.foldl (Screen.perform fb) screen) ∧
      (calls.foldl (Screen.perform fb) screen).Printable rows cols ∧ Undrawn s s' := by
  obtain ⟨s', hs', hrefines, hprint', hundrawn⟩ := exists_foldlM
    (R := fun s' screen' =>
      Refines rows cols s' screen' ∧ screen'.Printable rows cols ∧ Undrawn s s')
    (f := perform fb) (g := Screen.perform fb) (l := calls)
    (fun call hcall s₁ screen₁ ⟨h₁, hp₁, hu₁⟩ => by
      obtain ⟨s₂, hs₂, h₂, hu₂⟩ := perform_refines hfits (hcalls call hcall) h₁
      exact ⟨s₂, hs₂, h₂, Screen.perform_printable (hcalls call hcall) hp₁, hu₁.trans hu₂⟩)
    (⟨h, hprint, ⟨rfl, rfl, rfl, rfl⟩⟩ : Refines rows cols s screen ∧ _ ∧ _)
  exact ⟨s', hs', hrefines, hprint', hundrawn⟩

/-- What is drawn depends on nothing that a call changes. -/
theorem Clean.undrawn {ctx ctx' : FlantermContext} {s s' : FlantermFbContext}
    (h : Clean fb ctx s) (hrows : ctx'.rows = ctx.rows) (hcols : ctx'.cols = ctx.cols)
    (hs : Undrawn s s') : Clean fb ctx' s' := by
  intro x y hx hy hplace
  rw [hcols] at hx ⊢
  rw [hrows] at hy
  rw [hs.old_cursor_x, hs.old_cursor_y] at hplace
  rw [hs.grid, hs.framebuffer]
  exact h x y hx hy hplace

/-- **A byte**: the terminal does what it is to do, and draws nothing. -/
theorem putchar_follows (hfits : fb.Fits rows cols) (h : Follows fb rows cols t a) (c : UInt8) :
    ∃ t', t.putchar fb c = some t' ∧ Follows fb rows cols t' (a.putchar fb c) ∧
      Undrawn t.fb t'.fb := by
  obtain ⟨term, s⟩ := t
  obtain ⟨rfl, hrows, hcols, hok, hrefines, hprint, hclean⟩ := h
  obtain ⟨hx, hy⟩ := get_cursor_pos_lt a.term a.screen.pen
  have hemits := flanterm_putchar_emits hok hx hy c
  have hcalls := hemits.calls
  rw [hrows, hcols] at hcalls
  obtain ⟨s', hs', hrefines', hprint', hundrawn⟩ :=
    performAll_refines (s := s) hfits hcalls hrefines hprint
  refine ⟨⟨(a.putchar fb c).term, s'⟩, ?_, ?_, hundrawn⟩
  · have hpen : s.pen = a.screen.pen := hrefines.pen
    simp only [Terminal.putchar, hpen, hs', Option.bind_eq_bind, Option.bind_some]
    rfl
  · exact {
      term := rfl
      rows_eq := hemits.rows_eq.trans hrows
      cols_eq := hemits.cols_eq.trans hcols
      ok := hemits.ok
      refines := hrefines'
      printable := hprint'
      clean := hclean.undrawn hemits.rows_eq hemits.cols_eq hundrawn }

/-- The bytes of a text. -/
theorem putchars_follow (hfits : fb.Fits rows cols) (h : Follows fb rows cols t a)
    (buf : List UInt8) : ∃ t', buf.foldlM (Terminal.putchar fb) t = some t' ∧
      Follows fb rows cols t' (a.write fb buf) ∧ Undrawn t.fb t'.fb := by
  induction buf generalizing t a with
  | nil => exact ⟨t, rfl, h, ⟨rfl, rfl, rfl, rfl⟩⟩
  | cons c buf ih =>
    obtain ⟨t₁, ht₁, h₁, hu₁⟩ := putchar_follows hfits h c
    obtain ⟨t₂, ht₂, h₂, hu₂⟩ := ih h₁
    refine ⟨t₂, ?_, h₂, hu₁.trans hu₂⟩
    simp only [List.foldlM_cons, ht₁, Option.bind_eq_bind, Option.bind_some, ht₂]

/-! ## Section 3: A text -/

/-- The end of a text: the screen is drawn. -/
theorem refresh_shows (hfits : fb.Fits rows cols) (hdraws : fb.Draws rows cols)
    (h : Follows fb rows cols t a) : ∃ t', t.refresh fb = some t' ∧ ShowsAll fb rows cols t' a ∧
      ∀ k, Outside fb rows cols k → t'.fb.framebuffer k = t.fb.framebuffer k := by
  obtain ⟨term, s⟩ := t
  obtain ⟨rfl, rfl, rfl, hok, hrefines, hprint, hclean⟩ := h
  have hprintable := hrefines.shows.printable a.term.cols_pos hprint
  obtain ⟨s', hs', hok', hview, hflushed, hpen, hclean', hdrawn, houtside⟩ :=
    double_buffer_flush_spec hdraws hfits hrefines.ok hprintable hclean
  refine ⟨⟨a.term, s'⟩, ?_, ⟨⟨rfl, rfl, rfl, hok, ⟨hok', ?_, ?_⟩, hprint, hclean'⟩, hflushed, ?_⟩,
    houtside⟩
  · simp only [Terminal.refresh, hok.autoflush, if_true, hs', Option.bind_eq_bind,
      Option.bind_some]
  · rw [hview]
    exact hrefines.shows
  · exact hpen.trans hrefines.pen
  · intro x y hx hy
    rw [ScreenTerminal.shown, ← hrefines.shows y hy x hx, ← hrefines.pen]
    exact hdrawn x y hx hy

/-- **A text**: every byte of it is read, and the framebuffer shows the result. -/
theorem flanterm_write_shows (hfits : fb.Fits rows cols) (hdraws : fb.Draws rows cols)
    (h : Follows fb rows cols t a) (buf : List UInt8) :
    ∃ t', flanterm_write fb t buf = some t' ∧ ShowsAll fb rows cols t' (a.write fb buf) ∧
      ∀ k, Outside fb rows cols k → t'.fb.framebuffer k = t.fb.framebuffer k := by
  obtain ⟨t₁, ht₁, h₁, hundrawn⟩ := putchars_follow hfits h buf
  obtain ⟨t₂, ht₂, h₂, houtside⟩ := refresh_shows hfits hdraws h₁
  refine ⟨t₂, ?_, h₂, ?_⟩
  · simp only [flanterm_write, ht₁, Option.bind_eq_bind, Option.bind_some, ht₂]
  · intro k hk
    rw [houtside k hk, hundrawn.framebuffer]

/-- A single character is a text. -/
theorem flanterm_putchar_wrapper_eq (c : UInt8) :
    flanterm_putchar_wrapper fb t c = flanterm_write fb t [c] := by
  simp only [flanterm_putchar_wrapper, flanterm_write, List.foldlM_cons, List.foldlM_nil,
    Option.bind_eq_bind, Option.pure_def, Option.bind_some, Option.bind_assoc]

/-- **Any sequence of texts**: nothing is accessed out of bounds, the framebuffer shows
    the screen that all of their bytes lead to, and no pixel outside the screen changes. -/
theorem writes_show (hfits : fb.Fits rows cols) (hdraws : fb.Draws rows cols)
    (h : ShowsAll fb rows cols t a) (texts : List (List UInt8)) :
    ∃ t', Runs.exec (flanterm_write fb) t texts = some t' ∧
      ShowsAll fb rows cols t' (a.write fb texts.flatten) ∧
      ∀ k, Outside fb rows cols k → t'.fb.framebuffer k = t.fb.framebuffer k := by
  induction texts generalizing t a with
  | nil => exact ⟨t, rfl, h, fun _ _ => rfl⟩
  | cons buf texts ih =>
    obtain ⟨t₁, ht₁, h₁, houtside₁⟩ := flanterm_write_shows hfits hdraws h.toFollows buf
    obtain ⟨t₂, ht₂, h₂, houtside₂⟩ := ih h₁
    refine ⟨t₂, ?_, ?_, fun k hk => (houtside₂ k hk).trans (houtside₁ k hk)⟩
    · rw [Runs.exec_cons, ht₁, Option.bind_some, ht₂]
    · rw [List.flatten_cons, ScreenTerminal.write_append]
      exact h₂

/-! ## Section 4: Drawing everything again -/

/-- Without queued items every reader sees the grid. -/
theorem ShowsAll.view_eq (h : ShowsAll fb rows cols t a) :
    t.fb.buffer.map = (fun _ => none) ∧ t.fb.buffer.view cols = t.fb.buffer.grid := by
  have hmap : t.fb.buffer.map = fun _ => none := by
    funext i
    cases hq : t.fb.buffer.map i with
    | none => rfl
    | some q =>
      have hlt : q < t.fb.buffer.queue_i := (h.refines.ok.linked.pending i q hq).1
      rw [h.flushed] at hlt
      exact absurd hlt (Nat.not_lt_zero q)
  refine ⟨hmap, ?_⟩
  funext i
  have hslot : (t.fb.buffer.toBuffer cols).slot i = none := congrFun hmap i
  rw [FbBuffer.view, WriteBack.Buffer.view, hslot]
  rfl

/-- **The queue and the grid draw the same**: a screen that is up to date does not change
    when all of it is drawn again. -/
theorem ShowsAll.full_refresh_eq (h : ShowsAll fb rows cols t a) (hfits : fb.Fits rows cols)
    (hdraws : fb.Draws rows cols)
    (hborder : ∀ k, Outside fb rows cols k → Used fb k → t.fb.framebuffer k = fb.default_bg) :
    full_refresh fb t.term t.fb = some t.fb := by
  obtain ⟨hmap, hview⟩ := h.view_eq
  have hterm := h.term
  have hshows := h.refines.shows
  rw [hview] at hshows
  obtain ⟨term, s⟩ := t
  obtain rfl : term = a.term := hterm
  obtain rfl := h.rows_eq
  obtain rfl := h.cols_eq
  obtain ⟨mem, hrefresh, hdrawn, hused, hunused⟩ := full_refresh_spec hdraws hfits hmap
    (hshows.printable a.term.cols_pos h.printable)
  have hmem : mem = s.framebuffer := by
    funext k
    by_cases hk : Outside fb a.term.rows a.term.cols k
    · by_cases hin : Used fb k
      · rw [hused k hk hin, hborder k hk hin]
      · exact hunused k hk hin
    · -- A pixel of some place: both drawings show its character.
      simp only [Outside, not_forall, not_not] at hk
      obtain ⟨x, y, gy, gx, hx, hy, hgy, hgx, rfl⟩ := hk
      rw [hdrawn x y hx hy gy gx hgy hgx, h.drawn x y hx hy gy gx hgy hgx, ScreenTerminal.shown,
        hshows y hy x hx, ← h.refines.pen]
  rw [hrefresh, hmem]

end runs

end Flanterm

end ArgaldOS
