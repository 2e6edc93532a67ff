import ArgaldOS.Terminal.Sequences
import ArgaldOS.Terminal.Text

/-! # Commands to the screen

    Programs that draw on the whole screen put the cursor where they want it, and print,
    erase, insert and delete there.  All this is done with calls of the back end, in a
    context in which a full row does not make the screen scroll.

    * `write_command`: a control sequence is carried out;
    * `write_calls`: the same for one that changes no mode;
    * `write_cursorPosition`: the cursor is placed;
    * `write_text`: a text in a row.
-/

namespace ArgaldOS

namespace Flanterm

/-! ## Section 1: Commands -/

/-- The parameters of a sequence; one that is not given is `default`. -/
def parameters (ctx : FlantermContext) (default : UInt32) (params : List Nat) (i : Nat) : UInt32 :=
  if i < FLANTERM_MAX_ESC_VALUES then (params[i]?.map UInt32.ofNat).getD default
  else ctx.esc_values i

/-- The context in which a sequence is carried out: nothing scrolls when a row is full. -/
def FlantermContext.executing (ctx : FlantermContext) (offset : Nat) (values : Nat → UInt32)
    (i : Nat) : FlantermContext :=
  { ctx.inSequence offset values i false with scroll_enabled := false }

/-- The context after a sequence that changes no mode. -/
def FlantermContext.afterSequence (ctx : FlantermContext) (offset : Nat) (values : Nat → UInt32)
    (i : Nat) : FlantermContext :=
  { ctx with
    control_sequence := false
    escape           := false
    escape_offset    := offset
    esc_values       := values
    esc_values_i     := i
    rrr              := false }

/-- Scrolling is turned off. -/
def FlantermContext.still (ctx : FlantermContext) : FlantermContext :=
  { ctx with scroll_enabled := false }

/-- What the effect of a call depends on. -/
structure SameFrame (ctx ctx' : FlantermContext) : Prop where
  rows_eq       : ctx.rows = ctx'.rows
  cols_eq       : ctx.cols = ctx'.cols
  top_eq        : ctx.scroll_top_margin = ctx'.scroll_top_margin
  bottom_eq     : ctx.scroll_bottom_margin = ctx'.scroll_bottom_margin
  scroll_enabled_eq : ctx.scroll_enabled = ctx'.scroll_enabled

/-- The effect of calls that are all made in one context. -/
def Screen.performOps (fb : FbSettings) (ctx : FlantermContext) (screen : Screen) (ops : List Op) :
    Screen := (ctx.calls ops).foldl (perform fb) screen

section commands
variable (fb : FbSettings) {a : ScreenTerminal}

theorem performOps_cons (ctx : FlantermContext) (screen : Screen) (op : Op) (ops : List Op) :
    screen.performOps fb ctx (op :: ops)
      = (screen.perform fb (ctx.call op)).performOps fb ctx ops := rfl

/-- Calls in two parts. -/
theorem performOps_append (ctx : FlantermContext) (screen : Screen) (ops ops' : List Op) :
    screen.performOps fb ctx (ops ++ ops')
      = (screen.performOps fb ctx ops).performOps fb ctx ops' := by
  rw [Screen.performOps, FlantermContext.calls, List.map_append, List.foldl_append]
  rfl

/-- Calls in contexts that agree on it do the same. -/
theorem performOps_congr {ctx ctx' : FlantermContext} (h : SameFrame ctx ctx') (ops : List Op)
    (screen : Screen) : screen.performOps fb ctx ops = screen.performOps fb ctx' ops := by
  have hcall : ∀ op screen, Screen.perform fb screen (ctx.call op)
      = Screen.perform fb screen (ctx'.call op) := by
    intro op screen
    obtain ⟨hrows, hcols, htop, hbottom, hscroll⟩ := h
    cases ctx
    cases ctx'
    dsimp only at hrows hcols htop hbottom hscroll
    subst hrows hcols htop hbottom hscroll
    cases op
    all_goals rfl
  induction ops generalizing screen with
  | nil => rfl
  | cons op ops ih =>
    rw [performOps_cons, performOps_cons, hcall, ih]

/-- The missing parameters are filled in. -/
theorem fillDefaults_inSequence (ctx : FlantermContext) (offset : Nat) (default : UInt32)
    (params : List Nat) :
    (ctx.inSequence offset (keptValues ctx params) (min params.length FLANTERM_MAX_ESC_VALUES)
      false).fillDefaults default
      = ctx.inSequence offset (parameters ctx default params)
          (min params.length FLANTERM_MAX_ESC_VALUES) false := by
  have hvalues : ∀ i, (if min params.length FLANTERM_MAX_ESC_VALUES ≤ i
      ∧ i < FLANTERM_MAX_ESC_VALUES then default else keptValues ctx params i)
      = parameters ctx default params i := by
    intro i
    rw [keptValues, parameters]
    by_cases hi : i < FLANTERM_MAX_ESC_VALUES
    · rw [if_pos hi, if_pos hi]
      by_cases hgiven : i < params.length
      · rw [if_neg (by omega), List.getD_eq_getElem?_getD, List.getElem?_eq_getElem hgiven]
        rfl
      · rw [if_pos (by omega), List.getElem?_eq_none (by omega)]
        rfl
    · rw [if_neg (by omega), if_neg hi, if_neg hi]
  rw [← funext hvalues]
  rfl

/-- **A control sequence** that is no private one: the command is carried out with scrolling
    turned off. -/
theorem write_command (h : a.term.Ground) (hprivate : a.term.dec_private = false)
    (params : List Nat) {c : UInt8} (hc : Final c) : ∃ offset, a.write fb (csi params c) =
      let next := controlSequence (a.term.executing offset
          (parameters a.term (escDefault c) params) (min params.length FLANTERM_MAX_ESC_VALUES)) c
        (get_cursor_pos a.term a.screen.pen).1 (get_cursor_pos a.term a.screen.pen).2
      ⟨endSequence { next.1 with scroll_enabled := a.term.scroll_enabled },
        next.2.foldl (Screen.perform fb) a.screen⟩ := by
  obtain ⟨offset, hopened⟩ := write_opened fb h params c
  refine ⟨offset + 1, (hopened.trans (putchar_final fb h offset params hc)).trans ?_⟩
  have hpublic : ¬a.term.dec_private = true := by
    rw [hprivate]
    exact Bool.false_ne_true
  have hfinish : ∀ x y, finishSequence (a.term.inSequence (offset + 1) (keptValues a.term params)
      (min params.length FLANTERM_MAX_ESC_VALUES) false) c x y =
      let next := controlSequence (a.term.executing (offset + 1)
        (parameters a.term (escDefault c) params) (min params.length FLANTERM_MAX_ESC_VALUES)) c x y
      (endSequence { next.1 with scroll_enabled := a.term.scroll_enabled }, next.2) := by
    intro x y
    rw [finishSequence, fillDefaults_inSequence]
    exact if_neg hpublic
  simp only [hfinish]

/-- **A command** that changes no mode: its calls are made with scrolling turned off. -/
theorem write_calls (h : a.term.Ground) (hprivate : a.term.dec_private = false)
    (params : List Nat) {c : UInt8} (hc : Final c) {ops : List Op} {screen : Screen}
    (hscreen : a.screen.performOps fb a.term.still ops = screen)
    (hcontrol : ∀ offset i, ∃ values, controlSequence
        (a.term.executing offset (parameters a.term (escDefault c) params) i) c
        (get_cursor_pos a.term a.screen.pen).1 (get_cursor_pos a.term a.screen.pen).2
      = (a.term.executing offset values i, (a.term.executing offset values i).calls ops)) :
    ∃ offset values i, a.write fb (csi params c)
      = ⟨a.term.afterSequence offset values i, screen⟩ := by
  obtain ⟨offset, hwrite⟩ := write_command fb h hprivate params hc
  obtain ⟨values, hnext⟩ := hcontrol offset (min params.length FLANTERM_MAX_ESC_VALUES)
  refine ⟨offset, values, min params.length FLANTERM_MAX_ESC_VALUES, ?_⟩
  have hframe : SameFrame (a.term.executing offset values
      (min params.length FLANTERM_MAX_ESC_VALUES)) a.term.still := ⟨rfl, rfl, rfl, rfl, rfl⟩
  rw [hwrite, hnext, ← hscreen]
  exact congrArg (ScreenTerminal.mk _) (performOps_congr fb hframe ops a.screen)

/-! ## Section 2: The cursor -/

/-- A parameter that is set under a condition. -/
theorem ite_setValue (ctx : FlantermContext) (p : Prop) [Decidable p] (k : Nat) (v : UInt32) :
    (if p then ctx.setValue k v else ctx)
      = { ctx with
          esc_values := if p then Function.update ctx.esc_values k v else ctx.esc_values } := by
  split
  · rfl
  · rfl

section values
variable {e : Nat → UInt32} {p : Prop} [Decidable p] {k : Nat} {v : UInt32}

theorem ite_update_self : (if p then Function.update e k v else e) k = if p then v else e k := by
  split
  · exact Function.update_self ..
  · rfl

theorem ite_update_of_ne {j : Nat} (hj : j ≠ k) :
    (if p then Function.update e k v else e) j = e j := by
  split
  · exact Function.update_of_ne hj _ _
  · rfl

end values

/-- A coordinate that counts from one. -/
theorem toNat_pred (v : UInt32) : (if v ≠ 0 then v - 1 else v).toNat = v.toNat - 1 := by
  split
  · next hv =>
    have hpos : v.toNat ≠ 0 := fun hzero => hv (UInt32.toNat_inj.mp hzero)
    have hle : (1 : UInt32) ≤ v := UInt32.le_iff_toNat_le.mpr (Nat.one_le_iff_ne_zero.mpr hpos)
    rw [UInt32.toNat_sub_of_le _ _ hle]
    rfl
  · next hv =>
    rw [not_not.mp hv]
    rfl

/-- A coordinate that must be inside the screen. -/
theorem toNat_place (v : UInt32) {limit : Nat} (hlimit : limit ≤ 2 ^ 32) :
    (if v.toNat - 1 ≥ limit then UInt32.ofNat (limit - 1) else if v ≠ 0 then v - 1 else v).toNat
      = min (v.toNat - 1) (limit - 1) := by
  split
  · rw [UInt32.toNat_ofNat', Nat.mod_eq_of_lt (by omega)]
    omega
  · rw [toNat_pred]
    omega

/-- The cursor goes where the parameters say, or to the border if that is outside. -/
theorem cursorPosition_eq (ctx : FlantermContext) (hrows : ctx.rows ≤ 2 ^ 32)
    (hcols : ctx.cols ≤ 2 ^ 32) : ∃ values,
    cursorPosition ctx = ({ ctx with esc_values := values },
      { ctx with esc_values := values }.calls
        [.set_cursor_pos (min (ctx.value 1 - 1) (ctx.cols - 1))
          (min (ctx.value 0 - 1) (ctx.rows - 1))]) := by
  have hne : (1 : Nat) ≠ 0 := Nat.one_ne_zero
  simp only [cursorPosition, ite_setValue, FlantermContext.value, ite_update_self,
    ite_update_of_ne hne, ite_update_of_ne hne.symm, toNat_pred, toNat_place _ hrows,
    toNat_place _ hcols]
  exact ⟨_, rfl⟩

/-- A place inside the screen. -/
theorem clampPos_of_lt {x limit : Nat} (h : x < limit) : clampPos x limit = x :=
  if_neg (Nat.not_le_of_lt h)

/-- The cursor of the screen is where it is told to be. -/
def Screen.place (screen : Screen) (x y : Nat) : Screen :=
  { screen with pen := { screen.pen with cursor_x := x, cursor_y := y } }

/-- A call that places the cursor. -/
theorem performOps_place (ctx : FlantermContext) (screen : Screen) {x y : Nat} (hx : x < ctx.cols)
    (hy : y < ctx.rows) : screen.performOps fb ctx [.set_cursor_pos x y] = screen.place x y := by
  show ({ screen with pen := set_cursor_pos ctx screen.pen x y } : Screen) = _
  rw [set_cursor_pos, clampPos_of_lt hx, clampPos_of_lt hy]
  rfl

/-- **The cursor is placed**: rows and columns count from one, and a place outside the screen
    is at its border. -/
theorem write_cursorPosition (h : a.term.Ground) (hprivate : a.term.dec_private = false)
    (hrows : a.term.rows ≤ 2 ^ 32) (hcols : a.term.cols ≤ 2 ^ 32) (row column : Nat) :
    ∃ offset values i, a.write fb (csi [row, column] 0x48)
      = ⟨a.term.afterSequence offset values i,
          a.screen.place (min (column % 2 ^ 32 - 1) (a.term.cols - 1))
            (min (row % 2 ^ 32 - 1) (a.term.rows - 1))⟩ := by
  have hx : min (column % 2 ^ 32 - 1) (a.term.cols - 1) < a.term.still.cols :=
    (Nat.min_le_right _ _).trans_lt (Nat.sub_lt a.term.cols_pos Nat.one_pos)
  have hy : min (row % 2 ^ 32 - 1) (a.term.rows - 1) < a.term.still.rows :=
    (Nat.min_le_right _ _).trans_lt (Nat.sub_lt a.term.rows_pos Nat.one_pos)
  apply write_calls fb h hprivate [row, column] (by decide)
    (performOps_place fb a.term.still a.screen hx hy)
  intro offset i
  obtain ⟨values, hcursor⟩ := cursorPosition_eq
    (a.term.executing offset (parameters a.term (escDefault 0x48) [row, column]) i) hrows hcols
  exact ⟨values, hcursor⟩

/-- The screen has its cursor in column `x` of row `y`. -/
def Screen.CursorAt (screen : Screen) (ctx : FlantermContext) (x y : Nat) : Prop :=
  (x < ctx.cols ∧ y < ctx.rows) ∧ screen.pen.cursor_x = x ∧ screen.pen.cursor_y = y

section cursor
variable {x y : Nat}

/-- The front end is told where the cursor is. -/
theorem Screen.CursorAt.get (hcursor : a.screen.CursorAt a.term x y) :
    get_cursor_pos a.term a.screen.pen = (x, y) := by
  obtain ⟨⟨hx, hy⟩, hpx, hpy⟩ := hcursor
  rw [get_cursor_pos, hpx, hpy, if_neg (Nat.not_le_of_lt hx), if_neg (Nat.not_le_of_lt hy)]

theorem Screen.CursorAt.place (hcursor : a.screen.CursorAt a.term x y) :
    a.screen.place x y = a.screen := by
  obtain ⟨-, rfl, rfl⟩ := hcursor
  rfl

theorem vga_cursor : ScreenTerminal.vga.screen.CursorAt ScreenTerminal.vga.term 0 0 :=
  ⟨⟨by decide, by decide⟩, rfl, rfl⟩

/-- A parameter that fits into 32 bits. -/
theorem value_executing (ctx : FlantermContext) (offset i : Nat) (default : UInt32) {n : Nat}
    (hn : n < 2 ^ 32) : (ctx.executing offset (parameters ctx default [n]) i).value 0 = n := by
  show (UInt32.ofNat n).toNat = n
  rw [UInt32.toNat_ofNat']
  exact Nat.mod_eq_of_lt hn

/-- A parameter that must not be larger than `m`. -/
theorem limited_eq (ctx : FlantermContext) {m : Nat} (hm : m < 2 ^ 32) {p : Prop} [Decidable p]
    (hp : p ↔ m < ctx.value 0) : ∃ values,
      (if p then ctx.setValue 0 (UInt32.ofNat m) else ctx) = { ctx with esc_values := values } ∧
        (values 0).toNat = min (ctx.value 0) m := by
  refine ⟨_, ite_setValue ctx p 0 _, ?_⟩
  rw [ite_update_self]
  split
  · next hlarge =>
    rw [UInt32.toNat_ofNat', Nat.mod_eq_of_lt hm, Nat.min_eq_right (Nat.le_of_lt (hp.mp hlarge))]
  · next hsmall => exact (Nat.min_eq_left (Nat.le_of_not_lt fun hlt => hsmall (hp.mpr hlt))).symm

/-- The `n`-th row above row `y`.  From below the upper margin the cursor does not go beyond
    it. -/
def rowUp (top y n : Nat) : Nat := if top ≤ y then max top (y - n) else y - n

/-- The `n`-th row below row `y`.  From above the lower margin the cursor does not go beyond
    it, and from the row right below it the cursor goes back above it. -/
def rowDown (rows bottom y n : Nat) : Nat :=
  if y ≤ bottom ∧ bottom ≤ min (y + n) (rows - 1) then bottom - 1 else min (y + n) (rows - 1)

/-- The cursor goes up. -/
theorem cursorUp_eq (ctx : FlantermContext)
    (hmargins : ctx.scroll_top_margin < ctx.scroll_bottom_margin) (hrows : ctx.rows ≤ 2 ^ 32)
    (x : Nat) (hy : y < ctx.rows) : ∃ values, cursorUp ctx x y
      = ({ ctx with esc_values := values }, { ctx with esc_values := values }.calls
          [.set_cursor_pos x (rowUp ctx.scroll_top_margin y (ctx.value 0))]) := by
  obtain ⟨values, hctx, hvalue⟩ := limited_eq ctx (hy.trans_le hrows) Iff.rfl
  refine ⟨values, ?_⟩
  have hrow : (if ((ctx.scroll_top_margin ≥ y - (values 0).toNat ∧ ctx.scroll_top_margin ≤ y) ∨
        (ctx.scroll_bottom_margin ≥ y - (values 0).toNat ∧ ctx.scroll_bottom_margin ≤ y)) ∧
        y - (values 0).toNat < ctx.scroll_top_margin then ctx.scroll_top_margin
      else y - (values 0).toNat) = rowUp ctx.scroll_top_margin y (ctx.value 0) := by
    rw [rowUp, hvalue]
    split <;> split <;> omega
  simp only [cursorUp, hctx, ← hrow]
  rfl

/-- The cursor goes down. -/
theorem cursorDown_eq (ctx : FlantermContext)
    (hmargins : ctx.scroll_top_margin < ctx.scroll_bottom_margin) (hrows : ctx.rows ≤ 2 ^ 32)
    (hbottom : ctx.scroll_bottom_margin ≤ ctx.rows) (x : Nat) (hy : y < ctx.rows) :
    ∃ values, cursorDown ctx x y
      = ({ ctx with esc_values := values }, { ctx with esc_values := values }.calls
          [.set_cursor_pos x (rowDown ctx.rows ctx.scroll_bottom_margin y (ctx.value 0))]) := by
  obtain ⟨values, hctx, hvalue⟩ := limited_eq ctx (m := ctx.rows - 1 - y) (by omega)
    (show y + ctx.value 0 > ctx.rows - 1 ↔ _ by omega)
  refine ⟨values, ?_⟩
  have hlast : sizeSub ctx.scroll_bottom_margin 1 = ctx.scroll_bottom_margin - 1 :=
    sizeSub_of_le (by omega) (by omega)
  have hrow : (if ((ctx.scroll_top_margin ≥ y ∧ ctx.scroll_top_margin ≤ y + (values 0).toNat) ∨
        (ctx.scroll_bottom_margin ≥ y ∧ ctx.scroll_bottom_margin ≤ y + (values 0).toNat)) ∧
        y + (values 0).toNat ≥ ctx.scroll_bottom_margin then sizeSub ctx.scroll_bottom_margin 1
      else y + (values 0).toNat)
      = rowDown ctx.rows ctx.scroll_bottom_margin y (ctx.value 0) := by
    rw [rowDown, hvalue, hlast]
    split <;> split <;> omega
  simp only [cursorDown, hctx, ← hrow]
  rfl

/-- The cursor goes right. -/
theorem cursorRight_eq (ctx : FlantermContext) (hcols : ctx.cols ≤ 2 ^ 32) (hx : x < ctx.cols)
    (y : Nat) : ∃ values, cursorRight ctx x y
      = ({ ctx with esc_values := values }, { ctx with esc_values := values }.calls
          [.set_cursor_pos (min (x + ctx.value 0) (ctx.cols - 1)) y]) := by
  obtain ⟨values, hctx, hvalue⟩ := limited_eq ctx (m := ctx.cols - 1 - x) (by omega)
    (show x + ctx.value 0 > ctx.cols - 1 ↔ _ by omega)
  have hcolumn : x + (values 0).toNat = min (x + ctx.value 0) (ctx.cols - 1) := by omega
  refine ⟨values, ?_⟩
  simp only [cursorRight, hctx, ← hcolumn]
  rfl

/-- The cursor goes left. -/
theorem cursorLeft_eq (ctx : FlantermContext) (hcols : ctx.cols ≤ 2 ^ 32) (hx : x < ctx.cols)
    (y : Nat) : ∃ values, cursorLeft ctx x y
      = ({ ctx with esc_values := values }, { ctx with esc_values := values }.calls
          [.set_cursor_pos (x - ctx.value 0) y]) := by
  obtain ⟨values, hctx, hvalue⟩ := limited_eq ctx (hx.trans_le hcols) Iff.rfl
  have hcolumn : x - (values 0).toNat = x - ctx.value 0 := by omega
  refine ⟨values, ?_⟩
  simp only [cursorLeft, hctx, ← hcolumn]
  rfl

end cursor

/-! ## Section 3: Rows -/

/-- Characters in row `y`, from column `x` on. -/
def rowText (cell : Nat → Nat → FlantermFbChar) (y x : Nat) (glyphs : List UInt8) (fg bg : UInt32) :
    Nat → Nat → FlantermFbChar := fun y' x' =>
  if y' = y ∧ x ≤ x' ∧ x' < x + glyphs.length then glyphChar fg bg glyphs[x' - x]?
  else cell y' x'

/-- **Glyphs in a row** that has room for them. -/
theorem prints_row (ctx : FlantermContext) (screen : Screen) (glyphs : List UInt8)
    (hroom : screen.pen.cursor_x + glyphs.length ≤ ctx.cols) : screen.prints ctx glyphs =
      { cell := rowText screen.cell screen.pen.cursor_y screen.pen.cursor_x glyphs
          screen.pen.text_fg screen.pen.text_bg
        pen := { screen.pen with cursor_x := screen.pen.cursor_x + glyphs.length } } := by
  induction glyphs generalizing screen with
  | nil =>
    have hcell : rowText screen.cell screen.pen.cursor_y screen.pen.cursor_x []
        screen.pen.text_fg screen.pen.text_bg = screen.cell := by
      funext y x
      rw [rowText, if_neg]
      intro hin
      exact absurd hin.2.2 (Nat.not_lt_of_le hin.2.1)
    rw [hcell]
    rfl
  | cons g glyphs ih =>
    rw [List.length_cons] at hroom
    have hrest := ih (screen.print ctx g)
    rw [Screen.print_of_lt (by omega)] at hrest
    show (screen.print ctx g).prints ctx glyphs = _
    rw [Screen.print_of_lt (by omega), hrest (by show _ + 1 + _ ≤ _; omega)]
    have hlength : screen.pen.cursor_x + 1 + glyphs.length
        = screen.pen.cursor_x + (glyphs.length + 1) := by omega
    have hcell : rowText (Screen.put screen.cell screen.pen.cursor_y screen.pen.cursor_x
          ⟨g.toUInt32, screen.pen.text_fg, screen.pen.text_bg⟩)
          screen.pen.cursor_y (screen.pen.cursor_x + 1) glyphs screen.pen.text_fg screen.pen.text_bg
        = rowText screen.cell screen.pen.cursor_y screen.pen.cursor_x (g :: glyphs)
            screen.pen.text_fg screen.pen.text_bg := by
      funext y x
      rw [rowText, rowText, Screen.put_apply, List.length_cons]
      rcases Nat.lt_trichotomy x screen.pen.cursor_x with hlt | rfl | hgt
      · rw [if_neg (by omega), if_neg (by omega), if_neg (by omega)]
      · rw [if_neg (by omega), Nat.sub_self]
        simp [glyphChar]
      · have hindex : x - screen.pen.cursor_x = x - (screen.pen.cursor_x + 1) + 1 := by omega
        rw [hindex, List.getElem?_cons_succ, hlength]
        simp only [show screen.pen.cursor_x + 1 ≤ x ↔ screen.pen.cursor_x ≤ x by omega]
        rw [if_neg (show ¬(y = screen.pen.cursor_y ∧ x = screen.pen.cursor_x) by omega)]
    exact congr (congrArg Screen.mk hcell)
      (congrArg (fun x => ({ screen.pen with cursor_x := x } : FbPen)) hlength)

/-- After a sequence characters are printed as before. -/
theorem FlantermContext.Plain.afterSequence (h : a.term.Plain) (offset : Nat)
    (values : Nat → UInt32) (i : Nat) : (a.term.afterSequence offset values i).Plain :=
  { h with escape := rfl, control_sequence := rfl }

/-- **A text in a row** that has room for it: nothing else changes. -/
theorem write_text (h : a.term.Plain) {text : List Char} (htext : ∀ c ∈ text, Graphic c)
    (hroom : a.screen.pen.cursor_x + (lineGlyphs text).length ≤ a.term.cols) : ∃ cp,
      a.write fb (text.flatMap String.utf8EncodeChar) = ⟨a.term.decoding 0 cp,
        { cell := rowText a.screen.cell a.screen.pen.cursor_y a.screen.pen.cursor_x
            (lineGlyphs text) a.screen.pen.text_fg a.screen.pen.text_bg
          pen := { a.screen.pen with
            cursor_x := a.screen.pen.cursor_x + (lineGlyphs text).length } }⟩ := by
  obtain ⟨cp, hwrite⟩ := write_chars fb h htext
  exact ⟨cp, hwrite.trans
    (congrArg (ScreenTerminal.mk _) (prints_row a.term a.screen (lineGlyphs text) hroom))⟩

end commands

end Flanterm

end ArgaldOS
