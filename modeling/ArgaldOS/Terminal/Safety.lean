import ArgaldOS.Terminal.Refinement

/-! # The front end stays inside its arrays

    `FlantermContext.Ok` is what holds of the context between two bytes: the margins are
    inside the screen, the numbers of colours and character sets exist, and a
    parameter that is being read has a place in `esc_values`.  Every byte keeps it,
    whatever the state, and every call that the front end makes is valid.

    * `flanterm_putchar_emits`: the step;
    * `sgr_emits`, `controlSequence_emits`, `escape_parse_emits`: its parts.
-/

namespace ArgaldOS

namespace Flanterm

/-! ## Section 1: The invariant -/

/-- The number of a colour, or `(size_t)-1`. -/
def Colour (n : Nat) : Prop := n < 8 ∨ n = SIZE_MAX

/-- The invariant of the context. -/
structure FlantermContext.Ok (ctx : FlantermContext) : Prop where
  autoflush                   : ctx.autoflush = true
  tab_size                    : 0 < ctx.tab_size
  unicode_remaining           : ctx.unicode_remaining ≤ 3
  g_select                    : ctx.g_select.toNat ≤ 2
  current_charset             : ctx.current_charset < 2
  saved_state_current_charset : ctx.saved_state_current_charset < 2
  esc_values_i                : ctx.esc_values_i ≤ FLANTERM_MAX_ESC_VALUES
  rrr                         : ctx.rrr = true → ctx.esc_values_i < FLANTERM_MAX_ESC_VALUES
  top                         : ctx.scroll_top_margin < ctx.scroll_bottom_margin
  bottom                      : ctx.scroll_bottom_margin ≤ ctx.rows
  current_primary             : Colour ctx.current_primary
  current_bg                  : Colour ctx.current_bg
  saved_state_current_primary : Colour ctx.saved_state_current_primary
  saved_state_current_bg      : Colour ctx.saved_state_current_bg

/-- What a function of the front end does with a context: it keeps the invariant and the
    size of the screen, and makes valid calls. -/
structure Emits (ctx : FlantermContext) (next : FlantermContext × List Call) : Prop where
  ok      : next.1.Ok
  rows_eq : next.1.rows = ctx.rows
  cols_eq : next.1.cols = ctx.cols
  calls   : ∀ call ∈ next.2, call.Valid ctx.rows ctx.cols

variable {ctx ctx' : FlantermContext}

theorem FlantermContext.Ok.call (h : ctx.Ok) (op : Op) (hop : op.InPalette) :
    (ctx.call op).Valid ctx.rows ctx.cols where
  rows_eq := rfl
  cols_eq := rfl
  top     := h.top.trans_le h.bottom
  bottom  := ⟨Nat.zero_lt_of_lt h.top, h.bottom⟩
  margins := fun _ => h.top
  colour  := hop

section emits
variable {next : FlantermContext × List Call}

/-- A function whose calls are made in the context that it leaves. -/
theorem Emits.of_calls (ops : List Op) (hok : next.1.Ok) (hrows : next.1.rows = ctx.rows)
    (hcols : next.1.cols = ctx.cols) (hcalls : next.2 = next.1.calls ops)
    (hops : ∀ op ∈ ops, op.InPalette) : Emits ctx next where
  ok      := hok
  rows_eq := hrows
  cols_eq := hcols
  calls   := by
    intro call hcall
    rw [hcalls] at hcall
    obtain ⟨op, hop, rfl⟩ := List.mem_map.mp hcall
    rw [← hrows, ← hcols]
    exact hok.call op (hops op hop)

/-- A function that makes one call. -/
theorem Emits.single (op : Op) (hok : next.1.Ok) (hrows : next.1.rows = ctx.rows)
    (hcols : next.1.cols = ctx.cols) (hcalls : next.2 = next.1.calls [op])
    (hop : op.InPalette) : Emits ctx next :=
  Emits.of_calls [op] hok hrows hcols hcalls fun _ hmem => List.mem_singleton.mp hmem ▸ hop

/-- A function that makes no call. -/
theorem Emits.silent (hok : next.1.Ok) (hrows : next.1.rows = ctx.rows)
    (hcols : next.1.cols = ctx.cols) (hcalls : next.2 = []) : Emits ctx next :=
  Emits.of_calls [] hok hrows hcols hcalls fun _ hmem => absurd hmem List.not_mem_nil

/-- A case distinction. -/
theorem Emits.ite {p : Prop} [Decidable p] {next' : FlantermContext × List Call}
    (hpos : p → Emits ctx next) (hneg : ¬p → Emits ctx next') :
    Emits ctx (if p then next else next') := by
  split
  · next hp => exact hpos hp
  · next hp => exact hneg hp

/-- One function after the other. -/
theorem Emits.append {calls : List Call}
    (hcalls : ∀ call ∈ calls, call.Valid ctx.rows ctx.cols) (h : Emits ctx next) :
    Emits ctx (next.1, calls ++ next.2) where
  ok      := h.ok
  rows_eq := h.rows_eq
  cols_eq := h.cols_eq
  calls   := by
    intro call hcall
    rcases List.mem_append.mp hcall with hcall | hcall
    · exact hcalls call hcall
    · exact h.calls call hcall

/-- The same function, seen from a context of the same size. -/
theorem Emits.congr (h : Emits ctx' next)
    (hrows : ctx'.rows = ctx.rows) (hcols : ctx'.cols = ctx.cols) : Emits ctx next where
  ok      := h.ok
  rows_eq := h.rows_eq.trans hrows
  cols_eq := h.cols_eq.trans hcols
  calls   := by
    intro call hcall
    rw [← hrows, ← hcols]
    exact h.calls call hcall

end emits

/-! ## Section 2: Colours -/

theorem sgrDefault_emits (h : ctx.Ok) : Emits ctx (sgrDefault ctx) := by
  have hok : (sgrDefault ctx).1.Ok :=
    { h with current_primary := Or.inr rfl, current_bg := Or.inr rfl }
  have hunswapped : FlantermContext.Ok { ctx with reverse_video := false } := { h with }
  refine ⟨hok, rfl, rfl, ?_⟩
  intro call hcall
  rcases List.mem_append.mp hcall with hswap | hset
  · split at hswap
    · obtain rfl := List.mem_singleton.mp hswap
      exact hunswapped.call _ trivial
    · cases hswap
  · obtain ⟨op, hop, rfl⟩ := List.mem_map.mp hset
    simp only [List.mem_cons, List.not_mem_nil, or_false] at hop
    rcases hop with rfl | rfl
    all_goals exact hok.call _ trivial

theorem setFg_inPalette {n : Nat} (hn : n < 8) : (setFg ctx n).InPalette := by
  rw [setFg]
  split
  all_goals exact hn

theorem setBg_inPalette {n : Nat} (hn : n < 8) : (setBg ctx n).InPalette := by
  rw [setBg]
  split
  all_goals exact hn

theorem Colour.lt {n : Nat} (h : Colour n) (hn : n ≠ SIZE_MAX) : n < 8 := h.resolve_right hn

theorem swapped_inPalette {op : Op} (h : op.InPalette) : ∀ op' ∈ swapped ctx op, op'.InPalette := by
  intro op' hop'
  rw [swapped] at hop'
  split at hop'
  · simp only [List.mem_cons, List.not_mem_nil, or_false] at hop'
    rcases hop' with rfl | rfl | rfl
    · trivial
    · exact h
    · trivial
  · rw [List.mem_singleton.mp hop']
    exact h

theorem textColour_inPalette (fg bright : Bool) {n : Nat} (hn : n < 8) :
    (textColour fg bright n).InPalette := by
  cases fg <;> cases bright <;> exact hn

theorem defaultColour_inPalette (fg bright : Bool) : (defaultColour fg bright).InPalette := by
  cases fg <;> cases bright <;> trivial

theorem sgrBold_emits (h : ctx.Ok) (bold : Bool) : Emits ctx (sgrBold ctx bold) := by
  refine Emits.single _ { h with } rfl rfl rfl ?_
  split
  · next hne => exact textColour_inPalette _ _ (h.current_primary.lt hne)
  · exact defaultColour_inPalette _ _

theorem sgrBgBold_emits (h : ctx.Ok) (bg_bold : Bool) : Emits ctx (sgrBgBold ctx bg_bold) := by
  refine Emits.single _ { h with } rfl rfl rfl ?_
  split
  · next hne => exact textColour_inPalette _ _ (h.current_bg.lt hne)
  · exact defaultColour_inPalette _ _

theorem sgrReverse_emits (h : ctx.Ok) (reverse_video : Bool) :
    Emits ctx (sgrReverse ctx reverse_video) := by
  rw [sgrReverse]
  split
  · exact Emits.silent h rfl rfl rfl
  · exact Emits.single .swap_palette { h with } rfl rfl rfl trivial

/-- A colour of the text. -/
theorem sgrPrimary_emits (h : ctx.Ok) {n : Nat} (hn : n < 8) :
    Emits ctx (sgrPrimary ctx n) ∧ Emits ctx (sgrPrimaryBright ctx n) := by
  constructor
  · refine Emits.single _ { h with current_primary := Or.inl hn } rfl rfl rfl ?_
    split
    · exact setBg_inPalette hn
    · exact setFg_inPalette hn
  · exact Emits.single _ { h with current_primary := Or.inl hn } rfl rfl rfl
      (textColour_inPalette _ _ hn)

/-- A colour of the background. -/
theorem sgrBg_emits (h : ctx.Ok) {n : Nat} (hn : n < 8) :
    Emits ctx (sgrBg ctx n) ∧ Emits ctx (sgrBgBright ctx n) := by
  constructor
  · refine Emits.single _ { h with current_bg := Or.inl hn } rfl rfl rfl ?_
    split
    · exact setFg_inPalette hn
    · exact setBg_inPalette hn
  · exact Emits.single _ { h with current_bg := Or.inl hn } rfl rfl rfl
      (textColour_inPalette _ _ hn)

/-- One value of `sgr`. -/
theorem sgrValue_emits (h : ctx.Ok) (v : Nat) : Emits ctx (sgrValue ctx v) := by
  rw [sgrValue]
  refine Emits.ite (fun _ => sgrDefault_emits h) fun _ => ?_
  refine Emits.ite (fun _ => sgrBold_emits h true) fun _ => ?_
  refine Emits.ite (fun _ => sgrBgBold_emits h true) fun _ => ?_
  refine Emits.ite (fun _ => sgrBold_emits h false) fun _ => ?_
  refine Emits.ite (fun _ => sgrBgBold_emits h false) fun _ => ?_
  refine Emits.ite (fun _ => (sgrPrimary_emits h (by omega)).1) fun _ => ?_
  refine Emits.ite (fun _ => (sgrBg_emits h (by omega)).1) fun _ => ?_
  refine Emits.ite (fun _ => (sgrPrimary_emits h (by omega)).2) fun _ => ?_
  refine Emits.ite (fun _ => (sgrBg_emits h (by omega)).2) fun _ => ?_
  refine Emits.ite (fun _ => ?_) fun _ => Emits.ite (fun _ => ?_) fun _ => ?_
  · exact Emits.of_calls _ { h with current_primary := Or.inr rfl } rfl rfl rfl
      (swapped_inPalette (defaultColour_inPalette _ _))
  · exact Emits.of_calls _ { h with current_bg := Or.inr rfl } rfl rfl rfl
      (swapped_inPalette (defaultColour_inPalette _ _))
  · refine Emits.ite (fun _ => sgrReverse_emits h true) fun _ => ?_
    exact Emits.ite (fun _ => sgrReverse_emits h false) fun _ => Emits.silent h rfl rfl rfl

theorem sgrColour_inPalette (fg : Bool) (col : UInt32) :
    ∀ op ∈ sgrColour fg col, op.InPalette := by
  intro op hop
  by_cases h8 : col < 8
  · rw [sgrColour, if_pos h8] at hop
    rw [List.mem_singleton.mp hop]
    exact textColour_inPalette _ _ (UInt32.lt_iff_toNat_lt.mp h8)
  by_cases h16 : col < 16
  · rw [sgrColour, if_neg h8, if_pos h16] at hop
    rw [List.mem_singleton.mp hop]
    have hge : 8 ≤ col := UInt32.not_lt.mp h8
    have hlt : col.toNat < 16 := UInt32.lt_iff_toNat_lt.mp h16
    have hsub : (col - 8).toNat = col.toNat - 8 := UInt32.toNat_sub_of_le _ _ hge
    exact textColour_inPalette _ _ (by omega)
  by_cases h256 : col < 256
  · rw [sgrColour, if_neg h8, if_neg h16, if_pos h256] at hop
    rw [List.mem_singleton.mp hop]
    cases fg <;> trivial
  · rw [sgrColour, if_neg h8, if_neg h16, if_neg h256] at hop
    cases hop

theorem sgrRgb_inPalette (fg : Bool) (r g b : UInt32) : ∀ op ∈ sgrRgb fg r g b, op.InPalette := by
  intro op hop
  rw [List.mem_singleton.mp hop]
  cases fg <;> trivial

/-- **The loop of `sgr`**. -/
theorem sgrLoop_emits (vs : List UInt32) (h : ctx.Ok) : Emits ctx (sgrLoop vs ctx) := by
  have hcalls : ∀ {ctx : FlantermContext} {ops : List Op}, ctx.Ok → (∀ op ∈ ops, op.InPalette) →
      ∀ call ∈ ctx.calls ops, call.Valid ctx.rows ctx.cols := fun h hops =>
    (show Emits _ (_, _) from Emits.of_calls _ h rfl rfl rfl hops).calls
  induction vs, ctx using sgrLoop.induct with
  | case1 ctx => exact Emits.silent h rfl rfl rfl
  | case2 v ctx hv =>
    rw [sgrLoop.eq_def]
    exact Emits.ite (fun _ => Emits.silent h rfl rfl rfl) fun hne => absurd hv hne
  | case3 v ctx hv r g b rest ih =>
    rw [sgrLoop.eq_def]
    refine Emits.ite (fun _ => Emits.ite (fun _ => ?_) fun h2 => absurd rfl h2)
      fun hne => absurd hv hne
    exact Emits.append (hcalls h (sgrRgb_inPalette _ r g b)) (ih h)
  | case4 v ctx hv rest hrest =>
    rw [sgrLoop.eq_def]
    refine Emits.ite (fun _ => Emits.ite (fun _ => ?_) fun h2 => absurd rfl h2)
      fun hne => absurd hv hne
    split
    · next r g b rest => exact absurd rfl (hrest r g b rest)
    · exact Emits.silent h rfl rfl rfl
  | case5 v ctx hv col rest hne ih =>
    rw [sgrLoop.eq_def]
    refine Emits.ite (fun _ => Emits.ite (fun h2 => absurd h2 hne) fun _ =>
      Emits.ite (fun _ => ?_) fun h5 => absurd rfl h5) fun hne => absurd hv hne
    exact Emits.append (hcalls h (sgrColour_inPalette _ col)) (ih h)
  | case6 v ctx hv hne =>
    rw [sgrLoop.eq_def]
    exact Emits.ite (fun _ => Emits.ite (fun h2 => absurd h2 hne) fun _ =>
      Emits.ite (fun _ => Emits.silent h rfl rfl rfl) fun h5 => absurd rfl h5)
      fun hne => absurd hv hne
  | case7 v ctx hv mode rest h2 h5 ih =>
    rw [sgrLoop.eq_def]
    exact Emits.ite (fun _ => Emits.ite (fun h => absurd h h2) fun _ =>
      Emits.ite (fun h => absurd h h5) fun _ => ih h) fun hne => absurd hv hne
  | case8 v rest ctx hv one ih =>
    rw [sgrLoop.eq_def]
    refine Emits.ite (fun h => absurd h hv) fun _ => ?_
    have hone : Emits ctx one := sgrValue_emits h v.toNat
    exact Emits.append hone.calls ((ih hone.ok).congr hone.rows_eq hone.cols_eq)

theorem sgr_emits (h : ctx.Ok) : Emits ctx (sgr ctx) := by
  rw [sgr]
  split
  · exact sgrDefault_emits h
  · exact sgrLoop_emits _ h

/-! ## Section 3: Control sequences -/

/-- The invariant and the size of the screen are kept. -/
structure Keeps (ctx ctx' : FlantermContext) : Prop where
  ok      : ctx'.Ok
  rows_eq : ctx'.rows = ctx.rows
  cols_eq : ctx'.cols = ctx.cols

theorem Keeps.refl (h : ctx.Ok) : Keeps ctx ctx := ⟨h, rfl, rfl⟩

theorem Keeps.setValue (h : Keeps ctx ctx') (i : Nat) (v : UInt32) :
    Keeps ctx (ctx'.setValue i v) :=
  ⟨{ h.ok with }, h.rows_eq, h.cols_eq⟩

theorem Keeps.ite {c c' : FlantermContext} {p : Prop} [Decidable p] (hpos : Keeps ctx c)
    (hneg : Keeps ctx c') : Keeps ctx (if p then c else c') := by
  split
  · exact hpos
  · exact hneg

theorem Keeps.setIf (h : Keeps ctx ctx') (p : Prop) [Decidable p] (i : Nat) (v : UInt32) :
    Keeps ctx (if p then ctx'.setValue i v else ctx') :=
  Keeps.ite (h.setValue i v) h

theorem Emits.of_keeps {next : FlantermContext × List Call} (h : Keeps ctx next.1) {ops : List Op}
    (hcalls : next.2 = next.1.calls ops) (hops : ∀ op ∈ ops, op.InPalette) : Emits ctx next :=
  Emits.of_calls _ h.ok h.rows_eq h.cols_eq hcalls hops

/-- The functions that only move the cursor. -/
theorem Emits.cursor {next : FlantermContext × List Call} (h : Keeps ctx next.1) {x y : Nat}
    (hcalls : next.2 = next.1.calls [.set_cursor_pos x y]) : Emits ctx next :=
  Emits.single _ h.ok h.rows_eq h.cols_eq hcalls trivial

section commands
variable (h : ctx.Ok) (x y : Nat)
include h

theorem cursorUp_emits : Emits ctx (cursorUp ctx x y) :=
  Emits.cursor ((Keeps.refl h).setIf _ _ _) rfl

theorem cursorDown_emits : Emits ctx (cursorDown ctx x y) :=
  Emits.cursor ((Keeps.refl h).setIf _ _ _) rfl

theorem cursorRight_emits : Emits ctx (cursorRight ctx x y) :=
  Emits.cursor ((Keeps.refl h).setIf _ _ _) rfl

theorem cursorLeft_emits : Emits ctx (cursorLeft ctx x y) :=
  Emits.cursor ((Keeps.refl h).setIf _ _ _) rfl

theorem cursorRow_emits : Emits ctx (cursorRow ctx x) :=
  Emits.cursor (((Keeps.refl h).setValue _ _).setIf _ _ _) rfl

theorem cursorColumn_emits : Emits ctx (cursorColumn ctx y) :=
  Emits.cursor (((Keeps.refl h).setValue _ _).setIf _ _ _) rfl

theorem cursorPosition_emits : Emits ctx (cursorPosition ctx) :=
  Emits.cursor (((((Keeps.refl h).setIf _ _ _).setIf _ _ _).setIf _ _ _).setIf _ _ _) rfl

theorem deleteLines_emits : Emits ctx (deleteLines ctx) :=
  Emits.of_keeps (Keeps.refl h) rfl fun _ hop => (List.eq_of_mem_replicate hop) ▸ trivial

/-- `revscroll` gets the row of the cursor as its top margin. -/
theorem insertLines_emits (hy : y < ctx.rows) : Emits ctx (insertLines ctx y) := by
  refine ⟨h, rfl, rfl, ?_⟩
  intro call hcall
  obtain ⟨op, hop, rfl⟩ := List.mem_map.mp hcall
  rw [List.eq_of_mem_replicate hop]
  exact { rows_eq := rfl, cols_eq := rfl, top := hy, bottom := (h.call .scroll trivial).bottom,
          margins := fun hne => absurd rfl hne, colour := trivial }

end commands

theorem append_inPalette {ops ops' : List Op} (h : ∀ op ∈ ops, op.InPalette)
    (h' : ∀ op ∈ ops', op.InPalette) : ∀ op ∈ ops ++ ops', op.InPalette := fun op hop =>
  (List.mem_append.mp hop).elim (h op) (h' op)

theorem blanks_inPalette (n : Nat) :
    ∀ op ∈ List.replicate n (Op.raw_putchar 0x20), op.InPalette := fun _ hop =>
  (List.eq_of_mem_replicate hop) ▸ trivial

theorem cursor_inPalette (x y : Nat) : ∀ op ∈ [Op.set_cursor_pos x y], op.InPalette := fun _ h =>
  List.mem_singleton.mp h ▸ trivial

/-- The numbers below `n`, with `k` in the middle. -/
theorem range_eq_append {k n : Nat} (h : k < n) :
    List.range n = List.range k ++ k :: List.range' (k + 1) (n - (k + 1)) := by
  have happend : List.range' 0 k ++ List.range' (0 + k) (n - k) = List.range' 0 (k + (n - k)) :=
    List.range'_append_1
  rw [List.range_eq_range', List.range_eq_range', ← List.range'_succ,
    show n - (k + 1) + 1 = n - k by omega, show n = k + (n - k) by omega, ← happend]
  rw [Nat.zero_add, show k + (n - k) - k = n - k by omega]

/-- **The two loops of `ESC [ 1 J`** print a blank for every place up to the cursor. -/
theorem eraseUpTo_eq {rows cols x y : Nat} (hx : x < cols) (hy : y < rows) :
    eraseUpTo rows cols x y = .set_cursor_pos 0 0
      :: List.replicate (y * cols + x + 1) (.raw_putchar 0x20) ++ [.set_cursor_pos x y] := by
  -- The places before the cursor, the cursor, and the rest.
  let before := ((List.range y).flatMap fun yc => (List.range cols).map fun xc => (xc, yc))
    ++ (List.range x).map fun xc => (xc, y)
  have hsplit : ∃ after, ((List.range rows).flatMap fun yc =>
      (List.range cols).map fun xc => (xc, yc)) = before ++ (x, y) :: after := by
    refine ⟨((List.range' (x + 1) (cols - (x + 1))).map fun xc => (xc, y)) ++
      ((List.range' (y + 1) (rows - (y + 1))).flatMap fun yc =>
        (List.range cols).map fun xc => (xc, yc)), ?_⟩
    have hline : ((List.range cols).map fun xc => (xc, y)) = ((List.range x).map fun xc => (xc, y))
        ++ (x, y) :: (List.range' (x + 1) (cols - (x + 1))).map fun xc => (xc, y) := by
      rw [range_eq_append hx, List.map_append, List.map_cons]
    rw [range_eq_append hy, List.flatMap_append, List.flatMap_cons, hline]
    simp only [before, List.append_assoc, List.cons_append]
  have hlength : before.length = y * cols + x := by
    simp only [before, List.length_append, List.length_flatMap, List.length_map, List.length_range,
      List.map_const', List.sum_replicate_nat]
  have hbefore : ∀ cell ∈ before, ¬(cell.1 = x ∧ cell.2 = y) := by
    intro cell hcell
    rcases List.mem_append.mp hcell with hcell | hcell
    · obtain ⟨yc, hyc, hmem⟩ := List.mem_flatMap.mp hcell
      obtain ⟨xc, -, rfl⟩ := List.mem_map.mp hmem
      have := List.mem_range.mp hyc
      omega
    · obtain ⟨xc, hxc, rfl⟩ := List.mem_map.mp hcell
      have := List.mem_range.mp hxc
      omega
  have hfold : ∀ (cells : List (Nat × Nat)) (ops : List Op),
      cells.foldl (fun ops _ => ops ++ [Op.raw_putchar 0x20]) ops
        = ops ++ List.replicate cells.length (.raw_putchar 0x20) := by
    intro cells
    induction cells with
    | nil => intro ops; exact (List.append_nil ops).symm
    | cons cell cells ih =>
      intro ops
      rw [List.foldl_cons, ih, List.append_assoc, List.length_cons, List.replicate_succ]
      rfl
  obtain ⟨after, hafter⟩ := hsplit
  rw [eraseUpTo, hafter, Loops.untilReturn_append_of_false (Loops.untilReturn_of_false
    (fun cell hcell ops => if_neg (hbefore cell hcell))), Loops.untilReturn, if_pos ⟨rfl, rfl⟩,
    hfold, hlength, List.replicate_succ']
  simp only [List.cons_append, List.nil_append, List.append_assoc]

section commands
variable (h : ctx.Ok) {x y : Nat} (hx : x < ctx.cols) (hy : y < ctx.rows)

include h hx hy in
theorem eraseDisplay_emits : Emits ctx (eraseDisplay ctx x y) := by
  refine Emits.ite (fun _ => ?_) fun _ => Emits.ite (fun _ => ?_) fun _ =>
    Emits.ite (fun _ => ?_) fun _ => Emits.silent h rfl rfl rfl
  · exact Emits.of_keeps (Keeps.refl h) rfl
      (append_inPalette (blanks_inPalette _) (cursor_inPalette x y))
  · refine Emits.of_keeps (Keeps.refl h) rfl ?_
    rw [eraseUpTo_eq hx hy]
    exact append_inPalette (append_inPalette (cursor_inPalette 0 0)
      (blanks_inPalette (y * ctx.cols + x + 1))) (cursor_inPalette x y)
  · exact Emits.single (.clear false) h rfl rfl rfl trivial

include h in
theorem eraseLine_emits : Emits ctx (eraseLine ctx x y) := by
  refine Emits.ite (fun _ => ?_) fun _ => Emits.ite (fun _ => ?_) fun _ =>
    Emits.ite (fun _ => ?_) fun _ => Emits.silent h rfl rfl rfl
  · exact Emits.of_keeps (Keeps.refl h) rfl
      (append_inPalette (blanks_inPalette _) (cursor_inPalette x y))
  · exact Emits.of_keeps (Keeps.refl h) rfl
      (append_inPalette (cursor_inPalette 0 y) (blanks_inPalette _))
  · exact Emits.of_keeps (Keeps.refl h) rfl (append_inPalette
      (append_inPalette (cursor_inPalette 0 y) (blanks_inPalette _)) (cursor_inPalette x y))

include h in
theorem eraseCharacters_emits : Emits ctx (eraseCharacters ctx x y) :=
  Emits.of_keeps (Keeps.refl h) rfl (append_inPalette (blanks_inPalette _) (cursor_inPalette x y))

include h in
theorem insertBlanks_emits : Emits ctx (insertBlanks ctx x y) := by
  refine Emits.of_keeps (Keeps.refl h) rfl ?_
  intro op hop
  rcases List.mem_append.mp hop with hop | hop
  · obtain ⟨i, -, hi⟩ := List.mem_flatMap.mp hop
    simp only [List.mem_cons, List.not_mem_nil, or_false] at hi
    rcases hi with rfl | rfl | rfl
    all_goals trivial
  · exact cursor_inPalette x y op hop

include h in
theorem deleteCharacters_emits : Emits ctx (deleteCharacters ctx x y) := by
  refine Emits.append ?_ (eraseCharacters_emits h)
  intro call hcall
  obtain ⟨op, hop, rfl⟩ := List.mem_map.mp hcall
  refine h.call _ ?_
  rcases List.mem_append.mp hop with hop | hop
  · obtain ⟨i, -, rfl⟩ := List.mem_map.mp hop
    trivial
  · exact cursor_inPalette _ y op hop

theorem sizeSub_one_le {n : Nat} (h : 0 < n) : sizeSub n 1 ≤ n - 1 := by
  have heq : n + 2 ^ 64 - 1 = n - 1 + 2 ^ 64 := by omega
  rw [sizeSub, heq, Nat.add_mod_right]
  exact Nat.mod_le _ _

include h in
/-- **The margins** are checked before they are set. -/
theorem setMargins_emits : Emits ctx (setMargins ctx) := by
  have hkeeps := ((Keeps.refl h).setIf (ctx.esc_values 0 = 0) 0 1).setIf
    ((if ctx.esc_values 0 = 0 then ctx.setValue 0 1 else ctx).esc_values 1 = 0) 1 1
  rw [setMargins]
  generalize hc : (if ctx.esc_values 0 = 0 then ctx.setValue 0 1 else ctx) = c₁ at hkeeps ⊢
  -- The second parameter is not 0 any more.
  have hvalue : 0 < (if c₁.esc_values 1 = 0 then c₁.setValue 1 1 else c₁).value 1 := by
    split
    · simp [FlantermContext.value, FlantermContext.setValue]
    · next hne =>
      rw [FlantermContext.value, Nat.pos_iff_ne_zero]
      exact fun heq => hne (UInt32.toNat_inj.mp heq)
  generalize (if c₁.esc_values 1 = 0 then c₁.setValue 1 1 else c₁) = c₂ at hkeeps hvalue ⊢
  have hbottom : 0 < (if c₂.esc_values_i > 1 then c₂.value 1 else c₂.rows) := by
    split
    · exact hvalue
    · exact c₂.rows_pos
  generalize (if c₂.esc_values_i > 1 then c₂.value 1 else c₂.rows) = bottom at hbottom ⊢
  generalize (if c₂.esc_values_i > 0 then (c₂.esc_values 0 - 1).toNat else 0) = top
  by_cases hout : top ≥ c₂.rows ∨ bottom > c₂.rows ∨ top ≥ sizeSub bottom 1
  · rw [if_pos hout]
    exact Emits.cursor ⟨{ hkeeps.ok with top := c₂.rows_pos, bottom := Nat.le_refl _ },
      hkeeps.rows_eq, hkeeps.cols_eq⟩ rfl
  · rw [if_neg hout]
    have hsub := sizeSub_one_le hbottom
    have htop : top < bottom := by omega
    have hle : bottom ≤ c₂.rows := by omega
    exact Emits.cursor
      ⟨{ hkeeps.ok with top := htop, bottom := hle }, hkeeps.rows_eq, hkeeps.cols_eq⟩ rfl

theorem mode_toggle_keeps (h : ctx.Ok) (c : UInt8) : Keeps ctx (mode_toggle ctx c) := by
  refine Keeps.ite (Keeps.refl h) ?_
  split
  · exact Keeps.ite ⟨{ h with }, rfl, rfl⟩ (Keeps.refl h)
  · exact Keeps.ite ⟨{ h with }, rfl, rfl⟩ (Keeps.refl h)
  · exact Keeps.refl h

theorem dec_private_parse_keeps (h : ctx.Ok) (c : UInt8) : Keeps ctx (dec_private_parse ctx c) := by
  refine Keeps.ite ⟨{ h with }, rfl, rfl⟩ ?_
  split
  · exact Keeps.ite ⟨{ h with }, rfl, rfl⟩ ⟨{ h with }, rfl, rfl⟩
  · exact Keeps.ite ⟨{ h with }, rfl, rfl⟩ ⟨{ h with }, rfl, rfl⟩
  · exact ⟨{ h with }, rfl, rfl⟩

include h hx hy in
/-- **What a control sequence does**. -/
theorem controlSequence_emits (c : UInt8) : Emits ctx (controlSequence ctx c x y) := by
  rw [controlSequence]
  split
  · exact cursorUp_emits h 0 y
  · exact cursorUp_emits h x y
  · exact cursorDown_emits h 0 y
  · exact cursorDown_emits h x y
  · exact cursorDown_emits h x y
  · exact cursorRight_emits h x y
  · exact cursorRight_emits h x y
  · exact cursorLeft_emits h x y
  · exact cursorRow_emits h x
  · exact cursorColumn_emits h y
  · exact cursorColumn_emits h y
  · exact cursorPosition_emits h
  · exact cursorPosition_emits h
  · exact deleteLines_emits h
  · exact insertLines_emits h y hy
  · exact eraseDisplay_emits h hx hy
  · exact insertBlanks_emits h
  · exact deleteCharacters_emits h
  · exact eraseCharacters_emits h
  · exact sgr_emits h
  · exact Emits.silent { h with } rfl rfl rfl
  · exact Emits.cursor (Keeps.refl h) rfl
  · exact eraseLine_emits h
  · exact setMargins_emits h
  all_goals first
    | exact Emits.silent (mode_toggle_keeps h c).ok (mode_toggle_keeps h c).rows_eq
        (mode_toggle_keeps h c).cols_eq rfl
    | exact Emits.silent h rfl rfl rfl

end commands

/-- `control_sequence_parse`, when the sequence is complete. -/
theorem finishSequence_emits (h : ctx.Ok) {x y : Nat} (hx : x < ctx.cols) (hy : y < ctx.rows)
    (c : UInt8) : Emits ctx (finishSequence ctx c x y) := by
  rw [finishSequence]
  refine Emits.ite (fun _ => ?_) fun _ => ?_
  · have hdefaults : (ctx.fillDefaults (escDefault c)).Ok := { h with }
    have hkeeps := dec_private_parse_keeps hdefaults c
    exact Emits.silent { hkeeps.ok with } hkeeps.rows_eq hkeeps.cols_eq rfl
  · have hdefaults : FlantermContext.Ok
        { ctx.fillDefaults (escDefault c) with scroll_enabled := false } := { h with }
    have hemits := controlSequence_emits hdefaults hx hy c
    exact ⟨{ hemits.ok with }, hemits.rows_eq, hemits.cols_eq, hemits.calls⟩

/-- **Parameters** have a place in `esc_values`. -/
theorem parameterByte_emits (h : ctx.Ok) {x y : Nat} (hx : x < ctx.cols) (hy : y < ctx.rows)
    (c : UInt8) : Emits ctx (parameterByte ctx c x y) := by
  have hle := h.esc_values_i
  rw [parameterByte]
  split
  · refine Emits.ite (fun _ => Emits.silent h rfl rfl rfl) fun hne => ?_
    exact Emits.silent { h with rrr := fun _ => Nat.lt_of_le_of_ne hle hne } rfl rfl rfl
  · refine Emits.ite (fun hrrr => ?_) fun hrrr => Emits.ite (fun _ => ?_) fun _ => ?_
    · have hok : FlantermContext.Ok
          { ctx with esc_values_i := ctx.esc_values_i + 1, rrr := false } :=
        { h with esc_values_i := h.rrr hrrr, rrr := fun heq => absurd heq Bool.false_ne_true }
      exact Emits.ite (fun _ => Emits.silent hok rfl rfl rfl) fun _ =>
        (finishSequence_emits hok hx hy c).congr rfl rfl
    · refine Emits.ite (fun _ => Emits.silent h rfl rfl rfl) fun hne => ?_
      exact Emits.silent { h with
        esc_values_i := Nat.lt_of_le_of_ne hle hne
        rrr := fun heq => absurd heq hrrr } rfl rfl rfl
    · exact finishSequence_emits h hx hy c

theorem control_sequence_parse_emits (h : ctx.Ok) {x y : Nat} (hx : x < ctx.cols)
    (hy : y < ctx.rows) (c : UInt8) : Emits ctx (control_sequence_parse ctx c x y) := by
  refine Emits.ite (fun _ => ?_) fun _ => Emits.ite (fun _ => ?_) fun _ => ?_
  · exact Emits.silent { h with } rfl rfl rfl
  · exact Emits.silent { h with } rfl rfl rfl
  · exact parameterByte_emits h hx hy c

/-! ## Section 4: Escape sequences -/

theorem osc_parse_keeps (h : ctx.Ok) (c : UInt8) : Keeps ctx (osc_parse ctx c) :=
  Keeps.ite ⟨{ h with }, rfl, rfl⟩ (Keeps.ite ⟨{ h with }, rfl, rfl⟩
    (Keeps.ite ⟨{ h with }, rfl, rfl⟩ ⟨{ h with }, rfl, rfl⟩))

theorem endEscape_emits {next : FlantermContext × List Call} (h : Emits ctx next) :
    Emits ctx (endEscape next) :=
  ⟨{ h.ok with }, h.rows_eq, h.cols_eq, h.calls⟩

theorem lineFeed_inPalette (x y : Nat) : ∀ op ∈ lineFeed ctx x y, op.InPalette := by
  intro op hop
  rw [lineFeed] at hop
  split at hop
  · simp only [List.mem_cons, List.not_mem_nil, or_false] at hop
    rcases hop with rfl | rfl
    all_goals trivial
  · exact cursor_inPalette _ _ op hop

theorem reinit_keeps (h : ctx.Ok) : Keeps ctx (flanterm_context_reinit ctx) where
  ok := { h with
    autoflush := rfl
    tab_size := Nat.succ_pos 7
    unicode_remaining := Nat.zero_le _
    g_select := Nat.zero_le _
    current_charset := Nat.succ_pos 1
    esc_values_i := Nat.zero_le _
    rrr := fun heq => absurd heq Bool.false_ne_true
    top := ctx.rows_pos
    bottom := Nat.le_refl _
    current_primary := Or.inr rfl
    current_bg := Or.inr rfl }
  rows_eq := rfl
  cols_eq := rfl

theorem escapeByte_emits (h : ctx.Ok) (x y : Nat) (c : UInt8) :
    Emits ctx (escapeByte ctx c x y) := by
  rw [escapeByte]
  split
  · exact Emits.silent { h with } rfl rfl rfl
  · exact Emits.silent { h with
      esc_values_i := Nat.zero_le _
      rrr := fun heq => absurd heq Bool.false_ne_true } rfl rfl rfl
  · refine endEscape_emits ⟨?_, rfl, rfl, ?_⟩
    · exact { h with
        saved_state_current_charset := h.current_charset
        saved_state_current_primary := h.current_primary
        saved_state_current_bg := h.current_bg }
    · intro call hcall
      rw [List.mem_singleton.mp hcall]
      exact h.call _ trivial
  · refine endEscape_emits (Emits.single .restore_state ?_ rfl rfl rfl trivial)
    exact { h with
      current_charset := h.saved_state_current_charset
      current_primary := h.saved_state_current_primary
      current_bg := h.saved_state_current_bg }
  · exact endEscape_emits (Emits.single (.clear true) (reinit_keeps h).ok rfl rfl rfl trivial)
  · exact endEscape_emits (Emits.of_keeps (Keeps.refl h) rfl (lineFeed_inPalette x y))
  · exact endEscape_emits (Emits.of_keeps (Keeps.refl h) rfl (lineFeed_inPalette 0 y))
  · refine endEscape_emits (Emits.of_keeps (Keeps.refl h) rfl ?_)
    intro op hop
    split at hop
    · simp only [List.mem_cons, List.not_mem_nil, or_false] at hop
      rcases hop with rfl | rfl
      all_goals trivial
    · exact cursor_inPalette _ _ op hop
  · next heq =>
    refine endEscape_emits (Emits.silent { h with g_select := ?_ } rfl rfl rfl)
    rw [charOf_injective (heq.trans (show _ = charOf 0x28 from rfl))]
    exact Nat.le_succ 1
  · next heq =>
    refine endEscape_emits (Emits.silent { h with g_select := ?_ } rfl rfl rfl)
    rw [charOf_injective (heq.trans (show _ = charOf 0x29 from rfl))]
    exact Nat.le_refl 2
  · exact endEscape_emits (Emits.silent h rfl rfl rfl)

theorem escape_parse_emits (h : ctx.Ok) {x y : Nat} (hx : x < ctx.cols) (hy : y < ctx.rows)
    (c : UInt8) : Emits ctx (escape_parse ctx c x y) := by
  have hok : FlantermContext.Ok { ctx with escape_offset := ctx.escape_offset + 1 } := { h with }
  refine Emits.ite (fun _ => ?_) fun _ => Emits.ite (fun _ => ?_) fun _ => ?_
  · have hkeeps := osc_parse_keeps hok c
    exact Emits.silent hkeeps.ok hkeeps.rows_eq hkeeps.cols_eq rfl
  · exact (control_sequence_parse_emits hok hx hy c).congr rfl rfl
  · exact (escapeByte_emits hok x y c).congr rfl rfl

/-! ## Section 5: Characters -/

theorem printCodePoint_inPalette : ∀ op ∈ printCodePoint ctx, op.InPalette := by
  intro op hop
  rw [printCodePoint] at hop
  split at hop
  · rw [List.mem_singleton.mp hop]
    trivial
  · rcases List.mem_append.mp hop with hop | hop
    · split at hop
      · rw [List.mem_singleton.mp hop]
        trivial
      · cases hop
    · exact blanks_inPalette _ op hop

theorem printByte_inPalette (c : UInt8) (x y : Nat) : ∀ op ∈ printByte ctx c x y, op.InPalette := by
  intro op hop
  rcases List.mem_append.mp hop with hop | hop
  · split at hop
    · obtain ⟨i, -, rfl⟩ := List.mem_map.mp hop
      trivial
    · cases hop
  · rw [List.mem_singleton.mp hop]
    trivial

/-- A UTF-8 sequence of which at most three bytes are missing. -/
theorem FlantermContext.Ok.sequence (h : ctx.Ok) {n : Nat} (hn : n ≤ 3) (code_point : UInt64) :
    Keeps ctx { ctx with unicode_remaining := n, code_point := code_point } :=
  ⟨{ h with unicode_remaining := hn }, rfl, rfl⟩

theorem continuationByte_emits (h : ctx.Ok) (c : UInt8) : Emits ctx (continuationByte ctx c) := by
  have hkeeps := h.sequence ((Nat.sub_le ctx.unicode_remaining 1).trans h.unicode_remaining)
    (ctx.code_point |||
      ((c &&& 0x3f).toUInt64 <<< (UInt64.ofNat (6 * (ctx.unicode_remaining - 1)))))
  refine Emits.ite (fun _ => ?_) fun _ => Emits.of_keeps hkeeps rfl printCodePoint_inPalette
  exact Emits.silent hkeeps.ok rfl rfl rfl

theorem leadByte_keeps (h : ctx.Ok) (c : UInt8) : Keeps ctx (leadByte ctx c) :=
  Keeps.ite (h.sequence (by omega) _) (Keeps.ite (h.sequence (by omega) _)
    (h.sequence (by omega) _))

theorem plainByte_emits (h : ctx.Ok) (x y : Nat) (c : UInt8) : Emits ctx (plainByte ctx c x y) := by
  rw [plainByte]
  split
  · exact Emits.silent h rfl rfl rfl
  · exact Emits.silent h rfl rfl rfl
  · exact Emits.silent { h with } rfl rfl rfl
  · refine Emits.of_calls _ h rfl rfl rfl ?_
    split
    · exact cursor_inPalette _ _
    · exact cursor_inPalette _ _
  · exact Emits.of_calls _ h rfl rfl rfl (lineFeed_inPalette _ y)
  · exact Emits.of_calls _ h rfl rfl rfl (lineFeed_inPalette _ y)
  · exact Emits.of_calls _ h rfl rfl rfl (lineFeed_inPalette _ y)
  · exact Emits.of_calls _ h rfl rfl rfl (cursor_inPalette _ _)
  · exact Emits.of_calls _ h rfl rfl rfl (cursor_inPalette _ _)
  · exact Emits.silent h rfl rfl rfl
  · exact Emits.silent { h with current_charset := Nat.lt_succ_self 1 } rfl rfl rfl
  · exact Emits.silent { h with current_charset := Nat.succ_pos 1 } rfl rfl rfl
  · exact Emits.of_calls _ h rfl rfl rfl (printByte_inPalette c x y)

theorem unicode_error_emits (h : ctx.Ok) {x y : Nat} (hx : x < ctx.cols) (hy : y < ctx.rows)
    (c : UInt8) : Emits ctx (unicode_error ctx c x y) := by
  refine Emits.ite (fun _ => ?_) fun _ => Emits.ite (fun _ => escape_parse_emits h hx hy c)
    fun _ => Emits.ite (fun _ => ?_) fun _ => plainByte_emits h x y c
  · have hkeeps := leadByte_keeps h c
    exact Emits.silent hkeeps.ok hkeeps.rows_eq hkeeps.cols_eq rfl
  · exact Emits.silent { h with g_select := Nat.zero_le _ } rfl rfl rfl

/-- **Every byte** keeps the invariant, and every call that it leads to is valid. -/
theorem flanterm_putchar_emits (h : ctx.Ok) {x y : Nat} (hx : x < ctx.cols) (hy : y < ctx.rows)
    (c : UInt8) : Emits ctx (flanterm_putchar ctx c x y) := by
  refine Emits.ite (fun _ => ?_) fun _ => Emits.ite (fun _ => Emits.ite (fun _ => ?_) fun _ => ?_)
    fun _ => unicode_error_emits h hx hy c
  · exact Emits.silent { h with unicode_remaining := Nat.zero_le _, g_select := Nat.zero_le _ }
      rfl rfl rfl
  · have hnone : FlantermContext.Ok { ctx with unicode_remaining := 0 } :=
      { h with unicode_remaining := Nat.zero_le _ }
    exact (unicode_error_emits hnone hx hy c).congr rfl rfl
  · exact continuationByte_emits h c

end Flanterm

end ArgaldOS
