import ArgaldOS.Framework.Numerals
import ArgaldOS.Framework.TextLayout
import ArgaldOS.Terminal.Utf8

/-! # Control sequences

    A control sequence is `ESC [`, then decimal parameters with `;` between them, then a
    byte that tells what to do.  It may have any number of parameters: the front end keeps
    the first 16, modulo `2 ^ 32`, and does what the sequence says once, when its last byte
    has come.  Before that it shows nothing.

    * `putchar_digits`, `putchar_separator`: the steps of the parser;
    * `write_escape`: a sequence of two bytes;
    * `write_csi`: a control sequence.
-/

namespace ArgaldOS

namespace Flanterm

open Numerals

/-! ## Section 1: Sequences as bytes -/

/-- A control sequence. -/
def csi (params : List Nat) (final : UInt8) : List UInt8 :=
  0x1b :: 0x5b :: ([0x3b].intercalate (params.map decimal) ++ [final])

/-- The bytes that may end a control sequence, except the one that begins a function key. -/
def Final (c : UInt8) : Prop := 0x40 ≤ c.toNat ∧ c.toNat ≤ 0x7e ∧ c ≠ 0x5b

instance (c : UInt8) : Decidable (Final c) := by
  unfold Final
  infer_instance

/-- Behind an escape character. -/
def FlantermContext.escaped (ctx : FlantermContext) : FlantermContext :=
  { ctx with escape_offset := 0, escape := true }

/-- In the middle of a control sequence. -/
def FlantermContext.inSequence (ctx : FlantermContext) (offset : Nat) (values : Nat → UInt32)
    (i : Nat) (rrr : Bool) : FlantermContext :=
  { ctx with
    escape           := true
    control_sequence := true
    escape_offset    := offset
    esc_values       := values
    esc_values_i     := i
    rrr              := rrr }

/-- What is kept of the parameters `params`. -/
def keptValues (ctx : FlantermContext) (params : List Nat) (i : Nat) : UInt32 :=
  if i < FLANTERM_MAX_ESC_VALUES then UInt32.ofNat (params.getD i 0) else ctx.esc_values i

/-- The context when the parameters `params` have been read, and nothing after them. -/
def FlantermContext.reading (ctx : FlantermContext) (offset : Nat) (params : List Nat) :
    FlantermContext :=
  ctx.inSequence offset (keptValues ctx params) (min (params.length - 1) FLANTERM_MAX_ESC_VALUES)
    (decide (params ≠ [] ∧ params.length ≤ FLANTERM_MAX_ESC_VALUES))

/-! ## Section 2: The parser -/

section parser
variable (fb : FbSettings) {ctx : FlantermContext} {screen : Screen}

/-- A byte behind an escape character. -/
theorem flanterm_putchar_escape (ctx : FlantermContext) (hdiscard : ctx.discard_next = false)
    (hremaining : ctx.unicode_remaining = 0) (hescape : ctx.escape = true) {c : UInt8}
    (hlow : 0x1b ≤ c.toNat) (hhigh : c.toNat < 0x80) (x y : Nat) :
    flanterm_putchar ctx c x y = escape_parse ctx c x y := by
  have hcancel : ¬(ctx.discard_next ∨ c = 0x18 ∨ c = 0x1a) := by
    rw [hdiscard]
    rintro (hfalse | rfl | rfl)
    · cases hfalse
    · exact absurd hlow (by decide)
    · exact absurd hlow (by decide)
  have hlead : ¬(0xc0 ≤ c ∧ c ≤ 0xf7) := by
    intro hc
    have hle : 192 ≤ c.toNat := UInt8.le_iff_toNat_le.mp hc.1
    omega
  rw [flanterm_putchar, if_neg hcancel, if_neg (not_not.mpr hremaining), unicode_error,
    if_neg hlead, if_pos hescape]

theorem escape_parse_sequence (ctx : FlantermContext) (hosc : ctx.osc = false)
    (hsequence : ctx.control_sequence = true) (c : UInt8) (x y : Nat) : escape_parse ctx c x y
      = control_sequence_parse { ctx with escape_offset := ctx.escape_offset + 1 } c x y := by
  have hnot : ¬ctx.osc = true := by
    rw [hosc]
    exact Bool.false_ne_true
  show (if ctx.osc = true then _ else if ctx.control_sequence = true then _ else _) = _
  rw [if_neg hnot, if_pos hsequence]

theorem escape_parse_byte (ctx : FlantermContext) (hosc : ctx.osc = false)
    (hsequence : ctx.control_sequence = false) (c : UInt8) (x y : Nat) : escape_parse ctx c x y
      = escapeByte { ctx with escape_offset := ctx.escape_offset + 1 } c x y := by
  have hnot : ¬ctx.osc = true := by
    rw [hosc]
    exact Bool.false_ne_true
  have hnone : ¬ctx.control_sequence = true := by
    rw [hsequence]
    exact Bool.false_ne_true
  show (if ctx.osc = true then _ else if ctx.control_sequence = true then _ else _) = _
  rw [if_neg hnot, if_neg hnone]

/-- A byte in the middle of a control sequence. -/
theorem putchar_inSequence (h : ctx.Ground) {c : UInt8} (hlow : 0x1b ≤ c.toNat)
    (hhigh : c.toNat < 0x80) (offset : Nat) (values : Nat → UInt32) (i : Nat) (rrr : Bool) :
    ScreenTerminal.putchar fb ⟨ctx.inSequence offset values i rrr, screen⟩ c =
      let next := control_sequence_parse (ctx.inSequence (offset + 1) values i rrr) c
        (get_cursor_pos ctx screen.pen).1 (get_cursor_pos ctx screen.pen).2
      ⟨next.1, next.2.foldl (Screen.perform fb) screen⟩ := by
  have hdiscard : (ctx.inSequence offset values i rrr).discard_next = false := h.discard_next
  have hosc : (ctx.inSequence offset values i rrr).osc = false := h.osc
  simp only [ScreenTerminal.putchar]
  rw [flanterm_putchar_escape _ hdiscard h.unicode_remaining rfl hlow hhigh,
    escape_parse_sequence _ hosc rfl]
  rfl

/-- A digit is no other byte that means something. -/
theorem digit_byte {d : Nat} (hd : d < 10) : (UInt8.ofNat (0x30 + d)).toNat = 0x30 + d ∧
    digitOf (UInt8.ofNat (0x30 + d)) = some (UInt32.ofNat d) := by
  exact (by decide : ∀ d < 10, (UInt8.ofNat (0x30 + d)).toNat = 0x30 + d ∧
    digitOf (UInt8.ofNat (0x30 + d)) = some (UInt32.ofNat d)) d hd

/-- Behind the first byte of a sequence only two bytes are special. -/
theorem control_sequence_parse_eq {c : UInt8} (hbracket : c ≠ 0x5b) (hquestion : c ≠ 0x3f)
    (x y : Nat) : control_sequence_parse ctx c x y = parameterByte ctx c x y := by
  have hne₁ : charOf c ≠ '[' := fun heq => hbracket (charOf_injective (heq.trans rfl))
  have hne₂ : charOf c ≠ '?' := fun heq => hquestion (charOf_injective (heq.trans rfl))
  rw [control_sequence_parse, if_neg fun hc => hne₁ hc.2, if_neg fun hc => hne₂ hc.2]

/-- **A digit** of a parameter. -/
theorem putchar_digit (h : ctx.Ground) {d : Nat} (hd : d < 10) (offset : Nat)
    (values : Nat → UInt32) {i : Nat} (hi : i ≠ FLANTERM_MAX_ESC_VALUES) (rrr : Bool) :
    ScreenTerminal.putchar fb ⟨ctx.inSequence offset values i rrr, screen⟩ (UInt8.ofNat (0x30 + d))
      = ⟨ctx.inSequence (offset + 1)
          (Function.update values i (values i * 10 + UInt32.ofNat d)) i true, screen⟩ := by
  obtain ⟨hval, hdigit⟩ := digit_byte hd
  have hne : ∀ k : UInt8, 0x3a ≤ k.toNat → UInt8.ofNat (0x30 + d) ≠ k := by
    rintro k hk rfl
    omega
  rw [putchar_inSequence fb h (by omega) (by omega),
    control_sequence_parse_eq (hne 0x5b (by decide)) (hne 0x3f (by decide)), parameterByte, hdigit]
  have hroom : ¬(ctx.inSequence (offset + 1) values i rrr).esc_values_i
    = FLANTERM_MAX_ESC_VALUES := hi
  simp only [if_neg hroom]
  rfl

/-- A digit behind the last parameter that is kept. -/
theorem putchar_digit_full (h : ctx.Ground) {d : Nat} (hd : d < 10) (offset : Nat)
    (values : Nat → UInt32) (rrr : Bool) :
    ScreenTerminal.putchar fb ⟨ctx.inSequence offset values FLANTERM_MAX_ESC_VALUES rrr, screen⟩
        (UInt8.ofNat (0x30 + d))
      = ⟨ctx.inSequence (offset + 1) values FLANTERM_MAX_ESC_VALUES rrr, screen⟩ := by
  obtain ⟨hval, hdigit⟩ := digit_byte hd
  have hne : ∀ k : UInt8, 0x3a ≤ k.toNat → UInt8.ofNat (0x30 + d) ≠ k := by
    rintro k hk rfl
    omega
  rw [putchar_inSequence fb h (by omega) (by omega),
    control_sequence_parse_eq (hne 0x5b (by decide)) (hne 0x3f (by decide)), parameterByte, hdigit]
  rfl

/-- **The digits** of a parameter. -/
theorem putchar_digits (h : ctx.Ground) {ds : List Nat} (hds : ∀ d ∈ ds, d < 10) (hne : ds ≠ [])
    (offset : Nat) (values : Nat → UInt32) {i : Nat} (hi : i < FLANTERM_MAX_ESC_VALUES)
    (rrr : Bool) :
    ScreenTerminal.write fb ⟨ctx.inSequence offset values i rrr, screen⟩
        (ds.map fun d => UInt8.ofNat (0x30 + d))
      = ⟨ctx.inSequence (offset + ds.length) (Function.update values i
          (ds.foldl (fun v d => v * 10 + UInt32.ofNat d) (values i))) i true, screen⟩ := by
  induction ds generalizing offset values rrr with
  | nil => exact absurd rfl hne
  | cons d ds ih =>
    have hstep : ScreenTerminal.putchar fb ⟨_, screen⟩ _ = _ :=
      putchar_digit fb h (hds d List.mem_cons_self) offset values (Nat.ne_of_lt hi) rrr
    rw [List.map_cons, ScreenTerminal.write, Runs.run_cons, hstep]
    rcases ds with _ | ⟨d', ds⟩
    · rfl
    · have hrest := ih (fun d hd => hds d (List.mem_cons_of_mem _ hd)) (List.cons_ne_nil d' ds)
        (offset + 1) (Function.update values i (values i * 10 + UInt32.ofNat d)) true
      rw [Function.update_self, Function.update_idem, Nat.add_assoc, Nat.add_comm 1] at hrest
      exact hrest

/-- Digits behind the last parameter that is kept. -/
theorem putchar_digits_full (h : ctx.Ground) {ds : List Nat} (hds : ∀ d ∈ ds, d < 10)
    (offset : Nat) (values : Nat → UInt32) (rrr : Bool) :
    ScreenTerminal.write fb ⟨ctx.inSequence offset values FLANTERM_MAX_ESC_VALUES rrr, screen⟩
        (ds.map fun d => UInt8.ofNat (0x30 + d))
      = ⟨ctx.inSequence (offset + ds.length) values FLANTERM_MAX_ESC_VALUES rrr, screen⟩ := by
  induction ds generalizing offset with
  | nil => rfl
  | cons d ds ih =>
    have hrest := ih (fun d hd => hds d (List.mem_cons_of_mem _ hd)) (offset + 1)
    rw [List.map_cons, ScreenTerminal.write, Runs.run_cons,
      putchar_digit_full fb h (hds d List.mem_cons_self), List.length_cons, Nat.add_comm ds.length,
      ← Nat.add_assoc]
    exact hrest

/-- The number that the digits are read as. -/
theorem foldl_digits (ds : List Nat) (v : Nat) :
    ds.foldl (fun v d => v * 10 + UInt32.ofNat d) (UInt32.ofNat v)
      = UInt32.ofNat (ds.foldl (fun v d => v * 10 + d) v) := by
  induction ds generalizing v with
  | nil => rfl
  | cons d ds ih =>
    rw [List.foldl_cons, List.foldl_cons, ← ih, UInt32.ofNat_add, UInt32.ofNat_mul]
    rfl

/-- **A separator**: the parameter before it is complete. -/
theorem putchar_separator (h : ctx.Ground) (offset : Nat) (values : Nat → UInt32) {i : Nat}
    (rrr : Bool) (hrrr : rrr = true ∨ i = FLANTERM_MAX_ESC_VALUES) :
    ScreenTerminal.putchar fb ⟨ctx.inSequence offset values i rrr, screen⟩ 0x3b
      = ⟨ctx.inSequence (offset + 1) values (if rrr then i + 1 else i) false, screen⟩ := by
  rw [putchar_inSequence fb h (by decide) (by decide),
    control_sequence_parse_eq (by decide) (by decide), parameterByte]
  have hdigit : digitOf 0x3b = none := rfl
  have hsep : (charOf 0x3b == ';') = true := rfl
  rw [hdigit]
  cases rrr with
  | true => rfl
  | false =>
    have hfull : i = FLANTERM_MAX_ESC_VALUES := hrrr.resolve_left Bool.false_ne_true
    subst hfull
    rfl

/-- **A parameter**, the first one or behind a separator. -/
theorem write_decimal (h : ctx.Ground) (offset : Nat) (params : List Nat) (v : Nat) :
    ScreenTerminal.write fb ⟨ctx.inSequence offset (keptValues ctx params)
        (min params.length FLANTERM_MAX_ESC_VALUES) false, screen⟩ (decimal v)
      = ⟨ctx.reading (offset + (numeral 10 v).length) (params ++ [v]), screen⟩ := by
  have hnumeral := isNumeral_numeral (show 1 < 10 by omega) v
  rw [decimal, FlantermContext.reading, List.length_append, List.length_singleton,
    Nat.add_sub_cancel]
  rcases Nat.lt_or_ge params.length FLANTERM_MAX_ESC_VALUES with hroom | hfull
  · have hzero : keptValues ctx params params.length = UInt32.ofNat 0 := by
      rw [keptValues, if_pos hroom, List.getD_eq_getElem?_getD, List.getElem?_eq_none (by omega)]
      rfl
    have hvalue : (numeral 10 v).foldl (fun v d => v * 10 + UInt32.ofNat d)
        (keptValues ctx params params.length) = UInt32.ofNat v := by
      rw [hzero, foldl_digits]
      exact congrArg UInt32.ofNat hnumeral.value
    have hvalues : Function.update (keptValues ctx params) params.length (UInt32.ofNat v)
        = keptValues ctx (params ++ [v]) := by
      funext i
      rw [Function.update_apply]
      by_cases hi : i = params.length
      · subst hi
        simp [keptValues, hroom]
      · rw [if_neg hi]
        rcases Nat.lt_or_ge i params.length with hlt | hge
        · simp [keptValues, List.getD_eq_getElem?_getD, List.getElem?_append_left hlt]
        · have hnone : (params ++ [v])[i]? = none :=
            List.getElem?_eq_none (by rw [List.length_append, List.length_singleton]; omega)
          simp [keptValues, List.getD_eq_getElem?_getD, hnone, List.getElem?_eq_none hge]
    have hdecide : decide (params ++ [v] ≠ [] ∧ params.length + 1 ≤ FLANTERM_MAX_ESC_VALUES)
        = true := decide_eq_true ⟨by simp, hroom⟩
    rw [Nat.min_eq_left (Nat.le_of_lt hroom), putchar_digits fb h hnumeral.small hnumeral.digit
      offset _ hroom, hvalue, hvalues, hdecide]
  · have hvalues : keptValues ctx params = keptValues ctx (params ++ [v]) := by
      funext i
      rw [keptValues, keptValues]
      split
      · next hi =>
        rw [List.getD_eq_getElem?_getD, List.getD_eq_getElem?_getD,
          List.getElem?_append_left (by omega)]
      · rfl
    have hdecide : decide (params ++ [v] ≠ [] ∧ params.length + 1 ≤ FLANTERM_MAX_ESC_VALUES)
        = false := decide_eq_false fun hle => by omega
    rw [Nat.min_eq_right hfull, putchar_digits_full fb h hnumeral.small, hvalues, hdecide]

/-- A parameter behind others. -/
theorem write_separator_decimal (h : ctx.Ground) (offset : Nat) {params : List Nat}
    (hne : params ≠ []) (v : Nat) :
    ScreenTerminal.write fb ⟨ctx.reading offset params, screen⟩ (0x3b :: decimal v)
      = ⟨ctx.reading (offset + 1 + (numeral 10 v).length) (params ++ [v]), screen⟩ := by
  have hpos : 0 < params.length := List.length_pos_iff.mpr hne
  rw [ScreenTerminal.write, Runs.run_cons, FlantermContext.reading]
  rcases Nat.lt_or_ge FLANTERM_MAX_ESC_VALUES params.length with hfull | hroom
  · have hdecide : decide (params ≠ [] ∧ params.length ≤ FLANTERM_MAX_ESC_VALUES) = false :=
      decide_eq_false fun hle => by omega
    rw [hdecide, putchar_separator fb h _ _ _ (Or.inr (Nat.min_eq_right (by omega))),
      if_neg Bool.false_ne_true, Nat.min_eq_right (by omega),
      ← Nat.min_eq_right (Nat.le_of_lt hfull)]
    exact write_decimal fb h (offset + 1) params v
  · have hdecide : decide (params ≠ [] ∧ params.length ≤ FLANTERM_MAX_ESC_VALUES) = true :=
      decide_eq_true ⟨hne, hroom⟩
    have hindex : min (params.length - 1) FLANTERM_MAX_ESC_VALUES + 1
        = min params.length FLANTERM_MAX_ESC_VALUES := by omega
    rw [hdecide, putchar_separator fb h _ _ _ (Or.inl rfl), if_pos rfl, hindex]
    exact write_decimal fb h (offset + 1) params v

/-- All parameters. -/
theorem write_parameters (h : ctx.Ground) (offset : Nat) (params : List Nat) :
    ∃ offset', ScreenTerminal.write fb ⟨ctx.reading offset [], screen⟩
        ([0x3b].intercalate (params.map decimal))
      = ⟨ctx.reading offset' params, screen⟩ := by
  rcases params with _ | ⟨v, rest⟩
  · exact ⟨offset, rfl⟩
  · have hfirst : ScreenTerminal.write fb ⟨_, screen⟩ _ = _ := write_decimal fb h offset [] v
    have hothers : ∀ offset params, params ≠ [] → ∃ offset',
        ScreenTerminal.write fb ⟨ctx.reading offset params, screen⟩
          (rest.flatMap fun w => 0x3b :: decimal w)
        = ⟨ctx.reading offset' (params ++ rest), screen⟩ := by
      induction rest with
      | nil =>
        intro offset params _
        exact ⟨offset, by rw [List.append_nil]; rfl⟩
      | cons w rest ih =>
        intro offset params hne
        obtain ⟨offset', hrest⟩ := ih (offset + 1 + (numeral 10 w).length) (params ++ [w]) (by simp)
        refine ⟨offset', ?_⟩
        rw [List.flatMap_cons, ScreenTerminal.write_append, write_separator_decimal fb h _ hne,
          hrest, List.append_assoc]
        rfl
    obtain ⟨offset', hrest⟩ := hothers (offset + (numeral 10 v).length) [v] (List.cons_ne_nil _ _)
    refine ⟨offset', ?_⟩
    rw [List.map_cons, TextLayout.intercalate_cons_eq, List.flatMap_map,
      ScreenTerminal.write_append]
    exact (congrArg (fun a => ScreenTerminal.write fb a _) hfirst).trans hrest

/-- The escape character. -/
theorem putchar_escape (h : ctx.Ground) :
    ScreenTerminal.putchar fb ⟨ctx, screen⟩ 0x1b = ⟨ctx.escaped, screen⟩ := by
  have hcancel : ¬(ctx.discard_next = true ∨ (0x1b : UInt8) = 0x18 ∨ (0x1b : UInt8) = 0x1a) := by
    rw [h.discard_next]
    decide
  have hlead : ¬((0xc0 : UInt8) ≤ 0x1b ∧ (0x1b : UInt8) ≤ 0xf7) := by decide
  have hbyte : ∀ x y, flanterm_putchar ctx 0x1b x y = (ctx.escaped, []) := by
    intro x y
    rw [flanterm_putchar, if_neg hcancel, if_neg (not_not.mpr h.unicode_remaining), unicode_error,
      if_neg hlead, if_neg (by rw [h.escape]; exact Bool.false_ne_true),
      if_neg (not_not.mpr h.g_select)]
    rfl
  simp only [ScreenTerminal.putchar, hbyte, List.foldl_nil]

/-- **An escape sequence** of two bytes. -/
theorem write_escape (h : ctx.Ground) {c : UInt8} (hlow : 0x1b ≤ c.toNat)
    (hhigh : c.toNat < 0x80) : ScreenTerminal.write fb ⟨ctx, screen⟩ [0x1b, c] =
      let next := escapeByte { ctx.escaped with escape_offset := 1 } c
        (get_cursor_pos ctx screen.pen).1 (get_cursor_pos ctx screen.pen).2
      ⟨next.1, next.2.foldl (Screen.perform fb) screen⟩ := by
  have hbyte : ∀ x y, flanterm_putchar ctx.escaped c x y
      = escapeByte { ctx.escaped with escape_offset := 1 } c x y := by
    intro x y
    rw [flanterm_putchar_escape ctx.escaped h.discard_next h.unicode_remaining rfl hlow hhigh,
      escape_parse_byte ctx.escaped h.osc h.control_sequence]
    rfl
  simp only [ScreenTerminal.write, Runs.run_cons, Runs.run_nil]
  rw [putchar_escape fb h]
  simp only [ScreenTerminal.putchar, hbyte]
  rfl

/-- **The beginning** of a control sequence. -/
theorem write_introducer (h : ctx.Ground) :
    ScreenTerminal.write fb ⟨ctx, screen⟩ [0x1b, 0x5b] = ⟨ctx.reading 1 [], screen⟩ :=
  write_escape fb h (by decide) (by decide)

/-- **The last byte** of a control sequence. -/
theorem putchar_final (h : ctx.Ground) (offset : Nat) (params : List Nat) {c : UInt8}
    (hc : Final c) : ScreenTerminal.putchar fb ⟨ctx.reading offset params, screen⟩ c =
      let next := finishSequence (ctx.inSequence (offset + 1) (keptValues ctx params)
          (min params.length FLANTERM_MAX_ESC_VALUES) false) c
        (get_cursor_pos ctx screen.pen).1 (get_cursor_pos ctx screen.pen).2
      ⟨next.1, next.2.foldl (Screen.perform fb) screen⟩ := by
  obtain ⟨hlow, hhigh, hbracket⟩ := hc
  have hne : ∀ k : UInt8, k.toNat < 0x40 → c ≠ k := by
    rintro k hk rfl
    omega
  have hdigit : digitOf c = none := by
    rw [digitOf, if_neg]
    intro hin
    have hle : c.toNat ≤ 57 := UInt8.le_iff_toNat_le.mp hin.2
    omega
  have hsep : (charOf c == ';') = false := by
    rw [beq_eq_false_iff_ne]
    exact fun heq => hne 0x3b (by decide) (charOf_injective (heq.trans rfl))
  rw [FlantermContext.reading, putchar_inSequence fb h (by omega) (by omega),
    control_sequence_parse_eq hbracket (hne 0x3f (by decide))]
  have hfinish : ∀ values i rrr x y,
      parameterByte (ctx.inSequence (offset + 1) values i rrr) c x y
        = finishSequence (ctx.inSequence (offset + 1) values (if rrr then i + 1 else i) false)
            c x y := by
    intro values i rrr x y
    rw [parameterByte, hdigit]
    simp only [hsep]
    cases rrr with
    | true => rfl
    | false => rfl
  rw [hfinish]
  rcases Nat.eq_zero_or_pos params.length with hzero | hpos
  · obtain rfl := List.eq_nil_of_length_eq_zero hzero
    rfl
  · have hne : params ≠ [] := List.length_pos_iff.mp hpos
    rcases Nat.lt_or_ge FLANTERM_MAX_ESC_VALUES params.length with hfull | hroom
    · have hdecide : decide (params ≠ [] ∧ params.length ≤ FLANTERM_MAX_ESC_VALUES) = false :=
        decide_eq_false fun hle => by omega
      rw [hdecide, if_neg Bool.false_ne_true, Nat.min_eq_right (by omega),
        Nat.min_eq_right (Nat.le_of_lt hfull)]
    · have hdecide : decide (params ≠ [] ∧ params.length ≤ FLANTERM_MAX_ESC_VALUES) = true :=
        decide_eq_true ⟨hne, hroom⟩
      have hindex : min (params.length - 1) FLANTERM_MAX_ESC_VALUES + 1
          = min params.length FLANTERM_MAX_ESC_VALUES := by omega
      rw [hdecide, if_pos rfl, hindex]

/-- All bytes of a control sequence except the last one. -/
theorem write_opened {a : ScreenTerminal} (h : a.term.Ground) (params : List Nat) (c : UInt8) :
    ∃ offset, a.write fb (csi params c)
      = ScreenTerminal.putchar fb ⟨a.term.reading offset params, a.screen⟩ c := by
  obtain ⟨offset, hparams⟩ : ∃ offset, ScreenTerminal.write fb ⟨_, a.screen⟩ _ = _ :=
    write_parameters fb h 1 params
  refine ⟨offset, ?_⟩
  have hbytes : csi params c
      = [0x1b, 0x5b] ++ ([0x3b].intercalate (params.map decimal) ++ [c]) := rfl
  rw [hbytes, ScreenTerminal.write_append, ScreenTerminal.write_append,
    show a = ⟨a.term, a.screen⟩ from rfl, write_introducer fb h, hparams]
  rfl

end parser

end Flanterm

end ArgaldOS
