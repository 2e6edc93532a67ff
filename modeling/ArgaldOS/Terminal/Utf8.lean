import ArgaldOS.Framework.Words
import ArgaldOS.Terminal.Setup
import Mathlib.Data.Bool.AllAny

/-! # Characters in UTF-8

    A character outside ASCII arrives as a sequence of bytes, and `code_point` collects
    their bits.  When the last byte has come, its glyph is printed, or a replacement of the
    same width.

    * `FlantermContext.Ground`: the front end is not in the middle of anything;
    * `write_utf8EncodeChar`: the encoding of a character prints the character;
    * `write_chars`: a text of printable characters;
    * `write_truncated`: a character that breaks off.
-/

namespace ArgaldOS

namespace Flanterm

/-! ## Section 1: Between two characters -/

/-- The front end is not in the middle of a character or of a sequence. -/
structure FlantermContext.Ground (ctx : FlantermContext) : Prop where
  discard_next      : ctx.discard_next = false
  unicode_remaining : ctx.unicode_remaining = 0
  escape            : ctx.escape = false
  control_sequence  : ctx.control_sequence = false
  osc               : ctx.osc = false
  g_select          : ctx.g_select = 0

/-- In the middle of a character: `k` bytes are still to come. -/
def FlantermContext.decoding (ctx : FlantermContext) (k : Nat) (cp : UInt64) : FlantermContext :=
  { ctx with unicode_remaining := k, code_point := cp }

/-- The bytes that print a character outside ASCII: its glyph, or a replacement of the same
    width. -/
def codePointGlyphs (n : Nat) : List UInt8 :=
  match cp437Cases.lookup n with
  | some cc => [cc]
  | none =>
    let width := mk_wcwidth (UInt32.ofNat n)
    (if width > 0 then [0xfe] else []) ++ List.replicate (width - 1) 0x20

/-- Glyphs appear at the cursor, one after the other. -/
def Screen.prints (ctx : FlantermContext) (screen : Screen) (glyphs : List UInt8) : Screen :=
  glyphs.foldl (Screen.print ctx) screen

section bytes

/-- A continuation byte: two bits that mark it, and six bits of the code point. -/
theorem continuation_byte (n : Nat) : (UInt8.ofNat (n % 64 + 0x80) &&& 0xc0 = 0x80) ∧
    (UInt8.ofNat (n % 64 + 0x80) &&& 0x3f).toNat = n % 64 := by
  have hlt : n % 64 < 64 := Nat.mod_lt _ (by omega)
  have hval : (UInt8.ofNat (n % 64 + 0x80)).toNat = n % 64 + 0x80 := by
    rw [UInt8.toNat_ofNat']
    exact Nat.mod_eq_of_lt (by omega)
  constructor
  · apply UInt8.toNat_inj.mp
    rw [UInt8.toNat_and, hval]
    exact (by decide : ∀ m < 64, (m + 128) &&& 192 = 128) _ hlt
  · rw [UInt8.toNat_and, hval, show (0x3f : UInt8).toNat = 2 ^ 6 - 1 from rfl,
      Nat.and_two_pow_sub_one_eq_mod]
    omega

/-- The bits of a lead byte. -/
theorem lead_byte {n k mark : Nat} (mask : UInt8) (hmask : mask.toNat = 2 ^ k - 1)
    (hmark : mark % 2 ^ k = 0) (hn : n < 2 ^ k) (hlt : n + mark < 256) :
    (UInt8.ofNat (n + mark)).toNat = n + mark ∧ (UInt8.ofNat (n + mark) &&& mask).toNat = n := by
  have hval : (UInt8.ofNat (n + mark)).toNat = n + mark := by
    rw [UInt8.toNat_ofNat']
    exact Nat.mod_eq_of_lt hlt
  refine ⟨hval, ?_⟩
  rw [UInt8.toNat_and, hval, hmask, Nat.and_two_pow_sub_one_eq_mod, Nat.add_mod, hmark,
    Nat.add_zero, Nat.mod_mod, Nat.mod_eq_of_lt hn]

/-- A byte at its place in the code point. -/
theorem toNat_byte_shl (c : UInt8) {n : UInt64} {k : Nat} (hn : n.toNat = k) (hk : k ≤ 18) :
    (c.toUInt64 <<< n).toNat = c.toNat * 2 ^ k := by
  have hc := c.toNat_lt
  have hpow : 2 ^ k ≤ 2 ^ 18 := Nat.pow_le_pow_right (by omega) hk
  have hlt : c.toNat * 2 ^ k < 2 ^ 64 :=
    (Nat.mul_lt_mul_of_lt_of_le hc hpow (by omega)).trans_le (by omega)
  rw [UInt64.toNat_shiftLeft, UInt8.toNat_toUInt64, hn, Nat.mod_eq_of_lt (show k < 64 by omega),
    Nat.shiftLeft_eq, Nat.mod_eq_of_lt hlt]

/-- Six more bits of the code point. -/
theorem code_point_or (cp : UInt64) (n : Nat) {k : Nat} (hk : k ≤ 2)
    (hcp : cp.toNat % 2 ^ (6 * k + 6) = 0) :
    (cp ||| ((UInt8.ofNat (n % 64 + 0x80) &&& 0x3f).toUInt64 <<< UInt64.ofNat (6 * k))).toNat
      = cp.toNat + n % 64 * 2 ^ (6 * k) := by
  have hshift : (UInt64.ofNat (6 * k)).toNat = 6 * k := Words.ofNat_toNat_lt _ (by omega)
  have hbits := (continuation_byte n).2
  have hshl := toNat_byte_shl (UInt8.ofNat (n % 64 + 0x80) &&& 0x3f) hshift (by omega)
  rw [hbits] at hshl
  rw [Words.toNat_or_disjoint _ _ (6 * k + 6) hcp, hshl]
  rw [hshl, Nat.pow_add, Nat.mul_comm]
  exact Nat.mul_lt_mul_of_pos_left (Nat.mod_lt _ (by omega)) (Nat.two_pow_pos _)

end bytes

/-! ## Section 2: A character -/

section character
variable (fb : FbSettings) {a : ScreenTerminal}

/-- A byte that begins a character. -/
theorem putchar_lead (h : a.term.Ground) {c : UInt8} (hc : 0xc0 ≤ c ∧ c ≤ 0xf7) :
    a.putchar fb c = ⟨leadByte a.term c, a.screen⟩ := by
  have hcancel : ¬(a.term.discard_next ∨ c = 0x18 ∨ c = 0x1a) := by
    rw [h.discard_next]
    rintro (hfalse | rfl | rfl)
    · cases hfalse
    · exact absurd hc.1 (by decide)
    · exact absurd hc.1 (by decide)
  simp only [ScreenTerminal.putchar, flanterm_putchar, if_neg hcancel, h.unicode_remaining,
    ne_eq, not_true_eq_false, if_false, unicode_error, if_pos hc, List.foldl_nil]

/-- A lead byte tells how many bytes follow, and carries the first bits.  One byte follows. -/
theorem putchar_lead_one (h : a.term.Ground) {w : Nat} (hw : w < 0x20) :
    ∃ cp, cp.toNat = w * 2 ^ 6 ∧
      a.putchar fb (UInt8.ofNat (w + 0xc0)) = ⟨a.term.decoding 1 cp, a.screen⟩ := by
  obtain ⟨hval, hbits⟩ := lead_byte (k := 5) 0x1f rfl rfl hw (show w + 0xc0 < 256 by omega)
  refine ⟨_, (toNat_byte_shl _ (n := 6) (k := 6) rfl (by omega)).trans (by rw [hbits]), ?_⟩
  rw [putchar_lead fb h, leadByte, if_pos]
  · rfl
  · rw [UInt8.le_iff_toNat_le, hval]
    show w + 192 ≤ 223
    omega
  · rw [UInt8.le_iff_toNat_le, UInt8.le_iff_toNat_le, hval]
    show 192 ≤ w + 192 ∧ w + 192 ≤ 247
    omega

/-- Two bytes follow. -/
theorem putchar_lead_two (h : a.term.Ground) {w : Nat} (hw : w < 0x10) :
    ∃ cp, cp.toNat = w * 2 ^ 12 ∧
      a.putchar fb (UInt8.ofNat (w + 0xe0)) = ⟨a.term.decoding 2 cp, a.screen⟩ := by
  obtain ⟨hval, hbits⟩ := lead_byte (k := 4) 0x0f rfl rfl hw (show w + 0xe0 < 256 by omega)
  refine ⟨_, (toNat_byte_shl _ (n := 12) (k := 12) rfl (by omega)).trans (by rw [hbits]), ?_⟩
  rw [putchar_lead fb h, leadByte, if_neg, if_pos]
  · rfl
  · rw [UInt8.le_iff_toNat_le, hval]
    show w + 224 ≤ 239
    omega
  · rw [UInt8.le_iff_toNat_le, hval]
    show ¬w + 224 ≤ 223
    omega
  · rw [UInt8.le_iff_toNat_le, UInt8.le_iff_toNat_le, hval]
    show 192 ≤ w + 224 ∧ w + 224 ≤ 247
    omega

/-- Three bytes follow. -/
theorem putchar_lead_three (h : a.term.Ground) {w : Nat} (hw : w < 0x08) :
    ∃ cp, cp.toNat = w * 2 ^ 18 ∧
      a.putchar fb (UInt8.ofNat (w + 0xf0)) = ⟨a.term.decoding 3 cp, a.screen⟩ := by
  obtain ⟨hval, hbits⟩ := lead_byte (k := 3) 0x07 rfl rfl hw (show w + 0xf0 < 256 by omega)
  refine ⟨_, (toNat_byte_shl _ (n := 18) (k := 18) rfl (by omega)).trans (by rw [hbits]), ?_⟩
  rw [putchar_lead fb h, leadByte, if_neg, if_neg]
  · rfl
  · rw [UInt8.le_iff_toNat_le, hval]
    show ¬w + 240 ≤ 239
    omega
  · rw [UInt8.le_iff_toNat_le, hval]
    show ¬w + 240 ≤ 223
    omega
  · rw [UInt8.le_iff_toNat_le, UInt8.le_iff_toNat_le, hval]
    show 192 ≤ w + 240 ∧ w + 240 ≤ 247
    omega

/-- The calls for a complete code point. -/
theorem printCodePoint_eq {ctx : FlantermContext} {n : Nat} (hn : ctx.code_point.toNat = n) :
    printCodePoint ctx = (codePointGlyphs n).map Op.raw_putchar := by
  have hnarrow : ctx.code_point.toUInt32 = UInt32.ofNat n := by
    apply UInt32.toNat_inj.mp
    rw [UInt64.toNat_toUInt32, hn, UInt32.toNat_ofNat']
  rw [printCodePoint, unicode_to_cp437, codePointGlyphs, hn, hnarrow]
  cases List.lookup n cp437Cases with
  | some cc => rfl
  | none =>
    simp only [List.map_append, List.map_replicate]
    split <;> rfl

/-- The calls that print glyphs. -/
theorem foldl_raw_putchar (ctx : FlantermContext) (glyphs : List UInt8) (screen : Screen) :
    (ctx.calls (glyphs.map Op.raw_putchar)).foldl (Screen.perform fb) screen
      = screen.prints ctx glyphs := by
  induction glyphs generalizing screen with
  | nil => rfl
  | cons c glyphs ih => exact ih (screen.print ctx c)

/-- A byte that continues a character. -/
theorem putchar_continuation {ctx : FlantermContext} (hdiscard : ctx.discard_next = false)
    {k : Nat} {cp : UInt64} {screen : Screen} (n : Nat) :
    ScreenTerminal.putchar fb ⟨ctx.decoding (k + 1) cp, screen⟩ (UInt8.ofNat (n % 64 + 0x80))
      = ⟨(continuationByte (ctx.decoding (k + 1) cp) (UInt8.ofNat (n % 64 + 0x80))).1,
          (continuationByte (ctx.decoding (k + 1) cp) (UInt8.ofNat (n % 64 + 0x80))).2.foldl
            (Screen.perform fb) screen⟩ := by
  have hmark := (continuation_byte n).1
  generalize UInt8.ofNat (n % 64 + 0x80) = c at hmark
  have hcancel : ¬((ctx.decoding (k + 1) cp).discard_next ∨ c = 0x18 ∨ c = 0x1a) := by
    rintro (hfalse | rfl | rfl)
    · exact absurd (hdiscard.symm.trans hfalse) Bool.false_ne_true
    · exact absurd hmark (by decide)
    · exact absurd hmark (by decide)
  have hremaining : (ctx.decoding (k + 1) cp).unicode_remaining ≠ 0 := Nat.succ_ne_zero k
  simp only [ScreenTerminal.putchar, flanterm_putchar, if_neg hcancel, if_pos hremaining, hmark,
    ne_eq, not_true_eq_false, if_false]

/-- A byte in the middle of a character. -/
theorem putchar_middle {ctx : FlantermContext} (hdiscard : ctx.discard_next = false) {k : Nat}
    (hk : k ≤ 1) (cp : UInt64) (hcp : cp.toNat % 2 ^ (6 * (k + 1) + 6) = 0) (screen : Screen)
    (n : Nat) : ∃ cp', cp'.toNat = cp.toNat + n % 64 * 2 ^ (6 * (k + 1)) ∧
      ScreenTerminal.putchar fb ⟨ctx.decoding (k + 2) cp, screen⟩ (UInt8.ofNat (n % 64 + 0x80))
        = ⟨ctx.decoding (k + 1) cp', screen⟩ :=
  ⟨_, code_point_or cp n (by omega) hcp, putchar_continuation fb hdiscard n⟩

/-- The last byte of a character. -/
theorem putchar_last {ctx : FlantermContext} (hdiscard : ctx.discard_next = false) {cp : UInt64}
    {n : Nat} (hcp : cp.toNat = n / 64 * 64) (hn : n < 2 ^ 32) (screen : Screen) :
    ScreenTerminal.putchar fb ⟨ctx.decoding 1 cp, screen⟩ (UInt8.ofNat (n % 64 + 0x80))
      = ⟨ctx.decoding 0 (UInt64.ofNat n), screen.prints ctx (codePointGlyphs n)⟩ := by
  have hn64 : (UInt64.ofNat n).toNat = n := Words.ofNat_toNat_lt n (by omega)
  have hvalue := code_point_or cp n (k := 0) (by omega) (by omega)
  have hcode : (cp ||| ((UInt8.ofNat (n % 64 + 0x80) &&& 0x3f).toUInt64 <<< UInt64.ofNat (6 * 0)))
      = UInt64.ofNat n := by
    apply UInt64.toNat_inj.mp
    rw [hvalue, hcp, hn64]
    omega
  have hbyte : continuationByte (ctx.decoding 1 cp) (UInt8.ofNat (n % 64 + 0x80))
      = (ctx.decoding 0 (UInt64.ofNat n), (ctx.decoding 0 (UInt64.ofNat n)).calls
          (printCodePoint (ctx.decoding 0 (UInt64.ofNat n)))) := by
    rw [← hcode]
    rfl
  rw [putchar_continuation fb hdiscard, hbyte, printCodePoint_eq (n := n) hn64, foldl_raw_putchar]
  rfl

/-- **A character outside ASCII**: the bytes of its encoding print its glyph, or its
    replacement, and leave the front end as it was. -/
theorem write_utf8EncodeChar (h : a.term.Ground) {c : Char} (hc : 0x80 ≤ c.toNat) :
    a.write fb (String.utf8EncodeChar c)
      = ⟨a.term.decoding 0 (UInt64.ofNat c.toNat),
          a.screen.prints a.term (codePointGlyphs c.toNat)⟩ := by
  have hlt : c.toNat < 0x110000 := by
    rcases c.valid with hlow | hhigh
    · exact hlow.trans (by decide)
    · exact hhigh.2
  have hdiscard := h.discard_next
  have hval : c.val.toNat = c.toNat := rfl
  generalize c.toNat = n at hc hlt hval
  simp only [String.utf8EncodeChar, hval, if_neg (show ¬n ≤ 0x7f by omega)]
  split
  · next htwo =>
    obtain ⟨cp, hcp, hlead⟩ := putchar_lead_one fb h
      (show n / 64 % 0x20 < 0x20 from Nat.mod_lt _ (by omega))
    simp only [ScreenTerminal.write, Runs.run_cons, Runs.run_nil]
    rw [hlead, putchar_last fb hdiscard (by omega) (by omega)]
  · split
    · next hthree =>
      obtain ⟨cp, hcp, hlead⟩ := putchar_lead_two fb h
        (show n / 4096 % 0x10 < 0x10 from Nat.mod_lt _ (by omega))
      obtain ⟨cp₁, hcp₁, hmiddle⟩ := putchar_middle fb hdiscard (show 0 ≤ 1 by omega)
        cp (by omega) a.screen (n / 64)
      simp only [ScreenTerminal.write, Runs.run_cons, Runs.run_nil]
      rw [hlead, hmiddle, putchar_last fb hdiscard (by omega) (by omega)]
    · obtain ⟨cp, hcp, hlead⟩ := putchar_lead_three fb h
        (show n / 262144 % 0x08 < 0x08 from Nat.mod_lt _ (by omega))
      obtain ⟨cp₁, hcp₁, hmiddle₁⟩ := putchar_middle fb hdiscard (show 1 ≤ 1 by omega)
        cp (by omega) a.screen (n / 4096)
      obtain ⟨cp₂, hcp₂, hmiddle₂⟩ := putchar_middle fb hdiscard (show 0 ≤ 1 by omega)
        cp₁ (by omega) a.screen (n / 64)
      simp only [ScreenTerminal.write, Runs.run_cons, Runs.run_nil]
      rw [hlead, hmiddle₁, hmiddle₂, putchar_last fb hdiscard (by omega) (by omega)]

/-! ## Section 3: Texts without control characters -/

/-- The bytes that print a character. -/
def charGlyphs (c : Char) : List UInt8 :=
  if c.toNat < 0x80 then [UInt8.ofNat c.toNat] else codePointGlyphs c.toNat

/-- A character that is no control character. -/
def Graphic (c : Char) : Prop := 0x20 ≤ c.toNat ∧ c.toNat ≠ 0x7f

instance (c : Char) : Decidable (Graphic c) := by
  unfold Graphic
  infer_instance

/-- Bytes are printed as they are: nothing is inserted, and the character set is the default
    one. -/
structure FlantermContext.Plain (ctx : FlantermContext) : Prop extends ctx.Ground where
  insert_mode : ctx.insert_mode = false
  charset     : ctx.charsets ctx.current_charset ≠ CHARSET_DEC_SPECIAL

/-- The last code point does not matter between two characters. -/
theorem FlantermContext.Plain.decoding (h : a.term.Plain) (cp : UInt64) :
    (a.term.decoding 0 cp).Plain := { h with unicode_remaining := rfl }

theorem vga_plain : ScreenTerminal.vga.term.Plain :=
  { discard_next := rfl, unicode_remaining := rfl, escape := rfl, control_sequence := rfl,
    osc := rfl, g_select := rfl, insert_mode := rfl, charset := by decide }

/-- A byte that is no control character is printed. -/
theorem plainByte_eq {ctx : FlantermContext} {c : UInt8} (hlow : 0x20 ≤ c.toNat)
    (hhigh : c.toNat ≠ 0x7f) (x y : Nat) :
    plainByte ctx c x y = (ctx, ctx.calls (printByte ctx c x y)) := by
  rw [plainByte]
  split
  all_goals first | omega | rfl

/-- A byte of ASCII that is no control character. -/
theorem putchar_printable (h : a.term.Ground) {c : UInt8} (hlow : 0x20 ≤ c.toNat)
    (hhigh : c.toNat < 0x7f) : a.putchar fb c =
      ⟨a.term, (a.term.calls (printByte a.term c (get_cursor_pos a.term a.screen.pen).1
        (get_cursor_pos a.term a.screen.pen).2)).foldl (Screen.perform fb) a.screen⟩ := by
  have hcancel : ¬(a.term.discard_next ∨ c = 0x18 ∨ c = 0x1a) := by
    rw [h.discard_next]
    rintro (hfalse | rfl | rfl)
    · cases hfalse
    · exact absurd hlow (by decide)
    · exact absurd hlow (by decide)
  have hlead : ¬(0xc0 ≤ c ∧ c ≤ 0xf7) := by
    intro hc
    have hle : 192 ≤ c.toNat := UInt8.le_iff_toNat_le.mp hc.1
    omega
  simp only [ScreenTerminal.putchar, flanterm_putchar, if_neg hcancel, h.unicode_remaining,
    unicode_error, if_neg hlead, h.escape, h.g_select, ne_eq, not_true_eq_false,
    Bool.false_eq_true, if_false, plainByte_eq hlow (Nat.ne_of_lt hhigh)]

/-- A byte of ASCII is its own glyph. -/
theorem glyphOf_eq {c : UInt8} (hlow : 0x20 ≤ c.toNat) (hhigh : c.toNat < 0x7f) :
    glyphOf c = c := by
  rw [glyphOf, if_pos]
  rw [UInt8.le_iff_toNat_le, UInt8.le_iff_toNat_le]
  exact ⟨hlow, Nat.lt_succ_iff.mp hhigh⟩

/-- A byte of ASCII. -/
theorem putchar_ascii (h : a.term.Plain) {c : UInt8} (hlow : 0x20 ≤ c.toNat)
    (hhigh : c.toNat < 0x7f) : a.putchar fb c = ⟨a.term, a.screen.print a.term c⟩ := by
  have hprint : ∀ x y, printByte a.term c x y = [.raw_putchar c] := by
    intro x y
    simp only [printByte, h.insert_mode, Bool.false_eq_true, if_false, if_neg h.charset,
      glyphOf_eq hlow hhigh, List.nil_append]
  rw [putchar_printable fb h.toGround hlow hhigh, hprint]
  rfl

/-- **A printable character**, in ASCII or not. -/
theorem write_char (h : a.term.Plain) {c : Char} (hc : Graphic c) :
    ∃ cp, a.write fb (String.utf8EncodeChar c)
      = ⟨a.term.decoding 0 cp, a.screen.prints a.term (charGlyphs c)⟩ := by
  by_cases hascii : c.toNat < 0x80
  · obtain ⟨hlow, hne⟩ := hc
    have hval : (UInt8.ofNat c.toNat).toNat = c.toNat := by
      rw [UInt8.toNat_ofNat']
      exact Nat.mod_eq_of_lt (by omega)
    refine ⟨a.term.code_point, ?_⟩
    have hterm : a.term.decoding 0 a.term.code_point = a.term := by
      rw [← h.unicode_remaining]
      rfl
    have hencode : String.utf8EncodeChar c = [UInt8.ofNat c.toNat] := by
      rw [String.utf8EncodeChar]
      exact if_pos (show c.toNat ≤ 0x7f by omega)
    rw [hencode, charGlyphs, if_pos hascii, hterm]
    exact putchar_ascii fb h (by omega) (by omega)
  · rw [charGlyphs, if_neg hascii]
    exact ⟨_, write_utf8EncodeChar fb h.toGround (by omega)⟩

/-- **A text of printable characters**: the glyphs of all of them are printed. -/
theorem write_chars (h : a.term.Plain) {cs : List Char} (hcs : ∀ c ∈ cs, Graphic c) :
    ∃ cp, a.write fb (cs.flatMap String.utf8EncodeChar)
      = ⟨a.term.decoding 0 cp, a.screen.prints a.term (cs.flatMap charGlyphs)⟩ := by
  induction cs generalizing a with
  | nil =>
    refine ⟨a.term.code_point, ?_⟩
    show a = ⟨a.term.decoding 0 a.term.code_point, a.screen⟩
    rw [FlantermContext.decoding, ← h.unicode_remaining]
  | cons c cs ih =>
    obtain ⟨cp, hchar⟩ := write_char fb h (hcs c List.mem_cons_self)
    obtain ⟨cp', hrest⟩ := ih
      (a := ⟨a.term.decoding 0 cp, a.screen.prints a.term (charGlyphs c)⟩) (h.decoding cp)
      fun c' hc' => hcs c' (List.mem_cons_of_mem c hc')
    refine ⟨cp', ?_⟩
    rw [List.flatMap_cons, List.flatMap_cons, ScreenTerminal.write_append, hchar, hrest,
      Screen.prints, Screen.prints, Screen.prints, List.foldl_append]
    rfl

/-! ## Section 4: Characters that break off -/

set_option maxRecDepth 2000 in
/-- A byte below or above the continuation bytes. -/
theorem not_continuation {c : UInt8} (h : c.toNat < 0x80 ∨ 0xc0 ≤ c.toNat) :
    c &&& 0xc0 ≠ 0x80 := by
  intro heq
  have hand : c.toNat &&& 192 = 128 := by
    rw [← show (0xc0 : UInt8).toNat = 192 from rfl, ← UInt8.toNat_and, heq]
    rfl
  exact (by decide : ∀ m < 256, m < 128 ∨ 192 ≤ m → m &&& 192 ≠ 128) _ c.toNat_lt h hand

/-- The first byte of a character is no continuation byte. -/
theorem utf8EncodeChar_head (c : Char) : ∃ b rest, String.utf8EncodeChar c = b :: rest ∧
    b &&& 0xc0 ≠ 0x80 := by
  have hlead : ∀ n, n < 0x80 ∨ 0xc0 ≤ n → n < 256 → UInt8.ofNat n &&& 0xc0 ≠ 0x80 := by
    intro n hn hlt
    apply not_continuation
    rwa [UInt8.toNat_ofNat', Nat.mod_eq_of_lt hlt]
  simp only [String.utf8EncodeChar]
  generalize c.val.toNat = n
  split
  · exact ⟨_, _, rfl, hlead n (by omega) (by omega)⟩
  · split
    · exact ⟨_, _, rfl, hlead _ (by omega) (by omega)⟩
    · split
      · exact ⟨_, _, rfl, hlead _ (by omega) (by omega)⟩
      · exact ⟨_, _, rfl, hlead _ (by omega) (by omega)⟩

/-- **The first bytes of a character** print nothing. -/
theorem write_take (h : a.term.Ground) (c : Char) {k : Nat}
    (hk : k < (String.utf8EncodeChar c).length) :
    ∃ r cp, a.write fb ((String.utf8EncodeChar c).take k)
      = ⟨a.term.decoding r cp, a.screen⟩ := by
  have hdiscard := h.discard_next
  rcases k with _ | k
  · exact ⟨a.term.unicode_remaining, a.term.code_point, rfl⟩
  simp only [String.utf8EncodeChar] at hk ⊢
  generalize c.val.toNat = n at hk ⊢
  split at hk
  · exact absurd hk (by simp)
  split at hk
  · next hone htwo =>
    obtain rfl : k = 0 := by
      have hlt : k + 1 < 2 := hk
      omega
    obtain ⟨cp, -, hlead⟩ := putchar_lead_one fb h
      (show n / 64 % 0x20 < 0x20 from Nat.mod_lt _ (by omega))
    rw [if_neg hone, if_pos htwo]
    exact ⟨1, cp, hlead⟩
  split at hk
  · next hone htwo hthree =>
    obtain ⟨cp, hcp, hlead⟩ := putchar_lead_two fb h
      (show n / 4096 % 0x10 < 0x10 from Nat.mod_lt _ (by omega))
    obtain ⟨cp₁, -, hmiddle⟩ := putchar_middle fb hdiscard (show 0 ≤ 1 by omega)
      cp (by omega) a.screen (n / 64)
    rw [if_neg hone, if_neg htwo, if_pos hthree]
    have hlt : k + 1 < 3 := hk
    rcases k with _ | k
    · exact ⟨2, cp, hlead⟩
    · obtain rfl : k = 0 := by omega
      refine ⟨1, cp₁, ?_⟩
      simp only [List.take_succ_cons, List.take_zero, ScreenTerminal.write, Runs.run_cons,
        Runs.run_nil]
      rw [hlead, hmiddle]
  · next hone htwo hthree =>
    obtain ⟨cp, hcp, hlead⟩ := putchar_lead_three fb h
      (show n / 262144 % 0x08 < 0x08 from Nat.mod_lt _ (by omega))
    obtain ⟨cp₁, hcp₁, hmiddle₁⟩ := putchar_middle fb hdiscard (show 1 ≤ 1 by omega)
      cp (by omega) a.screen (n / 4096)
    obtain ⟨cp₂, -, hmiddle₂⟩ := putchar_middle fb hdiscard (show 0 ≤ 1 by omega)
      cp₁ (by omega) a.screen (n / 64)
    rw [if_neg hone, if_neg htwo, if_neg hthree]
    have hlt : k + 1 < 4 := hk
    simp only [List.take_succ_cons, ScreenTerminal.write, Runs.run_cons]
    rw [hlead]
    rcases k with _ | _ | k
    · exact ⟨3, cp, rfl⟩
    · exact ⟨2, cp₁, hmiddle₁⟩
    · obtain rfl : k = 0 := by omega
      refine ⟨1, cp₂, ?_⟩
      simp only [List.take_succ_cons, List.take_zero, Runs.run_cons, Runs.run_nil]
      rw [hmiddle₁, hmiddle₂]

/-- A byte that continues nothing, in the middle of a character: the character is dropped. -/
theorem putchar_broken {ctx : FlantermContext} {screen : Screen} {c : UInt8}
    (hc : c &&& 0xc0 ≠ 0x80) (k : Nat) (cp : UInt64) :
    ScreenTerminal.putchar fb ⟨ctx.decoding k cp, screen⟩ c
      = ScreenTerminal.putchar fb ⟨ctx.decoding 0 cp, screen⟩ c := by
  have hbyte : ∀ x y, flanterm_putchar (ctx.decoding k cp) c x y
      = flanterm_putchar (ctx.decoding 0 cp) c x y := by
    intro x y
    have hnone : ¬(ctx.decoding 0 cp).unicode_remaining ≠ 0 := fun h => h rfl
    by_cases hcancel : ctx.discard_next ∨ c = 0x18 ∨ c = 0x1a
    · exact (if_pos hcancel).trans (if_pos hcancel).symm
    · by_cases hk : k = 0
      · rw [hk]
      · have hleft : flanterm_putchar (ctx.decoding k cp) c x y
            = unicode_error (ctx.decoding 0 cp) c x y :=
          (if_neg hcancel).trans ((if_pos hk).trans (if_pos hc))
        exact hleft.trans ((if_neg hcancel).trans (if_neg hnone)).symm
  simp only [ScreenTerminal.putchar]
  rw [show get_cursor_pos (ctx.decoding k cp) screen.pen
    = get_cursor_pos (ctx.decoding 0 cp) screen.pen from rfl, hbyte]

/-- Behind a character that breaks off, a byte that continues nothing has the effect that it has
    without it, and so has all that follows. -/
theorem write_broken (h : a.term.Ground) (c : Char) {k : Nat}
    (hk : k < (String.utf8EncodeChar c).length) {b : UInt8} (hb : b &&& 0xc0 ≠ 0x80)
    (rest : List UInt8) :
    ∃ cp, a.write fb ((String.utf8EncodeChar c).take k ++ b :: rest)
      = ScreenTerminal.write fb ⟨a.term.decoding 0 cp, a.screen⟩ (b :: rest) := by
  obtain ⟨r, cp, htake⟩ := write_take fb h c hk
  have hresume : ∀ k, ScreenTerminal.write fb ⟨a.term.decoding k cp, a.screen⟩ (b :: rest)
      = Runs.run (ScreenTerminal.putchar fb)
          (ScreenTerminal.putchar fb ⟨a.term.decoding k cp, a.screen⟩ b) rest := by
    intro k
    rw [ScreenTerminal.write, Runs.run_cons]
  refine ⟨cp, ?_⟩
  rw [ScreenTerminal.write_append, htake, hresume, putchar_broken fb hb, ← hresume]

/-- **A character that breaks off** leaves no trace: the bytes behind it do what they do without
    it, if the first of them continues no character, and a text is printed as it is. -/
theorem write_truncated (h : a.term.Ground) (c : Char) {k : Nat}
    (hk : k < (String.utf8EncodeChar c).length) :
    (∀ (b : UInt8) (rest : List UInt8), b &&& 0xc0 ≠ 0x80 →
      ∃ cp, a.write fb ((String.utf8EncodeChar c).take k ++ b :: rest)
        = ScreenTerminal.write fb ⟨a.term.decoding 0 cp, a.screen⟩ (b :: rest)) ∧
    (a.term.Plain → ∀ text : List Char, text ≠ [] → (∀ d ∈ text, Graphic d) →
      ∃ cp, a.write fb ((String.utf8EncodeChar c).take k ++ text.flatMap String.utf8EncodeChar)
        = ⟨a.term.decoding 0 cp, a.screen.prints a.term (text.flatMap charGlyphs)⟩) := by
  refine ⟨fun b rest hb => write_broken fb h c hk hb rest, ?_⟩
  intro hplain text hne htext
  obtain ⟨d, text, rfl⟩ := List.exists_cons_of_ne_nil hne
  obtain ⟨b, rest, hencode, hb⟩ := utf8EncodeChar_head d
  have hbytes : (d :: text).flatMap String.utf8EncodeChar
      = b :: (rest ++ text.flatMap String.utf8EncodeChar) := by
    rw [List.flatMap_cons, hencode, List.cons_append]
  obtain ⟨cp, hbroken⟩ := write_broken fb h c hk hb (rest ++ text.flatMap String.utf8EncodeChar)
  obtain ⟨cp', hwrite⟩ := write_chars fb (a := ⟨a.term.decoding 0 cp, a.screen⟩)
    (hplain.decoding cp) htext
  refine ⟨cp', ?_⟩
  rw [hbytes, hbroken, ← hbytes, hwrite]
  rfl

/-- Two of the three bytes of a box drawing character, then a line feed and an umlaut. -/
theorem write_truncated_box :
    (∃ cp, ScreenTerminal.vga.write vgaSettings ((String.utf8EncodeChar '─').take 2 ++ [0x0a, 0x68])
      = ScreenTerminal.write vgaSettings
          ⟨ScreenTerminal.vga.term.decoding 0 cp, ScreenTerminal.vga.screen⟩ [0x0a, 0x68]) ∧
    ∃ cp, ScreenTerminal.vga.write vgaSettings
        ((String.utf8EncodeChar '─').take 2 ++ ['h', 'ö'].flatMap String.utf8EncodeChar)
      = ⟨ScreenTerminal.vga.term.decoding 0 cp, ScreenTerminal.vga.screen.prints
          ScreenTerminal.vga.term (['h', 'ö'].flatMap charGlyphs)⟩ := by
  obtain ⟨hbytes, htext⟩ := write_truncated vgaSettings vga_plain.toGround '─' (k := 2) (by decide)
  exact ⟨hbytes 0x0a [0x68] (by decide), htext vga_plain ['h', 'ö'] (List.cons_ne_nil _ _)
    (List.all_iff_forall_prop.mp (by decide))⟩

end character

end Flanterm

end ArgaldOS
