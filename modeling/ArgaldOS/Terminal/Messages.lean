import ArgaldOS.Console.Printk
import ArgaldOS.Terminal.Text

/-! # Kernel messages on the screen (`stdlib/printf.c`, `drivers/terminal/terminal.c`)

    `printk` hands each character of a message over to the terminal, which reads it like a
    text of one byte and draws the screen.  The characters that it prints are the text that
    the console has got (`Console.terminal`), so that is what is to be seen in the end.

    * `vprintf_shows`: a message;
    * `messages_show`: any sequence of messages;
    * `printk_text`: a text in messages, from the boot loader's framebuffer to the pixels.
-/

namespace ArgaldOS

namespace Flanterm

section messages
variable {A : Type} (formatter : CString → A → CString) (fb : FbSettings)

/-- `_out_char`, with `_putchar` and `terminal_write_char`. -/
def sendChar (t : Terminal) (character : UInt8) : Option Terminal :=
  if character ≠ 0 then flanterm_putchar_wrapper fb t character else some t

/-- `vprintf`, on the screen. -/
def vprintfScreen (t : Terminal) (message : CString × A) : Option Terminal :=
  (formatter message.1 message.2 ++ [0]).foldlM (sendChar fb) t

/-- What the messages print. -/
def messagesText (messages : List (CString × A)) : CString :=
  messages.flatMap fun message => terminalText formatter message.1 message.2

variable {fb}
variable {rows cols : Nat} {t : Terminal} {a : ScreenTerminal}

/-- The characters that are sent, one after the other. -/
theorem foldlM_sendChar (text : CString) : text.foldlM (sendChar fb) t
    = Runs.exec (flanterm_write fb) t ((text.filter (· ≠ 0)).map fun c => [c]) := by
  induction text generalizing t with
  | nil => rfl
  | cons c text ih =>
    rw [List.foldlM_cons, sendChar]
    by_cases hc : c ≠ 0
    · rw [if_pos hc, List.filter_cons_of_pos (by simpa using hc), List.map_cons, Runs.exec_cons,
        flanterm_putchar_wrapper_eq]
      exact congrArg _ (funext fun _ => ih)
    · rw [if_neg hc, List.filter_cons_of_neg (by simpa using hc)]
      exact ih

/-- **A message** is shown. -/
theorem vprintf_shows (hfits : fb.Fits rows cols) (hdraws : fb.Draws rows cols)
    (h : ShowsAll fb rows cols t a) (message : CString × A) :
    ∃ t', vprintfScreen formatter fb t message = some t' ∧
      ShowsAll fb rows cols t' (a.write fb (terminalText formatter message.1 message.2)) ∧
      ∀ k, Outside fb rows cols k → t'.fb.framebuffer k = t.fb.framebuffer k := by
  obtain ⟨t', hrun, hshows, houtside⟩ := writes_show hfits hdraws h
    ((terminalText formatter message.1 message.2).map fun c => [c])
  have hflatten : ((terminalText formatter message.1 message.2).map fun c => [c]).flatten
      = terminalText formatter message.1 message.2 := by
    rw [← List.flatMap_def, List.flatMap_singleton']
  have hnul : (formatter message.1 message.2 ++ [0]).filter (· ≠ 0)
      = terminalText formatter message.1 message.2 := by
    rw [List.filter_append, terminalText]
    exact List.append_nil _
  refine ⟨t', ?_, hflatten ▸ hshows, houtside⟩
  rw [vprintfScreen, foldlM_sendChar, hnul]
  exact hrun

/-- **Any sequence of messages** is shown. -/
theorem messages_show (hfits : fb.Fits rows cols) (hdraws : fb.Draws rows cols)
    (h : ShowsAll fb rows cols t a) (messages : List (CString × A)) :
    ∃ t', Runs.exec (vprintfScreen formatter fb) t messages = some t' ∧
      ShowsAll fb rows cols t' (a.write fb (messagesText formatter messages)) ∧
      ∀ k, Outside fb rows cols k → t'.fb.framebuffer k = t.fb.framebuffer k := by
  induction messages generalizing t a with
  | nil => exact ⟨t, rfl, h, fun _ _ => rfl⟩
  | cons message messages ih =>
    obtain ⟨t₁, hfirst, h₁, houtside₁⟩ := vprintf_shows formatter hfits hdraws h message
    obtain ⟨t₂, hrest, h₂, houtside₂⟩ := ih h₁
    refine ⟨t₂, ?_, ?_, fun k hk => (houtside₂ k hk).trans (houtside₁ k hk)⟩
    · rw [Runs.exec_cons, hfirst, Option.bind_some, hrest]
    · rw [messagesText, List.flatMap_cons, ScreenTerminal.write_append]
      exact h₂

variable (fb) in
/-- **A text in messages**: on a new terminal the characters of all messages together are
    laid out like on a typewriter, and each of them is drawn with the font.  It does not
    matter where one message ends and the next one begins. -/
theorem printk_text (f : LimineFramebuffer) (hwide : f.rows ≤ f.cols)
    (builtin_font : Nat → UInt8) (mem : Nat → UInt32) (messages : List (CString × A))
    {first : List Char} {others : List (List Char)}
    (htext : messagesText formatter messages = encodeLines (first :: others))
    (hgraphic : ∀ line ∈ first :: others, ∀ c ∈ line, Graphic c) : ∃ font_bool t t' pool,
    flanterm_fb_init f builtin_font mem ⟨0, false⟩ = some (some (settings f font_bool, t), pool) ∧
      Runs.exec (vprintfScreen formatter (settings f font_bool)) t messages = some t' ∧
      ∀ x y gy gx, x < f.cols → y < f.rows → gy < f.glyphHeight → gx < f.glyphWidth →
        t'.fb.framebuffer (wordIndex (settings f font_bool) x y gy gx)
          = f.pixel builtin_font (settings f font_bool)
              (textChar (settings f font_bool).default_fg 0xffffffff f.rows f.cols
                ((first :: others).map lineGlyphs) x y) gy gx := by
  obtain ⟨font_bool, t, pool, hinit, -, hdots, hshows, -⟩ :=
    flanterm_fb_init_spec f builtin_font mem
  obtain ⟨t', hrun, hshows', -⟩ :=
    messages_show formatter (settings_fits f font_bool) (settings_draws f font_bool) hshows messages
  refine ⟨font_bool, t, t', pool, hinit, hrun, ?_⟩
  intro x y gy gx hx hy hgy hgx
  rw [hshows'.pixel hdots hx hy hgy hgx, htext, fresh_shows_text f _ hwide hgraphic hx hy]

/-- Two messages; the first one ends behind a line. -/
theorem printk_text_messages : ∃ font_bool t t' pool,
    flanterm_fb_init .vga (fun _ => 0xff) (fun _ => 0) ⟨0, false⟩
      = some (some (settings .vga font_bool, t), pool) ∧
      Runs.exec (vprintfScreen (fun format (_ : Unit) => format) (settings .vga font_bool)) t
        [([0x68, 0x69, 0x0a], ()), ([0x78], ())] = some t' ∧
      t'.fb.framebuffer (wordIndex (settings .vga font_bool) 1 0 0 0)
        = LimineFramebuffer.vga.pixel (fun _ => 0xff) (settings .vga font_bool)
            (glyphChar (settings .vga font_bool).default_fg 0xffffffff (some 0x69)) 0 0 := by
  obtain ⟨font_bool, t, t', pool, hinit, hrun, hpixel⟩ := printk_text
    (fun format (_ : Unit) => format) .vga (by decide) (fun _ => 0xff) (fun _ => 0)
    [([0x68, 0x69, 0x0a], ()), ([0x78], ())]
    (show messagesText _ _ = encodeLines [['h', 'i'], ['x']] by decide)
    (List.forall_mem_cons.mpr ⟨List.all_iff_forall_prop.mp (by decide),
      List.forall_mem_singleton.mpr (List.all_iff_forall_prop.mp (by decide))⟩)
  have hlayout : TextLayout.layout LimineFramebuffer.vga.cols ([['h', 'i'], ['x']].map lineGlyphs)
      = [[0x68, 0x69], [0x78]] := by
    rw [TextLayout.layout, List.map_cons, List.map_cons, List.map_nil, List.flatMap_cons,
      List.flatMap_cons, TextLayout.wrap_of_le (by decide), TextLayout.wrap_of_le (by decide)]
    rfl
  refine ⟨font_bool, t, t', pool, hinit, hrun, ?_⟩
  rw [hpixel 1 0 0 0 (by decide) (by decide) (by decide) (by decide), textChar, hlayout,
    if_neg (by decide)]
  rfl

end messages

end Flanterm

end ArgaldOS
