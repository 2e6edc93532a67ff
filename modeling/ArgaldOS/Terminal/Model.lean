import ArgaldOS.Terminal.Framebuffer
import ArgaldOS.Terminal.Parser

/-! # The terminal (`flanterm/flanterm.c`, `drivers/terminal/terminal.c`)

    The front end and the back end together.  For each byte the front end asks where
    the cursor is, and its calls are carried out in the order in which they are made.
    The screen is drawn when a whole text has been read.
-/

namespace ArgaldOS

namespace Flanterm

/-- The state of the terminal. -/
structure Terminal where
  term : FlantermContext
  fb   : FlantermFbContext

section terminal
variable (fb : FbSettings)

/-- The calls of the back end, one after the other. -/
def performAll (s : FlantermFbContext) (calls : List Call) : Option FlantermFbContext :=
  calls.foldlM (perform fb) s

/-- `flanterm_putchar`. -/
def Terminal.putchar (t : Terminal) (c : UInt8) : Option Terminal := do
  let cursor := get_cursor_pos t.term t.fb.pen
  let next := flanterm_putchar t.term c cursor.1 cursor.2
  let s ← performAll fb t.fb next.2
  some ⟨next.1, s⟩

/-- The end of `flanterm_write`. -/
def Terminal.refresh (t : Terminal) : Option Terminal :=
  if t.term.autoflush then do
    let s ← double_buffer_flush fb t.term t.fb
    some { t with fb := s }
  else some t

/-- `flanterm_write`. -/
def flanterm_write (t : Terminal) (buf : List UInt8) : Option Terminal := do
  let t ← buf.foldlM (Terminal.putchar fb) t
  t.refresh fb

/-- `flanterm_putchar_wrapper`. -/
def flanterm_putchar_wrapper (t : Terminal) (c : UInt8) : Option Terminal := do
  let t ← t.putchar fb c
  t.refresh fb

end terminal

end Flanterm

end ArgaldOS
