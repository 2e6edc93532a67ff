import ArgaldOS.Framework.Programs
import ArgaldOS.Framework.Terminated
import ArgaldOS.Stdlib.String

/-! # The serial console (`drivers/serial.c`)

    `writeserial` sends a string to the first serial port, with a carriage
    return in front of every line feed.  Before each character it polls the line
    status register until the transmitter is empty.

    * `Ready`: the transmitter gets empty again and again;
    * `outCharSerial_ends`: one character;
    * `writeserial_ends`: a string.
-/

namespace ArgaldOS

open Program Terminated

/-! ## Section 1: The driver -/

/-- The two consoles. -/
structure Console where
  /-- What was sent to the terminal, oldest character first. -/
  terminal : List UInt8
  /-- What was written to the data port, oldest byte first. -/
  port     : List UInt8
  /-- What the line status register reads as, by the number of reads before. -/
  status   : Nat → UInt8
  /-- The reads of that register so far. -/
  polls    : Nat

/-- `is_transmit_empty`. -/
def is_transmit_empty : Program Console UInt8 :=
  step fun c => (c.status c.polls &&& 0x20, { c with polls := c.polls + 1 })

/-- `outCharSerial`. -/
def outCharSerial (ch : UInt8) : Program Console Unit := do
  loop (fun _ : Unit => do
    if (← is_transmit_empty) = 0 then again ()
    else leave ()) ()
  step fun c => ((), { c with port := c.port ++ [ch] })

/-- `strlen`, of a string that nobody changes. -/
def lengthOf (str : Nat → UInt8) : Program Console Nat :=
  loop (fun i : Nat => if str i ≠ 0 then again (i + 1) else leave i) 0

/-- `writeserial`: the length is calculated before each character. -/
def writeserial (str : Nat → UInt8) : Program Console Unit :=
  loop (fun i : Nat => do
    if i < (← lengthOf str) then
      if str i = 0x00 then leave ()
      else do
        if str i = 0x0A then outCharSerial 0x0D
        outCharSerial (str i)
        again (i + 1)
    else leave ()) 0

/-! ## Section 2: What is sent -/

/-- **Line feeds**: each of them becomes a carriage return and a line feed. -/
def crlf (text : CString) : List UInt8 :=
  text.flatMap fun c => if c = 0x0A then [0x0D, 0x0A] else [c]

/-- The transmitter gets empty again and again. -/
def Ready (c : Console) : Prop := ∀ n, ∃ k, n ≤ k ∧ c.status k &&& 0x20 ≠ 0

/-- Between `c` and `c'` the bytes `out` were sent, and nothing else happened
    but polls. -/
structure Sent (out : List UInt8) (c c' : Console) : Prop where
  port     : c'.port = c.port ++ out
  terminal : c'.terminal = c.terminal
  status   : c'.status = c.status

section sending
variable {c c' : Console} {out out' : List UInt8}

theorem Sent.refl (c : Console) : Sent [] c c := ⟨(List.append_nil _).symm, rfl, rfl⟩

theorem Sent.trans {c'' : Console} (h : Sent out c c') (h' : Sent out' c' c'') :
    Sent (out ++ out') c c'' where
  port     := by rw [h'.port, h.port, List.append_assoc]
  terminal := h'.terminal.trans h.terminal
  status   := h'.status.trans h.status

theorem Sent.ready (h : Sent out c c') (hready : Ready c) : Ready c' := by
  unfold Ready
  rw [h.status]
  exact hready

/-- **One character**: the loop ends with the first poll that finds the
    transmitter empty. -/
theorem outCharSerial_ends (hready : Ready c) (ch : UInt8) :
    Ends (outCharSerial ch) c fun _ c' => Sent [ch] c c' := by
  obtain ⟨k, hk, hempty⟩ := hready c.polls
  apply Ends.bind
  apply Ends.loop_measure (fun _ c' => Sent [] c c' ∧ c'.polls ≤ k) (fun _ c' => k - c'.polls)
  · rintro - c' ⟨hsent, hpolls⟩
    apply Ends.bind
    apply Ends.step
    have hpolled : Sent [] c { c' with polls := c'.polls + 1 } :=
      ⟨hsent.port, hsent.terminal, hsent.status⟩
    by_cases hbusy : c'.status c'.polls &&& 0x20 = 0
    · have hlt : c'.polls < k := by
        rcases Nat.eq_or_lt_of_le hpolls with heq | hlt
        · rw [heq, hsent.status] at hbusy
          exact absurd hbusy hempty
        · exact hlt
      simp only [if_pos hbusy]
      apply Ends.again
      refine ⟨⟨hpolled, hlt⟩, ?_⟩
      show k - (c'.polls + 1) < k - c'.polls
      omega
    · simp only [if_neg hbusy]
      apply Ends.leave
      apply Ends.step
      exact hpolled.trans ⟨rfl, rfl, rfl⟩
  · exact ⟨Sent.refl c, hk⟩

/-- The length of a string. -/
theorem lengthOf_ends {str : Nat → UInt8} {text : CString} (h : Stores 0 str text) :
    Ends (lengthOf str) c fun len c' => len = text.length ∧ c' = c := by
  apply Ends.loop (fun i c' => i ≤ text.length ∧ c' = c) (fun i => text.length - i)
  · rintro i c' ⟨hi, rfl⟩
    by_cases hend : i = text.length
    · subst hend
      rw [if_neg (not_not.mpr h.ended)]
      apply Ends.leave
      exact ⟨rfl, rfl⟩
    · have hlt : i < text.length := by omega
      rw [if_pos (h.ne_nul hlt)]
      apply Ends.again
      exact ⟨⟨hlt, rfl⟩, by omega⟩
  · exact ⟨Nat.zero_le _, rfl⟩

theorem crlf_append (text text' : CString) : crlf (text ++ text') = crlf text ++ crlf text' :=
  List.flatMap_append

/-- **A string**: every character is sent once, in order, and the carriage
    returns are all that is added. -/
theorem writeserial_ends {str : Nat → UInt8} {text : CString} (h : Stores 0 str text)
    (hready : Ready c) : Ends (writeserial str) c fun _ c' => Sent (crlf text) c c' := by
  apply Ends.loop (fun i c' => i ≤ text.length ∧ Sent (crlf (text.take i)) c c')
    (fun i => text.length - i)
  · rintro i c' ⟨hi, hsent⟩
    apply Ends.bind
    apply (lengthOf_ends h).mono
    rintro len c'' ⟨rfl, rfl⟩
    by_cases hlt : i < text.length
    · have hchar : str i = text[i] := h.chars i hlt
      have hnext : crlf (text.take (i + 1)) = crlf (text.take i) ++ crlf [text[i]] := by
        rw [← crlf_append, List.take_append_getElem]
      simp only [if_pos hlt, if_neg (h.ne_nul hlt)]
      rw [hchar]
      by_cases hfeed : text[i] = 0x0A
      · have hboth : crlf [text[i]] = [0x0D] ++ [text[i]] := by
          rw [hfeed]
          rfl
        simp only [if_pos hfeed]
        apply Ends.bind
        apply (outCharSerial_ends (hsent.ready hready) 0x0D).mono
        intro _ c₁ hreturn
        have hsent₁ := hsent.trans hreturn
        apply Ends.bind
        apply (outCharSerial_ends (hsent₁.ready hready) text[i]).mono
        intro _ c₂ hlast
        apply Ends.again
        have hsent₂ := hsent₁.trans hlast
        rw [List.append_assoc, ← hboth, ← hnext] at hsent₂
        exact ⟨⟨hlt, hsent₂⟩, by omega⟩
      · have hone : crlf [text[i]] = [text[i]] := by
          show (if text[i] = 0x0A then [0x0D, 0x0A] else [text[i]]) ++ [] = [text[i]]
          rw [if_neg hfeed, List.append_nil]
        simp only [if_neg hfeed]
        apply Ends.bind
        apply (outCharSerial_ends (hsent.ready hready) text[i]).mono
        intro _ c₁ hlast
        apply Ends.again
        have hsent₁ := hsent.trans hlast
        rw [← hone, ← hnext] at hsent₁
        exact ⟨⟨hlt, hsent₁⟩, by omega⟩
    · simp only [if_neg hlt]
      apply Ends.leave
      have hend : i = text.length := by omega
      rwa [hend, List.take_length] at hsent
  · exact ⟨Nat.zero_le _, Sent.refl c⟩

end sending
end ArgaldOS
