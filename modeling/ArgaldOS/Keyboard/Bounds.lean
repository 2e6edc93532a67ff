import ArgaldOS.Keyboard.Steps

/-! # The bounds of the input buffer

    The handler appends without looking at the size of the array.  A line of
    98 characters is the longest to which one more can be appended, and also
    the longest that Enter can be pressed on: the terminator is written twice.

    * `InBounds`: all writes so far were inside the array, and it holds a
      terminator;
    * `inBounds_step_iff`: the interrupts that keep it;
    * `keyboard_inBounds_iff`: the runs that keep it throughout.
-/

namespace ArgaldOS

open Terminated Runs

/-- All writes so far were inside the array, which holds a terminator. -/
structure InBounds (s : KeyboardState) : Prop where
  written : ∀ i ∈ s.written, i < INPUT_SIZE
  ended   : ∃ i, i < INPUT_SIZE ∧ s.wholeInput i = 0

/-- A character is appended, or Enter pressed, only on a line that leaves room
    for a character and two terminators. -/
def LeavesRoom (s : KeyboardState) (e : KeyboardInterrupt) : Prop :=
  Enters s e ∨ Appends s e → s.strlen ≤ 98

instance (s : KeyboardState) (e : KeyboardInterrupt) : Decidable (LeavesRoom s e) :=
  inferInstanceAs (Decidable (_ → _))

/-! ## Section 1: Writes -/

/-- A string inside the array is found by `strlen`. -/
theorem strlen_eq {s : KeyboardState} {line : CString} (h : Stores 0 s.wholeInput line)
    (hlen : line.length ≤ INPUT_SIZE) : s.strlen = line.length :=
  h.scan_eq (Nat.zero_le _) (by omega)

theorem text_eq {s : KeyboardState} {line : CString} (h : Stores 0 s.wholeInput line)
    (hlen : line.length ≤ INPUT_SIZE) : s.text = line := by
  have hread := h.readFrom_eq (Nat.zero_le _) (n := INPUT_SIZE) (by omega)
  rwa [List.drop_zero] at hread

theorem InBounds.exists_line {s : KeyboardState} (h : InBounds s) :
    ∃ line, Stores 0 s.wholeInput line ∧ line.length < INPUT_SIZE := exists_stores h.ended

/-- A string inside the array is a terminator inside the array. -/
theorem ended_of_stores {s : KeyboardState} {line : CString} (h : Stores 0 s.wholeInput line)
    (hlen : line.length < INPUT_SIZE) : ∃ i, i < INPUT_SIZE ∧ s.wholeInput i = 0 :=
  ⟨line.length, hlen, h.ended⟩

@[simp] theorem addCharToString_written (s : KeyboardState) (c : UInt8) :
    (addCharToString s c).written = s.written ++ [s.strlen, s.strlen + 1] := by
  unfold addCharToString KeyboardState.store
  simp

/-- Appending a character. -/
theorem stores_addCharToString {s : KeyboardState} {line : CString}
    (h : Stores 0 s.wholeInput line) (hlen : line.length ≤ INPUT_SIZE) {c : UInt8} (hc : c ≠ 0) :
    Stores 0 (addCharToString s c).wholeInput (line ++ [c]) := by
  unfold addCharToString KeyboardState.store
  rw [strlen_eq h hlen]
  exact h.append hc

/-- Appending the terminator. -/
theorem stores_addCharToString_zero {s : KeyboardState} {line : CString}
    (h : Stores 0 s.wholeInput line) (hlen : line.length ≤ INPUT_SIZE) :
    Stores 0 (addCharToString s 0).wholeInput line := by
  unfold addCharToString KeyboardState.store
  rw [strlen_eq h hlen]
  exact h.terminate.behind (Nat.lt_succ_self _) 0

/-! ## Section 2: One interrupt -/

section step
variable {s : KeyboardState} {line : CString}

/-- **A key press** edits the line. -/
theorem handleKey_stores (h : Stores 0 s.wholeInput line) (hlen : line.length < INPUT_SIZE)
    {scan_code : UInt8} (henter : scan_code ≠ 28) :
    Stores 0 (handleKey s scan_code).wholeInput
      (editLine (s.capslock || s.shifted) line scan_code) := by
  have hmod : Stores 0 (modifiersAfter scan_code s).wholeInput line := by
    rwa [modifiersAfter_wholeInput]
  rw [handleKey_eq s henter]
  unfold editLine
  dsimp only
  split_ifs with hback hempty hc
  · -- Nothing to remove.
    rw [strlen_eq hmod (by omega)] at hempty
    rwa [List.eq_nil_of_length_eq_zero hempty] at hmod ⊢
  · rw [strlen_eq hmod (by omega)] at hempty ⊢
    exact hmod.dropLast (Nat.pos_of_ne_zero hempty)
  · exact hmod
  · exact stores_addCharToString hmod (by omega) hc

/-- A key without a character writes inside the line. -/
theorem handleKey_written (h : Stores 0 s.wholeInput line) (hlen : line.length < INPUT_SIZE)
    {scan_code : UInt8} (henter : scan_code ≠ 28)
    (hc : keyEntry (s.capslock || s.shifted) scan_code = 0) :
    ∀ i ∈ (handleKey s scan_code).written, i ∈ s.written ∨ i < line.length := by
  have hmod : Stores 0 (modifiersAfter scan_code s).wholeInput line := by
    rwa [modifiersAfter_wholeInput]
  rw [handleKey_eq s henter]
  dsimp only
  intro i hi
  split_ifs at hi with hback hempty
  · exact Or.inl (by simpa using hi)
  · rw [strlen_eq hmod (by omega)] at hempty hi
    have hi : i ∈ s.written ∨ i = line.length - 1 := by simpa [KeyboardState.store] using hi
    exact hi.imp_right fun h => by omega
  · exact Or.inl (by simpa using hi)

/-- A key with a character writes it and a terminator. -/
theorem handleKey_append (h : Stores 0 s.wholeInput line) (hlen : line.length < INPUT_SIZE)
    {scan_code : UInt8} (henter : scan_code ≠ 28)
    (hc : keyEntry (s.capslock || s.shifted) scan_code ≠ 0) :
    (handleKey s scan_code).written = s.written ++ [line.length, line.length + 1] := by
  have hmod : Stores 0 (modifiersAfter scan_code s).wholeInput line := by
    rwa [modifiersAfter_wholeInput]
  have hback : scan_code ≠ 0x0E := fun h => hc (keyEntry_special _ (by simp [h]))
  rw [handleKey_eq s henter]
  simp only [if_neg hback, if_neg hc]
  rw [addCharToString_written, strlen_eq hmod (by omega), modifiersAfter_written]

/-- **Enter** writes two terminators behind the line and one at its start. -/
theorem runCommand_written (h : Stores 0 s.wholeInput line) (hlen : line.length < INPUT_SIZE)
    (result : Bool) :
    (runCommand s result).written = s.written ++ [line.length, line.length + 1, 0] := by
  unfold runCommand KeyboardState.store
  simp [strlen_eq h (by omega)]

theorem runCommand_stores (result : Bool) : Stores 0 (runCommand s result).wholeInput [] :=
  stores_clear _

/-- A list of old and new writes is inside the array if the new ones are. -/
theorem written_append {s : KeyboardState} (h : InBounds s) (is : List Nat) :
    (∀ i ∈ s.written ++ is, i < INPUT_SIZE) ↔ ∀ i ∈ is, i < INPUT_SIZE := by
  rw [List.forall_mem_append]
  exact and_iff_right h.written

/-- Enter: the second terminator is the one that may not fit. -/
theorem inBounds_runCommand_iff (h : InBounds s) (result : Bool) :
    InBounds (runCommand s result) ↔ s.strlen ≤ 98 := by
  obtain ⟨line, hstores, hlen⟩ := h.exists_line
  have hwritten := runCommand_written hstores hlen result
  rw [strlen_eq hstores (by omega)]
  constructor
  · intro hkeep
    -- The second terminator is behind the line and its terminator.
    have := hkeep.written (line.length + 1) (by simp [hwritten])
    unfold INPUT_SIZE at this
    omega
  · intro hroom
    refine ⟨?_, ended_of_stores (runCommand_stores result) (by decide)⟩
    rw [hwritten, written_append h]
    unfold INPUT_SIZE
    simp only [List.forall_mem_cons]
    exact ⟨by omega, by omega, by omega, List.forall_mem_nil _⟩

/-- A key with a character, likewise. -/
theorem inBounds_append_iff (h : InBounds s) {scan_code : UInt8} (henter : scan_code ≠ 28)
    (hc : keyEntry (s.capslock || s.shifted) scan_code ≠ 0) :
    InBounds (handleKey s scan_code) ↔ s.strlen ≤ 98 := by
  obtain ⟨line, hstores, hlen⟩ := h.exists_line
  have hwritten := handleKey_append hstores hlen henter hc
  rw [strlen_eq hstores (by omega)]
  constructor
  · intro hkeep
    have := hkeep.written (line.length + 1) (by simp [hwritten])
    unfold INPUT_SIZE at this
    omega
  · intro hroom
    -- The longer line still ends inside the array.
    have hgrow := length_editLine_le (s.capslock || s.shifted) line scan_code
    refine ⟨?_, ended_of_stores (handleKey_stores hstores hlen henter) ?_⟩
    · rw [hwritten, written_append h]
      unfold INPUT_SIZE
      simp only [List.forall_mem_cons]
      exact ⟨by omega, by omega, List.forall_mem_nil _⟩
    · unfold INPUT_SIZE
      omega

/-- A key without a character keeps the bounds. -/
theorem inBounds_handleKey (h : InBounds s) {scan_code : UInt8} (henter : scan_code ≠ 28)
    (hc : keyEntry (s.capslock || s.shifted) scan_code = 0) :
    InBounds (handleKey s scan_code) := by
  obtain ⟨line, hstores, hlen⟩ := h.exists_line
  have hwritten := handleKey_written hstores hlen henter hc
  -- Every write is at an index of the line, and the line does not grow.
  have hshrink := length_editLine_of_zero line hc
  refine ⟨fun i hi => ?_, ended_of_stores (handleKey_stores hstores hlen henter) (by omega)⟩
  rcases hwritten i hi with hold | hnew
  · exact h.written i hold
  · omega

/-- **One interrupt keeps the bounds exactly if** it leaves room. -/
theorem inBounds_step_iff (h : InBounds s) (e : KeyboardInterrupt) :
    InBounds (isr_keyboard s e) ↔ LeavesRoom s e := by
  unfold LeavesRoom
  by_cases henter : Enters s e
  · rw [isr_keyboard_enter henter, inBounds_runCommand_iff h]
    exact ⟨fun hroom _ => hroom, fun hroom => hroom (Or.inl henter)⟩
  by_cases hpress : Presses s e
  · have hactive : InBounds { s with inScanf := true } := ⟨h.written, h.ended⟩
    rw [isr_keyboard_press hpress]
    -- Only a key with a character needs room.
    by_cases hc : keyEntry (s.capslock || s.shifted) e.scan_code = 0
    · have hroom : ¬ (Enters s e ∨ Appends s e) :=
        not_or.mpr ⟨henter, fun happend => happend.2 hc⟩
      exact iff_of_true (inBounds_handleKey hactive hpress.2.2.1 hc) fun h => absurd h hroom
    · rw [inBounds_append_iff hactive hpress.2.2.1 hc]
      exact ⟨fun hroom _ => hroom, fun hroom => hroom (Or.inr ⟨hpress, hc⟩)⟩
  · have hroom : ¬ (Enters s e ∨ Appends s e) :=
      not_or.mpr ⟨henter, fun happend => hpress happend.1⟩
    rw [isr_keyboard_ignored henter hpress]
    exact iff_of_true h fun h => absurd h hroom

end step

/-! ## Section 3: Runs -/

/-- The line is empty at boot. -/
theorem keyboardBoot_stores (behind : Nat → UInt8) :
    Stores 0 (keyboardBoot behind).wholeInput [] where
  chars := fun i h => absurd h (Nat.not_lt_zero i)
  ended := rfl
  plain := fun c h => by cases h

theorem keyboardBoot_inBounds (behind : Nat → UInt8) : InBounds (keyboardBoot behind) where
  written := fun i hi => by cases hi
  ended := ⟨0, by decide, rfl⟩

/-- **A run keeps the bounds throughout exactly if** every interrupt leaves
    room. -/
theorem keyboard_inBounds_iff (behind : Nat → UInt8) (events : List KeyboardInterrupt) :
    Along isr_keyboard (fun s e => InBounds (isr_keyboard s e)) (keyboardBoot behind) events ↔
      Along isr_keyboard LeavesRoom (keyboardBoot behind) events :=
  Along.iff (L := fun _ _ => True) InBounds (fun _ _ _ _ hkeep => hkeep)
    (fun _ e hinv _ => inBounds_step_iff hinv e) (keyboardBoot_inBounds behind)
    (along_of_forall isr_keyboard (fun _ _ _ => trivial) _)

/-- The press of the key `a`. -/
def letterA : KeyboardInterrupt := ⟨1, 0x1E, false⟩

/-- Typing `a` while the shell is active. -/
theorem isr_keyboard_letterA {s : KeyboardState} {line : CString}
    (h : Stores 0 s.wholeInput line) (hlen : line.length < INPUT_SIZE) (hactive : s.inScanf = true)
    (hplain : s.capslock = false ∧ s.shifted = false) :
    let s' := isr_keyboard s letterA
    Stores 0 s'.wholeInput (line ++ [0x61]) ∧ s'.inScanf = true ∧
      (s'.capslock = false ∧ s'.shifted = false) ∧ line.length + 1 ∈ s'.written := by
  intro s'
  have hpress : Presses s letterA := ⟨by decide, by decide, by decide, Or.inl hactive⟩
  have henter : letterA.scan_code ≠ 28 := by decide
  have hupper : (s.capslock || s.shifted) = false := by
    rw [hplain.1, hplain.2]
    rfl
  have hchar : keyEntry false letterA.scan_code = 0x61 := by decide
  have hs' : s' = handleKey { s with inScanf := true } letterA.scan_code := isr_keyboard_press hpress
  rw [hs']
  obtain ⟨hscan, -, hcaps, hshift⟩ := handleKey_fields { s with inScanf := true } henter
  refine ⟨?_, hscan, ⟨hcaps.trans hplain.1, hshift⟩, ?_⟩
  · have hedit : editLine (s.capslock || s.shifted) line letterA.scan_code = line ++ [0x61] := by
      rw [hupper]
      unfold editLine
      rw [hchar, if_neg (by decide), if_neg (by decide)]
    rw [← hedit]
    exact handleKey_stores (s := { s with inScanf := true }) h hlen henter
  · have hne : keyEntry (s.capslock || s.shifted) letterA.scan_code ≠ 0 := by
      rw [hupper, hchar]
      decide
    rw [handleKey_append (s := { s with inScanf := true }) h hlen henter hne]
    simp

/-- `k` letters fit only if the line has at most 99 characters with them. -/
theorem letters_fit {s : KeyboardState} {line : CString} (k : Nat)
    (h : Stores 0 s.wholeInput line) (hlen : line.length < INPUT_SIZE) (hactive : s.inScanf = true)
    (hplain : s.capslock = false ∧ s.shifted = false)
    (hrun : Along isr_keyboard (fun s e => InBounds (isr_keyboard s e)) s
      (List.replicate k letterA)) : line.length + k < INPUT_SIZE := by
  induction k generalizing s line with
  | zero => exact hlen
  | succ k ih =>
    obtain ⟨hbounds, hrest⟩ := hrun
    obtain ⟨hstores, hactive', hplain', hwritten⟩ := isr_keyboard_letterA h hlen hactive hplain
    -- The terminator behind the letter was written inside the array.
    have hroom := hbounds.written _ hwritten
    have hfit := ih hstores (by simpa using hroom) hactive' hplain' hrest
    rw [List.length_append, List.length_singleton] at hfit
    omega

/-- F1, then the letter `a` a hundred times. -/
def longLine : List KeyboardInterrupt := ⟨1, 59, false⟩ :: List.replicate 100 letterA

/-- The hundredth character is the first for which there is no room. -/
theorem longLine_overflows :
    ¬ Along isr_keyboard (fun s e => InBounds (isr_keyboard s e)) (keyboardBoot fun _ => 0)
      longLine := by
  intro h
  have hF1 : (59 : UInt8) ≠ 28 := by decide
  have hstart : Stores 0 (isr_keyboard (keyboardBoot fun _ => 0) ⟨1, 59, false⟩).wholeInput [] :=
    handleKey_stores (s := { keyboardBoot (fun _ => 0) with inScanf := true })
      (keyboardBoot_stores _) (by decide) hF1
  have hfit := letters_fit 100 hstart (by decide) rfl ⟨rfl, rfl⟩ h.2
  exact absurd hfit (by decide)

end ArgaldOS
