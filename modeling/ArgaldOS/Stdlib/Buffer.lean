import ArgaldOS.Framework.Cells
import ArgaldOS.Stdlib.String

/-! # Strings in memory (`stdlib/string.c`)

    The functions of `string.c` as they work on memory, byte by byte.  A pointer
    is an `Int`, and so is a place in front of a buffer.  The counters of type
    `int` are numbers without a bound: no object of the kernel has 2^31 bytes.

    * `strlen_ends`: the loop that looks for the terminator;
    * `reverse_ends`: the two indices that meet in the middle.
-/

namespace ArgaldOS

open Cells Program

/-- The memory that strings are in. -/
abbrev Memory : Type := Cells Int UInt8

namespace Buffer

/-! ## Section 1: The functions -/

/-- `strlen`. -/
def strlen (s : Int) : Program Memory Nat :=
  loop (fun i : Nat => do
    if (← load (s + i)) ≠ 0 then again (i + 1)
    else leave i) 0

/-- `addCharToString`. -/
def addCharToString (str : Int) (c : UInt8) : Program Memory Unit := do
  let i ← loop (fun i : Nat => do
    if (← load (str + i)) ≠ 0 then again (i + 1)
    else leave i) 0
  store (str + i) c
  store (str + (i + 1)) 0

/-- `removeLastChar`: the loop starts at the terminator, and ends before it
    looks at index 0. -/
def removeLastChar (str : Int) : Program Memory Unit := do
  let len ← strlen str
  loop (fun i : Nat => do
    if i > 0 then
      if (← load (str + i)) ≠ 0 then
        store (str + i) 0
        leave ()
      else again (i - 1)
    else leave ()) len

/-- The loop of the two copies below: characters of `src` go to `place(0)`,
    `place(1)`, ... as long as there is room. -/
def copyWhile (room : Nat → Bool) (place : Nat → Int) (src : Int) : Program Memory Nat :=
  loop (fun i : Nat => do
    if room i then
      if (← load (src + i)) ≠ 0 then
        store (place i) (← load (src + i))
        again (i + 1)
      else leave i
    else leave i) 0

/-- `strncpy_safe`. -/
def strncpy_safe (dest src : Int) (n : Nat) : Program Memory Unit :=
  if dest = 0 ∨ src = 0 ∨ n = 0 then pure ()
  else do
    let i ← copyWhile (fun i => i < n - 1) (fun i => dest + i) src
    store (dest + i) 0

/-- `strncat_safe`. -/
def strncat_safe (dest src : Int) (n : Nat) : Program Memory Unit :=
  if dest = 0 ∨ src = 0 ∨ n = 0 then pure ()
  else do
    let dest_len ← strlen dest
    let i ← copyWhile (fun i => dest_len + i < n - 1) (fun i => dest + (dest_len + i)) src
    store (dest + (dest_len + i)) 0

/-- `reverse`. -/
def reverse (s : Int) : Program Memory Unit := do
  let len ← strlen s
  loop (fun (i, j) => do
    if i < j then
      let c ← load (s + i)
      store (s + i) (← load (s + j))
      store (s + j) c
      again (i + 1, j - 1)
    else leave ()) (0, (len : Int) - 1)

/-- `append`. -/
def append (s : Int) (n : UInt8) : Program Memory Unit := do
  let len ← strlen s
  store (s + len) n
  store (s + (len + 1)) 0

/-- `backspace`: nothing is said about the empty string. -/
def backspace (s : Int) : Program Memory Unit := do
  let len ← strlen s
  store (s + (len - 1)) 0

/-- `while (isspace(*q)) ++q`. -/
def skipSpaces (q : Int) : Program Memory Int :=
  loop (fun q => do
    if isspace (← load q) then again (q + 1)
    else leave q) q

/-- `while (*q) *p++ = *q++`: the place behind the last character. -/
def copyDown (p q : Int) : Program Memory Int :=
  loop (fun (p, q) => do
    if (← load q) ≠ 0 then
      store p (← load q)
      again (p + 1, q + 1)
    else leave p) (p, q)

/-- `while (p > a && isspace(*--p)) *p = '\0'`: the decrement comes before the
    test. -/
def cutSpaces (a p : Int) : Program Memory Unit :=
  loop (fun p => do
    if p > a then
      if isspace (← load (p - 1)) then
        store (p - 1) 0
        again (p - 1)
      else leave ()
    else leave ()) p

/-- `trim`. -/
def trim (a : Int) : Program Memory Unit := do
  let q ← skipSpaces a
  let p ← copyDown a q
  store p 0
  cutSpaces a p

/-! ## Section 2: The length -/

variable {m : Memory} {s : Int} {text : CString}

/-- **The length**: the string and its terminator are read. -/
theorem strlen_ends (h : StringAt 0 m s text) : Ends (strlen s) m fun len m' =>
    len = text.length ∧ Touches (Set.Ico s (s + text.length + 1)) ∅ m m' := by
  apply Ends.loop (fun i m' => i ≤ text.length ∧
    Touches (Set.Ico s (s + text.length + 1)) ∅ m m') (fun i => text.length - i)
  · rintro i m' ⟨hi, ht⟩
    have ht' := ht.loaded (a := s + i) ⟨by omega, by omega⟩
    apply Ends.bind
    apply ends_load
    rw [ht.cell_eq]
    by_cases hend : i = text.length
    · subst hend
      rw [if_neg (not_not.mpr h.ended)]
      apply Ends.leave
      exact ⟨rfl, ht'⟩
    · have hlt : i < text.length := by omega
      rw [if_pos (h.ne_nul hlt)]
      apply Ends.again
      exact ⟨⟨hlt, ht'⟩, by omega⟩
  · exact ⟨Nat.zero_le _, Touches.refl _ _ m⟩

/-- The strings in memory stay as they are. -/
theorem strlen_stringAt (h : StringAt 0 m s text) : Ends (strlen s) m fun len m' =>
    len = text.length ∧ m'.cell = m.cell ∧
      Touches (Set.Ico s (s + text.length + 1)) ∅ m m' :=
  (strlen_ends h).mono fun _ _ h' => ⟨h'.1, h'.2.cell_eq, h'.2⟩

/-! ## Section 3: Reversal -/

/-- The memory between the two indices of `reverse`: what is outside of them
    has changed places. -/
structure Reversing (m : Memory) (s : Int) (len : Nat) (i j : Int) (m' : Memory) : Prop where
  left  : 0 ≤ i
  meet  : i + j = len - 1
  cross : i ≤ j + 2
  cells : ∀ k : Int, 0 ≤ k → k < len →
    m'.cell (s + k) = m.cell (s + if k < i ∨ j < k then len - 1 - k else k)
  inside : Touches (Set.Ico s (s + len + 1)) (Set.Ico s (s + len)) m m'

/-- One exchange. -/
theorem Reversing.step {len : Nat} {i j : Int} {m' : Memory} (h : Reversing m s len i j m')
    (hij : i < j) :
    Reversing m s len (i + 1) (j - 1)
      ((((m'.loaded (s + i)).loaded (s + j)).stored (s + i) (m'.cell (s + j))).stored (s + j)
        (m'.cell (s + i))) := by
  have hleft := h.left
  have hmeet := h.meet
  refine ⟨by omega, by omega, by omega, ?_, ?_⟩
  · intro k hk hlen
    by_cases hkj : k = j
    · subst hkj
      rw [cell_stored_self, h.cells i (by omega) (by omega), if_neg (by omega), if_pos (by omega)]
      congr 1
      omega
    · rw [cell_stored_of_ne (by omega)]
      by_cases hki : k = i
      · subst hki
        rw [cell_stored_self, h.cells j (by omega) (by omega), if_neg (by omega), if_pos (by omega)]
        congr 1
        omega
      · rw [cell_stored_of_ne (by omega), cell_loaded, cell_loaded, h.cells k hk hlen]
        have hiff : (k < i ∨ j < k) ↔ (k < i + 1 ∨ j - 1 < k) := by omega
        rw [if_congr hiff rfl rfl]
  · have hi : s + i ∈ Set.Ico s (s + len) := ⟨by omega, by omega⟩
    have hj : s + j ∈ Set.Ico s (s + len) := ⟨by omega, by omega⟩
    exact (((h.inside.loaded ⟨by omega, by omega⟩).loaded ⟨by omega, by omega⟩).stored hi).stored hj

/-- **Reversal**: nothing but the string changes. -/
theorem reverse_ends (h : StringAt 0 m s text) : Ends (reverse s) m fun _ m' =>
    StringAt 0 m' s text.reverse ∧
      Touches (Set.Ico s (s + text.length + 1)) (Set.Ico s (s + text.length)) m m' := by
  apply Ends.bind
  apply (strlen_stringAt h).mono
  rintro len m₁ ⟨rfl, hcell, hlen⟩
  have hinit : Reversing m s text.length 0 ((text.length : Int) - 1) m₁ := by
    refine ⟨by omega, by omega, by omega, ?_, hlen.mono Set.Subset.rfl (Set.empty_subset _)⟩
    intro k hk hlt
    rw [hcell, if_neg (by omega)]
  apply Ends.loop (fun x m' => Reversing m s text.length x.1 x.2 m') (fun x => (x.2 - x.1).toNat)
  · rintro ⟨i, j⟩ m' hinv
    by_cases hij : i < j
    · simp only [if_pos hij]
      apply Ends.bind
      apply ends_load
      apply Ends.bind
      apply ends_load
      apply Ends.bind
      apply ends_store
      apply Ends.bind
      apply ends_store
      apply Ends.again
      refine ⟨hinv.step hij, ?_⟩
      show (j - 1 - (i + 1)).toNat < (j - i).toNat
      omega
    · simp only [if_neg hij]
      apply Ends.leave
      have hleft := hinv.left
      have hmeet := hinv.meet
      refine ⟨⟨?_, ?_, ?_⟩, hinv.inside⟩
      · intro k hk
        rw [List.length_reverse] at hk
        rw [List.getElem_reverse, ← h.chars, hinv.cells k (by omega) (by omega)]
        -- The index in the middle is its own mirror image.
        congr 2
        split <;> omega
      · rw [List.length_reverse]
        show m'.cell (s + text.length) = 0
        rw [hinv.inside.frame _ (by simp), ← h.ended]
      · intro c hc
        exact h.plain c (List.mem_reverse.mp hc)
  · exact hinit

end Buffer
end ArgaldOS
