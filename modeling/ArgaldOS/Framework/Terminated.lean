import Mathlib.Logic.Function.Basic
import Mathlib.Tactic.Common

/-! # Terminated strings in a buffer

    A buffer holds a string as its characters followed by a terminator; what
    lies behind the terminator does not matter.

    * `scan`: the loop that looks for the terminator;
    * `readFrom`: the characters before it;
    * `Stores w text`: the buffer `w` holds the string `text`, with the lemmas
      that say what appending, removing and clearing do to the string;
    * `takeWhile_take_eq_iff`: when a cut at the first terminator only drops
      terminators.
-/

namespace Terminated

variable {α : Type u} (nul : α)

/-! ## Section 1: Strings -/

/-- The buffer `w` holds the string `text`. -/
structure Stores (w : Nat → α) (text : List α) : Prop where
  chars : ∀ i (h : i < text.length), w i = text[i]
  ended : w text.length = nul
  plain : ∀ c ∈ text, c ≠ nul

variable {nul} {w : Nat → α} {text : List α}

theorem Stores.ne_nul (h : Stores nul w text) {i : Nat} (hi : i < text.length) : w i ≠ nul := by
  rw [h.chars i hi]
  exact h.plain _ (List.getElem_mem hi)

/-- A buffer with a terminator holds a string. -/
theorem exists_stores {n : Nat} (h : ∃ i, i < n ∧ w i = nul) :
    ∃ text, Stores nul w text ∧ text.length < n := by
  induction n with
  | zero =>
    obtain ⟨i, hi, -⟩ := h
    omega
  | succ n ih =>
    by_cases hn : ∃ i, i < n ∧ w i = nul
    · obtain ⟨text, hstores, hlen⟩ := ih hn
      exact ⟨text, hstores, by omega⟩
    · -- The terminator is at `n`, and nowhere before.
      obtain ⟨i, hi, hnul⟩ := h
      have hin : i = n := by
        by_contra hne
        exact hn ⟨i, by omega, hnul⟩
      refine ⟨(List.range n).map w, ⟨?_, ?_, ?_⟩, by simp⟩
      · intro j hj
        simp
      · simpa [← hin] using hnul
      · intro c hc hnul'
        obtain ⟨j, hj, rfl⟩ := List.mem_map.mp hc
        exact hn ⟨j, List.mem_range.mp hj, hnul'⟩

/-- The empty string. -/
theorem stores_nil (h : w 0 = nul) : Stores nul w [] where
  chars := fun _ hi => absurd hi (Nat.not_lt_zero _)
  ended := h
  plain := fun _ hc => by cases hc

/-- One character in front of a string. -/
theorem Stores.cons (h : Stores nul (fun i => w (i + 1)) text) {c : α} (hc : w 0 = c)
    (hne : c ≠ nul) : Stores nul w (c :: text) where
  chars := by
    intro i hi
    cases i with
    | zero => exact hc
    | succ i => exact h.chars i (Nat.lt_of_succ_lt_succ hi)
  ended := h.ended
  plain := by
    intro d hd
    rcases List.mem_cons.mp hd with rfl | hmem
    · exact hne
    · exact h.plain d hmem

/-- A list that is followed by a terminator holds the string in front of its
    first terminator. -/
theorem stores_takeWhile [DecidableEq α] {l : List α} (h : ∀ i (hi : i < l.length), w i = l[i])
    (hend : w l.length = nul) : Stores nul w (l.takeWhile (· ≠ nul)) := by
  induction l generalizing w with
  | nil => exact stores_nil hend
  | cons c l ih =>
    have hc : w 0 = c := h 0 (Nat.zero_lt_succ _)
    by_cases hnul : c = nul
    · rw [List.takeWhile_cons_of_neg (by simpa using hnul)]
      exact stores_nil (hc.trans hnul)
    · rw [List.takeWhile_cons_of_pos (by simpa using hnul)]
      exact (ih (fun i hi => h (i + 1) (Nat.succ_lt_succ hi)) hend).cons hc hnul

/-- **A buffer holds one string**. -/
theorem Stores.unique {text' : List α} (h : Stores nul w text) (h' : Stores nul w text') :
    text = text' := by
  have hlen : text.length = text'.length := by
    rcases Nat.lt_trichotomy text.length text'.length with hlt | heq | hgt
    · exact absurd h.ended (h'.ne_nul hlt)
    · exact heq
    · exact absurd h'.ended (h.ne_nul hgt)
  apply List.ext_getElem hlen
  intro k hk hk'
  rw [← h.chars k hk, ← h'.chars k hk']

section cutting
variable (nul)

/-- Behind a terminator among the first `n` characters there are only more
    terminators. -/
def NulsLast (n : Nat) (l : List α) : Prop :=
  ∀ k, k < n → l[k]? = some nul → ∀ c ∈ l.drop k, c = nul

/-- **Cutting and dropping**: a list that is cut at its first terminator loses
    no more than its terminators exactly if they are the last of it. -/
theorem takeWhile_take_eq_iff [DecidableEq α] (n : Nat) (l : List α) :
    (l.take n).takeWhile (· ≠ nul) = (l.filter (· ≠ nul)).take n ↔ NulsLast nul n l := by
  unfold NulsLast
  induction l generalizing n with
  | nil => simp
  | cons c l ih =>
    cases n with
    | zero => simp
    | succ n =>
      rw [List.take_succ_cons]
      by_cases hc : c = nul
      · -- The string ends here, so nothing else may follow.
        rw [List.takeWhile_cons_of_neg (by simpa using hc),
          List.filter_cons_of_neg (by simpa using hc)]
        constructor
        · intro hnil
          have hall : ∀ d ∈ c :: l, d = nul := by
            have hnone : l.filter (· ≠ nul) = [] := by
              simpa using hnil.symm
            intro d hd
            rcases List.mem_cons.mp hd with rfl | hmem
            · exact hc
            · simpa using List.filter_eq_nil_iff.mp hnone d hmem
          intro k _ _ d hd
          exact hall d (List.mem_of_mem_drop hd)
        · intro hlast
          have hall := hlast 0 (Nat.zero_lt_succ n) (by simpa using hc)
          have hnone : l.filter (· ≠ nul) = [] := by
            apply List.filter_eq_nil_iff.mpr
            intro d hd
            simpa using hall d (List.mem_cons_of_mem c hd)
          rw [hnone, List.take_nil]
      · rw [List.takeWhile_cons_of_pos (by simpa using hc),
          List.filter_cons_of_pos (by simpa using hc), List.take_succ_cons, List.cons_inj_right,
          ih n]
        constructor
        · intro h k hk hnul
          cases k with
          | zero => exact absurd (by simpa using hnul) hc
          | succ k => exact h k (Nat.lt_of_succ_lt_succ hk) (by simpa using hnul)
        · intro h k hk hnul
          exact h (k + 1) (Nat.succ_lt_succ hk) (by simpa using hnul)

end cutting

/-! ## Section 2: Writing -/

/-- A terminator at the start makes the string empty. -/
theorem stores_clear (w : Nat → α) : Stores nul (Function.update w 0 nul) [] where
  chars := fun i h => absurd h (Nat.not_lt_zero i)
  ended := Function.update_self 0 nul w
  plain := fun c h => by cases h

/-- Writing behind the end leaves the string alone. -/
theorem Stores.behind (h : Stores nul w text) {i : Nat} (hi : text.length < i) (c : α) :
    Stores nul (Function.update w i c) text where
  chars := fun j hj => by rw [Function.update_of_ne (by omega), h.chars j hj]
  ended := by rw [Function.update_of_ne (by omega), h.ended]
  plain := h.plain

/-- Writing the terminator over itself changes nothing. -/
theorem Stores.terminate (h : Stores nul w text) :
    Stores nul (Function.update w text.length nul) text := by
  rw [← h.ended, Function.update_eq_self, h.ended]
  exact h

/-- **Appending**: the character takes the place of the terminator, which moves
    on by one. -/
theorem Stores.append (h : Stores nul w text) {c : α} (hc : c ≠ nul) :
    Stores nul (Function.update (Function.update w text.length c) (text.length + 1) nul)
      (text ++ [c]) where
  chars := fun i hi => by
    rw [List.length_append, List.length_singleton] at hi
    rw [Function.update_of_ne (by omega)]
    by_cases hend : i = text.length
    · subst hend
      simp
    · have hlt : i < text.length := by omega
      rw [Function.update_of_ne hend, List.getElem_append_left hlt, h.chars i hlt]
  ended := by
    rw [List.length_append, List.length_singleton, Function.update_self]
  plain := fun d hd => by
    rcases List.mem_append.mp hd with hmem | hmem
    · exact h.plain d hmem
    · rw [List.mem_singleton.mp hmem]
      exact hc

/-- **Removing**: a terminator takes the place of the last character. -/
theorem Stores.dropLast (h : Stores nul w text) (hne : 0 < text.length) :
    Stores nul (Function.update w (text.length - 1) nul) text.dropLast where
  chars := fun i hi => by
    rw [List.length_dropLast] at hi
    rw [Function.update_of_ne (by omega), List.getElem_dropLast, h.chars i (by omega)]
  ended := by rw [List.length_dropLast, Function.update_self]
  plain := fun c hc => h.plain c (List.dropLast_subset text hc)

/-! ## Section 3: Reading -/

variable [DecidableEq α]

section loops
variable (nul)

/-- The first index from `i` on that holds the terminator, `n` steps at most. -/
def scan (w : Nat → α) : Nat → Nat → Nat
  | 0, i => i
  | n + 1, i => if w i = nul then i else scan w n (i + 1)

/-- The characters from index `i` up to the terminator, `n` at most. -/
def readFrom (w : Nat → α) : Nat → Nat → List α
  | 0, _ => []
  | n + 1, i => if w i = nul then [] else w i :: readFrom w n (i + 1)

end loops

/-- **The scan finds the end** of the string. -/
theorem Stores.scan_eq (h : Stores nul w text) {n i : Nat} (hi : i ≤ text.length)
    (hn : text.length ≤ i + n) : scan nul w n i = text.length := by
  induction n generalizing i with
  | zero =>
    have heq : i = text.length := by omega
    exact heq
  | succ n ih =>
    unfold scan
    by_cases hend : i = text.length
    · rw [hend, if_pos h.ended]
    · rw [if_neg (h.ne_nul (by omega))]
      exact ih (by omega) (by omega)

/-- Reading yields the string. -/
theorem Stores.readFrom_eq (h : Stores nul w text) {n i : Nat} (hi : i ≤ text.length)
    (hn : text.length ≤ i + n) : readFrom nul w n i = text.drop i := by
  induction n generalizing i with
  | zero => rw [List.drop_eq_nil_of_le (by omega)]; rfl
  | succ n ih =>
    unfold readFrom
    by_cases hend : i = text.length
    · rw [hend, if_pos h.ended, List.drop_length]
    · have hlt : i < text.length := by omega
      rw [if_neg (h.ne_nul hlt), ih (by omega) (by omega), h.chars i hlt,
        List.drop_eq_getElem_cons hlt]

end Terminated
