import ArgaldOS.Stdlib.Buffer

/-! # Copying and concatenating strings (`stdlib/string.c`)

    `strncpy_safe` and `strncat_safe` share their loop.  It stops at the end of
    the source or of the room, whichever comes first.

    * `copyWhile_ends`: the loop, for a source that may lie anywhere behind the
      characters that are written, or in front of all of them;
    * `strncpy_safe_ends`, `strncat_safe_ends`: what becomes of the destination;
    * `strncpy_safe_refines`: the copy leaves the string that the parsers work
      with;
    * `safe_copies`: both functions, for all sizes.
-/

namespace ArgaldOS.Buffer

open Cells Program

/-! ## Section 1: The loop -/

section copying
variable {m m₀ : Memory} {src base : Int} {l : List UInt8} {limit : Nat} {room : Nat → Bool}
  {place : Nat → Int}

/-- What is known before round `i`: the first `i` characters are copied, and
    nothing else has changed. -/
structure Copying (m : Memory) (src base : Int) (l : List UInt8) (limit i : Nat) (m' : Memory) :
    Prop where
  bound  : i ≤ min limit l.length
  copied : Holds m' base (l.take i)
  inside : Touches (Set.Ico src (src + (min limit (l.length + 1) : Nat)))
    (Set.Ico base (base + i)) m m'

/-- As many characters as there were rounds. -/
theorem Copying.length_take {i : Nat} {m' : Memory} (h : Copying m src base l limit i m') :
    (l.take i).length = i := by
  have hi := h.bound
  rw [List.length_take]
  omega

/-- A character that is still to be copied is where it was. -/
theorem Copying.source {i : Nat} {m' : Memory} (h : Copying m src base l limit i m')
    (hlimit : i < limit) (hapart : base ≤ src ∨ src + (min limit (l.length + 1) : Nat) ≤ base) :
    m'.cell (src + i) = m.cell (src + i) := by
  have hi := h.bound
  apply h.inside.frame
  rintro ⟨hlow, hhigh⟩
  omega

/-- Looking at the next character. -/
theorem Copying.read {i : Nat} {m' : Memory} (h : Copying m src base l limit i m')
    (hlimit : i < limit) : Copying m src base l limit i (m'.loaded (src + i)) where
  bound  := h.bound
  copied := h.copied
  inside := by
    have hi := h.bound
    exact h.inside.loaded ⟨by omega, by omega⟩

/-- Copying it. -/
theorem Copying.write {i : Nat} {m' : Memory} (h : Copying m src base l limit i m')
    (hlimit : i < limit) (hi : i < l.length) :
    Copying m src base l limit (i + 1) (m'.stored (base + i) l[i]) where
  bound := by omega
  copied := by
    have hnext := h.copied.snoc (v := l[i]) (a := base + i) (by rw [h.length_take])
    rwa [List.take_append_getElem] at hnext
  inside := by
    have hmore := h.inside.mono Set.Subset.rfl (Q := Set.Ico base (base + (i + 1 : Nat)))
      (Set.Ico_subset_Ico (by omega) (by omega))
    exact hmore.stored ⟨by omega, by omega⟩

/-- **The loop of the copies**: as many characters as there are, or as there is
    room for. -/
theorem copyWhile_ends (base : Int) (limit : Nat) (hheld : Holds m src l) (hplain : ∀ c ∈ l, c ≠ 0)
    (hended : l.length < limit → m.cell (src + l.length) = 0)
    (hroom : ∀ i, room i = true ↔ i < limit) (hplace : ∀ i, place i = base + i)
    (hapart : base ≤ src ∨ src + (min limit (l.length + 1) : Nat) ≤ base) :
    Ends (copyWhile room place src) m fun i m' =>
      i = min limit l.length ∧ Copying m src base l limit i m' := by
  apply Ends.loop (Copying m src base l limit) (fun i => limit - i)
  · intro i m' h
    have hi := h.bound
    by_cases hlimit : i < limit
    · have hsource := h.source hlimit hapart
      simp only [if_pos ((hroom i).mpr hlimit)]
      apply Ends.bind
      apply ends_load
      rw [hsource]
      by_cases hend : i = l.length
      · -- The end of the source.
        subst hend
        rw [if_neg (not_not.mpr (hended hlimit))]
        apply Ends.leave
        exact ⟨by omega, h.read hlimit⟩
      · have hlt : i < l.length := by omega
        have hchar : m.cell (src + i) = l[i] := hheld i hlt
        rw [if_pos (by rw [hchar]; exact hplain _ (List.getElem_mem hlt))]
        apply Ends.bind
        apply ends_load
        apply Ends.bind
        apply ends_store
        apply Ends.again
        rw [cell_loaded, hsource, hchar, hplace]
        exact ⟨((h.read hlimit).read hlimit).write hlimit hlt, by omega⟩
    · -- The end of the room.
      simp only [if_neg (mt (hroom i).mp hlimit)]
      apply Ends.leave
      exact ⟨by omega, h⟩
  · refine ⟨Nat.zero_le _, holds_nil, Touches.refl _ _ m⟩

end copying

/-! ## Section 2: The two functions -/

section safe
variable {m : Memory} {dest src : Int} {dtext stext l : CString} {n : Nat}

/-- **`strncpy_safe`**: the source need not be terminated if it has `n - 1`
    characters. -/
theorem strncpy_safe_ends (hdest : dest ≠ 0) (hsrc : src ≠ 0) (hn : 1 ≤ n)
    (hheld : Holds m src l) (hplain : ∀ c ∈ l, c ≠ 0)
    (hended : l.length < n - 1 → m.cell (src + l.length) = 0)
    (hapart : dest ≤ src ∨ src + (min (n - 1) (l.length + 1) : Nat) ≤ dest) :
    Ends (strncpy_safe dest src n) m fun _ m' => StringAt 0 m' dest (l.take (n - 1)) ∧
      Touches (Set.Ico src (src + (min (n - 1) (l.length + 1) : Nat)))
        (Set.Ico dest (dest + n)) m m' := by
  unfold strncpy_safe
  rw [if_neg (by omega)]
  apply Ends.bind
  apply (copyWhile_ends dest (n - 1) hheld hplain hended (by simp) (by simp) hapart).mono
  rintro i m₁ ⟨hi, hcopy⟩
  have htake : l.take i = l.take (n - 1) := by rw [hi, ← List.take_eq_take_min]
  apply ends_store
  rw [← htake]
  constructor
  · apply (hcopy.copied.snoc (by rw [hcopy.length_take])).stringAt
    intro c hc
    exact hplain c (List.mem_of_mem_take hc)
  · have hmore := hcopy.inside.mono Set.Subset.rfl (Q := Set.Ico dest (dest + n))
      (Set.Ico_subset_Ico (by omega) (by omega))
    exact hmore.stored ⟨by omega, by omega⟩

/-- **The copy of a string that may have no terminator** is the one that the
    parsers take (`Stdlib/String`). -/
theorem strncpy_safe_refines (hdest : dest ≠ 0) (hsrc : src ≠ 0) (hn : 1 ≤ n)
    (hapart : dest ≤ src ∨ src + (n - 1 : Nat) ≤ dest) :
    Ends (strncpy_safe dest src n) m fun _ m' =>
      StringAt 0 m' dest (ArgaldOS.strncpy_safe (fun k : Nat => m.cell (src + k)) n) := by
  obtain ⟨k, hk, hchars, hnul⟩ := exists_first_nul 0 m src (n - 1)
  have hname : ArgaldOS.strncpy_safe (fun k : Nat => m.cell (src + k)) n = m.cellsFrom src k :=
    takeWhile_cellsFrom hk hchars hnul
  have hheld : Holds m src (m.cellsFrom src k) := by
    intro i hi
    simp [cellsFrom]
  have hplain : ∀ c ∈ m.cellsFrom src k, c ≠ 0 := by
    intro c hc
    obtain ⟨i, hi, rfl⟩ := mem_cellsFrom.mp hc
    exact hchars i hi
  have hlen := length_cellsFrom (m := m) src k
  rw [hname]
  apply (strncpy_safe_ends hdest hsrc hn hheld hplain (by rwa [hlen]) (by omega)).mono
  rintro - m' ⟨hcopy, -⟩
  rwa [List.take_of_length_le (by omega)] at hcopy

/-- The concatenation, cut off, of a string that is not. -/
theorem append_take_eq (n : Nat) (dtext stext : CString) :
    (if dtext.length ≤ n then (dtext ++ stext).take n else dtext) =
      dtext ++ stext.take (n - dtext.length) := by
  by_cases hfits : dtext.length ≤ n
  · rw [if_pos hfits, List.take_append, List.take_of_length_le hfits]
  · rw [if_neg hfits, Nat.sub_eq_zero_of_le (by omega), List.take_zero, List.append_nil]

section behind
variable {m₀ m₁ : Memory} {limit i : Nat}

/-- A copy behind a string continues it. -/
theorem Copying.joins (h : Copying m₀ src (dest + dtext.length) stext limit i m₁)
    (hcell : m₀.cell = m.cell) (hd : StringAt 0 m dest dtext) (hplain : ∀ c ∈ stext, c ≠ 0) :
    StringAt 0 (m₁.stored (dest + (dtext.length + i)) 0) dest (dtext ++ stext.take i) := by
  have hkept : Holds m₁ dest dtext := by
    apply hd.holds.congr
    intro k hk
    rw [h.inside.frame, hcell]
    rintro ⟨hlow, -⟩
    omega
  apply ((hkept.append h.copied).snoc _).stringAt
  · intro c hc
    rcases List.mem_append.mp hc with hmem | hmem
    · exact hd.plain c hmem
    · exact hplain c (List.mem_of_mem_take hmem)
  · rw [List.length_append, h.length_take, Nat.cast_add]

/-- A copy of nothing writes the terminator over itself. -/
theorem Copying.changes_nothing (h : Copying m₀ src (dest + dtext.length) stext limit 0 m₁)
    (hcell : m₀.cell = m.cell) (hd : StringAt 0 m dest dtext) :
    (m₁.stored (dest + (dtext.length + (0 : Nat))) 0).cell = m.cell := by
  funext a
  by_cases ha : a = dest + (dtext.length + (0 : Nat))
  · subst ha
    rw [cell_stored_self]
    exact hd.ended.symm
  · rw [cell_stored_of_ne ha, h.inside.frame, hcell]
    rintro ⟨hlow, hhigh⟩
    omega

end behind

/-- **`strncat_safe`**: a destination that is longer than the room is left as
    it is; its terminator is written over itself. -/
theorem strncat_safe_ends (hdest : dest ≠ 0) (hsrc : src ≠ 0) (hn : 1 ≤ n)
    (hd : StringAt 0 m dest dtext) (hs : StringAt 0 m src stext)
    (hapart : dest + dtext.length < src ∨ src + stext.length < dest) :
    Ends (strncat_safe dest src n) m fun _ m' =>
      StringAt 0 m' dest (if dtext.length ≤ n - 1 then (dtext ++ stext).take (n - 1) else dtext) ∧
      Touches Set.univ (Set.Ico dest (dest + max n (dtext.length + 1))) m m' ∧
      (n - 1 < dtext.length → m'.cell = m.cell) := by
  unfold strncat_safe
  rw [if_neg (by omega)]
  apply Ends.bind
  apply (strlen_stringAt hd).mono
  rintro len m₀ ⟨rfl, hcell, hlen⟩
  apply Ends.bind
  have hheld : Holds m₀ src stext := hs.holds.congr fun k _ => by rw [hcell]
  have hended : m₀.cell (src + stext.length) = 0 := by
    rw [hcell]
    exact hs.ended
  apply (copyWhile_ends (dest + dtext.length) (n - 1 - dtext.length) hheld hs.plain
    (fun _ => hended) (by intro i; simp; omega) (by intro i; omega) (by omega)).mono
  rintro i m₁ ⟨hi, hcopy⟩
  apply ends_store
  refine ⟨?_, ?_, ?_⟩
  · rw [append_take_eq, List.take_eq_take_min, ← hi]
    exact hcopy.joins hcell hd hs.plain
  · have hfirst := hlen.mono (P := Set.univ)
      (Q := Set.Ico dest (dest + max n (dtext.length + 1))) (Set.subset_univ _) (Set.empty_subset _)
    have hmore := hcopy.inside.mono (P := Set.univ)
      (Q := Set.Ico dest (dest + max n (dtext.length + 1))) (Set.subset_univ _)
      (Set.Ico_subset_Ico (by omega) (by omega))
    exact (hfirst.trans hmore).stored ⟨by omega, by omega⟩
  · intro hlong
    have hzero : i = 0 := by omega
    subst hzero
    exact hcopy.changes_nothing hcell hd

/-- **Safe copies**: whatever the size, nothing is written behind it, unless the
    destination already was longer; and size 0 changes nothing at all. -/
theorem safe_copies (hdest : dest ≠ 0) (hsrc : src ≠ 0) (hd : StringAt 0 m dest dtext)
    (hs : StringAt 0 m src stext)
    (hapart : dest + dtext.length < src ∨ src + stext.length < dest) (n : Nat) :
    (1 ≤ n → Ends (strncpy_safe dest src n) m fun _ m' =>
      StringAt 0 m' dest (stext.take (min (n - 1) stext.length)) ∧
      Touches Set.univ (Set.Ico dest (dest + max n (dtext.length + 1))) m m') ∧
    (1 ≤ n → Ends (strncat_safe dest src n) m fun _ m' =>
      StringAt 0 m' dest (if dtext.length ≤ n - 1 then (dtext ++ stext).take (n - 1) else dtext) ∧
      Touches Set.univ (Set.Ico dest (dest + max n (dtext.length + 1))) m m' ∧
      (n - 1 < dtext.length → m'.cell = m.cell)) ∧
    (n = 0 → Ends (strncpy_safe dest src n) m (fun _ m' => m' = m) ∧
      Ends (strncat_safe dest src n) m fun _ m' => m' = m) := by
  refine ⟨?_, ?_, ?_⟩
  · intro hn
    have hended : stext.length < n - 1 → m.cell (src + stext.length) = 0 := fun _ => hs.ended
    apply (strncpy_safe_ends hdest hsrc hn hs.holds hs.plain hended (by omega)).mono
    rintro _ m' ⟨hstring, hinside⟩
    rw [← List.take_eq_take_min]
    exact ⟨hstring, hinside.mono (Set.subset_univ _) (Set.Ico_subset_Ico (by omega) (by omega))⟩
  · intro hn
    exact strncat_safe_ends hdest hsrc hn hd hs hapart
  · intro hn
    unfold strncpy_safe strncat_safe
    rw [if_pos (.inr (.inr hn)), if_pos (.inr (.inr hn))]
    exact ⟨Ends.pure rfl, Ends.pure rfl⟩

/-- Two characters at 1 and three at 7, with room for four: one of the three is cut off. -/
theorem safe_copies_text :
    let m : Cells Int UInt8 := ofList 1 [0x61, 0x62, 0, 0, 0, 0, 0x63, 0x64, 0x65] 0
    (Ends (strncpy_safe 1 7 5) m fun _ m' => StringAt 0 m' 1 [0x63, 0x64, 0x65] ∧
      Touches Set.univ (Set.Ico 1 6) m m') ∧
    Ends (strncat_safe 1 7 5) m fun _ m' => StringAt 0 m' 1 [0x61, 0x62, 0x63, 0x64] ∧
      Touches Set.univ (Set.Ico 1 6) m m' := by
  intro m
  have hd : StringAt 0 m 1 [0x61, 0x62] := ⟨by decide, rfl, by simp⟩
  have hs : StringAt 0 m 7 [0x63, 0x64, 0x65] := ⟨by decide, rfl, by simp⟩
  obtain ⟨hcopy, hcat, -⟩ := safe_copies (by decide) (by decide) hd hs (by decide) 5
  exact ⟨hcopy (by decide), (hcat (by decide)).mono fun _ m' h => ⟨h.1, h.2.1⟩⟩

end safe

end ArgaldOS.Buffer
