import ArgaldOS.Stdlib.Buffer

/-! # Editing the end of a string (`stdlib/string.c`)

    `append` and `addCharToString` put a character at the end of a string,
    `backspace` and `removeLastChar` take the last one away.

    * `append_ends`, `addCharToString_ends`: the character is appended to every
      string;
    * `backspace_ends`: the last character goes, if there is one.  Otherwise the
      byte in front of the string is overwritten (`backspace_nil`);
    * `removeLastChar_ends`: the last character goes, unless it is the only one;
    * `editsRight_iff`: when the four functions fit together.
-/

namespace ArgaldOS.Buffer

open Cells Program

/-! ## Section 1: Appending -/

section editing
variable {m : Memory} {s : Int} {text : CString} {c : UInt8}

/-- The memory after a character and the terminator behind it were written. -/
theorem stringAt_append {m' : Memory} (h : StringAt 0 m s text) (hcell : m'.cell = m.cell)
    (hc : c ≠ 0) :
    StringAt 0 ((m'.stored (s + text.length) c).stored (s + (text.length + 1)) 0) s
      (text ++ [c]) := by
  have hheld : Holds m' s text := h.holds.congr fun k _ => by rw [hcell]
  apply ((hheld.snoc rfl).snoc (by simp)).stringAt
  intro d hd
  rcases List.mem_append.mp hd with hmem | hmem
  · exact h.plain d hmem
  · rw [List.mem_singleton.mp hmem]
    exact hc

/-- **Appending**: the character, and the terminator behind it, are written. -/
theorem append_ends (h : StringAt 0 m s text) (hc : c ≠ 0) : Ends (append s c) m fun _ m' =>
    StringAt 0 m' s (text ++ [c]) ∧ Touches (Set.Ico s (s + text.length + 1))
      (Set.Ico (s + text.length) (s + text.length + 2)) m m' := by
  apply Ends.bind
  apply (strlen_stringAt h).mono
  rintro len m₁ ⟨rfl, hcell, hlen⟩
  apply Ends.bind
  apply ends_store
  apply ends_store
  constructor
  · exact stringAt_append h hcell hc
  · have hlen' := hlen.mono Set.Subset.rfl
      (Q := Set.Ico (s + text.length) (s + text.length + 2)) (Set.empty_subset _)
    exact (hlen'.stored ⟨by omega, by omega⟩).stored ⟨by omega, by omega⟩

/-- The two functions that append are written differently, but do the same. -/
theorem addCharToString_eq : addCharToString s c = append s c := rfl

/-! ## Section 2: Removing the last character -/

/-- The memory after the last character was replaced by a terminator. -/
theorem stringAt_dropLast {m' : Memory} (h : StringAt 0 m s text) (hcell : m'.cell = m.cell)
    (hne : text ≠ []) :
    StringAt 0 (m'.stored (s + (text.length - 1)) 0) s text.dropLast := by
  have hlen := List.length_pos_iff.mpr hne
  have hheld : Holds m' s text.dropLast := by
    intro k hk
    rw [List.length_dropLast] at hk
    rw [hcell, List.getElem_dropLast]
    exact h.chars k (by omega)
  apply (hheld.snoc _).stringAt
  · intro d hd
    exact h.plain d (List.dropLast_subset text hd)
  · rw [List.length_dropLast]
    omega

/-- **`backspace`** on a string that is not empty. -/
theorem backspace_ends (h : StringAt 0 m s text) (hne : text ≠ []) :
    Ends (backspace s) m fun _ m' => StringAt 0 m' s text.dropLast ∧
      Touches (Set.Ico s (s + text.length + 1)) (Set.Ico s (s + text.length)) m m' := by
  have hpos := List.length_pos_iff.mpr hne
  apply Ends.bind
  apply (strlen_stringAt h).mono
  rintro len m₁ ⟨rfl, hcell, hlen⟩
  apply ends_store
  constructor
  · exact stringAt_dropLast h hcell hne
  · have hlen' := hlen.mono Set.Subset.rfl (Q := Set.Ico s (s + text.length)) (Set.empty_subset _)
    exact hlen'.stored ⟨by omega, by omega⟩

/-- `backspace` on the empty string writes in front of it. -/
theorem backspace_nil (h : StringAt 0 m s []) :
    Ends (backspace s) m fun _ m' => m'.writes = m.writes ++ [s - 1] := by
  apply Ends.bind
  apply (strlen_ends h).mono
  rintro len m₁ ⟨rfl, hlen⟩
  apply ends_store
  show m₁.writes ++ [s - 1] = m.writes ++ [s - 1]
  rw [hlen.writes_eq]

/-- **`removeLastChar`** finds a character from index 1 on only. -/
theorem removeLastChar_ends (h : StringAt 0 m s text) : Ends (removeLastChar s) m fun _ m' =>
    StringAt 0 m' s (if 2 ≤ text.length then text.dropLast else text) ∧
      Touches (Set.Ico s (s + text.length + 1)) (Set.Ico s (s + text.length)) m m' := by
  apply Ends.bind
  apply (strlen_ends h).mono
  rintro len m₁ ⟨rfl, hlen⟩
  -- The loop looks at the terminator first, and then at the last character.
  apply Ends.loop (fun i m' => i ≤ text.length ∧ text.length ≤ i + 1 ∧
    Touches (Set.Ico s (s + text.length + 1)) ∅ m m') (fun i => i)
  · rintro i m' ⟨hi, hi', ht⟩
    have ht' := ht.mono Set.Subset.rfl (Q := Set.Ico s (s + text.length)) (Set.empty_subset _)
    by_cases hpos : i > 0
    · simp only [if_pos hpos]
      have hin : s + (i : Int) ∈ Set.Ico s (s + text.length + 1) := ⟨by omega, by omega⟩
      apply Ends.bind
      apply ends_load
      rw [ht.cell_eq]
      by_cases hend : i = text.length
      · rw [hend, if_neg (not_not.mpr h.ended)]
        apply Ends.again
        exact ⟨⟨by omega, by omega, ht.loaded (hend ▸ hin)⟩, by omega⟩
      · have hlt : i < text.length := by omega
        have hlast : (i : Int) = text.length - 1 := by omega
        have hne : text ≠ [] := List.length_pos_iff.mp (by omega)
        rw [if_pos (h.ne_nul hlt)]
        apply Ends.bind
        apply ends_store
        apply Ends.leave
        refine ⟨?_, (ht'.loaded hin).stored ⟨by omega, by omega⟩⟩
        rw [if_pos (by omega), hlast]
        exact stringAt_dropLast h ht.cell_eq hne
    · simp only [if_neg hpos]
      apply Ends.leave
      refine ⟨?_, ht'⟩
      rw [if_neg (by omega)]
      exact h.congr fun k _ => by rw [ht.cell_eq]
  · exact ⟨Nat.le_refl _, by omega, hlen⟩

/-! ## Section 3: The four functions together -/

/-- **The editors fit together**: both ways to append a character do, both ways
    to remove it undo that, and nothing outside of the string and its terminator
    is written when a character is removed. -/
structure EditsRight (m : Memory) (s : Int) (text : CString) (c : UInt8) : Prop where
  append : Ends (append s c) m fun _ m' => StringAt 0 m' s (text ++ [c])
  addCharToString : Ends (addCharToString s c) m fun _ m' => StringAt 0 m' s (text ++ [c])
  backspace_undoes : ∀ m', StringAt 0 m' s (text ++ [c]) →
    Ends (backspace s) m' fun _ m'' => StringAt 0 m'' s text
  removeLastChar_undoes : ∀ m', StringAt 0 m' s (text ++ [c]) →
    Ends (removeLastChar s) m' fun _ m'' => StringAt 0 m'' s text
  backspace_inside : Ends (backspace s) m fun _ m' =>
    Touches Set.univ (Set.Ico s (s + text.length + 1)) m m' ∧ (text = [] → StringAt 0 m' s [])
  removeLastChar_inside : Ends (removeLastChar s) m fun _ m' =>
    Touches Set.univ (Set.Ico s (s + text.length + 1)) m m' ∧ (text = [] → StringAt 0 m' s [])

/-- **The editors fit together exactly on the strings that are not empty**. -/
theorem editsRight_iff (h : StringAt 0 m s text) (hc : c ≠ 0) :
    EditsRight m s text c ↔ text ≠ [] := by
  constructor
  · rintro hright rfl
    obtain ⟨-, _, m', ⟨hwrites, hinside, -⟩, -⟩ := (backspace_nil h).unique hright.backspace_inside
    obtain ⟨hlow, -⟩ := hinside.mem_of_writes hwrites
    omega
  · intro hne
    have hpos := List.length_pos_iff.mpr hne
    have happend := (append_ends h hc).mono fun _ _ h' => h'.1
    have hsub : ∀ a : Int, a ∈ Set.Ico s (s + text.length) → a ∈ Set.Ico s (s + text.length + 1) :=
      (Set.Ico_subset_Ico (by omega) (by omega))
    constructor
    · exact happend
    · rw [addCharToString_eq]
      exact happend
    · intro m' hm'
      apply (backspace_ends hm' (by simp)).mono
      intro _ m'' hm''
      have hback : (text ++ [c]).dropLast = text := List.dropLast_concat
      rw [← hback]
      exact hm''.1
    · intro m' hm'
      apply (removeLastChar_ends hm').mono
      intro _ m'' hm''
      rw [if_pos (by rw [List.length_append, List.length_singleton]; omega),
        List.dropLast_concat] at hm''
      exact hm''.1
    · apply (backspace_ends h hne).mono
      intro _ m' hm'
      exact ⟨hm'.2.mono (Set.subset_univ _) hsub, fun hnil => absurd hnil hne⟩
    · apply (removeLastChar_ends h).mono
      intro _ m' hm'
      exact ⟨hm'.2.mono (Set.subset_univ _) hsub, fun hnil => absurd hnil hne⟩

/-- The editors on a string of one character. -/
theorem editsRight_one :
    EditsRight (ofList 0 [0x61] 0) 0 [0x61] 0x62 ↔ ([0x61] : CString) ≠ [] :=
  editsRight_iff (stringAt_ofList (by simp)) (by simp)

/-- On the empty string they do not fit together: what `append` makes of it,
    `removeLastChar` leaves as it is. -/
theorem not_editsRight_nil :
    StringAt 0 (ofList 0 [] (0 : UInt8)) 0 [] ∧ ¬ EditsRight (ofList 0 [] 0) 0 [] 0x61 := by
  refine ⟨stringAt_ofList (by simp), ?_⟩
  intro hright
  have hone : StringAt 0 (ofList 0 [0x61] (0 : UInt8)) 0 [0x61] := stringAt_ofList (by simp)
  have hundone := hright.removeLastChar_undoes _ hone
  apply (hundone.unique (removeLastChar_ends hone)).elim
  rintro - m' ⟨hempty, hkept, -⟩
  have heq := hempty.unique hkept
  simp at heq

end editing

end ArgaldOS.Buffer
