import ArgaldOS.Stdlib.Buffer

/-! # Null characters in the input (`removeNullChars` of `drivers/keyboard.c`)

    The function is to close the gaps that null characters leave in an array of
    100 bytes.  It first takes the index of the first of them for the length of
    the string, and looks for null characters in front of that index only.

    * `removeNullChars_ends`: one null character is written, at that index;
    * `compacts_iff`: so the array is compacted exactly if it was already, with
      a null character at its end.
-/

namespace ArgaldOS

open Cells Program

/-! ## Section 1: The function -/

/-- The loop that calculates the length. -/
def lengthWithin (arr : Int) (size : Nat) : Program Memory Nat :=
  loop (fun len : Nat => do
    if len < size then
      if (← load (arr + len)) = 0 then leave len
      else again (len + 1)
    else leave len) 0

/-- The inner loop: the characters from `i + 1` to `len` move to the left. -/
def shiftLeft (arr i len : Int) : Program Memory Unit :=
  loop (fun j => do
    if j < len then
      store (arr + j) (← load (arr + (j + 1)))
      again (j + 1)
    else leave ()) i

/-- `removeNullChars`. -/
def removeNullChars (arr : Int) : Program Memory Unit := do
  let len ← lengthWithin arr 100
  let len ← loop (fun (i, len) => do
    if i < len then
      if (← load (arr + i)) = 0 then
        shiftLeft arr i len
        -- `len--; i--;`, and the increment of the loop
        again (i, len - 1)
      else again (i + 1, len)
    else leave len) ((0 : Int), (len : Int))
  store (arr + len) 0

/-! ## Section 2: What it does -/

section compaction
variable {m : Memory} {arr : Int} {k : Nat}

/-- **Compaction**: only the array is written, and it holds the bytes that were
    not null, up to 99 of them, as a string. -/
def Compacts (m : Memory) (arr : Int) : Prop :=
  Ends (removeNullChars arr) m fun _ m' =>
    StringAt 0 m' arr (((m.cellsFrom arr 100).filter (· ≠ 0)).take 99) ∧
      Touches Set.univ (Set.Ico arr (arr + 100)) m m'

/-- The length is the index of the first null character. -/
theorem lengthWithin_ends (hk : k ≤ 100) (hchars : ∀ i : Nat, i < k → m.cell (arr + i) ≠ 0)
    (hnul : k < 100 → m.cell (arr + k) = 0) :
    Ends (lengthWithin arr 100) m fun len m' => len = k ∧ Touches Set.univ ∅ m m' := by
  apply Ends.loop (fun len m' => len ≤ k ∧ Touches Set.univ ∅ m m') (fun len => k - len)
  · rintro len m' ⟨hlen, ht⟩
    by_cases hlt : len < 100
    · simp only [if_pos hlt]
      apply Ends.bind
      apply ends_load
      rw [ht.cell_eq]
      by_cases hend : len = k
      · subst hend
        rw [if_pos (hnul hlt)]
        apply Ends.leave
        exact ⟨rfl, ht.loaded trivial⟩
      · rw [if_neg (hchars len (by omega))]
        apply Ends.again
        exact ⟨⟨by omega, ht.loaded trivial⟩, by omega⟩
    · simp only [if_neg hlt]
      apply Ends.leave
      exact ⟨by omega, ht⟩
  · exact ⟨Nat.zero_le k, Touches.refl _ _ m⟩

/-- **What the function does**: there is no null character in front of the
    length, so that nothing is shifted. -/
theorem removeNullChars_ends (hk : k ≤ 100) (hchars : ∀ i : Nat, i < k → m.cell (arr + i) ≠ 0)
    (hnul : k < 100 → m.cell (arr + k) = 0) :
    Ends (removeNullChars arr) m fun _ m' => m'.writes = m.writes ++ [arr + k] ∧
      m'.cell (arr + k) = 0 ∧ Touches Set.univ {arr + (k : Int)} m m' := by
  apply Ends.bind
  apply (lengthWithin_ends hk hchars hnul).mono
  rintro len m₁ ⟨rfl, hlen⟩
  apply Ends.bind
  apply Ends.loop (fun x m' => ∃ i : Nat, x = ((i : Int), (len : Int)) ∧ i ≤ len ∧
    Touches Set.univ ∅ m m') (fun x => (len - x.1).toNat)
  · rintro ⟨-, -⟩ m' ⟨i, ⟨⟩, hi, ht⟩
    by_cases hlt : (i : Int) < len
    · simp only [if_pos hlt]
      apply Ends.bind
      apply ends_load
      rw [ht.cell_eq, if_neg (hchars i (by omega))]
      apply Ends.again
      refine ⟨⟨i + 1, rfl, by omega, ht.loaded trivial⟩, ?_⟩
      show ((len : Int) - (i + 1)).toNat < ((len : Int) - i).toNat
      omega
    · simp only [if_neg hlt]
      apply Ends.leave
      apply ends_store
      refine ⟨?_, cell_stored_self, ?_⟩
      · show m'.writes ++ [arr + (len : Int)] = m.writes ++ [arr + (len : Int)]
        rw [ht.writes_eq]
      · have hmore := ht.mono Set.Subset.rfl (Q := {arr + (len : Int)}) (Set.empty_subset _)
        exact hmore.stored rfl
  · exact ⟨0, rfl, Nat.zero_le _, hlen⟩

/-! ## Section 3: When the array is compacted -/

/-- The bytes that are not null: those in front of the first null character,
    and what is left of the others. -/
theorem filter_bytes (hk : k ≤ 100) (hchars : ∀ i : Nat, i < k → m.cell (arr + i) ≠ 0) :
    (m.cellsFrom arr 100).filter (· ≠ 0) =
      m.cellsFrom arr k ++ (m.cellsFrom (arr + k) (100 - k)).filter (· ≠ 0) := by
  have hsplit : m.cellsFrom arr 100 = m.cellsFrom arr k ++ m.cellsFrom (arr + k) (100 - k) := by
    rw [← cellsFrom_add, Nat.add_sub_cancel' hk]
  rw [hsplit, List.filter_append]
  congr 1
  rw [List.filter_eq_self]
  intro c hc
  obtain ⟨i, hi, rfl⟩ := mem_cellsFrom.mp hc
  exact decide_eq_true (hchars i hi)

/-- Nothing is left if all the other bytes are null. -/
theorem filter_rest_eq_nil : (m.cellsFrom (arr + k) (100 - k)).filter (· ≠ 0) = [] ↔
    ∀ i : Nat, k ≤ i → i < 100 → m.cell (arr + i) = 0 := by
  rw [List.filter_eq_nil_iff]
  constructor
  · intro h i hi hlt
    have hplace : arr + (k : Int) + (i - k : Nat) = arr + i := by omega
    have hmem : m.cell (arr + i) ∈ m.cellsFrom (arr + k) (100 - k) :=
      mem_cellsFrom.mpr ⟨i - k, by omega, by rw [hplace]⟩
    simpa using h _ hmem
  · intro h c hc
    obtain ⟨i, hi, rfl⟩ := mem_cellsFrom.mp hc
    have hplace : arr + (k : Int) + i = arr + (k + i : Nat) := by omega
    rw [hplace, h (k + i) (by omega) (by omega)]
    simp

/-- With a null character among the bytes, the others and a terminator fit. -/
theorem length_filter_bytes_le (hlt : k < 100) (hnul : m.cell (arr + k) = 0) :
    ((m.cellsFrom arr 100).filter (· ≠ 0)).length ≤ 99 := by
  have hone : ∃ c ∈ m.cellsFrom arr 100, ¬ decide (c ≠ 0) = true :=
    ⟨m.cell (arr + k), mem_cellsFrom.mpr ⟨k, hlt, rfl⟩, by simpa using hnul⟩
  have hfewer := List.length_filter_lt_length_iff_exists.mpr hone
  rw [length_cellsFrom] at hfewer
  omega

/-- The null character that is written ends the string in front of it. -/
theorem stringAt_kept {m' : Memory} (hchars : ∀ i : Nat, i < k → m.cell (arr + i) ≠ 0)
    (hzero : m'.cell (arr + k) = 0) (hkept : Touches Set.univ {arr + (k : Int)} m m') :
    StringAt 0 m' arr (m.cellsFrom arr k) := by
  have hsame : ∀ i : Nat, i < k → m'.cell (arr + i) = m.cell (arr + i) := by
    intro i hi
    apply hkept.frame
    intro heq
    have hik : arr + (i : Int) = arr + (k : Int) := heq
    omega
  have hheld : m'.cellsFrom arr k = m.cellsFrom arr k :=
    List.map_congr_left fun i hi => hsame i (List.mem_range.mp hi)
  rw [← hheld]
  apply stringAt_cellsFrom _ hzero
  intro i hi
  rw [hsame i hi]
  exact hchars i hi

/-- **Compacted exactly if it was before**: the array ends in null characters,
    at least one of them, and there are no others. -/
theorem compacts_iff (m : Memory) (arr : Int) : Compacts m arr ↔
    ∃ k < 100, (∀ i : Nat, i < k → m.cell (arr + i) ≠ 0) ∧
      ∀ i : Nat, k ≤ i → i < 100 → m.cell (arr + i) = 0 := by
  constructor
  · intro hcompacts
    obtain ⟨k, hk, hchars, hnul⟩ := exists_first_nul 0 m arr 100
    apply ((removeNullChars_ends hk hchars hnul).unique hcompacts).elim
    rintro - m' ⟨⟨hwrites, hzero, hkept⟩, hstring, hinside⟩
    -- The null character is written inside the array.
    have hlt : k < 100 := by
      obtain ⟨-, hhigh⟩ := hinside.mem_of_writes hwrites
      omega
    have heq := hstring.unique (stringAt_kept hchars hzero hkept)
    rw [List.take_of_length_le (length_filter_bytes_le hlt (hnul hlt)), filter_bytes hk hchars,
      List.append_right_eq_self] at heq
    exact ⟨k, hlt, hchars, filter_rest_eq_nil.mp heq⟩
  · rintro ⟨k, hlt, hchars, hzeros⟩
    have hnul := hzeros k (Nat.le_refl _)
    apply (removeNullChars_ends (by omega) hchars hnul).mono
    rintro - m' ⟨-, hzero, hkept⟩
    constructor
    · rw [List.take_of_length_le (length_filter_bytes_le hlt (hnul hlt)),
        filter_bytes (by omega) hchars, filter_rest_eq_nil.mpr hzeros, List.append_nil]
      exact stringAt_kept hchars hzero hkept
    · apply hkept.mono Set.Subset.rfl
      rintro - rfl
      exact ⟨by omega, by omega⟩

/-- A gap between two characters is not closed. -/
theorem not_compacts_gap : ¬ Compacts (ofList 0 [0x61, 0, 0x62] 0) 0 := by
  have hchars : ∀ i : Nat, i < 1 →
      (ofList 0 [0x61, 0, 0x62] (0 : UInt8)).cell (0 + (i : Nat)) ≠ 0 := by
    intro i hi
    obtain rfl := Nat.lt_one_iff.mp hi
    decide
  intro hcompacts
  apply ((removeNullChars_ends (k := 1) (by simp) hchars (fun _ => rfl)).unique hcompacts).elim
  rintro - m' ⟨⟨-, hzero, hkept⟩, hstring, -⟩
  have heq := hstring.unique (stringAt_kept hchars hzero hkept)
  revert heq
  decide

end compaction

end ArgaldOS
