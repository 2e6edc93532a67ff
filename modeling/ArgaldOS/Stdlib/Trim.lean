import ArgaldOS.Stdlib.Copying

/-! # Trimming in place (`trim` of `stdlib/string.c`)

    `trim` copies the string down over its leading spaces, and then walks back
    from its end as long as it meets spaces.  It leaves what the function `trim`
    on lists says.

    * `Trims text t`: `t` is what lies between the first and the last character
      of `text` that is no space;
    * `trim_ends`: the three loops;
    * `trim_correct`: what `trim` leaves, what it leaves if it is called twice, and
      what it makes of a name field of the FAT file system.
-/

namespace ArgaldOS

/-! ## Section 1: Trimmed strings -/

/-- `t` is `text` without the spaces at both ends. -/
structure Trims (text t : CString) : Prop where
  split : ∃ left right, text = left ++ t ++ right ∧ ∀ c ∈ left ++ right, isspace c = true
  first : ∀ h : t ≠ [], isspace (t.head h) = false
  last  : ∀ h : t ≠ [], isspace (t.getLast h) = false

theorem trims (text : CString) : Trims text (trim text) where
  split := by
    refine ⟨text.takeWhile isspace, (text.dropWhile isspace).rtakeWhile isspace, ?_, ?_⟩
    · unfold trim
      rw [List.append_assoc, List.rdropWhile_append_rtakeWhile, List.takeWhile_append_dropWhile]
    · intro c hc
      rcases List.mem_append.mp hc with hmem | hmem
      · exact List.mem_takeWhile_imp hmem
      · exact List.mem_rtakeWhile_imp hmem
  first := by
    intro h
    have hfront : trim text <+: text.dropWhile isspace := List.rdropWhile_prefix isspace _
    have hne : text.dropWhile isspace ≠ [] := by
      intro hnil
      rw [hnil] at hfront
      exact h (List.prefix_nil.mp hfront)
    rw [hfront.head h]
    exact List.head_dropWhile_not isspace hne
  last := by
    intro h
    exact eq_false_of_ne_true (List.rdropWhile_last_not isspace _ h)

/-- A trimmed string stays as it is. -/
theorem Trims.trim_eq {text t : CString} (h : Trims text t) : trim t = t := by
  have hleft : t.dropWhile isspace = t := by
    rw [List.dropWhile_eq_self_iff]
    intro hpos
    rw [← List.head_eq_getElem (List.length_pos_iff.mp hpos), h.first]
    simp
  unfold trim
  rw [hleft, List.rdropWhile_eq_self_iff]
  intro hne
  rw [h.last hne]
  simp

namespace Buffer

open Cells Program

/-! ## Section 2: The three loops -/

section trimming
variable {m : Memory} {a : Int} {left mid t text : CString}

/-- **The first loop** passes the leading spaces. -/
theorem skipSpaces_ends (h : StringAt 0 m a (left ++ mid)) (hleft : ∀ c ∈ left, isspace c = true)
    (hmid : ∀ hne : mid ≠ [], isspace (mid.head hne) = false) :
    Ends (skipSpaces a) m fun q m' => q = a + left.length ∧
      Touches (Set.Ico a (a + (left ++ mid).length + 1)) ∅ m m' := by
  rw [List.length_append]
  apply Ends.loop (fun q m' => ∃ i : Nat, q = a + i ∧ i ≤ left.length ∧
    Touches (Set.Ico a (a + (left.length + mid.length : Nat) + 1)) ∅ m m')
    (fun q => (a + left.length - q).toNat)
  · rintro q m' ⟨i, rfl, hi, ht⟩
    have ht' := ht.loaded (a := a + i) ⟨by omega, by omega⟩
    apply Ends.bind
    apply ends_load
    rw [ht.cell_eq]
    by_cases hend : i = left.length
    · -- What comes behind the leading spaces is no space.
      have hstop : isspace (m.cell (a + i)) = false := by
        subst hend
        cases mid with
        | nil =>
          have hnul := h.ended
          rw [List.append_nil] at hnul
          rw [hnul]
          rfl
        | cons c mid =>
          rw [h.cell_append]
          exact hmid (by simp)
      rw [if_neg (by rw [hstop]; simp)]
      apply Ends.leave
      exact ⟨by rw [hend], ht'⟩
    · have hlt : i < left.length := by omega
      have hchar := h.chars i (by rw [List.length_append]; omega)
      rw [List.getElem_append_left hlt] at hchar
      rw [if_pos (by rw [hchar]; exact hleft _ (List.getElem_mem hlt))]
      apply Ends.again
      exact ⟨⟨i + 1, by omega, hlt, ht'⟩, by omega⟩
  · exact ⟨0, by simp, Nat.zero_le _, Touches.refl _ _ m⟩

/-- **The second loop** copies the rest down. -/
theorem copyDown_ends {q : Int} (h : StringAt 0 m q mid) (hq : a ≤ q) :
    Ends (copyDown a q) m fun p m' => p = a + mid.length ∧
      Copying m q a mid (mid.length + 1) mid.length m' := by
  apply Ends.loop (fun x m' => ∃ i : Nat, x = (a + i, q + i) ∧
    Copying m q a mid (mid.length + 1) i m') (fun x => (a + mid.length - x.1).toNat)
  · rintro ⟨-, -⟩ m' ⟨i, ⟨⟩, hcopy⟩
    have hi := hcopy.bound
    have hsource := hcopy.source (by omega) (.inl hq)
    apply Ends.bind
    apply ends_load
    rw [hsource]
    by_cases hend : i = mid.length
    · subst hend
      rw [if_neg (not_not.mpr h.ended)]
      apply Ends.leave
      exact ⟨rfl, hcopy.read (by omega)⟩
    · have hlt : i < mid.length := by omega
      have hchar : m.cell (q + i) = mid[i] := h.chars i hlt
      rw [if_pos (h.ne_nul hlt)]
      apply Ends.bind
      apply ends_load
      apply Ends.bind
      apply ends_store
      apply Ends.again
      rw [cell_loaded, hsource, hchar]
      refine ⟨⟨i + 1, ?_, ((hcopy.read (by omega)).read (by omega)).write (by omega) hlt⟩, ?_⟩
      · rw [Prod.mk.injEq]
        omega
      · show (a + mid.length - (a + i + 1)).toNat < (a + mid.length - (a + i)).toNat
        omega
  · exact ⟨0, by simp, Nat.zero_le _, holds_nil, Touches.refl _ _ m⟩

/-- **The third loop** cuts off the trailing spaces. -/
theorem cutSpaces_ends (h : StringAt 0 m a mid) : Ends (cutSpaces a (a + mid.length)) m fun _ m' =>
    StringAt 0 m' a (mid.rdropWhile isspace) ∧
      Touches (Set.Ico a (a + mid.length)) (Set.Ico a (a + mid.length)) m m' := by
  apply Ends.loop (fun p m' => ∃ t, p = a + (t.length : Int) ∧ t.length ≤ mid.length ∧
    StringAt 0 m' a t ∧ t.rdropWhile isspace = mid.rdropWhile isspace ∧
    Touches (Set.Ico a (a + mid.length)) (Set.Ico a (a + mid.length)) m m')
    (fun p => (p - a).toNat)
  · rintro p m' ⟨t, rfl, hlen, hstring, hrest, ht⟩
    rcases List.eq_nil_or_concat t with rfl | ⟨t, c, rfl⟩
    · -- The start of the string.
      simp only [if_neg (by simp : ¬ a + (([] : CString).length : Int) > a)]
      apply Ends.leave
      rw [← hrest]
      exact ⟨hstring, ht⟩
    · rw [List.concat_eq_append, List.length_append, List.length_singleton] at hlen ⊢
      rw [List.concat_eq_append] at hstring hrest
      have hplace : a + (t.length + 1 : Nat) - 1 = a + t.length := by omega
      have hread := ht.loaded (a := a + t.length) ⟨by omega, by omega⟩
      simp only [if_pos (by omega : a + (t.length + 1 : Nat) > a), hplace]
      apply Ends.bind
      apply ends_load
      rw [hstring.cell_append]
      by_cases hspace : isspace c = true
      · rw [if_pos hspace]
        apply Ends.bind
        apply ends_store
        apply Ends.again
        refine ⟨⟨t, rfl, by omega, ?_, ?_, hread.stored ⟨by omega, by omega⟩⟩, by omega⟩
        · have hheld : Holds (m'.loaded (a + t.length)) a t := hstring.holds.left
          apply (hheld.snoc rfl).stringAt
          intro d hd
          exact hstring.plain d (List.mem_append_left _ hd)
        · rw [← hrest, List.rdropWhile_concat_pos _ _ _ hspace]
      · rw [if_neg hspace]
        apply Ends.leave
        rw [← hrest, List.rdropWhile_concat_neg _ _ _ hspace]
        exact ⟨hstring, hread⟩
  · exact ⟨mid, rfl, Nat.le_refl _, h, rfl, Touches.refl _ _ m⟩

/-! ## Section 3: Trimming -/

/-- **Trimming** in place does what `trim` on lists says, within the string and
    its terminator. -/
theorem trim_ends (h : StringAt 0 m a text) : Ends (trim a) m fun _ m' =>
    StringAt 0 m' a (ArgaldOS.trim text) ∧
      Touches (Set.Ico a (a + text.length + 1)) (Set.Ico a (a + text.length + 1)) m m' := by
  have hlen : text.length = (text.takeWhile isspace).length + (text.dropWhile isspace).length := by
    rw [← List.length_append, List.takeWhile_append_dropWhile]
  have hsplit : StringAt 0 m a (text.takeWhile isspace ++ text.dropWhile isspace) := by
    rwa [List.takeWhile_append_dropWhile]
  apply Ends.bind
  apply (skipSpaces_ends hsplit (fun c hc => List.mem_takeWhile_imp hc)
    fun hne => List.head_dropWhile_not isspace hne).mono
  rintro q m₁ ⟨rfl, hskip⟩
  rw [List.takeWhile_append_dropWhile] at hskip
  have hrest : StringAt 0 m₁ (a + (text.takeWhile isspace).length) (text.dropWhile isspace) :=
    hsplit.right.congr fun k _ => by rw [hskip.cell_eq]
  apply Ends.bind
  apply (copyDown_ends hrest (by omega)).mono
  rintro p m₂ ⟨rfl, hcopy⟩
  apply Ends.bind
  apply ends_store
  have hheld : Holds m₂ a (text.dropWhile isspace) := by
    have hcopied := hcopy.copied
    rwa [List.take_length] at hcopied
  have hstring : StringAt 0 (m₂.stored (a + (text.dropWhile isspace).length) 0) a
      (text.dropWhile isspace) := (hheld.snoc rfl).stringAt hrest.plain
  apply (cutSpaces_ends hstring).mono
  rintro - m' ⟨htrim, hcut⟩
  refine ⟨htrim, ?_⟩
  have hskip' := hskip.mono Set.Subset.rfl (Q := Set.Ico a (a + text.length + 1))
    (Set.empty_subset _)
  have hcopy' := hcopy.inside.mono (P := Set.Ico a (a + text.length + 1))
    (Q := Set.Ico a (a + text.length + 1)) (Set.Ico_subset_Ico (by omega) (by omega))
    (Set.Ico_subset_Ico (by omega) (by omega))
  have hcut' := hcut.mono (P := Set.Ico a (a + text.length + 1))
    (Q := Set.Ico a (a + text.length + 1)) (Set.Ico_subset_Ico (by omega) (by omega))
    (Set.Ico_subset_Ico (by omega) (by omega))
  exact ((hskip'.trans hcopy').stored ⟨by omega, by omega⟩).trans hcut'

/-- **Trimming a string, twice, and a name field.**  The field has eight bytes
    and no terminator; its name is padded with spaces. -/
theorem trim_correct :
    (∀ (m : Memory) (a : Int) (text : CString), StringAt 0 m a text → ∃ t, Trims text t ∧
      (Ends (trim a) m fun _ m' => StringAt 0 m' a t ∧
        Touches (Set.Ico a (a + text.length + 1)) (Set.Ico a (a + text.length + 1)) m m') ∧
      Ends (do trim a; trim a) m fun _ m' => StringAt 0 m' a t) ∧
    (∀ (m : Memory) (dest field : Int) (name : CString), dest ≠ 0 → field ≠ 0 →
      dest + 9 ≤ field ∨ field + 8 ≤ dest → name.length = 8 → (∀ c ∈ name, c ≠ 0) →
      name.head? ≠ some 0x20 → Holds m field name →
      Ends (do strncpy_safe dest field 9; trim dest) m fun _ m' =>
        StringAt 0 m' dest (name.rdropWhile isspace)) := by
  constructor
  · intro m a text h
    refine ⟨ArgaldOS.trim text, trims text, trim_ends h, ?_⟩
    apply Ends.bind
    apply (trim_ends h).mono
    rintro - m' ⟨htrim, -⟩
    apply (trim_ends htrim).mono
    rintro - m'' ⟨htwice, -⟩
    rwa [(trims text).trim_eq] at htwice
  · intro m dest field name hdest hfield hapart hlen hplain hhead hheld
    apply Ends.bind
    apply (strncpy_safe_ends hdest hfield (by simp) hheld hplain (by omega) (by omega)).mono
    rintro - m' ⟨hcopy, -⟩
    rw [List.take_of_length_le (by omega)] at hcopy
    apply (trim_ends hcopy).mono
    rintro - m'' ⟨htrim, -⟩
    -- There are no spaces in front of the name.
    have hfront : name.dropWhile isspace = name := by
      cases name with
      | nil => rfl
      | cons c name =>
        rw [List.dropWhile_cons_of_neg]
        intro hspace
        rw [List.head?_cons, eq_of_beq hspace] at hhead
        exact hhead rfl
    rwa [ArgaldOS.trim, hfront] at htrim

/-- A name of three characters in its field. -/
theorem trim_correct_name :
    (∃ t, Trims [0x20, 0x61, 0x20] t ∧
      (Ends (trim 0) (ofList 0 [0x20, 0x61, 0x20] 0) fun _ m' => StringAt 0 m' 0 t ∧
        Touches (Set.Ico 0 (0 + 3 + 1)) (Set.Ico 0 (0 + 3 + 1))
          (ofList 0 [0x20, 0x61, 0x20] 0) m') ∧
      Ends (do trim 0; trim 0) (ofList 0 [0x20, 0x61, 0x20] 0) fun _ m' => StringAt 0 m' 0 t) ∧
    Ends (do strncpy_safe 1 20 9; trim 1)
      (ofList 20 [0x41, 0x42, 0x43, 0x20, 0x20, 0x20, 0x20, 0x20] 0) fun _ m' =>
        StringAt 0 m' 1
          (([0x41, 0x42, 0x43, 0x20, 0x20, 0x20, 0x20, 0x20] : CString).rdropWhile isspace) :=
  have hname : StringAt 0
      (ofList 20 [0x41, 0x42, 0x43, 0x20, 0x20, 0x20, 0x20, 0x20] (0 : UInt8)) 20
      [0x41, 0x42, 0x43, 0x20, 0x20, 0x20, 0x20, 0x20] := stringAt_ofList (by simp)
  ⟨trim_correct.1 _ 0 [0x20, 0x61, 0x20] (stringAt_ofList (by simp)),
    trim_correct.2 _ 1 20 [0x41, 0x42, 0x43, 0x20, 0x20, 0x20, 0x20, 0x20] (by simp) (by simp)
      (by simp) rfl (by simp) (by simp) hname.holds⟩

end trimming

end Buffer
end ArgaldOS
