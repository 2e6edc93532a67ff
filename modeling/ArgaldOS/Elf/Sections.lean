import ArgaldOS.Elf.Model

/-! # One round of the section loop

    What the body of the loop of `read_elf` can do, said once:

    * `placeSection_cases`: a section is skipped, or gets a frame and a mapping,
      or the run is stopped on the way;
    * `copyByte_cases`: a byte is copied, or the store faults;
    * `copyLoop_invariant`: the rule for the copy loop;
    * `copyLoop_grows`, `loadSection_grows`: a stopped run does nothing more,
      and what was recorded stays recorded;
    * `read_elf_loader`: the run of an image.
-/

namespace ArgaldOS

/-! ## Section 1: The header of a section -/

/-- The header of section `i`. -/
def sectionAt (elf : Image) (header : ELF_FILE_HEADER_T) (i : Nat) : ELF_SECTION_HEADER_T :=
  (parse_section_header elf header.section_header_offset i
    header.section_header_entry_size).value.2

/-- The indices read for the header of section `i`. -/
def sectionReads (elf : Image) (header : ELF_FILE_HEADER_T) (i : Nat) : List UInt64 :=
  (parse_section_header elf header.section_header_offset i header.section_header_entry_size).reads

/-- The section passes the checks of the loop. -/
def ELF_SECTION_HEADER_T.Loads (sh : ELF_SECTION_HEADER_T) : Prop :=
  sh.type = 0x01 ∧ sh.size > 0 ∧ ¬ sh.offset + sh.size > 4608

instance (sh : ELF_SECTION_HEADER_T) : Decidable sh.Loads := inferInstanceAs (Decidable (_ ∧ _))

section sections
variable {σ : Type} [PageAllocator σ] {elf : Image} {header : ELF_FILE_HEADER_T} {i : Nat}
variable {s s' : Loader σ}

/-! ## Section 2: Up to the copy -/

/-- What a section that gets a frame has been given. -/
structure Placed (sh : ELF_SECTION_HEADER_T) (phys : UInt64) (s s' : Loader σ) : Prop where
  loads   : sh.Loads
  ne_zero : phys ≠ 0
  mapped  : ∃ machine, s.machine.kmalloc = some (phys, machine) ∧
    map_page sh.virtual_address phys 0x7 machine = some s'.machine
  stopped : s'.stopped = s.stopped

/-- **All that the loop body can do before the copy**: skip the section, stop,
    get no frame, or get a frame and a mapping. -/
theorem placeSection_cases {sh : ELF_SECTION_HEADER_T} {o : Option UInt64}
    (h : placeSection sh s = (o, s')) :
    s'.reads = s.reads ∧ s'.stores = s.stores ∧
      ((¬ sh.Loads ∧ o = none ∧ s' = s) ∨
        (sh.Loads ∧ o = none ∧ s'.stopped = true ∧
          ((s.machine.kmalloc = none ∧ s'.machine = s.machine) ∨
            ∃ phys, s.machine.kmalloc = some (phys, s'.machine) ∧ phys ≠ 0 ∧
              map_page sh.virtual_address phys 0x7 s'.machine = none)) ∨
        (sh.Loads ∧ o = none ∧ s.machine.kmalloc = some (0, s'.machine) ∧
          s'.stopped = s.stopped) ∨
        ∃ phys, o = some phys ∧ Placed sh phys s s') := by
  unfold placeSection at h
  by_cases htype : sh.type = 0x01 ∧ sh.size > 0
  · rw [if_pos htype] at h
    by_cases hsum : sh.offset + sh.size > 4608
    · rw [if_pos hsum] at h
      obtain ⟨rfl, rfl⟩ := Prod.mk.inj h
      exact ⟨rfl, rfl, Or.inl ⟨fun hl => hl.2.2 hsum, rfl, rfl⟩⟩
    · rw [if_neg hsum] at h
      have hl : sh.Loads := ⟨htype.1, htype.2, hsum⟩
      cases hk : s.machine.kmalloc with
      | none =>
        rw [hk] at h
        obtain ⟨rfl, rfl⟩ := Prod.mk.inj h
        exact ⟨rfl, rfl, Or.inr (Or.inl ⟨hl, rfl, rfl, Or.inl ⟨rfl, rfl⟩⟩)⟩
      | some r =>
        obtain ⟨phys, machine⟩ := r
        rw [hk] at h
        by_cases hz : phys = 0
        · subst hz
          obtain ⟨rfl, rfl⟩ := Prod.mk.inj h
          exact ⟨rfl, rfl, Or.inr (Or.inr (Or.inl ⟨hl, rfl, rfl, rfl⟩))⟩
        · simp only [hz, if_false] at h
          cases hm : map_page sh.virtual_address phys 0x7 machine with
          | none =>
            rw [hm] at h
            obtain ⟨rfl, rfl⟩ := Prod.mk.inj h
            exact ⟨rfl, rfl, Or.inr (Or.inl ⟨hl, rfl, rfl, Or.inr ⟨phys, rfl, hz, hm⟩⟩)⟩
          | some machine' =>
            rw [hm] at h
            obtain ⟨rfl, rfl⟩ := Prod.mk.inj h
            exact ⟨rfl, rfl,
              Or.inr (Or.inr (Or.inr ⟨phys, rfl, hl, hz, ⟨machine, hk, hm⟩, rfl⟩))⟩
  · rw [if_neg htype] at h
    obtain ⟨rfl, rfl⟩ := Prod.mk.inj h
    exact ⟨rfl, rfl, Or.inl ⟨fun hl => htype ⟨hl.1, hl.2.1⟩, rfl, rfl⟩⟩

/-- A section that does not pass the checks is skipped. -/
theorem placeSection_skipped {sh : ELF_SECTION_HEADER_T} (hl : ¬ sh.Loads) :
    placeSection sh s = (none, s) := by
  cases hp : placeSection sh s with
  | mk o s' =>
    obtain ⟨-, -, ⟨-, rfl, rfl⟩ | ⟨hl', -⟩ | ⟨hl', -⟩ | ⟨_, -, hplaced⟩⟩ := placeSection_cases hp
    · rfl
    · exact absurd hl' hl
    · exact absurd hl' hl
    · exact absurd hplaced.loads hl

/-- `kmalloc` has one answer. -/
theorem kmalloc_unique {m m₁ m₂ : Machine σ} {phys phys' : UInt64}
    (h : m.kmalloc = some (phys, m₁)) (h' : m.kmalloc = some (phys', m₂)) :
    phys = phys' ∧ m₁ = m₂ :=
  Prod.mk.inj (Option.some.inj (h.symm.trans h'))

/-- A section that gets a frame and a mapping. -/
theorem placeSection_placed {sh : ELF_SECTION_HEADER_T} {phys : UInt64} {m m' : Machine σ}
    (hl : sh.Loads) (hne : phys ≠ 0) (hk : s.machine.kmalloc = some (phys, m))
    (hm : map_page sh.virtual_address phys 0x7 m = some m') :
    placeSection sh s = (some phys, { s with machine := m' }) := by
  unfold placeSection
  rw [if_pos ⟨hl.1, hl.2.1⟩, if_neg hl.2.2, hk]
  simp only [hne, if_false, hm]

/-! ## Section 3: The copy -/

omit [PageAllocator σ] in
/-- **All that copying a byte can do** in a run that was not stopped. -/
theorem copyByte_cases (elf : Image) (phys offset : UInt64) (j : Nat) (hs : s.stopped = false) :
    (s.machine.denote (phys + UInt64.ofNat j) = none ∧
        copyByte elf phys offset j s =
          { s.record [offset + UInt64.ofNat j] with stopped := true }) ∨
      ∃ q, s.machine.denote (phys + UInt64.ofNat j) = some q ∧
        copyByte elf phys offset j s =
          (s.record [offset + UInt64.ofNat j]).store ⟨phys, q⟩ (elf (offset + UInt64.ofNat j)) := by
  unfold copyByte
  rw [if_neg (by simp [hs])]
  cases hd : s.machine.denote (phys + UInt64.ofNat j) with
  | none => exact Or.inl ⟨rfl, rfl⟩
  | some q => exact Or.inr ⟨q, rfl, rfl⟩

omit [PageAllocator σ] in
theorem copyByte_stopped (elf : Image) (phys offset : UInt64) (j : Nat) (hs : s.stopped = true) :
    copyByte elf phys offset j s = s := by
  unfold copyByte
  rw [if_pos hs]

omit [PageAllocator σ] in
/-- **Rule for the copy loop**: an invariant that a stopped run keeps and that
    every byte keeps. -/
theorem copyLoop_invariant {phys offset : UInt64} {size : Nat} (Inv : Nat → Loader σ → Prop)
    (hinit : Inv 0 s) (hstopped : ∀ j t, j < size → Inv j t → t.stopped = true → Inv (j + 1) t)
    (hbyte : ∀ j t, j < size → Inv j t → t.stopped = false →
      Inv (j + 1) (copyByte elf phys offset j t)) :
    Inv size (copyLoop elf phys offset size s) := by
  unfold copyLoop
  refine Loops.forLoop_invariant Inv hinit fun j t hj hinv => ?_
  cases hs : t.stopped with
  | true =>
    rw [copyByte_stopped elf phys offset j hs]
    exact hstopped j t hj hinv hs
  | false => exact hbyte j t hj hinv hs

/-- What is recorded stays recorded, and the machine's control state stays. -/
structure Loader.Grows (s s' : Loader σ) : Prop where
  reads  : s.reads ⊆ s'.reads
  stores : s.stores ⊆ s'.stores

omit [PageAllocator σ] in
theorem Loader.Grows.refl (s : Loader σ) : s.Grows s := ⟨fun _ h => h, fun _ h => h⟩

omit [PageAllocator σ] in
theorem Loader.Grows.trans {s s' s'' : Loader σ} (h : s.Grows s') (h' : s'.Grows s'') :
    s.Grows s'' :=
  ⟨fun _ hx => h'.reads (h.reads hx), fun _ hx => h'.stores (h.stores hx)⟩

omit [PageAllocator σ] in
theorem copyByte_grows (elf : Image) (phys offset : UInt64) (j : Nat) (s : Loader σ) :
    s.Grows (copyByte elf phys offset j s) := by
  cases hs : s.stopped with
  | true =>
    rw [copyByte_stopped elf phys offset j hs]
    exact Loader.Grows.refl s
  | false =>
    rcases copyByte_cases elf phys offset j hs with ⟨-, heq⟩ | ⟨q, -, heq⟩
    · rw [heq]
      exact ⟨List.subset_append_left _ _, fun _ h => h⟩
    · rw [heq]
      exact ⟨List.subset_append_left _ _, List.subset_append_left _ _⟩

omit [PageAllocator σ] in
theorem copyLoop_grows (elf : Image) (phys offset : UInt64) (size : Nat) (s : Loader σ) :
    s.Grows (copyLoop elf phys offset size s) := by
  apply copyLoop_invariant (fun _ t => s.Grows t) (Loader.Grows.refl s) (fun _ _ _ h _ => h)
  intro j t _ h _
  exact h.trans (copyByte_grows elf phys offset j t)

theorem loadSection_stopped (i : Nat) (hs : s.stopped = true) :
    loadSection elf header s i = s := by
  unfold loadSection
  rw [if_pos hs]

/-- A round of a run that was not stopped. -/
theorem loadSection_running (hs : s.stopped = false) {o : Option UInt64}
    (h : placeSection (sectionAt elf header i) (s.record (sectionReads elf header i)) = (o, s')) :
    loadSection elf header s i =
      o.elim s' fun phys => copyLoop elf phys (sectionAt elf header i).offset
        (sectionAt elf header i).size.toNat s' := by
  unfold loadSection sectionAt
  unfold sectionAt sectionReads at h
  have hresult : (parse_section_header elf header.section_header_offset i
      header.section_header_entry_size).value.1 = 0 := rfl
  simp only [hs, Bool.false_eq_true, if_false, hresult, ne_eq, not_true_eq_false, h]
  cases o <;> rfl

theorem loadSection_grows (elf : Image) (header : ELF_FILE_HEADER_T) (s : Loader σ) (i : Nat) :
    s.Grows (loadSection elf header s i) := by
  cases hs : s.stopped with
  | true =>
    rw [loadSection_stopped i hs]
    exact Loader.Grows.refl s
  | false =>
    cases hm : placeSection (sectionAt elf header i) (s.record (sectionReads elf header i)) with
    | mk o t =>
      obtain ⟨hreads, hstores, -⟩ := placeSection_cases hm
      rw [loadSection_running hs hm]
      have ht : s.Grows t := by
        constructor
        · rw [hreads]
          exact List.subset_append_left _ _
        · rw [hstores]
          exact fun _ h => h
      cases o with
      | none => exact ht
      | some phys => exact ht.trans (copyLoop_grows _ _ _ _ _)

/-- A run only adds to the record. -/
theorem run_grows (elf : Image) (header : ELF_FILE_HEADER_T) (s : Loader σ) (is : List Nat) :
    s.Grows (Runs.run (loadSection elf header) s is) := by
  induction is generalizing s with
  | nil => exact Loader.Grows.refl s
  | cons i is ih => exact (loadSection_grows elf header s i).trans (ih _)

/-- `P` holds before every round of the run of an image. -/
def AlongSections (elf : Image) (machine : Machine σ)
    (P : ELF_FILE_HEADER_T → Loader σ → Nat → Prop) : Prop :=
  ∀ header, (parse_elf_header elf).value = some header →
    Runs.Along (loadSection elf header) (P header) ⟨machine, (parse_elf_header elf).reads, [], false⟩
      (List.range header.section_header_entry_count.toNat)

/-- With a valid magic number there is one run. -/
theorem alongSections_iff (machine : Machine σ) (P : ELF_FILE_HEADER_T → Loader σ → Nat → Prop)
    (h : (parse_elf_header elf).value = some header) :
    AlongSections elf machine P ↔
      Runs.Along (loadSection elf header) (P header)
        ⟨machine, (parse_elf_header elf).reads, [], false⟩
        (List.range header.section_header_entry_count.toNat) := by
  constructor
  · intro halong
    exact halong header h
  · intro halong header' h'
    obtain rfl := Option.some.inj (h.symm.trans h')
    exact halong

/-- The run of an image with a valid magic number. -/
theorem read_elf_loader {machine : Machine σ} (run : Bool)
    (h : (parse_elf_header elf).value = some header) :
    (read_elf elf run machine).loader =
      Runs.run (loadSection elf header) ⟨machine, (parse_elf_header elf).reads, [], false⟩
        (List.range header.section_header_entry_count.toNat) := by
  unfold read_elf loadSections
  simp only [h]
  split <;> rfl

/-- The address that is called when the run was not stopped. -/
theorem read_elf_called {machine : Machine σ} (h : (parse_elf_header elf).value = some header)
    (hs : (read_elf elf true machine).loader.stopped = false) :
    (read_elf elf true machine).called =
      some (header.entry_point_address + (read_elf elf true machine).loader.machine.hhdm) := by
  rw [read_elf_loader true h] at hs ⊢
  unfold read_elf loadSections
  simp only [h, hs, Bool.false_eq_true, if_false, if_true]

/-- The run of any other image. -/
theorem read_elf_invalid {machine : Machine σ} (run : Bool)
    (h : (parse_elf_header elf).value = none) :
    (read_elf elf run machine).loader = ⟨machine, (parse_elf_header elf).reads, [], false⟩ := by
  unfold read_elf
  simp only [h]

end sections

end ArgaldOS
