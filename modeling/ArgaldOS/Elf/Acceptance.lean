import ArgaldOS.Elf.Contents

/-! # What the loader accepts

    `read_elf` compares the magic number and nothing else of the file header,
    and leaves out a section that it cannot load: too long for the buffer, no
    frame, no table for its page.  It then runs the entry point all the same.

    * `AcceptsOnlyLoadable`: an image that is accepted is one that could be
      loaded, and was; any other is turned down before anything has happened;
    * `copyLoop_running_iff`, `loadSection_running_iff`: when a round comes to
      its end;
    * `loadsInRound_iff`: when it has loaded its section;
    * `read_elf_accepts_iff`: the images and states for which `read_elf` does
      what is asked of it.
-/

namespace ArgaldOS

open Runs

/-! ## Section 1: The specification -/

/-- The header of an ELF64 file for this machine: little-endian, x86-64, an
    executable or a shared object. -/
structure LoadableHeader (header : ELF_FILE_HEADER_T) : Prop where
  class64    : header.elf_format = 2
  little     : header.endianness = 1
  machine    : header.machine_type = 0x3E
  kind       : header.type = 2 ∨ header.type = 3
  entry_size : 64 ≤ header.section_header_entry_size.toNat

section acceptance
variable {σ : Type} [PageAllocator σ]

/-- In the round that starts in `s`, section `i` got the frame `phys`, its page
    was mapped to it, and it was copied to the last byte. -/
structure LoadedInRound (elf : Image) (header : ELF_FILE_HEADER_T) (s : Loader σ) (i : Nat)
    (phys : UInt64) (m m' : Machine σ) : Prop where
  frame   : s.machine.kmalloc = some (phys, m)
  ne_zero : phys ≠ 0
  mapped  : map_page (sectionAt elf header i).virtual_address phys 0x7 m = some m'
  entry   : NoAllocationFailure (sectionAt elf header i).virtual_address m
  bytes   : (loadSection elf header s i).reads = s.reads ++ sectionReads elf header i ++
    (List.range (sectionAt elf header i).size.toNat).map
      fun j => (sectionAt elf header i).offset + UInt64.ofNat j
  stores  : ∃ stores, (loadSection elf header s i).stores = s.stores ++ stores ∧
    stores.length = (sectionAt elf header i).size.toNat ∧ ∀ t ∈ stores, t.frame = phys

/-- The round loads its section. -/
def LoadsInRound (elf : Image) (header : ELF_FILE_HEADER_T) (s : Loader σ) (i : Nat) : Prop :=
  ∃ phys m m', LoadedInRound elf header s i phys m m'

/-- **The loader accepts only what it can load**: with the result 0 the header
    is that of a loadable file and every section of the program was loaded;
    otherwise the result is not 0, and nothing was allocated, mapped, stored
    or called. -/
structure AcceptsOnlyLoadable (elf : Image) (run : Bool) (machine : Machine σ) : Prop where
  header   : (read_elf elf run machine).status = some 0 →
    ∃ header, (parse_elf_header elf).value = some header ∧ LoadableHeader header
  sections : (read_elf elf run machine).status = some 0 →
    AlongSections elf machine fun header s i => Occupies elf header i → LoadsInRound elf header s i
  rejected : (read_elf elf run machine).status ≠ some 0 →
    (∃ e, e ≠ 0 ∧ (read_elf elf run machine).status = some e) ∧
      (read_elf elf run machine).loader.machine = machine ∧
      (read_elf elf run machine).loader.stores = [] ∧ (read_elf elf run machine).called = none

/-! ## Section 2: The condition -/

/-- The raw pointer of a copy leads somewhere, at every byte as it comes to it. -/
def PointerHolds (elf : Image) (phys offset : UInt64) (size : Nat) (s : Loader σ) : Prop :=
  ∀ j < size, (copyLoop elf phys offset j s).machine.denote (phys + UInt64.ofNat j) ≠ none

/-- Nothing stops the round: `kmalloc` and `map_page` return, and the copy does
    not fault. -/
def RoundReturns (elf : Image) (header : ELF_FILE_HEADER_T) (s : Loader σ) (i : Nat) : Prop :=
  (sectionAt elf header i).Loads → ∃ phys m, s.machine.kmalloc = some (phys, m) ∧
    (phys ≠ 0 → ∃ m', map_page (sectionAt elf header i).virtual_address phys 0x7 m = some m' ∧
      PointerHolds elf phys (sectionAt elf header i).offset (sectionAt elf header i).size.toNat
        { s.record (sectionReads elf header i) with machine := m' })

/-- The round finds what its section needs: the section passes the check of the
    bounds, there is a frame for it, and one for every table that is missing. -/
def RoundSupplied (elf : Image) (header : ELF_FILE_HEADER_T) (s : Loader σ) (i : Nat) : Prop :=
  (sectionAt elf header i).Loads ∧ ∃ phys m, s.machine.kmalloc = some (phys, m) ∧ phys ≠ 0 ∧
    NoAllocationFailure (sectionAt elf header i).virtual_address m

/-! ## Section 3: The copy -/

variable {elf : Image} {header : ELF_FILE_HEADER_T} {s : Loader σ} {i : Nat}

omit [PageAllocator σ] in
theorem copyLoop_succ (elf : Image) (phys offset : UInt64) (n : Nat) (s : Loader σ) :
    copyLoop elf phys offset (n + 1) s = copyByte elf phys offset n (copyLoop elf phys offset n s) :=
  Loops.forLoop_succ _ _ _

omit [PageAllocator σ] in
/-- A copy comes to its end if its pointer leads somewhere at every byte. -/
theorem copyLoop_running_iff (elf : Image) (phys offset : UInt64) (size : Nat)
    (hs : s.stopped = false) :
    (copyLoop elf phys offset size s).stopped = false ↔ PointerHolds elf phys offset size s := by
  unfold PointerHolds
  induction size with
  | zero => exact ⟨fun _ j hj => by omega, fun _ => hs⟩
  | succ n ih =>
    rw [copyLoop_succ]
    cases hn : (copyLoop elf phys offset n s).stopped with
    | true =>
      rw [copyByte_stopped elf phys offset n hn, hn]
      constructor
      · intro h
        cases h
      · intro h
        have := ih.mpr fun j hj => h j (by omega)
        rw [hn] at this
        cases this
    | false =>
      have hbefore := ih.mp hn
      rcases copyByte_cases elf phys offset n hn with ⟨hnone, heq⟩ | ⟨q, hq, heq⟩
      · rw [heq]
        constructor
        · intro h
          cases h
        · intro h
          exact absurd hnone (h n (by omega))
      · rw [heq]
        refine ⟨fun _ j hj => ?_, fun _ => hn⟩
        rcases Nat.lt_succ_iff_lt_or_eq.mp hj with hlt | rfl
        · exact hbefore j hlt
        · rw [hq]
          simp

omit [PageAllocator σ] in
/-- A copy that comes to its end has read and stored every byte. -/
theorem copyLoop_complete (elf : Image) (phys offset : UInt64) (size : Nat)
    (hs : (copyLoop elf phys offset size s).stopped = false) :
    (copyLoop elf phys offset size s).reads =
        s.reads ++ (List.range size).map (fun j => offset + UInt64.ofNat j) ∧
      ∃ stores, (copyLoop elf phys offset size s).stores = s.stores ++ stores ∧
        stores.length = size ∧ ∀ t ∈ stores, t.frame = phys := by
  induction size with
  | zero => exact ⟨(List.append_nil _).symm, [], (List.append_nil _).symm, rfl, by simp⟩
  | succ n ih =>
    rw [copyLoop_succ] at hs ⊢
    cases hn : (copyLoop elf phys offset n s).stopped with
    | true =>
      rw [copyByte_stopped elf phys offset n hn, hn] at hs
      cases hs
    | false =>
      obtain ⟨hreads, stores, hstores, hlength, hframe⟩ := ih hn
      rcases copyByte_cases elf phys offset n hn with ⟨-, heq⟩ | ⟨q, -, heq⟩
      · rw [heq] at hs
        cases hs
      · rw [heq]
        constructor
        · show (copyLoop elf phys offset n s).reads ++ [offset + UInt64.ofNat n] = _
          rw [hreads, List.range_succ, List.map_append, List.append_assoc]
          rfl
        · refine ⟨stores ++ [⟨phys, q⟩], ?_, by simp [hlength], ?_⟩
          · show (copyLoop elf phys offset n s).stores ++ [⟨phys, q⟩] = _
            rw [hstores, List.append_assoc]
          · intro t ht
            rcases List.mem_append.mp ht with h | h
            · exact hframe t h
            · rw [List.mem_singleton.mp h]

/-! ## Section 4: One round -/

/-- A round comes to its end if nothing stops it. -/
theorem loadSection_running_iff (hs : s.stopped = false) :
    (loadSection elf header s i).stopped = false ↔ RoundReturns elf header s i := by
  unfold RoundReturns
  cases hp : placeSection (sectionAt elf header i) (s.record (sectionReads elf header i)) with
  | mk o s' =>
    obtain ⟨hreads, hstores, hcases⟩ := placeSection_cases hp
    rw [loadSection_running hs hp]
    rcases hcases with ⟨hl, rfl, rfl⟩ | ⟨hl, rfl, hstop, hwhy⟩ | ⟨hl, rfl, hk, hsame⟩ |
      ⟨phys, rfl, hplaced⟩
    · exact ⟨fun _ h => absurd h hl, fun _ => hs⟩
    · -- A call did not return.
      constructor
      · intro h
        exact absurd (hstop.symm.trans h) (by simp)
      · intro h
        obtain ⟨phys, m, hk, hmap⟩ := h hl
        rcases hwhy with ⟨hnone, -⟩ | ⟨phys', hk', hne, hnone⟩
        · exact absurd (hnone.symm.trans hk) (by simp)
        · obtain ⟨rfl, rfl⟩ := kmalloc_unique hk' hk
          obtain ⟨m', hm, -⟩ := hmap hne
          exact absurd (hnone.symm.trans hm) (by simp)
    · exact ⟨fun _ _ => ⟨0, _, hk, fun h => absurd rfl h⟩, fun _ => hsame.trans hs⟩
    · -- The copy follows.
      obtain ⟨m, hk, hm⟩ := hplaced.mapped
      have hs' : s' = { s.record (sectionReads elf header i) with machine := s'.machine } :=
        (Prod.mk.inj (hp.symm.trans
          (placeSection_placed hplaced.loads hplaced.ne_zero hk hm))).2
      have hcopy := copyLoop_running_iff elf phys (sectionAt elf header i).offset
        (sectionAt elf header i).size.toNat (hplaced.stopped.trans hs)
      rw [Option.elim_some, hcopy]
      constructor
      · intro h _
        refine ⟨phys, m, hk, fun _ => ⟨s'.machine, hm, ?_⟩⟩
        rw [← hs']
        exact h
      · intro h
        obtain ⟨phys', m₁, hk', hmap⟩ := h hplaced.loads
        obtain ⟨rfl, rfl⟩ := kmalloc_unique hk hk'
        obtain ⟨m', hm', hpointer⟩ := hmap hplaced.ne_zero
        obtain rfl := Option.some.inj (hm.symm.trans hm')
        rw [hs']
        exact hpointer

/-- A round that comes to its end has loaded its section if it found what the
    section needs, and only then. -/
theorem loadsInRound_iff (hs : s.stopped = false) (hreturns : RoundReturns elf header s i)
    (hsize : (sectionAt elf header i).size > 0) :
    LoadsInRound elf header s i ↔ RoundSupplied elf header s i := by
  constructor
  · rintro ⟨phys, m, m', h⟩
    refine ⟨?_, phys, m, h.frame, h.ne_zero, h.entry⟩
    by_contra hl
    -- A section that is skipped leaves no stores.
    obtain ⟨stores, hstores, hlength, -⟩ := h.stores
    rw [loadSection_running hs (placeSection_skipped hl)] at hstores
    have hnil : stores = [] := List.self_eq_append_right.mp hstores
    rw [hnil] at hlength
    have hpos : 0 < (sectionAt elf header i).size.toNat := UInt64.lt_iff_toNat_lt.mp hsize
    rw [← hlength] at hpos
    exact absurd hpos (by simp)
  · rintro ⟨hl, phys, m, hk, hne, hno⟩
    obtain ⟨phys', m₁, hk', hmap⟩ := hreturns hl
    obtain ⟨rfl, rfl⟩ := kmalloc_unique hk hk'
    obtain ⟨m', hm, hpointer⟩ := hmap hne
    have hplace := placeSection_placed (s := s.record (sectionReads elf header i)) hl hne hk hm
    have hrun := loadSection_running hs hplace
    rw [Option.elim_some] at hrun
    have hcopy := copyLoop_complete elf phys (sectionAt elf header i).offset
      (sectionAt elf header i).size.toNat
      ((copyLoop_running_iff (s := { s.record (sectionReads elf header i) with machine := m' })
        _ _ _ _ hs).mpr hpointer)
    refine ⟨phys, m, m', hk, hne, hm, hno, ?_, ?_⟩
    · rw [hrun]
      exact hcopy.1
    · rw [hrun]
      exact hcopy.2

/-! ## Section 5: The run -/

/-- A stopped run stays stopped. -/
theorem run_stopped (is : List Nat) (hs : s.stopped = true) :
    (run (loadSection elf header) s is).stopped = true := by
  induction is with
  | nil => exact hs
  | cons i is ih =>
    rw [run_cons, loadSection_stopped i hs]
    exact ih

/-- A run comes to its end if nothing stops any of its rounds. -/
theorem run_running_iff (is : List Nat) (hs : s.stopped = false) :
    (run (loadSection elf header) s is).stopped = false ↔
      Along (loadSection elf header) (RoundReturns elf header) s is := by
  induction is generalizing s with
  | nil => exact ⟨fun _ => trivial, fun _ => hs⟩
  | cons i is ih =>
    rw [run_cons, along_cons, ← loadSection_running_iff hs]
    cases hi : (loadSection elf header s i).stopped with
    | true =>
      rw [run_stopped is hi]
      simp
    | false =>
      rw [ih hi]
      simp

/-- In a run that comes to its end, the sections of the program are loaded if
    every round finds what its section needs, and only then. -/
theorem run_loads_iff (is : List Nat) (hs : s.stopped = false)
    (hreturns : Along (loadSection elf header) (RoundReturns elf header) s is) :
    Along (loadSection elf header)
        (fun s i => Occupies elf header i → LoadsInRound elf header s i) s is ↔
      Along (loadSection elf header)
        (fun s i => Occupies elf header i → RoundSupplied elf header s i) s is := by
  induction is generalizing s with
  | nil => rfl
  | cons i is ih =>
    obtain ⟨hround, hrest⟩ := hreturns
    rw [along_cons, along_cons, ih ((loadSection_running_iff hs).mpr hround) hrest]
    apply and_congr_left
    intro _
    exact ⟨fun h hocc => (loadsInRound_iff hs hround hocc.nonempty).mp (h hocc),
      fun h hocc => (loadsInRound_iff hs hround hocc.nonempty).mpr (h hocc)⟩

/-- The result of a run of an image with a valid magic number. -/
theorem read_elf_status (machine : Machine σ) (run : Bool)
    (h : (parse_elf_header elf).value = some header) :
    (read_elf elf run machine).status =
      if (read_elf elf run machine).loader.stopped then none else some 0 := by
  rw [read_elf_loader run h]
  unfold read_elf loadSections
  simp only [h]
  split <;> rfl

/-- On well-formed tables the page of the section is then mapped to its frame. -/
theorem LoadedInRound.frameAt {A : AllocSpec σ} {owned : List UInt64} {phys : UInt64}
    {m m' : Machine σ} (h : LoadedInRound elf header s i phys m m')
    (hkernel : KernelPaging A 0 owned s.machine) :
    frameAt m'.mem m'.pml4 (sectionAt elf header i).virtual_address = some phys := by
  obtain ⟨-, -, ⟨h0, -⟩ | ⟨-, -, hkernel₁, -⟩⟩ := kernel_kmalloc hkernel h.frame
  · exact absurd h0 h.ne_zero
  obtain ⟨owned', hkernel', -, ⟨-, hviews⟩ | ⟨hfail, -⟩⟩ := kernel_map_page_cases hkernel₁ h.mapped
  · have hgood := hkernel₁.paged.tables.good phys List.mem_cons_self
    have hbelow : phys.toNat < 2 ^ 52 := by
      have := hgood.below
      unfold PAGE_SIZE at this
      omega
    unfold ArgaldOS.frameAt
    rw [walk_eq_view hkernel'.paged.tables, hviews, if_pos rfl, pageEntry_decode 0x7 hbelow,
      pageOf_of_aligned hgood.aligned]
    rfl
  · exact absurd h.entry hfail

/-- An image with a wrong magic number is turned down. -/
theorem accepts_of_invalid (run : Bool) (machine : Machine σ)
    (hparse : (parse_elf_header elf).value = none) : AcceptsOnlyLoadable elf run machine := by
  have hstatus : (read_elf elf run machine).status = some (-1) := by
    unfold read_elf
    simp only [hparse]
  have hcalled : (read_elf elf run machine).called = none := by
    unfold read_elf
    simp only [hparse]
  constructor
  · intro h
    rw [hstatus] at h
    exact absurd h (by decide)
  · intro h
    rw [hstatus] at h
    exact absurd h (by decide)
  · intro _
    rw [read_elf_invalid run hparse]
    exact ⟨⟨-1, by decide, hstatus⟩, rfl, rfl, hcalled⟩

/-- A run that is stopped has no result, and so is not one that the
    specification allows. -/
theorem running_of_accepts {run : Bool} {machine : Machine σ}
    (hparse : (parse_elf_header elf).value = some header)
    (h : AcceptsOnlyLoadable elf run machine) :
    (read_elf elf run machine).loader.stopped = false := by
  have hstatus := read_elf_status machine run hparse
  cases hstop : (read_elf elf run machine).loader.stopped with
  | false => rfl
  | true =>
    rw [hstop, if_pos rfl] at hstatus
    obtain ⟨⟨e, -, he⟩, -⟩ := h.rejected (by rw [hstatus]; simp)
    rw [hstatus] at he
    cases he

/-- **Main theorem on acceptance**: for every image and every state, `read_elf`
    accepts only what it can load if the magic number is wrong, or the header is
    that of a loadable file, no round is stopped and every round finds what a
    section of the program needs; and only then. -/
theorem read_elf_accepts_iff (elf : Image) (run : Bool) (machine : Machine σ) :
    AcceptsOnlyLoadable elf run machine ↔
      (parse_elf_header elf).value = none ∨
        (∃ header, (parse_elf_header elf).value = some header ∧ LoadableHeader header) ∧
          AlongSections elf machine (RoundReturns elf) ∧
          AlongSections elf machine
            (fun header s i => Occupies elf header i → RoundSupplied elf header s i) := by
  cases hparse : (parse_elf_header elf).value with
  | none => exact ⟨fun _ => Or.inl rfl, fun _ => accepts_of_invalid run machine hparse⟩
  | some header =>
    have hrunning : (read_elf elf run machine).loader.stopped = false ↔
        AlongSections elf machine (RoundReturns elf) := by
      rw [read_elf_loader run hparse, alongSections_iff machine _ hparse]
      exact run_running_iff _ rfl
    have hzero : (read_elf elf run machine).loader.stopped = false →
        (read_elf elf run machine).status = some 0 := by
      intro hrun
      rw [read_elf_status machine run hparse, hrun]
      rfl
    -- Once nothing stops it, the sections are loaded where the rounds are supplied.
    have hsections : AlongSections elf machine (RoundReturns elf) →
        (AlongSections elf machine
            (fun header s i => Occupies elf header i → LoadsInRound elf header s i) ↔
          AlongSections elf machine
            (fun header s i => Occupies elf header i → RoundSupplied elf header s i)) := by
      intro hreturns
      rw [alongSections_iff machine _ hparse] at hreturns
      rw [alongSections_iff machine _ hparse, alongSections_iff machine _ hparse]
      exact run_loads_iff _ rfl hreturns
    constructor
    · intro h
      have hrun := running_of_accepts hparse h
      have hreturns := hrunning.mp hrun
      have hheader := h.header (hzero hrun)
      rw [hparse] at hheader
      exact Or.inr ⟨hheader, hreturns, (hsections hreturns).mp (h.sections (hzero hrun))⟩
    · rintro (hnone | ⟨hheader, hreturns, hsupplied⟩)
      · cases hnone
      have hstatus := hzero (hrunning.mpr hreturns)
      constructor
      · intro _
        rw [hparse]
        exact hheader
      · intro _
        exact (hsections hreturns).mpr hsupplied
      · intro h
        exact absurd hstatus h

end acceptance

/-! ## Section 6: Three runs -/

/-- An image with the magic number and nothing else. -/
def magicImage : Image := imageOf [(0, 0x7F), (1, 0x45), (2, 0x4C), (3, 0x46)]

/-- It is accepted, and a program is accepted that gets no frame. -/
theorem read_elf_accepts_unloadable :
    ¬ AcceptsOnlyLoadable magicImage true (emptyKernel []) ∧
      ¬ AcceptsOnlyLoadable onePageImage true (emptyKernel [0]) := by
  constructor
  · intro h
    obtain ⟨header, hparse, hheader⟩ := h.header (by decide)
    have hclass : (parse_elf_header magicImage).value.map (·.elf_format) = some 0 := by decide
    rw [hparse] at hclass
    have hzero : header.elf_format = 0 := Option.some.inj hclass
    rw [hheader.class64] at hzero
    exact absurd hzero (by decide)
  · intro h
    have halong := h.sections (by decide) onePageHeader onePageImage_parse
    rw [onePageHeader_sections, along_cons] at halong
    obtain ⟨phys, m, m', hloaded⟩ := halong.1 ⟨by decide, by decide, by decide, by decide⟩
    obtain ⟨hphys, -⟩ := Prod.mk.inj (Option.some.inj hloaded.frame)
    exact hloaded.ne_zero hphys.symm

/-- With the frame at its address and three for tables, the program is accepted
    and loaded. -/
theorem read_elf_accepts_onePage :
    AcceptsOnlyLoadable onePageImage true
      (emptyKernel [0x400000, 0x2000, 0x3000, 0x4000]) := by
  let start : Loader (List UInt64) := ⟨emptyKernel [0x400000, 0x2000, 0x3000, 0x4000],
    (parse_elf_header onePageImage).reads, [], false⟩
  obtain ⟨s', owned', hplace, hs, hkernel', hframe, -, -, hd, -⟩ := onePageImage_place
    (s := start.record (sectionReads onePageImage onePageHeader 0)) onePageImage_kernel rfl rfl
    (by decide)
  have hreturns : RoundReturns onePageImage onePageHeader start 0 := by
    apply (loadSection_running_iff rfl).mp
    rw [loadSection_running rfl hplace]
    have hinv := copyLoop_inv onePageImage (sectionAt onePageImage onePageHeader 0).offset hkernel'
      hframe hs (fun k hk _ q hq =>
        (Option.some.inj ((onePageImage_pointer hd hk).symm.trans hq)).symm)
    exact hinv.running_of_pointer fun k hk => onePageImage_pointer hd hk
  have hsupplied : RoundSupplied onePageImage onePageHeader start 0 := by
    obtain ⟨-, -, hcases⟩ := placeSection_cases hplace
    obtain ⟨phys, h, hplaced⟩ : ∃ phys, some 0x400000 = some phys ∧ Placed _ phys _ s' := by
      simpa using hcases
    obtain ⟨m, hk, hm⟩ := hplaced.mapped
    refine ⟨hplaced.loads, phys, m, hk, hplaced.ne_zero, ?_⟩
    -- Three frames are left for the three tables.
    obtain ⟨-, -, ⟨h0, -⟩ | ⟨-, -, hkernel₁, -⟩⟩ := kernel_kmalloc (onePageImage_kernel (n := 4)) hk
    · exact absurd h0 hplaced.ne_zero
    obtain ⟨-, -, -, ⟨hno, -⟩ | ⟨-, hn, -⟩⟩ := kernel_map_page_cases hkernel₁ hm
    · exact hno
    · exact absurd hn (by decide)
  apply (read_elf_accepts_iff onePageImage true _).mpr
  refine Or.inr ⟨⟨onePageHeader, onePageImage_parse, ?_⟩, ?_, ?_⟩
  · exact ⟨by simp [onePageHeader], by simp [onePageHeader], by simp [onePageHeader],
      by simp [onePageHeader], by decide⟩
  · rw [alongSections_iff _ _ onePageImage_parse, onePageHeader_sections]
    exact ⟨hreturns, trivial⟩
  · rw [alongSections_iff _ _ onePageImage_parse, onePageHeader_sections]
    exact ⟨fun _ => hsupplied, trivial⟩

end ArgaldOS
