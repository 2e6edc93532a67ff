import ArgaldOS.Elf.Sections

/-! # Which bytes of the image the loader reads

    The file header lies in the first 0x3E bytes, but everything else that
    `read_elf` reads is at a place that the file chooses: the section headers
    at a multiple of the entry size behind the table offset, and a section at
    its offset, guarded by a sum of 64-bit words that may wrap.

    * `reads_parse_section_header_iff`: one section header;
    * `base_offset_of_lt`: where it is, as long as the `int` product is one;
    * `reads_copyLoop`: one section;
    * `readsInBuffer_iff`: all reads of all runs stay in the buffer exactly
      for the images whose header table ends in the buffer and whose sums do
      not wrap.
-/

namespace ArgaldOS

open Runs

/-! ## Section 1: One reading -/

/-- The indices lie in the buffer. -/
def InBuffer (reads : List UInt64) : Prop := ∀ i ∈ reads, i.toNat < bufferSize

@[simp] theorem inBuffer_nil : InBuffer [] := fun _ h => absurd h List.not_mem_nil

@[simp] theorem inBuffer_append (l l' : List UInt64) :
    InBuffer (l ++ l') ↔ InBuffer l ∧ InBuffer l' := by
  simp [InBuffer, or_imp, forall_and]

@[simp] theorem inBuffer_singleton (i : UInt64) : InBuffer [i] ↔ i.toNat < bufferSize := by
  simp [InBuffer]

/-- Every index that `parse_elf_header` reads is fixed. -/
theorem reads_parse_elf_header (elf : Image) : InBuffer (parse_elf_header elf).reads := by
  have hlit (reads : List UInt64) (h : (reads.all fun i => decide (i.toNat < 62)) = true) :
      InBuffer reads :=
    fun i hi => Nat.lt_trans (of_decide_eq_true (List.all_eq_true.mp h i hi)) (by decide)
  unfold parse_elf_header
  simp only [Reading.reads_bind]
  split
  · exact hlit [0, 1, 2, 3] (by decide)
  · exact hlit [0, 1, 2, 3, 4, 5, 6, 7, 8, 17, 16, 19, 18, 31, 30, 29, 28, 27, 26, 25, 24, 47, 46,
      45, 44, 43, 42, 41, 40, 59, 58, 61, 60] (by decide)

section header
variable (elf : Image) (offset : UInt64) (index : Nat) (header_size : UInt16)

/-- **One section header**: its 40 bytes lie in the buffer exactly if its end
    does. -/
theorem reads_parse_section_header_iff :
    InBuffer (parse_section_header elf offset index header_size).reads ↔
      (base_offset offset index header_size).toNat + 40 ≤ bufferSize := by
  generalize hbase : base_offset offset index header_size = base
  have hadd : ∀ k : UInt64, k.toNat < 40 → base.toNat + 40 ≤ bufferSize →
      (base + k).toNat < bufferSize := by
    intro k hk hle
    unfold bufferSize at *
    rw [Words.toNat_add_lt base k (by omega)]
    omega
  unfold parse_section_header
  rw [hbase]
  simp only [Reading.reads_bind, Reading.reads_pure, List.append_nil, inBuffer_append, read32,
    read64, byteAt, inBuffer_singleton, UInt64.add_assoc, UInt64.reduceAdd]
  constructor
  · intro h
    -- The first and the last byte.
    have hfirst : base.toNat < bufferSize := h.1.2.2.2
    have hlast : (base + 0x27).toNat < bufferSize := h.2.2.2.2.1
    have hk : (0x27 : UInt64).toNat = 39 := rfl
    unfold bufferSize at *
    rw [Words.toNat_add_lt base 0x27 (by omega)] at hlast
    omega
  · intro hle
    have hbase0 : base.toNat < bufferSize := by omega
    refine ⟨⟨?_, ?_, ?_, hbase0⟩, ⟨?_, ?_, ?_, ?_⟩, ⟨?_, ?_, ?_, ?_, ?_, ?_, ?_, ?_⟩,
      ⟨?_, ?_, ?_, ?_, ?_, ?_, ?_, ?_⟩, ⟨?_, ?_, ?_, ?_, ?_, ?_, ?_, ?_⟩⟩ <;>
      exact hadd _ (by simp) hle

/-- As long as the product is an `int`, the header is where it should be. -/
theorem base_offset_of_lt (h : index * header_size.toNat < 2 ^ 31) :
    base_offset offset index header_size = offset + UInt64.ofNat (index * header_size.toNat) := by
  unfold base_offset
  rw [← Int32.ofNat_mul, Int32.toInt64_ofNat', Int64.toUInt64_ofNat']
  rw [Int32.toInt_maxValue]
  omega

end header

/-! ## Section 2: The header table -/

/-- The last header of the table ends in the buffer. -/
def HeadersInBuffer (header : ELF_FILE_HEADER_T) : Prop :=
  header.section_header_entry_count.toNat = 0 ∨
    header.section_header_offset.toNat +
      (header.section_header_entry_count.toNat - 1) * header.section_header_entry_size.toNat + 40
        ≤ bufferSize

instance (header : ELF_FILE_HEADER_T) : Decidable (HeadersInBuffer header) :=
  inferInstanceAs (Decidable (_ ∨ _))

/-- The sums that pass the check of the loop have not wrapped. -/
def SumsInRange (elf : Image) (header : ELF_FILE_HEADER_T) : Prop :=
  ∀ i < header.section_header_entry_count.toNat, (sectionAt elf header i).Loads →
    (sectionAt elf header i).offset.toNat + (sectionAt elf header i).size.toNat < 2 ^ 64

instance (elf : Image) (header : ELF_FILE_HEADER_T) : Decidable (SumsInRange elf header) :=
  inferInstanceAs (Decidable (∀ i < _, _))

section table
variable {elf : Image} {header : ELF_FILE_HEADER_T}

variable (elf) in
/-- **The header table**: all headers lie in the buffer exactly if the last
    one does.  The `int` product cannot wrap before a header has left the
    buffer. -/
theorem headersInBuffer_iff :
    HeadersInBuffer header ↔
      ∀ i < header.section_header_entry_count.toNat, InBuffer (sectionReads elf header i) := by
  have hsize := header.section_header_entry_size.toNat_lt
  have hone := reads_parse_section_header_iff elf header.section_header_offset
  generalize hn : header.section_header_entry_count.toNat = n
  generalize hm : header.section_header_entry_size.toNat = m at hsize
  -- Where header `i` ends, if the table has not left the buffer before.
  have hend : ∀ i, i * m < 2 ^ 31 → header.section_header_offset.toNat + i * m < 2 ^ 64 →
      (InBuffer (sectionReads elf header i) ↔
        header.section_header_offset.toNat + i * m + 40 ≤ bufferSize) := by
    intro i hi hlt
    have hbase := base_offset_of_lt header.section_header_offset i
      header.section_header_entry_size (by rw [hm]; exact hi)
    have hval := Words.ofNat_toNat_lt (i * m) (by omega)
    unfold sectionReads
    rw [hone, hbase, hm, Words.toNat_add_lt _ _ (by rw [hval]; exact hlt), hval]
  unfold HeadersInBuffer
  rw [hn, hm]
  constructor
  · intro h i hi
    have hle : i * m ≤ (n - 1) * m := Nat.mul_le_mul_right m (by omega)
    rcases h with hzero | htable
    · omega
    · unfold bufferSize at htable
      rw [hend i (by omega) (by omega)]
      unfold bufferSize
      omega
  · intro h
    -- By induction on the index: the header before `i` ends in the buffer.
    have hall : ∀ i < n, header.section_header_offset.toNat + i * m + 40 ≤ bufferSize := by
      intro i
      induction i with
      | zero =>
        intro hi
        have hlt := header.section_header_offset.toNat_lt
        exact (hend 0 (by omega) (by omega)).mp (h 0 hi)
      | succ i ih =>
        intro hi
        have hprev := ih (by omega)
        unfold bufferSize at hprev
        have hmul : (i + 1) * m = i * m + m := Nat.succ_mul i m
        exact (hend (i + 1) (by omega) (by omega)).mp (h (i + 1) hi)
    by_cases hz : n = 0
    · exact Or.inl hz
    · exact Or.inr (hall (n - 1) (by omega))

end table

/-! ## Section 3: Images that are read within the buffer -/

section enough
variable {σ : Type} {elf : Image}

/-- The copy of a section that lies in the buffer reads within it. -/
theorem reads_copyLoop {phys offset : UInt64} {size : Nat} {s : Loader σ}
    (hs : InBuffer s.reads) (hfit : offset.toNat + size ≤ bufferSize) :
    InBuffer (copyLoop elf phys offset size s).reads := by
  apply copyLoop_invariant (fun _ t => InBuffer t.reads) hs (fun _ _ _ h _ => h)
  intro j t hj ht hrun
  have hindex : (offset + UInt64.ofNat j).toNat < bufferSize := by
    have hval := Words.ofNat_toNat_lt j (by unfold bufferSize at hfit; omega)
    unfold bufferSize at *
    rw [Words.toNat_add_lt _ _ (by omega)]
    omega
  have hnew : InBuffer (t.reads ++ [offset + UInt64.ofNat j]) :=
    (inBuffer_append _ _).mpr ⟨ht, (inBuffer_singleton _).mpr hindex⟩
  rcases copyByte_cases elf phys offset j hrun with ⟨-, heq⟩ | ⟨q, -, heq⟩
  · rw [heq]
    exact hnew
  · rw [heq]
    exact hnew

variable [PageAllocator σ] {header : ELF_FILE_HEADER_T}

/-- Step lemma: a round reads within the buffer. -/
theorem reads_loadSection {s : Loader σ} {i : Nat} (hs : InBuffer s.reads)
    (hheader : InBuffer (sectionReads elf header i))
    (hsum : (sectionAt elf header i).Loads →
      (sectionAt elf header i).offset.toNat + (sectionAt elf header i).size.toNat < 2 ^ 64) :
    InBuffer (loadSection elf header s i).reads := by
  cases hrun : s.stopped with
  | true =>
    rw [loadSection_stopped i hrun]
    exact hs
  | false =>
    cases hp : placeSection (sectionAt elf header i) (s.record (sectionReads elf header i)) with
    | mk o t =>
      obtain ⟨hreads, -, hcases⟩ := placeSection_cases hp
      have ht : InBuffer t.reads := by
        rw [hreads]
        exact (inBuffer_append _ _).mpr ⟨hs, hheader⟩
      rw [loadSection_running hrun hp]
      cases o with
      | none => exact ht
      | some phys =>
        have hl : (sectionAt elf header i).Loads := by
          rcases hcases with ⟨-, hn, -⟩ | ⟨hl, -⟩ | ⟨hl, -⟩ | ⟨_, -, hplaced⟩
          · cases hn
          · exact hl
          · exact hl
          · exact hplaced.loads
        -- The check bounds the sum, because the sum is not a wrapped one.
        have hle : ((sectionAt elf header i).offset + (sectionAt elf header i).size).toNat ≤ 4608 :=
          UInt64.le_iff_toNat_le.mp (UInt64.not_lt.mp hl.2.2)
        rw [Words.toNat_add_lt _ _ (hsum hl)] at hle
        exact reads_copyLoop ht hle

/-- Run lemma: all rounds read within the buffer. -/
theorem reads_run {s : Loader σ} (hs : InBuffer s.reads) (hheaders : HeadersInBuffer header)
    (hsums : SumsInRange elf header) : InBuffer (loadSections elf header s).reads := by
  have hheaders' := (headersInBuffer_iff elf).mp hheaders
  refine @run_invariant _ _ (loadSection elf header)
    (fun _ i => i < header.section_header_entry_count.toNat)
    (fun t => InBuffer t.reads) (fun t i ht hi => ?_) s _ hs ?_
  · exact reads_loadSection ht (hheaders' i hi) (hsums i hi)
  · exact along_of_forall _ (fun _ i hi => List.mem_range.mp hi) s

end enough

/-! ## Section 4: Runs that show what an image makes the loader read -/

section needed
variable {elf : Image} {header : ELF_FILE_HEADER_T}

/-- One NULL for each section that asks for a frame. -/
def nulls (elf : Image) (header : ELF_FILE_HEADER_T) (is : List Nat) : List UInt64 :=
  (is.filter fun i => decide (sectionAt elf header i).Loads).map fun _ => 0

/-- Run lemma: with NULL answers only, the loader reads all headers and does
    nothing else. -/
theorem run_nulls (elf : Image) (header : ELF_FILE_HEADER_T) (answers : List UInt64) (is : List Nat)
    {s : Loader (List UInt64)}
    (hs : s.stopped = false) (halloc : s.machine.alloc = nulls elf header is ++ answers) :
    (run (loadSection elf header) s is).machine = { s.machine with alloc := answers } ∧
      (run (loadSection elf header) s is).stopped = false ∧
      ∀ i ∈ is, sectionReads elf header i ⊆ (run (loadSection elf header) s is).reads := by
  induction is generalizing s with
  | nil =>
    refine ⟨?_, hs, fun i hi => absurd hi List.not_mem_nil⟩
    rw [run_nil, ← show s.machine.alloc = answers from halloc]
  | cons i is ih =>
    rw [run_cons]
    -- One round takes its NULL, if it asks for a frame, and records its header.
    have hround : ∃ t, loadSection elf header s i = t ∧ t.stopped = false ∧
        t.machine = { s.machine with alloc := nulls elf header is ++ answers } ∧
        sectionReads elf header i ⊆ t.reads := by
      by_cases hl : (sectionAt elf header i).Loads
      · have halloc' : s.machine.alloc = 0 :: (nulls elf header is ++ answers) := by
          rw [halloc]
          simp [nulls, hl]
        have hk : (s.record (sectionReads elf header i)).machine.kmalloc =
            some (0, { s.machine with alloc := nulls elf header is ++ answers }) := by
          show s.machine.kmalloc = _
          unfold Machine.kmalloc
          rw [halloc']
          rfl
        have hp : placeSection (sectionAt elf header i) (s.record (sectionReads elf header i)) =
            (none, { s.record (sectionReads elf header i) with
              machine := { s.machine with alloc := nulls elf header is ++ answers } }) := by
          unfold placeSection
          rw [if_pos ⟨hl.1, hl.2.1⟩, if_neg hl.2.2, hk]
          rfl
        exact ⟨_, loadSection_running hs hp, hs, rfl, List.subset_append_right _ _⟩
      · have halloc' : s.machine.alloc = nulls elf header is ++ answers := by
          rw [halloc]
          simp [nulls, hl]
        have hp : placeSection (sectionAt elf header i) (s.record (sectionReads elf header i)) =
            (none, s.record (sectionReads elf header i)) := by
          unfold placeSection
          by_cases htype : (sectionAt elf header i).type = 0x01 ∧ (sectionAt elf header i).size > 0
          · rw [if_pos htype, if_pos (by by_contra hle; exact hl ⟨htype.1, htype.2, hle⟩)]
          · rw [if_neg htype]
        refine ⟨_, loadSection_running hs hp, hs, ?_, List.subset_append_right _ _⟩
        rw [← halloc']
        rfl
    obtain ⟨t, ht, hrun, hmachine, hreads⟩ := hround
    rw [ht]
    obtain ⟨hm, hstopped, hall⟩ := ih hrun (by rw [hmachine])
    refine ⟨?_, hstopped, fun k hk => ?_⟩
    · rw [hm, hmachine]
    · rcases List.mem_cons.mp hk with rfl | hk
      · exact fun x hx => (run_grows elf header t is).reads (hreads hx)
      · exact hall k hk

/-- With a direct map that covers every pointer, the copy reads the whole
    section. -/
theorem reads_copyLoop_direct {σ : Type} {phys offset : UInt64} {size : Nat} {s : Loader σ}
    (hs : s.stopped = false) (hhdm : s.machine.hhdm = 0) :
    ∀ j < size, offset + UInt64.ofNat j ∈ (copyLoop elf phys offset size s).reads := by
  have hinv : (copyLoop elf phys offset size s).stopped = false ∧
      (copyLoop elf phys offset size s).machine.hhdm = 0 ∧
      ∀ j < size, offset + UInt64.ofNat j ∈ (copyLoop elf phys offset size s).reads := by
    refine copyLoop_invariant (fun k t => t.stopped = false ∧ t.machine.hhdm = 0 ∧
      ∀ j < k, offset + UInt64.ofNat j ∈ t.reads) ⟨hs, hhdm, fun j hj => by omega⟩ ?_ ?_
    · intro k t _ ht hstopped
      rw [ht.1] at hstopped
      cases hstopped
    · intro k t _ ht hrun
      obtain ⟨-, hdirect, hreads⟩ := ht
      have hdenote : t.machine.denote (phys + UInt64.ofNat k) = some (phys + UInt64.ofNat k) := by
        unfold Machine.denote
        rw [hdirect, if_pos (UInt64.le_iff_toNat_le.mpr (Nat.zero_le _)), UInt64.sub_zero]
      rcases copyByte_cases elf phys offset k hrun with ⟨hnone, -⟩ | ⟨q, -, heq⟩
      · rw [hdenote] at hnone
        cases hnone
      · rw [heq]
        refine ⟨hrun, hdirect, ?_⟩
        intro j hj
        show _ ∈ t.reads ++ [offset + UInt64.ofNat k]
        rcases Nat.lt_succ_iff_lt_or_eq.mp hj with hlt | rfl
        · exact List.mem_append_left _ (hreads j hlt)
        · exact List.mem_append_right _ (List.mem_singleton_self _)
  exact hinv.2.2

/-- A machine whose direct map covers every pointer, with empty tables. -/
def directMachine (answers : List UInt64) : Machine (List UInt64) where
  mem   := fun _ => 0
  hhdm  := 0
  alloc := answers
  pml4  := 0
  early_page_tables := []
  cr3   := none

/-- On that machine `map_page` gives up at the first NULL. -/
theorem map_page_directMachine (virt_addr phys_addr flags : UInt64) :
    map_page virt_addr phys_addr flags (directMachine [0]) = some (directMachine []) := by
  have hentry : (directMachine [0]).readEntry (directMachine [0]).pml4 (pml4_idx virt_addr) = 0 := by
    unfold Machine.readEntry Mem.hload64 Mem.load64
    rfl
  unfold map_page get_next_table
  rw [hentry]
  rfl

/-- A wrapped sum shows on a machine where the copy does not fault. -/
theorem sumsInRange_of_reads
    (h : ∀ machine : Machine (List UInt64),
      InBuffer (loadSections elf header ⟨machine, (parse_elf_header elf).reads, [], false⟩).reads) :
    SumsInRange elf header := by
  intro i hi hl
  by_contra hwrap
  have hoffset := (sectionAt elf header i).offset.toNat_lt
  -- NULL for the sections before this one, then a frame and no tables.
  let start : Loader (List UInt64) := ⟨directMachine (nulls elf header (List.range i) ++ [0x1000, 0]),
    (parse_elf_header elf).reads, [], false⟩
  obtain ⟨hmachine, hrun, -⟩ := run_nulls elf header _ (List.range i)
    (s := start) rfl rfl
  generalize hmid : run (loadSection elf header) start (List.range i) = mid at hmachine hrun
  have hplaced : placeSection (sectionAt elf header i) (mid.record (sectionReads elf header i)) =
      (some 0x1000, { mid.record (sectionReads elf header i) with machine := directMachine [] }) := by
    have hk : (mid.record (sectionReads elf header i)).machine.kmalloc =
        some (0x1000, directMachine [0]) := by
      show mid.machine.kmalloc = _
      rw [hmachine]
      rfl
    exact placeSection_placed hl (by simp) hk (map_page_directMachine _ _ _)
  -- Some byte of the section lies behind the buffer, before it wraps.
  let j := 4608 - (sectionAt elf header i).offset.toNat
  have hj : j < (sectionAt elf header i).size.toNat := by omega
  have hindex : ((sectionAt elf header i).offset + UInt64.ofNat j).toNat =
      (sectionAt elf header i).offset.toNat + j := by
    have hval := Words.ofNat_toNat_lt j (by omega)
    rw [Words.toNat_add_lt _ _ (by omega), hval]
  have hread : (sectionAt elf header i).offset + UInt64.ofNat j ∈
      (loadSection elf header mid i).reads := by
    rw [loadSection_running hrun hplaced]
    refine reads_copyLoop_direct ?_ ?_ j hj
    · exact hrun
    · rfl
  -- The rounds after this one keep the record.
  obtain ⟨rest, hsplit⟩ : ∃ rest, List.range header.section_header_entry_count.toNat =
      List.range i ++ i :: rest := by
    have hn : header.section_header_entry_count.toNat =
        i + (header.section_header_entry_count.toNat - i - 1 + 1) := by omega
    rw [hn, List.range_add, List.range_succ_eq_map]
    exact ⟨_, rfl⟩
  have hfinal := h start.machine _ (by
    show (sectionAt elf header i).offset + UInt64.ofNat j ∈ (run (loadSection elf header) start
      (List.range header.section_header_entry_count.toNat)).reads
    rw [hsplit, run_append, hmid, run_cons]
    exact (run_grows elf header _ _).reads hread)
  rw [hindex] at hfinal
  unfold bufferSize at hfinal
  omega

end needed

/-! ## Section 5: The result -/

/-- Every index that `read_elf` reads lies in the buffer, whatever the
    allocator answers and whatever the machine looks like. -/
def ReadsInBuffer (elf : Image) : Prop :=
  ∀ (σ : Type) [PageAllocator σ] (machine : Machine σ) (run : Bool),
    InBuffer (read_elf elf run machine).loader.reads

/-- **Main theorem on reads**: the loader stays in the buffer exactly for the
    images that have no magic, or whose header table ends in the buffer and
    whose checked sums do not wrap. -/
theorem readsInBuffer_iff (elf : Image) :
    ReadsInBuffer elf ↔ ∀ header, (parse_elf_header elf).value = some header →
      HeadersInBuffer header ∧ SumsInRange elf header := by
  constructor
  · intro h header hparse
    have hall : ∀ machine : Machine (List UInt64), InBuffer
        (loadSections elf header ⟨machine, (parse_elf_header elf).reads, [], false⟩).reads := by
      intro machine
      rw [loadSections, ← read_elf_loader false hparse]
      exact h _ machine false
    refine ⟨(headersInBuffer_iff elf).mpr fun i hi x hx => ?_, sumsInRange_of_reads hall⟩
    -- A machine without free frames reads every header.
    let is := List.range header.section_header_entry_count.toNat
    obtain ⟨-, -, hreads⟩ := run_nulls elf header [] is
      (s := ⟨directMachine (nulls elf header is ++ []), (parse_elf_header elf).reads, [], false⟩)
      rfl rfl
    exact hall _ x (hreads i (List.mem_range.mpr hi) hx)
  · intro h σ _ machine run
    have hheader := reads_parse_elf_header elf
    cases hparse : (parse_elf_header elf).value with
    | none =>
      rw [read_elf_invalid run hparse]
      exact hheader
    | some header =>
      obtain ⟨hheaders, hsums⟩ := h header hparse
      rw [read_elf_loader run hparse]
      exact reads_run hheader hheaders hsums

/-- An image whose header table, of one entry, starts at the end of the
    buffer. -/
def endTableImage : Image :=
  imageOf [(0, 0x7F), (1, 0x45), (2, 0x4C), (3, 0x46), (0x29, 0x12), (0x3A, 64), (0x3C, 1)]

/-- An image whose only section has two bytes, from offset `2 ^ 64 - 1`. -/
def wrappedSumImage : Image :=
  imageOf [(0, 0x7F), (1, 0x45), (2, 0x4C), (3, 0x46), (0x28, 0x40), (0x3A, 64), (0x3C, 1),
    (0x44, 1), (0x58, 0xFF), (0x59, 0xFF), (0x5A, 0xFF), (0x5B, 0xFF), (0x5C, 0xFF), (0x5D, 0xFF),
    (0x5E, 0xFF), (0x5F, 0xFF), (0x60, 2)]

/-- Both images make the loader read behind the buffer. -/
theorem readsInBuffer_fails : ¬ ReadsInBuffer endTableImage ∧ ¬ ReadsInBuffer wrappedSumImage := by
  constructor
  · intro h
    have hread := h _ (directMachine []) false 0x1203 (by decide)
    exact absurd hread (by decide)
  · intro h
    have hparse : (parse_elf_header wrappedSumImage).value = some
        ⟨[0x7F, 0x45, 0x4C, 0x46, 0], 0, 0, 0, 0, 0, 0, 0, 0, 0x40, 64, 1⟩ := by decide
    have hsums := sumsInRange_of_reads fun machine => by
      rw [loadSections, ← read_elf_loader false hparse]
      exact h _ machine false
    exact absurd hsums (by decide)

end ArgaldOS
