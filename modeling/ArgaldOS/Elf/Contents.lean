import ArgaldOS.Elf.Confinement

/-! # The memory image of a file

    What loading an ELF file is for: afterwards the program's addresses hold
    the bytes of its sections, and the kernel calls its entry point.  The
    specification reads the flags of a section, which the loader does not, and
    looks at memory through the hardware walk.

    The loader does this if every section of the program is one page-aligned
    page at most that no later section maps again, if the raw pointer of each
    copy leads to the frame of its section, and if the page of the address
    that is called is that of the section with the entry point
    (`read_elf_loads`).  The program of `onePageImage`, linked for an address
    that is not in the direct map, is not called where it was loaded
    (`onePageImage_not_loaded`).
-/

namespace ArgaldOS

open TableTree Runs

/-! ## Section 1: The specification -/

/-- The frame of the page of a virtual address. -/
def frameAt (mem : Mem) (cr3 va : UInt64) : Option UInt64 := (walk mem cr3 va).map Prod.fst

/-- The byte that the hardware finds at a virtual address. -/
def byteAtVirtual (mem : Mem) (cr3 va : UInt64) : Option UInt8 :=
  if ¬ Canonical va then none
  else (frameAt mem cr3 va).map fun frame => mem (frame + (va &&& 0xFFF))

/-- The section occupies memory when the program runs. -/
def SHF_ALLOC : UInt64 := 0x2

/-- The flags of section `i`; the loader does not read them. -/
def sh_flags (elf : Image) (header : ELF_FILE_HEADER_T) (i : Nat) : UInt64 :=
  (read64 elf (base_offset header.section_header_offset i header.section_header_entry_size
    + 0x08)).value

/-- Section `i` is a PROGBITS section that occupies memory. -/
structure Occupies (elf : Image) (header : ELF_FILE_HEADER_T) (i : Nat) : Prop where
  index    : i < header.section_header_entry_count.toNat
  progbits : (sectionAt elf header i).type = 0x01
  alloc    : sh_flags elf header i &&& SHF_ALLOC ≠ 0
  nonempty : (sectionAt elf header i).size > 0

/-- The address lies in the section. -/
def ELF_SECTION_HEADER_T.Contains (sh : ELF_SECTION_HEADER_T) (addr : UInt64) : Prop :=
  sh.virtual_address.toNat ≤ addr.toNat ∧
    addr.toNat < sh.virtual_address.toNat + sh.size.toNat

instance (sh : ELF_SECTION_HEADER_T) (addr : UInt64) : Decidable (sh.Contains addr) :=
  inferInstanceAs (Decidable (_ ∧ _))

/-- A well-formed ELF64 image in a buffer of 4608 bytes. -/
structure WellFormedElf (elf : Image) (header : ELF_FILE_HEADER_T) : Prop where
  magic      : (parse_elf_header elf).value = some header
  class64    : header.elf_format = 2
  little     : header.endianness = 1
  entry_size : header.section_header_entry_size = 64
  table      : header.section_header_offset.toNat +
    64 * header.section_header_entry_count.toNat ≤ bufferSize
  inside     : ∀ i, Occupies elf header i →
    (sectionAt elf header i).offset.toNat + (sectionAt elf header i).size.toNat ≤ bufferSize
  disjoint   : ∀ i k, i ≠ k → Occupies elf header i → Occupies elf header k →
    ∀ addr, (sectionAt elf header i).Contains addr → ¬ (sectionAt elf header k).Contains addr

/-- **What loading is for**: the sections are where the file wants them, and
    the address that is called holds the byte at the entry point. -/
structure LoadedImage {σ : Type} (elf : Image) (header : ELF_FILE_HEADER_T) (r : ElfRun σ) :
    Prop where
  bytes : ∀ i, Occupies elf header i → ∀ j < (sectionAt elf header i).size.toNat,
    byteAtVirtual r.loader.machine.mem r.loader.machine.pml4
        ((sectionAt elf header i).virtual_address + UInt64.ofNat j) =
      some (elf ((sectionAt elf header i).offset + UInt64.ofNat j))
  entry : ∀ i, Occupies elf header i →
    (sectionAt elf header i).Contains header.entry_point_address →
      ∃ addr, r.called = some addr ∧
        byteAtVirtual r.loader.machine.mem r.loader.machine.pml4 addr =
          some (elf ((sectionAt elf header i).offset +
            (header.entry_point_address - (sectionAt elf header i).virtual_address)))

/-! ## Section 2: The condition -/

/-- Each section of the program is one page at most, which no later section
    maps again, nor the page that is called. -/
structure OnePageSections (elf : Image) (header : ELF_FILE_HEADER_T) (hhdm : UInt64) : Prop where
  aligned   : ∀ i, Occupies elf header i → PageAligned (sectionAt elf header i).virtual_address
  canonical : ∀ i, Occupies elf header i → Canonical (sectionAt elf header i).virtual_address
  onePage   : ∀ i, Occupies elf header i → (sectionAt elf header i).size.toNat ≤ PAGE_SIZE
  apart     : ∀ i k, Occupies elf header i → i < k →
    k < header.section_header_entry_count.toNat → (sectionAt elf header k).Loads →
      pageKey (sectionAt elf header i).virtual_address ≠
          pageKey (sectionAt elf header k).virtual_address ∧
        ((sectionAt elf header i).Contains header.entry_point_address →
          pageKey (header.entry_point_address + hhdm) ≠
            pageKey (sectionAt elf header k).virtual_address)

/-- The state in which the copy to `phys` of section `i` starts. -/
structure CopyStarts {σ : Type} (elf : Image) (header : ELF_FILE_HEADER_T) (i : Nat) (phys : UInt64)
    (m : Machine σ) : Prop where
  /-- Every page that the copy walks over is mapped to the frame. -/
  pointer : ∀ k, PAGE_SIZE * k < (sectionAt elf header i).size.toNat →
    m.denote (pagePtr phys k) = some phys
  /-- The section's page is mapped to the frame. -/
  mapped  : Occupies elf header i →
    frameAt m.mem m.pml4 (sectionAt elf header i).virtual_address = some phys
  /-- So is the page that will be called, if the entry point is in the section. -/
  entry   : Occupies elf header i →
    (sectionAt elf header i).Contains header.entry_point_address →
      Canonical (header.entry_point_address + m.hhdm) ∧
        frameAt m.mem m.pml4 (header.entry_point_address + m.hhdm) = some phys

section contents
variable {σ : Type} [PageAllocator σ]

/-- Round `i` gets an answer from the allocator, a frame if the section belongs
    to the program, and its copy starts in a good state. -/
def SectionStarts (elf : Image) (header : ELF_FILE_HEADER_T) (s : Loader σ) (i : Nat) : Prop :=
  ∀ o s', placeSection (sectionAt elf header i) (s.record (sectionReads elf header i)) = (o, s') →
    s'.stopped = false ∧ (Occupies elf header i → o ≠ none) ∧
      ∀ phys, o = some phys → CopyStarts elf header i phys s'.machine

/-! ## Section 3: The copy of one section -/

variable {A : AllocSpec σ} {owned : List UInt64} {elf : Image} {header : ELF_FILE_HEADER_T}
variable {phys offset : UInt64} {size i : Nat} {s : Loader σ}

omit [PageAllocator σ] in
theorem CopyStarts.ready (h : CopyStarts elf header i phys s.machine) :
    CopyReady s.machine phys (sectionAt elf header i).size.toNat := by
  intro k hk _ q hq
  rw [h.pointer k hk] at hq
  exact (Option.some.inj hq).symm

omit [PageAllocator σ] in
/-- A copy whose pointer never faults is not stopped. -/
theorem CopyInv.running_of_pointer {j : Nat} {t : Loader σ} (h : CopyInv s phys j t)
    (hpointer : ∀ k, PAGE_SIZE * k < j → s.machine.denote (pagePtr phys k) = some phys) :
    t.stopped = false := by
  cases hst : t.stopped with
  | false => rfl
  | true =>
    obtain ⟨k, hk, hnone⟩ := h.faulted hst
    rw [hpointer k hk] at hnone
    cases hnone

variable (elf offset) in
/-- **A section of at most a page** is copied into its frame. -/
theorem copyLoop_bytes (hkernel : KernelPaging A 0 owned s.machine)
    (hframe : DataFrame owned s.machine phys) (hs : s.stopped = false)
    (hpointer : ∀ k, PAGE_SIZE * k < size → s.machine.denote (pagePtr phys k) = some phys)
    (hsize : size ≤ PAGE_SIZE) :
    ∀ j < size, (copyLoop elf phys offset size s).machine.mem (phys + UInt64.ofNat j) =
      elf (offset + UInt64.ofNat j) := by
  have hready : CopyReady s.machine phys size := by
    intro k hk _ q hq
    rw [hpointer k hk] at hq
    exact (Option.some.inj hq).symm
  have hinv : CopyInv s phys size (copyLoop elf phys offset size s) ∧
      ∀ j < size, (copyLoop elf phys offset size s).machine.mem (phys + UInt64.ofNat j) =
        elf (offset + UInt64.ofNat j) := by
    refine copyLoop_invariant (fun j t => CopyInv s phys j t ∧
      ∀ i < j, t.machine.mem (phys + UInt64.ofNat i) = elf (offset + UInt64.ofNat i))
      ⟨CopyInv.start hs, fun i hi => by omega⟩ ?_ ?_
    · intro j t hj ht hstop
      -- The pointer does not fault, so the copy is not stopped.
      have hrun := ht.1.running_of_pointer fun k hk => hpointer k (by omega)
      rw [hstop] at hrun
      cases hrun
    -- One byte more; those before it are at other addresses of the frame.
    · intro j t hj ht hrun
      refine ⟨ht.1.byte hkernel hframe hready hj hrun, ?_⟩
      intro i hi
      have hjp : j < PAGE_SIZE := by omega
      have hpage : j / PAGE_SIZE = 0 := Nat.div_eq_of_lt hjp
      rcases ht.1.next hkernel hframe hready hj hrun with ⟨hnone, -⟩ | ⟨-, hd⟩
      · rw [hpointer _ (by rw [hpage]; omega)] at hnone
        cases hnone
      · rw [Nat.mod_eq_of_lt hjp] at hd
        rcases copyByte_cases elf phys offset j hrun with ⟨hnone, -⟩ | ⟨q, hq, heq⟩
        · rw [hd] at hnone
          cases hnone
        · rw [hd] at hq
          obtain rfl := Option.some.inj hq
          rw [heq]
          show t.machine.mem.store8 (phys + UInt64.ofNat j) _ (phys + UInt64.ofNat i) = _
          by_cases hij : i = j
          · subst hij
            rw [Mem.store8_self]
          · have hne : phys + UInt64.ofNat i ≠ phys + UInt64.ofNat j := by
              intro h
              have hval := congrArg UInt64.toNat (UInt64.add_right_inj phys |>.mp h)
              rw [Words.ofNat_toNat_lt i (by unfold PAGE_SIZE at hjp; omega),
                Words.ofNat_toNat_lt j (by unfold PAGE_SIZE at hjp; omega)] at hval
              exact hij hval
            rw [Mem.store8_ne _ _ _ _ hne]
            exact ht.2 i (by omega)
  exact hinv.2

/-! ## Section 4: One round -/

/-- What a round keeps: the data frames there were, and the translations of
    all pages but that of the section it loads. -/
structure RoundKeeps (A : AllocSpec σ) (owned owned' : List UInt64) (sh : ELF_SECTION_HEADER_T)
    (m m' : Machine σ) : Prop where
  kernel  : KernelPaging A 0 owned' m'
  control : SameControl m m'
  data    : ∀ f, DataFrame owned m f →
    DataFrame owned' m' f ∧ ∀ x, InFrame f x → m'.mem x = m.mem x
  views   : ∀ va, (sh.Loads → pageKey va ≠ pageKey sh.virtual_address) →
    view m'.mem m'.pml4 va = view m.mem m.pml4 va

/-- The section is in the frame `phys`, which its page is mapped to. -/
structure SectionLoaded (elf : Image) (header : ELF_FILE_HEADER_T) (owned : List UInt64)
    (m : Machine σ) (i : Nat) (phys : UInt64) : Prop where
  frame  : DataFrame owned m phys
  mapped : frameAt m.mem m.pml4 (sectionAt elf header i).virtual_address = some phys
  bytes  : ∀ j < (sectionAt elf header i).size.toNat,
    m.mem (phys + UInt64.ofNat j) = elf ((sectionAt elf header i).offset + UInt64.ofNat j)
  entry  : (sectionAt elf header i).Contains header.entry_point_address →
    Canonical (header.entry_point_address + m.hhdm) ∧
      frameAt m.mem m.pml4 (header.entry_point_address + m.hhdm) = some phys

omit [PageAllocator σ] in
/-- On well-formed tables the frame of a page is in its leaf entry. -/
theorem frameAt_eq_view {m : Machine σ} (h : Tables m.pml4 owned m.mem) (va : UInt64) :
    frameAt m.mem m.pml4 va = (view m.mem m.pml4 va).map (· &&& frameMask) := by
  unfold frameAt
  rw [walk_eq_view h, Option.map_map]
  rfl

/-- A round that leaves the section's pages alone keeps it loaded. -/
theorem SectionLoaded.keeps {owned' : List UInt64} {m m' : Machine σ}
    {sh : ELF_SECTION_HEADER_T} (h : SectionLoaded elf header owned m i phys)
    (hkernel : KernelPaging A 0 owned m) (hround : RoundKeeps A owned owned' sh m m')
    (hsize : (sectionAt elf header i).size.toNat ≤ PAGE_SIZE)
    (hpage : sh.Loads →
      pageKey (sectionAt elf header i).virtual_address ≠ pageKey sh.virtual_address)
    (hentry : sh.Loads → (sectionAt elf header i).Contains header.entry_point_address →
      pageKey (header.entry_point_address + m.hhdm) ≠ pageKey sh.virtual_address) :
    SectionLoaded elf header owned' m' i phys := by
  obtain ⟨hframe, hsame⟩ := hround.data phys h.frame
  have haligned := hkernel.paged.aligned phys h.frame.owned
  refine ⟨hframe, ?_, fun j hj => ?_, fun hc => ?_⟩
  · rw [frameAt_eq_view hround.kernel.paged.tables, hround.views _ hpage,
      ← frameAt_eq_view hkernel.paged.tables]
    exact h.mapped
  · have hoff : (UInt64.ofNat j).toNat < PAGE_SIZE := by
      rw [Words.ofNat_toNat_lt j (by unfold PAGE_SIZE at hsize; omega)]
      omega
    rw [hsame _ (inFrame_add haligned hoff)]
    exact h.bytes j hj
  · obtain ⟨hcanon, hat⟩ := h.entry hc
    rw [hround.control.hhdm]
    refine ⟨hcanon, ?_⟩
    rw [frameAt_eq_view hround.kernel.paged.tables, hround.views _ (fun hl => hentry hl hc),
      ← frameAt_eq_view hkernel.paged.tables]
    exact hat

/-- Memory unchanged in all frames handed out: nothing the kernel knows of
    has changed. -/
theorem roundKeeps_of_sameInside {m m' : Machine σ} {sh : ELF_SECTION_HEADER_T}
    (hkernel : KernelPaging A 0 owned m) (hkernel' : KernelPaging A 0 owned m')
    (hcontrol : SameControl m m') (hsame : SameInside owned m.mem m'.mem) :
    RoundKeeps A owned owned sh m m' := by
  have htables := hkernel.paged.tables
  have hsame' := hsame.sameTables htables
  refine ⟨hkernel', hcontrol, fun f hf => ⟨⟨hf.owned, ?_⟩, hsame f hf.owned⟩, fun va _ => ?_⟩
  · rw [hcontrol.pml4, reaches_sameTables htables hsame']
    exact hf.data
  · rw [hcontrol.pml4]
    exact leafOf_sameTables htables hsame' _ rfl _

/-- A mapping and a copy into the new frame. -/
theorem roundKeeps_of_copy {owned' : List UInt64} {m m' : Machine σ} {mem : Mem}
    {sh : ELF_SECTION_HEADER_T} (hplaced : PlacedKernel A owned owned' sh phys m m')
    (hl : sh.Loads) (hmem : ∀ x, ¬ InFrame phys x → mem x = m'.mem x) :
    RoundKeeps A owned owned' sh m { m' with mem := mem } := by
  have hkernel' := hplaced.kernel
  have htables := hkernel'.paged.tables
  have hsame := sameTables_of_dataFrame htables hplaced.frame hmem
  refine ⟨kernel_store hkernel' hplaced.frame hmem,
    ⟨hplaced.control.hhdm, hplaced.control.pml4, hplaced.control.cr3⟩, fun f hf => ?_,
    fun va hva => ?_⟩
  · obtain ⟨hf', hne, hkeep⟩ := hplaced.data f hf
    refine ⟨⟨hf'.owned, ?_⟩, fun x hx => ?_⟩
    · show ¬ Reaches nextTable mem.entry m'.pml4 3 f
      rw [reaches_sameTables htables hsame]
      exact hf'.data
    · -- The frames are different, so the copy does not touch this one.
      have hfa := hkernel'.paged.aligned f hf'.owned
      have hpa := hkernel'.paged.aligned phys hplaced.frame.owned
      rw [← hkeep x hx]
      exact hmem x fun hpx => hne (inFrame_unique hfa hpa hx hpx)
  · refine Eq.trans ?_ (hplaced.views va (hva hl))
    exact leafOf_sameTables htables hsame _ rfl _

/-- **Step lemma**: a round that starts well is not stopped, keeps what was
    loaded, and loads its section if that belongs to the program. -/
theorem loadSection_loads (hkernel : KernelPaging A 0 owned s.machine) (hs : s.stopped = false)
    (hstart : SectionStarts elf header s i)
    (hsize : Occupies elf header i → (sectionAt elf header i).size.toNat ≤ PAGE_SIZE) :
    (loadSection elf header s i).stopped = false ∧
      ∃ owned', RoundKeeps A owned owned' (sectionAt elf header i) s.machine
          (loadSection elf header s i).machine ∧
        (Occupies elf header i → ∃ phys,
          SectionLoaded elf header owned' (loadSection elf header s i).machine i phys) := by
  cases hp : placeSection (sectionAt elf header i) (s.record (sectionReads elf header i)) with
  | mk o s' =>
    obtain ⟨hrun', hplaces, hcopies⟩ := hstart o s' hp
    obtain ⟨-, -, hcases⟩ := placeSection_cases hp
    rw [loadSection_running hs hp]
    rcases hcases with ⟨-, rfl, hs'⟩ | ⟨-, rfl, hstop, -⟩ | ⟨-, rfl, hk, -⟩ | ⟨phys, rfl, hplaced⟩
    -- Skipped: nothing has changed.
    · subst hs'
      refine ⟨hs, owned, ?_, fun hocc => absurd rfl (hplaces hocc)⟩
      exact roundKeeps_of_sameInside hkernel hkernel (SameControl.rfl _) fun _ _ _ _ => rfl
    -- Stopped: excluded by the start.
    · exact absurd (hstop.symm.trans hrun') (by simp)
    -- No frame: excluded for a section of the program.
    · obtain ⟨hsame, hcontrol, ⟨-, -, hkernel'⟩ | ⟨hne, -⟩⟩ := kernel_kmalloc hkernel hk
      · exact ⟨hrun', owned, roundKeeps_of_sameInside hkernel hkernel' hcontrol hsame,
          fun hocc => absurd rfl (hplaces hocc)⟩
      · exact absurd rfl hne
    -- A frame and a mapping: the copy follows.
    · have hcopy := hcopies phys rfl
      obtain ⟨owned', hpk⟩ := hplaced.kernel hkernel
      have hinv := copyLoop_inv elf (sectionAt elf header i).offset hpk.kernel
        hpk.frame hrun' hcopy.ready
      have hbytes := fun hle => copyLoop_bytes elf
        (sectionAt elf header i).offset hpk.kernel hpk.frame hrun' hcopy.pointer hle
      dsimp only [Option.elim_some]
      generalize copyLoop elf phys (sectionAt elf header i).offset
        (sectionAt elf header i).size.toNat s' = t at hinv hbytes ⊢
      have hround := roundKeeps_of_copy hpk hplaced.loads hinv.frame
      rw [← hinv.machine] at hround
      refine ⟨hinv.running_of_pointer hcopy.pointer, owned', hround, fun hocc => ⟨phys, ?_⟩⟩
      -- The copy fills the frame and moves no page.
      have htables := hpk.kernel.paged.tables
      have hsame := sameTables_of_dataFrame htables hpk.frame hinv.frame
      have hcontrol : SameControl s'.machine t.machine := by
        rw [hinv.machine]
        exact ⟨rfl, rfl, rfl⟩
      have hat : ∀ va, frameAt t.machine.mem t.machine.pml4 va =
          frameAt s'.machine.mem s'.machine.pml4 va := by
        intro va
        rw [frameAt_eq_view hround.kernel.paged.tables, frameAt_eq_view htables, hcontrol.pml4]
        congr 1
        exact leafOf_sameTables htables hsame _ rfl _
      refine ⟨⟨hpk.frame.owned, ?_⟩, (hat _).trans (hcopy.mapped hocc), hbytes (hsize hocc),
        fun hc => ?_⟩
      · rw [hcontrol.pml4, reaches_sameTables htables hsame]
        exact hpk.frame.data
      · obtain ⟨hcanon, hentry⟩ := hcopy.entry hocc hc
        rw [hcontrol.hhdm, hat]
        exact ⟨hcanon, hentry⟩

/-! ## Section 5: The run -/

/-- What holds after the first `n` rounds. -/
structure LoadedInv (A : AllocSpec σ) (elf : Image) (header : ELF_FILE_HEADER_T)
    (machine : Machine σ) (n : Nat) (s : Loader σ) : Prop where
  running : s.stopped = false
  control : SameControl machine s.machine
  loaded  : ∃ owned, KernelPaging A 0 owned s.machine ∧
    ∀ i < n, Occupies elf header i → ∃ phys, SectionLoaded elf header owned s.machine i phys

/-- **Run lemma**: after `n` rounds that started well, the sections of the
    program among the first `n` are loaded. -/
theorem run_loads {machine : Machine σ} {s : Loader σ} {n : Nat}
    (hn : n ≤ header.section_header_entry_count.toNat)
    (hsections : OnePageSections elf header machine.hhdm)
    (hinit : LoadedInv A elf header machine 0 s)
    (hstarts : Along (loadSection elf header) (SectionStarts elf header) s (List.range n)) :
    LoadedInv A elf header machine n (run (loadSection elf header) s (List.range n)) := by
  induction n with
  | zero => exact hinit
  | succ n ih =>
    rw [List.range_succ, along_append] at hstarts
    obtain ⟨hrun, hcontrol, owned, hkernel, hloaded⟩ := ih (by omega) hstarts.1
    rw [List.range_succ, run_append, run_cons, run_nil]
    generalize run (loadSection elf header) s (List.range n) = t at *
    obtain ⟨hrun', owned', hround, hnew⟩ :=
      loadSection_loads hkernel hrun hstarts.2.1 (hsections.onePage n)
    refine ⟨hrun', hcontrol.trans hround.control, owned', hround.kernel, ?_⟩
    intro i hi hocc
    rcases Nat.lt_succ_iff_lt_or_eq.mp hi with hlt | rfl
    · obtain ⟨phys, hsection⟩ := hloaded i hlt hocc
      refine ⟨phys, hsection.keeps hkernel hround (hsections.onePage i hocc) ?_ ?_⟩
      · exact fun hl => (hsections.apart i n hocc hlt (by omega) hl).1
      · intro hl hc
        rw [hcontrol.hhdm]
        exact (hsections.apart i n hocc hlt (by omega) hl).2 hc
    · exact hnew hocc

/-! ## Section 6: The result -/

/-- An offset into a page. -/
theorem page_offset {addr : UInt64} {j : Nat} (ha : PageAligned addr) (hj : j < PAGE_SIZE) :
    (addr + UInt64.ofNat j) &&& 0xFFF = UInt64.ofNat j ∧
      pageKey (addr + UInt64.ofNat j) = pageKey addr ∧
      (Canonical addr → Canonical (addr + UInt64.ofNat j)) := by
  have hval := Words.ofNat_toNat_lt j (by unfold PAGE_SIZE at hj; omega)
  have hadd := toNat_page_add ha (by rw [hval]; exact hj)
  unfold PAGE_SIZE at hj
  unfold PageAligned PAGE_SIZE at ha
  refine ⟨?_, ?_, fun hc => ?_⟩
  · apply Words.ext
    rw [toNat_and_fff, hadd]
    omega
  · rw [pageKey_eq_iff, hadd]
    omega
  · unfold Canonical at *
    rw [hadd]
    omega

omit [PageAllocator σ] in
/-- A page with a known frame has the bytes of that frame. -/
theorem byteAtVirtual_page {m : Machine σ} {va w frame : UInt64} (htables : Tables m.pml4 owned m.mem)
    (hcanon : Canonical va) (hpage : pageKey va = pageKey w)
    (hframe : frameAt m.mem m.pml4 w = some frame) :
    byteAtVirtual m.mem m.pml4 va = some (m.mem (frame + (va &&& 0xFFF))) := by
  have hview : view m.mem m.pml4 va = view m.mem m.pml4 w := by
    obtain ⟨hpath, hidx⟩ := (pageKey_eq_iff_paths _ _).mp hpage
    unfold view
    rw [hpath, hidx]
  have hframe' : frameAt m.mem m.pml4 va = some frame := by
    rw [frameAt_eq_view htables, hview, ← frameAt_eq_view htables]
    exact hframe
  unfold byteAtVirtual
  rw [if_neg (not_not.mpr hcanon), hframe']
  rfl

/-- **Main theorem on contents**: a well-formed image whose sections are one
    page each is loaded as the file says, if every round starts well. -/
theorem read_elf_loads (A : AllocSpec σ) (owned : List UInt64) (elf : Image)
    (header : ELF_FILE_HEADER_T) (machine : Machine σ) (hkernel : KernelPaging A 0 owned machine)
    (hwf : WellFormedElf elf header) (hsections : OnePageSections elf header machine.hhdm)
    (hstarts : AlongSections elf machine (SectionStarts elf)) :
    LoadedImage elf header (read_elf elf true machine) := by
  have hinit : LoadedInv A elf header machine 0
      ⟨machine, (parse_elf_header elf).reads, [], false⟩ :=
    ⟨rfl, SameControl.rfl _, owned, hkernel, fun i hi => by omega⟩
  obtain ⟨hrun, hcontrol, owned', hkernel', hloaded⟩ :=
    run_loads (Nat.le_refl _) hsections hinit (hstarts header hwf.magic)
  rw [← read_elf_loader true hwf.magic] at hrun hcontrol hkernel' hloaded
  have htables := hkernel'.paged.tables
  have hcalled := read_elf_called hwf.magic hrun
  generalize read_elf elf true machine = r at *
  constructor
  · intro i hocc j hj
    obtain ⟨phys, hsection⟩ := hloaded i hocc.index hocc
    have hsize := hsections.onePage i hocc
    obtain ⟨hlow, hpage, hcanon⟩ := page_offset (hsections.aligned i hocc) (by omega : j < PAGE_SIZE)
    rw [byteAtVirtual_page htables (hcanon (hsections.canonical i hocc)) hpage hsection.mapped, hlow]
    exact congrArg some (hsection.bytes j hj)
  · intro i hocc hc
    obtain ⟨phys, hsection⟩ := hloaded i hocc.index hocc
    obtain ⟨hcanon, hframe⟩ := hsection.entry hc
    refine ⟨_, hcalled, ?_⟩
    have ha := hsections.aligned i hocc
    have hsize := hsections.onePage i hocc
    have hhdm := hkernel'.hhdm
    obtain ⟨hge, hlt⟩ := hc
    -- The offset into the page that is called is the offset into the section.
    have hsub := Words.toNat_sub_le header.entry_point_address
      (sectionAt elf header i).virtual_address hge
    have hlow : (header.entry_point_address + r.loader.machine.hhdm) &&& 0xFFF =
        header.entry_point_address - (sectionAt elf header i).virtual_address := by
      apply Words.ext
      unfold PAGE_SIZE at hsize
      unfold PageAligned PAGE_SIZE at ha hhdm
      rw [toNat_and_fff, hsub, UInt64.toNat_add]
      omega
    rw [byteAtVirtual_page htables hcanon rfl hframe, hlow]
    have hbyte := hsection.bytes (header.entry_point_address -
      (sectionAt elf header i).virtual_address).toNat (by omega)
    rw [UInt64.ofNat_toNat] at hbyte
    exact congrArg some hbyte

end contents

/-! ## Section 7: A program of one page -/

theorem onePageImage_wellFormed : WellFormedElf onePageImage onePageHeader := by
  have hindex : ∀ i, Occupies onePageImage onePageHeader i → i = 0 := by
    intro i h
    have hlt : i < 1 := h.index
    omega
  refine ⟨onePageImage_parse, rfl, rfl, rfl, by decide, fun i h => ?_, fun i k hne hi hk => ?_⟩
  · obtain rfl := hindex i h
    decide
  · exact absurd ((hindex i hi).trans (hindex k hk).symm) hne

theorem onePageImage_sections (hhdm : UInt64) :
    OnePageSections onePageImage onePageHeader hhdm := by
  have hindex : ∀ i, Occupies onePageImage onePageHeader i → i = 0 := by
    intro i h
    have hlt : i < 1 := h.index
    omega
  refine ⟨fun i h => ?_, fun i h => ?_, fun i h => ?_, fun i k h hik hk => ?_⟩
  · obtain rfl := hindex i h
    decide
  · obtain rfl := hindex i h
    decide
  · obtain rfl := hindex i h
    decide
  · have hk' : k < 1 := hk
    omega

/-- With its page in the direct map mapped to the frame that the section gets,
    the program is loaded. -/
theorem onePageImage_loaded :
    ∃ machine, map_page 0xFFFF800000400000 0x400000 0x3
        (emptyKernel [0x6000, 0x7000, 0x8000, 0x400000, 0x9000, 0xA000, 0xB000]) = some machine ∧
      LoadedImage onePageImage onePageHeader (read_elf onePageImage true machine) := by
  have hkernel₀ : KernelPaging scriptSpec 7 [0x1000]
      (emptyKernel [0x6000, 0x7000, 0x8000, 0x400000, 0x9000, 0xA000, 0xB000]) :=
    emptyKernel_paging (freshScript_of_all (by decide) (by decide))
  obtain ⟨m₁, hm₁, halloc₁⟩ := map_page_take 0xFFFF800000400000 0x400000 0x3 (s := emptyKernel
      [0x6000, 0x7000, 0x8000, 0x400000, 0x9000, 0xA000, 0xB000]) (by decide) (fun _ => rfl) rfl
    (by decide) (by decide) (by decide)
  obtain ⟨owned₁, hkernel₁, hgrows₁, hview₁, -⟩ := kernel_map_page hkernel₀ hm₁
  have hhdm₁ : m₁.hhdm = 0xFFFF800000000000 := hgrows₁.control.hhdm
  refine ⟨m₁, hm₁, read_elf_loads scriptSpec owned₁ _ _ _
    ⟨hkernel₁.paged.mono (by decide), hkernel₁.active, hkernel₁.hhdm⟩ onePageImage_wellFormed
    (onePageImage_sections _) fun header h => ?_⟩
  obtain rfl := Option.some.inj (onePageImage_parse.symm.trans h)
  refine ⟨fun o s₁ hplace => ?_, trivial⟩
  obtain ⟨s', owned', hplace', hs, hkernel', -, hhdm', hview, hd, hviews⟩ := onePageImage_place
    (s := Loader.record ⟨m₁, _, [], false⟩ _) hkernel₁ hhdm₁ halloc₁ (by decide)
  obtain ⟨rfl, rfl⟩ := Prod.mk.inj (hplace'.symm.trans hplace)
  have hentry : ∀ va, view s'.machine.mem s'.machine.pml4 va = leafEntry (pageEntry 0x400000 0x7) ∨
      view s'.machine.mem s'.machine.pml4 va = leafEntry (pageEntry 0x400000 0x3) →
      frameAt s'.machine.mem s'.machine.pml4 va = some 0x400000 := by
    intro va hva
    rw [frameAt_eq_view hkernel'.paged.tables]
    rcases hva with hva | hva <;> rw [hva] <;> decide
  refine ⟨hs, fun _ => by simp, ?_⟩
  intro phys hphys
  obtain rfl := Option.some.inj hphys
  refine ⟨fun k hk => ?_, fun _ => hentry _ (Or.inl ?_), fun _ _ => ?_⟩
  · obtain rfl := onePageImage_page hk
    exact hd
  · rw [onePageImage_section]
    exact hview
  · rw [hhdm']
    exact ⟨by decide, hentry _ (Or.inr ((hviews 0xFFFF800000400000 (by decide)).trans
      (hview₁ (by decide))))⟩

/-- Otherwise the section is where the file wants it, but the address that is
    called is not mapped. -/
theorem onePageImage_not_loaded :
    WellFormedElf onePageImage onePageHeader ∧
      ¬ LoadedImage onePageImage onePageHeader
        (read_elf onePageImage true (emptyKernel [0x400000, 0x2000, 0x3000, 0x4000])) := by
  refine ⟨onePageImage_wellFormed, ?_⟩
  intro hloaded
  let start : Loader (List UInt64) := ⟨emptyKernel [0x400000, 0x2000, 0x3000, 0x4000],
    (parse_elf_header onePageImage).reads, [], false⟩
  obtain ⟨s', owned', hplace, hs, hkernel', hframe, hhdm, -, hd, hviews⟩ := onePageImage_place
    (s := start.record (sectionReads onePageImage onePageHeader 0)) onePageImage_kernel rfl rfl
    (by decide)
  have hpointer : ∀ k, PAGE_SIZE * k < (sectionAt onePageImage onePageHeader 0).size.toNat →
      s'.machine.denote (pagePtr 0x400000 k) = some 0x400000 :=
    fun k hk => onePageImage_pointer hd hk
  have hinv := copyLoop_inv onePageImage
    (sectionAt onePageImage onePageHeader 0).offset hkernel' hframe hs
    (fun k hk _ q hq => (Option.some.inj ((hpointer k hk).symm.trans hq)).symm)
  -- The run is the copy of the section.
  have hrun : (read_elf onePageImage true (emptyKernel [0x400000, 0x2000, 0x3000, 0x4000])).loader =
      copyLoop onePageImage 0x400000 (sectionAt onePageImage onePageHeader 0).offset
        (sectionAt onePageImage onePageHeader 0).size.toNat s' := by
    rw [read_elf_loader true onePageImage_parse, onePageHeader_sections, run_cons, run_nil]
    exact loadSection_running (s := start) rfl hplace
  have hcalled := read_elf_called onePageImage_parse
    (show (read_elf onePageImage true
        (emptyKernel [0x400000, 0x2000, 0x3000, 0x4000])).loader.stopped = false by
      rw [hrun]
      exact hinv.running_of_pointer hpointer)
  obtain ⟨addr, haddr, hbyte⟩ := hloaded.entry 0 ⟨by decide, by decide, by decide, by decide⟩
    (by decide)
  obtain rfl := Option.some.inj (hcalled.symm.trans haddr)
  rw [hrun] at hbyte
  generalize copyLoop onePageImage 0x400000 (sectionAt onePageImage onePageHeader 0).offset
    (sectionAt onePageImage onePageHeader 0).size.toNat s' = t at hinv hbyte
  -- The page that is called is not mapped, as at the start.
  have htables := hkernel'.paged.tables
  have hsame := sameTables_of_dataFrame htables hframe hinv.frame
  have hnone : view t.machine.mem s'.machine.pml4 0xFFFF800000400000 = none := by
    refine (leafOf_sameTables htables hsame _ rfl _).trans ((hviews _ (by decide)).trans ?_)
    exact (tables_of_zero ⟨by decide, by decide, by decide⟩ fun _ => rfl).2 _ rfl _
  have hframeAt : frameAt t.machine.mem s'.machine.pml4 0xFFFF800000400000 = none := by
    rw [frameAt_eq_view (m := { s'.machine with mem := t.machine.mem })
      (tables_sameTables htables hsame)]
    exact congrArg (Option.map (· &&& frameMask)) hnone
  have hpml4 : t.machine.pml4 = s'.machine.pml4 := by rw [hinv.machine]
  have hhdm' : t.machine.hhdm = 0xFFFF800000000000 := by
    rw [hinv.machine]
    exact hhdm
  rw [hpml4, hhdm'] at hbyte
  have hva : onePageHeader.entry_point_address + 0xFFFF800000000000 = 0xFFFF800000400000 := by decide
  rw [hva] at hbyte
  unfold byteAtVirtual at hbyte
  rw [if_neg (by decide), hframeAt] at hbyte
  cases hbyte

end ArgaldOS
