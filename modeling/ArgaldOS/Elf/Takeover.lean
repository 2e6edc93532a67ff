import ArgaldOS.Elf.Confinement
import ArgaldOS.Interrupt.UserCopy

/-! # Which pages a program takes

    `read_elf` maps a section at the address that its header gives, without a
    look at that address: it may lie above the user space, and its page may be
    in use.

    * `KeepsPages`: the pages above the user space, and those in use, are
      translated as before;
    * `copyLoop_harmless`: a copy that hits no table moves no page;
    * `loadSection_views`: all that a round does to the translations;
    * `read_elf_keeps`: with such copies, `read_elf` keeps the pages if it
      spares them in every round, and only then;
    * `kernelPageImage_takes_over`: an image that replaces a page of the kernel.
-/

namespace ArgaldOS

open TableTree Runs

/-! ## Section 1: Pages to keep -/

section pages
variable {σ : Type}

/-- The page is not one that a program may take: it is above the user space,
    or in use. -/
def Protected (m : Machine σ) (va : UInt64) : Prop :=
  USER_SPACE_TOP < va ∨ walk m.mem m.pml4 va ≠ none

/-- The protected pages are translated as before. -/
def KeepsPages (before after : Machine σ) : Prop :=
  ∀ va, Canonical va → Protected before va →
    walk after.mem after.pml4 va = walk before.mem before.pml4 va

/-- Every page that is mapped for the user is mapped to a frame that was handed
    out. -/
def UserPagesOwned (owned : List UInt64) (m : Machine σ) : Prop :=
  ∀ va f, Canonical va → walk m.mem m.pml4 va = some (f, 0x7) → f ∈ owned

variable [PageAllocator σ]

/-- The section gets a frame, and its page is mapped to it. -/
def GetsPage (sh : ELF_SECTION_HEADER_T) (m : Machine σ) : Prop :=
  sh.Loads ∧ ∃ phys machine, m.kmalloc = some (phys, machine) ∧ phys ≠ 0 ∧
    NoAllocationFailure sh.virtual_address machine

/-- Section `i` gets no page that was protected before the program.  The page of
    a section is found by the indices of its address, which a canonical
    address shares with others. -/
def SparesPages (before : Machine σ) (elf : Image) (header : ELF_FILE_HEADER_T) (s : Loader σ)
    (i : Nat) : Prop :=
  s.stopped = false → GetsPage (sectionAt elf header i) s.machine →
    ∀ va, Canonical va → pageKey va = pageKey (sectionAt elf header i).virtual_address →
      ¬ Protected before va

/-! ## Section 2: Harmless copies -/

/-- Stores to the frame `q` hit no table, and nothing that the allocator keeps
    in memory. -/
structure Harmless (A : AllocSpec σ) (m : Machine σ) (q : UInt64) : Prop where
  data  : ¬ Reaches nextTable m.mem.entry m.pml4 3 q
  alloc : ∀ {n owned mem mem'}, A.Inv n m.hhdm m.alloc mem owned →
    (∀ x, ¬ InFrame q x → mem' x = mem x) → A.Inv n m.hhdm m.alloc mem' owned

/-- For the kernel's allocator a frame is harmless if it is no table and holds no
    byte of the bitmap. -/
theorem harmless_of_not_bitmap {r : Region} {hr : r.Fits} {halign : r.base % PAGE_SIZE = 0}
    {m : Machine largestSection} {q : UInt64}
    (hdata : ¬ Reaches nextTable m.mem.entry m.pml4 3 q)
    (hout : ∀ x, r.InBitmap x → ¬ InFrame q x) : Harmless (pmmSpec r hr halign) m q :=
  ⟨hdata, fun hinv hmem => pmmRoom_of_bitmap hinv fun x hx => hmem x (hout x hx)⟩

/-- The pages that a copy of `size` bytes to `phys` walks over, up to the first
    one that faults, are mapped to the frame `phys` or to harmless ones. -/
def CopyHarmless (A : AllocSpec σ) (m : Machine σ) (phys : UInt64) (size : Nat) : Prop :=
  ∀ k, PAGE_SIZE * k < size → (∀ i < k, m.denote (pagePtr phys i) ≠ none) →
    ∀ q, m.denote (pagePtr phys k) = some q → q = phys ∨ Harmless A m q

/-- The copy of section `i`, if it comes to one in state `s`, is harmless. -/
def SectionHarmless (A : AllocSpec σ) (elf : Image) (header : ELF_FILE_HEADER_T) (s : Loader σ)
    (i : Nat) : Prop :=
  s.stopped = false → ∀ phys s',
    placeSection (sectionAt elf header i) (s.record (sectionReads elf header i)) = (some phys, s') →
      CopyHarmless A s'.machine phys (sectionAt elf header i).size.toNat

/-- A copy that stays in its own frame is harmless. -/
theorem SectionReady.harmless {A : AllocSpec σ} {elf : Image} {header : ELF_FILE_HEADER_T}
    {s : Loader σ} {i : Nat} (h : SectionReady elf header s i) :
    SectionHarmless A elf header s i :=
  fun hs phys s' hp k hk hbefore q hq => Or.inl (h hs phys s' hp k hk hbefore q hq)

variable {A : AllocSpec σ} {owned : List UInt64} {elf : Image}
variable {phys offset : UInt64} {size : Nat} {s : Loader σ}

/-- What a harmless copy has done after `j` bytes. -/
structure HarmlessInv (A : AllocSpec σ) (owned : List UInt64) (s : Loader σ) (phys : UInt64)
    (j : Nat) (t : Loader σ) : Prop where
  machine : t.machine = { s.machine with mem := t.machine.mem }
  tables  : SameTables s.machine.pml4 s.machine.mem t.machine.mem
  alloc   : A.Inv 0 s.machine.hhdm s.machine.alloc t.machine.mem owned
  running : t.stopped = false → ∀ k, PAGE_SIZE * k < j → s.machine.denote (pagePtr phys k) ≠ none

/-- Step lemma: one byte of a harmless copy. -/
theorem HarmlessInv.byte {j : Nat} {t : Loader σ} (h : HarmlessInv A owned s phys j t)
    (hkernel : KernelPaging A 0 owned s.machine) (hframe : DataFrame owned s.machine phys)
    (hharmless : CopyHarmless A s.machine phys size) (hj : j < size) (hrun : t.stopped = false) :
    HarmlessInv A owned s phys (j + 1) (copyByte elf phys offset j t) := by
  have haligned := hkernel.paged.aligned phys hframe.owned
  have hptr := pagePtr_aligned haligned (j / PAGE_SIZE)
  have hoff := toNat_ofNat_mod_lt j
  have hdiv : PAGE_SIZE * (j / PAGE_SIZE) ≤ j := Nat.mul_div_le j PAGE_SIZE
  -- Pointers lead where they led before the copy.
  have hdenote : t.machine.denote (phys + UInt64.ofNat j) =
      (s.machine.denote (pagePtr phys (j / PAGE_SIZE))).map (· + UInt64.ofNat (j % PAGE_SIZE)) := by
    rw [h.machine, ptr_eq_pagePtr phys j, ← denote_page hkernel hptr hoff]
    exact denote_sameTables hkernel.paged.tables hkernel.active h.tables _
  rcases copyByte_cases elf phys offset j hrun with ⟨-, heq⟩ | ⟨q', hq', heq⟩
  · rw [heq]
    refine ⟨h.machine, h.tables, h.alloc, ?_⟩
    intro hstop
    cases hstop
  · rw [hdenote] at hq'
    obtain ⟨q, hq, rfl⟩ := Option.map_eq_some_iff.mp hq'
    have hqa := denote_aligned hkernel hptr hq
    have hpages := h.running hrun
    -- The frame of the page is the section's own, or harmless.
    obtain ⟨hdata, halloc⟩ : ¬ Reaches nextTable s.machine.mem.entry s.machine.pml4 3 q ∧
        ∀ mem', (∀ x, ¬ InFrame q x → mem' x = t.machine.mem x) →
          A.Inv 0 s.machine.hhdm s.machine.alloc mem' owned := by
      have hbefore : ∀ i < j / PAGE_SIZE, s.machine.denote (pagePtr phys i) ≠ none := by
        intro i hi
        have hlt := Nat.mul_lt_mul_of_pos_left hi (show 0 < PAGE_SIZE by decide)
        exact hpages i (by omega)
      rcases hharmless (j / PAGE_SIZE) (by omega) hbefore q hq with rfl | hother
      · exact ⟨hframe.data, fun mem' hmem => A.stable h.alloc fun x hx => hmem x (hx q hframe.owned)⟩
      · exact ⟨hother.data, fun mem' hmem => hother.alloc h.alloc hmem⟩
    have hin : InFrame q (q + UInt64.ofNat (j % PAGE_SIZE)) := inFrame_add hqa hoff
    have hstore : ∀ x, ¬ InFrame q x → t.machine.mem.store8 (q + UInt64.ofNat (j % PAGE_SIZE))
        (elf (offset + UInt64.ofNat j)) x = t.machine.mem x :=
      fun x hx => Mem.store8_ne _ _ x _ fun hxq => hx (hxq ▸ hin)
    rw [heq]
    refine ⟨?_, fun g hg x hx => ?_, halloc _ hstore, fun _ k hk => ?_⟩
    · exact with_mem_congr h.machine _
    · refine (hstore x fun hqx => ?_).trans (h.tables g hg x hx)
      have hga := (hkernel.paged.tables.good g (hkernel.paged.tables.reach g hg)).aligned
      exact hdata (inFrame_unique hga hqa hx hqx ▸ hg)
    · rcases page_before hk with hlt | rfl
      · exact hpages k hlt
      · rw [hq]
        simp

variable (elf offset) in
/-- **A harmless copy** keeps the kernel's invariant and moves no page. -/
theorem copyLoop_harmless (hkernel : KernelPaging A 0 owned s.machine)
    (hframe : DataFrame owned s.machine phys) (hharmless : CopyHarmless A s.machine phys size) :
    KernelPaging A 0 owned (copyLoop elf phys offset size s).machine ∧
      SameControl s.machine (copyLoop elf phys offset size s).machine ∧
      ∀ va, view (copyLoop elf phys offset size s).machine.mem
        (copyLoop elf phys offset size s).machine.pml4 va =
          view s.machine.mem s.machine.pml4 va := by
  have hinv : HarmlessInv A owned s phys size (copyLoop elf phys offset size s) := by
    refine copyLoop_invariant (HarmlessInv A owned s phys) ?_ ?_
      fun _ _ hj h hrun => h.byte hkernel hframe hharmless hj hrun
    · exact ⟨rfl, fun _ _ _ _ => rfl, hkernel.paged.alloc, fun _ k hk => absurd hk (by omega)⟩
    · intro j t _ h ht
      refine ⟨h.machine, h.tables, h.alloc, ?_⟩
      intro hrun
      rw [ht] at hrun
      cases hrun
  generalize copyLoop elf phys offset size s = t at hinv
  have htables := hkernel.paged.tables
  have htables' := tables_sameTables htables hinv.tables
  rw [hinv.machine]
  exact ⟨⟨⟨hinv.alloc, htables'⟩, hkernel.active, hkernel.hhdm⟩, ⟨rfl, rfl, rfl⟩,
    fun va => leafOf_sameTables htables hinv.tables _ rfl _⟩

/-! ## Section 3: One round -/

variable {header : ELF_FILE_HEADER_T} {i : Nat}

/-- What a round leaves: the kernel's invariant, and the translations of all
    pages, or of all but the one that the section got. -/
structure RoundViews (A : AllocSpec σ) (owned : List UInt64) (sh : ELF_SECTION_HEADER_T)
    (s s' : Loader σ) : Prop where
  kernel  : ∃ owned', KernelPaging A 0 owned' s'.machine ∧ owned ⊆ owned' ∧
    (GetsPage sh s.machine → ∃ phys, phys ∉ owned ∧ PageAligned phys ∧ phys.toNat < 2 ^ 52 ∧
      ∀ va, pageKey va = pageKey sh.virtual_address →
        view s'.machine.mem s'.machine.pml4 va = leafEntry (pageEntry phys 0x7))
  control : SameControl s.machine s'.machine
  views   : ∀ va, (GetsPage sh s.machine → pageKey va ≠ pageKey sh.virtual_address) →
    view s'.machine.mem s'.machine.pml4 va = view s.machine.mem s.machine.pml4 va

/-- `kmalloc` moves no page. -/
theorem kmalloc_views {m m' : Machine σ} (hkernel : KernelPaging A 0 owned m)
    (hk : m.kmalloc = some (phys, m')) (va : UInt64) :
    view m'.mem m'.pml4 va = view m.mem m.pml4 va := by
  obtain ⟨hsame, hcontrol, -⟩ := kernel_kmalloc hkernel hk
  have htables := hkernel.paged.tables
  rw [hcontrol.pml4]
  exact leafOf_sameTables htables (hsame.sameTables htables) _ rfl _

/-- A round that is stopped before the copy, or gets no frame. -/
theorem roundViews_of_no_page {sh : ELF_SECTION_HEADER_T} {s' : Loader σ}
    (hkernel : KernelPaging A 0 owned s.machine) (hnot : ¬ GetsPage sh s.machine)
    (h : s'.machine = s.machine ∨ ∃ phys, s.machine.kmalloc = some (phys, s'.machine)) :
    RoundViews A owned sh s s' := by
  -- Nothing was called, or `kmalloc` alone.
  rcases h with heq | ⟨phys, hk⟩
  · refine ⟨⟨owned, ?_, fun _ hf => hf, fun hget => absurd hget hnot⟩, ?_, fun va _ => ?_⟩
    all_goals rw [heq]
    · exact hkernel
    · exact SameControl.rfl _
  · obtain ⟨-, hcontrol, hcases⟩ := kernel_kmalloc hkernel hk
    refine ⟨?_, hcontrol, fun va _ => kmalloc_views hkernel hk va⟩
    rcases hcases with ⟨-, -, hkernel'⟩ | ⟨-, -, hkernel', -⟩
    · exact ⟨owned, hkernel', fun _ hf => hf, fun hget => absurd hget hnot⟩
    · exact ⟨phys :: owned, hkernel', fun _ hf => List.mem_cons_of_mem _ hf,
        fun hget => absurd hget hnot⟩

/-- `map_page` meets no allocation failure only if it returns. -/
theorem NoAllocationFailure.returns {vaddr phys_addr flags : UInt64} {m : Machine σ}
    (h : NoAllocationFailure vaddr m) : map_page vaddr phys_addr flags m ≠ none := by
  obtain ⟨pdpt, s₁, pd, s₂, pt, s₃, h₁, hne₁, h₂, hne₂, h₃, hne₃⟩ := h
  simp [map_page, h₁, h₂, h₃, hne₁, hne₂, hne₃]

/-- Step lemma: all that a round with a harmless copy does to the translations. -/
theorem loadSection_views (hkernel : KernelPaging A 0 owned s.machine) (hs : s.stopped = false)
    (hharmless : SectionHarmless A elf header s i) :
    RoundViews A owned (sectionAt elf header i) s (loadSection elf header s i) := by
  cases hp : placeSection (sectionAt elf header i) (s.record (sectionReads elf header i)) with
  | mk o s' =>
    obtain ⟨-, -, hcases⟩ := placeSection_cases hp
    rw [loadSection_running hs hp]
    rcases hcases with ⟨hl, rfl, rfl⟩ | ⟨hl, rfl, -, hstop⟩ | ⟨hl, rfl, hk, -⟩ | ⟨phys, rfl, hplaced⟩
    · -- The section is skipped.
      exact roundViews_of_no_page hkernel (fun hget => hl hget.1) (Or.inl rfl)
    · -- A call did not return.
      rcases hstop with ⟨hk, heq⟩ | ⟨phys, hk, -, hm⟩
      · refine roundViews_of_no_page hkernel (fun hget => ?_) (Or.inl heq)
        obtain ⟨-, phys, m, hk', -⟩ := hget
        exact absurd (hk.symm.trans hk') (by simp)
      · refine roundViews_of_no_page hkernel (fun hget => ?_) (Or.inr ⟨phys, hk⟩)
        obtain ⟨-, phys', m, hk', -, hno⟩ := hget
        obtain ⟨rfl, rfl⟩ := kmalloc_unique hk hk'
        exact hno.returns hm
    · -- There was no frame.
      refine roundViews_of_no_page hkernel (fun hget => ?_) (Or.inr ⟨0, hk⟩)
      obtain ⟨-, phys', m, hk', hne, -⟩ := hget
      obtain ⟨rfl, -⟩ := kmalloc_unique hk hk'
      exact hne rfl
    · -- The section got a frame; its page is mapped unless there was none for a table.
      obtain ⟨m, hk, hm⟩ := hplaced.mapped
      obtain ⟨-, hcontrol, ⟨h0, -⟩ | ⟨-, hunused, hkernel₁, hframe₁⟩⟩ := kernel_kmalloc hkernel hk
      · exact absurd h0 hplaced.ne_zero
      obtain ⟨owned', hkernel', hgrows, hviews⟩ := kernel_map_page_cases hkernel₁ hm
      obtain ⟨hkernel'', hcontrol'', hsame⟩ :=
        copyLoop_harmless elf (sectionAt elf header i).offset hkernel' (hframe₁.grows hgrows)
          (hharmless hs phys s' hp)
      have hgood := hkernel₁.paged.tables.good phys List.mem_cons_self
      have hget : GetsPage (sectionAt elf header i) s.machine ↔
          NoAllocationFailure (sectionAt elf header i).virtual_address m := by
        constructor
        · rintro ⟨-, phys', m', hk', -, hno⟩
          obtain ⟨rfl, rfl⟩ := kmalloc_unique hk hk'
          exact hno
        · exact fun hno => ⟨hplaced.loads, phys, m, hk, hplaced.ne_zero, hno⟩
      refine ⟨⟨owned', hkernel'', fun f hf => hgrows.sub (List.mem_cons_of_mem _ hf), fun h => ?_⟩,
        (hcontrol.trans hgrows.control).trans hcontrol'', fun va hva => ?_⟩
      · refine ⟨phys, hunused, hgood.aligned, by have := hgood.below; unfold PAGE_SIZE at this; omega,
          fun va hva => (hsame va).trans ?_⟩
        rcases hviews with ⟨-, hviews⟩ | ⟨hfail, -⟩
        · rw [hviews, if_pos hva]
        · exact absurd (hget.mp h) hfail
      · refine (hsame va).trans (Eq.trans ?_ (kmalloc_views hkernel hk va))
        rcases hviews with ⟨hno, hviews⟩ | ⟨-, -, hviews⟩
        · rw [hviews, if_neg (hva (hget.mpr hno))]
        · exact hviews va

/-! ## Section 4: The run -/

/-- The kernel runs on its own tables, and the frames `owned` before the program
    are still handed out. -/
def LoaderPaging (A : AllocSpec σ) (owned : List UInt64) (t : Loader σ) : Prop :=
  ∃ owned', KernelPaging A 0 owned' t.machine ∧ owned ⊆ owned'

/-- The protected pages have their translations so far. -/
structure ViewsKept (A : AllocSpec σ) (owned : List UInt64) (before : Machine σ) (t : Loader σ) :
    Prop where
  paging  : LoaderPaging A owned t
  control : SameControl before t.machine
  views   : ∀ va, Canonical va → Protected before va →
    view t.machine.mem t.machine.pml4 va = view before.mem before.pml4 va

/-- The page of `va` has been given to the program. -/
structure Taken (A : AllocSpec σ) (owned : List UInt64) (va : UInt64) (t : Loader σ) : Prop where
  paging : LoaderPaging A owned t
  view   : ∃ phys, phys ∉ owned ∧ PageAligned phys ∧ phys.toNat < 2 ^ 52 ∧
    view t.machine.mem t.machine.pml4 va = leafEntry (pageEntry phys 0x7)

theorem LoaderPaging.step {t : Loader σ} (h : LoaderPaging A owned t)
    (hharmless : SectionHarmless A elf header t i) :
    LoaderPaging A owned (loadSection elf header t i) := by
  cases hs : t.stopped with
  | true =>
    rw [loadSection_stopped i hs]
    exact h
  | false =>
    obtain ⟨owned', hkernel, hsub⟩ := h
    obtain ⟨owned'', hkernel', hsub', -⟩ := (loadSection_views hkernel hs hharmless).kernel
    exact ⟨owned'', hkernel', fun f hf => hsub' (hsub hf)⟩

/-- Step lemma: a round that spares the protected pages keeps them. -/
theorem ViewsKept.step {before : Machine σ} {t : Loader σ} (h : ViewsKept A owned before t)
    (hharmless : SectionHarmless A elf header t i) (hspares : SparesPages before elf header t i) :
    ViewsKept A owned before (loadSection elf header t i) := by
  cases hs : t.stopped with
  | true =>
    rw [loadSection_stopped i hs]
    exact h
  | false =>
    obtain ⟨owned', hkernel, -⟩ := h.paging
    have hround := loadSection_views hkernel hs hharmless
    refine ⟨h.paging.step hharmless, h.control.trans hround.control, ?_⟩
    intro va hva hprot
    -- The round moves one page at most, and that one is not protected.
    have hsame := hround.views va fun hget hkey => hspares hs hget va hva hkey hprot
    exact hsame.trans (h.views va hva hprot)

/-- Step lemma: a page that was taken does not come back. -/
theorem Taken.step {va : UInt64} {t : Loader σ} (h : Taken A owned va t)
    (hharmless : SectionHarmless A elf header t i) :
    Taken A owned va (loadSection elf header t i) := by
  cases hs : t.stopped with
  | true =>
    rw [loadSection_stopped i hs]
    exact h
  | false =>
    obtain ⟨owned', hkernel, hsub⟩ := h.paging
    have hround := loadSection_views hkernel hs hharmless
    refine ⟨h.paging.step hharmless, ?_⟩
    by_cases hgets : GetsPage (sectionAt elf header i) t.machine ∧
        pageKey va = pageKey (sectionAt elf header i).virtual_address
    · -- It is taken once more, with another frame.
      obtain ⟨-, -, -, hget⟩ := hround.kernel
      obtain ⟨phys, hunused, haligned, hlt, hview⟩ := hget hgets.1
      exact ⟨phys, fun hf => hunused (hsub hf), haligned, hlt, hview va hgets.2⟩
    · obtain ⟨phys, hunused, haligned, hlt, hview⟩ := h.view
      refine ⟨phys, hunused, haligned, hlt, (hround.views va fun hget hkey => ?_).trans hview⟩
      exact hgets ⟨hget, hkey⟩

/-- A page that was taken is mapped to a frame that was not handed out before. -/
theorem Taken.walk {va : UInt64} {t : Loader σ} (h : Taken A owned va t) :
    ∃ phys, phys ∉ owned ∧ walk t.machine.mem t.machine.pml4 va = some (phys, 0x7) := by
  obtain ⟨owned', hkernel, -⟩ := h.paging
  obtain ⟨phys, hunused, haligned, hlt, hview⟩ := h.view
  refine ⟨phys, hunused, ?_⟩
  rw [walk_eq_view hkernel.paged.tables, hview, pageEntry_decode 0x7 hlt, pageOf_of_aligned haligned]
  rfl

/-- **Run lemma**: rounds that spare the protected pages keep them. -/
theorem run_keeps {before : Machine σ} {is : List Nat} (hkernel : KernelPaging A 0 owned before)
    (hinit : ViewsKept A owned before s)
    (hcopies : Along (loadSection elf header) (SectionHarmless A elf header) s is)
    (hspares : Along (loadSection elf header) (SparesPages before elf header) s is) :
    KeepsPages before (run (loadSection elf header) s is).machine := by
  have hkept : ViewsKept A owned before (run (loadSection elf header) s is) := by
    induction is generalizing s with
    | nil => exact hinit
    | cons i is ih => exact ih (hinit.step hcopies.1 hspares.1) hcopies.2 hspares.2
  intro va hva hprot
  obtain ⟨owned', hkernel', -⟩ := hkept.paging
  rw [walk_eq_view hkernel'.paged.tables, walk_eq_view hkernel.paged.tables, hkept.views va hva hprot]

/-- **Run lemma**: a round that does not spare a protected page loses it. -/
theorem run_spares {before : Machine σ} {is : List Nat} (howned : UserPagesOwned owned before)
    (hinit : LoaderPaging A owned s)
    (hcopies : Along (loadSection elf header) (SectionHarmless A elf header) s is)
    (hkeeps : KeepsPages before (run (loadSection elf header) s is).machine) :
    Along (loadSection elf header) (SparesPages before elf header) s is := by
  induction is generalizing s with
  | nil => trivial
  | cons i is ih =>
    obtain ⟨hcopy, hrest⟩ := hcopies
    refine ⟨fun hs hget va hva hkey hprot => ?_, ih (hinit.step hcopy) hrest hkeeps⟩
    have htaken : Taken A owned va (loadSection elf header s i) := by
      refine ⟨hinit.step hcopy, ?_⟩
      obtain ⟨owned', hkernel, hsub⟩ := hinit
      obtain ⟨-, -, -, hgets⟩ := (loadSection_views hkernel hs hcopy).kernel
      obtain ⟨phys, hunused, haligned, hlt, hview⟩ := hgets hget
      exact ⟨phys, fun hf => hunused (hsub hf), haligned, hlt, hview va hkey⟩
    -- The page is still taken in the end, so it was mapped to that frame before.
    have hend : Taken A owned va (run (loadSection elf header) (loadSection elf header s i) is) :=
      run_invariant (fun _ _ h hharmless => h.step hharmless) htaken hrest
    obtain ⟨phys, hunused, hwalk⟩ := hend.walk
    rw [run_cons] at hkeeps
    rw [hkeeps va hva hprot] at hwalk
    exact hunused (howned va phys hva hwalk)

/-- **Main theorem on the pages a program takes**: on a kernel that runs on its
    own well-formed tables, and for an image whose copies are harmless,
    `read_elf` keeps the protected pages if no round gets one of them; and only
    then, if the pages mapped for the user hold frames that were handed out. -/
theorem read_elf_keeps (A : AllocSpec σ) (owned : List UInt64) (elf : Image) (machine : Machine σ)
    (hkernel : KernelPaging A 0 owned machine)
    (hcopies : AlongSections elf machine (SectionHarmless A elf)) :
    (AlongSections elf machine (SparesPages machine elf) →
        KeepsPages machine (read_elf elf false machine).loader.machine) ∧
      (UserPagesOwned owned machine →
        KeepsPages machine (read_elf elf false machine).loader.machine →
        AlongSections elf machine (SparesPages machine elf)) := by
  cases hparse : (parse_elf_header elf).value with
  | none =>
    rw [read_elf_invalid false hparse]
    refine ⟨fun _ va _ _ => rfl, ?_⟩
    intro _ _ header h
    rw [hparse] at h
    cases h
  | some header =>
    rw [read_elf_loader false hparse]
    have hstart : LoaderPaging A owned ⟨machine, (parse_elf_header elf).reads, [], false⟩ :=
      ⟨owned, hkernel, fun _ hf => hf⟩
    constructor
    · intro hspares
      exact run_keeps hkernel ⟨hstart, SameControl.rfl _, fun _ _ _ => rfl⟩
        (hcopies header hparse) (hspares header hparse)
    · intro howned hkeeps header' h'
      obtain rfl := Option.some.inj (hparse.symm.trans h')
      exact run_spares howned hstart (hcopies header hparse) hkeeps

end pages

/-! ## Section 5: Two images -/

/-- An image with one section of four bytes for a page of the kernel. -/
def kernelPageImage : Image :=
  imageOf [(0, 0x7F), (1, 0x45), (2, 0x4C), (3, 0x46), (0x28, 0x40), (0x3A, 64), (0x3C, 1),
    (0x44, 1), (0x51, 0x10), (0x53, 0x80), (0x54, 0xFF), (0x55, 0xFF), (0x56, 0xFF), (0x57, 0xFF),
    (0x59, 1), (0x60, 4)]

def kernelPageHeader : ELF_FILE_HEADER_T :=
  ⟨[0x7F, 0x45, 0x4C, 0x46, 0], 0, 0, 0, 0, 0, 0, 0, 0, 0x40, 64, 1⟩

theorem kernelPageImage_parse :
    (parse_elf_header kernelPageImage).value = some kernelPageHeader ∧
      sectionAt kernelPageImage kernelPageHeader 0 = ⟨0, 1, 0xFFFFFFFF80001000, 0x100, 4⟩ := by
  decide

/-- With this page of the kernel mapped to 0x5000, `read_elf` maps it to the
    frame of the program, for the user. -/
theorem kernelPageImage_takes_over :
    ∃ machine, map_page 0xFFFFFFFF80001000 0x5000 0x3
        (emptyKernel [0x6000, 0x7000, 0x8000, 0x4000, 0x9000, 0xA000, 0xB000]) = some machine ∧
      (∃ owned, KernelPaging scriptSpec 0 owned machine) ∧
      walk machine.mem machine.pml4 0xFFFFFFFF80001000 = some (0x5000, 0x3) ∧
      let after := (read_elf kernelPageImage false machine).loader.machine
      walk after.mem after.pml4 0xFFFFFFFF80001000 = some (0x4000, 0x7) ∧
        ¬ KeepsPages machine after := by
  have hkernel₀ : KernelPaging scriptSpec 7 [0x1000]
      (emptyKernel [0x6000, 0x7000, 0x8000, 0x4000, 0x9000, 0xA000, 0xB000]) :=
    emptyKernel_paging (freshScript_of_all (by decide) (by decide))
  obtain ⟨m₁, hm₁, halloc₁⟩ := map_page_take 0xFFFFFFFF80001000 0x5000 0x3 (s := emptyKernel
      [0x6000, 0x7000, 0x8000, 0x4000, 0x9000, 0xA000, 0xB000]) (by decide) (fun _ => rfl) rfl
    (by decide) (by decide) (by decide)
  obtain ⟨owned₁, hkernel₁, hgrows₁, hview₁, hviews₁⟩ := kernel_map_page hkernel₀ hm₁
  have hkernel₁' : KernelPaging scriptSpec 0 owned₁ m₁ :=
    ⟨hkernel₁.paged.mono (by decide), hkernel₁.active, hkernel₁.hhdm⟩
  have hbefore : walk m₁.mem m₁.pml4 0xFFFFFFFF80001000 = some (0x5000, 0x3) := by
    rw [walk_eq_view hkernel₁.paged.tables, hview₁ (by decide), pageEntry_decode 0x3 (by decide)]
    decide
  refine ⟨m₁, hm₁, ⟨owned₁, hkernel₁'⟩, hbefore, ?_⟩
  obtain ⟨hparse, hsh⟩ := kernelPageImage_parse
  rw [read_elf_loader false hparse]
  intro after
  -- The section gets the frame 0x4000 at the page of the kernel.
  have hl : ELF_SECTION_HEADER_T.Loads ⟨0, 1, 0xFFFFFFFF80001000, 0x100, 4⟩ := by decide
  obtain ⟨s', owned', hplace, hs', hkernel', hframe, hhdm', hview, hviews⟩ := placeSection_take
    (s := Loader.record ⟨m₁, (parse_elf_header kernelPageImage).reads, [], false⟩
      (sectionReads kernelPageImage kernelPageHeader 0)) hkernel₁ halloc₁ (by decide) (by decide) hl
  rw [← hsh] at hplace
  -- The copy faults at once: the frame is not mapped at its own address.
  have hnone : s'.machine.denote 0x4000 = none := by
    have hlow : ¬ 0x4000 ≥ s'.machine.hhdm := by
      rw [hhdm']
      show ¬ 0x4000 ≥ m₁.hhdm
      rw [hgrows₁.control.hhdm]
      decide
    have hempty : view s'.machine.mem s'.machine.pml4 0x4000 = none := by
      rw [hviews 0x4000 (by decide)]
      exact hviews₁ 0x4000 (by decide)
    rw [denote_eq hkernel'.paged.tables hkernel'.active, if_neg hlow, hempty]
    rfl
  have hharmless : CopyHarmless scriptSpec s'.machine 0x4000
      (sectionAt kernelPageImage kernelPageHeader 0).size.toNat := by
    intro k hk _ q hq
    rw [hsh] at hk
    obtain rfl : k = 0 := by
      change PAGE_SIZE * k < 4 at hk
      unfold PAGE_SIZE at hk
      omega
    exact absurd (hnone.symm.trans hq) (by simp)
  obtain ⟨hkernel'', -, hsame⟩ := copyLoop_harmless kernelPageImage
    (sectionAt kernelPageImage kernelPageHeader 0).offset hkernel' hframe hharmless
  have hafter : walk after.mem after.pml4 0xFFFFFFFF80001000 = some (0x4000, 0x7) := by
    have hrun : after = (copyLoop kernelPageImage 0x4000
        (sectionAt kernelPageImage kernelPageHeader 0).offset
        (sectionAt kernelPageImage kernelPageHeader 0).size.toNat s').machine :=
      congrArg Loader.machine (loadSection_running rfl hplace)
    rw [hrun]
    rw [walk_eq_view hkernel''.paged.tables, hsame, hview, pageEntry_decode 0x7 (by decide)]
    decide
  -- The page lies above the user space, so it should have been kept.
  refine ⟨hafter, ?_⟩
  intro hkeeps
  have heq := hkeeps 0xFFFFFFFF80001000 (by decide) (Or.inl (by decide))
  rw [hafter, hbefore] at heq
  exact absurd heq (by decide)

/-- The general result on an empty kernel, with a section in the user space. -/
theorem read_elf_keeps_onePageImage :
    KeepsPages (emptyKernel [0x400000, 0x2000, 0x3000, 0x4000])
      (read_elf onePageImage false
        (emptyKernel [0x400000, 0x2000, 0x3000, 0x4000])).loader.machine := by
  refine (read_elf_keeps scriptSpec [0x1000] onePageImage _ onePageImage_kernel
    fun header h => ?_).1 fun header h => ?_
  · obtain rfl := Option.some.inj (onePageImage_parse.symm.trans h)
    exact ⟨SectionReady.harmless (onePageImage_ready onePageImage_kernel rfl rfl (by decide)), trivial⟩
  · obtain rfl := Option.some.inj (onePageImage_parse.symm.trans h)
    refine ⟨fun _ _ va hva hkey hprot => ?_, trivial⟩
    rw [onePageImage_section, pageKey_eq_iff] at hkey
    change va.toNat / 4096 % 2 ^ 36 = 0x400 at hkey
    have hlt := va.toNat_lt
    unfold Canonical at hva
    rcases hprot with habove | hused
    · have habove' : 0x00007FFFFFFFFFFF < va.toNat := UInt64.lt_iff_toNat_lt.mp habove
      omega
    · have hempty : view (fun _ => 0) 0x1000 va = none :=
        (tables_of_zero ⟨by decide, by decide, by decide⟩ fun _ => rfl).2 _ rfl _
      rw [walk_eq_view (onePageImage_kernel (n := 0)).paged.tables] at hused
      exact hused (congrArg _ hempty)

end ArgaldOS
