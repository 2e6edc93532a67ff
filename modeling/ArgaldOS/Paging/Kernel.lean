import ArgaldOS.Paging.Refinement

/-! # Running on the kernel's own tables

    After `init_paging` CR3 holds the kernel's PML4, and the rest of the kernel
    allocates frames, maps pages and writes to memory through raw pointers.
    `KernelPaging` is the invariant that all of this keeps as long as stores
    hit data frames only.

    * `kernel_kmalloc`, `kernel_map_page_cases`, `kernel_store`: what keeps it;
    * `denote_page`: a raw pointer is translated page by page;
    * `denote_sameTables`: stores outside the tables move no pointer;
    * `emptyKernel`: kernels to run examples on.
-/

namespace ArgaldOS

open TableTree

section kernel
variable {σ : Type} [PageAllocator σ] (A : AllocSpec σ)

/-! ## Section 1: The invariant -/

/-- The kernel's tables are well formed and active, and the direct map starts
    at a page boundary; the allocator promises `n` frames more. -/
structure KernelPaging (n : Nat) (owned : List UInt64) (m : Machine σ) : Prop where
  paged  : Paged A n m.pml4 owned m
  active : m.cr3 = some m.pml4
  hhdm   : PageAligned m.hhdm

/-- A frame that was handed out and is not a table. -/
structure DataFrame (owned : List UInt64) (m : Machine σ) (f : UInt64) : Prop where
  owned : f ∈ owned
  data  : ¬ Reaches nextTable m.mem.entry m.pml4 3 f

variable {A} {n : Nat} {owned : List UInt64} {m m' : Machine σ}

omit [PageAllocator σ] in
theorem DataFrame.grows {owned' : List UInt64} {f : UInt64} (hf : DataFrame owned m f)
    (h : Grows m.pml4 owned owned' m m') : DataFrame owned' m' f := by
  refine ⟨h.sub hf.owned, ?_⟩
  rw [h.control.pml4]
  exact (h.data f hf.owned hf.data).1

/-- **`kmalloc`** answers NULL and changes no frame, or hands out a data frame. -/
theorem kernel_kmalloc {phys : UInt64} (h : KernelPaging A n owned m)
    (hk : m.kmalloc = some (phys, m')) :
    SameInside owned m.mem m'.mem ∧ SameControl m m' ∧
      ((phys = 0 ∧ n = 0 ∧ KernelPaging A 0 owned m') ∨
        (phys ≠ 0 ∧ phys ∉ owned ∧ KernelPaging A (n - 1) (phys :: owned) m' ∧
          DataFrame (phys :: owned) m' phys)) := by
  unfold Machine.kmalloc at hk
  cases ha : PageAllocator.kmalloc m.hhdm m.alloc m.mem with
  | none => simp [ha] at hk
  | some r =>
    obtain ⟨f, alloc, mem⟩ := r
    obtain ⟨rfl, rfl⟩ : f = phys ∧ { m with alloc := alloc, mem := mem } = m' := by
      simpa [ha] using hk
    -- NULL, or a frame that was not handed out and so is no table.
    by_cases hf : f = 0
    · subst hf
      obtain ⟨hn, hinv, hsame⟩ := A.null h.paged.alloc ha
      have htables := tables_sameTables h.paged.tables (hsame.sameTables h.paged.tables)
      exact ⟨hsame, ⟨rfl, rfl, rfl⟩, Or.inl ⟨rfl, hn, ⟨hinv, htables⟩, h.active, h.hhdm⟩⟩
    · obtain ⟨hfresh, hunused, hinv, hsame⟩ := A.fresh h.paged.alloc ha hf
      have hsame' := hsame.sameTables h.paged.tables
      have htables := tables_sameTables h.paged.tables hsame'
      have hgood : GoodFrame (2 ^ 52) f :=
        ⟨hf, hfresh.aligned, Nat.le_trans hfresh.below A.top_le⟩
      refine ⟨hsame, ⟨rfl, rfl, rfl⟩, Or.inr ⟨hf, hunused,
        ⟨⟨hinv, htables.cons hgood⟩, h.active, h.hhdm⟩, List.mem_cons_self, fun hr => ?_⟩⟩
      exact hunused (h.paged.tables.reach f ((reaches_sameTables h.paged.tables hsame' f).mp hr))

/-- **`map_page`** maps its page and no other, or gives up and maps none. -/
theorem kernel_map_page_cases {virt_addr phys_addr flags : UInt64} (h : KernelPaging A n owned m)
    (hm : map_page virt_addr phys_addr flags m = some m') :
    ∃ owned', KernelPaging A (n - 3) owned' m' ∧ Grows m.pml4 owned owned' m m' ∧
      ((NoAllocationFailure virt_addr m ∧ ∀ va, view m'.mem m'.pml4 va =
          if pageKey va = pageKey virt_addr then leafEntry (pageEntry phys_addr flags)
          else view m.mem m.pml4 va) ∨
        (¬ NoAllocationFailure virt_addr m ∧ n < 3 ∧
          ∀ va, view m'.mem m'.pml4 va = view m.mem m.pml4 va)) := by
  have hcontrol := map_page_control hm
  have hkeep : ∀ {k : Nat} {owned' : List UInt64}, Paged A k m.pml4 owned' m' →
      KernelPaging A k owned' m' := by
    intro k owned' hpaged
    refine ⟨?_, ?_, ?_⟩
    · rw [hcontrol.pml4]
      exact hpaged
    · rw [hcontrol.cr3, hcontrol.pml4]
      exact h.active
    · rw [hcontrol.hhdm]
      exact h.hhdm
  rw [hcontrol.pml4]
  rcases map_page_cases h.paged rfl hm with
    ⟨hno, owned', hmapped⟩ | ⟨hfail, hn, owned', hpaged, hleaves, hgrows⟩
  · refine ⟨owned', hkeep hmapped.paged, hmapped.grows, Or.inl ⟨hno, fun va => ?_⟩⟩
    simp only [pageKey_eq_iff_paths]
    exact hmapped.leaves _ rfl _
  · exact ⟨owned', hkeep (hpaged.mono (by omega)), hgrows,
      Or.inr ⟨hfail, hn, fun va => hleaves _ rfl _⟩⟩

/-- **`map_page`** may take frames for tables, keeps the data frames and the
    translations of other pages. -/
theorem kernel_map_page {virt_addr phys_addr flags : UInt64} (h : KernelPaging A n owned m)
    (hm : map_page virt_addr phys_addr flags m = some m') :
    ∃ owned', KernelPaging A (n - 3) owned' m' ∧ Grows m.pml4 owned owned' m m' ∧
      (3 ≤ n → view m'.mem m'.pml4 virt_addr = leafEntry (pageEntry phys_addr flags)) ∧
      ∀ va, pageKey va ≠ pageKey virt_addr → view m'.mem m'.pml4 va = view m.mem m.pml4 va := by
  obtain ⟨owned', hkernel', hgrows, ⟨-, hviews⟩ | ⟨-, hn, hviews⟩⟩ := kernel_map_page_cases h hm
  · refine ⟨owned', hkernel', hgrows, fun _ => ?_, fun va hva => ?_⟩
    · rw [hviews, if_pos rfl]
    · rw [hviews, if_neg hva]
  · exact ⟨owned', hkernel', hgrows, fun h3 => by omega, fun va _ => hviews va⟩

omit [PageAllocator σ] in
/-- A store to a data frame is outside the tables. -/
theorem sameTables_of_dataFrame {f : UInt64} {mem : Mem} (htables : Tables m.pml4 owned m.mem)
    (hf : DataFrame owned m f) (hmem : ∀ x, ¬ InFrame f x → mem x = m.mem x) :
    SameTables m.pml4 m.mem mem := by
  intro g hg x hx
  apply hmem
  intro hfx
  have hga := (htables.good g (htables.reach g hg)).aligned
  have hfa := (htables.good f hf.owned).aligned
  exact hf.data (inFrame_unique hga hfa hx hfx ▸ hg)

/-- **Stores to a data frame** keep the invariant. -/
theorem kernel_store {f : UInt64} {mem : Mem} (h : KernelPaging A n owned m)
    (hf : DataFrame owned m f) (hmem : ∀ x, ¬ InFrame f x → mem x = m.mem x) :
    KernelPaging A n owned { m with mem := mem } := by
  have hsame := sameTables_of_dataFrame h.paged.tables hf hmem
  refine ⟨⟨A.stable h.paged.alloc fun x hx => hmem x (hx f hf.owned),
    tables_sameTables h.paged.tables hsame⟩, h.active, h.hhdm⟩

/-! ## Section 2: Raw pointers -/

omit [PageAllocator σ] in
theorem denote_eq {owned : List UInt64} (htables : Tables m.pml4 owned m.mem)
    (hactive : m.cr3 = some m.pml4) (ptr : UInt64) :
    m.denote ptr =
      if ptr ≥ m.hhdm then some (ptr - m.hhdm)
      else if ¬ Canonical ptr then none
      else (view m.mem m.pml4 ptr).map fun e => (e &&& frameMask) + (ptr &&& 0xFFF) := by
  unfold Machine.denote
  rw [hactive]
  simp only [Option.bind_eq_bind, Option.bind_some, walk_eq_view htables]
  cases view m.mem m.pml4 ptr <;> rfl

omit [PageAllocator σ] in
/-- **Stores outside the tables move no pointer.** -/
theorem denote_sameTables {mem : Mem} (htables : Tables m.pml4 owned m.mem)
    (hactive : m.cr3 = some m.pml4) (hsame : SameTables m.pml4 m.mem mem) (ptr : UInt64) :
    ({ m with mem := mem } : Machine σ).denote ptr = m.denote ptr := by
  have htables' : Tables m.pml4 owned mem := tables_sameTables htables hsame
  rw [denote_eq htables hactive]
  apply (denote_eq (m := { m with mem := mem }) htables' hactive ptr).trans
  have hview : view mem m.pml4 ptr = view m.mem m.pml4 ptr :=
    leafOf_sameTables htables hsame _ rfl _
  show (if ptr ≥ m.hhdm then _ else if ¬ Canonical ptr then _ else (view mem m.pml4 ptr).map _) = _
  rw [hview]

/-- An aligned address and an offset into its page. -/
theorem toNat_page_add {p i : UInt64} (hp : PageAligned p) (hi : i.toNat < PAGE_SIZE) :
    (p + i).toNat = p.toNat + i.toNat := by
  have hlt := p.toNat_lt
  unfold PageAligned PAGE_SIZE at *
  exact Words.toNat_add_lt p i (by omega)

/-- **A raw pointer is translated page by page.** -/
theorem denote_page (h : KernelPaging A n owned m) {p i : UInt64} (hp : PageAligned p)
    (hi : i.toNat < PAGE_SIZE) : m.denote (p + i) = (m.denote p).map (· + i) := by
  have hadd := toNat_page_add hp hi
  have hlt := (p + i).toNat_lt
  have hhdm := h.hhdm
  -- The same page, so the same leaf entry.
  have hpage : pageKey (p + i) = pageKey p := by
    rw [pageKey_eq_iff, hadd]
    unfold PAGE_SIZE at hi
    unfold PageAligned PAGE_SIZE at hp
    omega
  have hview : view m.mem m.pml4 (p + i) = view m.mem m.pml4 p := by
    obtain ⟨hpath, hidx⟩ := (pageKey_eq_iff_paths _ _).mp hpage
    unfold view
    rw [hpath, hidx]
  have hoff : (p + i) &&& 0xFFF = i := by
    apply Words.ext
    unfold PAGE_SIZE at hi
    unfold PageAligned PAGE_SIZE at hp
    rw [toNat_and_fff, hadd]
    omega
  -- The direct map starts at a page boundary.
  have hge : p + i ≥ m.hhdm ↔ p ≥ m.hhdm := by
    show m.hhdm ≤ p + i ↔ m.hhdm ≤ p
    rw [UInt64.le_iff_toNat_le, UInt64.le_iff_toNat_le, hadd]
    unfold PageAligned PAGE_SIZE at *
    omega
  have hcanon : Canonical (p + i) ↔ Canonical p := by
    unfold Canonical
    rw [hadd]
    unfold PAGE_SIZE at hi
    unfold PageAligned PAGE_SIZE at hp
    omega
  rw [denote_eq h.paged.tables h.active, denote_eq h.paged.tables h.active, hview, hoff,
    pageAligned_and_fff.mpr hp]
  by_cases hdirect : p ≥ m.hhdm
  · rw [if_pos hdirect, if_pos (hge.mpr hdirect), Option.map_some]
    congr 1
    grind
  · rw [if_neg hdirect, if_neg (fun hc => hdirect (hge.mp hc))]
    by_cases hc : Canonical p
    · rw [if_neg (not_not.mpr hc), if_neg (not_not.mpr (hcanon.mpr hc)), Option.map_map]
      congr 1
      funext e
      show _ = (e &&& frameMask) + 0 + i
      rw [UInt64.add_zero]
    · rw [if_pos hc, if_pos (fun hc' => hc (hcanon.mp hc'))]
      rfl

/-- What an aligned pointer denotes is aligned. -/
theorem denote_aligned (h : KernelPaging A n owned m) {p q : UInt64} (hp : PageAligned p)
    (hq : m.denote p = some q) : PageAligned q := by
  have hhdm := h.hhdm
  rw [denote_eq h.paged.tables h.active] at hq
  by_cases hdirect : p ≥ m.hhdm
  · rw [if_pos hdirect] at hq
    obtain rfl := Option.some.inj hq
    have hle := UInt64.le_iff_toNat_le.mp hdirect
    unfold PageAligned PAGE_SIZE at *
    rw [Words.toNat_sub_le p m.hhdm hle]
    omega
  · rw [if_neg hdirect] at hq
    by_cases hc : Canonical p
    · rw [if_neg (not_not.mpr hc)] at hq
      obtain ⟨e, -, rfl⟩ := Option.map_eq_some_iff.mp hq
      rw [pageAligned_and_fff.mpr hp, UInt64.add_zero]
      unfold PageAligned PAGE_SIZE
      rw [toNat_and_frameMask]
      omega
    · rw [if_pos hc] at hq
      cases hq

end kernel

/-! ## Section 3: Kernels with empty tables -/

/-- Where a pointer to a page goes that `map_page` has mapped. -/
theorem denote_of_view {σ : Type} [PageAllocator σ] {A : AllocSpec σ} {n : Nat}
    {owned : List UInt64} {m : Machine σ} {va phys flags : UInt64} (h : KernelPaging A n owned m)
    (hva : PageAligned va) (hcanon : Canonical va) (hlow : ¬ va ≥ m.hhdm) (hp : PageAligned phys)
    (hplt : phys.toNat < 2 ^ 52)
    (hview : view m.mem m.pml4 va = leafEntry (pageEntry phys flags)) :
    m.denote va = some phys := by
  have hoff : va &&& 0xFFF = 0 := pageAligned_and_fff.mpr hva
  -- The frame that the hardware reads from the entry.
  have hdecode := congrArg (Option.map Prod.fst) (pageEntry_decode flags hplt)
  rw [Option.map_map, Option.map_some, pageOf_of_aligned hp] at hdecode
  rw [denote_eq h.paged.tables h.active, if_neg hlow, if_neg (not_not.mpr hcanon), hview, hoff]
  refine Eq.trans ?_ hdecode
  congr 1
  funext e
  exact UInt64.add_zero _

/-- A kernel that runs on an empty PML4, with the given answers of `kmalloc`. -/
def emptyKernel (answers : List UInt64) : Machine (List UInt64) where
  mem   := fun _ => 0
  hhdm  := 0xFFFF800000000000
  alloc := answers
  pml4  := 0x1000
  early_page_tables := []
  cr3   := some 0x1000

theorem emptyKernel_paging {n : Nat} {answers : List UInt64}
    (h : FreshScript n answers [0x1000]) :
    KernelPaging scriptSpec n [0x1000] (emptyKernel answers) := by
  have hgood : GoodFrame (2 ^ 52) 0x1000 := ⟨by decide, by decide, by decide⟩
  have hhdm : PageAligned 0xFFFF800000000000 := by decide
  exact ⟨⟨h, (tables_of_zero hgood fun _ => rfl).1⟩, rfl, hhdm⟩

/-- A walker that finds its entry absent takes the next answer. -/
theorem get_next_table_take {s : Machine (List UInt64)} {f a : UInt64} {rest : List UInt64}
    {i : Fin 512} (hf : PageAligned f) (ha : PageAligned a) (hne : a ≠ 0)
    (habsent : s.mem.entry f i &&& PAGE_PRESENT = 0) (halloc : s.alloc = a :: rest) :
    ∃ s', get_next_table f i true s = some (a, s') ∧ s'.alloc = rest ∧
      ∀ j, a ≠ f → s'.mem.entry a j = 0 := by
  obtain ⟨mem, hmem, hzero⟩ : ∃ mem,
      alloc_table s = some (a, { s with alloc := rest, mem := mem }) ∧
        ∀ j, mem.entry a j = 0 := by
    refine ⟨_, ?_, (zeroTable_entry s.hhdm ha (s.mem.hstore64 s.hhdm (a + s.hhdm) 0xdeadbeef)).1⟩
    unfold alloc_table Machine.kmalloc
    rw [halloc]
    simp [PageAllocator.kmalloc, hne]
  let s₁ : Machine (List UInt64) := { s with alloc := rest, mem := mem }
  have hearly : (add_early_page_table a s₁).mem = mem ∧ (add_early_page_table a s₁).alloc = rest := by
    unfold add_early_page_table
    split <;> exact ⟨rfl, rfl⟩
  refine ⟨(add_early_page_table a s₁).writeEntry f i
    (a ||| PAGE_PRESENT ||| PAGE_RW ||| PAGE_USER), ?_, hearly.2, fun j hj => ?_⟩
  · unfold get_next_table
    simp only [readEntry_eq, habsent, if_true, Bool.not_true, Bool.false_eq_true, if_false, hmem,
      Option.bind_eq_bind, Option.bind_some, hne]
    rfl
  · rw [writeEntry_eq]
    show ((add_early_page_table a s₁).mem.store64 (slot f i) _).entry a j = 0
    rw [hearly.1, Mem.entry_store64 mem f a i j _ hf ha, if_neg (fun h => hj h.1), hzero j]

/-- On an empty PML4 `map_page` takes three answers. -/
theorem map_page_take {s : Machine (List UInt64)} {a b c : UInt64} {rest : List UInt64}
    (virt_addr phys_addr flags : UInt64) (hroot : PageAligned s.pml4)
    (habsent : ∀ j, s.mem.entry s.pml4 j = 0) (halloc : s.alloc = a :: b :: c :: rest)
    (ha : PageAligned a ∧ a ≠ 0 ∧ a ≠ s.pml4) (hb : PageAligned b ∧ b ≠ 0 ∧ b ≠ a)
    (hc : PageAligned c ∧ c ≠ 0) :
    ∃ s', map_page virt_addr phys_addr flags s = some s' ∧ s'.alloc = rest := by
  -- Each level finds a fresh, empty table.
  obtain ⟨s₁, h₁, ha₁, hz₁⟩ := get_next_table_take (i := pml4_idx virt_addr) hroot ha.1 ha.2.1
    (by rw [habsent]; rfl) halloc
  obtain ⟨s₂, h₂, ha₂, hz₂⟩ := get_next_table_take (i := pdpt_idx virt_addr) ha.1 hb.1 hb.2.1
    (by rw [hz₁ _ ha.2.2]; rfl) ha₁
  obtain ⟨s₃, h₃, ha₃, -⟩ := get_next_table_take (i := pd_idx virt_addr) hb.1 hc.1 hc.2
    (by rw [hz₂ _ hb.2.2]; rfl) ha₂
  refine ⟨s₃.writeEntry c (pt_idx virt_addr) (pageEntry phys_addr flags), ?_, ha₃⟩
  simp [map_page, pageEntry, h₁, h₂, h₃, ha.2.1, hb.2.1, hc.2]

end ArgaldOS
