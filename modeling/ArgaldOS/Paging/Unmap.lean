import ArgaldOS.Paging.Rights

/-! # Unmapping pages

    `unmap_page` walks down to the leaf table as `map_page` does, but stores
    through the raw pointer to the entry instead of the direct map.  The store
    hits the entry only if the table is mapped to itself.

    * `unmap_page_absent`, `unmap_page_present`: all that `unmap_page` can do;
    * `CleanLeaves`: a leaf entry that is not present is zero;
    * `unmap_page_correct`: if the leaf table is mapped to itself, `unmap_page`
      removes its page and nothing else;
    * `unmap_page_run`: so it does in every run after `init_paging` in which
      the tables are where the raw pointers lead;
    * `unmap_page_faults_memmap16MiB`: a kernel with its free memory above the
      first 2 MiB faults on its first page.
-/

namespace ArgaldOS

open TableTree Runs

/-! ## Section 1: What `unmap_page` does -/

section cases
variable {σ : Type} [PageAllocator σ] {owned : List UInt64} {s : Machine σ}

/-- A walker that must not create tables looks one up. -/
theorem get_next_table_lookup (f : UInt64) (i : Fin 512) (s : Machine σ) :
    get_next_table f i false s = some ((nextTable (s.mem.entry f i)).getD 0, s) := by
  unfold get_next_table nextTable
  simp only [readEntry_eq, Bool.not_false, if_true]
  by_cases hp : s.mem.entry f i &&& PAGE_PRESENT = 0
  · rw [if_pos hp, if_pos hp]
    rfl
  · rw [if_neg hp, if_neg hp]
    rfl

omit [PageAllocator σ] in
/-- A table on the path of `vaddr`, one level further down. -/
theorem lookup_ne_zero {f g : UInt64} {p : List (Fin 512)} {i : Fin 512}
    (htab : Tables s.pml4 owned s.mem) (hlen : p.length < 3)
    (hpath : follow nextTable s.mem.entry s.pml4 p = some f)
    (hnext : nextTable (s.mem.entry f i) = some g) :
    follow nextTable s.mem.entry s.pml4 (p ++ [i]) = some g ∧ g ≠ 0 := by
  have hfollow : follow nextTable s.mem.entry s.pml4 (p ++ [i]) = some g := by
    rw [follow_snoc, hpath]
    exact hnext
  have hreach : g ∈ owned := htab.reach g ⟨p ++ [i], by simp; omega, hfollow⟩
  exact ⟨hfollow, (htab.good g hreach).ne_zero⟩

/-- **All that `unmap_page` can do**: return if a table is missing, or store
    through the raw pointer to the leaf entry. -/
theorem unmap_page_eq (htab : Tables s.pml4 owned s.mem) (vaddr : UInt64) :
    unmap_page vaddr s =
      match follow nextTable s.mem.entry s.pml4 (tablePath vaddr) with
      | none => some s
      | some pt => (s.denote (slot pt (pt_idx vaddr))).map fun q =>
          { s with mem := s.mem.store64 q 0 } := by
  unfold unmap_page tablePath
  simp only [get_next_table_lookup, Option.bind_eq_bind, Option.bind_some]
  -- NULL is returned for a missing table, and only for that.
  cases h4 : nextTable (s.mem.entry s.pml4 (pml4_idx vaddr)) with
  | none => simp [follow, h4]
  | some pdpt =>
    obtain ⟨hpath4, hne4⟩ := lookup_ne_zero (p := []) htab (by simp) rfl h4
    simp only [Option.getD_some, hne4, if_false]
    cases h3 : nextTable (s.mem.entry pdpt (pdpt_idx vaddr)) with
    | none => simp [follow, h4, h3]
    | some pd =>
      obtain ⟨hpath3, hne3⟩ := lookup_ne_zero htab (by simp) hpath4 h3
      simp only [Option.getD_some, hne3, if_false]
      cases h2 : nextTable (s.mem.entry pd (pd_idx vaddr)) with
      | none => simp [follow, h4, h3, h2]
      | some pt =>
        obtain ⟨-, hne2⟩ := lookup_ne_zero htab (by simp) hpath3 h2
        simp only [Option.getD_some, hne2, if_false, follow, h4, h3, h2, Option.bind_some]
        cases hd : s.denote (slot pt (pt_idx vaddr)) with
        | none =>
          change s.denote (pt + 8 * UInt64.ofNat (pt_idx vaddr).val) = none at hd
          rw [hd]
          rfl
        | some q =>
          change s.denote (pt + 8 * UInt64.ofNat (pt_idx vaddr).val) = some q at hd
          rw [hd]
          rfl

end cases

/-! ## Section 2: Clean leaf entries -/

/-- A leaf entry that is not all zero. -/
def usedEntry (e : UInt64) : Option UInt64 := if e = 0 then none else some e

/-- Every leaf entry is zero or present. -/
def CleanLeaves (root : UInt64) (m : Mem) : Prop :=
  ∀ p j e, p.length = 3 → leafAt nextTable usedEntry m.entry root p j = some e →
    e &&& PAGE_PRESENT ≠ 0

/-- An entry that a leaf table may hold. -/
def CleanEntry (e : UInt64) : Prop := e = 0 ∨ e &&& PAGE_PRESENT ≠ 0

section clean
variable {σ : Type} [PageAllocator σ] {A : AllocSpec σ}
variable {n : Nat} {root : UInt64} {owned : List UInt64} {s s' : Machine σ}

omit [PageAllocator σ] in
/-- A clean entry that is not present is zero. -/
theorem CleanLeaves.zero {m : Mem} {p : List (Fin 512)} {f : UInt64} {i : Fin 512}
    (h : CleanLeaves root m) (hlen : p.length = 3) (hpath : follow nextTable m.entry root p = some f)
    (habsent : m.entry f i &&& PAGE_PRESENT = 0) : m.entry f i = 0 := by
  by_contra hne
  refine h p i (m.entry f i) hlen ?_ habsent
  unfold leafAt
  rw [hpath]
  show usedEntry (m.entry f i) = _
  unfold usedEntry
  rw [if_neg hne]

omit [PageAllocator σ] in
theorem cleanLeaves_of_zero {m : Mem} (hzero : ∀ j, m.entry root j = 0) : CleanLeaves root m := by
  intro p j e hlen he
  exfalso
  cases p with
  | nil => simp at hlen
  | cons i p =>
    unfold leafAt follow at he
    rw [hzero i] at he
    cases he

omit [PageAllocator σ] in
theorem CleanLeaves.sameTables {m m' : Mem} (h : CleanLeaves root m) (htab : Tables root owned m)
    (hsame : SameTables root m m') : CleanLeaves root m' := by
  intro p j e hlen he
  rw [leafAt_sameTables usedEntry htab hsame p (Nat.le_of_eq hlen)] at he
  exact h p j e hlen he

/-- Linking a table changes no leaf entry. -/
theorem CleanLeaves.link {flags : UInt64} {s₁ : Machine σ} {t f : UInt64} {p : List (Fin 512)}
    {i : Fin 512} (h : CleanLeaves root s.mem) (htab : Tables root owned s.mem)
    (hfresh : FreshTable A n owned s s₁ t)
    (hpath : follow nextTable s.mem.entry root p = some f) (hlen : p.length < 3)
    (habsent : s.mem.entry f i &&& PAGE_PRESENT = 0) (hflags : flags.toNat < 8)
    (hpresent : flags.toNat % 2 = 1) :
    CleanLeaves root (s₁.writeEntry f i (t ||| flags)).mem := by
  obtain ⟨hlink, hblank, -⟩ := link_writeEntry flags htab hfresh hpath hlen habsent hflags hpresent
  intro q j e hq he
  have hempty : ∀ k, usedEntry ((s₁.writeEntry f i (t ||| flags)).mem.entry t k) = none := by
    intro k
    rw [hblank k]
    rfl
  rw [leafAt_link hlink htab.unshared hempty q hq j] at he
  exact h q j e hq he

omit [PageAllocator σ] in
/-- Writing a clean leaf entry. -/
theorem CleanLeaves.setLeaf {f e : UInt64} {p : List (Fin 512)} {i : Fin 512}
    (h : CleanLeaves root s.mem) (htab : Tables root owned s.mem)
    (hpath : follow nextTable s.mem.entry root p = some f) (hlen : p.length = 3)
    (he : CleanEntry e) : CleanLeaves root (s.writeEntry f i e).mem := by
  have hset := setLeaf_writeEntry (s := s) (i := i) (e := e) htab hpath hlen
  intro q j e' hq he'
  rw [leafAt_setLeaf hset htab.unshared q (Nat.le_of_eq hq) j] at he'
  by_cases hqj : q = p ∧ j = i
  · rw [if_pos hqj] at he'
    unfold usedEntry at he'
    split at he'
    · cases he'
    · obtain rfl := Option.some.inj he'
      rcases he with hz | hp
      · contradiction
      · exact hp
  · rw [if_neg hqj] at he'
    exact h q j e' hq he'

theorem ensure_table_clean {p : List (Fin 512)} {f g : UInt64} {i : Fin 512}
    (h : CleanLeaves root s.mem) (hpaged : Paged A n root owned s) (hg : g ≠ 0)
    (hpath : follow nextTable s.mem.entry root p = some f) (hlen : p.length < 3)
    (hget : ensure_table f i s = some (g, s')) : CleanLeaves root s'.mem := by
  rcases ensure_table_cases hpaged hg hget with ⟨-, -, rfl⟩ | ⟨hp, s₁, hfresh, rfl⟩
  · exact h
  · exact h.link hpaged.tables hfresh hpath hlen hp (by decide) (by decide)

theorem get_next_table_clean {p : List (Fin 512)} {f g : UInt64} {i : Fin 512}
    (h : CleanLeaves root s.mem) (hpaged : Paged A n root owned s)
    (hpath : follow nextTable s.mem.entry root p = some f) (hlen : p.length < 3)
    (hget : get_next_table f i true s = some (g, s')) : CleanLeaves root s'.mem := by
  rcases get_next_table_cases hpaged hget with
    ⟨-, -, rfl⟩ | ⟨-, hnone⟩ | ⟨hp, -, s₁, hfresh, hmem, -⟩
  · exact h
  · exact h.sameTables hpaged.tables (hnone.same.sameTables hpaged.tables)
  · rw [hmem]
    exact h.link hpaged.tables hfresh hpath hlen hp (by decide) (by decide)

theorem map_leaf_clean {vaddr e : UInt64} (hclean : CleanLeaves root s.mem)
    (hpaged : Paged A n root owned s) (halloc : LeafAllocated root vaddr s) (he : CleanEntry e)
    (h : map_leaf root vaddr e s = some s') : CleanLeaves root s'.mem := by
  obtain ⟨owned', pt, t, hlinked, hclean', rfl⟩ :=
    map_leaf_rule (fun _ t => CleanLeaves root t.mem) hpaged halloc hclean
      (fun p f i t g t' k owned₁ hlen l₁ hc hget hg =>
        ensure_table_clean hc l₁.paged hg l₁.path hlen hget) h
  exact hclean'.setLeaf hlinked.paged.tables hlinked.path rfl he

theorem mapLeaves_clean {ws : List LeafWrite} (hclean : CleanLeaves root s.mem)
    (hpaged : Paged A n root owned s) (halloc : LeavesAllocated root s ws)
    (hws : ∀ w ∈ ws, CleanEntry w.entry) (h : mapLeaves root ws s = some s') :
    CleanLeaves root s'.mem := by
  induction ws generalizing s owned n with
  | nil =>
    obtain rfl := Option.some.inj h
    exact hclean
  | cons w ws ih =>
    obtain ⟨s₁, h₁, h₂⟩ := Option.bind_eq_some_iff.mp h
    obtain ⟨hleaf, hrest⟩ := halloc
    obtain ⟨⟨owned₁, hm⟩, -⟩ := map_leaf_spec hpaged hleaf h₁
    exact ih (map_leaf_clean hclean hpaged hleaf (hws w List.mem_cons_self) h₁) hm.paged
      (hrest s₁ h₁) (fun w' hw' => hws w' (List.mem_cons_of_mem _ hw')) h₂

theorem map_page_clean {vaddr phys_addr flags : UInt64} (hclean : CleanLeaves root s.mem)
    (hpaged : Paged A n root owned s) (hroot : s.pml4 = root)
    (h : map_page vaddr phys_addr flags s = some s') : CleanLeaves root s'.mem := by
  -- Linking tables and a NULL answer both leave the leaf entries alone.
  rcases map_page_rule (fun _ t => CleanLeaves root t.mem) hpaged hroot hclean
    (fun p f i t g t' k owned₁ hlen l₁ hc hget =>
      get_next_table_clean hc l₁.paged l₁.path hlen hget) h with
    ⟨-, owned', pt, t, hlinked, hclean', rfl⟩ | ⟨-, -, ⟨-, -, hclean'⟩, -⟩
  · exact hclean'.setLeaf hlinked.paged.tables hlinked.path rfl (Or.inr (or_present _))
  · exact hclean'

end clean

/-! The writes of `init_paging` are clean. -/

/-- A sequence of writes, if there is one, writes clean entries. -/
def CleanWrites (ws : Option (List LeafWrite)) : Prop :=
  ∀ l, ws = some l → ∀ w ∈ l, CleanEntry w.entry

theorem cleanWrites_nil : CleanWrites (some []) := by
  intro l hl w hw
  rw [← Option.some.inj hl] at hw
  cases hw

theorem cleanWrites_both (hhdm addr : UInt64) : CleanWrites (some (bothWrites hhdm addr)) := by
  have hentry : addr ||| PAGE_PRESENT ||| PAGE_RW = addr ||| PAGE_RW ||| PAGE_PRESENT := by
    rw [UInt64.or_assoc, UInt64.or_comm PAGE_PRESENT, ← UInt64.or_assoc]
  intro l hl w hw
  rw [← Option.some.inj hl, bothWrites, hentry] at hw
  rcases List.mem_pair.mp hw with rfl | rfl
  · exact Or.inr (or_present _)
  · exact Or.inr (or_present _)

theorem cleanWrites_range (hhdm virt_end flags : UInt64) (rounds : Nat) (vaddr : UInt64) :
    CleanWrites (rangeWrites hhdm virt_end flags rounds vaddr) := by
  induction rounds generalizing vaddr with
  | zero => exact fun l hl => by cases hl
  | succ rounds ih =>
    unfold rangeWrites
    split
    · intro l hl w hw
      obtain ⟨rest, hrest, rfl⟩ := Option.map_eq_some_iff.mp hl
      rcases List.mem_cons.mp hw with rfl | hw
      · exact Or.inr (or_present _)
      · exact ih _ rest hrest w hw
    · exact cleanWrites_nil

theorem cleanWrites_stack (hhdm last : UInt64) (rounds : Nat) (addr : UInt64) :
    CleanWrites (stackWrites hhdm last rounds addr) := by
  induction rounds generalizing addr with
  | zero => exact fun l hl => by cases hl
  | succ rounds ih =>
    unfold stackWrites
    split
    · intro l hl w hw
      obtain ⟨rest, hrest, rfl⟩ := Option.map_eq_some_iff.mp hl
      rcases List.mem_append.mp hw with hw | hw
      · exact cleanWrites_both hhdm addr _ rfl w hw
      · exact ih _ rest hrest w hw
    · exact cleanWrites_nil

theorem cleanWrites_seq {a b : Option (List LeafWrite)} (ha : CleanWrites a) (hb : CleanWrites b) :
    CleanWrites (seqWrites a b) := by
  intro l hl w hw
  unfold seqWrites at hl
  obtain ⟨x, hx, hl⟩ := Option.bind_eq_some_iff.mp hl
  obtain ⟨y, hy, rfl⟩ := Option.map_eq_some_iff.mp hl
  rcases List.mem_append.mp hw with hw | hw
  · exact ha x hx w hw
  · exact hb y hy w hw

theorem cleanWrites_windows {hhdm : UInt64} (windows : List (UInt64 × UInt64))
    {rest : Option (List LeafWrite)} (hrest : CleanWrites rest) :
    CleanWrites (windowWrites hhdm windows rest) := by
  induction windows with
  | nil =>
    rw [windowWrites_nil]
    exact hrest
  | cons w windows ih =>
    rw [windowWrites_cons]
    exact cleanWrites_seq (cleanWrites_range _ _ _ _ _) ih

theorem cleanWrites_init (hhdm code_addr rsp pml4 : UInt64) :
    CleanWrites (initWrites hhdm code_addr rsp pml4) := by
  -- From the last writes back to the first.
  have hearly : CleanWrites (windowWrites hhdm (earlyWindows hhdm pml4) (some [])) :=
    cleanWrites_windows _ cleanWrites_nil
  have hstack := cleanWrites_seq (cleanWrites_stack hhdm (pageOf rsp + 0x4000) allRounds
    (pageOf rsp - 0x4000)) (cleanWrites_seq (cleanWrites_both hhdm pml4) hearly)
  exact cleanWrites_windows _ (cleanWrites_seq (cleanWrites_both hhdm (pageOf code_addr)) hstack)

/-! ## Section 3: Runs after `init_paging` -/

/-- A call that changes the kernel's tables. -/
inductive PagingCall where
  | map_page (virt_addr phys_addr flags : UInt64) : PagingCall
  | unmap_page (virt_addr : UInt64) : PagingCall

section runs
variable {σ : Type} [PageAllocator σ]

/-- A call on the machine; `none` is a page fault, or a call of the allocator
    that never returns. -/
def pagingStep (s : Machine σ) : PagingCall → Option (Machine σ)
  | .map_page virt_addr phys_addr flags => map_page virt_addr phys_addr flags s
  | .unmap_page virt_addr => unmap_page virt_addr s

/-- The raw pointer to the leaf entry of `vaddr` leads to that entry, if there
    is a leaf table at all: the table is mapped to itself. -/
def LeafMapped (vaddr : UInt64) (s : Machine σ) : Prop :=
  ∀ pt, follow nextTable s.mem.entry s.pml4 (tablePath vaddr) = some pt →
    s.denote (slot pt (pt_idx vaddr)) = some (slot pt (pt_idx vaddr))

/-- `unmap_page` does not fault, removes the page of `vaddr` and no other, and
    changes nothing at all if there is no such page. -/
def UnmapsPage (vaddr : UInt64) (s : Machine σ) : Prop :=
  ∃ s', unmap_page vaddr s = some s' ∧ walk s'.mem s'.pml4 vaddr = none ∧
    (∀ va, Canonical va → pageOf va ≠ pageOf vaddr →
      walk s'.mem s'.pml4 va = walk s.mem s.pml4 va) ∧
    (walk s.mem s.pml4 vaddr = none → s' = s)

/-- The condition on the state before a call. -/
def CallReady (s : Machine σ) : PagingCall → Prop
  | .map_page _ _ _ => True
  | .unmap_page virt_addr => LeafMapped virt_addr s

/-- What is expected of a call. -/
def CallCorrect (s : Machine σ) : PagingCall → Prop
  | .map_page _ _ _ => True
  | .unmap_page virt_addr => Canonical virt_addr → UnmapsPage virt_addr s

variable {A : AllocSpec σ} {n : Nat} {owned : List UInt64} {s s' : Machine σ}

/-- The invariant of the runs: the kernel runs on well-formed tables whose leaf
    entries are clean. -/
def CleanPaging (A : AllocSpec σ) (s : Machine σ) : Prop :=
  ∃ n owned, KernelPaging A n owned s ∧ CleanLeaves s.pml4 s.mem

/-- **If the leaf table is mapped to itself**, `unmap_page` clears the entry. -/
theorem unmap_page_correct {vaddr : UInt64} (hkernel : KernelPaging A n owned s)
    (hclean : CleanLeaves s.pml4 s.mem) (hself : LeafMapped vaddr s) :
    ∃ s', unmap_page vaddr s = some s' ∧ KernelPaging A n owned s' ∧
      CleanLeaves s'.pml4 s'.mem ∧ view s'.mem s'.pml4 vaddr = none ∧
      (∀ va, pageKey va ≠ pageKey vaddr → view s'.mem s'.pml4 va = view s.mem s.pml4 va) ∧
      (view s.mem s.pml4 vaddr = none → s' = s) := by
  have htab := hkernel.paged.tables
  rw [unmap_page_eq htab]
  cases hpath : follow nextTable s.mem.entry s.pml4 (tablePath vaddr) with
  | none =>
    have hnone : view s.mem s.pml4 vaddr = none := by
      unfold view leafOf leafAt
      rw [hpath]
      rfl
    exact ⟨s, rfl, hkernel, hclean, hnone, fun _ _ => rfl, fun _ => rfl⟩
  | some pt =>
    -- The store through the raw pointer is one of the leaf entry 0.
    have hwrite : s.writeEntry pt (pt_idx vaddr) 0 =
        { s with mem := s.mem.store64 (slot pt (pt_idx vaddr)) 0 } := writeEntry_eq s pt _ 0
    obtain ⟨hpaged, hleaves, -⟩ :=
      paged_setLeaf (i := pt_idx vaddr) (e := 0) hkernel.paged hpath rfl
    have hclean' := hclean.setLeaf (i := pt_idx vaddr) htab hpath rfl (Or.inl rfl)
    rw [hwrite] at hpaged hleaves hclean'
    simp only [hself pt hpath, Option.map_some]
    refine ⟨_, rfl, ⟨hpaged, hkernel.active, hkernel.hhdm⟩, hclean', ?_, fun va hva => ?_,
      fun hnone => ?_⟩
    · show leafOf _ _ (tablePath vaddr) (pt_idx vaddr) = none
      rw [hleaves _ rfl, if_pos ⟨rfl, rfl⟩]
      rfl
    · show leafOf _ _ (tablePath va) (pt_idx va) = _
      rw [hleaves _ rfl, if_neg (fun hc => hva ((pageKey_eq_iff_paths _ _).mpr hc))]
      rfl
    · -- The entry was absent, so it was zero.
      have habsent : s.mem.entry pt (pt_idx vaddr) &&& PAGE_PRESENT = 0 := by
        by_contra hp
        unfold view leafOf leafAt at hnone
        rw [hpath] at hnone
        change leafEntry (s.mem.entry pt (pt_idx vaddr)) = none at hnone
        unfold leafEntry at hnone
        rw [if_neg hp] at hnone
        cases hnone
      have hzero : s.mem.load64 (slot pt (pt_idx vaddr)) = 0 := hclean.zero rfl hpath habsent
      rw [Mem.store64_zero _ _ hzero]

/-- Step lemma: a call that is ready does what is expected. -/
theorem callCorrect_of_ready {c : PagingCall} (h : CleanPaging A s) (hready : CallReady s c) :
    CallCorrect s c := by
  obtain ⟨n, owned, hkernel, hclean⟩ := h
  cases c with
  | map_page virt_addr phys_addr flags => trivial
  | unmap_page virt_addr =>
    intro hcanon
    obtain ⟨s', hs', hkernel', -, hgone, hothers, hsame⟩ :=
      unmap_page_correct hkernel hclean hready
    have hwalk := walk_eq_view hkernel.paged.tables
    have hwalk' := walk_eq_view hkernel'.paged.tables
    -- The hardware walk reads the leaf entries.
    refine ⟨s', hs', ?_, fun va hva hpage => ?_, fun hnone => hsame ?_⟩
    · rw [hwalk', hgone]
      rfl
    · rw [hwalk', hwalk, hothers va fun hkey => hpage ((pageKey_eq_iff_pageOf hva hcanon).mp hkey)]
    · rw [hwalk] at hnone
      exact Option.map_eq_none_iff.mp hnone

/-- Step lemma: a call that is ready keeps the invariant. -/
theorem cleanPaging_step {c : PagingCall} (h : CleanPaging A s) (hready : CallReady s c)
    (hstep : pagingStep s c = some s') : CleanPaging A s' := by
  obtain ⟨n, owned, hkernel, hclean⟩ := h
  cases c with
  | map_page virt_addr phys_addr flags =>
    change map_page virt_addr phys_addr flags s = some s' at hstep
    obtain ⟨owned', hkernel', -⟩ := kernel_map_page hkernel hstep
    refine ⟨n - 3, owned', hkernel', ?_⟩
    rw [(map_page_control hstep).pml4]
    exact map_page_clean hclean hkernel.paged rfl hstep
  | unmap_page virt_addr =>
    change unmap_page virt_addr s = some s' at hstep
    obtain ⟨s₁, hs₁, hkernel', hclean', -⟩ := unmap_page_correct hkernel hclean hready
    obtain rfl := Option.some.inj (hs₁.symm.trans hstep)
    exact ⟨n, owned, hkernel', hclean'⟩

/-- `init_paging` establishes the invariant. -/
theorem cleanPaging_init {code_addr rsp : UInt64} (hhdm : PageAligned s.hhdm)
    (hinv : A.Inv n s.hhdm s.alloc s.mem []) (halloc : InitAllocated code_addr rsp s)
    (h : init_paging code_addr rsp s = some s') : CleanPaging A s' := by
  obtain ⟨-, pml4, ws, s₁, s₂, hrun⟩ := init_paging_run hhdm hinv halloc h
  obtain ⟨owned, W, hpaged, hactive, hhdm', -, -⟩ := init_paging_setup hhdm hinv halloc h
  obtain ⟨hstart, -⟩ := hrun.start
  have hempty : CleanLeaves pml4 { s₁ with pml4 := pml4, early_page_tables := [pml4] }.mem :=
    cleanLeaves_of_zero hrun.fresh.zero
  have hclean := mapLeaves_clean hempty hstart hrun.alloc
    (cleanWrites_init _ _ _ _ _ hrun.writes) hrun.run
  have hroot := (mapLeaves_control hrun.run).1.pml4
  refine ⟨_, owned, ⟨hpaged, hactive, hhdm'.symm ▸ hhdm⟩, ?_⟩
  obtain rfl := hrun.final
  change s₂.pml4 = pml4 at hroot
  subst hroot
  exact hclean

end runs

/-- **Main theorem on `unmap_page`**: in every run of `map_page` and `unmap_page`
    calls, after an `init_paging` that got its tables, in which each
    `unmap_page` finds its leaf table mapped to itself, each of them removes its
    page and nothing else. -/
theorem unmap_page_run {σ : Type} [PageAllocator σ] (A : AllocSpec σ) (n : Nat)
    (code_addr rsp : UInt64) (s s₁ : Machine σ) (calls : List PagingCall)
    (hhdm : PageAligned s.hhdm) (hinv : A.Inv n s.hhdm s.alloc s.mem [])
    (halloc : InitAllocated code_addr rsp s) (hinit : init_paging code_addr rsp s = some s₁)
    (hready : ExecAlong pagingStep CallReady s₁ calls) :
    ExecAlong pagingStep CallCorrect s₁ calls :=
  ExecAlong.imp (CleanPaging A) (fun _ _ _ h hc hs => cleanPaging_step h hc hs)
    (fun _ _ h hc => callCorrect_of_ready h hc) (cleanPaging_init hhdm hinv halloc hinit) hready

/-! ## Section 4: Two machines -/

/-- The frames of the kernel's allocator lie behind its bitmap. -/
theorem PmmRoom.bounds {r : Region} {n : Nat} {ls : largestSection} {m : Mem} {owned : List UInt64}
    (hr : r.Fits) (h : PmmRoom r n ls m owned) {f : UInt64} (hf : f ∈ owned) :
    r.base + r.reserved ≤ f.toNat ∧ f.toNat < r.top := by
  obtain ⟨g, -, hg, heq⟩ := h.inv.frame f hf
  have haddr := Region.toNat_addr hr hg
  rw [heq, haddr]
  unfold Region.top
  omega

/-- A machine with 8 MiB of free memory from 16 MiB on. -/
def memmap16MiB : List limine_memmap_entry :=
  [{ base := 0x1000000, length := 0x800000, type := LIMINE_MEMMAP_USABLE }]

def region16MiB : Region := Region.ofMap memmap16MiB (by decide) (by decide)

theorem region16MiB_sizes :
    region16MiB.base + region16MiB.reserved = 0x1001000 ∧ region16MiB.top = 0x9001000 ∧
      3 * maxInitWrites + 1 ≤ region16MiB.frames - region16MiB.pages := by
  have hbase : region16MiB.base = 0x1000000 := by decide
  have hpages : region16MiB.pages = 1 := by decide
  have hroom := Region.room_init (show 0 < region16MiB.pages by omega)
  unfold Region.top Region.frames Region.reserved at *
  rw [hbase, hpages] at *
  exact ⟨rfl, rfl, hroom⟩

/-- The pages of the window, by their indices, are none of the frames from
    0x1001000 to 0x9001000. -/
def WindowElsewhere (v : UInt64 × UInt64) : Prop :=
  (pageOf v.1).toNat / 2 ^ 48 = v.2.toNat / 2 ^ 48 ∧
    (v.2.toNat % 2 ^ 48 ≤ 0x1001000 ∨ 0x9001000 ≤ (pageOf v.1).toNat % 2 ^ 48)

instance (v : UInt64 × UInt64) : Decidable (WindowElsewhere v) :=
  inferInstanceAs (Decidable (_ ∧ _))

/-- `init_paging` writes no entry for the page of a frame of this machine, the
    PML4 apart. -/
theorem initWrites_memmap16MiB {pml4 f : UInt64} {ws : List LeafWrite} (hpml4 : PageAligned pml4)
    (hf : PageAligned f) (hp : 0x1001000 ≤ pml4.toNat ∧ pml4.toNat < 0x9001000)
    (hfl : 0x1001000 ≤ f.toNat ∧ f.toNat < 0x9001000) (hne : f ≠ pml4)
    (h : initWrites 0xFFFF800000000000 0xFFFFFFFF80001234 0xFFFF80007FFF0000 pml4 = some ws) :
    ∀ w ∈ ws, pageKey f ≠ pageKey w.vaddr := by
  have hsum : (pml4 + 0xFFFF800000000000).toNat = pml4.toNat + 0xFFFF800000000000 :=
    Words.toNat_add_lt _ _ (by show _ + 0xFFFF800000000000 < _; omega)
  unfold PageAligned PAGE_SIZE at hpml4 hf
  -- Three kinds of addresses: elsewhere, the PML4, and the PML4 in the direct map.
  have hfar : ∀ u : UInt64, u.toNat % 2 ^ 48 < 0x1001000 ∨ 0x9001000 ≤ u.toNat % 2 ^ 48 →
      pageKey f ≠ pageKey u := by
    intro u hu hkey
    rw [pageKey_eq_iff] at hkey
    omega
  have hself : pageKey f ≠ pageKey pml4 := by
    intro hkey
    rw [pageKey_eq_iff] at hkey
    exact hne (Words.ext (by omega))
  have hdirect : pageKey f ≠ pageKey (pml4 + 0xFFFF800000000000) := hfar _ (by omega)
  have hhhdm : PageAligned 0xFFFF800000000000 := by decide
  have hrsp : pageOf 0xFFFF80007FFF0000 ≠ endlessStackPage := by decide
  obtain ⟨before, after, hws, -, hbefore, hafter⟩ :=
    initWrites_spec hhhdm 0xFFFFFFFF80001234 pml4 hrsp
  obtain rfl := Option.some.inj (h.symm.trans hws)
  intro w hw
  rcases List.mem_append.mp hw with hw | hw
  · -- The six windows.
    obtain ⟨v, hv, -, hlo, hhi⟩ := hbefore w hw
    have hall : ((initWindows 0xFFFF800000000000 0xFFFFFFFF80001234 0xFFFF80007FFF0000).all
        fun v => decide (WindowElsewhere v)) = true := by decide
    obtain ⟨hblock, helsewhere⟩ := of_decide_eq_true (List.all_eq_true.mp hall v hv)
    have hlo' := UInt64.le_iff_toNat_le.mp hlo
    have hhi' := UInt64.lt_iff_toNat_lt.mp hhi
    exact hfar _ (by omega)
  · rcases List.mem_append.mp hw with hw | hw
    · -- The code page.
      rcases (mem_bothWrites hw).1 with hv | hv
      · rw [hv]
        exact hfar _ (by decide)
      · rw [hv]
        exact hfar _ (by decide)
    · have htable : w.vaddr = pml4 ∨ w.vaddr = pml4 + 0xFFFF800000000000 →
          pageKey f ≠ pageKey w.vaddr := by
        rintro (hv | hv)
        · rw [hv]
          exact hself
        · rw [hv]
          exact hdirect
      rcases hafter w hw with ⟨a, -, hlo, hhi, hmem⟩ | hmem | ⟨v, hv, hva, hlo, hhi⟩
      · -- The stack pages.
        have hlo' : 0xFFFF80007FFEC000 ≤ a.toNat := UInt64.le_iff_toNat_le.mp hlo
        have hhi' : a.toNat ≤ 0xFFFF80007FFF4000 := UInt64.le_iff_toNat_le.mp hhi
        have hadd : (a + 0xFFFF800000000000).toNat = (a.toNat + 0xFFFF800000000000) % 2 ^ 64 :=
          UInt64.toNat_add a _
        rcases (mem_bothWrites hmem).1 with hv | hv
        · rw [hv]
          exact hfar a (by omega)
        · rw [hv]
          exact hfar (a + 0xFFFF800000000000) (by omega)
      · exact htable (mem_bothWrites hmem).1
      · have hfit : (0xFFFF800000000000 : UInt64).toNat + pml4.toNat + 0x1000 < 2 ^ 64 := by
          show 0xFFFF800000000000 + pml4.toNat + 0x1000 < 2 ^ 64
          omega
        exact htable (earlyWindows_vaddr hpml4 hhhdm hfit hv hva hlo hhi)

/-- After `init_paging` the first page has a leaf table, which is a frame that
    was handed out and not the PML4. -/
theorem init_paging_firstTable {σ : Type} [PageAllocator σ] {A : AllocSpec σ} {n : Nat}
    {s s' : Machine σ} {code_addr rsp : UInt64} (hhdm : PageAligned s.hhdm)
    (hinv : A.Inv n s.hhdm s.alloc s.mem []) (halloc : InitAllocated code_addr rsp s)
    (h : init_paging code_addr rsp s = some s') :
    ∃ owned pt, KernelPaging A (n - 1 - 3 * maxInitWrites) owned s' ∧ s'.hhdm = s.hhdm ∧
      follow nextTable s'.mem.entry s'.pml4 (tablePath 0) = some pt ∧
      pt ∈ owned ∧ s'.pml4 ∈ owned ∧ pt ≠ s'.pml4 := by
  obtain ⟨owned, W, hpaged, hactive, hhdm', hrights, h0⟩ := init_paging_setup hhdm hinv halloc h
  obtain ⟨pt, hpt⟩ := Option.ne_none_iff_exists'.mp (hrights.linked 0 h0)
  have htab := hpaged.tables
  refine ⟨owned, pt, ⟨hpaged, hactive, hhdm'.symm ▸ hhdm⟩, hhdm', hpt,
    htab.reach pt ⟨tablePath 0, Nat.le_refl 3, hpt⟩, htab.reach _ (reaches_root _ _ _ _), ?_⟩
  intro heq
  rw [heq] at hpt
  have hpath := htab.unshared (tablePath 0) [] _ (Nat.le_refl 3) (Nat.zero_le 3) hpt rfl
  cases hpath

/-- On the machine with its free memory from 16 MiB on, the first call of
    `unmap_page` faults: the leaf table of the first page is not mapped. -/
theorem unmap_page_faults_memmap16MiB :
    let mem : Mem := fun _ => 0
    ∃ s', init_paging 0xFFFFFFFF80001234 0xFFFF80007FFF0000
        (bootMachine 0xFFFF800000000000 memmap16MiB mem) = some s' ∧ unmap_page 0 s' = none := by
  intro mem
  have hhdm : PageAligned (bootMachine 0xFFFF800000000000 memmap16MiB mem).hhdm := by
    show PageAligned 0xFFFF800000000000
    decide
  have hfits : region16MiB.Fits := by decide
  have halign : region16MiB.base % PAGE_SIZE = 0 := by decide
  have hinv : (pmmSpec region16MiB hfits halign).Inv (region16MiB.frames - region16MiB.pages)
      0xFFFF800000000000 (initPMM 0xFFFF800000000000 memmap16MiB mem).1
      (initPMM 0xFFFF800000000000 memmap16MiB mem).2 [] := pmmSpec_boot _ _ rfl rfl
  have hrsp : pageOf 0xFFFF80007FFF0000 ≠ endlessStackPage := by decide
  obtain ⟨hbase, htop, hroom⟩ := region16MiB_sizes
  obtain ⟨s', hs'⟩ := init_paging_total (A := pmmSpec region16MiB hfits halign)
    0xFFFFFFFF80001234 hhdm hrsp trivial
  refine ⟨s', hs', ?_⟩
  obtain ⟨owned, pt, hkernel, hh, hpt, hptm, hrootm, hne⟩ :=
    init_paging_firstTable hhdm hinv (initAllocated_of_room hhdm hinv hroom hs') hs'
  obtain ⟨-, pml4, ws, hswitch⟩ := init_paging_spec hhdm hinv hroom hs'
  have hroot : s'.pml4 = pml4 := Option.some.inj (hkernel.active.symm.trans hswitch.cr3)
  have halloc : PmmRoom region16MiB _ s'.alloc s'.mem owned := hkernel.paged.alloc
  have hb := halloc.bounds hfits hptm
  have hb' := halloc.bounds hfits hrootm
  rw [hbase, htop] at hb hb'
  have hgood := hkernel.paged.tables.good pt hptm
  -- The page of the leaf table is not mapped, so the raw pointer faults.
  have hkeys := initWrites_memmap16MiB hswitch.aligned hgood.aligned (hroot ▸ hb') hb
    (hroot ▸ hne) hswitch.writes
  have hview : view s'.mem s'.pml4 pt = none := by
    rw [hroot]
    exact (hswitch.leaves (pageKey pt) rfl).trans (applyWrites_of_not_mem hkeys none)
  have hslot : slot pt (pt_idx 0) = pt := UInt64.add_zero pt
  have hlow : ¬ pt ≥ s'.hhdm := by
    intro hge
    rw [hh] at hge
    have hle : 0xFFFF800000000000 ≤ pt.toNat := UInt64.le_iff_toNat_le.mp hge
    omega
  have hfault : s'.denote (slot pt (pt_idx 0)) = none := by
    rw [hslot, denote_eq hkernel.paged.tables hkernel.active, if_neg hlow, hview]
    split <;> rfl
  rw [unmap_page_eq hkernel.paged.tables, hpt]
  simp only [hfault, Option.map_none]

/-- The general result on the machine with 8 MiB: with its leaf table mapped to
    itself, the first page can be unmapped. -/
theorem unmap_page_run_memmap8MiB :
    let mem : Mem := fun _ => 0
    ∃ s₁ pt, init_paging 0xFFFFFFFF80001234 0xFFFF800007FF0000
        (bootMachine 0xFFFF800000000000 memmap8MiB mem) = some s₁ ∧
      follow nextTable s₁.mem.entry s₁.pml4 (tablePath 0) = some pt ∧
      ExecAlong pagingStep CallCorrect s₁ [.map_page pt pt 0x3, .unmap_page 0] := by
  intro mem
  have hhdm : PageAligned (bootMachine 0xFFFF800000000000 memmap8MiB mem).hhdm := by
    show PageAligned 0xFFFF800000000000
    decide
  have hfits : region8MiB.Fits := by decide
  have halign : region8MiB.base % PAGE_SIZE = 0 := by decide
  have hinv : (pmmSpec region8MiB hfits halign).Inv (region8MiB.frames - region8MiB.pages)
      0xFFFF800000000000 (initPMM 0xFFFF800000000000 memmap8MiB mem).1
      (initPMM 0xFFFF800000000000 memmap8MiB mem).2 [] := pmmSpec_boot _ _ rfl rfl
  have hrsp : pageOf 0xFFFF800007FF0000 ≠ endlessStackPage := by decide
  have hpages := region8MiB_sizes.2
  have htop : region8MiB.top ≤ 0x100000000 := region8MiB_top.1
  have hframes : 3 + 1 + 3 * maxInitWrites ≤ region8MiB.frames - region8MiB.pages := by
    unfold Region.frames Region.reserved maxInitWrites
    rw [hpages]
    decide
  obtain ⟨s₁, hs₁⟩ := init_paging_total (A := pmmSpec region8MiB hfits halign)
    0xFFFFFFFF80001234 hhdm hrsp trivial
  have hinit := initAllocated_of_room hhdm hinv region8MiB_top.2 hs₁
  obtain ⟨owned, pt, hkernel, hh, hpt, hptm, -⟩ := init_paging_firstTable hhdm hinv hinit hs₁
  have halloc : PmmRoom region8MiB _ s₁.alloc s₁.mem owned := hkernel.paged.alloc
  have hb := halloc.bounds hfits hptm
  have hgood := hkernel.paged.tables.good pt hptm
  refine ⟨s₁, pt, hs₁, hpt, unmap_page_run (pmmSpec region8MiB hfits halign) _ _ _ _ s₁ _ hhdm hinv
    hinit hs₁ ⟨trivial, fun s₂ hs₂ => ⟨fun g hg => ?_, fun _ _ => trivial⟩⟩⟩
  change map_page pt pt 0x3 s₁ = some s₂ at hs₂
  -- The mapping leaves the leaf table of the first page in its place.
  have hcontrol := map_page_control hs₂
  rw [hcontrol.pml4, (map_page_uppers hkernel.paged rfl hs₂).1.path_kept hpt] at hg
  obtain rfl := Option.some.inj hg
  obtain ⟨owned', hkernel', -, hview, -⟩ := kernel_map_page hkernel hs₂
  have hlow : pt.toNat < 0x100000000 := by omega
  have hslot : slot pt (pt_idx 0) = pt := UInt64.add_zero pt
  rw [hslot]
  refine denote_of_view hkernel' hgood.aligned ?_ ?_ hgood.aligned (by omega) (hview (by omega))
  · unfold Canonical
    omega
  · intro hge
    rw [hcontrol.hhdm, hh] at hge
    have hle : 0xFFFF800000000000 ≤ pt.toNat := UInt64.le_iff_toNat_le.mp hge
    omega

end ArgaldOS
