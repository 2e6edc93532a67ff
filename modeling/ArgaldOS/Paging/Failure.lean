import ArgaldOS.Paging.Init
import ArgaldOS.Paging.Kernel

/-! # When the allocator runs out

    A walker that gets NULL instead of a frame stops between two levels.
    `map_page` checks for that, and a call that gives up has changed nothing
    that the hardware can see: the tables it has linked are empty, and the
    same call finds them again later.

    `map_range` does not check.  The NULL answer becomes an entry that is
    present and points to frame 0, which the next level takes for a table.

    * `map_page_atomic`: a failed `map_page` leaves every walk alone, and the
      retry does what it would have done without the failure;
    * `map_range_survives_iff`: a range gets away with the failures that come
      after all the tables it misses have been allocated.
-/

namespace ArgaldOS

open TableTree

section atomic
variable {σ : Type} [PageAllocator σ]

/-! ## Section 1: `map_page` -/

/-- Some time after `s`: the tables have the contents that they have in `s`,
    and the allocator and the rest of memory are in any state. -/
structure Later (A : AllocSpec σ) (s t : Machine σ) : Prop where
  pml4   : t.pml4 = s.pml4
  paged  : ∃ owned, Paged A 0 s.pml4 owned t
  tables : SameTables s.pml4 s.mem t.mem

variable {A : AllocSpec σ} {n : Nat} {owned : List UInt64} {s s' t t' : Machine σ}

/-- On well-formed tables a walk depends on the present leaf entry only. -/
theorem walk_congr {root va : UInt64} {owned₁ owned₂ : List UInt64} {m₁ m₂ : Mem}
    (h₁ : Tables root owned₁ m₁) (h₂ : Tables root owned₂ m₂)
    (hview : view m₁ root va = view m₂ root va) : walk m₁ root va = walk m₂ root va := by
  rw [walk_eq_view h₁, walk_eq_view h₂, hview]

theorem Later.view (h : Later A s t)
    (htab : Tables s.pml4 owned s.mem) (va : UInt64) :
    view t.mem s.pml4 va = view s.mem s.pml4 va :=
  leafOf_sameTables htab h.tables _ rfl _

/-- What a successful `map_page` leaves is a function of what it finds. -/
theorem map_page_views {v p flags : UInt64} (hpaged : Paged A n s.pml4 owned s)
    (h : map_page v p flags s = some s') (hno : NoAllocationFailure v s) :
    (∃ owned', Tables s.pml4 owned' s'.mem) ∧
      ∀ va, view s'.mem s.pml4 va =
        if pageKey va = pageKey v then leafEntry (pageEntry p flags)
        else view s.mem s.pml4 va := by
  rcases map_page_cases hpaged rfl h with ⟨-, owned', hm⟩ | ⟨hfail, -⟩
  · refine ⟨⟨owned', hm.paged.tables⟩, fun va => ?_⟩
    simp only [pageKey_eq_iff_paths]
    exact hm.leaves _ rfl _
  · exact absurd hno hfail

/-- **`map_page` is atomic on allocation failure**: on well-formed tables it
    returns; if `kmalloc` answers NULL on any level, no walk has changed, and a
    later successful call leaves the walks that it leaves where the failed call
    was never made. -/
theorem map_page_atomic (A : AllocSpec σ) (n : Nat) (owned : List UInt64) (s : Machine σ)
    (v p flags : UInt64) (hpaged : Paged A n s.pml4 owned s) (hsupply : A.Supply 3 s.alloc) :
    ∃ s', map_page v p flags s = some s' ∧
      (¬ NoAllocationFailure v s →
        (∀ va, walk s'.mem s.pml4 va = walk s.mem s.pml4 va) ∧
        ∀ t u t' u' : Machine σ, Later A s' t → Later A s u →
          map_page v p flags t = some t' → NoAllocationFailure v t →
          map_page v p flags u = some u' → NoAllocationFailure v u →
          ∀ va, walk t'.mem s.pml4 va = walk u'.mem s.pml4 va) := by
  obtain ⟨s', h, -⟩ : ∃ s', map_page v p flags s = some s' ∧ A.Supply 0 s'.alloc :=
    map_page_total hsupply
  refine ⟨s', h, fun hfail => ?_⟩
  rcases map_page_cases hpaged rfl h with ⟨hno, -⟩ | ⟨-, -, owned', hpaged', hleaves, -⟩
  · exact absurd hno hfail
  have hroot : s'.pml4 = s.pml4 := (map_page_control h).pml4
  have hsame : ∀ va, view s'.mem s.pml4 va = view s.mem s.pml4 va :=
    fun va => hleaves _ rfl _
  refine ⟨fun va => walk_congr hpaged'.tables hpaged.tables (hsame va), ?_⟩
  intro t u t' u' ht hu hcall hno hcall' hno'
  rw [← hroot] at hpaged'
  -- Both calls start from the same translations.
  have hbefore : ∀ va, view t.mem s.pml4 va = view u.mem s.pml4 va := by
    intro va
    rw [hu.view hpaged.tables, ← hsame va, ← hroot]
    exact ht.view hpaged'.tables va
  obtain ⟨owned₁, hpaged₁⟩ := ht.paged
  obtain ⟨owned₂, hpaged₂⟩ := hu.paged
  have hroot₁ : t.pml4 = s.pml4 := ht.pml4.trans hroot
  rw [← ht.pml4] at hpaged₁
  rw [← hu.pml4] at hpaged₂
  obtain ⟨⟨owned₁', htab₁⟩, hafter₁⟩ := map_page_views hpaged₁ hcall hno
  obtain ⟨⟨owned₂', htab₂⟩, hafter₂⟩ := map_page_views hpaged₂ hcall' hno'
  rw [hroot₁] at htab₁ hafter₁
  rw [hu.pml4] at htab₂ hafter₂
  intro va
  apply walk_congr htab₁ htab₂
  rw [hafter₁, hafter₂, hbefore]

end atomic

/-- A call that links one table and then gets NULL. -/
theorem map_page_gives_up :
    ∃ s', map_page 0x400000 0x9000 7 (emptyKernel [0x2000, 0, 0x3000, 0x4000, 0x5000]) = some s' ∧
      ¬ NoAllocationFailure 0x400000 (emptyKernel [0x2000, 0, 0x3000, 0x4000, 0x5000]) ∧
      s'.alloc = [0x3000, 0x4000, 0x5000] := by
  let s := emptyKernel [0x2000, 0, 0x3000, 0x4000, 0x5000]
  obtain ⟨s₁, h₁, ha₁, hz₁⟩ := get_next_table_take (s := s) (i := pml4_idx 0x400000)
    (f := s.pml4) (a := 0x2000) (by decide) (by decide) (by decide) (by decide) rfl
  -- On the second level `kmalloc` answers NULL.
  have habsent : s₁.mem.entry 0x2000 (pdpt_idx 0x400000) &&& PAGE_PRESENT = 0 := by
    rw [hz₁ _ (by decide)]
    decide
  have h₂ : get_next_table 0x2000 (pdpt_idx 0x400000) true s₁ =
      some (0, { s₁ with alloc := [0x3000, 0x4000, 0x5000] }) := by
    unfold get_next_table alloc_table Machine.kmalloc
    rw [ha₁]
    simp [PageAllocator.kmalloc, habsent]
  refine ⟨{ s₁ with alloc := [0x3000, 0x4000, 0x5000] }, ?_, ?_, rfl⟩
  · show map_page 0x400000 0x9000 7 s = _
    simp [map_page, h₁, h₂]
  · intro hno
    obtain ⟨pdpt, t₁, pd, t₂, pt, t₃, e₁, -, e₂, hne₂, -⟩ := hno
    obtain ⟨rfl, rfl⟩ := Prod.mk.inj (Option.some.inj (h₁.symm.trans e₁))
    obtain ⟨rfl, -⟩ := Prod.mk.inj (Option.some.inj (h₂.symm.trans e₂))
    exact hne₂ rfl

theorem map_page_atomic_retry :
    let s := emptyKernel [0x2000, 0, 0x3000, 0x4000, 0x5000]
    let u := emptyKernel [0x2000, 0x3000, 0x4000]
    ∃ s' t' u', map_page 0x400000 0x9000 7 s = some s' ∧ map_page 0x400000 0x9000 7 s' = some t' ∧
      map_page 0x400000 0x9000 7 u = some u' ∧
      (∀ va, walk s'.mem s.pml4 va = walk s.mem s.pml4 va) ∧
      ∀ va, walk t'.mem s.pml4 va = walk u'.mem s.pml4 va := by
  intro s u
  have hscript : FreshScript 0 s.alloc [s.pml4] :=
    freshScript_of_all_nonzero (by decide) (by decide)
  have hscript' : FreshScript 3 u.alloc [u.pml4] := freshScript_of_all (by decide) (by decide)
  have hpaged : Paged scriptSpec 0 s.pml4 [s.pml4] s := (emptyKernel_paging hscript).paged
  have hpaged' : Paged scriptSpec 3 u.pml4 [u.pml4] u := (emptyKernel_paging hscript').paged
  obtain ⟨s', h, hfail, halloc⟩ := map_page_gives_up
  obtain ⟨t', ht, -⟩ : ∃ t', map_page 0x400000 0x9000 7 s' = some t' ∧
      scriptSpec.Supply 0 t'.alloc :=
    map_page_total (by rw [halloc]; exact Nat.le_refl 3)
  obtain ⟨u', hu, -⟩ : ∃ u', map_page 0x400000 0x9000 7 u = some u' ∧
      scriptSpec.Supply 0 u'.alloc :=
    map_page_total (Nat.le_refl 3)
  -- The three frames that are left suffice for the retry.
  obtain ⟨owned', hpaged₁⟩ : ∃ owned', Paged scriptSpec 3 s'.pml4 owned' s' := by
    have hroot : s'.pml4 = s.pml4 := (map_page_control h).pml4
    rcases map_page_cases hpaged rfl h with ⟨hno, -⟩ | ⟨-, -, owned', hfailed, -⟩
    · exact absurd hno hfail
    · have hrest : FreshScript 0 s'.alloc owned' := hfailed.alloc
      have hthree : FreshScript 3 s'.alloc owned' := by
        refine ⟨hrest.good, hrest.distinct, hrest.unused, ?_⟩
        rw [halloc]
        simp
      rw [hroot]
      exact ⟨owned', hthree, hfailed.tables⟩
  obtain ⟨s₁, h₁, hatomic⟩ := map_page_atomic scriptSpec 0 [s.pml4] s 0x400000 0x9000 7 hpaged
    (show 3 ≤ 5 by omega)
  obtain rfl := Option.some.inj (h.symm.trans h₁)
  obtain ⟨hsame, hretry⟩ := hatomic hfail
  refine ⟨s', t', u', h, ht, hu, hsame, ?_⟩
  apply hretry s' u t' u' ⟨rfl, ⟨owned', hpaged₁.mono (by omega)⟩, fun _ _ _ _ => rfl⟩
    ⟨rfl, ⟨_, hpaged'.mono (by omega)⟩, fun _ _ _ _ => rfl⟩ ht _ hu _
  · exact noAllocationFailure_of_room (Nat.le_refl 3) hpaged₁ ht
  · exact noAllocationFailure_of_room (Nat.le_refl 3) hpaged' hu

/-! ## Section 2: The entries that `map_range` stores -/

/-- A store of an entry: the machine that it finds, the table and the index,
    the new entry and, if it is a leaf, the page that it is for. -/
structure EntryStore (σ : Type) where
  before : Machine σ
  table  : UInt64
  index  : Fin 512
  entry  : UInt64
  page   : Option UInt64

section stores
variable {σ : Type}

/-- The machine after the store. -/
def EntryStore.after (st : EntryStore σ) : Machine σ :=
  st.before.writeEntry st.table st.index st.entry

/-- The store hits a page table, and makes no present entry that points to
    frame 0, unless this is the leaf entry of a page that has its physical
    address there. -/
structure EntryStore.Sound (root hhdm : UInt64) (st : EntryStore σ) : Prop where
  table : Reaches nextTable st.before.mem.entry root 3 st.table
  frame : st.entry &&& PAGE_PRESENT ≠ 0 → st.entry &&& frameMask = 0 →
    ∃ v, st.page = some v ∧ rangePaddr hhdm v &&& frameMask = 0

variable [PageAllocator σ]

/-- The store of `ensure_table`, if it makes one. -/
def ensure_tableStores (table : UInt64) (i : Fin 512) (s : Machine σ) : List (EntryStore σ) :=
  if s.readEntry table i &&& PAGE_PRESENT = 0 then
    match alloc_table s with
    | none => []
    | some (new, s) => [⟨s, table, i, new ||| PAGE_PRESENT ||| PAGE_RW, none⟩]
  else []

/-- The stores of `map_leaf`. -/
def map_leafStores (pml4 vaddr entry : UInt64) (s : Machine σ) : List (EntryStore σ) :=
  ensure_tableStores pml4 (pml4_idx vaddr) s ++
  match ensure_table pml4 (pml4_idx vaddr) s with
  | none => []
  | some (pdpt, s) =>
    ensure_tableStores pdpt (pdpt_idx vaddr) s ++
    match ensure_table pdpt (pdpt_idx vaddr) s with
    | none => []
    | some (pd, s) =>
      ensure_tableStores pd (pd_idx vaddr) s ++
      match ensure_table pd (pd_idx vaddr) s with
      | none => []
      | some (pt, s) => [⟨s, pt, pt_idx vaddr, entry, some vaddr⟩]

/-- `ensure_table` leaves the machine alone or as after its store. -/
theorem ensure_table_stored {table g : UInt64} {i : Fin 512} {s s' : Machine σ}
    (h : ensure_table table i s = some (g, s')) :
    (ensure_tableStores table i s = [] ∧ s' = s) ∨
      ∃ st, ensure_tableStores table i s = [st] ∧ s' = st.after := by
  rw [ensure_table_eq] at h
  unfold ensure_tableStores
  rw [readEntry_eq]
  by_cases hp : s.mem.entry table i &&& PAGE_PRESENT = 0
  · rw [if_pos hp] at h
    obtain ⟨⟨t, s₁⟩, ha, hr⟩ := Option.map_eq_some_iff.mp h
    obtain ⟨-, rfl⟩ := Prod.mk.inj hr
    rw [if_pos hp, ha, ← UInt64.or_assoc]
    exact Or.inr ⟨_, rfl, rfl⟩
  · rw [if_neg hp] at h
    obtain ⟨-, rfl⟩ := Prod.mk.inj (Option.some.inj h)
    exact Or.inl ⟨if_neg hp, rfl⟩

/-- `map_leaf` leaves the machine as after its last store. -/
theorem map_leaf_stored {pml4 vaddr entry : UInt64} {s s' : Machine σ}
    (h : map_leaf pml4 vaddr entry s = some s') :
    ∃ stores st, map_leafStores pml4 vaddr entry s = stores ++ [st] ∧ s' = st.after := by
  obtain ⟨pdpt, s₁, pd, s₂, pt, s₃, h₁, h₂, h₃, rfl⟩ := map_leaf_cases h
  refine ⟨ensure_tableStores pml4 (pml4_idx vaddr) s ++ ensure_tableStores pdpt (pdpt_idx vaddr) s₁ ++
    ensure_tableStores pd (pd_idx vaddr) s₂, ⟨s₃, pt, pt_idx vaddr, entry, some vaddr⟩, ?_, rfl⟩
  simp [map_leafStores, h₁, h₂, h₃]

/-- The stores of a sequence of `map_leaf` calls. -/
def mapLeavesStores (pml4 : UInt64) : List LeafWrite → Machine σ → List (EntryStore σ)
  | [], _ => []
  | w :: ws, s =>
    map_leafStores pml4 w.vaddr w.entry s ++
    match map_leaf pml4 w.vaddr w.entry s with
    | none => []
    | some s => mapLeavesStores pml4 ws s

/-- The stores of the loop of `map_range`. -/
def mapRangeStores (pml4 virt_end flags : UInt64) :
    Nat → UInt64 → Machine σ → List (EntryStore σ)
  | 0, _, _ => []
  | rounds + 1, vaddr, s =>
    if vaddr < virt_end then
      let entry := rangePaddr s.hhdm vaddr ||| flags ||| PAGE_PRESENT
      map_leafStores pml4 vaddr entry s ++
      match map_leaf pml4 vaddr entry s with
      | none => []
      | some s => mapRangeStores pml4 virt_end flags rounds (vaddr + 0x1000) s
    else []

def map_rangeStores (pml4 virt_start virt_end flags : UInt64) (s : Machine σ) :
    List (EntryStore σ) :=
  mapRangeStores pml4 virt_end flags allRounds (virt_start &&& ~~~0xFFF) s

/-- The pages that the loop of `map_range` comes to. -/
def rangeVisits (virt_end : UInt64) : Nat → UInt64 → List UInt64
  | 0, _ => []
  | rounds + 1, vaddr =>
    if vaddr < virt_end then vaddr :: rangeVisits virt_end rounds (vaddr + 0x1000) else []

/-- The leaf writes for a list of pages. -/
def pageWrites (hhdm flags : UInt64) (pages : List UInt64) : List LeafWrite :=
  pages.map fun v => ⟨v, rangeEntry hhdm flags v⟩

theorem mapRangeStores_eq (pml4 virt_end flags : UInt64) (rounds : Nat) (vaddr : UInt64)
    (s : Machine σ) :
    mapRangeStores pml4 virt_end flags rounds vaddr s =
      mapLeavesStores pml4 (pageWrites s.hhdm flags (rangeVisits virt_end rounds vaddr)) s := by
  induction rounds generalizing vaddr s with
  | zero => rfl
  | succ rounds ih =>
    unfold mapRangeStores rangeVisits
    by_cases hlt : vaddr < virt_end
    · rw [if_pos hlt, if_pos hlt]
      show _ = map_leafStores pml4 vaddr (rangeEntry s.hhdm flags vaddr) s ++ _
      dsimp only
      congr 1
      show _ = match map_leaf pml4 vaddr (rangeEntry s.hhdm flags vaddr) s with
        | none => []
        | some s' => mapLeavesStores pml4
            (pageWrites s.hhdm flags (rangeVisits virt_end rounds (vaddr + 0x1000))) s'
      cases hm : map_leaf pml4 vaddr (rangeEntry s.hhdm flags vaddr) s with
      | none =>
        unfold rangeEntry at hm
        rw [hm]
      | some s' =>
        have hhdm := (map_leaf_control hm).1.hhdm
        unfold rangeEntry at hm
        rw [hm]
        dsimp only
        rw [ih, hhdm]
    · rw [if_neg hlt, if_neg hlt]
      rfl

/-- A loop that ends has written the pages it came to. -/
theorem rangeWrites_eq_visits {hhdm virt_end flags : UInt64} {rounds : Nat} {vaddr : UInt64}
    {ws : List LeafWrite} (h : rangeWrites hhdm virt_end flags rounds vaddr = some ws) :
    ws = pageWrites hhdm flags (rangeVisits virt_end rounds vaddr) := by
  induction rounds generalizing vaddr ws with
  | zero => cases h
  | succ rounds ih =>
    unfold rangeWrites at h
    unfold rangeVisits
    by_cases hlt : vaddr < virt_end
    · rw [if_pos hlt] at h
      obtain ⟨ws', hws', rfl⟩ := Option.map_eq_some_iff.mp h
      rw [if_pos hlt, ih hws']
      rfl
    · rw [if_neg hlt] at h
      rw [if_neg hlt]
      exact (Option.some.inj h).symm

end stores

/-! ## Section 3: The tables that are missing -/

/-- The index paths of the three tables on the way to a page. -/
def upperPaths (vaddr : UInt64) : List (List (Fin 512)) :=
  [[pml4_idx vaddr], [pml4_idx vaddr, pdpt_idx vaddr], tablePath vaddr]

/-- The tables on the way to the pages that do not exist. -/
def missingTables (root : UInt64) (m : Mem) (pages : List UInt64) : Finset (List (Fin 512)) :=
  missing nextTable m.entry root (pages.flatMap upperPaths).toFinset

theorem mem_upperPaths_of_isPrefix {vaddr : UInt64} {p : List (Fin 512)} {i : Fin 512}
    (h : p ++ [i] <+: tablePath vaddr) : p ++ [i] ∈ upperPaths vaddr := by
  have hlen := length_le_of_isPrefix h
  have htake := List.prefix_iff_eq_take.mp h
  rw [List.length_append, List.length_singleton] at htake
  unfold upperPaths
  unfold tablePath at htake ⊢
  rw [htake]
  match p, hlen with
  | [], _ => simp
  | [_], _ => simp
  | [_, _], _ => simp

theorem prefix_of_mem_upperPaths {vaddr : UInt64} {q : List (Fin 512)} (h : q ∈ upperPaths vaddr) :
    q <+: tablePath vaddr := by
  unfold upperPaths at h
  simp only [List.mem_cons, List.not_mem_nil, or_false] at h
  rcases h with rfl | rfl | rfl
  · exact ⟨[pdpt_idx vaddr, pd_idx vaddr], rfl⟩
  · exact ⟨[pd_idx vaddr], rfl⟩
  · exact List.prefix_refl _

theorem length_of_mem_paths {pages : List UInt64} {q : List (Fin 512)}
    (h : q ∈ (pages.flatMap upperPaths).toFinset) : q.length ≤ 3 := by
  rw [List.mem_toFinset, List.mem_flatMap] at h
  obtain ⟨v, -, hq⟩ := h
  exact (prefix_of_mem_upperPaths hq).length_le

/-- On a path that leads to a table every table is there. -/
theorem follow_of_prefix {root f : UInt64} {m : Mem} {p q : List (Fin 512)} (hpre : q <+: p)
    (hp : follow nextTable m.entry root p = some f) : follow nextTable m.entry root q ≠ none := by
  obtain ⟨r, rfl⟩ := hpre
  rw [follow_append] at hp
  intro hq
  rw [hq] at hp
  cases hp

/-- A page whose tables are there needs none. -/
theorem missingTables_cons {root pt vaddr : UInt64} {m : Mem} {pages : List UInt64}
    (h : follow nextTable m.entry root (tablePath vaddr) = some pt) :
    missingTables root m (vaddr :: pages) = missingTables root m pages := by
  unfold missingTables
  ext q
  rw [mem_missing, mem_missing, List.mem_toFinset, List.mem_toFinset, List.flatMap_cons,
    List.mem_append]
  constructor
  · intro hq
    refine ⟨hq.1.resolve_left fun hv => ?_, hq.2⟩
    exact follow_of_prefix (prefix_of_mem_upperPaths hv) h hq.2
  · intro hq
    exact ⟨Or.inr hq.1, hq.2⟩

/-- Writing a leaf makes no table. -/
theorem missingTables_setLeaf {σ : Type} {root : UInt64} {owned : List UInt64} {s : Machine σ}
    {f e : UInt64} {p : List (Fin 512)} {i : Fin 512} (htab : Tables root owned s.mem)
    (hpath : follow nextTable s.mem.entry root p = some f) (hlen : p.length = 3)
    (pages : List UInt64) :
    missingTables root (s.writeEntry f i e).mem pages = missingTables root s.mem pages := by
  have hset := setLeaf_writeEntry (i := i) (e := e) htab hpath hlen
  exact missing_congr fun q hq => follow_setLeaf hset htab.unshared q (length_of_mem_paths hq)

section survives
variable {σ : Type} [PageAllocator σ] {A : AllocSpec σ}
variable {n : Nat} {root hhdm vaddr : UInt64} {owned : List UInt64} {s s' : Machine σ}

/-! ## Section 4: As many frames as tables are missing -/

/-- The frame clause for the entry of a new table. -/
theorem tableEntry_frame {t : UInt64} (ht : GoodFrame (2 ^ 52) t) :
    (t ||| PAGE_PRESENT ||| PAGE_RW) &&& frameMask ≠ 0 := by
  have hbelow := ht.below
  unfold PAGE_SIZE at hbelow
  rw [UInt64.or_assoc, or_and_frameMask ht.aligned (by omega) (by decide)]
  exact ht.ne_zero

/-- A level with a missing table hangs a fresh one into the entry: one less is
    missing. -/
theorem missingTables_link {pages : List UInt64} {s₁ : Machine σ} {t f : UInt64}
    {p : List (Fin 512)} {i : Fin 512} (flags : UInt64) (htab : Tables root owned s.mem)
    (hfresh : FreshTable A n owned s s₁ t)
    (hpath : follow nextTable s.mem.entry root p = some f) (hlen : p.length < 3)
    (habsent : s.mem.entry f i &&& PAGE_PRESENT = 0) (hflags : flags.toNat < 8)
    (hpresent : flags.toNat % 2 = 1) (hpage : p ++ [i] ∈ (pages.flatMap upperPaths).toFinset) :
    (missingTables root s.mem pages).card =
      (missingTables root (s₁.writeEntry f i (t ||| flags)).mem pages).card + 1 := by
  obtain ⟨hlink, -⟩ := link_writeEntry flags htab hfresh hpath hlen habsent hflags hpresent
  exact card_missing_link hlink htab.unshared (fun q hq => length_of_mem_paths hq) hpage

omit [PageAllocator σ] in
theorem missingTables_pos {pages : List UInt64} {f : UInt64} {p : List (Fin 512)} {i : Fin 512}
    (hpath : follow nextTable s.mem.entry root p = some f)
    (habsent : s.mem.entry f i &&& PAGE_PRESENT = 0)
    (hpage : p ++ [i] ∈ (pages.flatMap upperPaths).toFinset) :
    0 < (missingTables root s.mem pages).card := by
  refine Finset.card_pos.mpr ⟨p ++ [i], mem_missing.mpr ⟨hpage, ?_⟩⟩
  rw [follow_snoc, hpath]
  exact nextTable_eq_none.mpr habsent

/-- The walker stands at the table `f`, and a frame is promised for each table
    that is missing. -/
def Supplied (A : AllocSpec σ) (root : UInt64) (pages : List UInt64) (p : List (Fin 512))
    (f : UInt64) (s : Machine σ) : Prop :=
  (∃ owned, Paged A (missingTables root s.mem pages).card root owned s) ∧
    follow nextTable s.mem.entry root p = some f

/-- **One level with a promised frame**: the store is sound, and the walker
    stands at the next table. -/
theorem ensure_table_supplied {pages : List UInt64} {f : UInt64} {p : List (Fin 512)} {i : Fin 512}
    (h : Supplied A root pages p f s) (hlen : p.length < 3)
    (hpage : p ++ [i] ∈ (pages.flatMap upperPaths).toFinset) :
    (∀ st ∈ ensure_tableStores f i s, st.Sound root hhdm) ∧
      ∀ g s', ensure_table f i s = some (g, s') → g ≠ 0 ∧ Supplied A root pages (p ++ [i]) g s' := by
  obtain ⟨⟨owned, hpaged⟩, hpath⟩ := h
  have hreach : Reaches nextTable s.mem.entry root 3 f := ⟨p, Nat.le_of_lt hlen, hpath⟩
  unfold ensure_tableStores
  rw [readEntry_eq]
  by_cases hp : s.mem.entry f i &&& PAGE_PRESENT = 0
  · have hpos := missingTables_pos hpath hp hpage
    rw [if_pos hp]
    simp only [ensure_table_eq, if_pos hp]
    cases ha : alloc_table s with
    | none => simp
    | some r =>
      obtain ⟨t, s₁⟩ := r
      rcases alloc_table_cases hpaged.aligned hpaged.alloc ha with ⟨-, hnone⟩ | ⟨ht, hfresh⟩
      · have := hnone.none_left
        omega
      refine ⟨fun st hst => ?_, fun g s' hget => ?_⟩
      · obtain rfl := List.mem_singleton.mp hst
        have hsame := hfresh.same.sameTables hpaged.tables
        refine ⟨(reaches_sameTables hpaged.tables hsame f).mpr hreach, fun _ hzero => ?_⟩
        exact absurd hzero (tableEntry_frame hfresh.good)
      · obtain ⟨rfl, rfl⟩ := Prod.mk.inj (Option.some.inj hget)
        rw [entry_and_not_fff hfresh.good.aligned (by decide)]
        have hlinked := paged_link (PAGE_PRESENT ||| PAGE_RW) hpaged hfresh hpath hlen hp
          (by decide) (by decide)
        have hcard := missingTables_link (PAGE_PRESENT ||| PAGE_RW) hpaged.tables hfresh hpath hlen
          hp (by decide) (by decide) hpage
        rw [hcard, Nat.add_sub_cancel] at hlinked
        exact ⟨ht, ⟨t :: owned, hlinked.paged⟩, hlinked.path⟩
  · rw [if_neg hp]
    simp only [ensure_table_eq, if_neg hp]
    refine ⟨by simp, fun g s' hget => ?_⟩
    obtain ⟨rfl, rfl⟩ := Prod.mk.inj (Option.some.inj hget)
    have hlinked := linked_present hpaged (Nat.le_refl _) hpath hp
    have hgood := hpaged.tables.good _
      (hpaged.tables.reach _ ⟨p ++ [i], by simp; omega, hlinked.path⟩)
    exact ⟨hgood.ne_zero, ⟨owned, hpaged⟩, hlinked.path⟩

/-- Rule for the stores of `map_leaf`: what each level keeps holds when the
    leaf is stored. -/
theorem map_leafStores_rule {e : UInt64} (At : List (Fin 512) → UInt64 → Machine σ → Prop)
    (Good : EntryStore σ → Prop) (hstart : At [] root s)
    (hlevel : ∀ p f i t, p ++ [i] <+: tablePath vaddr → At p f t →
      (∀ st ∈ ensure_tableStores f i t, Good st) ∧
        ∀ g t', ensure_table f i t = some (g, t') → At (p ++ [i]) g t')
    (hleaf : ∀ f t, At (tablePath vaddr) f t → Good ⟨t, f, pt_idx vaddr, e, some vaddr⟩) :
    ∀ st ∈ map_leafStores root vaddr e s, Good st := by
  intro st hst
  unfold map_leafStores at hst
  obtain ⟨hgood₁, hnext₁⟩ := hlevel [] root (pml4_idx vaddr) s ⟨_, rfl⟩ hstart
  rcases List.mem_append.mp hst with hst | hst
  · exact hgood₁ st hst
  rcases h₁ : ensure_table root (pml4_idx vaddr) s with - | ⟨pdpt, s₁⟩
  · simp [h₁] at hst
  rw [h₁] at hst
  obtain ⟨hgood₂, hnext₂⟩ := hlevel _ pdpt (pdpt_idx vaddr) s₁ ⟨_, rfl⟩ (hnext₁ _ _ h₁)
  rcases List.mem_append.mp hst with hst | hst
  · exact hgood₂ st hst
  rcases h₂ : ensure_table pdpt (pdpt_idx vaddr) s₁ with - | ⟨pd, s₂⟩
  · simp [h₂] at hst
  rw [h₂] at hst
  obtain ⟨hgood₃, hnext₃⟩ := hlevel _ pd (pd_idx vaddr) s₂ ⟨[], rfl⟩ (hnext₂ _ _ h₂)
  rcases List.mem_append.mp hst with hst | hst
  · exact hgood₃ st hst
  rcases h₃ : ensure_table pd (pd_idx vaddr) s₂ with - | ⟨pt, s₃⟩
  · simp [h₃] at hst
  rw [h₃] at hst
  obtain rfl := List.mem_singleton.mp hst
  exact hleaf _ _ (hnext₃ _ _ h₃)

/-- A page whose missing tables are promised: its stores are sound, and the
    tables that the other pages miss are still promised. -/
theorem map_leaf_supplied {pages : List UInt64} {e : UInt64}
    (hpaged : Paged A (missingTables root s.mem (vaddr :: pages)).card root owned s)
    (hentry : e &&& frameMask = 0 → rangePaddr hhdm vaddr &&& frameMask = 0) :
    (∀ st ∈ map_leafStores root vaddr e s, st.Sound root hhdm) ∧
      ∀ s', map_leaf root vaddr e s = some s' → LeafAllocated root vaddr s ∧
        ∃ owned', Paged A (missingTables root s'.mem pages).card root owned' s' := by
  have hpages : ∀ {p : List (Fin 512)} {i : Fin 512}, p ++ [i] <+: tablePath vaddr →
      p ++ [i] ∈ ((vaddr :: pages).flatMap upperPaths).toFinset := by
    intro p i hpre
    rw [List.mem_toFinset, List.flatMap_cons]
    exact List.mem_append_left _ (mem_upperPaths_of_isPrefix hpre)
  have hstart : Supplied A root (vaddr :: pages) [] root s := ⟨⟨owned, hpaged⟩, rfl⟩
  have hlevel : ∀ p f i t, p ++ [i] <+: tablePath vaddr → Supplied A root (vaddr :: pages) p f t →
      (∀ st ∈ ensure_tableStores f i t, st.Sound root hhdm) ∧
        ∀ g t', ensure_table f i t = some (g, t') →
          g ≠ 0 ∧ Supplied A root (vaddr :: pages) (p ++ [i]) g t' :=
    fun p f i t hpre h => ensure_table_supplied h (length_le_of_isPrefix hpre) (hpages hpre)
  constructor
  · apply map_leafStores_rule (Supplied A root (vaddr :: pages)) (EntryStore.Sound root hhdm) hstart
    · intro p f i t hpre h
      obtain ⟨hgood, hnext⟩ := hlevel p f i t hpre h
      exact ⟨hgood, fun g t' hget => (hnext g t' hget).2⟩
    · intro f t h
      exact ⟨⟨tablePath vaddr, Nat.le_refl 3, h.2⟩, fun _ hzero => ⟨vaddr, rfl, hentry hzero⟩⟩
  · intro s' h
    obtain ⟨pdpt, s₁, pd, s₂, pt, s₃, h₁, h₂, h₃, rfl⟩ := map_leaf_cases h
    obtain ⟨hne₁, hat₁⟩ := (hlevel [] root _ s ⟨_, rfl⟩ hstart).2 _ _ h₁
    obtain ⟨hne₂, hat₂⟩ := (hlevel _ pdpt _ s₁ ⟨_, rfl⟩ hat₁).2 _ _ h₂
    obtain ⟨hne₃, ⟨owned', hpaged'⟩, hpath⟩ := (hlevel _ pd _ s₂ ⟨[], rfl⟩ hat₂).2 _ _ h₃
    refine ⟨⟨pdpt, s₁, pd, s₂, pt, s₃, h₁, hne₁, h₂, hne₂, h₃, hne₃⟩, owned', ?_⟩
    -- All tables of this page are there now, and the leaf store leaves them.
    change follow nextTable s₃.mem.entry root (tablePath vaddr) = some pt at hpath
    rw [missingTables_setLeaf hpaged'.tables hpath rfl, ← missingTables_cons hpath]
    exact (paged_setLeaf hpaged' hpath rfl).1

/-- **A sequence of writes with a promised frame for each missing table** makes
    sound stores only, and meets no allocation failure. -/
theorem mapLeavesStores_sound {ws : List LeafWrite}
    (hpaged : Paged A (missingTables root s.mem (ws.map LeafWrite.vaddr)).card root owned s)
    (hentries : ∀ w ∈ ws, w.entry &&& frameMask = 0 → rangePaddr hhdm w.vaddr &&& frameMask = 0) :
    (∀ st ∈ mapLeavesStores root ws s, st.Sound root hhdm) ∧
      ∀ s', mapLeaves root ws s = some s' → LeavesAllocated root s ws := by
  induction ws generalizing s owned with
  | nil => exact ⟨by simp [mapLeavesStores], fun _ _ => trivial⟩
  | cons w ws ih =>
    obtain ⟨hsound, hnext⟩ := map_leaf_supplied hpaged (hentries w List.mem_cons_self)
    have hrest := fun w' hw' => hentries w' (List.mem_cons_of_mem w hw')
    constructor
    · intro st hst
      unfold mapLeavesStores at hst
      rcases List.mem_append.mp hst with hst | hst
      · exact hsound st hst
      rcases h : map_leaf root w.vaddr w.entry s with - | s₁
      · simp [h] at hst
      rw [h] at hst
      obtain ⟨-, owned₁, hpaged₁⟩ := hnext s₁ h
      exact (ih hpaged₁ hrest).1 st hst
    · intro s' h
      obtain ⟨s₁, h₁, h₂⟩ := Option.bind_eq_some_iff.mp h
      obtain ⟨halloc, owned₁, hpaged₁⟩ := hnext s₁ h₁
      refine ⟨halloc, fun t ht => ?_⟩
      obtain rfl := Option.some.inj (h₁.symm.trans ht)
      exact (ih hpaged₁ hrest).2 s' h₂

/-! ## Section 5: Calls that fail -/

/-- An allocator of which chosen calls answer NULL: `calls` have been made, and
    call `k` fails if `fails k`. -/
structure Failing (σ : Type) where
  inner : σ
  calls : Nat
  fails : Nat → Bool

instance : PageAllocator (Failing σ) where
  kmalloc hhdm a mem :=
    if a.fails a.calls then some (0, { a with calls := a.calls + 1 }, mem)
    else do
      let (f, inner, mem) ← PageAllocator.kmalloc hhdm a.inner mem
      some (f, { a with inner := inner, calls := a.calls + 1 }, mem)

/-- What a call of such an allocator does. -/
theorem failing_kmalloc_cases {hhdm f : UInt64} {a a' : Failing σ} {m m' : Mem}
    (h : PageAllocator.kmalloc hhdm a m = some (f, a', m')) :
    a'.calls = a.calls + 1 ∧ a'.fails = a.fails ∧
      ((a.fails a.calls = true ∧ f = 0 ∧ a'.inner = a.inner ∧ m' = m) ∨
        (a.fails a.calls = false ∧ PageAllocator.kmalloc hhdm a.inner m = some (f, a'.inner, m'))) := by
  change (if a.fails a.calls then _ else _) = _ at h
  by_cases hf : a.fails a.calls = true
  · rw [if_pos hf] at h
    obtain ⟨rfl, rfl, rfl⟩ : 0 = f ∧ { a with calls := a.calls + 1 } = a' ∧ m = m' := by
      simpa using h
    exact ⟨rfl, rfl, Or.inl ⟨hf, rfl, rfl, rfl⟩⟩
  · rw [if_neg hf] at h
    obtain ⟨⟨g, inner, mem⟩, hk, h⟩ := Option.bind_eq_some_iff.mp h
    obtain ⟨rfl, rfl, rfl⟩ : g = f ∧ { a with inner := inner, calls := a.calls + 1 } = a' ∧
        mem = m' := by simpa using h
    exact ⟨rfl, rfl, Or.inr ⟨by simpa using hf, hk⟩⟩

/-- It promises a frame for a call if the call is not chosen and the frame is
    promised below. -/
def failingSpec (A : AllocSpec σ) : AllocSpec (Failing σ) where
  top    := A.top
  Inv    := fun n hhdm a m owned =>
    (∀ k < n, a.fails (a.calls + k) = false) ∧ A.Inv n hhdm a.inner m owned
  Supply := fun n a => A.Supply n a.inner
  top_le := A.top_le
  mono   := fun h => ⟨fun k hk => h.1 k (by omega), A.mono h.2⟩
  stable := fun h hout => ⟨h.1, A.stable h.2 hout⟩
  null   := by
    intro n hhdm a m owned a' m' h hk
    obtain ⟨-, -, ⟨hfail, -, hinner, rfl⟩ | ⟨-, hk'⟩⟩ := failing_kmalloc_cases hk
    · have hn : n = 0 := by
        by_contra hne
        rw [← Nat.add_zero a.calls, h.1 0 (by omega)] at hfail
        cases hfail
      subst hn
      exact ⟨rfl, ⟨fun k hk => absurd hk (by omega), hinner ▸ h.2⟩, fun _ _ _ _ => rfl⟩
    · obtain ⟨hn, hinv, hsame⟩ := A.null h.2 hk'
      exact ⟨hn, ⟨fun k hk => absurd hk (by omega), hinv⟩, hsame⟩
  fresh  := by
    intro n hhdm a m owned f a' m' h hk hf
    obtain ⟨hcalls, hfails, ⟨-, h0, -⟩ | ⟨-, hk'⟩⟩ := failing_kmalloc_cases hk
    · exact absurd h0 hf
    · obtain ⟨hgood, hunused, hinv, hsame⟩ := A.fresh h.2 hk' hf
      refine ⟨hgood, hunused, ⟨fun k hk => ?_, hinv⟩, hsame⟩
      rw [hcalls, hfails, Nat.add_assoc, Nat.add_comm 1 k]
      exact h.1 (k + 1) (by omega)
  supply := by
    intro n a hhdm m h
    by_cases hf : a.fails a.calls = true
    · exact ⟨0, { a with calls := a.calls + 1 }, m, if_pos hf, A.supply_mono h⟩
    · obtain ⟨f, inner, m', hk, hs⟩ := A.supply hhdm m h
      refine ⟨f, { a with inner := inner, calls := a.calls + 1 }, m', ?_, hs⟩
      change (if a.fails a.calls then _ else _) = _
      rw [if_neg hf, hk]
      rfl
  supply_mono := fun h => A.supply_mono h

theorem failing_alloc_table {m m' : Machine (Failing σ)} {t : UInt64}
    (h : alloc_table m = some (t, m')) :
    m'.alloc.calls = m.alloc.calls + 1 ∧ m'.alloc.fails = m.alloc.fails := by
  unfold alloc_table Machine.kmalloc at h
  rcases hk : PageAllocator.kmalloc m.hhdm m.alloc m.mem with - | ⟨f, a, mem⟩
  · simp [hk] at h
  obtain ⟨hcalls, hfails, -⟩ := failing_kmalloc_cases hk
  have halloc : m'.alloc = a := by
    by_cases hf : f = 0
    · obtain ⟨-, rfl⟩ : 0 = t ∧ { m with alloc := a, mem := mem } = m' := by simpa [hk, hf] using h
      rfl
    · simp only [hk, hf, Option.bind_eq_bind, Option.bind_some, if_false] at h
      obtain ⟨-, rfl⟩ := Prod.mk.inj (Option.some.inj h)
      rfl
  rw [halloc]
  exact ⟨hcalls, hfails⟩

/-- A chosen call of `alloc_table` returns NULL. -/
theorem failing_alloc_table_null {m : Machine (Failing σ)}
    (h : m.alloc.fails m.alloc.calls = true) :
    alloc_table m = some (0, { m with alloc := { m.alloc with calls := m.alloc.calls + 1 } }) := by
  have hk : PageAllocator.kmalloc m.hhdm m.alloc m.mem =
      some (0, { m.alloc with calls := m.alloc.calls + 1 }, m.mem) := if_pos h
  unfold alloc_table Machine.kmalloc
  simp [hk]

/-- The walker stands at the table `f`, `k` calls succeed and the next one
    fails, and more than `k` tables are missing. -/
structure Doomed (A : AllocSpec σ) (root : UInt64) (pages : List UInt64) (p : List (Fin 512))
    (f : UInt64) (k : Nat) (m : Machine (Failing σ)) : Prop where
  paged   : ∃ owned, Paged (failingSpec A) k root owned m
  path    : follow nextTable m.mem.entry root p = some f
  supply  : A.Supply k m.alloc.inner
  fails   : m.alloc.fails (m.alloc.calls + k) = true
  missing : k < (missingTables root m.mem pages).card

/-- **One level before a failing call**: an unsound store, or the walker stands
    at the next table and the failing call is still to come. -/
theorem ensure_table_doomed {pages : List UInt64} {f : UInt64} {p : List (Fin 512)} {i : Fin 512}
    {k : Nat} {m : Machine (Failing σ)} (h : Doomed A root pages p f k m) (hlen : p.length < 3)
    (hpage : p ++ [i] ∈ (pages.flatMap upperPaths).toFinset) :
    (∃ st ∈ ensure_tableStores f i m, ¬ st.Sound root hhdm) ∨
      ∃ g m' k', ensure_table f i m = some (g, m') ∧ Doomed A root pages (p ++ [i]) g k' m' := by
  obtain ⟨owned, hpaged⟩ := h.paged
  have hpath := h.path
  unfold ensure_tableStores
  rw [readEntry_eq, ensure_table_eq]
  by_cases hp : m.mem.entry f i &&& PAGE_PRESENT = 0
  · rw [if_pos hp, if_pos hp]
    cases k with
    | zero =>
      -- The NULL answer becomes the entry 3, which points to frame 0.
      rw [failing_alloc_table_null h.fails]
      refine Or.inl ⟨_, List.mem_singleton_self _, fun hsound => ?_⟩
      have hpresent : (0 ||| PAGE_PRESENT ||| PAGE_RW) &&& PAGE_PRESENT ≠ 0 := by decide
      have hzero : (0 ||| PAGE_PRESENT ||| PAGE_RW) &&& frameMask = 0 := by decide
      obtain ⟨v, hv, -⟩ := hsound.frame hpresent hzero
      cases hv
    | succ k =>
      obtain ⟨t, m₁, ha, hsupply⟩ := alloc_table_total (A := failingSpec A) (s := m) h.supply
      obtain ⟨hcalls, hfails⟩ := failing_alloc_table ha
      rcases alloc_table_cases hpaged.aligned hpaged.alloc ha with ⟨-, hnone⟩ | ⟨-, hfresh⟩
      · cases hnone.none_left
      have hlinked := paged_link (PAGE_PRESENT ||| PAGE_RW) hpaged hfresh hpath hlen hp
        (by decide) (by decide)
      have hcard := missingTables_link (PAGE_PRESENT ||| PAGE_RW) hpaged.tables hfresh hpath hlen
        hp (by decide) (by decide) hpage
      have hmissing := h.missing
      have hflags : (PAGE_PRESENT ||| PAGE_RW).toNat < 4096 := by decide
      have hentry := entry_and_not_fff hfresh.good.aligned hflags
      refine Or.inr ⟨t, m₁.writeEntry f i (t ||| (PAGE_PRESENT ||| PAGE_RW)), k, ?_, ?_⟩
      · rw [ha, Option.map_some, hentry]
      · refine ⟨⟨t :: owned, hlinked.paged⟩, hlinked.path, hsupply, ?_, by omega⟩
        show m₁.alloc.fails (m₁.alloc.calls + k) = true
        rw [hcalls, hfails, Nat.add_assoc, Nat.add_comm 1 k]
        exact h.fails
  · rw [if_neg hp, if_neg hp]
    have hlinked := linked_present hpaged (Nat.le_refl _) hpath hp
    exact Or.inr ⟨_, m, k, rfl, ⟨owned, hpaged⟩, hlinked.path, h.supply, h.fails, h.missing⟩

/-- Rule for a search along `map_leaf`: a level has a bad store, or it keeps
    what leads to the next one. -/
theorem map_leafStores_search {e : UInt64} (At : List (Fin 512) → UInt64 → Machine σ → Prop)
    (Bad : EntryStore σ → Prop) (hstart : At [] root s)
    (hlevel : ∀ p f i t, p ++ [i] <+: tablePath vaddr → At p f t →
      (∃ st ∈ ensure_tableStores f i t, Bad st) ∨
        ∃ g t', ensure_table f i t = some (g, t') ∧ At (p ++ [i]) g t') :
    (∃ st ∈ map_leafStores root vaddr e s, Bad st) ∨
      ∃ pt t, At (tablePath vaddr) pt t ∧
        map_leaf root vaddr e s = some (t.writeEntry pt (pt_idx vaddr) e) := by
  unfold map_leafStores
  rcases hlevel [] root (pml4_idx vaddr) s ⟨_, rfl⟩ hstart with
    ⟨st, hst, hbad⟩ | ⟨pdpt, s₁, h₁, hat₁⟩
  · exact Or.inl ⟨st, List.mem_append_left _ hst, hbad⟩
  rcases hlevel _ pdpt (pdpt_idx vaddr) s₁ ⟨_, rfl⟩ hat₁ with ⟨st, hst, hbad⟩ | ⟨pd, s₂, h₂, hat₂⟩
  · refine Or.inl ⟨st, List.mem_append_right _ ?_, hbad⟩
    rw [h₁]
    exact List.mem_append_left _ hst
  rcases hlevel _ pd (pd_idx vaddr) s₂ ⟨[], rfl⟩ hat₂ with ⟨st, hst, hbad⟩ | ⟨pt, s₃, h₃, hat₃⟩
  · refine Or.inl ⟨st, List.mem_append_right _ ?_, hbad⟩
    rw [h₁]
    dsimp only
    rw [h₂]
    exact List.mem_append_right _ (List.mem_append_left _ hst)
  · exact Or.inr ⟨pt, s₃, hat₃, by simp [map_leaf, h₁, h₂, h₃]⟩

/-- **A failing call before all missing tables are there** makes an unsound
    store. -/
theorem mapLeavesStores_unsound (hhdm : UInt64) {ws : List LeafWrite} {k : Nat}
    {m : Machine (Failing σ)}
    (h : Doomed A root (ws.map LeafWrite.vaddr) [] root k m) :
    ∃ st ∈ mapLeavesStores root ws m, ¬ st.Sound root hhdm := by
  induction ws generalizing m k with
  | nil => exact absurd h.missing (by simp [missingTables, missing])
  | cons w ws ih =>
    unfold mapLeavesStores
    have hlevel : ∀ p f i (t : Machine (Failing σ)), p ++ [i] <+: tablePath w.vaddr →
        (∃ k, Doomed A root ((w :: ws).map LeafWrite.vaddr) p f k t) →
        (∃ st ∈ ensure_tableStores f i t, ¬ st.Sound root hhdm) ∨
          ∃ g t', ensure_table f i t = some (g, t') ∧
            ∃ k, Doomed A root ((w :: ws).map LeafWrite.vaddr) (p ++ [i]) g k t' := by
      intro p f i t hpre hdoomed
      obtain ⟨k, hk⟩ := hdoomed
      have hpage : p ++ [i] ∈ (((w :: ws).map LeafWrite.vaddr).flatMap upperPaths).toFinset := by
        rw [List.mem_toFinset, List.map_cons, List.flatMap_cons]
        exact List.mem_append_left _ (mem_upperPaths_of_isPrefix hpre)
      rcases ensure_table_doomed hk (length_le_of_isPrefix hpre) hpage with
        hbad | ⟨g, t', k', hget, hk'⟩
      · exact Or.inl hbad
      · exact Or.inr ⟨g, t', hget, k', hk'⟩
    rcases map_leafStores_search (e := w.entry) _ _ ⟨k, h⟩ hlevel with
      ⟨st, hst, hbad⟩ | ⟨pt, t, ⟨k', hk'⟩, hmap⟩
    · exact ⟨st, List.mem_append_left _ hst, hbad⟩
    -- All tables of this page are there, so the failing call is still to come.
    · obtain ⟨owned, hpaged⟩ := hk'.paged
      have hmissing := hk'.missing
      rw [List.map_cons, missingTables_cons hk'.path,
        ← missingTables_setLeaf (i := pt_idx w.vaddr) (e := w.entry) hpaged.tables hk'.path rfl]
        at hmissing
      obtain ⟨st, hst, hbad⟩ := ih ⟨⟨owned, (paged_setLeaf hpaged hk'.path rfl).1⟩, rfl,
        hk'.supply, hk'.fails, hmissing⟩
      refine ⟨st, List.mem_append_right _ ?_, hbad⟩
      rw [hmap]
      exact hst

/-! ## Section 6: `map_range` -/

/-- What a range that meets allocation failures should leave intact: every
    store is sound, and if the call returns, the pages outside the range have
    their old translations. -/
structure RangeSurvives (root virt_start virt_end flags : UInt64) (s : Machine σ) : Prop where
  stores  : ∀ st ∈ map_rangeStores root virt_start virt_end flags s, st.Sound root s.hhdm
  outside : ∀ s', map_range root virt_start virt_end flags s = some s' →
    ∀ va, (∀ v, PageAligned v → pageOf virt_start ≤ v → v < virt_end → pageKey va ≠ pageKey v) →
      walk s'.mem root va = walk s.mem root va

/-- The tables that the pages of a range miss. -/
def rangeMissing (root virt_start virt_end : UInt64) (m : Mem) : Finset (List (Fin 512)) :=
  missingTables root m (rangeVisits virt_end allRounds (pageOf virt_start))

omit [PageAllocator σ] in
theorem pageWrites_pages (hhdm flags : UInt64) (pages : List UInt64) :
    (pageWrites hhdm flags pages).map LeafWrite.vaddr = pages := by
  unfold pageWrites
  rw [List.map_map]
  exact List.map_id pages

omit [PageAllocator σ] in
/-- A leaf entry points to frame 0 only if its page has its address there. -/
theorem rangeEntry_frame {flags v : UInt64} (h : rangeEntry hhdm flags v &&& frameMask = 0) :
    rangePaddr hhdm v &&& frameMask = 0 := by
  have hbits := congrArg UInt64.toBitVec h
  unfold rangeEntry at hbits
  rw [UInt64.or_assoc, UInt64.toBitVec_and, UInt64.toBitVec_or, BitVec.and_or_distrib_right] at hbits
  exact UInt64.eq_of_toBitVec_eq (BitVec.or_eq_zero_iff.mp hbits).1

/-- A range with a promised frame for each missing table survives. -/
theorem rangeSurvives_of_room {virt_start virt_end flags : UInt64}
    (hpaged : Paged A (rangeMissing root virt_start virt_end s.mem).card root owned s) :
    RangeSurvives root virt_start virt_end flags s := by
  have hpages := pageWrites_pages s.hhdm flags (rangeVisits virt_end allRounds (pageOf virt_start))
  unfold rangeMissing at hpaged
  rw [← hpages] at hpaged
  have hentries : ∀ w ∈ pageWrites s.hhdm flags (rangeVisits virt_end allRounds (pageOf virt_start)),
      w.entry &&& frameMask = 0 → rangePaddr s.hhdm w.vaddr &&& frameMask = 0 := by
    intro w hw
    obtain ⟨v, -, rfl⟩ := List.mem_map.mp hw
    exact rangeEntry_frame
  obtain ⟨hsound, halloc⟩ := mapLeavesStores_sound hpaged hentries
  constructor
  · intro st hst
    unfold map_rangeStores at hst
    rw [mapRangeStores_eq] at hst
    exact hsound st hst
  · intro s' h va hva
    rw [mapRange_eq_mapLeaves] at h
    obtain ⟨ws, hws, hleaves⟩ := Option.bind_eq_some_iff.mp h
    -- A loop that ends has written pages of the range only.
    obtain ⟨ws', hws', -, hmem⟩ :=
      rangeWrites_all s.hhdm flags virt_start (end_of_rangeWrites hws)
    obtain rfl := Option.some.inj (hws.symm.trans hws')
    have hvisits := rangeWrites_eq_visits hws
    rw [← hvisits] at hpaged halloc
    obtain ⟨owned', hpaged', -, hviews⟩ := mapLeaves_spec hpaged (halloc s' hleaves) hleaves
    apply walk_congr hpaged'.tables hpaged.tables
    refine (hviews (pageKey va) rfl).trans (applyWrites_of_not_mem (fun w hw => ?_) _)
    obtain ⟨halign, hge, hlt, -⟩ := (hmem w).mp hw
    exact hva w.vaddr halign hge hlt

/-- **`map_range` and allocation failure**: with a frame at hand for each call of
    `alloc_table` that is not chosen to fail, the range survives if and only if
    none of the first calls is chosen, one for each table that its pages miss. -/
theorem map_range_survives_iff (A : AllocSpec σ) (owned : List UInt64) (m : Machine (Failing σ))
    (root virt_start virt_end flags : UInt64) (hpaged : Paged (failingSpec A) 0 root owned m)
    (hroom : A.Inv (rangeMissing root virt_start virt_end m.mem).card m.hhdm m.alloc.inner m.mem
      owned)
    (hsupply : A.Supply (rangeMissing root virt_start virt_end m.mem).card m.alloc.inner) :
    RangeSurvives root virt_start virt_end flags m ↔
      ∀ k < (rangeMissing root virt_start virt_end m.mem).card,
        m.alloc.fails (m.alloc.calls + k) = false := by
  constructor
  · intro hsurvives k
    -- The first chosen call is the one that does the damage.
    induction k using Nat.strongRecOn with
    | ind k ih =>
      intro hk
      by_contra hfails
      have hpages :=
        pageWrites_pages m.hhdm flags (rangeVisits virt_end allRounds (pageOf virt_start))
      have hdoomed : Doomed A root (rangeVisits virt_end allRounds (pageOf virt_start)) [] root k m :=
        ⟨⟨owned, ⟨fun j hj => ih j hj (by omega), A.mono_le (Nat.le_of_lt hk) hroom⟩,
          hpaged.tables⟩, rfl, A.supply_mono_le (Nat.le_of_lt hk) hsupply, by simpa using hfails, hk⟩
      rw [← hpages] at hdoomed
      obtain ⟨st, hst, hbad⟩ := mapLeavesStores_unsound m.hhdm hdoomed
      apply hbad (hsurvives.stores st ?_)
      unfold map_rangeStores
      rw [mapRangeStores_eq]
      exact hst
  · intro hcalls
    have hpaged' : Paged (failingSpec A) (rangeMissing root virt_start virt_end m.mem).card root
        owned m := ⟨⟨hcalls, hroom⟩, hpaged.tables⟩
    exact rangeSurvives_of_room hpaged'

end survives

/-- A kernel with an empty PML4 and an allocator of which chosen calls fail. -/
def failingKernel (answers : List UInt64) (fails : Nat → Bool) :
    Machine (Failing (List UInt64)) where
  mem   := fun _ => 0
  hhdm  := 0xFFFF800000000000
  alloc := { inner := answers, calls := 0, fails := fails }
  pml4  := 0x1000
  early_page_tables := []
  cr3   := some 0x1000

theorem failingKernel_paged {answers : List UInt64} (fails : Nat → Bool)
    (h : FreshScript 0 answers [0x1000]) :
    Paged (failingSpec scriptSpec) 0 0x1000 [0x1000] (failingKernel answers fails) := by
  have hgood : GoodFrame (2 ^ 52) 0x1000 := ⟨by decide, by decide, by decide⟩
  exact ⟨⟨fun k hk => absurd hk (by omega), h⟩, (tables_of_zero hgood fun _ => rfl).1⟩

/-- The first page of an empty address space misses three tables. -/
theorem rangeMissing_first_page :
    (rangeMissing 0x1000 0 0x1000 fun _ => 0).card = 3 := by
  have hlast : ∀ rounds, rangeVisits 0x1000 rounds 0x1000 = [] := by
    intro rounds
    cases rounds <;> rfl
  have hvisits : rangeVisits 0x1000 allRounds (pageOf 0) = [0] := by
    unfold allRounds rangeVisits
    rw [if_pos (by decide)]
    exact congrArg (_ :: ·) (hlast _)
  unfold rangeMissing
  rw [hvisits]
  decide

/-- The first call fails: the PML4 gets an entry for frame 0. -/
theorem map_range_null_table :
    let m := failingKernel [0x2000, 0x3000, 0x4000] fun k => k == 0
    Paged (failingSpec scriptSpec) 0 0x1000 [0x1000] m ∧ ¬ RangeSurvives 0x1000 0 0x1000 3 m := by
  intro m
  have hpaged : Paged (failingSpec scriptSpec) 0 0x1000 [0x1000] m :=
    failingKernel_paged _ (freshScript_of_all (by decide) (by decide))
  refine ⟨hpaged, fun hsurvives => ?_⟩
  have hdoomed : Doomed scriptSpec 0x1000 (rangeVisits 0x1000 allRounds (pageOf 0)) [] 0x1000 0 m :=
    ⟨⟨_, hpaged⟩, rfl, Nat.zero_le _, rfl, Nat.lt_of_lt_of_eq (by omega) rangeMissing_first_page.symm⟩
  rw [← pageWrites_pages m.hhdm 3 (rangeVisits 0x1000 allRounds (pageOf 0))] at hdoomed
  obtain ⟨st, hst, hbad⟩ := mapLeavesStores_unsound m.hhdm hdoomed
  apply hbad (hsurvives.stores st ?_)
  unfold map_rangeStores
  rw [mapRangeStores_eq]
  exact hst

/-- A failure of the fourth call does no harm, there are only three. -/
theorem map_range_survives_three :
    RangeSurvives 0x1000 0 0x1000 3
      (failingKernel [0x2000, 0x3000, 0x4000] fun k => k == 3) := by
  have hcard := rangeMissing_first_page
  have hscript : FreshScript 3 [0x2000, 0x3000, 0x4000] [0x1000] :=
    freshScript_of_all (by decide) (by decide)
  have hscript₀ : FreshScript 0 [0x2000, 0x3000, 0x4000] [0x1000] :=
    freshScript_of_all (by decide) (by decide)
  refine (map_range_survives_iff scriptSpec [0x1000]
    (failingKernel [0x2000, 0x3000, 0x4000] fun k => k == 3) 0x1000 0 0x1000 3
    (failingKernel_paged _ hscript₀) ?_ ?_).mpr ?_
  · change FreshScript (rangeMissing 0x1000 0 0x1000 fun _ => 0).card _ _
    rw [hcard]
    exact hscript
  · exact Nat.le_of_eq hcard
  · change ∀ k < (rangeMissing 0x1000 0 0x1000 fun _ => 0).card, _
    rw [hcard]
    decide

end ArgaldOS
