import ArgaldOS.Paging.Failure

/-! # Ranges of pages

    The loop of `map_range` steps a 64-bit address and compares it with the
    end of the range.  Every aligned address is below an end in the last page,
    so there the address wraps to 0 and the loop goes on for ever.

    The walkers that `init_paging` spells out map one page to an address that
    is taken for a physical one; `map_range` subtracts the offset of the direct
    map from the addresses above it.

    * `map_range_complete_iff`: the loop ends, and maps the pages of its range
      in order and once each, if and only if the end is not in the last page;
    * `open_coded_agrees_iff`: when an open-coded walker does what the call of
      `map_range` for its page would do.
-/

namespace ArgaldOS

open TableTree Runs

/-! ## Section 1: The pages that the loop comes to -/

/-- The page `v` has an address of the range. -/
def MeetsPage (virt_start virt_end v : UInt64) : Prop :=
  ∃ x, virt_start ≤ x ∧ x < virt_end ∧ pageOf x = v

theorem meetsPage_iff {virt_start virt_end v : UInt64} (hlt : virt_start < virt_end) :
    MeetsPage virt_start virt_end v ↔ PageAligned v ∧ pageOf virt_start ≤ v ∧ v < virt_end := by
  unfold MeetsPage
  simp only [UInt64.le_iff_toNat_le, UInt64.lt_iff_toNat_lt, toNat_pageOf] at hlt ⊢
  constructor
  · intro h
    obtain ⟨x, hge, hx, rfl⟩ := h
    rw [toNat_pageOf]
    exact ⟨pageOf_aligned x, by omega, by omega⟩
  · intro h
    obtain ⟨ha, hge, hv⟩ := h
    by_cases hstart : virt_start.toNat ≤ v.toNat
    · exact ⟨v, hstart, hv, pageOf_of_aligned ha⟩
    -- The range starts inside the page.
    · refine ⟨virt_start, Nat.le_refl _, hlt, Words.ext ?_⟩
      unfold PageAligned PAGE_SIZE at ha
      rw [toNat_pageOf]
      omega

/-- A loop that does not come to the last page goes upwards. -/
theorem rangeVisits_sorted {virt_end : UInt64} (hend : virt_end.toNat ≤ 2 ^ 64 - 4096)
    (rounds : Nat) (vaddr : UInt64) :
    (rangeVisits virt_end rounds vaddr).Pairwise (· < ·) ∧
      ∀ v ∈ rangeVisits virt_end rounds vaddr, vaddr ≤ v := by
  induction rounds generalizing vaddr with
  | zero => exact ⟨List.Pairwise.nil, by simp [rangeVisits]⟩
  | succ rounds ih =>
    unfold rangeVisits
    by_cases hlt : vaddr < virt_end
    · rw [if_pos hlt]
      rw [UInt64.lt_iff_toNat_lt] at hlt
      have hnext : (vaddr + 0x1000).toNat = vaddr.toNat + 4096 :=
        Words.toNat_add_lt vaddr 0x1000 (by show vaddr.toNat + 4096 < _; omega)
      obtain ⟨hsorted, hge⟩ := ih (vaddr + 0x1000)
      -- All later pages are at or above the next address.
      have habove : ∀ v ∈ rangeVisits virt_end rounds (vaddr + 0x1000), vaddr < v := by
        intro v hv
        have := hge v hv
        rw [UInt64.le_iff_toNat_le] at this
        rw [UInt64.lt_iff_toNat_lt]
        omega
      refine ⟨List.pairwise_cons.mpr ⟨habove, hsorted⟩, fun v hv => ?_⟩
      rcases List.mem_cons.mp hv with rfl | hv
      · exact UInt64.le_refl v
      · exact UInt64.le_of_lt (habove v hv)
    · rw [if_neg hlt]
      exact ⟨List.Pairwise.nil, by simp⟩

section range
variable {σ : Type} [PageAllocator σ]

/-! ## Section 2: The leaf entries that it stores -/

/-- The tables of a page get no leaf entry before the page does. -/
theorem map_leafStores_pages {pml4 vaddr entry : UInt64} {s s' : Machine σ}
    (h : map_leaf pml4 vaddr entry s = some s') :
    (map_leafStores pml4 vaddr entry s).filterMap EntryStore.page = [vaddr] := by
  have hupper : ∀ f i (t : Machine σ), (ensure_tableStores f i t).filterMap EntryStore.page = [] := by
    intro f i t
    unfold ensure_tableStores
    split
    · cases alloc_table t <;> rfl
    · rfl
  obtain ⟨pdpt, s₁, pd, s₂, pt, s₃, h₁, h₂, h₃, -⟩ := map_leaf_cases h
  simp [map_leafStores, h₁, h₂, h₃, hupper]

/-- A sequence of writes stores its leaf entries in order. -/
theorem mapLeavesStores_pages {pml4 : UInt64} {ws : List LeafWrite} {s s' : Machine σ}
    (h : mapLeaves pml4 ws s = some s') :
    (mapLeavesStores pml4 ws s).filterMap EntryStore.page = ws.map LeafWrite.vaddr := by
  induction ws generalizing s with
  | nil => rfl
  | cons w ws ih =>
    obtain ⟨s₁, h₁, h₂⟩ := Option.bind_eq_some_iff.mp h
    unfold mapLeavesStores
    rw [h₁, List.filterMap_append, map_leafStores_pages h₁, ih h₂]
    rfl

/-- What a call of `map_range` should do: it returns, having stored a leaf entry
    for each page that meets the range, once and in increasing order. -/
def RangeComplete (root virt_start virt_end flags : UInt64) (s : Machine σ) : Prop :=
  ∃ s' pages, map_range root virt_start virt_end flags s = some s' ∧
    mapLeaves root (pageWrites s.hhdm flags pages) s = some s' ∧
    (map_rangeStores root virt_start virt_end flags s).filterMap EntryStore.page = pages ∧
    pages.Pairwise (· < ·) ∧ ∀ v, v ∈ pages ↔ MeetsPage virt_start virt_end v

/-- **`map_range` at the top of the address space**: whenever the allocator
    answers, the call does what it should if and only if its range does not end
    in the last page. -/
theorem map_range_complete_iff (A : AllocSpec σ) (s : Machine σ)
    (root virt_start virt_end flags : UInt64) (hlt : virt_start < virt_end)
    (hsupply : A.Supply (3 * rangePages (pageOf virt_start) virt_end) s.alloc) :
    RangeComplete root virt_start virt_end flags s ↔ virt_end.toNat ≤ 2 ^ 64 - 4096 := by
  constructor
  · intro h
    obtain ⟨s', pages, hmap, -⟩ := h
    by_contra hlast
    rw [mapRange_eq_mapLeaves,
      rangeWrites_never s.hhdm flags (by omega) allRounds (pageOf_aligned virt_start)] at hmap
    cases hmap
  · intro hend
    obtain ⟨ws, hws, hlen, hmem⟩ := rangeWrites_all s.hhdm flags virt_start hend
    have hvisits := rangeWrites_eq_visits hws
    have hpages := pageWrites_pages s.hhdm flags (rangeVisits virt_end allRounds (pageOf virt_start))
    rw [← hvisits] at hpages
    have hall : A.Supply (0 + 3 * ws.length) s.alloc := by
      rw [hlen, Nat.zero_add]
      exact hsupply
    obtain ⟨s', hs', -⟩ := mapLeaves_total root hall
    refine ⟨s', rangeVisits virt_end allRounds (pageOf virt_start), ?_, ?_, ?_,
      (rangeVisits_sorted hend allRounds (pageOf virt_start)).1, fun v => ?_⟩
    · rw [mapRange_eq_mapLeaves, hws]
      exact hs'
    · rw [← hvisits]
      exact hs'
    · unfold map_rangeStores
      rw [mapRangeStores_eq]
      exact (congrArg (fun ws => (mapLeavesStores root ws s).filterMap EntryStore.page)
        hvisits.symm).trans ((mapLeavesStores_pages hs').trans hpages)
    · rw [meetsPage_iff hlt, ← hpages, List.mem_map]
      constructor
      · intro hv
        obtain ⟨w, hw, rfl⟩ := hv
        obtain ⟨ha, hge, hwlt, -⟩ := (hmem w).mp hw
        exact ⟨ha, hge, hwlt⟩
      · intro hv
        exact ⟨⟨v, rangeEntry s.hhdm flags v⟩, (hmem _).mpr ⟨hv.1, hv.2.1, hv.2.2, rfl⟩, rfl⟩

end range

/-- A range in the last page never ends. -/
theorem map_range_last_page :
    ¬ RangeComplete 0x1000 0xFFFFFFFFFFFFF000 0xFFFFFFFFFFFFFFFF 3
      (emptyKernel [0x2000, 0x3000, 0x4000]) := by
  intro h
  obtain ⟨s', pages, hmap, -⟩ := h
  rw [mapRange_eq_mapLeaves, rangeWrites_never _ _ (by decide) _ (pageOf_aligned _)] at hmap
  cases hmap

theorem map_range_complete_first_page :
    RangeComplete 0x1000 0x10 0x1000 3 (emptyKernel [0x2000, 0x3000, 0x4000]) :=
  (map_range_complete_iff scriptSpec (emptyKernel [0x2000, 0x3000, 0x4000]) 0x1000 0x10 0x1000 3
    (by decide) (show 3 * rangePages (pageOf 0x10) 0x1000 ≤ 3 by decide)).mpr (by decide)

/-! ## Section 3: The open-coded walkers -/

/-- The leaf entry that the open-coded walkers of `init_paging` give to a page. -/
def blockEntry (addr : UInt64) : UInt64 := addr ||| PAGE_PRESENT ||| PAGE_RW

/-- The frame and the flags that the hardware reads from a leaf entry. -/
def decodeEntry (e : UInt64) : UInt64 × UInt64 := (e &&& frameMask, e &&& 0xFFF)

/-- The flags that `init_paging` passes to `map_range`. -/
def initFlags : UInt64 := PAGE_PRESENT ||| PAGE_RW

theorem rangeEntry_eq_block (hhdm v : UInt64) :
    rangeEntry hhdm initFlags v = blockEntry (rangePaddr hhdm v) := by
  unfold rangeEntry blockEntry initFlags
  rw [UInt64.or_assoc, UInt64.or_assoc, UInt64.or_assoc]
  rfl

theorem toNat_blockEntry (x : UInt64) : (blockEntry x).toNat = x.toNat / 4 * 4 + 3 := by
  unfold blockEntry
  rw [UInt64.or_assoc]
  exact Words.toNat_or_mask x (PAGE_PRESENT ||| PAGE_RW) 2 rfl

theorem leafEntry_block (x : UInt64) : leafEntry (blockEntry x) = some (blockEntry x) := by
  have hp : blockEntry x &&& PAGE_PRESENT ≠ 0 := by
    rw [present_iff, toNat_blockEntry]
    omega
  unfold leafEntry
  rw [if_neg hp]

/-- An address gives the entry of an aligned one if the hardware sees no
    difference but in the two lowest bits. -/
theorem decode_block_iff {p x : UInt64} (hx : PageAligned x) :
    decodeEntry (blockEntry p) = (x &&& frameMask, 3) ↔ (p - x).toNat % 2 ^ 52 < 4 := by
  have hp := p.toNat_lt
  have hx' := x.toNat_lt
  unfold PageAligned PAGE_SIZE at hx
  unfold decodeEntry
  rw [Prod.mk.injEq, ← UInt64.toNat_inj, ← UInt64.toNat_inj, toNat_and_frameMask,
    toNat_and_frameMask, toNat_and_fff, toNat_blockEntry, UInt64.toNat_sub]
  show _ ∧ _ = 3 ↔ _
  constructor
  · intro h
    omega
  · intro h
    omega

/-- An aligned address is its own frame. -/
theorem decode_block_aligned {x : UInt64} (hx : PageAligned x) :
    decodeEntry (blockEntry x) = (x &&& frameMask, 3) := by
  rw [decode_block_iff hx, UInt64.sub_self]
  decide

/-- The leaf writes of `map_range` for the page-sized range that starts at
    `b`: none in the last page, one page or two pages, no end if the second of
    two is the last page. -/
theorem rangeWrites_page (hhdm flags b : UInt64) :
    rangeWrites hhdm (b + 0x1000) flags allRounds (pageOf b) =
      if 2 ^ 64 - 4096 ≤ b.toNat then some []
      else if PageAligned b then some (pageWrites hhdm flags [b])
      else if b.toNat + 4096 ≤ 2 ^ 64 - 4096 then
        some (pageWrites hhdm flags [pageOf b, pageOf b + 0x1000])
      else none := by
  have hb := b.toNat_lt
  have hpage := toNat_pageOf b
  obtain ⟨rounds, hrounds⟩ : ∃ rounds, allRounds = rounds + 3 :=
    ⟨2 ^ 52 - 2, by unfold allRounds; omega⟩
  have hend : (b + 0x1000).toNat = (b.toNat + 4096) % 2 ^ 64 := UInt64.toNat_add b 0x1000
  by_cases hlast : 2 ^ 64 - 4096 ≤ b.toNat
  · have hstop : ¬ pageOf b < b + 0x1000 := by
      rw [UInt64.lt_iff_toNat_lt]
      omega
    rw [if_pos hlast, hrounds]
    unfold rangeWrites
    rw [if_neg hstop]
  have hnext : (pageOf b + 0x1000).toNat = (pageOf b).toNat + 4096 :=
    Words.toNat_add_lt _ 0x1000 (by show (pageOf b).toNat + 4096 < _; omega)
  have hgo : pageOf b < b + 0x1000 := by
    rw [UInt64.lt_iff_toNat_lt]
    omega
  rw [if_neg hlast]
  by_cases haligned : PageAligned b
  · have hstop : ¬ b + 0x1000 < b + 0x1000 := UInt64.lt_irrefl _
    rw [if_pos haligned, hrounds]
    rw [pageOf_of_aligned haligned] at hgo ⊢
    unfold rangeWrites
    rw [if_pos hgo]
    unfold rangeWrites
    rw [if_neg hstop]
    rfl
  rw [if_neg haligned]
  unfold PageAligned PAGE_SIZE at haligned
  by_cases hroom : b.toNat + 4096 ≤ 2 ^ 64 - 4096
  · have hgo' : pageOf b + 0x1000 < b + 0x1000 := by
      rw [UInt64.lt_iff_toNat_lt]
      omega
    have hstop : ¬ pageOf b + 0x1000 + 0x1000 < b + 0x1000 := by
      have h2 : (pageOf b + 0x1000 + 0x1000).toNat = (pageOf b + 0x1000).toNat + 4096 :=
        Words.toNat_add_lt _ 0x1000 (by show (pageOf b + 0x1000).toNat + 4096 < _; omega)
      rw [UInt64.lt_iff_toNat_lt]
      omega
    rw [if_pos hroom, hrounds]
    unfold rangeWrites
    rw [if_pos hgo]
    unfold rangeWrites
    rw [if_pos hgo']
    unfold rangeWrites
    rw [if_neg hstop]
    rfl
  · rw [if_neg hroom]
    exact rangeWrites_never hhdm flags (by omega) allRounds (pageOf_aligned b)

section blocks
variable {σ : Type} [PageAllocator σ] {A : AllocSpec σ}
variable {n : Nat} {root : UInt64} {owned : List UInt64} {s : Machine σ}

/-- No write of `map_range` meets an allocation failure, if its loop ends. -/
def RangeAllocated (root virt_start virt_end flags : UInt64) (s : Machine σ) : Prop :=
  ∀ ws, rangeWrites s.hhdm virt_end flags allRounds (pageOf virt_start) = some ws →
    LeavesAllocated root s ws

/-- A sequence of writes without allocation failure returns. -/
theorem mapLeaves_of_allocated {ws : List LeafWrite} (h : LeavesAllocated root s ws) :
    ∃ s', mapLeaves root ws s = some s' := by
  induction ws generalizing s with
  | nil => exact ⟨s, rfl⟩
  | cons w ws ih =>
    obtain ⟨⟨pdpt, s₁, pd, s₂, pt, s₃, h₁, -, h₂, -, h₃, -⟩, hrest⟩ := h
    have hmap : map_leaf root w.vaddr w.entry s =
        some (s₃.writeEntry pt (pt_idx w.vaddr) w.entry) := by
      simp [map_leaf, h₁, h₂, h₃]
    obtain ⟨s', hs'⟩ := ih (hrest _ hmap)
    exact ⟨s', by simp [mapLeaves, hmap, hs']⟩

/-- What the hardware sees of a page after a sequence of writes. -/
theorem mapLeaves_walks {ws : List LeafWrite} (hpaged : Paged A n root owned s)
    (halloc : LeavesAllocated root s ws) :
    ∃ s', mapLeaves root ws s = some s' ∧
      ∀ va, walk s'.mem root va =
        (applyWrites ws (view s.mem root va) (pageKey va)).map decodeEntry := by
  obtain ⟨s', h⟩ := mapLeaves_of_allocated halloc
  obtain ⟨owned', hpaged', -, hviews⟩ := mapLeaves_spec hpaged halloc h
  refine ⟨s', h, fun va => ?_⟩
  rw [walk_eq_view hpaged'.tables]
  exact congrArg (Option.map decodeEntry) (hviews (pageKey va) rfl)

/-- The walker that maps the page of `b` to the physical address `x` changes
    the translations as `map_range` does on the page-sized range from `b`. -/
def BlockAgrees (root b x : UInt64) (s : Machine σ) : Prop :=
  ∃ s₁ s₂, map_leaf root b (blockEntry x) s = some s₁ ∧
    map_range root b (b + 0x1000) initFlags s = some s₂ ∧
    ∀ va, walk s₁.mem root va = walk s₂.mem root va

/-- Both are sequences of writes to the tables that they find. -/
theorem blockAgrees_iff_writes {b x : UInt64} (hpaged : Paged A n root owned s)
    (hblock : LeafAllocated root b s) (hrange : RangeAllocated root b (b + 0x1000) initFlags s) :
    BlockAgrees root b x s ↔
      ∃ ws, rangeWrites s.hhdm (b + 0x1000) initFlags allRounds (pageOf b) = some ws ∧
        ∀ va, (if pageKey va = pageKey b then some (decodeEntry (blockEntry x))
            else walk s.mem root va) =
          (applyWrites ws (view s.mem root va) (pageKey va)).map decodeEntry := by
  have hone : LeavesAllocated root s [⟨b, blockEntry x⟩] := ⟨hblock, fun _ _ => trivial⟩
  obtain ⟨s₁, hs₁, hwalks₁⟩ := mapLeaves_walks hpaged hone
  have hmap : map_leaf root b (blockEntry x) s = some s₁ := by
    obtain ⟨t, ht, hnil⟩ := Option.bind_eq_some_iff.mp hs₁
    obtain rfl := Option.some.inj hnil
    exact ht
  have hafter : ∀ va, walk s₁.mem root va =
      if pageKey va = pageKey b then some (decodeEntry (blockEntry x)) else walk s.mem root va := by
    intro va
    rw [hwalks₁, walk_eq_view hpaged.tables]
    show (if pageKey va = pageKey b then leafEntry (blockEntry x) else view s.mem root va).map _ = _
    rw [leafEntry_block]
    split <;> rfl
  unfold BlockAgrees
  rw [mapRange_eq_mapLeaves]
  constructor
  · intro h
    obtain ⟨t₁, t₂, ht₁, ht₂, hsame⟩ := h
    obtain rfl := Option.some.inj (hmap.symm.trans ht₁)
    obtain ⟨ws, hws, hleaves⟩ := Option.bind_eq_some_iff.mp ht₂
    obtain ⟨t₂', ht₂', hwalks₂⟩ := mapLeaves_walks hpaged (hrange ws hws)
    obtain rfl := Option.some.inj (hleaves.symm.trans ht₂')
    refine ⟨ws, hws, fun va => ?_⟩
    rw [← hafter, hsame, hwalks₂]
  · intro h
    obtain ⟨ws, hws, hsame⟩ := h
    obtain ⟨s₂, hs₂, hwalks₂⟩ := mapLeaves_walks hpaged (hrange ws hws)
    refine ⟨s₁, s₂, hmap, ?_, fun va => ?_⟩
    · rw [hws]
      exact hs₂
    · rw [hafter, hsame, hwalks₂]

omit [PageAllocator σ] in
theorem walk_of_pageKey {m : Mem} {va vb : UInt64} (htab : Tables root owned m)
    (h : pageKey va = pageKey vb) : walk m root va = walk m root vb := by
  obtain ⟨hpath, hidx⟩ := (pageKey_eq_iff_paths va vb).mp h
  rw [walk_eq_view htab, walk_eq_view htab]
  unfold view
  rw [hpath, hidx]

/-- When a walker and `map_range` agree on the page-sized range from `b`, in
    terms of the entries that they write. -/
def EntriesAgree (root hhdm b x : UInt64) (m : Mem) : Prop :=
  if 2 ^ 64 - 4096 ≤ b.toNat then walk m root b = some (decodeEntry (blockEntry x))
  else if PageAligned b then
    decodeEntry (blockEntry (rangePaddr hhdm b)) = decodeEntry (blockEntry x)
  else b.toNat + 4096 ≤ 2 ^ 64 - 4096 ∧
    decodeEntry (blockEntry (rangePaddr hhdm (pageOf b))) = decodeEntry (blockEntry x) ∧
    walk m root (pageOf b + 0x1000) =
      some (decodeEntry (blockEntry (rangePaddr hhdm (pageOf b + 0x1000))))

/-- What is seen after the write for one page. -/
theorem seen_one {m : Mem} (htab : Tables root owned m) (hhdm b va : UInt64) :
    (applyWrites (pageWrites hhdm initFlags [b]) (view m root va) (pageKey va)).map decodeEntry =
      if pageKey va = pageKey b then some (decodeEntry (blockEntry (rangePaddr hhdm b)))
      else walk m root va := by
  show (if pageKey va = pageKey b then leafEntry (rangeEntry hhdm initFlags b)
    else view m root va).map decodeEntry = _
  rw [rangeEntry_eq_block, leafEntry_block, walk_eq_view htab]
  split <;> rfl

/-- What is seen after the writes for two pages. -/
theorem seen_two {m : Mem} (htab : Tables root owned m) (hhdm b c va : UInt64) :
    (applyWrites (pageWrites hhdm initFlags [b, c]) (view m root va) (pageKey va)).map decodeEntry =
      if pageKey va = pageKey c then some (decodeEntry (blockEntry (rangePaddr hhdm c)))
      else if pageKey va = pageKey b then some (decodeEntry (blockEntry (rangePaddr hhdm b)))
      else walk m root va := by
  show (if pageKey va = pageKey c then leafEntry (rangeEntry hhdm initFlags c)
    else if pageKey va = pageKey b then leafEntry (rangeEntry hhdm initFlags b)
    else view m root va).map decodeEntry = _
  rw [rangeEntry_eq_block, rangeEntry_eq_block, leafEntry_block, leafEntry_block,
    walk_eq_view htab]
  split
  · rfl
  · split <;> rfl

section agreement
variable {m : Mem} {b c : UInt64} {e e' e'' : UInt64 × UInt64}

/-- One page is written and none. -/
theorem agree_none_iff (htab : Tables root owned m) :
    (∀ va, (if pageKey va = pageKey b then some e else walk m root va) = walk m root va) ↔
      walk m root b = some e := by
  constructor
  · intro hsame
    rw [← hsame b, if_pos rfl]
  · intro h va
    by_cases hkey : pageKey va = pageKey b
    · rw [if_pos hkey, ← h, walk_of_pageKey htab hkey]
    · rw [if_neg hkey]

/-- The same page is written twice. -/
theorem agree_one_iff :
    (∀ va, (if pageKey va = pageKey b then some e else walk m root va) =
      if pageKey va = pageKey b then some e' else walk m root va) ↔ e' = e := by
  constructor
  · intro hsame
    have hpage := hsame b
    rw [if_pos rfl, if_pos rfl] at hpage
    exact (Option.some.inj hpage).symm
  · rintro rfl va
    rfl

/-- One page is written, and the same page and another one. -/
theorem agree_two_iff (htab : Tables root owned m) (hne : pageKey c ≠ pageKey b) :
    (∀ va, (if pageKey va = pageKey b then some e else walk m root va) =
      if pageKey va = pageKey c then some e''
      else if pageKey va = pageKey b then some e' else walk m root va) ↔
      e' = e ∧ walk m root c = some e'' := by
  constructor
  · intro hsame
    have hfirst := hsame b
    have hsecond := hsame c
    rw [if_pos rfl, if_neg hne.symm, if_pos rfl] at hfirst
    rw [if_neg hne, if_pos rfl] at hsecond
    exact ⟨(Option.some.inj hfirst).symm, hsecond⟩
  · rintro ⟨rfl, hsecond⟩ va
    by_cases hva : pageKey va = pageKey c
    · rw [if_pos hva, if_neg (fun hc => hne (hva.symm.trans hc)), walk_of_pageKey htab hva, hsecond]
    · rw [if_neg hva]

end agreement

/-- **Rule for the open-coded walkers**: a block agrees with `map_range` if and
    only if the entries do. -/
theorem blockAgrees_iff {b x : UInt64} (hpaged : Paged A n root owned s)
    (hblock : LeafAllocated root b s) (hrange : RangeAllocated root b (b + 0x1000) initFlags s) :
    BlockAgrees root b x s ↔ EntriesAgree root s.hhdm b x s.mem := by
  have hb := b.toNat_lt
  have htab := hpaged.tables
  rw [blockAgrees_iff_writes hpaged hblock hrange, rangeWrites_page]
  unfold EntriesAgree
  by_cases hlast : 2 ^ 64 - 4096 ≤ b.toNat
  · rw [if_pos hlast, if_pos hlast, ← agree_none_iff htab]
    have hnone : ∀ va, (applyWrites [] (view s.mem root va) (pageKey va)).map decodeEntry =
        walk s.mem root va := fun va => (walk_eq_view htab va).symm
    simp only [Option.some.injEq, exists_eq_left', hnone]
  rw [if_neg hlast, if_neg hlast]
  by_cases haligned : PageAligned b
  · rw [if_pos haligned, if_pos haligned]
    simp only [Option.some.injEq, exists_eq_left', seen_one htab]
    exact agree_one_iff
  rw [if_neg haligned, if_neg haligned]
  by_cases hroom : b.toNat + 4096 ≤ 2 ^ 64 - 4096
  · -- Two pages; the walker writes the first of them.
    have hpage := toNat_pageOf b
    have hnext : (pageOf b + 0x1000).toNat = (pageOf b).toNat + 4096 :=
      Words.toNat_add_lt _ 0x1000 (by show (pageOf b).toNat + 4096 < _; omega)
    have hkey : pageKey (pageOf b) = pageKey b := by
      rw [pageKey_eq_iff]
      omega
    have hne : pageKey (pageOf b + 0x1000) ≠ pageKey b := by
      rw [Ne, pageKey_eq_iff]
      omega
    rw [if_pos hroom, and_iff_right hroom, ← agree_two_iff htab hne]
    simp only [Option.some.injEq, exists_eq_left', seen_two htab, hkey]
  · rw [if_neg hroom]
    constructor
    · rintro ⟨ws, hws, -⟩
      cases hws
    · intro h
      exact absurd h.1 hroom

end blocks

/-! ## Section 4: When the blocks of `init_paging` agree -/

/-- The condition for the identity block of the page `a`: below the direct map
    `map_range` maps it to itself, and above only if the offset of the direct
    map does not show in the entry.  In the last page of the address space
    `map_range` maps nothing. -/
def IdentityAgrees (root hhdm a : UInt64) (m : Mem) : Prop :=
  if a = 0xFFFFFFFFFFFFF000 then walk m root a = some (a &&& frameMask, 3)
  else a < hhdm ∨ (0 - hhdm).toNat % 2 ^ 52 < 4

/-- The condition for the direct-map block of the page `a`.  The sum with the
    offset may wrap, and lie in the last page; an offset that is not aligned
    makes `map_range` map two pages. -/
def HhdmAgrees (root hhdm a : UInt64) (m : Mem) : Prop :=
  if 2 ^ 64 - 4096 ≤ (hhdm + a).toNat then walk m root (hhdm + a) = some (a &&& frameMask, 3)
  else if PageAligned hhdm then hhdm ≤ hhdm + a ∨ hhdm.toNat % 2 ^ 52 = 0
  else (hhdm + a).toNat + 4096 ≤ 2 ^ 64 - 4096 ∧ pageOf (hhdm + a) < hhdm ∧
    (pageOf hhdm).toNat % 2 ^ 52 = 0 ∧
    walk m root (pageOf (hhdm + a) + 0x1000) =
      some (decodeEntry (blockEntry (rangePaddr hhdm (pageOf (hhdm + a) + 0x1000))))

theorem entriesAgree_identity {root hhdm a : UInt64} {m : Mem} (ha : PageAligned a) :
    EntriesAgree root hhdm a a m ↔ IdentityAgrees root hhdm a m := by
  have hlt := a.toNat_lt
  have hlast : 2 ^ 64 - 4096 ≤ a.toNat ↔ a = 0xFFFFFFFFFFFFF000 := by
    rw [← UInt64.toNat_inj]
    show _ ↔ a.toNat = 2 ^ 64 - 4096
    unfold PageAligned PAGE_SIZE at ha
    omega
  unfold EntriesAgree IdentityAgrees
  rw [decode_block_aligned ha, decode_block_iff ha]
  simp only [hlast, if_pos ha]
  -- What `map_range` subtracts is the difference of the two addresses.
  have hdiff : (rangePaddr hhdm a - a).toNat % 2 ^ 52 < 4 ↔
      a < hhdm ∨ (0 - hhdm).toNat % 2 ^ 52 < 4 := by
    unfold rangePaddr
    by_cases hge : a ≥ hhdm
    · have hnot : ¬ a < hhdm := UInt64.not_lt.mpr hge
      have hsub : a - hhdm - a = 0 - hhdm := by grind
      rw [if_pos hge, hsub]
      simp [hnot]
    · rw [if_neg hge, UInt64.sub_self]
      simp [UInt64.not_le.mp hge]
  rw [hdiff]

theorem entriesAgree_hhdm {root hhdm a : UInt64} {m : Mem} (ha : PageAligned a) :
    EntriesAgree root hhdm (hhdm + a) a m ↔ HhdmAgrees root hhdm a m := by
  have hhlt := hhdm.toNat_lt
  have halt := a.toNat_lt
  have hsum : (hhdm + a).toNat = (hhdm.toNat + a.toNat) % 2 ^ 64 := UInt64.toNat_add hhdm a
  have hpage := toNat_pageOf (hhdm + a)
  have hpage' := toNat_pageOf hhdm
  have haligned : PageAligned (hhdm + a) ↔ PageAligned hhdm := by
    unfold PageAligned PAGE_SIZE at ha ⊢
    omega
  unfold EntriesAgree HhdmAgrees
  simp only [decode_block_aligned ha, decode_block_iff ha, haligned]
  by_cases hlast : 2 ^ 64 - 4096 ≤ (hhdm + a).toNat
  · rw [if_pos hlast, if_pos hlast]
  rw [if_neg hlast, if_neg hlast]
  unfold PageAligned PAGE_SIZE at ha
  by_cases hh : PageAligned hhdm
  · rw [if_pos hh, if_pos hh]
    unfold rangePaddr
    by_cases hge : hhdm + a ≥ hhdm
    · have hsub : hhdm + a - hhdm - a = 0 := by grind
      rw [if_pos hge, hsub]
      simp [show hhdm ≤ hhdm + a from hge]
    -- The sum has wrapped, and `map_range` takes it for a low address.
    · have hnot : ¬ hhdm ≤ hhdm + a := hge
      have hsub : hhdm + a - a = hhdm := by grind
      rw [if_neg hge, hsub]
      unfold PageAligned PAGE_SIZE at hh
      simp only [hnot, false_or]
      omega
  · rw [if_neg hh, if_neg hh]
    have hoff : (rangePaddr hhdm (pageOf (hhdm + a)) - a).toNat % 2 ^ 52 < 4 ↔
        pageOf (hhdm + a) < hhdm ∧ (pageOf hhdm).toNat % 2 ^ 52 = 0 := by
      unfold PageAligned PAGE_SIZE at hh
      unfold rangePaddr
      by_cases hge : pageOf (hhdm + a) ≥ hhdm
      · have hle := UInt64.le_iff_toNat_le.mp hge
        have hnot : ¬ pageOf (hhdm + a) < hhdm := UInt64.not_lt.mpr hge
        rw [if_pos hge, UInt64.toNat_sub, Words.toNat_sub_le _ _ hle]
        simp only [hnot, false_and, iff_false]
        omega
      · have hlt := UInt64.not_le.mp hge
        rw [if_neg hge, UInt64.toNat_sub]
        simp only [hlt, true_and]
        omega
    rw [hoff]
    simp only [and_assoc]

section results
variable {σ : Type} [PageAllocator σ] {A : AllocSpec σ}
variable {n : Nat} {root : UInt64} {owned : List UInt64} {s : Machine σ}

/-- The two blocks of `init_paging` for one page. -/
theorem map_both_eq_blocks (root a : UInt64) (s : Machine σ) :
    map_both root a s =
      (map_leaf root a (blockEntry a) s).bind (map_leaf root (s.hhdm + a) (blockEntry a)) := by
  have hentry : a ||| PAGE_PRESENT ||| PAGE_RW = blockEntry a := rfl
  unfold map_both
  rw [hentry, Option.bind_eq_bind]
  rcases h : map_leaf root a (blockEntry a) s with - | s₁
  · rw [Option.bind_none, Option.bind_none]
  · rw [Option.bind_some, Option.bind_some, (map_leaf_control h).1.hhdm, UInt64.add_comm]

/-- Six promised frames are enough for a page-sized range. -/
theorem rangeAllocated_of_room {b flags : UInt64} (hpaged : Paged A 6 root owned s)
    (hsupply : A.Supply 6 s.alloc) : RangeAllocated root b (b + 0x1000) flags s := by
  intro ws hws
  have hlen : ws.length ≤ 2 := by
    rw [rangeWrites_page] at hws
    split at hws
    · obtain rfl := Option.some.inj hws
      simp
    · split at hws
      · obtain rfl := Option.some.inj hws
        simp [pageWrites]
      · split at hws
        · obtain rfl := Option.some.inj hws
          simp [pageWrites]
        · cases hws
  obtain ⟨s', hs', -⟩ : ∃ s', mapLeaves root ws s = some s' ∧ A.Supply 0 s'.alloc :=
    mapLeaves_total root (A.supply_mono_le (by omega) hsupply)
  exact leavesAllocated_of_room hpaged (by omega) hs'

theorem leafAllocated_of_supply {b : UInt64} (hpaged : Paged A 6 root owned s)
    (hsupply : A.Supply 6 s.alloc) : LeafAllocated root b s := by
  obtain ⟨s', hs', -⟩ : ∃ s', map_leaf root b 0 s = some s' ∧ A.Supply 3 s'.alloc :=
    map_leaf_total root b 0 hsupply
  exact leafAllocated_of_room hpaged (by omega) hs'

/-- **The open-coded walkers against `map_range`**: with every allocation
    succeeding, the identity block and the direct-map block of a page change
    the translations as the call of `map_range` does exactly in these cases. -/
theorem open_coded_agrees_iff (A : AllocSpec σ) (n : Nat) (owned : List UInt64) (s : Machine σ)
    (root a : UInt64) (hpaged : Paged A n root owned s) (ha : PageAligned a)
    (hidentity : LeafAllocated root a s)
    (hidentity' : RangeAllocated root a (a + 0x1000) initFlags s)
    (hdirect : LeafAllocated root (s.hhdm + a) s)
    (hdirect' : RangeAllocated root (s.hhdm + a) (s.hhdm + a + 0x1000) initFlags s) :
    (BlockAgrees root a a s ↔ IdentityAgrees root s.hhdm a s.mem) ∧
      (BlockAgrees root (s.hhdm + a) a s ↔ HhdmAgrees root s.hhdm a s.mem) := by
  constructor
  · rw [blockAgrees_iff hpaged hidentity hidentity', entriesAgree_identity ha]
  · rw [blockAgrees_iff hpaged hdirect hdirect', entriesAgree_hhdm ha]

end results

/-- A kernel with six frames at hand. -/
def sixFrameKernel : Machine (List UInt64) :=
  emptyKernel [0x2000, 0x3000, 0x4000, 0x5000, 0x6000, 0x7000]

theorem sixFrameKernel_paged : Paged scriptSpec 6 0x1000 [0x1000] sixFrameKernel :=
  (emptyKernel_paging (freshScript_of_all (by decide) (by decide))).paged

/-- The page of the kernel's own code, above the direct map. -/
theorem open_coded_differs :
    LeafAllocated 0x1000 0xFFFFFFFF80001000 sixFrameKernel ∧
      RangeAllocated 0x1000 0xFFFFFFFF80001000 (0xFFFFFFFF80001000 + 0x1000) initFlags
        sixFrameKernel ∧
      ¬ BlockAgrees 0x1000 0xFFFFFFFF80001000 0xFFFFFFFF80001000 sixFrameKernel := by
  have hpaged := sixFrameKernel_paged
  have hsupply : scriptSpec.Supply 6 sixFrameKernel.alloc := Nat.le_refl 6
  have hblock : LeafAllocated 0x1000 0xFFFFFFFF80001000 sixFrameKernel :=
    leafAllocated_of_supply hpaged hsupply
  have hrange : RangeAllocated 0x1000 0xFFFFFFFF80001000 (0xFFFFFFFF80001000 + 0x1000) initFlags
      sixFrameKernel := rangeAllocated_of_room hpaged hsupply
  refine ⟨hblock, hrange, fun h => ?_⟩
  rw [blockAgrees_iff hpaged hblock hrange, entriesAgree_identity (by decide)] at h
  unfold IdentityAgrees at h
  rw [if_neg (by decide)] at h
  revert h
  decide

theorem open_coded_agrees_low_page :
    BlockAgrees 0x1000 0x5000 0x5000 sixFrameKernel ∧
      BlockAgrees 0x1000 (sixFrameKernel.hhdm + 0x5000) 0x5000 sixFrameKernel := by
  have hpaged := sixFrameKernel_paged
  have hsupply : scriptSpec.Supply 6 sixFrameKernel.alloc := Nat.le_refl 6
  obtain ⟨hidentity, hdirect⟩ := open_coded_agrees_iff scriptSpec 6 [0x1000] sixFrameKernel 0x1000
    0x5000 hpaged (by decide) (leafAllocated_of_supply hpaged hsupply)
    (rangeAllocated_of_room hpaged hsupply) (leafAllocated_of_supply hpaged hsupply)
    (rangeAllocated_of_room hpaged hsupply)
  constructor
  · rw [hidentity]
    unfold IdentityAgrees
    rw [if_neg (by decide)]
    exact Or.inl (by decide)
  · rw [hdirect]
    unfold HhdmAgrees
    rw [if_neg (by decide), if_pos (by decide)]
    exact Or.inl (by decide)

end ArgaldOS
