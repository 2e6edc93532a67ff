import ArgaldOS.Framework.Runs
import ArgaldOS.Paging.Writes

/-! # The page tables refine a finite map

    Abstractly an address space is a partial map from pages to a frame and its
    flags; `map_page` and `map_range` overwrite the pages they name.  The main
    result, `map_calls_refine`, is that any sequence of the two calls on an
    empty PML4 builds tables whose hardware walk is this map, and that the
    tables stay a tree.

    The allocator is any one that meets its specification and promises enough
    frames: three for each page written, one for each level below the PML4.
-/

namespace ArgaldOS

open TableTree Runs

/-! ## Section 1: The abstract address space -/

/-- The frame and the flags of the page of each address. -/
abbrev PageMap : Type := UInt64 → Option (UInt64 × UInt64)

/-- A call that changes the address space. -/
inductive MapCall where
  | map_page (virt_addr phys_addr flags : UInt64) : MapCall
  | map_range (virt_start virt_end flags : UInt64) : MapCall

namespace MapCall

/-- What a call means for the abstract address space. -/
def apply (hhdm : UInt64) : MapCall → PageMap → PageMap
  | map_page virt_addr phys_addr flags, T => fun va =>
    if pageOf va = pageOf virt_addr then some (pageOf phys_addr, (flags &&& 0xFFF) ||| PAGE_PRESENT)
    else T va
  | map_range virt_start virt_end flags, T => fun va =>
    if pageOf virt_start ≤ pageOf va ∧ pageOf va < virt_end then
      some (rangePaddr hhdm (pageOf va), (flags &&& 0xFFF) ||| PAGE_PRESENT)
    else T va

/-- What the callers respect: canonical pages, physical addresses of at most
    52 bits and, for a range, flags in the low bits and an end before the last
    page of the address space. -/
def Valid (hhdm : UInt64) : MapCall → Prop
  | map_page virt_addr phys_addr _ => Canonical virt_addr ∧ phys_addr.toNat < 2 ^ 52
  | map_range virt_start virt_end flags =>
    flags.toNat < 2 ^ 12 ∧ virt_end.toNat ≤ 2 ^ 64 - 4096 ∧
      ∀ v, PageAligned v → pageOf virt_start ≤ v → v < virt_end →
        Canonical v ∧ (rangePaddr hhdm v).toNat < 2 ^ 52

/-- Number of pages that a call writes. -/
def pages : MapCall → Nat
  | map_page _ _ _ => 1
  | map_range virt_start virt_end _ => rangePages (pageOf virt_start) virt_end

end MapCall

/-- Number of pages that a sequence of calls writes. -/
def mapPages (calls : List MapCall) : Nat := (calls.map MapCall.pages).sum

/-- The address space after a sequence of calls on an empty one. -/
def addressSpace (hhdm : UInt64) (calls : List MapCall) : PageMap :=
  calls.foldl (fun T c => c.apply hhdm T) fun _ => none

/-! ## Section 2: Decoding leaf entries -/

theorem or_and_frameMask {f g : UInt64} (hf : PageAligned f) (hlt : f.toNat < 2 ^ 52)
    (hg : g.toNat < 4096) : (f ||| g) &&& frameMask = f := by
  apply Words.ext
  unfold PageAligned PAGE_SIZE at hf
  rw [toNat_and_frameMask, toNat_entry hf hg]
  omega

theorem or_and_fff {f g : UInt64} (hf : PageAligned f) (hg : g.toNat < 4096) :
    (f ||| g) &&& 0xFFF = g := by
  apply Words.ext
  unfold PageAligned PAGE_SIZE at hf
  rw [toNat_and_fff, toNat_entry hf hg]
  omega

theorem or_present (e : UInt64) : (e ||| PAGE_PRESENT) &&& PAGE_PRESENT ≠ 0 := by
  have h : (e ||| PAGE_PRESENT) &&& PAGE_PRESENT = PAGE_PRESENT := by
    apply UInt64.eq_of_toBitVec_eq
    simp only [UInt64.toBitVec_and, UInt64.toBitVec_or]
    ext i hi
    simp only [BitVec.getElem_and, BitVec.getElem_or, Bool.and_eq_right_iff_imp, Bool.or_eq_true]
    exact Or.inr
  rw [h]
  decide

theorem leafEntry_or_present (e : UInt64) :
    leafEntry (e ||| PAGE_PRESENT) = some (e ||| PAGE_PRESENT) := by
  unfold leafEntry
  rw [if_neg (or_present e)]

theorem low_flags_lt (flags : UInt64) : ((flags &&& 0xFFF) ||| PAGE_PRESENT).toNat < 4096 := by
  have h1 := toNat_and_fff flags
  rw [UInt64.toNat_or]
  exact Nat.or_lt_two_pow (n := 12) (by omega) (by decide)

/-- The hardware reads the frame and the flags back from an entry of
    `map_page`. -/
theorem pageEntry_decode {phys_addr : UInt64} (flags : UInt64) (hp : phys_addr.toNat < 2 ^ 52) :
    (leafEntry (pageEntry phys_addr flags)).map (fun e => (e &&& frameMask, e &&& 0xFFF)) =
      some (pageOf phys_addr, (flags &&& 0xFFF) ||| PAGE_PRESENT) := by
  have halign := pageOf_aligned phys_addr
  have hlt : (pageOf phys_addr).toNat < 2 ^ 52 := by
    rw [toNat_pageOf]
    omega
  have hlow := low_flags_lt flags
  unfold pageEntry
  rw [leafEntry_or_present, UInt64.or_assoc, Option.map_some]
  rw [show phys_addr &&& ~~~0xFFF = pageOf phys_addr from rfl, or_and_frameMask halign hlt hlow,
    or_and_fff halign hlow]

/-- An aligned address stays aligned when the direct map is removed. -/
theorem rangePaddr_aligned {hhdm v : UInt64} (hhhdm : PageAligned hhdm) (hv : PageAligned v) :
    PageAligned (rangePaddr hhdm v) := by
  unfold rangePaddr
  split
  · next hge =>
    have hle := UInt64.le_iff_toNat_le.mp hge
    unfold PageAligned PAGE_SIZE at *
    rw [Words.toNat_sub_le v hhdm hle]
    omega
  · exact hv

/-- The hardware reads the frame and the flags back from an entry of
    `map_range`. -/
theorem rangeEntry_decode {hhdm flags v : UInt64} (hhhdm : PageAligned hhdm) (hv : PageAligned v)
    (hflags : flags.toNat < 2 ^ 12) (hp : (rangePaddr hhdm v).toNat < 2 ^ 52) :
    (leafEntry (rangeEntry hhdm flags v)).map (fun e => (e &&& frameMask, e &&& 0xFFF)) =
      some (rangePaddr hhdm v, (flags &&& 0xFFF) ||| PAGE_PRESENT) := by
  have halign := rangePaddr_aligned hhhdm hv
  have hmask : flags &&& 0xFFF = flags := by
    apply Words.ext
    rw [toNat_and_fff]
    exact Nat.mod_eq_of_lt hflags
  have hlow := low_flags_lt flags
  rw [hmask] at hlow ⊢
  unfold rangeEntry
  rw [leafEntry_or_present, UInt64.or_assoc, Option.map_some, or_and_frameMask halign hp hlow,
    or_and_fff halign hlow]

/-! ## Section 3: One call -/

section calls
variable {σ : Type} [PageAllocator σ]

/-- A call on the machine; `map_range` works on the kernel's PML4. -/
def mapStep (s : Machine σ) : MapCall → Option (Machine σ)
  | .map_page virt_addr phys_addr flags => map_page virt_addr phys_addr flags s
  | .map_range virt_start virt_end flags => map_range s.pml4 virt_start virt_end flags s

variable {A : AllocSpec σ} {n : Nat} {root : UInt64} {owned : List UInt64} {s s' : Machine σ}

theorem tablePath_length (va : UInt64) : (tablePath va).length = 3 := rfl

/-- **`map_page` refines** the update of one page. -/
theorem map_page_refines {virt_addr phys_addr flags : UInt64} (hpaged : Paged A n root owned s)
    (hroot : s.pml4 = root) (hn : 3 ≤ n)
    (hvalid : (MapCall.map_page virt_addr phys_addr flags).Valid s.hhdm)
    (h : map_page virt_addr phys_addr flags s = some s') :
    ∃ owned', Paged A (n - 3) root owned' s' ∧ Grows root owned owned' s s' ∧
      ∀ va, Canonical va → walk s'.mem root va =
        (MapCall.map_page virt_addr phys_addr flags).apply s.hhdm (walk s.mem root) va := by
  obtain ⟨hcanon, hphys⟩ := hvalid
  rcases map_page_spec hpaged hroot h with ⟨owned', hm⟩ | ⟨hlt, -⟩
  · refine ⟨owned', hm.paged, hm.grows, ?_⟩
    intro va hva
    rw [walk_eq_view hm.paged.tables]
    unfold view
    rw [hm.leaves _ (tablePath_length va)]
    have hkey : (tablePath va = tablePath virt_addr ∧ pt_idx va = pt_idx virt_addr) ↔
        pageOf va = pageOf virt_addr := by
      rw [← pageKey_eq_iff_pageOf hva hcanon, pageKey_eq_iff_paths]
    unfold MapCall.apply
    by_cases hpage : pageOf va = pageOf virt_addr
    · rw [if_pos (hkey.mpr hpage)]
      dsimp only
      rw [if_pos hpage]
      exact pageEntry_decode flags hphys
    · rw [if_neg (fun hc => hpage (hkey.mp hc))]
      dsimp only
      rw [if_neg hpage, walk_eq_view hpaged.tables]
      rfl
  · omega

/-- **`map_range` refines** the update of the pages of the range. -/
theorem map_range_refines {virt_start virt_end flags : UInt64} (hpaged : Paged A n root owned s)
    (hhdm : PageAligned s.hhdm) (hn : 3 * rangePages (pageOf virt_start) virt_end ≤ n)
    (hvalid : (MapCall.map_range virt_start virt_end flags).Valid s.hhdm)
    (h : map_range root virt_start virt_end flags s = some s') :
    ∃ owned', Paged A (n - 3 * rangePages (pageOf virt_start) virt_end) root owned' s' ∧
      Grows root owned owned' s s' ∧
      ∀ va, Canonical va → walk s'.mem root va =
        (MapCall.map_range virt_start virt_end flags).apply s.hhdm (walk s.mem root) va := by
  obtain ⟨hflags, hend, hpages⟩ := hvalid
  obtain ⟨ws, hws, hlen, hmem⟩ := rangeWrites_all s.hhdm flags virt_start hend
  rw [mapRange_eq_mapLeaves, hws] at h
  have halloc := leavesAllocated_of_room hpaged (by omega) h
  obtain ⟨owned', hpaged', hgrows, hleaves⟩ := mapLeaves_spec hpaged halloc h
  rw [hlen] at hpaged'
  refine ⟨owned', hpaged', hgrows, ?_⟩
  intro va hva
  have hview : view s'.mem root va = applyWrites ws (view s.mem root va) (pageKey va) :=
    hleaves (pageKey va) (tablePath_length va)
  rw [walk_eq_view hpaged'.tables, hview]
  -- The writes to the page of `va` are those whose address is that page.
  have hkey : ∀ w ∈ ws, (pageKey va = pageKey w.vaddr ↔ pageOf va = w.vaddr) := by
    intro w hw
    obtain ⟨ha, hge, hlt, -⟩ := (hmem w).mp hw
    rw [pageKey_eq_iff_pageOf hva (hpages _ ha hge hlt).1, pageOf_of_aligned ha]
  unfold MapCall.apply
  dsimp only
  by_cases hin : pageOf virt_start ≤ pageOf va ∧ pageOf va < virt_end
  · have ha := pageOf_aligned va
    have hw := (hmem ⟨pageOf va, rangeEntry s.hhdm flags (pageOf va)⟩).mpr ⟨ha, hin.1, hin.2, rfl⟩
    rw [if_pos hin, applyWrites_of_mem _ (e := rangeEntry s.hhdm flags (pageOf va)) ?_
      ⟨_, hw, (hkey _ hw).mpr rfl⟩]
    · exact rangeEntry_decode hhdm ha hflags (hpages _ ha hin.1 hin.2).2
    · intro w hw hk
      rw [((hmem w).mp hw).2.2.2, ← (hkey w hw).mp hk]
  · rw [if_neg hin, walk_eq_view hpaged.tables, applyWrites_of_not_mem]
    · intro w hw hk
      obtain ⟨-, hge, hlt, -⟩ := (hmem w).mp hw
      rw [← (hkey w hw).mp hk] at hge hlt
      exact hin ⟨hge, hlt⟩

/-- One call, of either kind. -/
theorem mapStep_refines {c : MapCall} (hpaged : Paged A n root owned s) (hroot : s.pml4 = root)
    (hhdm : PageAligned s.hhdm) (hn : 3 * c.pages ≤ n) (hvalid : c.Valid s.hhdm)
    (h : mapStep s c = some s') :
    ∃ owned', Paged A (n - 3 * c.pages) root owned' s' ∧ Grows root owned owned' s s' ∧
      ∀ va, Canonical va → walk s'.mem root va = c.apply s.hhdm (walk s.mem root) va := by
  cases c with
  | map_page virt_addr phys_addr flags => exact map_page_refines hpaged hroot hn hvalid h
  | map_range virt_start virt_end flags =>
    have h' : map_range root virt_start virt_end flags s = some s' := by
      rw [← hroot]
      exact h
    exact map_range_refines hpaged hhdm hn hvalid h'

theorem mapStep_hhdm {c : MapCall} (h : mapStep s c = some s') : s'.hhdm = s.hhdm := by
  cases c with
  | map_page virt_addr phys_addr flags => exact (map_page_control h).hhdm
  | map_range virt_start virt_end flags =>
    change map_range s.pml4 virt_start virt_end flags s = some s' at h
    rw [mapRange_eq_mapLeaves] at h
    obtain ⟨ws, -, hws⟩ := Option.bind_eq_some_iff.mp h
    exact (mapLeaves_control hws).1.hhdm

/-- A call returns if the allocator answers often enough. -/
theorem mapStep_total {c : MapCall} (hvalid : c.Valid s.hhdm)
    (h : A.Supply (n + 3 * c.pages) s.alloc) :
    ∃ s', mapStep s c = some s' ∧ A.Supply n s'.alloc := by
  cases c with
  | map_page virt_addr phys_addr flags => exact map_page_total h
  | map_range virt_start virt_end flags =>
    obtain ⟨-, hend, -⟩ := hvalid
    obtain ⟨ws, hws, hlen, -⟩ := rangeWrites_all s.hhdm flags virt_start hend
    obtain ⟨s', hs', hsupply⟩ := mapLeaves_total s.pml4 (n := n) (s := s) (by
      rw [hlen]
      exact h)
    refine ⟨s', ?_, hsupply⟩
    show map_range s.pml4 virt_start virt_end flags s = some s'
    rw [mapRange_eq_mapLeaves, hws]
    exact hs'

/-! ## Section 4: Runs -/

theorem mapPages_cons (c : MapCall) (calls : List MapCall) :
    mapPages (c :: calls) = c.pages + mapPages calls := by
  simp [mapPages]

/-- **Run lemma**: the hardware walk after a run is the fold of the calls over
    the walk before it. -/
theorem exec_mapStep_refines {calls : List MapCall} (hpaged : Paged A n root owned s)
    (hroot : s.pml4 = root) (hhdm : PageAligned s.hhdm) (hn : 3 * mapPages calls ≤ n)
    (hvalid : ∀ c ∈ calls, c.Valid s.hhdm) (h : exec mapStep s calls = some s') :
    ∃ owned', Paged A (n - 3 * mapPages calls) root owned' s' ∧ s'.pml4 = root ∧
      ∀ va, Canonical va → ∀ T : PageMap, (∀ va, Canonical va → walk s.mem root va = T va) →
        walk s'.mem root va = calls.foldl (fun T c => c.apply s.hhdm T) T va := by
  induction calls generalizing s owned n with
  | nil =>
    obtain rfl := Option.some.inj h
    exact ⟨owned, hpaged, hroot, fun va hva T hT => hT va hva⟩
  | cons c calls ih =>
    rw [mapPages_cons] at hn
    obtain ⟨s₁, h₁, h₂⟩ := Option.bind_eq_some_iff.mp h
    obtain ⟨owned₁, hpaged₁, hgrows₁, hwalk₁⟩ :=
      mapStep_refines hpaged hroot hhdm (by omega) (hvalid c List.mem_cons_self) h₁
    have hhdm₁ := hgrows₁.control.hhdm
    have hroot₁ := hgrows₁.control.pml4.trans hroot
    obtain ⟨owned₂, hpaged₂, hroot₂, hwalk₂⟩ := ih hpaged₁ hroot₁ (by rw [hhdm₁]; exact hhdm)
      (by omega) (fun c' hc' => by rw [hhdm₁]; exact hvalid c' (List.mem_cons_of_mem _ hc')) h₂
    rw [hhdm₁] at hwalk₂
    refine ⟨owned₂, hpaged₂.mono ?_, hroot₂, fun va hva T hT => ?_⟩
    · rw [mapPages_cons]
      omega
    · refine hwalk₂ va hva (c.apply s.hhdm T) fun va' hva' => ?_
      rw [hwalk₁ va' hva']
      -- A call looks at the old map at canonical addresses only.
      cases c <;> simp only [MapCall.apply, hT va' hva']

/-- A run returns if the allocator answers often enough. -/
theorem exec_mapStep_total {calls : List MapCall} (hvalid : ∀ c ∈ calls, c.Valid s.hhdm)
    (h : A.Supply (n + 3 * mapPages calls) s.alloc) : ∃ s', exec mapStep s calls = some s' := by
  induction calls generalizing s with
  | nil => exact ⟨s, rfl⟩
  | cons c calls ih =>
    rw [mapPages_cons] at h
    have h₀ : A.Supply (n + 3 * mapPages calls + 3 * c.pages) s.alloc :=
      A.supply_mono_le (by omega) h
    obtain ⟨s₁, h₁, hs₁⟩ := mapStep_total (hvalid c List.mem_cons_self) h₀
    have hhdm₁ := mapStep_hhdm h₁
    obtain ⟨s', h'⟩ := ih
      (fun c' hc' => by rw [hhdm₁]; exact hvalid c' (List.mem_cons_of_mem _ hc')) hs₁
    refine ⟨s', ?_⟩
    rw [exec_cons, h₁]
    exact h'

/-- **Main theorem on page tables**: a sequence of `map_page` and `map_range`
    calls on an all-zero PML4 returns, and afterwards the hardware translates
    every canonical address as the abstract address space does and no table is
    reached by two index paths. -/
theorem map_calls_refine (A : AllocSpec σ) (n : Nat) (s : Machine σ) (calls : List MapCall)
    (hhdm : PageAligned s.hhdm) (hroot : GoodFrame (2 ^ 52) s.pml4)
    (hzero : ∀ j, s.mem.entry s.pml4 j = 0)
    (halloc : A.Inv n s.hhdm s.alloc s.mem [s.pml4]) (hn : 3 * mapPages calls ≤ n)
    (hvalid : ∀ c ∈ calls, c.Valid s.hhdm) :
    (A.Supply (3 * mapPages calls) s.alloc → ∃ s', exec mapStep s calls = some s') ∧
      ∀ s', exec mapStep s calls = some s' →
        (∀ va, Canonical va → walk s'.mem s'.pml4 va = addressSpace s.hhdm calls va) ∧
          Unshared nextTable s'.mem.entry s'.pml4 3 := by
  obtain ⟨htab, hempty⟩ := tables_of_zero hroot hzero
  have hnone : ∀ va, walk s.mem s.pml4 va = none := by
    intro va
    rw [walk_eq_view htab]
    show (leafOf _ _ _ _).map _ = none
    rw [hempty _ (tablePath_length va)]
    rfl
  refine ⟨fun hsupply => exec_mapStep_total (n := 0) hvalid (by rwa [Nat.zero_add]),
    fun s' h => ?_⟩
  obtain ⟨owned', hpaged', hroot', hwalk⟩ :=
    exec_mapStep_refines ⟨halloc, htab⟩ rfl hhdm hn hvalid h
  rw [hroot']
  exact ⟨fun va hva => hwalk va hva _ fun va' _ => hnone va', hpaged'.tables.unshared⟩

end calls

/-- Two pages and a range that overwrites the first of them, in two tables of the last level
    that share the tables above them. -/
theorem map_calls_refine_shared_tables :
    let s : Machine (List UInt64) :=
      { mem := fun _ => 0, hhdm := 0xFFFF800000000000,
        alloc := [0x2000, 0x3000, 0x4000, 0x5000, 0x6000, 0x7000, 0x8000, 0x9000, 0xA000,
          0xB000, 0xC000, 0xD000, 0xE000, 0xF000, 0x10000],
        pml4 := 0x1000, early_page_tables := [], cr3 := none }
    let calls := [MapCall.map_page 0x400000 0x20000 7, MapCall.map_range 0x3FF000 0x402000 3,
      MapCall.map_page 0x401000 0x21000 5]
    ∃ s', exec mapStep s calls = some s' ∧ walk s'.mem s'.pml4 0x3FF010 = some (0x3FF000, 3) ∧
      walk s'.mem s'.pml4 0x400123 = some (0x400000, 3) ∧
      walk s'.mem s'.pml4 0x401000 = some (0x21000, 5) ∧ walk s'.mem s'.pml4 0x402000 = none ∧
      Unshared nextTable s'.mem.entry s'.pml4 3 := by
  intro s calls
  have hroot : GoodFrame (2 ^ 52) s.pml4 := ⟨by decide, by decide, by decide⟩
  have hinv : FreshScript 15 s.alloc [s.pml4] := freshScript_of_all (by decide) (by decide)
  have hrange : (MapCall.map_range 0x3FF000 0x402000 3).Valid s.hhdm := by
    refine ⟨by decide, by decide, fun v _ _ hv => ?_⟩
    have hlt : v.toNat < 0x402000 := UInt64.lt_iff_toNat_lt.mp hv
    have hlow : rangePaddr s.hhdm v = v := by
      refine if_neg fun hge => ?_
      have hle : 0xFFFF800000000000 ≤ v.toNat := UInt64.le_iff_toNat_le.mp hge
      omega
    rw [hlow]
    exact ⟨.inl (by omega), by omega⟩
  have hvalid : ∀ c ∈ calls, c.Valid s.hhdm := by
    intro c hc
    rcases List.mem_cons.mp hc with rfl | hc
    · exact ⟨by decide, by decide⟩
    · rcases List.mem_cons.mp hc with rfl | hc
      · exact hrange
      · obtain rfl := List.mem_singleton.mp hc
        exact ⟨by decide, by decide⟩
  obtain ⟨htotal, hrefines⟩ := map_calls_refine scriptSpec 15 s calls (by decide)
    hroot (fun j => rfl) hinv (by decide) hvalid
  obtain ⟨s', hs'⟩ := htotal (show 3 * mapPages calls ≤ 15 by decide)
  obtain ⟨hwalk, hunshared⟩ := hrefines s' hs'
  refine ⟨s', hs', ?_, ?_, ?_, ?_, hunshared⟩
  all_goals
    rw [hwalk _ (by decide)]
    decide

end ArgaldOS
