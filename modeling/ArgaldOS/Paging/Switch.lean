import ArgaldOS.Paging.Init
import ArgaldOS.Paging.Refinement

/-! # The switch to the kernel's own page tables

    What the tables that `init_paging` loads into CR3 translate, compared with
    what the kernel needs from them.

    * `init_paging_spec`: the tables are well formed and hold the last of the
      function's writes to each page;
    * `init_paging_never_preserves`: the page that holds `init_paging` itself
      is mapped to a frame at the top of the physical address space, never to
      the frame where the bootloader put the kernel.
-/

namespace ArgaldOS

open TableTree Loops Runs

/-! ## Section 1: The new tables -/

section spec
variable {σ : Type} [PageAllocator σ] {A : AllocSpec σ} {n : Nat} {s s' : Machine σ}

/-- What `init_paging` has established when it loads CR3. -/
structure Switched (A : AllocSpec σ) (k : Nat) (code_addr rsp : UInt64) (ws : List LeafWrite)
    (pml4 : UInt64) (s s' : Machine σ) : Prop where
  writes  : initWrites s.hhdm code_addr rsp pml4 = some ws
  short   : ws.length ≤ maxInitWrites
  cr3     : s'.cr3 = some pml4
  hhdm    : s'.hhdm = s.hhdm
  below   : pml4.toNat + PAGE_SIZE ≤ A.top
  aligned : PageAligned pml4
  paged   : ∃ owned, Paged A k pml4 owned s'
  leaves  : ∀ p : List (Fin 512) × Fin 512, p.1.length = 3 →
    leafOf s'.mem pml4 p.1 p.2 = applyWrites ws none p

/-- `init_paging` gets a table wherever it asks for one: the PML4, and those of
    its writes. -/
def InitAllocated (code_addr rsp : UInt64) (s : Machine σ) : Prop :=
  ∃ pml4 s₁, alloc_table { s with early_page_tables := [] } = some (pml4, s₁) ∧ pml4 ≠ 0 ∧
    ∀ ws, initWrites s.hhdm code_addr rsp pml4 = some ws →
      LeavesAllocated pml4 { s₁ with pml4 := pml4, early_page_tables := [pml4] } ws

/-- A run of `init_paging` that gets its tables: a fresh PML4, the writes below
    it, and CR3. -/
structure InitRun (A : AllocSpec σ) (n : Nat) (code_addr rsp pml4 : UInt64) (ws : List LeafWrite)
    (s s₁ s₂ s' : Machine σ) : Prop where
  fresh  : FreshTable A n [] { s with early_page_tables := [] } s₁ pml4
  writes : initWrites s.hhdm code_addr rsp pml4 = some ws
  short  : ws.length ≤ maxInitWrites
  alloc  : LeavesAllocated pml4 { s₁ with pml4 := pml4, early_page_tables := [pml4] } ws
  run    : mapLeaves pml4 ws { s₁ with pml4 := pml4, early_page_tables := [pml4] } = some s₂
  final  : s' = { s₂ with cr3 := some pml4 }

/-- **All that `init_paging` does** when it returns: it gives up on a NULL PML4,
    or it performs its writes below a fresh one and loads CR3. -/
theorem init_paging_cases {code_addr rsp : UInt64} (hinv : A.Inv n s.hhdm s.alloc s.mem [])
    (h : init_paging code_addr rsp s = some s') :
    ∃ pml4 s₁, alloc_table { s with early_page_tables := [] } = some (pml4, s₁) ∧
      ((pml4 = 0 ∧ n = 0) ∨
        (FreshTable A n [] { s with early_page_tables := [] } s₁ pml4 ∧ ∃ ws s₂,
          initWrites s.hhdm code_addr rsp pml4 = some ws ∧
          mapLeaves pml4 ws { s₁ with pml4 := pml4, early_page_tables := [pml4] } = some s₂ ∧
          s' = { s₂ with cr3 := some pml4 })) := by
  rw [init_paging_eq] at h
  obtain ⟨⟨pml4, s₁⟩, ha, h⟩ := Option.bind_eq_some_iff.mp h
  refine ⟨pml4, s₁, ha, ?_⟩
  rcases alloc_table_cases (s := { s with early_page_tables := [] }) (by simp) hinv ha with
    ⟨hz, hnone⟩ | ⟨hne, hfresh⟩
  · exact Or.inl ⟨hz, hnone.none_left⟩
  · dsimp only at h
    rw [if_neg hne] at h
    obtain ⟨s₂, hrun, hs'⟩ := Option.map_eq_some_iff.mp h
    have hmask : pml4 &&& 0xFFF = 0 := pageAligned_and_fff.mpr hfresh.good.aligned
    rw [if_neg (not_not.mpr hmask)] at hs'
    obtain ⟨ws, hws, hmap⟩ := Option.bind_eq_some_iff.mp hrun
    exact Or.inr ⟨hfresh, ws, s₂, hws, hmap, hs'.symm⟩

/-- The writes, if there is an end to them. -/
theorem initWrites_short {hhdm code_addr rsp pml4 : UInt64} {ws : List LeafWrite}
    (hhhdm : PageAligned hhdm) (h : initWrites hhdm code_addr rsp pml4 = some ws) :
    pageOf rsp ≠ endlessStackPage ∧ ws.length ≤ maxInitWrites := by
  have hrsp : pageOf rsp ≠ endlessStackPage := by
    intro heq
    rw [initWrites_endless hhdm code_addr pml4 heq] at h
    cases h
  obtain ⟨before, after, hws, hlen, -⟩ := initWrites_spec hhhdm code_addr pml4 hrsp
  obtain rfl := Option.some.inj (h.symm.trans hws)
  have hboth : (bothWrites hhdm (pageOf code_addr)).length = 2 := rfl
  refine ⟨hrsp, ?_⟩
  rw [List.length_append, List.length_append, hboth]
  omega

/-- Enough promised frames for all of them. -/
theorem initAllocated_of_room {code_addr rsp : UInt64} (hhdm : PageAligned s.hhdm)
    (hinv : A.Inv n s.hhdm s.alloc s.mem []) (hn : 3 * maxInitWrites + 1 ≤ n)
    (h : init_paging code_addr rsp s = some s') : InitAllocated code_addr rsp s := by
  obtain ⟨pml4, s₁, ha, ⟨-, hz⟩ | ⟨hfresh, ws, s₂, hws, hmap, -⟩⟩ := init_paging_cases hinv h
  · omega
  · refine ⟨pml4, s₁, ha, hfresh.good.ne_zero, ?_⟩
    intro ws' hws'
    obtain rfl := Option.some.inj (hws.symm.trans hws')
    obtain ⟨-, hshort⟩ := initWrites_short hhdm hws
    obtain ⟨htab, -⟩ := tables_of_zero hfresh.good hfresh.zero
    have hpaged : Paged A (n - 1) pml4 [pml4]
        { s₁ with pml4 := pml4, early_page_tables := [pml4] } := ⟨hfresh.alloc, htab⟩
    exact leavesAllocated_of_room hpaged (by omega) hmap

theorem init_paging_run {code_addr rsp : UInt64} (hhdm : PageAligned s.hhdm)
    (hinv : A.Inv n s.hhdm s.alloc s.mem []) (halloc : InitAllocated code_addr rsp s)
    (h : init_paging code_addr rsp s = some s') :
    pageOf rsp ≠ endlessStackPage ∧
      ∃ pml4 ws s₁ s₂, InitRun A n code_addr rsp pml4 ws s s₁ s₂ s' := by
  obtain ⟨pml4', s₁', ha', hne, hleaves⟩ := halloc
  obtain ⟨pml4, s₁, ha, hcases⟩ := init_paging_cases hinv h
  obtain ⟨rfl, rfl⟩ := Prod.mk.inj (Option.some.inj (ha'.symm.trans ha))
  -- A NULL PML4 would be a table that was not given.
  rcases hcases with ⟨hz, -⟩ | ⟨hfresh, ws, s₂, hws, hmap, hs'⟩
  · exact absurd hz hne
  · obtain ⟨hrsp, hshort⟩ := initWrites_short hhdm hws
    exact ⟨hrsp, pml4', ws, s₁', s₂, hfresh, hws, hshort, hleaves ws hws, hmap, hs'⟩

/-- The machine on which the writes of `init_paging` start: an empty PML4. -/
theorem InitRun.start {code_addr rsp pml4 : UInt64} {ws : List LeafWrite} {s₁ s₂ : Machine σ}
    (h : InitRun A n code_addr rsp pml4 ws s s₁ s₂ s') :
    Paged A (n - 1) pml4 [pml4] { s₁ with pml4 := pml4, early_page_tables := [pml4] } ∧
      ∀ p : List (Fin 512), p.length = 3 → ∀ i, leafOf s₁.mem pml4 p i = none := by
  obtain ⟨htab, hempty⟩ := tables_of_zero h.fresh.good h.fresh.zero
  exact ⟨⟨h.fresh.alloc, htab⟩, hempty⟩

/-- **`init_paging`**, if it returns: the tables hold the last write to each
    page, and CR3 is loaded. -/
theorem init_paging_spec {code_addr rsp : UInt64} (hhdm : PageAligned s.hhdm)
    (hinv : A.Inv n s.hhdm s.alloc s.mem []) (hn : 3 * maxInitWrites + 1 ≤ n)
    (h : init_paging code_addr rsp s = some s') :
    pageOf rsp ≠ endlessStackPage ∧
      ∃ pml4 ws, Switched A (n - 1 - 3 * maxInitWrites) code_addr rsp ws pml4 s s' := by
  obtain ⟨hrsp, pml4, ws, s₁, s₂, hrun⟩ :=
    init_paging_run hhdm hinv (initAllocated_of_room hhdm hinv hn h) h
  -- From an empty PML4, each page has the last write to it.
  obtain ⟨hpaged, hempty⟩ := hrun.start
  have hshort := hrun.short
  obtain ⟨owned, hpaged', hgrows, hleaves⟩ := mapLeaves_spec hpaged hrun.alloc hrun.run
  have hpaged₂ := hpaged'.mono (show n - 1 - 3 * maxInitWrites ≤ _ by omega)
  have hfresh := hrun.fresh
  obtain rfl := hrun.final
  refine ⟨hrsp, pml4, ws, hrun.writes, hshort, rfl,
    hgrows.control.hhdm.trans hfresh.control.hhdm, hfresh.below, hfresh.good.aligned,
    ⟨owned, hpaged₂.alloc, hpaged₂.tables⟩, fun p hp => ?_⟩
  show leafOf s₂.mem pml4 p.1 p.2 = _
  rw [hleaves p hp]
  congr 1
  exact hempty p.1 hp p.2

/-- `init_paging` returns unless its loop over the stack pages never ends. -/
theorem init_paging_total (code_addr : UInt64) {rsp : UInt64} (hhdm : PageAligned s.hhdm)
    (hrsp : pageOf rsp ≠ endlessStackPage) (h : A.Supply (3 * maxInitWrites + 1) s.alloc) :
    ∃ s', init_paging code_addr rsp s = some s' := by
  obtain ⟨pml4, s₁, ha, hs₁⟩ := alloc_table_total (s := { s with early_page_tables := [] }) h
  obtain ⟨before, after, hws, hlen, -⟩ := initWrites_spec hhdm code_addr pml4 hrsp
  have hsupply : A.Supply (0 + 3 * (before ++ (bothWrites s.hhdm (pageOf code_addr) ++ after)).length)
      { s₁ with pml4 := pml4, early_page_tables := [pml4] }.alloc := by
    have hboth : (bothWrites s.hhdm (pageOf code_addr)).length = 2 := rfl
    refine A.supply_mono_le ?_ hs₁
    rw [List.length_append, List.length_append, hboth]
    omega
  obtain ⟨s₂, hs₂, -⟩ := mapLeaves_total pml4 hsupply
  rw [init_paging_eq, ha]
  simp only [Option.bind_some, hws, hs₂, Option.map_some]
  split
  · exact ⟨_, rfl⟩
  · exact ⟨_, rfl⟩

end spec

/-! ## Section 2: The running kernel -/

/-- What the bootloader has set up: a direct map of the physical memory below
    `memTop` in the higher half, and the kernel image in the upper 2 GiB of the
    address space, loaded at `physical_base`. -/
structure Limine where
  hhdm          : UInt64
  memTop        : Nat
  physical_base : UInt64
  virtual_base  : UInt64
  size          : Nat
  hhdm_aligned     : PageAligned hhdm
  hhdm_high        : 2 ^ 64 - 2 ^ 47 ≤ hhdm.toNat
  window_end       : hhdm.toNat + memTop ≤ 0xFFFFFFFF80000000
  physical_aligned : PageAligned physical_base
  virtual_aligned  : PageAligned virtual_base
  virtual_high     : 0xFFFFFFFF80000000 ≤ virtual_base.toNat
  image_end        : virtual_base.toNat + size ≤ 2 ^ 64
  image_in_memory  : physical_base.toNat + size ≤ memTop

namespace Limine

/-- The address belongs to the kernel image. -/
def InImage (b : Limine) (v : UInt64) : Prop :=
  b.virtual_base.toNat ≤ v.toNat ∧ v.toNat < b.virtual_base.toNat + b.size

instance (b : Limine) (v : UInt64) : Decidable (b.InImage v) := inferInstanceAs (Decidable (_ ∧ _))

/-- The address belongs to the direct map. -/
def InWindow (b : Limine) (v : UInt64) : Prop :=
  b.hhdm.toNat ≤ v.toNat ∧ v.toNat < b.hhdm.toNat + b.memTop

instance (b : Limine) (v : UInt64) : Decidable (b.InWindow v) := inferInstanceAs (Decidable (_ ∧ _))

/-- The physical address of `v` under the bootloader's tables. -/
def translate (b : Limine) (v : UInt64) : Option UInt64 :=
  if b.InImage v then some (b.physical_base + (v - b.virtual_base))
  else if b.InWindow v then some (v - b.hhdm)
  else none

end Limine

/-- The tables below `cr3` translate the pages that the kernel is running on
    as the bootloader's did: the pages of the image in the 2 MiB window around
    the code, and the pages from 16 KiB below to 16 KiB above the stack page. -/
def PreservesKernel (b : Limine) (code_addr rsp : UInt64) (mem : Mem) (cr3 : UInt64) : Prop :=
  (∀ v, PageAligned v → v &&& ~~~0x1FFFFF = code_addr &&& ~~~0x1FFFFF → b.InImage v →
    (walk mem cr3 v).map Prod.fst = b.translate v) ∧
  (∀ v, PageAligned v → pageOf rsp - 0x4000 ≤ v → v ≤ pageOf rsp + 0x4000 →
    (walk mem cr3 v).map Prod.fst = b.translate v)

/-- The entry of an identity block or a direct-map block of `init_paging`. -/
theorem bothEntry_decode {a : UInt64} (ha : PageAligned a) :
    leafEntry (a ||| PAGE_PRESENT ||| PAGE_RW) = some (a ||| PAGE_PRESENT ||| PAGE_RW) ∧
      ((a ||| PAGE_PRESENT ||| PAGE_RW) &&& frameMask).toNat = a.toNat % 2 ^ 52 := by
  have hflags : a ||| PAGE_PRESENT ||| PAGE_RW = a ||| (PAGE_PRESENT ||| PAGE_RW) := by
    rw [UInt64.or_assoc]
  have hval : (a ||| (PAGE_PRESENT ||| PAGE_RW)).toNat = a.toNat + (PAGE_PRESENT ||| PAGE_RW).toNat :=
    toNat_entry ha (by decide)
  have hthree : (PAGE_PRESENT ||| PAGE_RW).toNat = 3 := by decide
  have hpresent : (a ||| (PAGE_PRESENT ||| PAGE_RW)) &&& PAGE_PRESENT ≠ 0 := by
    rw [present_iff, hval, hthree]
    unfold PageAligned PAGE_SIZE at ha
    omega
  rw [hflags]
  refine ⟨by unfold leafEntry; rw [if_neg hpresent], ?_⟩
  rw [toNat_and_frameMask, hval, hthree]
  unfold PageAligned PAGE_SIZE at ha
  omega

section kernel
variable {σ : Type} [PageAllocator σ] {A : AllocSpec σ} {k : Nat} {s s' : Machine σ}
variable {b : Limine} {code_addr rsp pml4 : UInt64} {ws : List LeafWrite}

/-- The page of a higher-half address, as the tables index it. -/
theorem page_high {v : UInt64} (h : 2 ^ 64 - 2 ^ 47 ≤ v.toNat) :
    v.toNat / 4096 % 2 ^ 36 = v.toNat / 4096 - (2 ^ 52 - 2 ^ 36) := by
  have := v.toNat_lt
  omega

/-- **The code page is lost**: the last write to the page that holds
    `init_paging` gives it a frame above `2 ^ 47`, out of reach of any direct
    map. -/
theorem code_page_frame (hswitch : Switched A k code_addr rsp ws pml4 s s') (hs : s.hhdm = b.hhdm)
    (htop : A.top ≤ b.memTop) (hcode : b.InImage code_addr) (hrsp : b.InWindow rsp) :
    ∃ f flags, walk s'.mem pml4 (pageOf code_addr) = some (f, flags) ∧ 2 ^ 47 ≤ f.toNat := by
  obtain ⟨owned, hpaged⟩ := hswitch.paged
  have hcp := pageOf_aligned code_addr
  have hcpv := toNat_pageOf code_addr
  have hrp := pageOf_aligned rsp
  have hrpv := toNat_pageOf rsp
  have hclt := code_addr.toNat_lt
  have hvb := b.virtual_high
  have hhigh := b.hhdm_high
  have hwin := b.window_end
  have hbelow := hswitch.below
  have hpa := hswitch.aligned
  have hha := b.hhdm_aligned
  unfold Limine.InImage at hcode
  unfold Limine.InWindow at hrsp
  unfold PageAligned PAGE_SIZE at hcp hrp hpa hha
  unfold PAGE_SIZE at hbelow
  -- It is enough that whatever entry the page ends up with has such a frame.
  suffices hentry : ∃ e, applyWrites ws none (pageKey (pageOf code_addr)) = some e ∧
      2 ^ 47 ≤ (e &&& frameMask).toNat by
    obtain ⟨e, he, hf⟩ := hentry
    have hview : view s'.mem pml4 (pageOf code_addr) = some e := by
      rw [← he]
      exact hswitch.leaves (pageKey (pageOf code_addr)) (tablePath_length _)
    exact ⟨e &&& frameMask, e &&& 0xFFF, by rw [walk_eq_view hpaged.tables, hview]; rfl, hf⟩
  have hendless : pageOf rsp ≠ endlessStackPage := by
    intro h
    have hv : (pageOf rsp).toNat = 0xFFFFFFFFFFFFB000 := congrArg UInt64.toNat h
    omega
  obtain ⟨before, after, hws, -, -, hafter⟩ :=
    initWrites_spec (hs ▸ b.hhdm_aligned) code_addr pml4 hendless
  rw [hswitch.writes] at hws
  obtain rfl := Option.some.inj hws
  obtain ⟨hleaf, hframe⟩ := bothEntry_decode (pageOf_aligned code_addr)
  rw [applyWrites_append, applyWrites_append, applyWrites_of_mem
    (bothWrites s.hhdm (pageOf code_addr)) (e := pageOf code_addr ||| PAGE_PRESENT ||| PAGE_RW),
    hleaf]
  · rcases applyWrites_cases after (some (pageOf code_addr ||| PAGE_PRESENT ||| PAGE_RW))
      (pageKey (pageOf code_addr)) with hold | ⟨w, hw, hkey, hnew⟩
    · exact ⟨_, hold, by omega⟩
    · rw [pageKey_eq_iff, page_high (by omega)] at hkey
      -- A later write to the same page is one for the stack; the PML4 is elsewhere.
      have hpml4 : w.vaddr ≠ pml4 ∧ w.vaddr ≠ pml4 + s.hhdm := by
        have hsum : (pml4 + s.hhdm).toNat = pml4.toNat + b.hhdm.toNat := by
          rw [hs]
          exact Words.toNat_add_lt _ _ (by omega)
        constructor
        · intro h
          rw [h] at hkey
          omega
        · intro h
          rw [h, page_high (by omega)] at hkey
          omega
      have helsewhere : ¬ (w.vaddr = pml4 ∨ w.vaddr = pml4 + s.hhdm) := not_or.mpr hpml4
      rcases hafter w hw with ⟨a, ha, hlo, hhi, hmem⟩ | hmem | ⟨v, hv, hva, hvlo, hvhi⟩
      · have hloval := UInt64.le_iff_toNat_le.mp hlo
        have hhival := UInt64.le_iff_toNat_le.mp hhi
        rw [Words.toNat_sub_le (pageOf rsp) 0x4000 (by show 0x4000 ≤ _; omega)] at hloval
        rw [Words.toNat_add_lt (pageOf rsp) 0x4000 (by show _ + 0x4000 < _; omega)] at hhival
        change (pageOf rsp).toNat - 0x4000 ≤ _ at hloval
        change _ ≤ (pageOf rsp).toNat + 0x4000 at hhival
        obtain ⟨haleaf, haframe⟩ := bothEntry_decode ha
        rw [hnew, (mem_bothWrites hmem).2, haleaf]
        exact ⟨_, rfl, by omega⟩
      · exact absurd (mem_bothWrites hmem).1 helsewhere
      · have hfit : s.hhdm.toNat + pml4.toNat + 0x1000 < 2 ^ 64 := by
          rw [hs]
          omega
        exact absurd (earlyWindows_vaddr hswitch.aligned (hs ▸ b.hhdm_aligned) hfit hv hva hvlo hvhi)
          helsewhere
  · intro w hw _
    exact (mem_bothWrites hw).2
  · exact ⟨⟨pageOf code_addr, _⟩, by unfold bothWrites; exact List.mem_cons_self, rfl⟩

/-- The bootloader's translation of the code page stays below `2 ^ 47`. -/
theorem translate_code_page (hcode : b.InImage code_addr) :
    b.InImage (pageOf code_addr) ∧
      ∃ q, b.translate (pageOf code_addr) = some q ∧ q.toNat < 2 ^ 47 := by
  have hva := b.virtual_aligned
  have hv := toNat_pageOf code_addr
  have hend := b.image_end
  have hmem := b.image_in_memory
  have hwin := b.window_end
  have hhigh := b.hhdm_high
  unfold Limine.InImage at hcode
  unfold PageAligned PAGE_SIZE at hva
  have hin : b.InImage (pageOf code_addr) := by
    unfold Limine.InImage
    omega
  refine ⟨hin, b.physical_base + (pageOf code_addr - b.virtual_base), ?_, ?_⟩
  · unfold Limine.translate
    rw [if_pos hin]
  · have hsub := Words.toNat_sub_le (pageOf code_addr) b.virtual_base (by omega)
    rw [Words.toNat_add_lt _ _ (by omega), hsub]
    omega

/-- The switch loses the running kernel. -/
theorem not_preservesKernel (hswitch : Switched A k code_addr rsp ws pml4 s s')
    (hs : s.hhdm = b.hhdm) (htop : A.top ≤ b.memTop) (hcode : b.InImage code_addr)
    (hrsp : b.InWindow rsp) : ¬ PreservesKernel b code_addr rsp s'.mem pml4 := by
  intro hpres
  obtain ⟨f, flags, hwalk, hf⟩ := code_page_frame hswitch hs htop hcode hrsp
  obtain ⟨himage, q, htrans, hq⟩ := translate_code_page hcode
  have hwindow : pageOf code_addr &&& ~~~0x1FFFFF = code_addr &&& ~~~0x1FFFFF := by
    apply Words.ext
    rw [toNat_and_not_1fffff, toNat_and_not_1fffff, toNat_pageOf]
    omega
  have heq := hpres.1 (pageOf code_addr) (pageOf_aligned code_addr) hwindow himage
  rw [hwalk, htrans] at heq
  have : f = q := by simpa using heq
  rw [this] at hf
  omega

/-- With enough frames, and the stack in the direct map, `init_paging` runs to the switch. -/
theorem init_paging_switches {n : Nat} (code_addr rsp : UInt64) (hs : s.hhdm = b.hhdm)
    (halloc : A.Inv n s.hhdm s.alloc s.mem []) (hsupply : A.Supply n s.alloc)
    (hn : 3 * maxInitWrites + 1 ≤ n) (hrsp : b.InWindow rsp) :
    ∃ s' pml4 ws, init_paging code_addr rsp s = some s' ∧
      Switched A (n - 1 - 3 * maxInitWrites) code_addr rsp ws pml4 s s' := by
  have hhhdm : PageAligned s.hhdm := hs ▸ b.hhdm_aligned
  -- The page at which the loop over the stack pages never ends is above the direct map.
  have hendless : pageOf rsp ≠ endlessStackPage := by
    intro h
    have hv : (pageOf rsp).toNat = 0xFFFFFFFFFFFFB000 := congrArg UInt64.toNat h
    have hrpv := toNat_pageOf rsp
    have hwin := b.window_end
    unfold Limine.InWindow at hrsp
    omega
  obtain ⟨s', hs'⟩ := init_paging_total code_addr hhhdm hendless
    (A.supply_mono_le hn hsupply)
  obtain ⟨-, pml4, ws, hswitch⟩ := init_paging_spec hhhdm halloc hn hs'
  exact ⟨s', pml4, ws, hs', hswitch⟩

end kernel

/-- **The switch never preserves the running kernel**: for every bootloader
    set-up, code address and stack pointer, and every allocator with enough
    frames, CR3 is loaded with tables that translate the page of
    `init_paging` to another frame than before. -/
theorem init_paging_never_preserves {σ : Type} [PageAllocator σ] (A : AllocSpec σ) (n : Nat)
    (b : Limine) (code_addr rsp : UInt64) (s : Machine σ) (hs : s.hhdm = b.hhdm)
    (halloc : A.Inv n s.hhdm s.alloc s.mem []) (hsupply : A.Supply n s.alloc)
    (hn : 3 * maxInitWrites + 1 ≤ n) (htop : A.top ≤ b.memTop) (hcode : b.InImage code_addr)
    (hrsp : b.InWindow rsp) :
    ∃ s' cr3, init_paging code_addr rsp s = some s' ∧ s'.cr3 = some cr3 ∧
      ¬ PreservesKernel b code_addr rsp s'.mem cr3 := by
  obtain ⟨s', pml4, ws, hs', hswitch⟩ :=
    init_paging_switches code_addr rsp hs halloc hsupply hn hrsp
  exact ⟨s', pml4, hs', hswitch.cr3, not_preservesKernel hswitch hs htop hcode hrsp⟩

/-- The machine right after `initPMM`, on the bootloader's tables. -/
def bootMachine (hhdm : UInt64) (memmapEntries : List limine_memmap_entry) (mem : Mem) :
    Machine largestSection where
  mem   := (initPMM hhdm memmapEntries mem).2
  hhdm  := hhdm
  alloc := (initPMM hhdm memmapEntries mem).1
  pml4  := 0
  early_page_tables := []
  cr3   := none

/-- The region of a machine with 8 MiB. -/
def region8MiB : Region := Region.ofMap memmap8MiB (by decide) (by decide)

/-- The bitmap of this region takes one page. -/
theorem region8MiB_sizes : region8MiB.base = 0x100000 ∧ region8MiB.pages = 1 :=
  ⟨by decide, by decide⟩

/-- A kernel of 2 MiB at the beginning of the upper 2 GiB, and a direct map of
    4 GiB. -/
def limine8MiB : Limine where
  hhdm          := 0xFFFF800000000000
  memTop        := 0x100000000
  physical_base := 0x40000000
  virtual_base  := 0xFFFFFFFF80000000
  size          := 0x200000
  hhdm_aligned     := by decide
  hhdm_high        := by decide
  window_end       := by decide
  physical_aligned := by decide
  virtual_aligned  := by decide
  virtual_high     := by decide
  image_end        := by decide
  image_in_memory  := by decide

/-- A bitmap of one page is enough for `init_paging`. -/
theorem Region.room_init {r : Region} (h : 0 < r.pages) :
    3 * maxInitWrites + 1 ≤ r.frames - r.pages := by
  unfold Region.frames Region.reserved maxInitWrites
  omega

theorem region8MiB_top :
    region8MiB.top ≤ limine8MiB.memTop ∧
      3 * maxInitWrites + 1 ≤ region8MiB.frames - region8MiB.pages := by
  obtain ⟨hbase, hpages⟩ := region8MiB_sizes
  refine ⟨?_, Region.room_init (by omega)⟩
  unfold Region.top Region.frames Region.reserved
  rw [hbase, hpages]
  decide

/-- `init_paging` on this machine: the kernel's own code page is lost. -/
theorem init_paging_loses_kernel_memmap8MiB :
    let mem : Mem := fun _ => 0
    ∃ s' cr3, init_paging 0xFFFFFFFF80001234 0xFFFF800007FF0000
        (bootMachine limine8MiB.hhdm memmap8MiB mem) = some s' ∧ s'.cr3 = some cr3 ∧
      ¬ PreservesKernel limine8MiB 0xFFFFFFFF80001234 0xFFFF800007FF0000 s'.mem cr3 := by
  intro mem
  obtain ⟨s', pml4, ws, hs', hswitch⟩ :=
    init_paging_switches (b := limine8MiB) (A := pmmSpec region8MiB (by decide) (by decide))
      (s := bootMachine limine8MiB.hhdm memmap8MiB mem) 0xFFFFFFFF80001234 0xFFFF800007FF0000 rfl
      (pmmSpec_boot limine8MiB.hhdm mem rfl rfl) trivial region8MiB_top.2 (by decide)
  exact ⟨s', pml4, hs', hswitch.cr3, not_preservesKernel hswitch rfl region8MiB_top.1 (by decide)
    (by decide)⟩

/-- The same memory under a bootloader that puts the kernel and the direct map elsewhere. -/
def limineRelocated : Limine where
  hhdm          := 0xFFFF9A0000000000
  memTop        := 0x40000000
  physical_base := 0x3F000000
  virtual_base  := 0xFFFFFFFFC0200000
  size          := 0x123000
  hhdm_aligned     := by decide
  hhdm_high        := by decide
  window_end       := by decide
  physical_aligned := by decide
  virtual_aligned  := by decide
  virtual_high     := by decide
  image_end        := by decide
  image_in_memory  := by decide

/-- `init_paging` near the end of that image, with its stack at the end of the
    direct map. -/
theorem init_paging_never_preserves_relocated :
    let mem : Mem := fun _ => 0xFF
    ∃ s' cr3, init_paging 0xFFFFFFFFC0307FF8 0xFFFF9A003FFFEF00
        (bootMachine limineRelocated.hhdm memmap8MiB mem) = some s' ∧ s'.cr3 = some cr3 ∧
      ¬ PreservesKernel limineRelocated 0xFFFFFFFFC0307FF8 0xFFFF9A003FFFEF00 s'.mem cr3 := by
  have htop : region8MiB.top ≤ limineRelocated.memTop := by
    obtain ⟨hbase, hpages⟩ := region8MiB_sizes
    unfold Region.top Region.frames Region.reserved
    rw [hbase, hpages]
    decide
  exact init_paging_never_preserves (pmmSpec region8MiB (by decide) (by decide)) _ limineRelocated
    _ _ _ rfl (pmmSpec_boot limineRelocated.hhdm (fun _ => 0xFF) rfl rfl) trivial region8MiB_top.2
    htop (by decide) (by decide)

end ArgaldOS
