import ArgaldOS.Paging.Switch

/-! # What the new tables cover

    After the switch the kernel reaches the allocator's bitmap, its page tables
    and every frame it is handed later through the direct map, so each of these
    bytes `q` has to be translated from `hhdm + q` to `q`.

    `init_paging` writes at most `maxInitWrites` leaf entries, and the scan of
    `kmalloc` runs over at least 32768 bits.  Counting is therefore enough:

    * `kmallocs_spec`: as long as frames are left, calls of `kmalloc` return
      pairwise distinct ones;
    * `covered_frame_mem`: a covered frame is the frame of one of the writes;
    * `hhdmCoverage_iff`: so the coverage fails whenever CR3 is loaded.
-/

namespace ArgaldOS

open TableTree Loops Runs

/-! ## Section 1: The property -/

/-- The address `va` denotes the physical byte `q` under the tables `cr3`. -/
def TranslatesTo (mem : Mem) (cr3 va q : UInt64) : Prop :=
  Canonical va ∧ ∃ f flags, walk mem cr3 va = some (f, flags) ∧ f + (va &&& 0xFFF) = q

/-- The direct map of the tables `cr3` covers the bitmap, the page tables and
    every frame that a later `kmalloc` returns, whatever the calls before it. -/
structure HhdmCovered (hhdm : UInt64) (ls : largestSection) (base reserved : Nat) (mem : Mem)
    (cr3 : UInt64) : Prop where
  bitmap : ∀ q : UInt64, base ≤ q.toNat → q.toNat < base + reserved →
    TranslatesTo mem cr3 (hhdm + q) q
  tables : ∀ t, Reaches nextTable mem.entry cr3 3 t → ∀ q, InFrame t q →
    TranslatesTo mem cr3 (hhdm + q) q
  frames : ∀ calls, Along (pmmStep hhdm ls) LegalCall { mem := mem, live := [] } calls →
    ∀ a, a = (kmalloc hhdm ls (run (pmmStep hhdm ls) { mem := mem, live := [] } calls).mem).1 →
      a ≠ 0 → ∀ q, InFrame a q → TranslatesTo mem cr3 (hhdm + q) q

/-- Once `init_paging` has loaded CR3, the direct map covers all of these. -/
def HhdmCoverage (hhdm : UInt64) (memmapEntries : List limine_memmap_entry)
    (code_addr rsp : UInt64) (mem : Mem) : Prop :=
  ∀ s' cr3, init_paging code_addr rsp (bootMachine hhdm memmapEntries mem) = some s' →
    s'.cr3 = some cr3 →
      HhdmCovered hhdm s'.alloc (regionBase memmapEntries) (regionReserved memmapEntries) s'.mem cr3

/-- The inputs on which `init_paging` never loads CR3: there is no bitmap, so no
    PML4; the region is not aligned, so the PML4 is not; or the loop over the
    stack pages never ends. -/
def NeverSwitches (memmapEntries : List limine_memmap_entry) (rsp : UInt64) : Prop :=
  regionReserved memmapEntries = 0 ∨ regionBase memmapEntries % PAGE_SIZE ≠ 0 ∨
    pageOf rsp = endlessStackPage

/-! ## Section 2: CR3 is not loaded -/

theorem toNat_ofInt_mod (x : Int32) : (ofInt x).toNat % 4096 = x.toUInt32.toNat % 4096 := by
  have hbits : (ofInt x).toBitVec = x.toBitVec.signExtend 64 := rfl
  have hx : x.toUInt32.toNat = x.toBitVec.toNat := rfl
  have hlt := x.toBitVec.isLt
  rw [← UInt64.toNat_toBitVec, hbits, hx, BitVec.toNat_signExtend, BitVec.toNat_setWidth]
  split <;> omega

/-- Truncation to `int` keeps the offset of the region in its page. -/
theorem toNat_dataStart_mod (base reserved : UInt64) (h : reserved.toNat % 4096 = 0) :
    (ofInt (toInt base + toInt reserved)).toNat % 4096 = base.toNat % 4096 := by
  have hb : (toInt base).toUInt32.toNat = base.toNat % 2 ^ 32 := rfl
  have hr : (toInt reserved).toUInt32.toNat = reserved.toNat % 2 ^ 32 := rfl
  rw [toNat_ofInt_mod, Int32.toUInt32_add, UInt32.toNat_add, hb, hr]
  omega

/-- Whatever `kmalloc` finds, its answer is NULL or has the offset of the
    region in its page. -/
theorem kmalloc_offset (hhdm : UInt64) (memmapEntries : List limine_memmap_entry) (mem m : Mem) :
    (kmalloc hhdm (initPMM hhdm memmapEntries mem).1 m).1 = 0 ∨
      (kmalloc hhdm (initPMM hhdm memmapEntries mem).1 m).1.toNat % 4096 =
        regionBase memmapEntries % 4096 := by
  unfold kmalloc
  cases findClear hhdm (initPMM hhdm memmapEntries mem).1 m with
  | none => exact Or.inl rfl
  | some hit =>
    obtain ⟨b, y⟩ := hit
    apply Or.inr
    have hres := regionReserved_eq memmapEntries
    have hmod := toNat_dataStart_mod (selectRegion memmapEntries).1
      (bitmapPages (selectRegion memmapEntries).2 * 4096) (by
        change regionReserved memmapEntries % 4096 = 0
        omega)
    show (ofInt (toInt _ + toInt _) + ofInt (Int32.ofNat b * 8 + Int32.ofNat y) * 4096).toNat % 4096 = _
    rw [UInt64.toNat_add, UInt64.toNat_mul]
    change _ = regionBase memmapEntries % 4096 at hmod
    have h4096 : (4096 : UInt64).toNat = 4096 := rfl
    rw [h4096]
    omega

theorem kmalloc_no_bitmap (hhdm : UInt64) {memmapEntries : List limine_memmap_entry} (mem m : Mem)
    (h : regionReserved memmapEntries = 0) :
    (kmalloc hhdm (initPMM hhdm memmapEntries mem).1 m).1 = 0 := by
  have hzero : bitmapPages (selectRegion memmapEntries).2 * 4096 = 0 := Words.ext h
  have hfind : findClear hhdm (initPMM hhdm memmapEntries mem).1 m = none := by
    unfold findClear
    have hrounds : (initPMM hhdm memmapEntries mem).1.bitmapReserved.toInt.toNat = 0 := by
      show (toInt (bitmapPages (selectRegion memmapEntries).2 * 4096)).toInt.toNat = 0
      rw [hzero]
      rfl
    rw [hrounds]
    rfl
  unfold kmalloc
  rw [hfind]

/-- CR3 is loaded only with a PML4 that is not NULL and aligned, and only when
    the loops end. -/
theorem cr3_loaded {σ : Type} [PageAllocator σ] {code_addr rsp cr3 : UInt64} {s s' : Machine σ}
    (hcr3 : s.cr3 = none) (h : init_paging code_addr rsp s = some s') (h' : s'.cr3 = some cr3) :
    ∃ s₁, alloc_table { s with early_page_tables := [] } = some (cr3, s₁) ∧ cr3 ≠ 0 ∧
      PageAligned cr3 ∧ initWrites s.hhdm code_addr rsp cr3 ≠ none := by
  rw [init_paging_eq] at h
  obtain ⟨⟨pml4, s₁⟩, ha, h⟩ := Option.bind_eq_some_iff.mp h
  have hcontrol := (alloc_table_control ha).1
  have hnone : s₁.cr3 = none := hcontrol.cr3.trans hcr3
  dsimp only at h
  by_cases hz : pml4 = 0
  · rw [if_pos hz] at h
    obtain rfl := Option.some.inj h
    rw [hnone] at h'
    cases h'
  · rw [if_neg hz] at h
    obtain ⟨s₂, hrun, hs'⟩ := Option.map_eq_some_iff.mp h
    obtain ⟨ws, hws, hmap⟩ := Option.bind_eq_some_iff.mp hrun
    by_cases hmask : pml4 &&& 0xFFF = 0
    · rw [if_neg (not_not.mpr hmask)] at hs'
      subst hs'
      obtain rfl := Option.some.inj h'
      exact ⟨s₁, ha, hz, pageAligned_and_fff.mp hmask, by rw [hws]; simp⟩
    · rw [if_pos hmask] at hs'
      subst hs'
      rw [(mapLeaves_control hmap).1.cr3, hnone] at h'
      cases h'

/-- The PML4 of the kernel's allocator is an answer of `kmalloc`. -/
theorem alloc_table_kmalloc {s s₁ : Machine largestSection} {t : UInt64}
    (h : alloc_table s = some (t, s₁)) : t = (kmalloc s.hhdm s.alloc s.mem).1 := by
  unfold alloc_table Machine.kmalloc at h
  by_cases hz : (kmalloc s.hhdm s.alloc s.mem).1 = 0
  · have := h
    simp [PageAllocator.kmalloc, hz] at this
    rw [hz]
    exact this.1.symm
  · have := h
    simp [PageAllocator.kmalloc, hz] at this
    exact this.1.symm

/-- **On these inputs CR3 is never loaded**, so there is nothing to cover. -/
theorem hhdmCoverage_of_neverSwitches (hhdm : UInt64) {memmapEntries : List limine_memmap_entry}
    (code_addr : UInt64) {rsp : UInt64} (mem : Mem) (h : NeverSwitches memmapEntries rsp) :
    HhdmCoverage hhdm memmapEntries code_addr rsp mem := by
  intro s' cr3 hs' hcr3
  obtain ⟨s₁, ha, hne, haligned, hends⟩ := cr3_loaded rfl hs' hcr3
  have hk := alloc_table_kmalloc ha
  change cr3 = (kmalloc hhdm (initPMM hhdm memmapEntries mem).1
    (initPMM hhdm memmapEntries mem).2).1 at hk
  exfalso
  rcases h with hres | hbase | hrsp
  · rw [kmalloc_no_bitmap hhdm mem _ hres] at hk
    exact hne hk
  · rcases kmalloc_offset hhdm memmapEntries mem (initPMM hhdm memmapEntries mem).2 with hz | hmod
    · exact hne (hk.trans hz)
    · rw [← hk] at hmod
      unfold PageAligned PAGE_SIZE at haligned
      unfold PAGE_SIZE at hbase
      omega
  · exact hends (initWrites_endless _ code_addr cr3 hrsp)

/-! ## Section 3: Counting the frames that are left -/

section counting
variable {r : Region} {ls : largestSection} {hhdm : UInt64} {m : Mem} {owned : List UInt64}

variable (hhdm) in
/-- **As long as frames are left, `kmalloc` hands out new ones**: after `j`
    calls there are `j` of them, distinct from each other and from the frames
    that were handed out before, and each is the answer to one of the calls. -/
theorem kmallocs_spec (hr : r.Fits) (halign : r.base % PAGE_SIZE = 0) {k : Nat}
    (hroom : PmmRoom r k ls m owned) (j : Nat) (hj : j ≤ k) :
    (kmallocs hhdm ls m j).live.length = j ∧
      PmmRoom r (k - j) ls (kmallocs hhdm ls m j).mem ((kmallocs hhdm ls m j).live ++ owned) ∧
      ∀ a ∈ (kmallocs hhdm ls m j).live, GoodFrame r.top a ∧
        ∃ i, a = (kmalloc hhdm ls (kmallocs hhdm ls m i).mem).1 := by
  induction j with
  | zero => exact ⟨rfl, hroom, fun a ha => by cases ha⟩
  | succ j ih =>
    obtain ⟨hlen, hroom', hall⟩ := ih (by omega)
    rw [kmallocs_succ]
    have hne : (kmalloc hhdm ls (kmallocs hhdm ls m j).mem).1 ≠ 0 := by
      intro hnull
      have := (pmmRoom_null hr hhdm hroom' hnull).1
      omega
    have hstep : pmmStep hhdm ls (kmallocs hhdm ls m j) .kmalloc =
        { mem := (kmalloc hhdm ls (kmallocs hhdm ls m j).mem).2,
          live := (kmalloc hhdm ls (kmallocs hhdm ls m j).mem).1 :: (kmallocs hhdm ls m j).live } := by
      show PmmState.mk _ _ = _
      rw [if_neg hne]
    obtain ⟨hgood, -, hnext⟩ := pmmRoom_fresh hr halign hhdm hroom' hne
    rw [hstep]
    refine ⟨by simp [hlen], ?_, fun a ha => ?_⟩
    · rw [show k - (j + 1) = k - j - 1 by omega]
      exact hnext
    · rcases List.mem_cons.mp ha with rfl | ha
      · exact ⟨hgood, j, rfl⟩
      · exact hall a ha

/-- A frame that the direct map covers is the frame of one of the writes. -/
theorem covered_frame_mem {σ : Type} [PageAllocator σ] {A : AllocSpec σ} {k : Nat}
    {code_addr rsp pml4 a : UInt64} {ws : List LeafWrite} {s s' : Machine σ}
    (hswitch : Switched A k code_addr rsp ws pml4 s s') (hhhdm : PageAligned s.hhdm)
    (ha : PageAligned a) (h : TranslatesTo s'.mem pml4 (s.hhdm + a) a) :
    a ∈ ws.map fun w => w.entry &&& frameMask := by
  obtain ⟨-, f, flags, hwalk, hf⟩ := h
  obtain ⟨owned, hpaged⟩ := hswitch.paged
  have hzero : s.hhdm + a &&& 0xFFF = 0 := pageAligned_and_fff.mpr (pageAligned_add hhhdm ha)
  rw [hzero, UInt64.add_zero] at hf
  rw [walk_eq_view hpaged.tables] at hwalk
  obtain ⟨e, he, hdecode⟩ := Option.map_eq_some_iff.mp hwalk
  obtain ⟨rfl, -⟩ := Prod.mk.inj hdecode
  have hview : view s'.mem pml4 (s.hhdm + a) = applyWrites ws none (pageKey (s.hhdm + a)) :=
    hswitch.leaves (pageKey (s.hhdm + a)) (tablePath_length _)
  rw [hview] at he
  rcases applyWrites_cases ws none (pageKey (s.hhdm + a)) with hnone | ⟨w, hw, -, hnew⟩
  · rw [hnone] at he
    cases he
  · rw [hnew] at he
    unfold leafEntry at he
    split at he
    · cases he
    · obtain rfl := Option.some.inj he
      exact List.mem_map.mpr ⟨w, hw, hf⟩

end counting

/-- **The coverage fails whenever CR3 is loaded**: more frames are left than
    entries were written. -/
theorem not_hhdmCoverage {hhdm : UInt64} {memmapEntries : List limine_memmap_entry}
    (hhhdm : PageAligned hhdm) (code_addr rsp : UInt64) (mem : Mem)
    (hfits : regionBase memmapEntries + regionReserved memmapEntries < 2 ^ 31)
    (hlength : regionLength memmapEntries < 2 ^ 43)
    (hswitches : ¬ NeverSwitches memmapEntries rsp) :
    ¬ HhdmCoverage hhdm memmapEntries code_addr rsp mem := by
  unfold NeverSwitches at hswitches
  rw [not_or, not_or, not_not] at hswitches
  obtain ⟨hres, hbase, hrsp⟩ := hswitches
  have hreserved := regionReserved_eq memmapEntries
  let r := Region.ofMap memmapEntries (by omega) hlength
  have hrs : r.reserved = regionReserved memmapEntries := hreserved.symm
  have hpages : r.reserved = 4096 * r.pages := rfl
  have hframes : r.frames = 8 * r.reserved := rfl
  have hr : r.Fits := by
    unfold Region.Fits
    rw [hrs]
    exact hfits
  have hroom : 3 * maxInitWrites + 1 + (maxInitWrites + 1) ≤ r.frames - r.pages := by
    unfold maxInitWrites
    omega
  intro hcover
  obtain ⟨s', hs'⟩ := init_paging_total (A := pmmSpec r hr hbase) code_addr
    (s := bootMachine hhdm memmapEntries mem) hhhdm hrsp trivial
  obtain ⟨-, pml4, ws, hswitch⟩ := init_paging_spec (A := pmmSpec r hr hbase)
    (s := bootMachine hhdm memmapEntries mem) hhhdm
    (pmmSpec_boot hhdm mem rfl rfl) (by omega) hs'
  have hcovered := hcover s' pml4 hs' hswitch.cr3
  obtain ⟨owned, hpaged⟩ := hswitch.paged
  have hleft : PmmRoom r (maxInitWrites + 1) s'.alloc s'.mem owned :=
    (pmmSpec r hr hbase).mono_le (by omega) hpaged.alloc
  obtain ⟨hlen, hall, hfrom⟩ := kmallocs_spec hhdm hr hbase hleft (maxInitWrites + 1)
    (Nat.le_refl _)
  -- Every one of these frames would be the frame of a write of `init_paging`.
  have hsub : (kmallocs hhdm s'.alloc s'.mem (maxInitWrites + 1)).live ⊆
      ws.map fun w => w.entry &&& frameMask := by
    intro a ha
    obtain ⟨hgood, i, hi⟩ := hfrom a ha
    apply covered_frame_mem hswitch hhhdm hgood.aligned
    apply hcovered.frames (List.replicate i .kmalloc) (legal_replicate _ i) a hi hgood.ne_zero a
    unfold InFrame PAGE_SIZE
    omega
  have hnodup : (kmallocs hhdm s'.alloc s'.mem (maxInitWrites + 1)).live.Nodup :=
    (List.nodup_append.mp hall.inv.nodup).1
  have hle := length_le_of_nodup_subset hnodup hsub
  rw [hlen, List.length_map] at hle
  have := hswitch.short
  omega

/-! ## Section 4: The result -/

/-- **Main theorem on the direct map**: on inputs on which `init_paging` never
    loads CR3 there is nothing to cover, and whenever the allocator's region
    fits the kernel's `int` fields these are the only inputs on which the new
    tables cover what the kernel needs. -/
theorem hhdmCoverage_iff (hhdm : UInt64) (memmapEntries : List limine_memmap_entry)
    (code_addr rsp : UInt64) (mem : Mem) (hhhdm : PageAligned hhdm) :
    (NeverSwitches memmapEntries rsp → HhdmCoverage hhdm memmapEntries code_addr rsp mem) ∧
      (regionBase memmapEntries + regionReserved memmapEntries < 2 ^ 31 →
        regionLength memmapEntries < 2 ^ 43 →
        (HhdmCoverage hhdm memmapEntries code_addr rsp mem ↔ NeverSwitches memmapEntries rsp)) := by
  refine ⟨hhdmCoverage_of_neverSwitches hhdm code_addr mem, fun hfits hlength => ⟨?_, ?_⟩⟩
  · intro hcover
    by_contra hswitches
    exact not_hhdmCoverage hhhdm code_addr rsp mem hfits hlength hswitches hcover
  · exact hhdmCoverage_of_neverSwitches hhdm code_addr mem

/-- With 8 MiB, a kernel in the upper 2 GiB and a stack in the direct map, CR3
    is loaded and frames that `kmalloc` hands out later are not covered. -/
theorem hhdmCoverage_fails_memmap8MiB :
    let mem : Mem := fun _ => 0
    ¬ HhdmCoverage 0xFFFF800000000000 memmap8MiB 0xFFFFFFFF80001234 0xFFFF800007FF0000 mem :=
  not_hhdmCoverage (by decide) _ _ _ (by decide) (by decide) (by unfold NeverSwitches; decide)

/-- The general result applied to the same machine. -/
theorem hhdmCoverage_iff_memmap8MiB :
    let mem : Mem := fun _ => 0
    HhdmCoverage 0xFFFF800000000000 memmap8MiB 0xFFFFFFFF80001234 0xFFFF800007FF0000 mem ↔
      NeverSwitches memmap8MiB 0xFFFF800007FF0000 :=
  (hhdmCoverage_iff 0xFFFF800000000000 memmap8MiB 0xFFFFFFFF80001234 0xFFFF800007FF0000
    (fun _ => 0) (by decide)).2 (by decide) (by decide)

end ArgaldOS
