import ArgaldOS.Pmm.Runs
import Mathlib.Data.List.Nodup
import Mathlib.Data.List.Perm.Subperm

/-! # Safety of the frame allocator

    Two properties of every run of `kmalloc` and `kfree` calls after `initPMM`,
    both consequences of the invariant `PmmInv`:

    * `kmalloc_no_double_allocation`: the live frames are distinct, disjoint,
      aligned with the region and disjoint from the bitmap;
    * `kmalloc_inRegion_iff`: which runs stay inside the region that `initPMM`
      selected.  The scan covers every bit of the reserved pages, and there
      are more of those than frames in the region, so a `kmalloc` stays inside
      exactly when fewer frames are live than the region can hold.
-/

namespace ArgaldOS

open Loops Runs

/-! ## Section 1: No double allocation -/

/-- The live addresses of an allocator whose bitmap takes the bytes
    `base, ..., base + reserved - 1`. -/
structure NoDoubleAllocation (base reserved : Nat) (live : List UInt64) : Prop where
  distinct  : live.Pairwise (· ≠ ·)
  disjoint  : ∀ a ∈ live, ∀ b ∈ live, a ≠ b → ∀ x, ¬ (InFrame a x ∧ InFrame b x)
  aligned   : base % PAGE_SIZE = 0 → ∀ a ∈ live, PageAligned a
  offBitmap : ∀ a ∈ live, ∀ x, InFrame a x → ¬ (base ≤ x.toNat ∧ x.toNat < base + reserved)

theorem PmmInv.noDoubleAllocation {r : Region} (hr : r.Fits) {s : PmmState} (hinv : PmmInv r s) :
    NoDoubleAllocation r.base r.reserved s.live := by
  refine ⟨hinv.nodup, ?_, ?_, ?_⟩
  · intro a ha b hb hab x ⟨hax, hbx⟩
    obtain ⟨f, -, hf, rfl⟩ := hinv.frame a ha
    obtain ⟨g, -, hg, rfl⟩ := hinv.frame b hb
    unfold InFrame PAGE_SIZE at hax hbx
    rw [Region.toNat_addr hr hf] at hax
    rw [Region.toNat_addr hr hg] at hbx
    -- A common byte makes the two frame numbers equal.
    have hfg : f = g := by omega
    exact hab (by rw [hfg])
  · intro hbase a ha
    obtain ⟨f, -, hf, rfl⟩ := hinv.frame a ha
    have haddr := Region.toNat_addr hr hf
    unfold Region.reserved at haddr
    unfold PAGE_SIZE at hbase
    unfold PageAligned PAGE_SIZE
    omega
  · intro a ha x hx
    obtain ⟨f, -, hf, rfl⟩ := hinv.frame a ha
    exact Region.not_inBitmap_of_inFrame hr hf hx

/-- The invariant holds at the end of every legal run after `initPMM`. -/
theorem pmmInv_run {r : Region} {hhdm : UInt64} {memmapEntries : List limine_memmap_entry}
    {mem : Mem} {calls : List PmmCall} (hr : r.Fits)
    (hbase : (selectRegion memmapEntries).1.toNat = r.base)
    (hpages : (bitmapPages (selectRegion memmapEntries).2).toNat = r.pages)
    (hlegal : Along (pmmStep hhdm (initPMM hhdm memmapEntries mem).1) LegalCall
      (pmmBoot hhdm memmapEntries mem) calls) :
    PmmInv r (run (pmmStep hhdm (initPMM hhdm memmapEntries mem).1)
      (pmmBoot hhdm memmapEntries mem) calls) := by
  obtain ⟨hrec, -, -⟩ := initPMM_spec hhdm mem hbase hpages
  exact run_invariant (pmmInv_step hr hrec) (pmmInv_boot mem hbase hpages) hlegal

/-- The size assumption on the selected region makes `kernel.largestSect` exact. -/
theorem Region.ofMap_fits {memmapEntries : List limine_memmap_entry}
    (hfits : regionBase memmapEntries + regionReserved memmapEntries < 2 ^ 31)
    (hlength : regionLength memmapEntries < 2 ^ 43) :
    (Region.ofMap memmapEntries (Nat.lt_of_add_right_lt hfits) hlength).Fits := by
  have hres := regionReserved_eq memmapEntries
  unfold Region.Fits Region.reserved
  show regionBase memmapEntries + 4096 * (bitmapPages (selectRegion memmapEntries).2).toNat < _
  omega

/-- **Main theorem of the allocator**: after `initPMM`, every run of `kmalloc`
    calls and of `kfree` calls on live addresses hands out distinct, disjoint
    frames that are aligned when the region is and do not overlap the bitmap. -/
theorem kmalloc_no_double_allocation (hhdm : UInt64) (memmapEntries : List limine_memmap_entry)
    (mem : Mem) (calls : List PmmCall)
    (hfits : regionBase memmapEntries + regionReserved memmapEntries < 2 ^ 31)
    (hlength : regionLength memmapEntries < 2 ^ 43)
    (hlegal : Along (pmmStep hhdm (initPMM hhdm memmapEntries mem).1) LegalCall
      (pmmBoot hhdm memmapEntries mem) calls) :
    NoDoubleAllocation (regionBase memmapEntries) (regionReserved memmapEntries)
      (run (pmmStep hhdm (initPMM hhdm memmapEntries mem).1)
        (pmmBoot hhdm memmapEntries mem) calls).live := by
  have hres := regionReserved_eq memmapEntries
  have hr := Region.ofMap_fits hfits hlength
  have hinv := pmmInv_run hr rfl rfl hlegal
  have hsafe := hinv.noDoubleAllocation hr
  rw [hres]
  exact hsafe

/-- A machine with 8 MiB of memory from 1 MiB on. -/
def memmap8MiB : List limine_memmap_entry :=
  [{ base := 0x100000, length := 0x800000, type := LIMINE_MEMMAP_USABLE }]

/-- The first frame that this machine hands out is not NULL. -/
theorem first_kmalloc_memmap8MiB (hhdm : UInt64) (mem : Mem) :
    (kmalloc hhdm (initPMM hhdm memmap8MiB mem).1 (initPMM hhdm memmap8MiB mem).2).1 ≠ 0 := by
  let r := Region.ofMap memmap8MiB (by decide) (by decide)
  have hpages : r.pages = 1 := by decide
  have hr : r.Fits := by decide
  obtain ⟨hrec, hboot, -⟩ := initPMM_spec (r := r) hhdm mem rfl rfl
  have hfr : 1 < r.frames := by
    unfold Region.frames Region.reserved
    omega
  rcases kmalloc_cases hhdm (initPMM hhdm memmap8MiB mem).2 hrec with
    ⟨f, hf, -, -, hk⟩ | ⟨hfull, -⟩
  · rw [hk]
    exact Region.addr_ne_zero hr hf
  · have hone := hfull 1 hfr
    rw [hboot 1 hfr, if_neg (by omega)] at hone
    cases hone

/-- Two allocations with a `kfree` of the first in between. -/
theorem kmalloc_no_double_allocation_memmap8MiB :
    let hhdm : UInt64 := 0xFFFF800000000000
    let mem : Mem := fun _ => 0
    let ls := (initPMM hhdm memmap8MiB mem).1
    let a := (kmalloc hhdm ls (initPMM hhdm memmap8MiB mem).2).1
    NoDoubleAllocation (regionBase memmap8MiB) (regionReserved memmap8MiB)
      (run (pmmStep hhdm ls) (pmmBoot hhdm memmap8MiB mem) [.kmalloc, .kfree a, .kmalloc]).live := by
  intro hhdm mem ls a
  refine kmalloc_no_double_allocation hhdm memmap8MiB mem _ (by decide) (by decide)
    ⟨trivial, ?_, trivial, trivial⟩
  have hlive : (pmmStep hhdm ls (pmmBoot hhdm memmap8MiB mem) .kmalloc).live =
      if a = 0 then [] else [a] := rfl
  show a ∈ (pmmStep hhdm ls (pmmBoot hhdm memmap8MiB mem) .kmalloc).live
  rw [hlive, if_neg (first_kmalloc_memmap8MiB hhdm mem)]
  exact List.mem_singleton_self a

/-! ## Section 2: Staying inside the region -/

section inRegion
variable {r : Region} {s : PmmState}

/-- A list without repetitions lies in a list that is at least as long. -/
theorem length_le_of_nodup_subset {α : Type} {l l' : List α} (hl : l.Nodup) (h : l ⊆ l') :
    l.length ≤ l'.length :=
  (List.subperm_of_subset hl h).length_le

/-- The live frames all have numbers below `n`. -/
def LiveBelow (r : Region) (n : Nat) (s : PmmState) : Prop :=
  ∀ a ∈ s.live, ∃ f, r.pages ≤ f ∧ f < n ∧ a = r.addr f

/-- Some frame of `pages, ..., n - 1` is clear exactly when there are fewer
    live frames than that, provided that they all lie among these. -/
theorem exists_clear_iff (hinv : PmmInv r s) {n : Nat} (hn : n ≤ r.frames)
    (hin : LiveBelow r n s) :
    (∃ f, r.pages ≤ f ∧ f < n ∧ r.addr f ∉ s.live) ↔ s.live.length + r.pages < n := by
  let all := (List.range' r.pages (n - r.pages)).map r.addr
  have hlen : all.length = n - r.pages := by simp [all]
  have hmem : ∀ f, r.pages ≤ f → f < n → r.addr f ∈ all := by
    intro f hfp hf
    exact List.mem_map_of_mem (List.mem_range'_1.mpr ⟨hfp, by omega⟩)
  have hnodup : all.Nodup := by
    refine List.Nodup.map_on ?_ List.nodup_range'
    intro f hf g hg hfg
    have hf' := List.mem_range'_1.mp hf
    have hg' := List.mem_range'_1.mp hg
    exact Region.addr_inj (by omega) (by omega) hfg
  constructor
  · rintro ⟨f, hfp, hf, hnot⟩
    -- The live frames fit in the frames other than `f`.
    have hsub : s.live ⊆ all.erase (r.addr f) := by
      intro a ha
      obtain ⟨g, hgp, hg, rfl⟩ := hin a ha
      have hne : r.addr g ≠ r.addr f := by
        intro h
        exact hnot (h ▸ ha)
      exact (List.mem_erase_of_ne hne).mpr (hmem g hgp hg)
    have hle := length_le_of_nodup_subset hinv.nodup hsub
    have hpos : 0 < all.length := List.length_pos_of_mem (hmem f hfp hf)
    rw [List.length_erase_of_mem (hmem f hfp hf)] at hle
    omega
  · intro hroom
    by_contra hnone
    -- Otherwise all of them are live, which are more than there are.
    have hsub : all ⊆ s.live := by
      intro a ha
      obtain ⟨f, hf, rfl⟩ := List.mem_map.mp ha
      have hf' := List.mem_range'_1.mp hf
      by_contra hnot
      exact hnone ⟨f, hf'.1, by omega, hnot⟩
    have hle := length_le_of_nodup_subset hnodup hsub
    omega

end inRegion

/-- What a call must not do: a `kmalloc` returns NULL or a frame between the
    end of the bitmap and the end of the selected region. -/
def ReturnsInRegion (hhdm : UInt64) (memmapEntries : List limine_memmap_entry)
    (ls : largestSection) (s : PmmState) : PmmCall → Prop
  | .kmalloc =>
    let a := (kmalloc hhdm ls s.mem).1
    a ≠ 0 → regionBase memmapEntries + regionReserved memmapEntries ≤ a.toNat ∧
      a.toNat + PAGE_SIZE ≤ regionBase memmapEntries + regionLength memmapEntries
  | .kfree _ => True

/-- The condition on the state before a call: there is no bitmap at all, or
    fewer frames are live than scan and region have in common.  The region has
    `regionLength / 4096` frames; the frames of the bitmap are lost twice,
    once as memory and once because their bits are marked although frames are
    counted from the end of the bitmap. -/
def Room (memmapEntries : List limine_memmap_entry) (s : PmmState) : PmmCall → Prop
  | .kmalloc =>
    regionReserved memmapEntries = 0 ∨
      s.live.length + 2 * (regionReserved memmapEntries / PAGE_SIZE)
        < regionLength memmapEntries / PAGE_SIZE
  | .kfree _ => True

section inRegion
variable {r : Region} {ls : largestSection} (hhdm : UInt64) {s : PmmState} {n : Nat}

/-- A `kmalloc` hands out one of the first `n` frames exactly when fewer than
    that are taken: it takes the lowest clear one. -/
theorem kmalloc_below_iff (hr : r.Fits) (hrec : r.Recorded ls) (hinv : PmmInv r s)
    (hn : n ≤ r.frames) (hin : LiveBelow r n s) :
    (∃ f, r.pages ≤ f ∧ f < n ∧ (kmalloc hhdm ls s.mem).1 = r.addr f) ↔
      s.live.length + r.pages < n := by
  have hclear : ∀ f < r.frames, r.bit s.mem f = 0 ↔ r.pages ≤ f ∧ r.addr f ∉ s.live := by
    intro f hf
    have hbit := hinv.bits f hf
    have hlt := r.bit_lt_two s.mem f
    have hzero : r.bit s.mem f = 0 ↔ ¬ r.bit s.mem f = 1 := by omega
    rw [hzero, hbit, not_or, Nat.not_lt]
  rw [← exists_clear_iff hinv hn hin]
  rcases kmalloc_cases hhdm s.mem hrec with ⟨f, hf, hf0, hmin, hk⟩ | ⟨hfull, hk⟩
  · obtain ⟨hfp, hfl⟩ := (hclear f hf).mp hf0
    rw [hk]
    constructor
    · rintro ⟨g, hgp, hg, heq⟩
      obtain rfl : f = g := Region.addr_inj hf (by omega) heq
      exact ⟨f, hfp, hg, hfl⟩
    -- The lowest clear frame is at most `g`, which is clear.
    · rintro ⟨g, hgp, hg, hgl⟩
      have hfg : f ≤ g := by
        by_contra hlt
        have h1 := hmin g (by omega)
        have h0 := (hclear g (by omega)).mpr ⟨hgp, hgl⟩
        omega
      exact ⟨f, hfp, by omega, rfl⟩
  · rw [hk]
    constructor
    · rintro ⟨g, -, hg, heq⟩
      exact absurd heq.symm (Region.addr_ne_zero hr (by omega))
    · rintro ⟨g, hgp, hg, hgl⟩
      have h0 := (hclear g (by omega)).mpr ⟨hgp, hgl⟩
      have h1 := hfull g (by omega)
      omega

/-- A bitmap whose live frames have numbers below `n` is not full. -/
theorem kmalloc_ne_zero (hr : r.Fits) (hrec : r.Recorded ls) (hinv : PmmInv r s)
    (hn : n < r.frames) (hp : r.pages < r.frames) (hin : LiveBelow r n s) :
    ∃ f < r.frames, (kmalloc hhdm ls s.mem).1 = r.addr f ∧ r.addr f ≠ 0 := by
  rcases kmalloc_cases hhdm s.mem hrec with ⟨f, hf, -, -, hk⟩ | ⟨hfull, -⟩
  · exact ⟨f, hf, by rw [hk], Region.addr_ne_zero hr hf⟩
  · -- The first frame behind all live ones is clear.
    exfalso
    have hmax : max n r.pages < r.frames := by omega
    rcases (hinv.bits _ hmax).mp (hfull _ hmax) with hlt | hlive
    · omega
    · obtain ⟨f, -, hf, heq⟩ := hin _ hlive
      have := Region.addr_inj hmax (by omega) heq
      omega

end inRegion

/-- The selected region is empty and starts at 0, or it is not empty. -/
theorem regionBase_eq_zero_or (memmapEntries : List limine_memmap_entry) :
    regionBase memmapEntries = 0 ∨ 0 < regionLength memmapEntries := by
  unfold regionBase regionLength selectRegion
  refine List.foldlRecOn memmapEntries _
    (motive := fun (p : UInt64 × UInt64) => p.1.toNat = 0 ∨ 0 < p.2.toNat)
    (Or.inl rfl) ?_
  intro p hp entry _
  split
  · next h =>
    have hgt := UInt64.lt_iff_toNat_lt.mp h.2.1
    apply Or.inr
    show 0 < entry.length.toNat
    omega
  · exact hp

/-! ## Section 3: Which runs stay inside the region -/

section main
variable {memmapEntries : List limine_memmap_entry} (hhdm : UInt64)

/-- One call inside the region keeps all live frames inside. -/
theorem liveBelow_step {r : Region} {ls : largestSection} {n : Nat} (s : PmmState) (c : PmmCall)
    (hin : LiveBelow r n s)
    (hc : c = .kmalloc → (kmalloc hhdm ls s.mem).1 ≠ 0 →
      ∃ f, r.pages ≤ f ∧ f < n ∧ (kmalloc hhdm ls s.mem).1 = r.addr f) :
    LiveBelow r n (pmmStep hhdm ls s c) := by
  intro a ha
  cases c with
  | kmalloc =>
    have hlive : (pmmStep hhdm ls s .kmalloc).live =
        if (kmalloc hhdm ls s.mem).1 = 0 then s.live else (kmalloc hhdm ls s.mem).1 :: s.live := rfl
    rw [hlive] at ha
    by_cases hzero : (kmalloc hhdm ls s.mem).1 = 0
    · rw [if_pos hzero] at ha
      exact hin a ha
    · rw [if_neg hzero] at ha
      rcases List.mem_cons.mp ha with rfl | ha
      · exact hc rfl hzero
      · exact hin a ha
  | kfree location => exact hin a (List.mem_of_mem_erase ha)

/-- A frame that `kmalloc` returns lies inside the region exactly when its
    number is below the number of pages that the bitmap leaves. -/
theorem inRegion_iff_below (length : Nat) {r : Region} {ls : largestSection} {s : PmmState}
    (hr : r.Fits) (hrec : r.Recorded ls) (hinv : PmmInv r s)
    (hn : length / 4096 - r.pages ≤ r.frames) (hne : (kmalloc hhdm ls s.mem).1 ≠ 0) :
    (r.base + r.reserved ≤ (kmalloc hhdm ls s.mem).1.toNat ∧
        (kmalloc hhdm ls s.mem).1.toNat + PAGE_SIZE ≤ r.base + length) ↔
      ∃ f, r.pages ≤ f ∧ f < length / 4096 - r.pages ∧ (kmalloc hhdm ls s.mem).1 = r.addr f := by
  rcases kmalloc_cases hhdm s.mem hrec with ⟨f, hf, hclear, -, hk⟩ | ⟨-, hk⟩
  · have haddr := Region.toNat_addr hr hf
    -- The frame that was found was not one of the bitmap's own.
    have hnot : ¬ (f < r.pages ∨ r.addr f ∈ s.live) := by
      rw [← hinv.bits f hf, hclear]
      decide
    rw [hk]
    dsimp only
    unfold Region.reserved PAGE_SIZE at *
    constructor
    · rintro ⟨-, hhi⟩
      exact ⟨f, by omega, by omega, rfl⟩
    · rintro ⟨g, hgp, hg, heq⟩
      obtain rfl : f = g := Region.addr_inj hf (by omega) heq
      omega
  · rw [hk] at hne
    exact absurd rfl hne

/-- When the bitmap ends below `2 ^ 31`, a call returns a frame inside the
    region exactly when there is room. -/
theorem returnsInRegion_iff {r : Region} {ls : largestSection} {s : PmmState} (hr : r.Fits)
    (hrec : r.Recorded ls) (hbase : regionBase memmapEntries = r.base)
    (hres : regionReserved memmapEntries = r.reserved)
    (hn : regionLength memmapEntries / 4096 ≤ r.frames)
    (hinv : PmmInv r s) (hin : LiveBelow r (regionLength memmapEntries / 4096 - r.pages) s)
    (c : PmmCall) :
    ReturnsInRegion hhdm memmapEntries ls s c ↔ Room memmapEntries s c := by
  cases c with
  | kfree location => exact Iff.rfl
  | kmalloc =>
    have hfr : r.frames = 8 * (4096 * r.pages) := rfl
    show ((kmalloc hhdm ls s.mem).1 ≠ 0 → _) ↔ _
    unfold Room PAGE_SIZE
    rw [hres, hbase]
    by_cases hp : r.pages = 0
    · -- Without a bitmap the scan finds nothing.
      have hnull : (kmalloc hhdm ls s.mem).1 = 0 := by
        rcases kmalloc_cases hhdm s.mem hrec with ⟨f, hf, -⟩ | ⟨-, hk⟩
        · omega
        · rw [hk]
      simp [Region.reserved, hp, hnull]
    · obtain ⟨f, -, hk, hne⟩ := kmalloc_ne_zero hhdm
        (n := regionLength memmapEntries / 4096 - r.pages) hr hrec hinv (by omega) (by omega) hin
      rw [← hk] at hne
      have hroom : (r.reserved = 0 ∨ s.live.length + 2 * (r.reserved / 4096)
          < regionLength memmapEntries / 4096) ↔
          s.live.length + r.pages < regionLength memmapEntries / 4096 - r.pages := by
        unfold Region.reserved
        omega
      have hbelow := inRegion_iff_below hhdm (regionLength memmapEntries)
        hr hrec hinv (by omega) hne
      unfold PAGE_SIZE at hbelow
      rw [hroom, ← kmalloc_below_iff hhdm hr hrec hinv (by omega) hin, ← hbelow]
      exact ⟨fun h => h hne, fun h _ => h⟩

/-- A region that ends at `2 ^ 31` and is used up by its bitmap: `data_start`
    overflows, so the first `kmalloc` leaves the region, and there is no room
    before it either. -/
theorem kmalloc_overflow {r : Region} {ls : largestSection} {s : PmmState}
    (hrec : r.Recorded ls) (hp : r.pages = 1) (hend : r.base + r.reserved = 2 ^ 31)
    (hclear : r.bit s.mem 1 = 0) : 2 ^ 31 < (kmalloc hhdm ls s.mem).1.toNat := by
  have hfr : r.frames = 32768 := by
    unfold Region.frames Region.reserved
    omega
  rcases kmalloc_cases hhdm s.mem hrec with ⟨f, hf, -, -, hk⟩ | ⟨hfull, -⟩
  · have hbase : r.base = 2147479552 := by
      unfold Region.reserved at hend
      omega
    have hstart : r.dataStart = 0xFFFFFFFF80000000 := by
      unfold Region.dataStart Region.reserved
      rw [hbase, hp]
      decide
    have hoff := Words.ofNat_toNat_lt (4096 * f) (by omega)
    rw [hk]
    show _ < (r.dataStart + UInt64.ofNat (4096 * f)).toNat
    rw [hstart, Words.toNat_add_lt _ _ (by rw [hoff]; show 0xFFFFFFFF80000000 + _ < _; omega), hoff]
    show _ < 0xFFFFFFFF80000000 + 4096 * f
    omega
  · have := hfull 1 (by omega)
    omega

/-- **Main theorem on the selected region**: along every legal run, all
    addresses returned lie inside the region exactly when there is room before
    every `kmalloc` call. -/
theorem kmalloc_inRegion_iff (hhdm : UInt64) (memmapEntries : List limine_memmap_entry)
    (mem : Mem) (calls : List PmmCall)
    (hregion : regionBase memmapEntries + regionLength memmapEntries ≤ 2 ^ 31)
    (hlegal : Along (pmmStep hhdm (initPMM hhdm memmapEntries mem).1) LegalCall
      (pmmBoot hhdm memmapEntries mem) calls) :
    Along (pmmStep hhdm (initPMM hhdm memmapEntries mem).1)
        (ReturnsInRegion hhdm memmapEntries (initPMM hhdm memmapEntries mem).1)
        (pmmBoot hhdm memmapEntries mem) calls ↔
      Along (pmmStep hhdm (initPMM hhdm memmapEntries mem).1) (Room memmapEntries)
        (pmmBoot hhdm memmapEntries mem) calls := by
  have hempty := regionBase_eq_zero_or memmapEntries
  have hres := regionReserved_eq memmapEntries
  have hbits := toNat_bitmapPages (selectRegion memmapEntries).2
  change _ = ((regionLength memmapEntries / 4096 + 7) / 8 + 4095) / 4096 at hbits
  let r := Region.ofMap memmapEntries (by omega) (by omega)
  have hbase : regionBase memmapEntries = r.base := rfl
  have hpages : (bitmapPages (selectRegion memmapEntries).2).toNat = r.pages := rfl
  have hreserved : regionReserved memmapEntries = r.reserved := hres
  have hfr : r.frames = 8 * (4096 * r.pages) := rfl
  have hrs : r.reserved = 4096 * r.pages := rfl
  obtain ⟨hrec, hboot, -⟩ := initPMM_spec (r := r) hhdm mem rfl rfl
  by_cases hr : r.Fits
  · refine Along.iff
      (fun s => PmmInv r s ∧ LiveBelow r (regionLength memmapEntries / 4096 - r.pages) s)
      ?_ ?_ ⟨pmmInv_boot mem rfl rfl, fun a ha => by cases ha⟩ hlegal
    · rintro s c ⟨hinv, hin⟩ hc hret
      refine ⟨pmmInv_step hr hrec s c hinv hc, liveBelow_step hhdm s c hin ?_⟩
      rintro rfl hne
      have hbounds := hret hne
      rw [hbase, hreserved] at hbounds
      exact (inRegion_iff_below hhdm _ hr hrec hinv (by omega) hne).mp hbounds
    · rintro s c ⟨hinv, hin⟩ -
      exact returnsInRegion_iff hhdm hr hrec hbase hreserved (by omega) hinv hin c
  · -- Only a region of one page at the very end of the range does not fit.
    unfold Region.Fits at hr
    have hone : r.pages = 1 := by omega
    cases calls with
    | nil => exact Iff.rfl
    | cons c calls =>
      obtain ⟨hc, -⟩ := hlegal
      cases c with
      | kfree location => cases hc
      | kmalloc =>
        have hfar := kmalloc_overflow hhdm (s := pmmBoot hhdm memmapEntries mem)
          hrec hone (by omega) (by
            show r.bit (initPMM hhdm memmapEntries mem).2 1 = 0
            rw [hboot 1 (by omega), if_neg (by omega)])
        constructor
        · rintro ⟨hret, -⟩
          have hne : (kmalloc hhdm (initPMM hhdm memmapEntries mem).1
              (pmmBoot hhdm memmapEntries mem).mem).1 ≠ 0 := by
            intro h
            rw [h] at hfar
            exact absurd hfar (by simp)
          have := (hret hne).2
          unfold PAGE_SIZE at this
          omega
        · rintro ⟨hroom, -⟩
          unfold Room PAGE_SIZE at hroom
          have hlive : (pmmBoot hhdm memmapEntries mem).live.length = 0 := rfl
          omega

end main

/-- A region of one page: the page is the bitmap, yet the scan finds 32767
    clear bits and the first `kmalloc` returns a frame behind the region. -/
theorem kmalloc_leaves_region :
    let hhdm : UInt64 := 0xFFFF800000000000
    let memmapEntries : List limine_memmap_entry :=
      [{ base := 0x100000, length := 0x1000, type := LIMINE_MEMMAP_USABLE }]
    let mem : Mem := fun _ => 0
    let ls := (initPMM hhdm memmapEntries mem).1
    regionBase memmapEntries + regionLength memmapEntries ≤ 2 ^ 31 ∧
      Along (pmmStep hhdm ls) LegalCall (pmmBoot hhdm memmapEntries mem) [.kmalloc] ∧
      ¬ Along (pmmStep hhdm ls) (ReturnsInRegion hhdm memmapEntries ls)
          (pmmBoot hhdm memmapEntries mem) [.kmalloc] := by
  intro hhdm memmapEntries mem ls
  refine ⟨by decide, ⟨trivial, trivial⟩, ?_⟩
  rintro ⟨hret, -⟩
  let r := Region.ofMap memmapEntries (by decide) (by decide)
  have hpages : r.pages = 1 := by decide
  have hfr : r.frames = 32768 := by
    unfold Region.frames Region.reserved
    omega
  have hr : r.Fits := by decide
  obtain ⟨hrec, hboot, -⟩ := initPMM_spec (r := r) hhdm mem rfl rfl
  rcases kmalloc_cases hhdm (initPMM hhdm memmapEntries mem).2 hrec with
    ⟨f, hf, -, -, hk⟩ | ⟨hfull, -⟩
  · have haddr := Region.toNat_addr hr hf
    have hinside := hret (by
      show (kmalloc hhdm ls (initPMM hhdm memmapEntries mem).2).1 ≠ 0
      rw [hk]
      exact Region.addr_ne_zero hr hf)
    have hhi : (kmalloc hhdm ls (initPMM hhdm memmapEntries mem).2).1.toNat + PAGE_SIZE ≤ 0x101000 :=
      hinside.2
    rw [hk] at hhi
    change (r.addr f).toNat + 4096 ≤ 0x101000 at hhi
    have hbase : r.base = 0x100000 := rfl
    have hreserved : r.reserved = 4096 * r.pages := rfl
    omega
  · have hone := hfull 1 (by omega)
    rw [hboot 1 (by omega), if_neg (by omega)] at hone
    cases hone

/-- With 8 MiB the first allocation stays inside the region. -/
theorem kmalloc_inRegion_iff_memmap8MiB :
    let hhdm : UInt64 := 0xFFFF800000000000
    let mem : Mem := fun _ => 0
    let ls := (initPMM hhdm memmap8MiB mem).1
    Along (pmmStep hhdm ls) (ReturnsInRegion hhdm memmap8MiB ls)
      (pmmBoot hhdm memmap8MiB mem) [.kmalloc] := by
  intro hhdm mem ls
  exact (kmalloc_inRegion_iff hhdm memmap8MiB mem [.kmalloc] (by decide) ⟨trivial, trivial⟩).mpr
    ⟨Or.inr (by show 0 + _ < _; decide), trivial⟩

end ArgaldOS
