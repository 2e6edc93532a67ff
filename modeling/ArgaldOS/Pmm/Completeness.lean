import ArgaldOS.Pmm.Safety

/-! # Which frames are ever handed out

    `initPMM` counts the frames of the bitmap from the start of the region and
    sets their bits; `kmalloc` counts frames from the end of the bitmap.  So
    the bits that are set at boot do not stand for the bitmap, which `kmalloc`
    cannot reach anyway, but for the first usable frames behind it.

    * `kmallocs_returns`: the answers of `kmalloc` called again and again;
    * `returned_usable_iff`: which usable frames are among them;
    * `no_frame_lost_iff`: usable frames are lost unless there are none.
-/

namespace ArgaldOS

open Loops Runs

/-! ## Section 1: One call after the other -/

/-- The answer of call `j` of `kmalloc`. -/
def kmallocAnswer (hhdm : UInt64) (ls : largestSection) (m : Mem) (j : Nat) : UInt64 :=
  (kmalloc hhdm ls (kmallocs hhdm ls m j).mem).1

/-- Calling `kmalloc` again and again returns `a` before it first fails. -/
def Returned (hhdm : UInt64) (ls : largestSection) (m : Mem) (a : UInt64) : Prop :=
  ∃ j, (∀ i ≤ j, kmallocAnswer hhdm ls m i ≠ 0) ∧ kmallocAnswer hhdm ls m j = a

section answers
variable {r : Region} {ls : largestSection} {m : Mem} (hhdm : UInt64)

/-- The frames of the bitmap and the first `k` behind them are marked. -/
def Region.Marked (r : Region) (k : Nat) (m : Mem) : Prop :=
  ∀ f < r.frames, (r.bit m f = 1 ↔ f < r.pages + k)

/-- **One call**: while frames are left, the next one is handed out. -/
theorem kmalloc_marked (hrec : r.Recorded ls) {k : Nat} (h : r.Marked k m)
    (hk : r.pages + k < r.frames) :
    (kmalloc hhdm ls m).1 = r.addr (r.pages + k) ∧ r.Marked (k + 1) (kmalloc hhdm ls m).2 := by
  rcases kmalloc_cases hhdm m hrec with ⟨f, hf, hclear, hmin, heq⟩ | ⟨hfull, -⟩
  -- The lowest clear bit is the first one that is not marked.
  · have hge : ¬ f < r.pages + k := by
      rw [← h f hf, hclear]
      decide
    have hle : ¬ r.pages + k < f := by
      intro hlt
      have hset := (h _ hk).mp (hmin _ hlt)
      omega
    obtain rfl : f = r.pages + k := by omega
    rw [heq]
    refine ⟨rfl, fun g hg => ?_⟩
    rw [Region.bit_writeBit m true hf hg]
    by_cases hgf : g = r.pages + k
    · rw [if_pos hgf]
      show 1 = 1 ↔ _
      omega
    · rw [if_neg hgf, h g hg]
      omega
  · have hset := (h _ hk).mp (hfull _ hk)
    omega

/-- A call that finds every frame marked fails. -/
theorem kmalloc_full (hrec : r.Recorded ls) {k : Nat} (h : r.Marked k m)
    (hk : r.frames ≤ r.pages + k) : (kmalloc hhdm ls m).1 = 0 := by
  rcases kmalloc_cases hhdm m hrec with ⟨f, hf, hclear, -, -⟩ | ⟨-, heq⟩
  · have hset := (h f hf).mpr (by omega)
    rw [hclear] at hset
    cases hset
  · rw [heq]

/-- **The answers in order**: the frames behind the ones that are marked at
    first, and then NULL. -/
theorem kmallocs_returns (hrec : r.Recorded ls) (h : r.Marked 0 m) :
    (∀ j, r.pages + j < r.frames → kmallocAnswer hhdm ls m j = r.addr (r.pages + j)) ∧
      ∀ j, r.pages + j = r.frames → kmallocAnswer hhdm ls m j = 0 := by
  have hmarked : ∀ j, r.pages + j ≤ r.frames → r.Marked j (kmallocs hhdm ls m j).mem := by
    intro j
    induction j with
    | zero => exact fun _ => h
    | succ j ih =>
      intro hj
      rw [kmallocs_succ]
      exact (kmalloc_marked hhdm hrec (ih (by omega)) (by omega)).2
  constructor
  · intro j hj
    exact (kmalloc_marked hhdm hrec (hmarked j (by omega)) hj).1
  · intro j hj
    exact kmalloc_full hhdm hrec (hmarked j (by omega)) (by omega)

/-- **What is handed out before the first failure**: the frames behind the
    bitmap whose bits are clear at first. -/
theorem returned_iff (hr : r.Fits) (hrec : r.Recorded ls) (h : r.Marked 0 m)
    (hpages : r.pages ≤ r.frames) (a : UInt64) :
    Returned hhdm ls m a ↔ ∃ f, r.pages ≤ f ∧ f < r.frames ∧ a = r.addr f := by
  obtain ⟨hanswer, hnull⟩ := kmallocs_returns hhdm hrec h
  constructor
  · intro hret
    obtain ⟨j, hsome, rfl⟩ := hret
    have hj : r.pages + j < r.frames := by
      by_contra hge
      exact hsome (r.frames - r.pages) (by omega) (hnull _ (by omega))
    exact ⟨r.pages + j, by omega, hj, hanswer j hj⟩
  · intro hframe
    obtain ⟨f, hlo, hhi, rfl⟩ := hframe
    refine ⟨f - r.pages, fun i hi => ?_, ?_⟩
    · rw [hanswer i (by omega)]
      exact Region.addr_ne_zero hr (by omega)
    · rw [hanswer _ (by omega)]
      congr 1
      omega

end answers

/-! ## Section 2: The usable frames of a memory map -/

/-- The page at `a` lies in the selected region, behind the bitmap. -/
def UsableFrame (memmapEntries : List limine_memmap_entry) (a : Nat) : Prop :=
  a % PAGE_SIZE = 0 ∧ regionBase memmapEntries + regionReserved memmapEntries ≤ a ∧
    a + PAGE_SIZE ≤ regionBase memmapEntries + regionLength memmapEntries

/-- Every usable frame is returned before `kmalloc` first fails. -/
def NoFrameLost (hhdm : UInt64) (memmapEntries : List limine_memmap_entry) (mem : Mem) : Prop :=
  ∀ a, UsableFrame memmapEntries a →
    Returned hhdm (initPMM hhdm memmapEntries mem).1 (initPMM hhdm memmapEntries mem).2
      (UInt64.ofNat a)

section map
variable {memmapEntries : List limine_memmap_entry}

/-- The bitmap has one page for every 32768 pages of the region, or part of
    them. -/
theorem regionReserved_div (memmapEntries : List limine_memmap_entry) :
    regionReserved memmapEntries =
      4096 * (((regionLength memmapEntries / 4096 + 7) / 8 + 4095) / 4096) := by
  rw [regionReserved_eq, toNat_bitmapPages]
  rfl

/-- **The frames that are lost**: of the usable frames, `kmalloc` returns those
    that come after as many bytes as the bitmap takes. -/
theorem returned_usable_iff (hhdm : UInt64) (mem : Mem)
    (hbase : regionBase memmapEntries % PAGE_SIZE = 0)
    (hbelow : regionBase memmapEntries + regionLength memmapEntries ≤ 2 ^ 31) {a : Nat}
    (ha : UsableFrame memmapEntries a) :
    Returned hhdm (initPMM hhdm memmapEntries mem).1 (initPMM hhdm memmapEntries mem).2
        (UInt64.ofNat a) ↔
      regionBase memmapEntries + 2 * regionReserved memmapEntries ≤ a := by
  obtain ⟨halign, hlo, hhi⟩ := ha
  have hdiv := regionReserved_div memmapEntries
  have hres := regionReserved_eq memmapEntries
  unfold PAGE_SIZE at halign hbase hhi
  have hfits : regionBase memmapEntries + regionReserved memmapEntries < 2 ^ 31 := by omega
  have hlength : regionLength memmapEntries < 2 ^ 43 := by omega
  let r := Region.ofMap memmapEntries (Nat.lt_of_add_right_lt hfits) hlength
  have hr : r.Fits := Region.ofMap_fits hfits hlength
  have hrbase : r.base = regionBase memmapEntries := rfl
  have hreserved : r.reserved = regionReserved memmapEntries := hres.symm
  have hframes : r.frames = 8 * regionReserved memmapEntries := by
    unfold Region.frames
    rw [hreserved]
  have hpages : 4096 * r.pages = regionReserved memmapEntries := hreserved
  obtain ⟨hrec, hbits, -⟩ := initPMM_spec (r := r) hhdm mem rfl rfl
  have hmarked : r.Marked 0 (initPMM hhdm memmapEntries mem).2 := by
    intro f hf
    rw [hbits f hf]
    split <;> simp <;> omega
  have hval : (UInt64.ofNat a).toNat = a := Words.ofNat_toNat_lt a (by omega)
  rw [returned_iff hhdm hr hrec hmarked (by omega)]
  constructor
  · intro hframe
    obtain ⟨f, hflo, hfhi, heq⟩ := hframe
    have haddr := Region.toNat_addr hr hfhi
    rw [← heq, hval] at haddr
    omega
  · intro hge
    -- The frame number, counted from the end of the bitmap.
    have hf : (a - regionBase memmapEntries - regionReserved memmapEntries) / 4096 < r.frames := by
      omega
    refine ⟨_, by omega, hf, Words.ext ?_⟩
    rw [hval, Region.toNat_addr hr hf, hrbase, hreserved]
    omega

/-- **No usable frame is lost** if and only if there is none: a region with a
    page behind its bitmap loses the first of them. -/
theorem no_frame_lost_iff (hhdm : UInt64) (memmapEntries : List limine_memmap_entry) (mem : Mem)
    (hbase : regionBase memmapEntries % PAGE_SIZE = 0)
    (hbelow : regionBase memmapEntries + regionLength memmapEntries ≤ 2 ^ 31) :
    NoFrameLost hhdm memmapEntries mem ↔
      regionLength memmapEntries < regionReserved memmapEntries + PAGE_SIZE := by
  have hdiv := regionReserved_div memmapEntries
  constructor
  · intro h
    by_contra hroom
    -- The first page behind the bitmap.
    have husable : UsableFrame memmapEntries
        (regionBase memmapEntries + regionReserved memmapEntries) := by
      unfold UsableFrame
      unfold PAGE_SIZE at hbase hroom ⊢
      omega
    have hret := (returned_usable_iff hhdm mem hbase hbelow husable).mp (h _ husable)
    unfold PAGE_SIZE at hroom
    omega
  · intro hsmall a ha
    obtain ⟨-, hlo, hhi⟩ := ha
    omega

end map

/-- With 8 MiB from 1 MiB on, the page behind the bitmap is never returned. -/
theorem no_frame_lost_fails_memmap8MiB :
    ¬ NoFrameLost 0xFFFF800000000000 memmap8MiB (fun _ => 0) := by
  intro h
  have husable : UsableFrame memmap8MiB 0x101000 := by
    unfold UsableFrame
    decide
  have hret := (returned_usable_iff _ _ (by decide) (by decide) husable).mp (h _ husable)
  exact absurd hret (by decide)

/-- A region of one page. -/
theorem no_frame_lost_one_page :
    NoFrameLost 0xFFFF800000000000
      [{ base := 0x100000, length := 0x1000, type := LIMINE_MEMMAP_USABLE }] (fun _ => 0) :=
  (no_frame_lost_iff 0xFFFF800000000000
    [{ base := 0x100000, length := 0x1000, type := LIMINE_MEMMAP_USABLE }] (fun _ => 0)
    (by decide) (by decide)).mpr (by decide)

end ArgaldOS
