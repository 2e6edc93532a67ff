import ArgaldOS.Framework.Runs
import ArgaldOS.Pmm.Invariant

/-! # Runs of the frame allocator

    After `initPMM` the rest of the kernel calls `kmalloc` and `kfree` in any
    order; a caller frees only what is live.  The invariant `PmmInv` ties each
    bit of the in-memory bitmap to the bitmap's own frames or to a live
    address, and is kept by both calls, so it holds at the end of every run.

    Two consequences, both about runs of any length:

    * no frame is handed out twice and none overlaps the bitmap
      (`kmalloc_no_double_allocation`);
    * whether every address lies inside the region that `initPMM` selected
      depends on the number of live frames at each `kmalloc`
      (`kmalloc_inRegion_iff`): the scan covers every bit of the reserved
      pages, many more than the region has frames.
-/

namespace ArgaldOS

open Loops Runs

/-! ## Section 1: The state after `initPMM` -/

theorem toNat_bitmapPages (maxLength : UInt64) :
    (bitmapPages maxLength).toNat = ((maxLength.toNat / 4096 + 7) / 8 + 4095) / 4096 := by
  have hlt := maxLength.toNat_lt
  have hpages : (maxLength / 4096).toNat = maxLength.toNat / 4096 := by
    rw [UInt64.toNat_div]
    rfl
  have hround : (maxLength / 4096 + 7).toNat = maxLength.toNat / 4096 + 7 := by
    rw [Words.toNat_add_lt _ _ (by rw [hpages]; show _ + 7 < _; omega), hpages]
    rfl
  have hbytes : ((maxLength / 4096 + 7) / 8).toNat = (maxLength.toNat / 4096 + 7) / 8 := by
    rw [UInt64.toNat_div, hround]
    rfl
  unfold bitmapPages
  rw [UInt64.toNat_div, Words.toNat_add_lt _ _ (by rw [hbytes]; show _ + 4095 < _; omega), hbytes]
  rfl

/-- First address of the region that `initPMM` selects. -/
def regionBase (memmapEntries : List limine_memmap_entry) : Nat :=
  (selectRegion memmapEntries).1.toNat

/-- Length of the region that `initPMM` selects. -/
def regionLength (memmapEntries : List limine_memmap_entry) : Nat :=
  (selectRegion memmapEntries).2.toNat

/-- Bytes at the start of the region that `initPMM` reserves for the bitmap. -/
def regionReserved (memmapEntries : List limine_memmap_entry) : Nat :=
  (bitmapPages (selectRegion memmapEntries).2 * 4096).toNat

theorem regionReserved_eq (memmapEntries : List limine_memmap_entry) :
    regionReserved memmapEntries = 4096 * (bitmapPages (selectRegion memmapEntries).2).toNat := by
  have hpages := toNat_bitmapPages (selectRegion memmapEntries).2
  have hlt := (selectRegion memmapEntries).2.toNat_lt
  unfold regionReserved
  rw [Words.toNat_mul_lt _ _ (by show _ * 4096 < _; omega), Nat.mul_comm]
  rfl

/-- The region of the allocator, when the memory map keeps its numbers small. -/
def Region.ofMap (memmapEntries : List limine_memmap_entry)
    (hbase : regionBase memmapEntries < 2 ^ 31) (hlength : regionLength memmapEntries < 2 ^ 43) :
    Region where
  base    := regionBase memmapEntries
  pages   := (bitmapPages (selectRegion memmapEntries).2).toNat
  base_lt := hbase
  small   := by
    unfold regionLength at hlength
    rw [toNat_bitmapPages]
    omega

section init
variable {memmapEntries : List limine_memmap_entry} {r : Region} (hhdm : UInt64) (mem : Mem)

/-- `memset` writes the bytes of the range and no other. -/
theorem memset_apply (base n : Nat) (c : UInt8) (hn : base + n ≤ 2 ^ 64) (x : UInt64) :
    memset hhdm (UInt64.ofNat base + hhdm) c n mem x =
      if base ≤ x.toNat ∧ x.toNat < base + n then c else mem x := by
  unfold memset
  -- After `i` rounds the first `i` bytes are written.
  refine forLoop_invariant
    (fun i (m : Mem) => i ≤ n → m x = if base ≤ x.toNat ∧ x.toNat < base + i then c else mem x)
    ?_ ?_ (Nat.le_refl n)
  · intro _
    rw [if_neg (by omega)]
  · intro i m hi ih hin
    have hptr : UInt64.ofNat base + hhdm + UInt64.ofNat i - hhdm = UInt64.ofNat (base + i) := by
      rw [UInt64.ofNat_add]
      grind
    have hval : (UInt64.ofNat (base + i)).toNat = base + i := Words.ofNat_toNat_lt _ (by omega)
    unfold Mem.hstore8
    rw [hptr]
    -- The byte of this round, or one of the others.
    by_cases hx : x = UInt64.ofNat (base + i)
    · subst hx
      rw [Mem.store8_self, if_pos (by omega)]
    · have hne : x.toNat ≠ base + i := fun h => hx (Words.ext (by rw [h, hval]))
      rw [Mem.store8_ne _ _ _ _ hx, ih (by omega)]
      by_cases hlow : base ≤ x.toNat ∧ x.toNat < base + i
      · rw [if_pos hlow, if_pos (by omega)]
      · rw [if_neg hlow, if_neg (by omega)]

/-- The marking loop sets the first `n` bits of a bitmap. -/
theorem markUsed_bits (n : Nat) (hn : n ≤ r.frames) :
    (∀ f < r.frames, r.bit (markUsed hhdm (UInt64.ofNat r.base + hhdm) n mem) f =
        if f < n then 1 else r.bit mem f) ∧
      ∀ x, ¬ r.InBitmap x → markUsed hhdm (UInt64.ofNat r.base + hhdm) n mem x = mem x := by
  unfold markUsed
  refine forLoop_invariant
    (fun i m => (∀ f < r.frames, r.bit m f = if f < i then 1 else r.bit mem f) ∧
      ∀ x, ¬ r.InBitmap x → m x = mem x) ?_ ?_
  · exact ⟨fun f _ => by rw [if_neg (by omega)], fun _ _ => rfl⟩
  · intro i m hi hm
    have hptr : UInt64.ofNat r.base + hhdm + UInt64.ofNat (i / 8) - hhdm = r.byteAddr i := by
      unfold Region.byteAddr
      rw [UInt64.ofNat_add]
      grind
    have hstep : m.hstore8 hhdm (UInt64.ofNat r.base + hhdm + UInt64.ofNat (i / 8))
        (setBit (m.hload8 hhdm (UInt64.ofNat r.base + hhdm + UInt64.ofNat (i / 8)))
          (UInt8.ofNat (i % 8)) true) = r.writeBit m i true := by
      unfold Mem.hstore8 Mem.hload8 Region.writeBit
      rw [hptr]
    simp only [hstep]
    constructor
    · intro f hf
      rw [Region.bit_writeBit m true (by omega) hf, hm.1 f hf]
      by_cases hfi : f = i
      · rw [if_pos hfi, if_pos (by omega)]
        rfl
      · rw [if_neg hfi]
        by_cases hlt : f < i
        · rw [if_pos hlt, if_pos (by omega)]
        · rw [if_neg hlt, if_neg (by omega)]
    · intro x hx
      rw [Region.writeBit_frame m true (by omega) hx, hm.2 x hx]

/-- **What `initPMM` establishes**: the region is recorded, exactly the bits of
    the bitmap's own frames are set, and no byte outside the bitmap changed. -/
theorem initPMM_spec (hbase : (selectRegion memmapEntries).1.toNat = r.base)
    (hpages : (bitmapPages (selectRegion memmapEntries).2).toNat = r.pages) :
    r.Recorded (initPMM hhdm memmapEntries mem).1 ∧
      (∀ f < r.frames, r.bit (initPMM hhdm memmapEntries mem).2 f = if f < r.pages then 1 else 0) ∧
      ∀ x, ¬ r.InBitmap x → (initPMM hhdm memmapEntries mem).2 x = mem x := by
  have h1 := r.base_lt
  have h2 := r.small
  have hB : (selectRegion memmapEntries).1 = UInt64.ofNat r.base := by rw [← hbase]; simp
  have hres : regionReserved memmapEntries = r.reserved := by
    rw [regionReserved_eq, hpages]
    rfl
  have hP : bitmapPages (selectRegion memmapEntries).2 * 4096 = UInt64.ofNat r.reserved := by
    rw [← hres]
    exact (UInt64.ofNat_toNat).symm
  have hle : r.pages ≤ r.frames := by
    unfold Region.frames Region.reserved
    omega
  have hsum : r.base + r.reserved ≤ 2 ^ 64 := by
    unfold Region.reserved
    omega
  have hmem : (initPMM hhdm memmapEntries mem).2 =
      markUsed hhdm (UInt64.ofNat r.base + hhdm) r.pages
        (memset hhdm (UInt64.ofNat r.base + hhdm) 0 r.reserved mem) := by
    show markUsed _ _ _ (memset _ _ _ (regionReserved memmapEntries) _) = _
    rw [hB, hpages, hres]
  -- The marking starts from the zeros of `memset`.
  obtain ⟨hbits, hout⟩ := markUsed_bits hhdm
    (memset hhdm (UInt64.ofNat r.base + hhdm) 0 r.reserved mem) r.pages hle
  refine ⟨⟨?_, ?_⟩, fun f hf => ?_, fun x hx => ?_⟩
  · show toInt (selectRegion memmapEntries).1 = _
    rw [hB, toInt_ofNat]
  · show toInt (bitmapPages (selectRegion memmapEntries).2 * 4096) = _
    rw [hP, toInt_ofNat]
  · rw [hmem, hbits f hf]
    have hin := Region.byteAddr_inBitmap hf
    unfold Region.bit
    rw [memset_apply hhdm mem r.base r.reserved 0 hsum]
    unfold Region.InBitmap at hin
    rw [if_pos hin, getBit_zero]
  · rw [hmem, hout x hx, memset_apply hhdm mem r.base r.reserved 0 hsum]
    unfold Region.InBitmap at hx
    rw [if_neg hx]

end init

/-! ## Section 2: Calls and runs -/

/-- A call of the allocator after `initPMM`. -/
inductive PmmCall where
  | kmalloc : PmmCall
  | kfree (location : UInt64) : PmmCall

/-- Memory, and the addresses that are live: returned by `kmalloc` and not
    freed since. -/
structure PmmState where
  mem  : Mem
  live : List UInt64

section run
variable (hhdm : UInt64) (ls : largestSection)

/-- One call.  A NULL result of `kmalloc` is not a live address. -/
def pmmStep (s : PmmState) : PmmCall → PmmState
  | .kmalloc =>
    let r := kmalloc hhdm ls s.mem
    { mem := r.2, live := if r.1 = 0 then s.live else r.1 :: s.live }
  | .kfree location =>
    { mem := kfree hhdm ls location s.mem, live := s.live.erase location }

end run

/-- Callers free live addresses only. -/
def LegalCall (s : PmmState) : PmmCall → Prop
  | .kmalloc => True
  | .kfree location => location ∈ s.live

/-- The allocator right after `initPMM`. -/
def pmmBoot (hhdm : UInt64) (memmapEntries : List limine_memmap_entry) (mem : Mem) : PmmState where
  mem  := (initPMM hhdm memmapEntries mem).2
  live := []

/-- **The allocator's invariant**: the bitmap in memory represents the live
    frames. -/
structure PmmInv (r : Region) (s : PmmState) : Prop where
  bits  : ∀ f < r.frames, (r.bit s.mem f = 1 ↔ f < r.pages ∨ r.addr f ∈ s.live)
  frame : ∀ a ∈ s.live, ∃ f, r.pages ≤ f ∧ f < r.frames ∧ a = r.addr f
  nodup : s.live.Nodup

section invariant
variable {r : Region} {ls : largestSection} {hhdm : UInt64}

/-- No frame has address 0. -/
theorem Region.addr_ne_zero (hr : r.Fits) {f : Nat} (hf : f < r.frames) : r.addr f ≠ 0 := by
  intro h
  have hval := toNat_addr hr hf
  rw [h] at hval
  unfold frames at hf
  have : (0 : UInt64).toNat = 0 := rfl
  omega

theorem pmmInv_boot {memmapEntries : List limine_memmap_entry} (mem : Mem)
    (hbase : (selectRegion memmapEntries).1.toNat = r.base)
    (hpages : (bitmapPages (selectRegion memmapEntries).2).toNat = r.pages) :
    PmmInv r (pmmBoot hhdm memmapEntries mem) := by
  obtain ⟨-, hbits, -⟩ := initPMM_spec hhdm mem hbase hpages
  refine ⟨fun f hf => ?_, ?_, List.nodup_nil⟩
  · show r.bit (initPMM hhdm memmapEntries mem).2 f = 1 ↔ f < r.pages ∨ r.addr f ∈ []
    rw [hbits f hf]
    simp
  · intro a ha
    cases ha

variable (hhdm) in
/-- `kmalloc` keeps the invariant: the frame it marks was clear, so its address
    was not live. -/
theorem pmmInv_kmalloc (hr : r.Fits) (hrec : r.Recorded ls) {s : PmmState} (hinv : PmmInv r s) :
    PmmInv r (pmmStep hhdm ls s .kmalloc) := by
  rcases kmalloc_cases hhdm s.mem hrec with
    ⟨f, hf, hclear, -, hk⟩ | ⟨-, hk⟩
  -- A clear bit is neither one of the bitmap nor one of a live frame.
  · have hnew : ¬ (f < r.pages ∨ r.addr f ∈ s.live) := by
      rw [← hinv.bits f hf, hclear]
      decide
    have hstep : pmmStep hhdm ls s .kmalloc =
        { mem := r.writeBit s.mem f true, live := r.addr f :: s.live } := by
      simp [pmmStep, hk, Region.addr_ne_zero hr hf]
    rw [hstep]
    refine ⟨fun g hg => ?_, fun a ha => ?_, ?_⟩
    · rw [Region.bit_writeBit s.mem true hf hg]
      by_cases hgf : g = f
      · subst hgf
        simp
      · have hne : r.addr g ≠ r.addr f := fun h => hgf (Region.addr_inj hg hf h)
        rw [if_neg hgf, hinv.bits g hg]
        simp [hne]
    · rcases List.mem_cons.mp ha with rfl | ha
      · exact ⟨f, by omega, hf, rfl⟩
      · exact hinv.frame a ha
    · exact List.nodup_cons.mpr ⟨fun h => hnew (Or.inr h), hinv.nodup⟩
  · have hstep : pmmStep hhdm ls s .kmalloc = s := by simp [pmmStep, hk]
    rw [hstep]
    exact hinv

/-- `kfree` of a live address keeps the invariant: it clears the bit of that
    frame and of no other. -/
theorem pmmInv_kfree (hrec : r.Recorded ls) {s : PmmState} {a : UInt64} (hinv : PmmInv r s)
    (ha : a ∈ s.live) : PmmInv r (pmmStep hhdm ls s (.kfree a)) := by
  obtain ⟨f, hfp, hf, rfl⟩ := hinv.frame a ha
  have hstep : pmmStep hhdm ls s (.kfree (r.addr f)) =
      { mem := r.writeBit s.mem f false, live := s.live.erase (r.addr f) } := by
    simp [pmmStep, kfree_eq hhdm s.mem hrec hf]
  rw [hstep]
  refine ⟨fun g hg => ?_, fun b hb => ?_, hinv.nodup.erase _⟩
  · rw [Region.bit_writeBit s.mem false hf hg]
    by_cases hgf : g = f
    · subst hgf
      have hgone : r.addr g ∉ s.live.erase (r.addr g) := hinv.nodup.not_mem_erase
      simp [hgone]
      omega
    -- Other frames have other addresses.
    · have hne : r.addr g ≠ r.addr f := fun h => hgf (Region.addr_inj hg hf h)
      rw [if_neg hgf, hinv.bits g hg, List.mem_erase_of_ne hne]
  · exact hinv.frame b (List.mem_of_mem_erase hb)

theorem pmmInv_step (hr : r.Fits) (hrec : r.Recorded ls) (s : PmmState) (c : PmmCall)
    (hinv : PmmInv r s) (hc : LegalCall s c) : PmmInv r (pmmStep hhdm ls s c) := by
  cases c with
  | kmalloc => exact pmmInv_kmalloc hhdm hr hrec hinv
  | kfree location => exact pmmInv_kfree hrec hinv hc

end invariant

/-! ## Section 3: Allocating again and again -/

section repeated
variable {hhdm : UInt64} {ls : largestSection} {m : Mem}

/-- The allocator after `j` more calls of `kmalloc`. -/
def kmallocs (hhdm : UInt64) (ls : largestSection) (m : Mem) (j : Nat) : PmmState :=
  run (pmmStep hhdm ls) { mem := m, live := [] } (List.replicate j .kmalloc)

theorem kmallocs_succ (j : Nat) :
    kmallocs hhdm ls m (j + 1) = pmmStep hhdm ls (kmallocs hhdm ls m j) .kmalloc := by
  unfold kmallocs
  rw [List.replicate_succ', run_append]
  rfl

theorem legal_replicate (s : PmmState) (j : Nat) :
    Along (pmmStep hhdm ls) LegalCall s (List.replicate j .kmalloc) := by
  induction j generalizing s with
  | zero => trivial
  | succ j ih => exact ⟨trivial, ih _⟩

end repeated

end ArgaldOS
