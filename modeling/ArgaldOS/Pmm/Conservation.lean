import ArgaldOS.Pmm.Safety

/-! # What the bitmap remembers

    The bitmap is a function of the set of live addresses: two legal runs that
    end with the same addresses live end with the same bytes, however they got
    there.  So a `kfree` undoes the `kmalloc` before it, frees commute, and
    allocating and freeing in cycles loses no frame.

    * `PmmInv.byte_eq`: each byte of the bitmap, computed from the live addresses;
    * `PmmInv.mem_eq`: same live addresses, same memory;
    * `bitmap_conserved`: what holds at the end of every legal run.
-/

namespace ArgaldOS

open Loops Runs

/-! ## Section 1: The bitmap that a set of addresses stands for -/

/-- A byte is its eight bits. -/
theorem byte_ext {a b : UInt8} (h : ∀ y < 8, getBit a y = getBit b y) : a = b := by
  apply UInt8.toNat_inj.mp
  apply Nat.eq_of_testBit_eq
  intro y
  by_cases hy : y < 8
  · have hbit := h y hy
    rw [getBit_eq_testBit, getBit_eq_testBit] at hbit
    cases ha : a.toNat.testBit y <;> cases hb : b.toNat.testBit y <;> simp_all
  · have hpow : 2 ^ 8 ≤ 2 ^ y := Nat.pow_le_pow_right (by simp) (by omega)
    rw [Nat.testBit_lt_two_pow (Nat.lt_of_lt_of_le a.toNat_lt hpow),
      Nat.testBit_lt_two_pow (Nat.lt_of_lt_of_le b.toNat_lt hpow)]

namespace Region

/-- Frame `f` is one of the bitmap's own or live. -/
def Taken (r : Region) (live : List UInt64) (f : Nat) : Prop := f < r.pages ∨ r.addr f ∈ live

instance (r : Region) (live : List UInt64) (f : Nat) : Decidable (r.Taken live f) :=
  inferInstanceAs (Decidable (_ ∨ _))

/-- Byte `b` of the bitmap for a list of live addresses. -/
def bitmapByte (r : Region) (live : List UInt64) (b : Nat) : UInt8 :=
  forLoop (fun y byte => setBit byte (UInt8.ofNat y) (decide (r.Taken live (8 * b + y)))) 8 0

variable {r : Region} {live live' : List UInt64}

theorem getBit_bitmapByte (b : Nat) {y : Nat} (hy : y < 8) :
    getBit (r.bitmapByte live b) y = if r.Taken live (8 * b + y) then 1 else 0 := by
  have hall : ∀ y < 8, getBit (r.bitmapByte live b) y =
      if y < 8 ∧ r.Taken live (8 * b + y) then 1 else 0 := by
    -- After `i` rounds the first `i` bits are those of the frames.
    refine forLoop_invariant
      (fun i byte => ∀ y < 8, getBit byte y = if y < i ∧ r.Taken live (8 * b + y) then 1 else 0)
      ?_ ?_
    · intro y _
      simp
    · intro i byte hi ih y hy
      rw [getBit_setBit byte i y _ hi hy, ih y hy]
      by_cases hyi : y = i
      · subst hyi
        by_cases htaken : r.Taken live (8 * b + y) <;> simp [htaken]
      · have hlt : y < i + 1 ↔ y < i := by omega
        simp only [if_neg hyi, hlt]
  rw [hall y hy]
  simp [hy]

/-- The bitmap depends on the set of live addresses only. -/
theorem bitmapByte_congr (h : ∀ a, a ∈ live ↔ a ∈ live') (b : Nat) :
    r.bitmapByte live b = r.bitmapByte live' b := by
  have htaken : ∀ f, r.Taken live f ↔ r.Taken live' f := by
    intro f
    unfold Taken
    rw [h]
  apply byte_ext
  intro y hy
  rw [getBit_bitmapByte b hy, getBit_bitmapByte b hy]
  simp only [htaken]

/-- An address inside the bitmap is that of one of its bytes. -/
theorem InBitmap.exists_byte {x : UInt64} (hx : r.InBitmap x) :
    ∃ b < r.reserved, x = UInt64.ofNat (r.base + b) := by
  obtain ⟨hlo, hhi⟩ := hx
  refine ⟨x.toNat - r.base, by omega, ?_⟩
  rw [Nat.add_sub_cancel' hlo, UInt64.ofNat_toNat]

/-- Setting a clear bit and clearing it again changes nothing. -/
theorem writeBit_undo (mem : Mem) {f : Nat} (hf : f < r.frames) (hclear : r.bit mem f = 0) :
    r.writeBit (r.writeBit mem f true) f false = mem := by
  funext x
  by_cases hx : x = r.byteAddr f
  · subst hx
    apply byte_ext
    intro y hy
    -- Bit `y` of this byte belongs to the frame `g`.
    let g := 8 * (f / 8) + y
    have hg : g < r.frames := by
      unfold frames at hf ⊢
      omega
    have hbit : ∀ m : Mem, getBit (m (r.byteAddr f)) y = r.bit m g := by
      intro m
      unfold bit byteAddr
      rw [show g / 8 = f / 8 by omega, show g % 8 = y by omega]
    rw [hbit, hbit, bit_writeBit _ _ hf hg, bit_writeBit _ _ hf hg]
    by_cases hgf : g = f
    · rw [if_pos hgf, hgf, hclear]
      rfl
    · rw [if_neg hgf, if_neg hgf]
  · unfold writeBit
    rw [Mem.store8_ne _ _ _ _ hx, Mem.store8_ne _ _ _ _ hx]

end Region

/-! ## Section 2: Two states with the same live addresses -/

section state
variable {r : Region} {s s' : PmmState}

/-- **Byte for byte**, the bitmap is the one that the live addresses stand for. -/
theorem PmmInv.byte_eq (hinv : PmmInv r s) {b : Nat} (hb : b < r.reserved) :
    s.mem (UInt64.ofNat (r.base + b)) = r.bitmapByte s.live b := by
  apply byte_ext
  intro y hy
  have hf : 8 * b + y < r.frames := by
    unfold Region.frames
    omega
  have hbit : getBit (s.mem (UInt64.ofNat (r.base + b))) y = r.bit s.mem (8 * b + y) := by
    unfold Region.bit Region.byteAddr
    rw [show (8 * b + y) / 8 = b by omega, show (8 * b + y) % 8 = y by omega]
  have hset := hinv.bits _ hf
  have hlt := r.bit_lt_two s.mem (8 * b + y)
  rw [hbit, Region.getBit_bitmapByte b hy]
  by_cases htaken : r.Taken s.live (8 * b + y)
  · rw [if_pos htaken, hset.mpr htaken]
  · have hclear : ¬ r.bit s.mem (8 * b + y) = 1 := fun h => htaken (hset.mp h)
    rw [if_neg htaken]
    omega

/-- **Same live addresses, same memory**, if nothing outside the bitmap differs. -/
theorem PmmInv.mem_eq (hinv : PmmInv r s) (hinv' : PmmInv r s')
    (hlive : ∀ a, a ∈ s.live ↔ a ∈ s'.live)
    (hout : ∀ x, ¬ r.InBitmap x → s.mem x = s'.mem x) : s.mem = s'.mem := by
  funext x
  by_cases hx : r.InBitmap x
  · obtain ⟨b, hb, rfl⟩ := hx.exists_byte
    rw [hinv.byte_eq hb, hinv'.byte_eq hb, Region.bitmapByte_congr hlive]
  · exact hout x hx

end state

/-! ## Section 3: Frees in any order -/

/-- A run of frees. -/
def frees (locations : List UInt64) : List PmmCall := locations.map PmmCall.kfree

section frees
variable {r : Region} {ls : largestSection} {hhdm : UInt64} {s : PmmState}

/-- Frees are legal if they are of distinct live addresses. -/
theorem legal_frees_iff (hnodup : s.live.Nodup) (locations : List UInt64) :
    Along (pmmStep hhdm ls) LegalCall s (frees locations) ↔
      locations.Nodup ∧ ∀ a ∈ locations, a ∈ s.live := by
  induction locations generalizing s with
  | nil => simp [frees]
  | cons a as ih =>
    have hrest := ih (s := pmmStep hhdm ls s (.kfree a)) (hnodup.erase a)
    have hlive : ∀ b, b ∈ (pmmStep hhdm ls s (.kfree a)).live ↔ b ≠ a ∧ b ∈ s.live :=
      fun b => hnodup.mem_erase_iff
    show a ∈ s.live ∧ Along (pmmStep hhdm ls) LegalCall (pmmStep hhdm ls s (.kfree a)) (frees as) ↔ _
    rw [hrest, List.nodup_cons]
    simp only [hlive, List.mem_cons, forall_eq_or_imp]
    constructor
    · rintro ⟨ha, hdistinct, hall⟩
      exact ⟨⟨fun hmem => (hall a hmem).1 rfl, hdistinct⟩, ha, fun b hb => (hall b hb).2⟩
    · rintro ⟨⟨hnot, hdistinct⟩, ha, hall⟩
      refine ⟨ha, hdistinct, fun b hb => ⟨?_, hall b hb⟩⟩
      rintro rfl
      exact hnot hb

/-- What is live after a run of frees. -/
theorem mem_live_frees (hnodup : s.live.Nodup) (locations : List UInt64) (b : UInt64) :
    b ∈ (run (pmmStep hhdm ls) s (frees locations)).live ↔ b ∈ s.live ∧ b ∉ locations := by
  induction locations generalizing s with
  | nil => simp [frees]
  | cons a as ih =>
    have hrest := ih (s := pmmStep hhdm ls s (.kfree a)) (hnodup.erase a)
    have hlive : b ∈ (pmmStep hhdm ls s (.kfree a)).live ↔ b ≠ a ∧ b ∈ s.live :=
      hnodup.mem_erase_iff
    show b ∈ (run (pmmStep hhdm ls) (pmmStep hhdm ls s (.kfree a)) (frees as)).live ↔ _
    rw [hrest, hlive, List.mem_cons]
    constructor
    · rintro ⟨⟨hne, hb⟩, hnot⟩
      exact ⟨hb, fun h => h.elim hne hnot⟩
    · rintro ⟨hb, hnot⟩
      exact ⟨⟨fun h => hnot (Or.inl h), hb⟩, fun h => hnot (Or.inr h)⟩

/-- A legal call changes the bitmap only. -/
theorem pmmStep_frame (hrec : r.Recorded ls) (hinv : PmmInv r s) {c : PmmCall} (hc : LegalCall s c)
    {x : UInt64} (hx : ¬ r.InBitmap x) : (pmmStep hhdm ls s c).mem x = s.mem x := by
  cases c with
  | kmalloc =>
    show (kmalloc hhdm ls s.mem).2 x = s.mem x
    rcases kmalloc_cases hhdm s.mem hrec with ⟨f, hf, -, -, hk⟩ | ⟨-, hk⟩
    · rw [hk]
      exact Region.writeBit_frame s.mem true hf hx
    · rw [hk]
  | kfree location =>
    obtain ⟨f, -, hf, rfl⟩ := hinv.frame location hc
    show kfree hhdm ls (r.addr f) s.mem x = s.mem x
    rw [kfree_eq hhdm s.mem hrec hf]
    exact Region.writeBit_frame s.mem false hf hx

/-- The invariant, and the frame, along a legal run. -/
theorem pmmInv_legal_run (hr : r.Fits) (hrec : r.Recorded ls) (hinv : PmmInv r s)
    {calls : List PmmCall} (hlegal : Along (pmmStep hhdm ls) LegalCall s calls) :
    PmmInv r (run (pmmStep hhdm ls) s calls) ∧
      ∀ x, ¬ r.InBitmap x → (run (pmmStep hhdm ls) s calls).mem x = s.mem x := by
  let Inv (t : PmmState) : Prop := PmmInv r t ∧ ∀ x, ¬ r.InBitmap x → t.mem x = s.mem x
  have hstep : ∀ t c, Inv t → LegalCall t c → Inv (pmmStep hhdm ls t c) := by
    intro t c ⟨ht, hout⟩ hc
    refine ⟨pmmInv_step hr hrec t c ht hc, ?_⟩
    intro x hx
    rw [pmmStep_frame hrec ht hc hx, hout x hx]
  have hinit : Inv s := ⟨hinv, fun _ _ => rfl⟩
  exact run_invariant hstep hinit hlegal

/-- **Frees commute.** -/
theorem frees_perm (hr : r.Fits) (hrec : r.Recorded ls) (hinv : PmmInv r s)
    {locations locations' : List UInt64} (hperm : locations.Perm locations')
    (hlegal : Along (pmmStep hhdm ls) LegalCall s (frees locations)) :
    Along (pmmStep hhdm ls) LegalCall s (frees locations') ∧
      (run (pmmStep hhdm ls) s (frees locations)).mem =
        (run (pmmStep hhdm ls) s (frees locations')).mem := by
  have hlegal' : Along (pmmStep hhdm ls) LegalCall s (frees locations') := by
    obtain ⟨hdistinct, hall⟩ := (legal_frees_iff hinv.nodup locations).mp hlegal
    refine (legal_frees_iff hinv.nodup locations').mpr ⟨hperm.nodup_iff.mp hdistinct, ?_⟩
    intro a ha
    exact hall a (hperm.mem_iff.mpr ha)
  obtain ⟨h₁, hout₁⟩ := pmmInv_legal_run hr hrec hinv hlegal
  obtain ⟨h₂, hout₂⟩ := pmmInv_legal_run hr hrec hinv hlegal'
  refine ⟨hlegal', h₁.mem_eq h₂ ?_ ?_⟩
  · intro a
    rw [mem_live_frees hinv.nodup, mem_live_frees hinv.nodup, hperm.mem_iff]
  · intro x hx
    rw [hout₁ x hx, hout₂ x hx]

end frees

/-! ## Section 4: Every run -/

/-- What holds of the allocator after a legal run. -/
structure Conserved (hhdm : UInt64) (ls : largestSection) (r : Region) (s : PmmState) : Prop where
  bits : ∀ f < r.frames, r.bit s.mem f = 1 ↔ r.Taken s.live f
  /-- The bitmap is determined by the live addresses. -/
  bytes : ∀ b < r.reserved, s.mem (UInt64.ofNat (r.base + b)) = r.bitmapByte s.live b
  /-- `kfree` of the address just returned restores the memory. -/
  undo : (kmalloc hhdm ls s.mem).1 ≠ 0 →
    kfree hhdm ls (kmalloc hhdm ls s.mem).1 (kmalloc hhdm ls s.mem).2 = s.mem
  /-- Frees may be done in any order. -/
  anyOrder : ∀ locations locations', locations.Perm locations' →
    Along (pmmStep hhdm ls) LegalCall s (frees locations) →
      Along (pmmStep hhdm ls) LegalCall s (frees locations') ∧
        (run (pmmStep hhdm ls) s (frees locations)).mem =
          (run (pmmStep hhdm ls) s (frees locations')).mem
  /-- `kmalloc` returns the lowest clear frame. -/
  lowest : (kmalloc hhdm ls s.mem).1 ≠ 0 → ∃ f < r.frames, r.bit s.mem f = 0 ∧
    (∀ g < f, r.bit s.mem g = 1) ∧ (kmalloc hhdm ls s.mem).1 = r.addr f
  /-- It returns NULL only if no bit is clear, and then changes nothing. -/
  full : (kmalloc hhdm ls s.mem).1 = 0 →
    (∀ f < r.frames, r.bit s.mem f = 1) ∧ (kmalloc hhdm ls s.mem).2 = s.mem

theorem PmmInv.conserved {r : Region} {ls : largestSection} (hhdm : UInt64) {s : PmmState}
    (hr : r.Fits) (hrec : r.Recorded ls) (hinv : PmmInv r s) : Conserved hhdm ls r s where
  bits := hinv.bits
  bytes := fun _ hb => hinv.byte_eq hb
  anyOrder := fun _ _ hperm hlegal => frees_perm hr hrec hinv hperm hlegal
  undo := by
    intro hne
    rcases kmalloc_cases hhdm s.mem hrec with ⟨f, hf, hclear, -, hk⟩ | ⟨-, hk⟩
    · rw [hk]
      dsimp only
      rw [kfree_eq hhdm _ hrec hf, Region.writeBit_undo s.mem hf hclear]
    · rw [hk] at hne
      exact absurd rfl hne
  lowest := by
    intro hne
    rcases kmalloc_cases hhdm s.mem hrec with ⟨f, hf, hclear, hmin, hk⟩ | ⟨-, hk⟩
    · exact ⟨f, hf, hclear, hmin, by rw [hk]⟩
    · rw [hk] at hne
      exact absurd rfl hne
  full := by
    intro hnull
    rcases kmalloc_cases hhdm s.mem hrec with ⟨f, hf, -, -, hk⟩ | ⟨hfull, hk⟩
    · rw [hk] at hnull
      exact absurd hnull (Region.addr_ne_zero hr hf)
    · exact ⟨hfull, by rw [hk]⟩

/-- **Main theorem on conservation**: after every legal run the bitmap is the
    one that the live addresses stand for, and `kmalloc` and `kfree` undo each
    other on it. -/
theorem bitmap_conserved (hhdm : UInt64) (memmapEntries : List limine_memmap_entry)
    (mem : Mem) (calls : List PmmCall)
    (hfits : regionBase memmapEntries + regionReserved memmapEntries < 2 ^ 31)
    (hlength : regionLength memmapEntries < 2 ^ 43)
    (hlegal : Along (pmmStep hhdm (initPMM hhdm memmapEntries mem).1) LegalCall
      (pmmBoot hhdm memmapEntries mem) calls) :
    Conserved hhdm (initPMM hhdm memmapEntries mem).1
      (Region.ofMap memmapEntries (Nat.lt_of_add_right_lt hfits) hlength)
      (run (pmmStep hhdm (initPMM hhdm memmapEntries mem).1)
        (pmmBoot hhdm memmapEntries mem) calls) := by
  have hr := Region.ofMap_fits hfits hlength
  have hbase : regionBase memmapEntries < 2 ^ 31 := Nat.lt_of_add_right_lt hfits
  obtain ⟨hrec, -, -⟩ := initPMM_spec (r := Region.ofMap memmapEntries hbase hlength) hhdm mem
    rfl rfl
  exact (pmmInv_run hr rfl rfl hlegal).conserved hhdm hr hrec

/-- Two allocations on a machine with 8 MiB. -/
theorem bitmap_conserved_memmap8MiB :
    let hhdm : UInt64 := 0xFFFF800000000000
    let mem : Mem := fun _ => 0
    let ls := (initPMM hhdm memmap8MiB mem).1
    Conserved hhdm ls (Region.ofMap memmap8MiB (by decide) (by decide))
      (run (pmmStep hhdm ls) (pmmBoot hhdm memmap8MiB mem) [.kmalloc, .kmalloc]) := by
  intro hhdm mem ls
  exact bitmap_conserved hhdm memmap8MiB mem [.kmalloc, .kmalloc] (by decide) (by decide)
    ⟨trivial, trivial, trivial⟩

end ArgaldOS
