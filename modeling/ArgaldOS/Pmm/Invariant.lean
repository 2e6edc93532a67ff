import ArgaldOS.Pmm.Model

/-! # The invariant of the frame allocator

    Abstractly the allocator owns a region of physical memory and numbers
    frames `0, 1, 2, ...`; a frame is either reserved for the bitmap, live
    (handed out and not freed) or clear.  `Region` is the geometry of such a
    region, with the bounds that keep the kernel's `int` arithmetic exact, and
    `PmmInv` says that the bitmap bytes in memory represent the set of live
    frames.  `kmalloc_cases` and `kfree_eq` say all that the two calls can do;
    every property of a run follows from them.
-/

namespace ArgaldOS

open Loops

/-! ## Section 1: `int` arithmetic in range -/

theorem int_add_ofNat {a b : Nat} (h : a + b < 2 ^ 31) :
    Int32.ofNat a + Int32.ofNat b = Int32.ofNat (a + b) := by
  apply Int32.toInt_inj.mp
  rw [Int32.toInt_add, Int32.toInt_ofNat_of_lt (by omega), Int32.toInt_ofNat_of_lt (by omega),
    Int32.toInt_ofNat_of_lt h]
  exact Int.bmod_eq_of_le (by omega) (by omega)

theorem int_mul_ofNat {a b : Nat} (ha : a < 2 ^ 31) (hb : b < 2 ^ 31) (h : a * b < 2 ^ 31) :
    Int32.ofNat a * Int32.ofNat b = Int32.ofNat (a * b) := by
  apply Int32.toInt_inj.mp
  rw [Int32.toInt_mul, Int32.toInt_ofNat_of_lt ha, Int32.toInt_ofNat_of_lt hb,
    Int32.toInt_ofNat_of_lt h, ← Int.natCast_mul]
  exact Int.bmod_eq_of_le (by omega) (by omega)

/-- An `int` that is not negative is its own sign extension. -/
theorem ofInt_ofNat {n : Nat} (h : n < 2 ^ 31) : ofInt (Int32.ofNat n) = UInt64.ofNat n := by
  have hmax : (n : Int) ≤ Int32.maxValue.toInt := by
    rw [show Int32.maxValue.toInt = 2147483647 from rfl]
    omega
  unfold ofInt
  rw [Int32.toInt64_ofNat' hmax, Int64.toUInt64_ofNat']

theorem toInt_ofNat (n : Nat) : toInt (UInt64.ofNat n) = Int32.ofNat n := by
  unfold toInt
  rw [UInt64.toUInt32_ofNat', UInt32.toInt32_ofNat']

/-! ## Section 2: The region of the allocator -/

/-- The region that `initPMM` selected: where it starts and how many frames
    its bitmap takes.  The bounds make the fields of `kernel.largestSect` and
    the frame index `b * 8 + y` exact. -/
structure Region where
  base    : Nat
  pages   : Nat
  base_lt : base < 2 ^ 31
  small   : pages ≤ 2 ^ 16

namespace Region

/-- `bitmapReserved`: bytes of the bitmap. -/
def reserved (r : Region) : Nat := 4096 * r.pages

/-- Number of frames the bitmap has a bit for. -/
def frames (r : Region) : Nat := 8 * r.reserved

/-- `data_start`: the end of the bitmap, computed in `int`. -/
def dataStart (r : Region) : UInt64 := ofInt (Int32.ofNat r.base + Int32.ofNat r.reserved)

/-- Address of frame `f`: frames are counted from the end of the bitmap. -/
def addr (r : Region) (f : Nat) : UInt64 := r.dataStart + UInt64.ofNat (4096 * f)

/-- The end of the bitmap is an `int`, so `data_start` is exact. -/
def Fits (r : Region) : Prop := r.base + r.reserved < 2 ^ 31

instance (r : Region) : Decidable r.Fits := inferInstanceAs (Decidable (_ < _))

/-- Physical address of the bitmap byte that holds the bit of frame `f`. -/
def byteAddr (r : Region) (f : Nat) : UInt64 := UInt64.ofNat (r.base + f / 8)

/-- The bit of frame `f` in memory. -/
def bit (r : Region) (mem : Mem) (f : Nat) : Nat := getBit (mem (r.byteAddr f)) (f % 8)

/-- Writing the bit of frame `f`. -/
def writeBit (r : Region) (mem : Mem) (f : Nat) (b : Bool) : Mem :=
  mem.store8 (r.byteAddr f) (setBit (mem (r.byteAddr f)) (UInt8.ofNat (f % 8)) b)

/-- `kernel.largestSect` records the region without truncation. -/
structure Recorded (r : Region) (ls : largestSection) : Prop where
  maxBegin       : ls.maxBegin = Int32.ofNat r.base
  bitmapReserved : ls.bitmapReserved = Int32.ofNat r.reserved

variable {r : Region}

theorem frames_lt (r : Region) : r.frames ≤ 2 ^ 31 := by
  have := r.small
  unfold frames reserved
  omega

theorem toNat_dataStart (hr : r.Fits) : r.dataStart.toNat = r.base + r.reserved := by
  unfold Fits at hr
  unfold dataStart
  rw [int_add_ofNat hr, ofInt_ofNat hr]
  exact Words.ofNat_toNat_lt _ (by omega)

theorem toNat_addr (hr : r.Fits) {f : Nat} (hf : f < r.frames) :
    (r.addr f).toNat = r.base + r.reserved + 4096 * f := by
  have h1 := toNat_dataStart hr
  have h2 := r.frames_lt
  have h3 : (UInt64.ofNat (4096 * f)).toNat = 4096 * f := Words.ofNat_toNat_lt _ (by omega)
  unfold Fits at hr
  unfold addr
  rw [Words.toNat_add_lt _ _ (by omega), h1, h3]

theorem addr_inj {f g : Nat} (hf : f < r.frames) (hg : g < r.frames) (h : r.addr f = r.addr g) :
    f = g := by
  have h2 := r.frames_lt
  have hoff : UInt64.ofNat (4096 * f) = UInt64.ofNat (4096 * g) := by
    unfold addr at h
    grind
  have := congrArg UInt64.toNat hoff
  rw [Words.ofNat_toNat_lt _ (by omega), Words.ofNat_toNat_lt _ (by omega)] at this
  omega

theorem toNat_byteAddr {f : Nat} (hf : f < r.frames) : (r.byteAddr f).toNat = r.base + f / 8 := by
  have h1 := r.base_lt
  have h2 := r.frames_lt
  exact Words.ofNat_toNat_lt _ (by omega)

theorem bit_lt_two (mem : Mem) (f : Nat) : r.bit mem f < 2 := getBit_lt_two _ _

/-- Writing a bit changes the bit of that frame and of no other. -/
theorem bit_writeBit (mem : Mem) {f g : Nat} (b : Bool) (hf : f < r.frames) (hg : g < r.frames) :
    r.bit (r.writeBit mem f b) g = if g = f then b.toNat else r.bit mem g := by
  unfold bit writeBit
  by_cases hbyte : f / 8 = g / 8
  · -- Same byte: the two frames differ in the position of their bits.
    have haddr : r.byteAddr g = r.byteAddr f := by
      unfold byteAddr
      rw [hbyte]
    rw [haddr, Mem.store8_self, getBit_setBit _ _ _ _ (by omega) (by omega)]
    by_cases hgf : g = f
    · simp [hgf]
    · rw [if_neg (by omega), if_neg hgf]
  · have hne : r.byteAddr g ≠ r.byteAddr f := by
      intro h
      have := congrArg UInt64.toNat h
      rw [toNat_byteAddr hf, toNat_byteAddr hg] at this
      omega
    rw [Mem.store8_ne _ _ _ _ hne, if_neg (by omega)]

/-- The byte `x` belongs to the bitmap. -/
def InBitmap (r : Region) (x : UInt64) : Prop :=
  r.base ≤ x.toNat ∧ x.toNat < r.base + r.reserved

theorem byteAddr_inBitmap {f : Nat} (hf : f < r.frames) : r.InBitmap (r.byteAddr f) := by
  unfold InBitmap
  rw [toNat_byteAddr hf]
  unfold frames at hf
  omega

/-- Writing a bit changes bitmap bytes only. -/
theorem writeBit_frame (mem : Mem) {f : Nat} (b : Bool) (hf : f < r.frames) {x : UInt64}
    (hx : ¬ r.InBitmap x) : r.writeBit mem f b x = mem x := by
  apply Mem.store8_ne
  rintro rfl
  exact hx (byteAddr_inBitmap hf)

/-- The bits depend on the bitmap bytes only. -/
theorem bit_congr {mem mem' : Mem} (h : ∀ x, r.InBitmap x → mem' x = mem x) {f : Nat}
    (hf : f < r.frames) : r.bit mem' f = r.bit mem f := by
  unfold bit
  rw [h _ (byteAddr_inBitmap hf)]

/-- No frame that is handed out overlaps the bitmap. -/
theorem not_inBitmap_of_inFrame (hr : r.Fits) {f : Nat} (hf : f < r.frames) {x : UInt64}
    (hx : InFrame (r.addr f) x) : ¬ r.InBitmap x := by
  unfold InFrame at hx
  rw [toNat_addr hr hf] at hx
  unfold InBitmap
  omega

end Region

/-! ## Section 3: What one call does -/

section calls
variable {r : Region} {ls : largestSection} (hhdm : UInt64) (mem : Mem)

/-- The number of rounds of the outer loop of `kmalloc`. -/
theorem reserved_toInt (hrec : r.Recorded ls) : ls.bitmapReserved.toInt.toNat = r.reserved := by
  have h1 := r.small
  rw [hrec.bitmapReserved, Int32.toInt_ofNat_of_lt (by unfold Region.reserved; omega)]
  rfl

/-- The bit that the scan of `kmalloc` looks at in its round `b`, `y`. -/
theorem bitmap_read (hrec : r.Recorded ls) {b y : Nat} (hy : y < 8) :
    getBit (mem.hload8 hhdm (ofInt ls.maxBegin + hhdm + UInt64.ofNat b)) y
      = r.bit mem (b * 8 + y) := by
  have h1 := r.base_lt
  have hdiv : (b * 8 + y) / 8 = b := by omega
  have hmod : (b * 8 + y) % 8 = y := by omega
  unfold Mem.hload8 Region.bit Region.byteAddr
  rw [hrec.maxBegin, ofInt_ofNat (by omega), hdiv, hmod, UInt64.ofNat_add]
  congr 2
  grind

/-- The scan of `kmalloc` finds the lowest clear frame. -/
theorem findClear_eq_some (hrec : r.Recorded ls) {b y : Nat}
    (h : findClear hhdm ls mem = some (b, y)) :
    b < r.reserved ∧ y < 8 ∧ r.bit mem (b * 8 + y) = 0 ∧
      ∀ g < b * 8 + y, r.bit mem g = 1 := by
  have hn := reserved_toInt hrec
  unfold findClear at h
  rw [hn] at h
  obtain ⟨k, -, hk, hhit, hfirst⟩ := searchFrom_eq_some h
  obtain ⟨j, -, hj, hjhit, hjfirst⟩ := searchFrom_eq_some hhit
  have hkr : k < r.reserved := by omega
  have hj8 : j < 8 := by omega
  rw [bitmap_read hhdm mem hrec hj8] at hjhit
  split at hjhit
  · next hclear =>
    obtain ⟨rfl, rfl⟩ := Prod.mk.inj (Option.some.inj hjhit)
    refine ⟨hkr, hj8, hclear, ?_⟩
    intro g hg
    -- Every earlier bit was passed by one of the two loops.
    -- Within the byte of the hit it was the inner loop, before it the outer.
    have hset : r.bit mem g ≠ 0 := by
      by_cases hgk : g / 8 = k
      · have hpass := hjfirst (g % 8) (by omega) (by omega)
        rw [bitmap_read hhdm mem hrec (by omega)] at hpass
        have hg8 : k * 8 + g % 8 = g := by omega
        rw [hg8] at hpass
        intro hzero
        simp [hzero] at hpass
      · have hpass := hfirst (g / 8) (by omega) (by omega)
        have hbit := searchFrom_eq_none hpass (g % 8) (by omega) (by omega)
        rw [bitmap_read hhdm mem hrec (by omega)] at hbit
        have hg8 : g / 8 * 8 + g % 8 = g := by omega
        rw [hg8] at hbit
        intro hzero
        simp [hzero] at hbit
    have := r.bit_lt_two mem g
    omega
  · cases hjhit

/-- The scan of `kmalloc` fails only on a full bitmap. -/
theorem findClear_eq_none (hrec : r.Recorded ls) (h : findClear hhdm ls mem = none) :
    ∀ g < r.frames, r.bit mem g = 1 := by
  have hn := reserved_toInt hrec
  unfold findClear at h
  rw [hn] at h
  intro g hg
  unfold Region.frames at hg
  -- Both loops ran to their ends.
  have hpass := searchFrom_eq_none h (g / 8) (by omega) (by omega)
  have hbit := searchFrom_eq_none hpass (g % 8) (by omega) (by omega)
  rw [bitmap_read hhdm mem hrec (by omega)] at hbit
  have hg8 : g / 8 * 8 + g % 8 = g := by omega
  rw [hg8] at hbit
  have hset : r.bit mem g ≠ 0 := by
    intro hzero
    simp [hzero] at hbit
  have := r.bit_lt_two mem g
  omega

/-- **All that `kmalloc` can do**: set the bit of the lowest clear frame and
    return its address, or find the bitmap full, change nothing and return
    NULL. -/
theorem kmalloc_cases (hrec : r.Recorded ls) :
    (∃ f < r.frames, r.bit mem f = 0 ∧ (∀ g < f, r.bit mem g = 1) ∧
        kmalloc hhdm ls mem = (r.addr f, r.writeBit mem f true)) ∨
    ((∀ g < r.frames, r.bit mem g = 1) ∧ kmalloc hhdm ls mem = (0, mem)) := by
  have h1 := r.base_lt
  have h2 := r.small
  cases hfind : findClear hhdm ls mem with
  | none =>
    refine Or.inr ⟨findClear_eq_none hhdm mem hrec hfind, ?_⟩
    unfold kmalloc
    rw [hfind]
  | some hit =>
    obtain ⟨b, y⟩ := hit
    obtain ⟨hb, hy, hclear, hmin⟩ := findClear_eq_some hhdm mem hrec hfind
    refine Or.inl ⟨b * 8 + y, by unfold Region.frames; omega, hclear, hmin, ?_⟩
    have hdiv : (b * 8 + y) / 8 = b := by omega
    have hmod : (b * 8 + y) % 8 = y := by omega
    unfold Region.reserved at hb
    -- The address of the bitmap byte and the one of the frame, without overflow.
    have hptr : ofInt ls.maxBegin + hhdm + UInt64.ofNat b - hhdm = r.byteAddr (b * 8 + y) := by
      unfold Region.byteAddr
      rw [hrec.maxBegin, ofInt_ofNat (by omega), hdiv, UInt64.ofNat_add]
      grind
    have hindex : ofInt (Int32.ofNat b * 8 + Int32.ofNat y) = UInt64.ofNat (b * 8 + y) := by
      rw [show (8 : Int32) = Int32.ofNat 8 from rfl,
        int_mul_ofNat (by omega) (by omega) (by omega), int_add_ofNat (by omega),
        ofInt_ofNat (by omega)]
    unfold kmalloc
    rw [hfind]
    apply Prod.ext
    · show ofInt (ls.maxBegin + ls.bitmapReserved)
          + ofInt (Int32.ofNat b * 8 + Int32.ofNat y) * 4096 = r.addr (b * 8 + y)
      unfold Region.addr Region.dataStart
      rw [hrec.maxBegin, hrec.bitmapReserved, hindex,
        show (4096 : UInt64) = UInt64.ofNat 4096 from rfl, ← UInt64.ofNat_mul,
        Nat.mul_comm (b * 8 + y)]
    · show mem.hstore8 hhdm _ _ = r.writeBit mem (b * 8 + y) true
      unfold Mem.hstore8 Mem.hload8 Region.writeBit
      rw [hptr, hmod]

/-- **All that `kfree` does** to the address of a frame: it clears the bit of
    the frame. -/
theorem kfree_eq (hrec : r.Recorded ls) {f : Nat} (hf : f < r.frames) :
    kfree hhdm ls (r.addr f) mem = r.writeBit mem f false := by
  have h1 := r.base_lt
  have h2 := r.frames_lt
  have hoff : r.addr f - ofInt (ls.maxBegin + ls.bitmapReserved) = UInt64.ofNat (4096 * f) := by
    unfold Region.addr Region.dataStart
    rw [hrec.maxBegin, hrec.bitmapReserved]
    grind
  -- The difference is a multiple of 4096, so the frame number is exact.
  have hpf : (UInt64.ofNat (4096 * f) / 4096).toUInt32 = UInt32.ofNat f := by
    apply UInt32.toNat_inj.mp
    rw [UInt64.toNat_toUInt32, UInt64.toNat_div, Words.ofNat_toNat_lt _ (by omega),
      UInt32.toNat_ofNat']
    simp only [UInt64.toNat_ofNat, Nat.reduceMod, Nat.reducePow]
    omega
  have hf32 : (UInt32.ofNat f).toNat = f := by
    rw [UInt32.toNat_ofNat']
    omega
  -- The 32-bit sum does not wrap, as the bitmap ends below 2^31.
  have hbyte : ((UInt32.ofNat f >>> 3) + ls.maxBegin.toUInt32).toUInt64 + hhdm - hhdm
      = r.byteAddr f := by
    have hbase : (UInt32.ofNat r.base).toNat = r.base := by
      rw [UInt32.toNat_ofNat']
      omega
    have hshift : (UInt32.ofNat f >>> 3).toNat = f / 8 := by
      rw [UInt32.toNat_shiftRight, hf32]
      simp [Nat.shiftRight_eq_div_pow]
    have hsum : ((UInt32.ofNat f >>> 3) + UInt32.ofNat r.base).toUInt64 = r.byteAddr f := by
      apply Words.ext
      rw [UInt32.toNat_toUInt64, UInt32.toNat_add, hshift, hbase]
      unfold Region.byteAddr
      rw [Words.ofNat_toNat_lt _ (by omega)]
      omega
    rw [hrec.maxBegin, Int32.toUInt32_ofNat', hsum]
    grind
  have hbit : (UInt32.ofNat f % 8).toUInt8 = UInt8.ofNat (f % 8) := by
    apply UInt8.toNat_inj.mp
    rw [UInt32.toNat_toUInt8, UInt32.toNat_mod, hf32, UInt8.toNat_ofNat']
    rfl
  unfold kfree Mem.hstore8 Mem.hload8 Region.writeBit
  rw [hoff, hpf]
  simp only [hbyte, hbit]

end calls

end ArgaldOS
