import ArgaldOS.Pmm.Safety
import Mathlib.Data.Set.Basic

/-! # Do the three functions mean the same bitmap?

    `initPMM` works on the 64-bit numbers of the memory map and records them
    in `int` fields; `kmalloc` sign-extends the fields, `kfree` zero-extends a
    32-bit sum of them.  They agree exactly as long as the bitmap ends below
    2 GiB.

    * `toNat_ofInt_toInt`: truncation to `int` and back;
    * `addressRange_inj`: a range of addresses has one start and one length;
    * `bitmapAgrees_iff`: the exact condition.
-/

namespace ArgaldOS

open Loops

/-! ## Section 1: Truncation -/

/-- A 64-bit number that is stored in an `int` and sign-extended again. -/
theorem toNat_ofInt_toInt (x : UInt64) :
    (ofInt (toInt x)).toNat =
      if x.toNat % 2 ^ 32 < 2 ^ 31 then x.toNat % 2 ^ 32
      else 2 ^ 64 - 2 ^ 32 + x.toNat % 2 ^ 32 := by
  have hbits : (ofInt (toInt x)).toBitVec = (toInt x).toBitVec.signExtend 64 := rfl
  have hx : (toInt x).toBitVec.toNat = x.toNat % 2 ^ 32 := rfl
  have hmsb : (toInt x).toBitVec.msb = decide (2 ^ 31 ≤ x.toNat % 2 ^ 32) := by
    rw [BitVec.msb_eq_decide, hx]
  rw [← UInt64.toNat_toBitVec, hbits, BitVec.toNat_signExtend, BitVec.toNat_setWidth, hx, hmsb]
  by_cases h : x.toNat % 2 ^ 32 < 2 ^ 31
  -- The sign bit is clear: nothing is extended.
  · rw [if_pos h, if_neg (by simpa using h)]
    omega
  · rw [if_neg h, if_pos (by simpa using h)]
    omega

/-- The numbers that survive it. -/
theorem ofInt_toInt_eq_iff (x : UInt64) :
    ofInt (toInt x) = x ↔ x.toNat < 2 ^ 31 ∨ 2 ^ 64 - 2 ^ 31 ≤ x.toNat := by
  have hx := x.toNat_lt
  rw [← UInt64.toNat_inj, toNat_ofInt_toInt]
  by_cases h : x.toNat % 2 ^ 32 < 2 ^ 31
  · rw [if_pos h]
    omega
  · rw [if_neg h]
    omega

theorem toInt_add (x y : UInt64) : toInt (x + y) = toInt x + toInt y := by
  unfold toInt
  rw [UInt64.toUInt32_add, UInt32.toInt32_add]

/-- The value of a number that was stored in an `int`, as a loop bound. -/
theorem toNat_toInt_toInt (x : UInt64) :
    (toInt x).toInt.toNat = if x.toNat % 2 ^ 32 < 2 ^ 31 then x.toNat % 2 ^ 32 else 0 := by
  have hint : (toInt x).toInt = (toInt x).toBitVec.toInt := rfl
  have hx : (toInt x).toBitVec.toNat = x.toNat % 2 ^ 32 := rfl
  rw [hint, BitVec.toInt_eq_toNat_cond, hx]
  by_cases h : x.toNat % 2 ^ 32 < 2 ^ 31
  · rw [if_pos h, if_pos (by omega)]
    omega
  · rw [if_neg h, if_neg (by omega)]
    omega

/-! ## Section 2: Ranges of addresses -/

/-- `n` addresses from `start` on. -/
def addressRange (start : UInt64) (n : Nat) : Set UInt64 :=
  {p | ∃ i < n, p = start + UInt64.ofNat i}

/-- A range that is not empty has one start and one length. -/
theorem addressRange_inj {a b : UInt64} {n m : Nat} (hm : 0 < m) (hmax : m ≤ 2 ^ 63) (hnm : n ≤ m)
    (h : addressRange a n = addressRange b m) : a = b ∧ n = m := by
  have hoff (c : UInt64) {i j : Nat} (hi : i < 2 ^ 64) (hj : j < 2 ^ 64)
      (heq : c + UInt64.ofNat i = c + UInt64.ofNat j) : i = j := by
    have hval := congrArg UInt64.toNat ((UInt64.add_right_inj c).mp heq)
    rwa [Words.ofNat_toNat_lt i hi, Words.ofNat_toNat_lt j hj] at hval
  have hb : b ∈ addressRange a n := by
    rw [h]
    exact ⟨0, hm, by simp⟩
  obtain ⟨i, hi, hbi⟩ := hb
  have ha : a ∈ addressRange b m := by
    rw [← h]
    exact ⟨0, by omega, by simp⟩
  obtain ⟨j, hj, haj⟩ := ha
  -- Going from one start to the other and back moves by nothing.
  have hloop : a + UInt64.ofNat (i + j) = a + UInt64.ofNat 0 := by
    rw [UInt64.ofNat_add, ← UInt64.add_assoc, ← hbi, ← haj]
    simp
  have hzero := hoff a (by omega) (by omega) hloop
  have hab : a = b := by
    rw [haj, show j = 0 by omega]
    simp
  refine ⟨hab, ?_⟩
  -- The last address of the longer range is in the shorter one.
  have hlast : b + UInt64.ofNat (m - 1) ∈ addressRange a n := by
    rw [h]
    exact ⟨m - 1, by omega, rfl⟩
  obtain ⟨k, hk, hkm⟩ := hlast
  rw [hab] at hkm
  have := hoff b (by omega) (by omega) hkm
  omega

/-! ## Section 3: The bytes of the bitmap -/

section bytes
variable (hhdm : UInt64) (ls : largestSection)

/-- The bytes that the scan of `kmalloc` looks at, and sets a bit in. -/
def scannedBytes : Set UInt64 :=
  addressRange (ofInt ls.maxBegin + hhdm) ls.bitmapReserved.toInt.toNat

/-- `data_start` of `kmalloc`. -/
def kmallocDataStart : UInt64 := ofInt (ls.maxBegin + ls.bitmapReserved)

/-- `pfNum` of `kfree`. -/
def kfreeFrame (location : UInt64) : UInt32 :=
  ((location - ofInt (ls.maxBegin + ls.bitmapReserved)) / 4096).toUInt32

/-- `bitmapMemAddr` of `kfree`: the byte it clears a bit in. -/
def kfreeByte (location : UInt64) : UInt64 :=
  ((kfreeFrame ls location >>> 3) + ls.maxBegin.toUInt32).toUInt64 + hhdm

/-- The hit of the scan is one of the scanned bytes. -/
theorem findClear_scanned {hhdm : UInt64} {ls : largestSection} {mem : Mem} {b y : Nat}
    (h : findClear hhdm ls mem = some (b, y)) : b < ls.bitmapReserved.toInt.toNat ∧ y < 8 := by
  unfold findClear at h
  obtain ⟨k, -, hk, hhit, -⟩ := searchFrom_eq_some h
  obtain ⟨j, -, hj, hjhit, -⟩ := searchFrom_eq_some hhit
  split at hjhit
  · obtain ⟨rfl, rfl⟩ := Prod.mk.inj (Option.some.inj hjhit)
    omega
  · cases hjhit

/-- `kmalloc` changes scanned bytes only. -/
theorem kmalloc_changes_scanned (mem : Mem) {x : UInt64}
    (hx : x + hhdm ∉ scannedBytes hhdm ls) : (kmalloc hhdm ls mem).2 x = mem x := by
  unfold kmalloc
  cases h : findClear hhdm ls mem with
  | none => rfl
  | some hit =>
    obtain ⟨b, y⟩ := hit
    refine Mem.store8_ne _ _ _ _ fun heq => hx ⟨b, (findClear_scanned h).1, ?_⟩
    rw [heq]
    grind

/-- `kfree` changes one byte. -/
theorem kfree_changes_byte (location : UInt64) (mem : Mem) {x : UInt64}
    (hx : x + hhdm ≠ kfreeByte hhdm ls location) : kfree hhdm ls location mem x = mem x := by
  refine Mem.store8_ne _ _ _ _ fun heq => hx ?_
  rw [heq]
  show kfreeByte hhdm ls location - hhdm + hhdm = _
  grind

/-- The frame number that `kfree` computes for an address of `kmalloc`: the bit
    that `kmalloc` set, in 32 bits. -/
theorem toNat_kfreeFrame {mem : Mem} {b y : Nat} (h : findClear hhdm ls mem = some (b, y)) :
    (kfreeFrame ls (kmalloc hhdm ls mem).1).toNat = (8 * b + y) % 2 ^ 32 := by
  unfold kfreeFrame kmalloc
  rw [h]
  dsimp only
  have hcancel (d i : UInt64) : d + i * 4096 - d = i * 4096 := by grind
  -- Modulo 2^32 the int computation of the index is exact.
  have hindex : (ofInt (Int32.ofNat b * 8 + Int32.ofNat y)).toNat % 2 ^ 32 =
      (8 * b + y) % 2 ^ 32 := by
    have hbits (x : Int32) : (ofInt x).toNat % 2 ^ 32 = x.toUInt32.toNat := by
      have hsign : (ofInt x).toBitVec = x.toBitVec.signExtend 64 := rfl
      have hx : x.toUInt32.toNat = x.toBitVec.toNat := rfl
      have hlt := x.toBitVec.isLt
      rw [← UInt64.toNat_toBitVec, hsign, hx, BitVec.toNat_signExtend, BitVec.toNat_setWidth]
      split <;> omega
    rw [hbits, Int32.toUInt32_add, Int32.toUInt32_mul, UInt32.toNat_add, UInt32.toNat_mul]
    have hnat (n : Nat) : (Int32.ofNat n).toUInt32.toNat = n % 2 ^ 32 := by simp
    have height : (8 : Int32).toUInt32.toNat = 8 := rfl
    rw [hnat, hnat, height]
    omega
  rw [hcancel, UInt64.toNat_toUInt32, UInt64.toNat_div, UInt64.toNat_mul]
  show (ofInt _).toNat * 4096 % 2 ^ 64 / 4096 % 2 ^ 32 = _
  omega

end bytes

/-! ## Section 4: Agreement -/

/-- `initPMM`, `kmalloc` and `kfree` agree on one bitmap: `kmalloc` scans the
    bytes that `initPMM` zeroed, `kfree` clears a bit in one of them for every
    address that `kmalloc` can return, and the frames start at their end. -/
structure BitmapAgrees (hhdm : UInt64) (memmapEntries : List limine_memmap_entry) (mem : Mem) :
    Prop where
  scanned : scannedBytes hhdm (initPMM hhdm memmapEntries mem).1 =
    addressRange ((selectRegion memmapEntries).1 + hhdm) (regionReserved memmapEntries)
  freed : ∀ m b y, findClear hhdm (initPMM hhdm memmapEntries mem).1 m = some (b, y) →
    kfreeByte hhdm (initPMM hhdm memmapEntries mem).1
        (kmalloc hhdm (initPMM hhdm memmapEntries mem).1 m).1 ∈
      addressRange ((selectRegion memmapEntries).1 + hhdm) (regionReserved memmapEntries)
  dataStart : kmallocDataStart (initPMM hhdm memmapEntries mem).1 =
    (selectRegion memmapEntries).1 + UInt64.ofNat (regionReserved memmapEntries)

/-- The bitmap ends below 2 GiB; or there is none, and the region is in the last
    2 GiB of the address space, where sign extension restores its base. -/
def BitmapBelow2GiB (memmapEntries : List limine_memmap_entry) : Prop :=
  regionBase memmapEntries + regionReserved memmapEntries < 2 ^ 31 ∨
    regionReserved memmapEntries = 0 ∧ 2 ^ 64 - 2 ^ 31 ≤ regionBase memmapEntries

instance (memmapEntries : List limine_memmap_entry) : Decidable (BitmapBelow2GiB memmapEntries) :=
  inferInstanceAs (Decidable (_ ∨ _))

section agreement
variable (hhdm : UInt64) (memmapEntries : List limine_memmap_entry) (mem : Mem)

theorem kmallocDataStart_eq : kmallocDataStart (initPMM hhdm memmapEntries mem).1 =
    ofInt (toInt ((selectRegion memmapEntries).1 + UInt64.ofNat (regionReserved memmapEntries))) := by
  have hreserved : UInt64.ofNat (regionReserved memmapEntries) =
      bitmapPages (selectRegion memmapEntries).2 * 4096 := UInt64.ofNat_toNat
  rw [hreserved, toInt_add]
  rfl

/-- The bitmap of the longest region still has fewer than `2 ^ 50` bytes. -/
theorem regionReserved_lt : regionReserved memmapEntries < 2 ^ 50 := by
  have hpages := toNat_bitmapPages (selectRegion memmapEntries).2
  have hlt := (selectRegion memmapEntries).2.toNat_lt
  rw [regionReserved_eq]
  omega

/-- The number of bytes that `kmalloc` scans. -/
theorem scanned_count : (initPMM hhdm memmapEntries mem).1.bitmapReserved.toInt.toNat =
    if regionReserved memmapEntries % 2 ^ 32 < 2 ^ 31 then regionReserved memmapEntries % 2 ^ 32
    else 0 :=
  toNat_toInt_toInt _

/-- With an empty bitmap `kmalloc` finds nothing. -/
theorem findClear_of_reserved_zero (h : regionReserved memmapEntries = 0) (m : Mem) (b y : Nat) :
    findClear hhdm (initPMM hhdm memmapEntries mem).1 m ≠ some (b, y) := by
  intro hfind
  have hb := (findClear_scanned hfind).1
  rw [scanned_count, h, Nat.zero_mod, ite_self] at hb
  exact absurd hb (Nat.not_lt_zero b)

/-- The byte that `kfree` picks for an address of `kmalloc`: the base is
    zero-extended. -/
theorem kfreeByte_eq {m : Mem} {b y : Nat}
    (h : findClear hhdm (initPMM hhdm memmapEntries mem).1 m = some (b, y)) :
    kfreeByte hhdm (initPMM hhdm memmapEntries mem).1
        (kmalloc hhdm (initPMM hhdm memmapEntries mem).1 m).1 =
      UInt64.ofNat ((b % 2 ^ 29 + regionBase memmapEntries % 2 ^ 32) % 2 ^ 32) + hhdm := by
  have hframe := toNat_kfreeFrame hhdm _ h
  have hbase : (initPMM hhdm memmapEntries mem).1.maxBegin.toUInt32.toNat =
      regionBase memmapEntries % 2 ^ 32 := rfl
  have hy := (findClear_scanned h).2
  unfold kfreeByte
  -- The shift divides the wrapped frame number, so 29 bits of `b` are left.
  refine congrArg (· + hhdm) (Words.ext ?_)
  rw [UInt32.toNat_toUInt64, UInt32.toNat_add, UInt32.toNat_shiftRight, hframe, hbase,
    Words.ofNat_toNat_lt _ (by omega), Nat.shiftRight_eq_div_pow]
  show ((8 * b + y) % 2 ^ 32 / 2 ^ 3 + _) % 2 ^ 32 = _
  omega

theorem bitmapAgrees_of_below (h : BitmapBelow2GiB memmapEntries) :
    BitmapAgrees hhdm memmapEntries mem := by
  have hbase : (selectRegion memmapEntries).1.toNat = regionBase memmapEntries := rfl
  have hmax : (initPMM hhdm memmapEntries mem).1.maxBegin = toInt (selectRegion memmapEntries).1 :=
    rfl
  have hreserved := regionReserved_lt memmapEntries
  rcases h with hlow | ⟨hzero, hhigh⟩
  · have hround : ofInt (toInt (selectRegion memmapEntries).1) = (selectRegion memmapEntries).1 :=
      (ofInt_toInt_eq_iff _).mpr (Or.inl (by omega))
    have hcount := scanned_count hhdm memmapEntries mem
    rw [Nat.mod_eq_of_lt (by omega), if_pos (by omega)] at hcount
    have hsum : ((selectRegion memmapEntries).1 + UInt64.ofNat (regionReserved memmapEntries)).toNat =
        regionBase memmapEntries + regionReserved memmapEntries := by
      have hnat := Words.ofNat_toNat_lt (regionReserved memmapEntries) (by omega)
      rw [Words.toNat_add_lt _ _ (by omega), hnat]
      rfl
    -- Below 2 GiB the three numbers survive the truncation.
    refine ⟨?_, fun m b y hfind => ?_, ?_⟩
    · unfold scannedBytes
      rw [hmax, hround, hcount]
    · have hb := (findClear_scanned hfind).1
      rw [hcount] at hb
      -- `kfree` may find another byte than `kmalloc`, but a byte of the bitmap.
      refine ⟨b % 2 ^ 29, Nat.lt_of_le_of_lt (Nat.mod_le _ _) hb, ?_⟩
      have hvalue : (b % 2 ^ 29 + regionBase memmapEntries % 2 ^ 32) % 2 ^ 32 =
          regionBase memmapEntries + b % 2 ^ 29 := by omega
      rw [kfreeByte_eq hhdm memmapEntries mem hfind, hvalue, UInt64.ofNat_add]
      show UInt64.ofNat (selectRegion memmapEntries).1.toNat + _ + _ = _
      rw [UInt64.ofNat_toNat]
      grind
    · rw [kmallocDataStart_eq]
      exact (ofInt_toInt_eq_iff _).mpr (Or.inl (by omega))
  -- No bitmap: nothing is scanned, and no address is handed out.
  · have hcount := scanned_count hhdm memmapEntries mem
    rw [hzero, Nat.zero_mod, ite_self] at hcount
    refine ⟨?_, fun m b y hfind => ?_, ?_⟩
    · unfold scannedBytes addressRange
      rw [hcount, hzero]
      simp
    · exact absurd hfind (findClear_of_reserved_zero hhdm memmapEntries mem hzero m b y)
    · have hadd : (selectRegion memmapEntries).1 + UInt64.ofNat 0 =
          (selectRegion memmapEntries).1 := by simp
      rw [kmallocDataStart_eq, hzero, hadd]
      exact (ofInt_toInt_eq_iff _).mpr (Or.inr hhigh)

/-- Without the condition the three disagree. -/
theorem below_of_bitmapAgrees (h : BitmapAgrees hhdm memmapEntries mem) :
    BitmapBelow2GiB memmapEntries := by
  have hbase : (selectRegion memmapEntries).1.toNat = regionBase memmapEntries := rfl
  have hmax : (initPMM hhdm memmapEntries mem).1.maxBegin = toInt (selectRegion memmapEntries).1 :=
    rfl
  have hreserved := regionReserved_lt memmapEntries
  have hlt := (selectRegion memmapEntries).1.toNat_lt
  -- The start of the frames survives the truncation, so it is low or very high.
  have hstart := h.dataStart
  rw [kmallocDataStart_eq, ofInt_toInt_eq_iff, UInt64.toNat_add,
    Words.ofNat_toNat_lt _ (by omega), hbase] at hstart
  unfold BitmapBelow2GiB
  rcases Nat.eq_zero_or_pos (regionReserved memmapEntries) with hzero | hpos
  · omega
  · have hcount := scanned_count hhdm memmapEntries mem
    have hle : (initPMM hhdm memmapEntries mem).1.bitmapReserved.toInt.toNat ≤
        regionReserved memmapEntries := by
      rw [hcount]
      split
      · exact Nat.mod_le _ _
      · omega
    -- As ranges are told apart by start and length, the base survives as well.
    obtain ⟨hround, hall⟩ := addressRange_inj hpos (by omega) hle h.scanned
    rw [hmax, UInt64.add_left_inj, ofInt_toInt_eq_iff, hbase] at hround
    have hsmall : regionReserved memmapEntries < 2 ^ 31 := by
      rw [hcount] at hall
      split at hall <;> omega
    rcases hround with hlow | hhigh
    · omega
    · -- A zero-extended base in the last 2 GiB is another address.
      have hfind : findClear hhdm (initPMM hhdm memmapEntries mem).1 (fun _ => 0) = some (0, 0) := by
        unfold findClear
        rw [hall]
        obtain ⟨n, hn⟩ := Nat.exists_eq_succ_of_ne_zero (by omega : regionReserved memmapEntries ≠ 0)
        rw [hn]
        simp [searchFrom, Mem.hload8]
      obtain ⟨i, hi, hbyte⟩ := h.freed _ 0 0 hfind
      rw [kfreeByte_eq hhdm memmapEntries mem hfind] at hbyte
      have hvalue : UInt64.ofNat ((0 % 2 ^ 29 + regionBase memmapEntries % 2 ^ 32) % 2 ^ 32) =
          (selectRegion memmapEntries).1 + UInt64.ofNat i := by grind
      have hnat := congrArg UInt64.toNat hvalue
      rw [UInt64.toNat_add, Words.ofNat_toNat_lt _ (by omega), Words.ofNat_toNat_lt _ (by omega),
        hbase] at hnat
      omega

/-- **The three functions agree on one bitmap exactly if** it ends below 2 GiB. -/
theorem bitmapAgrees_iff :
    BitmapAgrees hhdm memmapEntries mem ↔ BitmapBelow2GiB memmapEntries :=
  ⟨below_of_bitmapAgrees hhdm memmapEntries mem, bitmapAgrees_of_below hhdm memmapEntries mem⟩

end agreement

/-- A region of 8 MiB at 2 GiB. -/
theorem bitmapAgrees_fails_2GiB :
    ¬ BitmapAgrees 0xFFFF800000000000
      [{ base := 0x80000000, length := 0x800000, type := LIMINE_MEMMAP_USABLE }] (fun _ => 0) := by
  intro h
  exact absurd (below_of_bitmapAgrees _ _ _ h) (by decide)

end ArgaldOS
