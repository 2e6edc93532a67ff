import ArgaldOS.Fat.Volume

/-! # Where the clusters are

    `get_first_sector_of_cluster` mixes `int`, `uint8_t`, `uint16_t` and
    `uint32_t` operands.  `checked_first_sector` is the same computation with
    every C operation checked against the range of its type; on a volume whose
    clusters exist it never leaves a range, and the clusters tile the data area.

    * `first_sector_of_checked`: a computation that stays in range is the one of
      the kernel;
    * `cluster_geometry`: which sectors a cluster gets.
-/

namespace ArgaldOS

/-! ## Section 1: Checked arithmetic -/

/-- The result of an operation on `int`, `none` on a signed overflow. -/
def inInt (x : Int) : Option Int := if -2147483648 ≤ x ∧ x < 2147483648 then some x else none

/-- The result of an operation on `uint32_t`, or a conversion to it, `none` on a
    wraparound. -/
def inUInt32 (x : Int) : Option Int := if 0 ≤ x ∧ x < 4294967296 then some x else none

theorem inInt_eq_some {x : Int} (h : -2147483648 ≤ x ∧ x < 2147483648) : inInt x = some x := if_pos h

theorem inUInt32_eq_some {x : Int} (h : 0 ≤ x ∧ x < 4294967296) : inUInt32 x = some x := if_pos h

theorem of_inInt {x y : Int} (h : inInt x = some y) : y = x ∧ -2147483648 ≤ x ∧ x < 2147483648 := by
  unfold inInt at h
  split at h
  · next hx => exact ⟨(Option.some.inj h).symm, hx⟩
  · cases h

theorem of_inUInt32 {x y : Int} (h : inUInt32 x = some y) : y = x ∧ 0 ≤ x ∧ x < 4294967296 := by
  unfold inUInt32 at h
  split at h
  · next hx => exact ⟨(Option.some.inj h).symm, hx⟩
  · cases h

theorem bind_of_some {x : Option Int} {y : Int} {f : Int → Option Int} {r : Option Int}
    (hx : x = some y) (hf : f y = r) : x >>= f = r := by
  rw [hx]
  exact hf

/-- `get_first_sector_of_cluster`, operation by operation. -/
def checked_first_sector (ebpb : EBPB) (cluster : Int) : Option Int := do
  if ebpb.bytes_per_sector = 0 then none else
  -- The operands are promoted to int, the quotient is converted.
  let entries ← inInt (ebpb.number_of_root_dir_entries.toNat * 32)
  let last ← inInt (ebpb.bytes_per_sector.toNat - 1)
  let bytes ← inInt (entries + last)
  let root_sector ← inUInt32 (bytes / ebpb.bytes_per_sector.toNat)
  let tables ← inUInt32 (ebpb.number_of_FAT.toNat * ebpb.sectors_per_FAT.toNat)
  let start ← inUInt32 (ebpb.reserved_sectors.toNat + tables)
  let first_data_sector ← inUInt32 (start + root_sector)
  -- Signed up to the product, which is converted for the last sum.
  let index ← inInt (cluster - 2)
  let offset ← inInt (index * ebpb.sectors_per_cluster.toNat)
  let offset ← inUInt32 offset
  inUInt32 (offset + first_data_sector)

/-- **In range, the machine computes the number itself.** -/
theorem first_sector_of_checked {ebpb : EBPB} {c n : Nat} (hc : 2 ≤ c)
    (h : checked_first_sector ebpb c = some n) :
    get_first_sector_of_cluster ebpb (UInt32.ofNat c) = some (UInt32.ofNat n) := by
  unfold checked_first_sector at h
  by_cases hzero : ebpb.bytes_per_sector = 0
  · rw [if_pos hzero] at h
    cases h
  · rw [if_neg hzero] at h
    obtain ⟨entries, h₁, h⟩ := Option.bind_eq_some_iff.mp h
    obtain ⟨last, h₂, h⟩ := Option.bind_eq_some_iff.mp h
    obtain ⟨bytes, h₃, h⟩ := Option.bind_eq_some_iff.mp h
    obtain ⟨root, h₄, h⟩ := Option.bind_eq_some_iff.mp h
    obtain ⟨tables, h₅, h⟩ := Option.bind_eq_some_iff.mp h
    obtain ⟨start, h₆, h⟩ := Option.bind_eq_some_iff.mp h
    obtain ⟨first, h₇, h⟩ := Option.bind_eq_some_iff.mp h
    obtain ⟨index, h₈, h⟩ := Option.bind_eq_some_iff.mp h
    obtain ⟨product, h₉, h⟩ := Option.bind_eq_some_iff.mp h
    obtain ⟨offset, h₁₀, h⟩ := Option.bind_eq_some_iff.mp h
    -- Each step is its exact value, so the last one is the sum of all of them.
    have hpos : 0 < ebpb.bytes_per_sector.toNat := by
      rw [Nat.pos_iff_ne_zero]
      exact fun h0 => hzero (UInt16.toNat_inj.mp h0)
    have hindex : index = ((c - 2 : Nat) : Int) := by
      rw [(of_inInt h₈).1]
      omega
    have hroot : root = (((ebpb.number_of_root_dir_entries.toNat * 32 +
        (ebpb.bytes_per_sector.toNat - 1)) / ebpb.bytes_per_sector.toNat : Nat) : Int) := by
      have hlast : (ebpb.bytes_per_sector.toNat : Int) - 1 =
          ((ebpb.bytes_per_sector.toNat - 1 : Nat) : Int) := by omega
      rw [(of_inUInt32 h₄).1, (of_inInt h₃).1, (of_inInt h₁).1, (of_inInt h₂).1, hlast]
      rw [Int.natCast_ediv, Int.natCast_add, Int.natCast_mul]
      rfl
    have hn : n = (c - 2) * ebpb.sectors_per_cluster.toNat + (ebpb.reserved_sectors.toNat +
        ebpb.number_of_FAT.toNat * ebpb.sectors_per_FAT.toNat +
        (ebpb.number_of_root_dir_entries.toNat * 32 + (ebpb.bytes_per_sector.toNat - 1)) /
          ebpb.bytes_per_sector.toNat) := by
      have hsum := (of_inUInt32 h).1
      rw [(of_inUInt32 h₁₀).1, (of_inInt h₉).1, hindex, (of_inUInt32 h₇).1, (of_inUInt32 h₆).1,
        (of_inUInt32 h₅).1, hroot] at hsum
      exact_mod_cast hsum
    have hmachine : UInt32.ofNat c - 2 = UInt32.ofNat (c - 2) := (UInt32.ofNat_sub hc).symm
    unfold get_first_sector_of_cluster
    rw [if_neg hzero, hn, hmachine]
    simp only [UInt32.ofNat_add, UInt32.ofNat_mul, UInt32.ofNat_toNat]
    simp

/-! ## Section 2: The clusters of a volume -/

namespace EBPB
variable (ebpb : EBPB)

/-- The start of the data area, from the fields as they are stored. -/
def dataStart : Nat :=
  ebpb.reserved_sectors.toNat + ebpb.number_of_FAT.toNat * ebpb.sectors_per_FAT.toNat

/-- The first sector of cluster `c`. -/
def firstSector (c : Nat) : Nat := ebpb.dataStart + (c - 2) * ebpb.sectors_per_cluster.toNat

/-- The sector `x` belongs to cluster `c`. -/
def InCluster (c x : Nat) : Prop :=
  ebpb.firstSector c ≤ x ∧ x < ebpb.firstSector c + ebpb.sectors_per_cluster.toNat

/-- `c` is a cluster of a volume of `total` sectors. -/
def IsCluster (total c : Nat) : Prop :=
  2 ≤ c ∧ c < 2 + (total - ebpb.dataStart) / ebpb.sectors_per_cluster.toNat

instance (total c : Nat) : Decidable (ebpb.IsCluster total c) := inferInstanceAs (Decidable (_ ∧ _))

end EBPB

section geometry
variable {ebpb : EBPB} {total c d : Nat}

/-- Every cluster ends inside the volume. -/
theorem EBPB.IsCluster.le_total (hcluster : 1 ≤ ebpb.sectors_per_cluster.toNat)
    (hstart : ebpb.dataStart ≤ total) (hc : ebpb.IsCluster total c) :
    ebpb.firstSector c + ebpb.sectors_per_cluster.toNat ≤ total := by
  obtain ⟨h2, hlt⟩ := hc
  have hmul : (c - 2 + 1) * ebpb.sectors_per_cluster.toNat ≤ total - ebpb.dataStart := by
    rw [← Nat.le_div_iff_mul_le hcluster]
    omega
  rw [Nat.succ_mul] at hmul
  unfold EBPB.firstSector
  omega

/-- Clusters do not overlap. -/
theorem EBPB.InCluster.unique {x : Nat} (hc : 2 ≤ c) (hd : 2 ≤ d) (hx : ebpb.InCluster c x)
    (hx' : ebpb.InCluster d x) : c = d := by
  have hle : ∀ {c d}, 2 ≤ c → 2 ≤ d → ebpb.InCluster c x → ebpb.InCluster d x → c ≤ d := by
    intro c d hc hd hx hx'
    by_contra hlt
    -- The cluster behind `d` starts where `d` ends, at the latest.
    have hmul : (d - 2 + 1) * ebpb.sectors_per_cluster.toNat ≤
        (c - 2) * ebpb.sectors_per_cluster.toNat := Nat.mul_le_mul_right _ (by omega)
    rw [Nat.succ_mul] at hmul
    unfold EBPB.InCluster EBPB.firstSector at hx hx'
    omega
  exact Nat.le_antisymm (hle hc hd hx hx') (hle hd hc hx' hx)

/-- On a volume within the reach of LBA28 the computation stays in range. -/
theorem checked_first_sector_eq (hbytes : ebpb.bytes_per_sector = 512)
    (hroot : ebpb.number_of_root_dir_entries = 0) (hend : ebpb.firstSector c < 2 ^ 28)
    (hc : 2 ≤ c) (hlt : c < 2 ^ 31) :
    checked_first_sector ebpb c = some (ebpb.firstSector c : Int) := by
  have hne : (512 : UInt16) ≠ 0 := by decide
  have h512 : ((512 : UInt16).toNat : Int) = 512 := rfl
  have h0 : ((0 : UInt16).toNat : Int) = 0 := rfl
  have htables : (ebpb.number_of_FAT.toNat : Int) * ebpb.sectors_per_FAT.toNat =
      ((ebpb.number_of_FAT.toNat * ebpb.sectors_per_FAT.toNat : Nat) : Int) := by
    rw [Int.natCast_mul]
  have hproduct : ((c : Int) - 2) * ebpb.sectors_per_cluster.toNat =
      (((c - 2) * ebpb.sectors_per_cluster.toNat : Nat) : Int) := by
    rw [Int.natCast_mul, Int.natCast_sub hc]
    rfl
  unfold EBPB.firstSector EBPB.dataStart at hend ⊢
  unfold checked_first_sector
  rw [hbytes, hroot, if_neg hne, h512, h0, htables]
  generalize ebpb.number_of_FAT.toNat * ebpb.sectors_per_FAT.toNat = tables at hend
  have hentries : inInt (0 * 32) = some 0 := by decide
  have hlast : inInt (512 - 1) = some 511 := by decide
  have hbytes : inInt (0 + 511) = some 511 := by decide
  have hroot : inUInt32 (511 / 512) = some 0 := by decide
  -- No intermediate result is larger than the last one.
  apply bind_of_some hentries
  apply bind_of_some hlast
  apply bind_of_some hbytes
  apply bind_of_some hroot
  apply bind_of_some (inUInt32_eq_some (by omega))
  apply bind_of_some (inUInt32_eq_some (by omega))
  apply bind_of_some (inUInt32_eq_some (by omega))
  apply bind_of_some (inInt_eq_some (by omega))
  rw [hproduct]
  apply bind_of_some (inInt_eq_some (by omega))
  apply bind_of_some (inUInt32_eq_some (by omega))
  rw [inUInt32_eq_some (by omega)]
  apply congrArg some
  omega

end geometry

/-- **Main theorem on the cluster geometry**: on every volume that `read_ebpb`
    describes, with 512-byte sectors and fewer than `2 ^ 28` of them, the first
    sector of a cluster is computed without an overflow, the cluster lies in the
    data area and shares no sector with another one. -/
theorem cluster_geometry (disk : Disk) (s : FatState) (total : Nat)
    (hbytes : (read_ebpb disk s).ebpb.bytes_per_sector = 512)
    (hroot : (read_ebpb disk s).ebpb.number_of_root_dir_entries = 0)
    (hcluster : 1 ≤ (read_ebpb disk s).ebpb.sectors_per_cluster.toNat)
    (htotal : total < 2 ^ 28) (hstart : (read_ebpb disk s).ebpb.dataStart ≤ total) :
    let ebpb := (read_ebpb disk s).ebpb
    (∀ c, ebpb.IsCluster total c →
      checked_first_sector ebpb c = some (ebpb.firstSector c : Int) ∧
        get_first_sector_of_cluster ebpb (UInt32.ofNat c) =
          some (UInt32.ofNat (ebpb.firstSector c)) ∧
        ∀ x, ebpb.InCluster c x → ebpb.dataStart ≤ x ∧ x < total) ∧
      ∀ c d, ebpb.IsCluster total c → ebpb.IsCluster total d → c ≠ d →
        ∀ x, ¬ (ebpb.InCluster c x ∧ ebpb.InCluster d x) := by
  intro ebpb
  constructor
  · intro c hc
    have hle : ebpb.firstSector c + ebpb.sectors_per_cluster.toNat ≤ total :=
      hc.le_total hcluster hstart
    have hend : ebpb.firstSector c < 2 ^ 28 := by omega
    have hlt : c < 2 ^ 31 := by
      have hdiv := Nat.div_le_self (total - ebpb.dataStart) ebpb.sectors_per_cluster.toNat
      have := hc.2
      omega
    have hchecked := checked_first_sector_eq hbytes hroot hend hc.1 hlt
    refine ⟨hchecked, first_sector_of_checked hc.1 hchecked, ?_⟩
    intro x hx
    obtain ⟨hlo, hhi⟩ := hx
    unfold EBPB.firstSector at hlo hle hhi
    omega
  · intro c d hc hd hcd x hx
    exact hcd (hx.1.unique hc.1 hd.1 hx.2)

/-- The last cluster of a small volume is its last sector. -/
theorem cluster_geometry_helloDisk :
    let ebpb := (read_ebpb helloDisk ⟨EBPB.zero, fun _ => 0⟩).ebpb
    get_first_sector_of_cluster ebpb 65 = some 65 ∧
      ∀ x, ¬ (ebpb.InCluster 64 x ∧ ebpb.InCluster 65 x) := by
  intro ebpb
  obtain ⟨hfirst, hdisjoint⟩ := cluster_geometry helloDisk ⟨EBPB.zero, fun _ => 0⟩ 66
    (by decide) (by decide) (by decide) (by decide) (by decide)
  exact ⟨(hfirst 65 (by decide)).2.1, hdisjoint 64 65 (by decide) (by decide) (by decide)⟩

end ArgaldOS
