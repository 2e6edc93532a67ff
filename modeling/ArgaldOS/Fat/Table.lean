import ArgaldOS.Fat.Volume

/-! # Looking up the file allocation table

    `get_next_cluster` keeps the offset of an entry in a byte, and the number
    of the sector it reads in another.  So it reads the entry at one place of
    the disk (`codePlace`) while the entry is at a different one
    (`entryPlace`), except for the first 64 clusters of a volume with fewer
    than 256 reserved sectors.

    * `toNat_nextValue`: what the code returns;
    * `codePlace_eq_iff`: where the two places are the same;
    * `exists_other_table`: elsewhere, a table that the code reads wrong;
    * `get_next_cluster_right_iff`: the clusters that are looked up right.
-/

namespace ArgaldOS

/-! ## Section 1: Places -/

/-- Four bytes of the disk. -/
structure EntryPlace where
  sector : Nat
  offset : Nat
deriving Repr, DecidableEq

/-- The entry of a cluster. -/
def entryPlace (v : Volume) (c : Nat) : EntryPlace :=
  ⟨v.reservedSectors + 4 * c / 512, 4 * c % 512⟩

/-- The bytes that the code reads for it. -/
def codePlace (v : Volume) (c : Nat) : EntryPlace := ⟨v.reservedSectors % 256, 4 * c % 256⟩

/-- The number at a place, with the marks for the end of a chain as 0. -/
def valueAt (disk : Disk) (p : EntryPlace) : Nat :=
  let value := (le32 (disk p.sector) p.offset).toNat % 2 ^ 28
  if 0x0FFFFFF8 ≤ value then 0 else value

theorem codePlace_eq_iff (v : Volume) (c : Nat) :
    codePlace v c = entryPlace v c ↔ c < 64 ∧ v.reservedSectors < 256 := by
  unfold codePlace entryPlace
  rw [EntryPlace.mk.injEq]
  omega

/-- `tableValue` on numbers. -/
theorem toNat_tableValue (disk : Disk) (p : EntryPlace) :
    (tableValue (disk p.sector) p.offset).toNat = valueAt disk p := by
  have hmask : ∀ value : UInt32, (value &&& 0x0FFFFFFF).toNat = value.toNat % 2 ^ 28 :=
    fun value => Words.toNat_and_mask32 value _ 28 rfl
  unfold tableValue valueAt
  simp only [ge_iff_le, UInt32.le_iff_toNat_le, hmask, UInt32.reduceToNat]
  by_cases hend : 0x0FFFFFF8 ≤ (le32 (disk p.sector) p.offset).toNat % 2 ^ 28
  · rw [if_pos hend, if_pos hend]
    rfl
  · rw [if_neg hend, if_neg hend, hmask]

/-- The argument of the `readdisk` call for the entry. -/
def tableSector (ebpb : EBPB) (cluster : UInt32) : UInt32 :=
  (ebpb.reserved_sectors.toUInt8 + UInt8.ofNat ((cluster * 4).toUInt8.toNat / 512)).toUInt32

/-- The quotient of a byte by 512 is 0, and a byte is kept of the rest. -/
theorem toNat_tableSector (ebpb : EBPB) (cluster : UInt32) :
    (tableSector ebpb cluster).toNat = ebpb.reserved_sectors.toNat % 256 := by
  have hlt := (cluster * 4).toUInt8.toNat_lt
  have hdiv : (cluster * 4).toUInt8.toNat / 512 = 0 := by omega
  have hzero : UInt8.ofNat 0 = 0 := rfl
  unfold tableSector
  rw [hdiv, hzero, UInt8.add_zero, UInt8.toNat_toUInt32, UInt16.toNat_toUInt8]

/-- **What the code returns.** -/
theorem toNat_nextValue (disk : Disk) (cluster : UInt32) :
    (nextValue disk (decodeEBPB (disk 0)) cluster).toNat =
      valueAt disk (codePlace (volumeOf disk) cluster.toNat) := by
  have hoffset : (cluster * 4).toUInt8.toNat = 4 * cluster.toNat % 256 := by
    rw [UInt32.toNat_toUInt8, UInt32.toNat_mul]
    show cluster.toNat * 4 % 2 ^ 32 % 2 ^ 8 = _
    omega
  have hmod : 4 * cluster.toNat % 256 % 512 = 4 * cluster.toNat % 256 := by omega
  have hsector : lba28 (tableSector (decodeEBPB (disk 0)) cluster) =
      (volumeOf disk).reservedSectors % 256 := by
    have hreserved : (decodeEBPB (disk 0)).reserved_sectors.toNat =
      (volumeOf disk).reservedSectors := rfl
    unfold lba28
    rw [toNat_tableSector, hreserved]
    omega
  show (tableValue (disk (lba28 (tableSector (decodeEBPB (disk 0)) cluster)))
    ((cluster * 4).toUInt8.toNat % 512)).toNat = _
  rw [hsector, hoffset, hmod]
  exact toNat_tableValue disk (codePlace (volumeOf disk) cluster.toNat)

/-! ## Section 2: Other tables on the same volume -/

/-- The disk with another number at a place. -/
def withEntry (disk : Disk) (p : EntryPlace) (b : UInt8) : Disk :=
  Function.update disk p.sector fun i =>
    if p.offset ≤ i ∧ i < p.offset + 4 then (if i = p.offset then b else 0) else disk p.sector i

section withEntry
variable (disk : Disk) (p : EntryPlace) (b : UInt8)

theorem withEntry_outside {n i : Nat} (h : n = p.sector → i < p.offset ∨ p.offset + 4 ≤ i) :
    withEntry disk p b n i = disk n i := by
  unfold withEntry
  by_cases hn : n = p.sector
  · subst hn
    have hi := h rfl
    rw [Function.update_self, if_neg (by omega)]
  · rw [Function.update_of_ne hn]

theorem valueAt_withEntry_self (hb : b.toNat < 8) : valueAt (withEntry disk p b) p = b.toNat := by
  have hbyte : ∀ k < 4, withEntry disk p b p.sector (p.offset + k) = if k = 0 then b else 0 := by
    intro k hk
    unfold withEntry
    rw [Function.update_self, if_pos (by omega)]
    by_cases hk0 : k = 0
    · rw [if_pos hk0, if_pos (by omega)]
    · rw [if_neg hk0, if_neg (by omega)]
  have hvalue : (le32 (withEntry disk p b p.sector) p.offset).toNat = b.toNat := by
    have h0 := hbyte 0 (by omega)
    rw [Nat.add_zero] at h0
    unfold le32
    rw [hbyte 1 (by omega), hbyte 2 (by omega), hbyte 3 (by omega), h0, toNat_combine32bit]
    simp
  unfold valueAt
  rw [hvalue, Nat.mod_eq_of_lt (by omega), if_neg (by omega)]

/-- Places that do not overlap. -/
theorem valueAt_withEntry_ne {q : EntryPlace}
    (h : q.sector = p.sector → q.offset + 4 ≤ p.offset ∨ p.offset + 4 ≤ q.offset) :
    valueAt (withEntry disk p b) q = valueAt disk q := by
  have hbyte : ∀ k < 4, withEntry disk p b q.sector (q.offset + k) =
      disk q.sector (q.offset + k) := by
    intro k hk
    apply withEntry_outside
    intro hsector
    have hoffset := h hsector
    omega
  have hvalue : le32 (withEntry disk p b q.sector) q.offset = le32 (disk q.sector) q.offset := by
    have h0 := hbyte 0 (by omega)
    rw [Nat.add_zero] at h0
    unfold le32
    rw [h0, hbyte 1 (by omega), hbyte 2 (by omega), hbyte 3 (by omega)]
  unfold valueAt
  rw [hvalue]

/-- The boot sector, if the place is not in its first 256 bytes. -/
theorem volumeOf_withEntry (h : p.sector = 0 → 256 ≤ p.offset) :
    volumeOf (withEntry disk p b) = volumeOf disk := by
  have hbyte : ∀ i < 256, withEntry disk p b 0 i = disk 0 i := by
    intro i hi
    apply withEntry_outside
    intro hsector
    have hoffset := h hsector.symm
    omega
  unfold volumeOf Volume.ofBoot le32 le16
  simp [hbyte]

end withEntry

/-- Where the two places differ, the entry can be anything, whatever the code
    reads. -/
theorem exists_other_table (disk : Disk) {c : Nat}
    (hne : codePlace (volumeOf disk) c ≠ entryPlace (volumeOf disk) c) :
    ∃ disk', volumeOf disk' = volumeOf disk ∧
      valueAt disk' (codePlace (volumeOf disk) c) ≠ valueAt disk' (entryPlace (volumeOf disk) c) := by
  rw [Ne, codePlace_eq_iff] at hne
  let p := entryPlace (volumeOf disk) c
  let q := codePlace (volumeOf disk) c
  have hsector : p.sector = (volumeOf disk).reservedSectors + 4 * c / 512 := rfl
  have hoffset : p.offset = 4 * c % 512 := rfl
  have hsector' : q.sector = (volumeOf disk).reservedSectors % 256 := rfl
  have hoffset' : q.offset = 4 * c % 256 := rfl
  -- Entries do not overlap, and the sectors of the parameters are not among them.
  have hpq : q.sector = p.sector → q.offset + 4 ≤ p.offset ∨ p.offset + 4 ≤ q.offset := by omega
  have hboot : p.sector = 0 → 256 ≤ p.offset := by omega
  by_cases hone : valueAt disk q = 1
  · refine ⟨withEntry disk p 2, volumeOf_withEntry disk p 2 hboot, ?_⟩
    show valueAt _ q ≠ valueAt _ p
    rw [valueAt_withEntry_ne disk p 2 hpq, valueAt_withEntry_self disk p 2 (by simp), hone]
    decide
  · refine ⟨withEntry disk p 1, volumeOf_withEntry disk p 1 hboot, ?_⟩
    show valueAt _ q ≠ valueAt _ p
    rw [valueAt_withEntry_ne disk p 1 hpq, valueAt_withEntry_self disk p 1 (by simp)]
    exact hone

/-! ## Section 3: Lookups -/

/-- The lookup of a cluster is right: the low 28 bits of its entry, or 0 at the
    end of a chain. -/
def LooksUpEntry (disk : Disk) (s : FatState) (cluster : UInt32) : Prop :=
  (get_next_cluster disk cluster (read_ebpb disk s)).map (·.1.toNat) =
    some (if 0x0FFFFFF8 ≤ tableEntry disk cluster.toNat then 0
      else tableEntry disk cluster.toNat)

theorem looksUpEntry_iff (disk : Disk) (s : FatState) (cluster : UInt32) :
    LooksUpEntry disk s cluster ↔
      valueAt disk (codePlace (volumeOf disk) cluster.toNat) =
        valueAt disk (entryPlace (volumeOf disk) cluster.toNat) := by
  have hebpb : (read_ebpb disk s).ebpb = decodeEBPB (disk 0) := rfl
  obtain ⟨s', hnext, -⟩ := get_next_cluster_eq disk (read_ebpb disk s) cluster
  unfold LooksUpEntry
  rw [hnext, hebpb, Option.map_some, toNat_nextValue, Option.some_inj]
  rfl

/-- **Main theorem on table lookups.**  A lookup is right exactly if the bytes
    that the code reads hold what the entry holds.  On a volume whose tables may
    hold anything that is the case for the first 64 clusters, if fewer than 256
    sectors are reserved, and for no others. -/
theorem get_next_cluster_right_iff (disk : Disk) (s : FatState) (cluster : UInt32) :
    (LooksUpEntry disk s cluster ↔
      (cluster.toNat < 64 ∧ (volumeOf disk).reservedSectors < 256) ∨
        valueAt disk (codePlace (volumeOf disk) cluster.toNat) =
          valueAt disk (entryPlace (volumeOf disk) cluster.toNat)) ∧
      ((∀ disk', volumeOf disk' = volumeOf disk → LooksUpEntry disk' s cluster) ↔
        cluster.toNat < 64 ∧ (volumeOf disk).reservedSectors < 256) := by
  have hsame : cluster.toNat < 64 ∧ (volumeOf disk).reservedSectors < 256 → ∀ disk',
      valueAt disk' (codePlace (volumeOf disk) cluster.toNat) =
        valueAt disk' (entryPlace (volumeOf disk) cluster.toNat) := by
    intro h disk'
    rw [(codePlace_eq_iff _ _).mpr h]
  constructor
  · rw [looksUpEntry_iff]
    constructor
    · intro h
      exact Or.inr h
    · intro h
      rcases h with hlow | hvalue
      · exact hsame hlow disk
      · exact hvalue
  · constructor
    · intro h
      by_contra hfar
      obtain ⟨disk', hvolume, hvalue⟩ :=
        exists_other_table disk (mt (codePlace_eq_iff _ _).mp hfar)
      apply hvalue
      rw [← hvolume]
      exact (looksUpEntry_iff disk' s cluster).mp (h disk' hvolume)
    · intro h disk' hvolume
      rw [looksUpEntry_iff, hvolume]
      exact hsame h disk'

/-- A file that goes on from cluster 64 to cluster 65. -/
def cluster64Disk : Disk := Function.update helloDisk 1 (sectorOf [(256, 65)])

/-- For cluster 64 the code reads the entry of cluster 0, which says that the
    chain ends. -/
theorem get_next_cluster_cluster64 :
    (volumeOf cluster64Disk).Valid ∧ (volumeOf cluster64Disk).IsCluster 64 ∧
      tableEntry cluster64Disk 64 = 65 ∧
      (get_next_cluster cluster64Disk 64 (read_ebpb cluster64Disk ⟨EBPB.zero, fun _ => 0⟩)).map
        (·.1) = some 0 ∧
      ¬ LooksUpEntry cluster64Disk ⟨EBPB.zero, fun _ => 0⟩ 64 := by
  have hentry : tableEntry cluster64Disk 64 = 65 := by decide +kernel
  have hnext : (get_next_cluster cluster64Disk 64
      (read_ebpb cluster64Disk ⟨EBPB.zero, fun _ => 0⟩)).map (·.1) = some 0 := by
    decide +kernel
  refine ⟨by decide +kernel, by decide +kernel, hentry, hnext, ?_⟩
  unfold LooksUpEntry
  decide +kernel

end ArgaldOS
