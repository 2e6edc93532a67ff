import ArgaldOS.Fat.Directory
import ArgaldOS.Fat.Stored
import ArgaldOS.Fat.Table
import Mathlib.Data.Int.ModEq

/-! # File contents

    When a call of `read_file` stores a file of a valid volume.  The code keeps
    16 bits of the table size and of the first cluster, 8 bits of the offset in
    the table and of its sector number, and reads one sector of each cluster.

    * `storesFile_iff_readsSectors`: a call stores a file, whatever is in the
      data area, exactly if the sectors it reads are those of the file;
    * `readsSectors_of_withinReach`: they are on small volumes;
    * `leavesBuffer_iff`: an empty file that is found is never left alone;
    * `read_file_contents`: the three together.
-/

namespace ArgaldOS

open Chains

/-! ## Section 1: Where the code looks -/

/-- The number of the sector that is read for a cluster. -/
def codeSector (ebpb : EBPB) (cluster : UInt32) : Nat :=
  lba28 ((get_first_sector_of_cluster ebpb cluster).getD 0)

theorem clusterSector_eq (disk : Disk) (ebpb : EBPB) (cluster : UInt32) :
    clusterSector disk ebpb cluster = disk (codeSector ebpb cluster) := rfl

/-- The number of the sector that is read for the root directory. -/
def codeRootSector (disk : Disk) : Nat :=
  codeSector (decodeEBPB (disk 0)) (decodeEBPB (disk 0)).cluster_number_of_root_directory

/-- The start of the data area, as the code computes it. -/
def codeDataStart (v : Volume) : Nat :=
  v.reservedSectors + v.numberOfTables * (v.sectorsPerTable % 65536)

section geometry
variable {disk : Disk}

theorem bytes_per_sector_ne_zero (hv : (volumeOf disk).Valid) :
    (decodeEBPB (disk 0)).bytes_per_sector ≠ 0 := by
  intro hz
  have hbytes := hv.bytes
  have hzero : (volumeOf disk).bytesPerSector = 0 := congrArg UInt16.toNat hz
  omega

theorem codeDataStart_le (v : Volume) : codeDataStart v ≤ v.dataStart :=
  Nat.add_le_add_left (Nat.mul_le_mul_left _ (Nat.mod_le _ _)) _

/-- The sector of a cluster, with the wraps of the code. -/
theorem codeSector_eq_mod (hv : (volumeOf disk).Valid) (cluster : UInt32) :
    codeSector (decodeEBPB (disk 0)) cluster =
      (codeDataStart (volumeOf disk) +
        (cluster - 2).toNat * (volumeOf disk).sectorsPerCluster) % 2 ^ 28 := by
  have htable : (decodeEBPB (disk 0)).sectors_per_FAT.toNat =
      (volumeOf disk).sectorsPerTable % 65536 := by
    have hle32 := toNat_le32 (disk 0) 0x24
    have hle16 := (le16 (disk 0) 0x24).toNat_lt
    show (le16 (disk 0) 0x24).toUInt32.toNat = (le32 (disk 0) 0x24).toNat % 65536
    rw [UInt16.toNat_toUInt32]
    omega
  have hroot : (decodeEBPB (disk 0)).number_of_root_dir_entries.toNat = 0 := hv.noEntries
  have hbytes : (decodeEBPB (disk 0)).bytes_per_sector.toNat = 512 := hv.bytes
  have hreserved : (decodeEBPB (disk 0)).reserved_sectors.toNat =
      (volumeOf disk).reservedSectors := rfl
  have htables : (decodeEBPB (disk 0)).number_of_FAT.toNat = (volumeOf disk).numberOfTables := rfl
  have hcluster : (decodeEBPB (disk 0)).sectors_per_cluster.toNat =
      (volumeOf disk).sectorsPerCluster := rfl
  unfold codeSector get_first_sector_of_cluster codeDataStart lba28
  rw [if_neg (bytes_per_sector_ne_zero hv)]
  simp only [Option.getD_some, UInt32.toNat_add, UInt32.toNat_mul, UInt16.toNat_toUInt32,
    UInt8.toNat_toUInt32, hroot, hbytes, hreserved, htables, hcluster, htable]
  generalize (volumeOf disk).numberOfTables * ((volumeOf disk).sectorsPerTable % 65536) = tables
  generalize (cluster - 2).toNat * (volumeOf disk).sectorsPerCluster = clusters
  simp only [UInt32.toNat_ofNat']
  omega

theorem spc_pos (hv : (volumeOf disk).Valid) : 0 < (volumeOf disk).sectorsPerCluster :=
  Nat.pos_of_dvd_of_pos hv.cluster (by decide)

/-- The sectors of a cluster are on the volume. -/
theorem sectorOfCluster_lt (hv : (volumeOf disk).Valid) {c i : Nat}
    (hc : (volumeOf disk).IsCluster c) (hi : i < (volumeOf disk).sectorsPerCluster) :
    (volumeOf disk).sectorOfCluster c i < (volumeOf disk).totalSectors := by
  obtain ⟨hlo, hhi⟩ := hc
  have hpos := spc_pos hv
  unfold Volume.clusterCount at hhi
  have hle : c - 2 + 1 ≤ ((volumeOf disk).totalSectors - (volumeOf disk).dataStart) /
      (volumeOf disk).sectorsPerCluster := by omega
  have hmul := (Nat.le_div_iff_mul_le hpos).mp hle
  rw [Nat.succ_mul] at hmul
  unfold Volume.sectorOfCluster
  omega

/-- The sector of a cluster of the volume, without wraps. -/
theorem codeSector_eq (hv : (volumeOf disk).Valid) {cluster : UInt32}
    (hc : (volumeOf disk).IsCluster cluster.toNat) :
    codeSector (decodeEBPB (disk 0)) cluster = codeDataStart (volumeOf disk) +
      (cluster.toNat - 2) * (volumeOf disk).sectorsPerCluster := by
  have hlt := sectorOfCluster_lt hv hc (spc_pos hv)
  have haddr := hv.addressable
  have hstart := codeDataStart_le (volumeOf disk)
  -- A cluster of the volume has a number of at least 2, and its sector 28 bits.
  have htwo : (cluster - 2).toNat = cluster.toNat - 2 := by
    have hle : (2 : UInt32) ≤ cluster := UInt32.le_iff_toNat_le.mpr hc.1
    rw [UInt32.toNat_sub_of_le _ _ hle]
    rfl
  unfold Volume.sectorOfCluster at hlt
  rw [codeSector_eq_mod hv, htwo, Nat.mod_eq_of_lt (by omega)]

theorem codeRootSector_eq (hv : (volumeOf disk).Valid) :
    codeRootSector disk = codeDataStart (volumeOf disk) +
      ((volumeOf disk).rootCluster - 2) * (volumeOf disk).sectorsPerCluster :=
  codeSector_eq hv hv.root

/-- With a table of fewer than 65536 sectors the data area is where it should be. -/
theorem codeDataStart_eq {v : Volume} (h : v.sectorsPerTable < 65536) :
    codeDataStart v = v.dataStart := by
  unfold codeDataStart Volume.dataStart
  rw [Nat.mod_eq_of_lt h]

theorem foundEntry_of_valid (hv : (volumeOf disk).Valid) (filename : CString) :
    foundEntry disk filename =
      (parse_directory_sector (some (disk (codeRootSector disk)))).find? fun entry =>
        strcmp filename (trim entry.dir_name) := by
  have hsome := get_first_sector_isSome (bytes_per_sector_ne_zero hv)
    (decodeEBPB (disk 0)).cluster_number_of_root_directory
  unfold foundEntry rootSector codeRootSector codeSector
  generalize (get_first_sector_of_cluster (decodeEBPB (disk 0))
    (decodeEBPB (disk 0)).cluster_number_of_root_directory).getD 0 = sector at hsome
  simp only [hsome, Option.map_some, Option.bind_some]

end geometry

/-! ## Section 2: Volumes with the same metadata -/

/-- The same reserved sectors, tables and root directory sector; the rest of the
    data area may differ. -/
def SameMetadata (disk disk' : Disk) : Prop :=
  ∀ n, n < (volumeOf disk).dataStart ∨ n = (volumeOf disk).rootSector → disk' n = disk n

theorem sameMetadata_refl (disk : Disk) : SameMetadata disk disk := fun _ _ => rfl

theorem sameMetadata_update {disk : Disk} {n : Nat} (hdata : (volumeOf disk).dataStart ≤ n)
    (hroot : n ≠ (volumeOf disk).rootSector) (sector : Sector) :
    SameMetadata disk (Function.update disk n sector) := by
  intro m hm
  exact Function.update_of_ne (by omega) _ _

section same
variable {disk disk' : Disk}

theorem SameMetadata.boot (h : SameMetadata disk disk') (hv : (volumeOf disk).Valid) :
    disk' 0 = disk 0 := by
  have hpos := hv.reserved
  exact h 0 (Or.inl (by unfold Volume.dataStart; omega))

theorem SameMetadata.volume (h : SameMetadata disk disk') (hv : (volumeOf disk).Valid) :
    volumeOf disk' = volumeOf disk := by
  unfold volumeOf
  rw [h.boot hv]

theorem SameMetadata.codeRoot_eq (h : SameMetadata disk disk') (hv : (volumeOf disk).Valid) :
    codeRootSector disk' = codeRootSector disk := by
  unfold codeRootSector
  rw [h.boot hv]

/-- The code looks tables up in a sector before the data area. -/
theorem SameMetadata.nextCluster_eq (h : SameMetadata disk disk') (hv : (volumeOf disk).Valid) :
    nextCluster disk' (decodeEBPB (disk 0)) = nextCluster disk (decodeEBPB (disk 0)) := by
  have hsector (cluster : UInt32) : lba28 ((decodeEBPB (disk 0)).reserved_sectors.toUInt8 +
      UInt8.ofNat ((cluster * 4).toUInt8.toNat / 512)).toUInt32 < (volumeOf disk).dataStart := by
    have hbyte := (cluster * 4).toUInt8.toNat_lt
    -- The sector is a byte, computed from the number of reserved sectors alone.
    have hdiv : (cluster * 4).toUInt8.toNat / 512 = 0 := by omega
    have hzero : UInt8.ofNat 0 = 0 := rfl
    have hreserved : (decodeEBPB (disk 0)).reserved_sectors.toNat =
      (volumeOf disk).reservedSectors := rfl
    have hpos := hv.tables
    have hsize := hv.tableSize
    have htables := Nat.mul_pos hpos (show 0 < (volumeOf disk).sectorsPerTable by omega)
    unfold lba28 Volume.dataStart
    rw [hdiv, hzero, UInt8.add_zero, UInt8.toNat_toUInt32, UInt16.toNat_toUInt8, hreserved]
    omega
  funext cluster
  unfold nextCluster nextValue
  rw [h _ (Or.inl (hsector cluster))]

/-- The entry that the code finds is the same if the directory sector is. -/
theorem SameMetadata.foundEntry_eq (h : SameMetadata disk disk') (hv : (volumeOf disk).Valid)
    (hroot : disk' (codeRootSector disk) = disk (codeRootSector disk)) (filename : CString) :
    foundEntry disk' filename = foundEntry disk filename := by
  rw [foundEntry_of_valid hv, foundEntry_of_valid (by rw [h.volume hv]; exact hv),
    h.codeRoot_eq hv, hroot]

end same

/-! ## Section 3: A call stores a file -/

/-- The code reads the sectors of a file.  It takes the root directory from a
    sector that the contents of files do not change, it finds an entry there, and
    the sectors along the chain that it follows are, in order, those of the file. -/
structure ReadsSectors (disk : Disk) (filename : CString) (clusters : List Nat) : Prop where
  root    : codeRootSector disk < (volumeOf disk).dataStart ∨
    codeRootSector disk = (volumeOf disk).rootSector
  follows : ∃ entry visited, foundEntry disk filename = some entry ∧
    Visits (nextCluster disk (decodeEBPB (disk 0))) entry.dir_first_cluster_low.toUInt32 visited ∧
    fileSectors (volumeOf disk) clusters <+: visited.map (codeSector (decodeEBPB (disk 0)))

/-- The sectors of a file hold neither metadata nor the root directory. -/
theorem fileSector_data {disk : Disk} (hv : (volumeOf disk).Valid) {first : Nat}
    {clusters : List Nat} (hchain : FileChain disk first clusters) {n : Nat}
    (hn : n ∈ fileSectors (volumeOf disk) clusters) :
    (volumeOf disk).dataStart ≤ n ∧ n ≠ (volumeOf disk).rootSector := by
  obtain ⟨c, hc, hi⟩ := List.mem_flatMap.mp hn
  obtain ⟨i, hrange, rfl⟩ := List.mem_map.mp hi
  have hispc := List.mem_range.mp hrange
  have hpos := spc_pos hv
  obtain ⟨hlo, -⟩ := hchain.in_range c hc
  obtain ⟨hroot, -⟩ := hv.root
  unfold Volume.rootSector Volume.sectorOfCluster
  refine ⟨by omega, fun heq => hchain.not_root ?_⟩
  -- The clusters of two equal sectors are equal.
  have hsame : (c - 2) * (volumeOf disk).sectorsPerCluster + i =
      ((volumeOf disk).rootCluster - 2) * (volumeOf disk).sectorsPerCluster := by omega
  have hdiv := congrArg (· / (volumeOf disk).sectorsPerCluster) hsame
  simp only [Nat.mul_comm _ (volumeOf disk).sectorsPerCluster, Nat.mul_add_div hpos,
    Nat.div_eq_of_lt hispc, Nat.mul_div_cancel_left _ hpos] at hdiv
  have hcr : c = (volumeOf disk).rootCluster := by omega
  exact hcr ▸ hc

theorem begins_iff_forall {α : Type} {l₁ l₂ : List α} :
    l₁ <+: l₂ ↔ ∀ (m : Nat) (a : α), l₁[m]? = some a → l₂[m]? = some a := by
  rw [List.prefix_iff_getElem?]
  constructor
  · intro h m a hm
    obtain ⟨hlt, rfl⟩ := List.getElem?_eq_some_iff.mp hm
    exact h m hlt
  · intro h m hm
    exact h m l₁[m] (List.getElem?_eq_getElem hm)

/-- The contents of the sectors that the code reads do not matter. -/
theorem storesFile_of_readsSectors {disk disk' : Disk} (hv : (volumeOf disk).Valid)
    (hsame : SameMetadata disk disk') {filename : CString} {clusters : List Nat}
    (h : ReadsSectors disk filename clusters) (size : Int32) (s : FatState) :
    StoresFile disk' filename size s clusters := by
  obtain ⟨entry, visited, hentry, hvisits, hbegins⟩ := h.follows
  refine (storesFile_iff disk' filename size s clusters).mpr ⟨entry, visited, ?_, ?_, ?_⟩
  · rw [hsame.foundEntry_eq hv (hsame _ h.root)]
    exact hentry
  · rw [hsame.boot hv, hsame.nextCluster_eq hv]
    exact hvisits
  · intro m n hm
    rw [hsame.volume hv] at hm
    -- Sector `m` of the file is the one read for cluster `m` of the chain.
    have hcode := begins_iff_forall.mp hbegins m n hm
    rw [List.getElem?_map, Option.map_eq_some_iff] at hcode
    obtain ⟨c, hc, rfl⟩ := hcode
    refine ⟨c, hc, ?_⟩
    intro j _
    rw [hsame.boot hv, clusterSector_eq]

/-- **A call stores a file exactly if the code reads its sectors**, over all
    contents of the data area. -/
theorem storesFile_iff_readsSectors {disk : Disk} (hv : (volumeOf disk).Valid) {first : Nat}
    {clusters : List Nat} (hchain : FileChain disk first clusters) (filename : CString)
    (size : Int32) (s : FatState) :
    (∀ disk', SameMetadata disk disk' → StoresFile disk' filename size s clusters) ↔
      ReadsSectors disk filename clusters := by
  refine ⟨fun h => ?_, fun h disk' hsame => storesFile_of_readsSectors hv hsame h size s⟩
  have hroot : codeRootSector disk < (volumeOf disk).dataStart ∨
      codeRootSector disk = (volumeOf disk).rootSector := by
    by_contra hno
    -- With an empty sector there, the code finds nothing.
    generalize hdisk : Function.update disk (codeRootSector disk) (fun _ => 0) = disk'
    have hsame : SameMetadata disk disk' := hdisk ▸ sameMetadata_update (by omega) (by omega) _
    obtain ⟨entry, -, hentry, -⟩ := (storesFile_iff _ filename size s clusters).mp (h _ hsame)
    rw [foundEntry_of_valid (by rw [hsame.volume hv]; exact hv), hsame.codeRoot_eq hv, ← hdisk,
      Function.update_self] at hentry
    exact absurd hentry (by simp [parse_directory_sector, Listed, DIR_ENTRY_UNUSED])
  refine ⟨hroot, ?_⟩
  -- The chain that is followed on the disk itself is the one that is wanted.
  obtain ⟨entry, visited, hentry, hvisits, hholds⟩ :=
    (storesFile_iff disk filename size s clusters).mp (h disk (sameMetadata_refl disk))
  refine ⟨entry, visited, hentry, hvisits, begins_iff_forall.mpr fun m n hm => ?_⟩
  obtain ⟨c, hc, -⟩ := hholds m n hm
  rw [List.getElem?_map, hc, Option.map_some]
  apply congrArg some
  by_contra hne
  -- Otherwise the sector of the file can be changed without the code noticing.
  obtain ⟨hdata, hnroot⟩ := fileSector_data hv hchain (List.mem_of_getElem? hm)
  generalize hdisk : Function.update disk n (fun j =>
    disk (codeSector (decodeEBPB (disk 0)) c) j + 1) = disk'
  have hsame : SameMetadata disk disk' := hdisk ▸ sameMetadata_update hdata hnroot _
  obtain ⟨entry', visited', hentry', hvisits', hholds'⟩ :=
    (storesFile_iff disk' filename size s clusters).mp (h disk' hsame)
  rw [hsame.foundEntry_eq hv (hsame _ hroot), hentry] at hentry'
  obtain rfl := Option.some.inj hentry'
  rw [hsame.boot hv, hsame.nextCluster_eq hv] at hvisits'
  obtain rfl := visits_unique hvisits hvisits'
  obtain ⟨c', hc', hbytes⟩ := hholds' m n (by rw [hsame.volume hv]; exact hm)
  obtain rfl := Option.some.inj (hc.symm.trans hc')
  have hbyte := hbytes 0 (by simp)
  rw [hsame.boot hv, clusterSector_eq, ← hdisk, Function.update_of_ne hne, Function.update_self]
    at hbyte
  exact absurd hbyte (by simp)

/-! ## Section 4: Small volumes -/

/-- What the widths and the loop of the code reach: clusters of one sector, fewer
    than 256 reserved sectors, tables of fewer than 65536, a chain below cluster
    64, and no listed entry of the same name before the file's. -/
structure WithinReach (disk : Disk) (filename : CString) (slot : Nat) (clusters : List Nat) :
    Prop where
  one_sector   : (volumeOf disk).sectorsPerCluster = 1
  few_reserved : (volumeOf disk).reservedSectors < 256
  small_table  : (volumeOf disk).sectorsPerTable < 65536
  low_clusters : ∀ c ∈ clusters, c < 64
  first_match  : ∀ j < slot, Listed (rootDirectory disk) j →
    trim (dirEntry (rootDirectory disk) j).dir_name ≠ filename

theorem codeRootSector_of_small {disk : Disk} (hv : (volumeOf disk).Valid)
    (h : (volumeOf disk).sectorsPerTable < 65536) :
    codeRootSector disk = (volumeOf disk).rootSector := by
  rw [codeRootSector_eq hv, codeDataStart_eq h]
  rfl

/-- The first listed slot that satisfies a test. -/
theorem find?_parse_directory_sector (directory : Sector) (p : DIR_ENTRY → Bool) :
    (parse_directory_sector (some directory)).find? p =
      ((List.range 16).find? fun i => decide (Listed directory i) && p (dirEntry directory i)).map
        (dirEntry directory) := by
  rw [parse_directory_sector_eq, List.find?_map]
  unfold listedSlots
  rw [List.find?_filter]
  simp

/-- The slot of a file is listed, under its name. -/
theorem RegularFile.listed {directory : Sector} {slots : Nat} {filename : CString} {slot : Nat}
    (h : RegularFile directory slots filename slot) :
    Listed directory slot ∧ trim (dirEntry directory slot).dir_name = filename := by
  refine ⟨⟨h.before_end slot (Nat.le_refl _), fun hattr => ?_⟩, ?_⟩
  · have hfile := h.file
    rw [hattr] at hfile
    exact absurd hfile (by decide)
  · have hname : (dirEntry directory slot).dir_name =
        (List.range 8).map fun k => directory (slot * 32 + k) := by
      show ((List.range 8).map fun k => directory (slot * 32 + k)).takeWhile (· ≠ 0) = _
      rw [List.takeWhile_eq_self_iff]
      intro c hc
      obtain ⟨k, hk, rfl⟩ := List.mem_map.mp hc
      simpa using h.chars k (List.mem_range.mp hk)
    rw [hname]
    exact h.name

/-- Below 64, the low half of the first cluster is the first cluster. -/
theorem dir_first_cluster_low_eq {directory : Sector} {slot : Nat}
    (h : firstCluster directory slot < 64) :
    (dirEntry directory slot).dir_first_cluster_low.toUInt32 =
      UInt32.ofNat (firstCluster directory slot) := by
  unfold firstCluster at h ⊢
  have hvalue := toNat_le16 directory (slot * 32 + 0x1A)
  -- The low byte is small, so that its sign does not matter.
  have hlow : (directory (slot * 32 + 0x1A)).toNat < 128 := by omega
  have hword : (dirEntry directory slot).dir_first_cluster_low.toNat =
      (directory (slot * 32 + 0x1B)).toNat * 2 ^ 8 + (directory (slot * 32 + 0x1A)).toNat := by
    show (charWord (directory (slot * 32 + 0x1B)) (directory (slot * 32 + 0x1A))).toNat = _
    rw [toNat_charWord, if_pos hlow]
  apply UInt32.toNat_inj.mp
  rw [UInt16.toNat_toUInt32, hword, UInt32.toNat_ofNat']
  have hnext : directory (slot * 32 + 0x1A + 1) = directory (slot * 32 + 0x1B) := rfl
  rw [hnext] at hvalue
  omega

/-- Below cluster 64 the code looks an entry up where it is. -/
theorem nextCluster_eq_clusterAfter {disk : Disk} (h : (volumeOf disk).reservedSectors < 256)
    {c : Nat} (hc : c < 64) :
    nextCluster disk (decodeEBPB (disk 0)) (UInt32.ofNat c) =
      (clusterAfter disk c).bind fun d => if d = 0 then none else some (UInt32.ofNat d) := by
  have hnat : (UInt32.ofNat c).toNat = c := by
    rw [UInt32.toNat_ofNat']
    omega
  have hvalue : (nextValue disk (decodeEBPB (disk 0)) (UInt32.ofNat c)).toNat =
      if 0x0FFFFFF8 ≤ tableEntry disk c then 0 else tableEntry disk c := by
    rw [toNat_nextValue, hnat, (codePlace_eq_iff _ _).mpr ⟨hc, h⟩]
    rfl
  unfold nextCluster clusterAfter
  generalize nextValue disk (decodeEBPB (disk 0)) (UInt32.ofNat c) = value at hvalue
  have hzero : value = 0 ↔ value.toNat = 0 := by
    rw [← UInt32.toNat_inj]
    rfl
  by_cases hlast : 0x0FFFFFF8 ≤ tableEntry disk c
  · rw [if_pos hlast] at hvalue ⊢
    rw [if_pos (hzero.mpr hvalue)]
    rfl
  · rw [if_neg hlast] at hvalue ⊢
    rw [Option.bind_some, ← hvalue, UInt32.ofNat_toNat]
    simp only [hzero]

/-- The code follows a chain below cluster 64 as it is. -/
theorem visits_code {disk : Disk} (h : (volumeOf disk).reservedSectors < 256) {c : Nat}
    {clusters : List Nat} (hvisits : Visits (clusterAfter disk) c clusters)
    (hrange : ∀ d ∈ clusters, 2 ≤ d ∧ d < 64) :
    Visits (nextCluster disk (decodeEBPB (disk 0))) (UInt32.ofNat c)
      (clusters.map UInt32.ofNat) := by
  induction clusters generalizing c with
  | nil => exact absurd hvisits id
  | cons d ds ih =>
    obtain ⟨rfl, hrest⟩ := hvisits
    have hnext := nextCluster_eq_clusterAfter h (hrange d List.mem_cons_self).2
    cases hn : clusterAfter disk d with
    | none =>
      rw [hn] at hnext hrest
      subst hrest
      exact visits_end hnext
    | some e =>
      rw [hn] at hnext hrest
      have htail := ih hrest fun x hx => hrange x (List.mem_cons_of_mem _ hx)
      have he : e ∈ ds := mem_of_visits hrest
      have hne : e ≠ 0 := by
        have := (hrange e (List.mem_cons_of_mem _ he)).1
        omega
      rw [Option.bind_some, if_neg hne] at hnext
      exact visits_cons hnext htail

/-- **On a small volume the code reads the sectors of the file.** -/
theorem readsSectors_of_withinReach {disk : Disk} (hv : (volumeOf disk).Valid)
    {filename : CString} {slot : Nat} {clusters : List Nat}
    (hfile : RegularFile (rootDirectory disk) 16 filename slot)
    (hchain : FileChain disk (firstCluster (rootDirectory disk) slot) clusters)
    (h : WithinReach disk filename slot clusters) : ReadsSectors disk filename clusters := by
  have hroot := codeRootSector_of_small hv h.small_table
  refine ⟨Or.inr hroot, dirEntry (rootDirectory disk) slot, clusters.map UInt32.ofNat, ?_, ?_, ?_⟩
  · obtain ⟨hlisted, hname⟩ := hfile.listed
    have hfind : ((List.range 16).find? fun i => decide (Listed (rootDirectory disk) i) &&
        strcmp filename (trim (dirEntry (rootDirectory disk) i).dir_name)) = some slot := by
      rw [List.find?_range_eq_some]
      refine ⟨?_, List.mem_range.mpr hfile.slot_lt, fun j hj => ?_⟩
      · rw [decide_eq_true hlisted, Bool.true_and, strcmp_iff]
        exact hname.symm
      · by_cases hl : Listed (rootDirectory disk) j
        · have hno : strcmp filename (trim (dirEntry (rootDirectory disk) j).dir_name) = false := by
            rw [← Bool.not_eq_true, strcmp_iff]
            exact fun heq => h.first_match j hj hl heq.symm
          rw [hno, Bool.and_false]
          rfl
        · rw [decide_eq_false hl]
          rfl
    rw [foundEntry_of_valid hv, hroot, find?_parse_directory_sector]
    exact congrArg (Option.map _) hfind
  · have hfirst : firstCluster (rootDirectory disk) slot < 64 :=
      h.low_clusters _ (mem_of_visits hchain.visits)
    rw [dir_first_cluster_low_eq hfirst]
    exact visits_code h.few_reserved hchain.visits fun c hc =>
      ⟨(hchain.in_range c hc).1, h.low_clusters c hc⟩
  · have hsectors : fileSectors (volumeOf disk) clusters =
        (clusters.map UInt32.ofNat).map (codeSector (decodeEBPB (disk 0))) := by
      unfold fileSectors
      rw [h.one_sector, List.map_map, List.range_one]
      show (clusters.flatMap fun c => [(volumeOf disk).sectorOfCluster c 0]) = _
      rw [← List.map_eq_flatMap]
      refine List.map_congr_left fun c hc => ?_
      have hlow := h.low_clusters c hc
      have hnat : (UInt32.ofNat c).toNat = c := by
        rw [UInt32.toNat_ofNat']
        omega
      have hcluster : (volumeOf disk).IsCluster (UInt32.ofNat c).toNat := by
        rw [hnat]
        exact hchain.in_range c hc
      show _ = codeSector (decodeEBPB (disk 0)) (UInt32.ofNat c)
      rw [codeSector_eq hv hcluster, hnat, codeDataStart_eq h.small_table]
      rfl
    rw [hsectors]

/-- The code reads the sectors of a file only if a cluster is one sector: the
    sectors that it reads start clusters. -/
theorem ReadsSectors.one_sector {disk : Disk} (hv : (volumeOf disk).Valid) {filename : CString}
    {first : Nat} {clusters : List Nat} (hchain : FileChain disk first clusters)
    (h : ReadsSectors disk filename clusters) : (volumeOf disk).sectorsPerCluster = 1 := by
  obtain ⟨entry, visited, -, -, hbegins⟩ := h.follows
  have hpos := spc_pos hv
  -- All sectors that the code reads leave the same remainder.
  have hmod (n : Nat) (hn : n ∈ fileSectors (volumeOf disk) clusters) :
      n ≡ codeDataStart (volumeOf disk) [MOD (volumeOf disk).sectorsPerCluster] := by
    obtain ⟨c, -, rfl⟩ := List.mem_map.mp (hbegins.subset hn)
    rw [codeSector_eq_mod hv]
    have hpow : (volumeOf disk).sectorsPerCluster ∣ 2 ^ 28 := hv.cluster.trans (by simp)
    apply ((Nat.mod_modEq _ _).of_dvd hpow).trans
    unfold Nat.ModEq
    rw [Nat.add_mul_mod_self_right]
  have hmem (i : Nat) (hi : i < (volumeOf disk).sectorsPerCluster) :
      (volumeOf disk).sectorOfCluster first i ∈ fileSectors (volumeOf disk) clusters :=
    List.mem_flatMap.mpr ⟨first, mem_of_visits hchain.visits,
      List.mem_map.mpr ⟨i, List.mem_range.mpr hi, rfl⟩⟩
  by_contra hne
  have hzero := hmod _ (hmem 0 hpos)
  have hone := hmod _ (hmem 1 (by omega))
  have hsame : (volumeOf disk).sectorOfCluster first 0 ≡
      (volumeOf disk).sectorOfCluster first 0 + 1 [MOD (volumeOf disk).sectorsPerCluster] :=
    hzero.trans hone.symm
  have hdvd := (Nat.modEq_iff_dvd' (Nat.le_succ _)).mp hsame
  rw [Nat.succ_eq_add_one, Nat.add_sub_cancel_left] at hdvd
  exact hne (Nat.dvd_one.mp hdvd)

/-! ## Section 5: Empty files -/

/-- A call leaves the caller's buffer as it was. -/
def LeavesBuffer (disk : Disk) (filename : CString) (size : Int32) (s : FatState) : Prop :=
  ∀ fuel buffer i, bufferAfter buffer (read_file disk filename size fuel s).writes i = buffer i

/-- **A call leaves the buffer alone exactly if it finds no entry**: the loop
    copies a sector before it looks at the chain. -/
theorem leavesBuffer_iff (disk : Disk) (filename : CString) (size : Int32) (s : FatState) :
    LeavesBuffer disk filename size s ↔ foundEntry disk filename = none := by
  constructor
  · intro h
    cases hentry : foundEntry disk filename with
    | none => rfl
    | some entry =>
      generalize hfirst : entry.dir_first_cluster_low.toUInt32 = first
      have hbyte := h 1 (fun _ => clusterSector disk (decodeEBPB (disk 0)) first 0 + 1) (0 : Nat)
      rw [read_file_writes, hentry] at hbyte
      dsimp only at hbyte
      obtain ⟨rest, hfront⟩ : ∃ rest, front (nextCluster disk (decodeEBPB (disk 0))) 1 first =
          first :: rest := ⟨_, rfl⟩
      have hlen : (front (nextCluster disk (decodeEBPB (disk 0))) 1 first).length = 1 := by
        unfold front
        cases nextCluster disk (decodeEBPB (disk 0)) first <;> rfl
      rw [hfirst, bufferAfter_chainWrites _ _ _ (by rw [hlen]; decide), hfront] at hbyte
      exact absurd hbyte (by simp)
  · intro h fuel buffer i
    rw [read_file_writes, h]
    rfl

/-! ## Section 6: The contents of files -/

/-- **What `read_file` does with a file of a valid volume.**  A file with a chain
    is stored exactly if the code reads its sectors, which it does on small
    volumes; an empty file is left alone exactly if it is not found. -/
theorem read_file_contents (disk : Disk) (filename : CString) (size : Int32) (s : FatState)
    (slot : Nat) (hv : (volumeOf disk).Valid)
    (hfile : RegularFile (rootDirectory disk) 16 filename slot) :
    (∀ clusters, FileChain disk (firstCluster (rootDirectory disk) slot) clusters →
      ((∀ disk', SameMetadata disk disk' → StoresFile disk' filename size s clusters) ↔
        ReadsSectors disk filename clusters) ∧
      (WithinReach disk filename slot clusters → ReadsSectors disk filename clusters)) ∧
    (EmptyFile (rootDirectory disk) slot →
      (LeavesBuffer disk filename size s ↔ foundEntry disk filename = none)) :=
  ⟨fun _ hchain => ⟨storesFile_iff_readsSectors hv hchain filename size s,
    readsSectors_of_withinReach hv hfile hchain⟩, fun _ => leavesBuffer_iff disk filename size s⟩

/-- The file of ten clusters is stored. -/
theorem read_file_contents_helloDisk :
    StoresFile helloDisk helloName 5120 ⟨EBPB.zero, fun _ => 0⟩ [3, 4, 5, 6, 7, 8, 9, 10, 11, 12] := by
  have hspec := (read_file_contents helloDisk helloName 5120 ⟨EBPB.zero, fun _ => 0⟩ 0
    (by decide +kernel) (by decide +kernel)).1 [3, 4, 5, 6, 7, 8, 9, 10, 11, 12]
    ⟨by decide +kernel, by decide +kernel, by decide +kernel⟩
  exact hspec.1.mpr (hspec.2 ⟨by decide +kernel, by decide +kernel, by decide +kernel,
    by decide +kernel, by decide +kernel⟩) helloDisk (sameMetadata_refl _)

/-- The same volume with clusters of two sectors, and a file of 10240 bytes. -/
def pairDisk : Disk := diskOf
  [(0, sectorOf [(0x0C, 0x02), (0x0D, 2), (0x0E, 1), (0x10, 1), (0x20, 66), (0x24, 1), (0x2C, 2)]),
   (1, helloTable), (2, fun i => if i = 0x1D then 40 else helloDirectory i)]

/-- The empty file "E" is overwritten with a sector; the second sector of a
    cluster is never stored. -/
theorem read_file_contents_fails :
    ((volumeOf helloDisk).Valid ∧ RegularFile (rootDirectory helloDisk) 16 [0x45] 1 ∧
      EmptyFile (rootDirectory helloDisk) 1 ∧
      ¬ LeavesBuffer helloDisk [0x45] 4608 ⟨EBPB.zero, fun _ => 0⟩) ∧
    ((volumeOf pairDisk).Valid ∧ RegularFile (rootDirectory pairDisk) 16 helloName 0 ∧
      FileChain pairDisk (firstCluster (rootDirectory pairDisk) 0)
        [3, 4, 5, 6, 7, 8, 9, 10, 11, 12] ∧
      ¬ ∀ disk', SameMetadata pairDisk disk' → StoresFile disk' helloName 10240
        ⟨EBPB.zero, fun _ => 0⟩ [3, 4, 5, 6, 7, 8, 9, 10, 11, 12]) := by
  have hvalid : (volumeOf pairDisk).Valid := by decide +kernel
  have hchain : FileChain pairDisk (firstCluster (rootDirectory pairDisk) 0)
      [3, 4, 5, 6, 7, 8, 9, 10, 11, 12] :=
    ⟨by decide +kernel, by decide +kernel, by decide +kernel⟩
  refine ⟨⟨by decide +kernel, by decide +kernel, ⟨by decide +kernel, by decide +kernel⟩, ?_⟩,
    hvalid, by decide +kernel, hchain, ?_⟩
  · rw [leavesBuffer_iff]
    decide +kernel
  · rw [storesFile_iff_readsSectors hvalid hchain]
    intro h
    exact absurd (h.one_sector hvalid hchain) (by decide +kernel)

end ArgaldOS
