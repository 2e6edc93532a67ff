import ArgaldOS.Fat.Model
import ArgaldOS.Framework.Chains
import Mathlib.Data.Fintype.Card

/-! # What `read_file` writes

    The static buffer of the driver is read before it is overwritten, so a
    call depends on the disk only: it finds an entry (`foundEntry`), follows
    the chain that `get_next_cluster` computes (`nextCluster`), and writes one
    sector for each cluster it visits.

    * `copyChain_writes`, `copyChain_of_visits`: the loop;
    * `read_file_writes`: a call;
    * `mem_chainWrites`: the indices of the writes;
    * `read_file_confined_iff`: a call stays within the buffer exactly if the
      chain of the entry it finds ends in time.
-/

namespace ArgaldOS

open Chains

/-! ## Section 1: The functions of the disk behind the code -/

/-- The value that `get_next_cluster` returns. -/
def nextValue (disk : Disk) (ebpb : EBPB) (cluster : UInt32) : UInt32 :=
  tableValue (disk (lba28 (ebpb.reserved_sectors.toUInt8 +
    UInt8.ofNat ((cluster * 4).toUInt8.toNat / 512)).toUInt32)) ((cluster * 4).toUInt8.toNat % 512)

/-- The next cluster of a chain, as the loop follows it. -/
def nextCluster (disk : Disk) (ebpb : EBPB) (cluster : UInt32) : Option UInt32 :=
  if nextValue disk ebpb cluster = 0 then none else some (nextValue disk ebpb cluster)

/-- The sector that is read for a cluster. -/
def clusterSector (disk : Disk) (ebpb : EBPB) (cluster : UInt32) : Sector :=
  disk (lba28 ((get_first_sector_of_cluster ebpb cluster).getD 0))

/-- The sector that is read for the directory. -/
def rootSector (disk : Disk) : Option Sector :=
  let ebpb := decodeEBPB (disk 0)
  (get_first_sector_of_cluster ebpb ebpb.cluster_number_of_root_directory).map fun sector =>
    disk (lba28 sector)

/-- The directory entry that `read_file` finds. -/
def foundEntry (disk : Disk) (filename : CString) : Option DIR_ENTRY :=
  (rootSector disk).bind fun directory_sector =>
    (parse_directory_sector (some directory_sector)).find? fun entry =>
      strcmp filename (trim entry.dir_name)

/-- The writes for the clusters of a chain, from index `k` on. -/
def chainWrites (disk : Disk) (ebpb : EBPB) : Nat → List UInt32 → List BufferWrite
  | _, [] => []
  | k, c :: cs =>
    copySector (Int32.ofNat k) (clusterSector disk ebpb c) ++ chainWrites disk ebpb (k + 512) cs

@[simp] theorem chainWrites_nil (disk : Disk) (ebpb : EBPB) (k : Nat) :
    chainWrites disk ebpb k [] = [] := rfl

@[simp] theorem chainWrites_cons (disk : Disk) (ebpb : EBPB) (k : Nat) (c : UInt32)
    (cs : List UInt32) : chainWrites disk ebpb k (c :: cs) =
      copySector (Int32.ofNat k) (clusterSector disk ebpb c) ++
        chainWrites disk ebpb (k + 512) cs := rfl

/-! ## Section 2: The loop -/

theorem get_next_cluster_eq (disk : Disk) (s : FatState) (cluster : UInt32) :
    ∃ s', get_next_cluster disk cluster s = some (nextValue disk s.ebpb cluster, s') ∧
      s'.ebpb = s.ebpb :=
  ⟨_, rfl, rfl⟩

theorem get_first_sector_isSome {ebpb : EBPB} (h : ebpb.bytes_per_sector ≠ 0) (cluster : UInt32) :
    get_first_sector_of_cluster ebpb cluster =
      some ((get_first_sector_of_cluster ebpb cluster).getD 0) := by
  unfold get_first_sector_of_cluster
  rw [if_neg h]
  rfl

section loop
variable (disk : Disk) {s : FatState}

/-- One round of the loop. -/
theorem copyChain_succ (h : s.ebpb.bytes_per_sector ≠ 0) (fuel : Nat) (cluster : UInt32)
    (k : Int32) :
    ∃ s', s'.ebpb = s.ebpb ∧ copyChain disk (fuel + 1) cluster k s =
      match nextCluster disk s.ebpb cluster with
      | none => ⟨.buffer, copySector k (clusterSector disk s.ebpb cluster), s'⟩
      | some next =>
        { copyChain disk fuel next (k + 512) s' with
          writes := copySector k (clusterSector disk s.ebpb cluster) ++
            (copyChain disk fuel next (k + 512) s').writes } := by
  have hsome := get_first_sector_isSome h cluster
  unfold clusterSector
  generalize (get_first_sector_of_cluster s.ebpb cluster).getD 0 = sector at hsome
  let s₁ : FatState := { s with buffer8 := disk (lba28 sector) }
  obtain ⟨s', hnext, hebpb⟩ := get_next_cluster_eq disk s₁ cluster
  have hread : readdisk disk sector s = (.buffer8, s₁) := rfl
  have hcontents : s₁.contents .buffer8 = some (disk (lba28 sector)) := rfl
  have hebpb₁ : s₁.ebpb = s.ebpb := rfl
  refine ⟨s', hebpb, ?_⟩
  rw [copyChain]
  simp only [hsome, hread, hcontents, hnext, hebpb₁]
  unfold nextCluster
  by_cases hz : nextValue disk s.ebpb cluster = 0
  · simp only [hz, if_true]
  · simp only [hz, if_false]

theorem int32_add_512 (k : Nat) : Int32.ofNat k + 512 = Int32.ofNat (k + 512) := by
  rw [Int32.ofNat_add]
  rfl

/-- **The writes of the loop** are those for the clusters it visits. -/
theorem copyChain_writes (h : s.ebpb.bytes_per_sector ≠ 0) (fuel : Nat) (cluster : UInt32) (k : Nat) :
    (copyChain disk fuel cluster (Int32.ofNat k) s).writes =
      chainWrites disk s.ebpb k (front (nextCluster disk s.ebpb) fuel cluster) := by
  induction fuel generalizing cluster k s with
  | zero => rfl
  | succ fuel ih =>
    obtain ⟨s', hebpb, heq⟩ := copyChain_succ disk h fuel cluster (Int32.ofNat k)
    rw [heq]
    unfold front
    -- One copy for this cluster; the rest of the chain is copied 512 bytes further on.
    cases hn : nextCluster disk s.ebpb cluster with
    | none =>
      dsimp only
      rw [chainWrites_cons, chainWrites_nil, List.append_nil]
    | some next =>
      dsimp only
      rw [int32_add_512, ih (by rw [hebpb]; exact h), hebpb, chainWrites_cons]

/-- **The loop ends** if the chain does. -/
theorem copyChain_of_visits (h : s.ebpb.bytes_per_sector ≠ 0) {fuel : Nat} {cluster : UInt32}
    {clusters : List UInt32} (k : Int32)
    (hv : Visits (nextCluster disk s.ebpb) cluster clusters) (hfuel : clusters.length ≤ fuel) :
    (copyChain disk fuel cluster k s).result = .buffer := by
  induction fuel generalizing cluster clusters k s with
  | zero =>
    rw [List.eq_nil_of_length_eq_zero (Nat.le_zero.mp hfuel)] at hv
    exact absurd hv id
  | succ fuel ih =>
    cases clusters with
    | nil => exact absurd hv id
    | cons x cs =>
      obtain ⟨rfl, hx⟩ := hv
      obtain ⟨s', hebpb, heq⟩ := copyChain_succ disk h fuel x k
      rw [heq]
      cases hn : nextCluster disk s.ebpb x with
      | none => rfl
      | some next =>
        rw [hn] at hx
        show (copyChain disk fuel next (k + 512) s').result = _
        rw [← hebpb] at hx
        exact ih (by rw [hebpb]; exact h) _ hx (by simpa using hfuel)

/-- The loop returns only if the chain ends. -/
theorem visits_of_copyChain (h : s.ebpb.bytes_per_sector ≠ 0) {fuel : Nat} {cluster : UInt32}
    {k : Int32} (hrun : (copyChain disk fuel cluster k s).result = .buffer) :
    ∃ clusters, Visits (nextCluster disk s.ebpb) cluster clusters ∧ clusters.length ≤ fuel := by
  induction fuel generalizing cluster k s with
  | zero => exact absurd hrun (by simp [copyChain])
  | succ fuel ih =>
    obtain ⟨s', hebpb, heq⟩ := copyChain_succ disk h fuel cluster k
    rw [heq] at hrun
    cases hn : nextCluster disk s.ebpb cluster with
    | none => exact ⟨[cluster], visits_end hn, by simp⟩
    | some next =>
      have hrest : (copyChain disk fuel next (k + 512) s').result = .buffer := by
        rw [hn] at hrun
        exact hrun
      obtain ⟨clusters, hv, hlen⟩ := ih (by rw [hebpb]; exact h) hrest
      rw [hebpb] at hv
      exact ⟨cluster :: clusters, visits_cons hn hv, by simpa using hlen⟩

/-- The table is looked up by the low byte of the offset, so a chain that ends
    has at most 256 clusters. -/
theorem length_le_of_visits {ebpb : EBPB} {cluster : UInt32} {clusters : List UInt32}
    (hv : Visits (nextCluster disk ebpb) cluster clusters) : clusters.length ≤ 256 := by
  -- The next cluster is a function of the low byte, so no byte occurs twice.
  have hkeys := visits_key_nodup (fun c : UInt32 => (c * 4).toUInt8.toFin)
    (fun a b hab => by
      have hoffset : (a * 4).toUInt8 = (b * 4).toUInt8 := UInt8.toFin_inj.mp hab
      unfold nextCluster nextValue
      rw [hoffset]) hv
  have hcard := hkeys.length_le_card
  rw [List.length_map, Fintype.card_fin] at hcard
  exact hcard

end loop

/-! ## Section 3: A call -/

/-- **A call of `read_file`**: it faults on a zero sector size, returns the
    directory sector if it finds no entry, and otherwise runs the loop. -/
theorem read_file_eq (disk : Disk) (filename : CString) (size : Int32) (fuel : Nat) (s : FatState) :
    ∃ s', s'.ebpb = decodeEBPB (disk 0) ∧ read_file disk filename size fuel s =
      if (decodeEBPB (disk 0)).bytes_per_sector = 0 then ⟨.fault, [], s'⟩
      else
        match foundEntry disk filename with
        | none => ⟨.directory_sector, [], s'⟩
        | some entry => copyChain disk fuel entry.dir_first_cluster_low.toUInt32 0 s' := by
  have hebpb : read_ebpb disk s = ⟨decodeEBPB (disk 0), disk 0⟩ := rfl
  unfold read_file foundEntry rootSector
  rw [hebpb]
  -- The boot sector has been decoded; what remains depends on its fields only.
  generalize decodeEBPB (disk 0) = ebpb
  by_cases hz : ebpb.bytes_per_sector = 0
  · refine ⟨⟨ebpb, disk 0⟩, rfl, ?_⟩
    unfold get_first_sector_of_cluster
    simp only [hz, if_true]
  · simp only [hz, if_false]
    have hsome := get_first_sector_isSome hz ebpb.cluster_number_of_root_directory
    generalize (get_first_sector_of_cluster ebpb ebpb.cluster_number_of_root_directory).getD 0 = sector
      at hsome
    simp only [hsome, Option.map_some, Option.bind_some]
    exact ⟨⟨ebpb, disk (lba28 sector)⟩, rfl, rfl⟩

theorem foundEntry_eq_none {disk : Disk} (h : (decodeEBPB (disk 0)).bytes_per_sector = 0)
    (filename : CString) : foundEntry disk filename = none := by
  unfold foundEntry rootSector get_first_sector_of_cluster
  simp [h]

/-- **The writes of a call** are those for the clusters it visits. -/
theorem read_file_writes (disk : Disk) (filename : CString) (size : Int32) (fuel : Nat)
    (s : FatState) :
    (read_file disk filename size fuel s).writes =
      match foundEntry disk filename with
      | none => []
      | some entry => chainWrites disk (decodeEBPB (disk 0)) 0
          (front (nextCluster disk (decodeEBPB (disk 0))) fuel
            entry.dir_first_cluster_low.toUInt32) := by
  obtain ⟨s', hebpb, heq⟩ := read_file_eq disk filename size fuel s
  rw [heq]
  by_cases hz : (decodeEBPB (disk 0)).bytes_per_sector = 0
  · rw [if_pos hz, foundEntry_eq_none hz]
  · rw [if_neg hz]
    cases foundEntry disk filename with
    | none => rfl
    | some entry =>
      have hwrites := copyChain_writes disk (s := s') (by rw [hebpb]; exact hz) fuel
        entry.dir_first_cluster_low.toUInt32 0
      rw [hebpb] at hwrites
      exact hwrites

/-! ## Section 4: The indices of the writes -/

section indices
variable {disk : Disk} {ebpb : EBPB}

/-- The index of byte `j` of a sector that is stored from `k` on, as long as it
    fits an `int`. -/
theorem index_eq {j k : Nat} (h : j + k < 2 ^ 31) :
    (Int32.ofNat j + Int32.ofNat k).toInt = (j + k : Nat) := by
  rw [← Int32.ofNat_add, Int32.toInt_ofNat_of_lt h]

/-- **The writes for the clusters of a chain**: byte `j` of the sector for the
    `m`-th cluster goes to index `k + 512 m + j`. -/
theorem mem_chainWrites {k : Nat} {clusters : List UInt32} {w : BufferWrite} :
    w ∈ chainWrites disk ebpb k clusters ↔
      ∃ m j c, clusters[m]? = some c ∧ j < 512 ∧
        w = ⟨(Int32.ofNat j + Int32.ofNat (k + 512 * m)).toInt, clusterSector disk ebpb c j⟩ := by
  induction clusters generalizing k with
  | nil => simp
  | cons c cs ih =>
    rw [chainWrites_cons, List.mem_append, ih]
    unfold copySector
    rw [List.mem_map]
    constructor
    · intro h
      rcases h with ⟨j, hj, heq⟩ | ⟨m, j, d, hd, hj, heq⟩
      · exact ⟨0, j, c, rfl, List.mem_range.mp hj, heq.symm⟩
      -- The clusters behind the first are numbered from 0 in the rest of the list.
      · refine ⟨m + 1, j, d, hd, hj, ?_⟩
        rw [heq, show k + 512 + 512 * m = k + 512 * (m + 1) by omega]
    · intro h
      obtain ⟨m, j, d, hd, hj, heq⟩ := h
      cases m with
      | zero =>
        obtain rfl : c = d := by simpa using hd
        exact Or.inl ⟨j, List.mem_range.mpr hj, heq.symm⟩
      | succ m =>
        refine Or.inr ⟨m, j, d, by simpa using hd, hj, ?_⟩
        rw [heq, show k + 512 * (m + 1) = k + 512 + 512 * m by omega]

/-- A chain that is short enough is stored within the buffer. -/
theorem chainWrites_confined {clusters : List UInt32} {size : Int32}
    (h : 512 * (clusters.length : Int) ≤ size.toInt) :
    ∀ w ∈ chainWrites disk ebpb 0 clusters, 0 ≤ w.index ∧ w.index < size.toInt := by
  intro w hw
  obtain ⟨m, j, c, hc, hj, rfl⟩ := mem_chainWrites.mp hw
  have hm : m < clusters.length := (List.getElem?_eq_some_iff.mp hc).1
  have hsize : size.toInt < 2 ^ 31 := size.toInt_lt
  have hindex : (Int32.ofNat j + Int32.ofNat (0 + 512 * m)).toInt = _ := index_eq (by omega)
  dsimp only
  rw [hindex]
  omega

/-- A chain that is too long is not. -/
theorem chainWrites_not_confined (disk : Disk) (ebpb : EBPB) {clusters : List UInt32} {size : Int32}
    (h : size.toInt < 512 * (clusters.length : Int)) (hpos : 0 < clusters.length) :
    ∃ w ∈ chainWrites disk ebpb 0 clusters, ¬ (0 ≤ w.index ∧ w.index < size.toInt) := by
  have hsize : size.toInt < 2 ^ 31 := size.toInt_lt
  -- The first index past the buffer, or 0 if the size is negative.
  let i := size.toInt.toNat
  have hi : i / 512 < clusters.length := by omega
  refine ⟨_, mem_chainWrites.mpr ⟨i / 512, i % 512, clusters[i / 512],
    List.getElem?_eq_getElem hi, Nat.mod_lt _ (by omega), rfl⟩, ?_⟩
  have hindex : (Int32.ofNat (i % 512) + Int32.ofNat (0 + 512 * (i / 512))).toInt = _ :=
    index_eq (by omega)
  dsimp only
  rw [hindex]
  omega

end indices

/-! ## Section 5: A call stays within the buffer -/

/-- The chain of a file, as the code follows it, ends within the buffer. -/
def ChainFits (disk : Disk) (entry : DIR_ENTRY) (size : Int32) : Prop :=
  ∃ clusters, Visits (nextCluster disk (decodeEBPB (disk 0)))
      entry.dir_first_cluster_low.toUInt32 clusters ∧
    512 * (clusters.length : Int) ≤ size.toInt

/-- The writes of a call stay within the buffer, however long it runs. -/
def ReadFileConfined (disk : Disk) (filename : CString) (size : Int32) (s : FatState) : Prop :=
  ∀ fuel, ∀ w ∈ (read_file disk filename size fuel s).writes, 0 ≤ w.index ∧ w.index < size.toInt

theorem read_file_confined {disk : Disk} {filename : CString} {size : Int32} (s : FatState)
    (h : ∀ entry, foundEntry disk filename = some entry → ChainFits disk entry size) :
    ReadFileConfined disk filename size s := by
  intro fuel w hw
  rw [read_file_writes] at hw
  cases hentry : foundEntry disk filename with
  | none =>
    rw [hentry] at hw
    exact absurd hw List.not_mem_nil
  | some entry =>
    obtain ⟨clusters, hv, hsize⟩ := h entry hentry
    rw [hentry] at hw
    dsimp only at hw
    rw [front_of_visits hv] at hw
    refine chainWrites_confined ?_ w hw
    rw [List.length_take]
    omega

/-- A chain that does not end in time, or at all, leads out of the buffer. -/
theorem read_file_not_confined {disk : Disk} {filename : CString} {size : Int32} (s : FatState)
    {entry : DIR_ENTRY} (hentry : foundEntry disk filename = some entry)
    (hfits : ¬ ChainFits disk entry size) : ¬ ReadFileConfined disk filename size s := by
  intro h
  -- The loop makes one round more than there is room for.
  let n := size.toInt.toNat / 512
  have hlong : (front (nextCluster disk (decodeEBPB (disk 0))) (n + 1)
      entry.dir_first_cluster_low.toUInt32).length = n + 1 := by
    refine length_front fun clusters hlen hv => hfits ⟨clusters, hv, ?_⟩
    have hpos := length_pos_of_visits hv
    omega
  -- That many clusters do not fit.
  have hsize : size.toInt < 512 * ((n + 1 : Nat) : Int) := by omega
  rw [← hlong] at hsize
  obtain ⟨w, hw, hout⟩ := chainWrites_not_confined disk (decodeEBPB (disk 0)) hsize (by omega)
  refine hout (h (n + 1) w ?_)
  rw [read_file_writes, hentry]
  exact hw

/-- **A call writes within the buffer exactly if** it finds no entry, or the
    chain of the entry that it finds ends before the buffer does. -/
theorem read_file_confined_iff (disk : Disk) (filename : CString) (size : Int32) (s : FatState) :
    ReadFileConfined disk filename size s ↔
      ∀ entry, foundEntry disk filename = some entry → ChainFits disk entry size := by
  refine ⟨fun h entry hentry => ?_, read_file_confined s⟩
  by_contra hfits
  exact read_file_not_confined s hentry hfits h

/-! ## Section 6: A volume with a file of ten clusters -/

/-- A sector with the given bytes, and zeros elsewhere. -/
def sectorOf (bytes : List (Nat × UInt8)) : Sector := fun i => (bytes.lookup i).getD 0

/-- A disk with the given sectors, and zeros elsewhere. -/
def diskOf (sectors : List (Nat × Sector)) : Disk := fun n => (sectors.lookup n).getD fun _ => 0

/-- "HELLO", the name that the shell's `exec` reads. -/
def helloName : CString := [0x48, 0x45, 0x4C, 0x4C, 0x4F]

/-- 512-byte sectors, one to a cluster; one reserved sector, one table of one
    sector, the root directory at cluster 2; 66 sectors in all. -/
def helloBoot : Sector := sectorOf
  [(0x0C, 0x02), (0x0D, 1), (0x0E, 1), (0x10, 1), (0x20, 66), (0x24, 1), (0x2C, 2)]

/-- Clusters 3 to 12 form one chain; cluster 2 is a chain of its own. -/
def helloTable : Sector := fun i =>
  if 12 ≤ i ∧ i < 48 then (if i % 4 = 0 then UInt8.ofNat (i / 4 + 1) else 0)
  else if i < 52 then (if i % 4 = 3 then 0x0F else 0xFF)
  else 0

/-- The file "HELLO", of 5120 bytes from cluster 3 on, and the empty file "E". -/
def helloDirectory : Sector := sectorOf
  ([(0, 0x48), (1, 0x45), (2, 0x4C), (3, 0x4C), (4, 0x4F), (0x1A, 3), (0x1D, 20), (32, 0x45)] ++
    ([5, 6, 7, 8, 9, 10, 11, 33, 34, 35, 36, 37, 38, 39, 40, 41, 42, 43].map fun i => (i, 0x20)))

def helloDisk : Disk := diskOf
  [(0, helloBoot), (1, helloTable), (2, helloDirectory), (3, sectorOf [(0, 0x7F)])]

def helloEntry : DIR_ENTRY where
  dir_name := [0x48, 0x45, 0x4C, 0x4C, 0x4F, 0x20, 0x20, 0x20]
  dir_extension := [0x20, 0x20, 0x20]
  dir_first_cluster_high := 0
  dir_first_cluster_low := 3
  dir_file_size := 5120
  dir_first_cluster := 3

theorem helloDisk_found : foundEntry helloDisk helloName = some helloEntry := by
  decide +kernel

theorem helloDisk_visits : Visits (nextCluster helloDisk (decodeEBPB (helloDisk 0))) 3
    [3, 4, 5, 6, 7, 8, 9, 10, 11, 12] := by
  decide +kernel

/-- The shell's buffer has 4608 bytes; the file is stored beyond it. -/
theorem helloDisk_not_confined :
    ¬ ReadFileConfined helloDisk helloName 4608 ⟨EBPB.zero, fun _ => 0⟩ := by
  apply read_file_not_confined _ helloDisk_found
  intro h
  obtain ⟨clusters, hv, hsize⟩ := h
  rw [visits_unique hv helloDisk_visits] at hsize
  exact absurd hsize (by simp)

end ArgaldOS
