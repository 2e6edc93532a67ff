import ArgaldOS.Fat.Contents

/-! # File lookup

    A name should be looked up in the whole root directory: all sectors of all
    clusters of its chain, up to the end mark.  The code looks at the first
    sector only, takes the first slot that is not free and not part of a long
    name, and compares base names.

    * `Match`: an entry of the root directory for a name without extension;
    * `foundEntry_iff`: the slot that the code takes;
    * `read_file_lookup`: when a call returns the caller's buffer exactly for
      the names that have an entry, loaded with its file.
-/

namespace ArgaldOS

open Chains

/-! ## Section 1: The root directory -/

/-- The chain of the root directory. -/
structure RootChain (disk : Disk) (clusters : List Nat) : Prop where
  visits   : Visits (clusterAfter disk) (volumeOf disk).rootCluster clusters
  in_range : ∀ c ∈ clusters, (volumeOf disk).IsCluster c

/-- The bytes of the directory, sector after sector. -/
def rootBytes (disk : Disk) (clusters : List Nat) : Sector := fun i =>
  match (fileSectors (volumeOf disk) clusters)[i / 512]? with
  | some n => disk n (i % 512)
  | none => 0

/-- The number of slots of the directory. -/
def rootSlots (disk : Disk) (clusters : List Nat) : Nat :=
  16 * (fileSectors (volumeOf disk) clusters).length

/-- An entry of a file called `filename`, with blank extension. -/
structure Match (disk : Disk) (root : List Nat) (filename : CString) (slot : Nat) : Prop where
  regular   : RegularFile (rootBytes disk root) (rootSlots disk root) filename slot
  extension : ∀ k < 3, rootBytes disk root (slot * 32 + 8 + k) = 0x20

instance (disk : Disk) (root : List Nat) (filename : CString) (slot : Nat) :
    Decidable (Match disk root filename slot) :=
  decidable_of_iff (RegularFile (rootBytes disk root) (rootSlots disk root) filename slot ∧
      ∀ k < 3, rootBytes disk root (slot * 32 + 8 + k) = 0x20)
    ⟨fun ⟨h₁, h₂⟩ => ⟨h₁, h₂⟩, fun ⟨h₁, h₂⟩ => ⟨h₁, h₂⟩⟩

/-- The first sector of the directory is where its chain starts. -/
theorem rootBytes_eq {disk : Disk} (hv : (volumeOf disk).Valid) {root : List Nat}
    (hroot : RootChain disk root) {i : Nat} (hi : i < 512) :
    rootBytes disk root i = rootDirectory disk i := by
  obtain ⟨spc, hspc⟩ := Nat.exists_eq_succ_of_ne_zero (Nat.pos_iff_ne_zero.mp (spc_pos hv))
  have hdiv : i / 512 = 0 := by omega
  cases root with
  | nil => exact absurd hroot.visits id
  | cons c cs =>
    obtain ⟨rfl, -⟩ := hroot.visits
    -- The first sector of the first cluster.
    have hsectors : (fileSectors (volumeOf disk) ((volumeOf disk).rootCluster :: cs))[0]? =
        some (volumeOf disk).rootSector := by
      unfold fileSectors Volume.rootSector
      rw [List.flatMap_cons, hspc, List.range_succ_eq_map, List.map_cons, List.cons_append,
        List.getElem?_cons_zero]
    unfold rootBytes rootDirectory
    rw [hdiv, hsectors, Nat.mod_eq_of_lt hi]

/-- An entry depends on the bytes of the slots up to its own. -/
theorem RegularFile.congr {directory directory' : Sector} {slots slots' : Nat}
    {filename : CString} {slot : Nat} (h : RegularFile directory slots filename slot)
    (hslot : slot < slots') (hbytes : ∀ i < slot * 32 + 32, directory' i = directory i) :
    RegularFile directory' slots' filename slot where
  slot_lt := hslot
  before_end := fun j hj => by
    rw [hbytes _ (by omega)]
    exact h.before_end j hj
  live := by
    rw [hbytes _ (by omega)]
    exact h.live
  file := by
    rw [hbytes _ (by omega)]
    exact h.file
  chars := fun k hk => by
    rw [hbytes _ (by omega)]
    exact h.chars k hk
  name := by
    rw [← h.name]
    refine congrArg trim (List.map_congr_left fun k hk => hbytes _ ?_)
    have := List.mem_range.mp hk
    omega

theorem firstCluster_congr {directory directory' : Sector} {slot : Nat}
    (hbytes : ∀ i < slot * 32 + 32, directory' i = directory i) :
    firstCluster directory' slot = firstCluster directory slot := by
  unfold firstCluster le16
  rw [hbytes _ (by omega), hbytes _ (by omega), hbytes _ (by omega), hbytes _ (by omega)]

/-! ## Section 2: The slot that the code takes -/

/-- The first slot of the sector that is read whose name is compared and equal. -/
structure FirstListed (disk : Disk) (filename : CString) (slot : Nat) : Prop where
  slot_lt : slot < 16
  listed  : Listed (disk (codeRootSector disk)) slot
  name    : trim (dirEntry (disk (codeRootSector disk)) slot).dir_name = filename
  first   : ∀ j < slot, Listed (disk (codeRootSector disk)) j →
    trim (dirEntry (disk (codeRootSector disk)) j).dir_name ≠ filename

/-- **The entry that is found** is the one in that slot. -/
theorem foundEntry_iff {disk : Disk} (hv : (volumeOf disk).Valid) {filename : CString}
    {entry : DIR_ENTRY} :
    foundEntry disk filename = some entry ↔
      ∃ slot, FirstListed disk filename slot ∧
        dirEntry (disk (codeRootSector disk)) slot = entry := by
  rw [foundEntry_of_valid hv, find?_parse_directory_sector, Option.map_eq_some_iff]
  refine exists_congr fun slot => and_congr_left fun _ => ?_
  -- The first listed slot with the name: nothing before it is both.
  rw [List.find?_range_eq_some]
  simp only [Bool.and_eq_true, decide_eq_true_eq, strcmp_iff, List.mem_range, Bool.not_eq_true',
    ← Bool.not_eq_true]
  constructor
  · intro h
    obtain ⟨⟨hlisted, hname⟩, hlt, hfirst⟩ := h
    exact ⟨hlt, hlisted, hname.symm, fun j hj hl heq => hfirst j hj ⟨hl, heq.symm⟩⟩
  · intro h
    exact ⟨⟨h.listed, h.name.symm⟩, h.slot_lt, fun j hj hboth => h.first j hj hboth.1 hboth.2.symm⟩

/-! ## Section 3: Calls -/

/-- A call returns the caller's buffer. -/
def ReturnsBuffer (disk : Disk) (filename : CString) (size : Int32) (s : FatState) : Prop :=
  ∃ fuel, (read_file disk filename size fuel s).result = .buffer

/-- It does so if it finds an entry whose chain, as the code follows it, ends. -/
theorem returnsBuffer_iff {disk : Disk} (hv : (volumeOf disk).Valid) (filename : CString)
    (size : Int32) (s : FatState) :
    ReturnsBuffer disk filename size s ↔
      ∃ entry visited, foundEntry disk filename = some entry ∧
        Visits (nextCluster disk (decodeEBPB (disk 0))) entry.dir_first_cluster_low.toUInt32
          visited := by
  have hz := bytes_per_sector_ne_zero hv
  constructor
  · intro h
    obtain ⟨fuel, hresult⟩ := h
    obtain ⟨s', hebpb, heq⟩ := read_file_eq disk filename size fuel s
    rw [heq, if_neg hz] at hresult
    cases hentry : foundEntry disk filename with
    | none =>
      rw [hentry] at hresult
      exact absurd hresult (by simp)
    | some entry =>
      rw [hentry] at hresult
      -- The loop has returned, so the chain has an end.
      obtain ⟨visited, hvisits, -⟩ := visits_of_copyChain disk (by rw [hebpb]; exact hz) hresult
      rw [hebpb] at hvisits
      exact ⟨entry, visited, rfl, hvisits⟩
  · intro h
    obtain ⟨entry, visited, hentry, hvisits⟩ := h
    obtain ⟨s', hebpb, heq⟩ := read_file_eq disk filename size visited.length s
    refine ⟨visited.length, ?_⟩
    rw [heq, if_neg hz, hentry]
    rw [← hebpb] at hvisits hz
    exact copyChain_of_visits disk hz 0 hvisits (Nat.le_refl _)

/-- The file of an entry is loaded: its contents are stored, or it has none and
    the buffer is left alone. -/
def Loads (disk : Disk) (root : List Nat) (filename : CString) (size : Int32) (s : FatState)
    (slot : Nat) : Prop :=
  (∃ clusters, FileChain disk (firstCluster (rootBytes disk root) slot) clusters ∧
    StoresFile disk filename size s clusters) ∨
  (EmptyFile (rootBytes disk root) slot ∧ LeavesBuffer disk filename size s)

/-- A name is looked up as it should be. -/
structure LooksUp (disk : Disk) (root : List Nat) (filename : CString) (size : Int32)
    (s : FatState) : Prop where
  found  : ReturnsBuffer disk filename size s ↔ ∃ slot, Match disk root filename slot
  loaded : ReturnsBuffer disk filename size s →
    ∃ slot, Match disk root filename slot ∧ Loads disk root filename size s slot

/-! ## Section 4: When a name is looked up as it should be -/

/-- If an entry matches, the sectors that the code reads from the slot that it
    takes hold the file of such an entry. -/
def FindsFile (disk : Disk) (root : List Nat) (filename : CString) : Prop :=
  (∃ slot, Match disk root filename slot) →
    ∃ taken visited, FirstListed disk filename taken ∧
      Visits (nextCluster disk (decodeEBPB (disk 0)))
        (dirEntry (disk (codeRootSector disk)) taken).dir_first_cluster_low.toUInt32 visited ∧
      ∃ slot clusters, Match disk root filename slot ∧
        FileChain disk (firstCluster (rootBytes disk root) slot) clusters ∧
        HoldsFile disk clusters visited

/-- If no entry matches, the code takes no slot, or one whose chain never ends. -/
def FindsNothing (disk : Disk) (root : List Nat) (filename : CString) : Prop :=
  (¬ ∃ slot, Match disk root filename slot) →
    ∀ taken visited, FirstListed disk filename taken →
      ¬ Visits (nextCluster disk (decodeEBPB (disk 0)))
        (dirEntry (disk (codeRootSector disk)) taken).dir_first_cluster_low.toUInt32 visited

/-- **A name is looked up as it should be exactly if** the slot that the code
    takes is as good as a matching entry. -/
theorem looksUp_iff {disk : Disk} (hv : (volumeOf disk).Valid) (root : List Nat)
    (filename : CString) (size : Int32) (s : FatState) :
    LooksUp disk root filename size s ↔
      FindsFile disk root filename ∧ FindsNothing disk root filename := by
  have hreturns : ReturnsBuffer disk filename size s ↔ ∃ taken visited,
      FirstListed disk filename taken ∧ Visits (nextCluster disk (decodeEBPB (disk 0)))
        (dirEntry (disk (codeRootSector disk)) taken).dir_first_cluster_low.toUInt32 visited := by
    rw [returnsBuffer_iff hv]
    constructor
    · intro h
      obtain ⟨entry, visited, hentry, hvisits⟩ := h
      obtain ⟨taken, htaken, rfl⟩ := (foundEntry_iff hv).mp hentry
      exact ⟨taken, visited, htaken, hvisits⟩
    · intro h
      obtain ⟨taken, visited, htaken, hvisits⟩ := h
      exact ⟨_, visited, (foundEntry_iff hv).mpr ⟨taken, htaken, rfl⟩, hvisits⟩
  constructor
  · intro h
    constructor
    · intro hmatch
      obtain ⟨slot, hslot, hload⟩ := h.loaded (h.found.mpr hmatch)
      rcases hload with ⟨clusters, hchain, hstores⟩ | ⟨-, hleaves⟩
      · obtain ⟨entry, visited, hentry, hvisits, hholds⟩ := (storesFile_iff _ _ _ _ _).mp hstores
        obtain ⟨taken, htaken, rfl⟩ := (foundEntry_iff hv).mp hentry
        exact ⟨taken, visited, htaken, hvisits, slot, clusters, hslot, hchain, hholds⟩
      · -- An empty file is found only by overwriting the buffer.
        rw [leavesBuffer_iff] at hleaves
        obtain ⟨entry, -, hentry, -⟩ := (returnsBuffer_iff hv _ _ _).mp (h.found.mpr hmatch)
        rw [hleaves] at hentry
        cases hentry
    · intro hmatch taken visited htaken hvisits
      exact hmatch (h.found.mp (hreturns.mpr ⟨taken, visited, htaken, hvisits⟩))
  · intro h
    obtain ⟨hfile, hnothing⟩ := h
    -- The two conditions are the two directions.
    have hfound : ReturnsBuffer disk filename size s ↔ ∃ slot, Match disk root filename slot := by
      constructor
      · intro hbuffer
        by_contra hmatch
        obtain ⟨taken, visited, htaken, hvisits⟩ := hreturns.mp hbuffer
        exact hnothing hmatch taken visited htaken hvisits
      · intro hmatch
        obtain ⟨taken, visited, htaken, hvisits, -⟩ := hfile hmatch
        exact hreturns.mpr ⟨taken, visited, htaken, hvisits⟩
    refine ⟨hfound, ?_⟩
    intro hbuffer
    obtain ⟨taken, visited, htaken, hvisits, slot, clusters, hslot, hchain, hholds⟩ :=
      hfile (hfound.mp hbuffer)
    have hstores : StoresFile disk filename size s clusters := (storesFile_iff _ _ _ _ _).mpr
      ⟨_, visited, (foundEntry_iff hv).mpr ⟨taken, htaken, rfl⟩, hvisits, hholds⟩
    exact ⟨slot, hslot, Or.inl ⟨clusters, hchain, hstores⟩⟩

/-- A directory that the code can read: the entries that match are in the first
    sector, within reach, and where none matches no slot of the first sector is
    listed under the name. -/
structure PlainDirectory (disk : Disk) (root : List Nat) (filename : CString) : Prop where
  small_table : (volumeOf disk).sectorsPerTable < 65536
  matching    : ∀ slot, Match disk root filename slot → slot < 16 ∧
    ∃ clusters, FileChain disk (firstCluster (rootBytes disk root) slot) clusters ∧
      WithinReach disk filename slot clusters
  other       : (¬ ∃ slot, Match disk root filename slot) →
    ∀ i < 16, Listed (rootDirectory disk) i → trim (dirEntry (rootDirectory disk) i).dir_name ≠ filename

/-- Such a directory is enough. -/
theorem looksUp_of_plainDirectory {disk : Disk} (hv : (volumeOf disk).Valid) {root : List Nat}
    (hroot : RootChain disk root) {filename : CString} (h : PlainDirectory disk root filename) :
    FindsFile disk root filename ∧ FindsNothing disk root filename := by
  constructor
  · intro hmatch
    obtain ⟨slot, hslot⟩ := hmatch
    -- The entry is in the sector that the code reads, and its chain within its reach.
    obtain ⟨hlt, clusters, hchain, hreach⟩ := h.matching slot hslot
    have hbytes : ∀ i < slot * 32 + 32, rootDirectory disk i = rootBytes disk root i :=
      fun i hi => (rootBytes_eq hv hroot (by omega)).symm
    have hregular := hslot.regular.congr hlt hbytes
    have hchain' := hchain
    rw [← firstCluster_congr hbytes] at hchain'
    have hstores := storesFile_of_readsSectors hv (sameMetadata_refl disk)
      (readsSectors_of_withinReach hv hregular hchain' hreach) 0 ⟨EBPB.zero, fun _ => 0⟩
    obtain ⟨entry, visited, hentry, hvisits, hholds⟩ := (storesFile_iff _ _ _ _ _).mp hstores
    obtain ⟨taken, htaken, rfl⟩ := (foundEntry_iff hv).mp hentry
    exact ⟨taken, visited, htaken, hvisits, slot, clusters, hslot, hchain, hholds⟩
  · intro hmatch taken visited htaken
    have hsector := codeRootSector_of_small hv h.small_table
    -- A slot that is taken would be one listed under the name.
    have hlisted := htaken.listed
    have hname := htaken.name
    rw [hsector] at hlisted hname
    exact absurd hname (h.other hmatch taken htaken.slot_lt hlisted)

/-- **File lookup** on a valid volume. -/
theorem read_file_lookup (disk : Disk) (root : List Nat) (filename : CString) (size : Int32)
    (s : FatState) (hv : (volumeOf disk).Valid) (hroot : RootChain disk root) :
    (LooksUp disk root filename size s ↔
      FindsFile disk root filename ∧ FindsNothing disk root filename) ∧
    (PlainDirectory disk root filename → LooksUp disk root filename size s) :=
  ⟨looksUp_iff hv root filename size s, fun h =>
    (looksUp_iff hv root filename size s).mpr (looksUp_of_plainDirectory hv hroot h)⟩

/-- The entry of "HELLO" is found. -/
theorem read_file_lookup_helloDisk :
    LooksUp helloDisk [2] helloName 5120 ⟨EBPB.zero, fun _ => 0⟩ := by
  refine (read_file_lookup helloDisk [2] helloName 5120 ⟨EBPB.zero, fun _ => 0⟩
    (by decide +kernel) ⟨by decide +kernel, by decide +kernel⟩).2 ?_
  have hmatch : Match helloDisk [2] helloName 0 := by decide +kernel
  refine ⟨by decide +kernel, fun slot hslot => ?_, fun hno => absurd ⟨0, hmatch⟩ hno⟩
  have hlt := hslot.regular.slot_lt
  have honly : ∀ slot < 16, Match helloDisk [2] helloName slot → slot = 0 := by decide +kernel
  obtain rfl := honly slot hlt hslot
  refine ⟨hlt, [3, 4, 5, 6, 7, 8, 9, 10, 11, 12],
    ⟨by decide +kernel, by decide +kernel, by decide +kernel⟩, ?_⟩
  exact ⟨by decide +kernel, by decide +kernel, by decide +kernel, by decide +kernel,
    by decide +kernel⟩

/-- The same volume, where "HELLO" is a subdirectory. -/
def subdirectoryDisk : Disk :=
  Function.update helloDisk 2 fun i => if i = 0x0B then 0x10 else helloDirectory i

/-- The same volume, with a root directory of two sectors, clusters 2 and 13.
    The first is full of deleted entries. -/
def twoSectorDisk : Disk := diskOf
  [(0, helloBoot),
   (1, fun i =>
      if i = 8 then 13
      else if 8 < i ∧ i < 12 then 0
      else if 52 ≤ i ∧ i < 56 then (if i = 55 then 0x0F else 0xFF)
      else helloTable i),
   (2, fun _ => 0xE5), (13, helloDirectory), (3, sectorOf [(0, 0x7F)])]

/-- The subdirectory is loaded, and the file in the second sector is not. -/
theorem read_file_lookup_fails :
    ((volumeOf subdirectoryDisk).Valid ∧ RootChain subdirectoryDisk [2] ∧
      ¬ LooksUp subdirectoryDisk [2] helloName 5120 ⟨EBPB.zero, fun _ => 0⟩) ∧
    ((volumeOf twoSectorDisk).Valid ∧ RootChain twoSectorDisk [2, 13] ∧
      ¬ LooksUp twoSectorDisk [2, 13] helloName 5120 ⟨EBPB.zero, fun _ => 0⟩) := by
  have htwo : (volumeOf twoSectorDisk).Valid := by decide +kernel
  refine ⟨⟨by decide +kernel, ⟨by decide +kernel, by decide +kernel⟩, fun h => ?_⟩,
    htwo, ⟨by decide +kernel, by decide +kernel⟩, fun h => ?_⟩
  · have hreturns : ReturnsBuffer subdirectoryDisk helloName 5120 ⟨EBPB.zero, fun _ => 0⟩ :=
      ⟨10, by decide +kernel⟩
    have hno : ∀ slot < 16, ¬ Match subdirectoryDisk [2] helloName slot := by decide +kernel
    obtain ⟨slot, hslot⟩ := h.found.mp hreturns
    exact hno slot hslot.regular.slot_lt hslot
  · have hmatch : Match twoSectorDisk [2, 13] helloName 16 := by decide +kernel
    have hnone : foundEntry twoSectorDisk helloName = none := by decide +kernel
    obtain ⟨entry, -, hentry, -⟩ := (returnsBuffer_iff htwo _ _ _).mp (h.found.mpr ⟨16, hmatch⟩)
    rw [hnone] at hentry
    cases hentry

end ArgaldOS
