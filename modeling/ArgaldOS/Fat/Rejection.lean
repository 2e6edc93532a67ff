import ArgaldOS.Fat.Table

/-! # What `read_file` does with a bad boot sector

    The calls of the reader once more, with a disk whose sector 0 may be
    unreadable and with a record of what they do: the sectors they ask for, the
    bytes they store, a division by zero, an access through NULL.  Nothing in
    them rejects a volume: `populated` is set and never looked at.

    * `Traced.read_file_eq_plain`: without a failing read this is `read_file`;
    * `Traced.read_file_eq`: what a call does, from the boot sector on;
    * `read_file_rejects_iff`: for which boot sectors it does no harm.
-/

namespace ArgaldOS

open Chains

/-! ## Section 1: Calls with a record -/

namespace Traced

/-- What a call does. -/
inductive Event where
  | readdisk (sect : UInt32)
  | store (w : BufferWrite)
  | divideByZero
  | nullDereference
deriving Repr, DecidableEq

/-- A call, with its events in order. -/
structure Run where
  result : FileResult
  events : List Event

/-- Events that come before. -/
def Run.after (events : List Event) (run : Run) : Run :=
  { run with events := events ++ run.events }

variable (disk : Nat → Option Sector)

/-- `readdisk`, which returns NULL where the disk has nothing. -/
def readdisk (sect : UInt32) (s : FatState) : DiskPtr × FatState :=
  match disk (lba28 sect) with
  | none => (.null, s)
  | some bytes => (.buffer8, { s with buffer8 := bytes })

/-- `read_ebpb`. -/
def read_ebpb (s : FatState) : FatState :=
  let (sector_zero_array, s) := readdisk disk 0 s
  match s.contents sector_zero_array with
  | none => { s with ebpb := EBPB.zero }
  | some sector_zero => { s with ebpb := decodeEBPB sector_zero }

/-- `get_next_cluster`. -/
def get_next_cluster (cluster : UInt32) (s : FatState) :
    List Event × Option (UInt32 × FatState) :=
  let first_fat_sector := s.ebpb.reserved_sectors
  let fat_offset : UInt8 := (cluster * 4).toUInt8
  let fat_sector : UInt8 := first_fat_sector.toUInt8 + UInt8.ofNat (fat_offset.toNat / 512)
  let ent_offset : Nat := fat_offset.toNat % 512
  let (fat_contents, s) := readdisk disk fat_sector.toUInt32 s
  match s.contents fat_contents with
  -- The pointer is not tested before the bytes are copied.
  | none => ([.readdisk fat_sector.toUInt32, .nullDereference], none)
  | some fat_table => ([.readdisk fat_sector.toUInt32], some (tableValue fat_table ent_offset, s))

/-- The loop over the cluster chain. -/
def copyChain : Nat → UInt32 → Int32 → FatState → Run
  | 0, _, _, _ => ⟨.running, []⟩
  | fuel + 1, current_cluster, k, s =>
    match get_first_sector_of_cluster s.ebpb current_cluster with
    | none => ⟨.fault, [.divideByZero]⟩
    | some sector =>
      let (sector_contents, s) := readdisk disk sector s
      match s.contents sector_contents with
      | none => ⟨.fault, [.readdisk sector, .nullDereference]⟩
      | some bytes =>
        let copied := .readdisk sector :: (copySector k bytes).map .store
        let (lookup, next) := get_next_cluster disk current_cluster s
        match next with
        | none => ⟨.fault, copied ++ lookup⟩
        | some (next, s) =>
          if next = 0 then ⟨.buffer, copied ++ lookup⟩ else
          (copyChain fuel next (k + 512) s).after (copied ++ lookup)

/-- `read_file`. -/
def read_file (filename : CString) (_size : Int32) (fuel : Nat) (s : FatState) : Run :=
  let s := read_ebpb disk s
  -- `populated` is not tested here.
  match get_first_sector_of_cluster s.ebpb s.ebpb.cluster_number_of_root_directory with
  | none => ⟨.fault, [.readdisk 0, .divideByZero]⟩
  | some sector =>
    let (directory_sector, s) := readdisk disk sector s
    let run : Run :=
      match (parse_directory_sector (s.contents directory_sector)).find?
          fun entry => strcmp filename (trim entry.dir_name) with
      | none => ⟨.directory_sector, []⟩
      | some entry => copyChain disk fuel entry.dir_first_cluster_low.toUInt32 0 s
    run.after [.readdisk 0, .readdisk sector]

end Traced

/-! ## Section 2: What is recorded -/

/-- The argument of the `readdisk` call for a cluster. -/
def issuedSector (ebpb : EBPB) (cluster : UInt32) : UInt32 :=
  (get_first_sector_of_cluster ebpb cluster).getD 0

namespace Traced

/-- The events of the rounds for some clusters. -/
def chainEvents (disk : Disk) (ebpb : EBPB) : Nat → List UInt32 → List Event
  | _, [] => []
  | k, c :: cs =>
    (.readdisk (issuedSector ebpb c) ::
        (copySector (Int32.ofNat k) (clusterSector disk ebpb c)).map .store)
      ++ [.readdisk (tableSector ebpb c)] ++ chainEvents disk ebpb (k + 512) cs

section total
variable (disk : Disk)

theorem readdisk_some (sect : UInt32) (s : FatState) :
    readdisk (fun n => some (disk n)) sect s = ArgaldOS.readdisk disk sect s := rfl

theorem get_next_cluster_some (cluster : UInt32) (s : FatState) :
    get_next_cluster (fun n => some (disk n)) cluster s =
      ([.readdisk (tableSector s.ebpb cluster)],
        ArgaldOS.get_next_cluster disk cluster s) := rfl

/-- **The loop**, when every read succeeds: the same result, and the events of the
    clusters it visits. -/
theorem copyChain_some {s : FatState} (h : s.ebpb.bytes_per_sector ≠ 0) (fuel : Nat)
    (cluster : UInt32) (k : Nat) :
    copyChain (fun n => some (disk n)) fuel cluster (Int32.ofNat k) s =
      ⟨(ArgaldOS.copyChain disk fuel cluster (Int32.ofNat k) s).result,
        chainEvents disk s.ebpb k (front (nextCluster disk s.ebpb) fuel cluster)⟩ := by
  induction fuel generalizing cluster k s with
  | zero => rfl
  | succ fuel ih =>
    have hsome : get_first_sector_of_cluster s.ebpb cluster = some (issuedSector s.ebpb cluster) :=
      get_first_sector_isSome h cluster
    let s₁ : FatState := { s with buffer8 := clusterSector disk s.ebpb cluster }
    have hread : ArgaldOS.readdisk disk (issuedSector s.ebpb cluster) s = (.buffer8, s₁) := rfl
    have hcontents : s₁.contents .buffer8 = some (clusterSector disk s.ebpb cluster) := rfl
    have hebpb₁ : s₁.ebpb = s.ebpb := rfl
    obtain ⟨s', hnext, hebpb⟩ := get_next_cluster_eq disk s₁ cluster
    rw [copyChain, ArgaldOS.copyChain]
    simp only [hsome, readdisk_some, hread, hcontents, get_next_cluster_some, hnext, hebpb₁]
    rw [hebpb₁] at hebpb
    -- The chain ends here, or goes on 512 bytes further.
    by_cases hz : nextValue disk s.ebpb cluster = 0
    · have hend : nextCluster disk s.ebpb cluster = none := if_pos hz
      rw [front, hend]
      simp only [hz, if_true]
      simp [chainEvents]
    · have hgo : nextCluster disk s.ebpb cluster = some (nextValue disk s.ebpb cluster) := if_neg hz
      have hrest := ih (s := s') (by rw [hebpb]; exact h) (nextValue disk s.ebpb cluster) (k + 512)
      rw [← int32_add_512, hebpb] at hrest
      rw [front, hgo]
      simp only [hz, if_false]
      rw [hrest]
      simp [Run.after, chainEvents]

end total

/-! ## Section 3: Calls on an unreadable or empty boot sector -/

/-- The disk with a boot sector, or without a readable one. -/
def withBoot (boot : Option Sector) (disk : Disk) : Nat → Option Sector := fun n =>
  if n = 0 then boot else some (disk n)

theorem withBoot_some (b : Sector) (disk : Disk) :
    withBoot (some b) disk = fun n => some (Function.update disk 0 b n) := by
  funext n
  unfold withBoot
  by_cases hn : n = 0
  · rw [if_pos hn, hn, Function.update_self]
  · rw [if_neg hn, Function.update_of_ne hn]

section calls
variable (disk : Disk) (filename : CString) (size : Int32) (fuel : Nat) (s : FatState)

/-- A sector size of 0 is a division by zero. -/
theorem read_file_of_zero {reads : Nat → Option Sector}
    (h : (read_ebpb reads s).ebpb.bytes_per_sector = 0) :
    read_file reads filename size fuel s = ⟨.fault, [.readdisk 0, .divideByZero]⟩ := by
  unfold read_file get_first_sector_of_cluster
  simp only [h, if_true]

/-- An unreadable boot sector leaves a block of zeros behind. -/
theorem read_file_unreadable :
    read_file (withBoot none disk) filename size fuel s =
      ⟨.fault, [.readdisk 0, .divideByZero]⟩ := by
  apply read_file_of_zero
  rfl

/-- **A call on a boot sector with a sector size**: two reads, and the loop if the
    name is found. -/
theorem read_file_eq (h : (decodeEBPB (disk 0)).bytes_per_sector ≠ 0) :
    let ebpb := decodeEBPB (disk 0)
    read_file (fun n => some (disk n)) filename size fuel s =
      Run.after [.readdisk 0, .readdisk (issuedSector ebpb ebpb.cluster_number_of_root_directory)]
        ⟨(ArgaldOS.read_file disk filename size fuel s).result,
          match foundEntry disk filename with
          | none => []
          | some entry => chainEvents disk ebpb 0
              (front (nextCluster disk ebpb) fuel entry.dir_first_cluster_low.toUInt32)⟩ := by
  intro ebpb
  have hsome : get_first_sector_of_cluster ebpb ebpb.cluster_number_of_root_directory =
      some (issuedSector ebpb ebpb.cluster_number_of_root_directory) :=
    get_first_sector_isSome h _
  have hread : read_ebpb (fun n => some (disk n)) s = ⟨ebpb, disk 0⟩ := rfl
  have hplain : ArgaldOS.read_ebpb disk s = ⟨ebpb, disk 0⟩ := rfl
  let root := issuedSector ebpb ebpb.cluster_number_of_root_directory
  let s₁ : FatState := ⟨ebpb, disk (lba28 root)⟩
  have hreadRoot : ArgaldOS.readdisk disk root ⟨ebpb, disk 0⟩ = (.buffer8, s₁) := rfl
  have hcontents : s₁.contents .buffer8 = some (disk (lba28 root)) := rfl
  have hroot : rootSector disk = some (disk (lba28 root)) := by
    show (get_first_sector_of_cluster ebpb ebpb.cluster_number_of_root_directory).map _ = _
    rw [hsome]
    rfl
  unfold read_file ArgaldOS.read_file foundEntry
  rw [hread, hplain, hroot]
  simp only [hsome, readdisk_some, Option.bind_some]
  rw [hreadRoot]
  simp only [hcontents]
  cases (parse_directory_sector (some (disk (lba28 root)))).find?
      fun entry => strcmp filename (trim entry.dir_name) with
  | none => rfl
  | some entry =>
    have hloop := copyChain_some disk (s := s₁) h fuel entry.dir_first_cluster_low.toUInt32 0
    exact congrArg _ hloop

end calls

/-! ## Section 4: The events of a call -/

/-- The stores of a record. -/
def stores (events : List Event) : List BufferWrite :=
  events.filterMap fun e => match e with
    | .store w => some w
    | _ => none

section events
variable (disk : Disk) (ebpb : EBPB) (k : Nat) (clusters : List UInt32)

theorem stores_chainEvents :
    stores (chainEvents disk ebpb k clusters) = chainWrites disk ebpb k clusters := by
  induction clusters generalizing k with
  | nil => rfl
  | cons c cs ih =>
    have hcopied : ∀ ws : List BufferWrite, stores (ws.map .store) = ws := by
      intro ws
      unfold stores
      rw [List.filterMap_map]
      exact List.filterMap_some
    have happend : ∀ es fs : List Event, stores (es ++ fs) = stores es ++ stores fs := by
      intro es fs
      exact List.filterMap_append
    have hread : ∀ (sect : UInt32) (es : List Event), stores (.readdisk sect :: es) = stores es := by
      intro sect es
      rfl
    rw [chainWrites_cons, chainEvents, happend, happend, hread, hread, hcopied, ih]
    simp [stores]

/-- The sectors that a loop asks for. -/
theorem mem_chainEvents_readdisk {sect : UInt32} :
    .readdisk sect ∈ chainEvents disk ebpb k clusters ↔
      ∃ c ∈ clusters, sect = issuedSector ebpb c ∨ sect = tableSector ebpb c := by
  induction clusters generalizing k with
  | nil => simp [chainEvents]
  | cons c cs ih => simp [chainEvents, ih, or_assoc]

/-- A loop that can read the disk does not fault. -/
theorem chainEvents_noFault :
    .divideByZero ∉ chainEvents disk ebpb k clusters ∧
      .nullDereference ∉ chainEvents disk ebpb k clusters := by
  induction clusters generalizing k with
  | nil => simp [chainEvents]
  | cons c cs ih => simp [chainEvents, ih]

/-- The first round stores something. -/
theorem exists_store_chainEvents (c : UInt32) (cs : List UInt32) :
    ∃ w, .store w ∈ chainEvents disk ebpb k (c :: cs) := by
  have hne : copySector (Int32.ofNat k) (clusterSector disk ebpb c) ≠ [] := by
    simp [copySector]
  obtain ⟨w, hw⟩ := List.exists_mem_of_ne_nil _ hne
  exact ⟨w, by simp [chainEvents, hw]⟩

end events

/-- **The record is one of `read_file`**: on a disk that can be read, the result
    is the same, and the stores are its writes. -/
theorem read_file_eq_plain (disk : Disk) (filename : CString) (size : Int32) (fuel : Nat)
    (s : FatState) :
    let run := read_file (fun n => some (disk n)) filename size fuel s
    run.result = (ArgaldOS.read_file disk filename size fuel s).result ∧
      stores run.events = (ArgaldOS.read_file disk filename size fuel s).writes := by
  intro run
  rw [read_file_writes]
  by_cases hz : (decodeEBPB (disk 0)).bytes_per_sector = 0
  · have hrun : run = ⟨.fault, [.readdisk 0, .divideByZero]⟩ :=
      read_file_of_zero filename size fuel s hz
    obtain ⟨s', -, heq⟩ := ArgaldOS.read_file_eq disk filename size fuel s
    rw [hrun, heq, if_pos hz, foundEntry_eq_none hz]
    exact ⟨rfl, rfl⟩
  · have hrun := read_file_eq disk filename size fuel s hz
    rw [show run = _ from hrun]
    refine ⟨rfl, ?_⟩
    cases foundEntry disk filename with
    | none => rfl
    | some entry => exact stores_chainEvents _ _ _ _

end Traced

/-! ## Section 5: Bad boot sectors -/

/-- The boot sector can be read and describes a volume. -/
def Usable (boot : Option Sector) : Prop := ∃ b, boot = some b ∧ (Volume.ofBoot b).Valid

/-- The number of sectors of the volume, 0 if there is none. -/
def volumeSectors (boot : Option Sector) : Nat :=
  (boot.map fun b => (Volume.ofBoot b).totalSectors).getD 0

/-- The boot sector, or a sector of the volume. -/
def InVolume (boot : Option Sector) (sect : UInt32) : Prop :=
  sect = 0 ∨ sect.toNat < volumeSectors boot

/-- A call does no harm, whatever the boot sector is: it does not fault and
    stays in the volume, and it returns without touching the buffer if there
    is no volume. -/
structure HandlesBoot (boot : Option Sector) (disk : Disk) (filename : CString) (size : Int32)
    (s : FatState) : Prop where
  noDivision : ∀ fuel, .divideByZero ∉
    (Traced.read_file (Traced.withBoot boot disk) filename size fuel s).events
  noNull : ∀ fuel, .nullDereference ∉
    (Traced.read_file (Traced.withBoot boot disk) filename size fuel s).events
  inVolume : ∀ fuel sect, .readdisk sect ∈
    (Traced.read_file (Traced.withBoot boot disk) filename size fuel s).events → InVolume boot sect
  rejected : ¬ Usable boot →
    (∀ fuel w, .store w ∉
      (Traced.read_file (Traced.withBoot boot disk) filename size fuel s).events) ∧
    ∃ fuel, (Traced.read_file (Traced.withBoot boot disk) filename size fuel s).result = .buffer ∨
      (Traced.read_file (Traced.withBoot boot disk) filename size fuel s).result = .directory_sector

/-- The clusters that a call visits, if it finds the name, are in the volume,
    and there is one. -/
def VisitsVolume (b : Sector) (disk : Disk) (filename : CString) : Prop :=
  ∀ entry, foundEntry (Function.update disk 0 b) filename = some entry →
    Usable (some b) ∧
      ∀ fuel, ∀ c ∈ front (nextCluster (Function.update disk 0 b) (decodeEBPB b)) fuel
        entry.dir_first_cluster_low.toUInt32, InVolume (some b) (issuedSector (decodeEBPB b) c)

/-- The table of a volume is in the volume. -/
theorem tableSector_inVolume {b : Sector} (h : (Volume.ofBoot b).Valid) (c : UInt32) :
    InVolume (some b) (tableSector (decodeEBPB b) c) := by
  right
  have hroot := h.root
  have hcount : 0 < (Volume.ofBoot b).clusterCount := by
    unfold Volume.IsCluster at hroot
    omega
  have hdata : (Volume.ofBoot b).dataStart < (Volume.ofBoot b).totalSectors := by
    have hpos := (Nat.div_pos_iff.mp hcount).2
    have hspc := (Nat.div_pos_iff.mp hcount).1
    omega
  have hreserved : (Volume.ofBoot b).reservedSectors ≤ (Volume.ofBoot b).dataStart :=
    Nat.le_add_right _ _
  have hvalue : (tableSector (decodeEBPB b) c).toNat = (Volume.ofBoot b).reservedSectors % 256 :=
    toNat_tableSector (decodeEBPB b) c
  have hmod : (Volume.ofBoot b).reservedSectors % 256 ≤ (Volume.ofBoot b).reservedSectors :=
    Nat.mod_le _ _
  show _ < (Volume.ofBoot b).totalSectors
  omega

section readable
variable {b : Sector} (hz : (decodeEBPB b).bytes_per_sector ≠ 0) (disk : Disk) (filename : CString)
  (size : Int32) (s : FatState)

include hz

/-- The events of a call on a boot sector with a sector size. -/
theorem readable_events (fuel : Nat) :
    (Traced.read_file (Traced.withBoot (some b) disk) filename size fuel s).events =
      .readdisk 0 :: .readdisk
        (issuedSector (decodeEBPB b) (decodeEBPB b).cluster_number_of_root_directory) ::
        match foundEntry (Function.update disk 0 b) filename with
        | none => []
        | some entry => Traced.chainEvents (Function.update disk 0 b) (decodeEBPB b) 0
            (front (nextCluster (Function.update disk 0 b) (decodeEBPB b)) fuel
              entry.dir_first_cluster_low.toUInt32) := by
  have hboot : (Function.update disk 0 b) 0 = b := Function.update_self 0 b disk
  have hrun := Traced.read_file_eq (Function.update disk 0 b) filename size fuel s
    (by rw [hboot]; exact hz)
  rw [hboot] at hrun
  rw [Traced.withBoot_some, hrun]
  rfl

/-- A call that does not find the name returns the directory sector. -/
theorem readable_result (h : foundEntry (Function.update disk 0 b) filename = none) (fuel : Nat) :
    (Traced.read_file (Traced.withBoot (some b) disk) filename size fuel s).result =
      .directory_sector := by
  have hboot : (Function.update disk 0 b) 0 = b := Function.update_self 0 b disk
  obtain ⟨s', -, heq⟩ := read_file_eq (Function.update disk 0 b) filename size fuel s
  rw [Traced.withBoot_some, (Traced.read_file_eq_plain _ filename size fuel s).1, heq, hboot,
    if_neg hz, h]

/-- A call that finds the name stores a sector in its first round. -/
theorem readable_stores {entry : DIR_ENTRY}
    (h : foundEntry (Function.update disk 0 b) filename = some entry) :
    ∃ w, .store w ∈
      (Traced.read_file (Traced.withBoot (some b) disk) filename size 1 s).events := by
  obtain ⟨cs, hcs⟩ : ∃ cs, front (nextCluster (Function.update disk 0 b) (decodeEBPB b)) 1
      entry.dir_first_cluster_low.toUInt32 = entry.dir_first_cluster_low.toUInt32 :: cs :=
    ⟨_, rfl⟩
  obtain ⟨w, hw⟩ := Traced.exists_store_chainEvents (Function.update disk 0 b) (decodeEBPB b) 0
    entry.dir_first_cluster_low.toUInt32 cs
  refine ⟨w, ?_⟩
  rw [readable_events hz, h]
  dsimp only
  rw [hcs]
  exact List.mem_cons_of_mem _ (List.mem_cons_of_mem _ hw)

/-- No call divides by zero or follows a null pointer. -/
theorem readable_noFault (fuel : Nat) :
    .divideByZero ∉ (Traced.read_file (Traced.withBoot (some b) disk) filename size fuel s).events ∧
    .nullDereference ∉
      (Traced.read_file (Traced.withBoot (some b) disk) filename size fuel s).events := by
  rw [readable_events hz]
  cases foundEntry (Function.update disk 0 b) filename with
  | none => simp
  | some entry => simp [Traced.chainEvents_noFault]

/-- The sectors that a call reads: the first, the directory, those of the
    visited clusters and of the table. -/
theorem readable_sectors (hroot : InVolume (some b)
      (issuedSector (decodeEBPB b) (decodeEBPB b).cluster_number_of_root_directory))
    (hvisits : VisitsVolume b disk filename) {fuel : Nat} {sect : UInt32}
    (h : .readdisk sect ∈
      (Traced.read_file (Traced.withBoot (some b) disk) filename size fuel s).events) :
    InVolume (some b) sect := by
  rw [readable_events hz] at h
  simp only [List.mem_cons, Traced.Event.readdisk.injEq] at h
  rcases h with rfl | rfl | hloop
  · exact Or.inl rfl
  · exact hroot
  · cases hentry : foundEntry (Function.update disk 0 b) filename with
    | none => simp [hentry] at hloop
    | some entry =>
      rw [hentry] at hloop
      obtain ⟨⟨b', hb, hvalid⟩, hchain⟩ := hvisits entry hentry
      obtain rfl := Option.some.inj hb
      obtain ⟨c, hc, hsect⟩ := (Traced.mem_chainEvents_readdisk _ _ _ _).mp hloop
      rcases hsect with rfl | rfl
      · exact hchain fuel c hc
      · exact tableSector_inVolume hvalid c

theorem handlesBoot_iff_of_size :
    HandlesBoot (some b) disk filename size s ↔
      InVolume (some b)
          (issuedSector (decodeEBPB b) (decodeEBPB b).cluster_number_of_root_directory) ∧
        VisitsVolume b disk filename := by
  have hevents := readable_events hz disk filename size s
  constructor
  · intro h
    have hroot := h.inVolume 0 (issuedSector (decodeEBPB b)
      (decodeEBPB b).cluster_number_of_root_directory) (by rw [hevents]; simp)
    refine ⟨hroot, ?_⟩
    intro entry hentry
    constructor
    · by_contra husable
      obtain ⟨w, hw⟩ := readable_stores hz disk filename size s hentry
      exact (h.rejected husable).1 1 w hw
    · intro fuel c hc
      apply h.inVolume fuel
      rw [hevents, hentry]
      have hmem := (Traced.mem_chainEvents_readdisk (Function.update disk 0 b) (decodeEBPB b) 0 _).mpr
        ⟨c, hc, Or.inl rfl⟩
      exact List.mem_cons_of_mem _ (List.mem_cons_of_mem _ hmem)
  · rintro ⟨hroot, hvisits⟩
    constructor
    · intro fuel
      exact (readable_noFault hz disk filename size s fuel).1
    · intro fuel
      exact (readable_noFault hz disk filename size s fuel).2
    · intro fuel sect hsect
      exact readable_sectors hz disk filename size s hroot hvisits hsect
    · intro hunusable
      -- Only a call that finds nothing is possible on a boot sector without a volume.
      have hnone : foundEntry (Function.update disk 0 b) filename = none := by
        cases hentry : foundEntry (Function.update disk 0 b) filename with
        | none => rfl
        | some entry => exact absurd (hvisits entry hentry).1 hunusable
      refine ⟨?_, 0, Or.inr (readable_result hz disk filename size s hnone 0)⟩
      intro fuel w
      rw [hevents, hnone]
      simp

end readable

/-- **Main theorem on bad boot sectors**: a call does no harm exactly if sector 0
    can be read and has a sector size, the root directory that it describes
    is in the volume, and either no entry has the name or there is a volume and
    the chain of the entry stays in it. -/
theorem read_file_rejects_iff (boot : Option Sector) (disk : Disk) (filename : CString)
    (size : Int32) (s : FatState) :
    HandlesBoot boot disk filename size s ↔
      ∃ b, boot = some b ∧ (decodeEBPB b).bytes_per_sector ≠ 0 ∧
        InVolume boot
          (issuedSector (decodeEBPB b) (decodeEBPB b).cluster_number_of_root_directory) ∧
        VisitsVolume b disk filename := by
  cases boot with
  | none =>
    -- The zeros of an unreadable boot sector are divided by.
    constructor
    · intro h
      have hdivision := h.noDivision 0
      rw [Traced.read_file_unreadable] at hdivision
      exact absurd hdivision (by simp)
    · rintro ⟨b, hb, _⟩
      cases hb
  | some b =>
    by_cases hz : (decodeEBPB b).bytes_per_sector = 0
    · constructor
      · intro h
        have hdivision := h.noDivision 0
        have hread : (Traced.read_ebpb (Traced.withBoot (some b) disk) s).ebpb = decodeEBPB b := rfl
        rw [Traced.read_file_of_zero filename size 0 s (by rw [hread]; exact hz)] at hdivision
        exact absurd hdivision (by simp)
      · rintro ⟨b', hb, hsize, _⟩
        obtain rfl := Option.some.inj hb
        exact absurd hz hsize
    · rw [handlesBoot_iff_of_size hz]
      constructor
      · intro h
        exact ⟨b, rfl, hz, h⟩
      · rintro ⟨b', hb, _, h⟩
        obtain rfl := Option.some.inj hb
        exact h

/-- An all-zero boot sector, and one that cannot be read, lead to a division by
    zero. -/
theorem read_file_rejects_zeroBoot :
    (Traced.read_file (Traced.withBoot (some fun _ => 0) fun _ _ => 0) helloName 4608 1
        ⟨EBPB.zero, fun _ => 0⟩).events = [.readdisk 0, .divideByZero] ∧
      (Traced.read_file (Traced.withBoot none fun _ _ => 0) helloName 4608 1
        ⟨EBPB.zero, fun _ => 0⟩).events = [.readdisk 0, .divideByZero] ∧
      ¬ HandlesBoot (some fun _ => 0) (fun _ _ => 0) helloName 4608 ⟨EBPB.zero, fun _ => 0⟩ ∧
      ¬ HandlesBoot none (fun _ _ => 0) helloName 4608 ⟨EBPB.zero, fun _ => 0⟩ := by
  have hzero : ∀ fuel, Traced.read_file (Traced.withBoot (some fun _ => 0) fun _ _ => 0) helloName
      4608 fuel ⟨EBPB.zero, fun _ => 0⟩ = ⟨.fault, [.readdisk 0, .divideByZero]⟩ :=
    fun fuel => Traced.read_file_of_zero helloName 4608 fuel _ rfl
  have hnull : ∀ fuel, Traced.read_file (Traced.withBoot none fun _ _ => 0) helloName
      4608 fuel ⟨EBPB.zero, fun _ => 0⟩ = ⟨.fault, [.readdisk 0, .divideByZero]⟩ :=
    fun fuel => Traced.read_file_unreadable _ helloName 4608 fuel _
  refine ⟨by rw [hzero], by rw [hnull], ?_, ?_⟩
  · intro h
    have hdivision := h.noDivision 0
    rw [hzero] at hdivision
    exact absurd hdivision (by simp)
  · intro h
    have hdivision := h.noDivision 0
    rw [hnull] at hdivision
    exact absurd hdivision (by simp)

end ArgaldOS
