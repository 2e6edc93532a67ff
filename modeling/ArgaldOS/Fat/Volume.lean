import ArgaldOS.Fat.Chain

/-! # FAT32 volumes

    What a volume is and what the contents of a file are, stated over the disk
    without the code: the numbers of the boot sector in full width, clusters of
    any size, table entries of 28 bits at any position, and the live entries of
    a directory sector up to its end mark.

    * `Volume.Valid`: the geometry of a volume;
    * `RegularFile`, `EmptyFile`: an entry of the root directory;
    * `FileChain`: a well-formed cluster chain;
    * `fileContents`: the concatenation of its sectors.
-/

namespace ArgaldOS

open Chains

/-! ## Section 1: Numbers of a sector -/

theorem toNat_le16 (sector : Sector) (offset : Nat) :
    (le16 sector offset).toNat = (sector (offset + 1)).toNat * 2 ^ 8 + (sector offset).toNat :=
  Words.toNat_word16 _ _

theorem toNat_le32 (sector : Sector) (offset : Nat) :
    (le32 sector offset).toNat =
      (le16 sector (offset + 2)).toNat * 2 ^ 16 + (le16 sector offset).toNat := by
  have hthree : offset + 2 + 1 = offset + 3 := rfl
  unfold le32
  rw [toNat_combine32bit, toNat_le16, toNat_le16, hthree]
  omega

/-- The number that `n` bytes stand for, least significant first. -/
def littleEndian (sector : Sector) (offset : Nat) : Nat → Nat
  | 0 => 0
  | n + 1 => (sector offset).toNat + 256 * littleEndian sector (offset + 1) n

theorem littleEndian_two (sector : Sector) (offset : Nat) :
    littleEndian sector offset 2 = (le16 sector offset).toNat := by
  simp only [littleEndian, toNat_le16]
  omega

theorem littleEndian_four (sector : Sector) (offset : Nat) :
    littleEndian sector offset 4 = (le32 sector offset).toNat := by
  have htwo : offset + 1 + 1 = offset + 2 := rfl
  have hthree : offset + 2 + 1 = offset + 3 := rfl
  unfold le32
  simp only [littleEndian, toNat_combine32bit, htwo, hthree]
  omega

/-! ## Section 2: Geometry -/

/-- The numbers of a boot sector that say where things are. -/
structure Volume where
  bytesPerSector    : Nat
  sectorsPerCluster : Nat
  reservedSectors   : Nat
  numberOfTables    : Nat
  rootEntries       : Nat
  totalSectors      : Nat
  sectorsPerTable   : Nat
  rootCluster       : Nat
deriving Repr, DecidableEq

/-- The volume that a boot sector describes. -/
def Volume.ofBoot (boot : Sector) : Volume where
  bytesPerSector := (le16 boot 0x0B).toNat
  sectorsPerCluster := (boot 0x0D).toNat
  reservedSectors := (le16 boot 0x0E).toNat
  numberOfTables := (boot 0x10).toNat
  rootEntries := (le16 boot 0x11).toNat
  totalSectors := (le32 boot 0x20).toNat
  sectorsPerTable := (le32 boot 0x24).toNat
  rootCluster := (le32 boot 0x2C).toNat

def volumeOf (disk : Disk) : Volume := Volume.ofBoot (disk 0)

namespace Volume
variable (v : Volume)

/-- The first sector of the data area, after the reserved sectors and the tables. -/
def dataStart : Nat := v.reservedSectors + v.numberOfTables * v.sectorsPerTable

def clusterCount : Nat := (v.totalSectors - v.dataStart) / v.sectorsPerCluster

/-- Clusters are numbered from 2 on. -/
def IsCluster (c : Nat) : Prop := 2 ≤ c ∧ c < v.clusterCount + 2

instance (c : Nat) : Decidable (v.IsCluster c) := inferInstanceAs (Decidable (_ ∧ _))

/-- Sector `i` of a cluster. -/
def sectorOfCluster (c i : Nat) : Nat := v.dataStart + (c - 2) * v.sectorsPerCluster + i

/-- The first sector of the root directory. -/
def rootSector : Nat := v.sectorOfCluster v.rootCluster 0

/-- A volume with 512-byte sectors, within the reach of LBA28. -/
structure Valid : Prop where
  bytes       : v.bytesPerSector = 512
  cluster     : v.sectorsPerCluster ∣ 128
  reserved    : 0 < v.reservedSectors
  tables      : 0 < v.numberOfTables
  noEntries   : v.rootEntries = 0
  addressable : v.totalSectors ≤ 2 ^ 28
  tableSize   : 4 * (v.clusterCount + 2) ≤ 512 * v.sectorsPerTable
  root        : v.IsCluster v.rootCluster

instance : Decidable v.Valid :=
  decidable_of_iff (v.bytesPerSector = 512 ∧ v.sectorsPerCluster ∣ 128 ∧ 0 < v.reservedSectors ∧
      0 < v.numberOfTables ∧ v.rootEntries = 0 ∧ v.totalSectors ≤ 2 ^ 28 ∧
      4 * (v.clusterCount + 2) ≤ 512 * v.sectorsPerTable ∧ v.IsCluster v.rootCluster)
    ⟨fun ⟨h₁, h₂, h₃, h₄, h₅, h₆, h₇, h₈⟩ => ⟨h₁, h₂, h₃, h₄, h₅, h₆, h₇, h₈⟩,
      fun ⟨h₁, h₂, h₃, h₄, h₅, h₆, h₇, h₈⟩ => ⟨h₁, h₂, h₃, h₄, h₅, h₆, h₇, h₈⟩⟩

end Volume

/-! ## Section 3: Chains -/

/-- The entry of a cluster in the first table: the low 28 bits of four bytes. -/
def tableEntry (disk : Disk) (c : Nat) : Nat :=
  (le32 (disk ((volumeOf disk).reservedSectors + 4 * c / 512)) (4 * c % 512)).toNat % 2 ^ 28

/-- The cluster after `c`; none after the last. -/
def clusterAfter (disk : Disk) (c : Nat) : Option Nat :=
  if 0x0FFFFFF8 ≤ tableEntry disk c then none else some (tableEntry disk c)

/-! ## Section 4: Entries of the root directory -/

/-- The first sector of the root directory. -/
def rootDirectory (disk : Disk) : Sector := disk (volumeOf disk).rootSector

/-- The first cluster of an entry, in 32 bits. -/
def firstCluster (directory : Sector) (slot : Nat) : Nat :=
  (le16 directory (slot * 32 + 0x14)).toNat * 65536 + (le16 directory (slot * 32 + 0x1A)).toNat

/-- A live entry before the end mark, of a file and not of a label or a
    directory, whose base name is `filename` padded with spaces.  The directory
    has `slots` slots. -/
structure RegularFile (directory : Sector) (slots : Nat) (filename : CString) (slot : Nat) :
    Prop where
  slot_lt    : slot < slots
  before_end : ∀ j ≤ slot, directory (j * 32) ≠ 0
  live       : directory (slot * 32) ≠ 0xE5
  file       : directory (slot * 32 + 0x0B) &&& 0x18 = 0
  chars      : ∀ k < 8, directory (slot * 32 + k) ≠ 0
  name       : trim ((List.range 8).map fun k => directory (slot * 32 + k)) = filename

instance (directory : Sector) (slots : Nat) (filename : CString) (slot : Nat) :
    Decidable (RegularFile directory slots filename slot) :=
  decidable_of_iff (slot < slots ∧ (∀ j ≤ slot, directory (j * 32) ≠ 0) ∧
      directory (slot * 32) ≠ 0xE5 ∧ directory (slot * 32 + 0x0B) &&& 0x18 = 0 ∧
      (∀ k < 8, directory (slot * 32 + k) ≠ 0) ∧
      trim ((List.range 8).map fun k => directory (slot * 32 + k)) = filename)
    ⟨fun ⟨h₁, h₂, h₃, h₄, h₅, h₆⟩ => ⟨h₁, h₂, h₃, h₄, h₅, h₆⟩,
      fun ⟨h₁, h₂, h₃, h₄, h₅, h₆⟩ => ⟨h₁, h₂, h₃, h₄, h₅, h₆⟩⟩

/-- An entry without clusters. -/
def EmptyFile (directory : Sector) (slot : Nat) : Prop :=
  firstCluster directory slot = 0 ∧ le32 directory (slot * 32 + 0x1C) = 0

/-- A well-formed chain: it ends, and it stays in the data area and off the
    root directory. -/
structure FileChain (disk : Disk) (first : Nat) (clusters : List Nat) : Prop where
  visits   : Visits (clusterAfter disk) first clusters
  in_range : ∀ c ∈ clusters, (volumeOf disk).IsCluster c
  not_root : (volumeOf disk).rootCluster ∉ clusters

/-! ## Section 5: Contents -/

/-- The sectors of a list of clusters. -/
def fileSectors (v : Volume) (clusters : List Nat) : List Nat :=
  clusters.flatMap fun c => (List.range v.sectorsPerCluster).map (v.sectorOfCluster c)

/-- The concatenation of the sectors of a list of clusters. -/
def fileContents (disk : Disk) (clusters : List Nat) : List UInt8 :=
  (fileSectors (volumeOf disk) clusters).flatMap fun n => bytesAt (disk n) 0 512

end ArgaldOS
