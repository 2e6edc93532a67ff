import ArgaldOS.Disk.Model
import ArgaldOS.Stdlib.Binop
import ArgaldOS.Stdlib.String

/-! # The FAT32 reader (`fs/fat/fat32.c`)

    `read_file` reads the boot sector and the first sector of the root
    directory, looks the name up and follows the cluster chain of the file,
    copying one sector for each cluster into the caller's buffer.  The loop
    ends when the chain does; nothing else bounds it, so it takes fuel here.

    The disk is a function from sector numbers to sectors.  `readdisk` returns
    a pointer to a static buffer of the driver, which is part of the state: the
    bytes behind the pointer are those of the last sector read.  The writes of
    `read_file` to the caller's buffer are recorded, with the index that the
    code computes.

    Widths and signs are those of x86-64 gcc: `char` is signed, and an `int`
    wraps.  Left out: the texts printed, and the fields of a directory entry
    that are never filled.
-/

namespace ArgaldOS

/-! ## Section 1: Numbers of a sector -/

/-- Two bytes of a sector, least significant first. -/
def le16 (sector : Sector) (offset : Nat) : UInt16 :=
  ((sector (offset + 1)).toUInt16 <<< 8) ||| (sector offset).toUInt16

/-- Four bytes of a sector, least significant first. -/
def le32 (sector : Sector) (offset : Nat) : UInt32 :=
  combine32bit (sector (offset + 3)) (sector (offset + 2)) (sector (offset + 1)) (sector offset)

/-- A character array. -/
def bytesAt (sector : Sector) (offset n : Nat) : List UInt8 :=
  (List.range n).map fun i => sector (i + offset)

/-! ## Section 2: The boot sector -/

/-- `EBPB`.  The third byte of `jmp_code` is never written. -/
structure EBPB where
  jmp_code            : List UInt8
  OEM_identifier      : List UInt8
  bytes_per_sector    : UInt16
  sectors_per_cluster : UInt8
  reserved_sectors    : UInt16
  number_of_FAT       : UInt8
  number_of_root_dir_entries   : UInt16
  total_sectors_logical_volume : UInt16
  data_media_descriptor        : UInt8
  number_of_sectors_per_FAT    : UInt16
  number_of_sectors_per_track  : UInt16
  number_of_heads              : UInt16
  number_of_hidden_sectors     : UInt32
  large_sector_count           : UInt32
  sectors_per_FAT : UInt32
  flags           : UInt16
  version_number  : UInt16
  cluster_number_of_root_directory     : UInt32
  sector_number_of_FSInfo_structure    : UInt16
  sector_number_of_backup_boot_sector  : UInt16
  reserved     : List UInt8
  drive_number : UInt8
  nt_flags     : UInt8
  signature    : UInt8
  volume_id_serial_number : UInt32
  volume_label_string     : List UInt8
  system_identifier       : List UInt8
  populated : Bool
deriving Repr, DecidableEq

/-- `EBPB ebpb = {0}`. -/
def EBPB.zero : EBPB where
  jmp_code := List.replicate 2 0
  OEM_identifier := List.replicate 9 0
  bytes_per_sector := 0
  sectors_per_cluster := 0
  reserved_sectors := 0
  number_of_FAT := 0
  number_of_root_dir_entries := 0
  total_sectors_logical_volume := 0
  data_media_descriptor := 0
  number_of_sectors_per_FAT := 0
  number_of_sectors_per_track := 0
  number_of_heads := 0
  number_of_hidden_sectors := 0
  large_sector_count := 0
  sectors_per_FAT := 0
  flags := 0
  version_number := 0
  cluster_number_of_root_directory := 0
  sector_number_of_FSInfo_structure := 0
  sector_number_of_backup_boot_sector := 0
  reserved := List.replicate 12 0
  drive_number := 0
  nt_flags := 0
  signature := 0
  volume_id_serial_number := 0
  volume_label_string := List.replicate 12 0
  system_identifier := List.replicate 9 0
  populated := false

/-- The fields that `read_ebpb` takes from sector 0. -/
def decodeEBPB (sector_zero : Sector) : EBPB where
  jmp_code := bytesAt sector_zero 0 2
  -- Strings get a terminator that is not on the disk.
  OEM_identifier := bytesAt sector_zero 0x03 8 ++ [0]
  bytes_per_sector := le16 sector_zero 0x0B
  sectors_per_cluster := sector_zero 0x0D
  reserved_sectors := le16 sector_zero 0x0E
  number_of_FAT := sector_zero 0x10
  number_of_root_dir_entries := le16 sector_zero 0x11
  total_sectors_logical_volume := le16 sector_zero 0x13
  data_media_descriptor := sector_zero 0x15
  number_of_sectors_per_FAT := le16 sector_zero 0x16
  number_of_sectors_per_track := le16 sector_zero 0x18
  number_of_heads := le16 sector_zero 0x1A
  number_of_hidden_sectors := le32 sector_zero 0x1C
  large_sector_count := le32 sector_zero 0x20
  -- Two of the field's four bytes.
  sectors_per_FAT := (le16 sector_zero 0x24).toUInt32
  flags := le16 sector_zero 0x28
  version_number := le16 sector_zero 0x2A
  cluster_number_of_root_directory := le32 sector_zero 0x2C
  sector_number_of_FSInfo_structure := le16 sector_zero 0x30
  sector_number_of_backup_boot_sector := le16 sector_zero 0x32
  reserved := bytesAt sector_zero 0x34 12
  drive_number := sector_zero 0x40
  nt_flags := sector_zero 0x41
  signature := sector_zero 0x42
  volume_id_serial_number := le32 sector_zero 0x43
  volume_label_string := bytesAt sector_zero 0x47 11 ++ [0]
  system_identifier := bytesAt sector_zero 0x52 8 ++ [0]
  populated := true

/-- The variables of the reader: `fat.ebpb`, and `buffer8` of the driver. -/
structure FatState where
  ebpb    : EBPB
  buffer8 : Sector

/-- The bytes behind a pointer, now; `none` for NULL. -/
def FatState.contents (s : FatState) : DiskPtr → Option Sector
  | .null => none
  | .buffer8 => some s.buffer8

/-- `readdisk`; on a read `accessDisk` never returns NULL. -/
def readdisk (disk : Disk) (sect : UInt32) (s : FatState) : DiskPtr × FatState :=
  (.buffer8, { s with buffer8 := disk (lba28 sect) })

/-- `read_ebpb`. -/
def read_ebpb (disk : Disk) (s : FatState) : FatState :=
  let (sector_zero_array, s) := readdisk disk 0 s
  match s.contents sector_zero_array with
  | none => { s with ebpb := EBPB.zero }
  | some sector_zero => { s with ebpb := decodeEBPB sector_zero }

/-! ## Section 3: Clusters -/

/-- `get_first_sector_of_cluster`; `none` is a division by zero. -/
def get_first_sector_of_cluster (ebpb : EBPB) (cluster : UInt32) : Option UInt32 :=
  if ebpb.bytes_per_sector = 0 then none else
  -- An int computation, in which nothing wraps.
  let root_sector := UInt32.ofNat ((ebpb.number_of_root_dir_entries.toNat * 32 +
    (ebpb.bytes_per_sector.toNat - 1)) / ebpb.bytes_per_sector.toNat)
  let first_data_sector := ebpb.reserved_sectors.toUInt32 +
    ebpb.number_of_FAT.toUInt32 * ebpb.sectors_per_FAT + root_sector
  some ((cluster - 2) * ebpb.sectors_per_cluster.toUInt32 + first_data_sector)

/-- The table value that `get_next_cluster` finds in the sector it reads, with
    the marks for the end of a chain as 0. -/
def tableValue (fat_table : Sector) (ent_offset : Nat) : UInt32 :=
  let table_value := le32 fat_table ent_offset &&& 0x0FFFFFFF
  if table_value ≥ 0x0FFFFFF8 then 0 else table_value

/-- `get_next_cluster`: offset and sector number are kept in bytes.  `none` is
    an access through NULL. -/
def get_next_cluster (disk : Disk) (cluster : UInt32) (s : FatState) :
    Option (UInt32 × FatState) :=
  let first_fat_sector := s.ebpb.reserved_sectors
  let fat_offset : UInt8 := (cluster * 4).toUInt8
  -- The quotient is 0 for every byte, and the remainder the byte itself.
  let fat_sector : UInt8 := first_fat_sector.toUInt8 + UInt8.ofNat (fat_offset.toNat / 512)
  let ent_offset : Nat := fat_offset.toNat % 512
  let (fat_contents, s) := readdisk disk fat_sector.toUInt32 s
  match s.contents fat_contents with
  | none => none
  | some fat_table => some (tableValue fat_table ent_offset, s)

/-! ## Section 4: The directory -/

def DIR_ENTRY_UNUSED : UInt8 := 0x00
def DIR_ENTRY_ATTR_LONG_FILE_NAME : UInt8 := 0x0F

/-- `DIR_ENTRY`, as far as `parse_directory_sector` fills it. -/
structure DIR_ENTRY where
  dir_name      : CString
  dir_extension : CString
  dir_first_cluster_high : UInt16
  dir_first_cluster_low  : UInt16
  dir_file_size     : UInt32
  dir_first_cluster : UInt32
deriving Repr, DecidableEq

/-- `(uint16_t)hi << 8 | lo` for two values of type `char`. -/
def charWord (hi lo : UInt8) : UInt16 :=
  (hi.toInt8.toInt16.toUInt16 <<< 8) ||| lo.toInt8.toInt16.toUInt16

/-- The entry in slot `i` of a directory sector. -/
def dirEntry (directory_sector : Sector) (i : Nat) : DIR_ENTRY :=
  let entry : Nat → UInt8 := fun k => directory_sector (i * 32 + k)
  -- The first cluster is kept twice: as two words of signed characters, and whole.
  { dir_name := strncpy_safe entry 9
    dir_extension := strncpy_safe (fun k => entry (0x08 + k)) 4
    dir_first_cluster_high := charWord (entry 0x15) (entry 0x14)
    dir_first_cluster_low := charWord (entry 0x1B) (entry 0x1A)
    dir_file_size := combine32bit (entry 0x1F) (entry 0x1E) (entry 0x1D) (entry 0x1C)
    dir_first_cluster := combine32bit (entry 0x15) (entry 0x14) (entry 0x1B) (entry 0x1A) }

/-- The slot is listed. -/
def Listed (directory_sector : Sector) (i : Nat) : Prop :=
  directory_sector (i * 32) ≠ DIR_ENTRY_UNUSED ∧
    directory_sector (i * 32 + 0x0B) ≠ DIR_ENTRY_ATTR_LONG_FILE_NAME

instance (directory_sector : Sector) (i : Nat) : Decidable (Listed directory_sector i) :=
  inferInstanceAs (Decidable (_ ∧ _))

/-- `parse_directory_sector`. -/
def parse_directory_sector : Option Sector → List DIR_ENTRY
  | none => []
  | some directory_sector =>
    (List.range 16).filterMap fun i =>
      -- No test for the mark of a deleted entry, and no stop at an unused one.
      if Listed directory_sector i then some (dirEntry directory_sector i) else none

/-! ## Section 5: Reading a file -/

/-- A write to the caller's buffer: `buffer[index] = byte`. -/
structure BufferWrite where
  index : Int
  byte  : UInt8
deriving Repr, DecidableEq

/-- How a call of `read_file` stands: stopped by a fault, still in the loop, or
    returned with the caller's buffer or with the directory sector. -/
inductive FileResult where
  | fault
  | running
  | buffer
  | directory_sector
deriving Repr, DecidableEq

/-- What a call of `read_file` does. -/
structure FileRun where
  result : FileResult
  writes : List BufferWrite
  state  : FatState

/-- The inner loop: `buffer[j+k] = sector_contents[j]`. -/
def copySector (k : Int32) (bytes : Sector) : List BufferWrite :=
  (List.range 512).map fun j => ⟨(Int32.ofNat j + k).toInt, bytes j⟩

/-- The loop over the cluster chain. -/
def copyChain (disk : Disk) : Nat → UInt32 → Int32 → FatState → FileRun
  | 0, _, _, s => ⟨.running, [], s⟩
  | fuel + 1, current_cluster, k, s =>
    match get_first_sector_of_cluster s.ebpb current_cluster with
    | none => ⟨.fault, [], s⟩
    | some sector =>
      let (sector_contents, s) := readdisk disk sector s
      match s.contents sector_contents with
      | none => ⟨.fault, [], s⟩
      | some bytes =>
        -- The pointer is not used after the next read, which replaces the bytes behind it.
        let copied := copySector k bytes
        match get_next_cluster disk current_cluster s with
        | none => ⟨.fault, copied, s⟩
        | some (next, s) =>
          -- The only way out of the loop.
          if next = 0 then ⟨.buffer, copied, s⟩ else
          let rest := copyChain disk fuel next (k + 512) s
          { rest with writes := copied ++ rest.writes }

/-- `read_file`.  The size of the buffer is not used. -/
def read_file (disk : Disk) (filename : CString) (_size : Int32) (fuel : Nat) (s : FatState) :
    FileRun :=
  let s := read_ebpb disk s
  match get_first_sector_of_cluster s.ebpb s.ebpb.cluster_number_of_root_directory with
  | none => ⟨.fault, [], s⟩
  | some sector =>
    let (directory_sector, s) := readdisk disk sector s
    match (parse_directory_sector (s.contents directory_sector)).find?
        fun entry => strcmp filename (trim entry.dir_name) with
    -- Not found: the directory sector is returned in place of the file.
    | none => ⟨.directory_sector, [], s⟩
    -- The low word only, although the whole number is in the entry.
    | some entry => copyChain disk fuel entry.dir_first_cluster_low.toUInt32 0 s

end ArgaldOS
