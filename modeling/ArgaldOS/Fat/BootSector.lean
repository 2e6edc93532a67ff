import ArgaldOS.Disk.Store
import ArgaldOS.Fat.Volume

/-! # The extended BIOS parameter block

    The layout of the parameter block as `fat32.h` has it, and what `read_ebpb`
    stores of it.  Two fields are stored in part: the third byte of `jmp_code`,
    which no assignment reaches, and the upper half of `sectors_per_FAT`.

    * `layout_contiguous`: the fields fill the sector up to the boot code;
    * `number_stored`: the numbers that are right in any case;
    * `boot_decoded_iff`: when the whole block is right;
    * `readdisk_driver`: the sector behind `readdisk` is the one that the
      driver of the disk delivers.
-/

namespace ArgaldOS

/-! ## Section 1: The layout -/

/-- A number of the parameter block: its place, and what is stored of it. -/
structure NumberField where
  offset : Nat
  width  : Nat
  value  : EBPB → Nat

/-- A text: the stored characters, with a terminator where the array has one. -/
structure TextField where
  offset     : Nat
  width      : Nat
  terminated : Bool
  value      : EBPB → List UInt8

def sectorsPerFAT : NumberField := ⟨0x24, 4, fun e => e.sectors_per_FAT.toNat⟩

/-- The numbers that are stored in full width. -/
def fullNumbers : List NumberField :=
  [ ⟨0x0B, 2, fun e => e.bytes_per_sector.toNat⟩,
    ⟨0x0D, 1, fun e => e.sectors_per_cluster.toNat⟩,
    ⟨0x0E, 2, fun e => e.reserved_sectors.toNat⟩,
    ⟨0x10, 1, fun e => e.number_of_FAT.toNat⟩,
    ⟨0x11, 2, fun e => e.number_of_root_dir_entries.toNat⟩,
    ⟨0x13, 2, fun e => e.total_sectors_logical_volume.toNat⟩,
    ⟨0x15, 1, fun e => e.data_media_descriptor.toNat⟩,
    ⟨0x16, 2, fun e => e.number_of_sectors_per_FAT.toNat⟩,
    ⟨0x18, 2, fun e => e.number_of_sectors_per_track.toNat⟩,
    ⟨0x1A, 2, fun e => e.number_of_heads.toNat⟩,
    ⟨0x1C, 4, fun e => e.number_of_hidden_sectors.toNat⟩,
    ⟨0x20, 4, fun e => e.large_sector_count.toNat⟩,
    ⟨0x28, 2, fun e => e.flags.toNat⟩,
    ⟨0x2A, 2, fun e => e.version_number.toNat⟩,
    ⟨0x2C, 4, fun e => e.cluster_number_of_root_directory.toNat⟩,
    ⟨0x30, 2, fun e => e.sector_number_of_FSInfo_structure.toNat⟩,
    ⟨0x32, 2, fun e => e.sector_number_of_backup_boot_sector.toNat⟩,
    ⟨0x40, 1, fun e => e.drive_number.toNat⟩,
    ⟨0x41, 1, fun e => e.nt_flags.toNat⟩,
    ⟨0x42, 1, fun e => e.signature.toNat⟩,
    ⟨0x43, 4, fun e => e.volume_id_serial_number.toNat⟩ ]

def numberFields : List NumberField := sectorsPerFAT :: fullNumbers

def textFields : List TextField :=
  [ ⟨0x03, 8, true, fun e => e.OEM_identifier⟩,
    ⟨0x34, 12, false, fun e => e.reserved⟩,
    ⟨0x47, 11, true, fun e => e.volume_label_string⟩,
    ⟨0x52, 8, true, fun e => e.system_identifier⟩ ]

/-- The bytes that the fields take, `jmp_code` first. -/
def layout : List Nat :=
  List.range' 0 3 ++ (numberFields.flatMap fun f => List.range' f.offset f.width) ++
    textFields.flatMap fun f => List.range' f.offset f.width

/-- The fields fill the sector up to the boot code, and do not overlap. -/
theorem layout_contiguous : layout.Perm (List.range 0x5A) := by
  decide

/-! ## Section 2: What is stored -/

/-- `jmp_code` as it is stored: no assignment reaches its third byte, which keeps
    what the stack held. -/
def storedJmpCode (ebpb : EBPB) (stack : UInt8) : List UInt8 := ebpb.jmp_code ++ [stack]

/-- A stored block is that of the sector. -/
structure BootDecoded (boot : Sector) (ebpb : EBPB) (stack : UInt8) : Prop where
  jmp_code : storedJmpCode ebpb stack = bytesAt boot 0 3
  numbers  : ∀ f ∈ numberFields, f.value ebpb = littleEndian boot f.offset f.width
  texts    : ∀ f ∈ textFields,
    f.value ebpb = bytesAt boot f.offset f.width ++ (if f.terminated then [0] else [])

theorem littleEndian_one (sector : Sector) (offset : Nat) :
    littleEndian sector offset 1 = (sector offset).toNat := by
  simp [littleEndian]

section stored
variable (boot : Sector)

/-- **The numbers that are right in any case.** -/
theorem number_stored :
    ∀ f ∈ fullNumbers, f.value (decodeEBPB boot) = littleEndian boot f.offset f.width := by
  unfold fullNumbers decodeEBPB
  simp [littleEndian_one, littleEndian_two, littleEndian_four]

theorem text_stored : ∀ f ∈ textFields, f.value (decodeEBPB boot) =
    bytesAt boot f.offset f.width ++ (if f.terminated then [0] else []) := by
  unfold textFields decodeEBPB
  simp

/-- Half of the field is stored. -/
theorem sectorsPerFAT_stored_iff :
    sectorsPerFAT.value (decodeEBPB boot) = littleEndian boot 0x24 4 ↔
      boot 0x26 = 0 ∧ boot 0x27 = 0 := by
  have hvalue : sectorsPerFAT.value (decodeEBPB boot) = (le16 boot 0x24).toNat := by
    show (le16 boot 0x24).toUInt32.toNat = _
    rw [UInt16.toNat_toUInt32]
  have hhigh : (le16 boot (0x24 + 2)).toNat = (boot 0x27).toNat * 2 ^ 8 + (boot 0x26).toNat :=
    toNat_le16 boot 0x26
  have h26 : boot 0x26 = 0 ↔ (boot 0x26).toNat = 0 := UInt8.toNat_inj.symm
  have h27 : boot 0x27 = 0 ↔ (boot 0x27).toNat = 0 := UInt8.toNat_inj.symm
  rw [hvalue, littleEndian_four, toNat_le32, hhigh, h26, h27]
  omega

theorem jmpCode_stored_iff (stack : UInt8) :
    storedJmpCode (decodeEBPB boot) stack = bytesAt boot 0 3 ↔ stack = boot 2 := by
  unfold storedJmpCode decodeEBPB bytesAt
  simp [List.range_succ]

end stored

/-- **Main theorem on the boot sector**: the block is stored right exactly if its
    tables have fewer than 65536 sectors each, and the stack happened to hold
    the third byte of the jump. -/
theorem boot_decoded_iff (disk : Disk) (s : FatState) (stack : UInt8) :
    BootDecoded (disk 0) (read_ebpb disk s).ebpb stack ↔
      (disk 0 0x26 = 0 ∧ disk 0 0x27 = 0) ∧ stack = disk 0 2 := by
  have hebpb : (read_ebpb disk s).ebpb = decodeEBPB (disk 0) := rfl
  rw [hebpb]
  constructor
  · intro h
    exact ⟨(sectorsPerFAT_stored_iff _).mp (h.numbers sectorsPerFAT List.mem_cons_self),
      (jmpCode_stored_iff _ stack).mp h.jmp_code⟩
  · rintro ⟨htable, hstack⟩
    refine ⟨(jmpCode_stored_iff _ stack).mpr hstack, ?_, text_stored _⟩
    intro f hf
    rcases List.mem_cons.mp hf with rfl | hfull
    · exact (sectorsPerFAT_stored_iff _).mpr htable
    · exact number_stored _ f hfull

/-- A volume whose tables have 65536 sectors. -/
def bigTableBoot : Sector := sectorOf
  [(0, 0xEB), (1, 0x58), (2, 0x90), (0x0C, 0x02), (0x0D, 1), (0x0E, 32), (0x10, 1), (0x22, 0x80),
    (0x26, 1), (0x2C, 2)]

/-- The size of its tables is stored as 0, whatever the stack held. -/
theorem boot_decoded_bigTable :
    (Volume.ofBoot bigTableBoot).Valid ∧ (decodeEBPB bigTableBoot).sectors_per_FAT = 0 ∧
      littleEndian bigTableBoot 0x24 4 = 65536 ∧
      ∀ stack, ¬ BootDecoded bigTableBoot (read_ebpb (diskOf [(0, bigTableBoot)])
        ⟨EBPB.zero, fun _ => 0⟩).ebpb stack := by
  have hstored : (decodeEBPB bigTableBoot).sectors_per_FAT = 0 := by decide +kernel
  have hfield : littleEndian bigTableBoot 0x24 4 = 65536 := by decide +kernel
  refine ⟨by decide +kernel, hstored, hfield, ?_⟩
  intro stack h
  have hnumber : (decodeEBPB bigTableBoot).sectors_per_FAT.toNat =
    littleEndian bigTableBoot 0x24 4 := h.numbers sectorsPerFAT List.mem_cons_self
  rw [hstored, hfield] at hnumber
  exact absurd hnumber (by simp)

/-! ## Section 3: The driver behind `readdisk` -/

/-- **`readdisk` is what the driver does**: when its polling ends, the driver
    returns the same pointer, and the same 512 bytes are behind it. -/
theorem readdisk_driver {fuel : Nat} {sect : Int32} {σ : Ata.DiskState}
    {r : DiskPtr × Ata.DiskState} (h : Ata.readdisk fuel sect σ = some r) (s : FatState) :
    r.1 = (readdisk σ.drive.sectors sect.toUInt32 s).1 ∧
      (∀ i < 512, r.2.buffer8 i = (readdisk σ.drive.sectors sect.toUInt32 s).2.buffer8 i) ∧
      r.2.drive.sectors = σ.drive.sectors := by
  obtain ⟨p, σ'⟩ := r
  obtain ⟨rfl, hsectors, hbuffer⟩ := Ata.accessDisk_read h
  refine ⟨rfl, ?_, hsectors⟩
  intro i hi
  dsimp only
  rw [hbuffer, Ata.overwrite_lt hi]
  rfl

end ArgaldOS
