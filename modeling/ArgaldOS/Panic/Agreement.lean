import ArgaldOS.Elf.Confinement
import ArgaldOS.Elf.Reads
import ArgaldOS.Panic.Model

/-! # Two parsers of section headers

    The loader assembles the fields of a section header byte by byte, at an
    index that it computes in `int`; `getFunctionName` lays a packed structure
    over the same bytes, at an address that it computes as a pointer.

    * `load16_eq`, `load32_eq`, `load64_eq`: a word in memory is the number
      that the loader assembles;
    * `parse_elf_header_fields`: what the loader takes from the file header;
    * `section_parsers_agree`: both find the same table, the same number of
      sections and the same fields.
-/

namespace ArgaldOS

/-! ## Section 1: Words in memory -/

section words
variable (mem : Mem) (a : UInt64)

theorem load16_eq : mem.load16 a = ((mem (a + 1)).toUInt16 <<< 8) ||| (mem a).toUInt16 := by
  have h0 := (mem a).toNat_lt
  have h1 := (mem (a + 1)).toNat_lt
  apply UInt16.toNat_inj.mp
  rw [Words.toNat_word16]
  unfold Mem.load16
  rw [UInt16.toNat_ofNat', Nat.mod_eq_of_lt (by omega)]
  omega

theorem load32_eq :
    mem.load32 a = combine32bit (mem (a + 3)) (mem (a + 2)) (mem (a + 1)) (mem a) := by
  have h0 := (mem a).toNat_lt
  have h1 := (mem (a + 1)).toNat_lt
  have h2 := (mem (a + 2)).toNat_lt
  have h3 := (mem (a + 3)).toNat_lt
  apply UInt32.toNat_inj.mp
  rw [toNat_combine32bit]
  unfold Mem.load32
  rw [UInt32.toNat_ofNat', Nat.mod_eq_of_lt (by omega)]
  omega

theorem load64_eq :
    mem.load64 a = combine64bit (mem (a + 7)) (mem (a + 6)) (mem (a + 5)) (mem (a + 4))
      (mem (a + 3)) (mem (a + 2)) (mem (a + 1)) (mem a) := by
  apply Words.ext
  rw [toNat_combine64bit, Mem.toNat_load64]
  omega

/-! ## Section 2: A file in memory -/

/-- The image that starts at the pointer `start`. -/
def imageAt (mem : Mem) (start : UInt64) : Image := fun i => mem (start + i)

variable (start i : UInt64)

theorem read16_imageAt : (read16 (imageAt mem start) i).value = mem.load16 (start + i) := by
  rw [load16_eq, UInt64.add_assoc]
  rfl

theorem read32_imageAt : (read32 (imageAt mem start) i).value = mem.load32 (start + i) := by
  rw [load32_eq]
  simp only [UInt64.add_assoc]
  rfl

theorem read64_imageAt : (read64 (imageAt mem start) i).value = mem.load64 (start + i) := by
  rw [load64_eq]
  simp only [UInt64.add_assoc]
  rfl

end words

/-! ## Section 3: The file header -/

theorem is_valid_elf_iff (m0 m1 m2 m3 : UInt8) :
    is_valid_elf [m0, m1, m2, m3, 0] = true ↔ m0 = 0x7F ∧ m1 = 0x45 ∧ m2 = 0x4C ∧ m3 = 0x46 := by
  unfold is_valid_elf
  rw [beq_iff_eq, memcmp_eq_zero_iff]
  constructor
  · intro h
    exact ⟨h 0 (by omega), h 1 (by omega), h 2 (by omega), h 3 (by omega)⟩
  · rintro ⟨rfl, rfl, rfl, rfl⟩ i hi
    have hcases : i = 0 ∨ i = 1 ∨ i = 2 ∨ i = 3 := by omega
    rcases hcases with rfl | rfl | rfl | rfl <;> rfl

/-- What the loader takes from the file header to find the sections. -/
theorem parse_elf_header_fields {elf : Image} {header : ELF_FILE_HEADER_T}
    (h : (parse_elf_header elf).value = some header) :
    (elf 0 = 0x7F ∧ elf 1 = 0x45 ∧ elf 2 = 0x4C ∧ elf 3 = 0x46) ∧ header.elf_format = elf 4 ∧
      header.section_header_offset = (read64 elf 0x28).value ∧
      header.section_header_entry_count = (read16 elf 0x3C).value := by
  unfold parse_elf_header at h
  simp only [Reading.value_bind] at h
  split at h
  · cases h
  · rename_i hmagic
    obtain rfl := Option.some.inj h
    refine ⟨(is_valid_elf_iff _ _ _ _).mp ?_, rfl, rfl, rfl⟩
    exact (by simpa using hmagic : is_valid_elf [(byteAt elf 0).value, (byteAt elf 1).value,
      (byteAt elf 2).value, (byteAt elf 3).value, 0] = true)

/-! ## Section 4: A section header -/

/-- The pointer to a section header is that to the first of the bytes the loader
    reads. -/
theorem section_pointer (start offset : UInt64) {i : Nat} (hi : i < 2 ^ 16) :
    start + base_offset offset i 64 = offset + start + elfSectionHeaderSize * UInt64.ofNat i := by
  have hsize : (64 : UInt16).toNat = 64 := rfl
  rw [base_offset_of_lt offset i 64 (by rw [hsize]; omega), hsize, UInt64.ofNat_mul]
  unfold elfSectionHeaderSize
  have h64 : UInt64.ofNat 64 = 64 := rfl
  rw [h64]
  grind

/-- **The two section parsers agree**: for an ELF image of class 2 with entries
    of 64 bytes, `getFunctionName` finds the table and the number of sections
    that the loader finds, and the fields of each section are the same. -/
theorem section_parsers_agree (mem : Mem) (start : UInt64) (header : ELF_FILE_HEADER_T)
    (hparse : (parse_elf_header (imageAt mem start)).value = some header)
    (hclass : header.elf_format = 2) (hsize : header.section_header_entry_size = 64) :
    ∃ table, sectionTable mem start = some table ∧
      table.sectionHeaderOffset = header.section_header_offset + start ∧
      table.sectionHeaderNumEntries = header.section_header_entry_count ∧
      ∀ i < header.section_header_entry_count.toNat,
        (table.header mem i).name = (sectionAt (imageAt mem start) header i).name_offset ∧
        (table.header mem i).type = (sectionAt (imageAt mem start) header i).type ∧
        (table.header mem i).address = (sectionAt (imageAt mem start) header i).virtual_address ∧
        (table.header mem i).offset = (sectionAt (imageAt mem start) header i).offset ∧
        (table.header mem i).size = (sectionAt (imageAt mem start) header i).size := by
  obtain ⟨⟨h0, h1, h2, h3⟩, h4, hoffset, hcount⟩ := parse_elf_header_fields hparse
  rw [read64_imageAt] at hoffset
  rw [read16_imageAt] at hcount
  have hvalid : mem start = 0x7F ∧ mem (start + 1) = 0x45 ∧ mem (start + 2) = 0x4C ∧
      mem (start + 3) = 0x46 ∧ mem (start + 4) = 2 := by
    refine ⟨?_, h1, h2, h3, h4.symm.trans hclass⟩
    rw [← UInt64.add_zero start]
    exact h0
  refine ⟨⟨header.section_header_offset + start, header.section_header_entry_count,
    mem.load16 (start + 62)⟩, ?_, rfl, rfl, fun i hi => ?_⟩
  · unfold sectionTable
    rw [if_pos hvalid, hoffset, hcount]
  have hlt : i < 2 ^ 16 := Nat.lt_trans hi header.section_header_entry_count.toNat_lt
  have hptr := section_pointer start header.section_header_offset hlt
  unfold SectionTable.header elfSectionHeader.at sectionAt parse_section_header
  simp only [Reading.value_bind, Reading.value_pure, read32_imageAt, read64_imageAt, hsize,
    ← UInt64.add_assoc, hptr]
  trivial

/-- The image of one page as the kernel's file. -/
def onePageFile : Mem := fun a => onePageImage (a - 0xFFFFFFFF80400000)

theorem imageAt_onePageFile : imageAt onePageFile 0xFFFFFFFF80400000 = onePageImage := by
  funext i
  unfold imageAt onePageFile
  congr 1
  grind

/-- Both find its one section. -/
theorem section_parsers_agree_onePage :
    ∃ table, sectionTable onePageFile 0xFFFFFFFF80400000 = some table ∧
      table.sectionHeaderOffset = 0xFFFFFFFF80400040 ∧ table.sectionHeaderNumEntries = 1 ∧
      (table.header onePageFile 0).name = 0 ∧ (table.header onePageFile 0).type = 1 ∧
      (table.header onePageFile 0).address = 0x400000 ∧
      (table.header onePageFile 0).offset = 0x100 ∧ (table.header onePageFile 0).size = 4 := by
  have hparse : (parse_elf_header (imageAt onePageFile 0xFFFFFFFF80400000)).value =
      some onePageHeader := by
    rw [imageAt_onePageFile]
    exact onePageImage_parse
  obtain ⟨table, htable, hoffset, hcount, hfields⟩ := section_parsers_agree onePageFile
    0xFFFFFFFF80400000 onePageHeader hparse (by simp [onePageHeader]) (by simp [onePageHeader])
  have hfields₀ := hfields 0 (by decide)
  rw [imageAt_onePageFile, onePageImage_section] at hfields₀
  exact ⟨table, htable, hoffset, hcount, hfields₀⟩

end ArgaldOS
