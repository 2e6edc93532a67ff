import ArgaldOS.Elf.Reads

/-! # Where the section headers are

    `parse_section_header` multiplies the index of a section by the size of an
    entry.  Both are numbers of type `int` there, and the product of two 16-bit
    numbers may be larger than that type.

    * `toNat_intProduct`: the product as the 64-bit number that is added to the
      offset of the table;
    * `base_offset_inj`: different sections have their headers at different
      places, all the same;
    * `offsetRight_iff`: the sections whose header is read at the right place.
-/

namespace ArgaldOS

/-! ## Section 1: The product -/

/-- A product from 2^31 on is taken for a negative number. -/
theorem toNat_intProduct {a b : Nat} (h : a * b < 2 ^ 32) :
    (Int32.ofNat a * Int32.ofNat b).toInt64.toUInt64.toNat =
      a * b + if a * b < 2 ^ 31 then 0 else 2 ^ 64 - 2 ^ 32 := by
  rw [← Int32.ofNat_mul]
  generalize a * b = p at h
  show ((BitVec.ofNat 32 p).signExtend 64).toNat = _
  rw [BitVec.toNat_signExtend]
  simp only [BitVec.msb_eq_decide, BitVec.toNat_setWidth, BitVec.toNat_ofNat]
  by_cases hp : p < 2 ^ 31
  · rw [if_pos hp, if_neg (by simp; omega)]
    omega
  · rw [if_neg hp, if_pos (by simp; omega)]
    omega

section offsets
variable (offset : UInt64) {i j : Nat} {size : UInt16}

/-- The product of two 16-bit numbers. -/
theorem product_lt (size : UInt16) (hi : i < 2 ^ 16) : i * size.toNat < 2 ^ 32 := by
  have hsize := size.toNat_lt
  calc i * size.toNat ≤ (2 ^ 16 - 1) * (2 ^ 16 - 1) := Nat.mul_le_mul (by omega) (by omega)
    _ < 2 ^ 32 := by simp

/-- **The place of a header** is right exactly if the product is an `int`. -/
theorem base_offset_eq_iff (size : UInt16) (hi : i < 2 ^ 16) :
    base_offset offset i size = offset + UInt64.ofNat (i * size.toNat) ↔
      i * size.toNat < 2 ^ 31 := by
  have hlt := product_lt size hi
  unfold base_offset
  rw [UInt64.add_right_inj, ← UInt64.toNat_inj, toNat_intProduct hlt,
    Words.ofNat_toNat_lt _ (by omega)]
  by_cases hp : i * size.toNat < 2 ^ 31
  · rw [if_pos hp]
    omega
  · rw [if_neg hp]
    omega

/-- **Different headers**: the product may be wrong, but never the same twice. -/
theorem base_offset_inj (hi : i < 2 ^ 16) (hj : j < 2 ^ 16) (hsize : size ≠ 0)
    (h : base_offset offset j size = base_offset offset i size) : j = i := by
  have hi' := product_lt size hi
  have hj' := product_lt size hj
  have hpos : 0 < size.toNat := Nat.pos_of_ne_zero fun hzero => hsize (UInt16.toNat_inj.mp hzero)
  unfold base_offset at h
  rw [UInt64.add_right_inj, ← UInt64.toNat_inj, toNat_intProduct hi', toNat_intProduct hj'] at h
  have hproduct : j * size.toNat = i * size.toNat := by
    split at h <;> split at h <;> omega
  exact Nat.eq_of_mul_eq_mul_right hpos hproduct

end offsets

/-! ## Section 2: The headers of an image -/

/-- **The header of section `i` is read at the right place**, and no other
    section has its header there. -/
structure OffsetRight (header : ELF_FILE_HEADER_T) (i : Nat) : Prop where
  exact : base_offset header.section_header_offset i header.section_header_entry_size =
    header.section_header_offset + UInt64.ofNat (i * header.section_header_entry_size.toNat)
  apart : ∀ j < header.section_header_entry_count.toNat, j ≠ i →
    header.section_header_entry_size ≠ 0 →
    base_offset header.section_header_offset j header.section_header_entry_size ≠
      base_offset header.section_header_offset i header.section_header_entry_size

/-- **The right place** is found exactly for the sections whose distance from
    the start of the table is an `int`. -/
theorem offsetRight_iff (header : ELF_FILE_HEADER_T) {i : Nat}
    (hi : i < header.section_header_entry_count.toNat) :
    OffsetRight header i ↔ i * header.section_header_entry_size.toNat < 2 ^ 31 := by
  have hcount := header.section_header_entry_count.toNat_lt
  have hplace := base_offset_eq_iff header.section_header_offset
    header.section_header_entry_size (by omega : i < 2 ^ 16)
  constructor
  · intro h
    exact hplace.mp h.exact
  · intro hlt
    refine ⟨hplace.mpr hlt, ?_⟩
    intro j hj hne hsize heq
    exact hne (base_offset_inj header.section_header_offset (by omega) (by omega) hsize heq)

/-- An image with 65535 sections and entries of 65535 bytes. -/
def largeTableImage : Image :=
  imageOf [(0, 0x7F), (1, 0x45), (2, 0x4C), (3, 0x46), (0x3A, 0xFF), (0x3B, 0xFF), (0x3C, 0xFF),
    (0x3D, 0xFF)]

/-- Its file header. -/
def largeTableHeader : ELF_FILE_HEADER_T where
  magic := [0x7F, 0x45, 0x4C, 0x46, 0]
  elf_format := 0
  endianness := 0
  version := 0
  abi := 0
  abi_version := 0
  type := 0
  machine_type := 0
  entry_point_address := 0
  section_header_offset := 0
  section_header_entry_size := 65535
  section_header_entry_count := 65535

theorem offsetRight_two : OffsetRight largeTableHeader 2 ↔ 2 * 65535 < 2 ^ 31 :=
  offsetRight_iff largeTableHeader (by decide)

/-- The header of its section 32769 is looked for in front of the table. -/
theorem not_offsetRight_large :
    (parse_elf_header largeTableImage).value = some largeTableHeader ∧
      32769 < largeTableHeader.section_header_entry_count.toNat ∧
      ¬ OffsetRight largeTableHeader 32769 := by
  refine ⟨by decide, by decide, ?_⟩
  intro h
  exact absurd h.exact (by decide)

end ArgaldOS
