import ArgaldOS.Framework.Runs
import ArgaldOS.Paging.Model
import ArgaldOS.Stdlib.Binop
import ArgaldOS.Stdlib.Mem

/-! # The ELF loader (`kernel/elf.c`)

    `read_elf` takes a file image in a buffer of the shell, reads the file
    header and then, section by section, allocates a frame, maps it at the
    section's address and copies the section into it through the raw pointer
    that `kmalloc` returned.

    Every access to the image is recorded with its index, every store of the
    copy with the frame it is meant for and the physical address it goes to.
    The image itself is a function of all 64-bit indices: what lies behind the
    buffer is arbitrary.  It is read only; a store that runs into the buffer
    is visible in the record of stores.

    Left out: `print_elf_header`, which prints only, and the program that the
    entry point belongs to, whose address is the last thing recorded.
-/

namespace ArgaldOS

/-! ## Section 1: Reading the image -/

/-- `elf[i]` for every index `i`. -/
abbrev Image : Type := UInt64 → UInt8

/-- The size of the buffer that `process_command` passes. -/
def bufferSize : Nat := 4608

/-- The image with the listed bytes, and zeros everywhere else. -/
def imageOf (bytes : List (UInt64 × UInt8)) : Image := fun i => (bytes.lookup i).getD 0

/-- A value and the indices that were read to compute it, first one first. -/
structure Reading (α : Type) where
  value : α
  reads : List UInt64

instance : Monad Reading where
  pure a := ⟨a, []⟩
  bind x f := ⟨(f x.value).value, x.reads ++ (f x.value).reads⟩

section reading
variable {α β : Type}

@[simp] theorem Reading.value_pure (a : α) : (pure a : Reading α).value = a := rfl

@[simp] theorem Reading.reads_pure (a : α) : (pure a : Reading α).reads = [] := rfl

@[simp] theorem Reading.value_bind (x : Reading α) (f : α → Reading β) :
    (x >>= f).value = (f x.value).value := rfl

@[simp] theorem Reading.reads_bind (x : Reading α) (f : α → Reading β) :
    (x >>= f).reads = x.reads ++ (f x.value).reads := rfl

end reading

/-- `elf[i]`. -/
def byteAt (elf : Image) (i : UInt64) : Reading UInt8 := ⟨elf i, [i]⟩

/-- `elf[i + 1] << 8 | elf[i]`. -/
def read16 (elf : Image) (i : UInt64) : Reading UInt16 := do
  let b1 ← byteAt elf (i + 1)
  let b0 ← byteAt elf i
  pure ((b1.toUInt16 <<< 8) ||| b0.toUInt16)

/-- `combine32bit(elf[i + 3], ..., elf[i])`. -/
def read32 (elf : Image) (i : UInt64) : Reading UInt32 := do
  let b3 ← byteAt elf (i + 3)
  let b2 ← byteAt elf (i + 2)
  let b1 ← byteAt elf (i + 1)
  let b0 ← byteAt elf i
  pure (combine32bit b3 b2 b1 b0)

/-- `combine64bit(elf[i + 7], ..., elf[i])`. -/
def read64 (elf : Image) (i : UInt64) : Reading UInt64 := do
  let b7 ← byteAt elf (i + 7)
  let b6 ← byteAt elf (i + 6)
  let b5 ← byteAt elf (i + 5)
  let b4 ← byteAt elf (i + 4)
  let b3 ← byteAt elf (i + 3)
  let b2 ← byteAt elf (i + 2)
  let b1 ← byteAt elf (i + 1)
  let b0 ← byteAt elf i
  pure (combine64bit b7 b6 b5 b4 b3 b2 b1 b0)

/-! ## Section 2: Headers -/

/-- `struct ELF_FILE_HEADER_T`, as far as `parse_elf_header` fills it. -/
structure ELF_FILE_HEADER_T where
  magic       : List UInt8
  elf_format  : UInt8
  endianness  : UInt8
  version     : UInt32
  abi         : UInt8
  abi_version : UInt8
  type        : UInt16
  machine_type : UInt16
  entry_point_address        : UInt64
  section_header_offset      : UInt64
  section_header_entry_size  : UInt16
  section_header_entry_count : UInt16
deriving DecidableEq, Repr

/-- `struct ELF_SECTION_HEADER_T`, as far as `parse_section_header` fills it. -/
structure ELF_SECTION_HEADER_T where
  name_offset     : UInt32
  type            : UInt32
  virtual_address : UInt64
  offset          : UInt64
  size            : UInt64
deriving DecidableEq, Repr

/-- `"\x7F" "ELF"`. -/
def elfMagic : List UInt8 := [0x7F, 0x45, 0x4C, 0x46]

/-- `is_valid_elf`. -/
def is_valid_elf (magic : List UInt8) : Bool :=
  memcmp (fun i => magic.getD i 0) (fun i => elfMagic.getD i 0) 4 == 0

/-- `parse_elf_header`: `none` for the result 0.  The version is the byte at
    offset 6; the four bytes at 0x14 are not read. -/
def parse_elf_header (elf : Image) : Reading (Option ELF_FILE_HEADER_T) := do
  let m0 ← byteAt elf 0
  let m1 ← byteAt elf 1
  let m2 ← byteAt elf 2
  let m3 ← byteAt elf 3
  -- The magic is the only field that is checked.
  let magic := [m0, m1, m2, m3, 0]
  if !is_valid_elf magic then pure none else
  let elf_format ← byteAt elf 0x04
  let endianness ← byteAt elf 0x05
  let version ← byteAt elf 0x06
  let abi ← byteAt elf 0x07
  let abi_version ← byteAt elf 0x08
  let type ← read16 elf 0x10
  let machine_type ← read16 elf 0x12
  let entry_point_address ← read64 elf 0x18
  let section_header_offset ← read64 elf 0x28
  let section_header_entry_size ← read16 elf 0x3A
  let section_header_entry_count ← read16 elf 0x3C
  pure (some {
    magic, elf_format, endianness, version := version.toUInt32, abi, abi_version, type,
    machine_type, entry_point_address, section_header_offset, section_header_entry_size,
    section_header_entry_count })

/-- `offset + (index * header_size)`: the product is one of `int`, which is
    then converted to 64 bits. -/
def base_offset (offset : UInt64) (index : Nat) (header_size : UInt16) : UInt64 :=
  offset + (Int32.ofNat index * Int32.ofNat header_size.toNat).toInt64.toUInt64

/-- `parse_section_header`: the result, always 0, and the header. -/
def parse_section_header (elf : Image) (offset : UInt64) (index : Nat) (header_size : UInt16) :
    Reading (Int × ELF_SECTION_HEADER_T) := do
  let base := base_offset offset index header_size
  let name_offset ← read32 elf base
  let type ← read32 elf (base + 0x04)
  let virtual_address ← read64 elf (base + 0x10)
  let offset ← read64 elf (base + 0x18)
  let size ← read64 elf (base + 0x20)
  pure (0, { name_offset, type, virtual_address, offset, size })

/-! ## Section 3: Loading sections -/

/-- A store of the copy loop: the frame that `kmalloc` returned for the
    section, and the physical address the store goes to. -/
structure Store where
  frame : UInt64
  addr  : UInt64
deriving DecidableEq, Repr

/-- A run of `read_elf`: the machine, the record of accesses, and whether the
    run was cut short by a page fault or by a call that never returns. -/
structure Loader (σ : Type) where
  machine : Machine σ
  reads   : List UInt64
  stores  : List Store
  stopped : Bool

section loader
variable {σ : Type}

/-- Record what was read. -/
def Loader.record (s : Loader σ) (reads : List UInt64) : Loader σ :=
  { s with reads := s.reads ++ reads }

/-- A store of the copy loop. -/
def Loader.store (s : Loader σ) (t : Store) (byte : UInt8) : Loader σ :=
  { s with
    machine := { s.machine with mem := s.machine.mem.store8 t.addr byte }
    stores  := s.stores ++ [t] }

/-- `phys[j] = elf[offset + j]`. -/
def copyByte (elf : Image) (phys offset : UInt64) (j : Nat) (s : Loader σ) : Loader σ :=
  if s.stopped then s else
  let byte := byteAt elf (offset + UInt64.ofNat j)
  -- `phys` is a physical address, used as a pointer without the direct map.
  match s.machine.denote (phys + UInt64.ofNat j) with
  | none => { s.record byte.reads with stopped := true }
  | some q => (s.record byte.reads).store ⟨phys, q⟩ byte.value

/-- The copy loop for a section of `size` bytes. -/
def copyLoop (elf : Image) (phys offset : UInt64) (size : Nat) (s : Loader σ) : Loader σ :=
  Loops.forLoop (copyByte elf phys offset) size s

variable [PageAllocator σ]

/-- The part of the body of the loop over the sections between parsing the
    header and the copy: the frame of a section that is to be copied. -/
def placeSection (sh : ELF_SECTION_HEADER_T) (s : Loader σ) : Option UInt64 × Loader σ :=
  if sh.type = 0x01 ∧ sh.size > 0 then
    -- The sum may wrap.
    if sh.offset + sh.size > 4608 then (none, s) else
    match s.machine.kmalloc with
    | none => (none, { s with stopped := true })
    | some (phys, machine) =>
      if phys = 0 then (none, { s with machine := machine }) else
      -- The address is taken as it is; a failure of `map_page` goes unnoticed.
      match map_page sh.virtual_address phys 0x7 machine with
      | none => (none, { s with machine := machine, stopped := true })
      | some machine => (some phys, { s with machine := machine })
  else (none, s)

/-- The body of the loop over the sections. -/
def loadSection (elf : Image) (header : ELF_FILE_HEADER_T) (s : Loader σ) (i : Nat) : Loader σ :=
  if s.stopped then s else
  -- Neither the offset nor the number of headers is compared with the buffer.
  let parsed := parse_section_header elf header.section_header_offset i
    header.section_header_entry_size
  let s := s.record parsed.reads
  if parsed.value.1 ≠ 0 then s else
  let sh := parsed.value.2
  match placeSection sh s with
  | (none, s) => s
  | (some phys, s) => copyLoop elf phys sh.offset sh.size.toNat s

/-- The loop over the sections. -/
def loadSections (elf : Image) (header : ELF_FILE_HEADER_T) (s : Loader σ) : Loader σ :=
  Runs.run (loadSection elf header) s (List.range header.section_header_entry_count.toNat)

/-- What `read_elf` does: its result (`none` if the run was stopped), the
    address it calls, and the run. -/
structure ElfRun (σ : Type) where
  status : Option Int
  called : Option UInt64
  loader : Loader σ

/-- `read_elf`. -/
def read_elf (elf : Image) (run : Bool) (machine : Machine σ) : ElfRun σ :=
  let parsed := parse_elf_header elf
  let s : Loader σ := { machine, reads := parsed.reads, stores := [], stopped := false }
  match parsed.value with
  -- Nothing has been allocated or mapped yet.
  | none => { status := some (-1), called := none, loader := s }
  | some header =>
    let s := loadSections elf header s
    if s.stopped then { status := none, called := none, loader := s } else
    -- Not checked to be in a section that was loaded.
    let elf_entry_point := header.entry_point_address + s.machine.hhdm
    { status := some 0, called := if run then some elf_entry_point else none, loader := s }

end loader

end ArgaldOS
