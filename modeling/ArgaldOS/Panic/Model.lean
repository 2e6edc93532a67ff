import ArgaldOS.Framework.Loops
import ArgaldOS.Memory
import ArgaldOS.Stdlib.String

/-! # Naming a function in a stack trace (`kernel/panic.c`)

    `getFunctionName` looks up an address in the symbol table of the kernel's
    own ELF file, which the bootloader has left in memory.  It lays packed
    structures over the file: a section header is the 64 bytes at a multiple of
    64 behind the table, read field by field.

    `mem` is the memory as the kernel's pointers see it.  A string without a
    terminator is never compared; a run that meets one is `none`.

    Left out: `kpanic`, which prints the registers, and `assert`.
-/

namespace ArgaldOS

/-! ## Section 1: Packed structures -/

/-- Load two bytes, least significant first. -/
def Mem.load16 (m : Mem) (a : UInt64) : UInt16 :=
  UInt16.ofNat ((m a).toNat + 2 ^ 8 * (m (a + 1)).toNat)

/-- Load four bytes, least significant first. -/
def Mem.load32 (m : Mem) (a : UInt64) : UInt32 :=
  UInt32.ofNat
    ((m a).toNat + 2 ^ 8 * (m (a + 1)).toNat + 2 ^ 16 * (m (a + 2)).toNat
      + 2 ^ 24 * (m (a + 3)).toNat)

/-- `struct elfSectionHeader`. -/
structure elfSectionHeader where
  name    : UInt32
  type    : UInt32
  flags   : UInt64
  address : UInt64
  offset  : UInt64
  size    : UInt64
  link    : UInt32
  info    : UInt32
  addressAlign : UInt64
  entrySize    : UInt64
deriving DecidableEq, Repr

/-- `sizeof(struct elfSectionHeader)`. -/
def elfSectionHeaderSize : UInt64 := 64

/-- The structure at `p`. -/
def elfSectionHeader.at (mem : Mem) (p : UInt64) : elfSectionHeader where
  name    := mem.load32 p
  type    := mem.load32 (p + 4)
  flags   := mem.load64 (p + 8)
  address := mem.load64 (p + 16)
  offset  := mem.load64 (p + 24)
  size    := mem.load64 (p + 32)
  link    := mem.load32 (p + 40)
  info    := mem.load32 (p + 44)
  addressAlign := mem.load64 (p + 48)
  entrySize    := mem.load64 (p + 56)

/-- `struct symtabEntry`. -/
structure symtabEntry where
  name  : UInt32
  info  : UInt8
  other : UInt8
  shndx : UInt16
  value : UInt64
  size  : UInt64
deriving DecidableEq, Repr

/-- `sizeof(struct symtabEntry)`. -/
def symtabEntrySize : UInt64 := 24

/-- The structure at `p`. -/
def symtabEntry.at (mem : Mem) (p : UInt64) : symtabEntry where
  name  := mem.load32 p
  info  := mem (p + 4)
  other := mem (p + 5)
  shndx := mem.load16 (p + 6)
  value := mem.load64 (p + 8)
  size  := mem.load64 (p + 16)

/-! ## Section 2: Strings in memory -/

/-- All addresses. -/
@[irreducible] def allAddresses : Nat := 2 ^ 64

/-- The string at `p`, or `none` if no terminator follows. -/
def cstringAt (mem : Mem) (p : UInt64) : Option CString :=
  (Loops.searchFrom (fun k => if mem (p + UInt64.ofNat k) = 0 then some k else none)
    allAddresses 0).map fun len => (List.range len).map fun k => mem (p + UInt64.ofNat k)

/-- `".strtab"`. -/
def strtabName : CString := [0x2E, 0x73, 0x74, 0x72, 0x74, 0x61, 0x62]

/-- `".symtab"`. -/
def symtabName : CString := [0x2E, 0x73, 0x79, 0x6D, 0x74, 0x61, 0x62]

/-! ## Section 3: The file header -/

/-- What `getFunctionName` takes from the file header: the pointer to the
    section header table, the number of sections, and the section with their
    names. -/
structure SectionTable where
  sectionHeaderOffset           : UInt64
  sectionHeaderNumEntries       : UInt16
  sectionHeaderStringTableIndex : UInt16
deriving DecidableEq, Repr

/-- The first part of `getFunctionName`: `none` unless the file at
    `kernelFileStart` is a 64-bit ELF file.  The size of an entry is not read. -/
def sectionTable (mem : Mem) (kernelFileStart : UInt64) : Option SectionTable :=
  if mem kernelFileStart = 0x7F ∧ mem (kernelFileStart + 1) = 0x45 ∧
      mem (kernelFileStart + 2) = 0x4C ∧ mem (kernelFileStart + 3) = 0x46 ∧
      mem (kernelFileStart + 4) = 2 then
    some {
      sectionHeaderOffset := mem.load64 (kernelFileStart + 40) + kernelFileStart
      sectionHeaderNumEntries := mem.load16 (kernelFileStart + 60)
      sectionHeaderStringTableIndex := mem.load16 (kernelFileStart + 62) }
  else none

/-- `sectionHeaderOffset[i]`. -/
def SectionTable.header (mem : Mem) (table : SectionTable) (i : Nat) : elfSectionHeader :=
  elfSectionHeader.at mem (table.sectionHeaderOffset + elfSectionHeaderSize * UInt64.ofNat i)

/-! ## Section 4: The search -/

/-- `symtabOffset`, `strtabOffset` and `symtabIndex`. -/
structure SymbolTables where
  symtabOffset : UInt64
  strtabOffset : UInt64
  symtabIndex  : Nat
deriving DecidableEq, Repr

/-- The body of the loop over the sections. -/
def findTables (mem : Mem) (kernelFileStart : UInt64) (table : SectionTable) (names : UInt64)
    (t : SymbolTables) (i : Nat) : Option SymbolTables := do
  let sh := table.header mem i
  let name ← cstringAt mem (names + sh.name.toUInt64)
  let t := if strcmp name strtabName then { t with strtabOffset := sh.offset + kernelFileStart } else t
  some (if strcmp name symtabName then
    { t with symtabOffset := sh.offset + kernelFileStart, symtabIndex := i } else t)

/-- The test of the loop over the symbols: the text printed for entry `i`. -/
def symbolHit (mem : Mem) (tables : SymbolTables) (address : UInt64) (i : Nat) :
    Option (Option CString) :=
  let entry := symtabEntry.at mem (tables.symtabOffset + symtabEntrySize * UInt64.ofNat i)
  -- The end of the function may wrap.
  if address ≥ entry.value ∧ address < entry.value + entry.size then
    some (cstringAt mem (tables.strtabOffset + entry.name.toUInt64))
  else none

/-- `getFunctionName`: the name that is printed, `some none` for `<INVALID>`. -/
def getFunctionName (mem : Mem) (kernelFileStart address : UInt64) : Option (Option CString) :=
  match sectionTable mem kernelFileStart with
  | none => some none
  | some table => do
    let names := (table.header mem table.sectionHeaderStringTableIndex.toNat).offset + kernelFileStart
    let tables ← (List.range table.sectionHeaderNumEntries.toNat).foldlM
      (findTables mem kernelFileStart table names) ⟨0, 0, 0⟩
    -- Without a symbol table this is the size of section 0.
    let count := (table.header mem tables.symtabIndex).size / symtabEntrySize
    match Loops.searchFrom (symbolHit mem tables address) count.toNat 0 with
    | none => some none
    | some name => name.map some

/-- The search, once the tables are found. -/
theorem getFunctionName_eq {mem : Mem} {kernelFileStart : UInt64} {table : SectionTable}
    {tables : SymbolTables} (address : UInt64)
    (hvalid : sectionTable mem kernelFileStart = some table)
    (htables : (List.range table.sectionHeaderNumEntries.toNat).foldlM
      (findTables mem kernelFileStart table
        ((table.header mem table.sectionHeaderStringTableIndex.toNat).offset + kernelFileStart))
      ⟨0, 0, 0⟩ = some tables) :
    getFunctionName mem kernelFileStart address =
      (Loops.searchFrom (symbolHit mem tables address)
        ((table.header mem tables.symtabIndex).size / symtabEntrySize).toNat 0).elim (some none)
          (fun name => name.map some) := by
  unfold getFunctionName
  rw [hvalid]
  dsimp only
  rw [htables, Option.bind_eq_bind, Option.bind_some]
  cases Loops.searchFrom (symbolHit mem tables address) _ 0 <;> rfl

end ArgaldOS
