import ArgaldOS.Framework.Terminated
import ArgaldOS.Panic.Model

/-! # What `getFunctionName` finds

    An ELF file is described here by the little-endian numbers at its offsets: a
    table of sections, the names of the sections in one of them, the symbols in
    another and their names in a third.  `getFunctionName` reads it through
    pointers to packed structures.

    * `KernelFile.WellFormed`: the files that it is meant for;
    * `findTables_run`: what is known after some of the sections;
    * `tableReads_getFunctionName`: the pointers that are followed into the tables;
    * `getFunctionName_finds`: it prints the name of the first symbol around the
      address, and reads no symbol where there are none.
-/

namespace ArgaldOS

/-! ## Section 1: Numbers in memory -/

/-- The little-endian number of `n` bytes at `a`. -/
def Mem.number (m : Mem) (a : UInt64) : Nat → Nat
  | 0 => 0
  | n + 1 => (m a).toNat + 256 * m.number (a + 1) n

section numbers
variable (mem : Mem) (a : UInt64)

theorem toNat_load16 : (mem.load16 a).toNat = mem.number a 2 := by
  have h0 := (mem a).toNat_lt
  have h1 := (mem (a + 1)).toNat_lt
  unfold Mem.load16
  rw [UInt16.toNat_ofNat', Nat.mod_eq_of_lt (by omega)]
  simp only [Mem.number]
  omega

theorem toNat_load32 : (mem.load32 a).toNat = mem.number a 4 := by
  have h0 := (mem a).toNat_lt
  have h1 := (mem (a + 1)).toNat_lt
  have h2 := (mem (a + 2)).toNat_lt
  have h3 := (mem (a + 3)).toNat_lt
  have e2 : a + 1 + 1 = a + 2 := by grind
  have e3 : a + 2 + 1 = a + 3 := by grind
  unfold Mem.load32
  rw [UInt32.toNat_ofNat', Nat.mod_eq_of_lt (by omega)]
  simp only [Mem.number, e2, e3]
  omega

theorem toNat_load64 : (mem.load64 a).toNat = mem.number a 8 := by
  have e2 : a + 1 + 1 = a + 2 := by grind
  have e3 : a + 2 + 1 = a + 3 := by grind
  have e4 : a + 3 + 1 = a + 4 := by grind
  have e5 : a + 4 + 1 = a + 5 := by grind
  have e6 : a + 5 + 1 = a + 6 := by grind
  have e7 : a + 6 + 1 = a + 7 := by grind
  rw [Mem.toNat_load64]
  simp only [Mem.number, e2, e3, e4, e5, e6, e7]
  omega

end numbers

/-! ## Section 2: The file -/

/-- A file in memory. -/
structure KernelFile where
  mem   : Mem
  start : UInt64

namespace KernelFile
variable (file : KernelFile)

/-- The pointer to an offset. -/
def pointer (offset : Nat) : UInt64 := file.start + UInt64.ofNat offset

/-- The number of `n` bytes at an offset. -/
def field (offset n : Nat) : Nat := file.mem.number (file.pointer offset) n

/-- There is a string at an offset. -/
def HasString (offset : Nat) (text : CString) : Prop :=
  Terminated.Stores 0 (fun k => file.mem (file.pointer (offset + k))) text

/-- `e_shoff`, `e_shnum` and `e_shstrndx`. -/
def sectionTableOffset : Nat := file.field 40 8
def sectionCount : Nat := file.field 60 2
def nameTableIndex : Nat := file.field 62 2

/-- `sh_name`, `sh_offset` and `sh_size` of section `i`. -/
def sectionName (i : Nat) : Nat := file.field (file.sectionTableOffset + 64 * i) 4
def sectionOffset (i : Nat) : Nat := file.field (file.sectionTableOffset + 64 * i + 24) 8
def sectionSize (i : Nat) : Nat := file.field (file.sectionTableOffset + 64 * i + 32) 8

/-- Section `i` has the name. -/
def SectionNamed (i : Nat) (name : CString) : Prop :=
  file.HasString (file.sectionOffset file.nameTableIndex + file.sectionName i) name

/-- The number of symbols in section `s`. -/
def symbolCount (s : Nat) : Nat := file.sectionSize s / 24

/-- `st_name`, `st_value` and `st_size` of symbol `i` of section `s`. -/
def symbolName (s i : Nat) : Nat := file.field (file.sectionOffset s + 24 * i) 4
def symbolValue (s i : Nat) : Nat := file.field (file.sectionOffset s + 24 * i + 8) 8
def symbolSize (s i : Nat) : Nat := file.field (file.sectionOffset s + 24 * i + 16) 8

/-- The address is inside the symbol. -/
def Inside (s i : Nat) (address : UInt64) : Prop :=
  file.symbolValue s i ≤ address.toNat ∧
    address.toNat < file.symbolValue s i + file.symbolSize s i

instance (s i : Nat) (address : UInt64) : Decidable (file.Inside s i address) :=
  inferInstanceAs (Decidable (_ ∧ _))

/-- The string at the offset ends inside the first `size` bytes of the file. -/
def Ends (size offset : Nat) : Prop :=
  ∃ text, file.HasString offset text ∧ offset + text.length < size

/-- **A well-formed 64-bit file** of `size` bytes: tables and strings are inside
    it, section 0 is empty, there is a symbol table if and only if there is a
    table of their names, and no symbol goes around the end of memory. -/
structure WellFormed (size : Nat) : Prop where
  elf      : file.mem file.start = 0x7F ∧ file.mem (file.start + 1) = 0x45 ∧
    file.mem (file.start + 2) = 0x4C ∧ file.mem (file.start + 3) = 0x46 ∧
    file.mem (file.start + 4) = 2
  fits     : file.start.toNat + size ≤ 2 ^ 64
  headers  : file.sectionTableOffset + 64 * file.sectionCount ≤ size
  names    : file.nameTableIndex < file.sectionCount
  sections : ∀ i < file.sectionCount, file.sectionOffset i ≤ size
  strings  : ∀ i < file.sectionCount,
    file.Ends size (file.sectionOffset file.nameTableIndex + file.sectionName i)
  null     : file.sectionSize 0 = 0
  symtab   : ∀ i < file.sectionCount, ∀ j < file.sectionCount,
    file.SectionNamed i symtabName → file.SectionNamed j symtabName → i = j
  strtab   : ∀ i < file.sectionCount, ∀ j < file.sectionCount,
    file.SectionNamed i strtabName → file.SectionNamed j strtabName → i = j
  together : (∃ i < file.sectionCount, file.SectionNamed i symtabName) ↔
    ∃ i < file.sectionCount, file.SectionNamed i strtabName
  symbols  : ∀ s < file.sectionCount, ∀ t < file.sectionCount,
    file.SectionNamed s symtabName → file.SectionNamed t strtabName →
    file.sectionOffset s + file.sectionSize s ≤ size ∧
      ∀ i < file.symbolCount s, file.Ends size (file.sectionOffset t + file.symbolName s i)
  nowrap   : ∀ s < file.sectionCount, file.SectionNamed s symtabName →
    ∀ i < file.symbolCount s, file.symbolValue s i + file.symbolSize s i < 2 ^ 64

end KernelFile

/-! ## Section 3: Structures behind pointers -/

section pointers
variable {file : KernelFile} {table : SectionTable} {size : Nat}

theorem pointer_add (file : KernelFile) (offset n : Nat) :
    file.pointer offset + UInt64.ofNat n = file.pointer (offset + n) := by
  unfold KernelFile.pointer
  rw [UInt64.ofNat_add, UInt64.add_assoc]

/-- A loaded double word, as a word again. -/
theorem load64_pointer (file : KernelFile) (offset : Nat) :
    file.mem.load64 (file.pointer offset) = UInt64.ofNat (file.field offset 8) := by
  have hlt := (file.mem.load64 (file.pointer offset)).toNat_lt
  have hnumber := toNat_load64 file.mem (file.pointer offset)
  apply Words.ext
  unfold KernelFile.field
  rw [Words.ofNat_toNat_lt _ (by omega), hnumber]

theorem load32_pointer (file : KernelFile) (offset : Nat) :
    (file.mem.load32 (file.pointer offset)).toUInt64 = UInt64.ofNat (file.field offset 4) := by
  have hlt := (file.mem.load32 (file.pointer offset)).toNat_lt
  have hnumber := toNat_load32 file.mem (file.pointer offset)
  apply Words.ext
  unfold KernelFile.field
  rw [UInt32.toNat_toUInt64, Words.ofNat_toNat_lt _ (by omega), hnumber]

/-- The table of sections that the file header gives. -/
theorem sectionTable_eq (hfile : file.WellFormed size) :
    ∃ table, sectionTable file.mem file.start = some table ∧
      table.sectionHeaderOffset = file.pointer file.sectionTableOffset ∧
      table.sectionHeaderNumEntries.toNat = file.sectionCount ∧
      table.sectionHeaderStringTableIndex.toNat = file.nameTableIndex := by
  unfold sectionTable
  rw [if_pos hfile.elf]
  refine ⟨_, rfl, ?_, ?_, ?_⟩
  · show file.mem.load64 (file.pointer 40) + file.start = _
    rw [load64_pointer, UInt64.add_comm]
    rfl
  · exact toNat_load16 file.mem (file.start + 60)
  · exact toNat_load16 file.mem (file.start + 62)

/-- **The header of section `i`.** -/
theorem header_eq (htable : table.sectionHeaderOffset = file.pointer file.sectionTableOffset)
    (i : Nat) :
    (table.header file.mem i).name.toUInt64 = UInt64.ofNat (file.sectionName i) ∧
      (table.header file.mem i).offset = UInt64.ofNat (file.sectionOffset i) ∧
      (table.header file.mem i).size = UInt64.ofNat (file.sectionSize i) := by
  have hp : table.sectionHeaderOffset + elfSectionHeaderSize * UInt64.ofNat i =
      file.pointer (file.sectionTableOffset + 64 * i) := by
    rw [htable, ← pointer_add, UInt64.ofNat_mul]
    rfl
  have h24 := pointer_add file (file.sectionTableOffset + 64 * i) 24
  have h32 := pointer_add file (file.sectionTableOffset + 64 * i) 32
  unfold SectionTable.header elfSectionHeader.at
  rw [hp]
  refine ⟨load32_pointer file _, ?_, ?_⟩
  · exact (congrArg file.mem.load64 h24).trans (load64_pointer file _)
  · exact (congrArg file.mem.load64 h32).trans (load64_pointer file _)

/-- **A string of the file** is what is read at its pointer. -/
theorem cstringAt_eq {offset : Nat} {text : CString} (h : file.HasString offset text)
    (hlt : text.length < 2 ^ 64) : cstringAt file.mem (file.pointer offset) = some text := by
  have hsearch : Loops.searchFrom
      (fun k => if file.mem (file.pointer offset + UInt64.ofNat k) = 0 then some k else none)
      allAddresses 0 = some text.length := by
    apply Loops.searchFrom_of_first (Nat.zero_le _)
    · unfold allAddresses
      omega
    · rw [pointer_add, if_pos h.ended]
    · intro j _ hj
      rw [pointer_add, if_neg (h.ne_nul hj)]
  unfold cstringAt
  rw [hsearch, Option.map_some]
  congr 1
  apply List.ext_getElem (by simp)
  intro k hk hk'
  rw [List.getElem_map, List.getElem_range, pointer_add]
  exact h.chars k hk'

/-- A string that is read off the file. -/
theorem hasString_of_read {offset : Nat} {text : CString}
    (hchars : ((List.range text.length).map fun k => file.mem (file.pointer (offset + k))) = text)
    (hended : file.mem (file.pointer (offset + text.length)) = 0) (hplain : 0 ∉ text) :
    file.HasString offset text where
  chars i h := by
    have hchar := congrArg (·[i]?) hchars
    simpa [h] using hchar
  ended := hended
  plain c hc hnul := hplain (hnul ▸ hc)

theorem hasString_unique {offset : Nat} {text text' : CString} (h : file.HasString offset text)
    (h' : file.HasString offset text') : text = text' := by
  have hread := h.readFrom_eq (n := text.length + text'.length + 1) (i := 0) (Nat.zero_le _)
    (by omega)
  have hread' := h'.readFrom_eq (n := text.length + text'.length + 1) (i := 0) (Nat.zero_le _)
    (by omega)
  rw [hread, List.drop_zero, List.drop_zero] at hread'
  exact hread'

end pointers

/-! ## Section 4: The loop over the sections -/

section sections
variable {file : KernelFile} {table : SectionTable} {size n : Nat} {t : SymbolTables}

/-- What is known after the first `n` sections. -/
structure FoundTables (file : KernelFile) (n : Nat) (t : SymbolTables) : Prop where
  symtab : ∀ s < n, file.SectionNamed s symtabName →
    t.symtabIndex = s ∧ t.symtabOffset = file.pointer (file.sectionOffset s)
  strtab : ∀ s < n, file.SectionNamed s strtabName →
    t.strtabOffset = file.pointer (file.sectionOffset s)
  none   : (∀ s < n, ¬ file.SectionNamed s symtabName) → t.symtabIndex = 0

/-- The body of the loop at a section with the name `text`. -/
theorem findTables_eq (hfile : file.WellFormed size)
    (htable : table.sectionHeaderOffset = file.pointer file.sectionTableOffset)
    (hindex : table.sectionHeaderStringTableIndex.toNat = file.nameTableIndex) (t : SymbolTables)
    {i : Nat} (hi : i < file.sectionCount) :
    ∃ text, file.SectionNamed i text ∧
      findTables file.mem file.start table
          ((table.header file.mem table.sectionHeaderStringTableIndex.toNat).offset + file.start) t i =
        some {
          strtabOffset :=
            if text = strtabName then file.pointer (file.sectionOffset i) else t.strtabOffset
          symtabOffset :=
            if text = symtabName then file.pointer (file.sectionOffset i) else t.symtabOffset
          symtabIndex := if text = symtabName then i else t.symtabIndex } := by
  obtain ⟨text, htext, hends⟩ := hfile.strings i hi
  have hfits := hfile.fits
  obtain ⟨hname, hoffset, -⟩ := header_eq htable i
  obtain ⟨-, hnames, -⟩ := header_eq htable table.sectionHeaderStringTableIndex.toNat
  have hpointer : (table.header file.mem table.sectionHeaderStringTableIndex.toNat).offset
      + file.start + (table.header file.mem i).name.toUInt64 =
        file.pointer (file.sectionOffset file.nameTableIndex + file.sectionName i) := by
    rw [hnames, hname, hindex, ← pointer_add, UInt64.add_comm (UInt64.ofNat _) file.start]
    rfl
  have hsection : (table.header file.mem i).offset + file.start =
      file.pointer (file.sectionOffset i) := by
    rw [hoffset, UInt64.add_comm]
    rfl
  refine ⟨text, htext, ?_⟩
  unfold findTables
  dsimp only
  rw [hpointer, cstringAt_eq htext (by omega), hsection]
  show some _ = some _
  congr 1
  by_cases hstr : text = strtabName
  · have hsym : text ≠ symtabName := by
      rw [hstr]
      decide
    simp only [strcmp_iff, if_pos hstr, if_neg hsym]
  · by_cases hsym : text = symtabName
    · simp only [strcmp_iff, if_neg hstr, if_pos hsym]
    · simp only [strcmp_iff, if_neg hstr, if_neg hsym]

/-- A later section has another name, where only one section may have it. -/
theorem ne_of_later {s : Nat} {name text : CString} (hs : s < n) (hn : n < file.sectionCount)
    (hunique : ∀ i < file.sectionCount, ∀ j < file.sectionCount,
      file.SectionNamed i name → file.SectionNamed j name → i = j)
    (hnamed : file.SectionNamed s name) (htext : file.SectionNamed n text) : text ≠ name := by
  rintro rfl
  have hsame := hunique s (by omega) n hn hnamed htext
  omega

/-- **One round of the loop.** -/
theorem FoundTables.step (hfile : file.WellFormed size) (h : FoundTables file n t)
    (hn : n < file.sectionCount)
    (htable : table.sectionHeaderOffset = file.pointer file.sectionTableOffset)
    (hindex : table.sectionHeaderStringTableIndex.toNat = file.nameTableIndex) :
    ∃ t', findTables file.mem file.start table
        ((table.header file.mem table.sectionHeaderStringTableIndex.toNat).offset + file.start) t n =
          some t' ∧ FoundTables file (n + 1) t' := by
  obtain ⟨text, htext, heq⟩ := findTables_eq hfile htable hindex t hn
  refine ⟨_, heq, ?_, ?_, ?_⟩
  · intro s hs hnamed
    rcases Nat.lt_succ_iff_lt_or_eq.mp hs with hlt | rfl
    · have hother := ne_of_later hlt hn hfile.symtab hnamed htext
      simp only [hother, if_false]
      exact h.symtab s hlt hnamed
    · obtain rfl := hasString_unique htext hnamed
      simp
  · intro s hs hnamed
    rcases Nat.lt_succ_iff_lt_or_eq.mp hs with hlt | rfl
    · have hother := ne_of_later hlt hn hfile.strtab hnamed htext
      simp only [hother, if_false]
      exact h.strtab s hlt hnamed
    · obtain rfl := hasString_unique htext hnamed
      simp
  · intro hnone
    have hother : text ≠ symtabName := by
      rintro rfl
      exact hnone n (by omega) htext
    simp only [hother, if_false]
    exact h.none fun s hs => hnone s (by omega)

/-- **The whole loop.** -/
theorem findTables_run (hfile : file.WellFormed size) (hn : n ≤ file.sectionCount)
    (htable : table.sectionHeaderOffset = file.pointer file.sectionTableOffset)
    (hindex : table.sectionHeaderStringTableIndex.toNat = file.nameTableIndex) :
    ∃ t, (List.range n).foldlM (findTables file.mem file.start table
        ((table.header file.mem table.sectionHeaderStringTableIndex.toNat).offset + file.start))
          ⟨0, 0, 0⟩ = some t ∧ FoundTables file n t := by
  induction n with
  | zero =>
    exact ⟨⟨0, 0, 0⟩, rfl, fun s hs => absurd hs (by omega), fun s hs => absurd hs (by omega),
      fun _ => rfl⟩
  | succ n ih =>
    obtain ⟨t, hrun, ht⟩ := ih (by omega)
    obtain ⟨t', hstep, ht'⟩ := ht.step hfile (by omega) htable hindex
    refine ⟨t', ?_, ht'⟩
    rw [List.range_succ, List.foldlM_append, hrun]
    show (List.foldlM _ t [n]) = some t'
    rw [List.foldlM_cons, hstep]
    rfl

end sections

/-! ## Section 5: The loop over the symbols -/

/-- The pointers behind which the loop over the symbols reads: an entry each, and
    the name of the one that is found. -/
def symbolReads (mem : Mem) (tables : SymbolTables) (address : UInt64) : Nat → Nat → List UInt64
  | 0, _ => []
  | n + 1, i =>
    let p := tables.symtabOffset + symtabEntrySize * UInt64.ofNat i
    let entry := symtabEntry.at mem p
    p :: if address ≥ entry.value ∧ address < entry.value + entry.size then
        [tables.strtabOffset + entry.name.toUInt64]
      else symbolReads mem tables address n (i + 1)

/-- The reads of `getFunctionName` from the symbol table and the string table. -/
def tableReads (mem : Mem) (kernelFileStart address : UInt64) : Option (List UInt64) :=
  match sectionTable mem kernelFileStart with
  | none => some []
  | some table => do
    let names := (table.header mem table.sectionHeaderStringTableIndex.toNat).offset + kernelFileStart
    let tables ← (List.range table.sectionHeaderNumEntries.toNat).foldlM
      (findTables mem kernelFileStart table names) ⟨0, 0, 0⟩
    let count := (table.header mem tables.symtabIndex).size / symtabEntrySize
    some (symbolReads mem tables address count.toNat 0)

/-- The pointer to symbol `i`. -/
def SymbolTables.entryPointer (tables : SymbolTables) (i : Nat) : UInt64 :=
  tables.symtabOffset + symtabEntrySize * UInt64.ofNat i

/-- The pointer to its name. -/
def SymbolTables.namePointer (mem : Mem) (tables : SymbolTables) (i : Nat) : UInt64 :=
  tables.strtabOffset + (symtabEntry.at mem (tables.entryPointer i)).name.toUInt64

section reads
variable (mem : Mem) (address : UInt64)

/-- **The loop and its reads** stop at the same symbol: the entries up to it are read, and its
    name, which is the result. -/
theorem symbolReads_searchFrom (tables : SymbolTables) (n i : Nat) :
    (Loops.searchFrom (symbolHit mem tables address) n i = none ∧
      symbolReads mem tables address n i = (List.range' i n).map tables.entryPointer) ∨
    ∃ k < n, Loops.searchFrom (symbolHit mem tables address) n i
        = some (cstringAt mem (tables.namePointer mem (i + k))) ∧
      symbolReads mem tables address n i
        = (List.range' i (k + 1)).map tables.entryPointer ++ [tables.namePointer mem (i + k)] := by
  induction n generalizing i with
  | zero => exact .inl ⟨rfl, rfl⟩
  | succ n ih =>
    by_cases hhit : address ≥ (symtabEntry.at mem (tables.entryPointer i)).value ∧
        address < (symtabEntry.at mem (tables.entryPointer i)).value
          + (symtabEntry.at mem (tables.entryPointer i)).size
    · have hfound : symbolHit mem tables address i
          = some (cstringAt mem (tables.namePointer mem i)) := if_pos hhit
      refine .inr ⟨0, Nat.succ_pos n, ?_, ?_⟩
      · rw [Loops.searchFrom, hfound]
        rfl
      · exact congrArg (tables.entryPointer i :: ·) (if_pos hhit)
    · have hmissed : symbolHit mem tables address i = none := if_neg hhit
      have hsearch : Loops.searchFrom (symbolHit mem tables address) (n + 1) i
          = Loops.searchFrom (symbolHit mem tables address) n (i + 1) := by
        rw [Loops.searchFrom, hmissed]
      have hreads : symbolReads mem tables address (n + 1) i
          = tables.entryPointer i :: symbolReads mem tables address n (i + 1) :=
        congrArg (tables.entryPointer i :: ·) (if_neg hhit)
      rw [hsearch, hreads]
      rcases ih (i + 1) with ⟨hnone, hlist⟩ | ⟨k, hk, hsome, hlist⟩
      · rw [hlist]
        exact .inl ⟨hnone, rfl⟩
      · have hnext : i + 1 + k = i + (k + 1) := by omega
        rw [hlist, hsome, hnext]
        exact .inr ⟨k + 1, Nat.succ_lt_succ hk, rfl, rfl⟩

/-- **The reads are those of the lookup**: it fails where the reads do, and otherwise its result
    is the name behind the last pointer, if that is the pointer to a name. -/
theorem tableReads_getFunctionName (kernelFileStart : UInt64) :
    (tableReads mem kernelFileStart address = none ∧
      getFunctionName mem kernelFileStart address = none) ∨
    ∃ (tables : SymbolTables) (n : Nat),
      (tableReads mem kernelFileStart address = some ((List.range n).map tables.entryPointer) ∧
        getFunctionName mem kernelFileStart address = some none) ∨
      (tableReads mem kernelFileStart address
          = some ((List.range (n + 1)).map tables.entryPointer ++ [tables.namePointer mem n]) ∧
        getFunctionName mem kernelFileStart address
          = (cstringAt mem (tables.namePointer mem n)).map some) := by
  unfold tableReads getFunctionName
  cases sectionTable mem kernelFileStart with
  | none => exact .inr ⟨⟨0, 0, 0⟩, 0, .inl ⟨rfl, rfl⟩⟩
  | some table =>
    dsimp only
    cases (List.range table.sectionHeaderNumEntries.toNat).foldlM
      (findTables mem kernelFileStart table _) ⟨0, 0, 0⟩ with
    | none => exact .inl ⟨rfl, rfl⟩
    | some tables =>
      simp only [Option.bind_eq_bind, Option.bind_some]
      rcases symbolReads_searchFrom mem address tables _ 0 with
        ⟨hnone, hreads⟩ | ⟨k, -, hsome, hreads⟩
      · rw [hnone, hreads, ← List.range_eq_range']
        exact .inr ⟨tables, _, .inl ⟨rfl, rfl⟩⟩
      · rw [Nat.zero_add] at hsome hreads
        rw [hsome, hreads, ← List.range_eq_range']
        exact .inr ⟨tables, k, .inr ⟨rfl, rfl⟩⟩

end reads

section symbols
variable {file : KernelFile} {size s t i : Nat} {tables : SymbolTables} {address : UInt64}

/-- **The fields of symbol `i`.** -/
theorem symbol_eq (hsymtab : tables.symtabOffset = file.pointer (file.sectionOffset s)) (i : Nat) :
    let entry := symtabEntry.at file.mem
      (tables.symtabOffset + symtabEntrySize * UInt64.ofNat i)
    entry.name.toUInt64 = UInt64.ofNat (file.symbolName s i) ∧
      entry.value.toNat = file.symbolValue s i ∧ entry.size.toNat = file.symbolSize s i := by
  have hp : tables.symtabOffset + symtabEntrySize * UInt64.ofNat i =
      file.pointer (file.sectionOffset s + 24 * i) := by
    rw [hsymtab, ← pointer_add, UInt64.ofNat_mul]
    rfl
  have h8 := pointer_add file (file.sectionOffset s + 24 * i) 8
  have h16 := pointer_add file (file.sectionOffset s + 24 * i) 16
  unfold symtabEntry.at
  rw [hp]
  refine ⟨load32_pointer file _, ?_, ?_⟩
  · exact (congrArg (fun a => (file.mem.load64 a).toNat) h8).trans (toNat_load64 file.mem _)
  · exact (congrArg (fun a => (file.mem.load64 a).toNat) h16).trans (toNat_load64 file.mem _)

/-- The test of the loop, where no symbol wraps. -/
theorem symbolHit_eq (address : UInt64)
    (hsymtab : tables.symtabOffset = file.pointer (file.sectionOffset s))
    (hstrtab : tables.strtabOffset = file.pointer (file.sectionOffset t))
    (hnowrap : file.symbolValue s i + file.symbolSize s i < 2 ^ 64) :
    (file.Inside s i address → symbolHit file.mem tables address i =
        some (cstringAt file.mem (file.pointer (file.sectionOffset t + file.symbolName s i)))) ∧
      (¬ file.Inside s i address → symbolHit file.mem tables address i = none) := by
  obtain ⟨hname, hvalue, hsize⟩ := symbol_eq hsymtab i
  unfold symbolHit
  dsimp only
  generalize symtabEntry.at file.mem (tables.symtabOffset + symtabEntrySize * UInt64.ofNat i) = entry
    at hname hvalue hsize ⊢
  have hinside : address ≥ entry.value ∧ address < entry.value + entry.size ↔
      file.Inside s i address := by
    unfold KernelFile.Inside
    rw [ge_iff_le, UInt64.le_iff_toNat_le, UInt64.lt_iff_toNat_lt,
      Words.toNat_add_lt _ _ (by omega), hvalue, hsize]
  constructor
  · intro h
    rw [if_pos (hinside.mpr h), hstrtab, hname, pointer_add]
  · intro h
    exact if_neg fun hhit => h (hinside.mp hhit)

/-- **What is printed for an address**: the name of the first symbol around it,
    and no name where there is none; and without a symbol table nothing is read
    from one. -/
structure NamesFunction (file : KernelFile) (address : UInt64)
    (result : Option (Option CString)) (reads : Option (List UInt64)) : Prop where
  found    : ∀ s < file.sectionCount, ∀ t < file.sectionCount,
    file.SectionNamed s symtabName → file.SectionNamed t strtabName →
    ∀ i < file.symbolCount s, file.Inside s i address → (∀ j < i, ¬ file.Inside s j address) →
      ∃ text, file.HasString (file.sectionOffset t + file.symbolName s i) text ∧
        result = some (some text)
  notFound : ∀ s < file.sectionCount, file.SectionNamed s symtabName →
    (∀ i < file.symbolCount s, ¬ file.Inside s i address) → result = some none
  stripped : (∀ s < file.sectionCount, ¬ file.SectionNamed s symtabName) →
    result = some none ∧ reads = some []

/-- The two loops of `getFunctionName`, on a well-formed file. -/
theorem getFunctionName_run (hfile : file.WellFormed size) (address : UInt64) :
    ∃ tables, FoundTables file file.sectionCount tables ∧
      getFunctionName file.mem file.start address =
        (Loops.searchFrom (symbolHit file.mem tables address)
          (file.symbolCount tables.symtabIndex) 0).elim (some none) (fun name => name.map some) ∧
      tableReads file.mem file.start address =
        some (symbolReads file.mem tables address (file.symbolCount tables.symtabIndex) 0) := by
  obtain ⟨table, hvalid, htable, hcount, hindex⟩ := sectionTable_eq hfile
  obtain ⟨tables, hrun, hfound⟩ := findTables_run hfile (Nat.le_refl _) htable hindex
  rw [← hcount] at hrun
  have hsize : ((table.header file.mem tables.symtabIndex).size / symtabEntrySize).toNat =
      file.symbolCount tables.symtabIndex := by
    obtain ⟨-, -, hsize⟩ := header_eq htable tables.symtabIndex
    have hlt : file.sectionSize tables.symtabIndex < 2 ^ 64 := by
      unfold KernelFile.sectionSize KernelFile.field
      rw [← toNat_load64]
      exact UInt64.toNat_lt _
    rw [hsize, UInt64.toNat_div, Words.ofNat_toNat_lt _ hlt]
    rfl
  refine ⟨tables, hfound, ?_, ?_⟩
  · rw [getFunctionName_eq address hvalid hrun, hsize]
  · unfold tableReads
    rw [hvalid]
    dsimp only
    rw [hrun]
    show some (symbolReads file.mem tables address _ 0) = _
    rw [hsize]

/-- **Main theorem on lookups**: for every well-formed file and every address. -/
theorem getFunctionName_finds (hfile : file.WellFormed size) (address : UInt64) :
    NamesFunction file address (getFunctionName file.mem file.start address)
      (tableReads file.mem file.start address) := by
  obtain ⟨tables, hfound, hname, hreads⟩ := getFunctionName_run hfile address
  rw [hname, hreads]
  constructor
  · intro s hs t ht hsymtab hstrtab i hi hinside hfirst
    obtain ⟨hindex, hoffset⟩ := hfound.symtab s hs hsymtab
    have hnowrap := hfile.nowrap s hs hsymtab
    have htest := fun j hj => symbolHit_eq (i := j) address hoffset
      (hfound.strtab t ht hstrtab) (hnowrap j hj)
    obtain ⟨text, htext, hends⟩ := (hfile.symbols s hs t ht hsymtab hstrtab).2 i hi
    have hfits := hfile.fits
    have hsearch := Loops.searchFrom_of_first (n := file.symbolCount s) (i := 0) (Nat.zero_le i)
      (by omega) ((htest i hi).1 hinside)
      (fun j _ hj => (htest j (Nat.lt_trans hj hi)).2 (hfirst j hj))
    refine ⟨text, htext, ?_⟩
    rw [hindex, hsearch, cstringAt_eq htext (by omega)]
    rfl
  · intro s hs hsymtab hnone
    obtain ⟨t, ht, hstrtab⟩ := hfile.together.mp ⟨s, hs, hsymtab⟩
    obtain ⟨hindex, hoffset⟩ := hfound.symtab s hs hsymtab
    rw [hindex]
    rcases hsearch : Loops.searchFrom (symbolHit file.mem tables address) (file.symbolCount s) 0
      with - | name
    · rfl
    · -- A hit would be a symbol around the address.
      obtain ⟨k, -, hk, hhit, -⟩ := Loops.searchFrom_eq_some hsearch
      have hmiss := (symbolHit_eq address hoffset (hfound.strtab t ht hstrtab)
        (hfile.nowrap s hs hsymtab k (by omega))).2 (hnone k (by omega))
      rw [hmiss] at hhit
      cases hhit
  · intro hnone
    have hzero : file.symbolCount tables.symtabIndex = 0 := by
      rw [hfound.none hnone]
      unfold KernelFile.symbolCount
      rw [hfile.null]
    rw [hzero]
    exact ⟨rfl, rfl⟩

end symbols

/-! ## Section 6: A file with one function -/

/-- A file of 326 bytes with the one function `main`, from `0x1000` to `0x100F`:
    three section headers from 64 on, two symbols from 256 on, and then all
    strings. -/
def mainFile : KernelFile where
  start := 0
  mem a :=
    if a.toNat < 304 then
      (List.lookup a.toNat [(0, 0x7F), (1, 0x45), (2, 0x4C), (3, 0x46), (4, 2),
        (40, 64), (60, 3), (62, 2),
        (128, 1), (153, 1), (160, 48), (192, 9), (216, 0x30), (217, 1), (224, 22),
        (280, 17), (289, 0x10), (296, 0x10)]).getD 0
    else
      ([0] ++ symtabName ++ [0] ++ strtabName ++ [0, 0x6D, 0x61, 0x69, 0x6E] : CString).getD
        (a.toNat - 304) 0

/-- The names of the sections of `mainFile`. -/
def mainFileSections : List CString := [[], symtabName, strtabName]

theorem mainFile_main : mainFile.HasString 321 [0x6D, 0x61, 0x69, 0x6E] :=
  hasString_of_read (by decide) (by decide) (by decide)

theorem mainFile_sectionNamed : ∀ i < 3, mainFile.SectionNamed i (mainFileSections.getD i []) ∧
    mainFile.Ends 326
      (mainFile.sectionOffset mainFile.nameTableIndex + mainFile.sectionName i) := by
  intro i hi
  have hbound : mainFile.sectionOffset mainFile.nameTableIndex + mainFile.sectionName i +
      (mainFileSections.getD i []).length < 326 := by decide +revert
  have hnamed : mainFile.SectionNamed i (mainFileSections.getD i []) := by
    apply hasString_of_read
    all_goals
      decide +revert
  exact ⟨hnamed, _, hnamed, hbound⟩

theorem mainFile_named {i : Nat} (hi : i < 3) {name : CString} (h : mainFile.SectionNamed i name) :
    mainFileSections.getD i [] = name :=
  hasString_unique (mainFile_sectionNamed i hi).1 h

theorem mainFile_index {i : Nat} (hi : i < 3) :
    (mainFile.SectionNamed i symtabName → i = 1) ∧ (mainFile.SectionNamed i strtabName → i = 2) := by
  constructor
  all_goals
    intro h
    have hname := mainFile_named hi h
    clear h
    decide +revert

theorem mainFile_wellFormed : mainFile.WellFormed 326 where
  elf := by decide
  fits := by decide
  headers := by decide
  names := by decide
  sections := by decide
  strings := fun i hi => (mainFile_sectionNamed i hi).2
  null := by decide
  symtab i hi j hj h h' := by rw [(mainFile_index hi).1 h, (mainFile_index hj).1 h']
  strtab i hi j hj h h' := by rw [(mainFile_index hi).2 h, (mainFile_index hj).2 h']
  together := by
    constructor
    · exact fun _ => ⟨2, by decide, (mainFile_sectionNamed 2 (by decide)).1⟩
    · exact fun _ => ⟨1, by decide, (mainFile_sectionNamed 1 (by decide)).1⟩
  symbols s hs t ht h h' := by
    obtain rfl := (mainFile_index hs).1 h
    obtain rfl := (mainFile_index ht).2 h'
    refine ⟨by decide, fun i hi => ?_⟩
    obtain rfl | rfl : i = 0 ∨ i = 1 := by
      have hcount : mainFile.symbolCount 1 = 2 := by decide
      omega
    · exact ⟨[], hasString_of_read (by decide) (by decide) (by decide), by decide⟩
    · exact ⟨_, mainFile_main, by decide⟩
  nowrap s hs h := by
    obtain rfl := (mainFile_index hs).1 h
    decide

/-- An address in `main`. -/
theorem getFunctionName_main :
    getFunctionName mainFile.mem 0 0x1008 = some (some [0x6D, 0x61, 0x69, 0x6E]) := by
  have hnames := getFunctionName_finds mainFile_wellFormed 0x1008
  obtain ⟨text, htext, hresult⟩ := hnames.found 1 (by decide) 2 (by decide)
    (mainFile_sectionNamed 1 (by decide)).1 (mainFile_sectionNamed 2 (by decide)).1 1 (by decide)
    (by decide) (by decide)
  obtain rfl := hasString_unique htext mainFile_main
  exact hresult

end ArgaldOS
