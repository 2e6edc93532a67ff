import ArgaldOS.Framework.BitFields
import ArgaldOS.Framework.Loops
import ArgaldOS.Pmm.Model
import Mathlib.Data.List.Nodup

/-! # Segment descriptors (`arch/x64/gdt.c`)

    A segment descriptor scatters a base, a limit, an access byte and four flags
    over eight bytes.  `putEntryTogether` fills them in a local structure, which
    `setGate` copies into the table.

    * `setGate_entry`, `setGate_other`: a copy replaces the eight bytes of its own
      entry and no others;
    * `decodeSegment_putEntryTogether`: what the processor reads out of an entry;
    * `gdt_correct_iff`: the arguments for which this is what was put in.
-/

namespace ArgaldOS

open BitFields Loops

/-! ## Section 1: The table -/

theorem Field.limit2_fits : 0 + 4 ≤ 8 := by decide

/-- The bit fields of `struct GDTEntry`. -/
def Field.limit2 : Field := ⟨0, 4, limit2_fits⟩
def Field.flags : Field := ⟨4, 4, by decide⟩

/-- `struct GDTEntry`; `limit2` and `flags` share a byte. -/
structure GDTEntry where
  limit1      : UInt16
  base1       : UInt16
  base2       : UInt8
  accessByte  : UInt8
  limit2Flags : UInt8
  base3       : UInt8
deriving DecidableEq, Repr

/-- The structure in memory. -/
def GDTEntry.bytes (e : GDTEntry) (k : Fin 8) : UInt8 :=
  [e.limit1.toUInt8, (e.limit1 >>> 8).toUInt8, e.base1.toUInt8, (e.base1 >>> 8).toUInt8, e.base2,
    e.accessByte, e.limit2Flags, e.base3].getD k.val 0

/-- `putEntryTogether`; `toReturn` is the uninitialised structure. -/
def putEntryTogether (toReturn : GDTEntry) (_base : UInt64) (accessByte flags : UInt8)
    (limit : UInt32) : GDTEntry :=
  -- The parts of the base are taken from the limit.
  let toReturn := { toReturn with
    base1 := (limit &&& 0xFFFF).toUInt16
    base2 := ((limit >>> 16) &&& 0xFF).toUInt8
    base3 := ((limit >>> 24) &&& 0xFF).toUInt8
    accessByte
    limit1 := (limit &&& 0xFFFF).toUInt16
    limit2Flags := Field.limit2.put toReturn.limit2Flags ((limit >>> 16) &&& 0xF).toNat }
  { toReturn with accessByte, limit2Flags := Field.flags.put toReturn.limit2Flags flags.toNat }

/-- The pointer to byte `k` of `GDTAddr[gateID]`. -/
def gdtByte (GDTAddr : UInt64) (gateID : Int32) (k : Fin 8) : UInt64 :=
  GDTAddr + 8 * gateID.toInt64.toUInt64 + UInt64.ofNat k.val

/-- `setGate`. -/
def setGate (hhdm : UInt64) (toReturn : GDTEntry) (gateID : Int32) (base : UInt64)
    (accessByte flags : UInt8) (limit : UInt32) (GDTAddr : UInt64) (mem : Mem) : Mem :=
  updates (fun k => gdtByte GDTAddr gateID k - hhdm)
    (fun k _ => (putEntryTogether toReturn base accessByte flags limit).bytes k)
    (List.finRange 8) mem

/-- `sizeof(struct TSS)`: it is packed. -/
def sizeofTSS : UInt32 := 4 + 8 + 23 * 4

/-- `struct GDTPtr`. -/
structure GDTPtr where
  size   : UInt16
  offset : UInt64
deriving DecidableEq, Repr

/-- `initGDT`: `kernel.GDTR`, and memory; `tss` is the address of `kernel.tss`. -/
def initGDT (hhdm : UInt64) (ls : largestSection) (toReturn : GDTEntry) (tss : UInt64) (mem : Mem) :
    GDTPtr × Mem :=
  let (ptr, mem) := kmalloc hhdm ls mem
  let GDT := ptr + hhdm
  let mem := setGate hhdm toReturn 0 0 0 0 0 GDT mem
  let mem := setGate hhdm toReturn 1 0 0x9A 0xA 0xFFFFF GDT mem
  let mem := setGate hhdm toReturn 2 0 0x92 0xC 0xFFFFF GDT mem
  let mem := setGate hhdm toReturn 3 0 0xFA 0xA 0xFFFFF GDT mem
  let mem := setGate hhdm toReturn 4 0 0xF2 0xC 0xFFFFF GDT mem
  let mem := setGate hhdm toReturn 5 tss 0x89 0 (sizeofTSS - 1) GDT mem
  ({ size := 8 * 6 - 1, offset := GDT }, mem)

/-! ## Section 2: The table as the processor reads it -/

/-- The fields of a segment descriptor. -/
structure Segment where
  base   : UInt32
  limit  : Nat
  access : UInt8
  flags  : Nat
deriving DecidableEq, Repr

/-- Eight bytes, decoded. -/
def decodeSegment (e : Fin 8 → UInt8) : Segment where
  base   := combine32bit (e 7) (e 4) (e 3) (e 2)
  limit  := (e 0).toNat + 256 * (e 1).toNat + 65536 * Field.limit2.get (e 6)
  access := e 5
  flags  := Field.flags.get (e 6)

/-- An entry of the table. -/
def gdtEntry (hhdm GDTAddr : UInt64) (mem : Mem) (gateID : Int32) : Fin 8 → UInt8 :=
  fun k => mem.hload8 hhdm (gdtByte GDTAddr gateID k)

section copy
variable {hhdm GDTAddr base : UInt64} {toReturn : GDTEntry} {gateID : Int32}
variable {accessByte flags : UInt8} {limit : UInt32} {mem : Mem}

/-- **The bytes of the entries are all different**, for indices of type `int`. -/
theorem gdtByte_inj {i j : Int32} {k l : Fin 8} (h : gdtByte GDTAddr i k = gdtByte GDTAddr j l) :
    i = j ∧ k = l := by
  have hsigned : ∀ i : Int32, i.toInt = if 2 * i.toInt64.toUInt64.toNat < 2 ^ 64 then
      (i.toInt64.toUInt64.toNat : Int) else i.toInt64.toUInt64.toNat - (2 ^ 64 : Nat) := by
    intro i
    rw [← Int32.toInt_toInt64]
    exact BitVec.toInt_eq_toNat_cond i.toInt64.toBitVec
  have heq : 8 * i.toInt64.toUInt64 + UInt64.ofNat k.val =
      8 * j.toInt64.toUInt64 + UInt64.ofNat l.val := by
    unfold gdtByte at h
    grind
  have hnat := congrArg UInt64.toNat heq
  have hk := k.isLt
  have hl := l.isLt
  rw [UInt64.toNat_add, UInt64.toNat_add, UInt64.toNat_mul, UInt64.toNat_mul,
    Words.ofNat_toNat_lt k.val (by omega), Words.ofNat_toNat_lt l.val (by omega)] at hnat
  simp only [UInt64.reduceToNat] at hnat
  have hi := hsigned i
  have hj := hsigned j
  have hilow := i.le_toInt
  have hihigh := i.toInt_lt
  have hjlow := j.le_toInt
  have hjhigh := j.toInt_lt
  have hiword := i.toInt64.toUInt64.toNat_lt
  have hjword := j.toInt64.toUInt64.toNat_lt
  constructor
  · apply Int32.toInt_inj.mp
    split at hi <;> split at hj <;> omega
  · exact Fin.ext (by omega)

/-- The entry that is copied. -/
theorem setGate_entry :
    gdtEntry hhdm GDTAddr
        (setGate hhdm toReturn gateID base accessByte flags limit GDTAddr mem) gateID =
      (putEntryTogether toReturn base accessByte flags limit).bytes := by
  funext k
  have hnodup : ((List.finRange 8).map fun k => gdtByte GDTAddr gateID k - hhdm).Nodup := by
    apply List.Nodup.map_on _ (List.nodup_finRange 8)
    intro k _ l _ h
    have hsame : gdtByte GDTAddr gateID k = gdtByte GDTAddr gateID l := by grind
    exact (gdtByte_inj hsame).2
  have hread := updates_of_mem
    (f := fun k _ => (putEntryTogether toReturn base accessByte flags limit).bytes k) hnodup
    (List.mem_finRange k) mem
  unfold gdtEntry setGate Mem.hload8
  exact hread

/-- **All other entries stay.** -/
theorem setGate_other {other : Int32} (h : other ≠ gateID) :
    gdtEntry hhdm GDTAddr
        (setGate hhdm toReturn gateID base accessByte flags limit GDTAddr mem) other =
      gdtEntry hhdm GDTAddr mem other := by
  funext l
  unfold gdtEntry setGate Mem.hload8
  apply updates_of_not_mem
  intro k _ heq
  have hsame : gdtByte GDTAddr gateID k = gdtByte GDTAddr other l := by grind
  exact h (gdtByte_inj hsame).1.symm

end copy

/-! ## Section 3: The encoding -/

section encoding
variable {toReturn : GDTEntry} {base : UInt64} {accessByte flags : UInt8} {limit : UInt32}

/-- The low half of the limit, which is stored twice. -/
theorem toNat_lowHalf (limit : UInt32) :
    (limit &&& 0xFFFF).toUInt16.toNat = limit.toNat % 2 ^ 16 := by
  rw [UInt32.toNat_toUInt16, Words.toNat_and_mask32 limit _ 16 rfl, Nat.mod_mod]

/-- A byte of the limit that is masked, too. -/
theorem toNat_maskedByte (limit n : UInt32) (hn : n.toNat < 32) :
    ((limit >>> n) &&& 0xFF).toUInt8.toNat = limit.toNat / 2 ^ n.toNat % 2 ^ 8 := by
  rw [UInt32.toNat_toUInt8, Words.toNat_and_mask32 _ _ 8 rfl, UInt32.toNat_shiftRight,
    Nat.mod_eq_of_lt hn, Nat.shiftRight_eq_div_pow, Nat.mod_mod]

theorem toNat_limit2 (limit : UInt32) :
    ((limit >>> 16) &&& 0xF).toNat = limit.toNat / 2 ^ 16 % 2 ^ 4 := by
  rw [Words.toNat_and_mask32 _ _ 4 rfl, UInt32.toNat_shiftRight, Nat.shiftRight_eq_div_pow]
  rfl

/-- The fields of a segment in terms of the structure. -/
theorem decodeSegment_bytes (e : GDTEntry) :
    decodeSegment e.bytes =
      { base := combine32bit e.base3 e.base2 (e.base1 >>> 8).toUInt8 e.base1.toUInt8
        limit := e.limit1.toUInt8.toNat + 256 * (e.limit1 >>> 8).toUInt8.toNat +
          65536 * Field.limit2.get e.limit2Flags
        access := e.accessByte
        flags := Field.flags.get e.limit2Flags } :=
  rfl

/-- **What the processor reads**: limit, access byte and flags as they were put in,
    and the limit again as the base. -/
theorem decodeSegment_putEntryTogether (hflags : flags.toNat < 16) :
    decodeSegment (putEntryTogether toReturn base accessByte flags limit).bytes =
      { base := limit, limit := limit.toNat % 2 ^ 20, access := accessByte,
        flags := flags.toNat } := by
  have hlimit := limit.toNat_lt
  have hlow := toNat_lowHalf limit
  have hbyte0 : (limit &&& 0xFFFF).toUInt16.toUInt8.toNat = limit.toNat % 2 ^ 8 := by
    rw [UInt16.toNat_toUInt8, hlow]
    omega
  have hbyte1 : ((limit &&& 0xFFFF).toUInt16 >>> 8).toUInt8.toNat = limit.toNat / 2 ^ 8 % 2 ^ 8 := by
    rw [Words.toNat_byte16 _ 8 (by decide), hlow]
    show limit.toNat % 2 ^ 16 / 2 ^ 8 % 2 ^ 8 = _
    omega
  have hbyte2 := toNat_maskedByte limit 16 (by decide)
  have hbyte3 := toNat_maskedByte limit 24 (by decide)
  change _ = limit.toNat / 2 ^ 16 % 2 ^ 8 at hbyte2
  change _ = limit.toNat / 2 ^ 24 % 2 ^ 8 at hbyte3
  have hbase : combine32bit ((limit >>> 24) &&& 0xFF).toUInt8 ((limit >>> 16) &&& 0xFF).toUInt8
      ((limit &&& 0xFFFF).toUInt16 >>> 8).toUInt8 (limit &&& 0xFFFF).toUInt16.toUInt8 = limit := by
    apply UInt32.toNat_inj.mp
    rw [toNat_combine32bit, hbyte0, hbyte1, hbyte2, hbyte3]
    omega
  -- The byte of the two bit fields, whatever it was before.
  have hdisjoint : Field.limit2.Disjoint Field.flags := by decide
  have hlimit2 : ∀ b, Field.limit2.get (Field.flags.put (Field.limit2.put b
      ((limit >>> 16) &&& 0xF).toNat) flags.toNat) = limit.toNat / 2 ^ 16 % 2 ^ 4 := by
    intro b
    rw [Field.get_put_disjoint hdisjoint, Field.get_put_self, toNat_limit2]
    show limit.toNat / 2 ^ 16 % 2 ^ 4 % 2 ^ 4 = _
    rw [Nat.mod_mod]
  have hflags' : ∀ b, Field.flags.get (Field.flags.put b flags.toNat) = flags.toNat := by
    intro b
    rw [Field.get_put_self]
    exact Nat.mod_eq_of_lt hflags
  have hlimitValue : (limit &&& 0xFFFF).toUInt16.toUInt8.toNat +
      256 * ((limit &&& 0xFFFF).toUInt16 >>> 8).toUInt8.toNat +
      65536 * (limit.toNat / 2 ^ 16 % 2 ^ 4) = limit.toNat % 2 ^ 20 := by
    rw [hbyte0, hbyte1]
    omega
  rw [decodeSegment_bytes]
  unfold putEntryTogether
  simp only [hlimit2, hflags', hbase, hlimitValue]

/-- **What a gate is for**: the processor finds the low 32 bits of the base, the
    low 20 bits of the limit, the access byte and the flags, and all other entries
    as they were. -/
structure GateCorrect (hhdm : UInt64) (toReturn : GDTEntry) (gateID : Int32) (base : UInt64)
    (accessByte flags : UInt8) (limit : UInt32) (GDTAddr : UInt64) (mem : Mem) : Prop where
  decoded : decodeSegment (gdtEntry hhdm GDTAddr
      (setGate hhdm toReturn gateID base accessByte flags limit GDTAddr mem) gateID) =
    { base := base.toUInt32, limit := limit.toNat % 2 ^ 20, access := accessByte,
      flags := flags.toNat }
  others  : ∀ other, other ≠ gateID →
    gdtEntry hhdm GDTAddr
        (setGate hhdm toReturn gateID base accessByte flags limit GDTAddr mem) other =
      gdtEntry hhdm GDTAddr mem other

/-- **Main theorem on segment descriptors**: a gate is right exactly when its
    limit happens to be its base; and the base of the task state segment, exactly
    when it happens to be the limit of that segment. -/
theorem gdt_correct_iff (hhdm : UInt64) (ls : largestSection) (toReturn : GDTEntry)
    (gateID : Int32) (base : UInt64) (accessByte : UInt8) {flags : UInt8} (limit : UInt32)
    (GDTAddr tss : UInt64) (mem : Mem) (hflags : flags.toNat < 16) :
    (GateCorrect hhdm toReturn gateID base accessByte flags limit GDTAddr mem ↔
        base.toUInt32 = limit) ∧
      ((decodeSegment (gdtEntry hhdm (initGDT hhdm ls toReturn tss mem).1.offset
          (initGDT hhdm ls toReturn tss mem).2 5)).base = tss.toUInt32 ↔
        tss.toUInt32 = sizeofTSS - 1) := by
  constructor
  · constructor
    · intro h
      have hdecoded := h.decoded
      rw [setGate_entry, decodeSegment_putEntryTogether hflags] at hdecoded
      exact (congrArg Segment.base hdecoded).symm
    · intro h
      refine ⟨?_, fun other hother => setGate_other hother⟩
      rw [setGate_entry, decodeSegment_putEntryTogether hflags, h]
  · have hzero : (0 : UInt8).toNat < 16 := by decide
    unfold initGDT
    dsimp only
    rw [setGate_entry, decodeSegment_putEntryTogether hzero]
    exact eq_comm

end encoding

/-- A structure whose bits are all set. -/
def entryOfOnes : GDTEntry := ⟨0xFFFF, 0xFFFF, 0xFF, 0xFF, 0xFF, 0xFF⟩

/-- A task state segment at an address of the kernel: its descriptor points to
    the address 103. -/
theorem gdt_base_lost :
    ¬ GateCorrect 0 entryOfOnes 5 0xFFFFFFFF80012340 0x89 0 (sizeofTSS - 1) 0x1000
        (fun _ => 0) ∧
      decodeSegment (putEntryTogether entryOfOnes 0xFFFFFFFF80012340 0x89 0 (sizeofTSS - 1)).bytes =
        { base := 103, limit := 103, access := 0x89, flags := 0 } := by
  have hdecoded : decodeSegment
      (putEntryTogether entryOfOnes 0xFFFFFFFF80012340 0x89 0 (sizeofTSS - 1)).bytes =
        { base := 103, limit := 103, access := 0x89, flags := 0 } :=
    decodeSegment_putEntryTogether (by decide)
  refine ⟨fun h => ?_, hdecoded⟩
  have hbase := h.decoded
  rw [setGate_entry, hdecoded] at hbase
  exact absurd (congrArg Segment.base hbase) (by decide)

/-- A data segment whose limit is its base.  With that address the task state segment is lost. -/
theorem gdt_correct_data :
    GateCorrect 0 entryOfOnes 2 0xFFFFFFFF80012340 0x92 0xC 0x80012340 0x1000 (fun _ => 0xFF) ∧
      let gdt := initGDT 0 ⟨0x100000, 0x800000, 0x1000⟩ entryOfOnes 0xFFFFFFFF80012340
        (fun _ => 0xFF)
      (decodeSegment (gdtEntry 0 gdt.1.offset gdt.2 5)).base ≠ 0x80012340 := by
  obtain ⟨hgate, htss⟩ := @gdt_correct_iff 0 ⟨0x100000, 0x800000, 0x1000⟩ entryOfOnes 2
    0xFFFFFFFF80012340 0x92 0xC 0x80012340 0x1000 0xFFFFFFFF80012340 (fun _ => 0xFF) (by decide)
  exact ⟨hgate.mpr rfl, fun h => absurd (htss.mp h) (by decide)⟩

end ArgaldOS
