import ArgaldOS.Framework.Loops
import ArgaldOS.Memory
import ArgaldOS.Stdlib.Binop

/-! # The physical memory manager (`kernel/pmm.c`)

    A bitmap allocator for 4096-byte page frames.  `initPMM` picks the largest
    usable region of the bootloader's memory map, puts the bitmap at its start
    and marks the frames of the bitmap as used; `kmalloc` hands out the frame
    of the first clear bit and `kfree` clears the bit again.

    The region is recorded in `kernel.largestSect`, whose fields are `int`:
    the 64-bit numbers of the memory map are truncated when they are stored
    and sign-extended when they are used.  The bitmap is read and written
    through the direct map.  `printk` is left out.
-/

namespace ArgaldOS

/-! ## Section 1: Data -/

/-- One entry of the bootloader's memory map. -/
structure limine_memmap_entry where
  base   : UInt64
  length : UInt64
  type   : UInt64

def LIMINE_MEMMAP_USABLE : UInt64 := 0

/-- `struct largestSection`: where the allocator works. -/
structure largestSection where
  maxBegin       : Int32
  maxLength      : Int32
  bitmapReserved : Int32

/-- Conversion of a `uint64_t` to `int`: the low 32 bits. -/
def toInt (x : UInt64) : Int32 := x.toUInt32.toInt32

/-- Conversion of an `int` to `uint64_t`: sign extension. -/
def ofInt (x : Int32) : UInt64 := x.toInt64.toUInt64

/-! ## Section 2: `initPMM` -/

/-- The selection loop of `initPMM`: `(maxBegin, maxLength)` of the longest
    usable entry from 1 MiB on, `(0, 0)` if there is none. -/
def selectRegion (memmapEntries : List limine_memmap_entry) : UInt64 × UInt64 :=
  memmapEntries.foldl
    (fun (max : UInt64 × UInt64) entry =>
      -- Strictly longer: the first of several longest entries is kept.
      if entry.type = LIMINE_MEMMAP_USABLE ∧ entry.length > max.2 ∧ entry.base ≥ 0x100000 then
        (entry.base, entry.length)
      else max)
    (0, 0)

/-- Pages that the bitmap of a region of `maxLength` bytes takes. -/
def bitmapPages (maxLength : UInt64) : UInt64 :=
  -- The pages of the bitmap itself are counted as well.
  let total_pages := maxLength / 4096
  let bitmap_bytes := (total_pages + 7) / 8
  (bitmap_bytes + 4095) / 4096

/-- `memset` through the direct map. -/
def memset (hhdm : UInt64) (s : UInt64) (c : UInt8) (n : Nat) (mem : Mem) : Mem :=
  Loops.forLoop (fun i m => m.hstore8 hhdm (s + UInt64.ofNat i) c) n mem

/-- The marking loop of `initPMM`: set bits `0, ..., n - 1` of the bitmap. -/
def markUsed (hhdm bitmap : UInt64) (n : Nat) (mem : Mem) : Mem :=
  Loops.forLoop
    (fun i m =>
      let byte_index := bitmap + UInt64.ofNat (i / 8)
      let bit_index := UInt8.ofNat (i % 8)
      m.hstore8 hhdm byte_index (setBit (m.hload8 hhdm byte_index) bit_index true))
    n mem

/-- `initPMM`: the recorded region and the memory with the fresh bitmap. -/
def initPMM (hhdm : UInt64) (memmapEntries : List limine_memmap_entry) (mem : Mem) :
    largestSection × Mem :=
  let maxBegin := (selectRegion memmapEntries).1
  let maxLength := (selectRegion memmapEntries).2
  let bitmap_pages := bitmapPages maxLength
  let bitmapReserved := bitmap_pages * 4096
  let bitmap := maxBegin + hhdm
  -- The bitmap is at the 64-bit base; the three fields are truncated afterwards.
  let mem := memset hhdm bitmap 0 bitmapReserved.toNat mem
  let mem := markUsed hhdm bitmap bitmap_pages.toNat mem
  ({ maxBegin := toInt maxBegin
     maxLength := toInt maxLength
     bitmapReserved := toInt bitmapReserved }, mem)

/-! ## Section 3: `kmalloc` and `kfree` -/

/-- The two nested loops of `kmalloc`: byte index and bit index of the first
    clear bit of the bitmap. -/
def findClear (hhdm : UInt64) (ls : largestSection) (mem : Mem) : Option (Nat × Nat) :=
  let bitmap_base := ofInt ls.maxBegin + hhdm
  Loops.searchFrom
    (fun b =>
      let byte := mem.hload8 hhdm (bitmap_base + UInt64.ofNat b)
      Loops.searchFrom (fun y => if getBit byte y = 0 then some (b, y) else none) 8 0)
    ls.bitmapReserved.toInt.toNat 0

/-- `kmalloc`: the address of a frame, or 0 if no bit is clear (the kernel
    then halts; 0 is what it returns should it be woken up). -/
def kmalloc (hhdm : UInt64) (ls : largestSection) (mem : Mem) : UInt64 × Mem :=
  let bitmap_base := ofInt ls.maxBegin + hhdm
  -- A sum of two int values, extended when it is stored.
  let data_start := ofInt (ls.maxBegin + ls.bitmapReserved)
  match findClear hhdm ls mem with
  | some (b, y) =>
    let bitmap_ptr := bitmap_base + UInt64.ofNat b
    let mem := mem.hstore8 hhdm bitmap_ptr (setBit (mem.hload8 hhdm bitmap_ptr) (UInt8.ofNat y) true)
    -- Computed in int, too, and not compared with the length of the region.
    let frame_index := ofInt (Int32.ofNat b * 8 + Int32.ofNat y)
    (data_start + frame_index * 4096, mem)
  | none => (0, mem)

/-- `kfree`: the byte address is computed with a 32-bit addition before the
    direct-map offset is added. -/
def kfree (hhdm : UInt64) (ls : largestSection) (location : UInt64) (mem : Mem) : Mem :=
  -- No check that the address is one that was handed out.
  let pfNum : UInt32 :=
    ((location - ofInt (ls.maxBegin + ls.bitmapReserved)) / 4096).toUInt32
  let bitmapMemAddr : UInt64 := ((pfNum >>> 3) + ls.maxBegin.toUInt32).toUInt64 + hhdm
  let bitmapByte := mem.hload8 hhdm bitmapMemAddr
  let bitToChange : UInt8 := (pfNum % 8).toUInt8
  mem.hstore8 hhdm bitmapMemAddr (setBit bitmapByte bitToChange false)

end ArgaldOS
