import ArgaldOS.Framework.BitFields
import ArgaldOS.Pmm.Model

/-! # The interrupt descriptor table (`arch/x64/idt.c`, `arch/x64/idt.h`)

    `initIDT` takes a frame for the table and fills in the descriptors of the
    exceptions, the timer, the keyboard and two software interrupts.  The frame
    is not cleared, and `idtSetDescriptor` assigns the fields of a descriptor
    one by one; `reserved0`, `empty` and `reserved` are not assigned.

    Left out: `lidt`, the programming of the interrupt controllers, which has
    no effect on memory, and the handlers themselves.
-/

namespace ArgaldOS

open BitFields

/-! ## Section 1: Stores -/

namespace Mem

/-- Store two bytes through the pointer `va` into the direct map. -/
def hstore16 (m : Mem) (hhdm va : UInt64) (v : UInt16) : Mem :=
  (m.hstore8 hhdm va v.toUInt8).hstore8 hhdm (va + 1) (v >>> 8).toUInt8

/-- Store four bytes. -/
def hstore32 (m : Mem) (hhdm va : UInt64) (v : UInt32) : Mem :=
  (((m.hstore8 hhdm va v.toUInt8).hstore8 hhdm (va + 1) (v >>> 8).toUInt8).hstore8 hhdm (va + 2)
    (v >>> 16).toUInt8).hstore8 hhdm (va + 3) (v >>> 24).toUInt8

/-- Store to a bit field of the byte behind the pointer `va`. -/
def hstoreField (m : Mem) (hhdm va : UInt64) (F : Field) (v : Nat) : Mem :=
  m.hstore8 hhdm va (F.put (m.hload8 hhdm va) v)

end Mem

/-! ## Section 2: Descriptors -/

/-- The bit fields of `struct IDTEntry`: `ist` and `reserved0` share byte 4, the
    others byte 5. -/
def Field.ist : Field := ⟨0, 3, by decide⟩
def Field.gateType : Field := ⟨0, 4, by decide⟩
def Field.empty : Field := ⟨4, 1, by decide⟩
def Field.dpl : Field := ⟨5, 2, by decide⟩
def Field.present : Field := ⟨7, 1, by decide⟩

/-- `idtSetDescriptor`. -/
def idtSetDescriptor (hhdm : UInt64) (vect : UInt8) (isrThingy : UInt64) (gateType dpl : UInt8)
    (IDTAddr : UInt64) (mem : Mem) : Mem :=
  let thisEntry := IDTAddr + 16 * vect.toUInt64
  let mem := mem.hstore16 hhdm thisEntry (isrThingy &&& 0xFFFF).toUInt16
  let mem := mem.hstore16 hhdm (thisEntry + 6) ((isrThingy >>> 16) &&& 0xFFFF).toUInt16
  let mem := mem.hstore32 hhdm (thisEntry + 8) ((isrThingy >>> 32) &&& 0xFFFFFFFF).toUInt32
  let mem := mem.hstore16 hhdm (thisEntry + 2) 0x08
  let mem := mem.hstoreField hhdm (thisEntry + 4) Field.ist 0
  -- Three of the four fields of this byte.
  let mem := mem.hstoreField hhdm (thisEntry + 5) Field.gateType gateType.toNat
  let mem := mem.hstoreField hhdm (thisEntry + 5) Field.dpl dpl.toNat
  mem.hstoreField hhdm (thisEntry + 5) Field.present 1

/-- The functions whose addresses are passed to `idtSetDescriptor`. -/
inductive Handler where
  | taskSwitchISR | isr_keyboard | syscallISR | pepe
  | divideException | debugException | breakpointException | overflowException
  | boundRangeExceededException | invalidOpcodeException | deviceNotAvaliableException
  | doubleFaultException | coprocessorSegmentOverrunException | invalidTSSException
  | segmentNotPresentException | stackSegmentFaultException | generalProtectionFaultException
  | pageFaultException | floatingPointException | alignmentCheckException
  | machineCheckException | simdFloatingPointException | virtualisationException
deriving Repr, DecidableEq

/-- The arguments of a call of `idtSetDescriptor`. -/
structure Descriptor where
  vect     : UInt8
  handler  : Handler
  gateType : UInt8
  dpl      : UInt8
deriving Repr, DecidableEq

/-- The calls of `initIRQ`, in its order. -/
def descriptors : List Descriptor :=
  [ ⟨0x20, .taskSwitchISR, 14, 0⟩,
    ⟨0x21, .isr_keyboard, 14, 0⟩,
    ⟨0x80, .syscallISR, 14, 0⟩,
    ⟨0x81, .pepe, 14, 0⟩,
    ⟨0, .divideException, 15, 0⟩,
    ⟨1, .debugException, 15, 0⟩,
    ⟨3, .breakpointException, 15, 0⟩,
    ⟨4, .overflowException, 15, 0⟩,
    ⟨5, .boundRangeExceededException, 15, 0⟩,
    ⟨6, .invalidOpcodeException, 15, 0⟩,
    ⟨7, .deviceNotAvaliableException, 15, 0⟩,
    ⟨8, .doubleFaultException, 15, 0⟩,
    ⟨9, .coprocessorSegmentOverrunException, 15, 0⟩,
    ⟨10, .invalidTSSException, 15, 0⟩,
    ⟨11, .segmentNotPresentException, 15, 0⟩,
    ⟨12, .stackSegmentFaultException, 15, 0⟩,
    ⟨13, .generalProtectionFaultException, 15, 0⟩,
    ⟨14, .pageFaultException, 15, 0⟩,
    ⟨16, .floatingPointException, 15, 0⟩,
    ⟨17, .alignmentCheckException, 15, 0⟩,
    ⟨18, .machineCheckException, 15, 0⟩,
    ⟨19, .simdFloatingPointException, 15, 0⟩,
    ⟨20, .virtualisationException, 15, 0⟩ ]

/-- `initIRQ`, as far as it writes memory; `handlers` has the addresses. -/
def initIRQ (hhdm : UInt64) (handlers : Handler → UInt64) (IDTAddr : UInt64) (mem : Mem) : Mem :=
  descriptors.foldl
    (fun mem e => idtSetDescriptor hhdm e.vect (handlers e.handler) e.gateType e.dpl IDTAddr mem) mem

/-- `struct idtr`. -/
structure idtr where
  size   : UInt16
  offset : UInt64

/-- `initIDT`: `kernel.IDTPtr`, and memory. -/
def initIDT (hhdm : UInt64) (ls : largestSection) (handlers : Handler → UInt64) (mem : Mem) :
    idtr × Mem :=
  let (ptr, mem) := kmalloc hhdm ls mem
  let IDTAddr := ptr + hhdm
  ({ size := 16 * 256 - 1, offset := IDTAddr }, initIRQ hhdm handlers IDTAddr mem)

/-! ## Section 3: The table as the processor reads it -/

/-- The fields of a gate. -/
structure Gate where
  offset   : UInt64
  selector : UInt16
  type     : Nat
  s        : Nat
  dpl      : Nat
  present  : Nat
deriving Repr, DecidableEq

/-- The sixteen bytes of a descriptor. -/
abbrev Entry : Type := Fin 16 → UInt8

/-- A descriptor, decoded. -/
def decodeGate (e : Entry) : Gate where
  offset := combine64bit (e 11) (e 10) (e 9) (e 8) (e 7) (e 6) (e 1) (e 0)
  selector := ((e 3).toUInt16 <<< 8) ||| (e 2).toUInt16
  type := Field.gateType.get (e 5)
  s := Field.empty.get (e 5)
  dpl := Field.dpl.get (e 5)
  present := Field.present.get (e 5)

/-- The descriptor of a vector in the table that `IDTPtr` points to. -/
def idtEntry (hhdm : UInt64) (IDTPtr : idtr) (mem : Mem) (v : Fin 256) : Entry :=
  fun k => mem.hload8 hhdm (IDTPtr.offset + 16 * UInt64.ofNat v.val + UInt64.ofNat k.val)

/-- `idtSetDescriptor` on the bytes of the entry. -/
def setEntry (isrThingy : UInt64) (gateType dpl : UInt8) (e : Entry) : Entry :=
  let offset1 := (isrThingy &&& 0xFFFF).toUInt16
  let offset2 := ((isrThingy >>> 16) &&& 0xFFFF).toUInt16
  let offset3 := ((isrThingy >>> 32) &&& 0xFFFFFFFF).toUInt32
  let e := Function.update (Function.update e 0 offset1.toUInt8) 1 (offset1 >>> 8).toUInt8
  let e := Function.update (Function.update e 6 offset2.toUInt8) 7 (offset2 >>> 8).toUInt8
  let e := Function.update (Function.update e 8 offset3.toUInt8) 9 (offset3 >>> 8).toUInt8
  let e := Function.update e 10 (offset3 >>> 16).toUInt8
  let e := Function.update e 11 (offset3 >>> 24).toUInt8
  let e := Function.update (Function.update e 2 0x08) 3 0
  let e := Function.update e 4 (Field.ist.put (e 4) 0)
  let e := Function.update e 5 (Field.gateType.put (e 5) gateType.toNat)
  let e := Function.update e 5 (Field.dpl.put (e 5) dpl.toNat)
  Function.update e 5 (Field.present.put (e 5) 1)

end ArgaldOS
