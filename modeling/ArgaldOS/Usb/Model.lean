import ArgaldOS.Pmm.Model

/-! # The UHCI driver (`drivers/usb/host/uhci.c`, `kernel/io.c`)

    `uhci_init` resets the host controller, allocates a frame for the frame
    list, programs the registers of the schedule and sets the Run bit.  This
    module ends there.  The result of `find_pci_device` is a parameter.

    The I/O space is bytes.  Every access goes through the 32-bit `outl` and
    `inl`, whatever its nominal width.  While the driver waits for a tick the
    controller does what it wants with its registers, so `wait` is an arbitrary
    function of the I/O space for each of the calls.
-/

namespace ArgaldOS

open Loops

/-! ## Section 1: Port accesses -/

/-- The bytes of the I/O space. -/
abbrev IoSpace : Type := UInt16 → UInt8

/-- `outl`: four bytes, least significant first. -/
def outl (port : UInt16) (value : UInt32) (io : IoSpace) : IoSpace :=
  fun p => if p - port < 4 then (value >>> (8 * (p - port).toUInt32)).toUInt8 else io p

/-- `inl`. -/
def inl (port : UInt16) (io : IoSpace) : UInt32 :=
  combine32bit (io (port + 3)) (io (port + 2)) (io (port + 1)) (io port)

def io_write8 (address : UInt16) (value : UInt8) (io : IoSpace) : IoSpace :=
  outl address value.toUInt32 io

def io_write16 (address : UInt16) (value : UInt16) (io : IoSpace) : IoSpace :=
  outl address value.toUInt32 io

def io_write32 (address : UInt16) (value : UInt32) (io : IoSpace) : IoSpace :=
  outl address value io

def io_read8 (address : UInt16) (io : IoSpace) : UInt8 := (inl address io).toUInt8

def io_read16 (address : UInt16) (io : IoSpace) : UInt16 := (inl address io).toUInt16

def io_read32 (address : UInt16) (io : IoSpace) : UInt32 := inl address io

/-! ## Section 2: Registers -/

def UHCI_IO_USBCMD_OFFSET : UInt32 := 0x00
def UHCI_IO_USBSTS_OFFSET : UInt32 := 0x02
def UHCI_IO_USBINTR_OFFSET : UInt32 := 0x04
def UHCI_IO_FRNUM_OFFSET : UInt32 := 0x06
def UHCI_IO_FRBASEADD_OFFSET : UInt32 := 0x08
def UHCI_IO_SOFMOD_OFFSET : UInt32 := 0x0C
def UHCI_IO_PORTSC1_OFFSET : UInt32 := 0x10
def UHCI_IO_PORTSC2_OFFSET : UInt32 := 0x12

/-- The port of a register: a 32-bit sum, passed as `uint16_t`. -/
def uhciPort (uhci_io_base_address offset : UInt32) : UInt16 :=
  (uhci_io_base_address + offset).toUInt16

structure uhci_device_io where
  USBCMD    : UInt16
  USBSTS    : UInt16
  USBINTR   : UInt16
  FRNUM     : UInt16
  FRBASEADD : UInt32
  SOFMOD    : UInt8
  PORTSC1   : UInt16
  PORTSC2   : UInt16
deriving Repr, DecidableEq

/-- `get_uhci_device_io_registers`. -/
def get_uhci_device_io_registers (base : UInt32) (io : IoSpace) : uhci_device_io where
  USBCMD := io_read16 (uhciPort base UHCI_IO_USBCMD_OFFSET) io
  USBSTS := io_read16 (uhciPort base UHCI_IO_USBSTS_OFFSET) io
  USBINTR := io_read16 (uhciPort base UHCI_IO_USBINTR_OFFSET) io
  FRNUM := io_read16 (uhciPort base UHCI_IO_FRNUM_OFFSET) io
  FRBASEADD := io_read32 (uhciPort base UHCI_IO_FRBASEADD_OFFSET) io
  SOFMOD := io_read8 (uhciPort base UHCI_IO_SOFMOD_OFFSET) io
  PORTSC1 := io_read16 (uhciPort base UHCI_IO_PORTSC1_OFFSET) io
  PORTSC2 := io_read16 (uhciPort base UHCI_IO_PORTSC2_OFFSET) io

/-! ## Section 3: `uhci_init` -/

/-- `uhci_reset`; `wait i` is the wait in round `i`. -/
def uhci_reset (wait : Nat → IoSpace → IoSpace) (base : UInt32) (io : IoSpace) : IoSpace :=
  forLoop
    (fun i io =>
      let io := io_write16 (uhciPort base UHCI_IO_USBCMD_OFFSET) 0x0004 io
      io_write16 (uhciPort base UHCI_IO_USBCMD_OFFSET) 0x0000 (wait i io))
    5 io

/-- The part of `uhci_init` from the return of `kmalloc` to the Run bit. -/
def uhci_schedule (hhdm : UInt64) (base : UInt32) (ptr : UInt64) (io : IoSpace) (mem : Mem) :
    IoSpace × Mem :=
  let address := ptr + hhdm
  -- The virtual address, truncated to the 32 bits of the register.
  let io := io_write32 (uhciPort base UHCI_IO_FRBASEADD_OFFSET) address.toUInt32 io
  let io := io_write16 (uhciPort base UHCI_IO_FRNUM_OFFSET) 0x00 io
  let io := io_write8 (uhciPort base UHCI_IO_SOFMOD_OFFSET) 0x40 io
  let io := io_write16 (uhciPort base UHCI_IO_USBINTR_OFFSET) 0x0000 io
  let io := io_write16 (uhciPort base UHCI_IO_USBSTS_OFFSET) 0x40 io
  -- 64-byte packets, configured, run.
  let io := io_write16 (uhciPort base UHCI_IO_USBCMD_OFFSET) 0x00C1 io
  -- No store to memory.
  (io, mem)

/-- What there is when the Run bit has been written. -/
structure UhciStart where
  frame : UInt64
  io    : IoSpace
  mem   : Mem

/-- `uhci_init` up to the Run bit; `none` if it returns before. -/
def uhci_init (hhdm : UInt64) (ls : largestSection) (vendor_id : UInt16) (bar4 : UInt32)
    (wait : Nat → IoSpace → IoSpace) (io : IoSpace) (mem : Mem) : Option UhciStart :=
  if vendor_id = 0x00 then none else
  let io := uhci_reset wait bar4 io
  let usb_device := get_uhci_device_io_registers bar4 io
  if usb_device.USBCMD ≠ 0x0000 ∨ usb_device.USBSTS ≠ 0x0000 ∨ usb_device.SOFMOD ≠ 0x40 then none
  else
    let io := io_write16 (uhciPort bar4 UHCI_IO_USBSTS_OFFSET) 0x00FF io
    let io := io_write16 (uhciPort bar4 UHCI_IO_USBCMD_OFFSET) 0x0002 io
    let io := wait 5 io
    let (ptr, mem) := kmalloc hhdm ls mem
    let (io, mem) := uhci_schedule hhdm bar4 ptr io mem
    some ⟨ptr, io, mem⟩

end ArgaldOS
