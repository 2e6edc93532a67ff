import ArgaldOS.Framework.Loops

/-! # PCI enumeration

    `lspci` walks the configuration space of the PCI bus: 256 buses of 32 slots
    of 8 functions.  Configuration space is read through two ports: the code
    writes the address of a register to the first and reads four bytes from the
    second, so it is a function from such addresses to double words.

    `get_pci_device_config` calls itself for the functions 1 to 7 of a
    multi-function device.  Nothing bounds the depth of these calls, so its
    definition takes the depth as fuel: `none` means that the calls go deeper.
-/

namespace ArgaldOS

open Loops

/-- Configuration space: the double word at each address written to
    `PCI_CONFIG_ADDRESS`. -/
abbrev ConfigSpace : Type := UInt32 → UInt32

/-! ## Section 1: Registers -/

def PCI_CONFIG_VENDOR_ID_OFFSET : UInt16 := 0x00
def PCI_CONFIG_DEVICE_ID_OFFSET : UInt16 := 0x02
def PCI_CONFIG_DEVICE_CLASS_OFFSET : UInt16 := 0x0A
def PCI_CONFIG_HEADER_TYPE_OFFSET : UInt16 := 0x0E
def PCI_CONFIG_BAR0_OFFSET : UInt16 := 0x10
def PCI_CONFIG_BAR1_OFFSET : UInt16 := 0x14
def PCI_CONFIG_BAR2_OFFSET : UInt16 := 0x18
def PCI_CONFIG_BAR3_OFFSET : UInt16 := 0x1C
def PCI_CONFIG_BAR4_OFFSET : UInt16 := 0x20
def PCI_CONFIG_BAR5_OFFSET : UInt16 := 0x24
def PCI_CONFIG_SUBSYSTEM_VENDOR_ID_OFFSET : UInt16 := 0x2C
def PCI_CONFIG_SUBSYSTEM_ID_OFFSET : UInt16 := 0x2E

/-- The `address` that the readers write to `PCI_CONFIG_ADDRESS`. -/
def pciAddress (bus slot func : UInt8) (offset : UInt16) : UInt32 :=
  (bus.toUInt32 <<< 16) ||| (slot.toUInt32 <<< 11) ||| (func.toUInt32 <<< 8)
    ||| (offset &&& 0xfc).toUInt32 ||| 0x80000000

/-- The expression that all readers return, before the conversion to their own
    width. -/
def pciWord (space : ConfigSpace) (bus slot func : UInt8) (offset : UInt16) : UInt32 :=
  (space (pciAddress bus slot func offset) >>> ((offset &&& 2) * 8).toUInt32) &&& 0xffff

/-- `pci_config_read16`. -/
def pci_config_read16 (space : ConfigSpace) (bus slot func : UInt8) (offset : UInt16) : UInt16 :=
  (pciWord space bus slot func offset).toUInt16

/-- `pci_config_read32`: it masks 16 bits as the others do. -/
def pci_config_read32 (space : ConfigSpace) (bus slot func : UInt8) (offset : UInt16) : UInt32 :=
  pciWord space bus slot func offset

/-! ## Section 2: Devices -/

/-- `get_pci_device_class`. -/
def get_pci_device_class (device_class subclass progIF : UInt16) : String :=
  match device_class.toNat, subclass.toNat, progIF.toNat with
  | 0x01, 0x01, _ => "IDE controller"
  | 0x01, 0x06, 0x00 => "Serial ATA controller"
  | 0x01, 0x06, 0x01 => "Serial ATA controller - AHCI"
  | 0x02, 0x00, _ => "Ethernet controller"
  | 0x03, 0x00, _ => "VGA-compatible controller"
  | 0x03, 0x02, _ => "3D Controller"
  | 0x06, 0x00, _ => "Host bridge"
  | 0x06, 0x01, _ => "ISA bridge"
  | 0x06, 0x80, _ => "Other PCI bridge"
  | 0x0c, 0x03, 0x00 => "USB controller - UHCI"
  | 0x0c, 0x03, 0x20 => "USB2 controller - EHCI"
  | _, _, _ => "Unknown"

/-- What is printed about one function. -/
structure PciReport where
  bus                        : UInt8
  slot                       : UInt8
  function                   : UInt8
  parent                     : Bool
  vendor_id                  : UInt16
  device_id                  : UInt16
  device_class               : UInt16
  device_subclass            : UInt16
  device_progIF              : UInt16
  device_type                : String
  device_subsystem_vendor_id : UInt16
  device_subsystem_id        : UInt16
  device_header_type         : UInt16
  bar0                       : UInt32
  bar1                       : UInt32
  bar2                       : UInt32
  bar3                       : UInt32
  bar4                       : UInt32
  bar5                       : UInt32

/-- The function that a report is about. -/
def PciReport.location (r : PciReport) : UInt8 × UInt8 × UInt8 := (r.bus, r.slot, r.function)

/-- The report of `get_pci_device_config` on a function that is present. -/
def pciReport (space : ConfigSpace) (bus slot function : UInt8) (parent : Bool) : PciReport :=
  let read16 := pci_config_read16 space bus slot function
  let read32 := pci_config_read32 space bus slot function
  -- Class and subclass are the two bytes of one word.
  let device_class_subclass := read16 PCI_CONFIG_DEVICE_CLASS_OFFSET
  let device_progIF := read16 0x08 >>> 8
  let device_class := device_class_subclass >>> 8
  let device_subclass := device_class_subclass &&& 0xff
  { bus, slot, function, parent
    vendor_id := read16 PCI_CONFIG_VENDOR_ID_OFFSET
    device_id := read16 PCI_CONFIG_DEVICE_ID_OFFSET
    device_class, device_subclass, device_progIF
    device_type := get_pci_device_class device_class device_subclass device_progIF
    device_subsystem_vendor_id := read16 PCI_CONFIG_SUBSYSTEM_VENDOR_ID_OFFSET
    device_subsystem_id := read16 PCI_CONFIG_SUBSYSTEM_ID_OFFSET
    device_header_type := read16 PCI_CONFIG_HEADER_TYPE_OFFSET
    bar0 := read32 PCI_CONFIG_BAR0_OFFSET
    bar1 := read32 PCI_CONFIG_BAR1_OFFSET
    bar2 := read32 PCI_CONFIG_BAR2_OFFSET
    bar3 := read32 PCI_CONFIG_BAR3_OFFSET
    bar4 := read32 PCI_CONFIG_BAR4_OFFSET
    bar5 := read32 PCI_CONFIG_BAR5_OFFSET }

@[simp] theorem pciReport_location (space : ConfigSpace) (bus slot function : UInt8)
    (parent : Bool) : (pciReport space bus slot function parent).location = (bus, slot, function) :=
  rfl

/-! ## Section 3: Enumeration -/

/-- `get_pci_device_config`, with the depth of its calls as fuel. -/
def get_pci_device_config (space : ConfigSpace) :
    Nat → UInt8 → UInt8 → UInt8 → Bool → Option (List PciReport)
  | 0, _, _, _, _ => none
  | fuel + 1, bus, slot, function, parent =>
    let vendor_id := pci_config_read16 space bus slot function PCI_CONFIG_VENDOR_ID_OFFSET
    if vendor_id ≠ 0xffff then
      let report := pciReport space bus slot function parent
      -- The whole word, header type and BIST; and for every function, not only 0.
      if report.device_header_type = 0x0080 then
        (collect (fun i => get_pci_device_config space fuel bus slot i false)
          [1, 2, 3, 4, 5, 6, 7]).map (report :: ·)
      else
        some [report]
    else
      some []

/-- `enumerate_pci_slot`. -/
def enumerate_pci_slot (space : ConfigSpace) (fuel : Nat) (bus slot : UInt8) :
    Option (List PciReport) :=
  get_pci_device_config space fuel bus slot 0 true

/-- `enumerate_pci_bus`. -/
def enumerate_pci_bus (space : ConfigSpace) (fuel : Nat) (bus : UInt8) :
    Option (List PciReport) :=
  collect (enumerate_pci_slot space fuel bus) ((List.range 32).map UInt8.ofNat)

/-- `pci_enumeration`. -/
def pci_enumeration (space : ConfigSpace) (fuel : Nat) : Option (List PciReport) :=
  collect (enumerate_pci_bus space fuel) ((List.range 256).map UInt8.ofNat)

end ArgaldOS
