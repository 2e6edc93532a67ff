import ArgaldOS.Framework.Loops
import Mathlib.Algebra.Group.Int.Defs
import Mathlib.Algebra.Group.Nat.Defs

/-! # The disk driver (`drivers/disk.c`)

    `accessDisk` reads or writes one sector of the slave drive in PIO mode: it
    sends the address in four port writes, starts the command, polls the status
    port and moves 256 words through the data port.

    The drive is a state machine behind the ports.  It latches the address,
    stores or delivers the words of a sector, and shows a status that nothing
    here restricts: every stream of status values is one of a drive.  The
    polling loops have no bound, so the functions that run them take fuel and
    return `none` when it is used up.

    Left out: the texts printed, and `identifyCompatibility` and
    `identifyInitiate`, which nothing calls.
-/

namespace ArgaldOS

open Loops

/-! ## Section 1: Sectors -/

/-- The bytes of a sector; only the first 512 are there. -/
abbrev Sector : Type := Nat → UInt8

/-- The sectors of the slave drive, by their LBA28 address. -/
abbrev Disk : Type := Nat → Sector

/-- The address that `accessDisk` sends to the drive: 28 bits of the number. -/
def lba28 (sect : UInt32) : Nat := sect.toNat % 2 ^ 28

/-- What `readdisk` can return: NULL, or the address of `buffer8`. -/
inductive DiskPtr where
  | null
  | buffer8
deriving Repr, DecidableEq

namespace Ata

/-! ## Section 2: The drive -/

/-- What the drive does with the data port: nothing, or the transfer of a
    sector, of which so many words are done. -/
inductive Transfer where
  | idle
  | read (lba words : Nat)
  | write (lba words : Nat)
deriving Repr, DecidableEq

/-- The slave drive.  The status port shows `status p n` at read `n` of phase
    `p`; a phase begins with a command, or after the last word of a transfer. -/
structure Drive where
  sectors  : Disk
  count    : UInt8
  lbaLow   : UInt8
  lbaMid   : UInt8
  lbaHigh  : UInt8
  device   : UInt8
  error    : UInt8
  transfer : Transfer
  status   : Nat → Nat → UInt8
  phase    : Nat
  reads    : Nat

namespace Drive

/-- The address in the four latches. -/
def lba (d : Drive) : Nat :=
  d.device.toNat % 16 * 2 ^ 24 + d.lbaHigh.toNat * 2 ^ 16 + d.lbaMid.toNat * 2 ^ 8 + d.lbaLow.toNat

/-- A command is for this drive if bit 4 of the device register is set. -/
def selected (d : Drive) : Bool := d.device.toNat.testBit 4

/-- A one-sector command with an LBA address: bit 6, and a sector count of 1. -/
def oneSector (d : Drive) : Bool := d.device.toNat.testBit 6 && d.count == 1

/-- A new phase. -/
def nextPhase (d : Drive) (transfer : Transfer) : Drive :=
  { d with transfer := transfer, phase := d.phase + 1, reads := 0 }

/-- A write to the command port. -/
def command (d : Drive) (c : UInt8) : Drive :=
  -- The master drive takes the others.
  if !d.selected then d
  else if c = 0x20 ∧ d.oneSector then d.nextPhase (.read d.lba 0)
  else if c = 0x30 ∧ d.oneSector then d.nextPhase (.write d.lba 0)
  else d.nextPhase .idle

/-- `port_byte_in`. -/
def port_byte_in (port : UInt16) (d : Drive) : UInt8 × Drive :=
  if port = 0x1F7 then (d.status d.phase d.reads, { d with reads := d.reads + 1 })
  else if port = 0x1F1 then (d.error, d)
  else (0xFF, d)

/-- `port_byte_out`. -/
def port_byte_out (port : UInt16) (data : UInt8) (d : Drive) : Drive :=
  if port = 0x1F2 then { d with count := data }
  else if port = 0x1F3 then { d with lbaLow := data }
  else if port = 0x1F4 then { d with lbaMid := data }
  else if port = 0x1F5 then { d with lbaHigh := data }
  else if port = 0x1F6 then { d with device := data }
  else if port = 0x1F7 then d.command data
  else d

/-- `port_word_in`: the next word of the sector, least significant byte first. -/
def port_word_in (port : UInt16) (d : Drive) : UInt16 × Drive :=
  if port ≠ 0x1F0 then (0xFFFF, d) else
  match d.transfer with
  | .read lba words =>
    (UInt16.ofNat ((d.sectors lba (2 * words)).toNat + 256 * (d.sectors lba (2 * words + 1)).toNat),
      if words + 1 = 256 then d.nextPhase .idle
      else { d with transfer := .read lba (words + 1) })
  | _ => (0xFFFF, d)

/-- The sectors after a word has been stored. -/
def storeWord (d : Drive) (lba words : Nat) (data : UInt16) : Disk :=
  Function.update d.sectors lba
    (Function.update
      (Function.update (d.sectors lba) (2 * words) (UInt8.ofNat (data.toNat % 256)))
      (2 * words + 1) (UInt8.ofNat (data.toNat / 256)))

/-- `port_word_out`. -/
def port_word_out (port : UInt16) (data : UInt16) (d : Drive) : Drive :=
  if port ≠ 0x1F0 then d else
  match d.transfer with
  | .write lba words =>
    let stored := { d with sectors := d.storeWord lba words data }
    if words + 1 = 256 then stored.nextPhase .idle
    else { stored with transfer := .write lba (words + 1) }
  | _ => d

end Drive

open Drive

/-! ## Section 3: The driver -/

/-- `showErrorTypes`: the error register is read, for a message only. -/
def showErrorTypes (d : Drive) : Drive := (port_byte_in 0x1F1 d).2

/-- `wait_400`. -/
def wait_400 (d : Drive) : Drive := port_byte_out 0x80 0 d

/-- One round of the loop that waits for DRQ with BSY clear. -/
def pollRound (d : Drive) : Drive ⊕ Drive :=
  let (byte, d) := port_byte_in 0x1F7 d
  -- ERR is not looked at.
  if (byte >>> 3) &&& 1 ≠ 0 ∧ (byte >>> 7) &&& 1 = 0 then .inl d else .inr d

/-- The `for` loop around it. -/
def pollTimes (fuel : Nat) : Nat → Drive → Option Drive
  | 0, d => some d
  | n + 1, d => (whileTrue pollRound fuel d).bind (pollTimes fuel n)

/-- One round of the loop of `wait_ready`, with the status that it tests. -/
def waitRound (wait_drm : Bool) : UInt8 × Drive → Bool × Drive ⊕ UInt8 × Drive
  | (status, d) =>
    if wait_drm ∧ status &&& 0x08 = 0 then
      if status &&& (0x01 ||| 0x02) ≠ 0 then .inl (false, d) else .inr (port_byte_in 0x1F7 d)
    else .inl (true, d)

/-- `wait_ready`: of the first fifteen values of the status the last counts. -/
def wait_ready (fuel : Nat) (wait_drm : Bool) (d : Drive) : Option (Bool × Drive) :=
  whileTrue (waitRound wait_drm) fuel (forLoop (fun _ p => port_byte_in 0x1F7 p.2) 15 (0, d))

/-- The byte for the drive select port: the slave, and bits 24 to 27 of the
    sector number. -/
def driveSelect (sect : Int32) : UInt8 :=
  ((0xF0 : Int32) ||| ((1 : Int32) <<< 4) ||| ((sect >>> 24) &&& 0x0F)).toUInt32.toUInt8

/-- The port writes that send the address and the command. -/
def sendCommand (sect : Int32) (isWrite : Bool) (d : Drive) : Drive :=
  let d := port_byte_out 0x1F6 (driveSelect sect) d
  let d := wait_400 d
  let d := port_byte_out 0x1F1 0x00 d
  let d := port_byte_out 0x1F2 1 d
  let d := port_byte_out 0x1F3 sect.toUInt32.toUInt8 d
  let d := port_byte_out 0x1F4 (sect >>> 8).toUInt32.toUInt8 d
  let d := port_byte_out 0x1F5 (sect >>> 16).toUInt32.toUInt8 d
  port_byte_out 0x1F7 (if isWrite then 0x30 else 0x20) d

/-- The loop that writes the data. -/
def writeWords (data : Sector) (d : Drive) : Drive :=
  forLoop
    (fun i d =>
      port_word_out 0x1F0 (((data (2 * i + 1)).toUInt16 <<< 8) ||| (data (2 * i)).toUInt16) d)
    256 d

/-- The loop that reads the data into the static buffer. -/
def readWords (buffer8 : Sector) (d : Drive) : Sector × Drive :=
  forLoop
    (fun i (p : Sector × Drive) =>
      let (buffer16, d) := port_word_in 0x1F0 p.2
      let buffer8 := Function.update p.1 (2 * i + 1) ((buffer16 >>> 8) &&& 0xFF).toUInt8
      (Function.update buffer8 (2 * i) (buffer16 &&& 0xFF).toUInt8, d))
    256 (buffer8, d)

/-- The drive, and the static buffer of `accessDisk`. -/
structure DiskState where
  drive   : Drive
  buffer8 : Sector

/-- The bytes behind a pointer, now; `none` for NULL. -/
def DiskState.contents (s : DiskState) : DiskPtr → Option Sector
  | .null => none
  | .buffer8 => some s.buffer8

/-- The end of a write, after the last word. -/
def finishWrite (fuel : Nat) (d : Drive) : Option (DiskPtr × Drive) :=
  match wait_ready fuel true (wait_400 d) with
  | none => none
  | some (false, d) => some (.null, showErrorTypes d)
  | some (true, d) =>
    -- The cache flush.
    match wait_ready fuel false (port_byte_out 0x1F7 0xE7 d) with
    | none => none
    | some (false, d) => some (.null, showErrorTypes d)
    | some (true, d) => some (.buffer8, showErrorTypes (wait_400 d))

/-- `accessDisk`. -/
def accessDisk (fuel : Nat) (sect : Int32) (isWrite : Bool) (data : Sector) (s : DiskState) :
    Option (DiskPtr × DiskState) :=
  match pollTimes fuel 4 (sendCommand sect isWrite s.drive) with
  | none => none
  | some d =>
    if isWrite then
      match finishWrite fuel (writeWords data (showErrorTypes d)) with
      | none => none
      -- A write does not touch the buffer, whose address it returns.
      | some (p, d) => some (p, { s with drive := d })
    else
      let (buffer8, d) := readWords s.buffer8 d
      some (.buffer8, ⟨showErrorTypes (wait_400 d), buffer8⟩)

/-- `emptyData`. -/
def emptyData : Sector := fun _ => 0

/-- `readdisk`. -/
def readdisk (fuel : Nat) (sect : Int32) (s : DiskState) : Option (DiskPtr × DiskState) :=
  accessDisk fuel sect false emptyData s

/-- `writedisk`: the result of `accessDisk` is thrown away. -/
def writedisk (fuel : Nat) (sect : Int32) (data : Sector) (s : DiskState) : Option DiskState :=
  (accessDisk fuel sect true data s).map (·.2)

end Ata

end ArgaldOS
