import ArgaldOS.Usb.Model

/-! # The schedule that the USB controller starts with

    Each register write of `uhci_init` stores four bytes, so it reaches into
    the registers behind the one it names, and a write to a lower register
    clears what was programmed above it.

    * `schedule_registers`: the registers when the Run bit is written;
    * `frbaseadd_eq_iff`: for which frames the frame list is where it should be;
    * `uhci_schedule_not_ready`: the schedule is never ready, as no pointer of
      the frame list has been initialised.
-/

namespace ArgaldOS

/-! ## Section 1: Bytes of the I/O space -/

/-- A write at offset `a`, seen at offset `k`. -/
theorem outl_at (port a k : UInt16) (value : UInt32) (io : IoSpace) :
    outl (port + a) value io (port + k) =
      if k - a < 4 then (value >>> (8 * (k - a).toUInt32)).toUInt8 else io (port + k) := by
  have hsub : port + k - (port + a) = k - a := by grind
  unfold outl
  rw [hsub]

theorem uhciPort_eq (base offset : UInt32) :
    uhciPort base offset = base.toUInt16 + offset.toUInt16 := by
  simp [uhciPort]

/-! ## Section 2: The registers -/

section registers
variable (hhdm : UInt64) (base : UInt32) (ptr : UInt64) (io : IoSpace) (mem : Mem)

/-- The bytes of the registers from USBINTR to SOFMOD.  USBSTS is written after
    USBINTR, and FRNUM after FRBASEADD, whose two low bytes are lost. -/
theorem schedule_bytes :
    let io' := (uhci_schedule hhdm base ptr io mem).1
    let port := base.toUInt16
    (io' (port + 4) = 0 ∧ io' (port + 5) = 0) ∧ (io' (port + 6) = 0 ∧ io' (port + 7) = 0) ∧
      (io' (port + 8) = 0 ∧ io' (port + 9) = 0 ∧
        io' (port + 10) = ((ptr + hhdm).toUInt32 >>> 16).toUInt8 ∧
        io' (port + 11) = ((ptr + hhdm).toUInt32 >>> 24).toUInt8) ∧
      io' (port + 12) = 0x40 := by
  intro io' port
  have hio : io' = (uhci_schedule hhdm base ptr io mem).1 := rfl
  unfold uhci_schedule io_write32 io_write16 io_write8 at hio
  simp only [uhciPort_eq, UHCI_IO_FRBASEADD_OFFSET, UHCI_IO_FRNUM_OFFSET, UHCI_IO_SOFMOD_OFFSET,
    UHCI_IO_USBINTR_OFFSET, UHCI_IO_USBSTS_OFFSET, UHCI_IO_USBCMD_OFFSET] at hio
  rw [hio]
  refine ⟨⟨?_, ?_⟩, ⟨?_, ?_⟩, ⟨?_, ?_, ?_, ?_⟩, ?_⟩ <;> simp only [port, outl_at] <;> rfl

/-- **The registers when the Run bit is written.** -/
theorem schedule_registers :
    let registers := get_uhci_device_io_registers base (uhci_schedule hhdm base ptr io mem).1
    registers.USBINTR = 0 ∧ registers.FRNUM = 0 ∧ registers.SOFMOD = 0x40 ∧
      registers.FRBASEADD.toNat = (ptr + hhdm).toNat % 2 ^ 32 / 2 ^ 16 * 2 ^ 16 := by
  intro registers
  obtain ⟨⟨h4, h5⟩, ⟨h6, h7⟩, ⟨h8, h9, h10, h11⟩, h12⟩ := schedule_bytes hhdm base ptr io mem
  -- The ports of the bytes that a register is read from.
  have hport : ∀ offset k : UInt16, ∀ n : UInt16, offset + k = n →
      base.toUInt16 + offset + k = base.toUInt16 + n := by
    intro offset k n hn
    rw [UInt16.add_assoc, hn]
  refine ⟨?_, ?_, ?_, ?_⟩
  · show io_read16 (uhciPort base UHCI_IO_USBINTR_OFFSET) _ = 0
    unfold io_read16 inl
    rw [uhciPort_eq, show UHCI_IO_USBINTR_OFFSET.toUInt16 = 4 from rfl, hport 4 3 7 rfl,
      hport 4 2 6 rfl, hport 4 1 5 rfl, h4, h5, h6, h7]
    rfl
  · show io_read16 (uhciPort base UHCI_IO_FRNUM_OFFSET) _ = 0
    unfold io_read16 inl
    rw [uhciPort_eq, show UHCI_IO_FRNUM_OFFSET.toUInt16 = 6 from rfl, hport 6 3 9 rfl,
      hport 6 2 8 rfl, hport 6 1 7 rfl, h6, h7, h8, h9]
    rfl
  · show io_read8 (uhciPort base UHCI_IO_SOFMOD_OFFSET) _ = 0x40
    unfold io_read8 inl
    rw [uhciPort_eq, show UHCI_IO_SOFMOD_OFFSET.toUInt16 = 12 from rfl, h12]
    apply UInt8.toNat_inj.mp
    rw [UInt32.toNat_toUInt8, toNat_combine32bit]
    show _ = 0x40
    have hlow : (0x40 : UInt8).toNat = 0x40 := rfl
    omega
  · show (io_read32 (uhciPort base UHCI_IO_FRBASEADD_OFFSET) _).toNat = _
    unfold io_read32 inl
    rw [uhciPort_eq, show UHCI_IO_FRBASEADD_OFFSET.toUInt16 = 8 from rfl, hport 8 3 11 rfl,
      hport 8 2 10 rfl, hport 8 1 9 rfl, h8, h9, h10, h11, toNat_combine32bit]
    rw [Words.toNat_byte32 _ 24 (by simp), Words.toNat_byte32 _ 16 (by simp),
      UInt64.toNat_toUInt32]
    simp only [UInt32.reduceToNat, UInt8.reduceToNat]
    omega

/-- The value in FRBASEADD is the address of the frame if nothing is lost: neither
    16 bits of the frame's address nor those of the direct map's offset above them. -/
theorem frbaseadd_eq_iff (hptr : ptr.toNat < 2 ^ 32) :
    (ptr + hhdm).toNat % 2 ^ 32 / 2 ^ 16 * 2 ^ 16 = ptr.toNat ↔
      ptr.toNat % 2 ^ 16 = 0 ∧ hhdm.toNat / 2 ^ 16 % 2 ^ 16 = 0 := by
  rw [UInt64.toNat_add]
  omega

end registers

/-! ## Section 3: The frame list -/

/-- Pointer `i` of the frame list in a frame. -/
def frameListPointer (mem : Mem) (frame : UInt64) (i : Nat) : UInt32 :=
  let p := frame + 4 * UInt64.ofNat i
  combine32bit (mem (p + 3)) (mem (p + 2)) (mem (p + 1)) (mem p)

/-- The kernel has initialised pointer `i`: when the Run bit is written it has a
    value that does not depend on what the frame held when it was allocated. -/
def PointerInitialised (hhdm : UInt64) (base : UInt32) (frame : UInt64) (i : Nat) : Prop :=
  ∀ io mem mem', (∀ x, ¬ InFrame frame x → mem x = mem' x) →
    frameListPointer (uhci_schedule hhdm base frame io mem).2 frame i =
      frameListPointer (uhci_schedule hhdm base frame io mem').2 frame i

/-- The schedule that the controller may be started with. -/
structure ScheduleReady (hhdm : UInt64) (base : UInt32) (start : UhciStart) : Prop where
  frbaseadd : (get_uhci_device_io_registers base start.io).FRBASEADD.toNat = start.frame.toNat
  frnum     : (get_uhci_device_io_registers base start.io).FRNUM = 0
  usbintr   : (get_uhci_device_io_registers base start.io).USBINTR = 0
  sofmod    : (get_uhci_device_io_registers base start.io).SOFMOD = 0x40
  frameList : ∀ i < 1024, PointerInitialised hhdm base start.frame i

/-- No pointer is initialised: two contents of the frame stay different. -/
theorem not_pointerInitialised (hhdm : UInt64) (base : UInt32) (frame : UInt64) (i : Nat)
    (hin : InFrame frame (frame + 4 * UInt64.ofNat i)) :
    ¬ PointerInitialised hhdm base frame i := by
  intro h
  let p := frame + 4 * UInt64.ofNat i
  have heq : frameListPointer (fun _ => 0) frame i =
      frameListPointer (Mem.store8 (fun _ => 0) p 1) frame i := by
    apply h (fun _ => 0) (fun _ => 0) (Mem.store8 (fun _ => 0) p 1)
    intro x hx
    have hne : x ≠ p := by
      rintro rfl
      exact hx hin
    rw [Mem.store8_ne _ _ _ _ hne]
  have hlow := congrArg UInt32.toNat heq
  unfold frameListPointer at hlow
  dsimp only at hlow
  rw [toNat_combine32bit, toNat_combine32bit, Mem.store8_self] at hlow
  simp only [UInt8.reduceToNat] at hlow
  omega

/-! ## Section 4: The start -/

/-- `uhci_init` sets the Run bit after `uhci_schedule`, on the frame that
    `kmalloc` returns. -/
theorem uhci_init_eq_some {hhdm : UInt64} {ls : largestSection} {vendor_id : UInt16} {bar4 : UInt32}
    {wait : Nat → IoSpace → IoSpace} {io : IoSpace} {mem : Mem} {start : UhciStart}
    (h : uhci_init hhdm ls vendor_id bar4 wait io mem = some start) :
    start.frame = (kmalloc hhdm ls mem).1 ∧ ∃ io₀,
      start.io = (uhci_schedule hhdm bar4 start.frame io₀ (kmalloc hhdm ls mem).2).1 ∧
        start.mem = (uhci_schedule hhdm bar4 start.frame io₀ (kmalloc hhdm ls mem).2).2 := by
  unfold uhci_init at h
  dsimp only at h
  split at h
  · cases h
  · split at h
    · cases h
    · obtain rfl := Option.some.inj h
      exact ⟨rfl, _, rfl, rfl⟩

/-- **Main theorem on the schedule**: it is never ready when the Run bit is
    written, since the frame list is what the frame held before; FRNUM, USBINTR
    and SOFMOD are as programmed, and FRBASEADD is for some frames. -/
theorem uhci_schedule_not_ready (hhdm : UInt64) (ls : largestSection) (vendor_id : UInt16)
    (bar4 : UInt32) (wait : Nat → IoSpace → IoSpace) (io : IoSpace) (mem : Mem) (start : UhciStart)
    (h : uhci_init hhdm ls vendor_id bar4 wait io mem = some start)
    (hframe : start.frame.toNat < 2 ^ 32) :
    ¬ ScheduleReady hhdm bar4 start ∧
      (∀ x, start.mem x = (kmalloc hhdm ls mem).2 x) ∧
      (get_uhci_device_io_registers bar4 start.io).FRNUM = 0 ∧
      (get_uhci_device_io_registers bar4 start.io).USBINTR = 0 ∧
      (get_uhci_device_io_registers bar4 start.io).SOFMOD = 0x40 ∧
      ((get_uhci_device_io_registers bar4 start.io).FRBASEADD.toNat = start.frame.toNat ↔
        start.frame.toNat % 2 ^ 16 = 0 ∧ hhdm.toNat / 2 ^ 16 % 2 ^ 16 = 0) := by
  obtain ⟨-, io₀, hio, hmem⟩ := uhci_init_eq_some h
  obtain ⟨hintr, hnum, hsof, hbase⟩ :=
    schedule_registers hhdm bar4 start.frame io₀ (kmalloc hhdm ls mem).2
  rw [← hio] at hintr hnum hsof hbase
  refine ⟨?_, ?_, hnum, hintr, hsof, ?_⟩
  · intro hready
    -- The first pointer.
    refine not_pointerInitialised hhdm bar4 start.frame 0 ?_ (hready.frameList 0 (by simp))
    show InFrame start.frame (start.frame + 0)
    rw [UInt64.add_zero]
    exact ⟨Nat.le_refl _, by unfold PAGE_SIZE; omega⟩
  · intro x
    rw [hmem]
    rfl
  · rw [hbase]
    exact frbaseadd_eq_iff hhdm start.frame hframe

/-- A controller at port 0xC000 that comes out of the reset with its defaults. -/
def resetDone (_ : Nat) (_ : IoSpace) : IoSpace := fun p => if p = 0xC00C then 0x40 else 0

/-- An allocator at 1 MiB with one page of bitmap. -/
def region1MiB : largestSection where
  maxBegin := 0x100000
  maxLength := 0x800000
  bitmapReserved := 0x1000

theorem uhci_init_region1MiB :
    (uhci_init 0xFFFF800000000000 region1MiB 0x8086 0xC000 resetDone (fun _ => 0)
      (fun _ => 0)).isSome = true := by
  decide +kernel

/-- The frame list is in the frame at 0x101000, FRBASEADD points to 0x100000,
    and no pointer has been written. -/
theorem uhci_schedule_frame101000 :
    ∃ start, uhci_init 0xFFFF800000000000 region1MiB 0x8086 0xC000 resetDone (fun _ => 0)
        (fun _ => 0) = some start ∧ start.frame = 0x101000 ∧
      (get_uhci_device_io_registers 0xC000 start.io).FRBASEADD = 0x100000 ∧
      ¬ ScheduleReady 0xFFFF800000000000 0xC000 start := by
  obtain ⟨start, hstart⟩ := Option.isSome_iff_exists.mp uhci_init_region1MiB
  obtain ⟨hframe, io₀, hio, -⟩ := uhci_init_eq_some hstart
  have h101 : start.frame = 0x101000 := by
    rw [hframe]
    decide +kernel
  have hbase := (schedule_registers 0xFFFF800000000000 0xC000 start.frame io₀
    (kmalloc 0xFFFF800000000000 region1MiB (fun _ => 0)).2).2.2.2
  rw [← hio, h101] at hbase
  have h100 : (get_uhci_device_io_registers 0xC000 start.io).FRBASEADD = 0x100000 :=
    UInt32.toNat_inj.mp hbase
  refine ⟨start, hstart, h101, h100, ?_⟩
  intro hready
  have heq := hready.frbaseadd
  rw [h100, h101] at heq
  exact absurd heq (by simp)

/-- What holds at that start. -/
theorem uhci_schedule_not_ready_frame101000 :
    ∃ start, uhci_init 0xFFFF800000000000 region1MiB 0x8086 0xC000 resetDone (fun _ => 0)
        (fun _ => 0) = some start ∧ ¬ ScheduleReady 0xFFFF800000000000 0xC000 start := by
  obtain ⟨start, hstart⟩ := Option.isSome_iff_exists.mp uhci_init_region1MiB
  have h101 : start.frame = 0x101000 := by
    rw [(uhci_init_eq_some hstart).1]
    decide +kernel
  refine ⟨start, hstart, ?_⟩
  exact (uhci_schedule_not_ready _ _ _ _ _ _ _ start hstart (by rw [h101]; decide)).1

end ArgaldOS
