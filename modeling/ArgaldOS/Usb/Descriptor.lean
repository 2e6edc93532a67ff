import ArgaldOS.Framework.Chains
import ArgaldOS.Framework.Words
import ArgaldOS.Usb.Model

/-! # Asking a USB device for its descriptor (`uhci_get_descriptor`)

    A control transfer is a chain of transfer descriptors: the setup packet,
    packets of data from the device, and a status packet the other way.  The
    controller follows the `link_ptr` of each descriptor to the next one until
    it meets the terminate bit.

    The descriptors are built in a local array of ten, for the addresses that
    they have behind the queue head.  Signed arithmetic wraps.

    * `inDescriptors_spec`: what the loop over the data packets leaves in the
      array, and where it stops;
    * `uhci_get_descriptor_chain`: the chain that the controller follows;
    * `uhci_get_descriptor_fails`: the result of the function.
-/

namespace ArgaldOS

/-! ## Section 1: The transfer -/

def TOKEN_IN : UInt32 := 0x69
def TOKEN_OUT : UInt32 := 0xE1
def TOKEN_SETUP : UInt32 := 0x2D

/-- `sizeof(struct UHCI_TRANSFER_DESCRIPTOR)`: eight double words. -/
def sizeofTransferDescriptor : UInt32 := 32

/-- `sizeof(struct UHCI_QUEUE_HEAD)`: four double words. -/
def sizeofQueueHead : UInt32 := 16

/-- `struct UHCI_TRANSFER_DESCRIPTOR`, without the words reserved for software. -/
structure TransferDescriptor where
  link_ptr : UInt32
  reply    : UInt32
  info     : UInt32
  buff_ptr : UInt32
deriving DecidableEq, Repr

/-- `struct UHCI_QUEUE_HEAD`. -/
structure QueueHead where
  horz_ptr : UInt32
  vert_ptr : UInt32
deriving DecidableEq, Repr

/-- The `reply` word of every descriptor but the last. -/
def tdReply (ls_device : Bool) : UInt32 :=
  (if ls_device then (1 : UInt32) <<< 26 else 0) ||| ((3 : UInt32) <<< 27) |||
    ((0x80 : UInt32) <<< 16)

/-- The `int` expression `(dev_address & 0x7F) << 8`. -/
def tdAddress (dev_address : Int32) : UInt32 := (dev_address &&& 0x7F).toUInt32 <<< 8

/-- `t`, the length of the next packet. -/
def packetLength (packet_size sz : Int32) : Int32 := if sz ≤ packet_size then sz else packet_size

/-- `setup_packet` with `(uint16_t) size` at its end. -/
def setupPacket (size : Int32) : List UInt8 :=
  [0x80, 0x06, 0x00, 0x01, 0x00, 0x00, size.toUInt32.toUInt8, (size.toUInt32 >>> 8).toUInt8]

/-- What is stored to `td[0]`. -/
def setupDescriptor (base : UInt32) (ls_device : Bool) (dev_address : Int32) (queue : QueueHead) :
    TransferDescriptor where
  link_ptr := (queue.vert_ptr &&& ~~~0xF) + sizeofTransferDescriptor
  reply    := tdReply ls_device
  info     := ((7 : UInt32) <<< 21) ||| tdAddress dev_address ||| TOKEN_SETUP
  buff_ptr := base + 4096

/-- What is stored to the descriptor behind the data packets. -/
def statusDescriptor (ls_device : Bool) (dev_address : Int32) : TransferDescriptor where
  link_ptr := 0x00000001
  reply    := tdReply ls_device ||| ((1 : UInt32) <<< 24)
  info     := ((0x7FF : UInt32) <<< 21) ||| ((1 : UInt32) <<< 19) ||| tdAddress dev_address |||
    TOKEN_OUT
  buff_ptr := 0x00000000

/-- The descriptor that the body of the loop stores to `td[i]`. -/
def inDescriptor (base : UInt32) (ls_device : Bool) (dev_address t : Int32) (i : Nat)
    (previous : TransferDescriptor) : TransferDescriptor where
  link_ptr := (previous.link_ptr &&& ~~~0xF) + sizeofTransferDescriptor
  reply    := tdReply ls_device
  info     := ((t - 1).toUInt32 <<< 21) ||| (if i % 2 = 1 then (1 : UInt32) <<< 19 else 0)
    ||| tdAddress dev_address ||| TOKEN_IN
  -- Eight bytes further on, whatever the length is.
  buff_ptr := base + 4096 + 8 * UInt32.ofNat i

/-- `while ((sz > 0) && (i < 9))`, for `n` more values of `i`; `i` afterwards, and
    the array. -/
def inDescriptors (base : UInt32) (ls_device : Bool) (dev_address packet_size : Int32) :
    Nat → Nat → Int32 → (Nat → TransferDescriptor) → Nat × (Nat → TransferDescriptor)
  | 0, i, _, td => (i, td)
  | n + 1, i, sz, td =>
    if sz > 0 then
      let t := packetLength packet_size sz
      inDescriptors base ls_device dev_address packet_size n (i + 1) (sz - t)
        (Function.update td i (inDescriptor base ls_device dev_address t i (td (i - 1))))
    else (i, td)

/-- What `uhci_get_descriptor` builds before it touches a port; afterwards it only
    reads it. -/
structure Transfer where
  setup_packet : List UInt8
  queue        : QueueHead
  count        : Nat
  td           : Nat → TransferDescriptor

/-- The first part of `uhci_get_descriptor`; `td` is the uninitialised array. -/
def buildTransfer (base : UInt32) (ls_device : Bool) (dev_address packet_size size : Int32)
    (td : Nat → TransferDescriptor) : Transfer :=
  let queue : QueueHead :=
    { horz_ptr := 0x00000001, vert_ptr := base + 4096 + 128 + sizeofQueueHead }
  let td := Function.update td 0 (setupDescriptor base ls_device dev_address queue)
  let (i, td) := inDescriptors base ls_device dev_address packet_size 8 1 size td
  let td := Function.update td i (statusDescriptor ls_device dev_address)
  { setup_packet := setupPacket size, queue, count := i + 1, td }

/-- The wait for the interrupt, with `timeout` polls left; `wait timeout` is one
    `mdelay(1)`. -/
def awaitInterrupt (io_base : UInt16) (wait : Nat → IoSpace → IoSpace) :
    Nat → IoSpace → Nat × IoSpace
  | 0, io => (0, io)
  | timeout + 1, io =>
    if io_read16 (uhciPort io_base.toUInt32 UHCI_IO_USBSTS_OFFSET) io &&& 1 ≠ 0 then
      (timeout + 1, io)
    else awaitInterrupt io_base wait timeout (wait timeout io)

/-- `uhci_get_descriptor`: the transfer, the result and the I/O space. -/
def uhci_get_descriptor (io_base : UInt16) (base : UInt32) (ls_device : Bool)
    (dev_address packet_size size : Int32) (td : Nat → TransferDescriptor)
    (wait : Nat → IoSpace → IoSpace) (io : IoSpace) : Transfer × Bool × IoSpace :=
  let transfer := buildTransfer base ls_device dev_address packet_size size td
  let status := uhciPort io_base.toUInt32 UHCI_IO_USBSTS_OFFSET
  let io := io_write16 status 1 io
  let (timeout, io) := awaitInterrupt io_base wait 10000 io
  if timeout = 0 then (transfer, false, io) else
  let io := io_write16 status 1 io
  -- The copies to and from the controller's memory are commented out, so these
  -- are the descriptors as they were built.
  let failed := fun t => (transfer.td t).reply &&& ((0xFF : UInt32) <<< 16) != 0
  if (List.range transfer.count).any failed then (transfer, false, io) else (transfer, true, io)

/-! ## Section 2: The loop -/

/-- `sz` after `k` rounds. -/
def remaining (packet_size : Int32) : Nat → Int32 → Int32
  | 0, sz => sz
  | k + 1, sz => remaining packet_size k (sz - packetLength packet_size sz)

/-- What the loop leaves behind: `m` more descriptors from `i` on, each linked to
    the one before it, and a reason to stop. -/
structure InDescriptors (base : UInt32) (ls_device : Bool) (dev_address packet_size : Int32)
    (n i : Nat) (sz : Int32) (before after : Nat → TransferDescriptor) (m : Nat) : Prop where
  bound : m ≤ n
  more  : ∀ k < m, remaining packet_size k sz > 0
  stop  : m = n ∨ ¬ remaining packet_size m sz > 0
  built : ∀ k < m, after (i + k) = inDescriptor base ls_device dev_address
    (packetLength packet_size (remaining packet_size k sz)) (i + k) (after (i + k - 1))
  frame : ∀ k, k < i ∨ i + m ≤ k → after k = before k

section loop
variable {base : UInt32} {ls_device : Bool} {dev_address packet_size size : Int32}
variable {td : Nat → TransferDescriptor}

/-- **What the loop over the data packets does.** -/
theorem inDescriptors_spec (base : UInt32) (ls_device : Bool) (dev_address packet_size : Int32)
    {n i : Nat} (hi : 1 ≤ i) (sz : Int32) (td : Nat → TransferDescriptor) :
    ∃ m, (inDescriptors base ls_device dev_address packet_size n i sz td).1 = i + m ∧
      InDescriptors base ls_device dev_address packet_size n i sz td
        (inDescriptors base ls_device dev_address packet_size n i sz td).2 m := by
  induction n generalizing i sz td with
  | zero =>
    exact ⟨0, rfl, Nat.le_refl 0, fun k hk => absurd hk (by omega), Or.inl rfl,
      fun k hk => absurd hk (by omega), fun k _ => rfl⟩
  | succ n ih =>
    rw [inDescriptors]
    by_cases hsz : sz > 0
    · rw [if_pos hsz]
      dsimp only
      generalize hfirst : inDescriptor base ls_device dev_address (packetLength packet_size sz) i
        (td (i - 1)) = first
      obtain ⟨m, hcount, h⟩ := ih (i := i + 1) (by omega) (sz - packetLength packet_size sz)
        (Function.update td i first)
      generalize inDescriptors base ls_device dev_address packet_size n (i + 1)
        (sz - packetLength packet_size sz) (Function.update td i first) = result at hcount h ⊢
      have hat : result.2 i = first := by
        rw [h.frame i (Or.inl (by omega)), Function.update_self]
      have hbefore : result.2 (i - 1) = td (i - 1) := by
        rw [h.frame (i - 1) (Or.inl (by omega)), Function.update_of_ne (by omega)]
      refine ⟨m + 1, by omega, ?_, ?_, ?_, ?_, ?_⟩
      · have hbound := h.bound
        omega
      · intro k hk
        cases k with
        | zero => exact hsz
        | succ k => exact h.more k (by omega)
      · rcases h.stop with hn | hstop
        · exact Or.inl (by omega)
        · exact Or.inr hstop
      · intro k hk
        cases k with
        | zero =>
          rw [Nat.add_zero, hat, hbefore, ← hfirst]
          rfl
        | succ k =>
          have hbuilt := h.built k (by omega)
          have hindex : i + 1 + k = i + (k + 1) := by omega
          rw [hindex] at hbuilt
          exact hbuilt
      · intro k hk
        rw [h.frame k (by omega), Function.update_of_ne (by omega)]
    · rw [if_neg hsz]
      exact ⟨0, rfl, by omega, fun k hk => absurd hk (by omega), Or.inr hsz,
        fun k hk => absurd hk (by omega), fun k _ => rfl⟩

end loop

/-! ## Section 3: The words of a descriptor -/

section words
variable (td : TransferDescriptor)

/-- The packet identification. -/
def TransferDescriptor.token : UInt32 := td.info &&& 0xFF

/-- The data toggle. -/
def TransferDescriptor.toggle : UInt32 := (td.info >>> 19) &&& 1

/-- The number of bytes that are asked for, which is stored less one in eleven
    bits. -/
def TransferDescriptor.length : Nat := ((td.info >>> 21).toNat + 1) % 2 ^ 11

/-- The terminate bit of the link. -/
def TransferDescriptor.Terminates : Prop := td.link_ptr &&& 1 = 1

/-- The interrupt-on-complete bit. -/
def TransferDescriptor.Interrupts : Prop := td.reply &&& ((1 : UInt32) <<< 24) ≠ 0

instance : Decidable td.Terminates := inferInstanceAs (Decidable (_ = _))

instance : Decidable td.Interrupts := inferInstanceAs (Decidable (_ ≠ _))

end words

section info
variable {len tog pid : UInt32} {c : Nat} {dev_address : Int32}

/-- The seven bits of the device address in their place. -/
theorem toNat_tdAddress (dev_address : Int32) :
    ∃ a < 128, (tdAddress dev_address).toNat = a * 2 ^ 8 := by
  have hmask : (dev_address &&& 0x7F).toUInt32.toNat = dev_address.toUInt32.toNat % 2 ^ 7 := by
    rw [Int32.toUInt32_and]
    exact Words.toNat_and_mask32 _ _ 7 rfl
  refine ⟨dev_address.toUInt32.toNat % 2 ^ 7, Nat.mod_lt _ (by omega), ?_⟩
  unfold tdAddress
  rw [UInt32.toNat_shiftLeft, hmask, Nat.shiftLeft_eq]
  show _ * 2 ^ 8 % 2 ^ 32 = _
  omega

/-- **The fields of `info` do not overlap.** -/
theorem toNat_tdInfo (len : UInt32) (dev_address : Int32)
    (htog : tog.toNat = c * 2 ^ 19) (hc : c < 2) (hpid : pid.toNat < 2 ^ 8) :
    ∃ a < 128, ((len <<< 21) ||| tog ||| tdAddress dev_address ||| pid).toNat =
      len.toNat % 2 ^ 11 * 2 ^ 21 + c * 2 ^ 19 + a * 2 ^ 8 + pid.toNat := by
  obtain ⟨a, ha, haddress⟩ := toNat_tdAddress dev_address
  have hlen : (len <<< 21).toNat = len.toNat % 2 ^ 11 * 2 ^ 21 := by
    rw [UInt32.toNat_shiftLeft, Nat.shiftLeft_eq]
    show len.toNat * 2 ^ 21 % 2 ^ 32 = _
    omega
  have h1 := Words.lor_eq_add (len.toNat % 2 ^ 11 * 2 ^ 21) (c * 2 ^ 19) 21 (by omega) (by omega)
  have h2 := Words.lor_eq_add (len.toNat % 2 ^ 11 * 2 ^ 21 + c * 2 ^ 19) (a * 2 ^ 8) 15
    (by omega) (by omega)
  have h3 := Words.lor_eq_add (len.toNat % 2 ^ 11 * 2 ^ 21 + c * 2 ^ 19 + a * 2 ^ 8) pid.toNat 8
    (by omega) hpid
  refine ⟨a, ha, ?_⟩
  rw [UInt32.toNat_or, UInt32.toNat_or, UInt32.toNat_or, hlen, htog, haddress, h1, h2, h3]

/-- What the controller reads out of `info`. -/
theorem info_fields (td : TransferDescriptor)
    (hinfo : td.info = (len <<< 21) ||| tog ||| tdAddress dev_address ||| pid)
    (htog : tog.toNat = c * 2 ^ 19) (hc : c < 2) (hpid : pid.toNat < 2 ^ 8) :
    td.token = pid ∧ td.toggle.toNat = c ∧ td.length = (len.toNat + 1) % 2 ^ 11 := by
  obtain ⟨a, ha, hvalue⟩ := toNat_tdInfo len dev_address htog hc hpid
  rw [← hinfo] at hvalue
  refine ⟨?_, ?_, ?_⟩
  · apply UInt32.toNat_inj.mp
    unfold TransferDescriptor.token
    rw [Words.toNat_and_mask32 td.info _ 8 rfl]
    omega
  · unfold TransferDescriptor.toggle
    rw [Words.toNat_and_mask32 _ _ 1 rfl, UInt32.toNat_shiftRight, Nat.shiftRight_eq_div_pow]
    show td.info.toNat / 2 ^ 19 % 2 ^ 1 = _
    omega
  · unfold TransferDescriptor.length
    rw [UInt32.toNat_shiftRight, Nat.shiftRight_eq_div_pow]
    show (td.info.toNat / 2 ^ 21 + 1) % 2 ^ 11 = _
    omega

end info

/-! ## Section 4: The chain -/

section chain
variable {base : UInt32} {ls_device : Bool} {dev_address packet_size size : Int32}
variable {before : Nat → TransferDescriptor}

/-- The descriptors of a transfer with `m` data packets. -/
structure Built (base : UInt32) (ls_device : Bool) (dev_address packet_size size : Int32)
    (before : Nat → TransferDescriptor) (transfer : Transfer) (m : Nat) : Prop where
  count  : transfer.count = m + 2
  bound  : m ≤ 8
  more   : ∀ k < m, remaining packet_size k size > 0
  stop   : m = 8 ∨ ¬ remaining packet_size m size > 0
  packet : transfer.setup_packet = setupPacket size
  queue  : transfer.queue.vert_ptr = base + 4096 + 128 + sizeofQueueHead
  setup  : transfer.td 0 = setupDescriptor base ls_device dev_address transfer.queue
  data   : ∀ k < m, transfer.td (k + 1) = inDescriptor base ls_device dev_address
    (packetLength packet_size (remaining packet_size k size)) (k + 1) (transfer.td k)
  status : transfer.td (m + 1) = statusDescriptor ls_device dev_address
  frame  : ∀ k, m + 2 ≤ k → transfer.td k = before k

/-- **What `uhci_get_descriptor` builds**, for all arguments. -/
theorem buildTransfer_spec (base : UInt32) (ls_device : Bool)
    (dev_address packet_size size : Int32) (before : Nat → TransferDescriptor) :
    ∃ m, Built base ls_device dev_address packet_size size before
      (buildTransfer base ls_device dev_address packet_size size before) m := by
  unfold buildTransfer
  dsimp only
  generalize hqueue : (QueueHead.mk 0x00000001 (base + 4096 + 128 + sizeofQueueHead)) = queue
  generalize hstart : Function.update before 0
    (setupDescriptor base ls_device dev_address queue) = start
  obtain ⟨m, hcount, h⟩ := inDescriptors_spec base ls_device dev_address packet_size
    (n := 8) (i := 1) (by omega) size start
  generalize inDescriptors base ls_device dev_address packet_size 8 1 size start = result
    at hcount h ⊢
  obtain ⟨i, td⟩ := result
  obtain rfl : i = 1 + m := hcount
  replace h : InDescriptors base ls_device dev_address packet_size 8 1 size start td m := h
  have hkeep : ∀ k, k < 1 + m →
      Function.update td (1 + m) (statusDescriptor ls_device dev_address) k = td k :=
    fun k hk => Function.update_of_ne (by omega) _ _
  refine ⟨m, ⟨by show 1 + m + 1 = m + 2; omega, h.bound, h.more, h.stop, rfl, ?_, ?_, ?_, ?_, ?_⟩⟩
  · rw [← hqueue]
  · show Function.update td (1 + m) (statusDescriptor ls_device dev_address) 0 =
      setupDescriptor base ls_device dev_address queue
    rw [hkeep 0 (by omega), h.frame 0 (Or.inl (by omega)), ← hstart, Function.update_self]
  · intro k hk
    have hbuilt := h.built k hk
    have hindex : 1 + k = k + 1 := by omega
    rw [hindex, Nat.add_sub_cancel] at hbuilt
    show Function.update td (1 + m) _ (k + 1) = inDescriptor _ _ _ _ _
      (Function.update td (1 + m) _ k)
    rw [hkeep (k + 1) (by omega), hkeep k (by omega)]
    exact hbuilt
  · show Function.update td (1 + m) (statusDescriptor ls_device dev_address) (m + 1) = _
    rw [Nat.add_comm m 1, Function.update_self]
  · intro k hk
    show Function.update td (1 + m) (statusDescriptor ls_device dev_address) k = _
    rw [Function.update_of_ne (by omega), h.frame k (Or.inr (by omega)), ← hstart,
      Function.update_of_ne (by omega)]

/-- The place of `td[k]` behind the queue head. -/
def tdPlace (queue : QueueHead) (k : Nat) : UInt32 :=
  queue.vert_ptr + sizeofTransferDescriptor * UInt32.ofNat k

/-- The descriptor that the controller goes to from `td[k]`. -/
def nextDescriptor (transfer : Transfer) (k : Nat) : Option Nat :=
  if (transfer.td k).Terminates then none
  else (List.range 10).find? fun j =>
    tdPlace transfer.queue j = (transfer.td k).link_ptr &&& ~~~0xF

/-- Rounding an aligned address down. -/
theorem and_not_fifteen {x : UInt32} (h : x.toNat % 16 = 0) : x &&& ~~~0xF = x := by
  have hmask : x.toNat &&& (2 ^ 32 - 1 - (2 ^ 4 - 1)) = x.toNat / 2 ^ 4 * 2 ^ 4 :=
    Words.land_high_mask x.toNat 4 32 x.toNat_lt
  apply UInt32.toNat_inj.mp
  rw [UInt32.toNat_and]
  show x.toNat &&& (2 ^ 32 - 1 - (2 ^ 4 - 1)) = _
  rw [hmask]
  omega

/-- An aligned link does not terminate. -/
theorem and_one_of_aligned {x : UInt32} (h : x.toNat % 16 = 0) : x &&& 1 ≠ 1 := by
  intro hone
  have hvalue := congrArg UInt32.toNat hone
  rw [Words.toNat_and_mask32 x 1 1 rfl] at hvalue
  change x.toNat % 2 ^ 1 = 1 at hvalue
  omega

section places
variable {transfer : Transfer} {m : Nat}

/-- The places of the descriptors, as numbers. -/
theorem toNat_tdPlace (hspace : base.toNat + 8192 < 2 ^ 32)
    (hbuilt : Built base ls_device dev_address packet_size size before transfer m) {k : Nat}
    (hk : k ≤ 10) : (tdPlace transfer.queue k).toNat = base.toNat + 4240 + 32 * k := by
  have hindex : (UInt32.ofNat k).toNat = k := by
    rw [UInt32.toNat_ofNat']
    omega
  unfold tdPlace sizeofTransferDescriptor
  rw [hbuilt.queue]
  unfold sizeofQueueHead
  rw [UInt32.toNat_add, UInt32.toNat_add, UInt32.toNat_add, UInt32.toNat_add, UInt32.toNat_mul,
    hindex]
  show ((((base.toNat + 4096) % 2 ^ 32 + 128) % 2 ^ 32 + 16) % 2 ^ 32 + 32 * k % 2 ^ 32) % 2 ^ 32 = _
  omega

/-- **Every link but the last leads to the next place.** -/
theorem link_ptr_eq (haligned : base.toNat % 16 = 0) (hspace : base.toNat + 8192 < 2 ^ 32)
    (hbuilt : Built base ls_device dev_address packet_size size before transfer m) {k : Nat}
    (hk : k ≤ m) : (transfer.td k).link_ptr = tdPlace transfer.queue (k + 1) := by
  have hbound := hbuilt.bound
  have hplace := fun k hk => toNat_tdPlace hspace hbuilt (k := k) hk
  -- One descriptor further on from the place of `td[k]`.
  have hnext : ∀ k < 10, (tdPlace transfer.queue k &&& ~~~0xF) + sizeofTransferDescriptor =
      tdPlace transfer.queue (k + 1) := by
    intro k hk
    have hk0 := hplace k (by omega)
    have hk1 := hplace (k + 1) (by omega)
    rw [and_not_fifteen (by omega)]
    apply UInt32.toNat_inj.mp
    rw [UInt32.toNat_add, hk0, hk1]
    show (base.toNat + 4240 + 32 * k + 32) % 2 ^ 32 = _
    omega
  induction k with
  | zero =>
    have hzero : tdPlace transfer.queue 0 = transfer.queue.vert_ptr := by
      simp [tdPlace, sizeofTransferDescriptor]
    rw [hbuilt.setup]
    show (transfer.queue.vert_ptr &&& ~~~0xF) + sizeofTransferDescriptor = _
    rw [← hzero, hnext 0 (by omega)]
  | succ k ih =>
    rw [hbuilt.data k (by omega)]
    show ((transfer.td k).link_ptr &&& ~~~0xF) + sizeofTransferDescriptor = _
    rw [ih (by omega), hnext (k + 1) (by omega)]

/-- The controller goes from one descriptor to the next. -/
theorem nextDescriptor_eq (haligned : base.toNat % 16 = 0) (hspace : base.toNat + 8192 < 2 ^ 32)
    (hbuilt : Built base ls_device dev_address packet_size size before transfer m) {k : Nat}
    (hk : k ≤ m) : nextDescriptor transfer k = some (k + 1) := by
  have hbound := hbuilt.bound
  have hlink := link_ptr_eq haligned hspace hbuilt hk
  have hplace := fun k hk => toNat_tdPlace hspace hbuilt (k := k) hk
  have hvalue := hplace (k + 1) (by omega)
  have hgoes : ¬ (transfer.td k).Terminates := by
    unfold TransferDescriptor.Terminates
    rw [hlink]
    exact and_one_of_aligned (by omega)
  unfold nextDescriptor
  rw [if_neg hgoes, List.find?_range_eq_some, hlink, and_not_fifteen (by omega)]
  refine ⟨by simp, List.mem_range.mpr (by omega), ?_⟩
  intro j hj
  have hother := hplace j (by omega)
  simp only [Bool.not_eq_true', decide_eq_false_iff_not]
  intro heq
  rw [heq] at hother
  omega

theorem statusDescriptor_terminates : (statusDescriptor ls_device dev_address).Terminates := by
  show (1 : UInt32) &&& 1 = 1
  decide

/-- Behind the data packets the chain ends. -/
theorem nextDescriptor_last
    (hbuilt : Built base ls_device dev_address packet_size size before transfer m) :
    nextDescriptor transfer (m + 1) = none := by
  unfold nextDescriptor
  rw [hbuilt.status]
  exact if_pos statusDescriptor_terminates

/-- The descriptors from `td[m + 1 - n]` on. -/
theorem visits_from (haligned : base.toNat % 16 = 0) (hspace : base.toNat + 8192 < 2 ^ 32)
    (hbuilt : Built base ls_device dev_address packet_size size before transfer m) {n k : Nat}
    (hn : k + n = m + 1) :
    Chains.Visits (nextDescriptor transfer) k (List.range' k (n + 1)) := by
  induction n generalizing k with
  | zero =>
    obtain rfl : k = m + 1 := by omega
    exact Chains.visits_end (nextDescriptor_last hbuilt)
  | succ n ih =>
    have hnext := nextDescriptor_eq haligned hspace hbuilt (k := k) (by omega)
    exact Chains.visits_cons hnext (ih (by omega))

end places

/-- **What the controller is to find**: a chain of at most ten descriptors that
    it visits in order, each once, from the setup packet over data packets with
    alternating toggles to a status packet that ends it. -/
structure DescriptorChain (before : Nat → TransferDescriptor) (transfer : Transfer) : Prop where
  size   : 2 ≤ transfer.count ∧ transfer.count ≤ 10
  frame  : ∀ k, 10 ≤ k → transfer.td k = before k
  visits : Chains.Visits (nextDescriptor transfer) 0 (List.range transfer.count)
  setup  : (transfer.td 0).token = TOKEN_SETUP
  data   : ∀ k, 1 ≤ k → k + 1 < transfer.count →
    (transfer.td k).token = TOKEN_IN ∧ (transfer.td k).toggle.toNat = k % 2
  status : (transfer.td (transfer.count - 1)).token = TOKEN_OUT ∧
    (transfer.td (transfer.count - 1)).Interrupts ∧
    (transfer.td (transfer.count - 1)).Terminates

theorem setupDescriptor_token (queue : QueueHead) :
    (setupDescriptor base ls_device dev_address queue).token = TOKEN_SETUP := by
  have hinfo : (setupDescriptor base ls_device dev_address queue).info =
      ((7 : UInt32) <<< 21) ||| 0 ||| tdAddress dev_address ||| TOKEN_SETUP := by
    rw [UInt32.or_zero]
    rfl
  exact (info_fields _ hinfo (c := 0) rfl (by omega) (by decide)).1

theorem statusDescriptor_token :
    (statusDescriptor ls_device dev_address).token = TOKEN_OUT :=
  (info_fields (statusDescriptor ls_device dev_address) rfl (c := 1) rfl (by omega)
    (by decide)).1

theorem statusDescriptor_interrupts :
    (statusDescriptor ls_device dev_address).Interrupts := by
  cases ls_device with
  | false =>
    show (tdReply false ||| ((1 : UInt32) <<< 24)) &&& ((1 : UInt32) <<< 24) ≠ 0
    decide
  | true =>
    show (tdReply true ||| ((1 : UInt32) <<< 24)) &&& ((1 : UInt32) <<< 24) ≠ 0
    decide

/-- A data packet asks for `t` bytes, with the toggle of its index. -/
theorem inDescriptor_fields (base : UInt32) (ls_device : Bool) (dev_address t : Int32) (i : Nat)
    (previous : TransferDescriptor) :
    (inDescriptor base ls_device dev_address t i previous).token = TOKEN_IN ∧
      (inDescriptor base ls_device dev_address t i previous).toggle.toNat = i % 2 ∧
      (inDescriptor base ls_device dev_address t i previous).length =
        ((t - 1).toUInt32.toNat + 1) % 2 ^ 11 := by
  apply info_fields (inDescriptor base ls_device dev_address t i previous) rfl (c := i % 2)
  · split
    · rename_i hodd
      rw [hodd]
      rfl
    · rename_i heven
      have hzero : i % 2 = 0 := by omega
      rw [hzero]
      rfl
  · omega
  · decide

end chain

/-! ## Section 5: The function -/

section function
variable {io_base : UInt16} {base : UInt32} {wait : Nat → IoSpace → IoSpace} {io : IoSpace}

/-- What is left of the transfer is what was built. -/
theorem uhci_get_descriptor_transfer (ls_device : Bool) (dev_address packet_size size : Int32)
    (td : Nat → TransferDescriptor) :
    (uhci_get_descriptor io_base base ls_device dev_address packet_size size td wait io).1 =
      buildTransfer base ls_device dev_address packet_size size td := by
  unfold uhci_get_descriptor
  dsimp only
  split
  · rfl
  · split <;> rfl

/-- **Main theorem on the chain**: for every aligned frame with room for the
    descriptors below four gigabytes, every device address, size and packet
    size. -/
theorem uhci_get_descriptor_chain (io_base : UInt16) (wait : Nat → IoSpace → IoSpace)
    (io : IoSpace) (ls_device : Bool) (dev_address packet_size size : Int32)
    (before : Nat → TransferDescriptor) (haligned : base.toNat % 16 = 0)
    (hspace : base.toNat + 8192 < 2 ^ 32) :
    DescriptorChain before (uhci_get_descriptor io_base base ls_device dev_address packet_size size
      before wait io).1 := by
  rw [uhci_get_descriptor_transfer]
  obtain ⟨m, hbuilt⟩ := buildTransfer_spec base ls_device dev_address packet_size size before
  generalize buildTransfer base ls_device dev_address packet_size size before = transfer
    at hbuilt ⊢
  have hbound := hbuilt.bound
  have hcount := hbuilt.count
  have hlast : transfer.count - 1 = m + 1 := by omega
  refine ⟨⟨by omega, by omega⟩, ?_, ?_, ?_, ?_, ?_⟩
  · exact fun k hk => hbuilt.frame k (by omega)
  · rw [hcount, List.range_eq_range']
    exact visits_from haligned hspace hbuilt (by omega)
  · rw [hbuilt.setup]
    exact setupDescriptor_token transfer.queue
  · intro k hk hlt
    obtain ⟨k, rfl⟩ : ∃ l, k = l + 1 := ⟨k - 1, by omega⟩
    rw [hbuilt.data k (by omega)]
    obtain ⟨htoken, htoggle, -⟩ := inDescriptor_fields base ls_device dev_address
      (packetLength packet_size (remaining packet_size k size)) (k + 1) (transfer.td k)
    exact ⟨htoken, htoggle⟩
  · rw [hlast, hbuilt.status]
    exact ⟨statusDescriptor_token, statusDescriptor_interrupts, statusDescriptor_terminates⟩

end function

/-- An array of zeros. -/
def noDescriptors (_ : Nat) : TransferDescriptor := ⟨0, 0, 0, 0⟩

/-- A negative packet size makes the loop run to its bound. -/
theorem uhci_get_descriptor_chain_negative :
    DescriptorChain noDescriptors (uhci_get_descriptor 0xC000 0x100000 true 1 (-8) 18 noDescriptors
      (fun _ io => io) (fun _ => 0)).1 :=
  uhci_get_descriptor_chain 0xC000 (fun _ io => io) (fun _ => 0) true 1 (-8) 18 noDescriptors
    (by decide) (by decide)

/-- **The function always fails**: the bits that it looks for as errors are those
    it has set itself, and no descriptor has been to the controller in between. -/
theorem uhci_get_descriptor_fails (io_base : UInt16) (base : UInt32) (ls_device : Bool)
    (dev_address packet_size size : Int32) (td : Nat → TransferDescriptor)
    (wait : Nat → IoSpace → IoSpace) (io : IoSpace) :
    (uhci_get_descriptor io_base base ls_device dev_address packet_size size td wait io).2.1 =
      false := by
  obtain ⟨m, hbuilt⟩ := buildTransfer_spec base ls_device dev_address packet_size size td
  have hfailed : (List.range (buildTransfer base ls_device dev_address packet_size size td).count).any
      (fun t => ((buildTransfer base ls_device dev_address packet_size size td).td t).reply &&&
        ((0xFF : UInt32) <<< 16) != 0) = true := by
    apply List.any_eq_true.mpr
    refine ⟨0, List.mem_range.mpr (by rw [hbuilt.count]; omega), ?_⟩
    rw [hbuilt.setup]
    cases ls_device with
    | false => exact (by decide : (tdReply false &&& ((0xFF : UInt32) <<< 16) != 0) = true)
    | true => exact (by decide : (tdReply true &&& ((0xFF : UInt32) <<< 16) != 0) = true)
  unfold uhci_get_descriptor
  simp only [hfailed, if_true]
  split <;> rfl

end ArgaldOS
