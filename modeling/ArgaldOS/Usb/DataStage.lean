import ArgaldOS.Usb.Descriptor

/-! # The data stage of a control transfer

    The packets from the device are to fill a buffer of 120 bytes, one behind the
    other.  The length of a packet is a parameter of `uhci_get_descriptor`; the
    distance of two packets, and how many there can be, are not.

    * `toInt_remaining`: the bytes that are left after some packets;
    * `length_data`, `sum_length_data`: what each packet asks for, and all
      together;
    * `dataStage_iff`: the sizes for which the packets fill the buffer as they
      should.
-/

namespace ArgaldOS

/-! ## Section 1: The lengths -/

section lengths
variable {base : UInt32} {ls_device : Bool} {dev_address packet_size size : Int32}
variable {before : Nat → TransferDescriptor} {transfer : Transfer} {m s p : Nat}

/-- A difference that does not wrap. -/
theorem toInt_sub_of_le {a b : Int32} (h0 : 0 ≤ b.toInt) (h : b.toInt ≤ a.toInt) :
    (a - b).toInt = a.toInt - b.toInt := by
  have hlt := a.toInt_lt
  rw [Int32.toInt_sub]
  exact Int.bmod_eq_of_le (by omega) (by omega)

theorem toInt_packetLength (sz : Int32) :
    (packetLength packet_size sz).toInt = min sz.toInt packet_size.toInt := by
  unfold packetLength
  by_cases h : sz ≤ packet_size
  · rw [if_pos h]
    have hle := Int32.le_iff_toInt_le.mp h
    omega
  · rw [if_neg h]
    have hlt := Int32.lt_iff_toInt_lt.mp (Int32.not_le.mp h)
    omega

/-- **The bytes that are left** after `k` packets. -/
theorem toInt_remaining (hp : packet_size.toInt = p) (hpos : 0 < p) (hs : size.toInt = s)
    (k : Nat) : (remaining packet_size k size).toInt = (s - k * p : Nat) := by
  induction k generalizing size s with
  | zero =>
    rw [remaining, hs]
    simp
  | succ k ih =>
    have hlen : (packetLength packet_size size).toInt = min (s : Int) p := by
      rw [toInt_packetLength, hs, hp]
    have hnext : (size - packetLength packet_size size).toInt = (s - p : Nat) := by
      rw [toInt_sub_of_le (by omega) (by omega), hlen, hs]
      omega
    have hmul : (k + 1) * p = k * p + p := Nat.succ_mul k p
    rw [remaining, ih hnext]
    omega

/-- A number that is not negative keeps its value in an unsigned word. -/
theorem toNat_toUInt32 {x : Int32} {n : Nat} (h : x.toInt = n) : x.toUInt32.toNat = n := by
  have hle : 0 ≤ x := Int32.le_iff_toInt_le.mpr (by rw [h]; exact Int.natCast_nonneg n)
  rw [Int32.toNat_toUInt32_of_le hle]
  show x.toInt.toNat = n
  rw [h, Int.toNat_natCast]

/-- Where the packets end. -/
theorem packets_bound
    (hbuilt : Built base ls_device dev_address packet_size size before transfer m)
    (hp : packet_size.toInt = p) (hpos : 0 < p) (hs : size.toInt = s) :
    (∀ k < m, k * p < s) ∧ (m = 8 ∨ s ≤ m * p) := by
  have hzero : (0 : Int32).toInt = 0 := rfl
  constructor
  · intro k hk
    have hmore := Int32.lt_iff_toInt_lt.mp (hbuilt.more k hk)
    rw [toInt_remaining hp hpos hs, hzero] at hmore
    omega
  · rcases hbuilt.stop with hm | hstop
    · exact Or.inl hm
    · have hle := Int32.le_iff_toInt_le.mp (Int32.not_lt.mp hstop)
      rw [toInt_remaining hp hpos hs, hzero] at hle
      exact Or.inr (by omega)

/-- **What packet `k` asks for.** -/
theorem length_data (hbuilt : Built base ls_device dev_address packet_size size before transfer m)
    (hp : packet_size.toInt = p) (hpos : 0 < p) (hp64 : p ≤ 64) (hs : size.toInt = s) {k : Nat}
    (hk : k < m) : (transfer.td (k + 1)).length = min (s - k * p) p := by
  have hmore := (packets_bound hbuilt hp hpos hs).1 k hk
  have hlen : (packetLength packet_size (remaining packet_size k size)).toInt =
      (min (s - k * p) p : Nat) := by
    rw [toInt_packetLength, toInt_remaining hp hpos hs, hp]
    omega
  have hless : (packetLength packet_size (remaining packet_size k size) - 1).toInt =
      (min (s - k * p) p - 1 : Nat) := by
    have hone : (1 : Int32).toInt = 1 := rfl
    rw [toInt_sub_of_le (by rw [hone]; omega) (by rw [hone, hlen]; omega), hlen, hone]
    omega
  rw [hbuilt.data k hk, (inDescriptor_fields _ _ _ _ _ _).2.2, toNat_toUInt32 hless]
  omega

/-- **What the first `n` packets ask for together.** -/
theorem sum_length_data
    (hbuilt : Built base ls_device dev_address packet_size size before transfer m)
    (hp : packet_size.toInt = p) (hpos : 0 < p) (hp64 : p ≤ 64) (hs : size.toInt = s) {n : Nat}
    (hn : n ≤ m) :
    ((List.range n).map fun k => (transfer.td (k + 1)).length).sum = min s (n * p) := by
  induction n with
  | zero => simp
  | succ n ih =>
    have hmore := (packets_bound hbuilt hp hpos hs).1 n (by omega)
    have hmul : (n + 1) * p = n * p + p := Nat.succ_mul n p
    rw [List.range_succ, List.map_append, List.sum_append, ih (by omega)]
    simp only [List.map_cons, List.map_nil, List.sum_cons, List.sum_nil]
    rw [length_data hbuilt hp hpos hp64 hs (by omega)]
    omega

/-- Where the bytes of `td[k]` go, from `base` on. -/
def bufferOffset (base : UInt32) (transfer : Transfer) (k : Nat) : Nat :=
  ((transfer.td k).buff_ptr - base).toNat

theorem bufferOffset_data
    (hbuilt : Built base ls_device dev_address packet_size size before transfer m) {k : Nat}
    (hk : k < m) : bufferOffset base transfer (k + 1) = 4096 + 8 * (k + 1) := by
  have hbound := hbuilt.bound
  have hindex : (UInt32.ofNat (k + 1)).toNat = k + 1 := by
    rw [UInt32.toNat_ofNat']
    omega
  have hbase := base.toNat_lt
  unfold bufferOffset
  rw [hbuilt.data k hk]
  show (base + 4096 + 8 * UInt32.ofNat (k + 1) - base).toNat = _
  rw [UInt32.toNat_sub, UInt32.toNat_add, UInt32.toNat_add, UInt32.toNat_mul, hindex]
  show (2 ^ 32 - base.toNat + ((base.toNat + 4096) % 2 ^ 32 + 8 * (k + 1) % 2 ^ 32) % 2 ^ 32)
    % 2 ^ 32 = _
  omega

end lengths

/-! ## Section 2: The buffer -/

/-- `wLength` of the setup packet. -/
def wLength (transfer : Transfer) : Nat :=
  (transfer.setup_packet.getD 6 0).toNat + 256 * (transfer.setup_packet.getD 7 0).toNat

/-- The number of data packets: all descriptors but the first and the last. -/
def dataCount (transfer : Transfer) : Nat := transfer.count - 2

/-- **What the data stage is for**: the packets ask for as many bytes as the setup
    packet does, none for more than fits in it, and put them one behind the other
    into the buffer. -/
structure DataStage (base : UInt32) (packet_size size : Int32) (transfer : Transfer) : Prop where
  total       : ((List.range (dataCount transfer)).map fun k =>
    (transfer.td (k + 1)).length).sum = wLength transfer
  request     : (wLength transfer : Int) = size.toInt
  each        : ∀ k < dataCount transfer, ((transfer.td (k + 1)).length : Int) ≤ packet_size.toInt
  consecutive : ∀ k, k + 1 < dataCount transfer →
    bufferOffset base transfer (k + 2) =
      bufferOffset base transfer (k + 1) + (transfer.td (k + 1)).length
  disjoint    : ∀ j k, j < k → k < dataCount transfer →
    bufferOffset base transfer (j + 1) + (transfer.td (j + 1)).length ≤
      bufferOffset base transfer (k + 1)
  inside      : ∀ k < dataCount transfer, 4096 + 8 ≤ bufferOffset base transfer (k + 1) ∧
    bufferOffset base transfer (k + 1) + (transfer.td (k + 1)).length ≤ 4096 + 128

section buffer
variable {base : UInt32} {ls_device : Bool} {dev_address packet_size size : Int32}
variable {before : Nat → TransferDescriptor} {transfer : Transfer} {m s p : Nat}

/-- A size of two bytes arrives. -/
theorem wLength_eq (hbuilt : Built base ls_device dev_address packet_size size before transfer m)
    (hs : size.toInt = s) (hlt : s < 2 ^ 16) : wLength transfer = s := by
  have hvalue := toNat_toUInt32 hs
  have hlow := Words.toNat_byte32 size.toUInt32 0 (by decide)
  have hhigh := Words.toNat_byte32 size.toUInt32 8 (by decide)
  unfold wLength
  rw [hbuilt.packet]
  show size.toUInt32.toUInt8.toNat + 256 * (size.toUInt32 >>> 8).toUInt8.toNat = s
  rw [hhigh, UInt32.toNat_toUInt8, hvalue]
  show s % 2 ^ 8 + 256 * (s / 2 ^ 8 % 2 ^ 8) = s
  omega

theorem dataCount_eq
    (hbuilt : Built base ls_device dev_address packet_size size before transfer m) :
    dataCount transfer = m := by
  unfold dataCount
  rw [hbuilt.count, Nat.add_sub_cancel]

/-- More than one packet, each longer than eight bytes, would overlap; and eight
    packets of eight bytes are not enough for a longer answer. -/
theorem single_or_eight
    (hbuilt : Built base ls_device dev_address packet_size size before transfer m)
    (hp : packet_size.toInt = p) (hpos : 0 < p) (hp64 : p ≤ 64) (hs : size.toInt = s)
    (hs1 : 1 ≤ s) (hs120 : s ≤ 120) (h : DataStage base packet_size size transfer) :
    s ≤ p ∨ (p = 8 ∧ s ≤ 64) := by
  obtain ⟨hmore, hstop⟩ := packets_bound hbuilt hp hpos hs
  have hcount := dataCount_eq hbuilt
  by_contra hnot
  have hlong : p < s := by omega
  have hm : 2 ≤ m := by
    by_contra hm
    have hmul : m * p ≤ 1 * p := Nat.mul_le_mul_right p (by omega)
    omega
  -- The second packet is eight bytes behind the first.
  have hnext := h.consecutive 0 (by omega)
  rw [bufferOffset_data hbuilt (k := 0) (by omega), bufferOffset_data hbuilt (k := 1) (by omega),
    length_data hbuilt hp hpos hp64 hs (by omega)] at hnext
  have height : p = 8 := by omega
  subst height
  have htotal := h.total
  rw [hcount, sum_length_data hbuilt hp hpos hp64 hs (Nat.le_refl m),
    wLength_eq hbuilt hs (by omega)] at htotal
  have hbound := hbuilt.bound
  omega

/-- One packet, or packets of eight bytes, fill the buffer. -/
theorem dataStage_of_single_or_eight
    (hbuilt : Built base ls_device dev_address packet_size size before transfer m)
    (hp : packet_size.toInt = p) (hpos : 0 < p) (hp64 : p ≤ 64) (hs : size.toInt = s)
    (hs1 : 1 ≤ s) (hs120 : s ≤ 120) (h : s ≤ p ∨ (p = 8 ∧ s ≤ 64)) :
    DataStage base packet_size size transfer := by
  obtain ⟨hmore, hstop⟩ := packets_bound hbuilt hp hpos hs
  have hbound := hbuilt.bound
  have hcount := dataCount_eq hbuilt
  have hlength := fun k (hk : k < m) => length_data hbuilt hp hpos hp64 hs hk
  have hoffset := fun k (hk : k < m) => bufferOffset_data hbuilt hk
  have hw := wLength_eq hbuilt hs (by omega)
  -- Where there is a second packet, the first has eight bytes.
  have hsecond : ∀ k, k + 1 < m → p = 8 := by
    intro k hk
    rcases h with hsingle | ⟨height, -⟩
    · have hfirst := hmore 1 (by omega)
      omega
    · exact height
  constructor
  · rw [hcount, sum_length_data hbuilt hp hpos hp64 hs (Nat.le_refl m), hw]
    rcases hstop with rfl | hstop
    · have height := hsecond 0 (by omega)
      omega
    · omega
  · rw [hw, hs]
  · rw [hcount, hp]
    intro k hk
    rw [hlength k hk]
    omega
  · rw [hcount]
    intro k hk
    have height := hsecond k hk
    have hbefore := hmore (k + 1) hk
    subst height
    rw [hoffset (k + 1) hk, hoffset k (by omega), hlength k (by omega)]
    omega
  · rw [hcount]
    intro j k hjk hk
    have height := hsecond j (by omega)
    subst height
    rw [hoffset j (by omega), hoffset k hk, hlength j (by omega)]
    omega
  · rw [hcount]
    intro k hk
    have hbefore := hmore k hk
    rw [hoffset k hk, hlength k hk]
    rcases Nat.eq_zero_or_pos k with rfl | hlater
    · omega
    · have height := hsecond (k - 1) (by omega)
      subst height
      omega

/-- **Main theorem on the data stage**: for every frame, every packet size that
    there is, and every size up to that of the buffer, the packets fill the buffer
    exactly when there is only one, or when they are as far apart as they are
    long and not more than eight. -/
theorem dataStage_iff (io_base : UInt16) (base : UInt32) (ls_device : Bool) (dev_address : Int32)
    {packet_size size : Int32} (before : Nat → TransferDescriptor)
    (wait : Nat → IoSpace → IoSpace) (io : IoSpace)
    (hpacket : packet_size = 8 ∨ packet_size = 16 ∨ packet_size = 32 ∨ packet_size = 64)
    (hsize : 1 ≤ size) (hsize120 : size ≤ 120) :
    DataStage base packet_size size (uhci_get_descriptor io_base base ls_device dev_address
        packet_size size before wait io).1 ↔
      size ≤ packet_size ∨ (packet_size = 8 ∧ size ≤ 64) := by
  have h1 : 1 ≤ size.toInt := Int32.le_iff_toInt_le.mp hsize
  have h120 : size.toInt ≤ 120 := Int32.le_iff_toInt_le.mp hsize120
  obtain ⟨s, hs⟩ := Int.eq_ofNat_of_zero_le (a := size.toInt) (by omega)
  obtain ⟨p, hp, hpos, hp64⟩ : ∃ p : Nat, packet_size.toInt = p ∧ 0 < p ∧ p ≤ 64 := by
    rcases hpacket with rfl | rfl | rfl | rfl
    · exact ⟨8, rfl, by omega, by omega⟩
    · exact ⟨16, rfl, by omega, by omega⟩
    · exact ⟨32, rfl, by omega, by omega⟩
    · exact ⟨64, rfl, by omega, by omega⟩
  have hle : size ≤ packet_size ↔ s ≤ p := by
    rw [Int32.le_iff_toInt_le, hs, hp]
    omega
  have height : packet_size = 8 ↔ p = 8 := by
    rw [← Int32.toInt_inj, hp]
    show (p : Int) = 8 ↔ p = 8
    omega
  have h64 : size ≤ 64 ↔ s ≤ 64 := by
    rw [Int32.le_iff_toInt_le, hs]
    show (s : Int) ≤ 64 ↔ s ≤ 64
    omega
  obtain ⟨m, hbuilt⟩ := buildTransfer_spec base ls_device dev_address packet_size size before
  rw [uhci_get_descriptor_transfer, hle, height, h64]
  constructor
  · exact single_or_eight hbuilt hp hpos hp64 hs (by omega) (by omega)
  · exact dataStage_of_single_or_eight hbuilt hp hpos hp64 hs (by omega) (by omega)

end buffer

/-- A device descriptor of 18 bytes, in packets of 16: the second packet goes over
    the first; and 72 bytes in packets of eight: the last eight are not asked
    for. -/
theorem dataStage_fails :
    ¬ DataStage 0x100000 16 18 (uhci_get_descriptor 0xC000 0x100000 false 1 16 18 noDescriptors
        (fun _ io => io) (fun _ => 0)).1 ∧
      ¬ DataStage 0x100000 8 72 (uhci_get_descriptor 0xC000 0x100000 false 1 8 72 noDescriptors
        (fun _ io => io) (fun _ => 0)).1 := by
  rw [uhci_get_descriptor_transfer, uhci_get_descriptor_transfer]
  constructor
  · intro h
    exact absurd (h.consecutive 0 (by decide)) (by decide)
  · intro h
    exact absurd h.total (by decide)

/-- The first 64 bytes of a descriptor, in eight packets of eight bytes; and not one byte more. -/
theorem dataStage_eight :
    DataStage 0x100000 8 64 (uhci_get_descriptor 0xC000 0x100000 true 5 8 64 noDescriptors
        (fun _ io => io) (fun _ => 0)).1 ∧
      ¬ DataStage 0x100000 8 65 (uhci_get_descriptor 0xC000 0x100000 true 5 8 65 noDescriptors
        (fun _ io => io) (fun _ => 0)).1 :=
  ⟨(dataStage_iff 0xC000 0x100000 true 5 noDescriptors (fun _ io => io) (fun _ => 0)
      (by decide) (by decide) (by decide)).mpr (Or.inr ⟨rfl, by decide⟩),
    fun h => absurd ((dataStage_iff 0xC000 0x100000 true 5 noDescriptors (fun _ io => io)
      (fun _ => 0) (by decide) (by decide) (by decide)).mp h) (by decide)⟩

end ArgaldOS
