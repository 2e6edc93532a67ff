import ArgaldOS.Framework.Words
import ArgaldOS.Stdlib.Binop
import ArgaldOS.Pci.Model

/-! # The readers of configuration space

    Behind the two ports there is one byte for each register of each function of
    each slot.  Three readers hand out one, two or four of them; all three
    evaluate the same expression (`pciWord`), and differ in the type of their
    result only.

    * `toNat_pciAddress`: the address that is written, as a number;
    * `toNat_pciWord`: what the expression is, in terms of the registers;
    * `pci_accessors_agree_iff`: the registers that the three readers agree on.
-/

namespace ArgaldOS

/-! ## Section 1: Registers -/

/-- The registers: a byte for each bus, slot, function and offset. -/
abbrev ConfigBytes : Type := Nat → Nat → Nat → Nat → UInt8

/-- The little-endian double word that is read from the data port while
    `address` is in the address port. -/
def ConfigBytes.space (bytes : ConfigBytes) : ConfigSpace := fun address =>
  let register := bytes (address.toNat / 65536 % 256) (address.toNat / 2048 % 32)
    (address.toNat / 256 % 8)
  let offset := address.toNat / 4 % 64 * 4
  combine32bit (register (offset + 3)) (register (offset + 2)) (register (offset + 1))
    (register offset)

/-- `pci_config_read8`: it shifts and masks as the others do. -/
def pci_config_read8 (space : ConfigSpace) (bus slot func : UInt8) (offset : UInt16) : UInt8 :=
  (pciWord space bus slot func offset).toUInt8

section address
variable {bus slot func : UInt8} {offset : UInt16}

/-- A byte that is moved to its place in the address. -/
theorem toNat_addressPart (b : UInt8) (n : UInt32) {k : Nat} (hn : n.toNat = k) (hk : k ≤ 24) :
    (b.toUInt32 <<< n).toNat = b.toNat * 2 ^ k := by
  have hb := b.toNat_lt
  have hpow : 2 ^ k ≤ 2 ^ 24 := Nat.pow_le_pow_right (by omega) hk
  have hle : b.toNat * 2 ^ k ≤ 255 * 2 ^ 24 := Nat.mul_le_mul (by omega) hpow
  have hmod : k % 32 = k := Nat.mod_eq_of_lt (by omega)
  rw [UInt32.toNat_shiftLeft, UInt8.toNat_toUInt32, hn, hmod, Nat.shiftLeft_eq,
    Nat.mod_eq_of_lt (by omega)]

/-- The offset of the double word, below 256. -/
theorem toNat_dwordOffset (offset : UInt16) :
    (offset &&& 0xfc).toUInt32.toNat = offset.toNat / 4 % 64 * 4 := by
  have hmask : offset.toNat &&& 0xfc = offset.toNat % 2 ^ 8 / 2 ^ 2 * 2 ^ 2 :=
    Words.land_middle_mask _ 2 8
  rw [UInt16.toNat_toUInt32, UInt16.toNat_and]
  show offset.toNat &&& 0xfc = _
  rw [hmask]
  omega

/-- **The address as a number**: the fields do not overlap. -/
theorem toNat_pciAddress (bus : UInt8) (offset : UInt16) (hslot : slot < 32) (hfunc : func < 8) :
    (pciAddress bus slot func offset).toNat =
      2147483648 + bus.toNat * 65536 + slot.toNat * 2048 + func.toNat * 256
        + offset.toNat / 4 % 64 * 4 := by
  have hb := bus.toNat_lt
  have hs : slot.toNat < 32 := UInt8.lt_iff_toNat_lt.mp hslot
  have hf : func.toNat < 8 := UInt8.lt_iff_toNat_lt.mp hfunc
  have hbus := toNat_addressPart bus 16 (k := 16) rfl (by omega)
  have hslt := toNat_addressPart slot 11 (k := 11) rfl (by omega)
  have hfun := toNat_addressPart func 8 (k := 8) rfl (by omega)
  have h1 := Words.lor_eq_add (bus.toNat * 2 ^ 16) (slot.toNat * 2 ^ 11) 16 (by omega) (by omega)
  have h2 := Words.lor_eq_add (bus.toNat * 2 ^ 16 + slot.toNat * 2 ^ 11) (func.toNat * 2 ^ 8) 11
    (by omega) (by omega)
  have h3 := Words.lor_eq_add (bus.toNat * 2 ^ 16 + slot.toNat * 2 ^ 11 + func.toNat * 2 ^ 8)
    (offset.toNat / 4 % 64 * 4) 8 (by omega) (by omega)
  have h4 := Words.lor_eq_add 2147483648 (bus.toNat * 2 ^ 16 + slot.toNat * 2 ^ 11
    + func.toNat * 2 ^ 8 + offset.toNat / 4 % 64 * 4) 31 (by omega) (by omega)
  unfold pciAddress
  rw [UInt32.toNat_or, UInt32.toNat_or, UInt32.toNat_or, UInt32.toNat_or, hbus, hslt, hfun,
    toNat_dwordOffset, h1, h2, h3, Nat.or_comm]
  show 2147483648 ||| _ = _
  rw [h4]
  omega

/-- Different functions, and different double words, have different addresses. -/
theorem pciAddress_inj {bus' slot' func' : UInt8} {offset' : UInt16} (hslot : slot < 32)
    (hfunc : func < 8) (hslot' : slot' < 32) (hfunc' : func' < 8) (hoffset : offset < 256)
    (hoffset' : offset' < 256)
    (h : pciAddress bus slot func offset = pciAddress bus' slot' func' offset') :
    bus = bus' ∧ slot = slot' ∧ func = func' ∧ offset / 4 = offset' / 4 := by
  have hvalue := congrArg UInt32.toNat h
  rw [toNat_pciAddress _ _ hslot hfunc, toNat_pciAddress _ _ hslot' hfunc'] at hvalue
  have hs : slot.toNat < 32 := UInt8.lt_iff_toNat_lt.mp hslot
  have hs' : slot'.toNat < 32 := UInt8.lt_iff_toNat_lt.mp hslot'
  have hf : func.toNat < 8 := UInt8.lt_iff_toNat_lt.mp hfunc
  have hf' : func'.toNat < 8 := UInt8.lt_iff_toNat_lt.mp hfunc'
  have ho : offset.toNat < 256 := UInt16.lt_iff_toNat_lt.mp hoffset
  have ho' : offset'.toNat < 256 := UInt16.lt_iff_toNat_lt.mp hoffset'
  refine ⟨?_, ?_, ?_, ?_⟩
  · exact UInt8.toNat_inj.mp (by omega)
  · exact UInt8.toNat_inj.mp (by omega)
  · exact UInt8.toNat_inj.mp (by omega)
  · apply UInt16.toNat_inj.mp
    rw [UInt16.toNat_div, UInt16.toNat_div]
    show offset.toNat / 4 = offset'.toNat / 4
    omega

end address

/-! ## Section 2: The three readers -/

section readers
variable {bytes : ConfigBytes} {bus slot func : UInt8} {offset : UInt16}

/-- The byte of a register. -/
def ConfigBytes.at (bytes : ConfigBytes) (bus slot func : UInt8) (offset : Nat) : UInt8 :=
  bytes bus.toNat slot.toNat func.toNat offset

/-- What the data port answers to the address of a register. -/
theorem space_pciAddress (hslot : slot < 32) (hfunc : func < 8) (hoffset : offset < 256) :
    bytes.space (pciAddress bus slot func offset) =
      combine32bit (bytes.at bus slot func (offset.toNat / 4 * 4 + 3))
        (bytes.at bus slot func (offset.toNat / 4 * 4 + 2))
        (bytes.at bus slot func (offset.toNat / 4 * 4 + 1))
        (bytes.at bus slot func (offset.toNat / 4 * 4)) := by
  have hb := bus.toNat_lt
  have hs : slot.toNat < 32 := UInt8.lt_iff_toNat_lt.mp hslot
  have hf : func.toNat < 8 := UInt8.lt_iff_toNat_lt.mp hfunc
  have ho : offset.toNat < 256 := UInt16.lt_iff_toNat_lt.mp hoffset
  have haddress := toNat_pciAddress bus offset hslot hfunc
  have hbus : (pciAddress bus slot func offset).toNat / 65536 % 256 = bus.toNat := by omega
  have hslt : (pciAddress bus slot func offset).toNat / 2048 % 32 = slot.toNat := by omega
  have hfun : (pciAddress bus slot func offset).toNat / 256 % 8 = func.toNat := by omega
  have hoff : (pciAddress bus slot func offset).toNat / 4 % 64 * 4 = offset.toNat / 4 * 4 := by
    omega
  unfold ConfigBytes.space ConfigBytes.at
  simp only [hbus, hslt, hfun, hoff]

/-- The half of the double word that is shifted down. -/
theorem toNat_halfShift (offset : UInt16) :
    ((offset &&& 2) * 8).toUInt32.toNat = offset.toNat / 2 % 2 * 16 := by
  have hbit : offset.toNat &&& 2 = offset.toNat % 2 ^ 2 / 2 ^ 1 * 2 ^ 1 :=
    Words.land_middle_mask _ 1 2
  rw [UInt16.toNat_toUInt32, UInt16.toNat_mul, UInt16.toNat_and]
  show (offset.toNat &&& 2) * 8 % 2 ^ 16 = _
  omega

/-- **What the readers evaluate**: the two registers at the offset, rounded down
    to an even one. -/
theorem toNat_pciWord (hslot : slot < 32) (hfunc : func < 8) (hoffset : offset < 256) :
    (pciWord bytes.space bus slot func offset).toNat =
      (bytes.at bus slot func (offset.toNat / 2 * 2)).toNat
        + 256 * (bytes.at bus slot func (offset.toNat / 2 * 2 + 1)).toNat := by
  have ho : offset.toNat < 256 := UInt16.lt_iff_toNat_lt.mp hoffset
  have h0 := (bytes.at bus slot func (offset.toNat / 4 * 4)).toNat_lt
  have h1 := (bytes.at bus slot func (offset.toNat / 4 * 4 + 1)).toNat_lt
  have h2 := (bytes.at bus slot func (offset.toNat / 4 * 4 + 2)).toNat_lt
  have h3 := (bytes.at bus slot func (offset.toNat / 4 * 4 + 3)).toNat_lt
  have hshift := toNat_halfShift offset
  have hmod : offset.toNat / 2 % 2 * 16 % 32 = offset.toNat / 2 % 2 * 16 := by omega
  unfold pciWord
  rw [space_pciAddress hslot hfunc hoffset, Words.toNat_and_mask32 _ _ 16 rfl,
    UInt32.toNat_shiftRight, hshift, hmod, toNat_combine32bit, Nat.shiftRight_eq_div_pow]
  rcases Nat.mod_two_eq_zero_or_one (offset.toNat / 2) with hlow | hhigh
  · have heven : offset.toNat / 2 * 2 = offset.toNat / 4 * 4 := by omega
    rw [hlow, heven]
    omega
  · have heven : offset.toNat / 2 * 2 = offset.toNat / 4 * 4 + 2 := by omega
    have hodd : offset.toNat / 2 * 2 + 1 = offset.toNat / 4 * 4 + 3 := by omega
    rw [hhigh, hodd, heven]
    omega

/-- One register, at the offset rounded down to an even one. -/
theorem pci_config_read8_eq (bytes : ConfigBytes) (bus : UInt8) (hslot : slot < 32)
    (hfunc : func < 8) (hoffset : offset < 256) :
    pci_config_read8 bytes.space bus slot func offset =
      bytes.at bus slot func (offset.toNat / 2 * 2) := by
  have h0 := (bytes.at bus slot func (offset.toNat / 2 * 2)).toNat_lt
  apply UInt8.toNat_inj.mp
  unfold pci_config_read8
  rw [UInt32.toNat_toUInt8, toNat_pciWord hslot hfunc hoffset]
  omega

/-- Two registers. -/
theorem toNat_pci_config_read16 (bytes : ConfigBytes) (bus : UInt8) (hslot : slot < 32)
    (hfunc : func < 8) (hoffset : offset < 256) :
    (pci_config_read16 bytes.space bus slot func offset).toNat =
      (bytes.at bus slot func (offset.toNat / 2 * 2)).toNat
        + 256 * (bytes.at bus slot func (offset.toNat / 2 * 2 + 1)).toNat := by
  have h0 := (bytes.at bus slot func (offset.toNat / 2 * 2)).toNat_lt
  have h1 := (bytes.at bus slot func (offset.toNat / 2 * 2 + 1)).toNat_lt
  unfold pci_config_read16
  rw [UInt32.toNat_toUInt16, toNat_pciWord hslot hfunc hoffset]
  omega

end readers

/-! ## Section 3: Agreement -/

/-- **What the readers are for**, at one offset: four registers where it is a
    multiple of four (and the two words that they consist of), two where it is
    even, one anywhere; and the address is no other double word's. -/
structure AccessorsAgree (bytes : ConfigBytes) (bus slot func : UInt8) (offset : UInt16) :
    Prop where
  read32   : offset.toNat % 4 = 0 →
    pci_config_read32 bytes.space bus slot func offset =
      combine32bit (bytes.at bus slot func (offset.toNat + 3))
        (bytes.at bus slot func (offset.toNat + 2)) (bytes.at bus slot func (offset.toNat + 1))
        (bytes.at bus slot func offset.toNat)
  halves   : offset.toNat % 4 = 0 →
    pci_config_read32 bytes.space bus slot func offset =
      (pci_config_read16 bytes.space bus slot func offset).toUInt32 |||
        ((pci_config_read16 bytes.space bus slot func (offset + 2)).toUInt32 <<< 16)
  read16   : offset.toNat % 2 = 0 →
    pci_config_read16 bytes.space bus slot func offset =
      ((bytes.at bus slot func (offset.toNat + 1)).toUInt16 <<< 8) |||
        (bytes.at bus slot func offset.toNat).toUInt16
  read8    : pci_config_read8 bytes.space bus slot func offset =
    bytes.at bus slot func offset.toNat
  distinct : ∀ bus' slot' func' : UInt8, ∀ offset' : UInt16,
    slot' < 32 → func' < 8 → offset' < 256 →
    pciAddress bus slot func offset = pciAddress bus' slot' func' offset' →
    bus = bus' ∧ slot = slot' ∧ func = func' ∧ offset / 4 = offset' / 4

/-- What is lost: the high half of a double word, and the byte at an odd
    offset. -/
structure NothingLost (bytes : ConfigBytes) (bus slot func : UInt8) (offset : UInt16) : Prop where
  high : offset.toNat % 4 = 0 → bytes.at bus slot func (offset.toNat + 2) = 0 ∧
    bytes.at bus slot func (offset.toNat + 3) = 0
  odd  : offset.toNat % 2 = 1 →
    bytes.at bus slot func offset.toNat = bytes.at bus slot func (offset.toNat - 1)

section agreement
variable {bytes : ConfigBytes} {bus slot func : UInt8} {offset : UInt16}

/-- Two registers, at an even offset. -/
theorem pci_config_read16_even (hslot : slot < 32) (hfunc : func < 8) (hoffset : offset < 256)
    (heven : offset.toNat % 2 = 0) :
    pci_config_read16 bytes.space bus slot func offset =
      ((bytes.at bus slot func (offset.toNat + 1)).toUInt16 <<< 8) |||
        (bytes.at bus slot func offset.toNat).toUInt16 := by
  have hround : offset.toNat / 2 * 2 = offset.toNat := by omega
  apply UInt16.toNat_inj.mp
  rw [toNat_pci_config_read16 _ _ hslot hfunc hoffset, Words.toNat_word16, hround]
  omega

/-- The low half of four registers is all that the third reader returns. -/
theorem toNat_pci_config_read32 (bytes : ConfigBytes) (bus : UInt8) (hslot : slot < 32)
    (hfunc : func < 8) (hoffset : offset < 256) (hfour : offset.toNat % 4 = 0) :
    (pci_config_read32 bytes.space bus slot func offset).toNat =
      (bytes.at bus slot func offset.toNat).toNat
        + 256 * (bytes.at bus slot func (offset.toNat + 1)).toNat := by
  have hround : offset.toNat / 2 * 2 = offset.toNat := by omega
  unfold pci_config_read32
  rw [toNat_pciWord hslot hfunc hoffset, hround]

/-- The two words of four registers, put together. -/
theorem halves_eq (hslot : slot < 32) (hfunc : func < 8) (hoffset : offset < 256)
    (hfour : offset.toNat % 4 = 0) :
    (pci_config_read16 bytes.space bus slot func offset).toUInt32 |||
        ((pci_config_read16 bytes.space bus slot func (offset + 2)).toUInt32 <<< 16) =
      combine32bit (bytes.at bus slot func (offset.toNat + 3))
        (bytes.at bus slot func (offset.toNat + 2)) (bytes.at bus slot func (offset.toNat + 1))
        (bytes.at bus slot func offset.toNat) := by
  have ho : offset.toNat < 256 := UInt16.lt_iff_toNat_lt.mp hoffset
  have hnext : (offset + 2).toNat = offset.toNat + 2 := by
    rw [UInt16.toNat_add]
    exact Nat.mod_eq_of_lt (by show offset.toNat + 2 < 2 ^ 16; omega)
  have hoffset2 : offset + 2 < 256 := by
    apply UInt16.lt_iff_toNat_lt.mpr
    rw [hnext]
    show offset.toNat + 2 < 256
    omega
  have hround : offset.toNat / 2 * 2 = offset.toNat := by omega
  have hround2 : (offset.toNat + 2) / 2 * 2 = offset.toNat + 2 := by omega
  have hlow := toNat_pci_config_read16 bytes bus hslot hfunc hoffset
  have hhigh := toNat_pci_config_read16 bytes bus hslot hfunc hoffset2
  rw [hround] at hlow
  have hodd : offset.toNat + 2 + 1 = offset.toNat + 3 := rfl
  rw [hnext, hround2, hodd] at hhigh
  have hlt := (pci_config_read16 bytes.space bus slot func offset).toNat_lt
  have hlt2 := (pci_config_read16 bytes.space bus slot func (offset + 2)).toNat_lt
  apply UInt32.toNat_inj.mp
  rw [UInt32.toNat_or, Nat.or_comm, UInt32.toNat_shiftLeft, UInt16.toNat_toUInt32,
    UInt16.toNat_toUInt32, Nat.mod_eq_of_lt (a := _ <<< _) (by
      show (pci_config_read16 bytes.space bus slot func (offset + 2)).toNat <<< 16 < 2 ^ 32
      rw [Nat.shiftLeft_eq]
      omega)]
  show _ <<< 16 ||| _ = _
  rw [Words.shiftLeft_or _ hlt, hlow, hhigh, toNat_combine32bit]
  omega

/-- **Main theorem on the readers**: at every offset, they agree exactly when
    nothing is lost there. -/
theorem pci_accessors_agree_iff (bytes : ConfigBytes) (bus : UInt8) {slot func : UInt8}
    {offset : UInt16} (hslot : slot < 32) (hfunc : func < 8) (hoffset : offset < 256) :
    AccessorsAgree bytes bus slot func offset ↔ NothingLost bytes bus slot func offset := by
  have h0 := (bytes.at bus slot func offset.toNat).toNat_lt
  have h1 := (bytes.at bus slot func (offset.toNat + 1)).toNat_lt
  have h32 := toNat_pci_config_read32 bytes bus hslot hfunc hoffset
  have h8 := pci_config_read8_eq bytes bus hslot hfunc hoffset
  constructor
  · intro h
    constructor
    · intro hfour
      have hvalue := congrArg UInt32.toNat (h.read32 hfour)
      rw [h32 hfour, toNat_combine32bit] at hvalue
      constructor
      · exact UInt8.toNat_inj.mp (by show _ = 0; omega)
      · exact UInt8.toNat_inj.mp (by show _ = 0; omega)
    · intro hodd
      have hround : offset.toNat / 2 * 2 = offset.toNat - 1 := by omega
      rw [← h.read8, h8, hround]
  · intro h
    have hall : offset.toNat % 4 = 0 → pci_config_read32 bytes.space bus slot func offset =
        combine32bit (bytes.at bus slot func (offset.toNat + 3))
          (bytes.at bus slot func (offset.toNat + 2)) (bytes.at bus slot func (offset.toNat + 1))
          (bytes.at bus slot func offset.toNat) := by
      intro hfour
      obtain ⟨h2, h3⟩ := h.high hfour
      apply UInt32.toNat_inj.mp
      rw [h32 hfour, toNat_combine32bit, h2, h3]
      show _ = 0 * 2 ^ 24 + 0 * 2 ^ 16 + _ + _
      omega
    refine ⟨hall, ?_, pci_config_read16_even hslot hfunc hoffset, ?_, ?_⟩
    · intro hfour
      rw [hall hfour, halves_eq hslot hfunc hoffset hfour]
    · rw [h8]
      rcases Nat.mod_two_eq_zero_or_one offset.toNat with heven | hodd
      · have hround : offset.toNat / 2 * 2 = offset.toNat := by omega
        rw [hround]
      · have hround : offset.toNat / 2 * 2 = offset.toNat - 1 := by omega
        rw [hround, h.odd hodd]
    · intro bus' slot' func' offset' hslot' hfunc' hoffset' heq
      exact pciAddress_inj hslot hfunc hslot' hfunc' hoffset hoffset' heq

end agreement

/-- Registers whose bytes are their offsets. -/
def countingRegisters : ConfigBytes := fun _ _ _ offset => UInt8.ofNat offset

/-- The four registers of `BAR4`, and the second byte of the vendor id. -/
theorem pci_accessors_disagree :
    ¬ AccessorsAgree countingRegisters 0 1 2 PCI_CONFIG_BAR4_OFFSET ∧
      ¬ AccessorsAgree countingRegisters 0 1 2 1 := by
  constructor
  · intro h
    exact absurd (h.read32 (by decide)) (by decide)
  · intro h
    exact absurd h.read8 (by decide)

/-- The registers of a host controller whose `BAR4` is the port 0xC040. -/
def portRegisters : ConfigBytes := fun _ _ _ offset =>
  if offset = 0x20 then 0x41 else if offset = 0x21 then 0xC0 else 0

/-- A port has 16 bits, so its double word is read as it is; its second byte is not. -/
theorem pci_accessors_agree_port :
    AccessorsAgree portRegisters 0 1 2 PCI_CONFIG_BAR4_OFFSET ∧
      ¬ AccessorsAgree portRegisters 0 1 2 (PCI_CONFIG_BAR4_OFFSET + 1) := by
  constructor
  · apply (pci_accessors_agree_iff portRegisters 0 (by decide) (by decide) (by decide)).mpr
    exact ⟨fun _ => ⟨rfl, rfl⟩, fun h => absurd h (by decide)⟩
  · intro h
    have hlost := (pci_accessors_agree_iff portRegisters 0 (by decide) (by decide) (by decide)).mp h
    exact absurd (hlost.odd (by decide)) (by decide)

end ArgaldOS
