import ArgaldOS.Pci.Accessors
import ArgaldOS.Pci.Enumeration

/-! # Finding a PCI device

    `find_pci_device` goes through the functions of all slots of all buses until
    one has the class, subclass and programming interface that are asked for,
    and fills a structure of the caller.  One field of it is written before the
    test.

    * `find_pci_device_eq`: the three loops are one loop over all functions, in
      lexicographic order (`pciLocations_sorted`);
    * `find_pci_device_found`, `find_pci_device_not_found`: what the structure
      holds afterwards;
    * `find_pci_device_fills_iff`: when that is what it should hold.
-/

namespace ArgaldOS

open Loops

/-! ## Section 1: The search -/

/-- `pci_device`. -/
structure PciDevice where
  bus                 : UInt8
  slot                : UInt8
  vendor_id           : UInt16
  device_id           : UInt16
  device_class        : UInt16
  subclass            : UInt16
  subsystem_vendor_id : UInt16
  subsystem_id        : UInt16
  progIF              : UInt16
  bar0                : UInt32
  bar1                : UInt32
  bar2                : UInt32
  bar3                : UInt32
  bar4                : UInt32
  bar5                : UInt32
deriving DecidableEq, Repr

/-- A function of a slot of a bus. -/
structure PciLocation where
  bus  : UInt8
  slot : UInt8
  func : UInt8
deriving DecidableEq, Repr

/-- The class, subclass and programming interface that are asked for. -/
structure PciTriple where
  device_class : UInt16
  subclass     : UInt16
  function     : UInt16
deriving DecidableEq, Repr

/-- The body of the loops of `find_pci_device`, and whether it returns. -/
def findPciBody (space : ConfigSpace) (triple : PciTriple) (l : PciLocation)
    (device : PciDevice) : Bool × PciDevice :=
  let read16 := pci_config_read16 space l.bus l.slot l.func
  let read32 := pci_config_read32 space l.bus l.slot l.func
  let vendor_id := read16 PCI_CONFIG_VENDOR_ID_OFFSET
  if vendor_id ≠ 0xffff then
    -- The device id goes to the caller before the function has been looked at.
    let device := { device with device_id := read16 PCI_CONFIG_DEVICE_ID_OFFSET }
    let device_class_subclass := read16 PCI_CONFIG_DEVICE_CLASS_OFFSET
    let device_function := read16 0x08 >>> 8
    let device_class := device_class_subclass >>> 8
    let device_subclass := device_class_subclass &&& 0xff
    if device_class = triple.device_class ∧ device_subclass = triple.subclass ∧
        device_function = triple.function then
      (true, { device with
        bus := l.bus, slot := l.slot, vendor_id, device_class
        subclass := device_subclass
        subsystem_vendor_id := read16 PCI_CONFIG_SUBSYSTEM_VENDOR_ID_OFFSET
        subsystem_id := read16 PCI_CONFIG_SUBSYSTEM_ID_OFFSET
        -- The number of the function, not its programming interface.
        progIF := l.func.toUInt16
        bar0 := read32 PCI_CONFIG_BAR0_OFFSET
        bar1 := read32 PCI_CONFIG_BAR1_OFFSET
        bar2 := read32 PCI_CONFIG_BAR2_OFFSET
        bar3 := read32 PCI_CONFIG_BAR3_OFFSET
        bar4 := read32 PCI_CONFIG_BAR4_OFFSET &&& 0xFFFFFFC
        bar5 := read32 PCI_CONFIG_BAR5_OFFSET })
    else (false, device)
  else (false, device)

/-- `find_pci_device`: the structure of the caller afterwards. -/
def find_pci_device (space : ConfigSpace) (triple : PciTriple) (device : PciDevice) : PciDevice :=
  (untilReturn (fun bus =>
    untilReturn (fun slot =>
      untilReturn (fun func => findPciBody space triple ⟨bus, slot, func⟩)
        ((List.range 8).map UInt8.ofNat))
      ((List.range 32).map UInt8.ofNat))
    ((List.range 256).map UInt8.ofNat) device).2

/-! ## Section 2: The order of the search -/

/-- The functions of a slot. -/
def pciFunctions : List UInt8 := (List.range 8).map UInt8.ofNat

/-- The functions that can be there. -/
def PciLocation.Valid (l : PciLocation) : Prop := l.slot < 32 ∧ l.func < 8

/-- The lexicographic order of bus, slot and function. -/
def PciLocation.Before (l l' : PciLocation) : Prop :=
  l.bus < l'.bus ∨ (l.bus = l'.bus ∧ (l.slot < l'.slot ∨ (l.slot = l'.slot ∧ l.func < l'.func)))

/-- All functions, in the order of the three loops. -/
def pciLocations : List PciLocation :=
  pciBuses.flatMap fun bus => pciSlots.flatMap fun slot =>
    pciFunctions.map fun func => ⟨bus, slot, func⟩

theorem mem_pciFunctions {func : UInt8} : func ∈ pciFunctions ↔ func < 8 := by
  unfold pciFunctions
  rw [mem_map_ofNat (by omega), UInt8.lt_iff_toNat_lt]
  rfl

theorem mem_pciLocations {l : PciLocation} : l ∈ pciLocations ↔ l.Valid := by
  unfold pciLocations PciLocation.Valid
  constructor
  · intro h
    obtain ⟨bus, -, h⟩ := List.mem_flatMap.mp h
    obtain ⟨slot, hslot, h⟩ := List.mem_flatMap.mp h
    obtain ⟨func, hfunc, rfl⟩ := List.mem_map.mp h
    exact ⟨mem_pciSlots.mp hslot, mem_pciFunctions.mp hfunc⟩
  · intro h
    apply List.mem_flatMap.mpr
    refine ⟨l.bus, mem_pciBuses l.bus, List.mem_flatMap.mpr ⟨l.slot, mem_pciSlots.mpr h.1, ?_⟩⟩
    exact List.mem_map.mpr ⟨l.func, mem_pciFunctions.mpr h.2, rfl⟩

/-- A loop variable of type `int` counts up as a byte, too. -/
theorem sorted_map_ofNat {n : Nat} (hn : n ≤ 256) :
    ((List.range n).map UInt8.ofNat).Pairwise (· < ·) := by
  apply List.pairwise_map.mpr
  apply List.Pairwise.imp_of_mem _ List.pairwise_lt_range
  intro i j hi hj hlt
  have hi := List.mem_range.mp hi
  have hj := List.mem_range.mp hj
  rw [UInt8.lt_iff_toNat_lt, UInt8.toNat_ofNat', UInt8.toNat_ofNat', Nat.mod_eq_of_lt (by omega),
    Nat.mod_eq_of_lt (by omega)]
  exact hlt

/-- **The loops go through the functions in lexicographic order.** -/
theorem pciLocations_sorted : pciLocations.Pairwise PciLocation.Before := by
  apply List.pairwise_flatMap.mpr
  constructor
  · intro bus _
    apply List.pairwise_flatMap.mpr
    constructor
    · intro slot _
      apply List.pairwise_map.mpr
      apply List.Pairwise.imp _ (sorted_map_ofNat (n := 8) (by omega))
      intro func func' hlt
      exact Or.inr ⟨rfl, Or.inr ⟨rfl, hlt⟩⟩
    · apply List.Pairwise.imp _ (sorted_map_ofNat (n := 32) (by omega))
      intro slot slot' hlt l hl l' hl'
      obtain ⟨func, -, rfl⟩ := List.mem_map.mp hl
      obtain ⟨func', -, rfl⟩ := List.mem_map.mp hl'
      exact Or.inr ⟨rfl, Or.inl hlt⟩
  · apply List.Pairwise.imp _ (sorted_map_ofNat (n := 256) (by omega))
    intro bus bus' hlt l hl l' hl'
    obtain ⟨slot, -, hl⟩ := List.mem_flatMap.mp hl
    obtain ⟨func, -, rfl⟩ := List.mem_map.mp hl
    obtain ⟨slot', -, hl'⟩ := List.mem_flatMap.mp hl'
    obtain ⟨func', -, rfl⟩ := List.mem_map.mp hl'
    exact Or.inl hlt

theorem PciLocation.Before.asymm {l l' : PciLocation} (h : l.Before l') : ¬ l'.Before l := by
  unfold PciLocation.Before at *
  simp only [UInt8.lt_iff_toNat_lt, ← UInt8.toNat_inj] at *
  omega

/-- The three loops are one loop. -/
theorem find_pci_device_eq (space : ConfigSpace) (triple : PciTriple) (device : PciDevice) :
    find_pci_device space triple device =
      (untilReturn (findPciBody space triple) pciLocations device).2 := by
  have hslot : ∀ bus slot, untilReturn (fun func => findPciBody space triple ⟨bus, slot, func⟩)
      ((List.range 8).map UInt8.ofNat) =
        untilReturn (findPciBody space triple)
          (pciFunctions.map fun func => ⟨bus, slot, func⟩) :=
    fun bus slot => funext fun d =>
      untilReturn_map (fun func => (⟨bus, slot, func⟩ : PciLocation)) pciFunctions d
  have hbus : ∀ bus, untilReturn (fun slot => untilReturn (findPciBody space triple)
      (pciFunctions.map fun func => ⟨bus, slot, func⟩)) ((List.range 32).map UInt8.ofNat) =
        untilReturn (findPciBody space triple)
          (pciSlots.flatMap fun slot => pciFunctions.map fun func => ⟨bus, slot, func⟩) :=
    fun bus => funext fun d => untilReturn_flatMap _ pciSlots d
  unfold find_pci_device pciLocations
  simp only [hslot, hbus]
  exact congrArg Prod.snd (untilReturn_flatMap _ pciBuses device)

/-! ## Section 3: What is found -/

section found
variable (space : ConfigSpace) (triple : PciTriple) (l : PciLocation)

/-- A function that answers. -/
def PciLocation.Present : Prop := l.Valid ∧ FunctionPresent space l.bus l.slot l.func

/-- The device id of a function. -/
def PciLocation.deviceId : UInt16 :=
  pci_config_read16 space l.bus l.slot l.func PCI_CONFIG_DEVICE_ID_OFFSET

/-- The class, subclass and programming interface of a function. -/
def PciLocation.kind : PciTriple where
  device_class := pci_config_read16 space l.bus l.slot l.func PCI_CONFIG_DEVICE_CLASS_OFFSET >>> 8
  subclass     :=
    pci_config_read16 space l.bus l.slot l.func PCI_CONFIG_DEVICE_CLASS_OFFSET &&& 0xff
  function     := pci_config_read16 space l.bus l.slot l.func 0x08 >>> 8

/-- A function that is asked for. -/
def PciLocation.Matches : Prop := l.Present space ∧ l.kind space = triple

/-- The first function that is asked for. -/
def FirstMatch : Prop :=
  l.Matches space triple ∧ ∀ l' : PciLocation, l'.Matches space triple → l' = l ∨ l.Before l'

/-- The last function that answers. -/
def LastPresent : Prop :=
  l.Present space ∧ ∀ l' : PciLocation, l'.Present space → l' = l ∨ l'.Before l

/-- The ids in the structure are those of the function `l`. -/
structure FilledFrom (device : PciDevice) : Prop where
  bus                 : device.bus = l.bus
  slot                : device.slot = l.slot
  vendor_id           : device.vendor_id =
    pci_config_read16 space l.bus l.slot l.func PCI_CONFIG_VENDOR_ID_OFFSET
  device_id           : device.device_id = l.deviceId space
  device_class        : device.device_class = (l.kind space).device_class
  subclass            : device.subclass = (l.kind space).subclass
  subsystem_vendor_id : device.subsystem_vendor_id =
    pci_config_read16 space l.bus l.slot l.func PCI_CONFIG_SUBSYSTEM_VENDOR_ID_OFFSET
  subsystem_id        : device.subsystem_id =
    pci_config_read16 space l.bus l.slot l.func PCI_CONFIG_SUBSYSTEM_ID_OFFSET

/-- **What the search is for**: the ids of the first function that is asked for,
    or the structure as it was. -/
structure FindsDevice (before after : PciDevice) : Prop where
  found    : (∃ l : PciLocation, l.Matches space triple) →
    ∃ l, FirstMatch space triple l ∧ FilledFrom space l after
  notFound : (∀ l : PciLocation, ¬ l.Matches space triple) → after = before

end found

section search
variable {space : ConfigSpace} {triple : PciTriple} {l : PciLocation} {device : PciDevice}

/-- What the body leaves of the structure if it does not return. -/
def afterMiss (space : ConfigSpace) (l : PciLocation) (device : PciDevice) : PciDevice :=
  if FunctionPresent space l.bus l.slot l.func then
    { device with device_id := l.deviceId space }
  else device

/-- A function that is not asked for. -/
theorem findPciBody_miss (hvalid : l.Valid) (h : ¬ l.Matches space triple) (device : PciDevice) :
    findPciBody space triple l device = (false, afterMiss space l device) := by
  unfold findPciBody afterMiss
  by_cases hpresent : FunctionPresent space l.bus l.slot l.func
  · rw [if_pos hpresent]
    apply (if_pos hpresent).trans
    apply if_neg
    rintro ⟨hclass, hsubclass, hfunction⟩
    apply h ⟨⟨hvalid, hpresent⟩, ?_⟩
    unfold PciLocation.kind
    rw [hclass, hsubclass, hfunction]
  · rw [if_neg hpresent]
    exact if_neg hpresent

/-- The structure for the function `l`. -/
def deviceAt (space : ConfigSpace) (l : PciLocation) : PciDevice where
  bus                 := l.bus
  slot                := l.slot
  vendor_id           := pci_config_read16 space l.bus l.slot l.func PCI_CONFIG_VENDOR_ID_OFFSET
  device_id           := l.deviceId space
  device_class        := (l.kind space).device_class
  subclass            := (l.kind space).subclass
  subsystem_vendor_id :=
    pci_config_read16 space l.bus l.slot l.func PCI_CONFIG_SUBSYSTEM_VENDOR_ID_OFFSET
  subsystem_id        := pci_config_read16 space l.bus l.slot l.func PCI_CONFIG_SUBSYSTEM_ID_OFFSET
  progIF              := l.func.toUInt16
  bar0                := pci_config_read32 space l.bus l.slot l.func PCI_CONFIG_BAR0_OFFSET
  bar1                := pci_config_read32 space l.bus l.slot l.func PCI_CONFIG_BAR1_OFFSET
  bar2                := pci_config_read32 space l.bus l.slot l.func PCI_CONFIG_BAR2_OFFSET
  bar3                := pci_config_read32 space l.bus l.slot l.func PCI_CONFIG_BAR3_OFFSET
  bar4                :=
    pci_config_read32 space l.bus l.slot l.func PCI_CONFIG_BAR4_OFFSET &&& 0xFFFFFFC
  bar5                := pci_config_read32 space l.bus l.slot l.func PCI_CONFIG_BAR5_OFFSET

theorem deviceAt_filled : FilledFrom space l (deviceAt space l) := by
  constructor <;> rfl

/-- The body at a function that is asked for: every field is replaced. -/
theorem findPciBody_hit (h : l.Matches space triple) (device : PciDevice) :
    findPciBody space triple l device = (true, deviceAt space l) := by
  obtain ⟨⟨-, hpresent⟩, rfl⟩ := h
  exact (if_pos hpresent).trans (if_pos ⟨rfl, rfl, rfl⟩)

/-- A search that finds something fills the structure from the first function
    that is asked for. -/
theorem find_pci_device_found (h : FirstMatch space triple l) :
    FilledFrom space l (find_pci_device space triple device) := by
  obtain ⟨hmatch, hfirst⟩ := h
  obtain ⟨pre, post, hsplit⟩ := List.append_of_mem (mem_pciLocations.mpr hmatch.1.1)
  have hsorted := pciLocations_sorted
  rw [hsplit] at hsorted
  have hpre : ∀ b ∈ pre, ∀ d, findPciBody space triple b d = (false, afterMiss space b d) := by
    intro b hb
    have hbefore : b.Before l :=
      (List.pairwise_append.mp hsorted).2.2 b hb l List.mem_cons_self
    have hvalid : b.Valid :=
      mem_pciLocations.mp (by rw [hsplit]; exact List.mem_append_left _ hb)
    apply findPciBody_miss hvalid
    intro hb'
    rcases hfirst b hb' with rfl | hafter
    · exact hbefore.asymm hbefore
    · exact hbefore.asymm hafter
  rw [find_pci_device_eq, hsplit, untilReturn_of_first hpre (findPciBody_hit hmatch)]
  exact deviceAt_filled

/-- The device id in the structure after functions none of which is asked for. -/
def lastDeviceId (space : ConfigSpace) (ls : List PciLocation) (before : UInt16) : UInt16 :=
  ls.foldl (fun id l =>
    if FunctionPresent space l.bus l.slot l.func then l.deviceId space else id) before

theorem foldl_afterMiss (ls : List PciLocation) (device : PciDevice) :
    ls.foldl (fun d l => afterMiss space l d) device =
      { device with device_id := lastDeviceId space ls device.device_id } := by
  induction ls generalizing device with
  | nil => rfl
  | cons l ls ih =>
    unfold lastDeviceId at ih ⊢
    rw [List.foldl_cons, List.foldl_cons, ih]
    unfold afterMiss
    split <;> rfl

/-- Functions that do not answer leave it alone. -/
theorem lastDeviceId_of_absent {ls : List PciLocation}
    (h : ∀ l ∈ ls, ¬ FunctionPresent space l.bus l.slot l.func) (before : UInt16) :
    lastDeviceId space ls before = before := by
  induction ls with
  | nil => rfl
  | cons l ls ih =>
    unfold lastDeviceId at ih ⊢
    rw [List.foldl_cons, if_neg (h l List.mem_cons_self)]
    exact ih fun l' hl' => h l' (List.mem_cons_of_mem l hl')

/-- Along a sorted list, the last function that answers decides. -/
theorem lastDeviceId_of_last {ls : List PciLocation} (hsorted : ls.Pairwise PciLocation.Before)
    (hl : l ∈ ls) (hpresent : FunctionPresent space l.bus l.slot l.func)
    (hlast : ∀ l' ∈ ls, FunctionPresent space l'.bus l'.slot l'.func → l' = l ∨ l'.Before l)
    (before : UInt16) : lastDeviceId space ls before = l.deviceId space := by
  induction ls generalizing before with
  | nil => cases hl
  | cons a ls ih =>
    obtain ⟨hafter, hsorted⟩ := List.pairwise_cons.mp hsorted
    rcases List.mem_cons.mp hl with rfl | hmem
    · -- Nothing behind `l` answers.
      have hnone : ∀ b ∈ ls, ¬ FunctionPresent space b.bus b.slot b.func := by
        intro b hb hpresent'
        rcases hlast b (List.mem_cons_of_mem l hb) hpresent' with rfl | hbefore
        · exact (hafter b hb).asymm (hafter b hb)
        · exact (hafter b hb).asymm hbefore
      have hrest := lastDeviceId_of_absent hnone (l.deviceId space)
      unfold lastDeviceId at hrest ⊢
      rw [List.foldl_cons, if_pos hpresent, hrest]
    · exact ih hsorted hmem (fun l' hl' => hlast l' (List.mem_cons_of_mem a hl')) _

/-- A search that finds nothing leaves the last device id behind. -/
theorem find_pci_device_not_found (h : ∀ l : PciLocation, ¬ l.Matches space triple) :
    find_pci_device space triple device =
      { device with device_id := lastDeviceId space pciLocations device.device_id } := by
  have hmiss : ∀ l ∈ pciLocations, ∀ d, findPciBody space triple l d =
      (false, afterMiss space l d) :=
    fun l hl => findPciBody_miss (mem_pciLocations.mp hl) (h l)
  rw [find_pci_device_eq, untilReturn_of_false hmiss, foldl_afterMiss]

/-! ## Section 4: First and last functions -/

/-- A sorted list has a first element with a property, if it has one at all. -/
theorem exists_first {α : Type} {before : α → α → Prop} {ls : List α}
    (hsorted : ls.Pairwise before) (p : α → Prop) (h : ∃ l ∈ ls, p l) :
    ∃ l ∈ ls, p l ∧ ∀ l' ∈ ls, p l' → l' = l ∨ before l l' := by
  induction ls with
  | nil =>
    obtain ⟨l, hl, -⟩ := h
    cases hl
  | cons a ls ih =>
    obtain ⟨hafter, hsorted⟩ := List.pairwise_cons.mp hsorted
    by_cases ha : p a
    · refine ⟨a, List.mem_cons_self, ha, ?_⟩
      intro l' hl' _
      rcases List.mem_cons.mp hl' with rfl | hmem
      · exact Or.inl rfl
      · exact Or.inr (hafter l' hmem)
    · obtain ⟨l, hl, hpl⟩ := h
      have hmem : l ∈ ls := by
        rcases List.mem_cons.mp hl with rfl | hmem
        · exact absurd hpl ha
        · exact hmem
      obtain ⟨m, hm, hpm, hfirst⟩ := ih hsorted ⟨l, hmem, hpl⟩
      refine ⟨m, List.mem_cons_of_mem a hm, hpm, ?_⟩
      intro l' hl' hpl'
      rcases List.mem_cons.mp hl' with rfl | hmem'
      · exact absurd hpl' ha
      · exact hfirst l' hmem' hpl'

/-- Where something is asked for, something is asked for first. -/
theorem exists_firstMatch (h : ∃ l : PciLocation, l.Matches space triple) :
    ∃ l, FirstMatch space triple l := by
  obtain ⟨l, hl⟩ := h
  obtain ⟨m, -, hm, hfirst⟩ := exists_first pciLocations_sorted
    (fun l => l.Matches space triple) ⟨l, mem_pciLocations.mpr hl.1.1, hl⟩
  exact ⟨m, hm, fun l' hl' => hfirst l' (mem_pciLocations.mpr hl'.1.1) hl'⟩

/-- The device id that is left behind. -/
theorem lastDeviceId_pciLocations (hlast : LastPresent space l) (before : UInt16) :
    lastDeviceId space pciLocations before = l.deviceId space :=
  lastDeviceId_of_last pciLocations_sorted (mem_pciLocations.mpr hlast.1.1) hlast.1.2
    (fun l' hl' hpresent => hlast.2 l' ⟨mem_pciLocations.mp hl', hpresent⟩) before

/-- Where something answers, something answers last. -/
theorem exists_lastPresent (h : ∃ l : PciLocation, l.Present space) :
    ∃ l, LastPresent space l := by
  obtain ⟨l, hl⟩ := h
  have hmem : ∀ l, l ∈ pciLocations.reverse ↔ l.Valid :=
    fun l => List.mem_reverse.trans mem_pciLocations
  obtain ⟨m, -, hm, hlast⟩ := exists_first (List.pairwise_reverse.mpr pciLocations_sorted)
    (fun l => l.Present space) ⟨l, (hmem l).mpr hl.1, hl⟩
  exact ⟨m, hm, fun l' hl' => hlast l' ((hmem l').mpr hl'.1) hl'⟩

/-- **Main theorem on the search**: the structure holds what it should exactly
    when a function is asked for that answers, or when the last function that
    answers has the device id that was in the structure before. -/
theorem find_pci_device_fills_iff (space : ConfigSpace) (triple : PciTriple)
    (device : PciDevice) :
    FindsDevice space triple device (find_pci_device space triple device) ↔
      (∃ l : PciLocation, l.Matches space triple) ∨
        ∀ l, LastPresent space l → l.deviceId space = device.device_id := by
  constructor
  · intro h
    by_cases hmatch : ∃ l : PciLocation, l.Matches space triple
    · exact Or.inl hmatch
    · refine Or.inr fun l hlast => ?_
      have hnone : ∀ l : PciLocation, ¬ l.Matches space triple := fun l hl => hmatch ⟨l, hl⟩
      have hsame := h.notFound hnone
      rw [find_pci_device_not_found hnone, lastDeviceId_pciLocations hlast] at hsame
      exact congrArg PciDevice.device_id hsame
  · intro h
    refine ⟨fun hmatch => ?_, fun hnone => ?_⟩
    · obtain ⟨l, hfirst⟩ := exists_firstMatch hmatch
      exact ⟨l, hfirst, find_pci_device_found hfirst⟩
    · rw [find_pci_device_not_found hnone]
      rcases h with ⟨l, hl⟩ | hlast
      · exact absurd hl (hnone l)
      · by_cases hpresent : ∃ l : PciLocation, l.Present space
        · obtain ⟨l, hl⟩ := exists_lastPresent hpresent
          rw [lastDeviceId_pciLocations hl, hlast l hl]
        · rw [lastDeviceId_of_absent]
          intro l hl hpresent'
          exact hpresent ⟨l, mem_pciLocations.mp hl, hpresent'⟩

end search

/-- A machine whose only device is a host bridge. -/
def hostBridge : ConfigBytes := fun bus slot func offset =>
  if bus = 0 ∧ slot = 0 ∧ func = 0 then
    [0x86, 0x80, 0x37, 0x12, 0x00, 0x00, 0x00, 0x00, 0x02, 0x00, 0x00, 0x06].getD offset 0
  else 0xff

theorem hostBridge_present (l : PciLocation) (h : l.Present hostBridge.space) :
    l = ⟨0, 0, 0⟩ := by
  obtain ⟨⟨hslot, hfunc⟩, hpresent⟩ := h
  by_contra hne
  have hother : ¬ (l.bus.toNat = 0 ∧ l.slot.toNat = 0 ∧ l.func.toNat = 0) := by
    rintro ⟨hbus, hslot, hfunc⟩
    apply hne
    obtain ⟨bus, slot, func⟩ := l
    exact (PciLocation.mk.injEq ..).mpr
      ⟨UInt8.toNat_inj.mp hbus, UInt8.toNat_inj.mp hslot, UInt8.toNat_inj.mp hfunc⟩
  have hoffset : PCI_CONFIG_VENDOR_ID_OFFSET < 256 := by decide
  have hread := toNat_pci_config_read16 hostBridge l.bus hslot hfunc hoffset
  unfold ConfigBytes.at hostBridge at hread
  rw [if_neg hother, if_neg hother] at hread
  exact hpresent (UInt16.toNat_inj.mp hread)

/-- Looking for a USB controller there leaves the bridge's device id behind. -/
theorem find_pci_device_mixes :
    ¬ FindsDevice hostBridge.space ⟨0x0c, 0x03, 0x00⟩ ⟨0, 0, 0, 0, 0, 0, 0, 0, 0, 0, 0, 0, 0, 0, 0⟩
      (find_pci_device hostBridge.space ⟨0x0c, 0x03, 0x00⟩
        ⟨0, 0, 0, 0, 0, 0, 0, 0, 0, 0, 0, 0, 0, 0, 0⟩) := by
  intro h
  have hnone : ∀ l : PciLocation, ¬ l.Matches hostBridge.space ⟨0x0c, 0x03, 0x00⟩ := by
    rintro l ⟨hpresent, hkind⟩
    rw [hostBridge_present l hpresent] at hkind
    exact absurd hkind (by decide)
  have hlast : LastPresent hostBridge.space ⟨0, 0, 0⟩ := by
    constructor
    · exact ⟨⟨by decide, by decide⟩, by decide⟩
    · exact fun l hl => Or.inl (hostBridge_present l hl)
  have hsame := congrArg PciDevice.device_id (h.notFound hnone)
  rw [find_pci_device_not_found hnone, lastDeviceId_pciLocations hlast] at hsame
  exact absurd hsame (by decide)

end ArgaldOS
