import ArgaldOS.Pci.Model
import Mathlib.Data.List.Nodup

/-! # What PCI enumeration reports

    Every slot whose function 0 answers should be reported once, with the other
    functions of a multi-function device.

    * `slotReports`: the reports of a slot whose calls return;
    * `pci_enumeration_eq`, `pci_enumeration_eq_none`: the configuration spaces
      on which the enumeration returns, and what it reports;
    * `enumeratesAll_iff`: the configuration spaces that it enumerates as it
      should.
-/

namespace ArgaldOS

open Loops

/-! ## Section 1: Functions -/

section functions
variable (space : ConfigSpace) (bus slot func : UInt8)

/-- A function is there if its vendor id reads as something. -/
def FunctionPresent : Prop :=
  pci_config_read16 space bus slot func PCI_CONFIG_VENDOR_ID_OFFSET ≠ 0xffff

/-- The word at `PCI_CONFIG_HEADER_TYPE_OFFSET`: the header type in the low
    byte, the built-in self test in the high byte. -/
def headerWord : UInt16 := pci_config_read16 space bus slot func PCI_CONFIG_HEADER_TYPE_OFFSET

/-- Bit 7 of the header type. -/
def MultiFunction : Prop := headerWord space bus slot func &&& 0x80 ≠ 0

/-- The code's own test: the whole word is `0x0080`. -/
def LooksMultiFunction : Prop :=
  FunctionPresent space bus slot func ∧ headerWord space bus slot func = 0x0080

instance : Decidable (FunctionPresent space bus slot func) :=
  inferInstanceAs (Decidable (_ ≠ _))

instance : Decidable (MultiFunction space bus slot func) :=
  inferInstanceAs (Decidable (_ ≠ _))

instance : Decidable (LooksMultiFunction space bus slot func) :=
  inferInstanceAs (Decidable (_ ∧ _))

end functions

/-- The functions other than 0, in the order in which they are visited. -/
def otherFunctions : List UInt8 := [1, 2, 3, 4, 5, 6, 7]

theorem otherFunctions_ne_zero : ∀ func ∈ otherFunctions, func ≠ 0 := by
  intro func hfunc hzero
  have hall : (otherFunctions.all fun func => func != 0) = true := by decide
  have hne := List.all_eq_true.mp hall func hfunc
  rw [hzero] at hne
  cases hne

/-- All slots of a bus. -/
def pciSlots : List UInt8 := (List.range 32).map UInt8.ofNat

/-- All buses. -/
def pciBuses : List UInt8 := (List.range 256).map UInt8.ofNat

theorem mem_map_ofNat {n : Nat} (hn : n ≤ 256) {b : UInt8} :
    b ∈ (List.range n).map UInt8.ofNat ↔ b.toNat < n := by
  rw [List.mem_map]
  constructor
  · intro h
    obtain ⟨i, hi, rfl⟩ := h
    have hi := List.mem_range.mp hi
    rwa [UInt8.toNat_ofNat', Nat.mod_eq_of_lt (by omega)]
  · intro h
    exact ⟨b.toNat, List.mem_range.mpr h, UInt8.ofNat_toNat⟩

theorem mem_pciSlots {slot : UInt8} : slot ∈ pciSlots ↔ slot < 32 := by
  unfold pciSlots
  rw [mem_map_ofNat (by omega), UInt8.lt_iff_toNat_lt]
  rfl

theorem mem_pciBuses (bus : UInt8) : bus ∈ pciBuses :=
  List.mem_map.mpr ⟨bus.toNat, List.mem_range.mpr bus.toNat_lt, UInt8.ofNat_toNat⟩

theorem nodup_map_ofNat {n : Nat} (hn : n ≤ 256) : ((List.range n).map UInt8.ofNat).Nodup := by
  apply List.Nodup.map_on _ List.nodup_range
  intro i hi j hj h
  have hi := List.mem_range.mp hi
  have hj := List.mem_range.mp hj
  have h := congrArg UInt8.toNat h
  rwa [UInt8.toNat_ofNat', UInt8.toNat_ofNat', Nat.mod_eq_of_lt (by omega),
    Nat.mod_eq_of_lt (by omega)] at h

/-! ## Section 2: One slot -/

section slot
variable (space : ConfigSpace) (bus slot : UInt8)

theorem get_pci_device_config_succ (func : UInt8) (parent : Bool) (fuel : Nat) :
    get_pci_device_config space (fuel + 1) bus slot func parent =
      if FunctionPresent space bus slot func then
        if headerWord space bus slot func = 0x0080 then
          (collect (fun i => get_pci_device_config space fuel bus slot i false) otherFunctions).map
            (pciReport space bus slot func parent :: ·)
        else some [pciReport space bus slot func parent]
      else some [] := rfl

/-- A call on a function that is absent, or that does not look like a
    multi-function device, reports that function at most. -/
theorem get_pci_device_config_leaf {func : UInt8} (parent : Bool) (fuel : Nat)
    (h : ¬ LooksMultiFunction space bus slot func) :
    get_pci_device_config space (fuel + 1) bus slot func parent =
      some (if FunctionPresent space bus slot func then [pciReport space bus slot func parent]
        else []) := by
  rw [get_pci_device_config_succ]
  by_cases hp : FunctionPresent space bus slot func
  · rw [if_pos hp, if_pos hp, if_neg fun hword => h ⟨hp, hword⟩]
  · rw [if_neg hp, if_neg hp]

/-- A call on a multi-function device goes on to the other functions. -/
theorem get_pci_device_config_parent {func : UInt8} (parent : Bool) (fuel : Nat)
    (h : LooksMultiFunction space bus slot func) :
    get_pci_device_config space (fuel + 1) bus slot func parent =
      (collect (fun i => get_pci_device_config space fuel bus slot i false) otherFunctions).map
        (pciReport space bus slot func parent :: ·) := by
  rw [get_pci_device_config_succ, if_pos h.1, if_pos h.2]

/-- **A function among 1 to 7 that looks like a multi-function device calls
    itself**: no depth is enough. -/
theorem get_pci_device_config_self {func : UInt8} (hfunc : func ∈ otherFunctions)
    (h : LooksMultiFunction space bus slot func) (fuel : Nat) (parent : Bool) :
    get_pci_device_config space fuel bus slot func parent = none := by
  induction fuel generalizing parent with
  | zero => rfl
  | succ fuel ih =>
    rw [get_pci_device_config_parent space bus slot parent fuel h, collect_eq_none hfunc (ih false)]
    rfl

/-- More depth than the calls need changes nothing. -/
theorem get_pci_device_config_mono {fuel : Nat} {func : UInt8} {parent : Bool}
    {reports : List PciReport}
    (h : get_pci_device_config space fuel bus slot func parent = some reports) :
    get_pci_device_config space (fuel + 1) bus slot func parent = some reports := by
  induction fuel generalizing func parent reports with
  | zero => cases h
  | succ fuel ih =>
    rw [get_pci_device_config_succ] at h ⊢
    by_cases hp : FunctionPresent space bus slot func
    · rw [if_pos hp] at h ⊢
      -- Only here are there calls below, and each of them keeps its result.
      by_cases hword : headerWord space bus slot func = 0x0080
      · rw [if_pos hword] at h ⊢
        obtain ⟨others, hothers, rfl⟩ := Option.map_eq_some_iff.mp h
        rw [collect_mono (fun i _ out hout => ih hout) hothers]
        rfl
      · rwa [if_neg hword] at h ⊢
    · rwa [if_neg hp] at h ⊢

/-- The calls on a slot come to an end: below a function 0 that looks like a
    multi-function device no function does. -/
def SlotReturns : Prop :=
  LooksMultiFunction space bus slot 0 →
    ∀ func ∈ otherFunctions, ¬ LooksMultiFunction space bus slot func

instance : Decidable (SlotReturns space bus slot) :=
  inferInstanceAs (Decidable (_ → _))

/-- The functions of a slot that are reported. -/
def slotFunctions : List UInt8 :=
  (if FunctionPresent space bus slot 0 then [0] else []) ++
    if LooksMultiFunction space bus slot 0 then
      otherFunctions.filter (FunctionPresent space bus slot ·)
    else []

/-- The reports of a slot.  Function 0 is the parent of the others. -/
def slotReports : List PciReport :=
  (slotFunctions space bus slot).map fun func => pciReport space bus slot func (func = 0)

/-- The other functions' reports, one call after the other. -/
theorem flatMap_leaf (funcs : List UInt8) (h : ∀ func ∈ funcs, func ≠ 0) :
    (funcs.flatMap fun func =>
      if FunctionPresent space bus slot func then [pciReport space bus slot func false] else []) =
    (funcs.filter (FunctionPresent space bus slot ·)).map fun func =>
      pciReport space bus slot func (func = 0) := by
  induction funcs with
  | nil => rfl
  | cons func funcs ih =>
    have hne : func ≠ 0 := h func List.mem_cons_self
    have hrest := ih fun f hf => h f (List.mem_cons_of_mem _ hf)
    rw [List.flatMap_cons, hrest]
    by_cases hp : FunctionPresent space bus slot func
    · rw [if_pos hp, List.filter_cons_of_pos (by simpa using hp)]
      simp [hne]
    · rw [if_neg hp, List.filter_cons_of_neg (by simpa using hp)]
      rfl

/-- **A slot whose calls end** is reported from depth 2 on. -/
theorem enumerate_pci_slot_eq (h : SlotReturns space bus slot) (fuel : Nat) :
    enumerate_pci_slot space (fuel + 2) bus slot = some (slotReports space bus slot) := by
  unfold enumerate_pci_slot slotReports slotFunctions
  by_cases hm : LooksMultiFunction space bus slot 0
  · have hleaves : collect (fun i => get_pci_device_config space (fuel + 1) bus slot i false)
        otherFunctions = _ := collect_eq_some fun func hfunc =>
      get_pci_device_config_leaf space bus slot false fuel (h hm func hfunc)
    rw [get_pci_device_config_parent space bus slot true (fuel + 1) hm, hleaves,
      flatMap_leaf space bus slot otherFunctions otherFunctions_ne_zero, if_pos hm.1, if_pos hm]
    rfl
  -- No calls below.
  · rw [get_pci_device_config_leaf space bus slot true (fuel + 1) hm, if_neg hm, List.append_nil]
    by_cases hp : FunctionPresent space bus slot 0
    · rw [if_pos hp, if_pos hp]
      rfl
    · rw [if_neg hp, if_neg hp]
      rfl

/-- On any other slot the calls never end. -/
theorem enumerate_pci_slot_eq_none (h : ¬ SlotReturns space bus slot) (fuel : Nat) :
    enumerate_pci_slot space fuel bus slot = none := by
  unfold SlotReturns at h
  push Not at h
  obtain ⟨hm, func, hfunc, hself⟩ := h
  unfold enumerate_pci_slot
  cases fuel with
  | zero => rfl
  | succ fuel =>
    have hnone := get_pci_device_config_self space bus slot hfunc hself fuel false
    rw [get_pci_device_config_parent space bus slot true fuel hm, collect_eq_none hfunc hnone]
    rfl

theorem mem_slotReports {r : PciReport} :
    r ∈ slotReports space bus slot ↔
      ∃ func ∈ slotFunctions space bus slot, pciReport space bus slot func (func = 0) = r :=
  List.mem_map

theorem nodup_slotFunctions : (slotFunctions space bus slot).Nodup := by
  unfold slotFunctions
  have hother : (otherFunctions.filter (FunctionPresent space bus slot ·)).Nodup :=
    List.Nodup.filter _ (by decide)
  have hzero : (0 : UInt8) ∉ otherFunctions.filter (FunctionPresent space bus slot ·) :=
    fun h => otherFunctions_ne_zero 0 (List.mem_filter.mp h).1 rfl
  split <;> split <;> simp [hother, hzero]

end slot

/-! ## Section 3: All slots -/

/-- All reports, slot by slot. -/
def allReports (space : ConfigSpace) : List PciReport :=
  pciBuses.flatMap fun bus => pciSlots.flatMap fun slot => slotReports space bus slot

/-- **The enumeration returns** if the calls on every slot do. -/
theorem pci_enumeration_eq {space : ConfigSpace}
    (h : ∀ bus slot, slot < 32 → SlotReturns space bus slot) (fuel : Nat) :
    pci_enumeration space (fuel + 2) = some (allReports space) := by
  unfold pci_enumeration allReports
  apply collect_eq_some
  intro bus _
  unfold enumerate_pci_bus
  apply collect_eq_some
  intro slot hslot
  exact enumerate_pci_slot_eq space bus slot (h bus slot (mem_pciSlots.mp hslot)) fuel

/-- Whatever depth the calls take, a result is always the same. -/
theorem eq_allReports {space : ConfigSpace}
    (h : ∀ bus slot, slot < 32 → SlotReturns space bus slot) {depth : Nat}
    {reports : List PciReport} (hsome : pci_enumeration space depth = some reports) :
    reports = allReports space := by
  have hmono (depth : Nat) (h : pci_enumeration space depth = some reports) :
      pci_enumeration space (depth + 1) = some reports :=
    collect_mono (fun bus _ _ => collect_mono fun slot _ _ =>
      get_pci_device_config_mono space bus slot) h
  -- Two levels more are as deep as `pci_enumeration_eq` needs.
  have hdeep := hmono _ (hmono _ hsome)
  rw [pci_enumeration_eq h depth] at hdeep
  exact (Option.some.inj hdeep).symm

/-- **It never returns** if those on one slot do not. -/
theorem pci_enumeration_eq_none {space : ConfigSpace} {bus slot : UInt8} (hslot : slot < 32)
    (h : ¬ SlotReturns space bus slot) (fuel : Nat) : pci_enumeration space fuel = none := by
  have hnone := enumerate_pci_slot_eq_none space bus slot h fuel
  have hbus : enumerate_pci_bus space fuel bus = none :=
    collect_eq_none (mem_pciSlots.mpr hslot) hnone
  exact collect_eq_none (mem_pciBuses bus) hbus

theorem mem_allReports {space : ConfigSpace} {bus slot func : UInt8} :
    (∃ r ∈ allReports space, r.location = (bus, slot, func)) ↔
      slot < 32 ∧ func ∈ slotFunctions space bus slot := by
  unfold allReports
  constructor
  · intro h
    obtain ⟨r, hr, hloc⟩ := h
    obtain ⟨b, -, hr⟩ := List.mem_flatMap.mp hr
    obtain ⟨s, hs, hr⟩ := List.mem_flatMap.mp hr
    obtain ⟨f, hf, rfl⟩ := (mem_slotReports space b s).mp hr
    obtain ⟨rfl, rfl, rfl⟩ : b = bus ∧ s = slot ∧ f = func := by simpa using hloc
    exact ⟨mem_pciSlots.mp hs, hf⟩
  · intro h
    obtain ⟨hslot, hfunc⟩ := h
    refine ⟨pciReport space bus slot func (func = 0), ?_, rfl⟩
    have hr := (mem_slotReports space bus slot).mpr ⟨func, hfunc, rfl⟩
    have hs := List.mem_flatMap.mpr ⟨slot, mem_pciSlots.mpr hslot, hr⟩
    exact List.mem_flatMap.mpr ⟨bus, mem_pciBuses bus, hs⟩

/-- Lists told apart by a key are put together without repetition. -/
theorem nodup_flatMap_of_key {α β : Type} {f : α → List β} (key : β → α) {as : List α}
    (has : as.Nodup) (hf : ∀ a, (f a).Nodup) (hkey : ∀ a, ∀ b ∈ f a, key b = a) :
    (as.flatMap f).Nodup := by
  refine List.nodup_flatMap.mpr ⟨fun a _ => hf a, has.imp fun {a a'} hne => ?_⟩
  intro b hb hb'
  exact hne ((hkey a b hb).symm.trans (hkey a' b hb'))

/-- No function is reported twice. -/
theorem nodup_locations (space : ConfigSpace) :
    ((allReports space).map PciReport.location).Nodup := by
  have hmem (bus slot : UInt8) : ∀ l ∈ (slotReports space bus slot).map PciReport.location,
      l.1 = bus ∧ l.2.1 = slot := by
    intro l hl
    obtain ⟨r, hr, rfl⟩ := List.mem_map.mp hl
    obtain ⟨func, -, rfl⟩ := (mem_slotReports space bus slot).mp hr
    exact ⟨rfl, rfl⟩
  unfold allReports
  rw [List.map_flatMap]
  apply nodup_flatMap_of_key (·.1) (nodup_map_ofNat (by simp))
  · intro bus
    rw [List.map_flatMap]
    apply nodup_flatMap_of_key (·.2.1) (nodup_map_ofNat (by simp))
    · intro slot
      have hnodup := nodup_slotFunctions space bus slot
      unfold slotReports
      rw [List.map_map]
      exact hnodup.map fun func func' h => (congrArg (fun l => l.2.2) h : func = func')
    · intro slot l hl
      exact (hmem bus slot l hl).2
  · intro bus l hl
    rw [List.map_flatMap] at hl
    obtain ⟨slot, -, hl⟩ := List.mem_flatMap.mp hl
    exact (hmem bus slot l hl).1

/-! ## Section 4: What should be reported -/

/-- The enumeration returns and reports every function once that it should. -/
structure EnumeratesAll (space : ConfigSpace) (reports : List PciReport) : Prop where
  /-- No function is reported twice. -/
  once     : (reports.map PciReport.location).Nodup
  /-- Function 0 of every slot is reported if it is there. -/
  function : ∀ bus slot, slot < 32 → FunctionPresent space bus slot 0 →
    ∃ r ∈ reports, r.location = (bus, slot, 0)
  /-- So are the other functions of a multi-function device. -/
  others   : ∀ bus slot, slot < 32 → MultiFunction space bus slot 0 →
    ∀ func ∈ otherFunctions, FunctionPresent space bus slot func →
      ∃ r ∈ reports, r.location = (bus, slot, func)

/-- A slot that is enumerated as it should: a function 0 with the bit looks
    like a multi-function device to the code, unless no other function is
    there; and no other function looks like one in its turn. -/
def SlotEnumerable (space : ConfigSpace) (bus slot : UInt8) : Prop :=
  (MultiFunction space bus slot 0 → LooksMultiFunction space bus slot 0 ∨
    ∀ func ∈ otherFunctions, ¬ FunctionPresent space bus slot func) ∧
  SlotReturns space bus slot

/-- **The enumeration does its work exactly if** every slot can be enumerated. -/
theorem enumeratesAll_iff (space : ConfigSpace) :
    (∃ depth reports, pci_enumeration space depth = some reports ∧ EnumeratesAll space reports) ↔
      ∀ bus slot, slot < 32 → SlotEnumerable space bus slot := by
  constructor
  · intro h bus slot hslot
    obtain ⟨depth, reports, hsome, hall⟩ := h
    -- It returned, so all slots did.
    have hreturns : ∀ bus slot, slot < 32 → SlotReturns space bus slot := by
      intro bus slot hslot
      by_contra hnot
      rw [pci_enumeration_eq_none hslot hnot depth] at hsome
      cases hsome
    refine ⟨fun hmulti => ?_, hreturns bus slot hslot⟩
    by_contra hnot
    push Not at hnot
    obtain ⟨hlooks, func, hfunc, hpresent⟩ := hnot
    -- Function `func` should be reported, but the code does not look at it.
    have hreport := hall.others bus slot hslot hmulti func hfunc hpresent
    rw [eq_allReports hreturns hsome, mem_allReports] at hreport
    have hmem := hreport.2
    unfold slotFunctions at hmem
    rw [if_neg hlooks, List.append_nil] at hmem
    split at hmem
    · rw [List.mem_singleton.mp hmem] at hfunc
      exact absurd hfunc (by decide)
    · cases hmem
  · intro h
    -- Depth 2 is enough on every such space.
    have heq := pci_enumeration_eq (fun bus slot hslot => (h bus slot hslot).2) 0
    refine ⟨2, allReports space, heq, nodup_locations space, ?_, ?_⟩
    · intro bus slot hslot hpresent
      refine mem_allReports.mpr ⟨hslot, ?_⟩
      unfold slotFunctions
      rw [if_pos hpresent]
      exact List.mem_append_left _ List.mem_cons_self
    · intro bus slot hslot hmulti func hfunc hpresent
      refine mem_allReports.mpr ⟨hslot, ?_⟩
      have hlooks : LooksMultiFunction space bus slot 0 :=
        ((h bus slot hslot).1 hmulti).resolve_right fun hnone => hnone func hfunc hpresent
      unfold slotFunctions
      rw [if_pos hlooks]
      exact List.mem_append_right _ (List.mem_filter.mpr ⟨hfunc, by simpa using hpresent⟩)

/-- Slot 0 of bus 0 holds a multi-function device with functions 0 and 1, both
    of which have bit 7 of the header type set; all other slots are empty. -/
def twoFunctionSpace : ConfigSpace := fun address =>
  if address = 0x80000000 ∨ address = 0x80000100 then 0x12348086
  else if address = 0x8000000c ∨ address = 0x8000010c then 0x00800000
  else 0xffffffff

/-- On it the enumeration never returns. -/
theorem twoFunctionSpace_never_returns :
    (∀ depth, pci_enumeration twoFunctionSpace depth = none) ∧
      ¬ ∃ depth reports, pci_enumeration twoFunctionSpace depth = some reports ∧
        EnumeratesAll twoFunctionSpace reports := by
  have hslot : ¬ SlotReturns twoFunctionSpace 0 0 := by decide
  have hnone (depth : Nat) : pci_enumeration twoFunctionSpace depth = none :=
    pci_enumeration_eq_none (by decide) hslot depth
  refine ⟨hnone, ?_⟩
  intro h
  obtain ⟨depth, reports, hsome, -⟩ := h
  rw [hnone depth] at hsome
  cases hsome

end ArgaldOS
