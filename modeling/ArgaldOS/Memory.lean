import ArgaldOS.Framework.Words
import Mathlib.Tactic.Ring

/-! # Physical memory and the higher-half direct map

    Memory is a function from 64-bit physical addresses to bytes.  The kernel
    reaches it through the direct map: the pointer `kernel.hhdm + q` denotes
    the physical byte `q`, so an access through the pointer `va` is an access
    to the physical address `va - hhdm`.

    The 64-bit accesses are little-endian, as on x86-64.  A page table is read
    and written eight bytes at a time, the allocator's bitmap byte by byte, in
    the same memory.
-/

namespace ArgaldOS

/-- Physical memory: one byte for each 64-bit address. -/
abbrev Mem : Type := UInt64 → UInt8

namespace Mem

/-! ## Section 1: Accesses -/

/-- Store one byte. -/
def store8 (m : Mem) (a : UInt64) (b : UInt8) : Mem :=
  fun x => if x = a then b else m x

/-- Load eight bytes, least significant first. -/
def load64 (m : Mem) (a : UInt64) : UInt64 :=
  UInt64.ofNat
    ((m a).toNat + 2 ^ 8 * (m (a + 1)).toNat + 2 ^ 16 * (m (a + 2)).toNat
      + 2 ^ 24 * (m (a + 3)).toNat + 2 ^ 32 * (m (a + 4)).toNat + 2 ^ 40 * (m (a + 5)).toNat
      + 2 ^ 48 * (m (a + 6)).toNat + 2 ^ 56 * (m (a + 7)).toNat)

/-- Store eight bytes, least significant first. -/
def store64 (m : Mem) (a v : UInt64) : Mem :=
  fun x => if x - a < 8 then (v >>> (8 * (x - a))).toUInt8 else m x

/-- Load a byte through the pointer `va` into the direct map. -/
def hload8 (m : Mem) (hhdm va : UInt64) : UInt8 := m (va - hhdm)

/-- Store a byte through the pointer `va` into the direct map. -/
def hstore8 (m : Mem) (hhdm va : UInt64) (b : UInt8) : Mem := m.store8 (va - hhdm) b

/-- Load eight bytes through the pointer `va` into the direct map. -/
def hload64 (m : Mem) (hhdm va : UInt64) : UInt64 := m.load64 (va - hhdm)

/-- Store eight bytes through the pointer `va` into the direct map. -/
def hstore64 (m : Mem) (hhdm va v : UInt64) : Mem := m.store64 (va - hhdm) v

@[simp] theorem store8_self (m : Mem) (a : UInt64) (b : UInt8) : m.store8 a b a = b := by
  simp [store8]

@[simp] theorem store8_ne (m : Mem) (a x : UInt64) (b : UInt8) (h : x ≠ a) :
    m.store8 a b x = m x := by
  simp [store8, h]

theorem store64_ne (m : Mem) (a v x : UInt64) (h : ¬ x - a < 8) : m.store64 a v x = m x := by
  simp [store64, h]

/-! ## Section 2: Reading back a 64-bit word -/

theorem toNat_load64 (m : Mem) (a : UInt64) :
    (m.load64 a).toNat =
      (m a).toNat + 2 ^ 8 * (m (a + 1)).toNat + 2 ^ 16 * (m (a + 2)).toNat
        + 2 ^ 24 * (m (a + 3)).toNat + 2 ^ 32 * (m (a + 4)).toNat + 2 ^ 40 * (m (a + 5)).toNat
        + 2 ^ 48 * (m (a + 6)).toNat + 2 ^ 56 * (m (a + 7)).toNat := by
  have h0 := (m a).toNat_lt
  have h1 := (m (a + 1)).toNat_lt
  have h2 := (m (a + 2)).toNat_lt
  have h3 := (m (a + 3)).toNat_lt
  have h4 := (m (a + 4)).toNat_lt
  have h5 := (m (a + 5)).toNat_lt
  have h6 := (m (a + 6)).toNat_lt
  have h7 := (m (a + 7)).toNat_lt
  unfold load64
  exact Words.ofNat_toNat_lt _ (by omega)

/-- A load depends on its eight bytes only. -/
theorem load64_congr {m m' : Mem} {a : UInt64} (h : ∀ k : UInt64, k < 8 → m' (a + k) = m (a + k)) :
    m'.load64 a = m.load64 a := by
  have h0 := h 0 (by simp)
  rw [UInt64.add_zero] at h0
  unfold load64
  rw [h0, h 1 (by simp), h 2 (by simp), h 3 (by simp), h 4 (by simp), h 5 (by simp),
    h 6 (by simp), h 7 (by simp)]

/-- Byte `k` of a stored word. -/
theorem store64_byte (m : Mem) (a v k : UInt64) (hk : k < 8) :
    (m.store64 a v (a + k)).toNat = v.toNat / 2 ^ (8 * k.toNat) % 2 ^ 8 := by
  have hsub : a + k - a = k := by grind
  have hlt : k.toNat < 8 := UInt64.lt_iff_toNat_lt.mp hk
  have hmul : (8 * k).toNat = 8 * k.toNat := Words.toNat_mul_lt 8 k (by
    show 8 * k.toNat < 2 ^ 64
    omega)
  unfold store64
  rw [hsub, if_pos hk, UInt64.toNat_toUInt8, Words.toNat_shiftRight_lt v _ (by omega), hmul]

@[simp] theorem load64_store64 (m : Mem) (a v : UInt64) : (m.store64 a v).load64 a = v := by
  apply Words.ext
  have hv := v.toNat_lt
  have h0 := store64_byte m a v 0 (by simp)
  rw [UInt64.add_zero] at h0
  rw [toNat_load64, h0, store64_byte m a v 1 (by simp), store64_byte m a v 2 (by simp),
    store64_byte m a v 3 (by simp), store64_byte m a v 4 (by simp),
    store64_byte m a v 5 (by simp), store64_byte m a v 6 (by simp),
    store64_byte m a v 7 (by simp)]
  simp only [UInt64.toNat_ofNat, Nat.reduceMod, Nat.reduceMul, Nat.reducePow]
  omega

/-- Clearing a word that is zero changes nothing. -/
theorem store64_zero (m : Mem) (a : UInt64) (h : m.load64 a = 0) : m.store64 a 0 = m := by
  have hsum := toNat_load64 m a
  rw [h] at hsum
  change 0 = _ at hsum
  have hbyte : ∀ x, (m x).toNat = 0 → m x = 0 := fun x hx => UInt8.toNat_inj.mp hx
  funext x
  by_cases hx : x - a < 8
  · have hk : (x - a).toNat < 8 := UInt64.lt_iff_toNat_lt.mp hx
    have hadd : x = a + (x - a) := by grind
    generalize x - a = k at hx hk hadd
    have hzero : m x = 0 := by
      apply hbyte
      rw [hadd]
      -- The eight bytes of a sum that is zero.
      have hcases : k.toNat = 0 ∨ k.toNat = 1 ∨ k.toNat = 2 ∨ k.toNat = 3 ∨ k.toNat = 4 ∨
          k.toNat = 5 ∨ k.toNat = 6 ∨ k.toNat = 7 := by omega
      rcases hcases with hk | hk | hk | hk | hk | hk | hk | hk
      · rw [show k = 0 from Words.ext hk, UInt64.add_zero]
        omega
      · rw [show k = 1 from Words.ext hk]
        omega
      · rw [show k = 2 from Words.ext hk]
        omega
      · rw [show k = 3 from Words.ext hk]
        omega
      · rw [show k = 4 from Words.ext hk]
        omega
      · rw [show k = 5 from Words.ext hk]
        omega
      · rw [show k = 6 from Words.ext hk]
        omega
      · rw [show k = 7 from Words.ext hk]
        omega
    rw [hzero]
    unfold store64
    have hsub : x - a = k := by grind
    rw [hsub, if_pos hx, UInt64.zero_shiftRight]
    rfl
  · exact store64_ne m a 0 x hx

/-- A store leaves every word alone that has no byte in common with it. -/
theorem load64_store64_ne (m : Mem) (a b v : UInt64)
    (h : ∀ k : UInt64, k < 8 → ¬ b + k - a < 8) : (m.store64 a v).load64 b = m.load64 b :=
  load64_congr fun k hk => store64_ne m a v (b + k) (h k hk)

end Mem

/-! ## Section 3: Frames -/

/-- `PAGE_SIZE`: the size of a page and of a page frame. -/
def PAGE_SIZE : Nat := 4096

/-- The address `f` is a multiple of the page size. -/
def PageAligned (f : UInt64) : Prop := f.toNat % PAGE_SIZE = 0

instance (f : UInt64) : Decidable (PageAligned f) := inferInstanceAs (Decidable (_ = _))

/-- The byte `x` lies in the page frame that starts at `f`. -/
def InFrame (f x : UInt64) : Prop := f.toNat ≤ x.toNat ∧ x.toNat < f.toNat + PAGE_SIZE

instance (f x : UInt64) : Decidable (InFrame f x) := inferInstanceAs (Decidable (_ ∧ _))

/-- Two aligned frames that share a byte are the same frame. -/
theorem inFrame_unique {f g x : UInt64} (hf : PageAligned f) (hg : PageAligned g)
    (hfx : InFrame f x) (hgx : InFrame g x) : f = g := by
  apply Words.ext
  unfold PageAligned InFrame PAGE_SIZE at *
  omega

/-- The address of entry `i` of the table in frame `f`. -/
def slot (f : UInt64) (i : Fin 512) : UInt64 := f + 8 * UInt64.ofNat i.val

theorem toNat_slot (f : UInt64) (i : Fin 512) (hf : PageAligned f) :
    (slot f i).toNat = f.toNat + 8 * i.val := by
  have hi := i.isLt
  have hlt := f.toNat_lt
  have h8 : (8 * UInt64.ofNat i.val).toNat = 8 * i.val := by
    have hofNat := Words.ofNat_toNat_lt i.val (by omega)
    rw [Words.toNat_mul_lt _ _ (by rw [hofNat]; show 8 * i.val < 2 ^ 64; omega), hofNat]
    rfl
  unfold PageAligned PAGE_SIZE at hf
  unfold slot
  rw [Words.toNat_add_lt _ _ (by omega), h8]

/-- The eight bytes of an entry lie in the frame of its table. -/
theorem slot_inFrame {f : UInt64} {i : Fin 512} {k : UInt64} (hf : PageAligned f) (hk : k < 8) :
    InFrame f (slot f i + k) := by
  have hslot := toNat_slot f i hf
  have hi := i.isLt
  have hlt := f.toNat_lt
  have hk' : k.toNat < 8 := UInt64.lt_iff_toNat_lt.mp hk
  unfold PageAligned PAGE_SIZE at hf
  have hadd := Words.toNat_add_lt (slot f i) k (by omega)
  unfold InFrame PAGE_SIZE
  omega

/-- Entry `i` of the page table in frame `f`. -/
def Mem.entry (m : Mem) (f : UInt64) (i : Fin 512) : UInt64 := m.load64 (slot f i)

/-- Writing an entry changes that entry of that table and no other. -/
theorem Mem.entry_store64 (m : Mem) (f g : UInt64) (i j : Fin 512) (v : UInt64)
    (hf : PageAligned f) (hg : PageAligned g) :
    (m.store64 (slot f i) v).entry g j = if g = f ∧ j = i then v else m.entry g j := by
  unfold Mem.entry
  by_cases h : g = f ∧ j = i
  · obtain ⟨rfl, rfl⟩ := h
    simp
  · rw [if_neg h]
    apply Mem.load64_store64_ne
    intro k hk hlt
    have hk' : k.toNat < 8 := UInt64.lt_iff_toNat_lt.mp hk
    have hd : (slot g j + k - slot f i).toNat < 8 := UInt64.lt_iff_toNat_lt.mp hlt
    have hsf := toNat_slot f i hf
    have hsg := toNat_slot g j hg
    have hi := i.isLt
    have hj := j.isLt
    have hfl := f.toNat_lt
    have hgl := g.toNat_lt
    unfold PageAligned PAGE_SIZE at hf hg
    have hadd := Words.toNat_add_lt (slot g j) k (by omega)
    rw [UInt64.toNat_sub, hadd, hsf, hsg] at hd
    -- The two entries overlap only if table and index are the same.
    have hgf : g.toNat = f.toNat := by omega
    exact h ⟨Words.ext hgf, Fin.ext (by omega)⟩

/-- An entry depends on the bytes of its frame only. -/
theorem Mem.entry_congr {m m' : Mem} {f : UInt64} (hf : PageAligned f)
    (h : ∀ x, InFrame f x → m' x = m x) (i : Fin 512) : m'.entry f i = m.entry f i :=
  Mem.load64_congr fun _ hk => h _ (slot_inFrame hf hk)

/-- Writing an entry changes bytes of its frame only. -/
theorem Mem.store64_slot_frame (m : Mem) (f : UInt64) (i : Fin 512) (v x : UInt64)
    (hf : PageAligned f) (hx : ¬ InFrame f x) : m.store64 (slot f i) v x = m x := by
  apply Mem.store64_ne
  intro hlt
  apply hx
  have hslot : slot f i + (x - slot f i) = x := by grind
  rw [← hslot]
  exact slot_inFrame hf hlt

end ArgaldOS
