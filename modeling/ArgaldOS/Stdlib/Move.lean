import ArgaldOS.Framework.Cells
import ArgaldOS.Framework.Words

/-! # Copying memory (`memcpy` and `memmove` of `kernel/mem.c`)

    Both copy byte by byte.  Where the two ranges overlap, a byte of the source
    must not be overwritten before it is copied; `memmove` chooses the direction
    for that from the order of the two addresses.

    * `Moving m dest src lo hi m'`: the bytes from `lo` to `hi` are copied, in
      whatever order;
    * `copyForward_ends`, `copyBackward_ends`: the two loops;
    * `memmove_moves`: both functions.
-/

namespace ArgaldOS

open Cells Program

/-- The memory with all its 64-bit addresses. -/
abbrev ByteMemory : Type := Cells UInt64 UInt8

/-! ## Section 1: The functions -/

/-- `for (i = 0; i < n; i++) pdest[i] = psrc[i]`. -/
def copyForward (dest src n : UInt64) : Program ByteMemory Unit :=
  loop (fun i : UInt64 => do
    if i < n then
      store (dest + i) (← load (src + i))
      again (i + 1)
    else leave ()) 0

/-- `for (i = n; i > 0; i--) pdest[i-1] = psrc[i-1]`. -/
def copyBackward (dest src n : UInt64) : Program ByteMemory Unit :=
  loop (fun i : UInt64 => do
    if i > 0 then
      store (dest + (i - 1)) (← load (src + (i - 1)))
      again (i - 1)
    else leave ()) n

/-- `memcpy`. -/
def memcpy (dest src n : UInt64) : Program ByteMemory UInt64 := do
  copyForward dest src n
  return dest

/-- `memmove`: equal addresses are left alone. -/
def memmove (dest src n : UInt64) : Program ByteMemory UInt64 := do
  if src > dest then copyForward dest src n
  else if src < dest then copyBackward dest src n
  return dest

/-! ## Section 2: A part of the copy -/

/-- The bytes `lo`, ..., `hi - 1` behind `a`. -/
def bytesBehind (a : UInt64) (lo hi : Nat) : Set UInt64 :=
  {x | ∃ i : UInt64, lo ≤ i.toNat ∧ i.toNat < hi ∧ x = a + i}

/-- The bytes from `lo` to `hi` have been copied, as they were at first, and no
    other byte has changed. -/
structure Moving (m : ByteMemory) (dest src : UInt64) (lo hi : Nat) (m' : ByteMemory) : Prop where
  copied : ∀ i : UInt64, lo ≤ i.toNat → i.toNat < hi → m'.cell (dest + i) = m.cell (src + i)
  inside : Touches (bytesBehind src lo hi) (bytesBehind dest lo hi) m m'

section moving
variable {m m' : ByteMemory} {dest src n : UInt64} {lo hi lo' hi' : Nat}

/-- Nothing is copied yet. -/
theorem Moving.none (m : ByteMemory) (dest src : UInt64) (k : Nat) : Moving m dest src k k m where
  copied := fun i hlo hhi => absurd hlo (by omega)
  inside := Touches.refl _ _ m

/-- **One byte more**, at either end. -/
theorem Moving.step (h : Moving m dest src lo hi m') {k : UInt64} (hlo : lo' ≤ lo)
    (hhi : hi ≤ hi') (hk : lo' ≤ k.toNat ∧ k.toNat < hi')
    (hnew : ∀ i, lo' ≤ i → i < hi' → i ≠ k.toNat → lo ≤ i ∧ i < hi)
    (hsource : src + k ∉ bytesBehind dest lo hi) :
    Moving m dest src lo' hi'
      ((m'.loaded (src + k)).stored (dest + k) (m'.cell (src + k))) where
  copied := by
    intro i hi₁ hi₂
    by_cases hik : i = k
    · subst hik
      rw [cell_stored_self, h.inside.frame _ hsource]
    · have hne : dest + i ≠ dest + k := fun heq => hik ((UInt64.add_right_inj dest).mp heq)
      obtain ⟨hold₁, hold₂⟩ := hnew i.toNat hi₁ hi₂ fun heq => hik (UInt64.toNat_inj.mp heq)
      rw [cell_stored_of_ne hne]
      exact h.copied i hold₁ hold₂
  inside := by
    have hmore := h.inside.mono (P := bytesBehind src lo' hi') (Q := bytesBehind dest lo' hi')
      (fun a ⟨i, hi₁, hi₂, ha⟩ => ⟨i, by omega, by omega, ha⟩)
      (fun a ⟨i, hi₁, hi₂, ha⟩ => ⟨i, by omega, by omega, ha⟩)
    exact (hmore.loaded ⟨k, hk.1, hk.2, rfl⟩).stored ⟨k, hk.1, hk.2, rfl⟩

/-- A byte of the source that is not overwritten: it is in front of the bytes
    that are. -/
theorem not_mem_bytesBehind {k : UInt64} (hdest : dest.toNat + hi ≤ 2 ^ 64)
    (hsrc : src.toNat + k.toNat < 2 ^ 64)
    (hapart : src.toNat + k.toNat < dest.toNat + lo ∨ dest.toNat + hi ≤ src.toNat + k.toNat) :
    src + k ∉ bytesBehind dest lo hi := by
  rintro ⟨i, hlo, hhi, heq⟩
  have hnat := congrArg UInt64.toNat heq
  rw [Words.toNat_add_lt _ _ hsrc, Words.toNat_add_lt _ _ (by omega)] at hnat
  omega

/-! ## Section 3: The two directions -/

/-- **Forward**: right if the destination does not start inside the source. -/
theorem copyForward_ends (hdest : dest.toNat + n.toNat ≤ 2 ^ 64)
    (hsrc : src.toNat + n.toNat ≤ 2 ^ 64)
    (hapart : dest ≤ src ∨ src.toNat + n.toNat ≤ dest.toNat) :
    Ends (copyForward dest src n) m fun _ m' => Moving m dest src 0 n.toNat m' := by
  apply Ends.loop (fun i m' => i.toNat ≤ n.toNat ∧ Moving m dest src 0 i.toNat m')
    (fun i => n.toNat - i.toNat)
  · rintro i m' ⟨hi, hmoving⟩
    by_cases hlt : i < n
    · have hltn : i.toNat < n.toNat := UInt64.lt_iff_toNat_lt.mp hlt
      have hnext : (i + 1).toNat = i.toNat + 1 := Words.toNat_add_lt i 1 (by
        have hn := n.toNat_lt
        show i.toNat + 1 < 2 ^ 64
        omega)
      simp only [if_pos hlt]
      apply Ends.bind
      apply ends_load
      apply Ends.bind
      apply ends_store
      apply Ends.again
      refine ⟨⟨by omega, ?_⟩, by omega⟩
      rw [hnext]
      apply hmoving.step (by omega) (by omega) ⟨by omega, by omega⟩
        (fun j hj hj' hne => ⟨hj, by omega⟩)
      apply not_mem_bytesBehind (by omega) (by omega)
      rcases hapart with hle | hfar
      · have hle' := UInt64.le_iff_toNat_le.mp hle
        omega
      · omega
    · have hge : n.toNat ≤ i.toNat := Nat.le_of_not_lt fun h => hlt (UInt64.lt_iff_toNat_lt.mpr h)
      simp only [if_neg hlt]
      apply Ends.leave
      rwa [Nat.le_antisymm hi hge] at hmoving
  · exact ⟨Nat.zero_le _, Moving.none m dest src 0⟩

/-- **Backward**: right if the source does not start inside the destination. -/
theorem copyBackward_ends (hdest : dest.toNat + n.toNat ≤ 2 ^ 64) (hlt : src < dest) :
    Ends (copyBackward dest src n) m fun _ m' => Moving m dest src 0 n.toNat m' := by
  have hltn := UInt64.lt_iff_toNat_lt.mp hlt
  apply Ends.loop (fun i m' => i.toNat ≤ n.toNat ∧ Moving m dest src i.toNat n.toNat m')
    (fun i => i.toNat)
  · rintro i m' ⟨hi, hmoving⟩
    by_cases hpos : i > 0
    · have hposn : 0 < i.toNat := UInt64.lt_iff_toNat_lt.mp hpos
      have hprev : (i - 1).toNat = i.toNat - 1 :=
        UInt64.toNat_sub_of_le i 1 (UInt64.le_iff_toNat_le.mpr hposn)
      simp only [if_pos hpos]
      apply Ends.bind
      apply ends_load
      apply Ends.bind
      apply ends_store
      apply Ends.again
      refine ⟨⟨by omega, ?_⟩, by omega⟩
      apply hmoving.step (by omega) (by omega) ⟨by omega, by omega⟩
        (fun j hj hj' hne => ⟨by omega, hj'⟩)
      exact not_mem_bytesBehind (by omega) (by omega) (.inl (by omega))
    · have hzero : i.toNat = 0 :=
        Nat.eq_zero_of_not_pos fun h => hpos (UInt64.lt_iff_toNat_lt.mpr h)
      simp only [if_neg hpos]
      apply Ends.leave
      rwa [hzero] at hmoving
  · exact ⟨Nat.le_refl _, Moving.none m dest src n.toNat⟩

/-! ## Section 4: Moves -/

/-- **Both functions move memory**: `memmove` whatever the overlap, `memcpy` if
    the ranges are disjoint or the destination does not start behind the source. -/
theorem memmove_moves (m : ByteMemory) (hdest : dest.toNat + n.toNat ≤ 2 ^ 64)
    (hsrc : src.toNat + n.toNat ≤ 2 ^ 64) :
    (Ends (memmove dest src n) m fun r m' => r = dest ∧ Moving m dest src 0 n.toNat m') ∧
    (src.toNat + n.toNat ≤ dest.toNat ∨ dest.toNat + n.toNat ≤ src.toNat ∨ dest ≤ src →
      Ends (memcpy dest src n) m fun r m' => r = dest ∧ Moving m dest src 0 n.toNat m') := by
  constructor
  · unfold memmove
    by_cases hgt : src > dest
    · simp only [if_pos hgt]
      apply Ends.bind
      apply (copyForward_ends hdest hsrc (.inl (UInt64.le_of_lt hgt))).mono
      intro _ m' hmoving
      exact Ends.pure ⟨rfl, hmoving⟩
    · simp only [if_neg hgt]
      by_cases hlt : src < dest
      · simp only [if_pos hlt]
        apply Ends.bind
        apply (copyBackward_ends hdest hlt).mono
        intro _ m' hmoving
        exact Ends.pure ⟨rfl, hmoving⟩
      · -- The addresses are equal: every byte already is in its place.
        simp only [if_neg hlt]
        obtain rfl : src = dest := UInt64.le_antisymm (UInt64.not_lt.mp hgt) (UInt64.not_lt.mp hlt)
        exact Ends.pure ⟨rfl, fun _ _ _ => rfl, Touches.refl _ _ m⟩
  · intro hapart
    have hapart' : dest ≤ src ∨ src.toNat + n.toNat ≤ dest.toNat := by
      rcases hapart with hbehind | hfront | hle
      · exact .inr hbehind
      · exact .inl (UInt64.le_iff_toNat_le.mpr (by omega))
      · exact .inl hle
    apply Ends.bind
    apply (copyForward_ends hdest hsrc hapart').mono
    intro _ m' hmoving
    exact Ends.pure ⟨rfl, hmoving⟩

/-- A memory whose bytes are the low ends of their addresses. -/
def countingMemory : ByteMemory := ⟨UInt64.toUInt8, [], []⟩

/-- Three bytes are moved up by one, and down again. -/
theorem memmove_moves_three :
    (Ends (memmove 1 0 3) countingMemory fun r m' => r = 1 ∧ Moving countingMemory 1 0 0 3 m') ∧
      Ends (memcpy 0 1 3) countingMemory fun r m' => r = 0 ∧ Moving countingMemory 0 1 0 3 m' :=
  ⟨(@memmove_moves 1 0 3 countingMemory (by simp) (by simp)).1,
    (@memmove_moves 0 1 3 countingMemory (by simp) (by simp)).2 (by simp)⟩

end moving

end ArgaldOS
