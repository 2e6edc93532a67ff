import Mathlib.Logic.Function.Basic
import Mathlib.Tactic.Common

/-! # Arrays with bounds

    An array of `n` elements is a function from indices, and its accesses are
    partial: `load` and `store` return `none` for an index that is not below `n`.
    A program over such arrays returns a result if and only if it makes no access
    out of bounds.

    * `exists_foldlM`: a loop whose body keeps a relation to a total loop returns,
      and keeps it;
    * `exists_foldlM_range`: the same with an invariant that counts the rounds;
    * `foldl_shiftDown`, `foldl_shiftUp`: a copy inside one array by a fixed distance,
      element after element, moves the whole block, if its direction is right;
    * `foldl_shiftUp_within`, `foldl_insert`: the same in an array that has no room for all;
    * `foldl_update_of_mem`, `foldl_update_of_not_mem`: the elements that a loop sets.
-/

namespace Arrays

variable {V : Type u} {S : Type v} {T : Type w} {A : Type x}

/-! ## Section 1: Accesses -/

/-- `a[i]`. -/
def load (n : Nat) (a : Nat → V) (i : Nat) : Option V :=
  if i < n then some (a i) else none

/-- `a[i] = v`. -/
def store (n : Nat) (a : Nat → V) (i : Nat) (v : V) : Option (Nat → V) :=
  if i < n then some (Function.update a i v) else none

theorem load_of_lt {n i : Nat} (h : i < n) (a : Nat → V) : load n a i = some (a i) := if_pos h

theorem store_of_lt {n i : Nat} (h : i < n) (a : Nat → V) (v : V) :
    store n a i v = some (Function.update a i v) := if_pos h

/-! ## Section 2: Partial loops -/

/-- **Simulation**: a partial loop whose body follows that of a total loop returns,
    and follows the total loop. -/
theorem exists_foldlM {R : S → T → Prop} {f : S → A → Option S} {g : T → A → T} {l : List A}
    (hbody : ∀ a ∈ l, ∀ s t, R s t → ∃ s', f s a = some s' ∧ R s' (g t a)) {s : S} {t : T}
    (h : R s t) : ∃ s', l.foldlM f s = some s' ∧ R s' (l.foldl g t) := by
  induction l generalizing s t with
  | nil => exact ⟨s, rfl, h⟩
  | cons a l ih =>
    obtain ⟨s₁, hs₁, hR₁⟩ := hbody a List.mem_cons_self s t h
    obtain ⟨s₂, hs₂, hR₂⟩ := ih (fun b hb => hbody b (List.mem_cons_of_mem a hb)) hR₁
    exact ⟨s₂, by simp only [List.foldlM_cons, hs₁, Option.bind_eq_bind, Option.bind_some, hs₂],
      hR₂⟩

/-- **Loop invariant rule**: `Inv k` holds before round `k`. -/
theorem exists_foldlM_range {f : S → Nat → Option S} {n : Nat} (Inv : Nat → S → Prop)
    (hbody : ∀ k s, k < n → Inv k s → ∃ s', f s k = some s' ∧ Inv (k + 1) s') {s : S}
    (h : Inv 0 s) : ∃ s', (List.range n).foldlM f s = some s' ∧ Inv n s' := by
  induction n with
  | zero => exact ⟨s, rfl, h⟩
  | succ n ih =>
    obtain ⟨s₁, hs₁, hInv₁⟩ := ih fun k s hk => hbody k s (by omega)
    obtain ⟨s₂, hs₂, hInv₂⟩ := hbody n s₁ (by omega) hInv₁
    refine ⟨s₂, ?_, hInv₂⟩
    simp only [List.range_succ, List.foldlM_append, hs₁, List.foldlM_cons, hs₂,
      List.foldlM_nil, Option.bind_eq_bind, Option.bind_some, Option.pure_def]

/-! ## Section 3: Copies inside an array -/

/-- **Copying towards lower indices**, in ascending order. -/
theorem foldl_shiftDown (a : Nat → V) {k lo : Nat} (n : Nat) (hk : k ≤ lo) :
    (List.range' lo n).foldl (fun a i => Function.update a (i - k) (a i)) a
      = fun j => if lo - k ≤ j ∧ j < lo + n - k then a (j + k) else a j := by
  induction n with
  | zero =>
    funext j
    rw [if_neg (by omega)]
    rfl
  | succ n ih =>
    rw [List.range'_concat, List.foldl_append, ih]
    funext j
    simp only [Nat.one_mul, List.foldl_cons, List.foldl_nil, Function.update_apply]
    -- The element that is read is at or above every element written so far.
    by_cases hj : j = lo + n - k
    · have hread : ¬(lo - k ≤ lo + n ∧ lo + n < lo + n - k) := by omega
      rw [if_pos hj, if_neg hread, if_pos (by omega), hj]
      congr 1
      omega
    · rw [if_neg hj]
      by_cases hin : lo - k ≤ j ∧ j < lo + n - k
      · rw [if_pos hin, if_pos (by omega)]
      · rw [if_neg hin, if_neg (by omega)]

/-- **Copying towards higher indices**, in descending order. -/
theorem foldl_shiftUp (a : Nat → V) (k lo n : Nat) :
    (List.range' lo n).reverse.foldl (fun a i => Function.update a (i + k) (a i)) a
      = fun j => if lo + k ≤ j ∧ j < lo + n + k then a (j - k) else a j := by
  induction n generalizing lo with
  | zero =>
    funext j
    rw [if_neg (by omega)]
    rfl
  | succ n ih =>
    rw [List.range'_succ, List.reverse_cons, List.foldl_append, ih]
    funext j
    simp only [List.foldl_cons, List.foldl_nil, Function.update_apply]
    -- The element that is read is below every element written so far.
    by_cases hj : j = lo + k
    · rw [if_pos hj, if_neg (by omega), if_pos (by omega), hj]
      congr 1
      omega
    · rw [if_neg hj]
      by_cases hin : lo + 1 + k ≤ j ∧ j < lo + 1 + n + k
      · rw [if_pos hin, if_pos (by omega)]
      · rw [if_neg hin, if_neg (by omega)]

/-- The same below a bound `w`: what is copied beyond it is lost. -/
theorem foldl_shiftUp_within (a : Nat → V) {k lo w : Nat} (n : Nat) (hw : lo + n = w) :
    (List.range' lo n).reverse.foldl
        (fun a i => if i + k < w then Function.update a (i + k) (a i) else a) a
      = fun j => if lo + k ≤ j ∧ j < w then a (j - k) else a j := by
  induction n generalizing lo with
  | zero =>
    funext j
    rw [if_neg (by omega)]
    rfl
  | succ n ih =>
    rw [List.range'_succ, List.reverse_cons, List.foldl_append, ih (by omega)]
    funext j
    simp only [List.foldl_cons, List.foldl_nil]
    by_cases hin : lo + k < w
    · rw [if_pos hin, Function.update_apply]
      by_cases hj : j = lo + k
      · rw [if_pos hj, if_neg (by omega), if_pos (by omega), hj, Nat.add_sub_cancel]
      · rw [if_neg hj]
        simp only [show lo + 1 + k ≤ j ↔ lo + k ≤ j by omega]
    · rw [if_neg hin, if_neg (by omega), if_neg (by omega)]

/-- **Insertion**: each element is copied by `k` places, and then its place is set. -/
theorem foldl_insert (a : Nat → V) (v : V) {k lo w : Nat} (n : Nat) (hk : 0 < k)
    (hw : lo + n = w) :
    (List.range' lo n).reverse.foldl (fun a i => Function.update
        (if i + k < w then Function.update a (i + k) (a i) else a) i v) a
      = fun j => if lo ≤ j ∧ j < w then if j < lo + k then v else a (j - k) else a j := by
  induction n generalizing lo with
  | zero =>
    funext j
    rw [if_neg (by omega)]
    rfl
  | succ n ih =>
    rw [List.range'_succ, List.reverse_cons, List.foldl_append, ih (by omega)]
    funext j
    simp only [List.foldl_cons, List.foldl_nil]
    by_cases hj : j = lo
    · rw [hj, Function.update_self, if_pos (by omega), if_pos (by omega)]
    · rw [Function.update_of_ne hj]
      by_cases hin : lo + k < w
      · rw [if_pos hin, Function.update_apply]
        -- The element at `lo` has not been set yet when it is copied.
        by_cases hcopy : j = lo + k
        · rw [if_pos hcopy, if_neg (by omega), if_pos (by omega), if_neg (by omega), hcopy,
            Nat.add_sub_cancel]
        · rw [if_neg hcopy]
          simp only [show lo + 1 ≤ j ↔ lo ≤ j by omega, show j < lo + 1 + k ↔ j < lo + k by omega]
      · rw [if_neg hin]
        simp only [show lo + 1 ≤ j ↔ lo ≤ j by omega]
        by_cases hj' : lo ≤ j ∧ j < w
        · rw [if_pos hj', if_pos hj', if_pos (by omega), if_pos (by omega)]
        · rw [if_neg hj', if_neg hj']

/-! ## Section 4: Elements that are set -/

section sets
variable {as : List A} {key : A → Nat} {val : A → V}

/-- An element that is not set keeps its value. -/
theorem foldl_update_of_not_mem (a : Nat → V) {k : Nat} (h : ∀ x ∈ as, key x ≠ k) :
    as.foldl (fun a x => Function.update a (key x) (val x)) a k = a k := by
  induction as generalizing a with
  | nil => rfl
  | cons x as ih =>
    rw [List.foldl_cons, ih _ fun y hy => h y (List.mem_cons_of_mem x hy),
      Function.update_of_ne (h x List.mem_cons_self).symm]

/-- **An element that is set**, maybe more than once but always to the same value. -/
theorem foldl_update_of_mem (a : Nat → V) {k : Nat} {v : V} (hmem : ∃ x ∈ as, key x = k)
    (h : ∀ x ∈ as, key x = k → val x = v) :
    as.foldl (fun a x => Function.update a (key x) (val x)) a k = v := by
  induction as generalizing a with
  | nil =>
    obtain ⟨x, hx, -⟩ := hmem
    cases hx
  | cons x as ih =>
    rw [List.foldl_cons]
    by_cases hlater : ∃ y ∈ as, key y = k
    · exact ih _ hlater fun y hy => h y (List.mem_cons_of_mem x hy)
    · have hnot : ∀ y ∈ as, key y ≠ k := fun y hy heq => hlater ⟨y, hy, heq⟩
      obtain ⟨y, hy, heq⟩ := hmem
      have hyx : y = x := (List.mem_cons.mp hy).resolve_right fun hy => hnot y hy heq
      rw [foldl_update_of_not_mem _ hnot, ← heq, hyx, Function.update_self]
      exact h x List.mem_cons_self (hyx ▸ heq)

/-- The elements `key x`, all set to one value. -/
theorem foldl_fill (as : List A) (key : A → Nat) (v : V) (a : Nat → V) (j : Nat) :
    as.foldl (fun a x => Function.update a (key x) v) a j
      = if j ∈ as.map key then v else a j := by
  split
  · next hj => exact foldl_update_of_mem a (List.mem_map.mp hj) fun _ _ _ => rfl
  · next hj =>
    exact foldl_update_of_not_mem a fun x hx heq => hj (List.mem_map.mpr ⟨x, hx, heq⟩)

end sets

end Arrays
