import Mathlib.Tactic.Common

/-! # Following a chain

    A partial function `next` links elements to chains.  A loop that follows a
    chain visits its elements until `next` has no value; it ends exactly if
    the chain does, which nothing about `next` guarantees.

    * `Visits next c cs`: the chain of `c` ends, and `cs` are its elements;
    * `front next n c`: the first `n` elements of the chain, or all of them;
    * `visits_unique`: a chain has one list of elements;
    * `visits_key_nodup`: if `next` depends on a key only, no key comes twice
      in a chain that ends;
    * `front_of_visits`, `length_front`: what a loop with fuel `n` visits.
-/

namespace Chains

variable {α : Type u} (next : α → Option α)

/-- The chain of an element ends, and these are its elements. -/
def Visits : α → List α → Prop
  | _, [] => False
  | c, d :: ds =>
    d = c ∧
      match next c with
      | none => ds = []
      | some c' => Visits c' ds

/-- The first `n` elements of a chain. -/
def front : Nat → α → List α
  | 0, _ => []
  | n + 1, c =>
    c ::
      match next c with
      | none => []
      | some c' => front n c'

instance decidableVisits [DecidableEq α] : (c : α) → (cs : List α) → Decidable (Visits next c cs)
  | _, [] => inferInstanceAs (Decidable False)
  | c, d :: ds =>
    match h : next c with
    | none => decidable_of_iff (d = c ∧ ds = []) (by simp [Visits, h])
    | some c' =>
      have : Decidable (Visits next c' ds) := decidableVisits c' ds
      decidable_of_iff (d = c ∧ Visits next c' ds) (by simp [Visits, h])

variable {next}

theorem visits_end {c : α} (h : next c = none) : Visits next c [c] := by
  simp [Visits, h]

theorem visits_cons {c c' : α} {cs : List α} (h : next c = some c') (hcs : Visits next c' cs) :
    Visits next c (c :: cs) := by
  simp [Visits, h, hcs]

theorem length_pos_of_visits {c : α} {cs : List α} (h : Visits next c cs) : 0 < cs.length := by
  cases cs with
  | nil => exact absurd h id
  | cons x cs => exact Nat.succ_pos _

theorem mem_of_visits {c : α} {cs : List α} (h : Visits next c cs) : c ∈ cs := by
  cases cs with
  | nil => exact absurd h id
  | cons x cs => exact h.1 ▸ List.mem_cons_self

/-- A chain has one list of elements. -/
theorem visits_unique {c : α} {cs ds : List α} (hcs : Visits next c cs) (hds : Visits next c ds) :
    cs = ds := by
  induction cs generalizing c ds with
  | nil => exact absurd hcs id
  | cons x cs ih =>
    cases ds with
    | nil => exact absurd hds id
    | cons y ds =>
      obtain ⟨rfl, hx⟩ := hcs
      obtain ⟨rfl, hy⟩ := hds
      cases h : next y with
      | none =>
        rw [h] at hx hy
        rw [hx, hy]
      | some c' =>
        rw [h] at hx hy
        rw [ih hx hy]

/-- The chain of an element of a chain ends too. -/
theorem visits_of_mem {c d : α} {cs : List α} (h : Visits next c cs) (hd : d ∈ cs) :
    ∃ ds, Visits next d ds ∧ ds.length ≤ cs.length := by
  induction cs generalizing c with
  | nil => exact absurd h id
  | cons x cs ih =>
    obtain ⟨rfl, hx⟩ := h
    rcases List.mem_cons.mp hd with rfl | hd
    · exact ⟨d :: cs, ⟨rfl, hx⟩, Nat.le_refl _⟩
    · cases hn : next x with
      | none =>
        rw [hn] at hx
        simp [hx] at hd
      | some c' =>
        rw [hn] at hx
        obtain ⟨ds, hv, hlen⟩ := ih hx hd
        exact ⟨ds, hv, by rw [List.length_cons]; omega⟩

/-- **No key comes twice**: after an element with the key of an earlier one, the
    chain would repeat itself. -/
theorem visits_key_nodup {κ : Type v} (key : α → κ)
    (hkey : ∀ a b, key a = key b → next a = next b) {c : α} {cs : List α}
    (h : Visits next c cs) : (cs.map key).Nodup := by
  induction cs generalizing c with
  | nil => exact absurd h id
  | cons x cs ih =>
    obtain ⟨rfl, hx⟩ := h
    rw [List.map_cons, List.nodup_cons]
    cases hn : next x with
    | none =>
      rw [hn] at hx
      simp [hx]
    | some c' =>
      rw [hn] at hx
      refine ⟨fun hmem => ?_, ih hx⟩
      obtain ⟨d, hd, hdx⟩ := List.mem_map.mp hmem
      obtain ⟨ds, hv, hlen⟩ := visits_of_mem hx hd
      cases ds with
      | nil => exact absurd hv id
      | cons y ds =>
        obtain ⟨rfl, hy⟩ := hv
        rw [hkey y x hdx, hn] at hy
        -- The rest of the chain is shorter than itself.
        rw [visits_unique hy hx, List.length_cons] at hlen
        omega

/-- A chain that comes back to its element does not end. -/
theorem not_visits_of_loop {c : α} (h : next c = some c) (cs : List α) : ¬ Visits next c cs := by
  induction cs with
  | nil => exact id
  | cons x cs ih =>
    intro hv
    obtain ⟨rfl, hx⟩ := hv
    rw [h] at hx
    exact ih hx

/-- What a loop visits of a chain that ends. -/
theorem front_of_visits {c : α} {cs : List α} (h : Visits next c cs) (n : Nat) :
    front next n c = cs.take n := by
  induction n generalizing c cs with
  | zero => simp [front]
  | succ n ih =>
    cases cs with
    | nil => exact absurd h id
    | cons x cs =>
      obtain ⟨rfl, hx⟩ := h
      unfold front
      rw [List.take_succ_cons]
      cases hn : next x with
      | none =>
        rw [hn] at hx
        subst hx
        simp
      | some c' =>
        rw [hn] at hx
        exact congrArg (x :: ·) (ih hx)

/-- A loop does not end before a chain does. -/
theorem length_front {c : α} {n : Nat} (h : ∀ cs, cs.length ≤ n → ¬ Visits next c cs) :
    (front next (n + 1) c).length = n + 1 := by
  induction n generalizing c with
  | zero =>
    unfold front
    cases next c <;> rfl
  | succ n ih =>
    unfold front
    cases hn : next c with
    | none => exact absurd (visits_end hn) (h [c] (by simp))
    | some c' =>
      rw [List.length_cons, ih fun cs hcs hv => ?_]
      exact h (c :: cs) (by simpa using hcs) (visits_cons hn hv)

end Chains
