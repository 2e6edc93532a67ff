import Mathlib.Tactic.Common

/-! # Programs with loops

    A shallow embedding for functions of C whose loops have no bound of their
    own.  A `Program S α` changes a state of type `S` and returns an `α`; it is
    told how many rounds each of its loops may take, and yields `none` if that
    is not enough.

    * `Program.loop`: a loop whose body goes on with the next value of its
      variables (`again`) or leaves it with a result (`leave`);
    * `Ends p s Q`: total correctness.  From the state `s` the program ends, for
      every number of rounds that is large enough in the same way, and `Q` holds
      of its result and of the state after it;
    * `Ends.bind`, `Ends.mono`, `Ends.loop_measure`: the rules for sequences,
      consequence, and loops with an invariant and a measure;
    * `Ends.unique`: two postconditions of one program are about the same result.
-/

/-- A program, told the number of rounds that each of its loops may take. -/
def Program (S : Type u) (α : Type v) : Type (max u v) := Nat → S → Option (α × S)

namespace Program

variable {S : Type u} {α β ι : Type v}

/-! ## Section 1: Programs -/

/-- One program after the other. -/
def seq (p : Program S α) (f : α → Program S β) : Program S β := fun fuel s =>
  (p fuel s).bind fun r => f r.1 fuel r.2

instance : Monad (Program S) where
  pure a := fun _ s => some (a, s)
  bind   := seq

/-- One step, which always ends. -/
def step (f : S → α × S) : Program S α := fun _ s => some (f s)

/-- Go on with the next round. -/
def again (i : ι) : Program S (α ⊕ ι) := pure (.inr i)

/-- Leave the loop. -/
def leave (r : α) : Program S (α ⊕ ι) := pure (.inl r)

/-- At most `n` rounds of a loop. -/
def rounds (body : ι → Program S (α ⊕ ι)) : Nat → ι → Program S α
  | 0, _ => fun _ _ => none
  | n + 1, i => body i >>= Sum.elim pure (rounds body n)

/-- A loop. -/
def loop (body : ι → Program S (α ⊕ ι)) (i : ι) : Program S α := fun fuel s =>
  rounds body fuel i fuel s

/-! ## Section 2: Total correctness -/

/-- From the state `s` the program ends, with `Q`. -/
def Ends (p : Program S α) (s : S) (Q : α → S → Prop) : Prop :=
  ∃ N r s', Q r s' ∧ ∀ fuel, N ≤ fuel → p fuel s = some (r, s')

variable {p : Program S α} {f : α → Program S β} {s : S} {Q : α → S → Prop} {Q' : β → S → Prop}

theorem Ends.pure {a : α} (h : Q a s) : Ends (Pure.pure a) s Q :=
  ⟨0, a, s, h, fun _ _ => rfl⟩

theorem Ends.step {f : S → α × S} (h : Q (f s).1 (f s).2) : Ends (step f) s Q :=
  ⟨0, (f s).1, (f s).2, h, fun _ _ => rfl⟩

theorem Ends.again {i : ι} {Q : α ⊕ ι → S → Prop} (h : Q (.inr i) s) : Ends (again i) s Q :=
  Ends.pure h

theorem Ends.leave {r : α} {Q : α ⊕ ι → S → Prop} (h : Q (.inl r) s) : Ends (leave r) s Q :=
  Ends.pure h

/-- **Consequence**. -/
theorem Ends.mono {Q' : α → S → Prop} (h : Ends p s Q) (hQ : ∀ r s', Q r s' → Q' r s') :
    Ends p s Q' := by
  obtain ⟨N, r, s', hr, hrun⟩ := h
  exact ⟨N, r, s', hQ r s' hr, hrun⟩

/-- **Sequences**. -/
theorem Ends.bind (h : Ends p s fun a s' => Ends (f a) s' Q') : Ends (p >>= f) s Q' := by
  obtain ⟨N, a, s', ⟨N', b, s'', hb, hrun'⟩, hrun⟩ := h
  refine ⟨max N N', b, s'', hb, ?_⟩
  intro fuel hfuel
  show (p fuel s).bind (fun r => f r.1 fuel r.2) = some (b, s'')
  rw [hrun fuel (by omega)]
  exact hrun' fuel (by omega)

/-- A result is one of a run. -/
theorem Ends.of_run {fuel : Nat} {r : α} {s' : S} (h : Ends p s Q) (hrun : p fuel s = some (r, s'))
    (hmono : ∀ fuel', fuel ≤ fuel' → p fuel' s = some (r, s')) : Q r s' := by
  obtain ⟨N, a, t, ht, hN⟩ := h
  have heq : some (a, t) = some (r, s') := by
    rw [← hN (max N fuel) (by omega), hmono (max N fuel) (by omega)]
  obtain ⟨rfl, rfl⟩ := Prod.mk.inj (Option.some.inj heq)
  exact ht

/-- **A program has one result**. -/
theorem Ends.unique {Q' : α → S → Prop} (h : Ends p s Q) (h' : Ends p s Q') :
    Ends p s fun r s' => Q r s' ∧ Q' r s' := by
  obtain ⟨N, r, s', hr, hrun⟩ := h
  have hr' := h'.of_run (hrun N (by omega)) hrun
  exact ⟨N, r, s', ⟨hr, hr'⟩, hrun⟩

/-- What holds in every case holds. -/
theorem Ends.elim {P : Prop} (h : Ends p s Q) (hP : ∀ r s', Q r s' → P) : P := by
  obtain ⟨-, r, s', hr, -⟩ := h
  exact hP r s' hr

/-! ## Section 3: Loops -/

section loops
variable {body : ι → Program S (α ⊕ ι)} {i : ι}

/-- The first round of a loop, and the others. -/
theorem Ends.rounds_succ {Q : α → S → Prop}
    (h : Ends (body i) s fun next s' => Sum.elim (fun r => Q r s')
      (fun i' => ∃ N r s'', Q r s'' ∧
        ∀ n fuel, N ≤ n → N ≤ fuel → rounds body n i' fuel s' = some (r, s'')) next) :
    ∃ N r s'', Q r s'' ∧
      ∀ n fuel, N ≤ n → N ≤ fuel → rounds body n i fuel s = some (r, s'') := by
  obtain ⟨N, next, s', hnext, hrun⟩ := h
  have hround : ∀ n fuel, N ≤ fuel →
      rounds body (n + 1) i fuel s = Sum.elim Pure.pure (rounds body n) next fuel s' := by
    intro n fuel hfuel
    show (body i fuel s).bind (fun r => Sum.elim Pure.pure (rounds body n) r.1 fuel r.2) = _
    rw [hrun fuel hfuel]
    rfl
  cases next with
  | inl r =>
    refine ⟨N + 1, r, s', hnext, ?_⟩
    intro n fuel hn hfuel
    obtain ⟨n, rfl⟩ := Nat.exists_eq_add_of_le' (Nat.le_trans (Nat.le_add_left 1 N) hn)
    exact hround n fuel (by omega)
  | inr i' =>
    obtain ⟨N', r, s'', hr, hrest⟩ := hnext
    refine ⟨N + N' + 1, r, s'', hr, ?_⟩
    intro n fuel hn hfuel
    obtain ⟨n, rfl⟩ := Nat.exists_eq_add_of_le' (Nat.le_trans (Nat.le_add_left 1 (N + N')) hn)
    rw [hround n fuel (by omega)]
    exact hrest n fuel (by omega) (by omega)

/-- **Loops**: the invariant holds before every round, every round but the last
    makes the measure smaller, and the last one gives the postcondition. -/
theorem Ends.loop_measure (Inv : ι → S → Prop) (measure : ι → S → Nat)
    (hround : ∀ i s, Inv i s → Ends (body i) s fun next s' =>
      Sum.elim (fun r => Q r s') (fun i' => Inv i' s' ∧ measure i' s' < measure i s) next)
    (hinit : Inv i s) : Ends (Program.loop body i) s Q := by
  have hrounds : ∃ N r s'', Q r s'' ∧
      ∀ n fuel, N ≤ n → N ≤ fuel → rounds body n i fuel s = some (r, s'') := by
    induction hm : measure i s using Nat.strongRecOn generalizing i s with
    | _ k ih =>
      apply Ends.rounds_succ
      apply (hround i s hinit).mono
      intro next s' hnext
      cases next with
      | inl r => exact hnext
      | inr i' => exact ih (measure i' s') (hm ▸ hnext.2) hnext.1 rfl
  obtain ⟨N, r, s'', hr, hrun⟩ := hrounds
  exact ⟨N, r, s'', hr, fun fuel hfuel => hrun fuel fuel hfuel hfuel⟩

/-- Loops whose measure depends on their variables only. -/
theorem Ends.loop (Inv : ι → S → Prop) (measure : ι → Nat)
    (hround : ∀ i s, Inv i s → Ends (body i) s fun next s' =>
      Sum.elim (fun r => Q r s') (fun i' => Inv i' s' ∧ measure i' < measure i) next)
    (hinit : Inv i s) : Ends (Program.loop body i) s Q :=
  Ends.loop_measure Inv (fun i _ => measure i) hround hinit

/-- A loop whose first round is the last. -/
theorem Ends.loop_leave (h : Ends (body i) s fun next s' => Sum.elim (fun r => Q r s')
    (fun _ => False) next) : Ends (Program.loop body i) s Q := by
  have hfirst : Ends (body i) s fun next s' => Sum.elim (fun r => Q r s')
      (fun i' => ∃ N r s'', Q r s'' ∧
        ∀ n fuel, N ≤ n → N ≤ fuel → rounds body n i' fuel s' = some (r, s'')) next := by
    apply h.mono
    intro next s' hnext
    cases next with
    | inl r => exact hnext
    | inr i' => exact hnext.elim
  obtain ⟨N, r, s'', hr, hrun⟩ := Ends.rounds_succ hfirst
  exact ⟨N, r, s'', hr, fun fuel hfuel => hrun fuel fuel hfuel hfuel⟩

end loops

end Program
