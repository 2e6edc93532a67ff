import Mathlib.Tactic.Common

/-! # Counting loops

    Six loops of C recur in the kernel modules and get their rules here:

    * `forLoop n body`: `for (i = 0; i < n; i++) body(i)`, with the rule
      `forLoop_invariant`;
    * `searchFrom p n i`: `for (; n-- > 0; i++) if (p(i)) return p(i)`, which
      returns the first hit (`searchFrom_eq_some`) or none at all
      (`searchFrom_eq_none`);
    * `collect visit as`: `visit` on one element after the other, each of which
      produces output or never returns;
    * `whileTrue body fuel s`: `while (1)` with a `break` in the body.  Where the
      states of the rounds are known in advance the loop is a search
      (`whileTrue_eq_searchFrom`);
    * `updates key f as t`: one entry of a table replaced after the other;
    * `untilReturn body as s`: a loop whose body may return from the function
      around it.  Such loops inside each other are one loop
      (`untilReturn_flatMap`).
-/

namespace Loops

variable {S : Type u} {R : Type v}

/-! ## Section 1: Loops over a counter -/

/-- The state after the bodies `0, ..., n - 1`. -/
def forLoop (body : Nat → S → S) : Nat → S → S
  | 0, s => s
  | n + 1, s => body n (forLoop body n s)

@[simp] theorem forLoop_zero (body : Nat → S → S) (s : S) : forLoop body 0 s = s := rfl

@[simp] theorem forLoop_succ (body : Nat → S → S) (n : Nat) (s : S) :
    forLoop body (n + 1) s = body n (forLoop body n s) := rfl

/-- **Loop invariant rule**: `Inv i` holds before body `i`. -/
theorem forLoop_invariant {body : Nat → S → S} {n : Nat} {s : S} (Inv : Nat → S → Prop)
    (hinit : Inv 0 s) (hbody : ∀ i t, i < n → Inv i t → Inv (i + 1) (body i t)) :
    Inv n (forLoop body n s) := by
  induction n with
  | zero => exact hinit
  | succ n ih =>
    have hn := ih fun i t hi => hbody i t (by omega)
    exact hbody n _ (by omega) hn

/-! ## Section 2: Search loops -/

/-- The first hit of `p` among `i, i + 1, ..., i + n - 1`. -/
def searchFrom (p : Nat → Option R) : Nat → Nat → Option R
  | 0, _ => none
  | n + 1, i =>
    match p i with
    | some r => some r
    | none => searchFrom p n (i + 1)

theorem searchFrom_eq_some {p : Nat → Option R} {n i : Nat} {r : R}
    (h : searchFrom p n i = some r) :
    ∃ k, i ≤ k ∧ k < i + n ∧ p k = some r ∧ ∀ j, i ≤ j → j < k → p j = none := by
  induction n generalizing i with
  | zero => cases h
  | succ n ih =>
    unfold searchFrom at h
    cases hp : p i with
    | some r' =>
      rw [hp] at h
      obtain rfl := Option.some.inj h
      exact ⟨i, by omega, by omega, hp, fun j _ _ => by omega⟩
    | none =>
      rw [hp] at h
      obtain ⟨k, hik, hkn, hk, hmin⟩ := ih h
      refine ⟨k, by omega, by omega, hk, ?_⟩
      intro j hij hjk
      rcases Nat.eq_or_lt_of_le hij with rfl | hlt
      · exact hp
      · exact hmin j hlt hjk

theorem searchFrom_eq_none {p : Nat → Option R} {n i : Nat} (h : searchFrom p n i = none) :
    ∀ k, i ≤ k → k < i + n → p k = none := by
  induction n generalizing i with
  | zero => intro k _ _; omega
  | succ n ih =>
    intro k hik hkn
    unfold searchFrom at h
    cases hp : p i with
    | some r => rw [hp] at h; cases h
    | none =>
      rw [hp] at h
      rcases Nat.eq_or_lt_of_le hik with rfl | hlt
      · exact hp
      · exact ih h k hlt (by omega)

/-! ## Section 3: Loops that produce output -/

variable {A : Type w}

/-- The outputs of the visits of all elements, in order; `none` as soon as one
    visit does not return. -/
def collect (visit : A → Option (List R)) : List A → Option (List R)
  | [] => some []
  | a :: as => (visit a).bind fun out => (collect visit as).map (out ++ ·)

/-- Visits that all return make a loop that returns. -/
theorem collect_eq_some {visit : A → Option (List R)} {f : A → List R} {as : List A}
    (h : ∀ a ∈ as, visit a = some (f a)) : collect visit as = some (as.flatMap f) := by
  induction as with
  | nil => rfl
  | cons a as ih =>
    have hrest := ih fun b hb => h b (List.mem_cons_of_mem _ hb)
    unfold collect
    rw [h a List.mem_cons_self, hrest]
    rfl

/-- Visits that return more often make a loop that returns more often, with the
    same output. -/
theorem collect_mono {visit visit' : A → Option (List R)} {as : List A}
    (h : ∀ a ∈ as, ∀ out, visit a = some out → visit' a = some out) {out : List R}
    (hout : collect visit as = some out) : collect visit' as = some out := by
  induction as generalizing out with
  | nil => exact hout
  | cons a as ih =>
    unfold collect at hout ⊢
    obtain ⟨outA, hA, hrest⟩ := Option.bind_eq_some_iff.mp hout
    obtain ⟨outAs, hAs, rfl⟩ := Option.map_eq_some_iff.mp hrest
    have hA' := h a List.mem_cons_self outA hA
    have hAs' := ih (fun b hb => h b (List.mem_cons_of_mem _ hb)) hAs
    rw [hA', hAs']
    rfl

/-- **One visit that never returns** is enough to keep the loop from returning. -/
theorem collect_eq_none {visit : A → Option (List R)} {a : A} {as : List A} (ha : a ∈ as)
    (h : visit a = none) : collect visit as = none := by
  induction as with
  | nil => cases ha
  | cons b bs ih =>
    unfold collect
    rcases List.mem_cons.mp ha with rfl | hmem
    · rw [h]
      rfl
    · rw [ih hmem]
      cases visit b <;> rfl

/-! ## Section 4: Loops without a bound -/

/-- `while (1)`: a round either leaves the loop with a result or goes on in a
    new state.  `none` means that `fuel` rounds are not enough. -/
def whileTrue (body : S → R ⊕ S) : Nat → S → Option R
  | 0, _ => none
  | fuel + 1, s =>
    match body s with
    | .inl r => some r
    | .inr s' => whileTrue body fuel s'

/-- What holds before a round, and is kept by every round, holds of the result. -/
theorem whileTrue_invariant {body : S → R ⊕ S} (Inv : S → Prop) (Post : R → Prop)
    (hexit : ∀ s r, Inv s → body s = .inl r → Post r)
    (hround : ∀ s s', Inv s → body s = .inr s' → Inv s')
    {fuel : Nat} {s : S} {r : R} (hs : Inv s) (h : whileTrue body fuel s = some r) : Post r := by
  induction fuel generalizing s with
  | zero => cases h
  | succ fuel ih =>
    unfold whileTrue at h
    cases hb : body s with
    | inl r' =>
      rw [hb] at h
      obtain rfl := Option.some.inj h
      exact hexit s _ hs hb
    | inr s' =>
      rw [hb] at h
      exact ih (hround s s' hs hb) h

/-- **A loop whose rounds are known is a search**: `t i` is the state before
    round `i`, and `out i` the result if that round is the last. -/
theorem whileTrue_eq_searchFrom {body : S → R ⊕ S} (t : Nat → S) (out : Nat → Option R)
    (h : ∀ i, body (t i) = match out i with
      | some r => .inl r
      | none => .inr (t (i + 1)))
    (fuel i : Nat) : whileTrue body fuel (t i) = searchFrom out fuel i := by
  induction fuel generalizing i with
  | zero => rfl
  | succ fuel ih =>
    unfold whileTrue searchFrom
    rw [h i]
    cases out i with
    | some r => rfl
    | none => exact ih (i + 1)

/-- A search over a long enough range finds the first hit. -/
theorem searchFrom_of_first {p : Nat → Option R} {n i k : Nat} {r : R} (hik : i ≤ k)
    (hkn : k < i + n) (hk : p k = some r) (hmin : ∀ j, i ≤ j → j < k → p j = none) :
    searchFrom p n i = some r := by
  cases h : searchFrom p n i with
  | none =>
    have hnone := searchFrom_eq_none h k hik hkn
    rw [hk] at hnone
    cases hnone
  | some r' =>
    obtain ⟨m, him, -, hm, hfirst⟩ := searchFrom_eq_some h
    -- Two first hits are the same.
    have hmk : m = k := by
      rcases Nat.lt_trichotomy m k with hlt | heq | hgt
      · rw [hmin m him hlt] at hm
        cases hm
      · exact heq
      · rw [hfirst k hik hgt] at hk
        cases hk
    subst hmk
    rw [hm] at hk
    exact hk

/-- What a search returns does not depend on how long it may take. -/
theorem searchFrom_unique {p : Nat → Option R} {n m i : Nat} {r r' : R}
    (h : searchFrom p n i = some r) (h' : searchFrom p m i = some r') : r = r' := by
  obtain ⟨k, hik, hkn, hk, hmin⟩ := searchFrom_eq_some h
  obtain ⟨k', hik', hkm, hk', hmin'⟩ := searchFrom_eq_some h'
  have hlong := searchFrom_of_first (n := max n m) hik (by omega) hk hmin
  rw [searchFrom_of_first (n := max n m) hik' (by omega) hk' hmin'] at hlong
  exact (Option.some.inj hlong).symm

/-! ## Section 5: Tables filled entry by entry -/

section updates
variable {K : Type u} {V : Type v} {A : Type w} [DecidableEq K] (key : A → K) (f : A → V → V)

/-- The entry `key a` of the table replaced by `f a` of it, for one `a` after
    the other. -/
def updates (as : List A) (t : K → V) : K → V :=
  as.foldl (fun t a => Function.update t (key a) (f a (t (key a)))) t

variable {key f}

/-- An entry that no `a` names keeps its value. -/
theorem updates_of_not_mem {as : List A} {k : K} (h : ∀ a ∈ as, key a ≠ k) (t : K → V) :
    updates key f as t k = t k := by
  induction as generalizing t with
  | nil => rfl
  | cons a as ih =>
    have hne : k ≠ key a := (h a List.mem_cons_self).symm
    show updates key f as (Function.update t (key a) (f a (t (key a)))) k = t k
    rw [ih (fun b hb => h b (List.mem_cons_of_mem a hb)), Function.update_of_ne hne]

/-- **An entry named once** is replaced once. -/
theorem updates_of_mem {as : List A} (hnodup : (as.map key).Nodup) {a : A} (ha : a ∈ as)
    (t : K → V) : updates key f as t (key a) = f a (t (key a)) := by
  induction as generalizing t with
  | nil => cases ha
  | cons b bs ih =>
    obtain ⟨hb, hbs⟩ := List.nodup_cons.mp hnodup
    show updates key f bs (Function.update t (key b) (f b (t (key b)))) (key a) = f a (t (key a))
    rcases List.mem_cons.mp ha with rfl | hmem
    · have hlater : ∀ c ∈ bs, key c ≠ key a := by
        intro c hc heq
        exact hb (heq ▸ List.mem_map_of_mem hc)
      rw [updates_of_not_mem hlater, Function.update_self]
    · have hne : key a ≠ key b := by
        intro heq
        exact hb (heq ▸ List.mem_map_of_mem hmem)
      rw [ih hbs hmem, Function.update_of_ne hne]

end updates

/-! ## Section 6: Loops that return early -/

section untilReturn
variable {A : Type w} {B : Type w'}

/-- The bodies on one element after the other, until one of them returns; and
    whether one has. -/
def untilReturn (body : A → S → Bool × S) : List A → S → Bool × S
  | [], s => (false, s)
  | a :: as, s =>
    match body a s with
    | (true, s') => (true, s')
    | (false, s') => untilReturn body as s'

variable {body : A → S → Bool × S} {as bs : List A} {s t : S}

/-- The elements up to the one that returns. -/
theorem untilReturn_append_of_true (h : untilReturn body as s = (true, t)) :
    untilReturn body (as ++ bs) s = (true, t) := by
  induction as generalizing s with
  | nil => cases h
  | cons a as ih =>
    rw [untilReturn] at h
    rw [List.cons_append, untilReturn]
    rcases hbody : body a s with ⟨- | -, s'⟩
    all_goals rw [hbody] at h
    · exact ih h
    · exact h

/-- The elements before the others, none of which returns. -/
theorem untilReturn_append_of_false (h : untilReturn body as s = (false, t)) :
    untilReturn body (as ++ bs) s = untilReturn body bs t := by
  induction as generalizing s with
  | nil =>
    obtain ⟨-, rfl⟩ := Prod.mk.inj h
    rfl
  | cons a as ih =>
    rw [untilReturn] at h
    rw [List.cons_append, untilReturn]
    rcases hbody : body a s with ⟨- | -, s'⟩
    all_goals rw [hbody] at h
    · exact ih h
    · cases (Prod.mk.inj h).1

/-- **Nested loops are one loop** over the elements of all inner loops. -/
theorem untilReturn_flatMap (f : B → List A) (cs : List B) (s : S) :
    untilReturn (fun c s => untilReturn body (f c) s) cs s =
      untilReturn body (cs.flatMap f) s := by
  induction cs generalizing s with
  | nil => rfl
  | cons c cs ih =>
    rw [untilReturn, List.flatMap_cons]
    rcases hinner : untilReturn body (f c) s with ⟨- | -, s'⟩
    · rw [untilReturn_append_of_false hinner]
      exact ih s'
    · rw [untilReturn_append_of_true hinner]

theorem untilReturn_map (f : B → A) (cs : List B) (s : S) :
    untilReturn (fun c => body (f c)) cs s = untilReturn body (cs.map f) s := by
  induction cs generalizing s with
  | nil => rfl
  | cons c cs ih =>
    rw [untilReturn, List.map_cons, untilReturn]
    rcases body (f c) s with ⟨- | -, s'⟩
    · exact ih s'
    · rfl

/-- Bodies that do not return make a fold. -/
theorem untilReturn_of_false {next : A → S → S} (h : ∀ a ∈ as, ∀ s, body a s = (false, next a s)) :
    untilReturn body as s = (false, as.foldl (fun s a => next a s) s) := by
  induction as generalizing s with
  | nil => rfl
  | cons a as ih =>
    rw [untilReturn, h a List.mem_cons_self s]
    exact ih fun b hb => h b (List.mem_cons_of_mem a hb)

/-- **The first body that returns** decides, if its result does not depend on
    what the ones before it have done. -/
theorem untilReturn_of_first {next : A → S → S} {a : A}
    (h : ∀ b ∈ as, ∀ s, body b s = (false, next b s)) (ha : ∀ s, body a s = (true, t)) :
    untilReturn body (as ++ a :: bs) s = (true, t) := by
  rw [untilReturn_append_of_false (untilReturn_of_false h), untilReturn, ha]

end untilReturn

end Loops
