import Mathlib.Data.Finset.Card
import Mathlib.Data.List.Induction

/-! # Trees of tables in a heap

    A multi-level lookup structure kept in a heap of tables: a table is a row
    of entries, an entry of an upper table may point to another table, and the
    entries of the tables at depth `d` are the leaves.  Nothing in a heap says
    that such a structure is a tree; `Unshared` is the invariant that it is.

    * `follow h root p`: the table that the index path `p` leads to;
    * `Unshared`: no table is reached by two different paths;
    * `leafAt`: the decoded leaf entry below a path;
    * `follow_link`: hanging a fresh, empty table into an empty slot adds
      exactly one path;
    * `follow_setLeaf` / `leafAt_setLeaf`: writing a leaf entry changes exactly
      one leaf;
    * `missing`: the paths that have no table yet, one fewer after each link.

    Frames, indices and entries are arbitrary types; `next` decodes an entry
    of an upper table and `leaf` one of a bottom table.
-/

namespace TableTree

variable {F : Type u} {I : Type v} {E : Type w} {L : Type x}

/-! ## Section 1: Following a path -/

/-- The table at the end of the path `p` from the table `root`. -/
def follow (next : E → Option F) (h : F → I → E) : F → List I → Option F
  | root, [] => some root
  | root, i :: p => (next (h root i)).bind fun f => follow next h f p

variable (next : E → Option F)

@[simp] theorem follow_nil (h : F → I → E) (root : F) : follow next h root [] = some root := rfl

theorem follow_append (h : F → I → E) (root : F) (p q : List I) :
    follow next h root (p ++ q) =
      (follow next h root p).bind fun f => follow next h f q := by
  induction p generalizing root with
  | nil => rfl
  | cons i p ih =>
    simp only [List.cons_append, follow, Option.bind_assoc]
    congr 1
    funext f
    exact ih f

/-- One step more at the end of a path. -/
theorem follow_snoc (h : F → I → E) (root : F) (p : List I) (i : I) :
    follow next h root (p ++ [i]) = (follow next h root p).bind fun f => next (h f i) := by
  rw [follow_append]
  congr 1
  funext f
  cases hn : next (h f i) <;> simp [follow, hn]

/-- The table `f` is reached from `root` by a path of at most `d` indices. -/
def Reaches (h : F → I → E) (root : F) (d : Nat) (f : F) : Prop :=
  ∃ p : List I, p.length ≤ d ∧ follow next h root p = some f

theorem reaches_root (h : F → I → E) (root : F) (d : Nat) : Reaches next h root d root :=
  ⟨[], Nat.zero_le _, rfl⟩

/-- The structure below `root` is a tree: two paths of at most `d` indices
    that lead to the same table are the same path. -/
def Unshared (h : F → I → E) (root : F) (d : Nat) : Prop :=
  ∀ (p q : List I) (f : F), p.length ≤ d → q.length ≤ d →
    follow next h root p = some f → follow next h root q = some f → p = q

/-- The leaf at index `i` of the table that `p` leads to. -/
def leafAt (leaf : E → Option L) (h : F → I → E) (root : F) (p : List I) (i : I) : Option L :=
  (follow next h root p).bind fun f => leaf (h f i)

variable {next}

/-! ## Section 2: Hanging a table into an empty slot -/

/-- What linking a new table does to the heap: the slot `i` of the table `f`
    at the end of `p` was empty and now points to `g`, a table that was not
    part of the structure and whose entries are all empty; every other entry
    of the structure is what it was. -/
structure Link (next : E → Option F) (h h' : F → I → E) (root : F) (d : Nat)
    (p : List I) (i : I) (f g : F) : Prop where
  path  : follow next h root p = some f
  short : p.length < d
  empty : next (h f i) = none
  slot  : next (h' f i) = some g
  fresh : ¬ Reaches next h root d g
  blank : ∀ j, next (h' g j) = none
  frame : ∀ x j, Reaches next h root d x → ¬ (x = f ∧ j = i) → h' x j = h x j

/-- Linking a table adds exactly one path to the structure. -/
theorem follow_link [DecidableEq I] {h h' : F → I → E} {root f g : F} {d : Nat} {p : List I} {i : I}
    (hl : Link next h h' root d p i f g) (hu : Unshared next h root d) :
    ∀ q : List I, q.length ≤ d →
      follow next h' root q = if q = p ++ [i] then some g else follow next h root q := by
  intro q
  -- A path is followed from the root, so the induction removes its last index.
  induction q using List.reverseRecOn with
  | nil => simp
  | append_singleton q j ih =>
    intro hq
    have hlen : q.length ≤ d := by simp at hq; omega
    rw [follow_snoc, ih hlen, follow_snoc]
    by_cases hnew : q = p ++ [i]
    · -- Below the new table there is nothing yet, and there was nothing before.
      subst hnew
      have hold : follow next h root (p ++ [i]) = none := by
        rw [follow_snoc, hl.path]
        exact hl.empty
      have hne : p ++ [i] ++ [j] ≠ p ++ [i] := fun heq => by
        simpa using congrArg List.length heq
      rw [if_pos rfl, if_neg hne, hold]
      exact hl.blank j
    · cases hx : follow next h root q with
      | none =>
        have hne : q ++ [j] ≠ p ++ [i] := by
          intro heq
          obtain ⟨rfl, -⟩ := List.append_inj' heq rfl
          rw [hl.path] at hx
          cases hx
        simp [hnew, hne]
      | some x =>
        have hreach : Reaches next h root d x := ⟨q, hlen, hx⟩
        by_cases hqp : q = p
        · subst hqp
          obtain rfl : f = x := by rw [hl.path] at hx; exact Option.some.inj hx
          by_cases hji : j = i
          · subst hji
            simp [hl.slot]
          · have hrow : h' f j = h f j := hl.frame f j hreach (fun hc => hji hc.2)
            simp [hrow, hji]
        · have hxf : x ≠ f := by
            rintro rfl
            exact hqp (hu q p x hlen (Nat.le_of_lt hl.short) hx hl.path)
          have hrow : h' x j = h x j := hl.frame x j hreach (fun hc => hxf hc.1)
          have hne : q ++ [j] ≠ p ++ [i] := by
            intro heq
            exact hqp (List.append_inj' heq rfl).1
          simp [hnew, hrow, hne]

/-- After linking, the new table is reached by its own path only, so the
    structure is still a tree. -/
theorem unshared_link [DecidableEq I] {h h' : F → I → E} {root f g : F} {d : Nat} {p : List I}
    {i : I} (hl : Link next h h' root d p i f g) (hu : Unshared next h root d) :
    Unshared next h' root d := by
  intro q₁ q₂ x h₁ h₂ hx₁ hx₂
  rw [follow_link hl hu q₁ h₁] at hx₁
  rw [follow_link hl hu q₂ h₂] at hx₂
  split at hx₁ <;> split at hx₂
  · next e₁ e₂ => rw [e₁, e₂]
  · obtain rfl := Option.some.inj hx₁
    exact absurd ⟨q₂, h₂, hx₂⟩ hl.fresh
  · obtain rfl := Option.some.inj hx₂
    exact absurd ⟨q₁, h₁, hx₁⟩ hl.fresh
  · exact hu q₁ q₂ x h₁ h₂ hx₁ hx₂

/-- The tables reached after linking are the old ones and the new one. -/
theorem reaches_link [DecidableEq I] {h h' : F → I → E} {root f g : F} {d : Nat} {p : List I}
    {i : I} (hl : Link next h h' root d p i f g) (hu : Unshared next h root d) (x : F)
    (hx : Reaches next h' root d x) : Reaches next h root d x ∨ x = g := by
  obtain ⟨q, hq, hqx⟩ := hx
  rw [follow_link hl hu q hq] at hqx
  split at hqx
  · exact Or.inr (Option.some.inj hqx).symm
  · exact Or.inl ⟨q, hq, hqx⟩

/-- Linking a table changes one entry of the tables at the depths up to `d`:
    the entries of the new table did not exist and are empty. -/
theorem leafAt_link_le [DecidableEq I] {leaf : E → Option L} {h h' : F → I → E} {root f g : F}
    {d : Nat} {p : List I} {i : I} (hl : Link next h h' root d p i f g)
    (hu : Unshared next h root d) (hblank : ∀ j, leaf (h' g j) = none)
    (q : List I) (hq : q.length ≤ d) (j : I) :
    leafAt next leaf h' root q j =
      if q = p ∧ j = i then leaf (h' f i) else leafAt next leaf h root q j := by
  unfold leafAt
  rw [follow_link hl hu q hq]
  by_cases hnew : q = p ++ [i]
  · have hold : follow next h root (p ++ [i]) = none := by
      rw [follow_snoc, hl.path]
      exact hl.empty
    simp [hnew, hold, hblank j]
  · rw [if_neg hnew]
    by_cases hqp : q = p
    · subst hqp
      rw [hl.path]
      by_cases hji : j = i
      · subst hji
        simp
      · have hrow : h' f j = h f j := hl.frame f j ⟨q, hq, hl.path⟩ (fun hc => hji hc.2)
        simp [hrow, hji]
    · rw [if_neg (fun hc => hqp hc.1)]
      cases hx : follow next h root q with
      | none => rfl
      | some x =>
        have hxf : x ≠ f := by
          rintro rfl
          exact hqp (hu q p x hq (Nat.le_of_lt hl.short) hx hl.path)
        have hrow : h' x j = h x j := hl.frame x j ⟨q, hq, hx⟩ (fun hc => hxf hc.1)
        simp [hrow]

/-- Linking a table changes no leaf. -/
theorem leafAt_link [DecidableEq I] {leaf : E → Option L} {h h' : F → I → E} {root f g : F}
    {d : Nat} {p : List I} {i : I} (hl : Link next h h' root d p i f g)
    (hu : Unshared next h root d) (hblank : ∀ j, leaf (h' g j) = none)
    (q : List I) (hq : q.length = d) (j : I) :
    leafAt next leaf h' root q j = leafAt next leaf h root q j := by
  have hshort : q ≠ p := by
    rintro rfl
    exact Nat.lt_irrefl d (hq ▸ hl.short)
  rw [leafAt_link_le hl hu hblank q (Nat.le_of_eq hq), if_neg (fun hc => hshort hc.1)]

/-! ## Section 3: Writing a leaf -/

/-- Writing the leaf entry `e` at index `i` of the bottom table `f` at the end
    of `p`, and nothing else of the structure. -/
structure SetLeaf (next : E → Option F) (h h' : F → I → E) (root : F) (d : Nat)
    (p : List I) (i : I) (f : F) (e : E) : Prop where
  path   : follow next h root p = some f
  bottom : p.length = d
  slot   : h' f i = e
  frame  : ∀ x j, Reaches next h root d x → ¬ (x = f ∧ j = i) → h' x j = h x j

/-- No path goes through a bottom table, so writing a leaf moves no path. -/
theorem follow_setLeaf {h h' : F → I → E} {root f : F} {d : Nat} {p : List I} {i : I} {e : E}
    (hs : SetLeaf next h h' root d p i f e) (hu : Unshared next h root d) :
    ∀ q : List I, q.length ≤ d → follow next h' root q = follow next h root q := by
  intro q
  induction q using List.reverseRecOn with
  | nil => simp
  | append_singleton q j ih =>
    intro hq
    have hlen : q.length < d := by simp at hq; omega
    rw [follow_snoc, ih (Nat.le_of_lt hlen), follow_snoc]
    cases hx : follow next h root q with
    | none => rfl
    | some x =>
      have hxf : x ≠ f := by
        rintro rfl
        have hqp := hu q p x (Nat.le_of_lt hlen) (Nat.le_of_eq hs.bottom) hx hs.path
        rw [hqp, hs.bottom] at hlen
        exact Nat.lt_irrefl d hlen
      have hrow : h' x j = h x j := hs.frame x j ⟨q, (Nat.le_of_lt hlen), hx⟩ (fun hc => hxf hc.1)
      simp [hrow]

theorem unshared_setLeaf {h h' : F → I → E} {root f : F} {d : Nat} {p : List I} {i : I} {e : E}
    (hs : SetLeaf next h h' root d p i f e) (hu : Unshared next h root d) :
    Unshared next h' root d := by
  intro q₁ q₂ x h₁ h₂ hx₁ hx₂
  rw [follow_setLeaf hs hu q₁ h₁] at hx₁
  rw [follow_setLeaf hs hu q₂ h₂] at hx₂
  exact hu q₁ q₂ x h₁ h₂ hx₁ hx₂

theorem reaches_setLeaf {h h' : F → I → E} {root f : F} {d : Nat} {p : List I} {i : I} {e : E}
    (hs : SetLeaf next h h' root d p i f e) (hu : Unshared next h root d) (x : F)
    (hx : Reaches next h' root d x) : Reaches next h root d x := by
  obtain ⟨q, hq, hqx⟩ := hx
  exact ⟨q, hq, by rw [← follow_setLeaf hs hu q hq]; exact hqx⟩

/-- Writing a leaf changes that leaf and no other entry. -/
theorem leafAt_setLeaf [DecidableEq I] {leaf : E → Option L} {h h' : F → I → E} {root f : F}
    {d : Nat} {p : List I} {i : I} {e : E} (hs : SetLeaf next h h' root d p i f e)
    (hu : Unshared next h root d) (q : List I) (hq : q.length ≤ d) (j : I) :
    leafAt next leaf h' root q j =
      if q = p ∧ j = i then leaf e else leafAt next leaf h root q j := by
  unfold leafAt
  rw [follow_setLeaf hs hu q hq]
  by_cases hqp : q = p
  · subst hqp
    rw [hs.path]
    by_cases hji : j = i
    · subst hji
      simp [hs.slot]
    · have hrow : h' f j = h f j :=
        hs.frame f j ⟨q, hq, hs.path⟩ (fun hc => hji hc.2)
      simp [hrow, hji]
  · rw [if_neg (fun hc => hqp hc.1)]
    cases hx : follow next h root q with
    | none => rfl
    | some x =>
      have hxf : x ≠ f := by
        rintro rfl
        exact hqp (hu q p x hq (Nat.le_of_eq hs.bottom) hx hs.path)
      have hrow : h' x j = h x j := hs.frame x j ⟨q, hq, hx⟩ (fun hc => hxf hc.1)
      simp [hrow]

/-! ## Section 4: Paths without a table -/

/-- The paths of `P` that lead to no table. -/
def missing [DecidableEq I] (next : E → Option F) (h : F → I → E) (root : F)
    (P : Finset (List I)) : Finset (List I) :=
  P.filter fun q => (follow next h root q).isNone

theorem mem_missing [DecidableEq I] {h : F → I → E} {root : F} {P : Finset (List I)} {q : List I} :
    q ∈ missing next h root P ↔ q ∈ P ∧ follow next h root q = none := by
  unfold missing
  rw [Finset.mem_filter, Option.isNone_iff_eq_none]

theorem missing_congr [DecidableEq I] {h h' : F → I → E} {root : F} {P : Finset (List I)}
    (hsame : ∀ q ∈ P, follow next h' root q = follow next h root q) :
    missing next h' root P = missing next h root P := by
  ext q
  rw [mem_missing, mem_missing]
  constructor
  · intro hq
    exact ⟨hq.1, (hsame q hq.1).symm.trans hq.2⟩
  · intro hq
    exact ⟨hq.1, (hsame q hq.1).trans hq.2⟩

/-- **Linking a table takes its path off the missing ones.** -/
theorem card_missing_link [DecidableEq I] {h h' : F → I → E} {root f g : F} {d : Nat} {p : List I}
    {i : I} {P : Finset (List I)} (hl : Link next h h' root d p i f g)
    (hu : Unshared next h root d) (hP : ∀ q ∈ P, q.length ≤ d) (hp : p ++ [i] ∈ P) :
    (missing next h root P).card = (missing next h' root P).card + 1 := by
  have hnone : follow next h root (p ++ [i]) = none := by
    rw [follow_snoc, hl.path]
    exact hl.empty
  have herase : missing next h' root P = (missing next h root P).erase (p ++ [i]) := by
    ext q
    rw [Finset.mem_erase, mem_missing, mem_missing]
    by_cases hq : q = p ++ [i]
    · subst hq
      simp [follow_link hl hu _ (hP _ hp)]
    · by_cases hqP : q ∈ P
      · rw [follow_link hl hu q (hP q hqP), if_neg hq]
        simp [hq]
      · simp [hqP]
  rw [herase, Finset.card_erase_add_one (mem_missing.mpr ⟨hp, hnone⟩)]

end TableTree
