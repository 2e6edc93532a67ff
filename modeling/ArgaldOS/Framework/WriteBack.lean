import Mathlib.Data.Fintype.EquivFin
import Mathlib.Logic.Function.Basic
import Mathlib.Tactic.Common

/-! # Deferred writes

    An array whose writes are collected in a queue and carried out later.  `base` is
    what has been carried out.  The queue holds the pending writes, at most one
    for each cell: `slot i` is the position of the write for cell `i`.  Whoever reads
    the array looks for a pending write first, and so sees `view`.

    `push` queues a write; it leaves out a write that changes nothing, and replaces
    a pending one.  `commit` carries out the pending write of one cell, whenever it
    is wanted.  A flush commits the cells of the queue, in the order of the queue, and
    passes over those that were committed before.

    * `Linked.view_push`, `Linked.push`: a write is seen at once, and the queue
      stays consistent;
    * `Linked.count_lt`: the queue of an array of `n` cells never needs more than `n`
      positions;
    * `Sound.commit`, `flushed_view`: a flush carries out exactly the writes that were
      pending, and nobody sees a difference.
-/

namespace WriteBack

/-- The array, and the queue of its pending writes. -/
structure Buffer (V : Type u) where
  base  : Nat → V
  queue : Nat → Nat × V
  count : Nat
  slot  : Nat → Option Nat

variable {V : Type u}

namespace Buffer

/-! ## Section 1: Operations -/

/-- What a reader sees in cell `i`. -/
def view (b : Buffer V) (i : Nat) : V :=
  match b.slot i with
  | some q => (b.queue q).2
  | none => b.base i

/-- The write of `v` to cell `i`. -/
def push [DecidableEq V] (b : Buffer V) (i : Nat) (v : V) : Buffer V :=
  match b.slot i with
  | some q => { b with queue := Function.update b.queue q (i, v) }
  | none =>
    if b.base i = v then b
    else
      { b with
        queue := Function.update b.queue b.count (i, v)
        count := b.count + 1
        slot  := Function.update b.slot i (some b.count) }

/-- The pending write of cell `i` is carried out. -/
def commit (b : Buffer V) (i : Nat) : Buffer V :=
  match b.slot i with
  | some q =>
    { b with base := Function.update b.base i (b.queue q).2, slot := Function.update b.slot i none }
  | none => b

/-- The queue is empty again. -/
def reset (b : Buffer V) : Buffer V := { b with count := 0 }

/-! ## Section 2: Invariants -/

/-- Positions and cells agree: a position that a cell names holds a write for that
    cell, and the cell of a queued write is one of the `n` cells and names no other
    position. -/
structure Sound (b : Buffer V) (n : Nat) : Prop where
  target  : ∀ q, q < b.count → (b.queue q).1 < n
  pending : ∀ i q, b.slot i = some q → q < b.count ∧ (b.queue q).1 = i
  named   : ∀ q, q < b.count → b.slot (b.queue q).1 = none ∨ b.slot (b.queue q).1 = some q

/-- `Sound`, and no write of the queue has been carried out yet. -/
structure Linked (b : Buffer V) (n : Nat) : Prop extends Sound b n where
  linked : ∀ q, q < b.count → b.slot (b.queue q).1 = some q

end Buffer

open Buffer

variable {b : Buffer V} {n i : Nat} {v : V}

theorem Buffer.Linked.of_linked (htarget : ∀ q, q < b.count → (b.queue q).1 < n)
    (hpending : ∀ i q, b.slot i = some q → q < b.count ∧ (b.queue q).1 = i)
    (hlinked : ∀ q, q < b.count → b.slot (b.queue q).1 = some q) : b.Linked n where
  target  := htarget
  pending := hpending
  named   := fun q hq => Or.inr (hlinked q hq)
  linked  := hlinked

/-- The queue names every cell at most once. -/
theorem Buffer.Linked.injective (h : b.Linked n) {q q' : Nat} (hq : q < b.count)
    (hq' : q' < b.count) (heq : (b.queue q).1 = (b.queue q').1) : q = q' := by
  have hslot : some q = some q' := by rw [← h.linked q hq, heq, h.linked q' hq']
  exact Option.some.inj hslot

/-- **The queue is long enough**: while a cell has no pending write, fewer than `n`
    positions are in use. -/
theorem Buffer.Linked.count_lt (h : b.Linked n) (hi : i < n) (hnone : b.slot i = none) :
    b.count < n := by
  by_contra hle
  have hn : n ≤ b.count := Nat.le_of_not_lt hle
  -- The first `n` positions name `n` different cells, and so all of them.
  let cell : Fin n → Fin n := fun q => ⟨(b.queue q).1, h.target q (by omega)⟩
  have hinj : Function.Injective cell := by
    intro q q' heq
    have hcell : (b.queue q).1 = (b.queue q').1 := congrArg Fin.val heq
    exact Fin.ext (h.injective (by omega) (by omega) hcell)
  obtain ⟨q, hq⟩ := Finite.surjective_of_injective hinj ⟨i, hi⟩
  have hcell : (b.queue q).1 = i := congrArg Fin.val hq
  have hslot := h.linked q (by omega)
  rw [hcell, hnone] at hslot
  cases hslot

theorem Buffer.Linked.count_le (h : b.Linked n) : b.count ≤ n := by
  by_contra hlt
  let cell : Fin (n + 1) → Fin n := fun q => ⟨(b.queue q).1, h.target q (by omega)⟩
  have hinj : Function.Injective cell := by
    intro q q' heq
    have hcell : (b.queue q).1 = (b.queue q').1 := congrArg Fin.val heq
    exact Fin.ext (h.injective (by omega) (by omega) hcell)
  have hcard := Fintype.card_le_of_injective cell hinj
  simp only [Fintype.card_fin] at hcard
  omega

/-! ## Section 3: Writes -/

section push
variable [DecidableEq V]

/-- **A write is seen at once**, and no other cell changes. -/
theorem Buffer.Linked.view_push (h : b.Linked n) (i : Nat) (v : V) :
    (b.push i v).view = Function.update b.view i v := by
  funext j
  cases hslot : b.slot i with
  | some q =>
    simp only [push, hslot, view, Function.update_apply]
    cases hj : b.slot j with
    | none =>
      have hne : j ≠ i := fun heq => by rw [heq, hslot] at hj; cases hj
      rw [if_neg hne]
    | some q' =>
      by_cases hji : j = i
      · have hqq : q' = q := by rw [hji, hslot] at hj; exact (Option.some.inj hj).symm
        simp only [if_pos hji, if_pos hqq]
      · have hqq : q' ≠ q := by
          intro heq
          rw [heq] at hj
          exact hji ((h.pending j q hj).2.symm.trans (h.pending i q hslot).2)
        simp only [if_neg hji, if_neg hqq]
  | none =>
    by_cases hbase : b.base i = v
    · simp only [push, hslot, if_pos hbase, Function.update_apply]
      by_cases hji : j = i
      · simp only [view, hji, hslot, hbase, if_true]
      · rw [if_neg hji]
    · simp only [push, hslot, if_neg hbase, view, Function.update_apply]
      by_cases hji : j = i
      · simp only [if_pos hji, if_true]
      · simp only [if_neg hji]
        cases hj : b.slot j with
        | none => rfl
        | some q =>
          have hne : q ≠ b.count := Nat.ne_of_lt (h.pending j q hj).1
          simp only [if_neg hne]

/-- The queue stays consistent. -/
theorem Buffer.Linked.push (h : b.Linked n) (hi : i < n) (v : V) : (b.push i v).Linked n := by
  cases hslot : b.slot i with
  | some q =>
    obtain ⟨hq, htarget⟩ := h.pending i q hslot
    -- Only the value of position `q` changes.
    have hcell : ∀ p, (Function.update b.queue q (i, v) p).1 = (b.queue p).1 := by
      intro p
      by_cases hp : p = q
      · rw [hp, Function.update_self, htarget]
      · rw [Function.update_of_ne hp]
    simp only [Buffer.push, hslot]
    refine Linked.of_linked ?_ ?_ ?_
    · intro p hp
      rw [hcell]
      exact h.target p hp
    · intro j p hj
      rw [hcell]
      exact h.pending j p hj
    · intro p hp
      rw [hcell]
      exact h.linked p hp
  | none =>
    by_cases hbase : b.base i = v
    · simp only [Buffer.push, hslot, if_pos hbase]
      exact h
    · simp only [Buffer.push, hslot, if_neg hbase]
      have hold : ∀ p, p < b.count →
          Function.update b.queue b.count (i, v) p = b.queue p := fun p hp =>
        Function.update_of_ne (Nat.ne_of_lt hp) _ _
      refine Linked.of_linked ?_ ?_ ?_
      · intro p hp
        dsimp only at hp ⊢
        rcases Nat.lt_succ_iff_lt_or_eq.mp hp with hlt | rfl
        · rw [hold p hlt]
          exact h.target p hlt
        · rw [Function.update_self]
          exact hi
      · intro j p hj
        dsimp only at hj ⊢
        by_cases hji : j = i
        · rw [hji, Function.update_self] at hj
          obtain rfl := Option.some.inj hj
          rw [Function.update_self]
          exact ⟨Nat.lt_succ_self _, hji.symm⟩
        · rw [Function.update_of_ne hji] at hj
          obtain ⟨hp, htarget⟩ := h.pending j p hj
          rw [hold p hp]
          exact ⟨Nat.lt_succ_of_lt hp, htarget⟩
      · intro p hp
        dsimp only at hp ⊢
        rcases Nat.lt_succ_iff_lt_or_eq.mp hp with hlt | rfl
        · have hne : (b.queue p).1 ≠ i := by
            intro heq
            have hlinked := h.linked p hlt
            rw [heq, hslot] at hlinked
            cases hlinked
          rw [hold p hlt, Function.update_of_ne hne]
          exact h.linked p hlt
        · rw [Function.update_self, Function.update_self]

end push

/-! ## Section 4: Carrying writes out -/

/-- **Nobody sees** that a write is carried out. -/
theorem view_commit (b : Buffer V) (i : Nat) : (b.commit i).view = b.view := by
  funext j
  cases hslot : b.slot i with
  | none => simp only [commit, hslot]
  | some q =>
    simp only [commit, hslot, view, Function.update_apply]
    by_cases hji : j = i
    · simp only [hji, hslot, if_true]
    · simp only [if_neg hji]

/-- The cell has no pending write any more, and the others keep theirs. -/
theorem slot_commit (b : Buffer V) (i : Nat) :
    (b.commit i).slot = Function.update b.slot i none := by
  cases hslot : b.slot i with
  | none =>
    simp only [commit, hslot]
    exact (Function.update_eq_self_iff.mpr hslot.symm).symm
  | some q => simp only [commit, hslot]

theorem base_commit_of_ne (b : Buffer V) {i j : Nat} (h : j ≠ i) :
    (b.commit i).base j = b.base j := by
  cases hslot : b.slot i with
  | none => simp only [commit, hslot]
  | some q => simp only [commit, hslot, Function.update_of_ne h]

@[simp] theorem queue_commit (b : Buffer V) (i : Nat) : (b.commit i).queue = b.queue := by
  cases hslot : b.slot i <;> simp only [commit, hslot]

@[simp] theorem count_commit (b : Buffer V) (i : Nat) : (b.commit i).count = b.count := by
  cases hslot : b.slot i <;> simp only [commit, hslot]

theorem Buffer.Sound.commit (h : b.Sound n) (i : Nat) : (b.commit i).Sound n where
  target := by
    intro q hq
    rw [count_commit] at hq
    rw [queue_commit]
    exact h.target q hq
  pending := by
    intro j q hj
    rw [slot_commit, Function.update_apply] at hj
    split at hj
    · cases hj
    · rw [count_commit, queue_commit]
      exact h.pending j q hj
  named := by
    intro q hq
    rw [count_commit] at hq
    rw [queue_commit, slot_commit, Function.update_apply]
    split
    · exact Or.inl rfl
    · exact h.named q hq

/-- Every pending write is at position `k` or behind it: where a flush stands after
    `k` positions. -/
def Buffer.FlushedTo (b : Buffer V) (k : Nat) : Prop := ∀ i q, b.slot i = some q → k ≤ q

theorem Buffer.FlushedTo.zero (b : Buffer V) : b.FlushedTo 0 := fun _ _ _ => Nat.zero_le _

/-- One step of a flush. -/
theorem Buffer.FlushedTo.succ {k : Nat} (hflushed : b.FlushedTo k) (h : b.Sound n) :
    (b.commit (b.queue k).1).FlushedTo (k + 1) := by
  intro i q hq
  rw [slot_commit, Function.update_apply] at hq
  split at hq
  · cases hq
  · next hne =>
    have hle := hflushed i q hq
    have hqk : q ≠ k := by
      intro heq
      rw [← heq] at hne
      exact hne (h.pending i q hq).2.symm
    omega

/-- After a flush no write is pending, and the array is what everyone saw before. -/
theorem flushed_view (h : b.Sound n) (hflushed : b.FlushedTo b.count) :
    b.slot = (fun _ => none) ∧ b.base = b.view := by
  have hslot : ∀ i, b.slot i = none := by
    intro i
    cases hi : b.slot i with
    | none => rfl
    | some q => exact absurd (h.pending i q hi).1 (Nat.not_lt_of_le (hflushed i q hi))
  refine ⟨funext hslot, ?_⟩
  funext i
  simp only [view, hslot i]

/-- An empty queue is consistent. -/
theorem linked_reset (h : b.slot = fun _ => none) : b.reset.Linked n := by
  refine Buffer.Linked.of_linked (fun _ hq => absurd hq (Nat.not_lt_zero _)) ?_
    fun _ hq => absurd hq (Nat.not_lt_zero _)
  intro i q hi
  have hnone : b.slot i = none := congrFun h i
  rw [show b.reset.slot i = b.slot i from rfl, hnone] at hi
  cases hi

@[simp] theorem view_reset (b : Buffer V) : b.reset.view = b.view := rfl

end WriteBack
