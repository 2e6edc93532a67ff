import Mathlib.Tactic.Common

/-! # Programs that read through handles

    A driver that returns a pointer into one static buffer gives its callers a
    handle that is good until the next read.  This module takes such a caller
    as a program whose only operations are to read a key, which yields a new
    handle, and to use a handle, and runs it in two ways:

    * `runShared`: one buffer, which every read overwrites, behind all handles;
    * `runPrivate`: a copy of its own for every read.

    `Fresh` says that no step uses a handle after a later read, and
    `Fresh.run_eq` that the two runs of such a program agree.

    Keys and values are arbitrary types; `fetch` is what a read yields.
-/

namespace Handles

/-! ## Section 1: Programs -/

/-- A program that returns an `α`.  Handles are numbered in the order of the
    reads. -/
inductive Prog (K V α : Type) where
  | ret  : α → Prog K V α
  | read : K → (Nat → Prog K V α) → Prog K V α
  | use  : Nat → (V → Prog K V α) → Prog K V α

variable {K V α β : Type}

namespace Prog

def bind : Prog K V α → (α → Prog K V β) → Prog K V β
  | ret a, f => f a
  | read key next, f => read key fun h => (next h).bind f
  | use h next, f => use h fun v => (next v).bind f

instance : Monad (Prog K V) where
  pure := ret
  bind := bind

end Prog

/-- Read a key. -/
def read (key : K) : Prog K V Nat := .read key .ret

/-- The value behind a handle. -/
def use (h : Nat) : Prog K V V := .use h .ret

/-! ## Section 2: The two runs -/

/-- One buffer, and the number of reads so far. -/
structure Shared (V : Type) where
  count  : Nat
  buffer : V

variable (fetch : K → V)

/-- The run with one buffer behind all handles. -/
def runShared : Prog K V α → Shared V → α × Shared V
  | .ret a, s => (a, s)
  | .read key next, s => runShared (next s.count) ⟨s.count + 1, fetch key⟩
  | .use _ next, s => runShared (next s.buffer) s

/-- The run with a copy for each read; `none` is the use of a handle that was
    never given out. -/
def runPrivate : Prog K V α → List V → Option (α × List V)
  | .ret a, copies => some (a, copies)
  | .read key next, copies => runPrivate (next copies.length) (copies ++ [fetch key])
  | .use h next, copies =>
    match copies[h]? with
    | none => none
    | some v => runPrivate (next v) copies

/-- Every handle that the program uses is that of the last read. -/
def Fresh : Prog K V α → List V → Prop
  | .ret _, _ => True
  | .read key next, copies => Fresh (next copies.length) (copies ++ [fetch key])
  | .use h next, copies => ∃ v, h + 1 = copies.length ∧ copies[h]? = some v ∧ Fresh (next v) copies

/-! ## Section 3: Sequences -/

@[simp] theorem runShared_pure (a : α) (s : Shared V) :
    runShared fetch (pure a) s = (a, s) := rfl

@[simp] theorem runShared_read (key : K) (s : Shared V) :
    runShared fetch (read key) s = (s.count, ⟨s.count + 1, fetch key⟩) := rfl

@[simp] theorem runShared_use (h : Nat) (s : Shared V) :
    runShared fetch (use h) s = (s.buffer, s) := rfl

@[simp] theorem runShared_bind (p : Prog K V α) (f : α → Prog K V β) (s : Shared V) :
    runShared fetch (p >>= f) s
      = runShared fetch (f (runShared fetch p s).1) (runShared fetch p s).2 := by
  show runShared fetch (p.bind f) s = _
  induction p generalizing s with
  | ret a => rfl
  | read key next ih => exact ih s.count _
  | use h next ih => exact ih s.buffer s

variable {fetch}

/-- **Rule for sequences**: the second program is fresh wherever the private run
    of the first one ends. -/
theorem fresh_bind {p : Prog K V α} {f : α → Prog K V β} {copies : List V}
    (hp : Fresh fetch p copies)
    (hf : ∀ a copies', runPrivate fetch p copies = some (a, copies') → Fresh fetch (f a) copies') :
    Fresh fetch (p >>= f) copies := by
  show Fresh fetch (p.bind f) copies
  induction p generalizing copies with
  | ret a => exact hf a copies rfl
  | read key next ih => exact ih copies.length hp hf
  | use h next ih =>
    obtain ⟨v, hlast, hv, hnext⟩ := hp
    refine ⟨v, hlast, hv, ih v hnext fun a copies' hrun => hf a copies' ?_⟩
    unfold runPrivate
    rw [hv]
    exact hrun

/-- Reading a key and using its handle at once. -/
theorem fresh_read_use {key : K} {f : Nat → V → Prog K V β} {copies : List V}
    (hf : Fresh fetch (f copies.length (fetch key)) (copies ++ [fetch key])) :
    Fresh fetch (read key >>= fun h => use h >>= f h) copies := by
  have hv : (copies ++ [fetch key])[copies.length]? = some (fetch key) := by simp
  exact ⟨fetch key, by simp, hv, hf⟩

/-! ## Section 4: The two runs agree -/

/-- The shared buffer holds the last private copy. -/
structure Agrees (copies : List V) (s : Shared V) : Prop where
  count  : s.count = copies.length
  latest : ∀ h, h + 1 = copies.length → copies[h]? = some s.buffer

theorem agrees_nil (buffer : V) : Agrees [] ⟨0, buffer⟩ :=
  ⟨rfl, fun h hlen => by simp at hlen⟩

theorem agrees_snoc {copies : List V} {s : Shared V} (h : Agrees copies s) (v : V) :
    Agrees (copies ++ [v]) ⟨s.count + 1, v⟩ := by
  constructor
  · simp [h.count]
  · intro i hi
    have hlen : i = copies.length := by simpa using hi
    simp [hlen]

/-- **A fresh program cannot tell the runs apart.** -/
theorem Fresh.run_eq {p : Prog K V α} {copies : List V} {s : Shared V}
    (hp : Fresh fetch p copies) (hs : Agrees copies s) :
    ∃ copies', runPrivate fetch p copies = some ((runShared fetch p s).1, copies') ∧
      Agrees copies' (runShared fetch p s).2 := by
  induction p generalizing copies s with
  | ret a => exact ⟨copies, rfl, hs⟩
  | read key next ih =>
    have hnext := ih copies.length hp (agrees_snoc hs (fetch key))
    rw [← hs.count] at hnext
    unfold runPrivate
    rw [← hs.count]
    exact hnext
  | use h next ih =>
    obtain ⟨v, hlast, hv, hnext⟩ := hp
    -- The handle is that of the last read, so the buffer holds its value.
    obtain rfl : v = s.buffer := Option.some.inj (hv.symm.trans (hs.latest h hlast))
    unfold runPrivate
    rw [hv]
    exact ih _ hnext hs

end Handles
