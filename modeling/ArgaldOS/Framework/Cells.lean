import ArgaldOS.Framework.Programs
import ArgaldOS.Framework.Terminated
import Mathlib.Order.ConditionallyCompleteLattice.Basic
import Mathlib.Data.Int.ConditionallyCompleteOrder

/-! # Memory with a record of accesses

    A memory of cells that also keeps what was read and what was written, so
    that a program can be shown to stay inside its buffers.

    * `load`, `store`: the two accesses, with their rules `ends_load` and
      `ends_store`;
    * `Touches R W m m'`: between `m` and `m'` only cells of `R` were read and
      only cells of `W` written;
    * `Holds m s l`: the cells from `s` on hold the list `l`;
    * `StringAt nul m s text`: they hold the string `text`;
    * `m.cellsFrom s n`: the list of what the `n` cells from `s` on hold.
-/

/-- A memory and its history. -/
structure Cells (A : Type u) (V : Type v) where
  cell   : A → V
  /-- The cells that were read, oldest first. -/
  reads  : List A
  /-- The cells that were written, oldest first. -/
  writes : List A

namespace Cells

/-! ## Section 1: Accesses -/

section accesses
variable {A V : Type u}

/-- The memory after a read. -/
def loaded (m : Cells A V) (a : A) : Cells A V := { m with reads := m.reads ++ [a] }

/-- The memory after a write. -/
def stored [DecidableEq A] (m : Cells A V) (a : A) (v : V) : Cells A V :=
  { m with
    cell   := fun b => if b = a then v else m.cell b
    writes := m.writes ++ [a] }

/-- Read a cell. -/
def load (a : A) : Program (Cells A V) V := Program.step fun m => (m.cell a, m.loaded a)

/-- Write a cell. -/
def store [DecidableEq A] (a : A) (v : V) : Program (Cells A V) PUnit :=
  Program.step fun m => (⟨⟩, m.stored a v)

variable {m : Cells A V} {a b : A} {v : V}

@[simp] theorem cell_loaded : (m.loaded a).cell = m.cell := rfl

theorem ends_load {Q : V → Cells A V → Prop} (h : Q (m.cell a) (m.loaded a)) :
    Program.Ends (load a) m Q :=
  Program.Ends.step h

section stored
variable [DecidableEq A]

@[simp] theorem cell_stored_self : (m.stored a v).cell a = v := if_pos rfl

@[simp] theorem cell_stored_of_ne (h : b ≠ a) : (m.stored a v).cell b = m.cell b := if_neg h

theorem ends_store {Q : PUnit → Cells A V → Prop} (h : Q ⟨⟩ (m.stored a v)) :
    Program.Ends (store a v) m Q :=
  Program.Ends.step h

end stored

/-! ## Section 2: Which cells are accessed -/

/-- Between `m` and `m'` only cells of `R` were read and only cells of `W`
    written. -/
structure Touches (R W : Set A) (m m' : Cells A V) : Prop where
  reads  : ∃ as, m'.reads = m.reads ++ as ∧ ∀ a ∈ as, a ∈ R
  writes : ∃ as, m'.writes = m.writes ++ as ∧ ∀ a ∈ as, a ∈ W
  frame  : ∀ a, a ∉ W → m'.cell a = m.cell a

variable {R W : Set A} {m' m'' : Cells A V}

/-- Accesses to some cells, and then to some more of them. -/
theorem exists_append {U : Set A} {l l' l'' : List A} (h : ∃ as, l' = l ++ as ∧ ∀ a ∈ as, a ∈ U)
    (h' : ∃ as, l'' = l' ++ as ∧ ∀ a ∈ as, a ∈ U) : ∃ as, l'' = l ++ as ∧ ∀ a ∈ as, a ∈ U := by
  obtain ⟨as, rfl, has⟩ := h
  obtain ⟨bs, rfl, hbs⟩ := h'
  refine ⟨as ++ bs, List.append_assoc l as bs, ?_⟩
  intro a ha
  rcases List.mem_append.mp ha with hmem | hmem
  · exact has a hmem
  · exact hbs a hmem

theorem Touches.refl (R W : Set A) (m : Cells A V) : Touches R W m m where
  reads  := ⟨[], by simp, by simp⟩
  writes := ⟨[], by simp, by simp⟩
  frame  := fun _ _ => rfl

theorem Touches.trans (h : Touches R W m m') (h' : Touches R W m' m'') : Touches R W m m'' where
  reads  := exists_append h.reads h'.reads
  writes := exists_append h.writes h'.writes
  frame  := fun a ha => (h'.frame a ha).trans (h.frame a ha)

/-- More cells may be touched than are. -/
theorem Touches.mono {P Q : Set A} (h : Touches R W m m') (hR : R ⊆ P) (hW : W ⊆ Q) :
    Touches P Q m m' where
  reads  := h.reads.imp fun _ has => ⟨has.1, fun a ha => hR (has.2 a ha)⟩
  writes := h.writes.imp fun _ has => ⟨has.1, fun a ha => hW (has.2 a ha)⟩
  frame  := fun a ha => h.frame a fun hmem => ha (hW hmem)

/-- Without writes every cell stays as it is. -/
theorem Touches.cell_eq (h : Touches R ∅ m m') : m'.cell = m.cell :=
  funext fun a => h.frame a fun hmem => hmem

theorem Touches.writes_eq (h : Touches R ∅ m m') : m'.writes = m.writes := by
  obtain ⟨as, has, hmem⟩ := h.writes
  rw [has, List.eq_nil_iff_forall_not_mem.mpr hmem, List.append_nil]

/-- The last write is one that is allowed. -/
theorem Touches.mem_of_writes (h : Touches R W m m') (ha : m'.writes = m.writes ++ [a]) :
    a ∈ W := by
  obtain ⟨as, has, hmem⟩ := h.writes
  rw [ha] at has
  obtain rfl := List.append_cancel_left has
  exact hmem a (List.mem_singleton_self a)

theorem Touches.loaded (h : Touches R W m m') (ha : a ∈ R) : Touches R W m (m'.loaded a) where
  reads  := exists_append h.reads ⟨[a], rfl, by simpa using ha⟩
  writes := h.writes
  frame  := h.frame

theorem Touches.stored [DecidableEq A] (h : Touches R W m m') (ha : a ∈ W) :
    Touches R W m (m'.stored a v) where
  reads  := h.reads
  writes := exists_append h.writes ⟨[a], rfl, by simpa using ha⟩
  frame := by
    intro b hb
    have hne : b ≠ a := fun heq => hb (heq ▸ ha)
    rw [cell_stored_of_ne hne]
    exact h.frame b hb

end accesses

/-! ## Section 3: Lists and strings in memory -/

section lists
variable {V : Type} {m m' : Cells Int V} {s : Int} {l : List V} {v : V} {nul : V} {text : List V}

/-- The cells from `s` on hold the list `l`. -/
def Holds (m : Cells Int V) (s : Int) (l : List V) : Prop :=
  ∀ k (h : k < l.length), m.cell (s + k) = l[k]

/-- The cells from `s` on hold the string `text`. -/
def StringAt (nul : V) (m : Cells Int V) (s : Int) (text : List V) : Prop :=
  Terminated.Stores nul (fun k : Nat => m.cell (s + k)) text

theorem holds_nil : Holds m s [] := fun _ h => absurd h (Nat.not_lt_zero _)

/-- One more element. -/
theorem Holds.snoc (h : Holds m s l) {a : Int} (ha : a = s + l.length) :
    Holds (m.stored a v) s (l ++ [v]) := by
  intro k hk
  subst ha
  rw [List.length_append, List.length_singleton] at hk
  by_cases hend : k = l.length
  · subst hend
    simp
  · have hlt : k < l.length := by omega
    rw [cell_stored_of_ne (by omega), List.getElem_append_left hlt]
    exact h k hlt

/-- Only the cells of the list count. -/
theorem Holds.congr (h : Holds m s l) (hm : ∀ k : Nat, k < l.length →
    m'.cell (s + k) = m.cell (s + k)) : Holds m' s l :=
  fun k hk => (hm k hk).trans (h k hk)

/-- Two lists behind each other. -/
theorem Holds.append {l' : List V} (h : Holds m s l) (h' : Holds m (s + l.length) l') :
    Holds m s (l ++ l') := by
  intro k hk
  rw [List.length_append] at hk
  by_cases hlt : k < l.length
  · rw [List.getElem_append_left hlt]
    exact h k hlt
  · rw [List.getElem_append_right (by omega), ← h' (k - l.length) (by omega)]
    congr 1
    omega

/-- The first of two lists behind each other. -/
theorem Holds.left {l' : List V} (h : Holds m s (l ++ l')) : Holds m s l := by
  intro k hk
  have hcell := h k (by rw [List.length_append]; omega)
  rwa [List.getElem_append_left hk] at hcell

/-- A list and its terminator are a string. -/
theorem Holds.stringAt (h : Holds m s (l ++ [nul])) (hplain : ∀ c ∈ l, c ≠ nul) :
    StringAt nul m s l where
  chars := h.left
  ended := by
    have hcell := h l.length (by simp)
    simpa using hcell
  plain := hplain

theorem StringAt.holds (h : StringAt nul m s text) : Holds m s text := h.chars

/-- A string and its terminator are a list. -/
theorem StringAt.terminated (h : StringAt nul m s text) : Holds m s (text ++ [nul]) := by
  apply h.holds.append
  intro k hk
  obtain rfl := Nat.lt_one_iff.mp hk
  simpa using h.ended

/-- The second part of a string is a string. -/
theorem StringAt.right {l' : List V} (h : StringAt nul m s (l ++ l')) :
    StringAt nul m (s + l.length) l' where
  chars := by
    intro k hk
    have hcell := h.chars (l.length + k) (by rw [List.length_append]; omega)
    simpa [Int.add_assoc] using hcell
  ended := by
    have hcell := h.ended
    simpa [Int.add_assoc] using hcell
  plain := fun c hc => h.plain c (List.mem_append_right l hc)

/-- The character behind the first part of a string. -/
theorem StringAt.cell_append {c : V} {l' : List V} (h : StringAt nul m s (l ++ c :: l')) :
    m.cell (s + l.length) = c := by
  have hcell := h.chars l.length (by simp)
  simpa using hcell

/-- Only the cells of the string and of its terminator count. -/
theorem StringAt.congr (h : StringAt nul m s text) (hm : ∀ k : Nat, k ≤ text.length →
    m'.cell (s + k) = m.cell (s + k)) : StringAt nul m' s text where
  chars := fun k hk => (hm k (Nat.le_of_lt hk)).trans (h.chars k hk)
  ended := (hm text.length (Nat.le_refl _)).trans h.ended
  plain := h.plain

/-- **A place holds one string**. -/
theorem StringAt.unique {text' : List V} (h : StringAt nul m s text)
    (h' : StringAt nul m s text') : text = text' :=
  Terminated.Stores.unique h h'

/-- The `n` cells from `s` on. -/
def cellsFrom (m : Cells Int V) (s : Int) (n : Nat) : List V :=
  (List.range n).map fun k : Nat => m.cell (s + k)

@[simp] theorem length_cellsFrom (s : Int) (n : Nat) : (m.cellsFrom s n).length = n := by
  simp [cellsFrom]

theorem mem_cellsFrom {n : Nat} : v ∈ m.cellsFrom s n ↔ ∃ k : Nat, k < n ∧ m.cell (s + k) = v := by
  simp [cellsFrom]

/-- Some cells, and the ones behind them. -/
theorem cellsFrom_add (s : Int) (i n : Nat) :
    m.cellsFrom s (i + n) = m.cellsFrom s i ++ m.cellsFrom (s + i) n := by
  unfold cellsFrom
  rw [List.range_add, List.map_append, List.map_map]
  congr 1
  apply List.map_congr_left
  intro k _
  show m.cell (s + (i + k : Nat)) = m.cell (s + i + k)
  congr 1
  omega

/-- The first terminator among `n` cells, or their end. -/
theorem exists_first_nul (nul : V) (m : Cells Int V) (s : Int) (n : Nat) : ∃ k ≤ n,
    (∀ i : Nat, i < k → m.cell (s + i) ≠ nul) ∧ (k < n → m.cell (s + k) = nul) := by
  by_cases hnul : ∃ i : Nat, i < n ∧ m.cell (s + i) = nul
  · obtain ⟨text, htext, hlen⟩ :=
      Terminated.exists_stores (w := fun i : Nat => m.cell (s + i)) hnul
    exact ⟨text.length, Nat.le_of_lt hlen, fun i hi => htext.ne_nul hi, fun _ => htext.ended⟩
  · refine ⟨n, Nat.le_refl n, ?_, fun h => absurd h (Nat.lt_irrefl n)⟩
    intro i hi hzero
    exact hnul ⟨i, hi, hzero⟩

/-- The cells in front of the first terminator. -/
theorem takeWhile_cellsFrom [DecidableEq V] {n k : Nat} (hk : k ≤ n)
    (hplain : ∀ i : Nat, i < k → m.cell (s + i) ≠ nul) (hended : k < n → m.cell (s + k) = nul) :
    (m.cellsFrom s n).takeWhile (· ≠ nul) = m.cellsFrom s k := by
  have hfront : ∀ c ∈ m.cellsFrom s k, decide (c ≠ nul) = true := by
    intro c hc
    obtain ⟨i, hi, rfl⟩ := mem_cellsFrom.mp hc
    exact decide_eq_true (hplain i hi)
  obtain ⟨j, rfl⟩ := Nat.exists_eq_add_of_le hk
  rw [cellsFrom_add, List.takeWhile_append_of_pos hfront]
  cases j with
  | zero => simp [cellsFrom]
  | succ j =>
    have hnext : m.cellsFrom (s + k) (j + 1) = m.cell (s + k) :: m.cellsFrom (s + k + 1) j := by
      rw [Nat.add_comm j 1, cellsFrom_add]
      simp [cellsFrom]
    rw [hnext, List.takeWhile_cons_of_neg (by simpa using hended (by omega)), List.append_nil]

/-- The cells in front of a terminator are a string. -/
theorem stringAt_cellsFrom {n : Nat} (hplain : ∀ k : Nat, k < n → m.cell (s + k) ≠ nul)
    (hended : m.cell (s + n) = nul) : StringAt nul m s (m.cellsFrom s n) where
  chars := by simp [cellsFrom]
  ended := by simpa using hended
  plain := by
    intro c hc
    obtain ⟨k, hk, rfl⟩ := mem_cellsFrom.mp hc
    exact hplain k hk

/-- A memory that holds the list `l` at `s`, and `v` in all other cells. -/
def ofList (s : Int) (l : List V) (v : V) : Cells Int V where
  cell   := fun a => if a < s then v else l.getD (a - s).toNat v
  reads  := []
  writes := []

theorem cell_ofList (k : Nat) : (ofList s l v).cell (s + k) = l.getD k v := by
  have hge : ¬ s + (k : Int) < s := by omega
  have hidx : (s + (k : Int) - s).toNat = k := by omega
  unfold ofList
  simp only [if_neg hge, hidx]

theorem stringAt_ofList (h : ∀ c ∈ text, c ≠ nul) : StringAt nul (ofList s text nul) s text where
  chars := fun k hk => by simp [cell_ofList, hk]
  ended := by simp [cell_ofList]
  plain := h

end lists

end Cells
