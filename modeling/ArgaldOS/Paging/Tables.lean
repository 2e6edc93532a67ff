import ArgaldOS.Framework.TableTree
import ArgaldOS.Paging.Allocator

/-! # Well-formed page tables

    The invariant of the page tables in memory is that the four levels form a
    tree of distinct frames that the allocator handed out.  The heap library
    does the induction over index paths; this module instantiates it at the
    tables in physical memory and proves

    * `walk_eq_view`: on well-formed tables the hardware walk is the lookup of
      the tree;
    * `alloc_table_cases`: what `alloc_table` does;
    * `paged_link`: hanging a new table into an empty entry, the one way in
      which the tables grow;
    * `paged_setLeaf`: writing a leaf entry, the one way in which a
      translation changes.
-/

namespace ArgaldOS

open TableTree Loops

/-! ## Section 1: Entries -/

/-- Where a present entry of an upper table points. -/
def nextTable (e : UInt64) : Option UInt64 :=
  if e &&& PAGE_PRESENT = 0 then none else some (e &&& ~~~0xFFF)

/-- A present leaf entry. -/
def leafEntry (e : UInt64) : Option UInt64 := if e &&& PAGE_PRESENT = 0 then none else some e

/-- A present entry of an upper table that the hardware reads as the kernel
    does: no high bits, no large page. -/
def UpperEntry (e : UInt64) : Prop :=
  e &&& PAGE_PRESENT ≠ 0 → e.toNat < 2 ^ 52 ∧ e.toNat / 2 ^ 7 % 2 = 0

theorem present_iff (e : UInt64) : e &&& PAGE_PRESENT ≠ 0 ↔ e.toNat % 2 = 1 := by
  have h := Words.toNat_and_mask e PAGE_PRESENT 1 rfl
  rw [Ne, ← UInt64.toNat_inj, h]
  show ¬ e.toNat % 2 = 0 ↔ _
  omega

theorem toNat_and_not_fff (e : UInt64) : (e &&& ~~~0xFFF).toNat = e.toNat / 4096 * 4096 :=
  Words.toNat_and_not_mask e 0xFFF 12 rfl

theorem toNat_and_fff (e : UInt64) : (e &&& 0xFFF).toNat = e.toNat % 4096 :=
  Words.toNat_and_mask e 0xFFF 12 rfl

theorem pageAligned_and_fff {f : UInt64} : f &&& 0xFFF = 0 ↔ PageAligned f := by
  rw [← UInt64.toNat_inj, toNat_and_fff]
  exact Iff.rfl

/-- An aligned frame below `2 ^ 52` is what both walkers extract from an
    entry made of it and low flags. -/
theorem toNat_entry {t flags : UInt64} (ht : PageAligned t) (hflags : flags.toNat < 4096) :
    (t ||| flags).toNat = t.toNat + flags.toNat :=
  Words.toNat_or_disjoint t flags 12 ht hflags

theorem entry_and_not_fff {t flags : UInt64} (ht : PageAligned t) (hflags : flags.toNat < 4096) :
    (t ||| flags) &&& ~~~0xFFF = t := by
  apply Words.ext
  rw [toNat_and_not_fff, toNat_entry ht hflags]
  unfold PageAligned PAGE_SIZE at ht
  omega

theorem toNat_and_frameMask (e : UInt64) :
    (e &&& frameMask).toNat = e.toNat % 2 ^ 52 / 4096 * 4096 := by
  have hmask : frameMask = (2 ^ 52 - 1 : UInt64) &&& ~~~0xFFF := by decide
  have hassoc : e &&& frameMask = (e &&& (2 ^ 52 - 1)) &&& ~~~0xFFF := by
    rw [hmask, UInt64.and_assoc]
  rw [hassoc, toNat_and_not_fff, Words.toNat_and_mask e (2 ^ 52 - 1) 52 (by decide)]

theorem and_frameMask_of_lt {e : UInt64} (he : e.toNat < 2 ^ 52) :
    e &&& frameMask = e &&& ~~~0xFFF := by
  apply Words.ext
  rw [toNat_and_frameMask, toNat_and_not_fff, Nat.mod_eq_of_lt he]

/-- The hardware finds a good frame where it is. -/
theorem GoodFrame.and_frameMask {f : UInt64} (h : GoodFrame (2 ^ 52) f) : f &&& frameMask = f := by
  have ha := h.aligned
  have hb := h.below
  unfold PageAligned PAGE_SIZE at ha
  unfold PAGE_SIZE at hb
  apply Words.ext
  rw [toNat_and_frameMask]
  omega

theorem and_PS_eq_zero {e : UInt64} (he : e.toNat / 2 ^ 7 % 2 = 0) : e &&& PAGE_PS = 0 := by
  apply Words.ext
  show (e &&& PAGE_PS).toNat = 0
  have hps : PAGE_PS.toNat = 2 ^ 7 := rfl
  rw [UInt64.toNat_and, hps]
  exact Words.land_two_pow_eq_zero _ 7 he

/-! ## Section 2: The tables in memory -/

/-- The three upper indices of an address. -/
def tablePath (vaddr : UInt64) : List (Fin 512) := [pml4_idx vaddr, pdpt_idx vaddr, pd_idx vaddr]

/-- **The page-table invariant**: every table below `root` is one of the
    frames handed out, and no two index paths share a table. -/
structure Tables (root : UInt64) (owned : List UInt64) (m : Mem) : Prop where
  good     : ∀ f ∈ owned, GoodFrame (2 ^ 52) f
  reach    : ∀ f, Reaches nextTable m.entry root 3 f → f ∈ owned
  unshared : Unshared nextTable m.entry root 3
  upper    : ∀ p f, p.length < 3 → follow nextTable m.entry root p = some f →
    ∀ j, UpperEntry (m.entry f j)

/-- The present leaf entry at the index path `p`, `i`. -/
def leafOf (m : Mem) (root : UInt64) (p : List (Fin 512)) (i : Fin 512) : Option UInt64 :=
  leafAt nextTable leafEntry m.entry root p i

/-- The present entry `i` of the table that `p` leads to, on any level. -/
def entryAt (m : Mem) (root : UInt64) (p : List (Fin 512)) (i : Fin 512) : Option UInt64 :=
  leafAt nextTable leafEntry m.entry root p i

/-- The present leaf entry of an address. -/
def view (m : Mem) (root vaddr : UInt64) : Option UInt64 :=
  leafOf m root (tablePath vaddr) (pt_idx vaddr)

theorem Tables.root_good {root : UInt64} {owned : List UInt64} {m : Mem} (h : Tables root owned m) :
    GoodFrame (2 ^ 52) root :=
  h.good root (h.reach root (reaches_root _ _ _ _))

/-- The hardware reads an upper entry of well-formed tables as the kernel. -/
theorem UpperEntry.decode {e f : UInt64} (he : UpperEntry e) (hf : nextTable e = some f) :
    e &&& PAGE_PRESENT ≠ 0 ∧ e &&& PAGE_PS = 0 ∧ e &&& frameMask = f := by
  unfold nextTable at hf
  by_cases hp : e &&& PAGE_PRESENT = 0
  · rw [if_pos hp] at hf
    cases hf
  · rw [if_neg hp] at hf
    obtain ⟨hlt, hps⟩ := he hp
    exact ⟨hp, and_PS_eq_zero hps, (and_frameMask_of_lt hlt).trans (Option.some.inj hf)⟩

theorem nextTable_eq_none {e : UInt64} : nextTable e = none ↔ e &&& PAGE_PRESENT = 0 := by
  unfold nextTable
  by_cases hp : e &&& PAGE_PRESENT = 0 <;> simp [hp]

/-- **On well-formed tables the hardware walk looks the address up in the
    tree.** -/
theorem walk_eq_view {root : UInt64} {owned : List UInt64} {m : Mem} (h : Tables root owned m)
    (vaddr : UInt64) :
    walk m root vaddr = (view m root vaddr).map fun e => (e &&& frameMask, e &&& 0xFFF) := by
  have hroot := h.root_good.and_frameMask
  unfold walk view leafOf leafAt tablePath
  simp only [hroot]
  -- One level after the other: the entry is absent for both, or both follow it.
  cases h4 : nextTable (m.entry root (pml4_idx vaddr)) with
  | none => simp [follow, h4, nextTable_eq_none.mp h4]
  | some f4 =>
    obtain ⟨hp4, -, hf4⟩ := (h.upper [] root (by simp) rfl _).decode h4
    have hpath4 : follow nextTable m.entry root [pml4_idx vaddr] = some f4 := by
      simp [follow, h4]
    rw [if_neg hp4, hf4]
    cases h3 : nextTable (m.entry f4 (pdpt_idx vaddr)) with
    | none => simp [follow, h4, h3, nextTable_eq_none.mp h3]
    | some f3 =>
      obtain ⟨hp3, hps3, hf3⟩ := (h.upper _ f4 (by simp) hpath4 _).decode h3
      have hpath3 : follow nextTable m.entry root [pml4_idx vaddr, pdpt_idx vaddr] = some f3 := by
        simp [follow, h4, h3]
      rw [if_neg hp3, if_neg (by simpa using hps3), hf3]
      cases h2 : nextTable (m.entry f3 (pd_idx vaddr)) with
      | none => simp [follow, h4, h3, h2, nextTable_eq_none.mp h2]
      | some f2 =>
        obtain ⟨hp2, hps2, hf2⟩ := (h.upper _ f3 (by simp) hpath3 _).decode h2
        rw [if_neg hp2, if_neg (by simpa using hps2), hf2]
        unfold leafEntry
        by_cases hp1 : m.entry f2 (pt_idx vaddr) &&& PAGE_PRESENT = 0 <;>
          simp [follow, h4, h3, h2, hp1]

/-- An all-zero PML4 is a well-formed tree with nothing in it. -/
theorem tables_of_zero {root : UInt64} {m : Mem} (hroot : GoodFrame (2 ^ 52) root)
    (hzero : ∀ j, m.entry root j = 0) :
    Tables root [root] m ∧ ∀ p : List (Fin 512), p.length = 3 → ∀ i, leafOf m root p i = none := by
  have hnext : ∀ j, nextTable (m.entry root j) = none := by
    intro j
    rw [hzero j]
    rfl
  -- No entry is present, so only the empty path leads anywhere.
  have hfollow : ∀ (p : List (Fin 512)) f, follow nextTable m.entry root p = some f →
      p = [] ∧ f = root := by
    intro p f hp
    cases p with
    | nil => exact ⟨rfl, (Option.some.inj hp).symm⟩
    | cons i p => simp [follow, hnext] at hp
  refine ⟨⟨fun f hf => ?_, fun f hf => ?_, fun p q f _ _ hp hq => ?_, fun p f _ hp j => ?_⟩,
    fun p hp i => ?_⟩
  · rw [List.mem_singleton.mp hf]
    exact hroot
  · obtain ⟨p, -, hp⟩ := hf
    rw [(hfollow p f hp).2]
    exact List.mem_singleton_self root
  · rw [(hfollow p f hp).1, (hfollow q f hq).1]
  · rw [(hfollow p f hp).2, hzero j]
    intro hne
    exact absurd rfl hne
  · unfold leafOf leafAt
    cases hx : follow nextTable m.entry root p with
    | none => rfl
    | some f =>
      rw [(hfollow p f hx).1] at hp
      cases hp

/-! ## Section 3: Writes outside the tables -/

section congr
variable {root : UInt64} {owned : List UInt64} {m m' : Mem}

/-- Memory is unchanged inside every table. -/
def SameTables (root : UInt64) (m m' : Mem) : Prop :=
  ∀ f, Reaches nextTable m.entry root 3 f → ∀ x, InFrame f x → m' x = m x

theorem SameInside.sameTables (h : Tables root owned m) (hsame : SameInside owned m m') :
    SameTables root m m' :=
  fun f hf => hsame f (h.reach f hf)

theorem entry_sameTables (h : Tables root owned m) (hsame : SameTables root m m') {f : UInt64}
    (hf : Reaches nextTable m.entry root 3 f) (j : Fin 512) : m'.entry f j = m.entry f j :=
  Mem.entry_congr (h.good f (h.reach f hf)).aligned (hsame f hf) j

/-- The tree depends on the tables' own bytes only. -/
theorem follow_sameTables (h : Tables root owned m) (hsame : SameTables root m m') :
    ∀ p : List (Fin 512), p.length ≤ 3 →
      follow nextTable m'.entry root p = follow nextTable m.entry root p := by
  intro p
  induction p using List.reverseRecOn with
  | nil => simp
  | append_singleton p i ih =>
    intro hp
    have hlen : p.length ≤ 3 := by simp at hp; omega
    rw [follow_snoc, follow_snoc, ih hlen]
    -- One level further: the entry is read in a table that has not changed.
    cases hx : follow nextTable m.entry root p with
    | none => rfl
    | some x =>
      show nextTable (m'.entry x i) = nextTable (m.entry x i)
      rw [entry_sameTables h hsame ⟨p, hlen, hx⟩]

theorem reaches_sameTables (h : Tables root owned m) (hsame : SameTables root m m') (f : UInt64) :
    Reaches nextTable m'.entry root 3 f ↔ Reaches nextTable m.entry root 3 f := by
  unfold Reaches
  constructor
  · intro hr
    obtain ⟨p, hp, hf⟩ := hr
    exact ⟨p, hp, by rw [← follow_sameTables h hsame p hp]; exact hf⟩
  · intro hr
    obtain ⟨p, hp, hf⟩ := hr
    exact ⟨p, hp, by rw [follow_sameTables h hsame p hp]; exact hf⟩

theorem tables_sameTables (h : Tables root owned m) (hsame : SameTables root m m') :
    Tables root owned m' := by
  refine ⟨h.good, fun f hf => ?_, fun p q f hp hq hpf hqf => ?_, fun p f hp hf j => ?_⟩
  · exact h.reach f ((reaches_sameTables h hsame f).mp hf)
  · rw [follow_sameTables h hsame p hp] at hpf
    rw [follow_sameTables h hsame q hq] at hqf
    exact h.unshared p q f hp hq hpf hqf
  · rw [follow_sameTables h hsame p (Nat.le_of_lt hp)] at hf
    rw [entry_sameTables h hsame ⟨p, Nat.le_of_lt hp, hf⟩]
    exact h.upper p f hp hf j

/-- Writes outside the tables change no entry of them. -/
theorem leafAt_sameTables {L : Type} (leaf : UInt64 → Option L) (h : Tables root owned m)
    (hsame : SameTables root m m') (p : List (Fin 512)) (hp : p.length ≤ 3) (i : Fin 512) :
    leafAt nextTable leaf m'.entry root p i = leafAt nextTable leaf m.entry root p i := by
  unfold leafAt
  rw [follow_sameTables h hsame p hp]
  cases hx : follow nextTable m.entry root p with
  | none => rfl
  | some x =>
    show leaf (m'.entry x i) = leaf (m.entry x i)
    rw [entry_sameTables h hsame ⟨p, hp, hx⟩]

theorem entryAt_sameTables (h : Tables root owned m) (hsame : SameTables root m m')
    (p : List (Fin 512)) (hp : p.length ≤ 3) (i : Fin 512) :
    entryAt m' root p i = entryAt m root p i :=
  leafAt_sameTables leafEntry h hsame p hp i

/-- Writes outside the tables change no translation. -/
theorem leafOf_sameTables (h : Tables root owned m) (hsame : SameTables root m m')
    (p : List (Fin 512)) (hp : p.length = 3) (i : Fin 512) :
    leafOf m' root p i = leafOf m root p i :=
  entryAt_sameTables h hsame p (Nat.le_of_eq hp) i

/-- More frames may be handed out. -/
theorem Tables.cons (h : Tables root owned m) {f : UInt64} (hf : GoodFrame (2 ^ 52) f) :
    Tables root (f :: owned) m := by
  refine ⟨fun g hg => ?_, fun g hg => List.mem_cons_of_mem _ (h.reach g hg), h.unshared, h.upper⟩
  rcases List.mem_cons.mp hg with rfl | hg
  · exact hf
  · exact h.good g hg

end congr

/-! ## Section 4: The machine -/

section machine
variable {σ : Type}

@[simp] theorem readEntry_eq (s : Machine σ) (table : UInt64) (i : Fin 512) :
    s.readEntry table i = s.mem.entry table i := by
  unfold Machine.readEntry Mem.hload64 Mem.entry slot
  congr 1
  grind

theorem writeEntry_eq (s : Machine σ) (table : UInt64) (i : Fin 512) (e : UInt64) :
    s.writeEntry table i e = { s with mem := s.mem.store64 (slot table i) e } := by
  have haddr : table + s.hhdm + 8 * UInt64.ofNat i.val - s.hhdm = slot table i := by
    unfold slot
    grind
  unfold Machine.writeEntry Mem.hstore64
  rw [haddr]

/-- The parts of the machine that mapping a page never changes. -/
structure SameControl (s s' : Machine σ) : Prop where
  hhdm : s'.hhdm = s.hhdm
  pml4 : s'.pml4 = s.pml4
  cr3  : s'.cr3 = s.cr3

theorem SameControl.rfl (s : Machine σ) : SameControl s s := ⟨Eq.refl _, Eq.refl _, Eq.refl _⟩

theorem SameControl.trans {s s' s'' : Machine σ} (h : SameControl s s') (h' : SameControl s' s'') :
    SameControl s s'' :=
  ⟨h'.hhdm.trans h.hhdm, h'.pml4.trans h.pml4, h'.cr3.trans h.cr3⟩

/-- How a mapping operation may change frames: it may be handed new ones, and
    frames that are not tables keep their contents and do not become tables. -/
structure Grows (root : UInt64) (owned owned' : List UInt64) (s s' : Machine σ) : Prop where
  sub     : owned ⊆ owned'
  control : SameControl s s'
  data    : ∀ f ∈ owned, ¬ Reaches nextTable s.mem.entry root 3 f →
    ¬ Reaches nextTable s'.mem.entry root 3 f ∧ ∀ x, InFrame f x → s'.mem x = s.mem x

theorem Grows.refl (root : UInt64) (owned : List UInt64) (s : Machine σ) :
    Grows root owned owned s s :=
  ⟨fun _ h => h, SameControl.rfl s, fun _ _ hf => ⟨hf, fun _ _ => rfl⟩⟩

theorem Grows.trans {root : UInt64} {owned owned' owned'' : List UInt64} {s s' s'' : Machine σ}
    (h : Grows root owned owned' s s') (h' : Grows root owned' owned'' s' s'') :
    Grows root owned owned'' s s'' := by
  refine ⟨fun _ hf => h'.sub (h.sub hf), h.control.trans h'.control, ?_⟩
  intro f hf hnot
  obtain ⟨hnot', hsame⟩ := h.data f hf hnot
  obtain ⟨hnot'', hsame'⟩ := h'.data f (h.sub hf) hnot'
  exact ⟨hnot'', fun x hx => (hsame' x hx).trans (hsame x hx)⟩

variable [PageAllocator σ] (A : AllocSpec σ)

/-- **The invariant of the machine**: the allocator has handed out the frames
    `owned` and promises `n` more, and the tables below `root` are well formed
    and among these frames. -/
structure Paged (n : Nat) (root : UInt64) (owned : List UInt64) (s : Machine σ) : Prop where
  alloc  : A.Inv n s.hhdm s.alloc s.mem owned
  tables : Tables root owned s.mem

/-! ## Section 5: `alloc_table` -/

/-- The zeroing loop clears every entry of the table and nothing else. -/
theorem zeroTable_entry (hhdm : UInt64) {t : UInt64} (ht : PageAligned t) (m : Mem) :
    (∀ j, (zeroTable hhdm (t + hhdm) m).entry t j = 0) ∧
      ∀ x, ¬ InFrame t x → zeroTable hhdm (t + hhdm) m x = m x := by
  have hloop : 512 ≤ 512 →
      (∀ j : Fin 512, j.val < 512 → (zeroTable hhdm (t + hhdm) m).entry t j = 0) ∧
        ∀ x, ¬ InFrame t x → zeroTable hhdm (t + hhdm) m x = m x := by
    unfold zeroTable
    refine forLoop_invariant
      (fun i (m' : Mem) => i ≤ 512 → (∀ j : Fin 512, j.val < i → m'.entry t j = 0) ∧
        ∀ x, ¬ InFrame t x → m' x = m x) ?_ ?_
    · exact fun _ => ⟨fun j hj => by omega, fun _ _ => rfl⟩
    -- Round `i` clears entry `i`.
    · intro i m' hi ih _
      obtain ⟨hzero, hframe⟩ := ih (by omega)
      have haddr : t + hhdm + 8 * UInt64.ofNat i - hhdm = slot t ⟨i, hi⟩ := by
        unfold slot
        grind
      unfold Mem.hstore64
      rw [haddr]
      constructor
      · intro j hj
        rw [Mem.entry_store64 m' t t _ j 0 ht ht]
        by_cases hji : j = ⟨i, hi⟩
        · simp [hji]
        · have hne : j.val ≠ i := fun h => hji (Fin.ext h)
          rw [if_neg (fun h => hji h.2), hzero j (by omega)]
      · intro x hx
        rw [Mem.store64_slot_frame m' t _ 0 x ht hx, hframe x hx]
  obtain ⟨hzero, hframe⟩ := hloop (Nat.le_refl _)
  exact ⟨fun j => hzero j j.isLt, hframe⟩

/-- The allocator answered with a fresh frame, which is now an empty table. -/
structure FreshTable (n : Nat) (owned : List UInt64) (s s' : Machine σ) (t : UInt64) : Prop where
  good    : GoodFrame (2 ^ 52) t
  below   : t.toNat + PAGE_SIZE ≤ A.top
  unused  : t ∉ owned
  alloc   : A.Inv (n - 1) s'.hhdm s'.alloc s'.mem (t :: owned)
  zero    : ∀ j, s'.mem.entry t j = 0
  same    : SameInside owned s.mem s'.mem
  control : SameControl s s'
  early   : s'.early_page_tables = s.early_page_tables

/-- The allocator answered NULL. -/
structure NoTable (n : Nat) (owned : List UInt64) (s s' : Machine σ) : Prop where
  none_left : n = 0
  alloc     : A.Inv 0 s'.hhdm s'.alloc s'.mem owned
  same      : SameInside owned s.mem s'.mem
  control   : SameControl s s'
  early     : s'.early_page_tables = s.early_page_tables

variable {A}

/-- **All that `alloc_table` can do.** -/
theorem alloc_table_cases {n : Nat} {owned : List UInt64} {s s' : Machine σ} {t : UInt64}
    (hgood : ∀ f ∈ owned, PageAligned f) (hinv : A.Inv n s.hhdm s.alloc s.mem owned)
    (h : alloc_table s = some (t, s')) :
    (t = 0 ∧ NoTable A n owned s s') ∨ (t ≠ 0 ∧ FreshTable A n owned s s' t) := by
  unfold alloc_table Machine.kmalloc at h
  cases hk : PageAllocator.kmalloc s.hhdm s.alloc s.mem with
  | none => simp [hk] at h
  | some r =>
    obtain ⟨f, a, m⟩ := r
    by_cases hf : f = 0
    · subst hf
      obtain ⟨rfl, rfl⟩ : 0 = t ∧ { s with alloc := a, mem := m } = s' := by simpa [hk] using h
      obtain ⟨hn, hinv', hsame⟩ := A.null hinv hk
      exact Or.inl ⟨rfl, hn, hinv', hsame, ⟨rfl, rfl, rfl⟩, rfl⟩
    · obtain ⟨rfl, rfl⟩ : f = t ∧ { s with
          alloc := a
          mem := zeroTable s.hhdm (f + s.hhdm) (m.hstore64 s.hhdm (f + s.hhdm) 0xdeadbeef) } = s' := by
        simpa [hk, hf] using h
      -- The frame is new; the test store and the zeroing stay inside it.
      obtain ⟨hfresh, hunused, hinv', hsame⟩ := A.fresh hinv hk hf
      have htop := A.top_le
      have hbelow := hfresh.below
      have hgood' : GoodFrame (2 ^ 52) f := ⟨hf, hfresh.aligned, by omega⟩
      obtain ⟨hzero, hframe⟩ := zeroTable_entry s.hhdm hfresh.aligned
        (m.hstore64 s.hhdm (f + s.hhdm) 0xdeadbeef)
      -- The test store is one to entry 0 of the new table.
      have hslot : slot f 0 = f := by
        show f + 8 * 0 = f
        grind
      have htest : ∀ x, ¬ InFrame f x → m.hstore64 s.hhdm (f + s.hhdm) 0xdeadbeef x = m x := by
        intro x hx
        have haddr : f + s.hhdm - s.hhdm = slot f 0 := by
          rw [hslot]
          grind
        unfold Mem.hstore64
        rw [haddr]
        exact Mem.store64_slot_frame m f 0 _ x hfresh.aligned hx
      have hsame' : ∀ x, ¬ InFrame f x →
          zeroTable s.hhdm (f + s.hhdm) (m.hstore64 s.hhdm (f + s.hhdm) 0xdeadbeef) x = m x :=
        fun x hx => (hframe x hx).trans (htest x hx)
      refine Or.inr ⟨hf, hgood', hbelow, hunused, ?_, hzero, ?_, ⟨rfl, rfl, rfl⟩, rfl⟩
      · exact A.stable hinv' fun x hx => hsame' x (hx f List.mem_cons_self)
      · intro g hg x hx
        have hnot : ¬ InFrame f x := fun hfx =>
          hunused (inFrame_unique hfresh.aligned (hgood g hg) hfx hx ▸ hg)
        exact (hsame' x hnot).trans (hsame g hg x hx)

end machine

end ArgaldOS
