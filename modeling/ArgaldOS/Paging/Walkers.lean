import ArgaldOS.Paging.Tables

/-! # The two walkers

    `ensure_table` and `get_next_table` follow one entry of a table and hang a
    new table into it when it is not present.  Neither changes a translation;
    the leaf store at the end of `map_leaf` and `map_page` changes exactly one.

    * `paged_link`, `paged_setLeaf`: what linking a table and writing a leaf do
      to well-formed tables;
    * `ensure_table_spec`, `get_next_table_spec`: one level of a walker;
    * `map_leaf_spec`, `map_page_spec`: a whole mapping operation;
    * `map_leaf_total`, `map_page_total`: they return if the allocator answers.
-/

namespace ArgaldOS

open TableTree Loops

section walkers
variable {σ : Type} [PageAllocator σ] {A : AllocSpec σ}
variable {n : Nat} {root : UInt64} {owned : List UInt64} {s s' : Machine σ}

/-! ## Section 1: Linking a table -/

/-- No leaf entry changed. -/
def SameLeaves (root : UInt64) (s s' : Machine σ) : Prop :=
  ∀ q : List (Fin 512), q.length = 3 → ∀ j, leafOf s'.mem root q j = leafOf s.mem root q j

omit [PageAllocator σ] in
theorem SameLeaves.trans {s s' s'' : Machine σ} (h : SameLeaves root s s')
    (h' : SameLeaves root s' s'') : SameLeaves root s s'' :=
  fun q hq j => (h' q hq j).trans (h q hq j)

/-- The walker stands at the table `g`, which the path `p` leads to; nothing
    but the set of tables changed on the way. -/
structure Linked (A : AllocSpec σ) (n : Nat) (root : UInt64) (owned owned' : List UInt64)
    (p : List (Fin 512)) (g : UInt64) (s s' : Machine σ) : Prop where
  paged  : Paged A n root owned' s'
  path   : follow nextTable s'.mem.entry root p = some g
  leaves : SameLeaves root s s'
  grows  : Grows root owned owned' s s'

/-- The entry that a walker makes of a new table. -/
theorem upperEntry_of_table {t flags : UInt64} (ht : GoodFrame (2 ^ 52) t)
    (hflags : flags.toNat < 8) : UpperEntry (t ||| flags) := by
  intro _
  have ha := ht.aligned
  have hb := ht.below
  rw [toNat_entry ha (by omega)]
  unfold PageAligned PAGE_SIZE at ha
  unfold PAGE_SIZE at hb
  omega

theorem nextTable_of_table {t flags : UInt64} (ht : GoodFrame (2 ^ 52) t)
    (hflags : flags.toNat < 8) (hpresent : flags.toNat % 2 = 1) :
    nextTable (t ||| flags) = some t := by
  have ha := ht.aligned
  have hp : (t ||| flags) &&& PAGE_PRESENT ≠ 0 := by
    rw [present_iff, toNat_entry ha (by omega)]
    unfold PageAligned PAGE_SIZE at ha
    omega
  unfold nextTable
  rw [if_neg hp, entry_and_not_fff ha (by omega)]

/-- The heap of tables after a fresh table was hung into an absent entry: the
    entry points to the table, and the table is empty. -/
theorem link_writeEntry (flags : UInt64) {s₁ : Machine σ} {t f : UInt64} {p : List (Fin 512)}
    {i : Fin 512} (htab : Tables root owned s.mem) (hfresh : FreshTable A n owned s s₁ t)
    (hpath : follow nextTable s.mem.entry root p = some f) (hlen : p.length < 3)
    (habsent : s.mem.entry f i &&& PAGE_PRESENT = 0) (hflags : flags.toNat < 8)
    (hpresent : flags.toNat % 2 = 1) :
    Link nextTable s.mem.entry (s₁.writeEntry f i (t ||| flags)).mem.entry root 3 p i f t ∧
      (∀ j, (s₁.writeEntry f i (t ||| flags)).mem.entry t j = 0) ∧
      (s₁.writeEntry f i (t ||| flags)).mem.entry f i = t ||| flags := by
  have hfowned : f ∈ owned := htab.reach f ⟨p, Nat.le_of_lt hlen, hpath⟩
  have hfa : PageAligned f := (htab.good f hfowned).aligned
  have hta : PageAligned t := hfresh.good.aligned
  have htf : t ≠ f := fun h => hfresh.unused (h ▸ hfowned)
  rw [writeEntry_eq]
  -- Entry by entry: the new memory is the old one but for the new table and its link.
  have hentry : ∀ g, PageAligned g → ∀ j, (s₁.mem.store64 (slot f i) (t ||| flags)).entry g j =
      if g = f ∧ j = i then t ||| flags else s₁.mem.entry g j :=
    fun g hg j => Mem.entry_store64 s₁.mem f g i j _ hfa hg
  have hblank : ∀ j, (s₁.mem.store64 (slot f i) (t ||| flags)).entry t j = 0 := by
    intro j
    rw [hentry t hta, if_neg (fun h => htf h.1), hfresh.zero j]
  have hslot : (s₁.mem.store64 (slot f i) (t ||| flags)).entry f i = t ||| flags := by
    rw [hentry f hfa, if_pos ⟨rfl, rfl⟩]
  refine ⟨⟨hpath, hlen, nextTable_eq_none.mpr habsent, ?_, ?_, ?_, ?_⟩, hblank, hslot⟩
  · show nextTable ((s₁.mem.store64 (slot f i) (t ||| flags)).entry f i) = some t
    rw [hslot]
    exact nextTable_of_table hfresh.good hflags hpresent
  · exact fun hr => hfresh.unused (htab.reach t hr)
  · intro j
    show nextTable ((s₁.mem.store64 (slot f i) (t ||| flags)).entry t j) = none
    rw [hblank j]
    rfl
  · intro g j hg hne
    have hgowned := htab.reach g hg
    have hga : PageAligned g := (htab.good g hgowned).aligned
    show (s₁.mem.store64 (slot f i) (t ||| flags)).entry g j = s.mem.entry g j
    rw [hentry g hga, if_neg hne]
    exact Mem.entry_congr hga (hfresh.same g hgowned) j

/-- **Linking a fresh table** into an absent entry keeps the tables well
    formed, adds one path and changes no translation. -/
theorem paged_link (flags : UInt64) {s₁ : Machine σ} {t f : UInt64} {p : List (Fin 512)} {i : Fin 512}
    (hpaged : Paged A n root owned s) (hfresh : FreshTable A n owned s s₁ t)
    (hpath : follow nextTable s.mem.entry root p = some f) (hlen : p.length < 3)
    (habsent : s.mem.entry f i &&& PAGE_PRESENT = 0) (hflags : flags.toNat < 8)
    (hpresent : flags.toNat % 2 = 1) :
    Linked A (n - 1) root owned (t :: owned) (p ++ [i]) t s
      (s₁.writeEntry f i (t ||| flags)) := by
  have htab := hpaged.tables
  have hfowned : f ∈ owned := htab.reach f ⟨p, Nat.le_of_lt hlen, hpath⟩
  have hfa : PageAligned f := (htab.good f hfowned).aligned
  obtain ⟨hlink, hblank, hslot⟩ :=
    link_writeEntry flags htab hfresh hpath hlen habsent hflags hpresent
  have hunshared := unshared_link hlink htab.unshared
  have hreach := reaches_link hlink htab.unshared
  have hmemout : ∀ x, ¬ InFrame f x → (s₁.writeEntry f i (t ||| flags)).mem x = s₁.mem x := by
    intro x hx
    rw [writeEntry_eq]
    exact Mem.store64_slot_frame s₁.mem f i _ x hfa hx
  have hcontrol := hfresh.control
  refine ⟨⟨?_, ⟨?_, ?_, hunshared, ?_⟩⟩, ?_, ?_,
    ⟨?_, ⟨hcontrol.hhdm, hcontrol.pml4, hcontrol.cr3⟩, ?_⟩⟩
  · exact A.stable hfresh.alloc fun x hx => hmemout x (hx f (List.mem_cons_of_mem _ hfowned))
  · intro g hg
    rcases List.mem_cons.mp hg with rfl | hg
    · exact hfresh.good
    · exact htab.good g hg
  · intro g hg
    rcases hreach g hg with hold' | rfl
    · exact List.mem_cons_of_mem _ (htab.reach g hold')
    · exact List.mem_cons_self
  -- Entries of the new table, the new entry, and entries as before.
  · intro q g hq hqg j
    rw [follow_link hlink htab.unshared q (Nat.le_of_lt hq)] at hqg
    split at hqg
    · obtain rfl := Option.some.inj hqg
      rw [hblank j]
      intro hp
      exact absurd rfl hp
    · by_cases hnew : g = f ∧ j = i
      · obtain ⟨rfl, rfl⟩ := hnew
        rw [hslot]
        exact upperEntry_of_table hfresh.good hflags
      · rw [hlink.frame g j ⟨q, Nat.le_of_lt hq, hqg⟩ hnew]
        exact htab.upper q g hq hqg j
  · rw [follow_link hlink htab.unshared _ (by simp; omega), if_pos rfl]
  · intro q hq j
    refine leafAt_link hlink htab.unshared (fun k => ?_) q hq j
    rw [hblank k]
    rfl
  · exact fun g hg => List.mem_cons_of_mem _ hg
  · intro g hg hnot
    have hgf : g ≠ f := by
      intro h
      exact hnot ⟨p, Nat.le_of_lt hlen, h ▸ hpath⟩
    constructor
    · intro hr
      rcases hreach g hr with hold' | rfl
      · exact hnot hold'
      · exact hfresh.unused hg
    · intro x hx
      have hxf : ¬ InFrame f x :=
        fun hfx => hgf (inFrame_unique (htab.good g hg).aligned hfa hx hfx)
      exact (hmemout x hxf).trans (hfresh.same g hg x hx)

/-! ## Section 2: Writing a leaf -/

omit [PageAllocator σ] in
/-- The heap of tables after a leaf entry was written. -/
theorem setLeaf_writeEntry {f e : UInt64} {p : List (Fin 512)} {i : Fin 512}
    (htab : Tables root owned s.mem) (hpath : follow nextTable s.mem.entry root p = some f)
    (hlen : p.length = 3) :
    SetLeaf nextTable s.mem.entry (s.writeEntry f i e).mem.entry root 3 p i f e := by
  have hfa : PageAligned f := (htab.good f (htab.reach f ⟨p, Nat.le_of_eq hlen, hpath⟩)).aligned
  rw [writeEntry_eq]
  have hentry : ∀ g, PageAligned g → ∀ j, (s.mem.store64 (slot f i) e).entry g j =
      if g = f ∧ j = i then e else s.mem.entry g j :=
    fun g hg j => Mem.entry_store64 s.mem f g i j _ hfa hg
  refine ⟨hpath, hlen, ?_, ?_⟩
  · show (s.mem.store64 (slot f i) e).entry f i = e
    rw [hentry f hfa, if_pos ⟨rfl, rfl⟩]
  · intro g j hg hne
    show (s.mem.store64 (slot f i) e).entry g j = s.mem.entry g j
    rw [hentry g (htab.good g (htab.reach g hg)).aligned, if_neg hne]

/-- **Writing a leaf entry** changes one translation and nothing else. -/
theorem paged_setLeaf {f e : UInt64} {p : List (Fin 512)} {i : Fin 512}
    (hpaged : Paged A n root owned s) (hpath : follow nextTable s.mem.entry root p = some f)
    (hlen : p.length = 3) :
    Paged A n root owned (s.writeEntry f i e) ∧
      (∀ q : List (Fin 512), q.length = 3 → ∀ j, leafOf (s.writeEntry f i e).mem root q j =
        if q = p ∧ j = i then leafEntry e else leafOf s.mem root q j) ∧
      Grows root owned owned s (s.writeEntry f i e) := by
  have htab := hpaged.tables
  have hfowned : f ∈ owned := htab.reach f ⟨p, Nat.le_of_eq hlen, hpath⟩
  have hfa : PageAligned f := (htab.good f hfowned).aligned
  have hset : SetLeaf nextTable s.mem.entry (s.writeEntry f i e).mem.entry root 3 p i f e :=
    setLeaf_writeEntry htab hpath hlen
  have hmemout : ∀ x, ¬ InFrame f x → (s.writeEntry f i e).mem x = s.mem x := by
    intro x hx
    rw [writeEntry_eq]
    exact Mem.store64_slot_frame s.mem f i _ x hfa hx
  refine ⟨⟨?_, ⟨htab.good, ?_, unshared_setLeaf hset htab.unshared, ?_⟩⟩, ?_, ?_, ?_, ?_⟩
  · exact A.stable hpaged.alloc fun x hx => hmemout x (hx f hfowned)
  · exact fun g hg => htab.reach g (reaches_setLeaf hset htab.unshared g hg)
  · intro q g hq hqg j
    rw [follow_setLeaf hset htab.unshared q (Nat.le_of_lt hq)] at hqg
    -- An upper table is not the bottom table `f`: the tables form a tree.
    have hgf : g ≠ f := by
      intro h
      have hqp := htab.unshared q p f (Nat.le_of_lt hq) (Nat.le_of_eq hlen) (h ▸ hqg) hpath
      rw [hqp, hlen] at hq
      exact Nat.lt_irrefl 3 hq
    rw [hset.frame g j ⟨q, Nat.le_of_lt hq, hqg⟩ (fun h => hgf h.1)]
    exact htab.upper q g hq hqg j
  · exact fun q hq j => leafAt_setLeaf hset htab.unshared q (Nat.le_of_eq hq) j
  · exact fun _ h => h
  · exact ⟨rfl, rfl, rfl⟩
  · intro g hg hnot
    have hgf : g ≠ f := by
      intro h
      exact hnot ⟨p, Nat.le_of_eq hlen, h ▸ hpath⟩
    refine ⟨fun hr => hnot (reaches_setLeaf hset htab.unshared g hr), fun x hx => hmemout x ?_⟩
    exact fun hfx => hgf (inFrame_unique (htab.good g hg).aligned hfa hx hfx)

/-! ## Section 3: One level -/

theorem Paged.mono {k : Nat} (hnk : n ≤ k) (h : Paged A k root owned s) : Paged A n root owned s :=
  ⟨A.mono_le hnk h.alloc, h.tables⟩

theorem Paged.aligned (h : Paged A n root owned s) : ∀ f ∈ owned, PageAligned f :=
  fun f hf => (h.tables.good f hf).aligned

/-- A walker that finds its entry present follows it. -/
theorem linked_present {p : List (Fin 512)} {f : UInt64} {i : Fin 512} {k : Nat}
    (hpaged : Paged A n root owned s) (hk : k ≤ n)
    (hpath : follow nextTable s.mem.entry root p = some f)
    (hpresent : s.mem.entry f i &&& PAGE_PRESENT ≠ 0) :
    Linked A k root owned owned (p ++ [i]) (s.mem.entry f i &&& ~~~0xFFF) s s := by
  refine ⟨hpaged.mono hk, ?_, fun _ _ _ => rfl, Grows.refl _ _ _⟩
  rw [follow_snoc, hpath]
  show nextTable (s.mem.entry f i) = _
  unfold nextTable
  rw [if_neg hpresent]

/-- The entry is read back after it was written. -/
theorem ensure_table_eq (f : UInt64) (i : Fin 512) (s : Machine σ) :
    ensure_table f i s =
      if s.mem.entry f i &&& PAGE_PRESENT = 0 then
        (alloc_table s).map fun r => ((r.1 ||| (PAGE_PRESENT ||| PAGE_RW)) &&& ~~~0xFFF,
          r.2.writeEntry f i (r.1 ||| (PAGE_PRESENT ||| PAGE_RW)))
      else some (s.mem.entry f i &&& ~~~0xFFF, s) := by
  unfold ensure_table
  simp only [readEntry_eq, UInt64.or_assoc]
  by_cases hp : s.mem.entry f i &&& PAGE_PRESENT = 0
  · rw [if_pos hp, if_pos hp]
    cases alloc_table s with
    | none => rfl
    | some r =>
      obtain ⟨t, s₁⟩ := r
      have hread : (s₁.writeEntry f i (t ||| (PAGE_PRESENT ||| PAGE_RW))).mem.entry f i =
          t ||| (PAGE_PRESENT ||| PAGE_RW) := by
        rw [writeEntry_eq]
        exact Mem.load64_store64 _ _ _
      simp only [Option.bind_eq_bind, Option.bind_some, Option.map_some, hread]
  · rw [if_neg hp, if_neg hp]
    rfl

/-- **All that `ensure_table` can do** if it gets a table: follow a present
    entry, or hang a fresh table into an absent one. -/
theorem ensure_table_cases {f g : UInt64} {i : Fin 512} (hpaged : Paged A n root owned s)
    (hg : g ≠ 0) (h : ensure_table f i s = some (g, s')) :
    (s.mem.entry f i &&& PAGE_PRESENT ≠ 0 ∧ g = s.mem.entry f i &&& ~~~0xFFF ∧ s' = s) ∨
      (s.mem.entry f i &&& PAGE_PRESENT = 0 ∧ ∃ s₁, FreshTable A n owned s s₁ g ∧
        s' = s₁.writeEntry f i (g ||| (PAGE_PRESENT ||| PAGE_RW))) := by
  rw [ensure_table_eq] at h
  by_cases hp : s.mem.entry f i &&& PAGE_PRESENT = 0
  · rw [if_pos hp] at h
    obtain ⟨⟨t, s₁⟩, ha, hr⟩ := Option.map_eq_some_iff.mp h
    obtain ⟨rfl, rfl⟩ := Prod.mk.inj hr
    -- A NULL table is not noticed, and read back as the table 0.
    rcases alloc_table_cases hpaged.aligned hpaged.alloc ha with ⟨rfl, -⟩ | ⟨-, hfresh⟩
    · exact absurd (show (0 ||| (PAGE_PRESENT ||| PAGE_RW)) &&& ~~~0xFFF = 0 by decide) hg
    · rw [entry_and_not_fff hfresh.good.aligned (by decide)]
      exact Or.inr ⟨hp, s₁, hfresh, rfl⟩
  · rw [if_neg hp] at h
    obtain ⟨rfl, rfl⟩ := Prod.mk.inj (Option.some.inj h)
    exact Or.inl ⟨hp, rfl, rfl⟩

/-- With a promised frame it gets one. -/
theorem ensure_table_ne_zero {p : List (Fin 512)} {f g : UInt64} {i : Fin 512}
    (hpaged : Paged A n root owned s) (hn : 0 < n)
    (hpath : follow nextTable s.mem.entry root p = some f) (hlen : p.length < 3)
    (h : ensure_table f i s = some (g, s')) : g ≠ 0 := by
  rw [ensure_table_eq] at h
  by_cases hp : s.mem.entry f i &&& PAGE_PRESENT = 0
  · rw [if_pos hp] at h
    obtain ⟨⟨t, s₁⟩, ha, hr⟩ := Option.map_eq_some_iff.mp h
    obtain ⟨rfl, -⟩ := Prod.mk.inj hr
    rcases alloc_table_cases hpaged.aligned hpaged.alloc ha with ⟨-, hnone⟩ | ⟨ht, hfresh⟩
    · have := hnone.none_left
      omega
    · rw [entry_and_not_fff hfresh.good.aligned (by decide)]
      exact ht
  · rw [if_neg hp] at h
    obtain ⟨rfl, -⟩ := Prod.mk.inj (Option.some.inj h)
    have hlinked := linked_present (k := n) hpaged (Nat.le_refl n) hpath hp
    have hreach : Reaches nextTable s.mem.entry root 3 (s.mem.entry f i &&& ~~~0xFFF) :=
      ⟨p ++ [i], by simp; omega, hlinked.path⟩
    exact (hpaged.tables.good _ (hpaged.tables.reach _ hreach)).ne_zero

/-- `ensure_table` stands at the next table, old or new. -/
theorem ensure_table_spec {p : List (Fin 512)} {f g : UInt64} {i : Fin 512}
    (hpaged : Paged A n root owned s) (hg : g ≠ 0)
    (hpath : follow nextTable s.mem.entry root p = some f) (hlen : p.length < 3)
    (h : ensure_table f i s = some (g, s')) :
    ∃ owned', Linked A (n - 1) root owned owned' (p ++ [i]) g s s' ∧
      s'.early_page_tables = s.early_page_tables := by
  rcases ensure_table_cases hpaged hg h with ⟨hp, rfl, rfl⟩ | ⟨hp, s₁, hfresh, rfl⟩
  · exact ⟨owned, linked_present hpaged (by omega) hpath hp, rfl⟩
  · exact ⟨g :: owned, paged_link _ hpaged hfresh hpath hlen hp (by decide) (by decide),
      hfresh.early⟩

/-- Appending to `early_page_tables` touches neither tables nor allocator. -/
theorem Linked.congr {s₁ s₂ : Machine σ} {owned' : List UInt64} {p : List (Fin 512)} {g : UInt64}
    (h : Linked A n root owned owned' p g s s₁) (hmem : s₂.mem = s₁.mem)
    (halloc : s₂.alloc = s₁.alloc) (hcontrol : SameControl s₁ s₂) :
    Linked A n root owned owned' p g s s₂ := by
  refine ⟨⟨?_, ?_⟩, ?_, ?_, ⟨h.grows.sub, h.grows.control.trans hcontrol, ?_⟩⟩
  · rw [hmem, halloc, hcontrol.hhdm]
    exact h.paged.alloc
  · rw [hmem]
    exact h.paged.tables
  · rw [hmem]
    exact h.path
  · intro q hq j
    rw [hmem]
    exact h.leaves q hq j
  · intro f hf hnot
    rw [hmem]
    exact h.grows.data f hf hnot

/-- **All that `get_next_table` can do** when it may create the table: follow
    a present entry, fail, or hang a fresh table into an absent entry. -/
theorem get_next_table_cases {f g : UInt64} {i : Fin 512} (hpaged : Paged A n root owned s)
    (h : get_next_table f i true s = some (g, s')) :
    (s.mem.entry f i &&& PAGE_PRESENT ≠ 0 ∧ g = s.mem.entry f i &&& ~~~0xFFF ∧ s' = s) ∨
      (g = 0 ∧ NoTable A n owned s s') ∨
      (s.mem.entry f i &&& PAGE_PRESENT = 0 ∧ g ≠ 0 ∧ ∃ s₁, FreshTable A n owned s s₁ g ∧
        s'.mem = (s₁.writeEntry f i (g ||| (PAGE_PRESENT ||| PAGE_RW ||| PAGE_USER))).mem ∧
        s'.alloc = s₁.alloc ∧ SameControl s₁ s') := by
  unfold get_next_table at h
  by_cases hp : s.readEntry f i &&& PAGE_PRESENT = 0
  · simp only [hp, if_pos, Bool.not_true, Bool.false_eq_true, if_false] at h
    rw [readEntry_eq] at hp
    cases ha : alloc_table s with
    | none => simp [ha] at h
    | some r =>
      obtain ⟨t, s₁⟩ := r
      rcases alloc_table_cases hpaged.aligned hpaged.alloc ha with
        ⟨rfl, hnone⟩ | ⟨ht, hfresh⟩
      · obtain ⟨rfl, rfl⟩ : 0 = g ∧ s₁ = s' := by simpa [ha] using h
        exact Or.inr (Or.inl ⟨rfl, hnone⟩)
      · obtain ⟨rfl, rfl⟩ : t = g ∧ (add_early_page_table t s₁).writeEntry f i
            (t ||| PAGE_PRESENT ||| PAGE_RW ||| PAGE_USER) = s' := by
          simpa [ha, ht] using h
        refine Or.inr (Or.inr ⟨hp, ht, s₁, hfresh, ?_⟩)
        rw [UInt64.or_assoc, UInt64.or_assoc, ← UInt64.or_assoc PAGE_PRESENT, writeEntry_eq,
          writeEntry_eq]
        unfold add_early_page_table
        split <;> exact ⟨rfl, rfl, rfl, rfl, rfl⟩
  · simp only [hp, if_false] at h
    obtain ⟨rfl, rfl⟩ : s.readEntry f i &&& ~~~0xFFF = g ∧ s = s' := by simpa using h
    rw [readEntry_eq] at hp ⊢
    exact Or.inl ⟨hp, rfl, rfl⟩

/-- One level of `map_page`: fail and leave the tables alone, or stand at the
    next table, old or new. -/
theorem get_next_table_spec {p : List (Fin 512)} {f g : UInt64} {i : Fin 512}
    (hpaged : Paged A n root owned s)
    (hpath : follow nextTable s.mem.entry root p = some f) (hlen : p.length < 3)
    (h : get_next_table f i true s = some (g, s')) :
    (g = 0 ∧ n = 0 ∧ Paged A 0 root owned s' ∧ SameLeaves root s s' ∧ Grows root owned owned s s') ∨
      (g ≠ 0 ∧ ∃ owned', Linked A (n - 1) root owned owned' (p ++ [i]) g s s') := by
  rcases get_next_table_cases hpaged h with
    ⟨hp, rfl, rfl⟩ | ⟨rfl, hnone⟩ | ⟨hp, hne, s₁, hfresh, hmem, halloc, hcontrol⟩
  · have hlinked := linked_present (n := n) (k := n - 1) hpaged (by omega) hpath hp
    have hgood := hpaged.tables.good _ (hpaged.tables.reach _ ⟨p ++ [i], by simp; omega, hlinked.path⟩)
    exact Or.inr ⟨hgood.ne_zero, owned, hlinked⟩
  · have hsame := hnone.same.sameTables hpaged.tables
    refine Or.inl ⟨rfl, hnone.none_left, ⟨hnone.alloc, tables_sameTables hpaged.tables hsame⟩,
      fun q hq j => leafOf_sameTables hpaged.tables hsame q hq j,
      ⟨fun _ h => h, hnone.control, fun f hf hnot => ?_⟩⟩
    exact ⟨fun hr => hnot ((reaches_sameTables hpaged.tables hsame f).mp hr), hnone.same f hf⟩
  · have hlinked := paged_link (PAGE_PRESENT ||| PAGE_RW ||| PAGE_USER) hpaged hfresh hpath
      hlen hp (by decide) (by decide)
    exact Or.inr ⟨hne, g :: owned, hlinked.congr hmem halloc
      ⟨hcontrol.hhdm, hcontrol.pml4, hcontrol.cr3⟩⟩

/-! ## Section 4: Mapping a page -/

/-- What a successful mapping of the leaf entry `e` at `vaddr` has done. -/
structure Mapped (A : AllocSpec σ) (n : Nat) (root : UInt64) (owned owned' : List UInt64)
    (vaddr e : UInt64) (s s' : Machine σ) : Prop where
  paged  : Paged A n root owned' s'
  leaves : ∀ q : List (Fin 512), q.length = 3 → ∀ j, leafOf s'.mem root q j =
    if q = tablePath vaddr ∧ j = pt_idx vaddr then leafEntry e else leafOf s.mem root q j
  grows  : Grows root owned owned' s s'

/-- A walk down three levels and the leaf store. -/
theorem Mapped.of_linked {owned₁ : List UInt64} {s₁ : Machine σ} {vaddr pt e : UInt64}
    (h : Linked A n root owned owned₁ (tablePath vaddr) pt s s₁) :
    Mapped A n root owned owned₁ vaddr e s (s₁.writeEntry pt (pt_idx vaddr) e) := by
  obtain ⟨hpaged, hleaves, hgrows⟩ :=
    paged_setLeaf (i := pt_idx vaddr) (e := e) h.paged h.path rfl
  refine ⟨hpaged, fun q hq j => ?_, h.grows.trans hgrows⟩
  rw [hleaves q hq j, h.leaves q hq j]

/-- One level further down. -/
theorem Linked.trans {owned₁ owned₂ : List UInt64} {s₁ s₂ : Machine σ} {p q : List (Fin 512)}
    {f g : UInt64} {k : Nat} (h₁ : Linked A k root owned owned₁ p f s s₁)
    (h₂ : Linked A n root owned₁ owned₂ q g s₁ s₂) : Linked A n root owned owned₂ q g s s₂ :=
  ⟨h₂.paged, h₂.path, h₁.leaves.trans h₂.leaves, h₁.grows.trans h₂.grows⟩

omit [PageAllocator σ] in
/-- A proper part of the path of an address ends in an upper table. -/
theorem length_le_of_isPrefix {vaddr : UInt64} {p : List (Fin 512)} {i : Fin 512}
    (h : p ++ [i] <+: tablePath vaddr) : p.length < 3 := by
  have hle := h.length_le
  rw [List.length_append, List.length_singleton] at hle
  exact hle

/-- **All that `map_leaf` does** when it returns: three levels, then the store of
    the leaf entry. -/
theorem map_leaf_cases {vaddr e : UInt64} (h : map_leaf root vaddr e s = some s') :
    ∃ pdpt s₁ pd s₂ pt s₃, ensure_table root (pml4_idx vaddr) s = some (pdpt, s₁) ∧
      ensure_table pdpt (pdpt_idx vaddr) s₁ = some (pd, s₂) ∧
      ensure_table pd (pd_idx vaddr) s₂ = some (pt, s₃) ∧
      s' = s₃.writeEntry pt (pt_idx vaddr) e := by
  unfold map_leaf at h
  obtain ⟨⟨pdpt, s₁⟩, h₁, h⟩ := Option.bind_eq_some_iff.mp h
  obtain ⟨⟨pd, s₂⟩, h₂, h⟩ := Option.bind_eq_some_iff.mp h
  obtain ⟨⟨pt, s₃⟩, h₃, h⟩ := Option.bind_eq_some_iff.mp h
  exact ⟨pdpt, s₁, pd, s₂, pt, s₃, h₁, h₂, h₃, (Option.some.inj h).symm⟩

/-- Rule for the walk of `map_leaf`: `At p f` holds when the walker stands at the
    table `f` that the path `p` leads to. -/
theorem map_leaf_walk {vaddr e : UInt64} (At : List (Fin 512) → UInt64 → Machine σ → Prop)
    (hstart : At [] root s)
    (hlevel : ∀ p f i t g t', p ++ [i] <+: tablePath vaddr → At p f t →
      ensure_table f i t = some (g, t') → At (p ++ [i]) g t')
    (h : map_leaf root vaddr e s = some s') :
    ∃ pt t, At (tablePath vaddr) pt t ∧ s' = t.writeEntry pt (pt_idx vaddr) e := by
  obtain ⟨pdpt, s₁, pd, s₂, pt, s₃, h₁, h₂, h₃, rfl⟩ := map_leaf_cases h
  have hat₁ := hlevel _ _ _ _ _ _ ⟨_, rfl⟩ hstart h₁
  have hat₂ := hlevel _ _ _ _ _ _ ⟨_, rfl⟩ hat₁ h₂
  have hat₃ := hlevel _ _ _ _ _ _ ⟨[], rfl⟩ hat₂ h₃
  exact ⟨pt, s₃, hat₃, rfl⟩

/-- `map_leaf` for `vaddr` meets no allocation failure: each level gets a table. -/
def LeafAllocated (root vaddr : UInt64) (s : Machine σ) : Prop :=
  ∃ pdpt s₁ pd s₂ pt s₃,
    ensure_table root (pml4_idx vaddr) s = some (pdpt, s₁) ∧ pdpt ≠ 0 ∧
    ensure_table pdpt (pdpt_idx vaddr) s₁ = some (pd, s₂) ∧ pd ≠ 0 ∧
    ensure_table pd (pd_idx vaddr) s₂ = some (pt, s₃) ∧ pt ≠ 0

/-- **Rule for `map_leaf`** on well-formed tables: what each level keeps holds
    when the leaf is written. -/
theorem map_leaf_rule {vaddr e : UInt64} (Inv : List (Fin 512) → Machine σ → Prop)
    (hpaged : Paged A n root owned s) (halloc : LeafAllocated root vaddr s) (hstart : Inv [] s)
    (hlevel : ∀ p f i t g t' k owned₁, p.length < 3 → Linked A k root owned owned₁ p f s t →
      Inv p t → ensure_table f i t = some (g, t') → g ≠ 0 → Inv (p ++ [i]) t')
    (h : map_leaf root vaddr e s = some s') :
    ∃ owned' pt t, Linked A (n - 3) root owned owned' (tablePath vaddr) pt s t ∧
      Inv (tablePath vaddr) t ∧ s' = t.writeEntry pt (pt_idx vaddr) e := by
  let At (p : List (Fin 512)) (f : UInt64) (t : Machine σ) : Prop :=
    (∃ owned', Linked A (n - p.length) root owned owned' p f s t) ∧ Inv p t
  have hat₀ : At [] root s := ⟨⟨owned, hpaged, rfl, fun _ _ _ => rfl, Grows.refl _ _ _⟩, hstart⟩
  have hnext : ∀ p f i t g t', p ++ [i] <+: tablePath vaddr → At p f t →
      ensure_table f i t = some (g, t') → g ≠ 0 → At (p ++ [i]) g t' := by
    intro p f i t g t' hpre hat hget hg
    have hlen := length_le_of_isPrefix hpre
    obtain ⟨⟨owned₁, l₁⟩, hinv⟩ := hat
    obtain ⟨owned₂, l₂, -⟩ := ensure_table_spec l₁.paged hg l₁.path hlen hget
    rw [Nat.sub_sub] at l₂
    refine ⟨⟨owned₂, ?_⟩, hlevel p f i t g t' _ owned₁ hlen l₁ hinv hget hg⟩
    rw [List.length_append, List.length_singleton]
    exact l₁.trans l₂
  obtain ⟨pdpt, s₁, pd, s₂, pt, s₃, h₁, hne₁, h₂, hne₂, h₃, hne₃⟩ := halloc
  have hat₁ := hnext _ _ _ _ _ _ ⟨_, rfl⟩ hat₀ h₁ hne₁
  have hat₂ := hnext _ _ _ _ _ _ ⟨_, rfl⟩ hat₁ h₂ hne₂
  obtain ⟨⟨owned', hlinked⟩, hinv⟩ := hnext _ _ _ _ _ _ ⟨[], rfl⟩ hat₂ h₃ hne₃
  refine ⟨owned', pt, s₃, hlinked, hinv, ?_⟩
  simpa [map_leaf, h₁, h₂, h₃] using h.symm

/-- **`map_leaf`** maps one page, taking at most three frames. -/
theorem map_leaf_spec {vaddr e : UInt64} (hpaged : Paged A n root owned s)
    (halloc : LeafAllocated root vaddr s) (h : map_leaf root vaddr e s = some s') :
    (∃ owned', Mapped A (n - 3) root owned owned' vaddr e s s') ∧
      s'.early_page_tables = s.early_page_tables := by
  let Inv (_ : List (Fin 512)) (t : Machine σ) : Prop :=
    t.early_page_tables = s.early_page_tables
  have hlevel : ∀ p f i t g t' k owned₁, p.length < 3 → Linked A k root owned owned₁ p f s t →
      Inv p t → ensure_table f i t = some (g, t') → g ≠ 0 → Inv (p ++ [i]) t' := by
    intro p f i t g t' k owned₁ hlen l₁ hearly hget hg
    obtain ⟨-, -, e₂⟩ := ensure_table_spec l₁.paged hg l₁.path hlen hget
    exact e₂.trans hearly
  obtain ⟨owned', pt, t, hlinked, hearly, rfl⟩ := map_leaf_rule Inv hpaged halloc rfl hlevel h
  exact ⟨⟨owned', Mapped.of_linked hlinked⟩, hearly⟩

/-- Three promised frames are enough for `map_leaf`. -/
theorem leafAllocated_of_room {vaddr e : UInt64} (hpaged : Paged A n root owned s) (hn : 3 ≤ n)
    (h : map_leaf root vaddr e s = some s') : LeafAllocated root vaddr s := by
  obtain ⟨pdpt, s₁, pd, s₂, pt, s₃, h₁, h₂, h₃, -⟩ := map_leaf_cases h
  have hne₁ := ensure_table_ne_zero (p := []) hpaged (by omega) rfl (by simp) h₁
  obtain ⟨owned₁, l₁, -⟩ := ensure_table_spec (p := []) hpaged hne₁ rfl (by simp) h₁
  have hne₂ := ensure_table_ne_zero l₁.paged (by omega) l₁.path (by simp) h₂
  obtain ⟨owned₂, l₂, -⟩ := ensure_table_spec l₁.paged hne₂ l₁.path (by simp) h₂
  have hne₃ := ensure_table_ne_zero l₂.paged (by omega) l₂.path (by simp) h₃
  exact ⟨pdpt, s₁, pd, s₂, pt, s₃, h₁, hne₁, h₂, hne₂, h₃, hne₃⟩

/-- The leaf entry that `map_page` writes. -/
def pageEntry (phys_addr flags : UInt64) : UInt64 :=
  (phys_addr &&& ~~~0xFFF) ||| (flags &&& 0xFFF) ||| PAGE_PRESENT

/-- `map_page` for `vaddr` meets no allocation failure: none of its three calls
    of `get_next_table` returns NULL. -/
def NoAllocationFailure (vaddr : UInt64) (s : Machine σ) : Prop :=
  ∃ pdpt s₁ pd s₂ pt s₃,
    get_next_table s.pml4 (pml4_idx vaddr) true s = some (pdpt, s₁) ∧ pdpt ≠ 0 ∧
    get_next_table pdpt (pdpt_idx vaddr) true s₁ = some (pd, s₂) ∧ pd ≠ 0 ∧
    get_next_table pd (pd_idx vaddr) true s₂ = some (pt, s₃) ∧ pt ≠ 0

/-- **Rule for the walk of `map_page`**: `At p f` holds when the walker stands at
    the table `f` that the path `p` leads to, `Failed` when it has given up. -/
theorem map_page_walk {vaddr phys_addr flags : UInt64}
    (At : List (Fin 512) → UInt64 → Machine σ → Prop) (Failed : Machine σ → Prop)
    (hstart : At [] s.pml4 s)
    (hlevel : ∀ p f i t g t', p ++ [i] <+: tablePath vaddr → At p f t →
      get_next_table f i true t = some (g, t') →
      (g = 0 ∧ Failed t') ∨ (g ≠ 0 ∧ At (p ++ [i]) g t'))
    (h : map_page vaddr phys_addr flags s = some s') :
    (¬ NoAllocationFailure vaddr s ∧ Failed s') ∨
      (NoAllocationFailure vaddr s ∧ ∃ pt t, At (tablePath vaddr) pt t ∧
        s' = t.writeEntry pt (pt_idx vaddr) (pageEntry phys_addr flags)) := by
  unfold map_page at h
  unfold NoAllocationFailure
  obtain ⟨⟨pdpt, s₁⟩, h₁, h⟩ := Option.bind_eq_some_iff.mp h
  rcases hlevel _ _ _ _ _ _ ⟨_, rfl⟩ hstart h₁ with ⟨rfl, hfailed⟩ | ⟨hne₁, hat₁⟩
  · obtain rfl : s₁ = s' := by simpa using h
    exact Or.inl ⟨by grind, hfailed⟩
  · simp only [hne₁, if_false] at h
    obtain ⟨⟨pd, s₂⟩, h₂, h⟩ := Option.bind_eq_some_iff.mp h
    rcases hlevel _ _ _ _ _ _ ⟨_, rfl⟩ hat₁ h₂ with ⟨rfl, hfailed⟩ | ⟨hne₂, hat₂⟩
    · obtain rfl : s₂ = s' := by simpa using h
      exact Or.inl ⟨by grind, hfailed⟩
    · simp only [hne₂, if_false] at h
      obtain ⟨⟨pt, s₃⟩, h₃, h⟩ := Option.bind_eq_some_iff.mp h
      rcases hlevel _ _ _ _ _ _ ⟨[], rfl⟩ hat₂ h₃ with ⟨rfl, hfailed⟩ | ⟨hne₃, hat₃⟩
      · obtain rfl : s₃ = s' := by simpa using h
        exact Or.inl ⟨by grind, hfailed⟩
      · simp only [hne₃, if_false] at h
        obtain rfl := Option.some.inj h
        exact Or.inr ⟨⟨pdpt, s₁, pd, s₂, pt, s₃, h₁, hne₁, h₂, hne₂, h₃, hne₃⟩, pt, s₃, hat₃, rfl⟩

/-- **Rule for `map_page`** on well-formed tables: what each level keeps holds
    when the leaf is written, or when the walker gives up on its way. -/
theorem map_page_rule {vaddr phys_addr flags : UInt64} (Inv : List (Fin 512) → Machine σ → Prop)
    (hpaged : Paged A n root owned s) (hroot : s.pml4 = root) (hstart : Inv [] s)
    (hlevel : ∀ p f i t g t' k owned₁, p.length < 3 → Linked A k root owned owned₁ p f s t →
      Inv p t → get_next_table f i true t = some (g, t') → Inv (p ++ [i]) t')
    (h : map_page vaddr phys_addr flags s = some s') :
    (NoAllocationFailure vaddr s ∧
        ∃ owned' pt t, Linked A (n - 3) root owned owned' (tablePath vaddr) pt s t ∧
          Inv (tablePath vaddr) t ∧
          s' = t.writeEntry pt (pt_idx vaddr) (pageEntry phys_addr flags)) ∨
      (¬ NoAllocationFailure vaddr s ∧ n < 3 ∧ (∃ p, p <+: tablePath vaddr ∧ Inv p s') ∧
        ∃ owned', Paged A 0 root owned' s' ∧ SameLeaves root s s' ∧ Grows root owned owned' s s') := by
  let At (p : List (Fin 512)) (f : UInt64) (t : Machine σ) : Prop :=
    (∃ owned', Linked A (n - p.length) root owned owned' p f s t) ∧ Inv p t
  let Failed (t : Machine σ) : Prop :=
    n < 3 ∧ (∃ p, p <+: tablePath vaddr ∧ Inv p t) ∧
      ∃ owned', Paged A 0 root owned' t ∧ SameLeaves root s t ∧ Grows root owned owned' s t
  have hat₀ : At [] s.pml4 s := by
    rw [hroot]
    exact ⟨⟨owned, hpaged, rfl, fun _ _ _ => rfl, Grows.refl _ _ _⟩, hstart⟩
  have hnext : ∀ p f i t g t', p ++ [i] <+: tablePath vaddr → At p f t →
      get_next_table f i true t = some (g, t') →
      (g = 0 ∧ Failed t') ∨ (g ≠ 0 ∧ At (p ++ [i]) g t') := by
    intro p f i t g t' hpre hat hget
    have hlen := length_le_of_isPrefix hpre
    obtain ⟨⟨owned₁, l₁⟩, hinv⟩ := hat
    have hinv' := hlevel p f i t g t' _ owned₁ hlen l₁ hinv hget
    rcases get_next_table_spec l₁.paged l₁.path hlen hget with
      ⟨hz, hn, hpaged', hleaves, hgrows⟩ | ⟨hne, owned₂, l₂⟩
    · exact Or.inl ⟨hz, by omega, ⟨_, hpre, hinv'⟩, owned₁, hpaged', l₁.leaves.trans hleaves,
        l₁.grows.trans hgrows⟩
    · rw [Nat.sub_sub] at l₂
      refine Or.inr ⟨hne, ⟨owned₂, ?_⟩, hinv'⟩
      rw [List.length_append, List.length_singleton]
      exact l₁.trans l₂
  rcases map_page_walk At Failed hat₀ hnext h with
    hfailed | ⟨hno, pt, t, ⟨⟨owned', hlinked⟩, hinv⟩, hs'⟩
  · exact Or.inr hfailed
  · exact Or.inl ⟨hno, owned', pt, t, hlinked, hinv, hs'⟩

/-- **All that `map_page` can do**: map one page, or give up on a NULL answer of
    the allocator and change no translation. -/
theorem map_page_cases {vaddr phys_addr flags : UInt64} (hpaged : Paged A n root owned s)
    (hroot : s.pml4 = root) (h : map_page vaddr phys_addr flags s = some s') :
    (NoAllocationFailure vaddr s ∧
        ∃ owned', Mapped A (n - 3) root owned owned' vaddr (pageEntry phys_addr flags) s s') ∨
      (¬ NoAllocationFailure vaddr s ∧ n < 3 ∧ ∃ owned', Paged A 0 root owned' s' ∧
        SameLeaves root s s' ∧ Grows root owned owned' s s') := by
  rcases map_page_rule (fun _ _ => True) hpaged hroot trivial
    (fun _ _ _ _ _ _ _ _ _ _ _ _ => trivial) h with
    ⟨hno, owned', pt, t, hlinked, -, rfl⟩ | ⟨hfail, hn, -, hfailed⟩
  · exact Or.inl ⟨hno, owned', Mapped.of_linked hlinked⟩
  · exact Or.inr ⟨hfail, hn, hfailed⟩

/-- **`map_page`**, whether an allocation failed or not. -/
theorem map_page_spec {vaddr phys_addr flags : UInt64} (hpaged : Paged A n root owned s)
    (hroot : s.pml4 = root) (h : map_page vaddr phys_addr flags s = some s') :
    (∃ owned', Mapped A (n - 3) root owned owned' vaddr (pageEntry phys_addr flags) s s') ∨
      (n < 3 ∧ ∃ owned', Paged A 0 root owned' s' ∧ SameLeaves root s s' ∧
        Grows root owned owned' s s') := by
  rcases map_page_cases hpaged hroot h with ⟨-, hmapped⟩ | ⟨-, hfailed⟩
  · exact Or.inl hmapped
  · exact Or.inr hfailed

/-- Three promised frames are enough. -/
theorem noAllocationFailure_of_room {vaddr phys_addr flags : UInt64} (hn : 3 ≤ n)
    (hpaged : Paged A n s.pml4 owned s) (h : map_page vaddr phys_addr flags s = some s') :
    NoAllocationFailure vaddr s := by
  rcases map_page_cases hpaged rfl h with ⟨hno, -⟩ | ⟨-, hlt, -⟩
  · exact hno
  · omega

/-! ## Section 5: The walkers return -/

theorem alloc_table_total (h : A.Supply (n + 1) s.alloc) :
    ∃ t s', alloc_table s = some (t, s') ∧ A.Supply n s'.alloc := by
  obtain ⟨f, a, m, hk, hs⟩ := A.supply s.hhdm s.mem h
  unfold alloc_table Machine.kmalloc
  by_cases hf : f = 0
  · exact ⟨0, { s with alloc := a, mem := m }, by simp [hk, hf], hs⟩
  · exact ⟨f, _, by simp [hk, hf]; rfl, hs⟩

theorem ensure_table_total {f : UInt64} {i : Fin 512} (h : A.Supply (n + 1) s.alloc) :
    ∃ g s', ensure_table f i s = some (g, s') ∧ A.Supply n s'.alloc := by
  unfold ensure_table
  by_cases hp : s.mem.entry f i &&& PAGE_PRESENT = 0
  · obtain ⟨t, s₁, ha, hs⟩ := alloc_table_total h
    let s₂ := s₁.writeEntry f i (t ||| PAGE_PRESENT ||| PAGE_RW)
    exact ⟨s₂.mem.entry f i &&& ~~~0xFFF, s₂, by simp [hp, ha, s₂], hs⟩
  · exact ⟨s.mem.entry f i &&& ~~~0xFFF, s, by simp [hp], A.supply_mono h⟩

/-- `map_leaf` asks the allocator at most three times. -/
theorem map_leaf_total (pml4 vaddr e : UInt64) (h : A.Supply (n + 3) s.alloc) :
    ∃ s', map_leaf pml4 vaddr e s = some s' ∧ A.Supply n s'.alloc := by
  obtain ⟨pdpt, s₁, h₁, hs₁⟩ := ensure_table_total (f := pml4) (i := pml4_idx vaddr) h
  obtain ⟨pd, s₂, h₂, hs₂⟩ := ensure_table_total (f := pdpt) (i := pdpt_idx vaddr) hs₁
  obtain ⟨pt, s₃, h₃, hs₃⟩ := ensure_table_total (f := pd) (i := pd_idx vaddr) hs₂
  exact ⟨s₃.writeEntry pt (pt_idx vaddr) e, by simp [map_leaf, h₁, h₂, h₃], hs₃⟩

theorem get_next_table_total {f : UInt64} {i : Fin 512} (h : A.Supply (n + 1) s.alloc) :
    ∃ g s', get_next_table f i true s = some (g, s') ∧ A.Supply n s'.alloc := by
  unfold get_next_table
  by_cases hp : s.mem.entry f i &&& PAGE_PRESENT = 0
  · obtain ⟨t, s₁, ha, hs⟩ := alloc_table_total h
    by_cases ht : t = 0
    · exact ⟨0, s₁, by simp [hp, ha, ht], hs⟩
    · refine ⟨t, (add_early_page_table t s₁).writeEntry f i
        (t ||| PAGE_PRESENT ||| PAGE_RW ||| PAGE_USER), by simp [hp, ha, ht], ?_⟩
      unfold add_early_page_table
      split <;> exact hs
  · exact ⟨s.mem.entry f i &&& ~~~0xFFF, s, by simp [hp], A.supply_mono h⟩

/-- `map_page` asks the allocator at most three times. -/
theorem map_page_total {vaddr phys_addr flags : UInt64} (h : A.Supply (n + 3) s.alloc) :
    ∃ s', map_page vaddr phys_addr flags s = some s' ∧ A.Supply n s'.alloc := by
  obtain ⟨pdpt, s₁, h₁, hs₁⟩ := get_next_table_total (f := s.pml4) (i := pml4_idx vaddr) h
  by_cases hz₁ : pdpt = 0
  · exact ⟨s₁, by simp [map_page, h₁, hz₁], A.supply_mono_le (by omega) hs₁⟩
  · obtain ⟨pd, s₂, h₂, hs₂⟩ := get_next_table_total (f := pdpt) (i := pdpt_idx vaddr) hs₁
    by_cases hz₂ : pd = 0
    · exact ⟨s₂, by simp [map_page, h₁, hz₁, h₂, hz₂], A.supply_mono_le (by omega) hs₂⟩
    · obtain ⟨pt, s₃, h₃, hs₃⟩ := get_next_table_total (f := pd) (i := pd_idx vaddr) hs₂
      by_cases hz₃ : pt = 0
      · exact ⟨s₃, by simp [map_page, h₁, hz₁, h₂, hz₂, h₃, hz₃], hs₃⟩
      · exact ⟨s₃.writeEntry pt (pt_idx vaddr) (pageEntry phys_addr flags),
          by simp [map_page, pageEntry, h₁, hz₁, h₂, hz₂, h₃, hz₃], hs₃⟩

end walkers

end ArgaldOS
