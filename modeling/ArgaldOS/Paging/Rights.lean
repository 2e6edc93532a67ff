import ArgaldOS.Paging.Kernel
import ArgaldOS.Paging.Switch

/-! # Who may access a page

    The hardware grants an access only if all four entries of the walk grant
    it.  The upper entries are made once, by whichever walker comes first, and
    never revised: `map_range` and the open-coded walkers of `init_paging` make
    them for the kernel only, `get_next_table` for the user as well.

    * `UpperStep`: what a walker may do to the upper entries;
    * `SetupRights`, `UpperRights`: which upper entries exist after a run, and
      what they grant;
    * `map_page_access_iff`: a page mapped for the user is accessible exactly
      if the setup mapped nothing below the same entry of the PML4;
    * `init_paging_keeps_user_out`: after `init_paging` nothing in the lowest
      512 GiB ever becomes accessible.
-/

namespace ArgaldOS

open TableTree Runs

/-! ## Section 1: Access rights -/

/-- The rights of the translation of `vaddr`: the entries that the walk reads,
    and-ed together; `none` on a page fault. -/
def accessRights (mem : Mem) (cr3 vaddr : UInt64) : Option UInt64 :=
  let e4 := mem.entry (cr3 &&& frameMask) (pml4_idx vaddr)
  if e4 &&& PAGE_PRESENT = 0 then none else
  let e3 := mem.entry (e4 &&& frameMask) (pdpt_idx vaddr)
  if e3 &&& PAGE_PRESENT = 0 then none else
  if e3 &&& PAGE_PS ≠ 0 then some (e4 &&& e3) else
  let e2 := mem.entry (e3 &&& frameMask) (pd_idx vaddr)
  if e2 &&& PAGE_PRESENT = 0 then none else
  if e2 &&& PAGE_PS ≠ 0 then some (e4 &&& e3 &&& e2) else
  let e1 := mem.entry (e2 &&& frameMask) (pt_idx vaddr)
  if e1 &&& PAGE_PRESENT = 0 then none else some (e4 &&& e3 &&& e2 &&& e1)

/-- User code may read and write at `vaddr`. -/
def UserWritable (mem : Mem) (cr3 vaddr : UInt64) : Prop :=
  ∃ e, accessRights mem cr3 vaddr = some e ∧ e &&& PAGE_USER ≠ 0 ∧ e &&& PAGE_RW ≠ 0

/-- An entry that grants what `bit` stands for. -/
def Grants (bit e : UInt64) : Prop := e &&& bit ≠ 0

/-- What an entry grants that is made of an aligned frame and low flags is a
    matter of the flags. -/
theorem grants_or_iff {t flags bit : UInt64} (ht : PageAligned t) (hflags : flags.toNat < 4096)
    (hbit : bit &&& 0xFFF = bit) : Grants bit (t ||| flags) ↔ Grants bit flags := by
  have hlow : (t ||| flags) &&& bit = flags &&& bit := by
    calc (t ||| flags) &&& bit
      _ = (t ||| flags) &&& (0xFFF &&& bit) := by rw [UInt64.and_comm 0xFFF, hbit]
      _ = flags &&& bit := by rw [← UInt64.and_assoc, or_and_fff ht hflags]
  unfold Grants
  rw [hlow]

/-- The entries of the table at the end of a path. -/
theorem entryAt_of_follow {root f : UInt64} {m : Mem} {p : List (Fin 512)}
    (hpath : follow nextTable m.entry root p = some f) (j : Fin 512) :
    entryAt m root p j = leafEntry (m.entry f j) := by
  unfold entryAt leafAt
  rw [hpath]
  rfl

/-- A path is followed through the present entries. -/
theorem follow_entryAt (root : UInt64) (m : Mem) (p : List (Fin 512)) (j : Fin 512) :
    follow nextTable m.entry root (p ++ [j]) = (entryAt m root p j).map (· &&& ~~~0xFFF) := by
  rw [follow_snoc]
  unfold entryAt leafAt
  cases follow nextTable m.entry root p with
  | none => rfl
  | some f =>
    show nextTable (m.entry f j) = (leafEntry (m.entry f j)).map _
    unfold nextTable leafEntry
    by_cases hp : m.entry f j &&& PAGE_PRESENT = 0
    · simp [hp]
    · simp [hp]

/-- What the hardware makes of a present upper entry. -/
theorem present_upper {root f : UInt64} {owned : List UInt64} {m : Mem} (h : Tables root owned m)
    {p : List (Fin 512)} (hlen : p.length < 3) (hpath : follow nextTable m.entry root p = some f)
    {j : Fin 512} (hp : m.entry f j &&& PAGE_PRESENT ≠ 0) :
    entryAt m root p j = some (m.entry f j) ∧ m.entry f j &&& PAGE_PS = 0 ∧
      follow nextTable m.entry root (p ++ [j]) = some (m.entry f j &&& frameMask) := by
  have hentry : entryAt m root p j = some (m.entry f j) := by
    rw [entryAt_of_follow hpath]
    unfold leafEntry
    rw [if_neg hp]
  obtain ⟨hlt, hps⟩ := h.upper p f hlen hpath j hp
  refine ⟨hentry, and_PS_eq_zero hps, ?_⟩
  rw [follow_entryAt, hentry, and_frameMask_of_lt hlt]
  rfl

theorem absent_entry {root f : UInt64} {m : Mem} {p : List (Fin 512)}
    (hpath : follow nextTable m.entry root p = some f) {j : Fin 512}
    (hp : m.entry f j &&& PAGE_PRESENT = 0) : entryAt m root p j = none := by
  rw [entryAt_of_follow hpath]
  unfold leafEntry
  rw [if_pos hp]

/-- **On well-formed tables** the rights of an address are those of the four
    entries on its path. -/
theorem accessRights_eq {root : UInt64} {owned : List UInt64} {m : Mem} (h : Tables root owned m)
    (vaddr : UInt64) :
    accessRights m root vaddr =
      (entryAt m root [] (pml4_idx vaddr)).bind fun e4 =>
        (entryAt m root [pml4_idx vaddr] (pdpt_idx vaddr)).bind fun e3 =>
          (entryAt m root [pml4_idx vaddr, pdpt_idx vaddr] (pd_idx vaddr)).bind fun e2 =>
            (entryAt m root (tablePath vaddr) (pt_idx vaddr)).map fun e1 =>
              e4 &&& e3 &&& e2 &&& e1 := by
  have hroot := h.root_good.and_frameMask
  have hpath : follow nextTable m.entry root [] = some root := rfl
  unfold accessRights
  simp only [hroot]
  -- One level after the other: the entry is absent for both, or both follow it.
  by_cases hp4 : m.entry root (pml4_idx vaddr) &&& PAGE_PRESENT = 0
  · rw [if_pos hp4, absent_entry hpath hp4]
    rfl
  obtain ⟨he4, -, hpath4⟩ := present_upper h (by simp) hpath hp4
  rw [if_neg hp4, he4, Option.bind_some]
  generalize m.entry root (pml4_idx vaddr) = e4 at hpath4
  change follow nextTable m.entry root [pml4_idx vaddr] = _ at hpath4
  by_cases hp3 : m.entry (e4 &&& frameMask) (pdpt_idx vaddr) &&& PAGE_PRESENT = 0
  · rw [if_pos hp3, absent_entry hpath4 hp3]
    rfl
  obtain ⟨he3, hps3, hpath3⟩ := present_upper h (by simp) hpath4 hp3
  rw [if_neg hp3, if_neg (not_not.mpr hps3), he3, Option.bind_some]
  generalize m.entry (e4 &&& frameMask) (pdpt_idx vaddr) = e3 at hpath3
  change follow nextTable m.entry root [pml4_idx vaddr, pdpt_idx vaddr] = _ at hpath3
  by_cases hp2 : m.entry (e3 &&& frameMask) (pd_idx vaddr) &&& PAGE_PRESENT = 0
  · rw [if_pos hp2, absent_entry hpath3 hp2]
    rfl
  obtain ⟨he2, hps2, hpath2⟩ := present_upper h (by simp) hpath3 hp2
  rw [if_neg hp2, if_neg (not_not.mpr hps2), he2, Option.bind_some]
  generalize m.entry (e3 &&& frameMask) (pd_idx vaddr) = e2 at hpath2
  change follow nextTable m.entry root (tablePath vaddr) = _ at hpath2
  rw [entryAt_of_follow hpath2]
  unfold leafEntry
  by_cases hp1 : m.entry (e2 &&& frameMask) (pt_idx vaddr) &&& PAGE_PRESENT = 0
  · rw [if_pos hp1, if_pos hp1]
    rfl
  · rw [if_neg hp1, if_neg hp1]
    rfl

/-- An and-ed entry grants what all its parts grant. -/
theorem grants_and_iff {bit : UInt64} {k : Nat} (hbit : bit.toNat = 2 ^ k) (a b : UInt64) :
    Grants bit (a &&& b) ↔ Grants bit a ∧ Grants bit b := by
  unfold Grants
  rw [Words.and_two_pow_ne_zero_iff _ _ k hbit, Words.and_two_pow_ne_zero_iff _ _ k hbit,
    Words.and_two_pow_ne_zero_iff _ _ k hbit, UInt64.toNat_and, Nat.testBit_and, Bool.and_eq_true]

/-- User code may access the page exactly if each entry on its path grants it. -/
theorem userWritable_iff {root : UInt64} {owned : List UInt64} {m : Mem} (h : Tables root owned m)
    (vaddr : UInt64) :
    UserWritable m root vaddr ↔ ∃ e4 e3 e2 e1,
      entryAt m root [] (pml4_idx vaddr) = some e4 ∧
      entryAt m root [pml4_idx vaddr] (pdpt_idx vaddr) = some e3 ∧
      entryAt m root [pml4_idx vaddr, pdpt_idx vaddr] (pd_idx vaddr) = some e2 ∧
      entryAt m root (tablePath vaddr) (pt_idx vaddr) = some e1 ∧
      ∀ e ∈ [e4, e3, e2, e1], Grants PAGE_USER e ∧ Grants PAGE_RW e := by
  have huser : ∀ a b, Grants PAGE_USER (a &&& b) ↔ _ := grants_and_iff (k := 2) rfl
  have hrw : ∀ a b, Grants PAGE_RW (a &&& b) ↔ _ := grants_and_iff (k := 1) rfl
  have hall : ∀ e4 e3 e2 e1 : UInt64,
      (Grants PAGE_USER (e4 &&& e3 &&& e2 &&& e1) ∧ Grants PAGE_RW (e4 &&& e3 &&& e2 &&& e1)) ↔
        ∀ e ∈ [e4, e3, e2, e1], Grants PAGE_USER e ∧ Grants PAGE_RW e := by
    intro e4 e3 e2 e1
    simp only [huser, hrw, List.forall_mem_cons, List.not_mem_nil, false_implies, implies_true,
      and_true]
    constructor
    · rintro ⟨⟨⟨⟨u4, u3⟩, u2⟩, u1⟩, ⟨⟨w4, w3⟩, w2⟩, w1⟩
      exact ⟨⟨u4, w4⟩, ⟨u3, w3⟩, ⟨u2, w2⟩, u1, w1⟩
    · rintro ⟨⟨u4, w4⟩, ⟨u3, w3⟩, ⟨u2, w2⟩, u1, w1⟩
      exact ⟨⟨⟨⟨u4, u3⟩, u2⟩, u1⟩, ⟨⟨w4, w3⟩, w2⟩, w1⟩
  unfold UserWritable
  rw [accessRights_eq h]
  simp only [Option.bind_eq_some_iff, Option.map_eq_some_iff]
  constructor
  · intro hw
    obtain ⟨e, ⟨e4, h4, e3, h3, e2, h2, e1, h1, rfl⟩, hgrants⟩ := hw
    exact ⟨e4, e3, e2, e1, h4, h3, h2, h1, (hall e4 e3 e2 e1).mp hgrants⟩
  · intro hw
    obtain ⟨e4, e3, e2, e1, h4, h3, h2, h1, hgrants⟩ := hw
    exact ⟨_, ⟨e4, h4, e3, h3, e2, h2, e1, h1, rfl⟩, (hall e4 e3 e2 e1).mpr hgrants⟩

/-! ## Section 2: What a walker does to the upper entries -/

/-- A walker along `path` that links tables with `flags` keeps the upper
    entries that are present, and makes new ones on its path only. -/
structure UpperStep (root flags : UInt64) (path : List (Fin 512)) (m m' : Mem) : Prop where
  kept : ∀ q j e, q.length < 3 → entryAt m root q j = some e → entryAt m' root q j = some e
  made : ∀ q j e, q.length < 3 → entryAt m' root q j = some e →
    entryAt m root q j = some e ∨
      (entryAt m root q j = none ∧ q ++ [j] <+: path ∧ ∃ t, PageAligned t ∧ e = t ||| flags)

/-- Steps that change no upper entry. -/
theorem UpperStep.of_eq {root : UInt64} (flags : UInt64) (path : List (Fin 512)) {m m' : Mem}
    (h : ∀ q j, q.length < 3 → entryAt m' root q j = entryAt m root q j) :
    UpperStep root flags path m m' := by
  refine ⟨fun q j e hq he => ?_, fun q j e hq he => Or.inl ?_⟩
  · rw [h q j hq]
    exact he
  · rw [← h q j hq]
    exact he

theorem UpperStep.trans {root flags : UInt64} {p p' : List (Fin 512)} {m m' m'' : Mem}
    (h : UpperStep root flags p m m') (h' : UpperStep root flags p' m' m'') (hp : p <+: p') :
    UpperStep root flags p' m m'' := by
  refine ⟨fun q j e hq he => h'.kept q j e hq (h.kept q j e hq he), ?_⟩
  intro q j e hq he
  rcases h'.made q j e hq he with hold | ⟨hnone, hpre, hnew⟩
  · rcases h.made q j e hq hold with hold' | ⟨hnone, hpre, hnew⟩
    · exact Or.inl hold'
    · exact Or.inr ⟨hnone, hpre.trans hp, hnew⟩
  · refine Or.inr ⟨?_, hpre, hnew⟩
    -- An entry that was present at first would still be.
    cases hm : entryAt m root q j with
    | none => rfl
    | some e' =>
      rw [h.kept q j e' hq hm] at hnone
      cases hnone

section walkers
variable {σ : Type} [PageAllocator σ] {A : AllocSpec σ}
variable {n : Nat} {root : UInt64} {owned : List UInt64} {s s' : Machine σ}

/-- Hanging a fresh table into an absent entry. -/
theorem upperStep_link {flags : UInt64} {s₁ : Machine σ} {t f : UInt64} {p : List (Fin 512)}
    {i : Fin 512} (htab : Tables root owned s.mem) (hfresh : FreshTable A n owned s s₁ t)
    (hpath : follow nextTable s.mem.entry root p = some f) (hlen : p.length < 3)
    (habsent : s.mem.entry f i &&& PAGE_PRESENT = 0) (hflags : flags.toNat < 8)
    (hpresent : flags.toNat % 2 = 1) :
    UpperStep root flags (p ++ [i]) s.mem (s₁.writeEntry f i (t ||| flags)).mem := by
  obtain ⟨hlink, hblank, hslot⟩ :=
    link_writeEntry flags htab hfresh hpath hlen habsent hflags hpresent
  -- The new table is empty, so its link is the only new entry.
  have hentry : ∀ q j, q.length < 3 →
      entryAt (s₁.writeEntry f i (t ||| flags)).mem root q j =
        if q = p ∧ j = i then leafEntry (t ||| flags) else entryAt s.mem root q j := by
    intro q j hq
    have hempty : ∀ k, leafEntry ((s₁.writeEntry f i (t ||| flags)).mem.entry t k) = none := by
      intro k
      rw [hblank k]
      rfl
    have hleaf := leafAt_link_le hlink htab.unshared hempty q (by omega) j
    rw [hslot] at hleaf
    exact hleaf
  have hnone : entryAt s.mem root p i = none := absent_entry hpath habsent
  constructor
  · intro q j e hq he
    rw [hentry q j hq]
    by_cases hqj : q = p ∧ j = i
    · obtain ⟨rfl, rfl⟩ := hqj
      rw [hnone] at he
      cases he
    · rw [if_neg hqj]
      exact he
  · intro q j e hq he
    rw [hentry q j hq] at he
    by_cases hqj : q = p ∧ j = i
    · rw [if_pos hqj] at he
      obtain ⟨rfl, rfl⟩ := hqj
      unfold leafEntry at he
      split at he
      · cases he
      · exact Or.inr ⟨hnone, List.prefix_refl _, t, hfresh.good.aligned, (Option.some.inj he).symm⟩
    · rw [if_neg hqj] at he
      exact Or.inl he

/-- One level of the kernel's walker. -/
theorem ensure_table_uppers {p : List (Fin 512)} {f g : UInt64} {i : Fin 512}
    (hpaged : Paged A n root owned s) (hg : g ≠ 0)
    (hpath : follow nextTable s.mem.entry root p = some f) (hlen : p.length < 3)
    (h : ensure_table f i s = some (g, s')) :
    UpperStep root (PAGE_PRESENT ||| PAGE_RW) (p ++ [i]) s.mem s'.mem := by
  rcases ensure_table_cases hpaged hg h with ⟨-, -, rfl⟩ | ⟨hp, s₁, hfresh, rfl⟩
  · exact UpperStep.of_eq _ _ fun _ _ _ => rfl
  · exact upperStep_link hpaged.tables hfresh hpath hlen hp (by decide) (by decide)

/-- One level of the walker of `map_page`. -/
theorem get_next_table_uppers {p : List (Fin 512)} {f g : UInt64} {i : Fin 512}
    (hpaged : Paged A n root owned s) (hpath : follow nextTable s.mem.entry root p = some f)
    (hlen : p.length < 3) (h : get_next_table f i true s = some (g, s')) :
    UpperStep root (PAGE_PRESENT ||| PAGE_RW ||| PAGE_USER) (p ++ [i]) s.mem s'.mem := by
  rcases get_next_table_cases hpaged h with
    ⟨-, -, rfl⟩ | ⟨-, hnone⟩ | ⟨hp, -, s₁, hfresh, hmem, -⟩
  · exact UpperStep.of_eq _ _ fun _ _ _ => rfl
  · have hsame := hnone.same.sameTables hpaged.tables
    exact UpperStep.of_eq _ _ fun q j hq => entryAt_sameTables hpaged.tables hsame q (by omega) j
  · rw [hmem]
    exact upperStep_link hpaged.tables hfresh hpath hlen hp (by decide) (by decide)

omit [PageAllocator σ] in
/-- The leaf store changes no upper entry. -/
theorem upperStep_setLeaf {flags f e : UInt64} {path p : List (Fin 512)} {i : Fin 512}
    (htab : Tables root owned s.mem) (hpath : follow nextTable s.mem.entry root p = some f)
    (hlen : p.length = 3) : UpperStep root flags path s.mem (s.writeEntry f i e).mem := by
  refine UpperStep.of_eq _ _ fun q j hq => ?_
  have hqp : ¬ (q = p ∧ j = i) := by
    intro hc
    rw [hc.1, hlen] at hq
    exact Nat.lt_irrefl 3 hq
  have hset := setLeaf_writeEntry (s := s) (i := i) (e := e) htab hpath hlen
  have hleaf : entryAt (s.writeEntry f i e).mem root q j =
      if q = p ∧ j = i then leafEntry e else entryAt s.mem root q j :=
    leafAt_setLeaf hset htab.unshared q (by omega) j
  rw [hleaf, if_neg hqp]

/-- **`map_leaf`** makes kernel entries on its path, which leads to a table
    then. -/
theorem map_leaf_uppers {vaddr e : UInt64} (hpaged : Paged A n root owned s)
    (halloc : LeafAllocated root vaddr s) (h : map_leaf root vaddr e s = some s') :
    UpperStep root (PAGE_PRESENT ||| PAGE_RW) (tablePath vaddr) s.mem s'.mem ∧
      follow nextTable s'.mem.entry root (tablePath vaddr) ≠ none := by
  let Inv (p : List (Fin 512)) (t : Machine σ) : Prop :=
    UpperStep root (PAGE_PRESENT ||| PAGE_RW) p s.mem t.mem
  have hlevel : ∀ p f i t g t' k owned₁, p.length < 3 → Linked A k root owned owned₁ p f s t →
      Inv p t → ensure_table f i t = some (g, t') → g ≠ 0 → Inv (p ++ [i]) t' := by
    intro p f i t g t' k owned₁ hlen l₁ hupper hget hg
    have hlevel := ensure_table_uppers l₁.paged hg l₁.path hlen hget
    exact hupper.trans hlevel (List.prefix_append _ _)
  -- The three levels link tables on the path; the leaf is no upper entry.
  obtain ⟨owned', pt, t, hlinked, hupper, rfl⟩ :=
    map_leaf_rule Inv hpaged halloc (UpperStep.of_eq _ _ fun _ _ _ => rfl) hlevel h
  have hset := setLeaf_writeEntry (s := t) (i := pt_idx vaddr) (e := e) hlinked.paged.tables
    hlinked.path rfl
  have hstay := follow_setLeaf hset hlinked.paged.tables.unshared (tablePath vaddr)
    (Nat.le_of_eq (tablePath_length vaddr))
  refine ⟨hupper.trans (upperStep_setLeaf hlinked.paged.tables hlinked.path rfl)
    (List.prefix_refl _), ?_⟩
  rw [hstay, hlinked.path]
  simp

/-- **`map_page`** makes user entries on its path; unless an allocation fails,
    the path leads to the new leaf entry then. -/
theorem map_page_uppers {vaddr phys_addr flags : UInt64} (hpaged : Paged A n root owned s)
    (hroot : s.pml4 = root) (h : map_page vaddr phys_addr flags s = some s') :
    UpperStep root (PAGE_PRESENT ||| PAGE_RW ||| PAGE_USER) (tablePath vaddr) s.mem s'.mem ∧
      (NoAllocationFailure vaddr s → entryAt s'.mem root (tablePath vaddr) (pt_idx vaddr) =
        leafEntry (pageEntry phys_addr flags)) := by
  let Inv (p : List (Fin 512)) (t : Machine σ) : Prop :=
    UpperStep root (PAGE_PRESENT ||| PAGE_RW ||| PAGE_USER) p s.mem t.mem
  have hlevel : ∀ p f i t g t' k owned₁, p.length < 3 → Linked A k root owned owned₁ p f s t →
      Inv p t → get_next_table f i true t = some (g, t') → Inv (p ++ [i]) t' :=
    fun p f i t g t' k owned₁ hlen l₁ hupper hget =>
      hupper.trans (get_next_table_uppers l₁.paged l₁.path hlen hget) (List.prefix_append _ _)
  rcases map_page_rule Inv hpaged hroot (UpperStep.of_eq _ _ fun _ _ _ => rfl) hlevel h with
    ⟨-, owned', pt, t, hlinked, hupper, rfl⟩ | ⟨hfail, -, ⟨p, hpre, hupper⟩, -⟩
  · have htab := hlinked.paged.tables
    refine ⟨hupper.trans (upperStep_setLeaf htab hlinked.path rfl) (List.prefix_refl _), ?_⟩
    intro _
    have hleaf := (paged_setLeaf (i := pt_idx vaddr) (e := pageEntry phys_addr flags)
      hlinked.paged hlinked.path rfl).2.1 (tablePath vaddr) rfl (pt_idx vaddr)
    rw [if_pos ⟨rfl, rfl⟩] at hleaf
    exact hleaf
  · exact ⟨hupper.trans (UpperStep.of_eq _ _ fun _ _ _ => rfl) hpre, fun hno => absurd hno hfail⟩

end walkers

/-! ## Section 3: Which entries exist, and what they grant -/

/-- After a setup that has mapped the addresses `W`, the upper entries are
    those on the paths of `W`, and they grant writing but not user access. -/
structure SetupRights (root : UInt64) (W : List UInt64) (m : Mem) : Prop where
  entries : ∀ q j e, q.length < 3 → entryAt m root q j = some e →
    Grants PAGE_RW e ∧ ¬ Grants PAGE_USER e ∧ ∃ w ∈ W, q ++ [j] <+: tablePath w
  linked  : ∀ w ∈ W, follow nextTable m.entry root (tablePath w) ≠ none

/-- After `map_page` calls as well, the upper entries grant writing, and they
    grant user access unless they are on a path of the setup. -/
structure UpperRights (root : UInt64) (W : List UInt64) (m : Mem) : Prop where
  entries : ∀ q j e, q.length < 3 → entryAt m root q j = some e →
    Grants PAGE_RW e ∧ (Grants PAGE_USER e ↔ ∀ w ∈ W, ¬ q ++ [j] <+: tablePath w)
  linked  : ∀ w ∈ W, follow nextTable m.entry root (tablePath w) ≠ none

theorem SetupRights.upperRights {root : UInt64} {W : List UInt64} {m : Mem}
    (h : SetupRights root W m) : UpperRights root W m := by
  refine ⟨fun q j e hq he => ?_, h.linked⟩
  obtain ⟨hrw, huser, w, hw, hpre⟩ := h.entries q j e hq he
  exact ⟨hrw, fun hu => absurd hu huser, fun hall => absurd hpre (hall w hw)⟩

/-- A path that leads to a table has its entries present. -/
theorem entryAt_of_path {root vaddr : UInt64} {m : Mem} {q : List (Fin 512)} {j : Fin 512}
    (hpath : follow nextTable m.entry root (tablePath vaddr) ≠ none)
    (hpre : q ++ [j] <+: tablePath vaddr) : entryAt m root q j ≠ none := by
  obtain ⟨r, hr⟩ := hpre
  intro hnone
  rw [← hr, follow_append, follow_entryAt, hnone] at hpath
  exact hpath rfl

/-- What leads to a table does so after a walker's step. -/
theorem UpperStep.path_kept {root flags vaddr g : UInt64} {path : List (Fin 512)} {m m' : Mem}
    (h : UpperStep root flags path m m')
    (hpath : follow nextTable m.entry root (tablePath vaddr) = some g) :
    follow nextTable m'.entry root (tablePath vaddr) = some g := by
  have hsplit : tablePath vaddr = [pml4_idx vaddr, pdpt_idx vaddr] ++ [pd_idx vaddr] := rfl
  rw [hsplit, follow_entryAt] at hpath ⊢
  obtain ⟨e, he, rfl⟩ := Option.map_eq_some_iff.mp hpath
  rw [h.kept _ _ e (by simp) he, Option.map_some]

theorem UpperStep.follow_ne {root flags vaddr : UInt64} {path : List (Fin 512)} {m m' : Mem}
    (h : UpperStep root flags path m m')
    (hpath : follow nextTable m.entry root (tablePath vaddr) ≠ none) :
    follow nextTable m'.entry root (tablePath vaddr) ≠ none := by
  obtain ⟨g, hg⟩ := Option.ne_none_iff_exists'.mp hpath
  rw [h.path_kept hg]
  simp

/-- Step lemma: a leaf of the setup. -/
theorem SetupRights.step {root vaddr : UInt64} {W : List UInt64} {m m' : Mem}
    (h : SetupRights root W m)
    (hstep : UpperStep root (PAGE_PRESENT ||| PAGE_RW) (tablePath vaddr) m m')
    (hpath : follow nextTable m'.entry root (tablePath vaddr) ≠ none) :
    SetupRights root (W ++ [vaddr]) m' := by
  constructor
  · intro q j e hq he
    rcases hstep.made q j e hq he with hold | ⟨-, hpre, t, ht, rfl⟩
    · obtain ⟨hrw, huser, w, hw, hpre⟩ := h.entries q j e hq hold
      exact ⟨hrw, huser, w, List.mem_append_left _ hw, hpre⟩
    · refine ⟨?_, ?_, vaddr, by simp, hpre⟩
      · rw [grants_or_iff ht (by decide) (by decide)]
        unfold Grants
        decide
      · rw [grants_or_iff ht (by decide) (by decide)]
        unfold Grants
        decide
  · intro w hw
    rcases List.mem_append.mp hw with hw | hw
    · exact hstep.follow_ne (h.linked w hw)
    · rw [List.mem_singleton.mp hw]
      exact hpath

/-- Step lemma: a `map_page` call. -/
theorem UpperRights.step {root vaddr : UInt64} {W : List UInt64} {m m' : Mem}
    (h : UpperRights root W m)
    (hstep : UpperStep root (PAGE_PRESENT ||| PAGE_RW ||| PAGE_USER) (tablePath vaddr) m m') :
    UpperRights root W m' := by
  refine ⟨fun q j e hq he => ?_, fun w hw => hstep.follow_ne (h.linked w hw)⟩
  rcases hstep.made q j e hq he with hold | ⟨hnone, -, t, ht, rfl⟩
  · exact h.entries q j e hq hold
  · -- The entry is new, so it is on no path of the setup.
    have huser : Grants PAGE_USER (t ||| (PAGE_PRESENT ||| PAGE_RW ||| PAGE_USER)) := by
      rw [grants_or_iff ht (by decide) (by decide)]
      unfold Grants
      decide
    refine ⟨?_, fun _ w hw hpre => entryAt_of_path (h.linked w hw) hpre hnone, fun _ => huser⟩
    rw [grants_or_iff ht (by decide) (by decide)]
    unfold Grants
    decide

/-- A page mapped for the user is accessible exactly if the setup mapped
    nothing below the same entry of the PML4. -/
theorem UpperRights.userWritable_iff {root vaddr e : UInt64} {owned W : List UInt64} {m : Mem}
    (h : UpperRights root W m) (htab : Tables root owned m)
    (hleaf : entryAt m root (tablePath vaddr) (pt_idx vaddr) = some e)
    (huser : Grants PAGE_USER e) (hrw : Grants PAGE_RW e) :
    UserWritable m root vaddr ↔ ∀ w ∈ W, pml4_idx w ≠ pml4_idx vaddr := by
  -- The leaf is there, so the path leads to a table and its entries are present.
  have hpath : follow nextTable m.entry root (tablePath vaddr) ≠ none := by
    intro hnone
    unfold entryAt leafAt at hleaf
    rw [hnone] at hleaf
    cases hleaf
  have hpresent : ∀ q j, q ++ [j] <+: tablePath vaddr → ∃ e', entryAt m root q j = some e' :=
    fun q j hpre => Option.ne_none_iff_exists'.mp (entryAt_of_path hpath hpre)
  obtain ⟨e4, h4⟩ := hpresent [] (pml4_idx vaddr) ⟨_, rfl⟩
  obtain ⟨e3, h3⟩ := hpresent [pml4_idx vaddr] (pdpt_idx vaddr) ⟨_, rfl⟩
  obtain ⟨e2, h2⟩ := hpresent [pml4_idx vaddr, pdpt_idx vaddr] (pd_idx vaddr) ⟨[], rfl⟩
  obtain ⟨hrw4, huser4⟩ := h.entries _ _ e4 (by simp) h4
  obtain ⟨hrw3, huser3⟩ := h.entries _ _ e3 (by simp) h3
  obtain ⟨hrw2, huser2⟩ := h.entries _ _ e2 (by simp) h2
  -- A path of the setup that shares more than the first index shares the first.
  have hfirst : ∀ (w : UInt64) (q : List (Fin 512)), pml4_idx vaddr :: q <+: tablePath w →
      pml4_idx w = pml4_idx vaddr := by
    intro w q hpre
    obtain ⟨r, hr⟩ := hpre
    exact (List.cons.inj hr).1.symm
  rw [ArgaldOS.userWritable_iff htab]
  constructor
  · intro hw
    obtain ⟨e4', e3', e2', e1', h4', -, -, -, hall⟩ := hw
    rw [h4] at h4'
    obtain rfl := Option.some.inj h4'
    intro w hw heq
    refine huser4.mp (hall e4 List.mem_cons_self).1 w hw ⟨[pdpt_idx w, pd_idx w], ?_⟩
    rw [← heq]
    rfl
  · intro hall
    refine ⟨e4, e3, e2, e, h4, h3, h2, hleaf, ?_⟩
    simp only [List.forall_mem_cons, List.not_mem_nil, false_implies, implies_true, and_true]
    exact ⟨⟨huser4.mpr fun w hw hpre => hall w hw (hfirst w _ hpre), hrw4⟩,
      ⟨huser3.mpr fun w hw hpre => hall w hw (hfirst w _ hpre), hrw3⟩,
      ⟨huser2.mpr fun w hw hpre => hall w hw (hfirst w _ hpre), hrw2⟩, huser, hrw⟩

/-! ## Section 4: Runs -/

/-- A mapping that the kernel makes for itself: a `map_range` call, or one of
    the open-coded blocks of `init_paging`, which maps the page of `vaddr` to
    `addr`. -/
inductive SetupCall where
  | map_range (virt_start virt_end flags : UInt64) : SetupCall
  | open_coded (vaddr addr : UInt64) : SetupCall

namespace SetupCall

/-- The call maps the page `u`. -/
def Maps (u : UInt64) : SetupCall → Prop
  | map_range virt_start virt_end _ => PageAligned u ∧ pageOf virt_start ≤ u ∧ u < virt_end
  | open_coded vaddr _ => u = vaddr

/-- The leaf writes of the call, `none` if its loop never ends. -/
def writes (hhdm : UInt64) : SetupCall → Option (List LeafWrite)
  | map_range virt_start virt_end flags =>
    rangeWrites hhdm virt_end flags allRounds (pageOf virt_start)
  | open_coded vaddr addr => some [⟨vaddr, addr ||| PAGE_PRESENT ||| PAGE_RW⟩]

end SetupCall

/-- The arguments of a `map_page` call. -/
structure PageCall where
  virt_addr : UInt64
  phys_addr : UInt64
  flags     : UInt64

section runs
variable {σ : Type} [PageAllocator σ]

/-- A call of the setup on the machine. -/
def setupStep (s : Machine σ) : SetupCall → Option (Machine σ)
  | .map_range virt_start virt_end flags => map_range s.pml4 virt_start virt_end flags s
  | .open_coded vaddr addr => map_leaf s.pml4 vaddr (addr ||| PAGE_PRESENT ||| PAGE_RW) s

/-- A call of the setup gets a table wherever it asks for one. -/
def SetupAllocated (s : Machine σ) (c : SetupCall) : Prop :=
  ∀ ws, c.writes s.hhdm = some ws → LeavesAllocated s.pml4 s ws

/-- A `map_page` call on the machine. -/
def pageStep (s : Machine σ) (c : PageCall) : Option (Machine σ) :=
  map_page c.virt_addr c.phys_addr c.flags s

variable {A : AllocSpec σ} {n : Nat} {root : UInt64} {owned : List UInt64} {s s' : Machine σ}

/-- A call of the setup is its leaf writes. -/
theorem setupStep_eq (s : Machine σ) (c : SetupCall) :
    setupStep s c = (c.writes s.hhdm).bind fun ws => mapLeaves s.pml4 ws s := by
  cases c with
  | map_range virt_start virt_end flags => exact mapRange_eq_mapLeaves _ _ _ _ _
  | open_coded vaddr addr =>
    show map_leaf s.pml4 vaddr (addr ||| PAGE_PRESENT ||| PAGE_RW) s =
      (map_leaf s.pml4 vaddr (addr ||| PAGE_PRESENT ||| PAGE_RW) s).bind some
    cases map_leaf s.pml4 vaddr (addr ||| PAGE_PRESENT ||| PAGE_RW) s <;> rfl

omit [PageAllocator σ] in
/-- They go to the pages that it maps. -/
theorem mem_writes_iff {hhdm : UInt64} {c : SetupCall} {ws : List LeafWrite}
    (h : c.writes hhdm = some ws) (u : UInt64) : u ∈ ws.map LeafWrite.vaddr ↔ c.Maps u := by
  cases c with
  | open_coded vaddr addr =>
    obtain rfl := Option.some.inj h
    rw [List.map_singleton, List.mem_singleton]
    exact Iff.rfl
  | map_range virt_start virt_end flags =>
    change rangeWrites hhdm virt_end flags allRounds (pageOf virt_start) = some ws at h
    -- The loop has come to an end, so the range does not end in the last page.
    obtain ⟨ws', hws', -, hmem⟩ := rangeWrites_all hhdm flags virt_start (end_of_rangeWrites h)
    obtain rfl := Option.some.inj (h.symm.trans hws')
    rw [List.mem_map]
    constructor
    · intro hu
      obtain ⟨w, hw, rfl⟩ := hu
      obtain ⟨ha, hge, hlt, -⟩ := (hmem w).mp hw
      exact ⟨ha, hge, hlt⟩
    · intro hu
      obtain ⟨ha, hge, hlt⟩ := hu
      exact ⟨⟨u, rangeEntry hhdm flags u⟩, (hmem _).mpr ⟨ha, hge, hlt, rfl⟩, rfl⟩

/-- A sequence of leaf writes of the setup. -/
theorem mapLeaves_setup {W : List UInt64} {ws : List LeafWrite} (hpaged : Paged A n root owned s)
    (halloc : LeavesAllocated root s ws) (hrights : SetupRights root W s.mem)
    (h : mapLeaves root ws s = some s') :
    SetupRights root (W ++ ws.map LeafWrite.vaddr) s'.mem := by
  induction ws generalizing W s owned n with
  | nil =>
    obtain rfl := Option.some.inj h
    rw [List.map_nil, List.append_nil]
    exact hrights
  | cons w ws ih =>
    obtain ⟨s₁, h₁, h₂⟩ := Option.bind_eq_some_iff.mp h
    obtain ⟨hleaf, hrest⟩ := halloc
    obtain ⟨⟨owned₁, hm⟩, -⟩ := map_leaf_spec hpaged hleaf h₁
    obtain ⟨hupper, hpath⟩ := map_leaf_uppers hpaged hleaf h₁
    have hrights' := ih hm.paged (hrest s₁ h₁) (hrights.step hupper hpath) h₂
    rw [List.append_assoc] at hrights'
    exact hrights'

/-- **Run lemma** for the setup. -/
theorem exec_setup {setup : List SetupCall} {W : List UInt64} (hpaged : Paged A n root owned s)
    (hroot : s.pml4 = root) (halloc : ExecAlong setupStep SetupAllocated s setup)
    (hrights : SetupRights root W s.mem) (h : exec setupStep s setup = some s') :
    ∃ k owned' W', Paged A k root owned' s' ∧ s'.pml4 = root ∧ SetupRights root W' s'.mem ∧
      ∀ u, u ∈ W' ↔ u ∈ W ∨ ∃ c ∈ setup, c.Maps u := by
  induction setup generalizing W s owned n with
  | nil =>
    obtain rfl := Option.some.inj h
    exact ⟨n, owned, W, hpaged, hroot, hrights, fun u => by simp⟩
  | cons c setup ih =>
    obtain ⟨s₁, h₁, h₂⟩ := Option.bind_eq_some_iff.mp h
    obtain ⟨hfirst, hrest⟩ := halloc
    have hstep := h₁
    rw [setupStep_eq] at hstep
    obtain ⟨ws, hws, hmap⟩ := Option.bind_eq_some_iff.mp hstep
    have hleaves := hfirst ws hws
    rw [hroot] at hmap hleaves
    obtain ⟨owned₁, hpaged₁, hgrows, -⟩ := mapLeaves_spec hpaged hleaves hmap
    -- The pages of the first call, then those of the others.
    obtain ⟨k, owned', W', hpaged', hroot', hrights', hW'⟩ := ih hpaged₁
      (hgrows.control.pml4.trans hroot) (hrest s₁ h₁) (mapLeaves_setup hpaged hleaves hrights hmap) h₂
    refine ⟨k, owned', W', hpaged', hroot', hrights', ?_⟩
    intro u
    rw [hW' u, List.mem_append, mem_writes_iff hws u]
    simp [or_assoc]

/-- What `map_page` calls keep, whether they fail or not. -/
def PagedRights (A : AllocSpec σ) (root : UInt64) (W : List UInt64) (s : Machine σ) : Prop :=
  ∃ n owned, Paged A n root owned s ∧ s.pml4 = root ∧ UpperRights root W s.mem

/-- Step lemma: a `map_page` call. -/
theorem PagedRights.step {W : List UInt64} {c : PageCall} (h : PagedRights A root W s)
    (hstep : pageStep s c = some s') : PagedRights A root W s' := by
  obtain ⟨n, owned, hpaged, hroot, hrights⟩ := h
  change map_page c.virt_addr c.phys_addr c.flags s = some s' at hstep
  have hrights' := hrights.step (map_page_uppers hpaged hroot hstep).1
  have hroot' := (map_page_control hstep).pml4.trans hroot
  rcases map_page_spec hpaged hroot hstep with ⟨owned', hm⟩ | ⟨-, owned', hpaged', -⟩
  · exact ⟨_, owned', hm.paged, hroot', hrights'⟩
  · exact ⟨_, owned', hpaged', hroot', hrights'⟩

/-- **Run lemma** for `map_page` calls. -/
theorem exec_pages {pages : List PageCall} {W : List UInt64} (h : PagedRights A root W s)
    (hexec : exec pageStep s pages = some s') : PagedRights A root W s' := by
  refine exec_invariant (P := fun _ _ => True) ?_ h (execAlong_of_forall ?_ s pages) hexec
  · intro t c t' ht _ hstep
    exact ht.step hstep
  · intro _ _
    trivial

omit [PageAllocator σ] in
theorem setupRights_of_zero {m : Mem} (hzero : ∀ j, m.entry root j = 0) : SetupRights root [] m := by
  refine ⟨fun q j e hq he => ?_, fun w hw => absurd hw List.not_mem_nil⟩
  exfalso
  have hnone : entryAt m root q j = none := by
    cases q with
    | nil =>
      rw [entryAt_of_follow rfl, hzero j]
      rfl
    | cons i q =>
      unfold entryAt leafAt follow
      rw [hzero i]
      rfl
  rw [hnone] at he
  cases he

end runs

/-- The entry of `map_page` grants what its flags grant. -/
theorem grants_pageEntry {phys_addr flags bit : UInt64} {k : Nat} (hbit : bit.toNat = 2 ^ k)
    (hk : k < 12) (h : Grants bit flags) : Grants bit (pageEntry phys_addr flags) := by
  unfold Grants at *
  rw [Words.and_two_pow_ne_zero_iff _ _ k hbit] at *
  have hmask : (0xFFF : UInt64).toNat = 2 ^ 12 - 1 := rfl
  unfold pageEntry
  rw [UInt64.toNat_or, UInt64.toNat_or, UInt64.toNat_and flags, hmask, Nat.testBit_or,
    Nat.testBit_or, Nat.testBit_and, Nat.testBit_two_pow_sub_one, h]
  simp [hk]

section access
variable {σ : Type} [PageAllocator σ] {A : AllocSpec σ}
variable {n : Nat} {root : UInt64} {owned : List UInt64} {s s' : Machine σ}

/-- One `map_page` call for the user, after a setup of the pages `W`. -/
theorem UpperRights.map_page {W : List UInt64} {v p flags : UInt64} (h : UpperRights root W s.mem)
    (hpaged : Paged A n root owned s) (hroot : s.pml4 = root) (huser : Grants PAGE_USER flags)
    (hrw : Grants PAGE_RW flags) (hmap : map_page v p flags s = some s')
    (hno : NoAllocationFailure v s) :
    UserWritable s'.mem s'.pml4 v ↔ ∀ w ∈ W, pml4_idx w ≠ pml4_idx v := by
  -- The call has kept the rights and put the leaf entry in its place.
  obtain ⟨hstep, hleaf⟩ := map_page_uppers hpaged hroot hmap
  have hentry := (hleaf hno).trans (leafEntry_or_present _)
  rw [(map_page_control hmap).pml4, hroot]
  rcases map_page_cases hpaged hroot hmap with ⟨-, owned', hm⟩ | ⟨hfail, -⟩
  · exact (h.step hstep).userWritable_iff hm.paged.tables hentry
      (grants_pageEntry (k := 2) rfl (by simp) huser)
      (grants_pageEntry (k := 1) rfl (by simp) hrw)
  · exact absurd hno hfail

/-- The state of the upper entries after a setup and `map_page` calls. -/
theorem exec_setup_pages {setup : List SetupCall} {pages : List PageCall} {s₁ s₂ : Machine σ}
    (hroot : GoodFrame (2 ^ 52) s.pml4) (hzero : ∀ j, s.mem.entry s.pml4 j = 0)
    (halloc : A.Inv n s.hhdm s.alloc s.mem [s.pml4])
    (hset : ExecAlong setupStep SetupAllocated s setup)
    (h₁ : exec setupStep s setup = some s₁) (h₂ : exec pageStep s₁ pages = some s₂) :
    ∃ k owned W, Paged A k s.pml4 owned s₂ ∧ s₂.pml4 = s.pml4 ∧ UpperRights s.pml4 W s₂.mem ∧
      ∀ u, u ∈ W ↔ ∃ c ∈ setup, c.Maps u := by
  obtain ⟨htab, -⟩ := tables_of_zero hroot hzero
  obtain ⟨k₁, owned₁, W, hpaged₁, hroot₁, hrights₁, hW⟩ :=
    exec_setup ⟨halloc, htab⟩ rfl hset (setupRights_of_zero hzero) h₁
  obtain ⟨k₂, owned₂, hpaged₂, hroot₂, hrights₂⟩ :=
    exec_pages ⟨k₁, owned₁, hpaged₁, hroot₁, hrights₁.upperRights⟩ h₂
  exact ⟨k₂, owned₂, W, hpaged₂, hroot₂, hrights₂, fun u => by simpa using hW u⟩

end access

/-! ## Section 5: The results -/

/-- **Main theorem on access rights**: after any setup that gets its tables and
    any `map_page` calls, failing or not, a page that `map_page` maps for the
    user, with no allocation failure, is accessible to the user exactly if no
    page of the setup lies below the same entry of the PML4. -/
theorem map_page_access_iff {σ : Type} [PageAllocator σ] (A : AllocSpec σ) (n : Nat)
    (s s₁ s₂ s₃ : Machine σ) (setup : List SetupCall) (pages : List PageCall) (v p flags : UInt64)
    (hroot : GoodFrame (2 ^ 52) s.pml4) (hzero : ∀ j, s.mem.entry s.pml4 j = 0)
    (halloc : A.Inv n s.hhdm s.alloc s.mem [s.pml4])
    (hset : ExecAlong setupStep SetupAllocated s setup)
    (h₁ : exec setupStep s setup = some s₁) (h₂ : exec pageStep s₁ pages = some s₂)
    (huser : flags &&& PAGE_USER ≠ 0) (hrw : flags &&& PAGE_RW ≠ 0)
    (h₃ : map_page v p flags s₂ = some s₃) (hno : NoAllocationFailure v s₂) :
    UserWritable s₃.mem s₃.pml4 v ↔ ∀ c ∈ setup, ∀ u, c.Maps u → pml4_idx u ≠ pml4_idx v := by
  obtain ⟨k, owned, W, hpaged, hroot₂, hrights, hW⟩ := exec_setup_pages hroot hzero halloc hset h₁ h₂
  rw [hrights.map_page hpaged hroot₂ huser hrw h₃ hno]
  constructor
  · intro hall c hc u hu
    exact hall u ((hW u).mpr ⟨c, hc, hu⟩)
  · intro hall w hw
    obtain ⟨c, hc, hu⟩ := (hW w).mp hw
    exact hall c hc w hu

/-- A kernel with six free frames that has mapped its first page. -/
theorem emptyKernel_setup :
    let kernel := emptyKernel [0x2000, 0x3000, 0x4000, 0x5000, 0x6000, 0x7000]
    ∃ s₁ owned W, exec setupStep kernel [.map_range 0 0x1000 0x3] = some s₁ ∧
      ExecAlong setupStep SetupAllocated kernel [.map_range 0 0x1000 0x3] ∧
      Paged scriptSpec 3 0x1000 owned s₁ ∧ s₁.pml4 = 0x1000 ∧ SetupRights 0x1000 W s₁.mem ∧
      scriptSpec.Supply 3 s₁.alloc ∧ 0 ∈ W := by
  intro kernel
  have hkernel : KernelPaging scriptSpec 6 [0x1000] kernel :=
    emptyKernel_paging (freshScript_of_all (by decide) (by decide))
  -- The setup is one leaf write, so three frames are left.
  have hend : (0x1000 : UInt64).toNat ≤ 2 ^ 64 - 4096 := by decide
  obtain ⟨ws, hws, hlen, hmem⟩ := rangeWrites_spec kernel.hhdm 0x3 allRounds (pageOf_aligned 0)
    (Or.inl hend) (by unfold allRounds; decide)
  change ws.length = 1 at hlen
  obtain ⟨s₁, h₁, hsupply⟩ : ∃ s₁, mapLeaves 0x1000 ws kernel = some s₁ ∧
      scriptSpec.Supply 3 s₁.alloc := by
    apply mapLeaves_total 0x1000
    rw [hlen]
    show 6 ≤ 6
    omega
  have halloc := leavesAllocated_of_room hkernel.paged (by omega) h₁
  obtain ⟨owned, hpaged, hgrows, -⟩ := mapLeaves_spec hkernel.paged halloc h₁
  rw [hlen] at hpaged
  have hstep : setupStep kernel (.map_range 0 0x1000 0x3) = some s₁ := by
    rw [setupStep_eq]
    show (rangeWrites kernel.hhdm 0x1000 0x3 allRounds (pageOf 0)).bind _ = _
    rw [hws]
    exact h₁
  refine ⟨s₁, owned, [] ++ ws.map LeafWrite.vaddr, ?_, ⟨fun ws' hws' => ?_, fun _ _ => trivial⟩,
    hpaged, hgrows.control.pml4,
    mapLeaves_setup hkernel.paged halloc (setupRights_of_zero fun _ => rfl) h₁, hsupply, ?_⟩
  · rw [exec_cons, hstep]
    rfl
  · obtain rfl := Option.some.inj (hws.symm.trans hws')
    exact halloc
  · have hfirst := (hmem ⟨0, rangeEntry kernel.hhdm 0x3 0⟩).mpr
      ⟨show PageAligned 0 by decide, show pageOf 0 ≤ 0 by decide, show 0 < 0x1000 by decide, rfl⟩
    exact List.mem_map.mpr ⟨_, hfirst, rfl⟩

/-- With the first page mapped by the setup, as `init_paging` does it, the page
    0x400000 does not become accessible. -/
theorem map_page_access_fails :
    let kernel := emptyKernel [0x2000, 0x3000, 0x4000, 0x5000, 0x6000, 0x7000]
    ∃ s₁ s₂, exec setupStep kernel [.map_range 0 0x1000 0x3] = some s₁ ∧
      map_page 0x400000 0x9000 0x7 s₁ = some s₂ ∧ NoAllocationFailure 0x400000 s₁ ∧
      ¬ UserWritable s₂.mem s₂.pml4 0x400000 := by
  intro kernel
  obtain ⟨s₁, owned, W, h₁, -, hpaged, hroot, hrights, hsupply, h0⟩ := emptyKernel_setup
  obtain ⟨s₂, h₂, -⟩ : ∃ s₂, map_page 0x400000 0x9000 0x7 s₁ = some s₂ ∧
      scriptSpec.Supply 0 s₂.alloc := map_page_total hsupply
  have hno : NoAllocationFailure 0x400000 s₁ :=
    noAllocationFailure_of_room (Nat.le_refl 3) (hroot.symm ▸ hpaged) h₂
  refine ⟨s₁, s₂, h₁, h₂, hno, ?_⟩
  intro haccess
  have hall := (hrights.upperRights.map_page hpaged hroot (by unfold Grants; decide)
    (by unfold Grants; decide) h₂ hno).mp haccess
  exact hall 0 h0 (by decide)

/-- The general result on the same kernel, for a page below another entry of
    the PML4: this one becomes accessible. -/
theorem map_page_access_iff_0x8000000000 :
    let kernel := emptyKernel [0x2000, 0x3000, 0x4000, 0x5000, 0x6000, 0x7000]
    ∃ s₁ s₂, exec setupStep kernel [.map_range 0 0x1000 0x3] = some s₁ ∧
      map_page 0x8000000000 0x9000 0x7 s₁ = some s₂ ∧
      UserWritable s₂.mem s₂.pml4 0x8000000000 := by
  intro kernel
  obtain ⟨s₁, owned, W, h₁, hset, hpaged, hroot, -, hsupply, -⟩ := emptyKernel_setup
  obtain ⟨s₂, h₂, -⟩ : ∃ s₂, map_page 0x8000000000 0x9000 0x7 s₁ = some s₂ ∧
      scriptSpec.Supply 0 s₂.alloc := map_page_total hsupply
  have hno : NoAllocationFailure 0x8000000000 s₁ :=
    noAllocationFailure_of_room (Nat.le_refl 3) (hroot.symm ▸ hpaged) h₂
  have hfresh : FreshScript 6 kernel.alloc [kernel.pml4] :=
    freshScript_of_all (by decide) (by decide)
  refine ⟨s₁, s₂, h₁, h₂, (map_page_access_iff scriptSpec 6 kernel s₁ s₁ s₂
    [.map_range 0 0x1000 0x3] [] 0x8000000000 0x9000 0x7 ⟨by decide, by decide, by decide⟩
    (fun _ => rfl) hfresh hset h₁ rfl (by decide) (by decide) h₂ hno).mpr ?_⟩
  intro c hc u hu heq
  rw [List.mem_singleton.mp hc] at hu
  have hlt : u.toNat < 0x1000 := UInt64.lt_iff_toNat_lt.mp hu.2.2
  have hidx : (pml4_idx u).val = u.toNat / 2 ^ 39 % 512 := tableIndex_val 39 u (by decide)
  have hone : (pml4_idx 0x8000000000).val = 1 := by decide
  rw [heq, hone] at hidx
  omega

/-- `init_paging` is a setup that has mapped the first page. -/
theorem init_paging_setup {σ : Type} [PageAllocator σ] {A : AllocSpec σ} {n : Nat}
    {s s' : Machine σ} {code_addr rsp : UInt64} (hhdm : PageAligned s.hhdm)
    (hinv : A.Inv n s.hhdm s.alloc s.mem []) (halloc : InitAllocated code_addr rsp s)
    (h : init_paging code_addr rsp s = some s') :
    ∃ owned W, Paged A (n - 1 - 3 * maxInitWrites) s'.pml4 owned s' ∧ s'.cr3 = some s'.pml4 ∧
      s'.hhdm = s.hhdm ∧ SetupRights s'.pml4 W s'.mem ∧ 0 ∈ W := by
  obtain ⟨-, pml4, ws, s₁, s₂, hrun⟩ := init_paging_run hhdm hinv halloc h
  have hshort := hrun.short
  obtain ⟨hpaged, -⟩ := hrun.start
  obtain ⟨owned, hpaged', hgrows, -⟩ := mapLeaves_spec hpaged hrun.alloc hrun.run
  have hroot : s₂.pml4 = pml4 := hgrows.control.pml4
  have hrights := mapLeaves_setup hpaged hrun.alloc (setupRights_of_zero hrun.fresh.zero) hrun.run
  -- The first window starts with the first page.
  have h0 : 0 ∈ [] ++ ws.map LeafWrite.vaddr := by
    obtain ⟨ws₀, hws₀, -, hmem⟩ := rangeWrites_spec s.hhdm (PAGE_PRESENT ||| PAGE_RW) allRounds
      (pageOf_aligned 0) (Or.inl (show (0x200000 : UInt64).toNat ≤ _ by decide))
      (by unfold allRounds; decide)
    have hws := hrun.writes
    rw [initWrites, initWindows, windowWrites_cons] at hws
    unfold initRange at hws
    rw [hws₀, seqWrites, Option.bind_some] at hws
    obtain ⟨rest, -, rfl⟩ := Option.map_eq_some_iff.mp hws
    have hfirst := (hmem ⟨0, rangeEntry s.hhdm (PAGE_PRESENT ||| PAGE_RW) 0⟩).mpr
      ⟨show PageAligned 0 by decide, show pageOf 0 ≤ 0 by decide, show 0 < 0x200000 by decide, rfl⟩
    exact List.mem_map.mpr ⟨_, List.mem_append_left _ hfirst, rfl⟩
  have hkeep := hpaged'.mono (show n - 1 - 3 * maxInitWrites ≤ _ by omega)
  have hfresh := hrun.fresh
  obtain rfl := hrun.final
  subst hroot
  exact ⟨owned, _, ⟨hkeep.alloc, hkeep.tables⟩, rfl,
    hgrows.control.hhdm.trans hfresh.control.hhdm, hrights, h0⟩

/-- **After `init_paging`** no page of the lowest 512 GiB ever becomes
    accessible to the user, whatever is mapped by `map_page`: the first window
    of the kernel has made the entry of the PML4 that all of them share. -/
theorem init_paging_keeps_user_out {σ : Type} [PageAllocator σ] {A : AllocSpec σ} {n : Nat}
    {s s₁ s₂ : Machine σ} {code_addr rsp v : UInt64} {pages : List PageCall}
    (hhdm : PageAligned s.hhdm) (hinv : A.Inv n s.hhdm s.alloc s.mem [])
    (halloc : InitAllocated code_addr rsp s) (h₁ : init_paging code_addr rsp s = some s₁)
    (h₂ : exec pageStep s₁ pages = some s₂) (hv : v.toNat < 2 ^ 39) :
    ¬ UserWritable s₂.mem s₂.pml4 v := by
  -- Page 0 is on a path of the setup, and the PML4 entry of `v` is its first step.
  obtain ⟨owned₁, W, hpaged₁, -, -, hrights₁, h0⟩ := init_paging_setup hhdm hinv halloc h₁
  obtain ⟨k, owned₂, hpaged₂, hroot₂, hrights₂⟩ :=
    exec_pages ⟨_, owned₁, hpaged₁, rfl, hrights₁.upperRights⟩ h₂
  intro haccess
  rw [hroot₂, userWritable_iff hpaged₂.tables] at haccess
  obtain ⟨e4, e3, e2, e1, h4, -, -, -, hall⟩ := haccess
  apply (hrights₂.entries _ _ e4 (by simp) h4).2.mp (hall e4 List.mem_cons_self).1 0 h0
  have hidx : pml4_idx v = pml4_idx 0 := by
    apply Fin.ext
    have hval : (pml4_idx v).val = v.toNat / 2 ^ 39 % 512 := tableIndex_val 39 v (by decide)
    have hzero : (pml4_idx 0).val = 0 := by decide
    omega
  rw [hidx]
  exact ⟨[pdpt_idx 0, pd_idx 0], rfl⟩

end ArgaldOS
