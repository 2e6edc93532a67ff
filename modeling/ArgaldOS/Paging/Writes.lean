import ArgaldOS.Framework.Runs
import ArgaldOS.Paging.Walkers

/-! # Sequences of leaf writes

    Everything the kernel does to its page tables comes down to a sequence of
    leaf writes: an address and the entry that its last level gets.  The loop
    of `map_range` is one such sequence, and a sequence of `map_leaf` calls
    has the translations of the last write to each page.

    * `mapRange_eq_mapLeaves`: `map_range` is the sequence `rangeWrites`;
    * `rangeWrites_spec`: the pages of a range that does not end in the last
      page of the address space, each once;
    * `mapLeaves_spec`, `mapLeaves_total`: what a sequence does.
-/

namespace ArgaldOS

open TableTree Runs

/-! ## Section 1: Pages and their indices -/

/-- The page of an address. -/
def pageOf (vaddr : UInt64) : UInt64 := vaddr &&& ~~~0xFFF

theorem toNat_pageOf (vaddr : UInt64) : (pageOf vaddr).toNat = vaddr.toNat / 4096 * 4096 :=
  toNat_and_not_fff vaddr

theorem pageOf_aligned (vaddr : UInt64) : PageAligned (pageOf vaddr) := by
  unfold PageAligned PAGE_SIZE
  rw [toNat_pageOf]
  omega

theorem pageOf_of_aligned {v : UInt64} (h : PageAligned v) : pageOf v = v := by
  apply Words.ext
  unfold PageAligned PAGE_SIZE at h
  rw [toNat_pageOf]
  omega

theorem tableIndex_val (shift vaddr : UInt64) (h : shift.toNat < 64) :
    (tableIndex shift vaddr).val = vaddr.toNat / 2 ^ shift.toNat % 512 := by
  have hpow : 512 = 2 ^ 9 := rfl
  show ((vaddr >>> shift) &&& 0x1FF).toNat = _
  rw [hpow, Words.toNat_and_mask (vaddr >>> shift) 0x1FF 9 rfl, Words.toNat_shiftRight_lt _ _ h]

/-- The index path of an address. -/
def pageKey (vaddr : UInt64) : List (Fin 512) × Fin 512 := (tablePath vaddr, pt_idx vaddr)

theorem pageKey_eq_iff_paths (a b : UInt64) :
    pageKey a = pageKey b ↔ tablePath a = tablePath b ∧ pt_idx a = pt_idx b := by
  simp [pageKey]

/-- The four indices are 36 bits of the page number. -/
theorem pageKey_eq_iff (a b : UInt64) :
    pageKey a = pageKey b ↔ a.toNat / 4096 % 2 ^ 36 = b.toNat / 4096 % 2 ^ 36 := by
  -- Each index is nine bits of the address.
  have h39 := fun v => tableIndex_val 39 v (by simp)
  have h30 := fun v => tableIndex_val 30 v (by simp)
  have h21 := fun v => tableIndex_val 21 v (by simp)
  have h12 := fun v => tableIndex_val 12 v (by simp)
  simp only [UInt64.toNat_ofNat, Nat.reduceMod, Nat.reducePow] at h39 h30 h21 h12
  unfold pageKey tablePath pml4_idx pdpt_idx pd_idx pt_idx
  simp only [Prod.mk.injEq, List.cons.injEq, Fin.ext_iff, h39, h30, h21, h12, and_true]
  omega

/-- On canonical addresses the indices determine the page. -/
theorem pageKey_eq_iff_pageOf {a b : UInt64} (ha : Canonical a) (hb : Canonical b) :
    pageKey a = pageKey b ↔ pageOf a = pageOf b := by
  have ha' := a.toNat_lt
  have hb' := b.toNat_lt
  unfold Canonical at ha hb
  rw [pageKey_eq_iff, ← UInt64.toNat_inj, toNat_pageOf, toNat_pageOf]
  omega

/-! ## Section 2: What mapping never touches -/

section control
variable {σ : Type} [PageAllocator σ]

theorem alloc_table_control {s s' : Machine σ} {t : UInt64} (h : alloc_table s = some (t, s')) :
    SameControl s s' ∧ s'.early_page_tables = s.early_page_tables := by
  unfold alloc_table Machine.kmalloc at h
  cases hk : PageAllocator.kmalloc s.hhdm s.alloc s.mem with
  | none => simp [hk] at h
  | some r =>
    obtain ⟨f, a, m⟩ := r
    by_cases hf : f = 0
    · obtain ⟨-, rfl⟩ : t = 0 ∧ { s with alloc := a, mem := m } = s' := by
        simpa [hk, hf, eq_comm] using h
      exact ⟨⟨rfl, rfl, rfl⟩, rfl⟩
    · have hs : { s with
          alloc := a
          mem := zeroTable s.hhdm (f + s.hhdm) (m.hstore64 s.hhdm (f + s.hhdm) 0xdeadbeef) } = s' := by
        have := h
        simp only [hk, Option.bind_eq_bind, Option.bind_some, hf, if_false, Option.some.injEq,
          Prod.mk.injEq] at this
        exact this.2
      subst hs
      exact ⟨⟨rfl, rfl, rfl⟩, rfl⟩

theorem ensure_table_control {s s' : Machine σ} {f g : UInt64} {i : Fin 512}
    (h : ensure_table f i s = some (g, s')) :
    SameControl s s' ∧ s'.early_page_tables = s.early_page_tables := by
  unfold ensure_table at h
  by_cases hp : s.mem.entry f i &&& PAGE_PRESENT = 0
  · cases ha : alloc_table s with
    | none => simp [ha, hp] at h
    | some r =>
      obtain ⟨t, s₁⟩ := r
      obtain ⟨-, rfl⟩ : _ ∧ s₁.writeEntry f i (t ||| PAGE_PRESENT ||| PAGE_RW) = s' := by
        simpa [ha, hp] using h
      obtain ⟨hcontrol, hearly⟩ := alloc_table_control ha
      exact ⟨⟨hcontrol.hhdm, hcontrol.pml4, hcontrol.cr3⟩, hearly⟩
  · obtain ⟨-, rfl⟩ : _ ∧ s = s' := by simpa [hp] using h
    exact ⟨SameControl.rfl s, rfl⟩

/-- `map_leaf` changes memory and the allocator only. -/
theorem map_leaf_control {s s' : Machine σ} {pml4 vaddr e : UInt64}
    (h : map_leaf pml4 vaddr e s = some s') :
    SameControl s s' ∧ s'.early_page_tables = s.early_page_tables := by
  -- What each level of the walk keeps.
  let At (_ : List (Fin 512)) (_ : UInt64) (t : Machine σ) : Prop :=
    SameControl s t ∧ t.early_page_tables = s.early_page_tables
  have hlevel : ∀ p f i t g t', p ++ [i] <+: tablePath vaddr → At p f t →
      ensure_table f i t = some (g, t') → At (p ++ [i]) g t' := by
    intro p f i t g t' _ hat hget
    obtain ⟨hcontrol, hearly⟩ := ensure_table_control hget
    exact ⟨hat.1.trans hcontrol, hearly.trans hat.2⟩
  obtain ⟨pt, t, ⟨hcontrol, hearly⟩, rfl⟩ := map_leaf_walk At ⟨SameControl.rfl s, rfl⟩ hlevel h
  exact ⟨⟨hcontrol.hhdm, hcontrol.pml4, hcontrol.cr3⟩, hearly⟩

theorem get_next_table_control {s s' : Machine σ} {f g : UInt64} {i : Fin 512} {create : Bool}
    (h : get_next_table f i create s = some (g, s')) : SameControl s s' := by
  unfold get_next_table at h
  by_cases hp : s.mem.entry f i &&& PAGE_PRESENT = 0
  · cases create with
    | false =>
      obtain ⟨-, rfl⟩ : _ ∧ s = s' := by simpa [hp] using h
      exact SameControl.rfl s
    | true =>
      cases ha : alloc_table s with
      | none => simp [ha, hp] at h
      | some r =>
        obtain ⟨t, s₁⟩ := r
        have hcontrol := (alloc_table_control ha).1
        by_cases ht : t = 0
        · obtain ⟨-, rfl⟩ : _ ∧ s₁ = s' := by simpa [ha, hp, ht] using h
          exact hcontrol
        · obtain ⟨-, rfl⟩ : _ ∧ (add_early_page_table t s₁).writeEntry f i
              (t ||| PAGE_PRESENT ||| PAGE_RW ||| PAGE_USER) = s' := by
            simpa [ha, hp, ht] using h
          unfold add_early_page_table
          split <;> exact ⟨hcontrol.hhdm, hcontrol.pml4, hcontrol.cr3⟩
  · obtain ⟨-, rfl⟩ : _ ∧ s = s' := by simpa [hp] using h
    exact SameControl.rfl s

/-- `map_page` changes memory, the allocator and `early_page_tables` only. -/
theorem map_page_control {s s' : Machine σ} {vaddr phys_addr flags : UInt64}
    (h : map_page vaddr phys_addr flags s = some s') : SameControl s s' := by
  have hlevel : ∀ (p : List (Fin 512)) (f : UInt64) (i : Fin 512) (t : Machine σ) (g : UInt64)
      (t' : Machine σ), p ++ [i] <+: tablePath vaddr → SameControl s t →
      get_next_table f i true t = some (g, t') →
        (g = 0 ∧ SameControl s t') ∨ (g ≠ 0 ∧ SameControl s t') := by
    intro p f i t g t' _ hat hget
    have hcontrol := hat.trans (get_next_table_control hget)
    by_cases hg : g = 0
    · exact Or.inl ⟨hg, hcontrol⟩
    · exact Or.inr ⟨hg, hcontrol⟩
  rcases map_page_walk (fun _ _ t => SameControl s t) (SameControl s) (SameControl.rfl s) hlevel h
    with ⟨-, hcontrol⟩ | ⟨-, pt, t, hcontrol, rfl⟩
  · exact hcontrol
  · exact ⟨hcontrol.hhdm, hcontrol.pml4, hcontrol.cr3⟩

end control

/-! ## Section 3: Sequences of writes -/

/-- The leaf entry `entry` for the page of `vaddr`. -/
structure LeafWrite where
  vaddr : UInt64
  entry : UInt64

section writes
variable {σ : Type} [PageAllocator σ]

/-- A sequence of `map_leaf` calls. -/
def mapLeaves (pml4 : UInt64) : List LeafWrite → Machine σ → Option (Machine σ)
  | [], s => some s
  | w :: ws, s => (map_leaf pml4 w.vaddr w.entry s).bind (mapLeaves pml4 ws)

theorem mapLeaves_append (pml4 : UInt64) (ws ws' : List LeafWrite) (s : Machine σ) :
    mapLeaves pml4 (ws ++ ws') s = (mapLeaves pml4 ws s).bind (mapLeaves pml4 ws') := by
  induction ws generalizing s with
  | nil => rfl
  | cons w ws ih =>
    simp only [List.cons_append, mapLeaves, Option.bind_assoc]
    congr 1
    funext s'
    exact ih s'

theorem mapLeaves_control {pml4 : UInt64} {ws : List LeafWrite} {s s' : Machine σ}
    (h : mapLeaves pml4 ws s = some s') :
    SameControl s s' ∧ s'.early_page_tables = s.early_page_tables := by
  induction ws generalizing s with
  | nil =>
    obtain rfl := Option.some.inj h
    exact ⟨SameControl.rfl s, rfl⟩
  | cons w ws ih =>
    obtain ⟨s₁, h₁, h₂⟩ := Option.bind_eq_some_iff.mp h
    obtain ⟨c₁, e₁⟩ := map_leaf_control h₁
    obtain ⟨c₂, e₂⟩ := ih h₂
    exact ⟨c₁.trans c₂, e₂.trans e₁⟩

/-- The entries at an index path after a sequence of writes: the last write to
    it, and what was there before if there is none. -/
def applyWrites (ws : List LeafWrite) (old : Option UInt64) (k : List (Fin 512) × Fin 512) :
    Option UInt64 :=
  ws.foldl (fun e w => if k = pageKey w.vaddr then leafEntry w.entry else e) old

theorem applyWrites_append (ws ws' : List LeafWrite) (old : Option UInt64)
    (k : List (Fin 512) × Fin 512) :
    applyWrites (ws ++ ws') old k = applyWrites ws' (applyWrites ws old k) k :=
  List.foldl_append

/-- No write to a page leaves it alone. -/
theorem applyWrites_of_not_mem {ws : List LeafWrite} {k : List (Fin 512) × Fin 512}
    (h : ∀ w ∈ ws, k ≠ pageKey w.vaddr) (old : Option UInt64) : applyWrites ws old k = old := by
  induction ws generalizing old with
  | nil => rfl
  | cons w ws ih =>
    show applyWrites ws (if k = pageKey w.vaddr then _ else old) k = old
    rw [if_neg (h w List.mem_cons_self)]
    exact ih (fun w' hw' => h w' (List.mem_cons_of_mem _ hw')) old

/-- Writes of one entry to a page leave that entry. -/
theorem applyWrites_of_mem (ws : List LeafWrite) {k : List (Fin 512) × Fin 512} {e : UInt64}
    {old : Option UInt64} (hall : ∀ w ∈ ws, k = pageKey w.vaddr → w.entry = e)
    (hex : ∃ w ∈ ws, k = pageKey w.vaddr) : applyWrites ws old k = leafEntry e := by
  induction ws using List.reverseRecOn with
  | nil =>
    obtain ⟨w, hw, -⟩ := hex
    cases hw
  -- The last write decides if it is to the page, and the ones before it otherwise.
  | append_singleton ws w ih =>
    rw [applyWrites_append]
    show (if k = pageKey w.vaddr then leafEntry w.entry else applyWrites ws old k) = _
    by_cases hk : k = pageKey w.vaddr
    · rw [if_pos hk, hall w (by simp) hk]
    · rw [if_neg hk]
      apply ih (fun w' hw' => hall w' (by simp [hw']))
      obtain ⟨w', hw', hk'⟩ := hex
      rcases List.mem_append.mp hw' with hmem | hmem
      · exact ⟨w', hmem, hk'⟩
      · obtain rfl := List.mem_singleton.mp hmem
        exact absurd hk' hk

/-- Whatever is found was there before or was written. -/
theorem applyWrites_cases (ws : List LeafWrite) (old : Option UInt64)
    (k : List (Fin 512) × Fin 512) :
    applyWrites ws old k = old ∨
      ∃ w ∈ ws, k = pageKey w.vaddr ∧ applyWrites ws old k = leafEntry w.entry := by
  induction ws using List.reverseRecOn with
  | nil => exact Or.inl rfl
  | append_singleton ws w ih =>
    rw [applyWrites_append]
    show (if k = pageKey w.vaddr then _ else _) = old ∨ _
    by_cases hk : k = pageKey w.vaddr
    · refine Or.inr ⟨w, by simp, hk, ?_⟩
      show (if k = pageKey w.vaddr then _ else _) = _
      rw [if_pos hk]
    · rw [if_neg hk]
      rcases ih with hold | ⟨w', hw', hk', he'⟩
      · exact Or.inl hold
      · refine Or.inr ⟨w', by simp [hw'], hk', ?_⟩
        show (if k = pageKey w.vaddr then _ else _) = _
        rw [if_neg hk]
        exact he'

variable {A : AllocSpec σ}

/-- No write of the sequence meets an allocation failure. -/
def LeavesAllocated (root : UInt64) (s : Machine σ) (ws : List LeafWrite) : Prop :=
  ExecAlong (fun t w => map_leaf root w.vaddr w.entry t) (fun t w => LeafAllocated root w.vaddr t) s ws

/-- Three promised frames for each write are enough. -/
theorem leavesAllocated_of_room {n : Nat} {root : UInt64} {owned : List UInt64}
    {ws : List LeafWrite} {s s' : Machine σ} (hpaged : Paged A n root owned s)
    (hn : 3 * ws.length ≤ n) (h : mapLeaves root ws s = some s') : LeavesAllocated root s ws := by
  induction ws generalizing s owned n with
  | nil => trivial
  | cons w ws ih =>
    simp only [List.length_cons] at hn
    obtain ⟨s₁, h₁, h₂⟩ := Option.bind_eq_some_iff.mp h
    have halloc := leafAllocated_of_room hpaged (by omega) h₁
    obtain ⟨⟨owned₁, hm⟩, -⟩ := map_leaf_spec hpaged halloc h₁
    -- Each write uses three frames at most.
    refine ⟨halloc, ?_⟩
    intro t ht
    obtain rfl := Option.some.inj (h₁.symm.trans ht)
    exact ih hm.paged (by omega) h₂

/-- **A sequence of writes**: the tables stay well formed, and every page has
    the translation of the last write to it. -/
theorem mapLeaves_spec {n : Nat} {root : UInt64} {owned : List UInt64} {ws : List LeafWrite}
    {s s' : Machine σ} (hpaged : Paged A n root owned s) (halloc : LeavesAllocated root s ws)
    (h : mapLeaves root ws s = some s') :
    ∃ owned', Paged A (n - 3 * ws.length) root owned' s' ∧ Grows root owned owned' s s' ∧
      ∀ k : List (Fin 512) × Fin 512, k.1.length = 3 →
        leafOf s'.mem root k.1 k.2 = applyWrites ws (leafOf s.mem root k.1 k.2) k := by
  induction ws generalizing s owned n with
  | nil =>
    obtain rfl := Option.some.inj h
    exact ⟨owned, hpaged, Grows.refl _ _ _, fun _ _ => rfl⟩
  | cons w ws ih =>
    obtain ⟨s₁, h₁, h₂⟩ := Option.bind_eq_some_iff.mp h
    obtain ⟨hleaf, hrest⟩ := halloc
    obtain ⟨⟨owned₁, hm⟩, -⟩ := map_leaf_spec hpaged hleaf h₁
    obtain ⟨owned₂, hpaged₂, hgrows₂, hleaves₂⟩ := ih hm.paged (hrest s₁ h₁) h₂
    refine ⟨owned₂, hpaged₂.mono ?_, hm.grows.trans hgrows₂, fun k hk => ?_⟩
    · simp only [List.length_cons]
      omega
    · rw [hleaves₂ k hk, hm.leaves k.1 hk k.2]
      show applyWrites ws _ k = applyWrites ws (if k = pageKey w.vaddr then _ else _) k
      congr 1
      -- The first write decides about its own page, until a later one does.
      by_cases hkey : k = pageKey w.vaddr
      · obtain ⟨hpath, hidx⟩ : k.1 = tablePath w.vaddr ∧ k.2 = pt_idx w.vaddr := Prod.ext_iff.mp hkey
        rw [if_pos hkey, if_pos ⟨hpath, hidx⟩]
      · rw [if_neg hkey, if_neg (fun hc => hkey (Prod.ext hc.1 hc.2))]

/-- A sequence of writes returns if the allocator answers. -/
theorem mapLeaves_total {n : Nat} (root : UInt64) {ws : List LeafWrite} {s : Machine σ}
    (h : A.Supply (n + 3 * ws.length) s.alloc) :
    ∃ s', mapLeaves root ws s = some s' ∧ A.Supply n s'.alloc := by
  induction ws generalizing s with
  | nil => exact ⟨s, rfl, h⟩
  | cons w ws ih =>
    simp only [List.length_cons] at h
    have hsupply : A.Supply (n + 3 * ws.length + 3) s.alloc := by
      rw [show n + 3 * ws.length + 3 = n + 3 * (ws.length + 1) by omega]
      exact h
    obtain ⟨s₁, h₁, hs₁⟩ := map_leaf_total root w.vaddr w.entry hsupply
    obtain ⟨s₂, h₂, hs₂⟩ := ih hs₁
    exact ⟨s₂, by simp only [mapLeaves, h₁, Option.bind_some, h₂], hs₂⟩

end writes

/-! ## Section 4: `map_range` -/

/-- The leaf entry that `map_range` gives to a page. -/
def rangeEntry (hhdm flags vaddr : UInt64) : UInt64 :=
  rangePaddr hhdm vaddr ||| flags ||| PAGE_PRESENT

/-- The leaf writes of the loop of `map_range`, `none` if it never ends. -/
def rangeWrites (hhdm virt_end flags : UInt64) : Nat → UInt64 → Option (List LeafWrite)
  | 0, _ => none
  | rounds + 1, vaddr =>
    if vaddr < virt_end then
      (rangeWrites hhdm virt_end flags rounds (vaddr + 0x1000)).map
        (⟨vaddr, rangeEntry hhdm flags vaddr⟩ :: ·)
    else some []

section range
variable {σ : Type} [PageAllocator σ]

theorem mapRangeLoop_eq_mapLeaves (pml4 virt_end flags : UInt64) (rounds : Nat) (vaddr : UInt64)
    (s : Machine σ) :
    mapRangeLoop pml4 virt_end flags rounds vaddr s =
      (rangeWrites s.hhdm virt_end flags rounds vaddr).bind fun ws => mapLeaves pml4 ws s := by
  induction rounds generalizing vaddr s with
  | zero => rfl
  | succ rounds ih =>
    unfold mapRangeLoop rangeWrites
    by_cases hlt : vaddr < virt_end
    · rw [if_pos hlt, if_pos hlt]
      cases hm : map_leaf pml4 vaddr (rangePaddr s.hhdm vaddr ||| flags ||| PAGE_PRESENT) s with
      | none =>
        cases hw : rangeWrites s.hhdm virt_end flags rounds (vaddr + 0x1000) with
        | none => simp [hm]
        | some ws => simp [hm, mapLeaves, rangeEntry]
      | some s₁ =>
        have hhdm := (map_leaf_control hm).1.hhdm
        have ih₁ := ih (vaddr + 0x1000) s₁
        rw [hhdm] at ih₁
        cases hw : rangeWrites s.hhdm virt_end flags rounds (vaddr + 0x1000) with
        | none => simp [hm, ih₁, hw]
        | some ws => simp [hm, ih₁, hw, mapLeaves, rangeEntry]
    · rw [if_neg hlt, if_neg hlt]
      rfl

theorem mapRange_eq_mapLeaves (pml4 virt_start virt_end flags : UInt64) (s : Machine σ) :
    map_range pml4 virt_start virt_end flags s =
      (rangeWrites s.hhdm virt_end flags allRounds (pageOf virt_start)).bind
        fun ws => mapLeaves pml4 ws s :=
  mapRangeLoop_eq_mapLeaves pml4 virt_end flags allRounds (pageOf virt_start) s

end range

/-- Number of pages from `vaddr` to the end of a range. -/
def rangePages (vaddr virt_end : UInt64) : Nat := (virt_end.toNat - vaddr.toNat + 4095) / 4096

/-- **The pages of a range**: a loop that does not end in the last page of the
    address space writes every page from its start to its end once. -/
theorem rangeWrites_spec (hhdm flags : UInt64) {virt_end : UInt64} (rounds : Nat) {vaddr : UInt64}
    (haligned : PageAligned vaddr) (hend : virt_end.toNat ≤ 2 ^ 64 - 4096 ∨ virt_end ≤ vaddr)
    (hrounds : rangePages vaddr virt_end < rounds) :
    ∃ ws, rangeWrites hhdm virt_end flags rounds vaddr = some ws ∧
      ws.length = rangePages vaddr virt_end ∧
      ∀ w, w ∈ ws ↔ PageAligned w.vaddr ∧ vaddr ≤ w.vaddr ∧ w.vaddr < virt_end ∧
        w.entry = rangeEntry hhdm flags w.vaddr := by
  induction rounds generalizing vaddr with
  | zero => omega
  | succ rounds ih =>
    unfold rangeWrites
    by_cases hlt : vaddr < virt_end
    · have hlt' := UInt64.lt_iff_toNat_lt.mp hlt
      have hend' : virt_end.toNat ≤ 2 ^ 64 - 4096 := by
        rcases hend with h | h
        · exact h
        · have := UInt64.le_iff_toNat_le.mp h
          omega
      have hnext : (vaddr + 0x1000).toNat = vaddr.toNat + 4096 :=
        Words.toNat_add_lt vaddr 0x1000 (by show vaddr.toNat + 4096 < _; omega)
      unfold PageAligned PAGE_SIZE at haligned
      have haligned' : PageAligned (vaddr + 0x1000) := by
        unfold PageAligned PAGE_SIZE
        omega
      have hrounds' : rangePages (vaddr + 0x1000) virt_end < rounds := by
        unfold rangePages at hrounds ⊢
        omega
      -- The page at the start, and those of the rest of the range.
      obtain ⟨ws, hws, hlen, hmem⟩ := ih haligned' (Or.inl hend') hrounds'
      refine ⟨⟨vaddr, rangeEntry hhdm flags vaddr⟩ :: ws, by rw [if_pos hlt, hws]; rfl, ?_, ?_⟩
      · rw [List.length_cons, hlen]
        unfold rangePages
        omega
      · intro w
        rw [List.mem_cons, hmem]
        constructor
        · intro h
          rcases h with rfl | ⟨ha, hge, hw, he⟩
          · exact ⟨haligned, UInt64.le_iff_toNat_le.mpr (Nat.le_refl _), hlt, rfl⟩
          · refine ⟨ha, ?_, hw, he⟩
            rw [UInt64.le_iff_toNat_le] at hge ⊢
            omega
        · intro h
          obtain ⟨ha, hge, hw, he⟩ := h
          by_cases hv : w.vaddr = vaddr
          · apply Or.inl
            cases w
            simp only at hv he
            rw [he, hv]
          · refine Or.inr ⟨ha, ?_, hw, he⟩
            have hne : w.vaddr.toNat ≠ vaddr.toNat := fun h => hv (Words.ext h)
            unfold PageAligned PAGE_SIZE at ha
            rw [UInt64.le_iff_toNat_le] at hge ⊢
            omega
    · have hge : virt_end.toNat ≤ vaddr.toNat := by
        rw [UInt64.lt_iff_toNat_lt] at hlt
        omega
      refine ⟨[], by rw [if_neg hlt], ?_, ?_⟩
      · unfold rangePages
        simp only [List.length_nil]
        omega
      · intro w
        rw [UInt64.le_iff_toNat_le, UInt64.lt_iff_toNat_lt]
        constructor
        · intro h
          cases h
        · intro h
          omega

/-- The writes of `map_range` for a range that does not end in the last page. -/
theorem rangeWrites_all (hhdm flags virt_start : UInt64) {virt_end : UInt64}
    (hend : virt_end.toNat ≤ 2 ^ 64 - 4096) :
    ∃ ws, rangeWrites hhdm virt_end flags allRounds (pageOf virt_start) = some ws ∧
      ws.length = rangePages (pageOf virt_start) virt_end ∧
      ∀ w, w ∈ ws ↔ PageAligned w.vaddr ∧ pageOf virt_start ≤ w.vaddr ∧ w.vaddr < virt_end ∧
        w.entry = rangeEntry hhdm flags w.vaddr := by
  have hrounds : rangePages (pageOf virt_start) virt_end < allRounds := by
    unfold rangePages allRounds
    omega
  exact rangeWrites_spec hhdm flags allRounds (pageOf_aligned virt_start) (Or.inl hend) hrounds

end ArgaldOS
