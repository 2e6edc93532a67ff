import ArgaldOS.Paging.Writes

/-! # The mappings of `init_paging`

    `init_paging` is one long sequence of leaf writes below a fresh PML4.
    `Performs` composes such sequences, so that the whole function is the list
    `initWrites`, a pure function of the direct-map offset, the address of the
    code, the stack pointer and the PML4.  The list has at most
    `maxInitWrites` elements, unless a loop never ends.

    * `init_paging_cases`: all that `init_paging` can do;
    * `initWrites_length`: the number of writes;
    * `initWrites_eq_none`, `initWrites_isSome`: when the loops end.
-/

namespace ArgaldOS

open TableTree

/-! ## Section 1: Composing sequences of writes -/

/-- One sequence after the other; none if one of them never ends. -/
def seqWrites (ws ws' : Option (List LeafWrite)) : Option (List LeafWrite) :=
  ws.bind fun a => ws'.map fun b => a ++ b

section performs
variable {σ : Type} [PageAllocator σ]

/-- In a machine with this direct map and these early tables, the command `c`
    is the sequence of writes `ws`. -/
def Performs (pml4 hhdm : UInt64) (early : List UInt64) (c : Machine σ → Option (Machine σ))
    (ws : Option (List LeafWrite)) : Prop :=
  ∀ s, s.hhdm = hhdm → s.early_page_tables = early →
    c s = ws.bind fun ws => mapLeaves pml4 ws s

variable {pml4 hhdm : UInt64} {early : List UInt64}

theorem Performs.seq {c c' : Machine σ → Option (Machine σ)} {ws ws' : Option (List LeafWrite)}
    (h : Performs pml4 hhdm early c ws) (h' : Performs pml4 hhdm early c' ws') :
    Performs pml4 hhdm early (fun s => (c s).bind c') (seqWrites ws ws') := by
  intro s hs he
  dsimp only
  rw [h s hs he]
  cases ws with
  | none => rfl
  | some a =>
    show (mapLeaves pml4 a s).bind c' = (ws'.map fun b => a ++ b).bind _
    -- The second command starts where the first has ended, if it has.
    cases ha : mapLeaves pml4 a s with
    | none =>
      cases ws' with
      | none => rfl
      | some b =>
        show none = mapLeaves pml4 (a ++ b) s
        rw [mapLeaves_append, ha]
        rfl
    | some s₁ =>
      obtain ⟨hcontrol, hearly⟩ := mapLeaves_control ha
      rw [Option.bind_some, h' s₁ (hcontrol.hhdm.trans hs) (hearly.trans he)]
      cases ws' with
      | none => rfl
      | some b =>
        show mapLeaves pml4 b s₁ = mapLeaves pml4 (a ++ b) s
        rw [mapLeaves_append, ha, Option.bind_some]

end performs

/-- The writes of a `map_range` call of `init_paging`. -/
def initRange (hhdm : UInt64) (range : UInt64 × UInt64) : Option (List LeafWrite) :=
  rangeWrites hhdm range.2 (PAGE_PRESENT ||| PAGE_RW) allRounds (pageOf range.1)

/-- The writes of an identity block and a direct-map block. -/
def bothWrites (hhdm addr : UInt64) : List LeafWrite :=
  [⟨addr, addr ||| PAGE_PRESENT ||| PAGE_RW⟩, ⟨addr + hhdm, addr ||| PAGE_PRESENT ||| PAGE_RW⟩]

/-- The writes of the loop over the stack pages. -/
def stackWrites (hhdm last : UInt64) : Nat → UInt64 → Option (List LeafWrite)
  | 0, _ => none
  | rounds + 1, addr =>
    if addr ≤ last then
      (stackWrites hhdm last rounds (addr + 0x1000)).map (bothWrites hhdm addr ++ ·)
    else some []

/-- The six windows of steps 1 to 4. -/
def initWindows (hhdm code_addr rsp : UInt64) : List (UInt64 × UInt64) :=
  let code_start := code_addr &&& ~~~0xFFF
  let stack_start := rsp &&& ~~~0x1FFFFF
  [ (0, 0x200000),
    (code_start &&& ~~~0x1FFFFF, (code_start + 0x200000) &&& ~~~0xFFF),
    (stack_start, stack_start + 0x200000),
    (hhdm, hhdm + 0x200000),
    (hhdm + (code_start &&& ~~~0x1FFFFF), hhdm + ((code_start + 0x200000) &&& ~~~0xFFF)),
    (hhdm + stack_start, hhdm + stack_start + 0x200000) ]

/-- The two windows of step 5, for the one early table. -/
def earlyWindows (hhdm addr : UInt64) : List (UInt64 × UInt64) :=
  let pt_addr := addr &&& ~~~0xFFF
  [(pt_addr, pt_addr + 0x1000), (hhdm + pt_addr, hhdm + pt_addr + 0x1000)]

/-- The writes of a list of windows, and what comes after them. -/
def windowWrites (hhdm : UInt64) (windows : List (UInt64 × UInt64))
    (rest : Option (List LeafWrite)) : Option (List LeafWrite) :=
  windows.foldr (fun w ws => seqWrites (initRange hhdm w) ws) rest

theorem windowWrites_nil (hhdm : UInt64) (rest : Option (List LeafWrite)) :
    windowWrites hhdm [] rest = rest := by
  rw [windowWrites, List.foldr_nil]

theorem windowWrites_cons (hhdm : UInt64) (w : UInt64 × UInt64) (windows : List (UInt64 × UInt64))
    (rest : Option (List LeafWrite)) :
    windowWrites hhdm (w :: windows) rest =
      seqWrites (initRange hhdm w) (windowWrites hhdm windows rest) := by
  rw [windowWrites, List.foldr_cons, ← windowWrites]

/-- **The writes of `init_paging`** below the PML4 `pml4`. -/
def initWrites (hhdm code_addr rsp pml4 : UInt64) : Option (List LeafWrite) :=
  windowWrites hhdm (initWindows hhdm code_addr rsp)
    (seqWrites (some (bothWrites hhdm (pageOf code_addr)))
      (seqWrites (stackWrites hhdm (pageOf rsp + 0x4000) allRounds (pageOf rsp - 0x4000))
        (seqWrites (some (bothWrites hhdm pml4))
          (windowWrites hhdm (earlyWindows hhdm pml4) (some [])))))

/-! ## Section 2: `init_tables` performs them -/

section init
variable {σ : Type} [PageAllocator σ] {pml4 hhdm : UInt64} {early : List UInt64}

theorem performs_map_both (addr : UInt64) :
    Performs (σ := σ) pml4 hhdm early (map_both pml4 addr) (some (bothWrites hhdm addr)) := by
  intro s hs _
  unfold map_both bothWrites
  simp only [Option.bind_some, mapLeaves, Option.bind_eq_bind]
  cases h : map_leaf pml4 addr (addr ||| PAGE_PRESENT ||| PAGE_RW) s with
  | none => rfl
  | some s₁ =>
    have hhdm₁ := (map_leaf_control h).1.hhdm.trans hs
    simp [hhdm₁]

/-- A `map_range` call whose bounds depend on the direct map only. -/
theorem performs_range (lo hi : UInt64 → UInt64) :
    Performs (σ := σ) pml4 hhdm early
      (fun s => map_range pml4 (lo s.hhdm) (hi s.hhdm) (PAGE_PRESENT ||| PAGE_RW) s)
      (initRange hhdm (lo hhdm, hi hhdm)) := by
  intro s hs _
  dsimp only
  rw [mapRange_eq_mapLeaves, hs]
  rfl

theorem performs_stackLoop (last : UInt64) (rounds : Nat) (addr : UInt64) :
    Performs (σ := σ) pml4 hhdm early (stackLoop pml4 last rounds addr)
      (stackWrites hhdm last rounds addr) := by
  induction rounds generalizing addr with
  | zero => exact fun _ _ _ => rfl
  | succ rounds ih =>
    intro s hs he
    unfold stackLoop stackWrites
    by_cases hle : addr ≤ last
    · rw [if_pos hle, if_pos hle]
      exact (performs_map_both addr).seq (ih (addr + 0x1000)) s hs he
    · rw [if_neg hle, if_neg hle]
      rfl

/-- A loop over the early tables when there is one. -/
theorem performs_early {a : UInt64} {c : UInt64 → Machine σ → Option (Machine σ)}
    {ws : Option (List LeafWrite)} (h : Performs pml4 hhdm [a] (c a) ws) :
    Performs pml4 hhdm [a]
      (fun s => s.early_page_tables.foldlM (fun s pt_addr => c pt_addr s) s) ws := by
  intro s hs he
  dsimp only
  rw [he]
  simp only [List.foldlM_cons, List.foldlM_nil]
  rw [← h s hs he]
  cases c a s <;> rfl

theorem seqWrites_nil (ws : Option (List LeafWrite)) : seqWrites ws (some []) = ws := by
  cases ws <;> simp [seqWrites]

theorem performs_map_early_table (addr : UInt64) :
    Performs (σ := σ) pml4 hhdm early (map_early_table pml4 addr)
      (windowWrites hhdm (earlyWindows hhdm addr) (some [])) := by
  rw [earlyWindows, windowWrites_cons, windowWrites_cons, windowWrites_nil, seqWrites_nil]
  exact (performs_range (fun _ => addr &&& ~~~0xFFF) (fun _ => (addr &&& ~~~0xFFF) + 0x1000)).seq
    (performs_range (fun h => h + (addr &&& ~~~0xFFF)) (fun h => h + (addr &&& ~~~0xFFF) + 0x1000))

variable (pml4 hhdm) in
/-- **`init_tables` is the sequence `initWrites`.** -/
theorem performs_init_tables (code_addr rsp : UInt64) :
    Performs (σ := σ) pml4 hhdm [pml4] (init_tables pml4 code_addr rsp)
      (initWrites hhdm code_addr rsp pml4) := by
  -- From the last mapping back to the first.
  have hboth : Performs (σ := σ) pml4 hhdm [pml4] _ _ :=
    performs_early (c := map_both pml4) (performs_map_both pml4)
  have hearly := hboth.seq (performs_early (c := map_early_table pml4)
      (performs_map_early_table pml4))
  have hstack := (performs_map_both (pageOf code_addr)).seq
    ((performs_stackLoop (pageOf rsp + 0x4000) allRounds (pageOf rsp - 0x4000)).seq hearly)
  rw [initWrites, initWindows, windowWrites_cons, windowWrites_cons, windowWrites_cons,
    windowWrites_cons, windowWrites_cons, windowWrites_cons, windowWrites_nil]
  exact (performs_range (fun _ => 0) (fun _ => 0x200000)).seq
    ((performs_range (fun _ => code_addr &&& ~~~0xFFF &&& ~~~0x1FFFFF)
        (fun _ => (code_addr &&& ~~~0xFFF) + 0x200000 &&& ~~~0xFFF)).seq
      ((performs_range (fun _ => rsp &&& ~~~0x1FFFFF)
          (fun _ => (rsp &&& ~~~0x1FFFFF) + 0x200000)).seq
        ((performs_range (fun h => h) (fun h => h + 0x200000)).seq
          ((performs_range (fun h => h + (code_addr &&& ~~~0xFFF &&& ~~~0x1FFFFF))
              (fun h => h + ((code_addr &&& ~~~0xFFF) + 0x200000 &&& ~~~0xFFF))).seq
            ((performs_range (fun h => h + (rsp &&& ~~~0x1FFFFF))
                (fun h => h + (rsp &&& ~~~0x1FFFFF) + 0x200000)).seq hstack)))))

/-- **All that `init_paging` can do**: give up on a NULL PML4, or perform its
    writes below the PML4 and load CR3 if the PML4 is aligned. -/
theorem init_paging_eq (code_addr rsp : UInt64) (s : Machine σ) :
    init_paging code_addr rsp s =
      (alloc_table { s with early_page_tables := [] }).bind fun r =>
        let s₁ := { r.2 with pml4 := r.1 }
        if r.1 = 0 then some s₁ else
        ((initWrites s.hhdm code_addr rsp r.1).bind fun ws =>
            mapLeaves r.1 ws { s₁ with early_page_tables := [r.1] }).map fun s₂ =>
          if r.1 &&& 0xFFF ≠ 0 then s₂ else { s₂ with cr3 := some r.1 } := by
  unfold init_paging
  cases ha : alloc_table { s with early_page_tables := [] } with
  | none => simp [ha]
  | some r =>
    obtain ⟨pml4, s₁⟩ := r
    obtain ⟨hcontrol, hearly⟩ := alloc_table_control ha
    have hadd : add_early_page_table pml4 { s₁ with pml4 := pml4 } =
        { s₁ with pml4 := pml4, early_page_tables := [pml4] } := by
      change s₁.early_page_tables = [] at hearly
      unfold add_early_page_table MAX_EARLY_PAGE_TABLES
      simp [hearly]
    by_cases hz : pml4 = 0
    · simp [ha, hz]
    · have hinit := performs_init_tables (σ := σ) pml4 s.hhdm code_addr rsp
        { s₁ with pml4 := pml4, early_page_tables := [pml4] } hcontrol.hhdm rfl
      simp only [ha, Option.bind_eq_bind, Option.bind_some, hz, if_false, hadd, hinit]
      cases (initWrites s.hhdm code_addr rsp pml4).bind fun ws =>
          mapLeaves pml4 ws { s₁ with pml4 := pml4, early_page_tables := [pml4] } with
      | none => rfl
      | some s₂ =>
        by_cases hmask : pml4 &&& 0xFFF = 0
        · simp [hmask]
        · simp [hmask]

end init

/-! ## Section 3: When the loops end, and how much they write -/

/-- A window that ends in the last page of the address space is never done. -/
theorem rangeWrites_never (hhdm flags : UInt64) {virt_end : UInt64}
    (hend : 2 ^ 64 - 4096 < virt_end.toNat) (rounds : Nat) {vaddr : UInt64}
    (haligned : PageAligned vaddr) : rangeWrites hhdm virt_end flags rounds vaddr = none := by
  induction rounds generalizing vaddr with
  | zero => rfl
  | succ rounds ih =>
    have hlt := vaddr.toNat_lt
    unfold PageAligned PAGE_SIZE at haligned
    have hin : vaddr < virt_end := by
      rw [UInt64.lt_iff_toNat_lt]
      omega
    -- The address wraps to 0 behind the last page, and is below the end again.
    have hnext : PageAligned (vaddr + 0x1000) := by
      unfold PageAligned PAGE_SIZE
      rw [UInt64.toNat_add]
      show (vaddr.toNat + 4096) % 2 ^ 64 % 4096 = 0
      omega
    unfold rangeWrites
    rw [if_pos hin, ih hnext]
    rfl

/-- A loop that is done did not end there. -/
theorem end_of_rangeWrites {hhdm virt_start virt_end flags : UInt64} {ws : List LeafWrite}
    (h : rangeWrites hhdm virt_end flags allRounds (pageOf virt_start) = some ws) :
    virt_end.toNat ≤ 2 ^ 64 - 4096 := by
  by_contra hlast
  rw [rangeWrites_never hhdm flags (by omega) allRounds (pageOf_aligned virt_start)] at h
  cases h

/-- The writes of a window with an aligned end. -/
theorem initRange_spec (hhdm : UInt64) {range : UInt64 × UInt64} (hend : PageAligned range.2) :
    ∃ ws, initRange hhdm range = some ws ∧ ws.length = rangePages (pageOf range.1) range.2 ∧
      ∀ w ∈ ws, PageAligned w.vaddr ∧ pageOf range.1 ≤ w.vaddr ∧ w.vaddr < range.2 := by
  have hlt := range.2.toNat_lt
  unfold PageAligned PAGE_SIZE at hend
  obtain ⟨ws, hws, hlen, hmem⟩ := rangeWrites_all hhdm (PAGE_PRESENT ||| PAGE_RW) range.1
    (show range.2.toNat ≤ 2 ^ 64 - 4096 by omega)
  refine ⟨ws, hws, hlen, ?_⟩
  intro w hw
  obtain ⟨ha, hge, hlt, -⟩ := (hmem w).mp hw
  exact ⟨ha, hge, hlt⟩

/-- A window of `d` bytes has at most one page more than fit in them; one that
    wraps around has none. -/
theorem rangePages_window (a d : UInt64) (hd : d.toNat ≤ 2 ^ 22) :
    rangePages (pageOf a) (a + d) ≤ (d.toNat + 8190) / 4096 := by
  have ha := a.toNat_lt
  unfold rangePages
  rw [toNat_pageOf, UInt64.toNat_add]
  omega

/-- The writes of a list of windows, each of at most `k` pages. -/
theorem windowWrites_spec (hhdm : UInt64) (k : Nat) (rest : Option (List LeafWrite))
    {windows : List (UInt64 × UInt64)}
    (hw : ∀ w ∈ windows, PageAligned w.2 ∧ rangePages (pageOf w.1) w.2 ≤ k) :
    ∃ ws, windowWrites hhdm windows rest = rest.map (ws ++ ·) ∧ ws.length ≤ k * windows.length ∧
      ∀ l ∈ ws, ∃ w ∈ windows, PageAligned l.vaddr ∧ pageOf w.1 ≤ l.vaddr ∧ l.vaddr < w.2 := by
  induction windows with
  | nil => exact ⟨[], by simp [windowWrites_nil], by simp, by simp⟩
  | cons w windows ih =>
    obtain ⟨ws, hws, hlen, hmem⟩ := ih fun w' hw' => hw w' (List.mem_cons_of_mem _ hw')
    obtain ⟨hend, hk⟩ := hw w List.mem_cons_self
    obtain ⟨ws₁, hws₁, hlen₁, hmem₁⟩ := initRange_spec hhdm hend
    refine ⟨ws₁ ++ ws, ?_, ?_, fun l hl => ?_⟩
    · rw [windowWrites_cons, hws₁, hws]
      cases rest <;> simp [seqWrites]
    · simp only [List.length_append, List.length_cons, Nat.mul_add]
      omega
    · rcases List.mem_append.mp hl with hl | hl
      · exact ⟨w, List.mem_cons_self, hmem₁ l hl⟩
      · obtain ⟨w', hw', h⟩ := hmem l hl
        exact ⟨w', List.mem_cons_of_mem _ hw', h⟩

/-- The loop over the stack pages is never done when the last of them is the
    last page of the address space. -/
theorem stackWrites_never (hhdm : UInt64) {last : UInt64} (hlast : last.toNat = 2 ^ 64 - 4096)
    (rounds : Nat) {addr : UInt64} (haligned : PageAligned addr) :
    stackWrites hhdm last rounds addr = none := by
  induction rounds generalizing addr with
  | zero => rfl
  | succ rounds ih =>
    have hlt := addr.toNat_lt
    unfold PageAligned PAGE_SIZE at haligned
    have hle : addr ≤ last := by
      rw [UInt64.le_iff_toNat_le]
      omega
    have hnext : PageAligned (addr + 0x1000) := by
      unfold PageAligned PAGE_SIZE
      rw [UInt64.toNat_add]
      show (addr.toNat + 4096) % 2 ^ 64 % 4096 = 0
      omega
    unfold stackWrites
    rw [if_pos hle, ih hnext]
    rfl

/-- Otherwise it writes two entries for each page up to `last`. -/
theorem stackWrites_spec (hhdm : UInt64) {last : UInt64} (hlast : last.toNat < 2 ^ 64 - 4096)
    (rounds : Nat) {addr : UInt64} (haligned : PageAligned addr)
    (hrounds : (last.toNat + 4096 - addr.toNat) / 4096 < rounds) :
    ∃ ws, stackWrites hhdm last rounds addr = some ws ∧
      ws.length = 2 * ((last.toNat + 4096 - addr.toNat) / 4096) ∧
      ∀ w ∈ ws, ∃ a, PageAligned a ∧ addr ≤ a ∧ a ≤ last ∧ w ∈ bothWrites hhdm a := by
  induction rounds generalizing addr with
  | zero => omega
  | succ rounds ih =>
    unfold stackWrites
    by_cases hle : addr ≤ last
    · have hle' := UInt64.le_iff_toNat_le.mp hle
      have hnext : (addr + 0x1000).toNat = addr.toNat + 4096 :=
        Words.toNat_add_lt addr 0x1000 (by show addr.toNat + 4096 < _; omega)
      have haligned' : PageAligned (addr + 0x1000) := by
        unfold PageAligned PAGE_SIZE at haligned ⊢
        omega
      obtain ⟨ws, hws, hlen, hmem⟩ := ih haligned' (by omega)
      refine ⟨bothWrites hhdm addr ++ ws, by rw [if_pos hle, hws]; rfl, ?_, fun w hw => ?_⟩
      · rw [List.length_append, hlen]
        show 2 + _ = _
        omega
      · rcases List.mem_append.mp hw with hw | hw
        · exact ⟨addr, haligned, UInt64.le_iff_toNat_le.mpr (Nat.le_refl _), hle, hw⟩
        · obtain ⟨a, ha, hge, hlt, hwa⟩ := hmem w hw
          refine ⟨a, ha, ?_, hlt, hwa⟩
          rw [UInt64.le_iff_toNat_le] at hge ⊢
          omega
    · refine ⟨[], by rw [if_neg hle], ?_, by simp⟩
      rw [UInt64.le_iff_toNat_le] at hle
      unfold PageAligned PAGE_SIZE at haligned
      simp only [List.length_nil]
      omega

theorem pageAligned_add {a b : UInt64} (ha : PageAligned a) (hb : PageAligned b) :
    PageAligned (a + b) := by
  unfold PageAligned PAGE_SIZE at *
  rw [UInt64.toNat_add]
  omega

/-- A window that starts and ends at page boundaries. -/
theorem window_bound {a d : UInt64} (ha : PageAligned a) (hd : PageAligned d)
    (hlt : d.toNat < 2 ^ 22) :
    PageAligned (a + d) ∧ rangePages (pageOf a) (a + d) ≤ 1024 := by
  have hpages := rangePages_window a d (by omega)
  unfold PageAligned PAGE_SIZE at hd
  exact ⟨pageAligned_add ha hd, by omega⟩

theorem toNat_and_not_1fffff (v : UInt64) :
    (v &&& ~~~0x1FFFFF).toNat = v.toNat / 2 ^ 21 * 2 ^ 21 :=
  Words.toNat_and_not_mask v 0x1FFFFF 21 rfl

theorem initWindows_bound {hhdm : UInt64} (hhhdm : PageAligned hhdm) (code_addr rsp : UInt64) :
    ∀ w ∈ initWindows hhdm code_addr rsp,
      PageAligned w.2 ∧ rangePages (pageOf w.1) w.2 ≤ 1024 := by
  have hcode := pageOf_aligned code_addr
  have hA := toNat_and_not_1fffff (pageOf code_addr)
  have hS := toNat_and_not_1fffff rsp
  have hAa : PageAligned (pageOf code_addr &&& ~~~0x1FFFFF) := by
    unfold PageAligned PAGE_SIZE
    omega
  have hSa : PageAligned (rsp &&& ~~~0x1FFFFF) := by
    unfold PageAligned PAGE_SIZE
    omega
  -- The window of the code ends 2 MiB after its page, not after its start.
  let d := pageOf code_addr - (pageOf code_addr &&& ~~~0x1FFFFF) + 0x200000
  have hdval : d.toNat = (pageOf code_addr).toNat % 2 ^ 21 + 2 ^ 21 := by
    have hsub := Words.toNat_sub_le (pageOf code_addr) (pageOf code_addr &&& ~~~0x1FFFFF) (by omega)
    rw [Words.toNat_add_lt _ _ (by rw [hsub]; show _ + 2 ^ 21 < _; omega), hsub]
    show _ + 2 ^ 21 = _
    omega
  have hda : PageAligned d := by
    unfold PageAligned PAGE_SIZE at hcode ⊢
    omega
  have hend : (pageOf code_addr + 0x200000) &&& ~~~0xFFF =
      (pageOf code_addr &&& ~~~0x1FFFFF) + d := by
    have haligned : PageAligned (pageOf code_addr + 0x200000) := pageAligned_add hcode (by decide)
    show pageOf (pageOf code_addr + 0x200000) = _
    rw [pageOf_of_aligned haligned]
    grind
  intro w hw
  unfold initWindows at hw
  simp only [List.mem_cons, List.not_mem_nil, or_false] at hw
  change _ ∨ w = (pageOf code_addr &&& ~~~0x1FFFFF, pageOf code_addr + 0x200000 &&& ~~~0xFFF) ∨ _ ∨ _
    ∨ w = (hhdm + (pageOf code_addr &&& ~~~0x1FFFFF),
        hhdm + (pageOf code_addr + 0x200000 &&& ~~~0xFFF)) ∨ _ at hw
  rw [hend] at hw
  rcases hw with rfl | rfl | rfl | rfl | rfl | rfl
  · exact window_bound (a := 0) (d := 0x200000) (by decide) (by decide) (by decide)
  · exact window_bound hAa hda (by omega)
  · exact window_bound hSa (by decide) (by decide)
  · exact window_bound hhhdm (by decide) (by decide)
  · have h := window_bound (pageAligned_add hhhdm hAa) hda (by omega)
    rwa [UInt64.add_assoc] at h
  · exact window_bound (pageAligned_add hhhdm hSa) (by decide) (by decide)

theorem earlyWindows_bound {hhdm : UInt64} (pml4 : UInt64) (hhhdm : PageAligned hhdm) :
    ∀ w ∈ earlyWindows hhdm pml4, PageAligned w.2 ∧ rangePages (pageOf w.1) w.2 ≤ 2 := by
  have hp := pageOf_aligned pml4
  intro w hw
  unfold earlyWindows at hw
  simp only [List.mem_cons, List.not_mem_nil, or_false] at hw
  rcases hw with rfl | rfl
  · exact ⟨pageAligned_add hp (by decide), rangePages_window _ 0x1000 (by decide)⟩
  · exact ⟨pageAligned_add (pageAligned_add hhhdm hp) (by decide),
      rangePages_window _ 0x1000 (by decide)⟩

/-- `init_paging` never writes more leaf entries than this. -/
def maxInitWrites : Nat := 6170

/-- The stack page from which the loop over the stack pages never ends. -/
def endlessStackPage : UInt64 := 0xFFFFFFFFFFFFB000

theorem initWrites_endless (hhdm code_addr pml4 : UInt64) {rsp : UInt64}
    (hrsp : pageOf rsp = endlessStackPage) : initWrites hhdm code_addr rsp pml4 = none := by
  have hnever : stackWrites hhdm (pageOf rsp + 0x4000) allRounds (pageOf rsp - 0x4000) = none := by
    rw [hrsp]
    exact stackWrites_never hhdm (by decide) allRounds (by decide)
  rw [initWrites, hnever]
  generalize initWindows hhdm code_addr rsp = windows
  induction windows with
  | nil => rw [windowWrites_nil]; rfl
  | cons w windows ih =>
    rw [windowWrites_cons, ih]
    cases initRange hhdm w <;> rfl

/-- The two writes for a frame. -/
theorem mem_bothWrites {hhdm a : UInt64} {w : LeafWrite} (h : w ∈ bothWrites hhdm a) :
    (w.vaddr = a ∨ w.vaddr = a + hhdm) ∧ w.entry = a ||| PAGE_PRESENT ||| PAGE_RW := by
  unfold bothWrites at h
  rcases List.mem_pair.mp h with rfl | rfl
  · exact ⟨.inl rfl, rfl⟩
  · exact ⟨.inr rfl, rfl⟩

/-- The windows of step 5 hold the page of the table, and its page in the direct
    map. -/
theorem earlyWindows_vaddr {hhdm addr va : UInt64} {v : UInt64 × UInt64} (haddr : PageAligned addr)
    (hhhdm : PageAligned hhdm) (hfit : hhdm.toNat + addr.toNat + 0x1000 < 2 ^ 64)
    (hv : v ∈ earlyWindows hhdm addr) (hva : PageAligned va) (hlo : pageOf v.1 ≤ va)
    (hhi : va < v.2) : va = addr ∨ va = addr + hhdm := by
  have hpage : addr &&& ~~~0xFFF = addr := pageOf_of_aligned haddr
  have hsum : (hhdm + addr).toNat = hhdm.toNat + addr.toNat :=
    Words.toNat_add_lt _ _ (by omega)
  have hlow := UInt64.le_iff_toNat_le.mp hlo
  have hhigh := UInt64.lt_iff_toNat_lt.mp hhi
  unfold earlyWindows at hv
  unfold PageAligned PAGE_SIZE at haddr hhhdm hva
  rw [hpage] at hv
  rw [toNat_pageOf] at hlow
  rcases List.mem_pair.mp hv with rfl | rfl
  · left
    rw [Words.toNat_add_lt addr 0x1000 (by show _ + 0x1000 < _; omega)] at hhigh
    change _ < addr.toNat + 0x1000 at hhigh
    change addr.toNat / 4096 * 4096 ≤ _ at hlow
    exact Words.ext (by omega)
  · right
    rw [Words.toNat_add_lt _ 0x1000 (by show _ + 0x1000 < _; omega)] at hhigh
    change _ < (hhdm + addr).toNat + 0x1000 at hhigh
    change (hhdm + addr).toNat / 4096 * 4096 ≤ _ at hlow
    rw [UInt64.add_comm addr hhdm]
    exact Words.ext (by omega)

/-- **The writes of `init_paging`**, when its loops end: the windows, then the
    code page, then the stack pages and the early table. -/
theorem initWrites_spec {hhdm : UInt64} (hhhdm : PageAligned hhdm) (code_addr pml4 : UInt64)
    {rsp : UInt64} (hrsp : pageOf rsp ≠ endlessStackPage) :
    ∃ before after, initWrites hhdm code_addr rsp pml4 =
        some (before ++ (bothWrites hhdm (pageOf code_addr) ++ after)) ∧
      before.length + 2 + after.length ≤ maxInitWrites ∧
      (∀ w ∈ before, ∃ v ∈ initWindows hhdm code_addr rsp,
        PageAligned w.vaddr ∧ pageOf v.1 ≤ w.vaddr ∧ w.vaddr < v.2) ∧
      ∀ w ∈ after,
        (∃ a, PageAligned a ∧ pageOf rsp - 0x4000 ≤ a ∧ a ≤ pageOf rsp + 0x4000 ∧
          w ∈ bothWrites hhdm a) ∨
        w ∈ bothWrites hhdm pml4 ∨
        ∃ v ∈ earlyWindows hhdm pml4, PageAligned w.vaddr ∧ pageOf v.1 ≤ w.vaddr ∧ w.vaddr < v.2 := by
  have hrspa := pageOf_aligned rsp
  have hlo : PageAligned (pageOf rsp - 0x4000) := by
    unfold PageAligned PAGE_SIZE at *
    rw [UInt64.toNat_sub]
    show (2 ^ 64 - 0x4000 + (pageOf rsp).toNat) % 2 ^ 64 % 4096 = 0
    omega
  have hhi := UInt64.toNat_add (pageOf rsp) 0x4000
  have hsub := UInt64.toNat_sub (pageOf rsp) 0x4000
  change _ = ((pageOf rsp).toNat + 0x4000) % 2 ^ 64 at hhi
  change _ = (2 ^ 64 - 0x4000 + (pageOf rsp).toNat) % 2 ^ 64 at hsub
  have hrlt := (pageOf rsp).toNat_lt
  have hlast : (pageOf rsp + 0x4000).toNat < 2 ^ 64 - 4096 := by
    have hne : (pageOf rsp).toNat ≠ 0xFFFFFFFFFFFFB000 := fun h => hrsp (Words.ext h)
    unfold PageAligned PAGE_SIZE at hrspa
    omega
  have hcount : ((pageOf rsp + 0x4000).toNat + 4096 - (pageOf rsp - 0x4000).toNat) / 4096 ≤ 9 := by
    omega
  obtain ⟨wins, hwins, hwlen, hwmem⟩ := windowWrites_spec hhdm 1024
    (seqWrites (some (bothWrites hhdm (pageOf code_addr)))
      (seqWrites (stackWrites hhdm (pageOf rsp + 0x4000) allRounds (pageOf rsp - 0x4000))
        (seqWrites (some (bothWrites hhdm pml4))
          (windowWrites hhdm (earlyWindows hhdm pml4) (some [])))))
    (initWindows_bound hhhdm code_addr rsp)
  obtain ⟨early, hearly, helen, hemem⟩ := windowWrites_spec hhdm 2 (some [])
    (earlyWindows_bound pml4 hhhdm)
  obtain ⟨stack, hstack, hslen, hsmem⟩ := stackWrites_spec hhdm hlast allRounds hlo (by
    unfold allRounds
    omega)
  have hwcount : (initWindows hhdm code_addr rsp).length = 6 := rfl
  have hecount : (earlyWindows hhdm pml4).length = 2 := rfl
  refine ⟨wins, stack ++ (bothWrites hhdm pml4 ++ early), ?_, ?_, hwmem, fun w hw => ?_⟩
  · rw [initWrites, hwins, hstack, hearly]
    simp [seqWrites]
  · have hboth : (bothWrites hhdm pml4).length = 2 := rfl
    rw [List.length_append, List.length_append, hslen, hboth]
    unfold maxInitWrites
    omega
  · rcases List.mem_append.mp hw with hw | hw
    · exact Or.inl (hsmem w hw)
    · rcases List.mem_append.mp hw with hw | hw
      · exact Or.inr (Or.inl hw)
      · obtain ⟨v, hv, h⟩ := hemem w hw
        exact Or.inr (Or.inr ⟨v, hv, h⟩)

end ArgaldOS
