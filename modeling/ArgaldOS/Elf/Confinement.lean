import ArgaldOS.Elf.Sections
import ArgaldOS.Paging.Kernel

/-! # Where the copy of a section goes

    `read_elf` allocates one frame for a section and copies the section through
    the raw pointer to it, whatever the section's size and wherever that
    pointer leads.  `CopyReady` is the condition under which the copy stays in
    the frame: the pages that the copy walks over are mapped to that frame, up
    to the first page that is not mapped at all.

    * `copyLoop_inv`: a ready copy stays in its frame and keeps the kernel's
      invariant;
    * `copyLoop_not_confined`: a copy that is not ready leaves it;
    * `confined_iff`: all stores of a run stay in the frames of their sections
      exactly if every copy of the run starts ready.
-/

namespace ArgaldOS

open TableTree Runs

section confinement
variable {σ : Type}

/-! ## Section 1: Ready copies -/

/-- Every store went to the frame it was meant for. -/
def Confined (s : Loader σ) : Prop := ∀ t ∈ s.stores, InFrame t.frame t.addr

/-- Page `k` of the memory that `phys` points to. -/
def pagePtr (phys : UInt64) (k : Nat) : UInt64 := phys + UInt64.ofNat (PAGE_SIZE * k)

/-- The pages that a copy of `size` bytes to `phys` walks over, up to the first
    one that faults, are mapped to the frame `phys`. -/
def CopyReady (m : Machine σ) (phys : UInt64) (size : Nat) : Prop :=
  ∀ k, PAGE_SIZE * k < size → (∀ i < k, m.denote (pagePtr phys i) ≠ none) →
    ∀ q, m.denote (pagePtr phys k) = some q → q = phys

theorem CopyReady.mono {m : Machine σ} {phys : UInt64} {j size : Nat} (hj : j ≤ size)
    (h : CopyReady m phys size) : CopyReady m phys j :=
  fun k hk => h k (by omega)

theorem pagePtr_aligned {phys : UInt64} (h : PageAligned phys) (k : Nat) :
    PageAligned (pagePtr phys k) := by
  unfold pagePtr PageAligned PAGE_SIZE at *
  rw [UInt64.toNat_add, UInt64.toNat_ofNat']
  omega

/-- Byte `j` lies in page `j / PAGE_SIZE`. -/
theorem ptr_eq_pagePtr (phys : UInt64) (j : Nat) :
    phys + UInt64.ofNat j = pagePtr phys (j / PAGE_SIZE) + UInt64.ofNat (j % PAGE_SIZE) := by
  unfold pagePtr
  rw [UInt64.add_assoc, ← UInt64.ofNat_add, Nat.div_add_mod]

/-- Page `k` begins at or before byte `j`: an earlier page, or that of byte `j`. -/
theorem page_before {j k : Nat} (hk : PAGE_SIZE * k < j + 1) :
    PAGE_SIZE * k < j ∨ k = j / PAGE_SIZE := by
  by_cases hlt : PAGE_SIZE * k < j
  · exact Or.inl hlt
  · apply Or.inr
    rw [← show PAGE_SIZE * k = j by omega, Nat.mul_div_cancel_left k (by decide)]

theorem toNat_ofNat_mod (j : Nat) : (UInt64.ofNat (j % PAGE_SIZE)).toNat = j % PAGE_SIZE := by
  apply Words.ofNat_toNat_lt
  unfold PAGE_SIZE
  omega

theorem toNat_ofNat_mod_lt (j : Nat) : (UInt64.ofNat (j % PAGE_SIZE)).toNat < PAGE_SIZE := by
  rw [toNat_ofNat_mod]
  exact Nat.mod_lt _ (by decide)

/-- A machine that differs in memory only, with other memory still. -/
theorem with_mem_congr {m m' : Machine σ} (h : m' = { m with mem := m'.mem }) (mem : Mem) :
    ({ m' with mem := mem } : Machine σ) = { m with mem := mem } := by
  rw [h]

/-- The bytes of an aligned frame. -/
theorem inFrame_add {f i : UInt64} (hf : PageAligned f) (hi : i.toNat < PAGE_SIZE) :
    InFrame f (f + i) := by
  have hadd := toNat_page_add hf hi
  unfold InFrame
  omega

/-! ## Section 2: One copy -/

variable [PageAllocator σ] {A : AllocSpec σ} {owned : List UInt64} {elf : Image}
variable {phys offset : UInt64} {size : Nat} {s : Loader σ}

/-- What a copy to `phys` has done after `j` bytes. -/
structure CopyInv (s : Loader σ) (phys : UInt64) (j : Nat) (t : Loader σ) : Prop where
  machine : t.machine = { s.machine with mem := t.machine.mem }
  frame   : ∀ x, ¬ InFrame phys x → t.machine.mem x = s.machine.mem x
  stores  : ∀ st ∈ t.stores, st ∈ s.stores ∨ (st.frame = phys ∧ InFrame phys st.addr)
  running : t.stopped = false → ∀ k, PAGE_SIZE * k < j → s.machine.denote (pagePtr phys k) ≠ none
  faulted : t.stopped = true →
    ∃ k, PAGE_SIZE * k < j ∧ s.machine.denote (pagePtr phys k) = none

omit [PageAllocator σ] in
theorem CopyInv.start (hs : s.stopped = false) : CopyInv s phys 0 s := by
  refine ⟨rfl, fun _ _ => rfl, fun _ h => Or.inl h, fun _ k hk => by omega, ?_⟩
  intro h
  rw [hs] at h
  cases h

omit [PageAllocator σ] in
theorem CopyInv.stay {j : Nat} {t : Loader σ} (h : CopyInv s phys j t) (ht : t.stopped = true) :
    CopyInv s phys (j + 1) t := by
  refine ⟨h.machine, h.frame, h.stores, fun hrun => ?_, fun _ => ?_⟩
  · rw [ht] at hrun
    cases hrun
  · obtain ⟨k, hk, hnone⟩ := h.faulted ht
    exact ⟨k, by omega, hnone⟩

/-- Pointers lead where they led before the copy. -/
theorem CopyInv.denote {j : Nat} {t : Loader σ} (h : CopyInv s phys j t)
    (hkernel : KernelPaging A 0 owned s.machine) (hframe : DataFrame owned s.machine phys)
    (ptr : UInt64) : t.machine.denote ptr = s.machine.denote ptr := by
  have hsame := sameTables_of_dataFrame hkernel.paged.tables hframe h.frame
  rw [h.machine]
  exact denote_sameTables hkernel.paged.tables hkernel.active hsame ptr

/-- Where byte `j` goes in a ready copy that has come so far. -/
theorem CopyInv.next {j : Nat} {t : Loader σ} (h : CopyInv s phys j t)
    (hkernel : KernelPaging A 0 owned s.machine) (hframe : DataFrame owned s.machine phys)
    (hready : CopyReady s.machine phys size) (hj : j < size) (hrun : t.stopped = false) :
    (s.machine.denote (pagePtr phys (j / PAGE_SIZE)) = none ∧
        t.machine.denote (phys + UInt64.ofNat j) = none) ∨
      (s.machine.denote (pagePtr phys (j / PAGE_SIZE)) = some phys ∧
        t.machine.denote (phys + UInt64.ofNat j) =
          some (phys + UInt64.ofNat (j % PAGE_SIZE))) := by
  have haligned := hkernel.paged.aligned phys hframe.owned
  have hdiv : PAGE_SIZE * (j / PAGE_SIZE) ≤ j := Nat.mul_div_le j PAGE_SIZE
  rw [h.denote hkernel hframe, ptr_eq_pagePtr phys j,
    denote_page hkernel (pagePtr_aligned haligned _) (toNat_ofNat_mod_lt j)]
  cases hd : s.machine.denote (pagePtr phys (j / PAGE_SIZE)) with
  | none => exact Or.inl ⟨rfl, rfl⟩
  | some q =>
    -- The pages before this one did not fault.
    obtain rfl := hready (j / PAGE_SIZE) (by omega)
      (fun i hi => h.running hrun i (by
        have := Nat.mul_lt_mul_of_pos_left hi (show 0 < PAGE_SIZE by decide)
        omega)) q hd
    exact Or.inr ⟨rfl, rfl⟩

/-- Step lemma: one byte of a ready copy. -/
theorem CopyInv.byte {j : Nat} {t : Loader σ} (h : CopyInv s phys j t)
    (hkernel : KernelPaging A 0 owned s.machine) (hframe : DataFrame owned s.machine phys)
    (hready : CopyReady s.machine phys size) (hj : j < size) (hrun : t.stopped = false) :
    CopyInv s phys (j + 1) (copyByte elf phys offset j t) := by
  have haligned := hkernel.paged.aligned phys hframe.owned
  -- Either the pointer faults here, or the byte goes into the frame.
  rcases h.next hkernel hframe hready hj hrun with ⟨hnone, hd⟩ | ⟨hsome, hd⟩
  · rcases copyByte_cases elf phys offset j hrun with ⟨-, heq⟩ | ⟨q, hq, -⟩
    · rw [heq]
      refine ⟨h.machine, h.frame, h.stores, fun hstop => ?_, fun _ => ?_⟩
      · cases hstop
      · exact ⟨j / PAGE_SIZE, by have := Nat.mul_div_le j PAGE_SIZE; omega, hnone⟩
    · rw [hd] at hq
      cases hq
  · rcases copyByte_cases elf phys offset j hrun with ⟨hnone, -⟩ | ⟨q, hq, heq⟩
    · rw [hd] at hnone
      cases hnone
    · rw [hd] at hq
      obtain rfl := Option.some.inj hq
      have hin : InFrame phys (phys + UInt64.ofNat (j % PAGE_SIZE)) :=
        inFrame_add haligned (toNat_ofNat_mod_lt j)
      rw [heq]
      refine ⟨?_, fun x hx => ?_, fun st hst => ?_, fun _ k hk => ?_, fun hstop => ?_⟩
      · exact with_mem_congr h.machine _
      · refine (Mem.store8_ne _ _ x _ fun hxq => hx (hxq ▸ hin)).trans (h.frame x hx)
      · rcases List.mem_append.mp hst with hold | hnew
        · exact h.stores st hold
        · obtain rfl := List.mem_singleton.mp hnew
          exact Or.inr ⟨rfl, hin⟩
      · rcases page_before hk with hlt | rfl
        · exact h.running hrun k hlt
        · rw [hsome]
          simp
      · change t.stopped = true at hstop
        rw [hrun] at hstop
        cases hstop

variable (elf offset) in
/-- **A ready copy** stays in its frame. -/
theorem copyLoop_inv (hkernel : KernelPaging A 0 owned s.machine)
    (hframe : DataFrame owned s.machine phys) (hs : s.stopped = false)
    (hready : CopyReady s.machine phys size) :
    CopyInv s phys size (copyLoop elf phys offset size s) :=
  copyLoop_invariant (CopyInv s phys) (CopyInv.start hs) (fun _ _ _ h ht => h.stay ht)
    fun _ _ hj h hrun => h.byte hkernel hframe hready hj hrun

omit [PageAllocator σ] in
/-- A longer copy has all the stores of a shorter one. -/
theorem copyLoop_grows_le {j k : Nat} (hjk : j ≤ k) :
    (copyLoop elf phys offset j s).Grows (copyLoop elf phys offset k s) := by
  induction k with
  | zero =>
    rw [Nat.le_zero.mp hjk]
    exact Loader.Grows.refl _
  | succ k ih =>
    rcases Nat.eq_or_lt_of_le hjk with rfl | hlt
    · exact Loader.Grows.refl _
    · exact (ih (by omega)).trans (copyByte_grows elf phys offset k _)

/-- **A copy that is not ready** makes a store outside its frame. -/
theorem copyLoop_not_confined (hkernel : KernelPaging A 0 owned s.machine)
    (hframe : DataFrame owned s.machine phys) (hs : s.stopped = false)
    (hready : ¬ CopyReady s.machine phys size) :
    ¬ Confined (copyLoop elf phys offset size s) := by
  have haligned := hkernel.paged.aligned phys hframe.owned
  -- The first page that is mapped elsewhere, with no page before it missing.
  obtain ⟨k, ⟨hk, hbefore, q, hq, hne⟩, hmin⟩ : ∃ k, (PAGE_SIZE * k < size ∧
      (∀ i < k, s.machine.denote (pagePtr phys i) ≠ none) ∧
      ∃ q, s.machine.denote (pagePtr phys k) = some q ∧ q ≠ phys) ∧
      ∀ i < k, s.machine.denote (pagePtr phys i) = some phys := by
    classical
    have hex : ∃ k, PAGE_SIZE * k < size ∧
        (∀ i < k, s.machine.denote (pagePtr phys i) ≠ none) ∧
        ∃ q, s.machine.denote (pagePtr phys k) = some q ∧ q ≠ phys := by
      unfold CopyReady at hready
      push Not at hready
      exact hready
    refine ⟨Nat.find hex, Nat.find_spec hex, ?_⟩
    intro i hi
    obtain ⟨hlt, hbefore, -⟩ := Nat.find_spec hex
    by_contra hother
    obtain ⟨q, hq⟩ := Option.ne_none_iff_exists'.mp (hbefore i hi)
    refine Nat.find_min hex hi ⟨?_, fun i' hi' => hbefore i' (by omega), q, hq, fun hqp => ?_⟩
    · have := Nat.mul_lt_mul_of_pos_left hi (show 0 < PAGE_SIZE by decide)
      omega
    · exact hother (hqp ▸ hq)
  -- Up to that page the copy is ready and does not fault.
  have hready' : CopyReady s.machine phys (PAGE_SIZE * k) := by
    intro i hi _ q' hq'
    rw [hmin i (Nat.lt_of_mul_lt_mul_left hi)] at hq'
    exact (Option.some.inj hq').symm
  have hinv := copyLoop_inv elf offset hkernel hframe hs hready'
  have hrun : (copyLoop elf phys offset (PAGE_SIZE * k) s).stopped = false := by
    cases hst : (copyLoop elf phys offset (PAGE_SIZE * k) s).stopped with
    | false => rfl
    | true =>
      obtain ⟨i, hi, hnone⟩ := hinv.faulted hst
      rw [hmin i (Nat.lt_of_mul_lt_mul_left hi)] at hnone
      cases hnone
  have hd := hinv.denote hkernel hframe (phys + UInt64.ofNat (PAGE_SIZE * k))
  -- The first byte of that page goes to its own frame `q`.
  intro hconfined
  have hstore : (⟨phys, q⟩ : Store) ∈ (copyLoop elf phys offset (PAGE_SIZE * k + 1) s).stores := by
    show _ ∈ (copyByte elf phys offset (PAGE_SIZE * k)
      (copyLoop elf phys offset (PAGE_SIZE * k) s)).stores
    rcases copyByte_cases elf phys offset (PAGE_SIZE * k) hrun with ⟨hnone, -⟩ | ⟨q', hq', heq⟩
    · rw [hd] at hnone
      change s.machine.denote (pagePtr phys k) = none at hnone
      rw [hq] at hnone
      cases hnone
    · rw [hd] at hq'
      change s.machine.denote (pagePtr phys k) = some q' at hq'
      rw [hq] at hq'
      obtain rfl := Option.some.inj hq'
      rw [heq]
      exact List.mem_append_right _ (List.mem_singleton_self _)
  have hin : InFrame phys q := hconfined _ ((copyLoop_grows_le (by omega)).stores hstore)
  have hqa := denote_aligned hkernel (pagePtr_aligned haligned k) hq
  have hqq : InFrame q q := ⟨Nat.le_refl _, by unfold PAGE_SIZE; omega⟩
  exact hne (inFrame_unique hqa haligned hqq hin)

/-- **One copy** is confined exactly if it is ready. -/
theorem copyLoop_confined_iff (hkernel : KernelPaging A 0 owned s.machine)
    (hframe : DataFrame owned s.machine phys) (hs : s.stopped = false) (hconfined : Confined s) :
    Confined (copyLoop elf phys offset size s) ↔ CopyReady s.machine phys size := by
  constructor
  · intro h
    by_contra hready
    exact copyLoop_not_confined hkernel hframe hs hready h
  · intro hready st hst
    have hinv := copyLoop_inv elf offset hkernel hframe hs hready
    rcases hinv.stores st hst with hold | ⟨hframe', hin⟩
    · exact hconfined st hold
    · rw [hframe']
      exact hin

/-! ## Section 3: One round -/

variable {header : ELF_FILE_HEADER_T} {i : Nat}

/-- A section gets a data frame.  The data frames there were keep their
    contents, the other pages their translations. -/
structure PlacedKernel (A : AllocSpec σ) (owned owned' : List UInt64) (sh : ELF_SECTION_HEADER_T)
    (phys : UInt64) (m m' : Machine σ) : Prop where
  kernel  : KernelPaging A 0 owned' m'
  frame   : DataFrame owned' m' phys
  control : SameControl m m'
  data    : ∀ f, DataFrame owned m f →
    DataFrame owned' m' f ∧ f ≠ phys ∧ ∀ x, InFrame f x → m'.mem x = m.mem x
  views   : ∀ va, pageKey va ≠ pageKey sh.virtual_address →
    view m'.mem m'.pml4 va = view m.mem m.pml4 va

theorem Placed.kernel {sh : ELF_SECTION_HEADER_T} {s' : Loader σ} (h : Placed sh phys s s')
    (hkernel : KernelPaging A 0 owned s.machine) :
    ∃ owned', PlacedKernel A owned owned' sh phys s.machine s'.machine := by
  obtain ⟨m, hk, hm⟩ := h.mapped
  obtain ⟨hsame, hcontrol, hcases⟩ := kernel_kmalloc hkernel hk
  rcases hcases with ⟨h0, -⟩ | ⟨-, hunused, hkernel₁, hframe⟩
  · exact absurd h0 h.ne_zero
  · obtain ⟨owned', hkernel', hgrows, -, hviews⟩ := kernel_map_page hkernel₁ hm
    have htables := hkernel.paged.tables
    have hsame' := hsame.sameTables htables
    refine ⟨owned', hkernel', hframe.grows hgrows, hcontrol.trans hgrows.control, fun f hf => ?_,
      fun va hva => ?_⟩
    · have hne : f ≠ phys := fun heq => hunused (heq ▸ hf.owned)
      have hf₁ : DataFrame (phys :: owned) m f := by
        refine ⟨List.mem_cons_of_mem _ hf.owned, ?_⟩
        rw [hcontrol.pml4, reaches_sameTables htables hsame']
        exact hf.data
      refine ⟨hf₁.grows hgrows, hne, ?_⟩
      intro x hx
      rw [(hgrows.data f hf₁.owned hf₁.data).2 x hx, hsame f hf.owned x hx]
    · rw [hviews va hva, hcontrol.pml4]
      exact leafOf_sameTables htables hsame' _ rfl _

/-- What all rounds keep. -/
structure LoaderInv (A : AllocSpec σ) (s : Loader σ) : Prop where
  confined : Confined s
  kernel   : s.stopped = false → ∃ owned, KernelPaging A 0 owned s.machine

/-- The copy of section `i`, if it comes to one in state `s`, starts ready. -/
def SectionReady (elf : Image) (header : ELF_FILE_HEADER_T) (s : Loader σ) (i : Nat) : Prop :=
  s.stopped = false → ∀ phys s',
    placeSection (sectionAt elf header i) (s.record (sectionReads elf header i)) = (some phys, s') →
      CopyReady s'.machine phys (sectionAt elf header i).size.toNat

/-- The copy of section `i`, if it comes to one in state `s`, changes nothing
    but a frame that is not a table, and keeps the kernel's invariant. -/
def CopyKeeps (A : AllocSpec σ) (elf : Image) (header : ELF_FILE_HEADER_T) (s : Loader σ) (i : Nat) :
    Prop :=
  s.stopped = false → ∀ phys s',
    placeSection (sectionAt elf header i) (s.record (sectionReads elf header i)) = (some phys, s') →
      ∃ owned, KernelPaging A 0 owned s'.machine ∧ DataFrame owned s'.machine phys ∧
        KernelPaging A 0 owned (loadSection elf header s i).machine ∧
        ∀ x, ¬ InFrame phys x → (loadSection elf header s i).machine.mem x = s'.machine.mem x

variable (elf header i) in
/-- A round comes to a copy, or it stores nothing and keeps the invariant. -/
theorem loadSection_cases (hinv : LoaderInv A s) (hs : s.stopped = false) :
    (LoaderInv A (loadSection elf header s i) ∧ ∀ phys s',
      placeSection (sectionAt elf header i) (s.record (sectionReads elf header i)) ≠
        (some phys, s')) ∨
    ∃ phys s' owned,
      placeSection (sectionAt elf header i) (s.record (sectionReads elf header i)) =
        (some phys, s') ∧
      Placed (sectionAt elf header i) phys (s.record (sectionReads elf header i)) s' ∧
      loadSection elf header s i = copyLoop elf phys (sectionAt elf header i).offset
        (sectionAt elf header i).size.toNat s' ∧
      Confined s' ∧ s'.stopped = false ∧ KernelPaging A 0 owned s'.machine ∧
      DataFrame owned s'.machine phys := by
  obtain ⟨owned, hkernel⟩ := hinv.kernel hs
  cases hp : placeSection (sectionAt elf header i) (s.record (sectionReads elf header i)) with
  | mk o s' =>
    obtain ⟨-, hstores, hcases⟩ := placeSection_cases hp
    have hconfined : Confined s' := by
      unfold Confined
      rw [hstores]
      exact hinv.confined
    rw [loadSection_running hs hp]
    rcases hcases with ⟨-, rfl, hs'⟩ | ⟨-, rfl, hstop, -⟩ | ⟨-, rfl, hk, hs'⟩ | ⟨phys, rfl, hplaced⟩
    · subst hs'
      exact Or.inl ⟨⟨hconfined, fun _ => ⟨owned, hkernel⟩⟩, fun _ _ h => by simp at h⟩
    · refine Or.inl ⟨⟨hconfined, fun hrun => ?_⟩, fun _ _ h => by simp at h⟩
      exact absurd (hstop.symm.trans hrun) (by simp)
    · refine Or.inl ⟨⟨hconfined, fun _ => ⟨owned, ?_⟩⟩, fun _ _ h => by simp at h⟩
      obtain ⟨-, -, ⟨-, -, hkernel'⟩ | ⟨hne, -⟩⟩ := kernel_kmalloc hkernel hk
      · exact hkernel'
      · exact absurd rfl hne
    · obtain ⟨owned', hp'⟩ := hplaced.kernel hkernel
      exact Or.inr ⟨phys, s', owned', rfl, hplaced, rfl, hconfined, hplaced.stopped.trans hs,
        hp'.kernel, hp'.frame⟩

/-- Step lemma: a round is confined exactly if its copy is ready. -/
theorem loadSection_confined_iff (hinv : LoaderInv A s) :
    Confined (loadSection elf header s i) ↔ SectionReady elf header s i := by
  cases hs : s.stopped with
  | true =>
    rw [loadSection_stopped i hs]
    refine ⟨fun _ hrun => ?_, fun _ => hinv.confined⟩
    rw [hs] at hrun
    cases hrun
  | false =>
    rcases loadSection_cases elf header i hinv hs with
      ⟨hinv', hno⟩ | ⟨phys, s', owned, hp, -, heq, hconfined, hs', hkernel, hframe⟩
    · exact ⟨fun _ _ phys s' hp => absurd hp (hno phys s'), fun _ => hinv'.confined⟩
    · rw [heq, copyLoop_confined_iff hkernel hframe hs' hconfined]
      refine ⟨fun hready _ phys₁ s₁ hp₁ => ?_, fun h => h hs phys s' hp⟩
      rw [hp] at hp₁
      obtain ⟨h₁, rfl⟩ := Prod.mk.inj hp₁
      obtain rfl := Option.some.inj h₁
      exact hready

/-- Step lemma: a ready round changes one data frame. -/
theorem loadSection_keeps (hinv : LoaderInv A s) (hready : SectionReady elf header s i) :
    CopyKeeps A elf header s i := by
  intro hs phys₁ s₁ hp₁
  rcases loadSection_cases elf header i hinv hs with
    ⟨-, hno⟩ | ⟨phys, s', owned, hp, -, heq, -, hs', hkernel, hframe⟩
  · exact absurd hp₁ (hno phys₁ s₁)
  · have hcopy := copyLoop_inv elf (sectionAt elf header i).offset hkernel hframe
      hs' (hready hs phys s' hp)
    rw [hp] at hp₁
    obtain ⟨h₁, rfl⟩ := Prod.mk.inj hp₁
    obtain rfl := Option.some.inj h₁
    refine ⟨owned, hkernel, hframe, ?_, ?_⟩
    · rw [heq, hcopy.machine]
      exact kernel_store hkernel hframe hcopy.frame
    · rw [heq]
      exact hcopy.frame

/-- Step lemma: a confined round keeps the invariant. -/
theorem loadSection_inv (hinv : LoaderInv A s) (hconfined : Confined (loadSection elf header s i)) :
    LoaderInv A (loadSection elf header s i) := by
  have hready := (loadSection_confined_iff hinv).mp hconfined
  refine ⟨hconfined, ?_⟩
  intro _
  cases hs : s.stopped with
  | true =>
    rw [loadSection_stopped i hs] at *
    exact hinv.kernel (by assumption)
  | false =>
    rcases loadSection_cases elf header i hinv hs with
      ⟨hinv', -⟩ | ⟨phys, s', owned, hp, -⟩
    · exact hinv'.kernel (by assumption)
    · obtain ⟨owned', -, -, hkernel, -⟩ := loadSection_keeps hinv hready hs phys s' hp
      exact ⟨owned', hkernel⟩

/-! ## Section 4: The run -/

/-- The stores of a run are confined exactly if those of each round are. -/
theorem run_confined_iff (s : Loader σ) (is : List Nat) :
    Confined (run (loadSection elf header) s is) ↔
      Confined s ∧ Along (loadSection elf header)
        (fun t i => Confined (loadSection elf header t i)) s is := by
  induction is generalizing s with
  | nil => simp
  | cons i is ih =>
    rw [run_cons, ih, along_cons]
    refine ⟨fun h => ⟨fun st hst => ?_, h⟩, fun h => h.2⟩
    exact h.1 st ((loadSection_grows elf header s i).stores hst)

/-- **Run lemma**: the stores of a run are confined exactly if all its copies
    start ready. -/
theorem run_confined_iff_ready {is : List Nat} (hinv : LoaderInv A s) :
    Confined (run (loadSection elf header) s is) ↔
      Along (loadSection elf header) (SectionReady elf header) s is := by
  have hiff : Along (loadSection elf header) (fun t i => Confined (loadSection elf header t i)) s is ↔
      Along (loadSection elf header) (SectionReady elf header) s is :=
    Along.iff (L := fun _ _ => True) (LoaderInv A)
      (fun t i ht _ hconfined => loadSection_inv ht hconfined)
      (fun t i ht _ => loadSection_confined_iff ht) hinv (along_of_forall _ (fun _ _ _ => trivial) _)
  rw [run_confined_iff, hiff]
  exact and_iff_right hinv.confined

theorem loaderInv_start {machine : Machine σ} (reads : List UInt64)
    (hkernel : KernelPaging A 0 owned machine) : LoaderInv A ⟨machine, reads, [], false⟩ :=
  ⟨fun _ h => absurd h List.not_mem_nil, fun _ => ⟨owned, hkernel⟩⟩

/-- **Main theorem on stores**: on a kernel that runs on its own well-formed
    tables, all stores that `read_elf` makes go to the frames that `kmalloc`
    returned for their sections exactly if every copy of the run starts ready.
    And in such a run no copy changes a byte outside a data frame. -/
theorem confined_iff (A : AllocSpec σ) (owned : List UInt64) (elf : Image) (machine : Machine σ)
    (run : Bool) (hkernel : KernelPaging A 0 owned machine) :
    (Confined (read_elf elf run machine).loader ↔ AlongSections elf machine (SectionReady elf)) ∧
      (Confined (read_elf elf run machine).loader → AlongSections elf machine (CopyKeeps A elf)) := by
  have hinv : LoaderInv A ⟨machine, (parse_elf_header elf).reads, [], false⟩ :=
    loaderInv_start _ hkernel
  cases hparse : (parse_elf_header elf).value with
  | none =>
    rw [read_elf_invalid run hparse]
    refine ⟨⟨fun _ header h => ?_, fun _ => hinv.confined⟩, fun _ header h => ?_⟩ <;>
      rw [hparse] at h <;> cases h
  | some header =>
    have hiff : Confined (read_elf elf run machine).loader ↔
        AlongSections elf machine (SectionReady elf) := by
      rw [read_elf_loader run hparse, run_confined_iff_ready hinv]
      refine ⟨fun h header' h' => ?_, fun h => h header hparse⟩
      obtain rfl := Option.some.inj (hparse.symm.trans h')
      exact h
    -- Along a run with ready copies the invariant holds before each round.
    exact ⟨hiff, fun h header' h' => Along.imp (LoaderInv A)
      (fun t i ht hready => loadSection_inv ht ((loadSection_confined_iff ht).mpr hready))
      (fun t i ht hready => loadSection_keeps ht hready) hinv (hiff.mp h header' h')⟩

end confinement

/-! ## Section 5: Two images -/

/-- With four promised frames a section gets the next answer as its frame and
    is mapped to it. -/
theorem placeSection_take {owned rest : List UInt64} {sh : ELF_SECTION_HEADER_T} {phys : UInt64}
    {s : Loader (List UInt64)} (hkernel : KernelPaging scriptSpec 4 owned s.machine)
    (halloc : s.machine.alloc = phys :: rest) (hne : phys ≠ 0) (hrest : 3 ≤ rest.length)
    (hl : sh.Loads) :
    ∃ s' owned', placeSection sh s = (some phys, s') ∧ s'.stopped = s.stopped ∧
      KernelPaging scriptSpec 0 owned' s'.machine ∧ DataFrame owned' s'.machine phys ∧
      s'.machine.hhdm = s.machine.hhdm ∧
      view s'.machine.mem s'.machine.pml4 sh.virtual_address = leafEntry (pageEntry phys 0x7) ∧
      ∀ va, pageKey va ≠ pageKey sh.virtual_address →
        view s'.machine.mem s'.machine.pml4 va = view s.machine.mem s.machine.pml4 va := by
  have hk : s.machine.kmalloc = some (phys, { s.machine with alloc := rest }) := by
    unfold Machine.kmalloc
    rw [halloc]
    rfl
  obtain ⟨hsame, hcontrol, ⟨h0, -⟩ | ⟨-, -, hkernel₁, hframe⟩⟩ := kernel_kmalloc hkernel hk
  · exact absurd h0 hne
  · obtain ⟨m', hm, -⟩ : ∃ m', map_page sh.virtual_address phys 0x7
        { s.machine with alloc := rest } = some m' ∧ scriptSpec.Supply 0 m'.alloc :=
      map_page_total hrest
    obtain ⟨owned', hkernel', hgrows, hview, hviews⟩ := kernel_map_page hkernel₁ hm
    exact ⟨_, owned', placeSection_placed hl hne hk hm, rfl, hkernel', hframe.grows hgrows,
      hgrows.control.hhdm, hview (by simp), hviews⟩

/-- An image with one section of four bytes at the address 0x400000, which is
    also its entry point. -/
def onePageImage : Image :=
  imageOf [(0, 0x7F), (1, 0x45), (2, 0x4C), (3, 0x46), (0x04, 2), (0x05, 1), (0x10, 2),
    (0x12, 0x3E), (0x1A, 0x40), (0x28, 0x40), (0x3A, 64), (0x3C, 1), (0x44, 1), (0x48, 2),
    (0x52, 0x40), (0x59, 1), (0x60, 4), (0x100, 0x31), (0x101, 0xC0), (0x102, 0xC3), (0x103, 0x90)]

def onePageHeader : ELF_FILE_HEADER_T :=
  ⟨[0x7F, 0x45, 0x4C, 0x46, 0], 2, 1, 0, 0, 0, 2, 0x3E, 0x400000, 0x40, 64, 1⟩

theorem onePageImage_parse : (parse_elf_header onePageImage).value = some onePageHeader := by decide

theorem onePageImage_section :
    sectionAt onePageImage onePageHeader 0 = ⟨0, 1, 0x400000, 0x100, 4⟩ := by decide

/-- The section gets the frame at its address if that is the next free one,
    and the pointer to it then leads there. -/
theorem onePageImage_place {owned rest : List UInt64} {s : Loader (List UInt64)}
    (hkernel : KernelPaging scriptSpec 4 owned s.machine)
    (hhdm : s.machine.hhdm = 0xFFFF800000000000)
    (halloc : s.machine.alloc = 0x400000 :: rest) (hrest : 3 ≤ rest.length) :
    ∃ s' owned', placeSection (sectionAt onePageImage onePageHeader 0) s = (some 0x400000, s') ∧
      s'.stopped = s.stopped ∧ KernelPaging scriptSpec 0 owned' s'.machine ∧
      DataFrame owned' s'.machine 0x400000 ∧ s'.machine.hhdm = 0xFFFF800000000000 ∧
      view s'.machine.mem s'.machine.pml4 0x400000 = leafEntry (pageEntry 0x400000 0x7) ∧
      s'.machine.denote 0x400000 = some 0x400000 ∧
      ∀ va, pageKey va ≠ pageKey 0x400000 →
        view s'.machine.mem s'.machine.pml4 va = view s.machine.mem s.machine.pml4 va := by
  have hl : ELF_SECTION_HEADER_T.Loads ⟨0, 1, 0x400000, 0x100, 4⟩ := by decide
  rw [onePageImage_section]
  obtain ⟨s', owned', hplace, hs, hkernel', hframe, hhdm', hview, hviews⟩ :=
    placeSection_take hkernel halloc (by decide) hrest hl
  rw [hhdm] at hhdm'
  exact ⟨s', owned', hplace, hs, hkernel', hframe, hhdm', hview, denote_of_view hkernel' (by decide)
    (by decide) (by rw [hhdm']; decide) (by decide) (by decide) hview, hviews⟩

/-- The copy has one page, which is page 0. -/
theorem onePageImage_page {k : Nat}
    (hk : PAGE_SIZE * k < (sectionAt onePageImage onePageHeader 0).size.toNat) : k = 0 := by
  rw [onePageImage_section] at hk
  change PAGE_SIZE * k < 4 at hk
  unfold PAGE_SIZE at hk
  omega

/-- So its pointer stays in the frame that the page is mapped to. -/
theorem onePageImage_pointer {m : Machine (List UInt64)} (hd : m.denote 0x400000 = some 0x400000)
    {k : Nat} (hk : PAGE_SIZE * k < (sectionAt onePageImage onePageHeader 0).size.toNat) :
    m.denote (pagePtr 0x400000 k) = some 0x400000 := by
  obtain rfl := onePageImage_page hk
  exact hd

/-- A kernel with the frame at the section's address, and three for tables. -/
theorem onePageImage_kernel {n : Nat} : KernelPaging scriptSpec n [0x1000]
    (emptyKernel [0x400000, 0x2000, 0x3000, 0x4000]) :=
  emptyKernel_paging (freshScript_of_all (by decide) (by decide))

theorem onePageHeader_sections :
    List.range onePageHeader.section_header_entry_count.toNat = [0] := by decide

/-- If the next free frame is the one at the section's address, the copy
    starts ready. -/
theorem onePageImage_ready {owned rest : List UInt64} {s : Loader (List UInt64)}
    (hkernel : KernelPaging scriptSpec 4 owned s.machine)
    (hhdm : s.machine.hhdm = 0xFFFF800000000000)
    (halloc : s.machine.alloc = 0x400000 :: rest) (hrest : 3 ≤ rest.length) :
    SectionReady onePageImage onePageHeader s 0 := by
  intro _ phys s₁ hplace k hk _ q hq
  obtain ⟨s', owned', hplace', -, -, -, -, -, hd, -⟩ := onePageImage_place
    (s := s.record (sectionReads onePageImage onePageHeader 0)) hkernel hhdm halloc hrest
  obtain ⟨h₁, rfl⟩ := Prod.mk.inj (hplace'.symm.trans hplace)
  obtain rfl := Option.some.inj h₁
  obtain rfl := onePageImage_page hk
  exact (Option.some.inj (hd.symm.trans hq)).symm

/-- So it is confined. -/
theorem onePageImage_confined :
    Confined (read_elf onePageImage false
      (emptyKernel [0x400000, 0x2000, 0x3000, 0x4000])).loader := by
  refine (confined_iff scriptSpec [0x1000] onePageImage _ false onePageImage_kernel).1.mpr
    fun header h => ?_
  obtain rfl := Option.some.inj (onePageImage_parse.symm.trans h)
  exact ⟨onePageImage_ready onePageImage_kernel rfl rfl (by decide), trivial⟩

/-- An image with one section of 4097 bytes for the address 0x4000. -/
def oversizedImage : Image :=
  imageOf [(0, 0x7F), (1, 0x45), (2, 0x4C), (3, 0x46), (0x29, 0x11), (0x3A, 64), (0x3C, 1),
    (0x1104, 1), (0x1111, 0x40), (0x1120, 1), (0x1121, 0x10)]

/-- With the page 0x5000 mapped, and 0x4000 the next free frame, the last byte
    of the section goes to another frame. -/
theorem oversizedImage_not_confined :
    ∃ machine, map_page 0x5000 0x5000 0x3
        (emptyKernel [0x6000, 0x7000, 0x8000, 0x4000, 0x9000, 0xA000, 0xB000]) = some machine ∧
      (∃ owned, KernelPaging scriptSpec 0 owned machine) ∧
      ¬ Confined (read_elf oversizedImage false machine).loader := by
  have hkernel₀ : KernelPaging scriptSpec 7 [0x1000]
      (emptyKernel [0x6000, 0x7000, 0x8000, 0x4000, 0x9000, 0xA000, 0xB000]) :=
    emptyKernel_paging (freshScript_of_all (by decide) (by decide))
  -- The page 0x5000 is mapped to itself, which takes three frames.
  obtain ⟨m₁, hm₁, halloc₁⟩ := map_page_take 0x5000 0x5000 0x3 (s := emptyKernel
      [0x6000, 0x7000, 0x8000, 0x4000, 0x9000, 0xA000, 0xB000]) (by decide) (fun _ => rfl) rfl
    (by decide) (by decide) (by decide)
  obtain ⟨owned₁, hkernel₁, hgrows₁, hview₁, -⟩ := kernel_map_page hkernel₀ hm₁
  have hkernel₁' : KernelPaging scriptSpec 0 owned₁ m₁ :=
    ⟨hkernel₁.paged.mono (by decide), hkernel₁.active, hkernel₁.hhdm⟩
  refine ⟨m₁, hm₁, ⟨owned₁, hkernel₁'⟩, ?_⟩
  have hparse : (parse_elf_header oversizedImage).value = some
      ⟨[0x7F, 0x45, 0x4C, 0x46, 0], 0, 0, 0, 0, 0, 0, 0, 0, 0x1100, 64, 1⟩ := by decide
  have hsh : sectionAt oversizedImage
      ⟨[0x7F, 0x45, 0x4C, 0x46, 0], 0, 0, 0, 0, 0, 0, 0, 0, 0x1100, 64, 1⟩ 0 =
        ⟨0, 1, 0x4000, 0, 0x1001⟩ := by decide
  rw [read_elf_loader false hparse, run_confined_iff_ready (loaderInv_start _ hkernel₁')]
  intro halong
  have hready := halong.1 rfl
  rw [hsh] at hready
  have hl : ELF_SECTION_HEADER_T.Loads ⟨0, 1, 0x4000, 0, 0x1001⟩ := by decide
  obtain ⟨s', owned', hplace, -, hkernel', -, hhdm', hview', hviews'⟩ := placeSection_take
    (s := Loader.record ⟨m₁, _, [], false⟩ _) hkernel₁ halloc₁ (by decide) (by decide) hl
  have hhdm : s'.machine.hhdm = 0xFFFF800000000000 := hhdm'.trans hgrows₁.control.hhdm
  -- Both pages of the copy are mapped to themselves.
  have hd₄ : s'.machine.denote 0x4000 = some 0x4000 := denote_of_view hkernel' (by decide)
    (by decide) (by rw [hhdm]; decide) (by decide) (by decide) hview'
  have hd₅ : s'.machine.denote 0x5000 = some 0x5000 := denote_of_view hkernel' (by decide)
    (by decide) (by rw [hhdm]; decide) (by decide) (by decide)
    ((hviews' 0x5000 (by decide)).trans (hview₁ (by decide)))
  have heq := hready 0x4000 s' hplace 1 (by decide) (fun i hi => ?_) 0x5000 hd₅
  · exact absurd heq (by decide)
  · obtain rfl : i = 0 := by omega
    show s'.machine.denote 0x4000 ≠ none
    rw [hd₄]
    simp

end ArgaldOS
