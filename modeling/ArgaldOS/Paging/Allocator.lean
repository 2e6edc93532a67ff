import ArgaldOS.Paging.Model
import ArgaldOS.Pmm.Safety

/-! # What the paging code needs of `kmalloc`

    The page-table code never looks inside the allocator, so it is verified
    against a specification: `AllocSpec` is an invariant that relates the
    allocator, memory and the frames it has handed out, with the promise that
    a non-NULL answer is a fresh, aligned frame and that handed-out frames are
    left alone.  A number counts how many answers are promised not to be NULL.

    Two allocators meet it:

    * `pmmSpec`: the kernel's bitmap allocator;
    * `scriptSpec`: an arbitrary list of answers.
-/

namespace ArgaldOS

/-! ## Section 1: The specification -/

/-- A frame that can serve as a page table: not NULL, aligned and below the
    physical address `top`, which an entry can hold. -/
structure GoodFrame (top : Nat) (f : UInt64) : Prop where
  ne_zero : f ≠ 0
  aligned : PageAligned f
  below   : f.toNat + PAGE_SIZE ≤ top

/-- Memory is unchanged inside the given frames. -/
def SameInside (owned : List UInt64) (m m' : Mem) : Prop :=
  ∀ f ∈ owned, ∀ x, InFrame f x → m' x = m x

/-- Memory is unchanged outside the given frames. -/
def SameOutside (owned : List UInt64) (m m' : Mem) : Prop :=
  ∀ x, (∀ f ∈ owned, ¬ InFrame f x) → m' x = m x

theorem SameInside.trans {owned : List UInt64} {m m' m'' : Mem} (h : SameInside owned m m')
    (h' : SameInside owned m' m'') : SameInside owned m m'' :=
  fun f hf x hx => (h' f hf x hx).trans (h f hf x hx)

theorem SameOutside.trans {owned : List UInt64} {m m' m'' : Mem} (h : SameOutside owned m m')
    (h' : SameOutside owned m' m'') : SameOutside owned m m'' :=
  fun x hx => (h' x hx).trans (h x hx)

theorem SameOutside.mono {owned owned' : List UInt64} {m m' : Mem} (hsub : owned ⊆ owned')
    (h : SameOutside owned m m') : SameOutside owned' m m' :=
  fun x hx => h x fun f hf => hx f (hsub hf)

/-- An allocator invariant.  `Inv n hhdm a m owned` says that the allocator in
    state `a` with memory `m` has handed out the frames `owned` and that its
    next `n` answers are not NULL; `Supply n a` that it answers `n` times. -/
structure AllocSpec (σ : Type) [PageAllocator σ] where
  top    : Nat
  Inv    : Nat → UInt64 → σ → Mem → List UInt64 → Prop
  Supply : Nat → σ → Prop
  top_le : top ≤ 2 ^ 52
  /-- A promise of more answers is a promise of fewer. -/
  mono   : ∀ {n hhdm a m owned}, Inv (n + 1) hhdm a m owned → Inv n hhdm a m owned
  /-- Only the owners write to the frames that were handed out. -/
  stable : ∀ {n hhdm a m m' owned},
    Inv n hhdm a m owned → SameOutside owned m m' → Inv n hhdm a m' owned
  null   : ∀ {n hhdm a m owned a' m'}, Inv n hhdm a m owned →
    PageAllocator.kmalloc hhdm a m = some (0, a', m') →
      n = 0 ∧ Inv 0 hhdm a' m' owned ∧ SameInside owned m m'
  fresh  : ∀ {n hhdm a m owned f a' m'}, Inv n hhdm a m owned →
    PageAllocator.kmalloc hhdm a m = some (f, a', m') → f ≠ 0 →
      GoodFrame top f ∧ f ∉ owned ∧ Inv (n - 1) hhdm a' m' (f :: owned) ∧ SameInside owned m m'
  supply : ∀ {n a} (hhdm m), Supply (n + 1) a →
    ∃ f a' m', PageAllocator.kmalloc hhdm a m = some (f, a', m') ∧ Supply n a'
  supply_mono : ∀ {n a}, Supply (n + 1) a → Supply n a

section spec
variable {σ : Type} [PageAllocator σ] (A : AllocSpec σ)

theorem AllocSpec.mono_le {n k : Nat} {hhdm : UInt64} {a : σ} {m : Mem} {owned : List UInt64}
    (hnk : n ≤ k) (h : A.Inv k hhdm a m owned) : A.Inv n hhdm a m owned := by
  induction k with
  | zero => rwa [Nat.le_zero.mp hnk]
  | succ k ih =>
    rcases Nat.eq_or_lt_of_le hnk with rfl | hlt
    · exact h
    · exact ih (by omega) (A.mono h)

theorem AllocSpec.supply_mono_le {n k : Nat} {a : σ} (hnk : n ≤ k) (h : A.Supply k a) :
    A.Supply n a := by
  induction k with
  | zero => rwa [Nat.le_zero.mp hnk]
  | succ k ih =>
    rcases Nat.eq_or_lt_of_le hnk with rfl | hlt
    · exact h
    · exact ih (by omega) (A.supply_mono h)

end spec

/-! ## Section 2: The kernel's allocator -/

/-- The bitmap allocator of a region: the bitmap represents the frames handed
    out, and `n` more are clear. -/
structure PmmRoom (r : Region) (n : Nat) (ls : largestSection) (m : Mem) (owned : List UInt64) :
    Prop where
  recorded : r.Recorded ls
  inv      : PmmInv r { mem := m, live := owned }
  room     : 0 < n → owned.length + r.pages + n ≤ r.frames

section pmm
variable {r : Region} {n : Nat} {ls : largestSection} {m m' : Mem} {owned : List UInt64}

/-- Writing outside the bitmap keeps the allocator's invariant. -/
theorem pmmRoom_of_bitmap (h : PmmRoom r n ls m owned) (hbitmap : ∀ x, r.InBitmap x → m' x = m x) :
    PmmRoom r n ls m' owned := by
  refine ⟨h.recorded, ⟨fun f hf => ?_, h.inv.frame, h.inv.nodup⟩, h.room⟩
  show r.bit m' f = 1 ↔ _
  rw [Region.bit_congr hbitmap hf]
  exact h.inv.bits f hf

/-- The bitmap does not lie in the frames handed out, so writing there keeps
    the allocator's invariant. -/
theorem pmmRoom_stable (hr : r.Fits) (h : PmmRoom r n ls m owned) (hout : SameOutside owned m m') :
    PmmRoom r n ls m' owned := by
  refine pmmRoom_of_bitmap h fun x hx => hout x fun f hf hfx => ?_
  obtain ⟨g, -, hg, rfl⟩ := h.inv.frame f hf
  exact Region.not_inBitmap_of_inFrame hr hg hfx hx

/-- `kmalloc` writes to the bitmap only. -/
theorem kmalloc_sameInside (hr : r.Fits) (hhdm : UInt64) (h : PmmRoom r n ls m owned) :
    SameInside owned m (kmalloc hhdm ls m).2 := by
  intro f hf x hx
  obtain ⟨g, -, hg, rfl⟩ := h.inv.frame f hf
  rcases kmalloc_cases hhdm m h.recorded with ⟨k, hk, -, -, heq⟩ | ⟨-, heq⟩
  · rw [heq]
    exact Region.writeBit_frame m true hk (Region.not_inBitmap_of_inFrame hr hg hx)
  · rw [heq]

/-- A NULL answer means that no frame is left. -/
theorem pmmRoom_null (hr : r.Fits) (hhdm : UInt64) (h : PmmRoom r n ls m owned)
    (hnull : (kmalloc hhdm ls m).1 = 0) :
    n = 0 ∧ PmmRoom r 0 ls (kmalloc hhdm ls m).2 owned := by
  rcases kmalloc_cases hhdm m h.recorded with ⟨k, hk, -, -, heq⟩ | ⟨hfull, heq⟩
  · rw [heq] at hnull
    exact absurd hnull (Region.addr_ne_zero hr hk)
  -- The scan found every bit set, so all frames are handed out.
  · have hroom : ¬ owned.length + r.pages < r.frames := by
      rw [← exists_clear_iff h.inv (Nat.le_refl _) h.inv.frame]
      intro hclear
      obtain ⟨g, hgp, hg, hgl⟩ := hclear
      rcases (h.inv.bits g hg).mp (hfull g hg) with hlt | hlive
      · omega
      · exact hgl hlive
    have hn : n = 0 := by
      by_contra hne
      have := h.room (by omega)
      omega
    refine ⟨hn, ?_⟩
    rw [heq]
    exact ⟨h.recorded, h.inv, fun h0 => absurd h0 (Nat.lt_irrefl 0)⟩

/-- Physical addresses below the last frame that the bitmap has a bit for. -/
def Region.top (r : Region) : Nat := r.base + r.reserved + 4096 * r.frames

/-- A non-NULL answer is a frame that was not handed out before. -/
theorem pmmRoom_fresh (hr : r.Fits) (halign : r.base % PAGE_SIZE = 0) (hhdm : UInt64)
    (h : PmmRoom r n ls m owned) (hne : (kmalloc hhdm ls m).1 ≠ 0) :
    GoodFrame r.top (kmalloc hhdm ls m).1 ∧ (kmalloc hhdm ls m).1 ∉ owned ∧
      PmmRoom r (n - 1) ls (kmalloc hhdm ls m).2 ((kmalloc hhdm ls m).1 :: owned) := by
  have hkeep := pmmInv_kmalloc hhdm hr h.recorded h.inv
  -- A step of the allocator's own runs, which keeps its invariant.
  have hstep : pmmStep hhdm ls { mem := m, live := owned } .kmalloc =
      { mem := (kmalloc hhdm ls m).2, live := (kmalloc hhdm ls m).1 :: owned } := by
    show PmmState.mk _ _ = _
    rw [if_neg hne]
  rw [hstep] at hkeep
  have hnot : (kmalloc hhdm ls m).1 ∉ owned := (List.nodup_cons.mp hkeep.nodup).1
  obtain ⟨f, -, hf, heq⟩ := hkeep.frame _ List.mem_cons_self
  have haddr := Region.toNat_addr hr hf
  refine ⟨⟨hne, ?_, ?_⟩, hnot, ⟨h.recorded, hkeep, ?_⟩⟩
  · rw [heq]
    unfold Region.reserved at haddr
    unfold PAGE_SIZE at halign
    unfold PageAligned PAGE_SIZE
    omega
  · rw [heq]
    unfold Region.top PAGE_SIZE
    omega
  · intro hpos
    have := h.room (by omega)
    simp only [List.length_cons]
    omega

end pmm

/-- The kernel's allocator meets the specification when its region is aligned
    and the end of its bitmap is an `int`. -/
def pmmSpec (r : Region) (hr : r.Fits) (halign : r.base % PAGE_SIZE = 0) :
    AllocSpec largestSection where
  top    := r.top
  Inv    := fun n _ ls m owned => PmmRoom r n ls m owned
  Supply := fun _ _ => True
  top_le := by
    have h1 := r.frames_lt
    unfold Region.Fits at hr
    unfold Region.top
    omega
  mono   := by
    intro n hhdm a m owned h
    refine ⟨h.recorded, h.inv, fun _ => ?_⟩
    have := h.room (by omega)
    omega
  stable := fun h hout => pmmRoom_stable hr h hout
  null   := by
    intro n hhdm ls m owned a' m' h hk
    obtain ⟨h0, rfl, rfl⟩ : (kmalloc hhdm ls m).1 = 0 ∧ ls = a' ∧ (kmalloc hhdm ls m).2 = m' := by
      simpa [PageAllocator.kmalloc] using hk
    obtain ⟨hn, hinv⟩ := pmmRoom_null hr hhdm h h0
    exact ⟨hn, hinv, kmalloc_sameInside hr hhdm h⟩
  fresh  := by
    intro n hhdm ls m owned f a' m' h hk hf
    obtain ⟨rfl, rfl, rfl⟩ : (kmalloc hhdm ls m).1 = f ∧ ls = a' ∧ (kmalloc hhdm ls m).2 = m' := by
      simpa [PageAllocator.kmalloc] using hk
    obtain ⟨hgood, hnot, hinv⟩ := pmmRoom_fresh hr halign hhdm h hf
    exact ⟨hgood, hnot, hinv, kmalloc_sameInside hr hhdm h⟩
  supply := fun _ _ _ => ⟨_, _, _, rfl, trivial⟩
  supply_mono := fun _ => trivial

/-- After `initPMM` the kernel's allocator has all its frames. -/
theorem pmmSpec_boot {memmapEntries : List limine_memmap_entry} {r : Region} {hr : r.Fits}
    {halign : r.base % PAGE_SIZE = 0} (hhdm : UInt64) (mem : Mem)
    (hbase : (selectRegion memmapEntries).1.toNat = r.base)
    (hpages : (bitmapPages (selectRegion memmapEntries).2).toNat = r.pages) :
    (pmmSpec r hr halign).Inv (r.frames - r.pages) hhdm (initPMM hhdm memmapEntries mem).1
      (initPMM hhdm memmapEntries mem).2 [] := by
  refine ⟨(initPMM_spec hhdm mem hbase hpages).1, pmmInv_boot mem hbase hpages, ?_⟩
  intro _
  simp only [List.length_nil]
  unfold Region.frames Region.reserved
  omega

/-! ## Section 3: Scripts of answers -/

/-- A list of answers, none of which repeats a frame. -/
structure FreshScript (n : Nat) (answers owned : List UInt64) : Prop where
  good     : ∀ f ∈ answers, f ≠ 0 → GoodFrame (2 ^ 52) f
  distinct : (answers.filter (· ≠ 0)).Nodup
  unused   : ∀ f ∈ answers, f ≠ 0 → f ∉ owned
  promised : ∀ f ∈ answers.take n, f ≠ 0

/-- A script of distinct frames, by evaluation. -/
theorem freshScript_of_all {n : Nat} {answers owned : List UInt64}
    (hgood : (answers.all fun f => decide
      (f ≠ 0 ∧ PageAligned f ∧ f.toNat + PAGE_SIZE ≤ 2 ^ 52 ∧ f ∉ owned)) = true)
    (hdistinct : (answers.filter (· ≠ 0)).Nodup) : FreshScript n answers owned := by
  have hall (f : UInt64) (hf : f ∈ answers) := of_decide_eq_true (List.all_eq_true.mp hgood f hf)
  exact ⟨fun f hf _ => ⟨(hall f hf).1, (hall f hf).2.1, (hall f hf).2.2.1⟩, hdistinct,
    fun f hf _ => (hall f hf).2.2.2, fun f hf => (hall f (List.mem_of_mem_take hf)).1⟩

/-- A script with NULL among the answers, by evaluation. -/
theorem freshScript_of_all_nonzero {answers owned : List UInt64}
    (hgood : (answers.all fun f => decide
      (f = 0 ∨ PageAligned f ∧ f.toNat + PAGE_SIZE ≤ 2 ^ 52 ∧ f ∉ owned)) = true)
    (hdistinct : (answers.filter (· ≠ 0)).Nodup) : FreshScript 0 answers owned := by
  have hall (f : UInt64) (hf : f ∈ answers) (hne : f ≠ 0) :=
    (of_decide_eq_true (List.all_eq_true.mp hgood f hf)).resolve_left hne
  exact ⟨fun f hf hne => ⟨hne, (hall f hf hne).1, (hall f hf hne).2.1⟩, hdistinct,
    fun f hf hne => (hall f hf hne).2.2, by simp⟩

/-- Any such list meets the specification. -/
def scriptSpec : AllocSpec (List UInt64) where
  top    := 2 ^ 52
  Inv    := fun n _ answers _ owned => FreshScript n answers owned
  Supply := fun n answers => n ≤ answers.length
  top_le := Nat.le_refl _
  mono   := by
    intro n hhdm answers m owned h
    refine ⟨h.good, h.distinct, h.unused, fun f hf => h.promised f ?_⟩
    exact List.take_subset_take_left answers (by omega) hf
  stable := fun h _ => h
  null   := by
    intro n hhdm answers m owned a' m' h hk
    cases answers with
    | nil => cases hk
    | cons f answers =>
      obtain ⟨rfl, rfl, rfl⟩ : f = 0 ∧ answers = a' ∧ m = m' := by
        simpa [PageAllocator.kmalloc] using hk
      have hn : n = 0 := by
        by_contra hne
        obtain ⟨k, rfl⟩ := Nat.exists_eq_succ_of_ne_zero hne
        exact h.promised 0 (by simp) rfl
      refine ⟨hn, ⟨?_, ?_, ?_, ?_⟩, fun _ _ _ _ => rfl⟩
      · exact fun f hf => h.good f (List.mem_cons_of_mem _ hf)
      · simpa using h.distinct
      · exact fun f hf => h.unused f (List.mem_cons_of_mem _ hf)
      · intro f hf
        simp at hf
  fresh  := by
    intro n hhdm answers m owned f a' m' h hk hf
    cases answers with
    | nil => cases hk
    | cons g answers =>
      obtain ⟨rfl, rfl, rfl⟩ : g = f ∧ answers = a' ∧ m = m' := by
        simpa [PageAllocator.kmalloc] using hk
      have hnodup : (g :: answers.filter (· ≠ 0)).Nodup := by
        have := h.distinct
        rwa [List.filter_cons_of_pos (by simpa using hf)] at this
      -- The answers that are left do not repeat this one.
      obtain ⟨hnew, hrest⟩ := List.nodup_cons.mp hnodup
      refine ⟨h.good g List.mem_cons_self hf, h.unused g List.mem_cons_self hf,
        ⟨?_, hrest, ?_, ?_⟩, fun _ _ _ _ => rfl⟩
      · exact fun f hf => h.good f (List.mem_cons_of_mem _ hf)
      · intro x hx hx0 hmem
        rcases List.mem_cons.mp hmem with rfl | hmem
        · exact hnew (List.mem_filter.mpr ⟨hx, by simpa using hx0⟩)
        · exact h.unused x (List.mem_cons_of_mem _ hx) hx0 hmem
      · intro x hx
        cases n with
        | zero => simp at hx
        | succ k => exact h.promised x (by simpa using Or.inr hx)
  supply := by
    intro n answers hhdm m h
    cases answers with
    | nil => simp at h
    | cons f answers => exact ⟨f, answers, m, rfl, by simpa using h⟩
  supply_mono := fun h => Nat.le_of_succ_le h

end ArgaldOS
