import ArgaldOS.Pmm.Model

/-! # Paging (`kernel/paging.c`)

    Four-level page tables, built with two walkers that allocate missing
    tables on demand: `get_next_table`, used by `map_page` and `unmap_page`,
    and the block repeated in `map_range` and open-coded ten times in
    `init_paging` (`ensure_table`, `map_leaf`).  The tables live in physical
    memory and are read and written through the direct map.  `walk` is the
    translation the hardware does, with large pages and the 52-bit physical
    address of an entry.

    A function returns `none` when it never returns to its caller: a loop
    without end, a page fault, or a call that the allocator never answers.
    `printk` and the reads that `init_paging` makes only to print them are
    left out.
-/

namespace ArgaldOS

/-! ## Section 1: Page tables -/

def PAGE_PRESENT : UInt64 := 0x1
def PAGE_RW : UInt64 := 0x2
def PAGE_USER : UInt64 := 0x4

/-- `MAX_EARLY_PAGE_TABLES`. -/
def MAX_EARLY_PAGE_TABLES : Nat := 256

/-- `(vaddr >> shift) & 0x1FF`. -/
def tableIndex (shift vaddr : UInt64) : Fin 512 :=
  ⟨((vaddr >>> shift) &&& 0x1FF).toNat, by
    have h := Words.toNat_and_mask (vaddr >>> shift) 0x1FF 9 rfl
    omega⟩

def pml4_idx (vaddr : UInt64) : Fin 512 := tableIndex 39 vaddr
def pdpt_idx (vaddr : UInt64) : Fin 512 := tableIndex 30 vaddr
def pd_idx (vaddr : UInt64) : Fin 512 := tableIndex 21 vaddr
def pt_idx (vaddr : UInt64) : Fin 512 := tableIndex 12 vaddr

/-! ## Section 2: The hardware walk -/

/-- Bits 51..12 of an entry: the frame it points to. -/
def frameMask : UInt64 := 0x000FFFFFFFFFF000

/-- The page-size bit of an entry of the second or third level. -/
def PAGE_PS : UInt64 := 0x80

/-- The frame and the flags of the translation of `vaddr`, `none` on a page
    fault.  A page-directory entry with the page-size bit ends the walk: the
    frame is then one of the large page. -/
def walk (mem : Mem) (cr3 vaddr : UInt64) : Option (UInt64 × UInt64) :=
  let e4 := mem.entry (cr3 &&& frameMask) (pml4_idx vaddr)
  if e4 &&& PAGE_PRESENT = 0 then none else
  let e3 := mem.entry (e4 &&& frameMask) (pdpt_idx vaddr)
  if e3 &&& PAGE_PRESENT = 0 then none else
  if e3 &&& PAGE_PS ≠ 0 then
    some ((e3 &&& 0x000FFFFFC0000000) ||| (vaddr &&& 0x3FFFF000), e3 &&& 0xFFF)
  else
  let e2 := mem.entry (e3 &&& frameMask) (pd_idx vaddr)
  if e2 &&& PAGE_PRESENT = 0 then none else
  if e2 &&& PAGE_PS ≠ 0 then
    some ((e2 &&& 0x000FFFFFFFE00000) ||| (vaddr &&& 0x1FF000), e2 &&& 0xFFF)
  else
  let e1 := mem.entry (e2 &&& frameMask) (pt_idx vaddr)
  if e1 &&& PAGE_PRESENT = 0 then none else some (e1 &&& frameMask, e1 &&& 0xFFF)

/-- Bits 63..47 of a virtual address are equal, as the hardware requires. -/
def Canonical (vaddr : UInt64) : Prop :=
  vaddr.toNat < 2 ^ 47 ∨ 2 ^ 64 - 2 ^ 47 ≤ vaddr.toNat

instance (vaddr : UInt64) : Decidable (Canonical vaddr) := inferInstanceAs (Decidable (_ ∨ _))

/-! ## Section 3: The machine -/

/-- An allocator of page frames: the answer of `kmalloc` (0 for NULL), the
    allocator's next state and memory; `none` if the call never returns. -/
class PageAllocator (σ : Type) where
  kmalloc : UInt64 → σ → Mem → Option (UInt64 × σ × Mem)

/-- The kernel's own allocator. -/
instance : PageAllocator largestSection where
  kmalloc hhdm ls mem :=
    let r := kmalloc hhdm ls mem
    some (r.1, ls, r.2)

/-- An allocator that gives the listed answers and keeps its books elsewhere. -/
instance : PageAllocator (List UInt64) where
  kmalloc
  | _, [], _ => none
  | _, a :: answers, mem => some (a, answers, mem)

/-- The state the paging code works on: physical memory, the `kernel` and
    `paging.c` variables it uses, and CR3 (`none` as long as the bootloader's
    tables are active). -/
structure Machine (σ : Type) where
  mem   : Mem
  hhdm  : UInt64
  alloc : σ
  pml4  : UInt64
  early_page_tables : List UInt64
  cr3   : Option UInt64

section model
variable {σ : Type}

/-- Read entry `i` of the table at physical address `table` through the direct
    map. -/
def Machine.readEntry (s : Machine σ) (table : UInt64) (i : Fin 512) : UInt64 :=
  s.mem.hload64 s.hhdm (table + s.hhdm + 8 * UInt64.ofNat i.val)

/-- Write entry `i` of the table at physical address `table` through the
    direct map. -/
def Machine.writeEntry (s : Machine σ) (table : UInt64) (i : Fin 512) (entry : UInt64) :
    Machine σ :=
  { s with mem := s.mem.hstore64 s.hhdm (table + s.hhdm + 8 * UInt64.ofNat i.val) entry }

/-- The physical address that a raw pointer denotes: the direct map lies at
    and above `hhdm`, every other address is translated by the active tables.
    `none` is a page fault. -/
def Machine.denote (s : Machine σ) (ptr : UInt64) : Option UInt64 :=
  if ptr ≥ s.hhdm then some (ptr - s.hhdm)
  else if ¬ Canonical ptr then none
  else do
    let cr3 ← s.cr3
    let (frame, _) ← walk s.mem cr3 ptr
    some (frame + (ptr &&& 0xFFF))

/-- `add_early_page_table`. -/
def add_early_page_table (addr : UInt64) (s : Machine σ) : Machine σ :=
  if s.early_page_tables.length < MAX_EARLY_PAGE_TABLES then
    { s with early_page_tables := s.early_page_tables ++ [addr] }
  else s

/-! ## Section 4: Allocating and linking tables -/

variable [PageAllocator σ]

/-- `kmalloc` on the machine. -/
def Machine.kmalloc (s : Machine σ) : Option (UInt64 × Machine σ) := do
  let (a, alloc, mem) ← PageAllocator.kmalloc s.hhdm s.alloc s.mem
  some (a, { s with alloc := alloc, mem := mem })

/-- The zeroing loop of `alloc_table`. -/
def zeroTable (hhdm ptr : UInt64) (mem : Mem) : Mem :=
  Loops.forLoop (fun i m => m.hstore64 hhdm (ptr + 8 * UInt64.ofNat i) 0) 512 mem

/-- `alloc_table`: the physical address of a zeroed table, or NULL. -/
def alloc_table (s : Machine σ) : Option (UInt64 × Machine σ) := do
  let (table, s) ← s.kmalloc
  if table = 0 then some (0, s) else
  let test := table + s.hhdm
  let mem := s.mem.hstore64 s.hhdm test 0xdeadbeef
  some (table, { s with mem := zeroTable s.hhdm test mem })

/-- The block that `map_range` and `init_paging` repeat for each level: fill
    the entry if it is not present, then follow it. -/
def ensure_table (table : UInt64) (i : Fin 512) (s : Machine σ) :
    Option (UInt64 × Machine σ) := do
  let s ←
    if s.readEntry table i &&& PAGE_PRESENT = 0 then do
      -- The result of `alloc_table` is not checked here.
      let (new, s) ← alloc_table s
      some (s.writeEntry table i (new ||| PAGE_PRESENT ||| PAGE_RW))
    else some s
  some (s.readEntry table i &&& ~~~0xFFF, s)

/-- Three levels of `ensure_table`, then the store of the leaf entry. -/
def map_leaf (pml4 vaddr entry : UInt64) (s : Machine σ) : Option (Machine σ) := do
  let (pdpt, s) ← ensure_table pml4 (pml4_idx vaddr) s
  let (pd, s) ← ensure_table pdpt (pdpt_idx vaddr) s
  let (pt, s) ← ensure_table pd (pd_idx vaddr) s
  some (s.writeEntry pt (pt_idx vaddr) entry)

/-! ## Section 5: `map_range` -/

/-- The physical address that `map_range` picks for `vaddr`. -/
def rangePaddr (hhdm vaddr : UInt64) : UInt64 := if vaddr ≥ hhdm then vaddr - hhdm else vaddr

/-- The loop of `map_range`.  The address is the only loop variable and takes
    `2 ^ 52` values, so a loop that is still running after that many rounds
    never ends. -/
def mapRangeLoop (pml4 virt_end flags : UInt64) :
    Nat → UInt64 → Machine σ → Option (Machine σ)
  | 0, _, _ => none
  | rounds + 1, vaddr, s =>
    if vaddr < virt_end then do
      let paddr := rangePaddr s.hhdm vaddr
      let s ← map_leaf pml4 vaddr (paddr ||| flags ||| PAGE_PRESENT) s
      mapRangeLoop pml4 virt_end flags rounds (vaddr + 0x1000) s
    else some s

/-- More rounds than a loop over pages can make without repeating itself. -/
@[irreducible] def allRounds : Nat := 2 ^ 52 + 1

def map_range (pml4 virt_start virt_end flags : UInt64) (s : Machine σ) : Option (Machine σ) :=
  mapRangeLoop pml4 virt_end flags allRounds (virt_start &&& ~~~0xFFF) s

/-! ## Section 6: `map_page` and `unmap_page` -/

/-- `get_next_table`: physical address of the next table, 0 for NULL. -/
def get_next_table (table : UInt64) (index : Fin 512) (create : Bool) (s : Machine σ) :
    Option (UInt64 × Machine σ) :=
  let current := s.readEntry table index
  if current &&& PAGE_PRESENT = 0 then
    if !create then some (0, s) else do
      let (next, s) ← alloc_table s
      if next = 0 then some (0, s) else
      let s := add_early_page_table next s
      some (next, s.writeEntry table index (next ||| PAGE_PRESENT ||| PAGE_RW ||| PAGE_USER))
  else some (current &&& ~~~0xFFF, s)

def map_page (virt_addr phys_addr flags : UInt64) (s : Machine σ) : Option (Machine σ) := do
  let (pdpt, s) ← get_next_table s.pml4 (pml4_idx virt_addr) true s
  if pdpt = 0 then some s else
  let (pd, s) ← get_next_table pdpt (pdpt_idx virt_addr) true s
  if pd = 0 then some s else
  let (pt, s) ← get_next_table pd (pd_idx virt_addr) true s
  if pt = 0 then some s else
  let entry := (phys_addr &&& ~~~0xFFF) ||| (flags &&& 0xFFF) ||| PAGE_PRESENT
  some (s.writeEntry pt (pt_idx virt_addr) entry)

/-- `unmap_page`: the last store goes through the raw pointer `pt`, not through
    the direct map. -/
def unmap_page (virt_addr : UInt64) (s : Machine σ) : Option (Machine σ) := do
  let (pdpt, s) ← get_next_table s.pml4 (pml4_idx virt_addr) false s
  if pdpt = 0 then some s else
  let (pd, s) ← get_next_table pdpt (pdpt_idx virt_addr) false s
  if pd = 0 then some s else
  let (pt, s) ← get_next_table pd (pd_idx virt_addr) false s
  if pt = 0 then some s else
  let q ← s.denote (pt + 8 * UInt64.ofNat (pt_idx virt_addr).val)
  some { s with mem := s.mem.store64 q 0 }

/-! ## Section 7: `init_paging` -/

/-- An identity block and a direct-map block of `init_paging` for one page:
    both give the page the physical address `addr`. -/
def map_both (pml4 addr : UInt64) (s : Machine σ) : Option (Machine σ) := do
  let s ← map_leaf pml4 addr (addr ||| PAGE_PRESENT ||| PAGE_RW) s
  map_leaf pml4 (addr + s.hhdm) (addr ||| PAGE_PRESENT ||| PAGE_RW) s

/-- The loop over the stack pages, up to and including `last`. -/
def stackLoop (pml4 last : UInt64) : Nat → UInt64 → Machine σ → Option (Machine σ)
  | 0, _, _ => none
  | rounds + 1, addr, s =>
    if addr ≤ last then do
      let s ← map_both pml4 addr s
      stackLoop pml4 last rounds (addr + 0x1000) s
    else some s

/-- The body of the second loop over the early page tables. -/
def map_early_table (pml4 addr : UInt64) (s : Machine σ) : Option (Machine σ) := do
  let pt_addr := addr &&& ~~~0xFFF
  let s ← map_range pml4 pt_addr (pt_addr + 0x1000) (PAGE_PRESENT ||| PAGE_RW) s
  map_range pml4 (s.hhdm + pt_addr) (s.hhdm + pt_addr + 0x1000) (PAGE_PRESENT ||| PAGE_RW) s

/-- The mappings that `init_paging` makes below a fresh PML4, from step 1 to
    step 5.  `code_addr` is the address of the function itself, `rsp` the stack
    pointer. -/
def init_tables (pml4 code_addr rsp : UInt64) (s : Machine σ) : Option (Machine σ) := do
  let flags := PAGE_PRESENT ||| PAGE_RW
  let code_start := code_addr &&& ~~~0xFFF
  let stack_start := rsp &&& ~~~0x1FFFFF
  -- Steps 1 to 4: the fixed windows.
  let s ← map_range pml4 0 0x200000 flags s
  let s ← map_range pml4 (code_start &&& ~~~0x1FFFFF) ((code_start + 0x200000) &&& ~~~0xFFF) flags s
  let s ← map_range pml4 stack_start (stack_start + 0x200000) flags s
  let s ← map_range pml4 s.hhdm (s.hhdm + 0x200000) flags s
  let s ← map_range pml4 (s.hhdm + (code_start &&& ~~~0x1FFFFF))
    (s.hhdm + ((code_start + 0x200000) &&& ~~~0xFFF)) flags s
  let s ← map_range pml4 (s.hhdm + stack_start) (s.hhdm + stack_start + 0x200000) flags s
  -- The open-coded walkers: the code page, the stack pages, the early tables.
  let code_page := code_addr &&& ~~~0xFFF
  let s ← map_both pml4 code_page s
  let stack_page := rsp &&& ~~~0xFFF
  let s ← stackLoop pml4 (stack_page + 0x4000) allRounds (stack_page - 0x4000) s
  let s ← s.early_page_tables.foldlM (fun s pt_addr => map_both pml4 pt_addr s) s
  -- Step 5.
  s.early_page_tables.foldlM (fun s pt_addr => map_early_table pml4 pt_addr s) s

/-- `init_paging`. -/
def init_paging (code_addr rsp : UInt64) (s : Machine σ) : Option (Machine σ) := do
  let s := { s with early_page_tables := [] }
  let (pml4, s) ← alloc_table s
  let s := { s with pml4 := pml4 }
  if pml4 = 0 then some s else
  let s := add_early_page_table pml4 s
  let s ← init_tables pml4 code_addr rsp s
  -- The PML4 must be aligned, or CR3 is left alone.
  if pml4 &&& 0xFFF ≠ 0 then some s else
  some { s with cr3 := some pml4 }

end model

end ArgaldOS
