import ArgaldOS.Interrupt.Model

/-! # The frame of an exception

    Four lists have to agree: what the processor pushes for a vector, what its
    stub pushes, the pushes and pops of `baseHandler`, and the fields of
    `struct IDTEFrame`.  They are compared through the words on the stack.

    * `StackHolds`: the words from the stack pointer on;
    * `execute_pushes`, `execute_pops`: rows of `push` and `pop`;
    * `handlerEntry_stack`: the stack on entry to `exceptionHandler`;
    * `exception_resumes`: the frame, and the state after `iretq`.
-/

namespace ArgaldOS

/-! ## Section 1: Words on the stack -/

/-- The stack at `sp` holds the words `ws`, top first. -/
def StackHolds (m : Mem) : UInt64 → List UInt64 → Prop
  | _, [] => True
  | sp, w :: ws => m.load64 sp = w ∧ StackHolds m (sp + 8) ws

/-- The words depend on their bytes only. -/
theorem StackHolds.congr {m m' : Mem} {sp : UInt64} {ws : List UInt64} (h : StackHolds m sp ws)
    (hm : ∀ x, (x - sp).toNat < 8 * ws.length → m' x = m x) : StackHolds m' sp ws := by
  induction ws generalizing sp with
  | nil => trivial
  | cons w ws ih =>
    obtain ⟨hw, hws⟩ := h
    rw [List.length_cons] at hm
    refine ⟨?_, ih hws fun x hx => hm x ?_⟩
    · rw [← hw]
      refine Mem.load64_congr fun k hk => hm _ ?_
      have hsub : sp + k - sp = k := by grind
      have hk := UInt64.lt_iff_toNat_lt.mp hk
      rw [hsub]
      show k.toNat < 8 * (ws.length + 1)
      have h8 : (8 : UInt64).toNat = 8 := rfl
      omega
    · have hsub : x - sp = x - (sp + 8) + 8 := by grind
      rw [hsub, UInt64.toNat_add]
      have h8 : (8 : UInt64).toNat = 8 := rfl
      omega

/-- A word stored below the stack becomes its top. -/
theorem StackHolds.store {m : Mem} {sp : UInt64} {ws : List UInt64} (h : StackHolds m sp ws)
    (hlen : ws.length < 2 ^ 60) (v : UInt64) :
    StackHolds (m.store64 (sp - 8) v) (sp - 8) (v :: ws) := by
  have hsp : sp - 8 + 8 = sp := by grind
  refine ⟨Mem.load64_store64 _ _ _, ?_⟩
  rw [hsp]
  refine h.congr fun x hx => Mem.store64_ne _ _ _ _ fun hlt => ?_
  have hsub : x - (sp - 8) = x - sp + 8 := by grind
  have hlt := UInt64.lt_iff_toNat_lt.mp hlt
  have h8 : (8 : UInt64).toNat = 8 := rfl
  rw [hsub, UInt64.toNat_add] at hlt
  omega

/-! ## Section 2: Rows of instructions -/

/-- `ws` are the words at the stack pointer. -/
def Stacked (c : Cpu) (ws : List UInt64) : Prop := StackHolds c.mem (c.reg .rsp) ws

section instructions
variable {c : Cpu} {ws : List UInt64}

@[simp] theorem set_self (r : Reg) (v : UInt64) : (c.set r v).reg r = v := by
  simp [Cpu.set]

@[simp] theorem set_of_ne {r r' : Reg} (h : r' ≠ r) (v : UInt64) :
    (c.set r v).reg r' = c.reg r' := by
  simp [Cpu.set, h]

@[simp] theorem push_rsp (v : UInt64) : (c.push v).reg .rsp = c.reg .rsp - 8 := by
  simp [Cpu.push]

theorem push_of_ne {r : Reg} (h : r ≠ .rsp) (v : UInt64) : (c.push v).reg r = c.reg r :=
  set_of_ne h _

theorem stacked_push (h : Stacked c ws) (hlen : ws.length < 2 ^ 60) (v : UInt64) :
    Stacked (c.push v) (v :: ws) := by
  unfold Stacked
  rw [push_rsp]
  exact h.store hlen v

/-- The stack does not depend on the other registers. -/
theorem stacked_set (h : Stacked c ws) {r : Reg} (hr : .rsp ≠ r) (v : UInt64) :
    Stacked (c.set r v) ws := by
  unfold Stacked
  rw [set_of_ne hr]
  exact h

theorem pop_rsp {r : Reg} (h : r ≠ .rsp) : (c.pop r).reg .rsp = c.reg .rsp + 8 := by
  unfold Cpu.pop
  rw [set_of_ne h.symm, set_self]

/-- Skipping the top of the stack. -/
theorem stacked_add {w : UInt64} (h : Stacked c (w :: ws)) :
    Stacked (c.set .rsp (c.reg .rsp + 8)) ws := by
  unfold Stacked
  rw [set_self]
  exact h.2

/-- The state `c` has the words `ws` on its stack, and otherwise the registers
    of `c₀`. -/
structure Saves (c₀ c : Cpu) (ws : List UInt64) : Prop where
  stack : Stacked c ws
  regs  : ∀ r, r ≠ .rsp → c.reg r = c₀.reg r
  cr2   : c.cr2 = c₀.cr2

variable {c₀ : Cpu}

theorem Saves.push (h : Saves c₀ c ws) (hlen : ws.length < 2 ^ 60) (v : UInt64) :
    Saves c₀ (c.push v) (v :: ws) where
  stack := stacked_push h.stack hlen v
  regs  := fun r hr => (push_of_ne hr v).trans (h.regs r hr)
  cr2   := h.cr2

/-- **A row of pushes** leaves the registers on the stack, the last one on top. -/
theorem execute_pushes {rs : List Reg} (hrs : .rsp ∉ rs) (h : Saves c₀ c ws)
    (hlen : ws.length + rs.length < 2 ^ 60) :
    Saves c₀ (execute (rs.map .push) c) ((rs.map c₀.reg).reverse ++ ws) := by
  induction rs generalizing c ws with
  | nil => exact h
  | cons r rs ih =>
    have hne : r ≠ .rsp := fun heq => hrs (heq ▸ List.mem_cons_self)
    rw [List.length_cons] at hlen
    -- The register still has its value, since pushes change `rsp` only.
    have hpush := h.push (by omega) (c.reg r)
    rw [h.regs r hne] at hpush
    rw [List.map_cons, List.map_cons, List.reverse_cons, List.append_assoc]
    have hlen' : ([c₀.reg r] ++ ws).length + rs.length < 2 ^ 60 := by
      rw [List.singleton_append, List.length_cons]
      omega
    exact ih (fun hmem => hrs (List.mem_cons_of_mem _ hmem)) (h.regs r hne ▸ hpush) hlen'

/-- So does a row of constants. -/
theorem execute_stub (constants : List UInt64) (h : Saves c₀ c ws)
    (hlen : ws.length + constants.length < 2 ^ 60) :
    Saves c₀ (execute (stub constants) c) (constants.reverse ++ ws) := by
  induction constants generalizing c ws with
  | nil => exact h
  | cons v vs ih =>
    rw [List.length_cons] at hlen
    rw [List.reverse_cons, List.append_assoc]
    have hlen' : ([v] ++ ws).length + vs.length < 2 ^ 60 := by
      rw [List.singleton_append, List.length_cons]
      omega
    exact ih (h.push (by omega) v) hlen'

/-- **A row of pops** loads the registers with the words on the stack. -/
theorem execute_pops (rs : List Reg) (hrs : .rsp ∉ rs) (hnodup : rs.Nodup) (f : Reg → UInt64)
    (h : Stacked c (rs.map f ++ ws)) :
    Stacked (execute (rs.map .pop) c) ws ∧ (∀ r ∈ rs, (execute (rs.map .pop) c).reg r = f r) ∧
      ∀ r, r ∉ rs → r ≠ .rsp → (execute (rs.map .pop) c).reg r = c.reg r := by
  induction rs generalizing c with
  | nil => exact ⟨h, fun r hr => by (cases hr), fun r _ _ => rfl⟩
  | cons r rs ih =>
    have hne : r ≠ .rsp := fun heq => hrs (heq ▸ List.mem_cons_self)
    have hpop : Stacked (c.pop r) (rs.map f ++ ws) := by
      unfold Stacked
      rw [pop_rsp hne]
      exact h.2
    -- The first pop takes the top word; the others do not touch its register again.
    obtain ⟨hstack, hloaded, hkept⟩ := ih (fun hmem => hrs (List.mem_cons_of_mem _ hmem))
      (List.nodup_cons.mp hnodup).2 hpop
    refine ⟨hstack, fun r' hr' => ?_, fun r' hr' hne' => ?_⟩
    · rcases List.mem_cons.mp hr' with rfl | hmem
      · rw [List.map_cons, execute_cons]
        show (execute (rs.map .pop) (c.pop r')).reg r' = f r'
        rw [hkept r' (List.nodup_cons.mp hnodup).1 hne]
        unfold Cpu.pop
        rw [set_self]
        exact h.1
      · exact hloaded r' hmem
    · rw [List.mem_cons, not_or] at hr'
      rw [List.map_cons, execute_cons]
      show (execute (rs.map .pop) (c.pop r)).reg r' = c.reg r'
      rw [hkept r' hr'.2 hne']
      unfold Cpu.pop
      rw [set_of_ne hr'.1, set_of_ne hne']

end instructions

/-! ## Section 3: Entry -/

/-- The registers that `baseHandler` saves, in the order of its pushes. -/
def savedRegisters : List Reg :=
  [.rax, .rbx, .rcx, .rdx, .rsi, .rdi, .rbp, .r8, .r9, .r10, .r11, .r12, .r13, .r14, .r15]

section entry
variable (c : Cpu) (vector errorCode stack : UInt64)

/-- The error code, or 0 for a vector without one. -/
def errorWord : UInt64 := if pushesErrorCode vector then errorCode else 0

/-- The words that `iretq` takes. -/
def returnWords : List UInt64 := [c.rip, c.cs.toUInt64, c.rflags, c.reg .rsp, c.ss.toUInt64]

/-- The words below the return address, top first. -/
def frameWords : List UInt64 :=
  c.cr2 :: ((savedRegisters.map c.reg).reverse ++ vector :: errorWord vector errorCode ::
    returnWords c)

/-- The stub of a vector supplies what the processor does not push. -/
theorem eq_stub {code : List Instr} (h : (vector, code) ∈ exceptionStubs) :
    code = stub (if pushesErrorCode vector then [vector] else [0, vector]) := by
  unfold exceptionStubs at h
  simp only [List.mem_cons, Prod.mk.injEq, List.not_mem_nil, or_false] at h
  rcases h with ⟨rfl, rfl⟩ | ⟨rfl, rfl⟩ | ⟨rfl, rfl⟩ | ⟨rfl, rfl⟩ | ⟨rfl, rfl⟩ | ⟨rfl, rfl⟩ |
    ⟨rfl, rfl⟩ | ⟨rfl, rfl⟩ | ⟨rfl, rfl⟩ | ⟨rfl, rfl⟩ | ⟨rfl, rfl⟩ | ⟨rfl, rfl⟩ | ⟨rfl, rfl⟩ |
    ⟨rfl, rfl⟩ | ⟨rfl, rfl⟩ | ⟨rfl, rfl⟩ | ⟨rfl, rfl⟩ | ⟨rfl, rfl⟩ | ⟨rfl, rfl⟩ <;> rfl

/-- What the processor pushes. -/
theorem raise_saves :
    Saves c (raise c vector errorCode stack)
      ((if pushesErrorCode vector then [errorCode] else []) ++ returnWords c) := by
  -- The processor starts on an empty stack of its own.
  have hempty : Saves c (c.set .rsp stack) [] :=
    ⟨trivial, fun r hr => set_of_ne hr stack, rfl⟩
  have hpushed := ((((hempty.push (by simp) c.ss.toUInt64).push (by simp) (c.reg .rsp)).push
    (by simp) c.rflags).push (by simp) c.cs.toUInt64).push (by simp) c.rip
  unfold raise
  split
  · exact hpushed.push (by simp) errorCode
  · exact hpushed

/-- The stack after the stub: a vector number and an error code in any case. -/
theorem execute_stub_saves {code : List Instr} (h : (vector, code) ∈ exceptionStubs) :
    Saves c (execute code (raise c vector errorCode stack))
      (vector :: errorWord vector errorCode :: returnWords c) := by
  have hraise := raise_saves c vector errorCode stack
  rw [eq_stub vector h]
  unfold errorWord
  -- With an error code the stub pushes the vector only, otherwise a 0 as well.
  split at hraise <;> rename_i herror
  · rw [if_pos herror, if_pos herror]
    exact execute_stub [vector] hraise (by simp [returnWords])
  · rw [if_neg herror, if_neg herror]
    exact execute_stub [0, vector] hraise (by simp)

/-- **The stack on entry** to `exceptionHandler`, below the return address. -/
theorem handlerEntry_stack (returnAddress : UInt64) {code : List Instr}
    (h : (vector, code) ∈ exceptionStubs) :
    Stacked (handlerEntry c vector errorCode stack returnAddress code)
      (returnAddress :: frameWords c vector errorCode) := by
  have hsave : saveRegisters =
      savedRegisters.map .push ++ [.mov_cr2 .rax, .push .rax, .cld, .mov .rdi .rsp] := rfl
  have hrsp : .rsp ∉ savedRegisters := by decide
  have hpushes := execute_pushes hrsp
    (execute_stub_saves c vector errorCode stack h) (by simp [returnWords, savedRegisters])
  unfold handlerEntry
  rw [execute_append, hsave, execute_append]
  generalize execute (savedRegisters.map .push) _ = saved at hpushes ⊢
  -- `cr2` goes through `rax`, which is on the stack already.
  have hcr2 := stacked_push (stacked_set hpushes.stack (r := .rax) (by decide) saved.cr2)
    (by simp [returnWords, savedRegisters]) saved.cr2
  rw [hpushes.cr2] at hcr2
  have hmov := stacked_set hcr2 (r := .rdi) (by decide)
    (((saved.set .rax c.cr2).push c.cr2).reg .rsp)
  have hcall := stacked_push hmov (by simp [returnWords, savedRegisters]) returnAddress
  simpa [Instr.step, frameWords, hpushes.cr2] using hcall

end entry

/-! ## Section 4: The frame -/

section frame
variable (c : Cpu) (vector errorCode : UInt64)

/-- The structure with each field what its name says. -/
def interruptedFrame : IDTEFrame where
  cr2   := c.cr2
  r15   := c.reg .r15
  r14   := c.reg .r14
  r13   := c.reg .r13
  r12   := c.reg .r12
  r11   := c.reg .r11
  r10   := c.reg .r10
  r9    := c.reg .r9
  r8    := c.reg .r8
  rbp   := c.reg .rbp
  rdi   := c.reg .rdi
  rsi   := c.reg .rsi
  rdx   := c.reg .rdx
  rcx   := c.reg .rcx
  rbx   := c.reg .rbx
  rax   := c.reg .rax
  type  := vector
  code  := if pushesErrorCode vector then errorCode else 0
  rip   := c.rip
  cs    := c.cs.toUInt64
  flags := c.rflags
  rsp   := c.reg .rsp
  ss    := c.ss.toUInt64

/-- The words on the stack are the fields of the structure. -/
theorem idteFrameAt_eq {m : Mem} {a : UInt64} (h : StackHolds m a (frameWords c vector errorCode)) :
    idteFrameAt m a = interruptedFrame c vector errorCode := by
  simp only [frameWords, savedRegisters, returnWords, List.map_cons, List.map_nil, List.reverse_cons,
    List.reverse_nil, List.nil_append, List.cons_append, StackHolds, UInt64.add_assoc,
    UInt64.reduceAdd] at h
  simp only [idteFrameAt, interruptedFrame, h, errorWord]

end frame

/-! ## Section 5: Return -/

/-- Popping in the reverse order. -/
theorem restoreRegisters_eq :
    restoreRegisters =
      .add_rsp 8 :: (savedRegisters.reverse.map .pop ++ [.add_rsp 0x10]) := rfl

/-- `iretq` takes the words of the interrupted state. -/
theorem iretq_eq {c c₀ : Cpu} (h : Stacked c (returnWords c₀)) :
    (iretq c).rip = c₀.rip ∧ (iretq c).cs = c₀.cs ∧ (iretq c).rflags = c₀.rflags ∧
      (iretq c).ss = c₀.ss ∧ (iretq c).reg .rsp = c₀.reg .rsp ∧
      ∀ r, r ≠ .rsp → (iretq c).reg r = c.reg r := by
  unfold Stacked returnWords at h
  simp only [StackHolds, UInt64.add_assoc, UInt64.reduceAdd] at h
  obtain ⟨hrip, hcs, hflags, hrsp, hss, -⟩ := h
  refine ⟨hrip, ?_, hflags, ?_, ?_, fun r hr => set_of_ne hr _⟩
  · show (c.mem.load64 (c.reg .rsp + 8)).toUInt16 = c₀.cs
    rw [hcs]
    exact UInt16.toUInt16_toUInt64 c₀.cs
  · show (c.mem.load64 (c.reg .rsp + 32)).toUInt16 = c₀.ss
    rw [hss]
    exact UInt16.toUInt16_toUInt64 c₀.ss
  · show (c.set .rsp (c.mem.load64 (c.reg .rsp + 24))).reg .rsp = c₀.reg .rsp
    rw [set_self, hrsp]

/-- **The way back** from a frame that is as it was. -/
theorem handlerExit_eq {c c₀ : Cpu} {returnAddress vector errorCode : UInt64}
    (h : Stacked c (returnAddress :: frameWords c₀ vector errorCode)) :
    (∀ r, (handlerExit c).reg r = c₀.reg r) ∧ (handlerExit c).rip = c₀.rip ∧
      (handlerExit c).cs = c₀.cs ∧ (handlerExit c).rflags = c₀.rflags ∧
      (handlerExit c).ss = c₀.ss := by
  have hret := stacked_add h
  have hcr2 : Stacked (Instr.step (c.set .rsp (c.reg .rsp + 8)) (.add_rsp 8)) _ := stacked_add hret
  rw [← List.map_reverse] at hcr2
  -- The pops mirror the pushes, so each register gets back its own word.
  obtain ⟨hstack, hregs, -⟩ := execute_pops savedRegisters.reverse (by decide) (by decide) c₀.reg hcr2
  unfold handlerExit
  rw [restoreRegisters_eq, execute_cons, execute_append]
  generalize execute (savedRegisters.reverse.map .pop) _ = popped at hstack hregs ⊢
  -- The vector and the error code are skipped together.
  have hskip : Stacked (popped.set .rsp (popped.reg .rsp + 0x10)) (returnWords c₀) := by
    have h16 : popped.reg .rsp + 8 + 8 = popped.reg .rsp + 0x10 := by rw [UInt64.add_assoc]; rfl
    unfold Stacked
    rw [set_self, ← h16]
    exact hstack.2.2
  obtain ⟨hrip, hcs, hflags, hss, hrsp, hrest⟩ := iretq_eq hskip
  refine ⟨fun r => ?_, hrip, hcs, hflags, hss⟩
  -- `rsp` comes from the frame, all other registers from the pops.
  by_cases hr : r = .rsp
  · rw [hr]
    exact hrsp
  · have hmem : r ∈ savedRegisters.reverse := by
      cases r <;> first | decide | exact absurd rfl hr
    exact (hrest r hr).trans ((set_of_ne hr _).trans (hregs r hmem))

/-- The handler returns on the stack on which it was called, and the frame is
    as it was. -/
def LeavesFrame (handler : Cpu → Cpu) (entry : Cpu) : Prop :=
  (handler entry).reg .rsp = entry.reg .rsp ∧
    ∀ x, (x - (entry.reg .rsp + 8)).toNat < 184 → (handler entry).mem x = entry.mem x

/-- **Exception entry and return**: `exceptionHandler` sees the interrupted
    state, and if it returns and leaves the frame alone, that state is resumed. -/
theorem exception_resumes (c : Cpu) (vector errorCode stack returnAddress : UInt64)
    {code : List Instr} (h : (vector, code) ∈ exceptionStubs) (handler : Cpu → Cpu) :
    let entry := handlerEntry c vector errorCode stack returnAddress code
    idteFrameAt entry.mem (entry.reg .rsp + 8) = interruptedFrame c vector errorCode ∧
      (LeavesFrame handler entry →
        let after := handlerExit (handler entry)
        (∀ r, after.reg r = c.reg r) ∧ after.rip = c.rip ∧ after.cs = c.cs ∧
          after.rflags = c.rflags ∧ after.ss = c.ss) := by
  intro entry
  have hentry := handlerEntry_stack c vector errorCode stack returnAddress h
  refine ⟨idteFrameAt_eq c vector errorCode hentry.2, ?_⟩
  intro hleaves
  obtain ⟨hrsp, hmem⟩ := hleaves
  -- The handler has not touched the 23 words above its return address.
  have hframe : StackHolds (handler entry).mem (entry.reg .rsp + 8) (frameWords c vector errorCode) :=
    hentry.2.congr fun x hx => hmem x (by simpa [frameWords, savedRegisters, returnWords] using hx)
  have hstack : Stacked (handler entry) ((handler entry).top :: frameWords c vector errorCode) :=
    ⟨rfl, hrsp ▸ hframe⟩
  exact handlerExit_eq hstack

/-- A processor in kernel code. -/
def kernelCpu : Cpu where
  reg    := fun _ => 0x11
  rip    := 0xFFFFFFFF80001000
  cs     := 0x08
  rflags := 0x202
  ss     := 0x10
  cr2    := 0xDEAD000
  mem    := fun _ => 0

/-- A page fault there, with a handler that returns at once. -/
theorem exception_resumes_pageFault :
    (handlerExit (handlerEntry kernelCpu 14 2 0xFFFF800000007000 0 pageFaultException)).rip =
      0xFFFFFFFF80001000 := by
  have hstub : (14, pageFaultException) ∈ exceptionStubs := by simp [exceptionStubs]
  have hleaves : LeavesFrame id
      (handlerEntry kernelCpu 14 2 0xFFFF800000007000 0 pageFaultException) :=
    ⟨rfl, fun _ _ => rfl⟩
  exact ((exception_resumes kernelCpu 14 2 0xFFFF800000007000 0 hstub id).2 hleaves).2.1

end ArgaldOS
