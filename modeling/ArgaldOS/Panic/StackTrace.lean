import ArgaldOS.Framework.Chains
import ArgaldOS.Panic.Model

/-! # The stack trace (`stackTrace` of `kernel/panic.c`)

    A frame of the stack starts with the pointer to the frame of the caller and
    the address to return to.  `stackTrace` follows these pointers until one is
    NULL; nothing else ends its loop, so it takes the number of frames it may
    visit as fuel.

    Memory is total here: a frame that is not mapped would fault in the kernel,
    and start the next panic.

    * `cstringAt_ne_none`, `getFunctionName_ne_none`: where some byte is zero,
      every lookup returns;
    * `traceFrames_eq_some`, `frameChain_of_trace`: the loop ends exactly if the
      chain does, and visits its frames in order;
    * `stackTrace_ends_iff`: the faults whose trace ends.
-/

namespace ArgaldOS

/-! ## Section 1: The loop -/

/-- What is printed behind an address. -/
inductive TraceText where
  | name (text : CString)
  | invalid
  | blank
deriving DecidableEq, Repr

/-- A line of the trace. -/
structure TraceLine where
  address : UInt64
  text    : TraceText
deriving DecidableEq, Repr

/-- The line for the return address `rip`, unless its lookup never returns. -/
def traceLine (mem : Mem) (kernelFileStart rip : UInt64) : Option TraceLine :=
  if rip ≠ 0 then
    (getFunctionName mem kernelFileStart rip).map fun found =>
      ⟨rip, match found with
        | some text => .name text
        | none => .invalid⟩
  else some ⟨rip, .blank⟩

/-- `while (stack)`: the lines of at most `fuel` frames. -/
def traceFrames (mem : Mem) (kernelFileStart : UInt64) : Nat → UInt64 → Option (List TraceLine)
  | 0, stack => if stack = 0 then some [] else none
  | fuel + 1, stack =>
    if stack = 0 then some []
    else
      (traceLine mem kernelFileStart (mem.load64 (stack + 8))).bind fun line =>
        (traceFrames mem kernelFileStart fuel (mem.load64 stack)).map (line :: ·)

/-- How `stackTrace` ends. -/
inductive TraceEnd where
  | halted
  | returned
deriving DecidableEq, Repr

/-- `stackTrace`. -/
def stackTrace (mem : Mem) (kernelFileStart rbp rip : UInt64) (fuel : Nat) :
    Option (TraceEnd × List TraceLine) :=
  -- Interrupts are off when the processor halts.
  if rip = 0 then some (.halted, [⟨rip, .blank⟩])
  else
    (traceLine mem kernelFileStart rip).bind fun line =>
      (traceFrames mem kernelFileStart fuel rbp).map fun lines => (.returned, line :: lines)

/-! ## Section 2: Lookups -/

section lookups
variable {mem : Mem} {kernelFileStart rip : UInt64}

/-- A zero anywhere ends every string. -/
theorem cstringAt_ne_none (h : ∃ x, mem x = 0) (p : UInt64) : cstringAt mem p ≠ none := by
  obtain ⟨x, hx⟩ := h
  intro hnone
  have hall := Loops.searchFrom_eq_none (Option.map_eq_none_iff.mp hnone)
  have hat : p + UInt64.ofNat (x - p).toNat = x := by
    rw [UInt64.ofNat_toNat]
    grind
  have hlt : (x - p).toNat < 0 + allAddresses := by
    unfold allAddresses
    have := (x - p).toNat_lt
    omega
  have hnot := hall (x - p).toNat (Nat.zero_le _) hlt
  rw [hat, if_pos hx] at hnot
  cases hnot

/-- A section whose name ends. -/
theorem findTables_ne_none (h : ∀ p, cstringAt mem p ≠ none) (table : SectionTable)
    (names : UInt64) (t : SymbolTables) (i : Nat) :
    findTables mem kernelFileStart table names t i ≠ none := by
  unfold findTables
  rcases hname : cstringAt mem (names + (table.header mem i).name.toUInt64) with - | name
  · exact absurd hname (h _)
  · simp [hname]

theorem foldlM_ne_none {α β : Type} {f : β → α → Option β} (h : ∀ b a, f b a ≠ none)
    (as : List α) (b : β) : as.foldlM f b ≠ none := by
  induction as generalizing b with
  | nil => exact fun hnone => by cases hnone
  | cons a as ih =>
    rw [List.foldlM_cons]
    rcases hstep : f b a with - | b'
    · exact absurd hstep (h b a)
    · exact ih b'

/-- **Where strings end, lookups return.** -/
theorem getFunctionName_ne_none (h : ∃ x, mem x = 0) (address : UInt64) :
    getFunctionName mem kernelFileStart address ≠ none := by
  have hstring := cstringAt_ne_none h
  rcases hvalid : sectionTable mem kernelFileStart with - | table
  · unfold getFunctionName
    rw [hvalid]
    exact fun hnone => by cases hnone
  · rcases htables : (List.range table.sectionHeaderNumEntries.toNat).foldlM
      (findTables mem kernelFileStart table
        ((table.header mem table.sectionHeaderStringTableIndex.toNat).offset + kernelFileStart))
      (⟨0, 0, 0⟩ : SymbolTables) with - | tables
    · exact absurd htables (foldlM_ne_none (findTables_ne_none hstring table _) _ _)
    · rw [getFunctionName_eq address hvalid htables]
      rcases hsearch : Loops.searchFrom (symbolHit mem tables address)
        ((table.header mem tables.symtabIndex).size / symtabEntrySize).toNat 0 with - | name
      · exact fun hnone => by cases hnone
      · -- The hit is a string, and ends.
        obtain ⟨k, -, -, hhit, -⟩ := Loops.searchFrom_eq_some hsearch
        unfold symbolHit at hhit
        dsimp only at hhit
        split at hhit
        · obtain rfl := Option.some.inj hhit
          intro hnone
          exact hstring _ (Option.map_eq_none_iff.mp hnone)
        · cases hhit

theorem traceLine_ne_none (h : ∃ x, mem x = 0) (rip : UInt64) :
    traceLine mem kernelFileStart rip ≠ none := by
  unfold traceLine
  split
  · intro hnone
    exact getFunctionName_ne_none h rip (Option.map_eq_none_iff.mp hnone)
  · exact fun hnone => by cases hnone

end lookups

/-! ## Section 3: Frames -/

/-- The frame of the caller, if there is one. -/
def callerFrame (mem : Mem) (frame : UInt64) : Option UInt64 :=
  if mem.load64 frame = 0 then none else some (mem.load64 frame)

/-- The chain of frames from `rbp` on ends, and these are its frames. -/
def FrameChain (mem : Mem) (rbp : UInt64) (frames : List UInt64) : Prop :=
  (rbp = 0 ∧ frames = []) ∨ (rbp ≠ 0 ∧ Chains.Visits (callerFrame mem) rbp frames)

section frames
variable {mem : Mem} {kernelFileStart rbp rip : UInt64} {frames : List UInt64} {fuel : Nat}

/-- The chain of a frame is the frame and the chain of its caller. -/
theorem frameChain_cons (hrbp : rbp ≠ 0) :
    FrameChain mem rbp (rbp :: frames) ↔ FrameChain mem (mem.load64 rbp) frames := by
  unfold FrameChain
  rw [Chains.Visits]
  by_cases hlast : mem.load64 rbp = 0
  · have hnext : callerFrame mem rbp = none := if_pos hlast
    simp [hnext, hlast, hrbp]
  · have hnext : callerFrame mem rbp = some (mem.load64 rbp) := if_neg hlast
    simp [hnext, hlast, hrbp]

/-- A chain that ends somewhere has a zero in memory, or no frames. -/
theorem exists_zero_of_frameChain (h : FrameChain mem rbp frames) (hrbp : rbp ≠ 0) :
    ∃ x, mem x = 0 := by
  induction frames generalizing rbp with
  | nil =>
    rcases h with ⟨hzero, -⟩ | ⟨-, hvisits⟩
    · exact absurd hzero hrbp
    · exact absurd hvisits id
  | cons frame frames ih =>
    obtain rfl : frame = rbp := by
      rcases h with ⟨hzero, -⟩ | ⟨-, hvisits⟩
      · exact absurd hzero hrbp
      · exact hvisits.1
    by_cases hlast : mem.load64 frame = 0
    · -- The saved pointer of the last frame.
      have hvalue := Mem.toNat_load64 mem frame
      rw [hlast] at hvalue
      change 0 = _ at hvalue
      exact ⟨frame, UInt8.toNat_inj.mp (by show _ = 0; omega)⟩
    · exact ih ((frameChain_cons hrbp).mp h) hlast

theorem traceLine_address {line : TraceLine} (h : traceLine mem kernelFileStart rip = some line) :
    line.address = rip := by
  unfold traceLine at h
  split at h
  · obtain ⟨found, -, rfl⟩ := Option.map_eq_some_iff.mp h
    rfl
  · obtain rfl := Option.some.inj h
    rfl

/-- **The loop visits the frames of a chain that ends**, one line each. -/
theorem traceFrames_eq_some (kernelFileStart : UInt64) (h : FrameChain mem rbp frames)
    (hfuel : frames.length ≤ fuel) :
    ∃ lines, traceFrames mem kernelFileStart fuel rbp = some lines ∧
      lines.map TraceLine.address = frames.map fun frame => mem.load64 (frame + 8) := by
  induction fuel generalizing rbp frames with
  | zero =>
    obtain rfl := List.eq_nil_of_length_eq_zero (Nat.le_zero.mp hfuel)
    rcases h with ⟨hzero, -⟩ | ⟨-, hvisits⟩
    · exact ⟨[], if_pos hzero, rfl⟩
    · exact absurd hvisits id
  | succ fuel ih =>
    rw [traceFrames]
    by_cases hrbp : rbp = 0
    · rcases h with ⟨-, rfl⟩ | ⟨hne, -⟩
      · exact ⟨[], if_pos hrbp, rfl⟩
      · exact absurd hrbp hne
    · rw [if_neg hrbp]
      have hzero := exists_zero_of_frameChain h hrbp
      obtain ⟨rest, rfl⟩ : ∃ rest, frames = rbp :: rest := by
        rcases h with ⟨hzero, -⟩ | ⟨-, hvisits⟩
        · exact absurd hzero hrbp
        · cases frames with
          | nil => exact absurd hvisits id
          | cons frame frames =>
            obtain ⟨rfl, -⟩ := hvisits
            exact ⟨frames, rfl⟩
      obtain ⟨lines, hlines, haddresses⟩ := ih ((frameChain_cons hrbp).mp h)
        (Nat.le_of_succ_le_succ hfuel)
      rcases hline : traceLine mem kernelFileStart (mem.load64 (rbp + 8)) with - | line
      · exact absurd hline (traceLine_ne_none hzero _)
      · refine ⟨line :: lines, by rw [hlines]; rfl, ?_⟩
        rw [List.map_cons, List.map_cons, haddresses, traceLine_address hline]

/-- A loop that ends has followed a chain that ends. -/
theorem frameChain_of_trace {lines : List TraceLine}
    (h : traceFrames mem kernelFileStart fuel rbp = some lines) :
    ∃ frames, FrameChain mem rbp frames := by
  induction fuel generalizing rbp lines with
  | zero =>
    rw [traceFrames] at h
    by_cases hrbp : rbp = 0
    · exact ⟨[], Or.inl ⟨hrbp, rfl⟩⟩
    · rw [if_neg hrbp] at h
      cases h
  | succ fuel ih =>
    rw [traceFrames] at h
    by_cases hrbp : rbp = 0
    · exact ⟨[], Or.inl ⟨hrbp, rfl⟩⟩
    · rw [if_neg hrbp] at h
      obtain ⟨line, -, hrest⟩ := Option.bind_eq_some_iff.mp h
      obtain ⟨rest, hrest, -⟩ := Option.map_eq_some_iff.mp hrest
      obtain ⟨frames, hframes⟩ := ih hrest
      exact ⟨rbp :: frames, (frameChain_cons hrbp).mpr hframes⟩

end frames

/-! ## Section 4: Traces that end -/

/-- **What is asked of a trace**: it visits finitely many frames, and returns or
    halts. -/
def TraceEnds (mem : Mem) (kernelFileStart rbp rip : UInt64) : Prop :=
  ∃ fuel result, stackTrace mem kernelFileStart rbp rip fuel = some result

/-- **Main theorem on the stack trace**: it ends exactly when there is no faulting
    address, or when that address is looked up and the chain of frames ends. -/
theorem stackTrace_ends_iff (mem : Mem) (kernelFileStart rbp rip : UInt64) :
    TraceEnds mem kernelFileStart rbp rip ↔
      rip = 0 ∨ (getFunctionName mem kernelFileStart rip ≠ none ∧
        ∃ frames, FrameChain mem rbp frames) := by
  by_cases hrip : rip = 0
  · constructor
    · exact fun _ => Or.inl hrip
    · exact fun _ => ⟨0, _, if_pos hrip⟩
  · have hfirst : traceLine mem kernelFileStart rip = none ↔
        getFunctionName mem kernelFileStart rip = none := by
      unfold traceLine
      rw [if_pos hrip]
      exact Option.map_eq_none_iff
    constructor
    · rintro ⟨fuel, result, h⟩
      unfold stackTrace at h
      rw [if_neg hrip] at h
      obtain ⟨line, hline, hrest⟩ := Option.bind_eq_some_iff.mp h
      obtain ⟨lines, hlines, -⟩ := Option.map_eq_some_iff.mp hrest
      refine Or.inr ⟨fun hnone => ?_, frameChain_of_trace hlines⟩
      rw [hfirst.mpr hnone] at hline
      cases hline
    · rintro (hzero | ⟨hlookup, frames, hframes⟩)
      · exact absurd hzero hrip
      · obtain ⟨lines, hlines, -⟩ := traceFrames_eq_some kernelFileStart hframes (Nat.le_refl _)
        rcases hline : traceLine mem kernelFileStart rip with - | line
        · exact absurd (hfirst.mp hline) hlookup
        · refine ⟨frames.length, (.returned, line :: lines), ?_⟩
          unfold stackTrace
          rw [if_neg hrip, hline, hlines]
          rfl

/-- Memory whose frame at 0x1000 is its own caller. -/
def ownCaller : Mem := fun a => if a = 0x1001 then 0x10 else 0

/-- A corrupted frame: the trace prints the same line for ever. -/
theorem stackTrace_never_ends : ¬ TraceEnds ownCaller 0x2000 0x1000 1 := by
  rintro ⟨fuel, result, h⟩
  unfold stackTrace at h
  rw [if_neg (by decide)] at h
  obtain ⟨line, -, hrest⟩ := Option.bind_eq_some_iff.mp h
  obtain ⟨lines, hlines, -⟩ := Option.map_eq_some_iff.mp hrest
  obtain ⟨frames, hchain⟩ := frameChain_of_trace hlines
  have hloop : callerFrame ownCaller 0x1000 = some 0x1000 := by decide
  rcases hchain with ⟨hzero, -⟩ | ⟨-, hvisits⟩
  · exact absurd hzero (by decide)
  · exact Chains.not_visits_of_loop hloop frames hvisits

end ArgaldOS
