import ArgaldOS.Disk.Store

/-! # Which disk commands end, and how they report errors

    The polling loops of `accessDisk` are searches in the stream of status
    values that the drive shows.  The first waits for DRQ and does not look at
    ERR; the one after the last word of a write waits for DRQ again, or for ERR
    or IDX.

    * `pollTimes_isSome`, `pollTimes_eq_none`: when the first loop ends;
    * `finishWrite_result`: how a write ends;
    * `accessDisk_reports_iff`: a call ends, with NULL exactly for a failed
      command, if and only if the drive asks for data and, after the last word
      of a write, asks for some again exactly if it has not failed.
-/

namespace ArgaldOS

namespace Ata

open Loops Drive

/-! ## Section 1: The status register -/

def BSY (status : UInt8) : Bool := status.toNat.testBit 7
def DRQ (status : UInt8) : Bool := status.toNat.testBit 3
def IDX (status : UInt8) : Bool := status.toNat.testBit 1
def ERR (status : UInt8) : Bool := status.toNat.testBit 0

/-- `(byte >> k) & 1`. -/
theorem shift_and_one_eq_zero (byte k : UInt8) (hk : k.toNat < 8) :
    (byte >>> k) &&& 1 = 0 ↔ byte.toNat.testBit k.toNat = false := by
  have hval : ((byte >>> k) &&& 1).toNat = byte.toNat / 2 ^ k.toNat % 2 := by
    rw [UInt8.toNat_and, UInt8.toNat_shiftRight, Nat.mod_eq_of_lt hk, Nat.shiftRight_eq_div_pow]
    exact Nat.and_one_is_mod _
  rw [← UInt8.toNat_inj, hval, Nat.testBit_eq_decide_div_mod_eq, decide_eq_false_iff_not]
  show _ = 0 ↔ _
  omega

/-- The test of the first loop. -/
theorem pollRound_eq (d : Drive) :
    pollRound d =
      if DRQ (d.status d.phase d.reads) ∧ !BSY (d.status d.phase d.reads) then
        .inl { d with reads := d.reads + 1 }
      else .inr { d with reads := d.reads + 1 } := by
  have h3 := shift_and_one_eq_zero (d.status d.phase d.reads) 3 (by simp)
  have h7 := shift_and_one_eq_zero (d.status d.phase d.reads) 7 (by simp)
  unfold pollRound DRQ BSY
  simp only [port_byte_in_status, ne_eq, h3, h7, Bool.not_eq_false, Bool.not_eq_true']
  rfl

/-- `status & 0x08`. -/
theorem and_08_eq_zero (status : UInt8) : status &&& 0x08 = 0 ↔ DRQ status = false := by
  have hval : (status &&& 0x08).toNat = status.toNat &&& 2 ^ 3 := UInt8.toNat_and _ _
  rw [← UInt8.toNat_inj, hval]
  exact Words.land_two_pow_eq_zero_iff status.toNat 3

/-- `status & (0x01 | 0x02)`. -/
theorem and_03_eq_zero (status : UInt8) :
    status &&& (0x01 ||| 0x02) = 0 ↔ ERR status = false ∧ IDX status = false := by
  have hval : (status &&& (0x01 ||| 0x02)).toNat = status.toNat % 2 ^ 2 := by
    rw [UInt8.toNat_and]
    exact Nat.and_two_pow_sub_one_eq_mod _ 2
  unfold ERR IDX
  rw [← UInt8.toNat_inj, hval, Nat.testBit_eq_decide_div_mod_eq, Nat.testBit_eq_decide_div_mod_eq,
    decide_eq_false_iff_not, decide_eq_false_iff_not]
  show _ = 0 ↔ _
  omega

/-! ## Section 2: The loop before the data phase -/

/-- The drive asks for data. -/
def Ready (status : UInt8) : Bool := DRQ status && !BSY status

/-- The drive after its `i`-th value in a phase has been awaited. -/
def readyAt (d : Drive) (i : Nat) : Option Drive :=
  if Ready (d.status d.phase i) then some { d with reads := i + 1 } else none

theorem pollLoop_eq (d : Drive) (fuel i : Nat) :
    whileTrue pollRound fuel { d with reads := i } = searchFrom (readyAt d) fuel i := by
  refine whileTrue_eq_searchFrom (fun i => { d with reads := i }) (readyAt d) ?_ fuel i
  intro i
  rw [pollRound_eq]
  unfold readyAt Ready
  by_cases h : DRQ (d.status d.phase i) = true ∧ (!BSY (d.status d.phase i)) = true
  · rw [if_pos h, if_pos (by rw [Bool.and_eq_true]; exact h)]
  · rw [if_neg h, if_neg (by rw [Bool.and_eq_true]; exact h)]

/-- The loop ends on a drive that asks for data from some time on. -/
theorem pollLoop_eq_some (d : Drive) {N fuel i : Nat}
    (hready : ∀ n, N ≤ n → Ready (d.status d.phase n) = true) (hfuel : N < fuel) :
    ∃ j, whileTrue pollRound fuel { d with reads := i } = some { d with reads := j } := by
  rw [pollLoop_eq]
  cases h : searchFrom (readyAt d) fuel i with
  | some d' =>
    obtain ⟨k, -, -, hk, -⟩ := searchFrom_eq_some h
    unfold readyAt at hk
    split at hk
    · exact ⟨k + 1, by rw [Option.some.inj hk]⟩
    · cases hk
  | none =>
    -- The round of the larger of `i` and `N` would have been the last.
    have hmax := searchFrom_eq_none h (max i N) (by omega) (by omega)
    unfold readyAt at hmax
    rw [if_pos (hready _ (by omega))] at hmax
    cases hmax

theorem pollTimes_isSome (d : Drive) {N fuel : Nat}
    (hready : ∀ n, N ≤ n → Ready (d.status d.phase n) = true) (hfuel : N < fuel) (k i : Nat) :
    ∃ j, pollTimes fuel k { d with reads := i } = some { d with reads := j } := by
  induction k generalizing i with
  | zero => exact ⟨i, rfl⟩
  | succ k ih =>
    obtain ⟨m, hloop⟩ := pollLoop_eq_some d (i := i) hready hfuel
    obtain ⟨j, hrest⟩ := ih m
    refine ⟨j, ?_⟩
    unfold pollTimes
    rw [hloop]
    exact hrest

/-- It never ends on a drive that does not ask for data. -/
theorem pollTimes_eq_none (d : Drive) (hready : ∀ n, Ready (d.status d.phase n) = false)
    (fuel k i : Nat) : pollTimes fuel (k + 1) { d with reads := i } = none := by
  have hloop : whileTrue pollRound fuel { d with reads := i } = none := by
    rw [pollLoop_eq]
    cases h : searchFrom (readyAt d) fuel i with
    | none => rfl
    | some d' =>
      obtain ⟨n, -, -, hn, -⟩ := searchFrom_eq_some h
      simp [readyAt, hready n] at hn
  unfold pollTimes
  rw [hloop]
  rfl

/-! ## Section 3: The loop after the last word -/

/-- What `wait_ready` makes of the value `i` of the status. -/
def waitOutcome (st : Nat → UInt8) (i : Nat) : Option Bool :=
  if DRQ (st i) then some true else if ERR (st i) || IDX (st i) then some false else none

/-- The fifteen values that are read first. -/
theorem first_reads (d : Drive) (n : Nat) :
    forLoop (fun _ (p : UInt8 × Drive) => port_byte_in 0x1F7 p.2) (n + 1) (0, { d with reads := 0 })
      = (d.status d.phase n, { d with reads := n + 1 }) := by
  induction n with
  | zero => rfl
  | succ n ih =>
    rw [forLoop_succ, ih]
    rfl

theorem waitRound_eq (d : Drive) (i : Nat) :
    waitRound true (d.status d.phase i, { d with reads := i + 1 }) =
      match waitOutcome (d.status d.phase) i with
      | some ready => .inl (ready, { d with reads := i + 1 })
      | none => .inr (d.status d.phase (i + 1), { d with reads := i + 1 + 1 }) := by
  have h8 := and_08_eq_zero (d.status d.phase i)
  have h3 := and_03_eq_zero (d.status d.phase i)
  unfold waitRound waitOutcome
  cases hdrq : DRQ (d.status d.phase i) with
  | true => simp [h8, hdrq]
  | false =>
    cases herr : ERR (d.status d.phase i) with
    | true => simp [h8, h3, hdrq, herr]
    | false =>
      cases hidx : IDX (d.status d.phase i) with
      | true => simp [h8, h3, hdrq, herr, hidx]
      | false =>
        simp [h8, h3, hdrq, herr, hidx]
        rfl

/-- **`wait_ready` with waiting** is a search from the fifteenth value on. -/
theorem wait_ready_true (d : Drive) (fuel : Nat) :
    (wait_ready fuel true { d with reads := 0 }).map (·.1) =
      searchFrom (waitOutcome (d.status d.phase)) fuel 14 := by
  let out (i : Nat) : Option (Bool × Drive) :=
    (waitOutcome (d.status d.phase) i).map fun ready => (ready, { d with reads := i + 1 })
  let state (i : Nat) : UInt8 × Drive := (d.status d.phase i, { d with reads := i + 1 })
  have hsearch : whileTrue (waitRound true) fuel (state 14) = searchFrom out fuel 14 := by
    apply whileTrue_eq_searchFrom state out
    intro i
    simp only [state, out]
    rw [waitRound_eq]
    cases waitOutcome (d.status d.phase) i <;> rfl
  unfold wait_ready
  rw [first_reads, hsearch]
  clear hsearch
  -- Only the drive that is returned with it differs.
  generalize (14 : Nat) = i
  induction fuel generalizing i with
  | zero => rfl
  | succ fuel ih =>
    unfold searchFrom
    simp only [out]
    cases waitOutcome (d.status d.phase) i with
    | some ready => rfl
    | none => exact ih (i + 1)

/-- Without waiting it returns at once. -/
theorem wait_ready_false (d : Drive) (fuel : Nat) :
    ∃ d', wait_ready (fuel + 1) false d = some (true, d') := ⟨_, rfl⟩

/-! ## Section 4: The result of a call -/

/-- What `accessDisk` returns for the answer of `wait_ready`. -/
def writeResult (ready : Bool) : DiskPtr := if ready then .buffer8 else .null

/-- **How a write ends**: with the answer of the loop after the last word. -/
theorem finishWrite_result {d : Drive} (hd : d.reads = 0) (fuel : Nat) :
    (finishWrite fuel d).map (·.1) =
      (searchFrom (waitOutcome (d.status d.phase)) fuel 14).map writeResult := by
  have hd0 : { d with reads := 0 } = d := by rw [← hd]
  have hwait := wait_ready_true d fuel
  rw [hd0] at hwait
  have h400 : wait_400 d = d := rfl
  unfold finishWrite
  rw [← hwait, h400]
  cases hready : wait_ready fuel true d with
  | none => rfl
  | some r =>
    obtain ⟨ready, d₁⟩ := r
    cases ready with
    | false => rfl
    | true =>
      cases fuel with
      | zero => cases hready
      | succ fuel =>
        obtain ⟨d₂, hflush⟩ := wait_ready_false (port_byte_out 0x1F7 0xE7 d₁) fuel
        simp only [hflush]
        rfl

/-- The drive shows the values of the next phase when the data phase begins. -/
theorem data_phase_status {fuel : Nat} {sect : Int32} {isWrite : Bool} {d d' : Drive}
    (h : pollTimes fuel 4 (sendCommand sect isWrite d) = some d') :
    d'.status = d.status ∧ d'.phase = d.phase + 1 := by
  have hcommand := sendCommand_commanded sect isWrite d
  obtain ⟨n, rfl⟩ := polled_pollTimes h
  exact ⟨hcommand.status, hcommand.phase⟩

section result
variable (fuel : Nat) (sect : Int32) (data : Sector) (σ : DiskState)

theorem accessDisk_read_result :
    (accessDisk fuel sect false data σ).map (·.1) =
      (pollTimes fuel 4 (sendCommand sect false σ.drive)).map fun _ => .buffer8 := by
  unfold accessDisk
  cases pollTimes fuel 4 (sendCommand sect false σ.drive) <;> rfl

theorem accessDisk_write_result :
    (accessDisk fuel sect true data σ).map (·.1) =
      (pollTimes fuel 4 (sendCommand sect true σ.drive)).bind fun _ =>
        (searchFrom (waitOutcome (σ.drive.status (σ.drive.phase + 2))) fuel 14).map writeResult := by
  unfold accessDisk
  cases hpoll : pollTimes fuel 4 (sendCommand sect true σ.drive) with
  | none => rfl
  | some d =>
    obtain ⟨-, htransfer⟩ := data_phase hpoll
    obtain ⟨hstatus, hphase⟩ := data_phase_status hpoll
    have hwords := writeWords_eq data (d := showErrorTypes d) htransfer
    have hresult := finishWrite_result (d := writeWords data (showErrorTypes d))
      (by rw [hwords]; rfl) fuel
    have hst : (writeWords data (showErrorTypes d)).status (writeWords data (showErrorTypes d)).phase
        = σ.drive.status (σ.drive.phase + 2) := by
      rw [hwords]
      show d.status (d.phase + 1) = _
      rw [hstatus, hphase]
    rw [hst] at hresult
    show Option.map _ _ = (searchFrom _ fuel 14).map writeResult
    rw [← hresult]
    dsimp only
    rw [if_pos rfl]
    cases finishWrite fuel (writeWords data (showErrorTypes d)) <;> rfl

end result

/-! ## Section 5: Drives that succeed or fail -/

/-- A stream of status values that comes to rest: until then the drive is busy
    or shows neither DRQ nor ERR, and from then on it is not busy and `P` holds. -/
def Settles (st : Nat → UInt8) (P : UInt8 → Prop) : Prop :=
  ∃ N, (∀ n < N, BSY (st n) = true ∨ DRQ (st n) = false ∧ ERR (st n) = false) ∧
    ∀ n, N ≤ n → BSY (st n) = false ∧ P (st n)

/-- The values that the status port shows after the next command, and after the
    last word of a write. -/
def afterCommand (d : Drive) : Nat → UInt8 := d.status (d.phase + 1)
def afterData (d : Drive) : Nat → UInt8 := d.status (d.phase + 2)

/-- The drive accepts the command: it asks for data. -/
def DataRequested (d : Drive) : Prop := Settles (afterCommand d) fun status => DRQ status = true

/-- The drive carries the command out: after the last word of a write it is idle. -/
def Succeeds (isWrite : Bool) (d : Drive) : Prop :=
  DataRequested d ∧ (isWrite = true → Settles (afterData d) fun status =>
    DRQ status = false ∧ ERR status = false)

/-- The drive refuses the command: it reports an error instead of asking for data. -/
def Refuses (d : Drive) : Prop :=
  Settles (afterCommand d) fun status => ERR status = true ∧ DRQ status = false

/-- The drive reports an error after the last word of a write. -/
def WriteFails (d : Drive) : Prop :=
  Settles (afterData d) fun status => ERR status = true ∧ DRQ status = false

/-- The drive reports an error, at once or after the last word of a write. -/
def Fails (isWrite : Bool) (d : Drive) : Prop :=
  Refuses d ∨ isWrite = true ∧ DataRequested d ∧ WriteFails d

/-- The call returns, and returns NULL exactly if the command failed. -/
def Reports (sect : Int32) (isWrite : Bool) (data : Sector) (σ : DiskState) : Prop :=
  (∃ fuel, (accessDisk fuel sect isWrite data σ).isSome = true) ∧
    ∀ fuel p σ', accessDisk fuel sect isWrite data σ = some (p, σ') →
      (p = .null ↔ Fails isWrite σ.drive)

/-- After the last word the drive still asks for data, at the fifteenth value or
    later and before it shows ERR or IDX. -/
def LateRequest (st : Nat → UInt8) : Prop :=
  ∃ n, 14 ≤ n ∧ DRQ (st n) = true ∧
    ∀ m, 14 ≤ m → m < n → DRQ (st m) = false ∧ ERR (st m) = false ∧ IDX (st m) = false

theorem waitOutcome_eq_true_iff (st : Nat → UInt8) (i : Nat) :
    waitOutcome st i = some true ↔ DRQ (st i) = true := by
  unfold waitOutcome
  cases DRQ (st i) <;> cases ERR (st i) <;> cases IDX (st i) <;> simp

theorem waitOutcome_eq_none_iff (st : Nat → UInt8) (i : Nat) :
    waitOutcome st i = none ↔ DRQ (st i) = false ∧ ERR (st i) = false ∧ IDX (st i) = false := by
  unfold waitOutcome
  cases DRQ (st i) <;> cases ERR (st i) <;> cases IDX (st i) <;> simp

/-- The search of `wait_ready` succeeds exactly on a late request. -/
theorem lateRequest_iff (st : Nat → UInt8) :
    LateRequest st ↔ ∃ fuel, searchFrom (waitOutcome st) fuel 14 = some true := by
  constructor
  · rintro ⟨n, hn, hdrq, hbefore⟩
    refine ⟨n + 1, searchFrom_of_first hn (by omega) ((waitOutcome_eq_true_iff st n).mpr hdrq) ?_⟩
    intro m hm hmn
    exact (waitOutcome_eq_none_iff st m).mpr (hbefore m hm hmn)
  · rintro ⟨fuel, hsearch⟩
    obtain ⟨n, hn, -, hhit, hmin⟩ := searchFrom_eq_some hsearch
    refine ⟨n, hn, (waitOutcome_eq_true_iff st n).mp hhit, ?_⟩
    intro m hm hmn
    exact (waitOutcome_eq_none_iff st m).mp (hmin m hm hmn)

theorem DataRequested.not_refuses {d : Drive} (h : DataRequested d) : ¬ Refuses d := by
  rintro ⟨M, -, hfail⟩
  obtain ⟨N, -, hrequest⟩ := h
  have hdrq := (hrequest (max N M) (by omega)).2
  have hclear := (hfail (max N M) (by omega)).2.2
  rw [hdrq] at hclear
  cases hclear

/-- A drive that has asked for data can fail in a write only. -/
theorem DataRequested.fails_iff {d : Drive} (h : DataRequested d) (isWrite : Bool) :
    Fails isWrite d ↔ isWrite = true ∧ WriteFails d :=
  ⟨fun hfails => hfails.elim (fun hrefuses => absurd hrefuses h.not_refuses)
    fun hlate => ⟨hlate.1, hlate.2.2⟩, fun hlate => .inr ⟨hlate.1, h, hlate.2⟩⟩

/-- The search of `wait_ready` ends on a drive that fails after the last word. -/
theorem WriteFails.search_ends {d : Drive} (h : WriteFails d) :
    ∃ fuel ready, searchFrom (waitOutcome (afterData d)) fuel 14 = some ready := by
  obtain ⟨N, -, hfail⟩ := h
  refine ⟨N + 1, ?_⟩
  cases hsearch : searchFrom (waitOutcome (afterData d)) (N + 1) 14 with
  | some ready => exact ⟨ready, rfl⟩
  | none =>
    -- The value at which the drive has settled would have ended it.
    have hlast := searchFrom_eq_none hsearch (N + 14) (by omega) (by omega)
    obtain ⟨-, herr, -⟩ := (waitOutcome_eq_none_iff _ _).mp hlast
    rw [(hfail (N + 14) (by omega)).2.1] at herr
    cases herr

section poll
variable (sect : Int32) (isWrite : Bool) {d : Drive}

/-- The command leaves a drive that has not been polled yet. -/
theorem sendCommand_fresh (d : Drive) :
    { sendCommand sect isWrite d with reads := 0 } = sendCommand sect isWrite d ∧
      (sendCommand sect isWrite d).status (sendCommand sect isWrite d).phase = afterCommand d := by
  have hcommand := sendCommand_commanded sect isWrite d
  constructor
  · rw [← hcommand.reads]
  · rw [hcommand.status, hcommand.phase]
    rfl

theorem pollTimes_of_requested (h : DataRequested d) :
    ∃ N, ∀ fuel, N < fuel → ∃ d', pollTimes fuel 4 (sendCommand sect isWrite d) = some d' := by
  obtain ⟨N, -, hrequest⟩ := h
  obtain ⟨hfresh, hstatus⟩ := sendCommand_fresh sect isWrite d
  refine ⟨N, ?_⟩
  intro fuel hfuel
  have hready : ∀ n, N ≤ n → Ready ((sendCommand sect isWrite d).status
      (sendCommand sect isWrite d).phase n) = true := by
    intro n hn
    obtain ⟨hbusy, hdrq⟩ := hrequest n hn
    rw [hstatus]
    simp [Ready, hbusy, hdrq]
  obtain ⟨j, hpoll⟩ := pollTimes_isSome (sendCommand sect isWrite d) hready hfuel 4 0
  rw [hfresh] at hpoll
  exact ⟨_, hpoll⟩

theorem pollTimes_of_refuses (h : Refuses d) (fuel : Nat) :
    pollTimes fuel 4 (sendCommand sect isWrite d) = none := by
  obtain ⟨N, hbefore, hfail⟩ := h
  obtain ⟨hfresh, hstatus⟩ := sendCommand_fresh sect isWrite d
  rw [← hfresh]
  refine pollTimes_eq_none _ ?_ fuel 3 0
  intro n
  rw [hstatus]
  by_cases hn : n < N
  · rcases hbefore n hn with hbusy | ⟨hdrq, -⟩
    · simp [Ready, hbusy]
    · simp [Ready, hdrq]
  · simp [Ready, (hfail n (by omega)).2.2]

end poll

/-! ## Section 6: Which calls end and report -/

section reports
variable {sect : Int32} {data : Sector} {σ : DiskState}

/-- Reads of a drive that asks for data. -/
theorem read_reports (h : DataRequested σ.drive) : Reports sect false data σ := by
  constructor
  · obtain ⟨N, hpoll⟩ := pollTimes_of_requested sect false h
    obtain ⟨d', hd'⟩ := hpoll (N + 1) (by omega)
    have hresult := accessDisk_read_result (N + 1) sect data σ
    rw [hd'] at hresult
    exact ⟨N + 1, by rw [← Option.isSome_map, hresult]; rfl⟩
  · intro fuel p σ' hcall
    obtain ⟨rfl, -, -⟩ := accessDisk_read hcall
    constructor
    · intro hnull
      cases hnull
    · intro hfails
      cases ((h.fails_iff false).mp hfails).1

/-- The pointer that a write of such a drive returns. -/
theorem write_result {fuel : Nat} {p : DiskPtr} {σ' : DiskState}
    (hcall : accessDisk fuel sect true data σ = some (p, σ')) :
    ∃ ready, searchFrom (waitOutcome (afterData σ.drive)) fuel 14 = some ready ∧
      p = writeResult ready := by
  have hresult := accessDisk_write_result fuel sect data σ
  rw [hcall] at hresult
  obtain ⟨d', -, hd'⟩ := Option.bind_eq_some_iff.mp hresult.symm
  obtain ⟨ready, hready, hp⟩ := Option.map_eq_some_iff.mp hd'
  exact ⟨ready, hready, hp.symm⟩

/-- A write returns, if the loop after the last word ends. -/
theorem write_returns (h : DataRequested σ.drive) {fuel : Nat} {ready : Bool}
    (hsearch : searchFrom (waitOutcome (afterData σ.drive)) fuel 14 = some ready) :
    ∃ fuel', (accessDisk fuel' sect true data σ).isSome = true := by
  obtain ⟨n, hn, -, hhit, hmin⟩ := searchFrom_eq_some hsearch
  obtain ⟨N, hpoll⟩ := pollTimes_of_requested sect true h
  obtain ⟨d', hd'⟩ := hpoll (max (N + 1) (n + 1)) (by omega)
  have hresult := accessDisk_write_result (max (N + 1) (n + 1)) sect data σ
  have hfound := searchFrom_of_first (n := max (N + 1) (n + 1)) hn (by omega) hhit hmin
  unfold afterData at hfound
  rw [hd', Option.bind_some, hfound] at hresult
  exact ⟨max (N + 1) (n + 1), by rw [← Option.isSome_map, hresult]; rfl⟩

theorem writeResult_eq_null_iff (ready : Bool) : writeResult ready = .null ↔ ready = false := by
  cases ready
  · exact iff_of_true rfl rfl
  · exact iff_of_false (fun h => by cases h) (fun h => by cases h)

/-- **Writes** of a drive that asks for data: the late request stands for success. -/
theorem write_reports_iff (h : DataRequested σ.drive) :
    Reports sect true data σ ↔ (LateRequest (afterData σ.drive) ↔ ¬ WriteFails σ.drive) := by
  have hfails := (h.fails_iff true).trans (and_iff_right rfl)
  -- The loop after the last word finds a late request, or an error first.
  have hlate : ∀ fuel ready, searchFrom (waitOutcome (afterData σ.drive)) fuel 14 = some ready →
      (LateRequest (afterData σ.drive) ↔ ready = true) := by
    intro fuel ready hsearch
    rw [lateRequest_iff]
    exact ⟨fun ⟨_, hfound⟩ => searchFrom_unique hsearch hfound, fun heq => ⟨fuel, heq ▸ hsearch⟩⟩
  constructor
  · rintro ⟨⟨fuel, hreturn⟩, hreport⟩
    obtain ⟨⟨p, σ'⟩, hcall⟩ := Option.isSome_iff_exists.mp hreturn
    obtain ⟨ready, hready, hp⟩ := write_result hcall
    have hnull := hreport fuel p σ' hcall
    rw [hp, writeResult_eq_null_iff, hfails] at hnull
    rw [hlate fuel ready hready, ← hnull, Bool.not_eq_false]
  · intro hiff
    have hends : ∃ fuel ready,
        searchFrom (waitOutcome (afterData σ.drive)) fuel 14 = some ready := by
      by_cases hwrite : WriteFails σ.drive
      · exact hwrite.search_ends
      · obtain ⟨fuel, hsearch⟩ := (lateRequest_iff _).mp (hiff.mpr hwrite)
        exact ⟨fuel, true, hsearch⟩
    obtain ⟨fuel, ready, hsearch⟩ := hends
    refine ⟨write_returns h hsearch, ?_⟩
    intro fuel' p σ' hcall
    obtain ⟨ready', hready, rfl⟩ := write_result hcall
    obtain rfl := searchFrom_unique hsearch hready
    rw [writeResult_eq_null_iff, hfails, ← Bool.not_eq_true, ← hlate fuel ready hsearch, hiff,
      not_not]

end reports

/-- **Main theorem on disk errors**: on a drive that succeeds or fails, a call
    ends and reports exactly if the drive asks for data and, after the last word
    of a write, asks for some again exactly if it does not fail there. -/
theorem accessDisk_reports_iff (sect : Int32) (isWrite : Bool) (data : Sector) (σ : DiskState)
    (h : Succeeds isWrite σ.drive ∨ Fails isWrite σ.drive) :
    Reports sect isWrite data σ ↔
      DataRequested σ.drive ∧ (isWrite = true →
        (LateRequest (afterData σ.drive) ↔ ¬ WriteFails σ.drive)) := by
  have hreports : DataRequested σ.drive → (Reports sect isWrite data σ ↔
      DataRequested σ.drive ∧ (isWrite = true →
        (LateRequest (afterData σ.drive) ↔ ¬ WriteFails σ.drive))) := by
    intro hrequest
    cases isWrite with
    | false => exact ⟨fun _ => ⟨hrequest, fun hw => by cases hw⟩, fun _ => read_reports hrequest⟩
    | true =>
      rw [write_reports_iff hrequest]
      exact ⟨fun hlate => ⟨hrequest, fun _ => hlate⟩, fun hboth => hboth.2 rfl⟩
  rcases h with hsucceeds | hrefuses | hlate
  · exact hreports hsucceeds.1
  · constructor
    -- A refused command keeps the first loop going for ever.
    · rintro ⟨⟨fuel, hreturn⟩, -⟩
      obtain ⟨r, hcall⟩ := Option.isSome_iff_exists.mp hreturn
      unfold accessDisk at hcall
      rw [pollTimes_of_refuses sect isWrite hrefuses fuel] at hcall
      cases hcall
    · rintro ⟨hrequest, -⟩
      exact absurd hrefuses hrequest.not_refuses
  · exact hreports hlate.2.1

/-- A drive that shows the same status in every phase but the first. -/
def steadyDrive (command rest : UInt8) : DiskState where
  drive := ⟨fun _ _ => 0, 0, 0, 0, 0, 0, 0, .idle, fun p _ => if p = 1 then command else rest, 0, 0⟩
  buffer8 := fun _ => 0

theorem settles_const {status : UInt8} {P : UInt8 → Prop} (hbusy : BSY status = false)
    (h : P status) : Settles (fun _ => status) P :=
  ⟨0, fun _ hn => absurd hn (by omega), fun _ _ => ⟨hbusy, h⟩⟩

/-- A read that the drive answers with ERR, and a write that it carries out:
    neither ends. -/
theorem accessDisk_never_ends :
    (Fails false (steadyDrive 0x51 0x51).drive ∧
        ¬ Reports 5 false emptyData (steadyDrive 0x51 0x51)) ∧
      Succeeds true (steadyDrive 0x58 0x50).drive ∧
        ¬ Reports 5 true emptyData (steadyDrive 0x58 0x50) := by
  have hrefuses : Refuses (steadyDrive 0x51 0x51).drive := settles_const (by decide) (by decide)
  have hrequest : DataRequested (steadyDrive 0x58 0x50).drive :=
    settles_const (by decide) (by decide)
  have hidle : Settles (afterData (steadyDrive 0x58 0x50).drive) fun status =>
      DRQ status = false ∧ ERR status = false := settles_const (by decide) (by decide)
  refine ⟨⟨.inl hrefuses, ?_⟩, ⟨hrequest, fun _ => hidle⟩, ?_⟩
  · rintro ⟨⟨fuel, hreturn⟩, -⟩
    obtain ⟨r, hcall⟩ := Option.isSome_iff_exists.mp hreturn
    unfold accessDisk at hcall
    rw [pollTimes_of_refuses 5 false hrefuses fuel] at hcall
    cases hcall
  · rw [write_reports_iff hrequest]
    intro hiff
    have hgood : ¬ WriteFails (steadyDrive 0x58 0x50).drive := by
      rintro ⟨N, -, hfail⟩
      exact absurd (hfail N (Nat.le_refl N)).2.1 (by show ¬ ERR 0x50 = true; decide)
    obtain ⟨n, -, hdrq, -⟩ := hiff.mpr hgood
    exact absurd hdrq (by show ¬ DRQ 0x50 = true; decide)

/-- A read from a drive that asks for data, and a write to one that sets ERR
    after the last word: the write returns NULL. -/
theorem accessDisk_reports_iff_late :
    Reports 5 false emptyData (steadyDrive 0x58 0x50) ∧
      Reports 5 true emptyData (steadyDrive 0x58 0x51) ∧
      ∃ fuel σ', accessDisk fuel 5 true emptyData (steadyDrive 0x58 0x51) = some (.null, σ') := by
  have hread : DataRequested (steadyDrive 0x58 0x50).drive :=
    settles_const (by decide) (by decide)
  have hwrite : DataRequested (steadyDrive 0x58 0x51).drive :=
    settles_const (by decide) (by decide)
  have hfails : WriteFails (steadyDrive 0x58 0x51).drive := settles_const (by decide) (by decide)
  have hlate : ¬ LateRequest (afterData (steadyDrive 0x58 0x51).drive) := by
    rintro ⟨n, -, hdrq, -⟩
    exact absurd hdrq (by show ¬ DRQ 0x51 = true; decide)
  have hreports := (accessDisk_reports_iff 5 true emptyData (steadyDrive 0x58 0x51)
    (.inr (.inr ⟨rfl, hwrite, hfails⟩))).mpr
      ⟨hwrite, fun _ => iff_of_false hlate (not_not.mpr hfails)⟩
  refine ⟨(accessDisk_reports_iff 5 false emptyData (steadyDrive 0x58 0x50)
    (.inl ⟨hread, fun hw => by cases hw⟩)).mpr ⟨hread, fun hw => by cases hw⟩, hreports, ?_⟩
  obtain ⟨⟨fuel, hreturn⟩, hnull⟩ := hreports
  obtain ⟨⟨p, σ'⟩, hcall⟩ := Option.isSome_iff_exists.mp hreturn
  obtain rfl := (hnull fuel p σ' hcall).mpr (.inr ⟨rfl, hwrite, hfails⟩)
  exact ⟨fuel, σ', hcall⟩

end Ata

end ArgaldOS
