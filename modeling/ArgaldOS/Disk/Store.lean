import ArgaldOS.Disk.Model
import ArgaldOS.Framework.Runs
import ArgaldOS.Framework.Words

/-! # The disk as a store of blocks

    Whatever status the drive shows, a call of the driver that returns has
    addressed the sector with the given number and moved its 512 bytes:

    * `accessDisk_read`, `accessDisk_write`: what one call does;
    * `disk_round_trip`: a block that was written is read back, and no other
      sector changes;
    * `exec_blocks`: over any run of calls the drive refines a map from sector
      numbers to blocks.
-/

namespace ArgaldOS

namespace Ata

open Loops Runs Drive

/-! ## Section 1: The command -/

/-- The byte for the drive select port has bits 4 to 7 set. -/
theorem toNat_driveSelect (sect : Int32) :
    (driveSelect sect).toNat = 0xF0 + sect.toUInt32.toNat / 2 ^ 24 % 16 := by
  have hbyte := Words.toNat_sar_byte sect 24 (n := 24) (by decide) (by decide)
  unfold driveSelect
  generalize sect >>> 24 = high at hbyte ⊢
  have hconst : (0xF0 : Int32) ||| ((1 : Int32) <<< 4) = 0xF0 := by decide
  have hselect : ((0xF0 : Int32) ||| (high &&& 0x0F)).toUInt32.toUInt8 =
      (0xF0 : UInt8) ||| (high.toUInt32.toUInt8 &&& 0x0F) := by
    rw [Int32.toUInt32_or, Int32.toUInt32_and, UInt32.toUInt8_or, UInt32.toUInt8_and]
    rfl
  have hlow : (high.toUInt32.toUInt8 &&& 0x0F).toNat = high.toUInt32.toUInt8.toNat % 2 ^ 4 := by
    rw [UInt8.toNat_and]
    exact Nat.and_two_pow_sub_one_eq_mod _ 4
  have hor := Words.lor_eq_add 0xF0 (sect.toUInt32.toNat / 2 ^ 24 % 2 ^ 8 % 2 ^ 4) 4
    (by decide) (by omega)
  rw [hconst, hselect, UInt8.toNat_or, hlow, hbyte]
  show 0xF0 ||| _ = _
  rw [hor]
  omega

/-- The four latches hold 28 bits of the sector number. -/
theorem latched_lba (sect : Int32) :
    (driveSelect sect).toNat % 16 * 2 ^ 24 + (sect >>> 16).toUInt32.toUInt8.toNat * 2 ^ 16
      + (sect >>> 8).toUInt32.toUInt8.toNat * 2 ^ 8 + sect.toUInt32.toUInt8.toNat =
    lba28 sect.toUInt32 := by
  have hhigh := Words.toNat_sar_byte sect 16 (n := 16) (by simp) (by simp)
  have hmid := Words.toNat_sar_byte sect 8 (n := 8) (by simp) (by simp)
  rw [toNat_driveSelect, hhigh, hmid, UInt32.toNat_toUInt8]
  unfold lba28
  omega

/-- What the port writes of a command establish. -/
structure Commanded (sect : Int32) (isWrite : Bool) (d d' : Drive) : Prop where
  sectors  : d'.sectors = d.sectors
  status   : d'.status = d.status
  phase    : d'.phase = d.phase + 1
  reads    : d'.reads = 0
  transfer : d'.transfer =
    if isWrite then .write (lba28 sect.toUInt32) 0 else .read (lba28 sect.toUInt32) 0

theorem sendCommand_commanded (sect : Int32) (isWrite : Bool) (d : Drive) :
    Commanded sect isWrite d (sendCommand sect isWrite d) := by
  have hselect := toNat_driveSelect sect
  have hlba := latched_lba sect
  -- The slave and LBA mode are selected.
  have h4 : (driveSelect sect).toNat.testBit 4 = true := by
    rw [Nat.testBit_eq_decide_div_mod_eq, decide_eq_true_eq, hselect]
    omega
  have h6 : (driveSelect sect).toNat.testBit 6 = true := by
    rw [Nat.testBit_eq_decide_div_mod_eq, decide_eq_true_eq, hselect]
    omega
  unfold sendCommand
  generalize driveSelect sect = select at *
  generalize (sect >>> 16).toUInt32.toUInt8 = high at *
  generalize (sect >>> 8).toUInt32.toUInt8 = mid at *
  generalize sect.toUInt32.toUInt8 = low at *
  have haddress : ∀ d' : Drive, d'.device = select → d'.lbaHigh = high → d'.lbaMid = mid →
      d'.lbaLow = low → d'.lba = lba28 sect.toUInt32 := by
    intro d' hd hh hm hl
    unfold Drive.lba
    rw [hd, hh, hm, hl]
    exact hlba
  cases isWrite <;>
    constructor <;>
    simp [port_byte_out, wait_400, command, selected, oneSector, nextPhase, h4, h6, haddress]

/-! ## Section 2: Polling -/

/-- Reading the status counts the reads and changes nothing else. -/
def Polled (d d' : Drive) : Prop := ∃ n, d' = { d with reads := n }

theorem Polled.refl (d : Drive) : Polled d d := ⟨d.reads, rfl⟩

theorem Polled.trans {d d' d'' : Drive} (h : Polled d d') (h' : Polled d' d'') : Polled d d'' := by
  obtain ⟨n, rfl⟩ := h
  obtain ⟨m, rfl⟩ := h'
  exact ⟨m, rfl⟩

theorem port_byte_in_status (d : Drive) :
    port_byte_in 0x1F7 d = (d.status d.phase d.reads, { d with reads := d.reads + 1 }) := rfl

theorem polled_port_byte_in (d : Drive) : Polled d (port_byte_in 0x1F7 d).2 := ⟨d.reads + 1, rfl⟩

/-- A round of the polling loop, on both ways. -/
theorem polled_pollRound {d d' : Drive} (h : pollRound d = .inl d' ∨ pollRound d = .inr d') :
    Polled d d' := by
  have hnext := polled_port_byte_in d
  unfold pollRound at h
  dsimp only at h
  split at h
  · obtain rfl := Sum.inl.inj (h.resolve_right (by simp))
    exact hnext
  · obtain rfl := Sum.inr.inj (h.resolve_left (by simp))
    exact hnext

theorem polled_pollTimes {fuel n : Nat} {d d' : Drive} (h : pollTimes fuel n d = some d') :
    Polled d d' := by
  induction n generalizing d with
  | zero =>
    obtain rfl := Option.some.inj h
    exact Polled.refl d
  | succ n ih =>
    obtain ⟨d₁, hloop, hrest⟩ := Option.bind_eq_some_iff.mp h
    have hround : Polled d d₁ := by
      refine whileTrue_invariant (Polled d) (Polled d) ?_ ?_ (Polled.refl d) hloop
      · intro e e' he hout
        exact he.trans (polled_pollRound (Or.inl hout))
      · intro e e' he hnext
        exact he.trans (polled_pollRound (Or.inr hnext))
    exact hround.trans (ih hrest)

theorem polled_wait_ready {fuel : Nat} {wait_drm ready : Bool} {d d' : Drive}
    (h : wait_ready fuel wait_drm d = some (ready, d')) : Polled d d' := by
  refine whileTrue_invariant (fun p : UInt8 × Drive => Polled d p.2)
    (fun r : Bool × Drive => Polled d r.2) ?_ ?_ ?_ h
  · rintro ⟨status, e⟩ r he hout
    unfold waitRound at hout
    dsimp only at hout
    split at hout
    · split at hout
      · obtain rfl := Sum.inl.inj hout
        exact he
      · cases hout
    · obtain rfl := Sum.inl.inj hout
      exact he
  · rintro ⟨status, e⟩ p he hnext
    unfold waitRound at hnext
    dsimp only at hnext
    split at hnext
    · split at hnext
      · cases hnext
      · obtain rfl := Sum.inr.inj hnext
        exact he.trans (polled_port_byte_in e)
    · cases hnext
  · -- The fifteen reads before the loop.
    apply forLoop_invariant (fun _ (p : UInt8 × Drive) => Polled d p.2) (Polled.refl d)
    intro i p _ hp
    exact hp.trans (polled_port_byte_in p.2)

/-! ## Section 3: The data port -/

/-- A sector of which the first `n` bytes have been replaced. -/
def overwrite (sector data : Sector) (n : Nat) : Sector := fun j => if j < n then data j else sector j

@[simp] theorem overwrite_zero (sector data : Sector) : overwrite sector data 0 = sector := by
  funext j
  simp [overwrite]

theorem overwrite_lt {sector data : Sector} {n j : Nat} (h : j < n) :
    overwrite sector data n j = data j := if_pos h

/-- Two more bytes. -/
theorem overwrite_step (sector data : Sector) (i : Nat) :
    Function.update (Function.update (overwrite sector data (2 * i)) (2 * i) (data (2 * i)))
      (2 * i + 1) (data (2 * i + 1)) = overwrite sector data (2 * (i + 1)) := by
  funext j
  unfold overwrite
  by_cases h1 : j = 2 * i + 1
  · subst h1
    rw [Function.update_self, if_pos (by omega)]
  · rw [Function.update_of_ne h1]
    by_cases h2 : j = 2 * i
    · subst h2
      rw [Function.update_self, if_pos (by omega)]
    · rw [Function.update_of_ne h2]
      by_cases h3 : j < 2 * i
      · rw [if_pos h3, if_pos (by omega)]
      · rw [if_neg h3, if_neg (by omega)]

/-- Storing the word that the driver makes of two bytes stores the two bytes. -/
theorem storeWord_packed (d : Drive) (lba words : Nat) (hi lo : UInt8) :
    d.storeWord lba words ((hi.toUInt16 <<< 8) ||| lo.toUInt16) =
      Function.update d.sectors lba (Function.update
        (Function.update (d.sectors lba) (2 * words) lo) (2 * words + 1) hi) := by
  have h1 := hi.toNat_lt
  have h2 := lo.toNat_lt
  have hword := Words.toNat_word16 hi lo
  have hlow : UInt8.ofNat (((hi.toUInt16 <<< 8) ||| lo.toUInt16).toNat % 256) = lo := by
    rw [hword, show (hi.toNat * 2 ^ 8 + lo.toNat) % 256 = lo.toNat by omega, UInt8.ofNat_toNat]
  have hhigh : UInt8.ofNat (((hi.toUInt16 <<< 8) ||| lo.toUInt16).toNat / 256) = hi := by
    rw [hword, show (hi.toNat * 2 ^ 8 + lo.toNat) / 256 = hi.toNat by omega, UInt8.ofNat_toNat]
  unfold storeWord
  rw [hlow, hhigh]

theorem port_word_out_write {d : Drive} {lba words : Nat} (h : d.transfer = .write lba words)
    (data : UInt16) :
    port_word_out 0x1F0 data d =
      if words + 1 = 256 then nextPhase { d with sectors := d.storeWord lba words data } .idle
      else { d with sectors := d.storeWord lba words data, transfer := .write lba (words + 1) } := by
  unfold port_word_out
  rw [if_neg (by simp), h]

theorem port_word_in_read {d : Drive} {lba words : Nat} (h : d.transfer = .read lba words) :
    port_word_in 0x1F0 d =
      (UInt16.ofNat ((d.sectors lba (2 * words)).toNat
          + 256 * (d.sectors lba (2 * words + 1)).toNat),
        if words + 1 = 256 then d.nextPhase .idle
        else { d with transfer := .read lba (words + 1) }) := by
  unfold port_word_in
  rw [if_neg (by simp), h]

/-- **The writing loop** stores the block in the addressed sector and ends the
    transfer. -/
theorem writeWords_eq (data : Sector) {d : Drive} {lba : Nat} (h : d.transfer = .write lba 0) :
    writeWords data d =
      nextPhase
        { d with sectors := Function.update d.sectors lba (overwrite (d.sectors lba) data 512) }
        .idle := by
  let stored (i : Nat) : Drive :=
    { d with sectors := Function.update d.sectors lba (overwrite (d.sectors lba) data (2 * i)) }
  let Inv (i : Nat) (e : Drive) : Prop :=
    e = if i = 256 then (stored 256).nextPhase .idle else { stored i with transfer := .write lba i }
  have hrun : Inv 256 (writeWords data d) := by
    unfold writeWords
    apply forLoop_invariant Inv
    · show d = { stored 0 with transfer := .write lba 0 }
      simp only [stored, Nat.mul_zero, overwrite_zero, Function.update_eq_self, ← h]
    · intro i e hi he
      simp only [Inv] at he ⊢
      rw [if_neg (by omega)] at he
      subst he
      -- Word `i` replaces bytes `2 i` and `2 i + 1`.
      have hstore : storeWord { stored i with transfer := .write lba i } lba i
          (((data (2 * i + 1)).toUInt16 <<< 8) ||| (data (2 * i)).toUInt16) =
          (stored (i + 1)).sectors := by
        rw [storeWord_packed]
        simp only [stored, Function.update_self, Function.update_idem, overwrite_step]
      rw [port_word_out_write rfl, hstore]
      by_cases hlast : i + 1 = 256
      · rw [if_pos hlast, if_pos hlast]
        obtain rfl : i = 255 := by omega
        rfl
      · rw [if_neg hlast, if_neg hlast]
  simpa only [Inv, if_true] using hrun

/-- The bytes of a word that the drive delivers. -/
theorem delivered_bytes (lo hi : UInt8) :
    (UInt16.ofNat (lo.toNat + 256 * hi.toNat) &&& 0xFF).toUInt8 = lo ∧
      ((UInt16.ofNat (lo.toNat + 256 * hi.toNat) >>> 8) &&& 0xFF).toUInt8 = hi := by
  have h1 := lo.toNat_lt
  have h2 := hi.toNat_lt
  have hval : (UInt16.ofNat (lo.toNat + 256 * hi.toNat)).toNat = lo.toNat + 256 * hi.toNat := by
    rw [UInt16.toNat_ofNat']
    omega
  constructor
  · apply UInt8.toNat_inj.mp
    rw [Words.toNat_lowByte, hval]
    omega
  · apply UInt8.toNat_inj.mp
    rw [Words.toNat_highByte, hval]
    omega

/-- **The reading loop** copies the addressed sector into the buffer and ends
    the transfer. -/
theorem readWords_eq (buffer8 : Sector) {d : Drive} {lba : Nat} (h : d.transfer = .read lba 0) :
    readWords buffer8 d = (overwrite buffer8 (d.sectors lba) 512, d.nextPhase .idle) := by
  let Inv (i : Nat) (p : Sector × Drive) : Prop :=
    p = (overwrite buffer8 (d.sectors lba) (2 * i),
      if i = 256 then d.nextPhase .idle else { d with transfer := .read lba i })
  have hrun : Inv 256 (readWords buffer8 d) := by
    unfold readWords
    apply forLoop_invariant Inv
    · simp only [Inv]
      rw [if_neg (by simp), Nat.mul_zero, overwrite_zero, ← h]
    · intro i p hi hp
      simp only [Inv] at hp ⊢
      rw [if_neg (by omega)] at hp
      subst hp
      obtain ⟨hlow, hhigh⟩ := delivered_bytes (d.sectors lba (2 * i)) (d.sectors lba (2 * i + 1))
      have hne : 2 * i + 1 ≠ 2 * i := by omega
      rw [port_word_in_read rfl]
      dsimp only
      rw [hlow, hhigh, Function.update_comm hne, overwrite_step]
      by_cases hlast : i + 1 = 256
      · rw [if_pos hlast, if_pos hlast]
        rfl
      · rw [if_neg hlast, if_neg hlast]
  simpa only [Inv, if_true] using hrun

/-! ## Section 4: One call -/

/-- Port writes of single bytes change no sector. -/
theorem sectors_port_byte_out (port : UInt16) (data : UInt8) (d : Drive) :
    (port_byte_out port data d).sectors = d.sectors := by
  have hcommand : (d.command data).sectors = d.sectors := by
    unfold command nextPhase
    split <;> [rfl; split <;> [rfl; split <;> rfl]]
  unfold port_byte_out
  repeat' split
  all_goals first | rfl | exact hcommand

theorem Polled.sectors {d d' : Drive} (h : Polled d d') : d'.sectors = d.sectors := by
  obtain ⟨n, rfl⟩ := h
  rfl

theorem Polled.transfer {d d' : Drive} (h : Polled d d') : d'.transfer = d.transfer := by
  obtain ⟨n, rfl⟩ := h
  rfl

/-- After the last word no sector changes any more. -/
theorem sectors_finishWrite {fuel : Nat} {d d' : Drive} {p : DiskPtr}
    (h : finishWrite fuel d = some (p, d')) : d'.sectors = d.sectors := by
  unfold finishWrite at h
  cases hready : wait_ready fuel true (wait_400 d) with
  | none =>
    rw [hready] at h
    cases h
  | some r =>
    obtain ⟨ready, d₁⟩ := r
    have h₁ : d₁.sectors = d.sectors :=
      (polled_wait_ready hready).sectors.trans (sectors_port_byte_out _ _ _)
    rw [hready] at h
    cases ready with
    | false =>
      obtain ⟨-, rfl⟩ := Prod.mk.inj (Option.some.inj h)
      exact h₁
    | true =>
      dsimp only at h
      cases hflush : wait_ready fuel false (port_byte_out 0x1F7 0xE7 d₁) with
      | none =>
        rw [hflush] at h
        cases h
      | some r =>
        obtain ⟨flushed, d₂⟩ := r
        have h₂ : d₂.sectors = d.sectors :=
          ((polled_wait_ready hflush).sectors.trans (sectors_port_byte_out _ _ _)).trans h₁
        rw [hflush] at h
        cases flushed with
        | false =>
          obtain ⟨-, rfl⟩ := Prod.mk.inj (Option.some.inj h)
          exact h₂
        | true =>
          obtain ⟨-, rfl⟩ := Prod.mk.inj (Option.some.inj h)
          exact (sectors_port_byte_out _ _ _).trans h₂

section call
variable {fuel : Nat} {sect : Int32} {data : Sector} {s s' : DiskState} {p : DiskPtr}

/-- The state of the drive when the data phase begins. -/
theorem data_phase {isWrite : Bool} {d d' : Drive}
    (h : pollTimes fuel 4 (sendCommand sect isWrite d) = some d') :
    d'.sectors = d.sectors ∧ d'.transfer =
      if isWrite then .write (lba28 sect.toUInt32) 0 else .read (lba28 sect.toUInt32) 0 := by
  have hcommand := sendCommand_commanded sect isWrite d
  have hpolled := polled_pollTimes h
  exact ⟨hpolled.sectors.trans hcommand.sectors, hpolled.transfer.trans hcommand.transfer⟩

/-- **A read** never returns NULL, changes no sector, and leaves the sector in
    the buffer. -/
theorem accessDisk_read (h : accessDisk fuel sect false data s = some (p, s')) :
    p = .buffer8 ∧ s'.drive.sectors = s.drive.sectors ∧
      s'.buffer8 = overwrite s.buffer8 (s.drive.sectors (lba28 sect.toUInt32)) 512 := by
  unfold accessDisk at h
  cases hpoll : pollTimes fuel 4 (sendCommand sect false s.drive) with
  | none =>
    rw [hpoll] at h
    cases h
  | some d =>
    obtain ⟨hsectors, htransfer⟩ := data_phase hpoll
    rw [hpoll] at h
    simp only [readWords_eq s.buffer8 htransfer, hsectors, Bool.false_eq_true, if_false] at h
    obtain ⟨rfl, rfl⟩ := Prod.mk.inj (Option.some.inj h)
    refine ⟨rfl, ?_, rfl⟩
    exact (sectors_port_byte_out _ _ _).trans hsectors

/-- **A write** replaces the 512 bytes of the sector. -/
theorem accessDisk_write (h : accessDisk fuel sect true data s = some (p, s')) :
    s'.buffer8 = s.buffer8 ∧ s'.drive.sectors =
      Function.update s.drive.sectors (lba28 sect.toUInt32)
        (overwrite (s.drive.sectors (lba28 sect.toUInt32)) data 512) := by
  unfold accessDisk at h
  cases hpoll : pollTimes fuel 4 (sendCommand sect true s.drive) with
  | none =>
    rw [hpoll] at h
    cases h
  | some d =>
    obtain ⟨hsectors, htransfer⟩ := data_phase hpoll
    rw [hpoll] at h
    dsimp only at h
    rw [if_pos rfl] at h
    cases hfinish : finishWrite fuel (writeWords data (showErrorTypes d)) with
    | none =>
      rw [hfinish] at h
      cases h
    | some r =>
      obtain ⟨q, d'⟩ := r
      rw [hfinish] at h
      obtain ⟨-, rfl⟩ := Prod.mk.inj (Option.some.inj h)
      have hwords := sectors_finishWrite hfinish
      rw [writeWords_eq data (d := showErrorTypes d) htransfer] at hwords
      refine ⟨rfl, hwords.trans ?_⟩
      rw [← hsectors]
      rfl

end call

/-! ## Section 5: Blocks -/

/-- The 512 bytes of a sector. -/
def block (sector : Sector) : List UInt8 := (List.range 512).map sector

@[simp] theorem block_overwrite (sector data : Sector) :
    block (overwrite sector data 512) = block data := by
  unfold block
  apply List.map_congr_left
  intro j hj
  exact overwrite_lt (List.mem_range.mp hj)

/-- The block that a call of `readdisk` yields. -/
def yielded (r : DiskPtr × DiskState) : Option (List UInt8) := (r.2.contents r.1).map block

/-- A sector number of 28 bits. -/
def SectorNumber (s : Int32) : Prop := 0 ≤ s.toInt ∧ s.toInt < 2 ^ 28

instance (s : Int32) : Decidable (SectorNumber s) := inferInstanceAs (Decidable (_ ∧ _))

/-- Sector numbers are their own addresses. -/
theorem SectorNumber.lba28_eq {s : Int32} (hs : SectorNumber s) :
    (lba28 s.toUInt32 : Int) = s.toInt := by
  obtain ⟨hlo, hhi⟩ := hs
  have hlt := s.toUInt32.toNat_lt
  have hval : s.toInt = (s.toUInt32.toNat : Int).bmod (2 ^ 32) := by
    rw [← Int32.toInt_toBitVec, BitVec.toInt_eq_toNat_bmod]
    rfl
  have hcases : s.toInt = s.toUInt32.toNat ∨ s.toInt = s.toUInt32.toNat - 2 ^ 32 := by
    rw [hval, Int.bmod_def]
    omega
  unfold lba28
  omega

/-- Distinct sector numbers have distinct addresses. -/
theorem SectorNumber.lba28_ne {s t : Int32} (hs : SectorNumber s) (ht : SectorNumber t)
    (hne : t ≠ s) : lba28 t.toUInt32 ≠ lba28 s.toUInt32 := by
  intro h
  apply hne
  apply Int32.toInt_inj.mp
  rw [← hs.lba28_eq, ← ht.lba28_eq, h]

theorem readdisk_yields {fuel : Nat} {t : Int32} {σ : DiskState} {r : DiskPtr × DiskState}
    (h : readdisk fuel t σ = some r) :
    r.2.drive.sectors = σ.drive.sectors ∧
      yielded r = some (block (σ.drive.sectors (lba28 t.toUInt32))) := by
  obtain ⟨p, σ'⟩ := r
  obtain ⟨rfl, hsectors, hbuffer⟩ := accessDisk_read h
  refine ⟨hsectors, ?_⟩
  show some (block σ'.buffer8) = _
  rw [hbuffer, block_overwrite]

theorem writedisk_sectors {fuel : Nat} {s : Int32} {d : Sector} {σ σ' : DiskState}
    (h : writedisk fuel s d σ = some σ') :
    σ'.drive.sectors = Function.update σ.drive.sectors (lba28 s.toUInt32)
      (overwrite (σ.drive.sectors (lba28 s.toUInt32)) d 512) := by
  obtain ⟨⟨p, σ''⟩, hcall, rfl⟩ := Option.map_eq_some_iff.mp h
  exact (accessDisk_write hcall).2

/-- **Main theorem on the disk**: a block that was written is read back, and a
    read of another sector yields what it yielded before the write. -/
theorem disk_round_trip (s t : Int32) (hs : SectorNumber s) (ht : SectorNumber t) (d : Sector)
    (σ : DiskState) (fuel₁ fuel₂ fuel₃ : Nat) :
    (∀ σ₁ r, writedisk fuel₁ s d σ = some σ₁ → readdisk fuel₂ s σ₁ = some r →
      yielded r = some (block d)) ∧
    (t ≠ s → ∀ before σ₁ after, readdisk fuel₁ t σ = some before →
      writedisk fuel₂ s d before.2 = some σ₁ → readdisk fuel₃ t σ₁ = some after →
        yielded after = yielded before) := by
  constructor
  · intro σ₁ r hwrite hread
    obtain ⟨-, hyields⟩ := readdisk_yields hread
    rw [hyields, writedisk_sectors hwrite, Function.update_self, block_overwrite]
  · intro hne before σ₁ after hbefore hwrite hafter
    obtain ⟨hsectors, hyields⟩ := readdisk_yields hbefore
    obtain ⟨-, hyields'⟩ := readdisk_yields hafter
    rw [hyields, hyields', writedisk_sectors hwrite, Function.update_of_ne (hs.lba28_ne ht hne),
      hsectors]

/-- A drive that always asks for data: sector 3 is written and read back, and
    sector 4 is read before and after. -/
theorem disk_round_trip_sectors34 :
    let drive : Drive := ⟨fun _ _ => 0, 0, 0, 0, 0, 0, 0, .idle, fun _ _ => 0x58, 0, 0⟩
    let data : Sector := fun j => UInt8.ofNat j
    ∃ before σ₁ after r, readdisk 20 4 ⟨drive, fun _ => 0⟩ = some before ∧
      writedisk 20 3 data before.2 = some σ₁ ∧ readdisk 20 4 σ₁ = some after ∧
      readdisk 20 3 σ₁ = some r ∧ yielded r = some (block data) ∧
      yielded after = yielded before := by
  intro drive data
  have hreturn : (((readdisk 20 4 ⟨drive, fun _ => 0⟩).bind fun before =>
      writedisk 20 3 data before.2).bind fun σ₁ =>
        (readdisk 20 4 σ₁).bind fun _ => readdisk 20 3 σ₁).isSome = true := by
    decide +kernel
  obtain ⟨r, hr⟩ := Option.isSome_iff_exists.mp hreturn
  obtain ⟨σ₁, hwritten, hreads⟩ := Option.bind_eq_some_iff.mp hr
  obtain ⟨before, hbefore, hwrite⟩ := Option.bind_eq_some_iff.mp hwritten
  obtain ⟨after, hafter, hread⟩ := Option.bind_eq_some_iff.mp hreads
  refine ⟨before, σ₁, after, r, hbefore, hwrite, hafter, hread, ?_, ?_⟩
  · exact (disk_round_trip 3 4 (by decide) (by decide) data before.2 20 20 20).1 σ₁ r hwrite hread
  · exact (disk_round_trip 3 4 (by decide) (by decide) data ⟨drive, fun _ => 0⟩ 20 20 20).2
      (by decide) before σ₁ after hbefore hwrite hafter

/-! ## Section 6: Runs -/

/-- A call of the driver, with the number of polls that it may take. -/
inductive DiskCall where
  | readdisk (fuel : Nat) (sect : Int32)
  | writedisk (fuel : Nat) (sect : Int32) (data : Sector)

/-- One call. -/
def diskStep (σ : DiskState) : DiskCall → Option DiskState
  | .readdisk fuel sect => (readdisk fuel sect σ).map (·.2)
  | .writedisk fuel sect data => writedisk fuel sect data σ

/-- The disk as a map from addresses to blocks. -/
def blocks (σ : DiskState) (n : Nat) : List UInt8 := block (σ.drive.sectors n)

/-- What a call does to such a map. -/
def blockStep (m : Nat → List UInt8) : DiskCall → Nat → List UInt8
  | .readdisk _ _ => m
  | .writedisk _ sect data => Function.update m (lba28 sect.toUInt32) (block data)

theorem blocks_step {σ σ' : DiskState} {c : DiskCall} (h : diskStep σ c = some σ') :
    blocks σ' = blockStep (blocks σ) c := by
  cases c with
  | readdisk fuel sect =>
    obtain ⟨r, hread, rfl⟩ := Option.map_eq_some_iff.mp h
    funext n
    show block (r.2.drive.sectors n) = block (σ.drive.sectors n)
    rw [(readdisk_yields hread).1]
  | writedisk fuel sect data =>
    funext n
    show block (σ'.drive.sectors n) = Function.update (blocks σ) _ (block data) n
    rw [writedisk_sectors h]
    by_cases hn : n = lba28 sect.toUInt32
    · subst hn
      rw [Function.update_self, Function.update_self, block_overwrite]
    · rw [Function.update_of_ne hn, Function.update_of_ne hn]
      rfl

/-- **Over any run of calls that return** the disk is the map that the writes
    make, and a read yields the block of that map. -/
theorem exec_blocks {σ σ' : DiskState} {calls : List DiskCall}
    (h : exec diskStep σ calls = some σ') :
    blocks σ' = run blockStep (blocks σ) calls ∧
      ∀ fuel sect r, readdisk fuel sect σ' = some r →
        yielded r = some (run blockStep (blocks σ) calls (lba28 sect.toUInt32)) := by
  have hblocks := exec_simulation blocks (fun _ _ _ => blocks_step) h
  refine ⟨hblocks, ?_⟩
  intro fuel sect r hread
  rw [← hblocks]
  exact (readdisk_yields hread).2

end Ata

end ArgaldOS
