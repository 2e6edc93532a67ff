import ArgaldOS.Fat.Model
import ArgaldOS.Framework.Handles

/-! # One buffer for all sectors

    `readdisk` always returns a pointer to the same static buffer, and the
    reader holds such pointers across calls that read other sectors.  Here the
    reader is a program over handles, so that the driver can be exchanged: with
    one shared buffer it is the reader of the kernel, with a fresh copy for
    every `readdisk` no sector is ever overwritten.

    * `runShared_read_file`: with the shared buffer it is `read_file`;
    * `Handled.fresh_read_file`: no sector is used after a later read;
    * `read_file_shared_buffer`: the two drivers give the same file.
-/

namespace ArgaldOS

open Handles

/-! ## Section 1: The reader over handles -/

/-- What a call of `read_file` does: how it ends, its writes to the caller's
    buffer, and the handle it returns when it returns a sector. -/
structure FileOutcome where
  result  : FileResult
  writes  : List BufferWrite
  pointer : Option Nat

namespace Handled

/-- A part of the reader. -/
abbrev Reader : Type → Type := Prog UInt32 Sector

/-- `readdisk`; the handle stands for the pointer, which is never NULL. -/
def readdisk (sect : UInt32) : Reader Nat := Handles.read sect

/-- The bytes behind a pointer.  A loop over a sector in which nothing is read
    from the disk looks at them once. -/
def contents (pointer : Nat) : Reader Sector := Handles.use pointer

/-- `read_ebpb`. -/
def read_ebpb : Reader EBPB := do
  let sector_zero_array ← readdisk 0
  let sector_zero ← contents sector_zero_array
  pure (decodeEBPB sector_zero)

/-- `get_next_cluster`. -/
def get_next_cluster (ebpb : EBPB) (cluster : UInt32) : Reader UInt32 := do
  let first_fat_sector := ebpb.reserved_sectors
  let fat_offset : UInt8 := (cluster * 4).toUInt8
  let fat_sector : UInt8 := first_fat_sector.toUInt8 + UInt8.ofNat (fat_offset.toNat / 512)
  let ent_offset : Nat := fat_offset.toNat % 512
  let fat_contents ← readdisk fat_sector.toUInt32
  let fat_table ← contents fat_contents
  pure (tableValue fat_table ent_offset)

/-- The loop over the cluster chain. -/
def copyChain (ebpb : EBPB) : Nat → UInt32 → Int32 → Reader FileOutcome
  | 0, _, _ => pure ⟨.running, [], none⟩
  | fuel + 1, current_cluster, k =>
    match get_first_sector_of_cluster ebpb current_cluster with
    | none => pure ⟨.fault, [], none⟩
    | some sector => do
      let sector_contents ← readdisk sector
      let bytes ← contents sector_contents
      let copied := copySector k bytes
      let next ← get_next_cluster ebpb current_cluster
      if next = 0 then pure ⟨.buffer, copied, none⟩ else
      let rest ← copyChain ebpb fuel next (k + 512)
      pure { rest with writes := copied ++ rest.writes }

/-- `read_file`. -/
def read_file (filename : CString) (_size : Int32) (fuel : Nat) : Reader FileOutcome := do
  let ebpb ← read_ebpb
  match get_first_sector_of_cluster ebpb ebpb.cluster_number_of_root_directory with
  | none => pure ⟨.fault, [], none⟩
  | some sector => do
    let directory_sector ← readdisk sector
    let bytes ← contents directory_sector
    match (parse_directory_sector (some bytes)).find?
        fun entry => strcmp filename (trim entry.dir_name) with
    -- The pointer that was read from before the search is returned after it.
    | none => pure ⟨.directory_sector, [], some directory_sector⟩
    | some entry => copyChain ebpb fuel entry.dir_first_cluster_low.toUInt32 0

end Handled

/-- What a read yields. -/
def sectorRead (disk : Disk) (sect : UInt32) : Sector := disk (lba28 sect)

/-! ## Section 2: With the shared buffer it is the reader -/

section shared
variable (disk : Disk)

/-- The run of the handle program is the run `r`. -/
structure SameRun (r : FileRun) (o : FileOutcome × Shared Sector) : Prop where
  result : o.1.result = r.result
  writes : o.1.writes = r.writes
  buffer : o.2.buffer = r.state.buffer8

theorem runShared_get_next_cluster (s : FatState) (cluster : UInt32) (n : Nat) :
    ∃ next t, get_next_cluster disk cluster s = some (next, t) ∧ t.ebpb = s.ebpb ∧
      runShared (sectorRead disk) (Handled.get_next_cluster s.ebpb cluster) ⟨n, s.buffer8⟩ =
        (next, ⟨n + 1, t.buffer8⟩) :=
  ⟨_, _, rfl, rfl, rfl⟩

/-- One loop is the other, round by round. -/
theorem runShared_copyChain (fuel : Nat) (cluster : UInt32) (k : Int32) (s : FatState) (n : Nat) :
    SameRun (copyChain disk fuel cluster k s)
        (runShared (sectorRead disk) (Handled.copyChain s.ebpb fuel cluster k) ⟨n, s.buffer8⟩) ∧
      (runShared (sectorRead disk) (Handled.copyChain s.ebpb fuel cluster k)
        ⟨n, s.buffer8⟩).1.pointer = none ∧
      (copyChain disk fuel cluster k s).result ≠ .directory_sector := by
  induction fuel generalizing cluster k s n with
  | zero => exact ⟨⟨rfl, rfl, rfl⟩, rfl, by simp [copyChain]⟩
  | succ fuel ih =>
    unfold copyChain Handled.copyChain
    cases hsector : get_first_sector_of_cluster s.ebpb cluster with
    | none => exact ⟨⟨rfl, rfl, rfl⟩, rfl, by simp⟩
    | some sector =>
      obtain ⟨next, t, hnext, hebpb, hrun⟩ :=
        runShared_get_next_cluster disk (readdisk disk sector s).2 cluster (n + 1)
      have hebpb' : t.ebpb = s.ebpb := hebpb
      have hbuffer : (readdisk disk sector s).2.buffer8 = sectorRead disk sector := rfl
      have hebpb₁ : (readdisk disk sector s).2.ebpb = s.ebpb := rfl
      rw [hbuffer, hebpb₁] at hrun
      have hcontents : (readdisk disk sector s).2.contents (readdisk disk sector s).1 =
          some (sectorRead disk sector) := rfl
      simp only [runShared_bind, Handled.readdisk, Handled.contents, runShared_read, runShared_use,
        hrun, hcontents, hnext]
      by_cases hz : next = 0
      · rw [if_pos hz, if_pos hz, runShared_pure]
        exact ⟨⟨rfl, rfl, rfl⟩, rfl, by simp⟩
      · rw [if_neg hz, if_neg hz, runShared_bind, ← hebpb']
        obtain ⟨⟨hresult, hwrites, hbuf⟩, hpointer, hne⟩ := ih next (k + 512) t (n + 1 + 1)
        rw [runShared_pure]
        exact ⟨⟨hresult, congrArg (copySector k (sectorRead disk sector) ++ ·) hwrites, hbuf⟩,
          hpointer, hne⟩

/-- **With the shared buffer the program is `read_file`.** -/
theorem runShared_read_file (filename : CString) (size : Int32) (fuel : Nat) (s : FatState) :
    SameRun (read_file disk filename size fuel s)
        (runShared (sectorRead disk) (Handled.read_file filename size fuel) ⟨0, s.buffer8⟩) ∧
      ((runShared (sectorRead disk) (Handled.read_file filename size fuel)
          ⟨0, s.buffer8⟩).1.pointer.isSome ↔
        (read_file disk filename size fuel s).result = .directory_sector) ∧
      ∀ h, (runShared (sectorRead disk) (Handled.read_file filename size fuel)
          ⟨0, s.buffer8⟩).1.pointer = some h →
        h + 1 = (runShared (sectorRead disk) (Handled.read_file filename size fuel)
          ⟨0, s.buffer8⟩).2.count := by
  have hebpb : runShared (sectorRead disk) Handled.read_ebpb ⟨0, s.buffer8⟩ =
      ((read_ebpb disk s).ebpb, ⟨1, (read_ebpb disk s).buffer8⟩) := rfl
  unfold read_file Handled.read_file
  simp only [runShared_bind, hebpb]
  cases hsector : get_first_sector_of_cluster (read_ebpb disk s).ebpb
      (read_ebpb disk s).ebpb.cluster_number_of_root_directory with
  | none => exact ⟨⟨rfl, rfl, rfl⟩, by simp, by simp⟩
  | some sector =>
    have hcontents : (readdisk disk sector (read_ebpb disk s)).2.contents
        (readdisk disk sector (read_ebpb disk s)).1 = some (sectorRead disk sector) := rfl
    simp only [runShared_bind, Handled.readdisk, Handled.contents, runShared_read, runShared_use,
      hcontents]
    cases hfind : (parse_directory_sector (some (sectorRead disk sector))).find?
        fun entry => strcmp filename (trim entry.dir_name) with
    | none =>
      refine ⟨⟨rfl, rfl, rfl⟩, by simp, ?_⟩
      intro h hh
      obtain rfl : 1 = h := Option.some.inj hh
      rfl
    | some entry =>
      obtain ⟨hrun, hpointer, hne⟩ := runShared_copyChain disk fuel
        entry.dir_first_cluster_low.toUInt32 0 (readdisk disk sector (read_ebpb disk s)).2 2
      have hnone : (runShared (sectorRead disk) (Handled.copyChain (read_ebpb disk s).ebpb fuel
          entry.dir_first_cluster_low.toUInt32 0) ⟨2, sectorRead disk sector⟩).1.pointer = none :=
        hpointer
      refine ⟨hrun, ?_, ?_⟩
      · constructor
        · intro h
          simp [hnone] at h
        · exact fun h => absurd h hne
      · intro h hh
        simp [hnone] at hh

end shared

/-! ## Section 3: No sector is used too late -/

namespace Handled

variable (disk : Disk)

theorem fresh_get_next_cluster (ebpb : EBPB) (cluster : UInt32) (copies : List Sector) :
    Fresh (sectorRead disk) (get_next_cluster ebpb cluster) copies :=
  fresh_read_use trivial

/-- The sector of a cluster is copied before the table is read. -/
theorem fresh_copyChain (ebpb : EBPB) (fuel : Nat) (cluster : UInt32) (k : Int32)
    (copies : List Sector) : Fresh (sectorRead disk) (copyChain ebpb fuel cluster k) copies := by
  induction fuel generalizing cluster k copies with
  | zero => trivial
  | succ fuel ih =>
    unfold copyChain
    cases get_first_sector_of_cluster ebpb cluster with
    | none => trivial
    | some sector =>
      apply fresh_read_use
      apply fresh_bind (fresh_get_next_cluster disk ebpb cluster _)
      intro next copies' _
      by_cases hz : next = 0
      · rw [if_pos hz]
        trivial
      · rw [if_neg hz]
        exact fresh_bind (ih next (k + 512) copies') fun _ _ _ => trivial

/-- **No step uses the bytes of a sector after a later read.** -/
theorem fresh_read_file (filename : CString) (size : Int32) (fuel : Nat) (copies : List Sector) :
    Fresh (sectorRead disk) (read_file filename size fuel) copies := by
  have hebpb : Fresh (sectorRead disk) read_ebpb copies := by
    apply fresh_read_use
    trivial
  unfold read_file
  apply fresh_bind hebpb
  intro ebpb copies' _
  cases get_first_sector_of_cluster ebpb ebpb.cluster_number_of_root_directory with
  | none => trivial
  | some sector =>
    apply fresh_read_use
    cases (parse_directory_sector (some (sectorRead disk sector))).find?
        fun entry => strcmp filename (trim entry.dir_name) with
    | none => trivial
    | some entry => exact fresh_copyChain disk ebpb fuel _ 0 _

end Handled

/-! ## Section 4: The two drivers -/

/-- **Main theorem on the sector buffer**: with a fresh private copy for every
    `readdisk` the reader ends in the same way and makes the same writes to the
    caller's buffer, and the pointer it returns designates the same bytes; no
    step uses a sector after a later read. -/
theorem read_file_shared_buffer (disk : Disk) (filename : CString) (size : Int32) (fuel : Nat)
    (s : FatState) :
    Fresh (sectorRead disk) (Handled.read_file filename size fuel) [] ∧
      ∃ o copies,
        runPrivate (sectorRead disk) (Handled.read_file filename size fuel) [] = some (o, copies) ∧
        o.result = (read_file disk filename size fuel s).result ∧
        o.writes = (read_file disk filename size fuel s).writes ∧
        (o.pointer.isSome ↔ (read_file disk filename size fuel s).result = .directory_sector) ∧
        ∀ h, o.pointer = some h →
          copies[h]? = (read_file disk filename size fuel s).state.contents .buffer8 := by
  have hfresh := Handled.fresh_read_file disk filename size fuel []
  obtain ⟨copies, hrun, hagrees⟩ := hfresh.run_eq (agrees_nil s.buffer8)
  obtain ⟨⟨hresult, hwrites, hbuffer⟩, hpointer, hlast⟩ :=
    runShared_read_file disk filename size fuel s
  refine ⟨hfresh, _, copies, hrun, hresult, hwrites, hpointer, ?_⟩
  -- The returned handle is that of the last read, whose copy the buffer holds.
  intro h hh
  rw [hagrees.latest h ((hlast h hh).trans hagrees.count), hbuffer]
  rfl

end ArgaldOS
