import ArgaldOS.Fat.Volume

/-! # When `read_file` returns

    The loop over the cluster chain has no bound of its own.  It makes one
    round for each cluster of the chain that the code follows, so a call ends
    exactly if that chain does.

    * `read_file_running_iff`: the calls that are still in the loop after a
      number of rounds;
    * `read_file_ends_iff`: the calls that make no more rounds than the volume
      has clusters.
-/

namespace ArgaldOS

open Chains

/-! ## Section 1: Calls that run on -/

/-- The chain of an entry, as the code follows it, ends within `n` clusters. -/
def ChainEnds (disk : Disk) (entry : DIR_ENTRY) (n : Nat) : Prop :=
  ∃ clusters, Visits (nextCluster disk (decodeEBPB (disk 0)))
    entry.dir_first_cluster_low.toUInt32 clusters ∧ clusters.length ≤ n

/-- The loop stops at nothing but the end of the chain. -/
theorem copyChain_result (disk : Disk) {s : FatState} (h : s.ebpb.bytes_per_sector ≠ 0) (fuel : Nat)
    (cluster : UInt32) (k : Int32) :
    (copyChain disk fuel cluster k s).result = .buffer ∨
      (copyChain disk fuel cluster k s).result = .running := by
  induction fuel generalizing cluster k s with
  | zero => exact Or.inr rfl
  | succ fuel ih =>
    obtain ⟨s', hebpb, heq⟩ := copyChain_succ disk h fuel cluster k
    rw [heq]
    -- A round reaches the end of the chain or goes on; it does not fault.
    cases nextCluster disk s.ebpb cluster with
    | none => exact Or.inl rfl
    | some next =>
      show (copyChain disk fuel next (k + 512) s').result = _ ∨
        (copyChain disk fuel next (k + 512) s').result = _
      exact ih (s := s') (by rw [hebpb]; exact h) next (k + 512)

/-- **A call is still in the loop** after `fuel` rounds exactly if it found an
    entry whose chain does not end by then. -/
theorem read_file_running_iff (disk : Disk) (filename : CString) (size : Int32) (fuel : Nat)
    (s : FatState) :
    (read_file disk filename size fuel s).result = .running ↔
      ∃ entry, foundEntry disk filename = some entry ∧ ¬ ChainEnds disk entry fuel := by
  obtain ⟨s', hebpb, heq⟩ := read_file_eq disk filename size fuel s
  rw [heq]
  by_cases hz : (decodeEBPB (disk 0)).bytes_per_sector = 0
  · rw [if_pos hz, foundEntry_eq_none hz]
    simp
  · rw [if_neg hz]
    cases foundEntry disk filename with
    | none => simp
    | some entry =>
      have hz' : s'.ebpb.bytes_per_sector ≠ 0 := by
        rw [hebpb]
        exact hz
      dsimp only
      constructor
      · intro hrun
        refine ⟨entry, rfl, ?_⟩
        intro hends
        obtain ⟨clusters, hv, hlen⟩ := hends
        rw [← hebpb] at hv
        -- A chain that ends by then makes the call return.
        rw [copyChain_of_visits disk hz' 0 hv hlen] at hrun
        exact absurd hrun (by simp)
      · intro h
        obtain ⟨entry', hentry, hends⟩ := h
        obtain rfl := Option.some.inj hentry
        rcases copyChain_result disk hz' fuel entry.dir_first_cluster_low.toUInt32 0 with
          hbuffer | hrun
        · obtain ⟨clusters, hv, hlen⟩ := visits_of_copyChain disk hz' hbuffer
          rw [hebpb] at hv
          exact absurd ⟨clusters, hv, hlen⟩ hends
        · exact hrun

/-! ## Section 2: Calls that end in time -/

/-- A call ends, and its loop makes no more rounds than the volume has clusters. -/
def EndsInTime (disk : Disk) (filename : CString) (size : Int32) (s : FatState) : Prop :=
  (read_file disk filename size (volumeOf disk).clusterCount s).result ≠ .running

/-- **A call ends in time exactly if** it finds no entry, or the chain that it
    follows reaches an end mark within the number of clusters of the volume. -/
theorem read_file_ends_iff (disk : Disk) (filename : CString) (size : Int32) (s : FatState) :
    EndsInTime disk filename size s ↔
      ∀ entry, foundEntry disk filename = some entry →
        ChainEnds disk entry (volumeOf disk).clusterCount := by
  unfold EndsInTime
  rw [Ne, read_file_running_iff]
  constructor
  · intro h entry hentry
    by_contra hends
    exact h ⟨entry, hentry, hends⟩
  · intro h hrun
    obtain ⟨entry, hentry, hends⟩ := hrun
    exact hends (h entry hentry)

/-- The volume of the file "HELLO", with a table entry that leads cluster 3 back
    to itself. -/
def cyclicDisk : Disk := Function.update helloDisk 1 (sectorOf [(12, 3)])

/-- On it no number of rounds is enough. -/
theorem cyclicDisk_never_ends :
    (∀ fuel, (read_file cyclicDisk helloName 4608 fuel ⟨EBPB.zero, fun _ => 0⟩).result = .running) ∧
      ¬ EndsInTime cyclicDisk helloName 4608 ⟨EBPB.zero, fun _ => 0⟩ := by
  have hentry : foundEntry cyclicDisk helloName = some helloEntry := by decide +kernel
  have hloop : nextCluster cyclicDisk (decodeEBPB (cyclicDisk 0)) 3 = some 3 := by decide +kernel
  have hrun (fuel : Nat) :
      (read_file cyclicDisk helloName 4608 fuel ⟨EBPB.zero, fun _ => 0⟩).result = .running := by
    refine (read_file_running_iff _ _ _ _ _).mpr ⟨helloEntry, hentry, fun hends => ?_⟩
    obtain ⟨clusters, hv, -⟩ := hends
    exact not_visits_of_loop hloop clusters hv
  exact ⟨hrun, fun h => h (hrun _)⟩

end ArgaldOS
