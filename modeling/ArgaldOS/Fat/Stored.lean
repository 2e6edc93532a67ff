import ArgaldOS.Fat.Volume

/-! # What `read_file` stores

    The writes of a call, applied to the caller's buffer.  The sectors of the
    chain that the code follows end up one after the other, from the start of
    the buffer.

    * `bufferAfter_chainWrites`: the buffer after the writes for a chain;
    * `storesFile_iff`: a call stores the contents of a file exactly if the
      sectors it reads hold them.
-/

namespace ArgaldOS

open Chains

/-! ## Section 1: The buffer -/

/-- The caller's buffer after some writes. -/
def bufferAfter (buffer : Int → UInt8) (writes : List BufferWrite) : Int → UInt8 :=
  writes.foldl (fun b w => Function.update b w.index w.byte) buffer

theorem bufferAfter_append (buffer : Int → UInt8) (first second : List BufferWrite) :
    bufferAfter buffer (first ++ second) = bufferAfter (bufferAfter buffer first) second :=
  List.foldl_append

/-- Bytes stored one after the other. -/
theorem bufferAfter_block (buffer : Int → UInt8) (bytes : Nat → UInt8) (index : Nat → Int)
    (k n : Nat) (hindex : ∀ j < n, index j = (j + k : Nat)) (i : Nat) :
    bufferAfter buffer ((List.range n).map fun j => ⟨index j, bytes j⟩) i =
      if k ≤ i ∧ i < k + n then bytes (i - k) else buffer i := by
  induction n with
  | zero =>
    rw [if_neg (by omega)]
    rfl
  | succ n ih =>
    have hn := hindex n (Nat.lt_succ_self n)
    rw [List.range_succ, List.map_append, bufferAfter_append]
    have hlast (b : Int → UInt8) : bufferAfter b ([n].map fun j => ⟨index j, bytes j⟩) =
        Function.update b (index n) (bytes n) := rfl
    rw [hlast]
    by_cases hi : i = n + k
    · rw [hn, hi, Function.update_self, if_pos (by omega), Nat.add_sub_cancel]
    · rw [hn, Function.update_of_ne (by omega), ih fun j hj => hindex j (by omega)]
      by_cases hin : k ≤ i ∧ i < k + n
      · rw [if_pos hin, if_pos (by omega)]
      · rw [if_neg hin, if_neg (by omega)]

theorem bufferAfter_copySector (buffer : Int → UInt8) (bytes : Sector) {k : Nat}
    (hk : k + 512 ≤ 2 ^ 31) (i : Nat) :
    bufferAfter buffer (copySector (Int32.ofNat k) bytes) i =
      if k ≤ i ∧ i < k + 512 then bytes (i - k) else buffer i :=
  bufferAfter_block buffer bytes _ k 512 (fun j hj => index_eq (by omega)) i

/-- **The buffer after the writes for a chain**, as long as no index wraps. -/
theorem bufferAfter_chainWrites (disk : Disk) (ebpb : EBPB) {clusters : List UInt32}
    (buffer : Int → UInt8) {k : Nat} (hk : k + 512 * clusters.length ≤ 2 ^ 31) (i : Nat) :
    bufferAfter buffer (chainWrites disk ebpb k clusters) i =
      if i < k then buffer i else
        match clusters[(i - k) / 512]? with
        | some c => clusterSector disk ebpb c ((i - k) % 512)
        | none => buffer i := by
  induction clusters generalizing buffer k with
  | nil =>
    rw [List.getElem?_nil, ite_self]
    rfl
  | cons c cs ih =>
    rw [List.length_cons, Nat.mul_succ, ← Nat.add_assoc] at hk
    have hhere : k + 512 ≤ 2 ^ 31 := by omega
    have hrest : k + 512 + 512 * cs.length ≤ 2 ^ 31 := by omega
    rw [chainWrites_cons, bufferAfter_append, ih _ hrest, bufferAfter_copySector _ _ hhere]
    by_cases hbefore : i < k
    · rw [if_pos (by omega), if_neg (by omega), if_pos hbefore]
    · rw [if_neg hbefore]
      by_cases hfirst : i < k + 512
      · have hzero : (i - k) / 512 = 0 := by omega
        rw [if_pos hfirst, if_pos (by omega), hzero, Nat.mod_eq_of_lt (by omega),
          List.getElem?_cons_zero]
      · have hsucc : (i - k) / 512 = (i - (k + 512)) / 512 + 1 := by omega
        have hmod : (i - k) % 512 = (i - (k + 512)) % 512 := by omega
        rw [if_neg hfirst, if_neg (by omega), hsucc, hmod, List.getElem?_cons_succ]

/-! ## Section 2: Contents, sector by sector -/

/-- Bytes are the concatenation of some sectors exactly if they are so sector
    by sector. -/
theorem eq_concat_iff (disk : Disk) (sectors : List Nat) (f : Nat → UInt8) :
    (List.range (512 * sectors.length)).map f = sectors.flatMap (fun n => bytesAt (disk n) 0 512) ↔
      ∀ m n, sectors[m]? = some n → ∀ j < 512, f (512 * m + j) = disk n j := by
  induction sectors generalizing f with
  | nil => simp
  | cons a as ih =>
    have hlen : ((List.range 512).map f).length = (bytesAt (disk a) 0 512).length := by
      simp [bytesAt]
    have hfirst : (List.range 512).map f = bytesAt (disk a) 0 512 ↔
        ∀ j < 512, f j = disk a j := by
      unfold bytesAt
      simp
    have hrange : List.range (512 * (a :: as).length) =
        List.range 512 ++ (List.range (512 * as.length)).map (512 + ·) := by
      rw [List.length_cons, Nat.mul_succ, Nat.add_comm, List.range_add]
    rw [hrange, List.map_append, List.flatMap_cons,
      List.append_eq_append_iff_of_size_eq_left hlen, hfirst, List.map_map, ih]
    constructor
    · rintro ⟨hhead, htail⟩ m n hm j hj
      cases m with
      | zero =>
        obtain rfl : a = n := by simpa using hm
        simpa using hhead j hj
      | succ m =>
        have hindex : 512 * (m + 1) + j = 512 + (512 * m + j) := by omega
        rw [hindex]
        exact htail m n (by simpa using hm) j hj
    · intro h
      refine ⟨fun j hj => by simpa using h 0 a rfl j hj, ?_⟩
      intro m n hm j hj
      have hindex : 512 + (512 * m + j) = 512 * (m + 1) + j := by omega
      show f (512 + (512 * m + j)) = _
      rw [hindex]
      exact h (m + 1) n (by simpa using hm) j hj

/-! ## Section 3: A call -/

/-- The first `n` bytes of the buffer after some writes. -/
def storedBytes (buffer : Int → UInt8) (writes : List BufferWrite) (n : Nat) : List UInt8 :=
  (List.range n).map fun i : Nat => bufferAfter buffer writes i

/-- **A call stores the contents** of some clusters: it returns, and the bytes
    are in the buffer from its start on. -/
def StoresFile (disk : Disk) (filename : CString) (size : Int32) (s : FatState)
    (clusters : List Nat) : Prop :=
  ∃ fuel, (read_file disk filename size fuel s).result = .buffer ∧
    ∀ buffer, storedBytes buffer (read_file disk filename size fuel s).writes
      (fileContents disk clusters).length = fileContents disk clusters

/-- The sectors that the code reads along a chain hold those of the file. -/
def HoldsFile (disk : Disk) (clusters : List Nat) (visited : List UInt32) : Prop :=
  ∀ m n : Nat, (fileSectors (volumeOf disk) clusters)[m]? = some n →
    ∃ c, visited[m]? = some c ∧
      ∀ j < 512, clusterSector disk (decodeEBPB (disk 0)) c j = disk n j

/-- The buffer holds the contents, whatever was in it, exactly if the sectors
    read for the chain do. -/
theorem stored_iff_holdsFile (disk : Disk) (clusters : List Nat) {visited : List UInt32}
    (hlen : visited.length ≤ 256) :
    (∀ buffer, storedBytes buffer (chainWrites disk (decodeEBPB (disk 0)) 0 visited)
      (fileContents disk clusters).length = fileContents disk clusters) ↔
      HoldsFile disk clusters visited := by
  have hsize : (fileContents disk clusters).length =
      512 * (fileSectors (volumeOf disk) clusters).length := by
    unfold fileContents
    simp [List.length_flatMap, bytesAt, Nat.mul_comm]
  -- Position `j` of sector `m` of the buffer.
  have hbyte (buffer : Int → UInt8) (m j : Nat) (hj : j < 512) :
      bufferAfter buffer (chainWrites disk (decodeEBPB (disk 0)) 0 visited) (512 * m + j : Nat) =
        match visited[m]? with
        | some c => clusterSector disk (decodeEBPB (disk 0)) c j
        | none => buffer (512 * m + j : Nat) := by
    have hdiv : (512 * m + j - 0) / 512 = m := by omega
    have hmod : (512 * m + j - 0) % 512 = j := by omega
    rw [bufferAfter_chainWrites _ _ _ (by omega), if_neg (by omega), hdiv, hmod]
  rw [hsize]
  unfold fileContents storedBytes
  constructor
  · intro h m n hm
    cases hc : visited[m]? with
    | some c =>
      refine ⟨c, rfl, fun j hj => ?_⟩
      have hstored := (eq_concat_iff _ _ _).mp (h fun _ => 0) m n hm j hj
      rw [hbyte _ m j hj, hc] at hstored
      exact hstored
    | none =>
      -- A sector that is not written keeps what the buffer held.
      have hstored := (eq_concat_iff _ _ _).mp (h fun _ => disk n 0 + 1) m n hm 0 (by omega)
      rw [hbyte _ m 0 (by omega), hc] at hstored
      exact absurd hstored (by simp)
  · intro h buffer
    refine (eq_concat_iff _ _ _).mpr fun m n hm j hj => ?_
    obtain ⟨c, hc, hbytes⟩ := h m n hm
    rw [hbyte _ m j hj, hc]
    exact hbytes j hj

/-- **A call stores a file exactly if** it finds an entry, the chain that the
    code follows ends, and the sectors it reads hold the file. -/
theorem storesFile_iff (disk : Disk) (filename : CString) (size : Int32) (s : FatState)
    (clusters : List Nat) :
    StoresFile disk filename size s clusters ↔
      ∃ entry visited, foundEntry disk filename = some entry ∧
        Visits (nextCluster disk (decodeEBPB (disk 0))) entry.dir_first_cluster_low.toUInt32
          visited ∧ HoldsFile disk clusters visited := by
  constructor
  · intro h
    obtain ⟨fuel, hresult, hstored⟩ := h
    obtain ⟨s', hebpb, heq⟩ := read_file_eq disk filename size fuel s
    rw [heq] at hresult
    by_cases hz : (decodeEBPB (disk 0)).bytes_per_sector = 0
    · rw [if_pos hz] at hresult
      exact absurd hresult (by simp)
    · rw [if_neg hz] at hresult
      cases hentry : foundEntry disk filename with
      | none =>
        rw [hentry] at hresult
        exact absurd hresult (by simp)
      | some entry =>
        rw [hentry] at hresult
        obtain ⟨visited, hv, hfuel⟩ := visits_of_copyChain disk (by rw [hebpb]; exact hz) hresult
        rw [hebpb] at hv
        refine ⟨entry, visited, rfl, hv, ?_⟩
        rw [read_file_writes, hentry] at hstored
        dsimp only at hstored
        rw [front_of_visits hv, List.take_of_length_le hfuel] at hstored
        exact (stored_iff_holdsFile disk clusters (length_le_of_visits disk hv)).mp hstored
  · intro h
    obtain ⟨entry, visited, hentry, hv, hholds⟩ := h
    have hz : (decodeEBPB (disk 0)).bytes_per_sector ≠ 0 := by
      intro hz
      rw [foundEntry_eq_none hz] at hentry
      exact absurd hentry (by simp)
    obtain ⟨s', hebpb, heq⟩ := read_file_eq disk filename size visited.length s
    refine ⟨visited.length, ?_, ?_⟩
    · rw [heq, if_neg hz, hentry]
      rw [← hebpb] at hv hz
      exact copyChain_of_visits disk hz 0 hv (Nat.le_refl _)
    · rw [read_file_writes, hentry]
      dsimp only
      rw [front_of_visits hv, List.take_length]
      exact (stored_iff_holdsFile disk clusters (length_le_of_visits disk hv)).mpr hholds

end ArgaldOS
