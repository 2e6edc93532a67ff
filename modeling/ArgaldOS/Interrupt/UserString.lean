import ArgaldOS.Framework.Loops
import ArgaldOS.Interrupt.UserCopy

/-! # The string that `copy_from_user` stores

    Three exits meet in the last store of `copy_from_user`: the terminator has
    been found, the length is used up, or (and then there is no such store) an
    address has failed the check.

    * `copyUserStores`, `copy_from_user_writes`: the stores into the buffer, in
      order, also of a copy that faults or is turned down;
    * `copy_from_user_dest`: the buffer afterwards is the one before with these
      stores made;
    * `copy_from_user_contents`: the stores stay within `maxlen`, and after the
      result 0 the buffer holds the longest prefix that fits.
-/

namespace ArgaldOS

open Loops

/-! ## Section 1: The stores -/

/-- The stores of the loop of `copy_from_user`: an index and a character each. -/
def copyUserStores (mem : UInt64 → Option UInt8) (addr : UInt64) : Nat → Nat → List (Nat × UInt8)
  | 0, _ => []
  | n + 1, i =>
    match mem (addr + UInt64.ofNat i) with
    | none => []
    | some c =>
      if addr + UInt64.ofNat i > USER_SPACE_TOP then [] else
      -- The terminator is stored before the loop is left.
      (i, c) :: if c = 0 then [] else copyUserStores mem addr n (i + 1)

/-- The stores of `copy_from_user`. -/
def copy_from_user_writes (mem : UInt64 → Option UInt8) (dest : Nat → UInt8)
    (user_src maxlen : UInt64) : List (Nat × UInt8) :=
  if user_src = 0 ∨ user_src > USER_SPACE_TOP then [] else
  copyUserStores mem user_src (maxlen - 1).toNat 0 ++
    match (copyUserLoop mem user_src (maxlen - 1).toNat 0 ⟨dest, []⟩).1 with
    | .done i => [(if i < maxlen.toNat then i else (maxlen - 1).toNat, 0)]
    | _ => []

/-- The buffer after a list of stores. -/
def stored (stores : List (Nat × UInt8)) (dest : Nat → UInt8) : Nat → UInt8 :=
  updates Prod.fst (fun store _ => store.2) stores dest

@[simp] theorem stored_nil (dest : Nat → UInt8) : stored [] dest = dest := rfl

@[simp] theorem stored_cons (i : Nat) (c : UInt8) (stores : List (Nat × UInt8))
    (dest : Nat → UInt8) :
    stored ((i, c) :: stores) dest = stored stores (Function.update dest i c) := rfl

@[simp] theorem stored_append (stores stores' : List (Nat × UInt8)) (dest : Nat → UInt8) :
    stored (stores ++ stores') dest = stored stores' (stored stores dest) := by
  simp [stored, updates]

section stores
variable {mem : UInt64 → Option UInt8} {dest : Nat → UInt8} {addr user_src maxlen : UInt64}
variable {n i j : Nat} {s s' : UserCopy}

/-- The buffer that the loop leaves is the one before with its stores made. -/
theorem copyUserLoop_dest (mem : UInt64 → Option UInt8) (addr : UInt64) (n i : Nat)
    (s : UserCopy) :
    (copyUserLoop mem addr n i s).2.dest = stored (copyUserStores mem addr n i) s.dest := by
  induction n generalizing i s with
  | zero => rfl
  | succ n ih =>
    rw [copyUserLoop, copyUserStores]
    rcases mem (addr + UInt64.ofNat i) with - | c
    · rfl
    · dsimp only
      by_cases htop : addr + UInt64.ofNat i > USER_SPACE_TOP
      · rw [if_pos htop, if_pos htop]
        rfl
      · rw [if_neg htop, if_neg htop]
        by_cases hc : c = 0
        · rw [if_pos hc, if_pos hc]
          rfl
        · rw [if_neg hc, if_neg hc, stored_cons]
          exact ih _ _

/-- The loop stores within its rounds. -/
theorem copyUserStores_lt : ∀ w ∈ copyUserStores mem addr n i, w.1 < i + n := by
  induction n generalizing i with
  | zero => simp [copyUserStores]
  | succ n ih =>
    intro w hw
    rw [copyUserStores] at hw
    rcases hmem : mem (addr + UInt64.ofNat i) with - | c
    all_goals rw [hmem] at hw
    · cases hw
    · dsimp only at hw
      by_cases htop : addr + UInt64.ofNat i > USER_SPACE_TOP
      · rw [if_pos htop] at hw
        cases hw
      · rw [if_neg htop] at hw
        rcases List.mem_cons.mp hw with rfl | hlater
        · show i < i + (n + 1)
          omega
        · by_cases hc : c = 0
          · rw [if_pos hc] at hlater
            cases hlater
          · rw [if_neg hc] at hlater
            have hlt := ih w hlater
            omega

/-- A loop that is left at `j` has used up its rounds or found the terminator,
    and has stored nothing behind `j`. -/
theorem copyUserLoop_exit (h : copyUserLoop mem addr n i s = (.done j, s')) :
    i ≤ j ∧ (j = i + n ∨ mem (addr + UInt64.ofNat j) = some 0) ∧
      ∀ k, j < k → s'.dest k = s.dest k := by
  induction n generalizing i s with
  | zero =>
    obtain ⟨hj, rfl⟩ := Prod.mk.inj h
    obtain rfl := CopyEnd.done.inj hj
    exact ⟨Nat.le_refl _, Or.inl rfl, fun _ _ => rfl⟩
  | succ n ih =>
    -- A store at `i` leaves the bytes behind `i` alone.
    have hput : ∀ c k, i < k → (s.put addr i c).dest k = s.dest k := by
      intro c k hk
      show Function.update s.dest i c k = s.dest k
      rw [Function.update_of_ne (by omega)]
    rcases copyUserLoop_cases mem addr n i s with
      ⟨-, heq⟩ | ⟨-, heq⟩ | ⟨-, hnul, heq⟩ | ⟨c, -, -, -, heq⟩
    all_goals rw [heq] at h
    · cases (Prod.mk.inj h).1
    · cases (Prod.mk.inj h).1
    · obtain ⟨hj, rfl⟩ := Prod.mk.inj h
      obtain rfl := CopyEnd.done.inj hj
      exact ⟨Nat.le_refl _, Or.inr hnul, hput 0⟩
    · obtain ⟨hij, hexit, hframe⟩ := ih h
      refine ⟨by omega, ?_, ?_⟩
      · rcases hexit with hj | hnul
        · exact Or.inl (by omega)
        · exact Or.inr hnul
      · intro k hk
        rw [hframe k hk, hput c k (by omega)]

/-- **The stores are all there is**: the buffer that the call leaves is the one
    before with the stores made. -/
theorem copy_from_user_dest (mem : UInt64 → Option UInt8) (dest : Nat → UInt8)
    (user_src maxlen : UInt64) :
    (copy_from_user mem dest user_src maxlen).2.dest =
      stored (copy_from_user_writes mem dest user_src maxlen) dest := by
  have hloop := copyUserLoop_dest mem user_src (maxlen - 1).toNat 0 ⟨dest, []⟩
  unfold copy_from_user copy_from_user_writes
  by_cases hvalid : user_src = 0 ∨ user_src > USER_SPACE_TOP
  · rw [if_pos hvalid, if_pos hvalid]
    rfl
  · rw [if_neg hvalid, if_neg hvalid, stored_append, ← hloop]
    rcases copyUserLoop mem user_src (maxlen - 1).toNat 0 ⟨dest, []⟩ with ⟨e, t⟩
    cases e <;> rfl

/-- No store leaves the `maxlen` bytes of the buffer. -/
theorem copy_from_user_writes_lt (hmax : 1 ≤ maxlen) :
    ∀ w ∈ copy_from_user_writes mem dest user_src maxlen, w.1 < maxlen.toNat := by
  have hpos : 1 ≤ maxlen.toNat := UInt64.le_iff_toNat_le.mp hmax
  have hsub : (maxlen - 1).toNat = maxlen.toNat - 1 := Words.toNat_sub_le maxlen 1 hpos
  intro w hw
  unfold copy_from_user_writes at hw
  split at hw
  · cases hw
  · rcases List.mem_append.mp hw with hloop | hlast
    · have hlt := copyUserStores_lt w hloop
      omega
    · split at hlast
      · obtain rfl := List.mem_singleton.mp hlast
        dsimp only
        split <;> omega
      · cases hlast

end stores

/-! ## Section 2: The string -/

/-- `text` is the longest prefix of the string at `addr` that has at most `n`
    characters and none that is NUL. -/
structure LongestPrefix (mem : UInt64 → Option UInt8) (addr : UInt64) (n : Nat) (text : CString) :
    Prop where
  chars   : ∀ k (hk : k < text.length), mem (addr + UInt64.ofNat k) = some text[k]
  plain   : ∀ c ∈ text, c ≠ 0
  fits    : text.length ≤ n
  longest : ∀ k ≤ n, (∀ l < k, Plain mem (addr + UInt64.ofNat l)) → k ≤ text.length

/-- What `copy_from_user` leaves behind its result 0. -/
structure HoldsUserString (mem : UInt64 → Option UInt8) (before after : Nat → UInt8)
    (user_src maxlen : UInt64) (text : CString) : Prop where
  longest : LongestPrefix mem user_src (maxlen.toNat - 1) text
  stores  : Terminated.Stores 0 after text
  behind  : ∀ k, text.length < k → after k = before k

section strings
variable {mem : UInt64 → Option UInt8} {dest : Nat → UInt8} {user_src maxlen : UInt64}
variable {s : UserCopy}

/-- The characters that a loop left at `i` has copied, and the terminator behind
    them, are the user's string. -/
theorem holdsUserString_of_loop {i : Nat} (hn : (maxlen - 1).toNat = maxlen.toNat - 1)
    (hloop : copyUserLoop mem user_src (maxlen - 1).toNat 0 ⟨dest, []⟩ = (.done i, s)) :
    HoldsUserString mem dest (Function.update s.dest i 0) user_src maxlen
      ((List.range i).map s.dest) := by
  obtain ⟨hle, hcopied⟩ := copyUserLoop_done (fun k hk => absurd hk (by omega)) hloop
  obtain ⟨-, hexit, hframe⟩ := copyUserLoop_exit hloop
  have hplain : ∀ c ∈ (List.range i).map s.dest, c ≠ 0 := by
    intro c hc
    obtain ⟨k, hk, rfl⟩ := List.mem_map.mp hc
    exact (hcopied k (List.mem_range.mp hk)).2
  refine ⟨⟨?_, hplain, ?_, ?_⟩, ⟨?_, ?_, hplain⟩, ?_⟩
  · intro k hk
    have hk' : k < i := by simpa using hk
    simpa using (hcopied k hk').1
  · simp
    omega
  · -- A longer prefix would have to pass the terminator.
    intro k hk hall
    rcases hexit with hi | hnul
    · simp
      omega
    · by_contra hlong
      have hik : i < k := by simpa using hlong
      obtain ⟨c, hc, hne⟩ := hall i hik
      rw [hnul] at hc
      exact hne (Option.some.inj hc).symm
  · intro k hk
    have hk' : k < i := by simpa using hk
    rw [Function.update_of_ne (by omega)]
    simp
  · simp
  · intro k hk
    have hk' : i < k := by simpa using hk
    rw [Function.update_of_ne (by omega)]
    exact hframe k hk'

/-- **Main theorem on the stored string**: for every pointer, every `maxlen` from
    1 on and every memory, the call stores within the first `maxlen` bytes of the
    buffer, whatever it returns, and after the result 0 the buffer holds the
    longest prefix of the user's string that fits, terminated, with the bytes
    behind it as they were. -/
theorem copy_from_user_contents (mem : UInt64 → Option UInt8) (dest : Nat → UInt8)
    (user_src maxlen : UInt64) (hmax : 1 ≤ maxlen) :
    (∀ s, copy_from_user mem dest user_src maxlen = (some 0, s) →
        ∃ text, HoldsUserString mem dest s.dest user_src maxlen text) ∧
      (∀ w ∈ copy_from_user_writes mem dest user_src maxlen, w.1 < maxlen.toNat) ∧
      (copy_from_user mem dest user_src maxlen).2.dest =
        stored (copy_from_user_writes mem dest user_src maxlen) dest := by
  have hpos : 1 ≤ maxlen.toNat := UInt64.le_iff_toNat_le.mp hmax
  have hsub : (maxlen - 1).toNat = maxlen.toNat - 1 := Words.toNat_sub_le maxlen 1 hpos
  refine ⟨?_, copy_from_user_writes_lt hmax, copy_from_user_dest mem dest user_src maxlen⟩
  intro s h
  unfold copy_from_user at h
  split at h
  · cases (Prod.mk.inj h).1
  · rcases hloop : copyUserLoop mem user_src (maxlen - 1).toNat 0 ⟨dest, []⟩ with ⟨e, t⟩
    rw [hloop] at h
    cases e with
    | fault => cases (Prod.mk.inj h).1
    | rejected => cases (Prod.mk.inj h).1
    | done i =>
      obtain ⟨hle, -⟩ := copyUserLoop_done (fun k hk => absurd hk (by omega)) hloop
      have hi : i < maxlen.toNat := by omega
      simp only [hi, if_true] at h
      obtain ⟨-, rfl⟩ := Prod.mk.inj h
      exact ⟨_, holdsUserString_of_loop hsub hloop⟩

end strings

/-- Two characters and a terminator at the addresses 16 to 18. -/
def twoCharacters (a : UInt64) : Option UInt8 :=
  if a = 16 then some 0x68 else if a = 17 then some 0x69 else some 0

/-- A string of exactly `maxlen - 1` characters. -/
theorem copy_from_user_contents_exact :
    ∃ s, copy_from_user twoCharacters (fun _ => 0x7F) 16 3 = (some 0, s) ∧
      ∃ text, HoldsUserString twoCharacters (fun _ => 0x7F) s.dest 16 3 text :=
  ⟨_, rfl, (copy_from_user_contents twoCharacters (fun _ => 0x7F) 16 3 (by decide)).1 _ rfl⟩

end ArgaldOS
