import ArgaldOS.Framework.Terminated
import ArgaldOS.Framework.Words
import ArgaldOS.Stdlib.String

/-! # Strings from user space (`arch/x64/idt.c`)

    `sys_open` gets a pointer from a program, and `copy_from_user` copies the
    string behind it into a buffer of the kernel.  The pointer is checked at the
    start and again for every character; the character has been read by then.

    `mem` is the memory as the kernel's pointers see it, with `none` where an
    access faults.  The buffer is the kernel's own and no part of it.

    * `copyUserLoop_cases`: all that a round of the loop can do;
    * `copy_from_user_stores`: what the buffer holds after the result 0;
    * `copyUserLoop_overruns`, `copyUserLoop_reads`: when the loop reads the
      address above the user space, and when it stays below;
    * `copy_from_user_safe_iff`: the strings that are copied safely.
-/

namespace ArgaldOS

/-! ## Section 1: The copy -/

/-- `USER_SPACE_TOP`. -/
def USER_SPACE_TOP : UInt64 := 0x00007FFFFFFFFFFF

/-- `MAX_USER_STRING`. -/
def MAX_USER_STRING : UInt64 := 256

/-- The buffer, and the addresses that were read, first one first. -/
structure UserCopy where
  dest  : Nat → UInt8
  reads : List UInt64

/-- How the loop of `copy_from_user` ends: a read faults, a check fails, or the
    loop is left with this `i`. -/
inductive CopyEnd where
  | fault
  | rejected
  | done (i : Nat)
deriving DecidableEq, Repr

/-- The loop of `copy_from_user`, for `n` more characters from `i` on. -/
def copyUserLoop (mem : UInt64 → Option UInt8) (addr : UInt64) :
    Nat → Nat → UserCopy → CopyEnd × UserCopy
  | 0, i, s => (.done i, s)
  | n + 1, i, s =>
    let s := { s with reads := s.reads ++ [addr + UInt64.ofNat i] }
    match mem (addr + UInt64.ofNat i) with
    | none => (.fault, s)
    | some c =>
      -- The address is checked after the read.
      if addr + UInt64.ofNat i > USER_SPACE_TOP then (.rejected, s) else
      let s := { s with dest := Function.update s.dest i c }
      if c = 0 then (.done i, s) else copyUserLoop mem addr n (i + 1) s

/-- `copy_from_user`: the result, `none` if a read faulted, and the copy. -/
def copy_from_user (mem : UInt64 → Option UInt8) (dest : Nat → UInt8) (user_src maxlen : UInt64) :
    Option Int × UserCopy :=
  if user_src = 0 ∨ user_src > USER_SPACE_TOP then (some (-1), ⟨dest, []⟩) else
  match copyUserLoop mem user_src (maxlen - 1).toNat 0 ⟨dest, []⟩ with
  | (.fault, s) => (none, s)
  | (.rejected, s) => (some (-1), s)
  | (.done i, s) =>
    let last := if i < maxlen.toNat then i else (maxlen - 1).toNat
    (some 0, { s with dest := Function.update s.dest last 0 })

/-- `sys_open`: the file name that is printed, `some none` for an invalid
    pointer; `kfilename` is the uninitialised buffer. -/
def sys_open (mem : UInt64 → Option UInt8) (kfilename : Nat → UInt8) (user_filename : UInt64) :
    Option (Option CString) :=
  match copy_from_user mem kfilename user_filename MAX_USER_STRING with
  | (none, _) => none
  | (some e, s) =>
    if e = 0 then some (some (Terminated.readFrom 0 s.dest MAX_USER_STRING.toNat 0)) else some none

/-! ## Section 2: What is copied -/

section copying
variable {mem : UInt64 → Option UInt8} {dest : Nat → UInt8} {addr user_src maxlen : UInt64}
variable {n i j : Nat} {s s' : UserCopy}

/-- The buffer holds the first `i` characters behind the pointer. -/
def Copied (mem : UInt64 → Option UInt8) (addr : UInt64) (dest : Nat → UInt8) (i : Nat) : Prop :=
  ∀ k < i, mem (addr + UInt64.ofNat k) = some (dest k) ∧ dest k ≠ 0

/-- The copy after character `i` has been read. -/
def UserCopy.read (s : UserCopy) (addr : UInt64) (i : Nat) : UserCopy :=
  { s with reads := s.reads ++ [addr + UInt64.ofNat i] }

/-- The copy after character `i` has been stored, too. -/
def UserCopy.put (s : UserCopy) (addr : UInt64) (i : Nat) (c : UInt8) : UserCopy :=
  { s.read addr i with dest := Function.update s.dest i c }

/-- **All that a round of the loop can do**: it reads character `i`, faults,
    fails the check, finds the terminator, or goes on. -/
theorem copyUserLoop_cases (mem : UInt64 → Option UInt8) (addr : UInt64) (n i : Nat)
    (s : UserCopy) :
    (mem (addr + UInt64.ofNat i) = none ∧
        copyUserLoop mem addr (n + 1) i s = (.fault, s.read addr i)) ∨
      (addr + UInt64.ofNat i > USER_SPACE_TOP ∧
        copyUserLoop mem addr (n + 1) i s = (.rejected, s.read addr i)) ∨
      (addr + UInt64.ofNat i ≤ USER_SPACE_TOP ∧ mem (addr + UInt64.ofNat i) = some 0 ∧
        copyUserLoop mem addr (n + 1) i s = (.done i, s.put addr i 0)) ∨
      ∃ c, addr + UInt64.ofNat i ≤ USER_SPACE_TOP ∧ mem (addr + UInt64.ofNat i) = some c ∧ c ≠ 0 ∧
        copyUserLoop mem addr (n + 1) i s = copyUserLoop mem addr n (i + 1) (s.put addr i c) := by
  rw [copyUserLoop]
  rcases mem (addr + UInt64.ofNat i) with - | c
  · exact Or.inl ⟨rfl, rfl⟩
  · by_cases htop : addr + UInt64.ofNat i > USER_SPACE_TOP
    · exact Or.inr (Or.inl ⟨htop, if_pos htop⟩)
    · have hle := UInt64.not_lt.mp htop
      dsimp only
      rw [if_neg htop]
      by_cases hc : c = 0
      · subst hc
        exact Or.inr (Or.inr (Or.inl ⟨hle, rfl, if_pos rfl⟩))
      · exact Or.inr (Or.inr (Or.inr ⟨c, hle, rfl, hc, if_neg hc⟩))

/-- The characters before the one that is stored stay. -/
theorem Copied.put {c : UInt8} (h : Copied mem addr s.dest i) :
    Copied mem addr (s.put addr i c).dest i := by
  intro k hk
  show _ = some (Function.update s.dest i c k) ∧ Function.update s.dest i c k ≠ 0
  rw [Function.update_of_ne (by omega)]
  exact h k hk

/-- A loop that is left has copied the characters before its index. -/
theorem copyUserLoop_done (hinv : Copied mem addr s.dest i)
    (h : copyUserLoop mem addr n i s = (.done j, s')) :
    j ≤ i + n ∧ Copied mem addr s'.dest j := by
  induction n generalizing i s with
  | zero =>
    obtain ⟨hj, rfl⟩ := Prod.mk.inj h
    obtain rfl := CopyEnd.done.inj hj
    exact ⟨Nat.le_refl _, hinv⟩
  | succ n ih =>
    rcases copyUserLoop_cases mem addr n i s with
      ⟨-, heq⟩ | ⟨-, heq⟩ | ⟨-, -, heq⟩ | ⟨c, -, hc, hne, heq⟩
    all_goals rw [heq] at h
    · cases (Prod.mk.inj h).1
    · cases (Prod.mk.inj h).1
    · -- The terminator: the characters before it are in the buffer.
      obtain ⟨hj, rfl⟩ := Prod.mk.inj h
      obtain rfl := CopyEnd.done.inj hj
      exact ⟨by omega, hinv.put⟩
    · have hnext : Copied mem addr (s.put addr i c).dest (i + 1) := by
        intro k hk
        rcases Nat.lt_succ_iff_lt_or_eq.mp hk with hlt | rfl
        · exact hinv.put k hlt
        · show _ = some (Function.update s.dest k c k) ∧ Function.update s.dest k c k ≠ 0
          rw [Function.update_self]
          exact ⟨hc, hne⟩
      obtain ⟨hle, hcopied⟩ := ih hnext h
      exact ⟨by omega, hcopied⟩

/-- **After the result 0** the buffer holds a terminated string, shorter than
    `maxlen`, of the characters behind the pointer. -/
theorem copy_from_user_stores (hmax : 1 ≤ maxlen)
    (h : copy_from_user mem dest user_src maxlen = (some 0, s)) :
    ∃ text, Terminated.Stores 0 s.dest text ∧ text.length < maxlen.toNat ∧
      ∀ k (hk : k < text.length), mem (user_src + UInt64.ofNat k) = some text[k] := by
  have hpos : 1 ≤ maxlen.toNat := UInt64.le_iff_toNat_le.mp hmax
  have hsub : (maxlen - 1).toNat = maxlen.toNat - 1 := Words.toNat_sub_le maxlen 1 hpos
  unfold copy_from_user at h
  split at h
  · cases (Prod.mk.inj h).1
  · rcases hloop : copyUserLoop mem user_src (maxlen - 1).toNat 0 ⟨dest, []⟩ with ⟨e, t⟩
    rw [hloop] at h
    cases e with
    | fault => cases (Prod.mk.inj h).1
    | rejected => cases (Prod.mk.inj h).1
    | done i =>
      obtain ⟨hle, hcopied⟩ := copyUserLoop_done (fun k hk => absurd hk (by omega)) hloop
      have hi : i < maxlen.toNat := by omega
      simp only [hi, if_true] at h
      obtain ⟨-, rfl⟩ := Prod.mk.inj h
      refine ⟨(List.range i).map t.dest, ⟨?_, ?_, ?_⟩, by simpa using hi, ?_⟩
      · intro k hk
        have hk' : k < i := by simpa using hk
        show Function.update t.dest i 0 k = _
        rw [Function.update_of_ne (by omega)]
        simp
      · simp
      · intro c hc
        obtain ⟨k, hk, rfl⟩ := List.mem_map.mp hc
        exact (hcopied k (List.mem_range.mp hk)).2
      · intro k hk
        have hk' : k < i := by simpa using hk
        simpa using (hcopied k hk').1

/-- A file name that `sys_open` prints is the string behind the pointer, cut
    short after 255 characters. -/
theorem sys_open_name {kfilename : Nat → UInt8} {name : CString}
    (h : sys_open mem kfilename user_src = some (some name)) :
    name.length < MAX_USER_STRING.toNat ∧
      ∀ k (hk : k < name.length), mem (user_src + UInt64.ofNat k) = some name[k] := by
  unfold sys_open at h
  rcases hcopy : copy_from_user mem kfilename user_src MAX_USER_STRING with ⟨r, t⟩
  rw [hcopy] at h
  rcases r with - | e
  · cases h
  · by_cases he : e = 0
    · subst he
      obtain ⟨text, hstores, hlength, htext⟩ := copy_from_user_stores (by decide) hcopy
      have hread := hstores.readFrom_eq (n := MAX_USER_STRING.toNat) (Nat.zero_le _) (by omega)
      simp only [if_true, hread, List.drop_zero] at h
      obtain rfl := Option.some.inj (Option.some.inj h)
      exact ⟨hlength, htext⟩
    · simp [he] at h

end copying

/-! ## Section 3: What is read -/

/-- There is a character at the address, and it does not end a string. -/
def Plain (mem : UInt64 → Option UInt8) (a : UInt64) : Prop := ∃ c, mem a = some c ∧ c ≠ 0

/-- The string behind the pointer runs past `USER_SPACE_TOP`: it has no
    terminator in user space. -/
def RunsPastTop (mem : UInt64 → Option UInt8) (addr : UInt64) : Prop :=
  addr ≤ USER_SPACE_TOP ∧
    ∀ k, addr.toNat + k ≤ USER_SPACE_TOP.toNat → Plain mem (addr + UInt64.ofNat k)

/-- **What the check is for**: nothing is read at NULL or above the user space,
    and a string that runs past the top is turned down before the first address
    above it is read. -/
structure UserCopySafe (mem : UInt64 → Option UInt8) (dest : Nat → UInt8)
    (user_src maxlen : UInt64) : Prop where
  reads   : ∀ a ∈ (copy_from_user mem dest user_src maxlen).2.reads, a ≠ 0 ∧ a ≤ USER_SPACE_TOP
  rejects : RunsPastTop mem user_src →
    (copy_from_user mem dest user_src maxlen).1 = some (-1) ∧
      USER_SPACE_TOP + 1 ∉ (copy_from_user mem dest user_src maxlen).2.reads

section reading
variable {mem : UInt64 → Option UInt8} {dest : Nat → UInt8} {addr user_src maxlen : UInt64}
variable {n i : Nat} {s : UserCopy}

/-- The pointer to character `i`, up to the first address above the user space. -/
theorem toNat_userPtr (hi : addr.toNat + i ≤ USER_SPACE_TOP.toNat + 1) :
    (addr + UInt64.ofNat i).toNat = addr.toNat + i := by
  have htop : USER_SPACE_TOP.toNat = 2 ^ 47 - 1 := rfl
  have hval := Words.ofNat_toNat_lt i (by omega)
  rw [Words.toNat_add_lt _ _ (by omega), hval]

/-- A round that reads a character in user space and goes on. -/
theorem copyUserLoop_plain (hi : addr.toNat + i ≤ USER_SPACE_TOP.toNat)
    (hplain : Plain mem (addr + UInt64.ofNat i)) :
    ∃ c, copyUserLoop mem addr (n + 1) i s = copyUserLoop mem addr n (i + 1) (s.put addr i c) := by
  obtain ⟨c, hc, hne⟩ := hplain
  rcases copyUserLoop_cases mem addr n i s with
    ⟨hnone, -⟩ | ⟨htop, -⟩ | ⟨-, hzero, -⟩ | ⟨c', -, -, -, heq⟩
  · rw [hc] at hnone
    cases hnone
  · have hlt := UInt64.lt_iff_toNat_lt.mp htop
    rw [toNat_userPtr (by omega)] at hlt
    omega
  · rw [hc] at hzero
    exact absurd (Option.some.inj hzero) hne
  · exact ⟨c', heq⟩

/-- What was read stays recorded. -/
theorem copyUserLoop_grows : s.reads ⊆ (copyUserLoop mem addr n i s).2.reads := by
  induction n generalizing i s with
  | zero => exact fun _ h => h
  | succ n ih =>
    have hread : s.reads ⊆ (s.read addr i).reads := List.subset_append_left _ _
    rcases copyUserLoop_cases mem addr n i s with
      ⟨-, heq⟩ | ⟨-, heq⟩ | ⟨-, -, heq⟩ | ⟨c, -, -, -, heq⟩
    all_goals rw [heq]
    · exact hread
    · exact hread
    · exact hread
    · exact fun a ha => ih (hread ha)

/-- A round reads its character first. -/
theorem copyUserLoop_reads_first :
    addr + UInt64.ofNat i ∈ (copyUserLoop mem addr (n + 1) i s).2.reads := by
  have hread : addr + UInt64.ofNat i ∈ (s.read addr i).reads := by simp [UserCopy.read]
  rcases copyUserLoop_cases mem addr n i s with
    ⟨-, heq⟩ | ⟨-, heq⟩ | ⟨-, -, heq⟩ | ⟨c, -, -, -, heq⟩
  all_goals rw [heq]
  · exact hread
  · exact hread
  · exact hread
  · exact copyUserLoop_grows hread

/-- **The slip**: a string that runs past the top is read at the first address
    above it, if the loop goes that far. -/
theorem copyUserLoop_overruns (hi : addr.toNat + i ≤ USER_SPACE_TOP.toNat + 1)
    (hplain : ∀ k, i ≤ k → addr.toNat + k ≤ USER_SPACE_TOP.toNat → Plain mem (addr + UInt64.ofNat k))
    (hn : USER_SPACE_TOP.toNat + 1 < addr.toNat + i + n) :
    USER_SPACE_TOP + 1 ∈ (copyUserLoop mem addr n i s).2.reads := by
  induction n generalizing i s with
  | zero => omega
  | succ n ih =>
    by_cases htop : addr.toNat + i ≤ USER_SPACE_TOP.toNat
    · obtain ⟨c, heq⟩ := copyUserLoop_plain (n := n) (s := s) htop (hplain i (Nat.le_refl i) htop)
      rw [heq]
      exact ih (by omega) (fun k hk => hplain k (by omega)) (by omega)
    · -- The pointer has just left the user space, and the round reads first.
      have hptr : addr + UInt64.ofNat i = USER_SPACE_TOP + 1 := by
        apply Words.ext
        rw [toNat_userPtr hi]
        show addr.toNat + i = USER_SPACE_TOP.toNat + 1
        omega
      rw [← hptr]
      exact copyUserLoop_reads_first

/-- Otherwise it is read in user space only. -/
theorem copyUserLoop_reads (hi : addr.toNat + i ≤ USER_SPACE_TOP.toNat + 1)
    (hstop : USER_SPACE_TOP.toNat + 1 < addr.toNat + i + n →
      ∃ k, i ≤ k ∧ addr.toNat + k ≤ USER_SPACE_TOP.toNat ∧ ¬ Plain mem (addr + UInt64.ofNat k)) :
    ∀ a ∈ (copyUserLoop mem addr n i s).2.reads,
      a ∈ s.reads ∨ (addr.toNat ≤ a.toNat ∧ a.toNat ≤ USER_SPACE_TOP.toNat) := by
  induction n generalizing i s with
  | zero => exact fun a ha => Or.inl ha
  | succ n ih =>
    have htop : addr.toNat + i ≤ USER_SPACE_TOP.toNat := by
      by_contra hgt
      obtain ⟨k, hk, hle, -⟩ := hstop (by omega)
      omega
    have hread : ∀ a ∈ (s.read addr i).reads,
        a ∈ s.reads ∨ (addr.toNat ≤ a.toNat ∧ a.toNat ≤ USER_SPACE_TOP.toNat) := by
      intro a ha
      rcases List.mem_append.mp ha with h | h
      · exact Or.inl h
      · rw [List.mem_singleton.mp h, toNat_userPtr hi]
        exact Or.inr ⟨by omega, htop⟩
    rcases copyUserLoop_cases mem addr n i s with
      ⟨-, heq⟩ | ⟨-, heq⟩ | ⟨-, -, heq⟩ | ⟨c, -, hc, hne, heq⟩
    all_goals rw [heq]
    · exact hread
    · exact hread
    · exact hread
    · intro a ha
      refine (ih (by omega) (fun hlt => ?_) a ha).elim (hread a) Or.inr
      -- The character that stops the loop is a later one.
      obtain ⟨k, hk, hle, hnot⟩ := hstop (by omega)
      have hki : k ≠ i := fun h => hnot (h ▸ ⟨c, hc, hne⟩)
      exact ⟨k, by omega, hle, hnot⟩

/-- A loop that ends before it has left the user space goes through the
    characters of a string that runs past the top. -/
theorem copyUserLoop_short (hn : addr.toNat + i + n ≤ USER_SPACE_TOP.toNat + 1)
    (hplain : ∀ k, i ≤ k → addr.toNat + k ≤ USER_SPACE_TOP.toNat → Plain mem (addr + UInt64.ofNat k)) :
    (copyUserLoop mem addr n i s).1 = .done (i + n) := by
  induction n generalizing i s with
  | zero => rfl
  | succ n ih =>
    obtain ⟨c, heq⟩ := copyUserLoop_plain (n := n) (s := s) (by omega)
      (hplain i (Nat.le_refl i) (by omega))
    rw [heq, ih (by omega) fun k hk => hplain k (by omega)]
    congr 1
    omega

/-! ## Section 4: The result -/

/-- A pointer that fails the first check. -/
theorem copy_from_user_invalid (mem : UInt64 → Option UInt8) (dest : Nat → UInt8) (maxlen : UInt64)
    (h : user_src = 0 ∨ user_src > USER_SPACE_TOP) :
    copy_from_user mem dest user_src maxlen = (some (-1), ⟨dest, []⟩) := by
  unfold copy_from_user
  rw [if_pos h]

/-- The reads of a copy are those of its loop. -/
theorem copy_from_user_loop (mem : UInt64 → Option UInt8) (dest : Nat → UInt8) (maxlen : UInt64)
    (h : ¬ (user_src = 0 ∨ user_src > USER_SPACE_TOP)) :
    (copy_from_user mem dest user_src maxlen).2.reads =
        (copyUserLoop mem user_src (maxlen - 1).toNat 0 ⟨dest, []⟩).2.reads ∧
      ((copyUserLoop mem user_src (maxlen - 1).toNat 0 ⟨dest, []⟩).1 = .done (maxlen - 1).toNat →
        (copy_from_user mem dest user_src maxlen).1 = some 0) := by
  unfold copy_from_user
  rw [if_neg h]
  rcases copyUserLoop mem user_src (maxlen - 1).toNat 0 ⟨dest, []⟩ with ⟨e, t⟩
  cases e with
  | fault => exact ⟨rfl, fun h => by cases h⟩
  | rejected => exact ⟨rfl, fun h => by cases h⟩
  | done i => exact ⟨rfl, fun _ => rfl⟩

/-- A string that runs past the top, and a length that goes that far: the byte
    behind the user space is read. -/
theorem copy_from_user_overruns (hvalid : ¬ (user_src = 0 ∨ user_src > USER_SPACE_TOP))
    (hpast : RunsPastTop mem user_src)
    (hfar : USER_SPACE_TOP.toNat + 1 < user_src.toNat + (maxlen - 1).toNat) :
    USER_SPACE_TOP + 1 ∈ (copy_from_user mem dest user_src maxlen).2.reads := by
  have hle : user_src.toNat ≤ USER_SPACE_TOP.toNat :=
    UInt64.le_iff_toNat_le.mp (UInt64.not_lt.mp fun h => hvalid (Or.inr h))
  rw [(copy_from_user_loop mem dest maxlen hvalid).1]
  exact copyUserLoop_overruns (by omega) (fun k _ => hpast.2 k) (by omega)

/-- In all other cases no byte outside the user space is read. -/
theorem copy_from_user_reads (hvalid : ¬ (user_src = 0 ∨ user_src > USER_SPACE_TOP))
    (hnot : ¬ (RunsPastTop mem user_src ∧
      USER_SPACE_TOP.toNat + 1 < user_src.toNat + (maxlen - 1).toNat)) :
    ∀ a ∈ (copy_from_user mem dest user_src maxlen).2.reads, a ≠ 0 ∧ a ≤ USER_SPACE_TOP := by
  have hle : user_src ≤ USER_SPACE_TOP := UInt64.not_lt.mp fun h => hvalid (Or.inr h)
  have hleNat : user_src.toNat ≤ USER_SPACE_TOP.toNat := UInt64.le_iff_toNat_le.mp hle
  have hpos : user_src.toNat ≠ 0 := fun h => hvalid (Or.inl (Words.ext h))
  intro a ha
  rw [(copy_from_user_loop mem dest maxlen hvalid).1] at ha
  have hin := copyUserLoop_reads (i := 0) (by omega) (fun hfar => ?_) a ha
  · rcases hin with h | ⟨hlow, hhigh⟩
    · exact absurd h List.not_mem_nil
    · refine ⟨fun hzero => ?_, UInt64.le_iff_toNat_le.mpr hhigh⟩
      rw [hzero] at hlow
      change user_src.toNat ≤ 0 at hlow
      omega
  · -- The loop goes that far, so a character stops it.
    by_contra hall
    refine hnot ⟨⟨hle, fun k hk => ?_⟩, by omega⟩
    by_contra hplain
    exact hall ⟨k, by omega, hk, hplain⟩

/-- A string that runs past the top is cut short before, and accepted. -/
theorem copy_from_user_short (hvalid : ¬ (user_src = 0 ∨ user_src > USER_SPACE_TOP))
    (hpast : RunsPastTop mem user_src)
    (hnear : ¬ USER_SPACE_TOP.toNat + 1 < user_src.toNat + (maxlen - 1).toNat) :
    (copy_from_user mem dest user_src maxlen).1 = some 0 := by
  apply (copy_from_user_loop mem dest maxlen hvalid).2
  rw [copyUserLoop_short (by omega) fun k _ => hpast.2 k, Nat.zero_add]

/-- **Main theorem on strings from user space**: for every pointer, every length
    and every memory, nothing is read outside the user space unless the string
    runs past the top and the loop goes that far; and the copy is safe unless the
    string runs past the top. -/
theorem copy_from_user_safe_iff (mem : UInt64 → Option UInt8) (dest : Nat → UInt8)
    (user_src maxlen : UInt64) :
    ((∀ a ∈ (copy_from_user mem dest user_src maxlen).2.reads, a ≠ 0 ∧ a ≤ USER_SPACE_TOP) ↔
        ¬ (user_src ≠ 0 ∧ RunsPastTop mem user_src ∧
          USER_SPACE_TOP.toNat + 1 < user_src.toNat + (maxlen - 1).toNat)) ∧
      (UserCopySafe mem dest user_src maxlen ↔ ¬ (user_src ≠ 0 ∧ RunsPastTop mem user_src)) := by
  by_cases hvalid : user_src = 0 ∨ user_src > USER_SPACE_TOP
  · -- Nothing is read at all.
    have hcopy := copy_from_user_invalid mem dest maxlen hvalid
    have hnot : ¬ (user_src ≠ 0 ∧ RunsPastTop mem user_src) := by
      rintro ⟨hne, hle, -⟩
      rcases hvalid with h | h
      · exact hne h
      · exact absurd (UInt64.lt_of_lt_of_le h hle) (by simp)
    have hreads : ∀ a ∈ (copy_from_user mem dest user_src maxlen).2.reads,
        a ≠ 0 ∧ a ≤ USER_SPACE_TOP := by
      rw [hcopy]
      simp
    refine ⟨⟨fun _ h => hnot ⟨h.1, h.2.1⟩, fun _ => hreads⟩, fun _ => hnot, fun _ => ?_⟩
    refine ⟨hreads, fun _ => ?_⟩
    rw [hcopy]
    simp
  · have hne : user_src ≠ 0 := fun h => hvalid (Or.inl h)
    have htop : ¬ USER_SPACE_TOP + 1 ≤ USER_SPACE_TOP := by decide
    constructor
    · constructor
      · rintro hreads ⟨-, hpast, hfar⟩
        exact htop (hreads _ (copy_from_user_overruns hvalid hpast hfar)).2
      · intro hnot
        exact copy_from_user_reads hvalid fun h => hnot ⟨hne, h⟩
    · constructor
      · rintro h ⟨-, hpast⟩
        by_cases hfar : USER_SPACE_TOP.toNat + 1 < user_src.toNat + (maxlen - 1).toNat
        · exact htop (h.reads _ (copy_from_user_overruns hvalid hpast hfar)).2
        · have hrejected := (h.rejects hpast).1
          rw [copy_from_user_short hvalid hpast hfar] at hrejected
          exact absurd hrejected (by decide)
      · intro hnot
        exact ⟨copy_from_user_reads hvalid fun h => hnot ⟨hne, h.1⟩,
          fun hpast => absurd ⟨hne, hpast⟩ hnot⟩

end reading

/-- A memory with a character at every address of the user space, and nothing
    above it. -/
def fullUserSpace (a : UInt64) : Option UInt8 := if a ≤ USER_SPACE_TOP then some 0x41 else none

/-- The pointer to its last character: `sys_open` faults at the next one. -/
theorem copy_from_user_reads_above_top :
    ¬ UserCopySafe fullUserSpace (fun _ => 0) USER_SPACE_TOP MAX_USER_STRING ∧
      sys_open fullUserSpace (fun _ => 0) USER_SPACE_TOP = none := by
  constructor
  · intro h
    have hread : USER_SPACE_TOP + 1 ∈ (copy_from_user fullUserSpace (fun _ => 0) USER_SPACE_TOP
        MAX_USER_STRING).2.reads := by decide
    exact absurd (h.reads _ hread).2 (by decide)
  · decide

end ArgaldOS
