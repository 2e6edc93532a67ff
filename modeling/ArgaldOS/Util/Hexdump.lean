import Mathlib.Data.List.Basic
import ArgaldOS.Stdlib.String

/-! # Hexadecimal dumps (`kernel/util/hexdump.c`)

    `hexdump` prints sixteen bytes on a line: their digits first, and then their
    characters between two bars.  The characters are printed when the last byte
    of the line has been, by a loop that counts from sixteen bytes behind it.

    Every call of `kdebug` is an element of the output, with the index that its
    argument was read from.  `kdebug` prints only while `kernel.debug` is set; the
    text of a call is what it prints then, and the bytes are read in any case.
    `data k` is the byte `k` bytes behind the pointer, and for a negative `k` in
    front of it.

    * `hexColumn_hexdump`: the digits are right for every size;
    * `hexdump_line`: the characters of a line are those of the bytes one
      earlier;
    * `hexdump_correct_iff`: the dumps that have both columns right, and read
      nothing but the buffer.
-/

namespace ArgaldOS

/-! ## Section 1: The loop -/

/-- A call of `kdebug`. -/
inductive DumpCall where
  | byte (index : Int) (value : UInt8)
  | gap
  | lastByte (index : Int) (value : UInt8)
  | char (index : Int) (value : UInt8)
  | newline
deriving DecidableEq, Repr

/-- `to_print`: the comparison is signed. -/
def toPrint (c : UInt8) : UInt8 := if c.toInt8 ≥ 0x20 then c else 0x2E

/-- The body of the loop over the bytes. -/
def dumpByte (data : Int → UInt8) (i : Nat) : List DumpCall :=
  if (i + 1) % 16 ≠ 0 then
    .byte i (data i) :: if (i + 1) % 8 = 0 then [.gap] else []
  else
    .lastByte i (data i) ::
      ((List.range 16).map fun j : Nat => .char (i - 16 + j) (toPrint (data (i - 16 + j))))
        ++ [.newline]

/-- `hexdump`. -/
def hexdump (data : Int → UInt8) (size : Int32) : List DumpCall :=
  (List.range size.toInt.toNat).flatMap (dumpByte data)

/-! ## Section 2: What is printed -/

/-- An upper-case digit. -/
def hexDigit (n : Nat) : UInt8 := UInt8.ofNat (if n < 10 then 0x30 + n else 0x37 + n)

/-- `%02X`. -/
def hexText (value : UInt8) : CString := [hexDigit (value.toNat / 16), hexDigit (value.toNat % 16)]

/-- The text of a call, while `kernel.debug` is set. -/
def DumpCall.text : DumpCall → CString
  | byte _ value => hexText value ++ [0x20]
  | gap => [0x20]
  | lastByte _ value => hexText value ++ [0x20, 0x20, 0x7C]
  | char _ value => [value]
  | newline => [0x7C, 0x0A]

/-- The index that a call reads. -/
def DumpCall.read : DumpCall → Option Int
  | byte index _ => some index
  | gap => none
  | lastByte index _ => some index
  | char index _ => some index
  | newline => none

/-- The digits in a call. -/
def DumpCall.digits : DumpCall → Option CString
  | byte _ value => some (hexText value)
  | gap => none
  | lastByte _ value => some (hexText value)
  | char _ _ => none
  | newline => none

/-- The character in a call. -/
def DumpCall.shown : DumpCall → Option UInt8
  | byte _ _ => none
  | gap => none
  | lastByte _ _ => none
  | char _ value => some value
  | newline => none

/-- The indices that are read, and the two columns. -/
def dumpReads (calls : List DumpCall) : List Int := calls.filterMap DumpCall.read
def hexColumn (calls : List DumpCall) : List CString := calls.filterMap DumpCall.digits
def charColumn (calls : List DumpCall) : List UInt8 := calls.filterMap DumpCall.shown

/-- The lines of a dump; the last of them may be incomplete. -/
def dumpLines (calls : List DumpCall) : List (List DumpCall) :=
  calls.splitOnP (· == DumpCall.newline)

/-- **A right dump**: only the buffer is read, the digits are those of all
    bytes in order, and every complete line shows the characters of its bytes. -/
structure HexdumpCorrect (data : Int → UInt8) (size : Int32) : Prop where
  reads : ∀ k ∈ dumpReads (hexdump data size), 0 ≤ k ∧ k < size.toInt
  hex   : hexColumn (hexdump data size) =
    (List.range size.toInt.toNat).map fun i : Nat => hexText (data i)
  chars : ∀ r : Nat, 16 * (r : Int) + 16 ≤ size.toInt →
    ∃ line, (dumpLines (hexdump data size))[r]? = some line ∧
      hexColumn line = (List.range 16).map (fun j : Nat => hexText (data (16 * r + j))) ∧
      charColumn line = (List.range 16).map (fun j : Nat => toPrint (data (16 * r + j)))

/-! ## Section 3: The digits -/

section digits
variable (data : Int → UInt8) (size : Int32)

theorem hexColumn_append (calls calls' : List DumpCall) :
    hexColumn (calls ++ calls') = hexColumn calls ++ hexColumn calls' :=
  List.filterMap_append

theorem hexColumn_dumpByte (i : Nat) : hexColumn (dumpByte data i) = [hexText (data i)] := by
  unfold dumpByte
  split
  · split <;> rfl
  · have hchars : hexColumn ((List.range 16).map fun j : Nat =>
        .char (i - 16 + j) (toPrint (data (i - 16 + j)))) = [] := by
      apply List.filterMap_eq_nil_iff.mpr
      intro call hcall
      obtain ⟨j, -, rfl⟩ := List.mem_map.mp hcall
      rfl
    rw [hexColumn_append]
    show hexText (data i) :: hexColumn _ ++ [] = _
    rw [hchars]
    rfl

/-- The digits of some bytes after each other. -/
theorem hexColumn_flatMap (l : List Nat) :
    hexColumn (l.flatMap (dumpByte data)) = l.map fun i : Nat => hexText (data i) := by
  induction l with
  | nil => rfl
  | cons i l ih => rw [List.flatMap_cons, hexColumn_append, hexColumn_dumpByte, ih, List.map_cons,
      List.singleton_append]

/-- **The digits are right** for every size. -/
theorem hexColumn_hexdump : hexColumn (hexdump data size) =
    (List.range size.toInt.toNat).map fun i : Nat => hexText (data i) :=
  hexColumn_flatMap data _

theorem hexDigit_inj {m n : Nat} (hm : m < 16) (hn : n < 16) (h : hexDigit m = hexDigit n) :
    m = n := by
  have hnat := congrArg UInt8.toNat h
  unfold hexDigit at hnat
  rw [UInt8.toNat_ofNat', UInt8.toNat_ofNat'] at hnat
  split at hnat <;> split at hnat <;> omega

/-- The digits determine the byte. -/
theorem hexText_inj {a b : UInt8} (h : hexText a = hexText b) : a = b := by
  have ha := a.toNat_lt
  have hb := b.toNat_lt
  obtain ⟨hhigh, htail⟩ := List.cons.inj h
  obtain ⟨hlow, -⟩ := List.cons.inj htail
  have hdiv := hexDigit_inj (by omega) (by omega) hhigh
  have hmod := hexDigit_inj (by omega) (by omega) hlow
  apply UInt8.toNat_inj.mp
  omega

/-- The digits determine the buffer. -/
theorem hexColumn_inj {data data' : Int → UInt8}
    (h : hexColumn (hexdump data size) = hexColumn (hexdump data' size)) {k : Int} (hk : 0 ≤ k)
    (hsize : k < size.toInt) : data k = data' k := by
  rw [hexColumn_hexdump, hexColumn_hexdump] at h
  have hbyte := List.map_inj_left.mp h k.toNat (List.mem_range.mpr (by omega))
  rw [Int.toNat_of_nonneg hk] at hbyte
  exact hexText_inj hbyte

end digits

/-! ## Section 4: The lines -/

/-- Lines that are put after each other can be told apart again. -/
theorem splitOnP_lines {A : Type u} {p : A → Bool} {lines : List (List A)} {sep : A}
    (hsep : p sep = true) (h : ∀ line ∈ lines, ∀ x ∈ line, p x = false) (rest : List A) :
    (lines.flatMap (· ++ [sep]) ++ rest).splitOnP p = lines ++ rest.splitOnP p := by
  induction lines with
  | nil => rfl
  | cons line lines ih =>
    have hline := h line List.mem_cons_self
    have hlines := ih fun l hl => h l (List.mem_cons_of_mem line hl)
    rw [List.flatMap_cons, List.append_assoc, List.append_assoc, List.singleton_append,
      List.splitOnP_append_cons_of_forall_mem hline sep hsep, hlines, List.cons_append]

section lines
variable (data : Int → UInt8) (size : Int32)

/-- The characters at the end of line `r`. -/
def dumpChars (r : Nat) : List DumpCall :=
  (List.range 16).map fun j : Nat =>
    .char (16 * r - 1 + j) (toPrint (data (16 * r - 1 + j)))

/-- Line `r`, without the end of the line. -/
def dumpLine (r : Nat) : List DumpCall :=
  (List.range 15).flatMap (fun j => dumpByte data (16 * r + j)) ++
    .lastByte (16 * r + 15) (data (16 * r + 15)) :: dumpChars data r

theorem dumpByte_last (r : Nat) : dumpByte data (16 * r + 15) =
    .lastByte (16 * r + 15) (data (16 * r + 15)) :: dumpChars data r ++ [.newline] := by
  have hlast : (16 * r + 15 + 1) % 16 = 0 := by omega
  have hindex : ∀ j : Nat, ((16 * r + 15 : Nat) : Int) - 16 + j = 16 * r - 1 + j := by
    intro j
    omega
  unfold dumpByte dumpChars
  rw [if_neg (not_not.mpr hlast)]
  simp only [hindex]
  push_cast
  rfl

/-- **Sixteen rounds print a line.** -/
theorem dumpBytes_line (r : Nat) :
    ((List.range 16).map (16 * r + ·)).flatMap (dumpByte data) = dumpLine data r ++ [.newline] := by
  rw [List.flatMap_map, List.range_succ, List.flatMap_append, List.flatMap_singleton, dumpByte_last]
  unfold dumpLine
  rw [List.append_assoc]

theorem dumpBytes_lines (n : Nat) : (List.range (16 * n)).flatMap (dumpByte data) =
    ((List.range n).map (dumpLine data)).flatMap (· ++ [.newline]) := by
  induction n with
  | zero => rfl
  | succ n ih =>
    rw [Nat.mul_succ, List.range_add, List.flatMap_append, ih, dumpBytes_line, List.range_succ,
      List.map_append, List.flatMap_append, List.map_singleton, List.flatMap_singleton]

theorem newline_not_mem_dumpLine (r : Nat) :
    ∀ call ∈ dumpLine data r, (call == DumpCall.newline) = false := by
  intro call hcall
  apply beq_false_of_ne
  rintro rfl
  rcases List.mem_append.mp hcall with hmem | hmem
  · obtain ⟨j, hj, hbyte⟩ := List.mem_flatMap.mp hmem
    have hj' := List.mem_range.mp hj
    have hne : (16 * r + j + 1) % 16 ≠ 0 := by omega
    unfold dumpByte at hbyte
    rw [if_pos hne] at hbyte
    split at hbyte <;> simp at hbyte
  · simp [dumpChars] at hmem

/-- The characters of line `r`. -/
theorem charColumn_dumpLine (r : Nat) : charColumn (dumpLine data r) =
    (List.range 16).map fun j : Nat => toPrint (data (16 * r - 1 + j)) := by
  have hbytes : charColumn ((List.range 15).flatMap fun j => dumpByte data (16 * r + j)) = [] := by
    apply List.filterMap_eq_nil_iff.mpr
    intro call hcall
    obtain ⟨j, hj, hbyte⟩ := List.mem_flatMap.mp hcall
    have hj' := List.mem_range.mp hj
    have hne : (16 * r + j + 1) % 16 ≠ 0 := by omega
    unfold dumpByte at hbyte
    rw [if_pos hne] at hbyte
    rcases List.mem_cons.mp hbyte with rfl | hgap
    · rfl
    · split at hgap
      · rw [List.mem_singleton.mp hgap]
        rfl
      · cases hgap
  have hchars : charColumn (dumpChars data r) =
      (List.range 16).map fun j : Nat => toPrint (data (16 * r - 1 + j)) := by
    unfold charColumn dumpChars
    rw [List.filterMap_map, ← List.filterMap_eq_map]
    rfl
  unfold charColumn at hbytes hchars ⊢
  unfold dumpLine
  rw [List.filterMap_append, hbytes, List.filterMap_cons_none rfl, hchars, List.nil_append]

theorem hexColumn_dumpLine (r : Nat) : hexColumn (dumpLine data r) =
    (List.range 16).map fun j : Nat => hexText (data (16 * r + j)) := by
  have hnewline : hexColumn (dumpLine data r ++ [.newline]) = hexColumn (dumpLine data r) := by
    rw [hexColumn_append]
    exact List.append_nil _
  rw [← hnewline, ← dumpBytes_line, hexColumn_flatMap, List.map_map]
  apply List.map_congr_left
  intro j _
  show hexText (data ((16 * r + j : Nat) : Int)) = _
  push_cast
  rfl

theorem dumpLines_hexdump {r : Nat} (h : 16 * (r : Int) + 16 ≤ size.toInt) :
    (dumpLines (hexdump data size))[r]? = some (dumpLine data r) := by
  obtain ⟨rest, hrest⟩ : ∃ rest, size.toInt.toNat = 16 * (r + 1) + rest :=
    Nat.exists_eq_add_of_le (by omega)
  have hother : ∀ line ∈ (List.range (r + 1)).map (dumpLine data), ∀ call ∈ line,
      (call == DumpCall.newline) = false := by
    intro line hline
    obtain ⟨r', -, rfl⟩ := List.mem_map.mp hline
    exact newline_not_mem_dumpLine data r'
  have hsplit := splitOnP_lines (p := (· == DumpCall.newline)) (beq_self_eq_true _) hother
  unfold dumpLines hexdump
  rw [hrest, List.range_add, List.flatMap_append, dumpBytes_lines, hsplit,
    List.getElem?_append_left (by simp), List.getElem?_map, List.getElem?_range (by omega)]
  rfl

/-- **The complete lines of a dump**: the characters are one byte behind the
    digits. -/
theorem hexdump_line {r : Nat} (h : 16 * (r : Int) + 16 ≤ size.toInt) :
    ∃ line, (dumpLines (hexdump data size))[r]? = some line ∧
      hexColumn line = (List.range 16).map (fun j : Nat => hexText (data (16 * r + j))) ∧
      charColumn line = (List.range 16).map (fun j : Nat => toPrint (data (16 * r - 1 + j))) :=
  ⟨_, dumpLines_hexdump data size h, hexColumn_dumpLine data r, charColumn_dumpLine data r⟩

end lines

/-! ## Section 5: What is read -/

section reads
variable {data : Int → UInt8} {size : Int32}

theorem dumpReads_of_lt (h : size.toInt < 16) :
    ∀ k ∈ dumpReads (hexdump data size), 0 ≤ k ∧ k < size.toInt := by
  intro k hk
  obtain ⟨call, hcall, hread⟩ := List.mem_filterMap.mp hk
  obtain ⟨i, hi, hbyte⟩ := List.mem_flatMap.mp hcall
  have hi' := List.mem_range.mp hi
  have hne : (i + 1) % 16 ≠ 0 := by omega
  unfold dumpByte at hbyte
  rw [if_pos hne] at hbyte
  rcases List.mem_cons.mp hbyte with rfl | hgap
  · obtain rfl := Option.some.inj hread
    omega
  · split at hgap
    · rw [List.mem_singleton.mp hgap] at hread
      cases hread
    · cases hgap

/-- The first line reads the byte in front of the buffer. -/
theorem dumpReads_before (h : 16 ≤ size.toInt) : -1 ∈ dumpReads (hexdump data size) := by
  have hlast : dumpByte data 15 = _ := dumpByte_last data 0
  have hchar : DumpCall.char (-1) (toPrint (data (-1))) ∈ dumpByte data 15 := by
    have hfirst : DumpCall.char (-1) (toPrint (data (-1))) ∈ dumpChars data 0 :=
      List.mem_map.mpr ⟨0, List.mem_range.mpr (by omega), rfl⟩
    rw [hlast]
    exact List.mem_append_left _ (List.mem_cons_of_mem _ hfirst)
  apply List.mem_filterMap.mpr
  refine ⟨_, List.mem_flatMap.mpr ⟨15, List.mem_range.mpr (by omega), hchar⟩, ?_⟩
  rfl

/-- **The characters are right** if the bytes from the one in front of the
    buffer on all show the same character, and not otherwise. -/
theorem hexdump_chars_iff :
    (∀ r : Nat, 16 * (r : Int) + 16 ≤ size.toInt →
      ∃ line, (dumpLines (hexdump data size))[r]? = some line ∧
        charColumn line = (List.range 16).map (fun j : Nat => toPrint (data (16 * r + j)))) ↔
    ∀ r j : Nat, 16 * (r : Int) + 16 ≤ size.toInt → j < 16 →
      toPrint (data (16 * r - 1 + j)) = toPrint (data (16 * r + j)) := by
  constructor
  · intro h r j hr hj
    obtain ⟨line, hline, hchars⟩ := h r hr
    obtain ⟨line', hline', -, hshifted⟩ := hexdump_line data size hr
    obtain rfl := Option.some.inj (hline.symm.trans hline')
    rw [hshifted] at hchars
    exact List.map_inj_left.mp hchars j (List.mem_range.mpr hj)
  · intro h r hr
    obtain ⟨line, hline, -, hshifted⟩ := hexdump_line data size hr
    refine ⟨line, hline, ?_⟩
    rw [hshifted]
    apply List.map_congr_left
    intro j hj
    exact h r j hr (List.mem_range.mp hj)

end reads

/-- **Main theorem on dumps**: the dumps without a complete line, and no others,
    are right. -/
theorem hexdump_correct_iff (data : Int → UInt8) (size : Int32) :
    HexdumpCorrect data size ↔ size.toInt < 16 := by
  constructor
  · intro h
    by_contra hsize
    obtain ⟨hbefore, -⟩ := h.reads (-1) (dumpReads_before (by omega))
    omega
  · intro hsize
    refine ⟨dumpReads_of_lt hsize, hexColumn_hexdump data size, ?_⟩
    intro r hr
    omega

/-- Sixteen letters, with another byte in front of them. -/
theorem hexdump_shifted :
    ¬ HexdumpCorrect (fun k => if k < 0 then 0 else 0x41 + UInt8.ofNat k.toNat) 16 ∧
      charColumn (hexdump (fun k => if k < 0 then 0 else 0x41 + UInt8.ofNat k.toNat) 16) =
        [0x2E, 0x41, 0x42, 0x43, 0x44, 0x45, 0x46, 0x47, 0x48, 0x49, 0x4A, 0x4B, 0x4C, 0x4D, 0x4E,
          0x4F] := by
  constructor
  · intro h
    obtain ⟨hbefore, -⟩ := h.reads (-1) (dumpReads_before (by decide))
    omega
  · decide

end ArgaldOS
