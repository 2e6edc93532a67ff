import ArgaldOS.Framework.Words
import ArgaldOS.Stdlib.Copying
import ArgaldOS.Stdlib.Numbers

/-! # Hexadecimal numerals (`uint64_to_hex_string` of `stdlib/string.c`)

    The digits go into a local buffer of 17 bytes, which is reversed and then
    copied.  Where the buffer is on the stack is a parameter.

    * `hexDigits_ends`: the digits of all 64-bit numbers, zero included;
    * `copyBuffer_ends`: the copy;
    * `uint64_to_hex_string_correct`: the numeral, and what is accessed.
-/

namespace ArgaldOS.Buffer

open Cells Program Numerals

/-! ## Section 1: The function -/

/-- The character of a digit. -/
def hexChar (digit : UInt8) : UInt8 :=
  if digit < 10 then 0x30 + digit else 0x41 + (digit - 10)

/-- The digits, the least significant one first. -/
def hexDigits (buffer : Int) (num : UInt64) : Program Memory Nat :=
  if num = 0 then do
    store buffer 0x30
    return 1
  else
    loop (fun (index, num) => do
      if num > 0 then
        store (buffer + (index : Nat)) (hexChar (num &&& 0xF).toUInt8)
        again (index + 1, num >>> 4)
      else leave index) (0, num)

/-- The copy from the buffer, terminator included. -/
def copyBuffer (str buffer : Int) (index : Nat) : Program Memory Unit :=
  loop (fun i : Nat => do
    if i ≤ index then
      store (str + i) (← load (buffer + i))
      again (i + 1)
    else leave ()) 0

/-- `uint64_to_hex_string`. -/
def uint64_to_hex_string (buffer : Int) (num : UInt64) (str : Int) : Program Memory Unit := do
  let index ← hexDigits buffer num
  store (buffer + index) 0
  reverse buffer
  copyBuffer str buffer index

/-! ## Section 2: The digits -/

section hexadecimal
variable {m : Memory} {buffer str : Int} {num : UInt64}

theorem hexChar_ofNat : ∀ d < 16, hexChar (UInt8.ofNat d) = digitChar 0x41 d := by decide

/-- The low four bits are the last digit. -/
theorem hexChar_low (num : UInt64) :
    hexChar (num &&& 0xF).toUInt8 = digitChar 0x41 (num.toNat % 16) := by
  have hmask : (num &&& 0xF).toNat = num.toNat % 16 := by
    rw [UInt64.toNat_and]
    exact Nat.and_two_pow_sub_one_eq_mod num.toNat 4
  have hbyte : (num &&& 0xF).toUInt8 = UInt8.ofNat (num.toNat % 16) := by
    rw [← hmask, UInt8.ofNat_uInt64ToNat]
  rw [hbyte]
  exact hexChar_ofNat _ (Nat.mod_lt _ (by simp))

/-- The other bits are the other digits. -/
theorem toNat_shiftRight_four (num : UInt64) : (num >>> 4).toNat = num.toNat / 16 := by
  rw [UInt64.toNat_shiftRight]
  exact Nat.shiftRight_eq_div_pow num.toNat 4

/-- **The digits of a 64-bit number** are in the buffer, the wrong way round. -/
theorem hexDigits_ends : Ends (hexDigits buffer num) m fun i m' =>
    i = (numeral 16 num.toNat).length ∧
      Holds m' buffer ((numeral 16 num.toNat).reverse.map (digitChar 0x41)) ∧
      Touches ∅ (Set.Ico buffer (buffer + i)) m m' := by
  unfold hexDigits
  by_cases hzero : num = 0
  · subst hzero
    rw [if_pos rfl]
    apply Ends.bind
    apply ends_store
    apply Ends.pure
    have hfirst := (Touches.refl ∅ (Set.Ico buffer (buffer + (1 : Nat))) m).stored
      (a := buffer) (v := 0x30) ⟨by omega, by omega⟩
    exact ⟨rfl, holds_nil.snoc (by simp), hfirst⟩
  · have hn0 : num.toNat ≠ 0 := fun h => hzero (UInt64.toNat_inj.mp h)
    rw [if_neg hzero]
    apply Ends.loop (fun x m' => DigitsWritten m buffer (digitChar 0x41) 16 num.toNat x.1
      x.2.toNat m') (fun x => x.2.toNat)
    · rintro ⟨i, rest⟩ m' hwritten
      by_cases hpos : rest > 0
      · have hrest : 0 < rest.toNat := UInt64.lt_iff_toNat_lt.mp hpos
        simp only [if_pos hpos]
        apply Ends.bind
        apply ends_store
        apply Ends.again
        show DigitsWritten m buffer (digitChar 0x41) 16 num.toNat (i + 1) (rest >>> 4).toNat _ ∧
          (rest >>> 4).toNat < rest.toNat
        rw [hexChar_low, toNat_shiftRight_four]
        exact ⟨hwritten.step (by simp) (Nat.ne_of_gt hrest), by omega⟩
      · have hrest : rest.toNat = 0 :=
          Nat.eq_zero_of_not_pos fun h => hpos (UInt64.lt_iff_toNat_lt.mpr h)
        simp only [if_neg hpos]
        apply Ends.leave
        have hall : DigitsWritten m buffer (digitChar 0x41) 16 num.toNat i 0 m' := by
          rw [← hrest]
          exact hwritten
        obtain ⟨hlen, hheld⟩ := hall.numeral hn0
        exact ⟨hlen, hheld, hall.inside⟩
    · exact digitsWritten_zero m buffer (digitChar 0x41) 16 num.toNat

/-! ## Section 3: The string -/

/-- **The copy**. -/
theorem copyBuffer_ends {l : CString} {index : Nat} (hheld : Holds m buffer l)
    (hlen : l.length = index + 1)
    (hapart : str ≤ buffer ∨ buffer + l.length ≤ str) :
    Ends (copyBuffer str buffer index) m fun _ m' => Holds m' str l ∧
      Touches (Set.Ico buffer (buffer + l.length)) (Set.Ico str (str + l.length)) m m' := by
  apply Ends.loop (Copying m buffer str l l.length) (fun i => l.length - i)
  · intro i m' h
    have hi := h.bound
    by_cases hle : i ≤ index
    · have hlt : i < l.length := by omega
      have hsource := h.source hlt (by omega)
      have hchar : m.cell (buffer + i) = l[i] := hheld i hlt
      simp only [if_pos hle]
      apply Ends.bind
      apply ends_load
      apply Ends.bind
      apply ends_store
      apply Ends.again
      rw [hsource, hchar]
      exact ⟨(h.read hlt).write hlt hlt, by omega⟩
    · simp only [if_neg hle]
      apply Ends.leave
      have hend : i = l.length := by omega
      subst hend
      have hcopied := h.copied
      rw [List.take_length] at hcopied
      exact ⟨hcopied, h.inside.mono (Set.Ico_subset_Ico (by omega) (by omega)) Set.Subset.rfl⟩
  · exact ⟨Nat.zero_le _, holds_nil, Touches.refl _ _ m⟩

/-- The cells that the function may write, in a buffer and a string of `size`
    bytes. -/
def hexCells (buffer str size : Int) : Set Int :=
  Set.Ico buffer (buffer + size) ∪ Set.Ico str (str + size)

/-- A part of the buffer. -/
theorem buffer_subset {size x : Int} (hx : x ≤ buffer + size) :
    Set.Ico buffer x ⊆ hexCells buffer str size :=
  (Set.Ico_subset_Ico le_rfl hx).trans Set.subset_union_left

/-- The three steps after the digits: the terminator, the reversal and the copy. -/
theorem finishHex_ends {l : CString} (size : Int) (hheld : Holds m buffer l)
    (hplain : ∀ c ∈ l, c ≠ 0) (hsize : l.length + 1 ≤ size)
    (hapart : str + size ≤ buffer ∨ buffer + size ≤ str) :
    Ends (do store (buffer + l.length) 0; reverse buffer; copyBuffer str buffer l.length) m
      fun _ m' => StringAt 0 m' str l.reverse ∧
        Touches (Set.Ico buffer (buffer + size)) (hexCells buffer str size) m m' := by
  have hfirst : Touches (Set.Ico buffer (buffer + size)) (hexCells buffer str size) m
      (m.stored (buffer + l.length) 0) :=
    (Touches.refl _ _ m).stored (.inl ⟨by omega, by omega⟩)
  apply Ends.bind
  apply ends_store
  have hstring : StringAt 0 (m.stored (buffer + l.length) 0) buffer l :=
    (hheld.snoc rfl).stringAt hplain
  apply Ends.bind
  apply (reverse_ends hstring).mono
  rintro - m₁ ⟨hreversed, hreverse⟩
  have hsecond : Touches (Set.Ico buffer (buffer + size)) (hexCells buffer str size) _ m₁ :=
    hreverse.mono (Set.Ico_subset_Ico le_rfl (by omega)) (buffer_subset (by omega))
  have hlen : (l.reverse ++ [0]).length = l.length + 1 := by simp
  apply (copyBuffer_ends hreversed.terminated hlen (by omega)).mono
  rintro - m' ⟨hcopied, hcopy⟩
  refine ⟨hcopied.stringAt hreversed.plain, (hfirst.trans hsecond).trans (hcopy.mono ?_ ?_)⟩
  · exact Set.Ico_subset_Ico le_rfl (by omega)
  · exact (Set.Ico_subset_Ico le_rfl (by omega)).trans Set.subset_union_right

/-- **Hexadecimal numerals**: at most 17 bytes of the buffer are used and at most
    17 bytes of the string are written. -/
theorem uint64_to_hex_string_correct (m : Memory) (num : UInt64)
    (hapart : str + 17 ≤ buffer ∨ buffer + 17 ≤ str) :
    ∃ ds, IsNumeral 16 num.toNat ds ∧
      readText 0x41 16 (ds.map (digitChar 0x41)) = num.toNat ∧
      Ends (uint64_to_hex_string buffer num str) m fun _ m' =>
        StringAt 0 m' str (ds.map (digitChar 0x41)) ∧
        Touches (Set.Ico buffer (buffer + 17)) (hexCells buffer str 17) m m' := by
  have hnumeral := isNumeral_numeral (b := 16) (by simp) num.toNat
  have hlen : (numeral 16 num.toNat).length ≤ 16 :=
    length_numeral_le (by simp) (by simp) num.toNat_lt
  refine ⟨_, hnumeral, ?_, ?_⟩
  · rw [readText_digits (.inl rfl) fun d hd => by have := hnumeral.small d hd; omega]
    exact hnumeral.value
  · apply Ends.bind
    apply hexDigits_ends.mono
    rintro i m₁ ⟨hi, hheld, hdigits⟩
    have hcount : ((numeral 16 num.toNat).reverse.map (digitChar 0x41)).length = i := by simp [hi]
    have hplain : ∀ c ∈ (numeral 16 num.toNat).reverse.map (digitChar 0x41), c ≠ 0 := by
      intro c hc
      obtain ⟨d, hd, rfl⟩ := List.mem_map.mp hc
      have hd16 := hnumeral.small d (List.mem_reverse.mp hd)
      exact digitChar_ne_zero (.inl rfl) (by omega)
    have hfinish := finishHex_ends 17 hheld hplain (by omega) hapart
    rw [hcount] at hfinish
    apply hfinish.mono
    rintro - m' ⟨hstring, hinside⟩
    rw [List.map_reverse, List.reverse_reverse] at hstring
    exact ⟨hstring, (hdigits.mono (Set.empty_subset _) (buffer_subset (by omega))).trans hinside⟩

/-- The largest number. -/
theorem uint64_to_hex_string_max :
    ∃ ds, IsNumeral 16 (UInt64.ofNat (2 ^ 64 - 1)).toNat ds ∧
      readText 0x41 16 (ds.map (digitChar 0x41)) = (UInt64.ofNat (2 ^ 64 - 1)).toNat ∧
      Ends (uint64_to_hex_string 100 (UInt64.ofNat (2 ^ 64 - 1)) 0) (ofList 0 [] 0) fun _ m' =>
        StringAt 0 m' 0 (ds.map (digitChar 0x41)) ∧
        Touches (Set.Ico 100 (100 + 17)) (hexCells 100 0 17) (ofList 0 [] 0) m' :=
  uint64_to_hex_string_correct (ofList 0 [] 0) _ (.inl (by simp))

end hexadecimal

end ArgaldOS.Buffer
