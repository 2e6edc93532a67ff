import Mathlib.Data.List.DropRight

/-! # Strings (`stdlib/string.c`)

    A C string is the list of its characters, without the terminator.  The
    functions that change a string in place are functions to the new string.
-/

namespace ArgaldOS

/-- The characters before the first NUL. -/
abbrev CString : Type := List UInt8

/-- `isspace`: the space is the only one. -/
def isspace (c : UInt8) : Bool := c == 0x20

/-- `trim`: spaces are removed on the left, then on the right. -/
def trim (a : CString) : CString := (a.dropWhile isspace).rdropWhile isspace

/-- `strlen`. -/
def strlen (s : CString) : Nat := s.length

/-- `strcmp`: whether the strings are equal. -/
def strcmp (str1 str2 : CString) : Bool :=
  if strlen str1 ≠ strlen str2 then false
  else (List.range (strlen str1)).all fun c => str1[c]? == str2[c]?

theorem strcmp_iff (str1 str2 : CString) : strcmp str1 str2 = true ↔ str1 = str2 := by
  unfold strcmp strlen
  by_cases hlen : str1.length = str2.length
  · rw [if_neg (not_not.mpr hlen), List.all_eq_true]
    refine ⟨fun h => List.ext_getElem? fun c => ?_, fun h c _ => by rw [h]; exact beq_self_eq_true _⟩
    by_cases hc : c < str1.length
    · exact eq_of_beq (h c (List.mem_range.mpr hc))
    · rw [List.getElem?_eq_none (by omega), List.getElem?_eq_none (by omega)]
  · rw [if_pos hlen]
    exact ⟨fun h => absurd h Bool.false_ne_true, fun h => absurd (congrArg List.length h) hlen⟩

/-- `strncpy_safe`: at most `n - 1` characters of the string at `src`. -/
def strncpy_safe (src : Nat → UInt8) (n : Nat) : CString :=
  ((List.range (n - 1)).map src).takeWhile (· ≠ 0)

end ArgaldOS
