import Mathlib.Data.List.Basic
import Mathlib.Tactic.Common

/-! # Lines of limited width

    A text is a sequence of lines.  On a sheet that is `n` symbols wide a longer line
    takes several lines of the sheet.  `wrap` says which: as many symbols as there is
    room for, and the rest on the following lines.  A typewriter comes to the same
    result symbol by symbol, without knowing the length of the line (`Sheet.type`).

    Of a long sheet a window shows the last `r` lines (`symbolAt`).

    * `intercalate_cons_eq`: joined lines, one after the other;
    * `Sheet.lines_foldl_type`: typing a line wraps it;
    * `Sheet.lines_typeAll`: typing a text lays it out;
    * `symbolAt_type`, `symbolAt_append_of_lt`, `symbolAt_append_of_le`: what a window shows after
      a symbol and after a new line.
-/

namespace TextLayout

variable {A : Type u}

/-! ## Section 1: Joining and wrapping -/

/-- Lines that are joined by a separator: the first one, and the others with a separator
    before them. -/
theorem intercalate_cons_eq (x : A) (first : List A) (others : List (List A)) :
    [x].intercalate (first :: others) = first ++ others.flatMap (List.cons x) := by
  induction others generalizing first with
  | nil => simp
  | cons line others ih =>
    rw [List.intercalate_cons_cons, ih, List.flatMap_cons, List.append_assoc]
    rfl

/-- The lines that `line` takes. -/
def wrap (n : Nat) (line : List A) : List (List A) :=
  if 0 < n ∧ n < line.length then line.take n :: wrap n (line.drop n) else [line]
  termination_by line.length
  decreasing_by rw [List.length_drop]; omega

/-- The lines that a text takes. -/
def layout (n : Nat) (text : List (List A)) : List (List A) := text.flatMap (wrap n)

theorem wrap_of_le {n : Nat} {line : List A} (h : line.length ≤ n) : wrap n line = [line] := by
  rw [wrap, if_neg (by omega)]

/-- A full line, and the rest. -/
theorem wrap_append {n : Nat} {line rest : List A} (h : line.length = n) (hn : 0 < n)
    (hrest : rest ≠ []) : wrap n (line ++ rest) = line :: wrap n rest := by
  have hlen : 0 < rest.length := List.length_pos_iff.mpr hrest
  rw [wrap, if_pos ⟨hn, by rw [List.length_append]; omega⟩,
    List.take_append_of_le_length (by omega),
    List.drop_append_of_le_length (by omega), List.take_of_length_le (by omega),
    List.drop_of_length_le (by omega), List.nil_append]

/-! ## Section 2: Typing -/

/-- A sheet: the lines that are complete, and the last line. -/
structure Sheet (A : Type u) where
  above : List (List A)
  last  : List A

namespace Sheet

/-- All lines. -/
def lines (s : Sheet A) : List (List A) := s.above ++ [s.last]

/-- The symbol `x` is typed: at the end of the last line, or in a new line if it is full. -/
def type (n : Nat) (s : Sheet A) (x : A) : Sheet A :=
  if s.last.length < n then { s with last := s.last ++ [x] }
  else { above := s.lines, last := [x] }

/-- A new line begins. -/
def newline (s : Sheet A) : Sheet A := { above := s.lines, last := [] }

/-- The first line of a text is typed, and then the others, each after a line break. -/
def typeAll (n : Nat) (s : Sheet A) (first : List A) (others : List (List A)) : Sheet A :=
  others.foldl (fun s line => line.foldl (type n) s.newline) (first.foldl (type n) s)

theorem lines_newline (s : Sheet A) : s.newline.lines = s.lines ++ [[]] := rfl

variable {n : Nat} {s : Sheet A}

/-- **Typing a line** wraps it. -/
theorem lines_foldl_type (hn : 0 < n) (line : List A) (hs : s.last.length ≤ n) :
    (line.foldl (type n) s).lines = s.above ++ wrap n (s.last ++ line) := by
  induction line generalizing s with
  | nil => rw [List.append_nil, wrap_of_le hs]; rfl
  | cons x line ih =>
    rw [List.foldl_cons, type]
    split
    · next hlt =>
      rw [ih (by rw [List.length_append]; exact hlt)]
      simp only [List.append_assoc, List.singleton_append]
    · next hfull =>
      rw [ih (s := ⟨s.lines, [x]⟩) hn, wrap_append (by omega) hn (List.cons_ne_nil x line), lines]
      simp only [List.append_assoc, List.singleton_append]

/-- **Typing a text** lays it out. -/
theorem lines_typeAll (hn : 0 < n) (first : List A) (others : List (List A))
    (hs : s.last = []) : (s.typeAll n first others).lines
      = s.above ++ layout n (first :: others) := by
  have hfirst : (first.foldl (type n) s).lines = s.above ++ wrap n first := by
    rw [lines_foldl_type hn first (by rw [hs]; exact Nat.zero_le n), hs, List.nil_append]
  have hothers : ∀ t : Sheet A,
      (others.foldl (fun s line => line.foldl (type n) s.newline) t).lines
        = t.lines ++ layout n others := by
    induction others with
    | nil => intro t; exact (List.append_nil _).symm
    | cons line others ih =>
      intro t
      have hline := lines_foldl_type (s := t.newline) hn line (Nat.zero_le n)
      rw [List.foldl_cons, ih, hline]
      simp only [newline, List.nil_append, layout, List.flatMap_cons, List.append_assoc]
  rw [typeAll, hothers, hfirst]
  simp only [layout, List.flatMap_cons, List.append_assoc]

end Sheet

/-! ## Section 3: The window -/

/-- The symbol in column `x` of row `y` of a window that shows the last `r` lines. -/
def symbolAt (r : Nat) (lines : List (List A)) (y x : Nat) : Option A :=
  (lines[y + (lines.length - r)]?).bind fun l => l[x]?

section window
variable {r y : Nat} {ls : List (List A)}

/-- A new line, as long as there is room for it. -/
theorem symbolAt_append_of_lt (h : ls.length < r) (l : List A) (y x : Nat) :
    symbolAt r (ls ++ [l]) y x
      = if y = ls.length then l[x]? else symbolAt r ls y x := by
  have hoff : (ls ++ [l]).length - r = 0 := by
    rw [List.length_append]
    exact Nat.sub_eq_zero_of_le h
  rw [symbolAt, symbolAt, hoff, Nat.sub_eq_zero_of_le (Nat.le_of_lt h), Nat.add_zero]
  split
  · next heq =>
    subst heq
    rw [List.getElem?_concat_length]
    rfl
  · next hne =>
    rcases Nat.lt_or_ge y ls.length with hlt | hge
    · rw [List.getElem?_append_left hlt]
    · have hend : (ls ++ [l]).length ≤ y := by
        rw [List.length_append, List.length_singleton]
        omega
      rw [List.getElem?_eq_none hend, List.getElem?_eq_none hge]

/-- A new line in a window that is full: the lines move up. -/
theorem symbolAt_append_of_le (h : r ≤ ls.length) (l : List A) {y : Nat} (hy : y < r) (x : Nat) :
    symbolAt r (ls ++ [l]) y x
      = if y + 1 = r then l[x]? else symbolAt r ls (y + 1) x := by
  have hoff : (ls ++ [l]).length - r = ls.length - r + 1 := by
    rw [List.length_append]
    exact Nat.succ_sub h
  rw [symbolAt, symbolAt, hoff]
  split
  · next heq =>
    rw [show y + (ls.length - r + 1) = ls.length by omega, List.getElem?_concat_length]
    rfl
  · next hne =>
    rw [List.getElem?_append_left (by omega), Nat.add_right_comm, Nat.add_assoc]

/-- A symbol at the end of the last line, which is in row `y₀` of the window. -/
theorem symbolAt_type {above : List (List A)} {last : List A} {y₀ : Nat}
    (hy₀ : y₀ + (above.length + 1 - r) = above.length) (a : A) (y x : Nat) :
    symbolAt r (above ++ [last ++ [a]]) y x
      = if y = y₀ ∧ x = last.length then some a else symbolAt r (above ++ [last]) y x := by
  simp only [symbolAt, List.length_append, List.length_singleton]
  by_cases hrow : y = y₀
  · subst hrow
    rw [hy₀, List.getElem?_concat_length, List.getElem?_concat_length]
    simp only [Option.bind_some, true_and]
    split
    · next hx => rw [hx, List.getElem?_concat_length]
    · next hx =>
      rcases Nat.lt_or_ge x last.length with hlt | hge
      · rw [List.getElem?_append_left hlt]
      · rw [List.getElem?_eq_none hge,
          List.getElem?_eq_none (by rw [List.length_append, List.length_singleton]; omega)]
  · rw [if_neg fun h => hrow h.1]
    rcases Nat.lt_or_ge (y + (above.length + 1 - r)) above.length with hlt | hge
    · rw [List.getElem?_append_left hlt, List.getElem?_append_left hlt]
    · rw [List.getElem?_eq_none (by rw [List.length_append, List.length_singleton]; omega),
        List.getElem?_eq_none (by rw [List.length_append, List.length_singleton]; omega)]

/-- A window shows the rows that exist. -/
theorem symbolAt_nil (y x : Nat) : symbolAt r [([] : List A)] y x = none := by
  rw [symbolAt]
  cases h : ([([] : List A)])[y + ([([] : List A)].length - r)]? with
  | none => rfl
  | some line =>
    obtain rfl := List.mem_singleton.mp (List.mem_of_getElem? h)
    rfl

end window

end TextLayout
