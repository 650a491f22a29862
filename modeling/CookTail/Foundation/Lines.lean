import Mathlib.Data.List.Basic

/-! # Lines of text

The line splitter of `cook tail`. Python strings are sequences of characters,
so a text is a `List Char`; `str.split` on the one-character delimiter is
`List.splitOn`, and `str.join` is `List.intercalate`.
-/

namespace CookTail

/-- A Python `str`. -/
abbrev Text := List Char

/-- `LINE_DELIMITER`. -/
def lineDelimiter : Char := '\n'

/-- `text.split(LINE_DELIMITER)`: the pieces between delimiters. There is always
at least one piece, and the last one is empty when the text ends with the
delimiter. -/
def split (text : Text) : List Text := text.splitOn lineDelimiter

/-- `LINE_DELIMITER.join(lines)`. -/
def join (lines : List Text) : Text := [lineDelimiter].intercalate lines

/-- Python's `items[-count:]` for a count that is not negative. Since `-0 == 0`,
a count of zero selects every item. -/
def lastItems (items : List α) (count : Nat) : List α :=
  if count = 0 then items else items.drop (items.length - count)

example : split "a\nb\n".toList = ["a".toList, "b".toList, []] := by decide

/-! ## Splitting -/

theorem split_cons (first : Char) (rest : Text) :
    split (first :: rest) =
      if first = lineDelimiter then [] :: split rest
      else (split rest).modifyHead (first :: ·) := by
  simp [split, List.splitOn]

@[simp] theorem split_nil : split [] = [[]] := rfl

theorem split_ne_nil (text : Text) : split text ≠ [] :=
  List.splitOnP_ne_nil _ text

theorem split_of_not_mem {text : Text} (free : lineDelimiter ∉ text) :
    split text = [text] :=
  List.splitOnP_eq_single _ _ fun character member equal =>
    free (by simpa [eq_of_beq equal] using member)

/-- No piece of a split contains the delimiter. -/
theorem not_mem_of_mem_split {text piece : Text} (member : piece ∈ split text) :
    lineDelimiter ∉ piece := by
  induction text generalizing piece with
  | nil => simp_all
  | cons first rest induction =>
      rw [split_cons] at member
      split_ifs at member with delimiter
      · rcases List.mem_cons.mp member with rfl | member
        · simp
        · exact induction member
      · obtain ⟨head, tail, pieces⟩ := List.exists_cons_of_ne_nil (split_ne_nil rest)
        rw [pieces, List.modifyHead_cons] at member
        rcases List.mem_cons.mp member with rfl | member
        · have headFree := induction (pieces ▸ List.mem_cons_self head tail)
          simpa [Ne.symm delimiter] using headFree
        · exact induction (pieces ▸ List.mem_cons_of_mem head member)

theorem length_split (text : Text) :
    (split text).length = text.count lineDelimiter + 1 := by
  induction text with
  | nil => rfl
  | cons first rest induction =>
      rw [split_cons, List.count_cons]
      split_ifs with delimiter <;> simp_all

/-- Prepending text to a buffer only re-splits the buffer's first piece: the
rest of its pieces are kept as they are. -/
theorem split_append (before : Text) {after first : Text} {rest : List Text}
    (pieces : split after = first :: rest) :
    split (before ++ after) = split (before ++ first) ++ rest := by
  induction before with
  | nil =>
      have firstFree := not_mem_of_mem_split (pieces ▸ List.mem_cons_self first rest)
      simp [pieces, split_of_not_mem firstFree]
  | cons character before induction =>
      rw [List.cons_append, List.cons_append, split_cons, split_cons, induction]
      split_ifs
      · rfl
      · obtain ⟨head, tail, split_eq⟩ :=
          List.exists_cons_of_ne_nil (split_ne_nil (before ++ first))
        simp [split_eq]

/-! ## Joining -/

theorem join_cons (first : Text) (rest : List Text) :
    join (first :: rest) = first ++ (rest.map (lineDelimiter :: ·)).flatten := by
  induction rest generalizing first with
  | nil => simp [join, List.intercalate]
  | cons second rest induction =>
      simp only [join, List.intercalate, List.intersperse_cons₂, List.flatten_cons] at induction ⊢
      simp [induction]

@[simp] theorem join_nil : join [] = [] := rfl

@[simp] theorem join_singleton (line : Text) : join [line] = line := by
  simp [join_cons]

theorem join_append_cons (lines : List Text) (hasLine : lines ≠ [])
    (line : Text) (rest : List Text) :
    join (lines ++ line :: rest) = join lines ++ lineDelimiter :: join (line :: rest) := by
  obtain ⟨first, middle, rfl⟩ := List.exists_cons_of_ne_nil hasLine
  simp [join_cons]

theorem join_append {lines : List Text} (hasLine : lines ≠ []) (more : List Text) :
    join (lines ++ more) = join lines ++ (more.map (lineDelimiter :: ·)).flatten := by
  obtain ⟨first, rest, rfl⟩ := List.exists_cons_of_ne_nil hasLine
  simp [join_cons]

theorem join_split (text : Text) : join (split text) = text :=
  List.intercalate_splitOn _ _

theorem split_join {lines : List Text} (free : ∀ line ∈ lines, lineDelimiter ∉ line)
    (hasLine : lines ≠ []) : split (join lines) = lines :=
  List.splitOn_intercalate lines _ free hasLine

theorem count_join {lines : List Text} (free : ∀ line ∈ lines, lineDelimiter ∉ line)
    (hasLine : lines ≠ []) : (join lines).count lineDelimiter + 1 = lines.length := by
  rw [← length_split, split_join free hasLine]

theorem take_length_head_split (text : Text) (first : Text) (rest : List Text)
    (pieces : split text = first :: rest) : text.take first.length = first := by
  conv_lhs => rw [← join_split text, pieces, join_cons]
  simp

theorem isSuffix_join_drop_split (before : Text) {last : Text} (free : lineDelimiter ∉ last) :
    ∀ count < (split (before ++ last)).length,
      last <:+ join ((split (before ++ last)).drop count) := by
  induction before with
  | nil =>
      intro count below
      simp only [List.nil_append, split_of_not_mem free, List.length_singleton] at below ⊢
      obtain rfl : count = 0 := by omega
      simp
  | cons character before induction =>
      obtain ⟨first, rest, pieces⟩ := List.exists_cons_of_ne_nil (split_ne_nil (before ++ last))
      rw [pieces] at induction
      intro count below
      rw [List.cons_append, split_cons, pieces] at below ⊢
      split_ifs at below ⊢
      · cases count with
        | zero =>
            have suffix := induction 0 (by simp)
            simp only [List.drop_zero, join_cons, List.map_cons, List.flatten_cons] at suffix ⊢
            simpa using suffix.trans (List.suffix_cons _ _)
        | succ count => exact induction count (by simpa using below)
      · cases count with
        | zero =>
            have suffix := induction 0 (by simp)
            simp only [List.drop_zero, List.modifyHead_cons, join_cons] at suffix ⊢
            exact suffix.trans (List.suffix_cons _ _)
        | succ count => exact induction (count + 1) (by simpa using below)

/-! ## The last piece -/

theorem getLast?_split_eq_nil_iff (text : Text) :
    (split text).getLast? = some [] ↔
      text = [] ∨ text.getLast? = some lineDelimiter := by
  constructor
  · intro lastEmpty
    obtain ⟨lines, pieces⟩ : ∃ lines, split text = lines ++ [[]] := by
      rw [List.getLast?_eq_some_iff] at lastEmpty
      exact lastEmpty
    have joined := join_split text
    rw [pieces] at joined
    cases lines with
    | nil => simp_all
    | cons first middle =>
        rw [join_append_cons _ (List.cons_ne_nil first middle)] at joined
        simp [← joined]
  · rintro (rfl | endsWith)
    · rfl
    · obtain ⟨front, rfl⟩ : ∃ front, text = front ++ [lineDelimiter] := by
        rw [List.getLast?_eq_some_iff] at endsWith
        exact endsWith
      have pieces : split [lineDelimiter] = [] :: [[]] := by decide
      simp [split_append front pieces]

end CookTail
