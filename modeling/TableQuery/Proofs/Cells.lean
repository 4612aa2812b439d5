import Mathlib.Data.List.DropRight
import Mathlib.Tactic.MkIffOfInductiveProp
import TableQuery.Proofs.Records
import TableQuery.Table.Decode

/-!
# The cells of a line

A cell is a piece of its line without the blank characters around it. So it is trimmed, and neither
the delimiter nor an end of a line is in it (`clean_of_mem_cells`). And nothing else is asked of a
text to be a cell: texts of this kind, joined by the delimiter, are the cells of the line that they
make up (`cells_written`).
-/

namespace TableQuery

open TableQuery.Text

/-! ## Trimming -/

theorem trim_eq_nil_iff (cs : List Char) : trim cs = [] ↔ allBlank cs = true := by
  have start : trimStart cs = [] ↔ allBlank cs = true := by
    rw [trimStart, List.dropWhile_eq_nil_iff, allBlank, List.all_eq_true]
  rw [← start]
  constructor
  · intro none
    unfold trim trimEnd at none
    rw [List.reverse_eq_nil_iff, List.dropWhile_eq_nil_iff] at none
    -- The first character that is left is not blank, so that the end would have kept it.
    cases left : trimStart cs with
    | nil => rfl
    | cons c rest =>
      have blank : isBlank c = true := none c (by simp [left])
      have visible := List.head?_dropWhile_not isBlank cs
      rw [← trimStart, left] at visible
      simp [blank] at visible
  · intro none
    rw [trim, none]
    rfl

theorem trim_sublist (cs : List Char) : (trim cs).Sublist cs :=
  (List.rdropWhile_prefix isBlank (trimStart cs)).sublist.trans (List.dropWhile_sublist isBlank)

theorem trim_trim (cs : List Char) : trim (trim cs) = trim cs := by
  have start : trimStart (trim cs) = trim cs := by
    obtain ⟨blanks, split⟩ : trim cs <+: trimStart cs := List.rdropWhile_prefix isBlank _
    cases left : trim cs with
    | nil => rfl
    | cons c rest =>
      -- The first character is that of the text without its leading blanks.
      have visible := List.head?_dropWhile_not isBlank cs
      rw [← trimStart, ← split, left] at visible
      have first : isBlank c = false := by simpa using visible
      rw [trimStart, List.dropWhile_cons_of_neg (by simp [first])]
  calc trim (trim cs)
    _ = trimEnd (trimEnd (trimStart cs)) := congrArg trimEnd start
    _ = trim cs := List.rdropWhile_idempotent isBlank (trimStart cs)

theorem count_dropWhile_isBlank {c : Char} (visible : isBlank c = false) (cs : List Char) :
    (cs.dropWhile isBlank).count c = cs.count c := by
  induction cs with
  | nil => rfl
  | cons d cs ih =>
    by_cases blank : isBlank d = true
    · have other : d ≠ c := by
        rintro rfl
        simp [visible] at blank
      rw [List.dropWhile_cons_of_pos blank, ih, List.count_cons_of_ne other]
    · rw [List.dropWhile_cons_of_neg blank]

/-- Only blank characters are lost. -/
theorem count_trim {c : Char} (visible : isBlank c = false) (cs : List Char) :
    (trim cs).count c = cs.count c := by
  rw [trim, trimEnd, List.count_reverse, count_dropWhile_isBlank visible, List.count_reverse,
    trimStart, count_dropWhile_isBlank visible]

/-! ## Delimiters -/

/-- Trimming takes no delimiter away. -/
theorem isBlank_delimiter (delimiter : Delimiter) : isBlank delimiter.char = false := by
  cases delimiter <;> decide

theorem isTerminator_delimiter (delimiter : Delimiter) : isTerminator delimiter.char = false := by
  cases delimiter <;> decide

/-- Blanks around a line do not matter to its delimiter. -/
theorem detect_trim (line : List Char) : Delimiter.detect (trim line) = Delimiter.detect line := by
  have comma : isBlank ',' = false := isBlank_delimiter .comma
  have semicolon : isBlank ';' = false := isBlank_delimiter .semicolon
  rw [Delimiter.detect, count_trim comma, count_trim semicolon, ← Delimiter.detect]

/-! ## Cells -/

/-- The cells of a line: its pieces, trimmed. -/
def cells (delimiter : Char) (line : List Char) : List String :=
  (cut delimiter line).map fun piece => String.ofList (trim piece)

/-- A line of one empty cell is a blank line. -/
theorem cells_eq_empty_iff {d : Char} (visible : isBlank d = false) (line : List Char) :
    cells d line = [""] ↔ allBlank line = true := by
  unfold cells
  constructor
  · intro single
    have whole := join_cut d line
    cases pieces : cut d line with
    | nil => exact absurd pieces (cut_ne_nil d line)
    | cons piece more =>
      rw [pieces] at single whole
      obtain ⟨empty, rest⟩ := List.cons.inj single
      have last : more = [] := by simpa using rest
      rw [last] at whole
      have none : trim piece = [] := by simpa using empty
      rw [← whole]
      exact (trim_eq_nil_iff piece).1 none
  · intro blank
    have absent : d ∉ line := by
      intro member
      have found := List.all_eq_true.1 blank d member
      simp [visible] at found
    rw [cut_eq_singleton absent, List.map_singleton, (trim_eq_nil_iff line).2 blank]

/-- The text is trimmed and holds neither the delimiter nor an end of a line. -/
@[mk_iff]
structure Clean (delimiter : Char) (cell : String) : Prop where
  trimmed : trim cell.toList = cell.toList
  whole : delimiter ∉ cell.toList
  carriage : '\r' ∉ cell.toList
  feed : '\n' ∉ cell.toList

instance (delimiter : Char) (cell : String) : Decidable (Clean delimiter cell) :=
  decidable_of_iff _ (clean_iff delimiter cell).symm

/-- Whatever a line holds, its cells are clean. -/
theorem clean_of_mem_cells {delimiter : Char} {line : List Char} (unbroken : Unbroken line)
    {cell : String} (found : cell ∈ cells delimiter line) : Clean delimiter cell := by
  obtain ⟨piece, cut, rfl⟩ := List.mem_map.1 found
  have kept : ∀ c ∈ trim piece, c ∈ piece := fun c member => (trim_sublist piece).subset member
  have ordinary : ∀ c, isTerminator c = true → c ∉ trim piece := by
    intro c terminator member
    have plain := unbroken c (mem_of_mem_cut cut (kept c member))
    rw [terminator] at plain
    cases plain
  rw [clean_iff, String.toList_ofList]
  exact ⟨trim_trim piece, fun member => not_mem_of_mem_cut cut (kept _ member),
    ordinary '\r' rfl, ordinary '\n' rfl⟩

/-! ## Written lines -/

def written (delimiter : Char) (row : List String) : List Char :=
  join delimiter (row.map String.toList)

/-- Writing clean cells loses nothing. -/
theorem cells_written {delimiter : Char} {row : List String} (occupied : row ≠ [])
    (clean : ∀ cell ∈ row, Clean delimiter cell) :
    cells delimiter (written delimiter row) = row := by
  have absent : ∀ piece ∈ row.map String.toList, delimiter ∉ piece := by
    intro piece listed
    obtain ⟨cell, member, rfl⟩ := List.mem_map.1 listed
    exact (clean cell member).whole
  rw [cells, written, cut_join (by simpa using occupied) absent, List.map_map]
  refine (List.map_congr_left fun cell member => ?_).trans (List.map_id row)
  rw [Function.comp_apply, (clean cell member).trimmed, String.ofList_toList, id]

/-- Only a row of a single empty cell is written as nothing. -/
theorem written_ne_nil {delimiter : Char} {row : List String} (occupied : row ≠ [])
    (clean : ∀ cell ∈ row, Clean delimiter cell) (visible : row ≠ [""]) :
    written delimiter row ≠ [] := by
  intro none
  have same := cells_written occupied clean
  rw [none] at same
  exact visible same.symm

theorem unbroken_written {delimiter : Delimiter} {row : List String}
    (clean : ∀ cell ∈ row, Clean delimiter.char cell) :
    Unbroken (written delimiter.char row) := by
  intro c found
  rcases mem_join found with rfl | ⟨_, listed, inside⟩
  · exact isTerminator_delimiter delimiter
  · obtain ⟨cell, member, rfl⟩ := List.mem_map.1 listed
    have carriage : c ≠ '\r' := fun same => (clean cell member).carriage (same ▸ inside)
    have feed : c ≠ '\n' := fun same => (clean cell member).feed (same ▸ inside)
    simp [isTerminator, carriage, feed]

/-- A cell that holds something keeps its line from being blank. -/
theorem trim_written_ne_nil {delimiter : Char} {row : List String} {cell : String}
    (member : cell ∈ row) (trimmed : trim cell.toList = cell.toList) (occupied : cell ≠ "") :
    trim (written delimiter row) ≠ [] := by
  intro none
  have blank := List.all_eq_true.1 ((trim_eq_nil_iff _).1 none)
  have own : allBlank cell.toList = true := List.all_eq_true.2 fun c inside =>
    blank c (mem_join_of_mem (List.mem_map_of_mem member) inside)
  rw [← trim_eq_nil_iff, trimmed] at own
  exact occupied (String.toList_eq_nil_iff.1 own)

theorem head?_written {delimiter : Char} {first : String} (occupied : first ≠ "")
    (more : List String) : (written delimiter (first :: more)).head? = first.toList.head? := by
  obtain ⟨c, rest, begin⟩ := List.exists_cons_of_ne_nil
    (fun none => occupied (String.toList_eq_nil_iff.1 none))
  cases more <;> simp [written, join, begin]

end TableQuery
