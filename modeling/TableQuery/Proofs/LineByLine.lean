import TableQuery.Proofs.Cells
import TableQuery.Proofs.TableShape

/-!
# Decoding line by line

The rules for a table are rules for lines: the first one is the header, a blank one is passed over,
any other is cut at the delimiter and has to be as wide as the header. Decoding asks the lines for
the delimiter only and reads everything else from the records. `Decoding.byLines` knows nothing of
records, and gives what decoding gives of a text without a byte order mark and without a lone
carriage return.
-/

namespace TableQuery

open TableQuery.Text

/-! ## The rules -/

/-- What is wrong with the name in this place of the header: it is empty, or stands further left. -/
def nameFaultAt? (header : List String) : String × Nat → Option TableError
  | (name, place) =>
    if name = "" then some .nameEmpty
    else if name ∈ header.take place then some (.nameRepeated name)
    else none

def nameFault? (header : List String) : Option TableError :=
  header.zipIdx.findSome? (nameFaultAt? header)

/-- The rows, if each is as wide as the header; else the fault of the first that is not. -/
def checkRows (header : List String) (rows : List (List String)) :
    Except TableError (List (List String)) :=
  match rows.find? (·.length ≠ header.length) with
  | some row => .error (.width 0 header.length row.length)
  | none => .ok rows

/-- What the rules make of the lines of a text. -/
def Decoding.byLines : List (List Char) → Except TableError Decoding
  | [] => .error .headerEmpty
  | first :: more =>
    if allBlank first then .error .headerEmpty
    else
      let delimiter := Delimiter.detect (trim first)
      let header := cells delimiter.char first
      match nameFault? header with
      | some fault => .error fault
      | none => do
        let rows ← checkRows header ((more.filter (!allBlank ·)).map (cells delimiter.char))
        return ⟨delimiter, ⟨header, rows⟩⟩

def TableError.unnumbered : TableError → TableError
  | .width _ expected found => .width 0 expected found
  | fault => fault

/-! ## Names -/

/-- The names in front have been passed, and all that is kept of them is which they are. -/
theorem checkNames_append {front seen : List String} (same : ∀ name, name ∈ seen ↔ name ∈ front)
    (rest : List String) :
    Table.checkNames seen rest =
      match (rest.zipIdx front.length).findSome? (nameFaultAt? (front ++ rest)) with
      | some fault => .error fault
      | none => .ok () := by
  induction rest generalizing front seen with
  | nil => rfl
  | cons name rest ih =>
    rw [Table.checkNames, List.zipIdx_cons, List.findSome?_cons]
    by_cases empty : name = ""
    · simp [nameFaultAt?, empty]
    · by_cases repeated : name ∈ seen
      · have before : name ∈ front := (same name).1 repeated
        simp [nameFaultAt?, empty, repeated, before]
      · have fresh : name ∉ front := fun member => repeated ((same name).2 member)
        have passed : ∀ other, other ∈ name :: seen ↔ other ∈ front ++ [name] := by
          simp [same, or_comm]
        have next := ih passed
        simp only [List.length_append, List.length_singleton, List.append_assoc,
          List.singleton_append] at next
        simp [nameFaultAt?, empty, repeated, fresh, next]

theorem checkNames_eq (header : List String) :
    Table.checkNames [] header =
      match nameFault? header with
      | some fault => .error fault
      | none => .ok () :=
  @checkNames_append [] [] (fun _ => Iff.rfl) header

/-- A header is refused by the leftmost name that is wrong. -/
theorem ofHeader_eq (header : List String) :
    Table.ofHeader header =
      match nameFault? header with
      | some fault => .error fault
      | none => .ok ⟨header, []⟩ := by
  rw [Table.ofHeader, checkNames_eq]
  cases nameFault? header <;> rfl

theorem unnumbered_of_nameFault? {header : List String} {fault : TableError}
    (found : nameFault? header = some fault) : fault.unnumbered = fault := by
  obtain ⟨_, _, decided⟩ := List.exists_of_findSome?_eq_some found
  unfold nameFaultAt? at decided
  dsimp only at decided
  split at decided
  · rw [← Option.some.inj decided]
    rfl
  · split at decided
    · rw [← Option.some.inj decided]
      rfl
    · cases decided

/-! ## Rows -/

theorem checkRows_cons (header row : List String) (rows : List (List String)) :
    checkRows header (row :: rows) =
      if row.length = header.length then checkRows header rows >>= fun rows => .ok (row :: rows)
      else .error (.width 0 header.length row.length) := by
  unfold checkRows
  rw [List.find?_cons]
  by_cases wide : row.length = header.length
  · simp only [wide, ne_eq, not_true_eq_false, decide_false, if_true]
    cases rows.find? (fun row => decide ¬row.length = header.length) <;> rfl
  · simp [wide]

/-- Records are checked one after another, and their lines matter to the fault only. -/
theorem checkWidth_mapM (header : List String) (delimiter : Char) (records : List Record) :
    (records.mapM fun record =>
        Table.checkWidth header record.line (record.fields delimiter)).mapError
          TableError.unnumbered =
      checkRows header (records.map fun record => cells delimiter record.text) := by
  induction records with
  | nil => rfl
  | cons record records ih =>
    rw [List.mapM_cons, List.map_cons, checkRows_cons, mapError_bind]
    by_cases wide : (cells delimiter record.text).length = header.length
    · have checked : Table.checkWidth header record.line (record.fields delimiter) =
          .ok (cells delimiter record.text) := if_pos wide
      rw [checked, if_pos wide, ← ih]
      exact mapError_bind _ _ _
    · have checked : Table.checkWidth header record.line (record.fields delimiter) =
          .error (.width record.line header.length (cells delimiter record.text).length) :=
        if_neg wide
      rw [checked, if_neg wide]
      rfl

theorem fields_ne_empty {delimiter : Char} (visible : isBlank delimiter = false)
    (record : Record) : (record.fields delimiter != [""]) = !allBlank record.text := by
  have single := cells_eq_empty_iff visible record.text
  change (cells delimiter record.text != [""]) = !allBlank record.text
  cases blank : allBlank record.text <;> simp_all

/-- Rows are read in their order, blank lines passed over, and the first misfit is told. -/
theorem rows_eq {delimiter : Char} (visible : isBlank delimiter = false) (header : List String)
    (records : List Record) :
    (Decoding.rows header delimiter records).mapError TableError.unnumbered =
      checkRows header
        (((records.map Record.text).filter (!allBlank ·)).map (cells delimiter)) := by
  have kept : (fun record : Record => record.fields delimiter != [""]) =
      (fun line => !allBlank line) ∘ Record.text :=
    funext (fields_ne_empty visible)
  rw [Decoding.rows, checkWidth_mapM, kept, List.filter_map, List.map_map]
  rfl

/-! ## The whole text -/

theorem filter_nonempty (pieces : List (List Char)) :
    (nonempty pieces).filter (!allBlank ·) = pieces.filter (!allBlank ·) := by
  rw [nonempty, List.filter_filter]
  apply List.filter_congr
  intro piece _
  cases piece <;> simp [allBlank]

/-- Decoding follows the rules for lines. -/
theorem ofText_eq_byLines (text : String) (unmarked : text.toList.head? ≠ some '\uFEFF')
    (paired : Paired text.toList) :
    (Decoding.ofText text).mapError TableError.unnumbered =
      Decoding.byLines (lines text.toList) := by
  have texts := texts_of_ofText unmarked paired
  unfold Decoding.ofText Decoding.ofLines linesOf
  cases whole : lines text.toList with
  | nil => rfl
  | cons first more =>
    have head : (((first :: more).map String.ofList).headD "").toList = first := by simp
    simp only [head, trim_eq_nil_iff, Decoding.byLines]
    by_cases blank : allBlank first = true
    · rw [if_pos blank, if_pos blank]
      rfl
    · rw [if_neg blank, if_neg blank]
      have occupied : first ≠ [] := fun none => blank (by rw [none]; rfl)
      rw [whole, nonempty_cons_of_ne_nil occupied] at texts
      obtain ⟨header, records, split, same, below⟩ := List.map_eq_cons_iff.1 texts
      rw [split]
      have own : ∀ delimiter, header.fields delimiter = cells delimiter first := by
        intro delimiter
        rw [← same]
        rfl
      simp only [own, ofHeader_eq]
      cases fault : nameFault? (cells (Delimiter.detect (trim first)).char first) with
      | some error => exact congrArg Except.error (unnumbered_of_nameFault? fault)
      | none =>
        rw [ok_bind, mapError_bind, rows_eq (isBlank_delimiter _), below, filter_nonempty]
        rfl

/-- Both ends of a line, blank lines below the header, a quote, an empty cell, the other delimiter
in a cell, and no end behind the last line. -/
def mixedText : String :=
  "name ;city;x,y\r\n\"Ann;Oslo;1\n\r\n \t\nBo;; 2,5"

/-- All that the rules speak of, in one text. -/
theorem mixedText_by_lines :
    mixedText.toList.head? ≠ some '\uFEFF' ∧ Paired mixedText.toList ∧
      (Decoding.ofText mixedText).mapError TableError.unnumbered =
        Decoding.byLines (lines mixedText.toList) ∧
      Decoding.byLines (lines mixedText.toList) =
        .ok ⟨.semicolon, ⟨["name", "city", "x,y"], [["\"Ann", "Oslo", "1"], ["Bo", "", "2,5"]]⟩⟩ :=
  ⟨by decide, by decide, ofText_eq_byLines mixedText (by decide) (by decide), by decide⟩

end TableQuery
