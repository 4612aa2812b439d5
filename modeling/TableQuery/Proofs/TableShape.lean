import TableQuery.Proofs.Outcome
import TableQuery.Table.Decode

/-!
# The shape of a table

A decoded table has names that are not empty and do not repeat, and every row has a cell for each
of them (`shaped_of_ofText`). So a lookup in a row finds a cell for every name of the header.
-/

namespace TableQuery

/-- The names of the table tell its columns apart, and every row has all of them. -/
structure Table.Shaped (table : Table) : Prop where
  named : "" ∉ table.header
  distinct : table.header.Nodup
  full : ∀ cells ∈ table.rows, cells.length = table.header.length

/-- Names pass if they are distinct, from those seen too, and none is empty. -/
theorem checkNames_eq_ok_iff {seen names : List String} :
    Table.checkNames seen names = .ok () ↔
      "" ∉ names ∧ names.Nodup ∧ ∀ name ∈ names, name ∉ seen := by
  induction names generalizing seen with
  | nil => simp [Table.checkNames]
  | cons name rest ih =>
    unfold Table.checkNames
    split
    · next empty => simp [empty]
    · next named =>
      split
      · next repeated => simp [repeated]
      · next new =>
        rw [ih]
        simp only [List.mem_cons, List.nodup_cons, not_or, Ne.symm named, not_false_eq_true,
          true_and, forall_eq_or_imp, new]
        constructor
        · rintro ⟨nonempty, distinct, apart⟩
          exact ⟨nonempty, ⟨fun member => (apart name member).1 rfl, distinct⟩,
            fun other member => (apart other member).2⟩
        · rintro ⟨nonempty, ⟨fresh, distinct⟩, apart⟩
          refine ⟨nonempty, distinct, fun other member => ⟨?_, apart other member⟩⟩
          rintro rfl
          exact fresh member

theorem checkWidth_eq_ok_iff {header cells cells' : List String} {line : Nat} :
    Table.checkWidth header line cells = .ok cells' ↔
      cells' = cells ∧ cells'.length = header.length := by
  unfold Table.checkWidth
  split
  · next same =>
    rw [Except.ok.injEq]
    constructor
    · rintro rfl
      exact ⟨rfl, same⟩
    · rintro ⟨rfl, _⟩
      rfl
  · next other =>
    constructor
    · intro refused
      cases refused
    · rintro ⟨rfl, same⟩
      exact absurd same other

/-- The rows are the fields of the records that are not a single empty field, all of them as wide as
the header. -/
theorem rows_eq_ok_iff {header : List String} {delimiter : Char} {records : List Record}
    {rows : List (List String)} :
    Decoding.rows header delimiter records = .ok rows ↔
      rows = (records.map (Record.fields delimiter)).filter (· != [""]) ∧
        ∀ cells ∈ rows, cells.length = header.length := by
  unfold Decoding.rows
  simp only [mapM_eq_ok_iff, checkWidth_eq_ok_iff, List.filter_map, Function.comp_def]
  generalize records.filter (fun record => record.fields delimiter != [""]) = kept
  induction kept generalizing rows with
  | nil =>
    rw [List.forall₂_nil_left_iff, List.map_nil]
    exact ⟨fun none => ⟨none, by simp [none]⟩, And.left⟩
  | cons record kept ih =>
    rw [List.forall₂_cons_left_iff, List.map_cons]
    constructor
    · rintro ⟨_, more, ⟨rfl, own⟩, rest, rfl⟩
      obtain ⟨rfl, full⟩ := ih.1 rest
      exact ⟨rfl, List.forall_mem_cons.2 ⟨own, full⟩⟩
    · rintro ⟨rfl, full⟩
      obtain ⟨own, rest⟩ := List.forall_mem_cons.1 full
      exact ⟨_, _, ⟨rfl, own⟩, ih.2 ⟨rfl, rest⟩, rfl⟩

/-- How a decoding comes about from the first line of a text and from its records. -/
structure Decoding.ReadFrom (decoding : Decoding) (line : List Char) (header : Record)
    (records : List Record) : Prop where
  visible : Text.trim line ≠ []
  delimiter : decoding.delimiter = Delimiter.detect (Text.trim line)
  names : decoding.table.header = header.fields decoding.delimiter.char
  rows : decoding.table.rows =
    (records.map (Record.fields decoding.delimiter.char)).filter (· != [""])
  shaped : decoding.table.Shaped

/-- A text decodes just when it has a header with good names and rows as wide as it. -/
theorem ofText_eq_ok_iff {text : String} {decoding : Decoding} :
    Decoding.ofText text = .ok decoding ↔
      ∃ header records, Record.ofText text = header :: records ∧
        decoding.ReadFrom ((Text.linesOf text).headD "").toList header records := by
  unfold Decoding.ofText Decoding.ofLines
  dsimp only
  generalize ((Text.linesOf text).headD "").toList = line
  constructor
  · intro decoded
    split at decoded
    · cases decoded
    · next visible =>
      split at decoded
      · cases decoded
      · next header records split =>
        obtain ⟨table, made, decided⟩ := ok_of_bind_ok decoded
        obtain ⟨rows, checked, done⟩ := ok_of_bind_ok decided
        obtain ⟨_, named, kept⟩ := ok_of_bind_ok made
        obtain rfl := Except.ok.inj kept
        obtain rfl := Except.ok.inj done
        obtain ⟨nonempty, distinct, _⟩ := checkNames_eq_ok_iff.1 named
        obtain ⟨same, full⟩ := rows_eq_ok_iff.1 checked
        exact ⟨header, records, split, visible, rfl, rfl, same, nonempty, distinct, full⟩
  · rintro ⟨header, records, split, visible, same, names, rows, shaped⟩
    obtain ⟨delimiter, ⟨_, _⟩⟩ := decoding
    dsimp only at same names rows shaped
    subst same names
    have named := (@checkNames_eq_ok_iff [] _).2 ⟨shaped.named, shaped.distinct, by simp⟩
    have checked := rows_eq_ok_iff.2 ⟨rows, shaped.full⟩
    dsimp only at named checked
    rw [if_neg visible, split]
    simp only [Table.ofHeader, named, ok_bind, pure_bind, checked]
    rfl

/-- Whatever decodes is a table in shape, so no lookup in it fails. -/
theorem shaped_of_ofText {text : String} {decoding : Decoding}
    (decoded : Decoding.ofText text = .ok decoding) : decoding.table.Shaped := by
  obtain ⟨_, _, _, read⟩ := ofText_eq_ok_iff.1 decoded
  exact read.shaped

/-! ## Lookups -/

def Row.cell (row : Row) (column : String) : String :=
  (row.get? column).getD ""

theorem get?_eq_cell {row : Row} (full : row.cells.length = row.header.length) {column : String}
    (known : column ∈ row.header) : row.get? column = some (row.cell column) := by
  have found : (row.header.idxOf? column).isSome = true := by simpa using known
  obtain ⟨index, place⟩ := Option.isSome_iff_exists.1 found
  obtain ⟨inside, _⟩ := List.idxOf?_eq_some_iff.1 place
  have some : row.get? column = some row.cells[index] := by
    simp [Row.get?, place]
  rw [Row.cell, some]
  rfl

theorem require_eq_cell {row : Row} (full : row.cells.length = row.header.length)
    {column : String} (known : column ∈ row.header) :
    row.require column = .ok (row.cell column) := by
  unfold Row.require
  rw [get?_eq_cell full known]

/-- The cells stand below their names. -/
theorem get?_getElem {row : Row} (distinct : row.header.Nodup) {place : Nat}
    (inside : place < row.header.length) : row.get? row.header[place] = row.cells[place]? := by
  have found : row.header.idxOf? row.header[place] = some place := by
    refine List.idxOf?_eq_some_iff.2 ⟨inside, rfl, fun other before same => ?_⟩
    have equal := (List.getElem_inj distinct).1 same
    omega
  simp [Row.get?, found]

/-- Going through a row by its names gives what going through it by places gives. -/
theorem fields_eq_map_cell {row : Row} (full : row.cells.length = row.header.length)
    (distinct : row.header.Nodup) :
    row.fields = row.header.map fun name => (name, row.cell name) := by
  refine List.ext_getElem (by simp [Row.fields, full]) fun place zipped mapped => ?_
  have inside : place < row.header.length := by simpa using mapped
  have cell : row.cell row.header[place] = row.cells[place] := by
    rw [Row.cell, get?_getElem distinct inside, List.getElem?_eq_getElem, Option.getD_some]
  simp only [Row.fields, List.getElem_zip, List.getElem_map, cell]

theorem map_fst_fields {row : Row} (full : row.cells.length = row.header.length) :
    row.fields.map (·.1) = row.header :=
  List.map_fst_zip (Nat.le_of_eq full.symm)

theorem map_snd_fields {row : Row} (full : row.cells.length = row.header.length) :
    row.fields.map (·.2) = row.cells :=
  List.map_snd_zip (Nat.le_of_eq full)

theorem mem_views {table : Table} (shaped : table.Shaped) {row : Row} (member : row ∈ table.views) :
    row.header = table.header ∧ row.cells.length = row.header.length := by
  obtain ⟨cells, stored, rfl⟩ := List.mem_map.1 member
  exact ⟨rfl, shaped.full cells stored⟩

end TableQuery
