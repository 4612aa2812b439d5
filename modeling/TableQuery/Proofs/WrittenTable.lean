import TableQuery.Proofs.Cells
import TableQuery.Proofs.TableShape

/-!
# Written tables

A table is written as one line for the names and one for each row, its cells joined by the
delimiter. `Writable` says of which tables this keeps everything, and `Ended` how lines may end:
decoding such a text gives the table back, and whatever decoding gives is made of clean cells
(`writable_reads_back`).
-/

namespace TableQuery

open TableQuery.Text

/-! ## Lines and their ends -/

inductive LineEnd
  | feed | carriageFeed
  deriving DecidableEq, Repr

def LineEnd.chars : LineEnd → List Char
  | feed => ['\n']
  | carriageFeed => ['\r', '\n']

/-- The characters are these lines, each with its end, which the last one need not have. -/
inductive Ended : List (List Char) → List Char → Prop
  | nil : Ended [] []
  | last (line : List Char) : Ended [line] line
  | cons (line : List Char) (ending : LineEnd) {more : List (List Char)} {cs : List Char}
      (behind : Ended more cs) : Ended (line :: more) (line ++ (ending.chars ++ cs))

theorem runs_ending (ending : LineEnd) (cs : List Char) : runs (ending.chars ++ cs) = runs cs := by
  cases ending with
  | feed => exact runs_terminator rfl cs
  | carriageFeed => exact (runs_terminator rfl ('\n' :: cs)).trans (runs_terminator rfl cs)

theorem head?_ending (ending : LineEnd) (cs : List Char) :
    ∀ c ∈ (ending.chars ++ cs).head?, isTerminator c = true := by
  cases ending <;> simp [LineEnd.chars, isTerminator]

/-- Lines that are not empty are the runs between terminators. -/
theorem runs_of_ended {lines : List (List Char)} {cs : List Char} (ended : Ended lines cs)
    (occupied : ∀ line ∈ lines, line ≠ []) (unbroken : ∀ line ∈ lines, Unbroken line) :
    runs cs = lines := by
  induction ended with
  | nil => rfl
  | last line =>
    have alone : runs (line ++ []) = line :: runs [] :=
      runs_append (occupied line (by simp)) (unbroken line (by simp)) (by simp)
    rwa [List.append_nil] at alone
  | cons line ending _ ih =>
    obtain ⟨own, others⟩ := List.forall_mem_cons.1 occupied
    obtain ⟨ownWhole, othersWhole⟩ := List.forall_mem_cons.1 unbroken
    rw [runs_append own ownWhole (head?_ending ending _), runs_ending, ih others othersWhole]

/-- The delimiter is chosen on the line of the header. -/
theorem headD_lines_of_ended {line : List Char} {more : List (List Char)} {cs : List Char}
    (ended : Ended (line :: more) cs) (unbroken : Unbroken line) : (lines cs).headD [] = line := by
  cases ended with
  | last =>
    have alone := lines_append unbroken []
    rwa [List.append_nil, lines, List.headD_nil, List.append_nil] at alone
  | cons _ ending =>
    rw [lines_append unbroken]
    cases ending <;> exact List.append_nil line

theorem head?_of_ended {line : List Char} {more : List (List Char)} {cs : List Char}
    (ended : Ended (line :: more) cs) (occupied : line ≠ []) : cs.head? = line.head? := by
  cases ended with
  | last => rfl
  | cons => rw [List.head?_append_of_ne_nil _ occupied]

/-! ## Tables -/

/-- A table as decoding leaves it: its names tell the columns apart, its rows are full, and all that
is in it is clean. -/
structure Table.Tidy (delimiter : Delimiter) (table : Table) : Prop extends table.Shaped where
  names : ∀ name ∈ table.header, Clean delimiter.char name
  cells : ∀ cells ∈ table.rows, ∀ cell ∈ cells, Clean delimiter.char cell

/-- A table whose text keeps everything. It has a first name, which does not start with a mark, its
header gives the delimiter away, and a row of a single cell is no blank line. -/
structure Table.Writable (delimiter : Delimiter) (table : Table) : Prop
    extends table.Tidy delimiter where
  unmarked : ∃ name ∈ table.header.head?, name.toList.head? ≠ some '\uFEFF'
  detected : Delimiter.detect (written delimiter.char table.header) = delimiter
  occupied : table.header.length = 1 → ∀ cells ∈ table.rows, "" ∉ cells

def Table.lines (delimiter : Delimiter) (table : Table) : List (List Char) :=
  (table.header :: table.rows).map (written delimiter.char)

namespace Table.Writable

variable {delimiter : Delimiter} {table : Table} (writable : table.Writable delimiter)
include writable

theorem header_ne_nil : table.header ≠ [] := by
  obtain ⟨name, first, _⟩ := writable.unmarked
  intro none
  simp [none] at first

theorem rows_ne_nil : ∀ row ∈ table.rows, row ≠ [] := by
  intro row stored none
  have full := writable.full row stored
  rw [none] at full
  exact header_ne_nil writable (List.eq_nil_of_length_eq_zero full.symm)

/-- No row is read as a blank line. -/
theorem rows_ne_blank : ∀ row ∈ table.rows, row ≠ [""] := by
  rintro row stored rfl
  exact writable.occupied (writable.full _ stored).symm _ stored (by simp)

theorem lines_occupied : ∀ line ∈ table.lines delimiter, line ≠ [] := by
  intro line listed
  obtain ⟨row, member, rfl⟩ := List.mem_map.1 listed
  rcases List.mem_cons.1 member with rfl | stored
  · refine written_ne_nil (header_ne_nil writable) writable.names fun blank => ?_
    exact writable.named (by simp [blank])
  · exact written_ne_nil (rows_ne_nil writable row stored) (writable.cells row stored)
      (rows_ne_blank writable row stored)

theorem lines_unbroken : ∀ line ∈ table.lines delimiter, Unbroken line := by
  intro line listed
  obtain ⟨row, member, rfl⟩ := List.mem_map.1 listed
  rcases List.mem_cons.1 member with rfl | stored
  · exact unbroken_written writable.names
  · exact unbroken_written (writable.cells row stored)

theorem header_visible : trim (written delimiter.char table.header) ≠ [] := by
  obtain ⟨name, first, _⟩ := writable.unmarked
  have listed : name ∈ table.header := List.mem_of_mem_head? first
  refine trim_written_ne_nil listed (writable.names name listed).trimmed ?_
  rintro rfl
  exact writable.named listed

theorem cells_rows :
    (table.rows.map (written delimiter.char)).map (cells delimiter.char) = table.rows := by
  rw [List.map_map]
  refine (List.map_congr_left fun row stored => ?_).trans (List.map_id table.rows)
  exact cells_written (rows_ne_nil writable row stored) (writable.cells row stored)

variable {text : String} (ended : Ended (table.lines delimiter) text.toList)
include ended

theorem text_unmarked : text.toList.head? ≠ some '\uFEFF' := by
  obtain ⟨name, first, unmarked⟩ := writable.unmarked
  obtain ⟨more, header⟩ := List.head?_eq_some_iff.1 first
  have named : name ≠ "" := by
    rintro rfl
    exact writable.named (by simp [header])
  have occupied := lines_occupied writable _ (List.mem_cons_self ..)
  rw [head?_of_ended ended occupied, header, head?_written named]
  exact unmarked

theorem ofText_eq : Decoding.ofText text = .ok ⟨delimiter, table⟩ := by
  have texts : (Record.ofText text).map Record.text = table.lines delimiter :=
    (texts_of_unmarked (text_unmarked writable ended)).trans
      (runs_of_ended ended (lines_occupied writable) (lines_unbroken writable))
  obtain ⟨header, records, split, first, behind⟩ := List.map_eq_cons_iff.1 texts
  have line : ((linesOf text).headD "").toList = written delimiter.char table.header := by
    rw [toList_headD_linesOf]
    exact headD_lines_of_ended ended (lines_unbroken writable _ (by simp [Table.lines]))
  refine ofText_eq_ok_iff.2 ⟨header, records, split, ?_⟩
  rw [line]
  refine ⟨header_visible writable, ?_, ?_, ?_, writable.toShaped⟩
  · rw [detect_trim, writable.detected]
  · exact ((congrArg (cells delimiter.char) first).trans
      (cells_written (header_ne_nil writable) writable.names)).symm
  · have read : records.map (Record.fields delimiter.char) = table.rows := by
      rw [← cells_rows writable, ← behind, List.map_map]
      rfl
    have visible : ∀ row ∈ table.rows, (row != [""]) = true :=
      fun row stored => by simpa using rows_ne_blank writable row stored
    rw [read, List.filter_eq_self.2 visible]

end Table.Writable

/-! ## Both ways -/

theorem tidy_of_ofText {text : String} {decoding : Decoding}
    (decoded : Decoding.ofText text = .ok decoding) :
    decoding.table.Tidy decoding.delimiter := by
  obtain ⟨header, records, split, read⟩ := ofText_eq_ok_iff.1 decoded
  have clean : ∀ record ∈ header :: records, ∀ cell ∈ record.fields decoding.delimiter.char,
      Clean decoding.delimiter.char cell := by
    intro record listed cell found
    rw [← split] at listed
    exact clean_of_mem_cells (unbroken_of_mem_ofText listed) found
  refine ⟨read.shaped, fun name listed => ?_, fun row stored cell found => ?_⟩
  · rw [read.names] at listed
    exact clean header (by simp) name listed
  · rw [read.rows] at stored
    obtain ⟨record, member, rfl⟩ := List.mem_map.1 (List.mem_filter.1 stored).1
    exact clean record (by simp [member]) cell found

/-- Decoding gives back a table that was written so that its text keeps everything, whatever its
lines end with; and of any text it gives a table that is tidy. -/
theorem writable_reads_back :
    (∀ (delimiter : Delimiter) (table : Table) (text : String), table.Writable delimiter →
      Ended (table.lines delimiter) text.toList →
      Decoding.ofText text = .ok ⟨delimiter, table⟩) ∧
    ∀ (text : String) (decoding : Decoding), Decoding.ofText text = .ok decoding →
      decoding.table.Tidy decoding.delimiter :=
  ⟨fun _ _ _ writable ended => writable.ofText_eq ended, fun _ _ decoded => tidy_of_ofText decoded⟩

/-- A name with the other delimiter in it, a row of empty cells, a lone quote, and a last cell that
is empty. -/
def awkwardTable : Table :=
  ⟨["x,y", "z", "w"], [["", "", ""], ["\"q", "1,2", ""], ["3", "", "é"]]⟩

theorem awkwardTable_reads_back :
    awkwardTable.Writable .semicolon ∧
      Ended (awkwardTable.lines .semicolon) "x,y;z;w\r\n;;\n\"q;1,2;\r\n3;;é".toList ∧
      Decoding.ofText "x,y;z;w\r\n;;\n\"q;1,2;\r\n3;;é" = .ok ⟨.semicolon, awkwardTable⟩ ∧
      awkwardTable.Tidy .semicolon := by
  have writable : awkwardTable.Writable .semicolon :=
    ⟨⟨⟨by decide, by decide, by decide⟩, by decide, by decide⟩, by decide, by decide, by decide⟩
  have ended : Ended (awkwardTable.lines .semicolon)
      "x,y;z;w\r\n;;\n\"q;1,2;\r\n3;;é".toList :=
    .cons ['x', ',', 'y', ';', 'z', ';', 'w'] .carriageFeed
      (.cons [';', ';'] .feed
        (.cons ['"', 'q', ';', '1', ',', '2', ';'] .carriageFeed (.last ['3', ';', ';', 'é'])))
  have decoded := writable_reads_back.1 _ _ _ writable ended
  exact ⟨writable, ended, decoded, writable_reads_back.2 _ _ decoded⟩

end TableQuery
