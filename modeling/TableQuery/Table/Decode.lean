import TableQuery.Table.Basic
import TableQuery.Text.Basic
import TableQuery.Text.Pieces

/-!
From a delimited text to a table.

The first line alone decides the delimiter, and the first record is the header. Below the header a
record of one empty field is no row; every other record has to be as wide as the header, and the
first one that is not is the fault that is told.
-/

namespace TableQuery

open TableQuery.Text

/-! ## Records

A record ends at a carriage return or a line feed, and records without a character are passed over,
which makes a carriage return with its line feed one end. A record is numbered by the line feeds in
front of the place where its reading begins, and that place is right behind the one character that
ended the record before it. The empty records on the way to a record are therefore not counted.
-/

def isTerminator (c : Char) : Bool :=
  c = '\r' || c = '\n'

/-- A record: its line, counted from one, and its characters, of which there is at least one. -/
structure Record where
  line : Nat
  text : List Char
  deriving DecidableEq, Repr

namespace Record

/-- The records of the characters, reading of which begins in this line. -/
def split (line : Nat) (cs : List Char) : List Record :=
  match _h : cs.dropWhile isTerminator with
  | [] => []
  | first :: more =>
    let behind := more.dropWhile (!isTerminator ·)
    let passed := cs.takeWhile isTerminator ++ behind.take 1
    ⟨line, first :: more.takeWhile (!isTerminator ·)⟩ ::
      split (line + passed.count '\n') (behind.drop 1)
termination_by cs.length
decreasing_by
  have outer := (List.dropWhile_sublist (l := cs) isTerminator).length_le
  have inner := (List.dropWhile_sublist (l := more) (!isTerminator ·)).length_le
  rw [_h] at outer
  simp only [List.length_cons, List.length_drop] at outer inner ⊢
  omega

/-- The records of a text. A byte order mark in front of everything belongs to none. -/
def ofText (text : String) : List Record :=
  match text.toList with
  | '\uFEFF' :: cs => split 1 cs
  | cs => split 1 cs

/-- The fields of a record, trimmed. Quotes have no meaning. -/
def fields (delimiter : Char) (record : Record) : List String :=
  (cut delimiter record.text).map fun field => String.ofList (trim field)

end Record

/-! ## Decoding -/

/-- The characters that can stand between fields. -/
inductive Delimiter
  | comma | semicolon
  deriving DecidableEq, Repr

namespace Delimiter

def char : Delimiter → Char
  | comma => ','
  | semicolon => ';'

/-- The delimiter of a header: the semicolon if it occurs more often than the comma. -/
def detect (header : List Char) : Delimiter :=
  if header.count ',' < header.count ';' then .semicolon else .comma

end Delimiter

structure Decoding where
  delimiter : Delimiter
  table : Table
  deriving DecidableEq, Repr

namespace Decoding

def rows (header : List String) (delimiter : Char) (records : List Record) :
    Except TableError (List (List String)) :=
  (records.filter fun record => record.fields delimiter != [""]).mapM fun record =>
    Table.checkWidth header record.line (record.fields delimiter)

def ofLines (text : String) (lines : List String) : Except TableError Decoding :=
  let first := trim (lines.headD "").toList
  if first = [] then .error .headerEmpty
  else
    match Record.ofText text with
    | [] => .error .headerEmpty
    | header :: records => do
      let delimiter := Delimiter.detect first
      let table ← Table.ofHeader (header.fields delimiter.char)
      let rows ← rows table.header delimiter.char records
      return ⟨delimiter, { table with rows }⟩

def ofText (text : String) : Except TableError Decoding :=
  ofLines text (linesOf text)

end Decoding

end TableQuery
