import TableQuery.Answer.Rows
import TableQuery.Json.Layout
import TableQuery.Sql.Query
import TableQuery.Table.Basic

/-!
The answer of a query over a table: rows of named values, and how many rows were looked at.

Before any row is looked at, every column that the query names is looked up in the header: those of
the select list, then those of the conditions, then the one to sort by. A query therefore fails in
the same way over a table without rows as over any other table with that header. The names in the
answer come in the order of the select list and may repeat.
-/

namespace TableQuery.Answer

open TableQuery.Json (Value)
open TableQuery.Sql

/-! ## Answers -/

structure OutputRow where
  fields : List (String × String)
  deriving DecidableEq, Repr

namespace OutputRow

def names (row : OutputRow) : List String :=
  row.fields.map (·.1)

def get? (row : OutputRow) (name : String) : Option String :=
  row.fields.lookup name

def toJson (row : OutputRow) : Value :=
  .record (row.fields.map fun (name, value) => (name, .text value))

end OutputRow

/-- An answer: its rows, and the number of rows of the table. -/
structure Output where
  rows : List OutputRow
  scanned : Nat
  deriving DecidableEq, Repr

namespace Output

def returned (output : Output) : Nat :=
  output.rows.length

def toJson (output : Output) : Value :=
  .array (output.rows.map OutputRow.toJson)

/-- The rows written as JSON, indented if asked for. -/
def written (pretty : Bool) (output : Output) : String :=
  output.toJson.written pretty

end Output

/-! ## From a row of the table to a row of the answer -/

def projectItem (row : Row) : SelectItem → Except TableError (List (String × String))
  | .wildcard => .ok row.fields
  | .column source output => do
    let value ← row.require source
    return [(output, value)]

def projectItems (row : Row) : List SelectItem → Except TableError (List (String × String))
  | [] => .ok []
  | item :: rest => do
    let fields ← projectItem row item
    let more ← projectItems row rest
    return fields ++ more

def project (select : List SelectItem) (row : Row) : Except TableError OutputRow := do
  let fields ← projectItems row select
  return ⟨fields⟩

/-! ## From the table to the answer -/

/-- The column that the order means: a column of the header, else the source of the first item of
the select list with that output name. -/
def resolveOrder (select : List SelectItem) (table : Table) (order : OrderBy) :
    Except TableError OrderBy :=
  if table.hasColumn order.column then .ok order
  else
    let named : SelectItem → Option String
      | .column source output => if output = order.column then some source else none
      | .wildcard => none
    match select.findSome? named with
    | some source => .ok { order with column := source }
    | none => .error (.unknownColumn order.column)

/-- Refuses the first column that does not exist; otherwise the order with its column resolved. -/
def resolve (query : Query) (table : Table) : Except TableError (Option OrderBy) := do
  (query.select.filterMap SelectItem.source?).forM table.requireColumn
  query.conditionColumns.forM table.requireColumn
  query.order.mapM (resolveOrder query.select table)

def evaluate (query : Query) (table : Table) : Except TableError Output := do
  let order ← resolve query table
  let kept ← filterRows query.predicate table.views
  let sorted ← sortRows order kept
  let rows ← sorted.mapM (project query.select)
  return ⟨rows, table.size⟩

end TableQuery.Answer
