import TableQuery.Sql.Query
import TableQuery.Sql.Token
import TableQuery.Table.Basic
import TableQuery.Text.Basic

/-!
Which rows are answered, and in which order.

Two cells that both write an integer stand in the order of the integers, and any other two in the
order of their characters' code points. This is no total order on a column that holds both kinds:
9 is before 10, 10 before 1a, and 1a before 9.
-/

namespace TableQuery.Answer

open TableQuery.Sql
open TableQuery.Text

/-! ## The order of cells -/

def compareCells (left right : String) : Ordering :=
  match integer? left.toList, integer? right.toList with
  | some a, some b => compare a b
  | _, _ => compareChars left.toList right.toList

def satisfies (op : Comparator) (left right : String) : Bool :=
  op.holds (compareCells left right)

example : compareCells "9" "10" = .lt ∧ compareCells "10" "1a" = .lt := by decide
example : compareCells "1a" "9" = .lt := by decide
example : compareCells "020" "20" = .eq ∧ compareCells "+5" "5" = .eq := by decide

/-! ## Which rows a WHERE clause keeps

Every condition of the chain is looked at, also when the truth is already settled, so a column that
does not exist is always found out.
-/

def holdsOfCell (condition : Condition) (cell : String) : Bool :=
  match condition with
  | .compare _ op literal => satisfies op cell literal
  | .like _ pattern => pattern.holds cell

def holdsOf (condition : Condition) (row : Row) : Except TableError Bool := do
  let cell ← row.require condition.column
  return holdsOfCell condition cell

/-- The truth of the rest of a chain whose conditions so far came out as `truth`. -/
def chain (row : Row) (truth : Bool) : List (Connective × Condition) → Except TableError Bool
  | [] => .ok truth
  | (connective, condition) :: rest => do
    let next ← holdsOf condition row
    chain row (connective.apply truth next) rest

/-- The row is kept. Without a predicate every row is. -/
def keeps (predicate : Option Predicate) (row : Row) : Except TableError Bool :=
  match predicate with
  | none => .ok true
  | some predicate => do
    let first ← holdsOf predicate.first row
    chain row first predicate.rest

def filterRows (predicate : Option Predicate) : List Row → Except TableError (List Row)
  | [] => .ok []
  | row :: rest => do
    let kept ← keeps predicate row
    let more ← filterRows predicate rest
    return if kept then row :: more else more

/-! ## Sorting rows by one column

The order of cells need not be transitive, so the sort is told in full: the list is halved, the
left half never the longer, both halves are sorted, and the merge takes the left item unless it is
greater than the right one. Whatever the comparison says, nothing is lost.
-/

/-- Merges two lists, taking the left item unless it is greater. -/
def merge {α : Type} (cmp : α → α → Ordering) : List α → List α → List α
  | [], right => right
  | left, [] => left
  | a :: left, b :: right =>
    if cmp a b = .gt then b :: merge cmp (a :: left) right
    else a :: merge cmp left (b :: right)
termination_by left right => left.length + right.length

def mergeSort {α : Type} (cmp : α → α → Ordering) (items : List α) : List α :=
  if items.length ≤ 1 then items
  else
    merge cmp (mergeSort cmp (items.take (items.length / 2)))
      (mergeSort cmp (items.drop (items.length / 2)))
termination_by items.length
decreasing_by
  · simp only [List.length_take]
    omega
  · simp only [List.length_drop]
    omega

/-- The rows with their cells in the column, which every one of them has to have. -/
def keyed (column : String) : List Row → Except TableError (List (String × Row))
  | [] => .ok []
  | row :: rest => do
    let key ← row.require column
    let more ← keyed column rest
    return (key, row) :: more

/-- The order of two keyed rows, seen in a direction. -/
def compareKeyed (direction : Direction) (a b : String × Row) : Ordering :=
  direction.apply (compareCells a.1 b.1)

/-- The rows in the order asked for, or as they are if none is. -/
def sortRows (order : Option OrderBy) (rows : List Row) : Except TableError (List Row) :=
  match order with
  | none => .ok rows
  | some order => do
    let keyed ← keyed order.column rows
    return (mergeSort (compareKeyed order.direction) keyed).map (·.2)

end TableQuery.Answer
