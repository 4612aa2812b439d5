import TableQuery.Sql.Token
import TableQuery.Text.Pieces

/-!
What a query asks, and how its parts are written.

The written form of a part reads back as that part: a literal is quoted when it would not be one
word, and quotes inside a quoted text are doubled.
-/

namespace TableQuery.Sql

open TableQuery.Text (cut join join_cut)

/-! ## LIKE patterns

A percent sign stands for any text. At most two are allowed, and two only around a text, so that
every pattern is one of five shapes; an accepted pattern is shown as it was written.
-/

/-- A pattern, by where its texts must stand in a value. -/
inductive Pattern
  /-- The value is the text. -/
  | exact (text : String)
  /-- The value starts with the text. -/
  | starts (text : String)
  /-- The value ends with the text. -/
  | ends (text : String)
  /-- The text occurs in the value. -/
  | contains (text : String)
  /-- The value starts with the one text and ends with the other; the two may overlap. -/
  | enclosed (start finish : String)
  deriving DecidableEq, Repr

namespace Pattern

/-- The pattern that the text writes, or none if its percent signs stand elsewhere than at an end,
alone inside, or one at each end. -/
def ofText? (text : String) : Option Pattern :=
  match cut '%' text.toList with
  | [text] => some (.exact (String.ofList text))
  | [[], text] => some (.ends (String.ofList text))
  | [text, []] => some (.starts (String.ofList text))
  | [start, finish] => some (.enclosed (String.ofList start) (String.ofList finish))
  | [[], text, []] => some (.contains (String.ofList text))
  | _ => none

def text : Pattern → String
  | exact text => text
  | starts text => text ++ "%"
  | ends text => "%" ++ text
  | contains text => "%" ++ text ++ "%"
  | enclosed start finish => start ++ "%" ++ finish

/-- An accepted pattern is written as it was read. -/
theorem text_of_ofText? {raw : String} {pattern : Pattern}
    (accepted : ofText? raw = some pattern) : pattern.text = raw := by
  have joined := join_cut '%' raw.toList
  unfold ofText? at accepted
  split at accepted <;> cases accepted <;> next pieces =>
    rw [pieces] at joined
    rw [← String.toList_inj, ← joined]
    simp [text, join]

/-- The first text stands somewhere in the second. -/
def occursIn (text : List Char) : List Char → Bool
  | [] => text.isEmpty
  | c :: rest => text.isPrefixOf (c :: rest) || occursIn text rest

def matchesChars (value : List Char) : Pattern → Bool
  | exact text => value == text.toList
  | starts text => text.toList.isPrefixOf value
  | ends text => text.toList.isSuffixOf value
  | contains text => occursIn text.toList value
  | enclosed start finish => start.toList.isPrefixOf value && finish.toList.isSuffixOf value

def holds (pattern : Pattern) (value : String) : Bool :=
  pattern.matchesChars value.toList

example : ofText? "%" = some (.ends "") ∧ ofText? "%%" = some (.contains "") := by decide
example : ofText? "a%b%" = none ∧ ofText? "%a%b" = none ∧ ofText? "%%%" = none := by decide
example : (enclosed "ab" "ba").holds "aba" = true := by decide

end Pattern

/-! ## Queries -/

inductive SelectItem
  /-- Every column of the header, under its own name. -/
  | wildcard
  /-- The column `source`, answered under the name `output`. -/
  | column (source output : String)
  deriving DecidableEq, Repr

namespace SelectItem

def source? : SelectItem → Option String
  | wildcard => none
  | column source _ => some source

def text : SelectItem → String
  | wildcard => "*"
  | column source output => if source = output then source else source ++ " AS " ++ output

end SelectItem

inductive Condition
  /-- The cell stands in this relation to the literal. -/
  | compare (column : String) (op : Comparator) (literal : String)
  /-- The cell matches the pattern. -/
  | like (column : String) (pattern : Pattern)
  deriving DecidableEq, Repr

namespace Condition

def column : Condition → String
  | compare column _ _ => column
  | like column _ => column

def text : Condition → String
  | compare column op literal =>
    column ++ " " ++ op.symbol ++ " " ++ (if isWord literal then literal else quote literal)
  | like column pattern => column ++ " LIKE " ++ quote pattern.text

end Condition

inductive Connective
  | and | or
  deriving DecidableEq, Repr

namespace Connective

def text : Connective → String
  | and => "AND"
  | or => "OR"

def apply : Connective → Bool → Bool → Bool
  | and, left, right => left && right
  | or, left, right => left || right

end Connective

/-- A chain of conditions, taken from left to right: AND and OR bind alike. -/
structure Predicate where
  first : Condition
  rest : List (Connective × Condition)
  deriving DecidableEq, Repr

namespace Predicate

def conditions (predicate : Predicate) : List Condition :=
  predicate.first :: predicate.rest.map (·.2)

def text (predicate : Predicate) : String :=
  predicate.first.text ++
    String.join (predicate.rest.map fun (connective, condition) =>
      " " ++ connective.text ++ " " ++ condition.text)

end Predicate

inductive Direction
  | ascending | descending
  deriving DecidableEq, Repr

namespace Direction

def text : Direction → String
  | ascending => "ASC"
  | descending => "DESC"

def apply : Direction → Ordering → Ordering
  | ascending, order => order
  | descending, order => order.swap

end Direction

structure OrderBy where
  column : String
  direction : Direction
  deriving DecidableEq, Repr

/-- The order as it is written, its direction always named. -/
def OrderBy.text (order : OrderBy) : String :=
  order.column ++ " " ++ order.direction.text

/-- What a query asks: which columns of which file, of which rows, in which order. -/
structure Query where
  select : List SelectItem
  source : String
  predicate : Option Predicate
  order : Option OrderBy
  deriving DecidableEq, Repr

/-- An optional part of a query as it is written, behind what leads to it. -/
def clause (lead : String) : Option String → String
  | none => ""
  | some part => lead ++ part

namespace Query

def isWildcard (query : Query) : Bool :=
  query.select == [.wildcard]

def text (query : Query) : String :=
  "SELECT " ++ ", ".intercalate (query.select.map SelectItem.text) ++ " FROM " ++ query.source ++
    clause " WHERE " (query.predicate.map Predicate.text) ++
    clause " ORDER BY " (query.order.map OrderBy.text)

def conditionColumns (query : Query) : List String :=
  match query.predicate with
  | none => []
  | some predicate => predicate.conditions.map Condition.column

end Query

end TableQuery.Sql
