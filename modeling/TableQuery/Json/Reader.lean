import TableQuery.Json.Symbol
import TableQuery.Text.Basic

/-!
A strict reader: a text is read only if it is one JSON value with nothing but blanks around it.

The readers work on symbols and count their calls down. Of two calls inside each other at least one
takes a symbol, so a count of twice the symbols never runs out, and `read` starts with that.
-/

namespace TableQuery.Json

open TableQuery.Text

/-! ## What is said of a text that is refused

The words for a fault may come with its place at their end. The place is then taken off the words
and kept as numbers, so that it is shown in one way only: without leading zeros, and not at all on
line zero, since lines count from one.
-/

/-- A fault of a JSON text; one without a place is on line zero. -/
structure Fault where
  reason : String
  line : Nat
  column : Nat
  deriving DecidableEq, Repr

namespace Fault

/-- What stands in front of the digits at the end, and the count that they write. -/
def countAtEnd? (cs : List Char) : Option (List Char × Nat) := do
  let count ← count? (cs.reverse.takeWhile Char.isDigit).reverse
  return ((cs.reverse.dropWhile Char.isDigit).reverse, count)

/-- The fault in words that end with its place. -/
def placed? (words : List Char) : Option Fault := do
  let (front, column) ← countAtEnd? words
  let front ← dropEnd? " column ".toList front
  let (front, line) ← countAtEnd? front
  let reason ← dropEnd? " at line ".toList front
  return ⟨String.ofList reason, line, column⟩

def ofWords (words : String) : Fault :=
  (placed? words.toList).getD ⟨words, 0, 0⟩

def shown (fault : Fault) : String :=
  if fault.line = 0 then fault.reason
  else s!"{fault.reason} at line {fault.line} column {fault.column}"

end Fault

mutual

/-- The value at the start of the symbols, and the symbols behind it. -/
def readValue (count : Nat) (symbols : List Symbol) : Option (Value × List Symbol) :=
  match count, symbols with
  | _ + 1, .null :: rest => some (.null, rest)
  | _ + 1, .bool value :: rest => some (.bool value, rest)
  | _ + 1, .number written :: rest => some (.number written, rest)
  | _ + 1, .string literal :: rest => some (.string literal, rest)
  | _ + 1, .openArray :: .closeArray :: rest => some (.array [], rest)
  | count + 1, .openArray :: rest => do
    let (elements, rest) ← readElements count rest
    return (.array elements, rest)
  | _ + 1, .openObject :: .closeObject :: rest => some (.object [], rest)
  | count + 1, .openObject :: rest => do
    let (members, rest) ← readMembers count rest
    return (.object members, rest)
  | _, _ => none
termination_by structural count

/-- The elements up to the closing bracket, at least one. -/
def readElements (count : Nat) (symbols : List Symbol) : Option (List Value × List Symbol) :=
  match count with
  | 0 => none
  | count + 1 =>
    match readValue count symbols with
    | some (value, .comma :: rest) => do
      let (values, rest) ← readElements count rest
      return (value :: values, rest)
    | some (value, .closeArray :: rest) => some ([value], rest)
    | _ => none
termination_by structural count

def readMembers (count : Nat) (symbols : List Symbol) :
    Option (List (Literal × Value) × List Symbol) :=
  match count, symbols with
  | count + 1, .string name :: .colon :: rest =>
    match readValue count rest with
    | some (value, .comma :: rest) => do
      let (members, rest) ← readMembers count rest
      return ((name, value) :: members, rest)
    | some (value, .closeObject :: rest) => some ([(name, value)], rest)
    | _ => none
  | _, _ => none
termination_by structural count

end

def read (text : String) : Option Value := do
  let found ← symbols text.toList
  match readValue (2 * found.length) found with
  | some (value, []) => return value
  | _ => none

end TableQuery.Json
