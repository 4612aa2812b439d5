import TableQuery.Json.Symbol

/-!
Writing JSON.

Both layouts write the same symbols. The compact one puts nothing between them; the indented one
puts every element and every member on a line of its own, two blanks deeper than its bracket, and a
blank behind every colon. Empty arrays and objects stay on one line in both.
-/

namespace TableQuery.Json

namespace Value

mutual

def symbols : Value → List Symbol
  | null => [.null]
  | bool value => [.bool value]
  | number written => [.number written]
  | string literal => [.string literal]
  | array elements => .openArray :: elementSymbols elements ++ [.closeArray]
  | object members => .openObject :: memberSymbols members ++ [.closeObject]

def elementSymbols : List Value → List Symbol
  | [] => []
  | [value] => value.symbols
  | value :: more => value.symbols ++ .comma :: elementSymbols more

def memberSymbols : List (Literal × Value) → List Symbol
  | [] => []
  | [(name, value)] => .string name :: .colon :: value.symbols
  | (name, value) :: more =>
    .string name :: .colon :: value.symbols ++ .comma :: memberSymbols more

end

/-- The start of a line at this depth. -/
def newline (depth : Nat) : List Char :=
  '\n' :: List.replicate (2 * depth) ' '

mutual

/-- The indented layout of a value whose brackets stand at this depth. -/
def indentedChars (depth : Nat) : Value → List Char
  | array [] => ['[', ']']
  | array (value :: more) =>
    '[' :: indentedElements (depth + 1) (value :: more) ++ newline depth ++ [']']
  | object [] => ['{', '}']
  | object (member :: more) =>
    '{' :: indentedMembers (depth + 1) (member :: more) ++ newline depth ++ ['}']
  | null => Symbol.null.written
  | bool value => (Symbol.bool value).written
  | number written => (Symbol.number written).written
  | string literal => (Symbol.string literal).written

def indentedElements (depth : Nat) : List Value → List Char
  | [] => []
  | [value] => newline depth ++ value.indentedChars depth
  | value :: more =>
    newline depth ++ value.indentedChars depth ++ ',' :: indentedElements depth more

def indentedMembers (depth : Nat) : List (Literal × Value) → List Char
  | [] => []
  | [(name, value)] => newline depth ++ writeLiteral name ++ ':' :: ' ' :: value.indentedChars depth
  | (name, value) :: more =>
    newline depth ++ writeLiteral name ++ ':' :: ' ' :: value.indentedChars depth ++
      ',' :: indentedMembers depth more

end

/-- The value on one line, without blanks. -/
def compact (value : Value) : String :=
  String.ofList (value.symbols.flatMap Symbol.written)

def indented (value : Value) : String :=
  String.ofList (value.indentedChars 0)

def written (pretty : Bool) (value : Value) : String :=
  if pretty then value.indented else value.compact

end Value

end TableQuery.Json
