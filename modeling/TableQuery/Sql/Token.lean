import TableQuery.Text.Basic

/-!
The tokens of a query.

A word is any run of word characters: what is neither blank nor one of the delimiters. Keywords are
words; they differ from other words only where the grammar looks for them, and there without regard
to ASCII case.
-/

namespace TableQuery.Sql

open TableQuery.Text

/-! ## The six comparison operators -/

inductive Comparator
  | lt | le | gt | ge | eq | ne
  deriving DecidableEq, Repr

namespace Comparator

def all : List Comparator :=
  [.lt, .le, .gt, .ge, .eq, .ne]

/-- The operator as it is shown. Inequality may also be written with angle brackets. -/
def symbol : Comparator → String
  | lt => "<"
  | le => "<="
  | gt => ">"
  | ge => ">="
  | eq => "="
  | ne => "!="

/-- The operator holds between two values that stand in this order. -/
def holds : Comparator → Ordering → Bool
  | lt, order => order == .lt
  | le, order => order != .gt
  | gt, order => order == .gt
  | ge, order => order != .lt
  | eq, order => order == .eq
  | ne, order => order != .eq

end Comparator

/-! ## Tokens -/

/-- The characters that end a word without being blank. -/
def delimiters : List Char :=
  [',', '*', '\'', '<', '>', '=', '!', '(', ')']

def isWordChar (c : Char) : Bool :=
  !isBlank c && !delimiters.contains c

def isWord (text : String) : Bool :=
  !text.toList.isEmpty && text.toList.all isWordChar

inductive TokenKind
  | word (text : String)
  /-- A quoted string; `text` is what stands between the quotes, doubled quotes taken once. -/
  | quoted (text : String)
  | star
  | comma
  | operator (op : Comparator)
  deriving DecidableEq, Repr

/-- A token and the byte offset of its first character. -/
structure Token where
  kind : TokenKind
  position : Nat
  deriving DecidableEq, Repr

namespace TokenKind

def shown : TokenKind → String
  | word text => text
  | quoted text => s!"'{text}'"
  | star => "*"
  | comma => ","
  | operator op => op.symbol

/-- The token is this keyword, given in capitals. -/
def spells (kind : TokenKind) (keyword : String) : Bool :=
  match kind with
  | word text => text.toList.map Char.toUpper == keyword.toList
  | _ => false

end TokenKind

/-- The keywords, which no file name in a query can be. -/
def keywords : List String :=
  ["SELECT", "FROM", "WHERE", "AND", "OR", "LIKE", "ORDER", "BY", "AS", "ASC", "DESC"]

def isKeyword (text : String) : Bool :=
  keywords.any (TokenKind.word text).spells

/-- Every quote written twice, as inside a quoted string. -/
def doubleQuotes : List Char → List Char
  | [] => []
  | c :: rest => if c = '\'' then '\'' :: '\'' :: doubleQuotes rest else c :: doubleQuotes rest

def quote (text : String) : String :=
  String.ofList ('\'' :: doubleQuotes text.toList ++ ['\''])

end TableQuery.Sql
