import TableQuery.Json.Layout
import TableQuery.Sql.Query
import TableQuery.Sql.Scan

/-!
From tokens to a query.

    query     = SELECT columns FROM file [WHERE condition {(AND | OR) condition}] [ORDER BY order]
    columns   = "*" | item {"," item}
    item      = column [AS alias]
    condition = column operator literal | column LIKE string
    order     = column [ASC | DESC]

Columns, aliases and literals may be any word, keywords included; the file may be any other word.
Each reader takes the tokens that are left and returns what it read with the tokens behind it. The
first token that does not fit is the one that the error names.

An explanation tells what a query will do, or why it is refused, without opening its file.
-/

namespace TableQuery.Sql

open TableQuery.Json (Value)

/-! ## Reading -/

/-- The refusal of the tokens where `expected` was due. -/
def refusal (expected : String) : List Token → SyntaxError
  | [] => .ended expected
  | token :: _ => .unexpected expected token.kind.shown token.position

def readName (expected : String) : List Token → Except SyntaxError (String × List Token)
  | ⟨.word text, _⟩ :: rest => .ok (text, rest)
  | tokens => .error (refusal expected tokens)

/-- The tokens behind the keyword, if it stands first. -/
def skipKeyword? (keyword : String) : List Token → Option (List Token)
  | token :: rest => if token.kind.spells keyword then some rest else none
  | [] => none

def readKeyword (keyword : String) (tokens : List Token) : Except SyntaxError (List Token) :=
  match skipKeyword? keyword tokens with
  | some rest => .ok rest
  | none => .error (refusal keyword tokens)

def readItem (tokens : List Token) : Except SyntaxError (SelectItem × List Token) := do
  let (source, rest) ← readName "column name" tokens
  match skipKeyword? "AS" rest with
  | some rest =>
    let (output, rest) ← readName "alias" rest
    return (.column source output, rest)
  | none => return (.column source source, rest)

def readCondition (tokens : List Token) : Except SyntaxError (Condition × List Token) := do
  let (column, rest) ← readName "column name" tokens
  match skipKeyword? "LIKE" rest with
  | some (⟨.quoted text, _⟩ :: rest) =>
    match Pattern.ofText? text with
    | some pattern => return (.like column pattern, rest)
    | none => .error (.wildcards text)
  | some rest => .error (refusal "quoted LIKE pattern" rest)
  | none =>
    match rest with
    | ⟨.operator op, _⟩ :: ⟨.quoted literal, _⟩ :: rest
    | ⟨.operator op, _⟩ :: ⟨.word literal, _⟩ :: rest => return (.compare column op literal, rest)
    | ⟨.operator _, _⟩ :: rest => .error (refusal "literal" rest)
    | rest => .error (refusal "comparison operator" rest)

def readConnective? (tokens : List Token) : Option (Connective × List Token) :=
  match skipKeyword? "AND" tokens, skipKeyword? "OR" tokens with
  | some rest, _ => some (.and, rest)
  | none, some rest => some (.or, rest)
  | none, none => none

/-- A column to sort by and its direction, ascending if none is named. -/
def readOrder (tokens : List Token) : Except SyntaxError (OrderBy × List Token) := do
  let (column, rest) ← readName "ORDER BY column" tokens
  match skipKeyword? "DESC" rest, skipKeyword? "ASC" rest with
  | some rest, _ => return (⟨column, .descending⟩, rest)
  | none, some rest => return (⟨column, .ascending⟩, rest)
  | none, none => return (⟨column, .ascending⟩, rest)

/-- A keyword takes a token. The loops over items and conditions end because of lemmas like this
one. -/
theorem skipKeyword?_length {keyword : String} {tokens rest : List Token}
    (h : skipKeyword? keyword tokens = some rest) : rest.length < tokens.length := by
  cases tokens with
  | nil => simp [skipKeyword?] at h
  | cons token tokens =>
    simp only [skipKeyword?] at h
    split at h <;> simp_all

theorem readConnective?_length {tokens rest : List Token} {connective : Connective}
    (h : readConnective? tokens = some (connective, rest)) : rest.length < tokens.length := by
  unfold readConnective? at h
  split at h <;> simp_all
  all_goals exact skipKeyword?_length ‹_›

theorem readName_length {expected text : String} {tokens rest : List Token}
    (h : readName expected tokens = .ok (text, rest)) : rest.length < tokens.length := by
  fun_cases readName expected tokens <;> simp_all [readName]

theorem readItem_length {tokens rest : List Token} {item : SelectItem}
    (h : readItem tokens = .ok (item, rest)) : rest.length < tokens.length := by
  simp only [readItem, bind, Except.bind, pure, Except.pure] at h
  split at h
  · cases h
  next hname =>
    have first := readName_length hname
    split at h
    next hkey =>
      have second := skipKeyword?_length hkey
      split at h
      · cases h
      next hname' =>
        have third := readName_length hname'
        cases h
        omega
    · cases h
      omega

theorem readCondition_length {tokens rest : List Token} {condition : Condition}
    (h : readCondition tokens = .ok (condition, rest)) : rest.length < tokens.length := by
  simp only [readCondition, bind, Except.bind, pure, Except.pure] at h
  split at h
  · cases h
  next hname =>
    have first := readName_length hname
    split at h
    next hkey =>
      have second := skipKeyword?_length hkey
      split at h
      · cases h
        simp at second
        omega
      · cases h
    · cases h
    · split at h <;> cases h <;> simp_all <;> omega

def readItems (tokens : List Token) : Except SyntaxError (List SelectItem × List Token) :=
  match _h : readItem tokens with
  | .error e => .error e
  | .ok (item, ⟨.comma, _⟩ :: rest) => do
    let (items, rest) ← readItems rest
    return (item :: items, rest)
  | .ok (item, rest) => .ok ([item], rest)
termination_by tokens.length
decreasing_by
  have := readItem_length _h
  simp at this
  omega

/-- The conditions that connectives join to the first. -/
def readConditions (tokens : List Token) :
    Except SyntaxError (List (Connective × Condition) × List Token) :=
  match _h : readConnective? tokens with
  | none => .ok ([], tokens)
  | some (connective, rest) =>
    match _h' : readCondition rest with
    | .error e => .error e
    | .ok (condition, rest) => do
      let (conditions, rest) ← readConditions rest
      return ((connective, condition) :: conditions, rest)
termination_by tokens.length
decreasing_by
  have := readConnective?_length _h
  have := readCondition_length _h'
  omega

def readSelect : List Token → Except SyntaxError (List SelectItem × List Token)
  | ⟨.star, _⟩ :: rest => .ok ([.wildcard], rest)
  | tokens => readItems tokens

/-- The name of the file: a word that is no keyword. -/
def readSource : List Token → Except SyntaxError (String × List Token)
  | ⟨.word text, position⟩ :: rest =>
    if isKeyword text then .error (.unexpected "file name" text position) else .ok (text, rest)
  | tokens => .error (refusal "file name" tokens)

def readWhere (tokens : List Token) : Except SyntaxError (Option Predicate × List Token) :=
  match skipKeyword? "WHERE" tokens with
  | none => .ok (none, tokens)
  | some rest => do
    let (first, rest) ← readCondition rest
    let (more, rest) ← readConditions rest
    return (some ⟨first, more⟩, rest)

def readOrderBy (tokens : List Token) : Except SyntaxError (Option OrderBy × List Token) :=
  match skipKeyword? "ORDER" tokens with
  | none => .ok (none, tokens)
  | some rest => do
    let rest ← readKeyword "BY" rest
    let (order, rest) ← readOrder rest
    return (some order, rest)

namespace Query

/-- The query that the tokens write, all of them taken. -/
def ofTokens (tokens : List Token) : Except SyntaxError Query := do
  let rest ← readKeyword "SELECT" tokens
  let (select, rest) ← readSelect rest
  let rest ← readKeyword "FROM" rest
  let (source, rest) ← readSource rest
  let (predicate, rest) ← readWhere rest
  let (order, rest) ← readOrderBy rest
  match rest with
  | [] => return ⟨select, source, predicate, order⟩
  | rest => .error (refusal "end of query" rest)

def parse (text : String) : Except SyntaxError Query := do
  let tokens ← tokenize text
  ofTokens tokens

end Query

/-! ## Explanations -/

/-- The parts of an accepted query as they are written, or the refusal of a rejected one. -/
inductive Explanation
  | accepted (select : List String) (source : String) (filter order : Option String)
  | rejected (error : SyntaxError)
  deriving DecidableEq, Repr

namespace Explanation

def ofQuery (query : Query) : Explanation :=
  .accepted (query.select.map SelectItem.text) query.source
    (query.predicate.map Predicate.text) (query.order.map OrderBy.text)

def ofText (text : String) : Explanation :=
  match Query.parse text with
  | .ok query => ofQuery query
  | .error e => .rejected e

/-- The explanation as a record that has all its members in both cases. -/
def toJson : Explanation → Value
  | accepted select source filter order =>
    .record
      [("accepted", .bool true), ("select", .array (select.map Value.text)),
        ("source", .text source), ("filter", .textOrNull filter), ("order", .textOrNull order),
        ("rejection_reason", .null), ("rejection_code", .null)]
  | rejected error =>
    .record
      [("accepted", .bool false), ("select", .array []), ("source", .null), ("filter", .null),
        ("order", .null), ("rejection_reason", .text error.message),
        ("rejection_code", .text SyntaxError.code)]

end Explanation

end TableQuery.Sql
