import TableQuery.Sql.Token
import TableQuery.Text.Basic

/-!
From text to tokens.

`readToken` reads the one token that starts at a character, always the longest, and `scan` repeats
it behind the blanks. The characters that a step takes are the written form of its token; a step
always takes at least one, so scanning ends. What is told where no token starts is one of the
refusals that a query text can meet with, here or in the grammar.
-/

namespace TableQuery.Sql

open TableQuery.Text

/-! ## Refusals -/

/-- A refusal. Positions are byte offsets into the query text. -/
inductive SyntaxError
  /-- A quoted string opens at `start` and is never closed. -/
  | unterminated (start : Nat)
  /-- The string behind LIKE has its wildcards where no pattern allows them. -/
  | wildcards (pattern : String)
  /-- Something else stands where `expected` was due. -/
  | unexpected (expected found : String) (position : Nat)
  /-- The query ends where `expected` was due. -/
  | ended (expected : String)
  /-- A refusal with a reason of its own. -/
  | invalid (reason : String)
  deriving DecidableEq, Repr

namespace SyntaxError

def code : String :=
  "CSVQ_QUERY_SYNTAX"

/-- The reason, without the code. -/
def message : SyntaxError → String
  | unterminated start => s!"Unterminated string literal starting at position {start}"
  | wildcards pattern => s!"Unsupported wildcard placement in LIKE '{pattern}'"
  | unexpected expected found position =>
    s!"Expected {expected} but found '{found}' at position {position}"
  | ended expected => s!"Expected {expected} but the query ended"
  | invalid reason => reason

def shown (error : SyntaxError) : String :=
  code ++ ": " ++ error.message

/-- The offending token as shown, if one token is to blame. -/
def token? : SyntaxError → Option String
  | unexpected _ found _ => some found
  | _ => none

/-- Where the offending token starts, if one token is to blame. -/
def position? : SyntaxError → Option Nat
  | unexpected _ _ position => some position
  | _ => none

end SyntaxError

/-! ## Scanning -/

/-- A token that has been read: what it says, how it is written, and the text behind it. -/
structure Lexeme where
  kind : TokenKind
  written : List Char
  rest : List Char
  deriving DecidableEq, Repr

/-- What stands before the closing quote, doubled quotes taken once, and what stands behind it. -/
def readQuoted : List Char → Option (List Char × List Char)
  | [] => none
  | '\'' :: '\'' :: rest => do
    let (body, rest) ← readQuoted rest
    return ('\'' :: body, rest)
  | '\'' :: rest => some ([], rest)
  | c :: rest => do
    let (body, rest) ← readQuoted rest
    return (c :: body, rest)

/-- The token that starts at `first`, which is not blank and stands at byte `position`. -/
def readToken (position : Nat) (first : Char) (rest : List Char) : Except SyntaxError Lexeme :=
  match first, rest with
  | ',', rest => .ok ⟨.comma, [','], rest⟩
  | '*', rest => .ok ⟨.star, ['*'], rest⟩
  | '\'', rest =>
    match readQuoted rest with
    | some (body, rest) =>
      .ok ⟨.quoted (String.ofList body), '\'' :: doubleQuotes body ++ ['\''], rest⟩
    | none => .error (.unterminated position)
  | '=', rest => .ok ⟨.operator .eq, ['='], rest⟩
  | '!', '=' :: rest => .ok ⟨.operator .ne, ['!', '='], rest⟩
  | '!', _ => .error (.unexpected "'!='" "!" position)
  | '<', '=' :: rest => .ok ⟨.operator .le, ['<', '='], rest⟩
  | '<', '>' :: rest => .ok ⟨.operator .ne, ['<', '>'], rest⟩
  | '<', rest => .ok ⟨.operator .lt, ['<'], rest⟩
  | '>', '=' :: rest => .ok ⟨.operator .ge, ['>', '='], rest⟩
  | '>', rest => .ok ⟨.operator .gt, ['>'], rest⟩
  | first, rest =>
    if first = '(' ∨ first = ')' then
      .error (.unexpected "a column, keyword or literal (grouping is not supported)"
        first.toString position)
    else
      let word := first :: rest.takeWhile isWordChar
      .ok ⟨.word (String.ofList word), word, rest.dropWhile isWordChar⟩

/-- A quoted text stands in the input with its quotes doubled and its closing quote behind it. -/
theorem doubleQuotes_of_readQuoted {cs body rest : List Char}
    (h : readQuoted cs = some (body, rest)) : doubleQuotes body ++ '\'' :: rest = cs := by
  fun_induction readQuoted cs generalizing body with
  | case1 => cases h
  | case2 cs ih =>
    simp only [Option.bind_eq_bind, Option.bind_eq_some_iff] at h
    obtain ⟨⟨inner, last⟩, hread, h⟩ := h
    cases h
    simp [doubleQuotes, ih hread]
  | case3 => cases h; rfl
  | case4 c cs _ hc ih =>
    simp only [Option.bind_eq_bind, Option.bind_eq_some_iff] at h
    obtain ⟨⟨inner, last⟩, hread, h⟩ := h
    cases h
    have hne : c ≠ '\'' := fun same => hc same
    simp [doubleQuotes, hne, ih hread]

theorem readQuoted_length {cs body rest : List Char} (h : readQuoted cs = some (body, rest)) :
    rest.length < cs.length := by
  fun_induction readQuoted cs generalizing body <;> simp_all [Option.bind_eq_some_iff] <;> grind

/-- A token stands in the input as it is written. -/
theorem written_append_rest {position : Nat} {first : Char} {cs : List Char} {lexeme : Lexeme}
    (h : readToken position first cs = .ok lexeme) :
    lexeme.written ++ lexeme.rest = first :: cs := by
  fun_cases readToken position first cs <;> simp_all [readToken] <;> subst h <;> simp_all
  exact doubleQuotes_of_readQuoted ‹_›

/-- A token takes the character that it starts at, so the scan goes on behind it. -/
theorem readToken_length {position : Nat} {first : Char} {cs : List Char} {lexeme : Lexeme}
    (h : readToken position first cs = .ok lexeme) : lexeme.rest.length ≤ cs.length := by
  have shorter : (cs.dropWhile isWordChar).length ≤ cs.length :=
    (List.dropWhile_sublist _).length_le
  fun_cases readToken position first cs <;> simp_all [readToken] <;> subst h <;> simp_all
  have := readQuoted_length ‹_›
  omega

/-- The tokens of the characters, the first of which stands at byte `position`. -/
def scan (position : Nat) (cs : List Char) : Except SyntaxError (List Token) :=
  match cs with
  | [] => .ok []
  | c :: cs =>
    if isBlank c then scan (position + c.utf8Size) cs
    else
      match _h : readToken position c cs with
      | .error e => .error e
      | .ok lexeme => do
        let tokens ← scan (position + width lexeme.written) lexeme.rest
        return ⟨lexeme.kind, position⟩ :: tokens
termination_by cs.length
decreasing_by
  · simp
  · have := readToken_length _h
    simp only [List.length_cons]
    omega

def tokenize (text : String) : Except SyntaxError (List Token) :=
  scan 0 text.toList

end TableQuery.Sql
