/-!
JSON values and their string literals.

Members stand in the order in which they are written, and a name may repeat. A number is kept as it
is written, since nothing here computes with one.
-/

namespace TableQuery.Json

/-- What a string literal denotes: a text, or nothing if an escape leaves a surrogate unpaired. Such
a literal is well formed, so a value that holds one can still be read and passed over. -/
abbrev Literal : Type :=
  Option String

inductive Value
  | null
  | bool (value : Bool)
  | number (written : String)
  | string (literal : Literal)
  | array (elements : List Value)
  | object (members : List (Literal × Value))
  deriving Repr

namespace Value

def text (text : String) : Value :=
  .string (some text)

def textOrNull : Option String → Value
  | some value => .text value
  | none => .null

def record (members : List (String × Value)) : Value :=
  .object (members.map fun (name, value) => (some name, value))

end Value

/-! ## String literals

A character that JSON allows to stand as it is stands as it is; only quotes, backslashes and control
characters are escaped when written, and the control characters without a short escape are written
with four lower-case hexadecimal digits. Any escape is understood when read; two escapes that form a
surrogate pair are one character.
-/

def hexDigit (value : Nat) : Char :=
  if value < 10 then Char.ofNat ('0'.toNat + value) else Char.ofNat ('a'.toNat + (value - 10))

/-- The value of a hexadecimal digit in either case. -/
def hexValue? (c : Char) : Option Nat :=
  if '0' ≤ c ∧ c ≤ '9' then some (c.toNat - '0'.toNat)
  else if 'a' ≤ c ∧ c ≤ 'f' then some (c.toNat - 'a'.toNat + 10)
  else if 'A' ≤ c ∧ c ≤ 'F' then some (c.toNat - 'A'.toNat + 10)
  else none

def escape (c : Char) : List Char :=
  if c = '"' then ['\\', '"']
  else if c = '\\' then ['\\', '\\']
  else if c = '\x08' then ['\\', 'b']
  else if c = '\x0c' then ['\\', 'f']
  else if c = '\n' then ['\\', 'n']
  else if c = '\r' then ['\\', 'r']
  else if c = '\t' then ['\\', 't']
  else if c.toNat < 0x20 then
    ['\\', 'u', '0', '0', hexDigit (c.toNat / 16), hexDigit (c.toNat % 16)]
  else [c]

/-- The literal as it is written. One that denotes no text is written as a lone surrogate. -/
def writeLiteral : Literal → List Char
  | some text => '"' :: text.toList.flatMap escape ++ ['"']
  | none => ['"', '\\', 'u', 'd', '8', '0', '0', '"']

def escaped? : Char → Option Char
  | '"' => some '"'
  | '\\' => some '\\'
  | '/' => some '/'
  | 'b' => some '\x08'
  | 'f' => some '\x0c'
  | 'n' => some '\n'
  | 'r' => some '\r'
  | 't' => some '\t'
  | _ => none

def hexCode? (a b c d : Char) : Option Nat := do
  let a ← hexValue? a
  let b ← hexValue? b
  let c ← hexValue? c
  let d ← hexValue? d
  return ((a * 16 + b) * 16 + c) * 16 + d

/-- The codes up to the closing quote, surrogates not yet paired, and the text behind the quote. -/
def readCodes : List Char → Option (List Nat × List Char)
  | [] => none
  | '"' :: rest => some ([], rest)
  | '\\' :: 'u' :: a :: b :: c :: d :: rest => do
    let code ← hexCode? a b c d
    let (codes, rest) ← readCodes rest
    return (code :: codes, rest)
  | '\\' :: c :: rest => do
    let c ← escaped? c
    let (codes, rest) ← readCodes rest
    return (c.toNat :: codes, rest)
  | c :: rest =>
    if c.toNat < 0x20 ∨ c = '\\' then none
    else do
      let (codes, rest) ← readCodes rest
      return (c.toNat :: codes, rest)

/-- The code is the first half of a surrogate pair. -/
def isHighSurrogate (code : Nat) : Bool :=
  0xD800 ≤ code && code < 0xDC00

def isLowSurrogate (code : Nat) : Bool :=
  0xDC00 ≤ code && code < 0xE000

/-- The characters of the codes, or none if a surrogate has no partner. -/
def charsOfCodes : List Nat → Option (List Char)
  | [] => some []
  | high :: low :: rest =>
    if isHighSurrogate high then
      if isLowSurrogate low then do
        let chars ← charsOfCodes rest
        return Char.ofNat (0x10000 + (high - 0xD800) * 0x400 + (low - 0xDC00)) :: chars
      else none
    else if isLowSurrogate high then none
    else do
      let chars ← charsOfCodes (low :: rest)
      return Char.ofNat high :: chars
  | [code] =>
    if isHighSurrogate code || isLowSurrogate code then none else some [Char.ofNat code]

/-- The literal whose opening quote has just been read, and the text behind it. -/
def readLiteral (cs : List Char) : Option (Literal × List Char) := do
  let (codes, rest) ← readCodes cs
  return ((charsOfCodes codes).map String.ofList, rest)

theorem readCodes_length {cs rest : List Char} {codes : List Nat}
    (h : readCodes cs = some (codes, rest)) : rest.length < cs.length := by
  fun_induction readCodes cs generalizing codes <;> simp_all [Option.bind_eq_some_iff] <;> grind

/-- A literal takes at least its closing quote. -/
theorem readLiteral_length {cs rest : List Char} {literal : Literal}
    (h : readLiteral cs = some (literal, rest)) : rest.length < cs.length := by
  simp only [readLiteral, Option.bind_eq_bind, Option.bind_eq_some_iff] at h
  obtain ⟨⟨codes, behind⟩, hread, h⟩ := h
  cases h
  exact readCodes_length hread

end TableQuery.Json
