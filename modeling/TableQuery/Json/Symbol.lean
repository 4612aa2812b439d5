import TableQuery.Json.Value

/-!
The symbols of a JSON text: brackets, commas, colons and the values that hold no other value.

Blanks may stand between any two symbols. JSON knows four of them only.
-/

namespace TableQuery.Json

inductive Symbol
  | openArray | closeArray | openObject | closeObject | comma | colon
  | null
  | bool (value : Bool)
  | number (written : String)
  | string (literal : Literal)
  deriving DecidableEq, Repr

def isSpace (c : Char) : Bool :=
  c = ' ' || c = '\n' || c = '\t' || c = '\r'

namespace Symbol

def written : Symbol → List Char
  | openArray => ['[']
  | closeArray => [']']
  | openObject => ['{']
  | closeObject => ['}']
  | comma => [',']
  | colon => [':']
  | null => ['n', 'u', 'l', 'l']
  | bool true => ['t', 'r', 'u', 'e']
  | bool false => ['f', 'a', 'l', 's', 'e']
  | number written => written.toList
  | string literal => writeLiteral literal

end Symbol

/-- One digit or more, and what follows them. -/
def readDigits (cs : List Char) : Option (List Char × List Char) :=
  match cs.takeWhile Char.isDigit with
  | [] => none
  | digits => some (digits, cs.dropWhile Char.isDigit)

/-- The whole part of a number: a zero alone, or digits that start with another. -/
def readWhole : List Char → Option (List Char × List Char)
  | '0' :: rest => some (['0'], rest)
  | cs => readDigits cs

def readFraction : List Char → Option (List Char × List Char)
  | '.' :: rest => do
    let (digits, rest) ← readDigits rest
    return ('.' :: digits, rest)
  | cs => some ([], cs)

def readSign : List Char → List Char × List Char
  | '+' :: rest => (['+'], rest)
  | '-' :: rest => (['-'], rest)
  | cs => ([], cs)

def readExponent : List Char → Option (List Char × List Char)
  | [] => some ([], [])
  | c :: rest =>
    if c = 'e' ∨ c = 'E' then do
      let (digits, behind) ← readDigits (readSign rest).2
      return (c :: (readSign rest).1 ++ digits, behind)
    else some ([], c :: rest)

def readUnsigned (cs : List Char) : Option (List Char × List Char) := do
  let (whole, rest) ← readWhole cs
  let (fraction, rest) ← readFraction rest
  let (exponent, rest) ← readExponent rest
  return (whole ++ fraction ++ exponent, rest)

def readNumber : List Char → Option (List Char × List Char)
  | '-' :: rest => do
    let (digits, rest) ← readUnsigned rest
    return ('-' :: digits, rest)
  | cs => readUnsigned cs

/-- The symbol at the start of the text, and the text behind it. -/
def readSymbol : List Char → Option (Symbol × List Char)
  | '[' :: rest => some (.openArray, rest)
  | ']' :: rest => some (.closeArray, rest)
  | '{' :: rest => some (.openObject, rest)
  | '}' :: rest => some (.closeObject, rest)
  | ',' :: rest => some (.comma, rest)
  | ':' :: rest => some (.colon, rest)
  | '"' :: rest => do
    let (literal, rest) ← readLiteral rest
    return (.string literal, rest)
  | 'n' :: 'u' :: 'l' :: 'l' :: rest => some (.null, rest)
  | 't' :: 'r' :: 'u' :: 'e' :: rest => some (.bool true, rest)
  | 'f' :: 'a' :: 'l' :: 's' :: 'e' :: rest => some (.bool false, rest)
  | cs => do
    let (written, rest) ← readNumber cs
    return (.number (String.ofList written), rest)

theorem readDigits_length {cs digits rest : List Char} (h : readDigits cs = some (digits, rest)) :
    rest.length < cs.length := by
  have total := congrArg List.length (List.takeWhile_append_dropWhile (p := Char.isDigit) (l := cs))
  unfold readDigits at h
  split at h
  · cases h
  · cases h
    have : 0 < (cs.takeWhile Char.isDigit).length := List.length_pos_iff.2 (by simp_all)
    simp only [List.length_append] at total
    omega

theorem readWhole_length {cs whole rest : List Char} (h : readWhole cs = some (whole, rest)) :
    rest.length < cs.length := by
  fun_cases readWhole cs with
  | case1 => simp_all [readWhole]
  | case2 => exact readDigits_length (by simpa [readWhole] using h)

theorem readFraction_length {cs fraction rest : List Char}
    (h : readFraction cs = some (fraction, rest)) : rest.length ≤ cs.length := by
  fun_cases readFraction cs with
  | case1 behind =>
    simp only [readFraction, Option.bind_eq_bind, Option.bind_eq_some_iff] at h
    obtain ⟨⟨digits, last⟩, hdigits, h⟩ := h
    cases h
    have := readDigits_length hdigits
    simp only [List.length_cons]
    omega
  | case2 => simp_all [readFraction]

theorem readSign_length (cs : List Char) : (readSign cs).2.length ≤ cs.length := by
  fun_cases readSign cs <;> simp

theorem readExponent_length {cs exponent rest : List Char}
    (h : readExponent cs = some (exponent, rest)) : rest.length ≤ cs.length := by
  fun_cases readExponent cs with
  | case1 => simp_all [readExponent]
  | case2 c behind hc =>
    simp only [readExponent, hc, if_true, Option.bind_eq_bind, Option.bind_eq_some_iff] at h
    obtain ⟨⟨digits, last⟩, hdigits, h⟩ := h
    cases h
    have := readDigits_length hdigits
    have := readSign_length behind
    simp only [List.length_cons]
    omega
  | case3 => simp_all [readExponent]

theorem readUnsigned_length {cs written rest : List Char}
    (h : readUnsigned cs = some (written, rest)) : rest.length < cs.length := by
  simp only [readUnsigned, Option.bind_eq_bind, Option.bind_eq_some_iff] at h
  obtain ⟨⟨whole, a⟩, hwhole, ⟨fraction, b⟩, hfraction, ⟨exponent, c⟩, hexponent, h⟩ := h
  cases h
  exact Nat.lt_of_le_of_lt (readExponent_length hexponent)
    (Nat.lt_of_le_of_lt (readFraction_length hfraction) (readWhole_length hwhole))

theorem readNumber_length {cs written rest : List Char}
    (h : readNumber cs = some (written, rest)) : rest.length < cs.length := by
  fun_cases readNumber cs with
  | case1 behind =>
    simp only [readNumber, Option.bind_eq_bind, Option.bind_eq_some_iff] at h
    obtain ⟨⟨digits, last⟩, hdigits, h⟩ := h
    cases h
    have := readUnsigned_length hdigits
    simp only [List.length_cons]
    omega
  | case2 => exact readUnsigned_length (by simpa [readNumber] using h)

/-- A symbol has at least one character, so reading symbol after symbol comes to an end. -/
theorem readSymbol_length {cs rest : List Char} {symbol : Symbol}
    (h : readSymbol cs = some (symbol, rest)) : rest.length < cs.length := by
  unfold readSymbol at h
  split at h
  all_goals simp only [Option.some.injEq, Prod.mk.injEq, Option.bind_eq_bind,
    Option.bind_eq_some_iff] at h
  case h_7 =>
    obtain ⟨⟨literal, last⟩, hliteral, h⟩ := h
    cases h
    have := readLiteral_length hliteral
    simp only [List.length_cons]
    omega
  case h_11 =>
    obtain ⟨⟨written, last⟩, hnumber, h⟩ := h
    cases h
    exact readNumber_length hnumber
  all_goals
    obtain ⟨_, rfl⟩ := h
    simp only [List.length_cons]
    omega

def symbols (cs : List Char) : Option (List Symbol) :=
  match cs with
  | [] => some []
  | c :: cs =>
    if isSpace c then symbols cs
    else
      match _h : readSymbol (c :: cs) with
      | none => none
      | some (symbol, rest) => do
        let more ← symbols rest
        return symbol :: more
termination_by cs.length
decreasing_by
  · simp
  · exact readSymbol_length _h

end TableQuery.Json
