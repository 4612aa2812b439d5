import TableQuery.Json.Symbol

/-!
# How symbols may be spelled

JSON leaves some freedom in how a symbol is spelled: a character of a literal may stand as it is or
be escaped in one of several ways, and a number has a form of its own, of which only its end is not
marked. Whichever way a symbol is spelled, it is read from its spelling (`readSymbol_spelled`).
-/

namespace TableQuery.Json

/-! ## Literals -/

/-- The ways to spell one code in a literal: a character as it is, an escape of one letter, or one
of four hexadecimal digits. -/
inductive SpellsCode : List Char → Nat → Prop
  | plain {c : Char} (printable : 0x20 ≤ c.toNat) (quote : c ≠ '"') (backslash : c ≠ '\\') :
      SpellsCode [c] c.toNat
  | letter {letter c : Char} (stands : escaped? letter = some c) :
      SpellsCode ['\\', letter] c.toNat
  | digits {a b c d : Char} {code : Nat} (worth : hexCode? a b c d = some code) :
      SpellsCode ['\\', 'u', a, b, c, d] code

inductive SpellsCodes : List Char → List Nat → Prop
  | nil : SpellsCodes [] []
  | cons {front cs : List Char} {code : Nat} {codes : List Nat} (first : SpellsCode front code)
      (rest : SpellsCodes cs codes) : SpellsCodes (front ++ cs) (code :: codes)

def highHalf (c : Char) : Nat :=
  0xD800 + (c.toNat - 0x10000) / 0x400

def lowHalf (c : Char) : Nat :=
  0xDC00 + (c.toNat - 0x10000) % 0x400

/-- The codes of a text. A character beyond the first 65536 may also be given by its surrogate
pair. -/
inductive Encodes : List Nat → List Char → Prop
  | nil : Encodes [] []
  | whole (c : Char) {codes : List Nat} {text : List Char} (rest : Encodes codes text) :
      Encodes (c.toNat :: codes) (c :: text)
  | halves (c : Char) (beyond : 0x10000 ≤ c.toNat) {codes : List Nat} {text : List Char}
      (rest : Encodes codes text) : Encodes (highHalf c :: lowHalf c :: codes) (c :: text)

/-- The characters between the quotes spell the literal, which is the text that their codes encode,
if they encode one. -/
def SpellsLiteral (body : List Char) (literal : Literal) : Prop :=
  ∃ codes, SpellsCodes body codes ∧ ∀ text, literal = some text ↔ Encodes codes text.toList

theorem readCodes_letter {letter c : Char} (stands : escaped? letter = some c) (rest : List Char) :
    readCodes ('\\' :: letter :: rest) =
      (readCodes rest).map fun found => (c.toNat :: found.1, found.2) := by
  rw [readCodes]
  · rw [stands, Option.map_eq_bind]
    rfl
  · rintro a b d e more ⟨⟩
    cases stands

theorem readCodes_spelled {front : List Char} {code : Nat} (spells : SpellsCode front code)
    (rest : List Char) :
    readCodes (front ++ rest) =
      (readCodes rest).map fun found => (code :: found.1, found.2) := by
  cases spells with
  | @plain c printable quote backslash =>
    have stays : ¬ (c.toNat < 0x20 ∨ c = '\\') := by
      rw [not_or]
      exact ⟨Nat.not_lt.2 printable, backslash⟩
    rw [List.singleton_append, readCodes, if_neg stays, Option.map_eq_bind]
    · rfl
    · exact quote
    · rintro a b d e more rfl
      exact absurd rfl backslash
    · rintro d more rfl
      exact absurd rfl backslash
  | letter stands => exact readCodes_letter stands rest
  | digits worth =>
    simp only [List.cons_append, List.nil_append]
    rw [readCodes, worth, Option.map_eq_bind]
    rfl

theorem readCodes_body {body : List Char} {codes : List Nat} (spells : SpellsCodes body codes)
    (rest : List Char) : readCodes (body ++ '"' :: rest) = some (codes, rest) := by
  induction spells with
  | nil => rfl
  | cons first _ ih =>
    rw [List.append_assoc, readCodes_spelled first, ih]
    rfl

/-- A character of a run is no further from its first one than the last. -/
theorem offset_le {c first last : Char} (range : first ≤ c ∧ c ≤ last) :
    c.toNat - first.toNat ≤ last.toNat - first.toNat :=
  Nat.sub_le_sub_right range.2 _

theorem hexValue?_lt {c : Char} {value : Nat} (worth : hexValue? c = some value) : value < 16 := by
  unfold hexValue? at worth
  split at worth
  · next decimal =>
    cases worth
    exact Nat.lt_of_le_of_lt (offset_le decimal) (by decide)
  · split at worth
    · next small =>
      cases worth
      exact Nat.lt_of_le_of_lt (Nat.add_le_add_right (offset_le small) 10) (by decide)
    · split at worth
      · next capital =>
        cases worth
        exact Nat.lt_of_le_of_lt (Nat.add_le_add_right (offset_le capital) 10) (by decide)
      · cases worth

theorem hexCode?_lt {a b c d : Char} {code : Nat} (worth : hexCode? a b c d = some code) :
    code < 0x10000 := by
  simp only [hexCode?, Option.bind_eq_bind, Option.bind_eq_some_iff] at worth
  obtain ⟨first, ha, second, hb, third, hc, fourth, hd, total⟩ := worth
  cases total
  have := hexValue?_lt ha
  have := hexValue?_lt hb
  have := hexValue?_lt hc
  have := hexValue?_lt hd
  omega

theorem toNat_lt (c : Char) : c.toNat < 0x110000 := by
  have valid : c.toNat < 0xD800 ∨ 0xDFFF < c.toNat ∧ c.toNat < 0x110000 := c.valid
  omega

theorem code_lt {front : List Char} {code : Nat} (spells : SpellsCode front code) :
    code < 0x110000 := by
  cases spells with
  | plain => exact toNat_lt _
  | letter => exact toNat_lt _
  | digits worth => exact Nat.lt_trans (hexCode?_lt worth) (by decide)

/-- Characters are no surrogates, so that a code that is one needs its partner. -/
theorem surrogate_toNat (c : Char) :
    isHighSurrogate c.toNat = false ∧ isLowSurrogate c.toNat = false := by
  have valid : c.toNat < 0xD800 ∨ 0xDFFF < c.toNat ∧ c.toNat < 0x110000 := c.valid
  simp only [isHighSurrogate, isLowSurrogate, Bool.and_eq_false_iff, decide_eq_false_iff_not]
  omega

theorem charsOfCodes_whole {code : Nat} (high : isHighSurrogate code = false)
    (low : isLowSurrogate code = false) (codes : List Nat) :
    charsOfCodes (code :: codes) = (charsOfCodes codes).map (Char.ofNat code :: ·) := by
  cases codes with
  | nil => simp [charsOfCodes, high, low]
  | cons next codes =>
    rw [charsOfCodes, if_neg (by simp [high]), if_neg (by simp [low]), Option.map_eq_bind]
    rfl

/-- The two halves of a pair give their character back. -/
theorem charsOfCodes_halves (c : Char) (beyond : 0x10000 ≤ c.toNat) (codes : List Nat) :
    charsOfCodes (highHalf c :: lowHalf c :: codes) = (charsOfCodes codes).map (c :: ·) := by
  have valid := toNat_lt c
  have high : isHighSurrogate (highHalf c) = true := by
    unfold isHighSurrogate highHalf
    rw [Bool.and_eq_true, decide_eq_true_iff, decide_eq_true_iff]
    omega
  have low : isLowSurrogate (lowHalf c) = true := by
    unfold isLowSurrogate lowHalf
    rw [Bool.and_eq_true, decide_eq_true_iff, decide_eq_true_iff]
    omega
  have joined : 0x10000 + (highHalf c - 0xD800) * 0x400 + (lowHalf c - 0xDC00) = c.toNat := by
    unfold highHalf lowHalf
    omega
  rw [charsOfCodes, if_pos high, if_pos low, joined, Char.ofNat_toNat, Option.map_eq_bind]
  rfl

/-- Codes that encode a text are read as this text. -/
theorem charsOfCodes_of_encodes {codes : List Nat} {text : List Char}
    (encodes : Encodes codes text) : charsOfCodes codes = some text := by
  induction encodes with
  | nil => rfl
  | whole c _ ih =>
    obtain ⟨high, low⟩ := surrogate_toNat c
    rw [charsOfCodes_whole high low, ih, Option.map_some, Char.ofNat_toNat]
  | halves c beyond _ ih => rw [charsOfCodes_halves c beyond, ih, Option.map_some]

theorem toNat_ofNat {code : Nat} (isChar : code.isValidChar) : (Char.ofNat code).toNat = code := by
  rw [Char.ofNat, dif_pos isChar]
  rfl

theorem encodes_cons {code : Nat} {codes : List Nat} {text : List Char} (valid : code < 0x110000)
    (high : isHighSurrogate code = false) (low : isLowSurrogate code = false)
    (rest : Encodes codes text) : Encodes (code :: codes) (Char.ofNat code :: text) := by
  have isChar : code.isValidChar := by
    simp only [isHighSurrogate, isLowSurrogate, Bool.and_eq_false_iff,
      decide_eq_false_iff_not] at high low
    unfold Nat.isValidChar
    omega
  have whole := Encodes.whole (Char.ofNat code) rest
  rwa [toNat_ofNat isChar] at whole

theorem encodes_pair {high low : Nat} {codes : List Nat} {text : List Char}
    (isHigh : isHighSurrogate high = true) (isLow : isLowSurrogate low = true)
    (rest : Encodes codes text) :
    Encodes (high :: low :: codes)
      (Char.ofNat (0x10000 + (high - 0xD800) * 0x400 + (low - 0xDC00)) :: text) := by
  unfold isHighSurrogate at isHigh
  unfold isLowSurrogate at isLow
  rw [Bool.and_eq_true, decide_eq_true_iff, decide_eq_true_iff] at isHigh isLow
  generalize joined : 0x10000 + (high - 0xD800) * 0x400 + (low - 0xDC00) = code
  have isChar : code.isValidChar := by
    unfold Nat.isValidChar
    omega
  have value := toNat_ofNat isChar
  have first : highHalf (Char.ofNat code) = high := by
    rw [highHalf, value]
    omega
  have second : lowHalf (Char.ofNat code) = low := by
    rw [lowHalf, value]
    omega
  have halves := Encodes.halves (Char.ofNat code) (by omega) rest
  rwa [first, second] at halves

theorem encodes_of_charsOfCodes {codes : List Nat} {text : List Char}
    (valid : ∀ code ∈ codes, code < 0x110000) (chars : charsOfCodes codes = some text) :
    Encodes codes text := by
  fun_induction charsOfCodes codes generalizing text with
  | case1 =>
    cases chars
    exact .nil
  | case2 high low rest isHigh isLow ih =>
    obtain ⟨chars, read, joined⟩ := Option.bind_eq_some_iff.1 chars
    cases joined
    have more := ih (fun code member => valid code (by simp [member])) read
    exact encodes_pair isHigh isLow more
  | case5 code next rest high low ih =>
    obtain ⟨chars, read, joined⟩ := Option.bind_eq_some_iff.1 chars
    cases joined
    have more := ih (fun code member => valid code (List.mem_cons_of_mem _ member)) read
    exact encodes_cons (valid code (by simp)) (by simpa using high) (by simpa using low) more
  | case7 code unpaired =>
    cases chars
    rw [Bool.or_eq_true, not_or] at unpaired
    exact encodes_cons (valid code (by simp)) (by simpa using unpaired.1)
      (by simpa using unpaired.2) .nil
  | case3 | case4 | case6 => cases chars

theorem codes_lt {body : List Char} {codes : List Nat} (spells : SpellsCodes body codes) :
    ∀ code ∈ codes, code < 0x110000 := by
  induction spells with
  | nil => simp
  | cons first _ ih => exact List.forall_mem_cons.2 ⟨code_lt first, ih⟩

/-- The reader's account of a literal and the one by spellings are the same. -/
theorem spellsLiteral_iff {body : List Char} {literal : Literal} :
    SpellsLiteral body literal ↔
      ∃ codes, SpellsCodes body codes ∧ literal = (charsOfCodes codes).map String.ofList := by
  refine exists_congr fun codes => and_congr_right fun spells => ?_
  rw [Option.ext_iff]
  refine forall_congr' fun text => iff_congr Iff.rfl ?_
  constructor
  · intro encodes
    rw [charsOfCodes_of_encodes encodes, Option.map_some, String.ofList_toList]
  · intro denotes
    obtain ⟨chars, found, rfl⟩ := Option.map_eq_some_iff.1 denotes
    rw [String.toList_ofList]
    exact encodes_of_charsOfCodes (codes_lt spells) found

/-- A literal is read up to its closing quote, whatever stands behind it. -/
theorem readLiteral_spelled {body : List Char} {literal : Literal}
    (spells : SpellsLiteral body literal) (rest : List Char) :
    readLiteral (body ++ '"' :: rest) = some (literal, rest) := by
  obtain ⟨codes, spelled, rfl⟩ := spellsLiteral_iff.1 spells
  rw [readLiteral, readCodes_body spelled]
  rfl

theorem hexValue?_hexDigit : ∀ value < 16, hexValue? (hexDigit value) = some value := by
  decide

theorem hexCode?_digits {code : Nat} (small : code < 0x20) :
    hexCode? '0' '0' (hexDigit (code / 16)) (hexDigit (code % 16)) = some code := by
  have zero : hexValue? '0' = some 0 := by decide
  unfold hexCode?
  rw [zero, hexValue?_hexDigit _ (by omega), hexValue?_hexDigit _ (by omega)]
  simp only [Option.bind_eq_bind, Option.bind_some, Option.pure_def, Option.some.injEq]
  omega

/-- Writing escapes a character in one of the ways in which it may be spelled. -/
theorem spells_escape (c : Char) : SpellsCode (escape c) c.toNat := by
  fun_cases escape c with
  | case8 _ _ _ _ _ _ _ control => exact .digits (hexCode?_digits control)
  | case9 quote backslash _ _ _ _ _ plain => exact .plain (Nat.le_of_not_lt plain) quote backslash
  | _ =>
    subst_vars
    exact .letter rfl

theorem spells_flatMap_escape (text : List Char) :
    SpellsCodes (text.flatMap escape) (text.map Char.toNat) := by
  induction text with
  | nil => exact .nil
  | cons c text ih => exact .cons (spells_escape c) ih

theorem encodes_toNat (text : List Char) : Encodes (text.map Char.toNat) text := by
  induction text with
  | nil => exact .nil
  | cons c text ih => exact .whole c ih

/-- What is written for a literal is one of its spellings. -/
theorem spells_writeLiteral (literal : Literal) :
    ∃ body, writeLiteral literal = '"' :: body ++ ['"'] ∧ SpellsLiteral body literal := by
  cases literal with
  | some text =>
    refine ⟨text.toList.flatMap escape, rfl, spellsLiteral_iff.2 ⟨_, spells_flatMap_escape _, ?_⟩⟩
    rw [charsOfCodes_of_encodes (encodes_toNat _), Option.map_some, String.ofList_toList]
  | none =>
    have high : hexCode? 'd' '8' '0' '0' = some 0xD800 := by decide
    exact ⟨['\\', 'u', 'd', '8', '0', '0'], rfl,
      spellsLiteral_iff.2 ⟨[0xD800], .cons (.digits high) .nil, rfl⟩⟩

/-! ## Numbers -/

structure AreDigits (cs : List Char) : Prop where
  nonempty : cs ≠ []
  decimal : ∀ c ∈ cs, c.isDigit = true

/-- A zero alone, or digits of which the first is no zero. -/
inductive IsWhole : List Char → Prop
  | zero : IsWhole ['0']
  | digits {c : Char} {more : List Char} (areDigits : AreDigits (c :: more)) (nonzero : c ≠ '0') :
      IsWhole (c :: more)

inductive IsFraction : List Char → Prop
  | none : IsFraction []
  | some {digits : List Char} (areDigits : AreDigits digits) : IsFraction ('.' :: digits)

/-- Nothing, or digits behind a mark, perhaps with a sign. -/
inductive IsExponent : List Char → Prop
  | none : IsExponent []
  | some {mark : Char} {sign digits : List Char} (marks : mark = 'e' ∨ mark = 'E')
      (signs : sign = [] ∨ sign = ['+'] ∨ sign = ['-']) (areDigits : AreDigits digits) :
      IsExponent (mark :: sign ++ digits)

inductive IsNumber : List Char → Prop
  | mk {sign whole fraction exponent : List Char} (signs : sign = [] ∨ sign = ['-'])
      (isWhole : IsWhole whole) (isFraction : IsFraction fraction)
      (isExponent : IsExponent exponent) : IsNumber (sign ++ (whole ++ fraction ++ exponent))

/-- The character may stand in a number behind its first one, and be part of it. -/
def continuesNumber (c : Char) : Bool :=
  c.isDigit || c = '.' || c = 'e' || c = 'E'

def EndsNumber (cs : List Char) : Prop :=
  ∀ c ∈ cs.head?, continuesNumber c = false

theorem readDigits_spelled {digits rest : List Char} (areDigits : AreDigits digits)
    (ends : ∀ c ∈ rest.head?, c.isDigit = false) :
    readDigits (digits ++ rest) = some (digits, rest) := by
  have none : rest.takeWhile Char.isDigit = [] ∧ rest.dropWhile Char.isDigit = rest := by
    cases rest with
    | nil => exact ⟨rfl, rfl⟩
    | cons c rest =>
      have other := ends c rfl
      exact ⟨List.takeWhile_cons_of_neg (by simp [other]),
        List.dropWhile_cons_of_neg (by simp [other])⟩
  have taken : (digits ++ rest).takeWhile Char.isDigit = digits := by
    rw [List.takeWhile_append_of_pos areDigits.decimal, none.1, List.append_nil]
  have left : (digits ++ rest).dropWhile Char.isDigit = rest := by
    rw [List.dropWhile_append_of_pos areDigits.decimal, none.2]
  obtain ⟨c, more, rfl⟩ := List.exists_cons_of_ne_nil areDigits.nonempty
  rw [readDigits, taken, left]

/-- No digit may follow, or it would be one of the number's. -/
theorem readWhole_spelled {whole rest : List Char} (isWhole : IsWhole whole)
    (ends : ∀ c ∈ rest.head?, c.isDigit = false) :
    readWhole (whole ++ rest) = some (whole, rest) := by
  cases isWhole with
  | zero => rfl
  | digits areDigits nonzero =>
    rw [List.cons_append, readWhole, ← List.cons_append, readDigits_spelled areDigits ends]
    rintro more ⟨⟩
    exact nonzero rfl

theorem readFraction_spelled {fraction rest : List Char} (isFraction : IsFraction fraction)
    (ends : ∀ c ∈ rest.head?, c.isDigit = false ∧ c ≠ '.') :
    readFraction (fraction ++ rest) = some (fraction, rest) := by
  cases isFraction with
  | none =>
    rw [List.nil_append, readFraction]
    rintro more rfl
    exact (ends '.' rfl).2 rfl
  | some areDigits =>
    rw [List.cons_append, readFraction, readDigits_spelled areDigits fun c head => (ends c head).1]
    rfl

theorem readSign_spelled {sign digits rest : List Char}
    (signs : sign = [] ∨ sign = ['+'] ∨ sign = ['-']) (areDigits : AreDigits digits) :
    readSign (sign ++ (digits ++ rest)) = (sign, digits ++ rest) := by
  rcases signs with rfl | rfl | rfl
  · obtain ⟨c, more, rfl⟩ := List.exists_cons_of_ne_nil areDigits.nonempty
    have decimal := areDigits.decimal c (by simp)
    rw [List.nil_append, List.cons_append, readSign]
    · rintro _ ⟨⟩
      cases decimal
    · rintro _ ⟨⟩
      cases decimal
  · rfl
  · rfl

theorem readExponent_spelled {exponent rest : List Char} (isExponent : IsExponent exponent)
    (ends : ∀ c ∈ rest.head?, c.isDigit = false ∧ c ≠ 'e' ∧ c ≠ 'E') :
    readExponent (exponent ++ rest) = some (exponent, rest) := by
  cases isExponent with
  | none =>
    rw [List.nil_append]
    cases rest with
    | nil => rfl
    | cons c rest =>
      rw [readExponent, if_neg]
      rw [not_or]
      exact (ends c rfl).2
  | @some mark sign digits marks signs areDigits =>
    have read := readDigits_spelled areDigits fun c head => (ends c head).1
    rw [List.cons_append, List.cons_append, List.append_assoc, readExponent, if_pos marks,
      readSign_spelled signs areDigits, read]
    rfl

/-- An exponent starts with its mark, which goes on with neither digits nor a fraction. -/
theorem head?_exponent {exponent rest : List Char} (isExponent : IsExponent exponent)
    (ends : EndsNumber rest) :
    ∀ c ∈ (exponent ++ rest).head?, c.isDigit = false ∧ c ≠ '.' := by
  cases isExponent with
  | none =>
    intro c head
    have other := ends c head
    simp only [continuesNumber, Bool.or_eq_false_iff, decide_eq_false_iff_not] at other
    exact ⟨other.1.1.1, other.1.1.2⟩
  | some marks =>
    rintro c ⟨⟩
    rcases marks with rfl | rfl <;> decide

theorem readUnsigned_spelled {whole fraction exponent rest : List Char} (isWhole : IsWhole whole)
    (isFraction : IsFraction fraction) (isExponent : IsExponent exponent)
    (ends : EndsNumber rest) :
    readUnsigned (whole ++ fraction ++ exponent ++ rest) =
      some (whole ++ fraction ++ exponent, rest) := by
  have behind := head?_exponent isExponent ends
  have last : ∀ c ∈ rest.head?, c.isDigit = false ∧ c ≠ 'e' ∧ c ≠ 'E' := by
    intro c head
    have other := ends c head
    simp only [continuesNumber, Bool.or_eq_false_iff, decide_eq_false_iff_not] at other
    exact ⟨other.1.1.1, other.1.2, other.2⟩
  have point : ∀ c ∈ (fraction ++ (exponent ++ rest)).head?, c.isDigit = false := by
    cases isFraction with
    | none => exact fun c head => (behind c head).1
    | some => rintro c ⟨⟩; decide
  rw [List.append_assoc, List.append_assoc, readUnsigned, readWhole_spelled isWhole point,
    Option.bind_eq_bind, Option.bind_some]
  simp only [readFraction_spelled isFraction behind, readExponent_spelled isExponent last,
    Option.bind_some]
  rfl

/-- A whole part starts with a digit. -/
theorem whole_eq_cons {whole : List Char} (isWhole : IsWhole whole) :
    ∃ c more, whole = c :: more ∧ c.isDigit = true := by
  cases isWhole with
  | zero => exact ⟨'0', [], rfl, rfl⟩
  | digits areDigits => exact ⟨_, _, rfl, areDigits.decimal _ (by simp)⟩

/-- A number is read up to the first character that cannot continue it. -/
theorem readNumber_spelled {number rest : List Char} (isNumber : IsNumber number)
    (ends : EndsNumber rest) : readNumber (number ++ rest) = some (number, rest) := by
  obtain ⟨signs, isWhole, isFraction, isExponent⟩ := isNumber
  have read := readUnsigned_spelled isWhole isFraction isExponent ends
  rcases signs with rfl | rfl
  · obtain ⟨c, more, rfl, decimal⟩ := whole_eq_cons isWhole
    rw [List.nil_append, readNumber, read]
    rintro _ ⟨⟩
    cases decimal
  · rw [List.append_assoc, List.singleton_append, readNumber, read]
    rfl

/-! ## Symbols -/

/-- The symbol is no number. Only the end of a number has to be looked for. -/
def Symbol.Closed : Symbol → Prop
  | number _ => False
  | _ => True

/-- The ways to spell a symbol: those of a literal and of a number, and one for any other. -/
inductive Symbol.Spelled : Symbol → List Char → Prop
  | string {literal : Literal} {body : List Char} (spells : SpellsLiteral body literal) :
      Spelled (.string literal) ('"' :: body ++ ['"'])
  | number {written : String} (isNumber : IsNumber written.toList) :
      Spelled (.number written) written.toList
  | other {symbol : Symbol} (notString : ∀ literal, symbol ≠ .string literal)
      (closed : symbol.Closed) : Spelled symbol symbol.written

/-- The way a symbol is written is one of its spellings. -/
theorem spelled_written {symbol : Symbol} (closed : symbol.Closed) :
    symbol.Spelled symbol.written := by
  cases symbol with
  | string literal =>
    obtain ⟨body, written, spells⟩ := spells_writeLiteral literal
    rw [Symbol.written, written]
    exact .string spells
  | number written => exact closed.elim
  | _ => exact .other (by simp) trivial

/-- What starts a number starts nothing else. -/
theorem readSymbol_number {c : Char} (opens : c = '-' ∨ c.isDigit = true) (cs : List Char) :
    readSymbol (c :: cs) =
      (readNumber (c :: cs)).map fun found => (.number (String.ofList found.1), found.2) := by
  rw [readSymbol, Option.map_eq_bind]
  · rfl
  all_goals
    rintro _ ⟨⟩
    exact absurd opens (by decide)

theorem number_eq_cons {number : List Char} (isNumber : IsNumber number) :
    ∃ c more, number = c :: more ∧ (c = '-' ∨ c.isDigit = true) := by
  obtain ⟨signs, isWhole, _, _⟩ := isNumber
  rcases signs with rfl | rfl
  · obtain ⟨c, more, rfl, decimal⟩ := whole_eq_cons isWhole
    exact ⟨c, _, rfl, .inr decimal⟩
  · exact ⟨'-', _, rfl, .inl rfl⟩

/-- Each spelling of a symbol is read as it, if what follows does not go on with a number. -/
theorem readSymbol_spelled {symbol : Symbol} {front rest : List Char}
    (spelled : symbol.Spelled front) (ends : symbol.Closed ∨ EndsNumber rest) :
    readSymbol (front ++ rest) = some (symbol, rest) := by
  cases spelled with
  | @string literal body spells =>
    rw [List.append_assoc, List.cons_append, List.singleton_append, readSymbol,
      readLiteral_spelled spells]
    rfl
  | @number written isNumber =>
    have read := readNumber_spelled isNumber (ends.resolve_left id)
    obtain ⟨c, more, chars, opens⟩ := number_eq_cons isNumber
    rw [chars, List.cons_append] at read ⊢
    rw [readSymbol_number opens, read, Option.map_some, ← chars, String.ofList_toList]
  | other notString closed =>
    cases symbol with
    | string literal => exact absurd rfl (notString literal)
    | number written => exact closed.elim
    | bool value => cases value <;> rfl
    | _ => rfl

/-- A symbol does not start with a blank, and only a number starts as a number might go on. -/
theorem spelled_eq_cons {symbol : Symbol} {front : List Char} (spelled : symbol.Spelled front) :
    ∃ c more, front = c :: more ∧ isSpace c = false ∧
      (symbol.Closed → continuesNumber c = false) := by
  cases spelled with
  | string => exact ⟨'"', _, rfl, by decide, fun _ => by decide⟩
  | number isNumber =>
    obtain ⟨c, more, chars, opens⟩ := number_eq_cons isNumber
    refine ⟨c, more, chars, ?_, fun closed => closed.elim⟩
    rw [← Bool.not_eq_true]
    intro blank
    simp only [isSpace, Bool.or_eq_true, decide_eq_true_eq] at blank
    rcases blank with ((rfl | rfl) | rfl) | rfl <;> exact absurd opens (by decide)
  | other notString closed =>
    cases symbol with
    | string literal => exact absurd rfl (notString literal)
    | number written => exact closed.elim
    | bool value => cases value <;> exact ⟨_, _, rfl, by decide, fun _ => by decide⟩
    | _ => exact ⟨_, _, rfl, by decide, fun _ => by decide⟩

end TableQuery.Json
