import TableQuery.Sql.Scan

/-!
# How tokens are written

`Spelling` says how a token kind may be written, and `Ends` what keeps a written token from going
on. A written token that ends is read back as it is (`readToken_spelling`), and conversely every
word that is read is a run of word characters (`isWord_of_scan`).

`Writes` puts written tokens together: its texts are read as the tokens that they write in front of
anything that starts with a space or a comma.
-/

namespace TableQuery.Sql

open TableQuery.Text

/-- The characters are a written form of the token. Only inequality has two. -/
inductive Spelling : TokenKind → List Char → Prop
  | word {cs : List Char} (nonempty : cs ≠ []) (wordChars : ∀ c ∈ cs, isWordChar c = true) :
      Spelling (.word (String.ofList cs)) cs
  | quoted (body : List Char) :
      Spelling (.quoted (String.ofList body)) ('\'' :: doubleQuotes body ++ ['\''])
  | star : Spelling .star ['*']
  | comma : Spelling .comma [',']
  | operator (op : Comparator) : Spelling (.operator op) op.symbol.toList
  | unequal : Spelling (.operator .ne) ['<', '>']

/-- The characters do not go on with the token in front of them. -/
def Ends : TokenKind → List Char → Prop
  | .word _, rest => ∀ c ∈ rest.head?, isWordChar c = false
  | .quoted _, rest => ∀ c ∈ rest.head?, c ≠ '\''
  | .operator .lt, rest => ∀ c ∈ rest.head?, c ≠ '=' ∧ c ≠ '>'
  | .operator .gt, rest => ∀ c ∈ rest.head?, c ≠ '='
  | _, _ => True

/-- No token goes on with a character that none has inside or behind it. -/
theorem ends_of_head {rest : List Char}
    (broken : ∀ c ∈ rest.head?, isWordChar c = false ∧ c ≠ '\'' ∧ c ≠ '=' ∧ c ≠ '>')
    (kind : TokenKind) : Ends kind rest := by
  unfold Ends
  split
  · exact fun c member => (broken c member).1
  · exact fun c member => (broken c member).2.1
  · exact fun c member => (broken c member).2.2
  · exact fun c member => (broken c member).2.2.1
  · trivial

/-- A word is what has only word characters, at least one of them. -/
theorem isWord_iff {text : String} :
    isWord text = true ↔ text.toList ≠ [] ∧ ∀ c ∈ text.toList, isWordChar c = true := by
  simp [isWord]

theorem spelling_of_isWord {text : String} (word : isWord text = true) :
    Spelling (.word text) text.toList := by
  obtain ⟨nonempty, wordChars⟩ := isWord_iff.1 word
  have spelling := Spelling.word nonempty wordChars
  rwa [String.ofList_toList] at spelling

/-! ## Reading a written token -/

theorem isBlank_of_isWordChar {c : Char} (h : isWordChar c = true) : isBlank c = false := by
  simp only [isWordChar, Bool.and_eq_true, Bool.not_eq_true'] at h
  exact h.1

theorem readToken_wordChar {c : Char} (h : isWordChar c = true) (position : Nat)
    (rest : List Char) :
    readToken position c rest =
      .ok ⟨.word (String.ofList (c :: rest.takeWhile isWordChar)), c :: rest.takeWhile isWordChar,
        rest.dropWhile isWordChar⟩ := by
  have undelimited : c ∉ delimiters := by
    simp only [isWordChar, Bool.and_eq_true, Bool.not_eq_true', List.contains_eq_mem,
      decide_eq_false_iff_not] at h
    exact h.2
  fun_cases readToken position c rest
  case case14 => rfl
  all_goals simp_all [delimiters]

theorem takeWhile_of_ends {rest : List Char} (ends : ∀ c ∈ rest.head?, isWordChar c = false) :
    rest.takeWhile isWordChar = [] ∧ rest.dropWhile isWordChar = rest := by
  cases rest with
  | nil => exact ⟨rfl, rfl⟩
  | cons c rest =>
    have stop : isWordChar c = false := ends c rfl
    simp [stop]

/-- A quoted text comes back if no quote follows the closing one. -/
theorem readQuoted_doubleQuotes (body : List Char) {rest : List Char}
    (ends : ∀ c ∈ rest.head?, c ≠ '\'') :
    readQuoted (doubleQuotes body ++ '\'' :: rest) = some (body, rest) := by
  induction body with
  | nil =>
    cases rest with
    | nil => rfl
    | cons c rest =>
      have other : c ≠ '\'' := ends c rfl
      simp [doubleQuotes, readQuoted, other]
  | cons c body ih =>
    by_cases quote : c = '\''
    · subst quote
      simp [doubleQuotes, readQuoted, ih]
    · simp [doubleQuotes, readQuoted, quote, ih]

/-- What is written is read, if it ends there. -/
theorem readToken_spelling {kind : TokenKind} {written rest : List Char}
    (spelling : Spelling kind written) (ends : Ends kind rest) :
    ∃ first more, written = first :: more ∧ isBlank first = false ∧
      ∀ position, readToken position first (more ++ rest) = .ok ⟨kind, written, rest⟩ := by
  cases spelling with
  | @word cs nonempty wordChars =>
    cases written with
    | nil => exact absurd rfl nonempty
    | cons c more =>
      have head := wordChars c (by simp)
      have tail : ∀ d ∈ more, isWordChar d = true := fun d member => wordChars d (by simp [member])
      obtain ⟨stop, left⟩ := takeWhile_of_ends ends
      refine ⟨c, more, rfl, isBlank_of_isWordChar head, fun position => ?_⟩
      rw [readToken_wordChar head, List.takeWhile_append_of_pos tail,
        List.dropWhile_append_of_pos tail, stop, left, List.append_nil]
  | quoted body =>
    refine ⟨'\'', doubleQuotes body ++ ['\''], rfl, by decide, fun position => ?_⟩
    rw [List.append_assoc, List.singleton_append]
    simp only [readToken, readQuoted_doubleQuotes body ends, List.cons_append]
  | star => exact ⟨'*', [], rfl, by decide, fun _ => rfl⟩
  | comma => exact ⟨',', [], rfl, by decide, fun _ => rfl⟩
  | operator op =>
    cases op with
    | lt =>
      refine ⟨'<', [], rfl, by decide, fun position => ?_⟩
      cases rest with
      | nil => rfl
      | cons c rest =>
        obtain ⟨notEqual, notGreater⟩ : c ≠ '=' ∧ c ≠ '>' := ends c rfl
        simp [readToken, notEqual, notGreater, Comparator.symbol]
    | gt =>
      refine ⟨'>', [], rfl, by decide, fun position => ?_⟩
      cases rest with
      | nil => rfl
      | cons c rest =>
        have notEqual : c ≠ '=' := ends c rfl
        simp [readToken, notEqual, Comparator.symbol]
    | le => exact ⟨'<', ['='], rfl, by decide, fun _ => rfl⟩
    | ge => exact ⟨'>', ['='], rfl, by decide, fun _ => rfl⟩
    | eq => exact ⟨'=', [], rfl, by decide, fun _ => rfl⟩
    | ne => exact ⟨'!', ['='], rfl, by decide, fun _ => rfl⟩
  | unequal => exact ⟨'<', ['>'], rfl, by decide, fun _ => rfl⟩

/-! ## Reading written tokens in a row -/

/-- The characters are read as tokens of these kinds, wherever they start. -/
def Lexes (cs : List Char) (ks : List TokenKind) : Prop :=
  ∀ position, ∃ tokens, scan position cs = .ok tokens ∧ tokens.map Token.kind = ks

theorem lexes_nil : Lexes [] [] := fun position => ⟨[], by rw [scan], rfl⟩

theorem scan_blank {c : Char} (blank : isBlank c = true) (position : Nat) (cs : List Char) :
    scan position (c :: cs) = scan (position + c.utf8Size) cs := by
  rw [scan, if_pos blank]

theorem scan_visible {c : Char} (visible : isBlank c = false) (position : Nat) (cs : List Char) :
    scan position (c :: cs) = readToken position c cs >>= fun lexeme =>
      (scan (position + width lexeme.written) lexeme.rest).map (⟨lexeme.kind, position⟩ :: ·) := by
  rw [scan, if_neg (by simp [visible])]
  split
  · next failed =>
    rw [failed]
    rfl
  · next lexeme read =>
    rw [read]
    change _ = (scan (position + width lexeme.written) lexeme.rest).map _
    cases scan (position + width lexeme.written) lexeme.rest <;> rfl

/-- A written token is scanned as itself where it ends. -/
theorem scan_token {kind : TokenKind} {written rest : List Char} (spelling : Spelling kind written)
    (ends : Ends kind rest) (position : Nat) :
    scan position (written ++ rest) =
      (scan (position + width written) rest).map (⟨kind, position⟩ :: ·) := by
  obtain ⟨first, more, rfl, visible, read⟩ := readToken_spelling spelling ends
  rw [List.cons_append, scan_visible visible, read]
  rfl

theorem lexes_blank {c : Char} {cs : List Char} {ks : List TokenKind} (blank : isBlank c = true)
    (lexes : Lexes cs ks) : Lexes (c :: cs) ks := by
  intro position
  rw [scan_blank blank]
  exact lexes _

theorem lexes_token {kind : TokenKind} {written rest : List Char} {ks : List TokenKind}
    (spelling : Spelling kind written) (ends : Ends kind rest) (lexes : Lexes rest ks) :
    Lexes (written ++ rest) (kind :: ks) := by
  intro position
  obtain ⟨tokens, scanned, kinds⟩ := lexes (position + width written)
  refine ⟨⟨kind, position⟩ :: tokens, ?_, by rw [List.map_cons, kinds]⟩
  rw [scan_token spelling ends, scanned]
  rfl

/-- Nothing, or characters that end every token: a space or a comma stands first. -/
def Breaks (rest : List Char) : Prop :=
  ∀ c ∈ rest.head?, c = ' ' ∨ c = ','

theorem ends_of_breaks {rest : List Char} (breaks : Breaks rest) (kind : TokenKind) :
    Ends kind rest := by
  refine ends_of_head (fun c member => ?_) kind
  rcases breaks c member with rfl | rfl <;> decide

/-- In front of anything that breaks, the characters are read as tokens of these kinds. -/
def Writes (written : List Char) (ks : List TokenKind) : Prop :=
  ∀ rest more, Breaks rest → Lexes rest more → Lexes (written ++ rest) (ks ++ more)

theorem writes_token {kind : TokenKind} {written : List Char} (spelling : Spelling kind written) :
    Writes written [kind] :=
  fun _ _ breaks lexes => lexes_token spelling (ends_of_breaks breaks kind) lexes

theorem writes_word {text : String} (word : isWord text = true) :
    Writes text.toList [.word text] :=
  writes_token (spelling_of_isWord word)

theorem writes_space {front back : List Char} {ks more : List TokenKind}
    (writes : Writes front ks) (writesBack : Writes back more) :
    Writes (front ++ ' ' :: back) (ks ++ more) := by
  intro rest last breaks lexes
  rw [List.append_assoc, List.append_assoc]
  exact writes _ _ (by simp [Breaks]) (lexes_blank (by decide) (writesBack rest last breaks lexes))

theorem writes_comma {front back : List Char} {ks more : List TokenKind}
    (writes : Writes front ks) (writesBack : Writes back more) :
    Writes (front ++ ',' :: ' ' :: back) (ks ++ .comma :: more) := by
  intro rest last breaks lexes
  rw [List.append_assoc, List.append_assoc]
  have behind : Lexes (' ' :: back ++ rest) (more ++ last) :=
    lexes_blank (by decide) (writesBack rest last breaks lexes)
  have comma : Lexes (',' :: ' ' :: back ++ rest) (.comma :: more ++ last) :=
    @lexes_token .comma [','] _ _ .comma trivial behind
  exact writes _ _ (by simp [Breaks]) comma

/-- A text that is written is tokenized. -/
theorem tokenize_of_writes {text : String} {ks : List TokenKind} (writes : Writes text.toList ks) :
    ∃ tokens, tokenize text = .ok tokens ∧ tokens.map Token.kind = ks := by
  have lexes := writes [] [] (by simp [Breaks]) lexes_nil
  rw [List.append_nil, List.append_nil] at lexes
  exact lexes 0

/-! ## The words that are read -/

/-- Whatever is taken for a token is a spelling of it. -/
theorem spelling_of_readToken {position : Nat} {first : Char} {cs : List Char} {lexeme : Lexeme}
    (visible : isBlank first = false) (read : readToken position first cs = .ok lexeme) :
    Spelling lexeme.kind lexeme.written := by
  by_cases wordChar : isWordChar first = true
  · rw [readToken_wordChar wordChar] at read
    cases read
    refine .word (by simp) fun c member => ?_
    rcases List.mem_cons.1 member with rfl | member
    · exact wordChar
    · exact List.all_eq_true.1 List.all_takeWhile c member
  · -- What is left are the characters that end a word without being blank.
    fun_cases readToken position first cs <;>
      simp_all [readToken, isWordChar, delimiters] <;> subst read
    · exact .comma
    · exact .star
    · exact .quoted _
    · exact .operator .eq
    · exact .operator .ne
    · exact .operator .le
    · exact .unequal
    · exact .operator .lt
    · exact .operator .ge
    · exact .operator .gt

theorem isWord_of_spelling {text : String} {written : List Char}
    (spelling : Spelling (.word text) written) : isWord text = true := by
  cases spelling with
  | word nonempty wordChars => exact isWord_iff.2 (by simpa using ⟨nonempty, wordChars⟩)

/-- Scanning gives no word that could not be written as it is. -/
theorem isWord_of_scan {position : Nat} {cs : List Char} {tokens : List Token}
    (scanned : scan position cs = .ok tokens) {text : String}
    (member : .word text ∈ tokens.map Token.kind) : isWord text = true := by
  fun_induction scan position cs generalizing tokens with
  | case1 =>
    cases scanned
    cases member
  | case2 position c cs _ ih => exact ih scanned member
  | case3 => cases scanned
  | case4 position c cs visible lexeme read ih =>
    cases behind : scan (position + width lexeme.written) lexeme.rest with
    | error e =>
      rw [behind] at scanned
      cases scanned
    | ok more =>
      rw [behind] at scanned
      cases scanned
      rw [List.map_cons, List.mem_cons] at member
      rcases member with word | member
      · have spelling := spelling_of_readToken (by simpa using visible) read
        rw [show lexeme.kind = .word text from word.symm] at spelling
        exact isWord_of_spelling spelling
      · exact ih behind member

end TableQuery.Sql
