import TableQuery.Proofs.Lexeme

/-!
# How a text is cut into tokens

A text is cut into pieces, each a written token with the blanks in front of it. `Cut` says what a
piece has to be with all that stands before and behind it: spelled as its token, placed at its
byte, and `Whole`, which rules out that a token is cut short. Every text is cut up to its end or up
to a place where no token starts (`exists_cut`), and scanning follows any cut (`scan_cut`), so that
the tokens, and the failure if there is one, are those of the only cut there is
(`tokenize_partitions`).
-/

namespace TableQuery.Sql

open TableQuery.Text

/-! ## Pieces -/

/-- A token as it is written, with the blanks in front of it. -/
structure Piece where
  gap : List Char
  written : List Char
  token : Token
  deriving DecidableEq, Repr

def Piece.chars (piece : Piece) : List Char :=
  piece.gap ++ piece.written

def charsOf (pieces : List Piece) : List Char :=
  pieces.flatMap Piece.chars

/-- The written token is not part of a longer one. A word has no word character on either side, a
quoted string no quote behind it, and no longer operator starts where an operator stands. -/
def Whole (before : List Char) (kind : TokenKind) (written after : List Char) : Prop :=
  match kind with
  | .word _ =>
    (∀ c ∈ before.getLast?, isWordChar c = false) ∧ ∀ c ∈ after.head?, isWordChar c = false
  | .quoted _ => ∀ c ∈ after.head?, c ≠ '\''
  | .operator _ => ∀ op other, Spelling (.operator op) other → other <+: written ++ after →
      other.length ≤ written.length
  | .star | .comma => True

/-- The pieces are cut off one after the other between `before` and `rest`. -/
inductive Cut (rest : List Char) : List Char → List Piece → Prop
  | nil (before : List Char) : Cut rest before []
  | cons {before : List Char} {piece : Piece} {more : List Piece}
      (blank : ∀ c ∈ piece.gap, isBlank c = true)
      (spelled : Spelling piece.token.kind piece.written)
      (placed : piece.token.position = width (before ++ piece.gap))
      (whole : Whole (before ++ piece.gap) piece.token.kind piece.written (charsOf more ++ rest))
      (cut : Cut rest (before ++ piece.chars) more) : Cut rest before (piece :: more)

/-- No token starts with this character and goes on in the rest, and this is what is told: the
character and its byte, or the byte where a quoted string opens that is never closed. -/
inductive Stuck (position : Nat) : Char → List Char → SyntaxError → Prop
  | parenthesis {first : Char} {rest : List Char} (bracket : first = '(' ∨ first = ')') :
      Stuck position first rest
        (.unexpected "a column, keyword or literal (grouping is not supported)" first.toString
          position)
  | bang {rest : List Char} (alone : ∀ c ∈ rest.head?, c ≠ '=') :
      Stuck position '!' rest (.unexpected "'!='" "!" position)
  | unclosed {rest : List Char}
      (paired : ∀ body back, rest = doubleQuotes body ++ '\'' :: back → back.head? = some '\'') :
      Stuck position '\'' rest (.unterminated position)

/-! ## One token -/

/-- A token that is whole is not gone on with. -/
theorem ends_of_whole {before written after : List Char} {kind : TokenKind}
    (spelled : Spelling kind written) (whole : Whole before kind written after) :
    Ends kind after := by
  cases kind with
  | word text => exact whole.2
  | quoted text => exact whole
  | star => trivial
  | comma => trivial
  | operator op =>
    have longest : ∀ other sign, Spelling (.operator other) sign → sign <+: written ++ after →
        sign.length ≤ written.length := whole
    cases spelled with
    | unequal => trivial
    | operator =>
      cases op with
      | lt =>
        intro c member
        obtain ⟨back, rfl⟩ := List.head?_eq_some_iff.1 member
        constructor
        · rintro rfl
          exact absurd (longest .le _ (.operator .le) ⟨back, rfl⟩) (by decide)
        · rintro rfl
          exact absurd (longest .ne _ .unequal ⟨back, rfl⟩) (by decide)
      | gt =>
        intro c member
        obtain ⟨back, rfl⟩ := List.head?_eq_some_iff.1 member
        rintro rfl
        exact absurd (longest .ge _ (.operator .ge) ⟨back, rfl⟩) (by decide)
      | _ => trivial

/-- A sign is one character or one of these four. -/
theorem long_sign {op : Comparator} {sign : List Char} (spelled : Spelling (.operator op) sign) :
    sign.length = 1 ∨ sign = ['<', '='] ∨ sign = ['<', '>'] ∨ sign = ['>', '='] ∨
      sign = ['!', '='] := by
  cases spelled with
  | operator => cases op <;> decide
  | unequal => decide

/-- Of the operators that start at a place the longest one is taken. -/
theorem longest_of_ends {op other : Comparator} {written sign after : List Char}
    (spelled : Spelling (.operator op) written) (ends : Ends (.operator op) after)
    (spelledOther : Spelling (.operator other) sign) (fits : sign <+: written ++ after) :
    sign.length ≤ written.length := by
  obtain ⟨back, same⟩ := fits
  cases spelled with
  | unequal => rcases long_sign spelledOther with one | rfl | rfl | rfl | rfl <;> simp [*]
  | operator =>
    rcases long_sign spelledOther with one | rfl | rfl | rfl | rfl
    · cases op <;> simp [one, Comparator.symbol]
    all_goals cases op <;> simp [Comparator.symbol] at same ⊢
    -- What is left is a sign that goes on into `after`, as `Ends` says none does.
    all_goals
      subst same
      simp [Ends] at ends

def Apart (before after : List Char) : Prop :=
  ∀ c ∈ before.getLast?, ∀ d ∈ after.head?, isWordChar d = true → isWordChar c = false

theorem whole_of_ends {before written after : List Char} {kind : TokenKind}
    (spelled : Spelling kind written) (ends : Ends kind after) (apart : Apart before written) :
    Whole before kind written after := by
  cases kind with
  | word text =>
    refine ⟨fun c last => ?_, ends⟩
    cases spelled with
    | word nonempty wordChars =>
      obtain ⟨first, more, rfl⟩ := List.exists_cons_of_ne_nil nonempty
      exact apart c last first rfl (wordChars first (by simp))
  | quoted text => exact ends
  | star => trivial
  | comma => trivial
  | operator op =>
    intro other sign spelledOther fits
    exact longest_of_ends spelled ends spelledOther fits

theorem spelling_ne_nil {kind : TokenKind} {written : List Char} (spelled : Spelling kind written) :
    written ≠ [] := by
  cases spelled with
  | word nonempty _ => exact nonempty
  | operator op => cases op <;> decide
  | _ => simp

theorem apart_of_spelling {written after : List Char} {kind : TokenKind}
    (spelled : Spelling kind written) (ends : Ends kind after) (before : List Char) :
    Apart (before ++ written) after := by
  intro c last d head wordChar
  rw [List.getLast?_append] at last
  cases spelled with
  | word nonempty _ =>
    have stop : isWordChar d = false := ends d head
    rw [stop] at wordChar
    cases wordChar
  | quoted body =>
    rw [List.getLast?_append] at last
    cases last
    decide
  | operator op => cases op <;> cases last <;> decide
  | _ =>
    cases last
    decide

theorem ends_of_readQuoted {cs body rest : List Char} (read : readQuoted cs = some (body, rest)) :
    ∀ c ∈ rest.head?, c ≠ '\'' := by
  fun_induction readQuoted cs generalizing body with
  | case1 => cases read
  | case2 cs ih =>
    simp only [Option.bind_eq_bind, Option.bind_eq_some_iff] at read
    obtain ⟨⟨inner, last⟩, found, same⟩ := read
    cases same
    exact ih found
  | case3 cs alone =>
    cases read
    rintro c head rfl
    obtain ⟨more, rfl⟩ := List.head?_eq_some_iff.1 head
    exact alone more rfl
  | case4 c cs _ _ ih =>
    simp only [Option.bind_eq_bind, Option.bind_eq_some_iff] at read
    obtain ⟨⟨inner, last⟩, found, same⟩ := read
    cases same
    exact ih found

/-- A string is never closed just when every quote that could close it is doubled. -/
theorem readQuoted_eq_none_iff {cs : List Char} :
    readQuoted cs = none ↔
      ∀ body back, cs = doubleQuotes body ++ '\'' :: back → back.head? = some '\'' := by
  constructor
  · rintro failed body back rfl
    by_cases goesOn : back.head? = some '\''
    · exact goesOn
    · have read := @readQuoted_doubleQuotes body back fun c head same => goesOn (same ▸ head)
      rw [failed] at read
      cases read
  · intro paired
    cases read : readQuoted cs with
    | none => rfl
    | some found =>
      obtain ⟨body, back⟩ := found
      have next := paired body back (doubleQuotes_of_readQuoted read).symm
      exact absurd rfl (ends_of_readQuoted read '\'' next)

theorem ends_of_readToken {position : Nat} {first : Char} {cs : List Char} {lexeme : Lexeme}
    (visible : isBlank first = false) (read : readToken position first cs = .ok lexeme) :
    Ends lexeme.kind lexeme.rest := by
  by_cases wordChar : isWordChar first = true
  · rw [readToken_wordChar wordChar] at read
    cases read
    intro c head
    have stop := List.head?_dropWhile_not isWordChar cs
    rw [show (cs.dropWhile isWordChar).head? = some c from head] at stop
    simpa using stop
  · fun_cases readToken position first cs <;>
      simp_all [readToken, isWordChar, delimiters] <;> subst read
    case case3 body rest found => exact ends_of_readQuoted found
    case case10 notEqual notGreater =>
      intro c head
      obtain ⟨back, rfl⟩ := List.head?_eq_some_iff.1 head
      exact ⟨fun same => notEqual back (same ▸ rfl), fun same => notGreater back (same ▸ rfl)⟩
    case case12 notEqual =>
      intro c head
      obtain ⟨back, rfl⟩ := List.head?_eq_some_iff.1 head
      exact fun same => notEqual back (same ▸ rfl)
    all_goals trivial

/-- The failures of the tokenizer are those of a character at which no token starts. -/
theorem stuck_of_readToken {position : Nat} {first : Char} {rest : List Char} {error : SyntaxError}
    (failed : readToken position first rest = .error error) :
    Stuck position first rest error := by
  fun_cases readToken position first rest
  case case4 unread =>
    simp only [readToken, unread] at failed
    cases failed
    exact .unclosed (readQuoted_eq_none_iff.1 unread)
  case case7 alone =>
    rw [readToken] at failed
    · cases failed
      refine .bang fun c head same => ?_
      obtain ⟨back, rfl⟩ := List.head?_eq_some_iff.1 head
      exact alone back (same ▸ rfl)
    · exact alone
  case case13 =>
    have bracket : first = '(' ∨ first = ')' := by assumption
    have told : readToken position first rest = .error (.unexpected
        "a column, keyword or literal (grouping is not supported)" first.toString position) := by
      rcases bracket with rfl | rfl <;> rfl
    rw [told] at failed
    cases failed
    exact .parenthesis bracket
  all_goals simp_all [readToken]

theorem readToken_of_stuck {position : Nat} {first : Char} {rest : List Char} {error : SyntaxError}
    (stuck : Stuck position first rest error) :
    isBlank first = false ∧ readToken position first rest = .error error := by
  cases stuck with
  | parenthesis bracket => rcases bracket with rfl | rfl <;> exact ⟨by decide, rfl⟩
  | bang alone =>
    refine ⟨by decide, ?_⟩
    cases rest with
    | nil => rfl
    | cons c rest =>
      have other : c ≠ '=' := alone c rfl
      simp [readToken, other]
  | unclosed paired =>
    refine ⟨by decide, ?_⟩
    simp only [readToken, readQuoted_eq_none_iff.2 paired]

/-! ## Cuts -/

theorem charsOf_cons (piece : Piece) (more : List Piece) :
    charsOf (piece :: more) = piece.gap ++ piece.written ++ charsOf more := rfl

theorem scan_blanks {blanks : List Char} (blank : ∀ c ∈ blanks, isBlank c = true) (position : Nat)
    (cs : List Char) : scan position (blanks ++ cs) = scan (position + width blanks) cs := by
  induction blanks generalizing position with
  | nil => rfl
  | cons c blanks ih =>
    rw [List.cons_append, scan_blank (blank c (by simp)),
      ih (fun other member => blank other (by simp [member])), width, Nat.add_assoc]

/-- Scanning goes along a cut, whatever comes of the rest. -/
theorem scan_cut {before rest : List Char} {pieces : List Piece} (cut : Cut rest before pieces) :
    scan (width before) (charsOf pieces ++ rest) =
      (scan (width (before ++ charsOf pieces)) rest).map (pieces.map Piece.token ++ ·) := by
  induction cut with
  | nil before =>
    simp only [charsOf, List.flatMap_nil, List.append_nil, List.nil_append, List.map_nil]
    cases scan (width before) rest <;> rfl
  | @cons before piece more blank spelled placed whole _ ih =>
    have start : width before + width piece.gap = piece.token.position := by
      rw [placed, width_append]
    have behind : piece.token.position + width piece.written = width (before ++ piece.chars) := by
      rw [placed, Piece.chars, ← List.append_assoc, width_append _ piece.written]
    calc scan (width before) (charsOf (piece :: more) ++ rest)
      _ = scan (width before) (piece.gap ++ (piece.written ++ (charsOf more ++ rest))) := by
        simp only [charsOf_cons, List.append_assoc]
      _ = scan piece.token.position (piece.written ++ (charsOf more ++ rest)) := by
        rw [scan_blanks blank, start]
      _ = (scan (width (before ++ piece.chars)) (charsOf more ++ rest)).map (piece.token :: ·) := by
        rw [scan_token spelled (ends_of_whole spelled whole), behind]
      _ = (scan (width (before ++ charsOf (piece :: more))) rest).map
          ((piece :: more).map Piece.token ++ ·) := by
        rw [ih, List.append_assoc, show piece.chars ++ charsOf more = charsOf (piece :: more) from rfl]
        cases scan (width (before ++ charsOf (piece :: more))) rest <;> rfl

/-- A blank in front of a cut belongs to its first piece. -/
theorem Cut.cons_blank {before rest : List Char} {c : Char} {piece : Piece} {more : List Piece}
    (blank : isBlank c = true) (cut : Cut rest (before ++ [c]) (piece :: more)) :
    Cut rest before ({ piece with gap := c :: piece.gap } :: more) := by
  cases cut with
  | cons blanks spelled placed whole cut =>
    rw [List.append_assoc, List.singleton_append] at placed whole cut
    exact .cons (List.forall_mem_cons.2 ⟨blank, blanks⟩) spelled placed whole cut

theorem apart_blank {c : Char} (blank : isBlank c = true) (before cs : List Char) :
    Apart (before ++ [c]) cs := by
  intro d last e _ _
  rw [List.getLast?_concat] at last
  cases last
  simp [isWordChar, blank]

/-- Every text can be cut up to its end or up to a place where no token starts. -/
theorem exists_cut {position : Nat} {before cs : List Char} (placed : position = width before)
    (apart : Apart before cs) :
    ∃ pieces blanks rest, cs = charsOf pieces ++ (blanks ++ rest) ∧
      (∀ c ∈ blanks, isBlank c = true) ∧ Cut (blanks ++ rest) before pieces ∧
      (rest = [] ∨ ∃ first more error, rest = first :: more ∧
        Stuck (width (before ++ charsOf pieces ++ blanks)) first more error) := by
  -- The cut follows the scan. `Apart` is carried along, since a word that starts here must not go
  -- on with one that has been cut off before.
  fun_induction scan position cs generalizing before with
  | case1 => exact ⟨[], [], [], rfl, by simp, .nil before, .inl rfl⟩
  | case2 position c cs blank ih =>
    obtain ⟨pieces, blanks, rest, rfl, blankRest, cut, outcome⟩ :=
      @ih (before ++ [c]) (by simp [placed, width]) (apart_blank blank before cs)
    cases pieces with
    | nil =>
      refine ⟨[], c :: blanks, rest, rfl, List.forall_mem_cons.2 ⟨blank, blankRest⟩, .nil before, ?_⟩
      simpa [charsOf] using outcome
    | cons piece more =>
      refine ⟨{ piece with gap := c :: piece.gap } :: more, blanks, rest, rfl, blankRest,
        cut.cons_blank blank, ?_⟩
      simpa [charsOf, Piece.chars] using outcome
  | case3 position c cs visible error failed =>
    refine ⟨[], [], c :: cs, rfl, by simp, .nil before, .inr ⟨c, cs, error, rfl, ?_⟩⟩
    rw [placed] at failed
    simpa [charsOf] using stuck_of_readToken failed
  | case4 position c cs visible lexeme read ih =>
    have hidden : isBlank c = false := by simpa using visible
    have spelled := spelling_of_readToken hidden read
    have ends := ends_of_readToken hidden read
    have text := written_append_rest read
    obtain ⟨first, tail, starts⟩ := List.exists_cons_of_ne_nil (spelling_ne_nil spelled)
    have apartWritten : Apart before lexeme.written := by
      rw [starts, List.cons_append, List.cons.injEq] at text
      intro d last e head
      rw [starts] at head
      cases head
      exact apart d last first (by rw [text.1]; rfl)
    obtain ⟨pieces, blanks, rest, same, blankRest, cut, outcome⟩ :=
      @ih (before ++ lexeme.written) (by rw [placed, width_append])
        (apart_of_spelling spelled ends before)
    have whole : Whole (before ++ []) lexeme.kind lexeme.written
        (charsOf pieces ++ (blanks ++ rest)) := by
      rw [List.append_nil, ← same]
      exact whole_of_ends spelled ends apartWritten
    refine ⟨⟨[], lexeme.written, ⟨lexeme.kind, position⟩⟩ :: pieces, blanks, rest, ?_, blankRest,
      .cons (by simp) spelled (by simpa using placed) whole cut, ?_⟩
    · rw [← text, same]
      simp [charsOf, Piece.chars]
    · simpa [charsOf, Piece.chars] using outcome

/-! ## Positions -/

theorem Cut.width_le {before rest : List Char} {pieces : List Piece}
    (cut : Cut rest before pieces) :
    ∀ token ∈ pieces.map Piece.token, width before ≤ token.position := by
  induction cut with
  | nil => simp
  | @cons before piece more _ _ placed _ _ ih =>
    simp only [width_append, List.map_cons, List.forall_mem_cons] at placed ih ⊢
    exact ⟨by omega, fun token member => by have := ih token member; omega⟩

theorem Cut.increasing {before rest : List Char} {pieces : List Piece}
    (cut : Cut rest before pieces) :
    (pieces.map Piece.token).Pairwise fun earlier later => earlier.position < later.position := by
  induction cut with
  | nil => exact .nil
  | @cons before piece more _ spelled placed _ behind ih =>
    refine List.pairwise_cons.2 ⟨fun token member => ?_, ih⟩
    have beyond := behind.width_le token member
    have visible := width_pos (spelling_ne_nil spelled)
    simp only [Piece.chars, width_append] at placed beyond
    omega

/-- A token stands in the text as it is spelled, from the byte where it starts. -/
theorem Cut.stands {before rest : List Char} {pieces : List Piece}
    (cut : Cut rest before pieces) : ∀ token ∈ pieces.map Piece.token, ∃ front written back,
      before ++ charsOf pieces ++ rest = front ++ (written ++ back) ∧
        Spelling token.kind written ∧ token.position = width front := by
  induction cut with
  | nil => simp
  | @cons before piece more _ spelled placed _ _ ih =>
    rw [List.map_cons, List.forall_mem_cons]
    refine ⟨⟨before ++ piece.gap, piece.written, charsOf more ++ rest, ?_, spelled, placed⟩, ?_⟩
    · simp [charsOf_cons]
    · intro token member
      obtain ⟨front, written, back, text, spelled, start⟩ := ih token member
      refine ⟨front, written, back, ?_, spelled, start⟩
      rw [← text]
      simp [charsOf_cons, Piece.chars]

/-! ## Texts -/

/-- The text is cut into these pieces with blanks behind them, and the tokens are theirs. Each
starts further on than the one before it, at a byte where a character starts. -/
structure Partitions (text : String) (pieces : List Piece) (blanks : List Char)
    (tokens : List Token) : Prop where
  covers : text.toList = charsOf pieces ++ blanks
  blank : ∀ c ∈ blanks, isBlank c = true
  cut : Cut blanks [] pieces
  carried : tokens = pieces.map Piece.token
  increasing : tokens.Pairwise fun earlier later => earlier.position < later.position
  boundary : ∀ token ∈ tokens, ∃ front back : String,
    text = front ++ back ∧ token.position = front.utf8ByteSize

/-- The text is cut into these pieces up to a character, blanks aside, at which it cannot be cut any
further, and this is the failure that is told. -/
structure Halts (text : String) (pieces : List Piece) (blanks : List Char) (first : Char)
    (rest : List Char) (error : SyntaxError) : Prop where
  covers : text.toList = charsOf pieces ++ (blanks ++ first :: rest)
  blank : ∀ c ∈ blanks, isBlank c = true
  cut : Cut (blanks ++ first :: rest) [] pieces
  stuck : Stuck (String.ofList (charsOf pieces ++ blanks)).utf8ByteSize first rest error
  final : ∀ kind written after, first :: rest = written ++ after → Spelling kind written →
    ¬ Whole (charsOf pieces ++ blanks) kind written after

/-- Where scanning is stuck, no token can be cut off. -/
theorem not_whole_of_stuck {position : Nat} {first : Char} {rest : List Char} {error : SyntaxError}
    (stuck : Stuck position first rest error) {before written after : List Char} {kind : TokenKind}
    (same : first :: rest = written ++ after) (spelled : Spelling kind written) :
    ¬ Whole before kind written after := by
  intro whole
  obtain ⟨first', more, rfl, _, read⟩ := readToken_spelling spelled (ends_of_whole spelled whole)
  rw [List.cons_append, List.cons.injEq] at same
  obtain ⟨rfl, rfl⟩ := same
  have failed := (readToken_of_stuck stuck).2
  rw [read] at failed
  cases failed

theorem scan_of_stuck {position : Nat} {first : Char} {rest : List Char} {error : SyntaxError}
    (stuck : Stuck position first rest error) : scan position (first :: rest) = .error error := by
  obtain ⟨visible, failed⟩ := readToken_of_stuck stuck
  rw [scan_visible visible, failed]
  rfl

/-- A partition of the text is what the tokenizer finds. -/
theorem tokenize_of_partitions {text : String} {pieces : List Piece} {blanks : List Char}
    {tokens : List Token} (partitions : Partitions text pieces blanks tokens) :
    tokenize text = .ok tokens := by
  have scanned := scan_cut partitions.cut
  have end' := scan_blanks partitions.blank (width (charsOf pieces)) []
  rw [List.append_nil, scan] at end'
  rw [List.nil_append, end', width] at scanned
  unfold tokenize
  rw [partitions.covers, scanned, partitions.carried, Except.map, List.append_nil]

theorem tokenize_of_halts {text : String} {pieces : List Piece} {blanks : List Char} {first : Char}
    {rest : List Char} {error : SyntaxError} (halts : Halts text pieces blanks first rest error) :
    tokenize text = .error error := by
  have scanned := scan_cut halts.cut
  have stuck := halts.stuck
  rw [utf8ByteSize_ofList, width_append] at stuck
  rw [List.nil_append, scan_blanks halts.blank, scan_of_stuck stuck, width] at scanned
  unfold tokenize
  rw [halts.covers, scanned, Except.map]

/-- Every text is partitioned, or partitioned up to where it fails. -/
theorem partitions_or_halts (text : String) :
    (∃ pieces blanks tokens, Partitions text pieces blanks tokens) ∨
      ∃ pieces blanks first rest error, Halts text pieces blanks first rest error := by
  obtain ⟨pieces, blanks, rest, covers, blank, cut, outcome⟩ :=
    @exists_cut 0 [] text.toList rfl (by simp [Apart])
  rcases outcome with rfl | ⟨first, more, error, rfl, stuck⟩
  · rw [List.append_nil] at covers cut
    refine .inl ⟨pieces, blanks, _, covers, blank, cut, rfl, cut.increasing, fun token member => ?_⟩
    obtain ⟨front, written, back, split, _, start⟩ := cut.stands token member
    refine ⟨String.ofList front, String.ofList (written ++ back), ?_,
      by rw [start, utf8ByteSize_ofList]⟩
    rw [← String.ofList_append, ← split, List.nil_append, ← covers, String.ofList_toList]
  · rw [List.nil_append] at stuck
    refine .inr ⟨pieces, blanks, first, more, error, covers, blank, cut, ?_,
      fun kind written after same spelled => not_whole_of_stuck stuck same spelled⟩
    rwa [utf8ByteSize_ofList]

/-- A text is tokenized just when it can be partitioned, and then into the tokens of the partition.
It fails just when it cannot, and then at the first place where no token can be cut off. -/
theorem tokenize_partitions (text : String) :
    (∀ tokens, tokenize text = .ok tokens ↔
      ∃ pieces blanks, Partitions text pieces blanks tokens) ∧
    ∀ error, tokenize text = .error error ↔
      ∃ pieces blanks first rest, Halts text pieces blanks first rest error := by
  refine ⟨fun tokens => ⟨fun done => ?_, ?_⟩, fun error => ⟨fun failed => ?_, ?_⟩⟩
  · rcases partitions_or_halts text with ⟨pieces, blanks, found, partitions⟩ |
      ⟨pieces, blanks, first, rest, error, halts⟩
    · rw [tokenize_of_partitions partitions] at done
      cases done
      exact ⟨pieces, blanks, partitions⟩
    · rw [tokenize_of_halts halts] at done
      cases done
  · rintro ⟨pieces, blanks, partitions⟩
    exact tokenize_of_partitions partitions
  · rcases partitions_or_halts text with ⟨pieces, blanks, found, partitions⟩ |
      ⟨pieces, blanks, first, rest, told, halts⟩
    · rw [tokenize_of_partitions partitions] at failed
      cases failed
    · rw [tokenize_of_halts halts] at failed
      cases failed
      exact ⟨pieces, blanks, first, rest, halts⟩
  · rintro ⟨pieces, blanks, first, rest, halts⟩
    exact tokenize_of_halts halts

example : tokenize "é<>'(''!'x" =
    .ok [⟨.word "é", 0⟩, ⟨.operator .ne, 2⟩, ⟨.quoted "('!", 4⟩, ⟨.word "x", 10⟩] := by
  cbv

example : tokenize "é<!x" = .error (.unexpected "'!='" "!" 3) := by
  cbv

end TableQuery.Sql
