import TableQuery.Proofs.Partition
import TableQuery.Proofs.Positions

/-!
# Blanks between tokens

Tokens may be written with any blanks before, between and after them, and with none, except where
two of them would be read as something else (`NeedsBlank`). What is read are the tokens that were
written, and so the blanks do not matter to the query either, nor to what a refusal says, its
position aside (`spacing_irrelevant`).
-/

namespace TableQuery.Sql

open TableQuery.Text

/-- A token as it is written, and the blanks in front of it. -/
structure SpacedToken where
  gap : List Char
  kind : TokenKind
  written : List Char
  deriving DecidableEq, Repr

def spacedChars (items : List SpacedToken) (behind : List Char) : List Char :=
  items.foldr (fun item more => item.gap ++ (item.written ++ more)) behind

/-- Without a blank in between, the two tokens are not read as these two. -/
def NeedsBlank : TokenKind → TokenKind → Bool
  | .word _, .word _ => true
  | .quoted _, .quoted _ => true
  | .operator .lt, .operator next => next = .eq || next = .gt || next = .ge
  | .operator .gt, .operator next => next = .eq
  | _, _ => false

/-- The tokens are spelled as their kinds ask, and what stands between them is blank, and is not
empty where a blank is needed. -/
structure Separated (items : List SpacedToken) (blanks : List Char) : Prop where
  spelled : ∀ item ∈ items, Spelling item.kind item.written
  blank : ∀ item ∈ items, allBlank item.gap = true
  apart : items.IsChain fun item next => next.gap = [] → NeedsBlank item.kind next.kind = false
  blankEnd : allBlank blanks = true

/-! ## Where tokens end -/

theorem ends_of_blank {cs : List Char} (blank : ∀ c ∈ cs.head?, isBlank c = true)
    (kind : TokenKind) : Ends kind cs := by
  refine ends_of_head (fun c member => ?_) kind
  have own := blank c member
  refine ⟨by simp [isWordChar, own], ?_, ?_, ?_⟩ <;>
  · rintro rfl
    cases own

/-- The character may open a written token of the kind. -/
def Opens : TokenKind → Char → Prop
  | .word _, c => isWordChar c = true
  | .quoted _, c => c = '\''
  | .star, c => c = '*'
  | .comma, c => c = ','
  | .operator .ne, c => c = '!' ∨ c = '<'
  | .operator .lt, c | .operator .le, c => c = '<'
  | .operator .gt, c | .operator .ge, c => c = '>'
  | .operator .eq, c => c = '='

theorem opens_of_spelling {kind : TokenKind} {written : List Char}
    (spelled : Spelling kind written) :
    ∃ first more, written = first :: more ∧ Opens kind first := by
  cases spelled with
  | word nonempty wordChars =>
    obtain ⟨first, more, rfl⟩ := List.exists_cons_of_ne_nil nonempty
    exact ⟨first, more, rfl, wordChars first (by simp)⟩
  | quoted body => exact ⟨'\'', _, rfl, rfl⟩
  | star => exact ⟨'*', [], rfl, rfl⟩
  | comma => exact ⟨',', [], rfl, rfl⟩
  | operator op =>
    cases op with
    | eq => exact ⟨'=', [], rfl, rfl⟩
    | ne => exact ⟨'!', ['='], rfl, .inl rfl⟩
    | lt => exact ⟨'<', [], rfl, rfl⟩
    | le => exact ⟨'<', ['='], rfl, rfl⟩
    | gt => exact ⟨'>', [], rfl, rfl⟩
    | ge => exact ⟨'>', ['='], rfl, rfl⟩
  | unequal => exact ⟨'<', ['>'], rfl, .inr rfl⟩

theorem ne_of_isWordChar {c : Char} (wordChar : isWordChar c = true) :
    c ≠ '\'' ∧ c ≠ '=' ∧ c ≠ '>' := by
  refine ⟨?_, ?_, ?_⟩ <;>
  · rintro rfl
    cases wordChar

/-- Where no blank is needed, a token ends at the next. -/
theorem ends_of_opens {kind next : TokenKind} (apart : NeedsBlank kind next = false) {c : Char}
    (opens : Opens next c) (behind : List Char) : Ends kind (c :: behind) := by
  cases kind with
  | star => trivial
  | comma => trivial
  | word text =>
    rintro d ⟨⟩
    unfold Opens at opens
    split at opens
    · cases apart
    all_goals rcases opens with rfl | rfl <;> decide
  | quoted text =>
    rintro d ⟨⟩
    unfold Opens at opens
    split at opens
    · exact (ne_of_isWordChar opens).1
    · cases apart
    all_goals rcases opens with rfl | rfl <;> decide
  | operator op =>
    cases op with
    | lt =>
      rintro d ⟨⟩
      unfold Opens at opens
      split at opens
      · exact (ne_of_isWordChar opens).2
      all_goals first | (rcases opens with rfl | rfl <;> decide) | cases apart
    | gt =>
      rintro d ⟨⟩
      unfold Opens at opens
      split at opens
      · exact (ne_of_isWordChar opens).2.1
      all_goals first | (rcases opens with rfl | rfl <;> decide) | cases apart
    | _ => trivial

theorem Separated.tail {item : SpacedToken} {items : List SpacedToken} {blanks : List Char}
    (separated : Separated (item :: items) blanks) : Separated items blanks where
  spelled := (List.forall_mem_cons.1 separated.spelled).2
  blank := (List.forall_mem_cons.1 separated.blank).2
  apart := separated.apart.of_cons
  blankEnd := separated.blankEnd

/-- Each token ends, if the last one does. -/
theorem ends_of_separated {item : SpacedToken} {items : List SpacedToken} {blanks : List Char}
    (separated : Separated (item :: items) blanks) {rest : List Char}
    (last : items = [] → Ends item.kind (blanks ++ rest)) :
    Ends item.kind (spacedChars items (blanks ++ rest)) := by
  cases items with
  | nil => exact last rfl
  | cons next items =>
    obtain ⟨apart, _⟩ := List.isChain_cons_cons.1 separated.apart
    have spelled := separated.tail.spelled next List.mem_cons_self
    have blank := separated.tail.blank next List.mem_cons_self
    change Ends item.kind (next.gap ++ (next.written ++ spacedChars items (blanks ++ rest)))
    -- Behind the token stands the next one, if there is nothing in between.
    cases gap : next.gap with
    | nil =>
      obtain ⟨first, more, written, opens⟩ := opens_of_spelling spelled
      rw [written]
      exact ends_of_opens (apart gap) opens _
    | cons c gap' =>
      rw [gap] at blank
      refine ends_of_blank ?_ _
      rintro d ⟨⟩
      exact List.all_eq_true.1 blank c List.mem_cons_self

/-! ## Scanning -/

/-- What is scanned are the tokens that were written, and then what is behind them. -/
theorem scan_separated {items : List SpacedToken} {blanks : List Char}
    (separated : Separated items blanks) {rest : List Char}
    (ends : ∀ last ∈ items.getLast?, Ends last.kind (blanks ++ rest)) (position : Nat) :
    ∃ tokens place, tokens.map Token.kind = items.map SpacedToken.kind ∧
      scan position (spacedChars items (blanks ++ rest)) =
        (scan place rest).map (tokens ++ ·) := by
  induction items generalizing position with
  | nil =>
    refine ⟨[], position + width blanks, rfl, ?_⟩
    rw [spacedChars, List.foldr_nil, scan_blanks (List.all_eq_true.1 separated.blankEnd)]
    cases scan (position + width blanks) rest <;> rfl
  | cons item items ih =>
    have spelled := separated.spelled item List.mem_cons_self
    have blank := separated.blank item List.mem_cons_self
    have own : Ends item.kind (spacedChars items (blanks ++ rest)) :=
      ends_of_separated separated (by rintro rfl; exact ends item rfl)
    have later : ∀ last ∈ items.getLast?, Ends last.kind (blanks ++ rest) := fun last member =>
      ends last (List.mem_getLast?_cons member)
    -- The blanks only move the place where the token starts.
    let start := position + width item.gap
    obtain ⟨tokens, place, kinds, scanned⟩ := ih separated.tail later (start + width item.written)
    refine ⟨⟨item.kind, start⟩ :: tokens, place, by simp [kinds], ?_⟩
    calc scan position (spacedChars (item :: items) (blanks ++ rest))
      _ = scan start (item.written ++ spacedChars items (blanks ++ rest)) :=
        scan_blanks (List.all_eq_true.1 blank) position _
      _ = (scan (start + width item.written) (spacedChars items (blanks ++ rest))).map
          (⟨item.kind, start⟩ :: ·) := scan_token spelled own start
      _ = (scan place rest).map (⟨item.kind, start⟩ :: tokens ++ ·) := by
        rw [scanned]
        cases scan place rest <;> rfl

theorem ends_of_allBlank {blanks : List Char} (blank : allBlank blanks = true)
    (kind : TokenKind) : Ends kind (blanks ++ []) := by
  refine ends_of_blank (fun c member => ?_) kind
  rw [List.append_nil] at member
  exact List.all_eq_true.1 blank c (List.mem_of_mem_head? member)

def spacedText (items : List SpacedToken) (behind : List Char) : String :=
  String.ofList (spacedChars items behind)

/-- Separated tokens are all that the tokenizer finds. -/
theorem tokenize_separated {items : List SpacedToken} {blanks : List Char}
    (separated : Separated items blanks) :
    ∃ tokens, tokenize (spacedText items blanks) = .ok tokens ∧
      tokens.map Token.kind = items.map SpacedToken.kind := by
  have ends : ∀ last ∈ items.getLast?, Ends last.kind (blanks ++ []) := fun last _ =>
    ends_of_allBlank separated.blankEnd last.kind
  obtain ⟨tokens, place, kinds, scanned⟩ := scan_separated separated ends 0
  refine ⟨tokens, ?_, kinds⟩
  rw [List.append_nil, scan] at scanned
  rw [tokenize, spacedText, String.toList_ofList, scanned, Except.map, List.append_nil]

/-- The parser sees no blanks. -/
theorem parse_separated_alike {items items' : List SpacedToken} {blanks blanks' rest : List Char}
    (separated : Separated items blanks) (separated' : Separated items' blanks')
    (kinds : items.map SpacedToken.kind = items'.map SpacedToken.kind)
    (ends : ∀ last ∈ items.getLast?, Ends last.kind (blanks ++ rest))
    (ends' : ∀ last ∈ items'.getLast?, Ends last.kind (blanks' ++ rest)) :
    (Query.parse (spacedText items (blanks ++ rest))).mapError SyntaxError.unplaced =
      (Query.parse (spacedText items' (blanks' ++ rest))).mapError SyntaxError.unplaced := by
  apply parse_alike
  obtain ⟨tokens, place, own, scanned⟩ := scan_separated separated ends 0
  obtain ⟨tokens', place', own', scanned'⟩ := scan_separated separated' ends' 0
  have front : SameKinds tokens tokens' := sameKinds_iff.2 (by rw [own, own', kinds])
  rw [tokenize, tokenize, spacedText, spacedText, String.toList_ofList, String.toList_ofList,
    scanned, scanned']
  exact (scan_alike place place' rest).map fun _ _ same => List.rel_append front same

/-- Tokens that are written with blanks before, between and after them are what is read, as long as
there is a blank wherever one is needed. Two texts that differ in such blanks write the same query
or are refused alike but for positions; also where something stands behind the tokens that may be
no token at all, if it does not go on from the last one. -/
theorem spacing_irrelevant :
    (∀ items blanks, Separated items blanks →
      ∃ tokens, tokenize (spacedText items blanks) = .ok tokens ∧
        tokens.map Token.kind = items.map SpacedToken.kind) ∧
    (∀ items items' blanks blanks', Separated items blanks → Separated items' blanks' →
      items.map SpacedToken.kind = items'.map SpacedToken.kind →
      (Query.parse (spacedText items blanks)).mapError SyntaxError.unplaced =
        (Query.parse (spacedText items' blanks')).mapError SyntaxError.unplaced) ∧
    ∀ items items' blanks blanks' rest, Separated items blanks → Separated items' blanks' →
      items.map SpacedToken.kind = items'.map SpacedToken.kind →
      (∀ last ∈ items.getLast?, Ends last.kind (blanks ++ rest)) →
      (∀ last ∈ items'.getLast?, Ends last.kind (blanks' ++ rest)) →
      (Query.parse (spacedText items (blanks ++ rest))).mapError SyntaxError.unplaced =
        (Query.parse (spacedText items' (blanks' ++ rest))).mapError SyntaxError.unplaced := by
  refine ⟨fun items blanks separated => tokenize_separated separated, ?_, ?_⟩
  · intro items items' blanks blanks' separated separated' kinds
    have alike := @parse_separated_alike _ _ _ _ [] separated separated' kinds
      (fun last _ => ends_of_allBlank separated.blankEnd last.kind)
      (fun last _ => ends_of_allBlank separated'.blankEnd last.kind)
    rwa [List.append_nil, List.append_nil] at alike
  · intro items items' blanks blanks' rest separated separated' kinds ends ends'
    exact parse_separated_alike separated separated' kinds ends ends'

/-- A blank is needed here: without one, these are no two strings. -/
example : tokenize "'a''b'" = .ok [⟨.quoted "a'b", 0⟩] := by
  cbv

def cramped : List SpacedToken :=
  [⟨[], .word "SELECT", "SELECT".toList⟩, ⟨[], .star, ['*']⟩, ⟨[], .word "FROM", "FROM".toList⟩,
    ⟨[' '], .word "é", ['é']⟩, ⟨[' '], .word "WHERE", "WHERE".toList⟩, ⟨[' '], .word "a", ['a']⟩,
    ⟨[], .operator .ne, ['<', '>']⟩, ⟨[], .quoted "it's", "'it''s'".toList⟩]

/-- Blanks of several kinds in all places, and the other sign of inequality. -/
def roomy : List SpacedToken :=
  [⟨['\u2003'], .word "SELECT", "SELECT".toList⟩, ⟨['\t'], .star, ['*']⟩,
    ⟨[' '], .word "FROM", "FROM".toList⟩, ⟨[' ', '\n'], .word "é", ['é']⟩,
    ⟨['\u00A0'], .word "WHERE", "WHERE".toList⟩, ⟨['\u3000'], .word "a", ['a']⟩,
    ⟨[' '], .operator .ne, ['!', '=']⟩, ⟨['\r'], .quoted "it's", "'it''s'".toList⟩]

theorem cramped_separated : Separated cramped [] where
  spelled := by
    simp only [cramped, List.forall_mem_cons]
    exact ⟨spelling_of_isWord (by decide), .star, spelling_of_isWord (by decide),
      spelling_of_isWord (by decide), spelling_of_isWord (by decide),
      spelling_of_isWord (by decide), .unequal, .quoted "it's".toList, by simp⟩
  blank := by decide
  apart := by decide
  blankEnd := rfl

theorem roomy_separated : Separated roomy ['\u2028'] where
  spelled := by
    simp only [roomy, List.forall_mem_cons]
    exact ⟨spelling_of_isWord (by decide), .star, spelling_of_isWord (by decide),
      spelling_of_isWord (by decide), spelling_of_isWord (by decide),
      spelling_of_isWord (by decide), .operator .ne, .quoted "it's".toList, by simp⟩
  blank := by decide
  apart := by decide
  blankEnd := rfl

/-- One query with as few blanks as can be, and with more of every kind. -/
theorem cramped_read_as_roomy :
    spacedText cramped [] = "SELECT*FROM é WHERE a<>'it''s'" ∧
    (∃ tokens, tokenize "SELECT*FROM é WHERE a<>'it''s'" = .ok tokens ∧
      tokens.map Token.kind = cramped.map SpacedToken.kind) ∧
    (Query.parse "SELECT*FROM é WHERE a<>'it''s'").mapError SyntaxError.unplaced =
      (Query.parse (spacedText roomy ['\u2028'])).mapError SyntaxError.unplaced ∧
    (Query.parse (spacedText cramped ['('])).mapError SyntaxError.unplaced =
      (Query.parse (spacedText roomy ['\u2028', '('])).mapError SyntaxError.unplaced := by
  obtain ⟨read, alike, alikeBefore⟩ := spacing_irrelevant
  have text : spacedText cramped [] = "SELECT*FROM é WHERE a<>'it''s'" := by decide
  refine ⟨text, ?_, ?_, ?_⟩
  · rw [← text]
    exact read cramped [] cramped_separated
  · rw [← text]
    exact alike cramped roomy [] _ cramped_separated roomy_separated rfl
  · have before := alikeBefore cramped roomy [] ['\u2028'] ['('] cramped_separated roomy_separated
      rfl (fun last _ => ends_of_head (by rintro c ⟨⟩; decide) last.kind)
      (fun last _ => ends_of_head (by rintro c ⟨⟩; decide) last.kind)
    rwa [List.nil_append, List.singleton_append] at before

end TableQuery.Sql
