import TableQuery.Proofs.Grammar

/-!
# Reading what the grammar derives

A derivation is read back, whatever follows, as long as the next token does not continue the part
(`Stops`). Inside a query the next token never does: a part ends before a comma, a keyword or the
end, and no word spells two keywords. Hence parsing succeeds exactly on the derivable texts, and
token kinds derive at most one query.
-/

namespace TableQuery.Sql

open Grammar

/-! ## The parts of a query -/

/-- The tokens cannot go on with a comma or one of the keywords. -/
def Stops (continuations : List String) (tokens : List Token) : Prop :=
  (∀ position more, tokens ≠ ⟨.comma, position⟩ :: more) ∧
    ∀ keyword ∈ continuations, skipKeyword? keyword tokens = none

theorem stops_nil (continuations : List String) : Stops continuations [] :=
  ⟨by simp, fun _ _ => rfl⟩

/-- One keyword is no other, so it stops the reading of a list that another would go on with. -/
theorem stops_of_spells {keyword word : String} {continuations : List String}
    (spelled : Spells word keyword) (known : keyword ∈ keywords)
    (others : ∀ other ∈ continuations, other ∈ keywords ∧ keyword ≠ other)
    (position : Nat) (tokens : List Token) :
    Stops continuations (⟨.word word, position⟩ :: tokens) :=
  ⟨by simp, fun other member =>
    skipKeyword?_other spelled known (others other member).1 (others other member).2 position
      tokens⟩

/-- Tokens of known kinds are known but for their positions. -/
theorem tokens_of_kinds {kind : TokenKind} {ks : List TokenKind} {tokens : List Token}
    (kinds : tokens.map Token.kind = kind :: ks) :
    ∃ position more, tokens = ⟨kind, position⟩ :: more ∧ more.map Token.kind = ks := by
  obtain ⟨⟨_, position⟩, more, split, rfl, tail⟩ := List.map_eq_cons_iff.1 kinds
  exact ⟨position, more, split, tail⟩

@[simp]
theorem readName_word (expected text : String) (position : Nat) (rest : List Token) :
    readName expected (⟨.word text, position⟩ :: rest) = .ok (text, rest) := rfl

theorem skipKeyword?_spelled {keyword word : String} (spelled : Spells word keyword)
    (known : keyword ∈ keywords) (position : Nat) (rest : List Token) :
    skipKeyword? keyword (⟨.word word, position⟩ :: rest) = some rest :=
  (skipKeyword?_eq_some known).2 ⟨word, position, rfl, spelled⟩

/-- All that the grammar derives is read, as long as what follows does not go on with it. -/
theorem readItem_complete {ks : List TokenKind} {item : SelectItem} (isItem : IsItem ks item)
    {taken : List Token} (kinds : taken.map Token.kind = ks) {rest : List Token}
    (stops : skipKeyword? "AS" rest = none) : readItem (taken ++ rest) = .ok (item, rest) := by
  cases isItem with
  | plain column =>
    obtain ⟨position, more, rfl, tail⟩ := tokens_of_kinds kinds
    obtain rfl := List.map_eq_nil_iff.1 tail
    simp only [List.singleton_append, readItem, readName_word, ok_bind, stops]
    rfl
  | @renamed column output mark spelled =>
    obtain ⟨position, more, rfl, tail⟩ := tokens_of_kinds kinds
    obtain ⟨place, more', rfl, tail'⟩ := tokens_of_kinds tail
    obtain ⟨position', last, rfl, none⟩ := tokens_of_kinds tail'
    obtain rfl := List.map_eq_nil_iff.1 none
    simp only [List.cons_append, List.nil_append, readItem, readName_word, ok_bind,
      skipKeyword?_spelled spelled (by decide)]
    rfl

theorem readItems_of_last {tokens rest : List Token} {item : SelectItem}
    (read : readItem tokens = .ok (item, rest))
    (stops : ∀ position more, rest ≠ ⟨.comma, position⟩ :: more) :
    readItems tokens = .ok ([item], rest) := by
  rw [readItems]
  split
  · next failed =>
    rw [read] at failed
    cases failed
  · next position more found =>
    rw [read] at found
    cases found
    exact absurd rfl (stops position more)
  · next found =>
    rw [read] at found
    cases found
    rfl

theorem readItems_of_comma {tokens behind rest : List Token} {item : SelectItem}
    {items : List SelectItem} {position : Nat}
    (read : readItem tokens = .ok (item, ⟨.comma, position⟩ :: behind))
    (readMore : readItems behind = .ok (items, rest)) :
    readItems tokens = .ok (item :: items, rest) := by
  rw [readItems]
  split
  · next failed =>
    rw [read] at failed
    cases failed
  · next found =>
    rw [read] at found
    cases found
    rw [readMore]
    rfl
  · next free found =>
    rw [read] at found
    cases found
    exact absurd rfl (free position behind)

theorem readItems_complete {ks : List TokenKind} {items : List SelectItem}
    (areItems : IsItems ks items) {taken : List Token} (kinds : taken.map Token.kind = ks)
    {rest : List Token} (stops : Stops ["AS"] rest) :
    readItems (taken ++ rest) = .ok (items, rest) := by
  induction areItems generalizing taken with
  | last isItem =>
    exact readItems_of_last (readItem_complete isItem kinds (stops.2 "AS" (by simp))) stops.1
  | more isItem _ ih =>
    obtain ⟨front, back, rfl, kindsFront, kindsBack⟩ := List.map_eq_append_iff.1 kinds
    obtain ⟨position, more, rfl, kindsMore⟩ := tokens_of_kinds kindsBack
    rw [List.append_assoc, List.cons_append]
    -- A comma ends the item, whatever its last word is.
    exact readItems_of_comma (readItem_complete isItem kindsFront rfl) (ih kindsMore)

theorem readSelect_complete {ks : List TokenKind} {select : List SelectItem}
    (isSelect : IsSelect ks select) {taken : List Token} (kinds : taken.map Token.kind = ks)
    {rest : List Token} (stops : Stops ["AS"] rest) :
    readSelect (taken ++ rest) = .ok (select, rest) := by
  cases isSelect with
  | wildcard =>
    obtain ⟨position, more, rfl, tail⟩ := tokens_of_kinds kinds
    obtain rfl := List.map_eq_nil_iff.1 tail
    rfl
  | columns areItems =>
    have read := readItems_complete areItems kinds stops
    unfold readSelect
    split
    · next position behind same =>
      rw [same] at read
      exact absurd read (by simp [readItems, readItem, readName, bind, Except.bind])
    · exact read

theorem readCondition_complete {ks : List TokenKind} {condition : Condition}
    (isCondition : IsCondition ks condition) {taken : List Token}
    (kinds : taken.map Token.kind = ks) (rest : List Token) :
    readCondition (taken ++ rest) = .ok (condition, rest) := by
  cases isCondition with
  | @compare column op kind literal isLiteral =>
    obtain ⟨position, more, rfl, tail⟩ := tokens_of_kinds kinds
    obtain ⟨place, more', rfl, tail'⟩ := tokens_of_kinds tail
    obtain ⟨position', last, rfl, none⟩ := tokens_of_kinds tail'
    obtain rfl := List.map_eq_nil_iff.1 none
    cases isLiteral <;> rfl
  | @like column mark written pattern spelled accepted =>
    obtain ⟨position, more, rfl, tail⟩ := tokens_of_kinds kinds
    obtain ⟨place, more', rfl, tail'⟩ := tokens_of_kinds tail
    obtain ⟨position', last, rfl, none⟩ := tokens_of_kinds tail'
    obtain rfl := List.map_eq_nil_iff.1 none
    simp only [List.cons_append, List.nil_append, readCondition, readName_word, ok_bind,
      skipKeyword?_spelled spelled (by decide), accepted]
    rfl

theorem readConnective?_spelled {mark : String} {connective : Connective}
    (spelled : Spells mark connective.text) (position : Nat) (rest : List Token) :
    readConnective? (⟨.word mark, position⟩ :: rest) = some (connective, rest) := by
  unfold readConnective?
  cases connective with
  | and =>
    have found : skipKeyword? "AND" (⟨.word mark, position⟩ :: rest) = some rest :=
      skipKeyword?_spelled spelled (by decide) position rest
    rw [found]
  | or =>
    have missed : skipKeyword? "AND" (⟨.word mark, position⟩ :: rest) = none :=
      skipKeyword?_other spelled (by decide) (by decide) (by decide) position rest
    have found : skipKeyword? "OR" (⟨.word mark, position⟩ :: rest) = some rest :=
      skipKeyword?_spelled spelled (by decide) position rest
    rw [missed, found]

theorem readConditions_complete {ks : List TokenKind} {chain : List (Connective × Condition)}
    (isChain : IsChain ks chain) {taken : List Token} (kinds : taken.map Token.kind = ks)
    {rest : List Token} (stops : Stops ["AND", "OR"] rest) :
    readConditions (taken ++ rest) = .ok (chain, rest) := by
  induction isChain generalizing taken with
  | done =>
    obtain rfl := List.map_eq_nil_iff.1 kinds
    have none : readConnective? rest = none := by
      simp [readConnective?, stops.2 "AND" (by simp), stops.2 "OR" (by simp)]
    rw [List.nil_append, readConditions]
    split
    · rfl
    · next found =>
      rw [none] at found
      cases found
  | more spelled isCondition _ ih =>
    obtain ⟨position, behind, rfl, tail⟩ := tokens_of_kinds kinds
    obtain ⟨front, back, rfl, kindsFront, kindsBack⟩ := List.map_eq_append_iff.1 tail
    have joined := readConnective?_spelled spelled position (front ++ (back ++ rest))
    have read := readCondition_complete isCondition kindsFront (back ++ rest)
    rw [List.cons_append, List.append_assoc, readConditions]
    split
    · next found =>
      rw [joined] at found
      cases found
    · next found =>
      rw [joined] at found
      cases found
      split
      · next failed =>
        rw [read] at failed
        cases failed
      · next found =>
        rw [read] at found
        cases found
        rw [ih kindsBack]
        rfl

theorem readWhere_complete {ks : List TokenKind} {predicate : Option Predicate}
    (isWhere : IsWhere ks predicate) {taken : List Token} (kinds : taken.map Token.kind = ks)
    {rest : List Token} (stops : Stops ["WHERE", "AND", "OR"] rest) :
    readWhere (taken ++ rest) = .ok (predicate, rest) := by
  unfold readWhere
  cases isWhere with
  | absent =>
    obtain rfl := List.map_eq_nil_iff.1 kinds
    rw [List.nil_append, stops.2 "WHERE" (by simp)]
  | chain spelled isCondition isChain =>
    obtain ⟨position, behind, rfl, tail⟩ := tokens_of_kinds kinds
    obtain ⟨front, back, rfl, kindsFront, kindsBack⟩ := List.map_eq_append_iff.1 tail
    have stopsChain : Stops ["AND", "OR"] rest :=
      ⟨stops.1, fun keyword member => stops.2 keyword (List.mem_cons_of_mem _ member)⟩
    rw [List.cons_append, List.append_assoc, skipKeyword?_spelled spelled (by decide)]
    simp only [readCondition_complete isCondition kindsFront,
      readConditions_complete isChain kindsBack stopsChain, ok_bind]
    rfl

theorem readOrder_marked {mark : String} {direction : Direction}
    (spelled : Spells mark direction.text) (column : String) (position place : Nat) :
    readOrder [⟨.word column, position⟩, ⟨.word mark, place⟩] = .ok (⟨column, direction⟩, []) := by
  unfold readOrder
  cases direction with
  | ascending =>
    have missed : skipKeyword? "DESC" [⟨.word mark, place⟩] = none :=
      skipKeyword?_other spelled (by decide) (by decide) (by decide) place []
    have found : skipKeyword? "ASC" [⟨.word mark, place⟩] = some [] :=
      skipKeyword?_spelled spelled (by decide) place []
    simp only [readName_word, ok_bind, missed, found]
    rfl
  | descending =>
    have found : skipKeyword? "DESC" [⟨.word mark, place⟩] = some [] :=
      skipKeyword?_spelled spelled (by decide) place []
    simp only [readName_word, ok_bind, found]
    rfl

/-- The last part of a query has nothing behind it. -/
theorem readOrderBy_complete {ks : List TokenKind} {order : Option OrderBy}
    (isOrderBy : IsOrderBy ks order) {taken : List Token} (kinds : taken.map Token.kind = ks) :
    readOrderBy taken = .ok (order, []) := by
  unfold readOrderBy
  cases isOrderBy with
  | absent =>
    obtain rfl := List.map_eq_nil_iff.1 kinds
    rfl
  | unmarked column spelled spelled' =>
    obtain ⟨position, more, rfl, tail⟩ := tokens_of_kinds kinds
    obtain ⟨position', more', rfl, tail'⟩ := tokens_of_kinds tail
    obtain ⟨place, last, rfl, none⟩ := tokens_of_kinds tail'
    obtain rfl := List.map_eq_nil_iff.1 none
    rw [skipKeyword?_spelled spelled (by decide)]
    simp only [readKeyword, skipKeyword?_spelled spelled' (by decide), ok_bind]
    rfl
  | marked column spelled spelled' written =>
    obtain ⟨position, more, rfl, tail⟩ := tokens_of_kinds kinds
    obtain ⟨position', more', rfl, tail'⟩ := tokens_of_kinds tail
    obtain ⟨place, more'', rfl, tail''⟩ := tokens_of_kinds tail'
    obtain ⟨place', last, rfl, none⟩ := tokens_of_kinds tail''
    obtain rfl := List.map_eq_nil_iff.1 none
    rw [skipKeyword?_spelled spelled (by decide)]
    simp only [readKeyword, skipKeyword?_spelled spelled' (by decide), ok_bind,
      readOrder_marked written]
    rfl

/-! ## The whole query -/

/-- An ORDER BY clause starts with its keyword, so that it ends the clause in front of it. -/
theorem stops_of_isOrderBy {ks : List TokenKind} {order : Option OrderBy}
    (isOrderBy : IsOrderBy ks order) {tokens : List Token} (kinds : tokens.map Token.kind = ks) :
    Stops ["WHERE", "AND", "OR"] tokens := by
  cases isOrderBy with
  | absent =>
    obtain rfl := List.map_eq_nil_iff.1 kinds
    exact stops_nil _
  | unmarked _ spelled _ | marked _ spelled _ _ =>
    obtain ⟨position, more, rfl, _⟩ := tokens_of_kinds kinds
    exact stops_of_spells spelled (by decide) (by decide) position more

/-- Every query of the grammar is read. -/
theorem ofTokens_complete {ks : List TokenKind} {query : Query} (derives : Derives ks query)
    {tokens : List Token} (kinds : tokens.map Token.kind = ks) :
    Query.ofTokens tokens = .ok query := by
  cases derives with
  | @query selects wheres orders mark mark' source select predicate order spelled isSelect
      spelled' isName isWhere isOrderBy =>
    rw [List.append_assoc] at kinds
    obtain ⟨position, behind, rfl, tail⟩ := tokens_of_kinds kinds
    obtain ⟨front, more, rfl, kindsFront, tail'⟩ := List.map_eq_append_iff.1 tail
    obtain ⟨position', more', rfl, tail''⟩ := tokens_of_kinds tail'
    obtain ⟨place, last, rfl, final⟩ := tokens_of_kinds tail''
    obtain ⟨middle, back, rfl, kindsMiddle, kindsBack⟩ := List.map_eq_append_iff.1 final
    have stopsSelect : Stops ["AS"]
        (⟨.word mark', position'⟩ :: ⟨.word source, place⟩ :: (middle ++ back)) :=
      stops_of_spells spelled' (by decide) (by decide) position' _
    have readFile : readSource (⟨.word source, place⟩ :: (middle ++ back)) =
        .ok (source, middle ++ back) := readSource_eq_ok.2 ⟨place, rfl, isName⟩
    have readMiddle := readWhere_complete isWhere kindsMiddle
      (stops_of_isOrderBy isOrderBy kindsBack)
    simp only [Query.ofTokens, readKeyword, skipKeyword?_spelled spelled (by decide),
      readSelect_complete isSelect kindsFront stopsSelect,
      skipKeyword?_spelled spelled' (by decide), readFile, readMiddle,
      readOrderBy_complete isOrderBy kindsBack, ok_bind]
    rfl

theorem ofTokens_eq_ok_iff {tokens : List Token} {query : Query} :
    Query.ofTokens tokens = .ok query ↔ Derives (tokens.map Token.kind) query :=
  ⟨ofTokens_sound, fun derives => ofTokens_complete derives rfl⟩

/-- No list of tokens writes two queries. -/
theorem derives_unique {ks : List TokenKind} {query other : Query} (derives : Derives ks query)
    (derivesOther : Derives ks other) : query = other := by
  have kinds : (ks.map fun kind => Token.mk kind 0).map Token.kind = ks := by
    simp [Function.comp_def]
  have read := ofTokens_complete derives kinds
  rw [ofTokens_complete derivesOther kinds] at read
  exact (Except.ok.inj read).symm

/-- A text is accepted exactly if its tokens have a derivation, and then with the query that they
derive, which is the only one. -/
theorem parse_eq_ok_iff_derives :
    (∀ (text : String) (query : Query), Query.parse text = .ok query ↔
      ∃ tokens, tokenize text = .ok tokens ∧ Derives (tokens.map Token.kind) query) ∧
    ∀ (ks : List TokenKind) (query other : Query),
      Derives ks query → Derives ks other → query = other := by
  refine ⟨fun text query => ?_, fun ks query other => derives_unique⟩
  unfold Query.parse
  constructor
  · intro success
    obtain ⟨tokens, scanned, read⟩ := ok_of_bind_ok success
    exact ⟨tokens, scanned, ofTokens_eq_ok_iff.1 read⟩
  · rintro ⟨tokens, scanned, derives⟩
    rw [scanned, ok_bind]
    exact ofTokens_eq_ok_iff.2 derives

/-- Keywords stand for the column and its alias here, and no other reading of them is left. -/
theorem parse_keyword_columns :
    Query.parse "SELECT as AS from FROM t" = .ok ⟨[.column "as" "from"], "t", none, none⟩ ∧
      ¬ Derives [.word "SELECT", .word "as", .word "AS", .word "from", .word "FROM", .word "t"]
        ⟨[.column "as" "as"], "t", none, none⟩ := by
  have derives : Derives
      [.word "SELECT", .word "as", .word "AS", .word "from", .word "FROM", .word "t"]
      ⟨[.column "as" "from"], "t", none, none⟩ :=
    @Derives.query [.word "as", .word "AS", .word "from"] [] [] _ _ _ _ _ _ rfl
      (.columns (.last (.renamed "as" "from" rfl))) rfl (by decide) .absent .absent
  constructor
  · refine (parse_eq_ok_iff_derives.1 _ _).2 ⟨[⟨.word "SELECT", 0⟩, ⟨.word "as", 7⟩,
      ⟨.word "AS", 10⟩, ⟨.word "from", 13⟩, ⟨.word "FROM", 18⟩, ⟨.word "t", 23⟩], ?_, derives⟩
    decide +kernel
  · intro derivesOther
    exact absurd (parse_eq_ok_iff_derives.2 _ _ _ derives derivesOther) (by decide)

end TableQuery.Sql
