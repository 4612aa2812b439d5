import TableQuery.Proofs.Lexeme
import TableQuery.Proofs.Parsing
import TableQuery.Sql.Parse

/-!
# A query as it is written

The written form of a well formed query reads back as that query, and well formed queries are
exactly those that parsing gives. The proof goes through the grammar: each part writes tokens that
derive it, whatever its texts are, and what the grammar derives is parsed.
-/

namespace TableQuery.Sql

open TableQuery.Text

/-! ## Well formed queries -/

/-- The column and the output name can be written; the wildcard is no column. -/
def SelectItem.WellFormed : SelectItem → Prop
  | wildcard => False
  | column source output => isWord source = true ∧ isWord output = true

/-- The column can be written, and so can the pattern. Any text can be a literal. -/
def Condition.WellFormed : Condition → Prop
  | compare column _ _ => isWord column = true
  | like column pattern => isWord column = true ∧ ∃ raw, Pattern.ofText? raw = some pattern

structure Query.WellFormed (query : Query) : Prop where
  select : query.select = [.wildcard] ∨
    query.select ≠ [] ∧ ∀ item ∈ query.select, item.WellFormed
  source : isWord query.source = true ∧ isKeyword query.source = false
  predicate : ∀ given ∈ query.predicate, ∀ condition ∈ given.conditions, condition.WellFormed
  order : ∀ given ∈ query.order, isWord given.column = true

open Grammar

section Image

variable {ks : List TokenKind}

theorem wellFormed_of_isItem {item : SelectItem} (isItem : IsItem ks item)
    (words : ∀ text, .word text ∈ ks → isWord text = true) : item.WellFormed := by
  cases isItem with
  | plain column => exact ⟨words column (by simp), words column (by simp)⟩
  | renamed column output _ => exact ⟨words column (by simp), words output (by simp)⟩

theorem wellFormed_of_isItems {items : List SelectItem} (areItems : IsItems ks items)
    (words : ∀ text, .word text ∈ ks → isWord text = true) :
    items ≠ [] ∧ ∀ item ∈ items, item.WellFormed := by
  induction areItems with
  | last isItem =>
    refine ⟨by simp, fun item member => ?_⟩
    rw [List.mem_singleton] at member
    subst member
    exact wellFormed_of_isItem isItem words
  | more isItem _ ih =>
    refine ⟨by simp, fun item member => ?_⟩
    rcases List.mem_cons.1 member with rfl | member
    · exact wellFormed_of_isItem isItem fun text found => words text (by simp [found])
    · exact (ih fun text found => words text (by simp [found])).2 item member

theorem wellFormed_of_isCondition {condition : Condition} (isCondition : IsCondition ks condition)
    (words : ∀ text, .word text ∈ ks → isWord text = true) : condition.WellFormed := by
  cases isCondition with
  | compare column op _ => exact words column (by simp)
  | like column _ accepted => exact ⟨words column (by simp), _, accepted⟩

theorem wellFormed_of_isChain {chain : List (Connective × Condition)} (isChain : IsChain ks chain)
    (words : ∀ text, .word text ∈ ks → isWord text = true) :
    ∀ condition ∈ chain.map (·.2), condition.WellFormed := by
  induction isChain with
  | done => simp
  | more _ isCondition _ ih =>
    intro condition member
    rcases List.mem_cons.1 member with rfl | member
    · exact wellFormed_of_isCondition isCondition fun text found => words text (by simp [found])
    · exact ih (fun text found => words text (by simp [found])) condition member

/-- What the grammar derives from words and strings can be asked in a text. -/
theorem wellFormed_of_derives {query : Query} (derives : Derives ks query)
    (words : ∀ text, .word text ∈ ks → isWord text = true) : query.WellFormed := by
  cases derives with
  | @query selects wheres orders mark mark' source _ _ _ _ isSelect _ isName isWhere isOrderBy =>
    have wordsSelect : ∀ text, .word text ∈ selects → isWord text = true :=
      fun text found => words text (by simp [found])
    have wordsWhere : ∀ text, .word text ∈ wheres → isWord text = true :=
      fun text found => words text (by simp [found])
    have wordsOrder : ∀ text, .word text ∈ orders → isWord text = true :=
      fun text found => words text (by simp [found])
    constructor
    · cases isSelect with
      | wildcard => exact .inl rfl
      | columns areItems => exact .inr (wellFormed_of_isItems areItems wordsSelect)
    · refine ⟨words source (by simp), ?_⟩
      rw [Bool.eq_false_iff]
      intro reserved
      obtain ⟨keyword, known, spelled⟩ := (isKeyword_iff source).1 reserved
      exact isName keyword known spelled
    · cases isWhere with
      | absent => simp
      | chain _ isCondition isChain =>
        rintro _ ⟨⟩ condition member
        rcases List.mem_cons.1 member with rfl | member
        · exact wellFormed_of_isCondition isCondition
            fun text found => wordsWhere text (by simp [found])
        · exact wellFormed_of_isChain isChain
            (fun text found => wordsWhere text (by simp [found])) condition member
    · cases isOrderBy with
      | absent => simp
      | unmarked column _ _ | marked column _ _ _ =>
        rintro _ ⟨⟩
        exact wordsOrder column (by simp)

end Image

/-! ## Written parts -/

theorem writes_keyword (keyword : String) (known : keyword ∈ keywords) :
    Writes keyword.toList [.word keyword] := by
  have word : ∀ keyword ∈ keywords, isWord keyword = true := by decide
  exact writes_word (word keyword known)

theorem writes_quote (text : String) : Writes (quote text).toList [.quoted text] := by
  have spelling := Spelling.quoted text.toList
  rw [String.ofList_toList] at spelling
  rw [quote, String.toList_ofList]
  exact writes_token spelling

theorem item_written {item : SelectItem} (wellFormed : item.WellFormed) :
    ∃ ks, IsItem ks item ∧ Writes item.text.toList ks := by
  cases item with
  | wildcard => exact wellFormed.elim
  | column source output =>
    obtain ⟨wordSource, wordOutput⟩ := wellFormed
    by_cases same : source = output
    · subst same
      refine ⟨_, .plain source, ?_⟩
      simpa [SelectItem.text] using writes_word wordSource
    · refine ⟨_, @IsItem.renamed source output "AS" rfl, ?_⟩
      have written := writes_space (writes_word wordSource)
        (writes_space (writes_keyword "AS" (by decide)) (writes_word wordOutput))
      simpa [SelectItem.text, same] using written

theorem items_written {items : List SelectItem} (nonempty : items ≠ [])
    (wellFormed : ∀ item ∈ items, item.WellFormed) :
    ∃ ks, IsItems ks items ∧
      Writes (", ".intercalate (items.map SelectItem.text)).toList ks := by
  induction items with
  | nil => exact absurd rfl nonempty
  | cons item rest ih =>
    obtain ⟨ks, isItem, written⟩ := item_written (wellFormed item (by simp))
    cases rest with
    | nil => exact ⟨ks, .last isItem, by simpa using written⟩
    | cons next rest =>
      obtain ⟨more, areItems, writtenMore⟩ := ih (by simp)
        fun item member => wellFormed item (List.mem_cons_of_mem _ member)
      refine ⟨_, .more isItem areItems, ?_⟩
      have both := writes_comma written writtenMore
      simpa using both

/-- A literal is quoted when it could not stand as a word. -/
theorem literal_written (literal : String) :
    ∃ kind, IsLiteral kind literal ∧
      Writes (if isWord literal then literal else quote literal).toList [kind] := by
  by_cases word : isWord literal = true
  · exact ⟨_, .word literal, by simpa [word] using writes_word word⟩
  · exact ⟨_, .quoted literal, by simpa [word] using writes_quote literal⟩

theorem condition_written {condition : Condition} (wellFormed : condition.WellFormed) :
    ∃ ks, IsCondition ks condition ∧ Writes condition.text.toList ks := by
  cases condition with
  | compare column op literal =>
    obtain ⟨kind, isLiteral, written⟩ := literal_written literal
    refine ⟨_, .compare column op isLiteral, ?_⟩
    have all := writes_space (writes_word wellFormed)
      (writes_space (writes_token (.operator op)) written)
    simpa [Condition.text] using all
  | like column pattern =>
    obtain ⟨word, raw, accepted⟩ := wellFormed
    refine ⟨_, @IsCondition.like column "LIKE" raw pattern rfl accepted, ?_⟩
    have all := writes_space (writes_word word)
      (writes_space (writes_keyword "LIKE" (by decide)) (writes_quote raw))
    simpa [Condition.text, Pattern.text_of_ofText? accepted] using all

/-- A chain follows whatever its clause starts with. -/
theorem chain_written {chain : List (Connective × Condition)}
    (wellFormed : ∀ condition ∈ chain.map (·.2), condition.WellFormed) {front : List Char}
    {ks : List TokenKind} (written : Writes front ks) :
    ∃ more, IsChain more chain ∧
      Writes (front ++ (String.join (chain.map fun (connective, condition) =>
        " " ++ connective.text ++ " " ++ condition.text)).toList) (ks ++ more) := by
  induction chain generalizing front ks with
  | nil => exact ⟨[], .done, by simpa using written⟩
  | cons link chain ih =>
    obtain ⟨connective, condition⟩ := link
    obtain ⟨own, isCondition, writtenOwn⟩ := condition_written (wellFormed condition (by simp))
    have known : ∀ connective : Connective, connective.text ∈ keywords := by
      intro connective
      cases connective <;> decide
    have longer := writes_space written
      (writes_space (writes_keyword connective.text (known connective)) writtenOwn)
    obtain ⟨more, isChain, writtenMore⟩ :=
      ih (fun condition member => wellFormed condition (List.mem_cons_of_mem _ member)) longer
    refine ⟨_, .more rfl isCondition isChain, ?_⟩
    simpa using writtenMore

theorem where_written {predicate : Option Predicate}
    (wellFormed : ∀ given ∈ predicate, ∀ condition ∈ given.conditions, condition.WellFormed)
    {front : List Char} {ks : List TokenKind} (written : Writes front ks) :
    ∃ more, IsWhere more predicate ∧
      Writes (front ++ (clause " WHERE " (predicate.map Predicate.text)).toList) (ks ++ more) := by
  cases predicate with
  | none => exact ⟨[], .absent, by simpa [clause] using written⟩
  | some predicate =>
    have conditions := wellFormed predicate rfl
    obtain ⟨own, isCondition, writtenOwn⟩ :=
      condition_written (conditions predicate.first (by simp [Predicate.conditions]))
    have first :=
      writes_space written (writes_space (writes_keyword "WHERE" (by decide)) writtenOwn)
    obtain ⟨more, isChain, writtenMore⟩ := chain_written
      (fun condition member => conditions condition (List.mem_cons_of_mem _ member)) first
    refine ⟨_, @IsWhere.chain _ _ "WHERE" _ _ rfl isCondition isChain, ?_⟩
    simpa [clause, Predicate.text] using writtenMore

theorem orderBy_written {order : Option OrderBy}
    (wellFormed : ∀ given ∈ order, isWord given.column = true)
    {front : List Char} {ks : List TokenKind} (written : Writes front ks) :
    ∃ more, IsOrderBy more order ∧
      Writes (front ++ (clause " ORDER BY " (order.map OrderBy.text)).toList) (ks ++ more) := by
  cases order with
  | none => exact ⟨[], .absent, by simpa [clause] using written⟩
  | some order =>
    obtain ⟨column, direction⟩ := order
    have known : direction.text ∈ keywords := by cases direction <;> decide
    refine ⟨_, @IsOrderBy.marked column direction "ORDER" "BY" direction.text rfl rfl rfl, ?_⟩
    have all := writes_space written (writes_space (writes_keyword "ORDER" (by decide))
      (writes_space (writes_keyword "BY" (by decide))
        (writes_space (writes_word (wellFormed _ rfl)) (writes_keyword direction.text known))))
    simpa [clause, OrderBy.text] using all

theorem select_written {select : List SelectItem}
    (wellFormed : select = [.wildcard] ∨ select ≠ [] ∧ ∀ item ∈ select, item.WellFormed) :
    ∃ ks, IsSelect ks select ∧
      Writes (", ".intercalate (select.map SelectItem.text)).toList ks := by
  rcases wellFormed with rfl | ⟨nonempty, items⟩
  · exact ⟨_, .wildcard, by simpa [SelectItem.text] using writes_token .star⟩
  · obtain ⟨ks, areItems, written⟩ := items_written nonempty items
    exact ⟨ks, .columns areItems, written⟩

/-- A query is written in tokens that the grammar reads as it. -/
theorem query_written {query : Query} (wellFormed : query.WellFormed) :
    ∃ ks, Derives ks query ∧ Writes query.text.toList ks := by
  obtain ⟨selects, isSelect, writtenSelect⟩ := select_written wellFormed.select
  obtain ⟨word, free⟩ := wellFormed.source
  have upToSource := writes_space (writes_keyword "SELECT" (by decide))
    (writes_space writtenSelect
      (writes_space (writes_keyword "FROM" (by decide)) (writes_word word)))
  obtain ⟨wheres, isWhere, upToWhere⟩ := where_written wellFormed.predicate upToSource
  obtain ⟨orders, isOrderBy, all⟩ := orderBy_written wellFormed.order upToWhere
  have isName : ∀ keyword ∈ keywords, ¬ Spells query.source keyword := by
    intro keyword known spelled
    have reserved := (isKeyword_iff query.source).2 ⟨keyword, known, spelled⟩
    rw [free] at reserved
    cases reserved
  refine ⟨_, @Derives.query _ _ _ "SELECT" "FROM" _ _ _ _ rfl isSelect rfl isName isWhere isOrderBy,
    ?_⟩
  simpa [Query.text] using all

/-! ## Reading back -/

/-- To read a written text back, it is enough to know its tokens. -/
theorem parse_of_derives {text : String} {ks : List TokenKind} {query : Query}
    (derives : Derives ks query) (written : Writes text.toList ks) :
    Query.parse text = .ok query := by
  obtain ⟨tokens, scanned, kinds⟩ := tokenize_of_writes written
  unfold Query.parse
  rw [scanned, ok_bind]
  exact ofTokens_complete derives kinds

/-- What is written for a query is read as that query. -/
theorem parse_text {query : Query} (wellFormed : query.WellFormed) :
    Query.parse query.text = .ok query := by
  obtain ⟨ks, derives, written⟩ := query_written wellFormed
  exact parse_of_derives derives written

/-- Nothing is accepted that could not be written again. -/
theorem wellFormed_of_parse {text : String} {query : Query}
    (success : Query.parse text = .ok query) : query.WellFormed := by
  unfold Query.parse at success
  obtain ⟨tokens, scanned, read⟩ := ok_of_bind_ok success
  exact wellFormed_of_derives (ofTokens_sound read) fun text member => isWord_of_scan scanned member

/-- The query that the parts of an explanation make up; a refusal has no parts. -/
def Explanation.sentence? : Explanation → Option String
  | accepted select source filter order =>
    some ("SELECT " ++ ", ".intercalate select ++ " FROM " ++ source ++
      clause " WHERE " filter ++ clause " ORDER BY " order)
  | rejected _ => none

/-- Well formed queries are those that parsing gives, and each of them is read back from its
explanation. A chain of conditions is read back wherever it was accepted. -/
theorem wellFormed_iff_reads_back :
    (∀ query : Query, query.WellFormed ↔ ∃ text, Query.parse text = .ok query) ∧
    (∀ query : Query, query.WellFormed → ∃ sentence,
      (Explanation.ofQuery query).sentence? = some sentence ∧
        Query.parse sentence = .ok query) ∧
    ∀ (text : String) (query : Query) (predicate : Predicate),
      Query.parse text = .ok query → query.predicate = some predicate →
        Query.parse ("SELECT * FROM t WHERE " ++ predicate.text) =
          .ok ⟨[.wildcard], "t", some predicate, none⟩ := by
  refine ⟨fun query => ⟨fun wellFormed => ⟨query.text, parse_text wellFormed⟩, ?_⟩, ?_, ?_⟩
  · rintro ⟨text, success⟩
    exact wellFormed_of_parse success
  · intro query wellFormed
    exact ⟨query.text, rfl, parse_text wellFormed⟩
  · intro text query predicate success given
    have conditions := (wellFormed_of_parse success).predicate predicate given
    have wellFormed : Query.WellFormed ⟨[.wildcard], "t", some predicate, none⟩ := by
      refine ⟨.inl rfl, ?_, ?_, by simp⟩
      · change isWord "t" = true ∧ isKeyword "t" = false
        decide
      · rintro _ ⟨⟩
        exact conditions
    have text : Query.text ⟨[.wildcard], "t", some predicate, none⟩ =
        "SELECT * FROM t WHERE " ++ predicate.text := by
      rw [← String.toList_inj]
      simp [Query.text, clause, SelectItem.text]
    rw [← text]
    exact parse_text wellFormed

/-- Its names are keywords, and its texts hold quotes, a comma and an operator. -/
def quotedQuery : Query :=
  ⟨[.column "a" "AS", .column "b" "b"], "t.csv",
    some ⟨.compare "x" .ne "it's, <", [(.or, .like "from" (.enclosed "J'" "n"))]⟩,
    some ⟨"desc", .descending⟩⟩

theorem quotedQuery_wellFormed : quotedQuery.WellFormed := by
  refine ⟨.inr ⟨by decide, ?_⟩, by decide, ?_, ?_⟩
  · exact List.forall_mem_cons.2
      ⟨⟨by decide, by decide⟩, List.forall_mem_singleton.2 ⟨by decide, by decide⟩⟩
  · rintro _ ⟨⟩
    exact List.forall_mem_cons.2
      ⟨(by decide : isWord "x" = true), List.forall_mem_singleton.2 ⟨by decide, "J'%n", by decide⟩⟩
  · rintro _ ⟨⟩
    decide

def quotedText : String :=
  "SELECT a AS AS, b FROM t.csv WHERE x != 'it''s, <' OR from LIKE 'J''%n' ORDER BY desc DESC"

/-- Keywords stand for names, and texts look like more of the query. -/
theorem quotedQuery_reads_back :
    quotedQuery.WellFormed ∧ (Explanation.ofQuery quotedQuery).sentence? = some quotedText ∧
    Query.parse quotedText = .ok quotedQuery ∧
    ∃ predicate, quotedQuery.predicate = some predicate ∧
      Query.parse ("SELECT * FROM t WHERE " ++ predicate.text) =
        .ok ⟨[.wildcard], "t", some predicate, none⟩ := by
  have written : (Explanation.ofQuery quotedQuery).sentence? = some quotedText := by decide
  obtain ⟨sentence, same, back⟩ :=
    wellFormed_iff_reads_back.2.1 quotedQuery quotedQuery_wellFormed
  rw [written] at same
  cases same
  exact ⟨quotedQuery_wellFormed, written, back, _, rfl,
    wellFormed_iff_reads_back.2.2 _ quotedQuery _ back rfl⟩

end TableQuery.Sql
