import TableQuery.Proofs.Keyword
import TableQuery.Proofs.Outcome

/-!
# The grammar of queries

The relations of `Grammar` say which token kinds write which part of a query. They are stated by
concatenation alone: no part knows what stands behind it, and nothing is tried before anything
else. The readers of `TableQuery.Sql.Parse` go from left to right instead and decide every choice
on the next token. What a reader takes is a derivation nevertheless (`ofTokens_sound`).
-/

namespace TableQuery.Sql

namespace Grammar

inductive IsItem : List TokenKind → SelectItem → Prop
  | plain (column : String) : IsItem [.word column] (.column column column)
  | renamed (column output : String) {mark : String} (spelled : Spells mark "AS") :
      IsItem [.word column, .word mark, .word output] (.column column output)

inductive IsItems : List TokenKind → List SelectItem → Prop
  | last {ks : List TokenKind} {item : SelectItem} (isItem : IsItem ks item) : IsItems ks [item]
  | more {ks more : List TokenKind} {item : SelectItem} {items : List SelectItem}
      (isItem : IsItem ks item) (areItems : IsItems more items) :
      IsItems (ks ++ .comma :: more) (item :: items)

inductive IsSelect : List TokenKind → List SelectItem → Prop
  | wildcard : IsSelect [.star] [.wildcard]
  | columns {ks : List TokenKind} {items : List SelectItem} (areItems : IsItems ks items) :
      IsSelect ks items

inductive IsLiteral : TokenKind → String → Prop
  | word (text : String) : IsLiteral (.word text) text
  | quoted (text : String) : IsLiteral (.quoted text) text

/-- A comparison with a literal, or a LIKE with a quoted pattern. -/
inductive IsCondition : List TokenKind → Condition → Prop
  | compare (column : String) (op : Comparator) {kind : TokenKind} {literal : String}
      (isLiteral : IsLiteral kind literal) :
      IsCondition [.word column, .operator op, kind] (.compare column op literal)
  | like (column : String) {mark written : String} {pattern : Pattern}
      (spelled : Spells mark "LIKE") (accepted : Pattern.ofText? written = some pattern) :
      IsCondition [.word column, .word mark, .quoted written] (.like column pattern)

inductive IsChain : List TokenKind → List (Connective × Condition) → Prop
  | done : IsChain [] []
  | more {ks more : List TokenKind} {mark : String} {connective : Connective}
      {condition : Condition} {chain : List (Connective × Condition)}
      (spelled : Spells mark connective.text) (isCondition : IsCondition ks condition)
      (isChain : IsChain more chain) :
      IsChain (.word mark :: ks ++ more) ((connective, condition) :: chain)

inductive IsWhere : List TokenKind → Option Predicate → Prop
  | absent : IsWhere [] none
  | chain {ks more : List TokenKind} {mark : String} {first : Condition}
      {rest : List (Connective × Condition)} (spelled : Spells mark "WHERE")
      (isCondition : IsCondition ks first) (isChain : IsChain more rest) :
      IsWhere (.word mark :: ks ++ more) (some ⟨first, rest⟩)

/-- Nothing, or ORDER BY with its column, and its direction if that is written. -/
inductive IsOrderBy : List TokenKind → Option OrderBy → Prop
  | absent : IsOrderBy [] none
  | unmarked (column : String) {mark mark' : String} (spelled : Spells mark "ORDER")
      (spelled' : Spells mark' "BY") :
      IsOrderBy [.word mark, .word mark', .word column] (some ⟨column, .ascending⟩)
  | marked (column : String) {direction : Direction} {mark mark' ending : String}
      (spelled : Spells mark "ORDER") (spelled' : Spells mark' "BY")
      (spelledEnding : Spells ending direction.text) :
      IsOrderBy [.word mark, .word mark', .word column, .word ending] (some ⟨column, direction⟩)

/-- The token kinds write the query. The file can be any word but a keyword. -/
inductive Derives : List TokenKind → Query → Prop
  | query {selects wheres orders : List TokenKind} {mark mark' source : String}
      {select : List SelectItem} {predicate : Option Predicate} {order : Option OrderBy}
      (spelled : Spells mark "SELECT") (isSelect : IsSelect selects select)
      (spelled' : Spells mark' "FROM")
      (isName : ∀ keyword ∈ keywords, ¬ Spells source keyword)
      (isWhere : IsWhere wheres predicate) (isOrderBy : IsOrderBy orders order) :
      Derives (.word mark :: selects ++ .word mark' :: .word source :: wheres ++ orders)
        ⟨select, source, predicate, order⟩

end Grammar

open Grammar

/-! ## What a reader takes -/

/-- The tokens start with those of a value, and `rest` stands behind them. -/
def Front {α : Type} (derives : List TokenKind → α → Prop) (tokens rest : List Token)
    (value : α) : Prop :=
  ∃ taken, tokens = taken ++ rest ∧ derives (taken.map Token.kind) value

theorem readName_eq_ok {expected text : String} {tokens rest : List Token} :
    readName expected tokens = .ok (text, rest) ↔
      ∃ position, tokens = ⟨.word text, position⟩ :: rest := by
  constructor
  · intro h
    fun_cases readName expected tokens with
    | case1 word position more =>
      cases h
      exact ⟨position, rfl⟩
    | case2 => simp_all [readName]
  · rintro ⟨position, rfl⟩
    rfl

/-- The name of a file is the one word that must not be a keyword. -/
theorem readSource_eq_ok {source : String} {tokens rest : List Token} :
    readSource tokens = .ok (source, rest) ↔
      ∃ position, tokens = ⟨.word source, position⟩ :: rest ∧
        ∀ keyword ∈ keywords, ¬ Spells source keyword := by
  constructor
  · intro h
    fun_cases readSource tokens with
    | case1 => simp_all [readSource]
    | case2 word position more free =>
      simp only [readSource, free] at h
      cases h
      exact ⟨position, rfl, fun keyword known spelled =>
        free ((isKeyword_iff source).2 ⟨keyword, known, spelled⟩)⟩
    | case3 => simp_all [readSource]
  · rintro ⟨position, rfl, isName⟩
    have free : ¬ isKeyword source = true := fun h => by
      obtain ⟨keyword, known, spelled⟩ := (isKeyword_iff source).1 h
      exact isName keyword known spelled
    simp [readSource, free]

theorem readKeyword_eq_ok {keyword : String} {tokens rest : List Token} :
    readKeyword keyword tokens = .ok rest ↔ skipKeyword? keyword tokens = some rest := by
  unfold readKeyword
  split <;> simp_all

theorem readItem_sound {tokens rest : List Token} {item : SelectItem}
    (success : readItem tokens = .ok (item, rest)) : Front IsItem tokens rest item := by
  unfold readItem at success
  obtain ⟨⟨source, behind⟩, named, decided⟩ := ok_of_bind_ok success
  obtain ⟨position, rfl⟩ := readName_eq_ok.1 named
  dsimp only at decided
  split at decided
  · next more skipped =>
    obtain ⟨mark, place, rfl, spelled⟩ := (skipKeyword?_eq_some (by decide)).1 skipped
    obtain ⟨⟨output, last⟩, renamed, done⟩ := ok_of_bind_ok decided
    obtain ⟨position', rfl⟩ := readName_eq_ok.1 renamed
    cases done
    exact ⟨[⟨.word source, position⟩, ⟨.word mark, place⟩, ⟨.word output, position'⟩], rfl,
      .renamed source output spelled⟩
  · cases decided
    exact ⟨[⟨.word source, position⟩], rfl, .plain source⟩

/-- What has been read as items is derived as such. The induction follows the commas. -/
theorem readItems_sound {tokens rest : List Token} {items : List SelectItem}
    (success : readItems tokens = .ok (items, rest)) : Front IsItems tokens rest items := by
  fun_induction readItems tokens generalizing items rest with
  | case1 => cases success
  | case2 tokens item position behind read ih =>
    obtain ⟨⟨more, last⟩, readMore, done⟩ := ok_of_bind_ok success
    cases done
    obtain ⟨taken, rfl, isItem⟩ := readItem_sound read
    obtain ⟨takenMore, rfl, areItems⟩ := ih readMore
    refine ⟨taken ++ ⟨.comma, position⟩ :: takenMore, by simp, ?_⟩
    rw [List.map_append, List.map_cons]
    exact .more isItem areItems
  | case3 tokens item behind _ read =>
    cases success
    obtain ⟨taken, split, isItem⟩ := readItem_sound read
    exact ⟨taken, split, .last isItem⟩

theorem readSelect_sound {tokens rest : List Token} {select : List SelectItem}
    (success : readSelect tokens = .ok (select, rest)) : Front IsSelect tokens rest select := by
  unfold readSelect at success
  split at success
  · next position behind =>
    cases success
    exact ⟨[⟨.star, position⟩], rfl, .wildcard⟩
  · obtain ⟨taken, split, areItems⟩ := readItems_sound success
    exact ⟨taken, split, .columns areItems⟩

/-- Behind a column stands either a LIKE with its pattern or an operator with its literal. -/
theorem readCondition_sound {tokens rest : List Token} {condition : Condition}
    (success : readCondition tokens = .ok (condition, rest)) :
    Front IsCondition tokens rest condition := by
  unfold readCondition at success
  obtain ⟨⟨column, behind⟩, named, decided⟩ := ok_of_bind_ok success
  obtain ⟨position, rfl⟩ := readName_eq_ok.1 named
  dsimp only at decided
  split at decided
  · next written place more skipped =>
    obtain ⟨mark, place', rfl, spelled⟩ := (skipKeyword?_eq_some (by decide)).1 skipped
    split at decided
    · next pattern accepted =>
      cases decided
      exact ⟨[⟨.word column, position⟩, ⟨.word mark, place'⟩, ⟨.quoted written, place⟩], rfl,
        .like column spelled accepted⟩
    · cases decided
  · cases decided
  · split at decided
    · next op place literal place' more _ =>
      cases decided
      exact ⟨[⟨.word column, position⟩, ⟨.operator op, place⟩, ⟨.quoted literal, place'⟩], rfl,
        .compare column op (.quoted literal)⟩
    · next op place literal place' more _ =>
      cases decided
      exact ⟨[⟨.word column, position⟩, ⟨.operator op, place⟩, ⟨.word literal, place'⟩], rfl,
        .compare column op (.word literal)⟩
    · cases decided
    · cases decided

theorem readConnective?_eq_some {tokens rest : List Token} {connective : Connective}
    (h : readConnective? tokens = some (connective, rest)) :
    ∃ mark position, tokens = ⟨.word mark, position⟩ :: rest ∧ Spells mark connective.text := by
  unfold readConnective? at h
  split at h
  · next skipped =>
    cases h
    exact (skipKeyword?_eq_some (by decide)).1 skipped
  · next skipped =>
    cases h
    exact (skipKeyword?_eq_some (by decide)).1 skipped
  · cases h

/-- The induction follows the connectives. -/
theorem readConditions_sound {tokens rest : List Token}
    {chain : List (Connective × Condition)}
    (success : readConditions tokens = .ok (chain, rest)) : Front IsChain tokens rest chain := by
  fun_induction readConditions tokens generalizing chain rest with
  | case1 tokens none =>
    cases success
    exact ⟨[], rfl, .done⟩
  | case2 => cases success
  | case3 tokens connective behind joined condition last read ih =>
    obtain ⟨⟨more, final⟩, readMore, done⟩ := ok_of_bind_ok success
    cases done
    obtain ⟨mark, position, rfl, spelled⟩ := readConnective?_eq_some joined
    obtain ⟨taken, rfl, isCondition⟩ := readCondition_sound read
    obtain ⟨takenMore, rfl, isChain⟩ := ih readMore
    refine ⟨⟨.word mark, position⟩ :: taken ++ takenMore, by simp, ?_⟩
    rw [List.map_append, List.map_cons]
    exact .more spelled isCondition isChain

theorem readWhere_sound {tokens rest : List Token} {predicate : Option Predicate}
    (success : readWhere tokens = .ok (predicate, rest)) :
    Front IsWhere tokens rest predicate := by
  unfold readWhere at success
  split at success
  · cases success
    exact ⟨[], rfl, .absent⟩
  · next behind skipped =>
    obtain ⟨mark, position, rfl, spelled⟩ := (skipKeyword?_eq_some (by decide)).1 skipped
    obtain ⟨⟨first, more⟩, readFirst, decided⟩ := ok_of_bind_ok success
    obtain ⟨⟨chain, last⟩, readMore, done⟩ := ok_of_bind_ok decided
    cases done
    obtain ⟨taken, rfl, isCondition⟩ := readCondition_sound readFirst
    obtain ⟨takenMore, rfl, isChain⟩ := readConditions_sound readMore
    refine ⟨⟨.word mark, position⟩ :: taken ++ takenMore, by simp, ?_⟩
    rw [List.map_append, List.map_cons]
    exact .chain spelled isCondition isChain

theorem readOrder_sound {tokens rest : List Token} {order : OrderBy}
    (success : readOrder tokens = .ok (order, rest)) :
    ∃ column position ending, tokens = ⟨.word column, position⟩ :: (ending ++ rest) ∧
      ((ending = [] ∧ order = ⟨column, .ascending⟩) ∨
        ∃ mark place direction, ending = [⟨.word mark, place⟩] ∧
          Spells mark direction.text ∧ order = ⟨column, direction⟩) := by
  unfold readOrder at success
  obtain ⟨⟨column, behind⟩, named, decided⟩ := ok_of_bind_ok success
  obtain ⟨position, rfl⟩ := readName_eq_ok.1 named
  dsimp only at decided
  split at decided
  · next skipped =>
    cases decided
    obtain ⟨mark, place, rfl, spelled⟩ := (skipKeyword?_eq_some (by decide)).1 skipped
    exact ⟨column, position, _, rfl, .inr ⟨mark, place, .descending, rfl, spelled, rfl⟩⟩
  · next skipped =>
    cases decided
    obtain ⟨mark, place, rfl, spelled⟩ := (skipKeyword?_eq_some (by decide)).1 skipped
    exact ⟨column, position, _, rfl, .inr ⟨mark, place, .ascending, rfl, spelled, rfl⟩⟩
  · cases decided
    exact ⟨column, position, [], rfl, .inl ⟨rfl, rfl⟩⟩

theorem readOrderBy_sound {tokens rest : List Token} {order : Option OrderBy}
    (success : readOrderBy tokens = .ok (order, rest)) : Front IsOrderBy tokens rest order := by
  unfold readOrderBy at success
  split at success
  · cases success
    exact ⟨[], rfl, .absent⟩
  · next behind skipped =>
    obtain ⟨mark, position, rfl, spelled⟩ := (skipKeyword?_eq_some (by decide)).1 skipped
    obtain ⟨more, found, decided⟩ := ok_of_bind_ok success
    obtain ⟨mark', position', rfl, spelled'⟩ :=
      (skipKeyword?_eq_some (by decide)).1 (readKeyword_eq_ok.1 found)
    obtain ⟨⟨order, last⟩, read, done⟩ := ok_of_bind_ok decided
    cases done
    obtain ⟨column, place, ending, rfl, which⟩ := readOrder_sound read
    obtain ⟨rfl, rfl⟩ | ⟨final, place', direction, rfl, written, rfl⟩ := which
    · exact ⟨[⟨.word mark, position⟩, ⟨.word mark', position'⟩, ⟨.word column, place⟩], rfl,
        .unmarked column spelled spelled'⟩
    · exact ⟨[⟨.word mark, position⟩, ⟨.word mark', position'⟩, ⟨.word column, place⟩,
        ⟨.word final, place'⟩], rfl, .marked column spelled spelled' written⟩

/-- Whatever query is read, the grammar derives it from all of the tokens. -/
theorem ofTokens_sound {tokens : List Token} {query : Query}
    (success : Query.ofTokens tokens = .ok query) : Derives (tokens.map Token.kind) query := by
  unfold Query.ofTokens at success
  obtain ⟨afterSelect, found, success⟩ := ok_of_bind_ok success
  obtain ⟨⟨select, afterItems⟩, readItems, success⟩ := ok_of_bind_ok success
  obtain ⟨afterFrom, found', success⟩ := ok_of_bind_ok success
  obtain ⟨⟨source, afterSource⟩, readName, success⟩ := ok_of_bind_ok success
  obtain ⟨⟨predicate, afterWhere⟩, readChain, success⟩ := ok_of_bind_ok success
  obtain ⟨⟨order, afterOrder⟩, readLast, success⟩ := ok_of_bind_ok success
  dsimp only at success
  split at success
  · cases success
    obtain ⟨mark, position, rfl, spelled⟩ :=
      (skipKeyword?_eq_some (by decide)).1 (readKeyword_eq_ok.1 found)
    obtain ⟨selects, rfl, isSelect⟩ := readSelect_sound readItems
    obtain ⟨mark', position', rfl, spelled'⟩ :=
      (skipKeyword?_eq_some (by decide)).1 (readKeyword_eq_ok.1 found')
    obtain ⟨place, rfl, isName⟩ := readSource_eq_ok.1 readName
    obtain ⟨wheres, rfl, isWhere⟩ := readWhere_sound readChain
    obtain ⟨orders, rfl, isOrderBy⟩ := readOrderBy_sound readLast
    simpa using Derives.query spelled isSelect spelled' isName isWhere isOrderBy
  · cases success

end TableQuery.Sql
