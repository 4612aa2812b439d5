import TableQuery.Proofs.Lexeme
import TableQuery.Proofs.Outcome
import TableQuery.Sql.Parse

/-!
# Readers and positions

The position of a token is carried along for the errors and decides nothing. So tokens of the same
kinds are read as the same query wherever they stand, or are refused alike but for the position
that is told (`ofTokens_alike`); and the same characters are scanned alike from wherever they start
(`scan_alike`).
-/

namespace TableQuery.Sql

open TableQuery.Text

variable {α β γ δ : Type}

def SyntaxError.unplaced : SyntaxError → SyntaxError
  | unterminated _ => unterminated 0
  | unexpected expected found _ => unexpected expected found 0
  | error => error

/-- Both are refused with the same error, its position aside, or both go well and their values are
related. -/
inductive Alike (R : α → β → Prop) : Except SyntaxError α → Except SyntaxError β → Prop
  | ok {x : α} {y : β} (related : R x y) : Alike R (.ok x) (.ok y)
  | error {e e' : SyntaxError} (same : e.unplaced = e'.unplaced) : Alike R (.error e) (.error e')

/-- Readings that are alike so far stay so if what follows does, where what was read may be used. -/
theorem Alike.bind {R : α → β → Prop} {S : γ → δ → Prop} {left : Except SyntaxError α}
    {right : Except SyntaxError β} {nextLeft : α → Except SyntaxError γ}
    {nextRight : β → Except SyntaxError δ} (h : Alike R left right)
    (next : ∀ x y, left = .ok x → R x y → Alike S (nextLeft x) (nextRight y)) :
    Alike S (left >>= nextLeft) (right >>= nextRight) := by
  cases h with
  | ok related => exact next _ _ rfl related
  | error same => exact .error same

theorem Alike.map {R : α → β → Prop} {S : γ → δ → Prop} {left : Except SyntaxError α}
    {right : Except SyntaxError β} {f : α → γ} {g : β → δ} (h : Alike R left right)
    (related : ∀ x y, R x y → S (f x) (g y)) : Alike S (left.map f) (right.map g) := by
  cases h with
  | ok before => exact .ok (related _ _ before)
  | error same => exact .error same

theorem Alike.mapError_eq {left right : Except SyntaxError α} (h : Alike Eq left right) :
    left.mapError SyntaxError.unplaced = right.mapError SyntaxError.unplaced := by
  cases h with
  | ok related => rw [related]
  | error same => exact congrArg Except.error same

/-- The tokens are of the same kinds, one after the other, and may stand anywhere. -/
def SameKinds : List Token → List Token → Prop :=
  List.Forall₂ fun token token' => token.kind = token'.kind

theorem sameKinds_iff {tokens tokens' : List Token} :
    SameKinds tokens tokens' ↔ tokens.map Token.kind = tokens'.map Token.kind := by
  rw [SameKinds, ← List.forall₂_eq_eq_eq, List.forall₂_map_left_iff, List.forall₂_map_right_iff]

theorem SameKinds.cases {tokens tokens' : List Token} (same : SameKinds tokens tokens') :
    tokens = [] ∧ tokens' = [] ∨
    ∃ kind position position' rest rest', tokens = ⟨kind, position⟩ :: rest ∧
      tokens' = ⟨kind, position'⟩ :: rest' ∧ SameKinds rest rest' := by
  cases same with
  | nil => exact .inl ⟨rfl, rfl⟩
  | @cons token token' rest rest' head tail =>
    obtain ⟨kind, position⟩ := token
    obtain ⟨kind', position'⟩ := token'
    obtain rfl : kind = kind' := head
    exact .inr ⟨kind, position, position', rest, rest', rfl, rfl, tail⟩

def SameRead (left right : α × List Token) : Prop :=
  left.1 = right.1 ∧ SameKinds left.2 right.2

/-! ## Readers -/

section Readers

variable {tokens tokens' : List Token} (same : SameKinds tokens tokens')
include same

/-- A refusal names the same token, wherever it stands. -/
theorem refusal_alike (R : α → β → Prop) (expected : String) :
    Alike R (.error (refusal expected tokens)) (.error (refusal expected tokens')) := by
  obtain ⟨rfl, rfl⟩ | ⟨kind, position, position', rest, rest', rfl, rfl, _⟩ := same.cases <;>
    exact .error rfl

theorem skipKeyword?_alike (keyword : String) :
    skipKeyword? keyword tokens = none ∧ skipKeyword? keyword tokens' = none ∨
    ∃ rest rest', skipKeyword? keyword tokens = some rest ∧
      skipKeyword? keyword tokens' = some rest' ∧ SameKinds rest rest' := by
  obtain ⟨rfl, rfl⟩ | ⟨kind, position, position', rest, rest', rfl, rfl, more⟩ := same.cases
  · exact .inl ⟨rfl, rfl⟩
  · by_cases spells : kind.spells keyword = true
    · exact .inr ⟨rest, rest', if_pos spells, if_pos spells, more⟩
    · exact .inl ⟨if_neg spells, if_neg spells⟩

theorem readName_alike (expected : String) :
    Alike SameRead (readName expected tokens) (readName expected tokens') := by
  obtain ⟨rfl, rfl⟩ | ⟨kind, position, position', rest, rest', rfl, rfl, more⟩ := same.cases
  · exact .error rfl
  · cases kind with
    | word text => exact .ok ⟨rfl, more⟩
    | _ => exact .error rfl

theorem readKeyword_alike (keyword : String) :
    Alike SameKinds (readKeyword keyword tokens) (readKeyword keyword tokens') := by
  unfold readKeyword
  obtain ⟨none, none'⟩ | ⟨rest, rest', found, found', more⟩ := skipKeyword?_alike same keyword
  · rw [none, none']
    exact refusal_alike same SameKinds keyword
  · rw [found, found']
    exact .ok more

theorem readItem_alike : Alike SameRead (readItem tokens) (readItem tokens') := by
  refine (readName_alike same _).bind ?_
  rintro ⟨source, rest⟩ ⟨_, rest'⟩ _ ⟨rfl, more⟩
  obtain ⟨none, none'⟩ | ⟨behind, behind', found, found', last⟩ := skipKeyword?_alike more "AS"
  · simp only [none, none']
    exact .ok ⟨rfl, more⟩
  · simp only [found, found']
    refine (readName_alike last _).bind ?_
    rintro ⟨output, left⟩ ⟨_, left'⟩ _ ⟨rfl, left⟩
    exact .ok ⟨rfl, left⟩

theorem readCondition_alike : Alike SameRead (readCondition tokens) (readCondition tokens') := by
  refine (readName_alike same _).bind ?_
  rintro ⟨column, rest⟩ ⟨_, rest'⟩ _ ⟨rfl, more⟩
  obtain ⟨none, none'⟩ | ⟨behind, behind', found, found', last⟩ := skipKeyword?_alike more "LIKE"
  · simp only [none, none']
    obtain ⟨rfl, rfl⟩ | ⟨kind, position, position', behind, behind', rfl, rfl, last⟩ := more.cases
    · exact .error rfl
    · cases kind with
      | operator op =>
        obtain ⟨rfl, rfl⟩ | ⟨kind, place, place', left, left', rfl, rfl, tail⟩ := last.cases
        · exact .error rfl
        · cases kind with
          | word literal => exact .ok ⟨rfl, tail⟩
          | quoted literal => exact .ok ⟨rfl, tail⟩
          | _ => exact .error rfl
      | _ => exact .error rfl
  · simp only [found, found']
    obtain ⟨rfl, rfl⟩ | ⟨kind, position, position', left, left', rfl, rfl, tail⟩ := last.cases
    · exact .error rfl
    · cases kind with
      | quoted text =>
        cases pattern : Pattern.ofText? text with
        | none =>
          simp only [pattern]
          exact .error rfl
        | some pattern' =>
          simp only [pattern]
          exact .ok ⟨rfl, tail⟩
      | _ => exact .error rfl

theorem readConnective?_alike :
    readConnective? tokens = none ∧ readConnective? tokens' = none ∨
    ∃ connective rest rest', readConnective? tokens = some (connective, rest) ∧
      readConnective? tokens' = some (connective, rest') ∧ SameKinds rest rest' := by
  unfold readConnective?
  obtain ⟨none, none'⟩ | ⟨rest, rest', found, found', more⟩ := skipKeyword?_alike same "AND"
  · rw [none, none']
    obtain ⟨last, last'⟩ | ⟨rest, rest', found, found', more⟩ := skipKeyword?_alike same "OR"
    · rw [last, last']
      exact .inl ⟨rfl, rfl⟩
    · rw [found, found']
      exact .inr ⟨.or, rest, rest', rfl, rfl, more⟩
  · rw [found, found']
    exact .inr ⟨.and, rest, rest', rfl, rfl, more⟩

theorem readSource_alike : Alike SameRead (readSource tokens) (readSource tokens') := by
  obtain ⟨rfl, rfl⟩ | ⟨kind, position, position', rest, rest', rfl, rfl, more⟩ := same.cases
  · exact .error rfl
  · cases kind with
    | word text =>
      simp only [readSource]
      split
      · exact .error rfl
      · exact .ok ⟨rfl, more⟩
    | _ => exact .error rfl

theorem readOrder_alike : Alike SameRead (readOrder tokens) (readOrder tokens') := by
  refine (readName_alike same _).bind ?_
  rintro ⟨column, rest⟩ ⟨_, rest'⟩ _ ⟨rfl, more⟩
  obtain ⟨none, none'⟩ | ⟨behind, behind', found, found', last⟩ := skipKeyword?_alike more "DESC"
  · obtain ⟨open_, open'⟩ | ⟨behind, behind', found, found', last⟩ := skipKeyword?_alike more "ASC"
    · simp only [none, none', open_, open']
      exact .ok ⟨rfl, more⟩
    · simp only [none, none', found, found']
      exact .ok ⟨rfl, last⟩
  · simp only [found, found']
    exact .ok ⟨rfl, last⟩

theorem readOrderBy_alike : Alike SameRead (readOrderBy tokens) (readOrderBy tokens') := by
  unfold readOrderBy
  obtain ⟨none, none'⟩ | ⟨rest, rest', found, found', more⟩ := skipKeyword?_alike same "ORDER"
  · rw [none, none']
    exact .ok ⟨rfl, same⟩
  · rw [found, found']
    refine (readKeyword_alike more "BY").bind fun behind behind' _ last => ?_
    refine (readOrder_alike last).bind ?_
    rintro ⟨order, left⟩ ⟨_, left'⟩ _ ⟨rfl, left⟩
    exact .ok ⟨rfl, left⟩

end Readers

/-! ## Lists -/

theorem readItems_eq (tokens : List Token) :
    readItems tokens = readItem tokens >>= fun (item, rest) =>
      match rest with
      | ⟨.comma, _⟩ :: rest => readItems rest >>= fun (items, rest) => .ok (item :: items, rest)
      | rest => .ok ([item], rest) := by
  rw [readItems]
  split
  · next failed =>
    rw [failed]
    rfl
  · next read =>
    rw [read]
    rfl
  · next stops read =>
    rw [read, ok_bind]
    dsimp only
    split
    · exact absurd rfl (stops _ _)
    · rfl

/-- Reading goes on behind a comma, and then fewer tokens are left. -/
theorem readItems_alike {tokens tokens' : List Token} (same : SameKinds tokens tokens') :
    Alike SameRead (readItems tokens) (readItems tokens') := by
  induction size : tokens.length using Nat.strongRecOn generalizing tokens tokens' with
  | _ size ih =>
    rw [readItems_eq, readItems_eq]
    refine (readItem_alike same).bind ?_
    rintro ⟨item, rest⟩ ⟨_, rest'⟩ read ⟨rfl, more⟩
    have shorter := readItem_length read
    obtain ⟨rfl, rfl⟩ | ⟨kind, position, position', behind, behind', rfl, rfl, last⟩ := more.cases
    · exact .ok ⟨rfl, more⟩
    · cases kind with
      | comma =>
        rw [List.length_cons] at shorter
        refine (ih behind.length (by omega) last rfl).bind ?_
        rintro ⟨items, left⟩ ⟨_, left'⟩ _ ⟨rfl, left⟩
        exact .ok ⟨rfl, left⟩
      | _ => exact .ok ⟨rfl, more⟩

theorem readConditions_eq (tokens : List Token) :
    readConditions tokens =
      match readConnective? tokens with
      | none => .ok ([], tokens)
      | some (connective, rest) => readCondition rest >>= fun (condition, rest) =>
          readConditions rest >>= fun (conditions, rest) =>
            .ok ((connective, condition) :: conditions, rest) := by
  rw [readConditions]
  split
  · next none => rw [none]
  · next connective rest found =>
    rw [found]
    dsimp only
    split
    · next failed =>
      rw [failed]
      rfl
    · next read =>
      rw [read]
      rfl

theorem readConditions_alike {tokens tokens' : List Token} (same : SameKinds tokens tokens') :
    Alike SameRead (readConditions tokens) (readConditions tokens') := by
  induction size : tokens.length using Nat.strongRecOn generalizing tokens tokens' with
  | _ size ih =>
    rw [readConditions_eq, readConditions_eq]
    obtain ⟨none, none'⟩ | ⟨connective, rest, rest', found, found', more⟩ :=
      readConnective?_alike same
    · rw [none, none']
      exact .ok ⟨rfl, same⟩
    · rw [found, found']
      have shorter := readConnective?_length found
      refine (readCondition_alike more).bind ?_
      rintro ⟨condition, behind⟩ ⟨_, behind'⟩ read ⟨rfl, last⟩
      have shortest := readCondition_length read
      refine (ih behind.length (by omega) last rfl).bind ?_
      rintro ⟨conditions, left⟩ ⟨_, left'⟩ _ ⟨rfl, left⟩
      exact .ok ⟨rfl, left⟩

/-! ## Queries -/

section Queries

variable {tokens tokens' : List Token} (same : SameKinds tokens tokens')
include same

theorem readSelect_alike : Alike SameRead (readSelect tokens) (readSelect tokens') := by
  obtain ⟨rfl, rfl⟩ | ⟨kind, position, position', rest, rest', rfl, rfl, more⟩ := same.cases
  · exact readItems_alike same
  · cases kind with
    | star => exact .ok ⟨rfl, more⟩
    | _ => exact readItems_alike same

theorem readWhere_alike : Alike SameRead (readWhere tokens) (readWhere tokens') := by
  unfold readWhere
  obtain ⟨none, none'⟩ | ⟨rest, rest', found, found', more⟩ := skipKeyword?_alike same "WHERE"
  · rw [none, none']
    exact .ok ⟨rfl, same⟩
  · rw [found, found']
    refine (readCondition_alike more).bind ?_
    rintro ⟨first, behind⟩ ⟨_, behind'⟩ _ ⟨rfl, last⟩
    refine (readConditions_alike last).bind ?_
    rintro ⟨conditions, left⟩ ⟨_, left'⟩ _ ⟨rfl, left⟩
    exact .ok ⟨rfl, left⟩

/-- A query is read from the kinds of its tokens. -/
theorem ofTokens_alike : Alike Eq (Query.ofTokens tokens) (Query.ofTokens tokens') := by
  refine (readKeyword_alike same "SELECT").bind fun rest rest' _ afterSelect => ?_
  refine (readSelect_alike afterSelect).bind ?_
  rintro ⟨select, rest⟩ ⟨_, rest'⟩ _ ⟨rfl, afterItems⟩
  refine (readKeyword_alike afterItems "FROM").bind fun rest rest' _ afterFrom => ?_
  refine (readSource_alike afterFrom).bind ?_
  rintro ⟨source, rest⟩ ⟨_, rest'⟩ _ ⟨rfl, afterSource⟩
  refine (readWhere_alike afterSource).bind ?_
  rintro ⟨predicate, rest⟩ ⟨_, rest'⟩ _ ⟨rfl, afterWhere⟩
  refine (readOrderBy_alike afterWhere).bind ?_
  rintro ⟨order, rest⟩ ⟨_, rest'⟩ _ ⟨rfl, left⟩
  obtain ⟨rfl, rfl⟩ | ⟨kind, position, position', behind, behind', rfl, rfl, _⟩ := left.cases
  · exact .ok rfl
  · exact .error rfl

end Queries

/-! ## Scanning -/

/-- The token that starts at a character is read without its position. -/
theorem readToken_alike (position position' : Nat) (first : Char) (rest : List Char) :
    Alike Eq (readToken position first rest) (readToken position' first rest) := by
  fun_cases readToken position first rest <;> simp_all only [readToken]
  all_goals first | exact .ok rfl | exact .error rfl

theorem scan_alike (position position' : Nat) (cs : List Char) :
    Alike SameKinds (scan position cs) (scan position' cs) := by
  induction size : cs.length using Nat.strongRecOn generalizing position position' cs with
  | _ size ih =>
    cases cs with
    | nil =>
      rw [scan, scan]
      exact .ok .nil
    | cons c cs =>
      rw [List.length_cons] at size
      by_cases blank : isBlank c = true
      · rw [scan_blank blank, scan_blank blank]
        exact ih cs.length (by omega) _ _ cs rfl
      · have visible : isBlank c = false := by simpa using blank
        rw [scan_visible visible, scan_visible visible]
        refine (readToken_alike position position' c cs).bind ?_
        rintro lexeme _ read rfl
        have shorter := readToken_length read
        exact (ih lexeme.rest.length (by omega) _ _ _ rfl).map fun _ _ more => .cons rfl more

/-- A query is read, or refused in the same words, whatever the positions of its tokens. -/
theorem parse_alike {text text' : String}
    (scanned : Alike SameKinds (tokenize text) (tokenize text')) :
    (Query.parse text).mapError SyntaxError.unplaced =
      (Query.parse text').mapError SyntaxError.unplaced :=
  (scanned.bind fun _ _ _ same => ofTokens_alike same).mapError_eq

end TableQuery.Sql
