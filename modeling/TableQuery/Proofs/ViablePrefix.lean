import TableQuery.Proofs.Reading

/-!
# The first hopeless token

A refusal of tokens is about the first of them with which nothing that follows can make a query any
more, or it says that the query ended where something could still follow (`rejection_located`). The
only error without the token is the one about a string behind LIKE that is no pattern.

Each part of a query is shown to be read so by what its reader looks at (`Reading`): beside the
error that it is refused with, what a part lacks has to be named wherever it can stop, and every
beginning has to have an end.
-/

namespace TableQuery.Sql

open Grammar

/-! ## The parts of a query -/

theorem readItem_eq (tokens : List Token) :
    readItem tokens = readName "column name" tokens >>= fun (source, rest) =>
      match skipKeyword? "AS" rest with
      | none => .ok (.column source source, rest)
      | some rest => readName "alias" rest >>= fun (output, rest) =>
          .ok (.column source output, rest) := by
  refine bind_congr fun (source, rest) => ?_
  dsimp only
  cases skipKeyword? "AS" rest <;> rfl

/-- Reading an item fails at the first token that no item can have there. -/
theorem reading_item (tokens : List Token) : Reading IsItem readItem tokens := by
  rw [funext readItem_eq]
  refine reading_name tokens ⟨"", _, _, .plain ""⟩ fun source rest => ?_
  refine reading_optional (by decide : "AS" ∈ keywords) (reading_pure (.plain source) rest)
    fun mark rest spelled => ?_
  refine reading_name rest ⟨"", _, _, .renamed source "" spelled⟩ fun output rest => ?_
  exact reading_pure (.renamed source output spelled) rest

/-- The induction is on the tokens that are left behind a comma. -/
theorem reading_items (tokens : List Token) : Reading IsItems readItems tokens := by
  induction size : tokens.length using Nat.strongRecOn generalizing tokens with
  | _ size ih =>
    rw [funext readItems_eq]
    refine (reading_item tokens).bind (fun front item isItem => ⟨[], [item], ?_⟩)
      fun front item rest isItem read => ?_
    · rw [List.append_nil]
      exact .last isItem
    have shorter := readItem_length read
    -- Only a comma goes on. Anything else is left to what is read behind the list.
    by_cases goesOn : ∃ position behind, rest = ⟨.comma, position⟩ :: behind
    · obtain ⟨position, behind, rfl⟩ := goesOn
      rw [List.length_cons] at shorter
      have readMore : Reading (fun ks => IsItems (front ++ .comma :: ks))
          (fun rest => readItems rest >>= fun read => .ok (item :: read.1, read.2)) behind :=
        (ih behind.length (by omega) behind rfl).map (item :: ·) fun _ _ areItems =>
          .more isItem areItems
      exact readMore.after [⟨.comma, position⟩] fun _ _ => rfl
    · apply Reading.taken []
      · rw [List.map_nil, List.append_nil]
        exact .last isItem
      · intro rest' same
        dsimp only
        rw [List.nil_append]
        split
        · exact absurd (same.starts (by simp)) goesOn
        · rfl

theorem reading_select (tokens : List Token) : Reading IsSelect readSelect tokens := by
  by_cases star : ∃ position rest, tokens = ⟨.star, position⟩ :: rest
  · obtain ⟨position, rest, rfl⟩ := star
    exact .taken [⟨.star, position⟩] .wildcard fun _ _ => rfl
  · apply (reading_items tokens).lift [] fun _ _ areItems => .columns areItems
    intro tokens' same
    rw [List.nil_append]
    unfold readSelect
    split
    · exact absurd (same.starts (by simp)) star
    · rfl

def IsSource (ks : List TokenKind) (source : String) : Prop :=
  ks = [.word source] ∧ ∀ keyword ∈ keywords, ¬Spells source keyword

theorem isSource_t : IsSource [.word "t"] "t" := ⟨rfl, by decide⟩

theorem reading_source (tokens : List Token) : Reading IsSource readSource tokens := by
  by_cases named : ∃ source position rest, tokens = ⟨.word source, position⟩ :: rest ∧
      ∀ keyword ∈ keywords, ¬Spells source keyword
  · obtain ⟨source, position, rest, rfl, isName⟩ := named
    exact .taken [⟨.word source, position⟩] ⟨rfl, isName⟩ fun rest' _ =>
      readSource_eq_ok.2 ⟨position, rfl, isName⟩
  · apply reading_refusal "file name" ⟨_, _, isSource_t⟩
    intro tokens' same
    unfold readSource
    split
    · split
      · rfl
      · next free =>
        obtain ⟨place, after, rfl⟩ := same.starts (by simp)
        exact absurd ⟨_, place, after, rfl, fun keyword known spelled =>
          free ((isKeyword_iff _).2 ⟨keyword, known, spelled⟩)⟩ named
    · rfl

/-- What is read behind a column and LIKE. -/
def readPattern (column : String) : Reader Condition
  | ⟨.quoted text, _⟩ :: rest =>
    match Pattern.ofText? text with
    | some pattern => .ok (.like column pattern, rest)
    | none => .error (.wildcards text)
  | rest => .error (refusal "quoted LIKE pattern" rest)

def readLiteral (column : String) (op : Comparator) : Reader Condition
  | ⟨.quoted literal, _⟩ :: rest
  | ⟨.word literal, _⟩ :: rest => .ok (.compare column op literal, rest)
  | rest => .error (refusal "literal" rest)

def readComparison (column : String) : Reader Condition
  | ⟨.operator op, _⟩ :: rest => readLiteral column op rest
  | rest => .error (refusal "comparison operator" rest)

theorem readCondition_eq (tokens : List Token) :
    readCondition tokens = readName "column name" tokens >>= fun (column, rest) =>
      match skipKeyword? "LIKE" rest with
      | some rest => readPattern column rest
      | none => readComparison column rest := by
  refine bind_congr fun (column, rest) => ?_
  dsimp only
  cases skipKeyword? "LIKE" rest with
  | none =>
    obtain _ | ⟨⟨kind, position⟩, _ | ⟨⟨kind', place⟩, rest⟩⟩ := rest
    · rfl
    · cases kind <;> rfl
    · cases kind with
      | operator op => cases kind' <;> rfl
      | _ => rfl
  | some rest =>
    obtain _ | ⟨⟨kind, position⟩, rest⟩ := rest
    · rfl
    · cases kind <;> rfl

/-- A string that is a pattern. -/
theorem ofText?_empty : Pattern.ofText? "" = some (.exact "") := by decide

theorem reading_pattern {column mark : String} (spelled : Spells mark "LIKE") (place : Nat)
    {read : Reader Condition}
    (steps : ∀ rest, read (⟨.word mark, place⟩ :: rest) = readPattern column rest)
    (rest : List Token) :
    Reading (fun ks => IsCondition (.word column :: ks)) read (⟨.word mark, place⟩ :: rest) := by
  by_cases quoted : ∃ written position after, rest = ⟨.quoted written, position⟩ :: after
  · obtain ⟨written, position, after, rfl⟩ := quoted
    cases accepted : Pattern.ofText? written with
    | some pattern =>
      apply Reading.taken [⟨.word mark, place⟩, ⟨.quoted written, position⟩]
        (.like column spelled accepted)
      intro rest' _
      simp only [List.cons_append, List.nil_append, steps, readPattern, accepted]
    | none =>
      apply Reading.unreadable [] spelled accepted ⟨[], _, .like column spelled ofText?_empty⟩
      intro after'
      simp only [List.nil_append, steps, readPattern, accepted]
  · have reading : Reading (fun ks => IsCondition (.word column :: .word mark :: ks))
        (readPattern column) rest := by
      apply reading_refusal "quoted LIKE pattern"
        ⟨[.quoted ""], _, .like column spelled ofText?_empty⟩
      intro rest' same
      unfold readPattern
      split
      · exact absurd same.startsQuoted quoted
      · rfl
    exact reading.after [⟨.word mark, place⟩] fun rest' _ => steps rest'

theorem reading_literal (column : String) (op : Comparator) (rest : List Token) :
    Reading (fun ks => IsCondition (.word column :: .operator op :: ks))
      (readLiteral column op) rest := by
  by_cases literal : ∃ kind text place after, rest = ⟨kind, place⟩ :: after ∧ IsLiteral kind text
  · obtain ⟨kind, text, place, after, rfl, isLiteral⟩ := literal
    apply Reading.taken [⟨kind, place⟩] (.compare column op isLiteral)
    intro rest' _
    cases isLiteral <;> rfl
  · apply reading_refusal "literal" ⟨[.word ""], _, .compare column op (.word "")⟩
    intro rest' same
    unfold readLiteral
    split
    · obtain ⟨text, place, after, rfl⟩ := same.startsQuoted
      exact absurd ⟨_, text, place, after, rfl, .quoted text⟩ literal
    · obtain ⟨place, after, rfl⟩ := same.starts (by simp)
      exact absurd ⟨_, _, place, after, rfl, .word _⟩ literal
    · rfl

/-- The same behind a column, where a LIKE has been ruled out. -/
theorem reading_comparison (column : String) (rest : List Token) :
    Reading (fun ks => IsCondition (.word column :: ks)) (readComparison column) rest := by
  by_cases operator : ∃ op position behind, rest = ⟨.operator op, position⟩ :: behind
  · obtain ⟨op, position, behind, rfl⟩ := operator
    exact (reading_literal column op behind).after [⟨.operator op, position⟩] fun _ _ => rfl
  · apply reading_refusal "comparison operator" ⟨_, _, .compare column .eq (.word "")⟩
    intro rest' same
    unfold readComparison
    split
    · exact absurd ⟨_, same.starts (by simp)⟩ operator
    · rfl

/-- A condition is told apart by what follows its column. -/
theorem reading_condition (tokens : List Token) : Reading IsCondition readCondition tokens := by
  rw [funext readCondition_eq]
  refine reading_name tokens ⟨"", _, _, .compare "" .eq (.word "")⟩ fun column rest => ?_
  cases skipped : skipKeyword? "LIKE" rest with
  | some behind =>
    obtain ⟨mark, place, rfl, spelled⟩ := (skipKeyword?_eq_some (by decide)).1 skipped
    apply reading_pattern spelled place
    intro rest
    simp only [skipKeyword?_spelled spelled (by decide)]
  | none =>
    apply (reading_comparison column rest).after []
    intro rest' same
    simp only [List.nil_append, skipKeyword?_sameHead same skipped]

theorem readConnective?_sameHead {tokens tokens' : List Token} (same : SameHead tokens tokens')
    (missing : readConnective? tokens = none) : readConnective? tokens' = none := by
  unfold readConnective? at missing
  split at missing
  · cases missing
  · cases missing
  · next noAnd noOr =>
    simp only [readConnective?, skipKeyword?_sameHead same noAnd, skipKeyword?_sameHead same noOr]

/-- The induction is on the tokens that are left behind a condition. -/
theorem reading_conditions (tokens : List Token) : Reading IsChain readConditions tokens := by
  induction size : tokens.length using Nat.strongRecOn generalizing tokens with
  | _ size ih =>
    rw [funext readConditions_eq]
    cases joined : readConnective? tokens with
    | none =>
      apply Reading.taken [] .done
      intro tokens' same
      rw [List.nil_append, readConnective?_sameHead same joined]
    | some found =>
      obtain ⟨connective, rest⟩ := found
      have shorter := readConnective?_length joined
      obtain ⟨mark, position, rfl, spelled⟩ := readConnective?_eq_some joined
      have reading : Reading (fun ks => IsChain (.word mark :: ks))
          (fun rest => readCondition rest >>= fun first => readConditions first.2 >>= fun more =>
            .ok ((connective, first.1) :: more.1, more.2)) rest := by
        refine (reading_condition rest).bind
          (fun front condition isCondition => ⟨[], _, .more spelled isCondition .done⟩)
          fun front condition behind isCondition read => ?_
        have shortest := readCondition_length read
        exact (ih behind.length (by omega) behind rfl).map ((connective, condition) :: ·)
          fun _ _ isChain => .more spelled isCondition isChain
      apply reading.after [⟨.word mark, position⟩]
      intro rest' _
      rw [List.singleton_append, readConnective?_spelled spelled]

theorem reading_where (tokens : List Token) : Reading IsWhere readWhere tokens := by
  have reading : ∀ mark rest, Spells mark "WHERE" →
      Reading (fun ks => IsWhere (.word mark :: ks))
        (fun rest => readCondition rest >>= fun first => readConditions first.2 >>= fun more =>
          .ok (some ⟨first.1, more.1⟩, more.2)) rest := by
    intro mark rest spelled
    refine (reading_condition rest).bind
      (fun front first isCondition => ⟨[], _, .chain spelled isCondition .done⟩)
      fun front first behind isCondition _ => ?_
    exact (reading_conditions behind).map (fun more => some (Predicate.mk first more))
      fun _ _ isChain => IsWhere.chain spelled isCondition isChain
  exact reading_optional (by decide : "WHERE" ∈ keywords) (reading_pure .absent tokens) reading

theorem readOrder_eq (tokens : List Token) :
    readOrder tokens = readName "ORDER BY column" tokens >>= fun (column, rest) =>
      match skipKeyword? "DESC" rest with
      | none =>
        match skipKeyword? "ASC" rest with
        | none => .ok (⟨column, .ascending⟩, rest)
        | some rest => .ok (⟨column, .ascending⟩, rest)
      | some rest => .ok (⟨column, .descending⟩, rest) := by
  refine bind_congr fun (column, rest) => ?_
  dsimp only
  cases skipKeyword? "DESC" rest <;> cases skipKeyword? "ASC" rest <;> rfl

theorem reading_order {mark mark' : String} (spelled : Spells mark "ORDER")
    (spelled' : Spells mark' "BY") (tokens : List Token) :
    Reading (fun ks order => IsOrderBy (.word mark :: .word mark' :: ks) (some order))
      readOrder tokens := by
  rw [funext readOrder_eq]
  refine reading_name tokens ⟨"", _, _, .unmarked "" spelled spelled'⟩ fun column rest => ?_
  have marked : ∀ (direction : Direction) ending rest, Spells ending direction.text →
      Reading (fun ks order => IsOrderBy
          (.word mark :: .word mark' :: .word column :: .word ending :: ks) (some order))
        (fun rest => .ok (⟨column, direction⟩, rest)) rest := fun _ _ rest written =>
    reading_pure (.marked column spelled spelled' written) rest
  refine reading_optional (by decide : "DESC" ∈ keywords) ?_ (marked .descending)
  refine reading_optional (by decide : "ASC" ∈ keywords) ?_ (marked .ascending)
  exact reading_pure (.unmarked column spelled spelled') rest

theorem reading_orderBy (tokens : List Token) : Reading IsOrderBy readOrderBy tokens := by
  have reading : ∀ mark rest, Spells mark "ORDER" →
      Reading (fun ks => IsOrderBy (.word mark :: ks))
        (fun rest => readKeyword "BY" rest >>= fun rest =>
          readOrder rest >>= fun read => .ok (some read.1, read.2)) rest := by
    intro mark rest spelled
    refine reading_keyword (by decide) rest ⟨_, _, .unmarked "" spelled rfl⟩
      fun mark' rest spelled' => ?_
    exact (reading_order spelled spelled' rest).map some fun _ _ isOrder => isOrder
  exact reading_optional (by decide : "ORDER" ∈ keywords) (reading_pure .absent tokens) reading

/-! ## The whole query -/

/-- The query that the tokens write, and the tokens behind it, of which there are none. -/
def readQuery : Reader Query := fun tokens =>
  (·, []) <$> Query.ofTokens tokens

theorem readQuery_eq (tokens : List Token) :
    readQuery tokens = readKeyword "SELECT" tokens >>= fun rest =>
      readSelect rest >>= fun (select, rest) =>
      readKeyword "FROM" rest >>= fun rest =>
      readSource rest >>= fun (source, rest) =>
      readWhere rest >>= fun (predicate, rest) =>
      readOrderBy rest >>= fun (order, rest) =>
      match rest with
      | [] => .ok (⟨select, source, predicate, order⟩, [])
      | rest => .error (refusal "end of query" rest) := by
  simp only [readQuery, Query.ofTokens, map_bind]
  refine bind_congr fun rest => bind_congr fun (select, rest) => bind_congr fun rest =>
    bind_congr fun (source, rest) => bind_congr fun (predicate, rest) =>
    bind_congr fun (order, rest) => ?_
  cases rest <;> rfl

theorem derives_of_parts {selects file wheres orders : List TokenKind} {mark mark' source : String}
    {select : List SelectItem} {predicate : Option Predicate} {order : Option OrderBy}
    (spelled : Spells mark "SELECT") (isSelect : IsSelect selects select)
    (spelled' : Spells mark' "FROM") (isSource : IsSource file source)
    (isWhere : IsWhere wheres predicate) (isOrderBy : IsOrderBy orders order) :
    Derives (.word mark :: (selects ++ .word mark' :: (file ++ (wheres ++ (orders ++ [])))))
      ⟨select, source, predicate, order⟩ := by
  obtain ⟨rfl, isName⟩ := isSource
  simpa using Derives.query spelled isSelect spelled' isName isWhere isOrderBy

theorem reading_query (tokens : List Token) : Reading Derives readQuery tokens := by
  rw [funext readQuery_eq]
  refine reading_keyword (by decide) tokens
    ⟨_, _, derives_of_parts rfl .wildcard rfl isSource_t .absent .absent⟩
    fun mark rest spelled => ?_
  refine (reading_select rest).bind (fun selects select isSelect =>
    ⟨_, _, derives_of_parts spelled isSelect rfl isSource_t .absent .absent⟩)
    fun selects select rest isSelect _ => ?_
  refine reading_keyword (by decide) rest
    ⟨_, _, derives_of_parts spelled isSelect rfl isSource_t .absent .absent⟩
    fun mark' rest spelled' => ?_
  refine (reading_source rest).bind (fun file source isSource =>
    ⟨_, _, derives_of_parts spelled isSelect spelled' isSource .absent .absent⟩)
    fun file source rest isSource _ => ?_
  refine (reading_where rest).bind (fun wheres predicate isWhere =>
    ⟨_, _, derives_of_parts spelled isSelect spelled' isSource isWhere .absent⟩)
    fun wheres predicate rest isWhere _ => ?_
  refine (reading_orderBy rest).bind (fun orders order isOrderBy =>
    ⟨_, _, derives_of_parts spelled isSelect spelled' isSource isWhere isOrderBy⟩)
    fun orders order rest isOrderBy _ => ?_
  -- The query could end here, so whatever is left is too much.
  have derived := derives_of_parts spelled isSelect spelled' isSource isWhere isOrderBy
  cases rest with
  | nil =>
    apply Reading.taken [] derived
    intro rest' same
    obtain ⟨_, rfl⟩ | ⟨_, _, _, _, none, _⟩ := same.cases
    · rfl
    · cases none
  | cons token after =>
    refine reading_refusal "end of query" ⟨_, _, derived⟩ fun rest' same => ?_
    obtain ⟨none, _⟩ | ⟨_, _, token', after', _, rfl, _⟩ := same.cases
    · cases none
    · rfl

/-! ## Refusals -/

/-- More tokens behind these make a query. -/
def Viable (tokens : List Token) : Prop :=
  ∃ more query, Query.ofTokens (tokens ++ more) = .ok query

/-- The token is the string behind a LIKE where some string could stand, and it is no pattern. -/
structure IsRefusedPattern (before : List Token) (token : Token) (written : String) : Prop where
  string : token.kind = .quoted written
  behind : ∃ front mark place, before = front ++ [⟨.word mark, place⟩] ∧ Spells mark "LIKE"
  awaited : ∃ other position, Viable (before ++ [⟨.quoted other, position⟩])
  refused : Pattern.ofText? written = none

/-- The token is the first that no query can have behind those before it, and the error is about
it. -/
structure Blames (before : List Token) (token : Token) (e : SyntaxError) : Prop where
  viable : Viable before
  hopeless : ¬Viable (before ++ [token])
  told : (∃ written, IsRefusedPattern before token written ∧ e = .wildcards written) ∨
    (∀ written, ¬IsRefusedPattern before token written) ∧
      ∃ expected, e = .unexpected expected token.kind.shown token.position

theorem viable_of_begins {tokens : List Token} (begins : Begins Derives tokens) :
    Viable tokens := by
  obtain ⟨more, query, derives⟩ := begins
  refine ⟨more.map (Token.mk · 0), query, ofTokens_complete derives ?_⟩
  simp [Function.comp_def]

/-- The front of what can be completed can be completed. -/
theorem viable_of_append {tokens more : List Token} (viable : Viable (tokens ++ more)) :
    Viable tokens := by
  obtain ⟨last, query, accepted⟩ := viable
  exact ⟨more ++ last, query, by rwa [← List.append_assoc]⟩

theorem readQuery_eq_error {tokens : List Token} {e : SyntaxError} :
    readQuery tokens = .error e ↔ Query.ofTokens tokens = .error e := by
  unfold readQuery
  cases Query.ofTokens tokens with
  | ok query => exact ⟨nofun, nofun⟩
  | error e' => constructor <;> rintro ⟨⟩ <;> rfl

/-- A token that is refused whatever follows it is in no query behind those before it. -/
theorem not_viable {front : List Token} {token : Token}
    (refused : ∀ more, ∃ e, readQuery (front ++ token :: more) = .error e) :
    ¬Viable (front ++ [token]) := by
  rintro ⟨more, query, accepted⟩
  obtain ⟨e, refused⟩ := refused more
  rw [readQuery_eq_error, List.append_cons, accepted] at refused
  cases refused

/-- Tokens that are refused lack something at their end, or the error is about the first of them
with which they cannot become a query. -/
theorem rejection_located {tokens : List Token} {e : SyntaxError}
    (rejected : Query.ofTokens tokens = .error e) :
    ((∃ expected, e = .ended expected) ∧
      ∃ more query, more ≠ [] ∧ Query.ofTokens (tokens ++ more) = .ok query) ∨
    ∃ before token after, tokens = before ++ token :: after ∧ Blames before token e := by
  have read := readQuery_eq_error.2 rejected
  cases reading_query tokens with
  | taken front derived steady =>
    rw [steady _ (sameHead_refl _)] at read
    cases read
  | ended begins refused =>
    rw [refused] at read
    cases read
    obtain ⟨more, query, accepted⟩ := viable_of_begins begins
    refine .inl ⟨⟨_, rfl⟩, more, query, ?_, accepted⟩
    rintro rfl
    rw [List.append_nil, rejected] at accepted
    cases accepted
  | @unexpected front after token expected begins refused =>
    rw [refused token after rfl] at read
    cases read
    have hopeless : ∀ token' : Token, token'.kind.outline = token.kind.outline →
        ¬Viable (front ++ [token']) := fun token' alike =>
      not_viable fun more => ⟨_, refused token' more alike⟩
    refine .inr ⟨front, token, after, rfl, viable_of_begins begins, hopeless token rfl,
      .inr ⟨fun written isRefused => ?_, expected, rfl⟩⟩
    -- Where a string is refused for being one, no other string would do.
    obtain ⟨other, position, viable⟩ := isRefused.awaited
    exact hopeless ⟨.quoted other, position⟩ (by rw [isRefused.string]; rfl) viable
  | @unreadable front after mark written place position spelled noPattern begins refused =>
    rw [refused after] at read
    cases read
    have awaited := viable_of_begins begins
    rw [List.append_cons] at awaited
    refine .inr ⟨front ++ [⟨.word mark, place⟩], ⟨.quoted written, position⟩, after, by simp,
      viable_of_append awaited, ?_, .inl ⟨written, ?_, rfl⟩⟩
    · refine not_viable fun more => ⟨.wildcards written, ?_⟩
      rw [← List.append_cons]
      exact refused more
    · exact ⟨rfl, ⟨front, mark, place, rfl, spelled⟩, ⟨"", position, awaited⟩, noPattern⟩

/-- A query with keywords for names, up to a string behind LIKE with a percent sign too many. -/
def strayPercent : List Token :=
  [⟨.word "select", 0⟩, ⟨.word "from", 7⟩, ⟨.word "FROM", 12⟩, ⟨.word "t", 17⟩, ⟨.word "where", 19⟩,
    ⟨.word "like", 25⟩, ⟨.word "Like", 30⟩, ⟨.quoted "a%b%c", 35⟩, ⟨.word "order", 43⟩]

/-- Keywords that stand for names are not blamed, the pattern is. -/
theorem strayPercent_located :
    Query.ofTokens strayPercent = .error (.wildcards "a%b%c") ∧
      ∃ before position after, strayPercent = before ++ ⟨.quoted "a%b%c", position⟩ :: after ∧
        Blames before ⟨.quoted "a%b%c", position⟩ (.wildcards "a%b%c") := by
  have rejected : Query.ofTokens strayPercent = .error (.wildcards "a%b%c") := by decide +kernel
  refine ⟨rejected, ?_⟩
  obtain ⟨⟨_, ended⟩, _⟩ | ⟨before, ⟨kind, position⟩, after, split, blames⟩ :=
    rejection_located rejected
  · cases ended
  · obtain ⟨written, isRefused, told⟩ | ⟨_, _, told⟩ := blames.told
    · obtain rfl : kind = .quoted written := isRefused.string
      cases told
      exact ⟨before, position, after, split, blames⟩
    · cases told

end TableQuery.Sql
