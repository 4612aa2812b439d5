import TableQuery.Proofs.Parsing
import TableQuery.Proofs.Positions

/-!
# What a reader comes to

The readers of tokens go from left to right and look one token ahead. So a run of a reader comes to
one of these (`Reading`): it takes tokens that the grammar derives something from, and would take
the same in front of anything that starts alike; or the tokens end inside a derivation; or it
refuses a token behind the beginning of a derivation, and would refuse it whatever came behind.

Runs one after the other are put together by `Reading.after` and `Reading.bind`. The grammar of the
second is what is left of the grammar of the whole behind what the first has taken.
-/

namespace TableQuery.Sql

variable {α β : Type}

abbrev Reader (α : Type) :=
  List Token → Except SyntaxError (α × List Token)

/-- The kind of a token, what a quoted string says left out. A reader that does not want a string
refuses any. -/
def TokenKind.outline : TokenKind → TokenKind
  | quoted _ => quoted ""
  | kind => kind

/-- Neither list has a token, or both start with tokens of one outline. -/
def SameHead (tokens tokens' : List Token) : Prop :=
  tokens'.head?.map (·.kind.outline) = tokens.head?.map (·.kind.outline)

/-- With more tokens behind them, something can be derived from these. -/
def Begins (derives : List TokenKind → α → Prop) (tokens : List Token) : Prop :=
  ∃ more value, derives (tokens.map Token.kind ++ more) value

/-- What reading the tokens comes to, where `derives` is the grammar. -/
inductive Reading (derives : List TokenKind → α → Prop) (read : Reader α) : List Token → Prop
  /-- Some are taken, and would be in front of anything that starts alike. -/
  | taken (front : List Token) {rest : List Token} {value : α}
      (derived : derives (front.map Token.kind) value)
      (steady : ∀ rest', SameHead rest rest' → read (front ++ rest') = .ok (value, rest')) :
      Reading derives read (front ++ rest)
  /-- They end too early. -/
  | ended {tokens : List Token} {expected : String} (begins : Begins derives tokens)
      (refused : read tokens = .error (.ended expected)) : Reading derives read tokens
  /-- A token does not fit behind those before it. -/
  | unexpected (front : List Token) {after : List Token} {token : Token} (expected : String)
      (begins : Begins derives front)
      (refused : ∀ token' after', token'.kind.outline = token.kind.outline →
        read (front ++ token' :: after') =
          .error (.unexpected expected token'.kind.shown token'.position)) :
      Reading derives read (front ++ token :: after)
  /-- The string behind a LIKE is no pattern, where one that is a pattern would fit. -/
  | unreadable (front : List Token) {after : List Token} {mark written : String}
      {place position : Nat} (spelled : Spells mark "LIKE")
      (noPattern : Pattern.ofText? written = none)
      (begins : Begins derives (front ++ [⟨.word mark, place⟩, ⟨.quoted "", position⟩]))
      (refused : ∀ after',
        read (front ++ ⟨.word mark, place⟩ :: ⟨.quoted written, position⟩ :: after') =
          .error (.wildcards written)) :
      Reading derives read (front ++ ⟨.word mark, place⟩ :: ⟨.quoted written, position⟩ :: after)

/-! ## Tokens that start alike -/

theorem sameHead_refl (tokens : List Token) : SameHead tokens tokens := rfl

theorem SameHead.append {tokens tokens' : List Token} (same : SameHead tokens tokens')
    (front : List Token) : SameHead (front ++ tokens) (front ++ tokens') := by
  cases front with
  | nil => exact same
  | cons => rfl

theorem sameHead_cons {token token' : Token} (alike : token'.kind.outline = token.kind.outline)
    (after after' : List Token) : SameHead (token :: after) (token' :: after') :=
  congrArg some alike

theorem SameHead.cases {tokens tokens' : List Token} (same : SameHead tokens tokens') :
    tokens = [] ∧ tokens' = [] ∨
    ∃ token after token' after', tokens = token :: after ∧ tokens' = token' :: after' ∧
      token'.kind.outline = token.kind.outline := by
  cases tokens with
  | nil =>
    cases tokens' with
    | nil => exact .inl ⟨rfl, rfl⟩
    | cons => cases same
  | cons token after =>
    cases tokens' with
    | nil => cases same
    | cons token' after' =>
      exact .inr ⟨token, after, token', after', rfl, rfl, Option.some.inj same⟩

/-- All but strings have an outline of their own. -/
theorem eq_of_outline {kind other : TokenKind} (alike : other.outline = kind.outline)
    (unquoted : ∀ text, kind ≠ .quoted text) : other = kind := by
  cases kind with
  | quoted text => exact absurd rfl (unquoted text)
  | _ => cases other <;> first | exact alike | cases alike

/-- A token that is no string stands at the head of both, or of neither. -/
theorem SameHead.starts {tokens after' : List Token} {kind : TokenKind} {position : Nat}
    (same : SameHead tokens (⟨kind, position⟩ :: after'))
    (unquoted : ∀ text, kind ≠ .quoted text) : ∃ place after, tokens = ⟨kind, place⟩ :: after := by
  obtain ⟨_, none⟩ | ⟨⟨other, place⟩, after, token', more, rfl, some, alike⟩ := same.cases
  · cases none
  · cases some
    obtain rfl := eq_of_outline alike.symm unquoted
    exact ⟨place, after, rfl⟩

/-- So does a string, whatever it says. -/
theorem SameHead.startsQuoted {tokens after' : List Token} {text : String} {position : Nat}
    (same : SameHead tokens (⟨.quoted text, position⟩ :: after')) :
    ∃ text' place after, tokens = ⟨.quoted text', place⟩ :: after := by
  obtain ⟨_, none⟩ | ⟨⟨other, place⟩, after, token', more, rfl, some, alike⟩ := same.cases
  · cases none
  · cases some
    cases other with
    | quoted text' => exact ⟨text', place, after, rfl⟩
    | _ => cases alike

theorem spells_outline (kind : TokenKind) (keyword : String) :
    kind.outline.spells keyword = kind.spells keyword := by
  cases kind <;> rfl

/-- A keyword that is not there is not there either behind the same head. -/
theorem skipKeyword?_sameHead {keyword : String} {tokens tokens' : List Token}
    (same : SameHead tokens tokens') (missing : skipKeyword? keyword tokens = none) :
    skipKeyword? keyword tokens' = none := by
  obtain ⟨rfl, rfl⟩ | ⟨token, after, token', after', rfl, rfl, alike⟩ := same.cases
  · rfl
  · have spells : token'.kind.spells keyword = token.kind.spells keyword := by
      rw [← spells_outline, alike, spells_outline]
    simpa [skipKeyword?, spells] using missing

/-! ## Putting runs together -/

section Runs

variable {derives derives' : List TokenKind → α → Prop} {read read' : Reader α}

/-- A run behind tokens that are taken for sure, seen from in front of them. -/
theorem Reading.lift (front : List Token) {rest : List Token} (reading : Reading derives read rest)
    (joins : ∀ ks value, derives ks value → derives' (front.map Token.kind ++ ks) value)
    (steps : ∀ rest', SameHead rest rest' → read' (front ++ rest') = read rest') :
    Reading derives' read' (front ++ rest) := by
  have lifts : ∀ tokens, Begins derives tokens → Begins derives' (front ++ tokens) := by
    intro tokens begins
    obtain ⟨more, value, derived⟩ := begins
    exact ⟨more, value, by simpa using joins _ _ derived⟩
  cases reading with
  | taken first derived steady =>
    rw [← List.append_assoc]
    apply Reading.taken (front ++ first) (by simpa using joins _ _ derived)
    intro rest' same
    rw [List.append_assoc, steps _ (same.append first), steady rest' same]
  | ended begins refused =>
    exact .ended (lifts _ begins) ((steps rest (sameHead_refl rest)).trans refused)
  | @unexpected before after token expected begins refused =>
    rw [← List.append_assoc]
    apply Reading.unexpected (front ++ before) expected (lifts _ begins)
    intro token' after' alike
    rw [List.append_assoc, steps _ ((sameHead_cons alike after after').append before),
      refused token' after' alike]
  | @unreadable before after mark written place position spelled noPattern begins refused =>
    rw [← List.append_assoc]
    apply Reading.unreadable (front ++ before) spelled noPattern (by simpa using lifts _ begins)
    intro after'
    have same : SameHead (⟨.word mark, place⟩ :: ⟨.quoted written, position⟩ :: after)
        (⟨.word mark, place⟩ :: ⟨.quoted written, position⟩ :: after') := rfl
    rw [List.append_assoc, steps _ (same.append before), refused after']

/-- Behind such tokens the grammar is what is left of the whole. -/
theorem Reading.after (front : List Token) {rest : List Token}
    (reading : Reading (fun ks => derives (front.map Token.kind ++ ks)) read rest)
    (steps : ∀ rest', SameHead rest rest' → read' (front ++ rest') = read rest') :
    Reading derives read' (front ++ rest) :=
  reading.lift front (fun _ _ derived => derived) steps

/-- Nothing is taken where nothing has to be. -/
theorem reading_pure {value : α} (derived : derives [] value) (tokens : List Token) :
    Reading derives (fun rest => .ok (value, rest)) tokens :=
  .taken [] derived fun _ _ => rfl

/-- The head is refused here, and something else in its place would do. -/
theorem reading_refusal {tokens : List Token} (expected : String)
    (opens : ∃ ks value, derives ks value)
    (refused : ∀ tokens', SameHead tokens tokens' →
      read tokens' = .error (refusal expected tokens')) : Reading derives read tokens := by
  cases tokens with
  | nil => exact .ended opens (refused [] rfl)
  | cons token after =>
    apply Reading.unexpected [] expected opens
    intro token' after' alike
    exact refused _ (sameHead_cons alike after after')

end Runs

/-- One run behind another. -/
theorem Reading.bind {first : List TokenKind → α → Prop} {derives : List TokenKind → β → Prop}
    {read : Reader α} {next : α × List Token → Except SyntaxError (β × List Token)}
    {tokens : List Token} (reading : Reading first read tokens)
    (opens : ∀ front value, first front value → ∃ ks result, derives (front ++ ks) result)
    (behind : ∀ front value rest, first front value → read tokens = .ok (value, rest) →
      Reading (fun ks => derives (front ++ ks)) (fun rest => next (value, rest)) rest) :
    Reading derives (fun tokens => read tokens >>= next) tokens := by
  have lifts : ∀ tokens, Begins first tokens → Begins derives tokens := by
    intro tokens begins
    obtain ⟨more, value, derived⟩ := begins
    obtain ⟨ks, result, whole⟩ := opens _ _ derived
    exact ⟨more ++ ks, result, by rwa [← List.append_assoc]⟩
  cases reading with
  | @taken front rest value derived steady =>
    apply (behind _ _ _ derived (steady rest (sameHead_refl rest))).after front
    intro rest' same
    rw [steady rest' same, ok_bind]
  | ended begins refused => exact .ended (lifts _ begins) (by rw [refused, error_bind])
  | unexpected front expected begins refused =>
    apply Reading.unexpected front expected (lifts _ begins)
    intro token' after' alike
    rw [refused token' after' alike, error_bind]
  | unreadable front spelled noPattern begins refused =>
    apply Reading.unreadable front spelled noPattern (lifts _ begins)
    intro after'
    rw [refused after', error_bind]

/-- What is read becomes a part of the result. -/
theorem Reading.map {first : List TokenKind → α → Prop} {derives : List TokenKind → β → Prop}
    {read : Reader α} {tokens : List Token} (wrap : α → β) (reading : Reading first read tokens)
    (wraps : ∀ ks value, first ks value → derives ks (wrap value)) :
    Reading derives
      (fun tokens => read tokens >>= fun (value, rest) => .ok (wrap value, rest)) tokens := by
  apply reading.bind
  · intro front value derived
    exact ⟨[], wrap value, by simpa using wraps front value derived⟩
  · intro front value rest derived _
    exact reading_pure (by simpa using wraps front value derived) rest

/-! ## Words -/

/-- Any word, or another token in its place. -/
theorem reading_name {derives : List TokenKind → α → Prop} {expected : String}
    {next : String × List Token → Except SyntaxError (α × List Token)} (tokens : List Token)
    (opens : ∃ text ks value, derives (.word text :: ks) value)
    (behind : ∀ text rest,
      Reading (fun ks => derives (.word text :: ks)) (fun rest => next (text, rest)) rest) :
    Reading derives (fun tokens => readName expected tokens >>= next) tokens := by
  by_cases named : ∃ text position rest, tokens = ⟨.word text, position⟩ :: rest
  · obtain ⟨text, position, rest, rfl⟩ := named
    exact (behind text rest).after [⟨.word text, position⟩] fun _ _ => rfl
  · obtain ⟨text, ks, value, derived⟩ := opens
    apply reading_refusal expected ⟨_, value, derived⟩
    intro tokens' same
    have refused : readName expected tokens' = .error (refusal expected tokens') := by
      unfold readName
      split
      · obtain ⟨place, after, rfl⟩ := same.starts (by simp)
        exact absurd ⟨_, place, after, rfl⟩ named
      · rfl
    rw [refused, error_bind]

section Keywords

variable {derives : List TokenKind → α → Prop} {keyword : String} (known : keyword ∈ keywords)
include known

/-- The keyword, or another token in its place. -/
theorem reading_keyword {next : Reader α} (tokens : List Token)
    (opens : ∃ ks value, derives (.word keyword :: ks) value)
    (behind : ∀ mark rest, Spells mark keyword →
      Reading (fun ks => derives (.word mark :: ks)) next rest) :
    Reading derives (fun tokens => readKeyword keyword tokens >>= next) tokens := by
  cases skipped : skipKeyword? keyword tokens with
  | none =>
    obtain ⟨ks, value, derived⟩ := opens
    apply reading_refusal keyword ⟨_, value, derived⟩
    intro tokens' same
    rw [readKeyword, skipKeyword?_sameHead same skipped, error_bind]
  | some rest =>
    obtain ⟨mark, position, rfl, spelled⟩ := (skipKeyword?_eq_some known).1 skipped
    apply (behind mark rest spelled).after [⟨.word mark, position⟩]
    intro rest' _
    rw [List.singleton_append, readKeyword, skipKeyword?_spelled spelled known, ok_bind]

/-- What follows the keyword, or what may stand here without it. -/
theorem reading_optional {other next : Reader α} {tokens : List Token}
    (without : Reading derives other tokens)
    (behind : ∀ mark rest, Spells mark keyword →
      Reading (fun ks => derives (.word mark :: ks)) next rest) :
    Reading derives (fun tokens =>
      match skipKeyword? keyword tokens with
      | none => other tokens
      | some rest => next rest) tokens := by
  cases skipped : skipKeyword? keyword tokens with
  | none =>
    apply without.after []
    intro tokens' same
    rw [List.nil_append, skipKeyword?_sameHead same skipped]
  | some rest =>
    obtain ⟨mark, position, rfl, spelled⟩ := (skipKeyword?_eq_some known).1 skipped
    apply (behind mark rest spelled).after [⟨.word mark, position⟩]
    intro rest' _
    rw [List.singleton_append, skipKeyword?_spelled spelled known]

end Keywords

end TableQuery.Sql
