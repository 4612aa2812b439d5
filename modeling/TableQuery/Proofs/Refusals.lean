import TableQuery.Proofs.Partition
import TableQuery.Proofs.ViablePrefix

/-!
# What a refusal tells

A refusal either blames a token, and then it gives the token as it is shown and the byte where it
starts, both also in its message (`Points`), or it has a message alone (`States`). Where no token
can be cut off, and where no query goes on, the refusal tells what stands there; and whatever a
parsed text is refused for, a byte that is given is one where the text holds what is shown
(`parse_error_points`).
-/

namespace TableQuery.Sql

namespace SyntaxError

/-- The refusal blames what is shown so, at this byte, and says both. -/
structure Points (error : SyntaxError) (found : String) (position : Nat) : Prop where
  token : error.token? = some found
  place : error.position? = some position
  message : ∃ expected, error.message =
    "Expected " ++ expected ++ " but found '" ++ found ++ "' at position " ++ toString position

/-- The refusal blames nothing in particular, and this is what it says. -/
structure States (error : SyntaxError) (message : String) : Prop where
  token : error.token? = none
  place : error.position? = none
  message : error.message = message

/-- The words of an unexpected token name it and its byte. -/
theorem points_unexpected (expected found : String) (position : Nat) :
    (unexpected expected found position).Points found position :=
  ⟨rfl, rfl, expected, rfl⟩

end SyntaxError

/-- Where no token starts, the character there is blamed, or it opens a string and the message says
at which byte. -/
theorem told_of_stuck {position : Nat} {first : Char} {rest : List Char} {error : SyntaxError}
    (stuck : Stuck position first rest error) :
    first ∈ ['(', ')', '!'] ∧ error.Points first.toString position ∨
      first = '\'' ∧ error.States
        ("Unterminated string literal starting at position " ++ toString position) := by
  cases stuck with
  | parenthesis bracket =>
    refine .inl ⟨?_, SyntaxError.points_unexpected _ _ position⟩
    rcases bracket with rfl | rfl <;> decide
  | bang => exact .inl ⟨by decide, SyntaxError.points_unexpected _ _ position⟩
  | unclosed => exact .inr ⟨rfl, rfl, rfl, rfl⟩

/-- A token with which no query goes on is blamed, unless it is a string behind LIKE that is no
pattern, which is then told as it stands. -/
theorem told_of_blames {before : List Token} {token : Token} {e : SyntaxError}
    (blames : Blames before token e) :
    e.Points token.kind.shown token.position ∨
      ∃ written, token.kind = .quoted written ∧
        e.States ("Unsupported wildcard placement in LIKE '" ++ written ++ "'") := by
  rcases blames.told with ⟨written, isRefused, rfl⟩ | ⟨_, expected, rfl⟩
  · exact .inr ⟨written, isRefused.string, rfl, rfl, rfl⟩
  · exact .inl (SyntaxError.points_unexpected expected _ _)

/-- A byte that the grammar gives is that of one of the tokens. -/
theorem points_of_ofTokens {tokens : List Token} {e : SyntaxError} {position : Nat}
    (rejected : Query.ofTokens tokens = .error e) (told : e.position? = some position) :
    ∃ token ∈ tokens, token.position = position ∧ e.Points token.kind.shown position := by
  have read := readQuery_eq_error.2 rejected
  cases reading_query tokens with
  | taken front derived steady =>
    rw [steady _ (sameHead_refl _)] at read
    cases read
  | ended begins refused =>
    rw [refused] at read
    cases read
    cases told
  | @unexpected front after token expected begins refused =>
    rw [refused token after rfl] at read
    cases read
    obtain rfl := Option.some.inj told
    exact ⟨token, by simp, rfl, SyntaxError.points_unexpected expected _ _⟩
  | unreadable front spelled noPattern begins refused =>
    rw [refused] at read
    cases read
    cases told

/-- What is shown for a byte stands in the text from there: the spelling of a token, or a character
with which none starts. -/
theorem parse_error_points {text : String} {e : SyntaxError} {position : Nat}
    (rejected : Query.parse text = .error e) (told : e.position? = some position) :
    ∃ front written back, text.toList = front ++ (written ++ back) ∧
      position = (String.ofList front).utf8ByteSize ∧
      ((∃ kind, Spelling kind written ∧ e.Points kind.shown position) ∨
        ∃ c ∈ ['(', ')', '!'], written = [c] ∧ e.Points c.toString position) := by
  unfold Query.parse at rejected
  rcases partitions_or_halts text with
    ⟨pieces, blanks, tokens, partitions⟩ | ⟨pieces, blanks, first, rest, error, halts⟩
  · rw [tokenize_of_partitions partitions, ok_bind] at rejected
    obtain ⟨token, listed, rfl, points⟩ := points_of_ofTokens rejected told
    rw [partitions.carried] at listed
    obtain ⟨front, written, back, split, spelled, start⟩ := partitions.cut.stands token listed
    refine ⟨front, written, back, ?_, by rw [start, Text.utf8ByteSize_ofList],
      .inl ⟨token.kind, spelled, points⟩⟩
    rw [partitions.covers, ← split, List.nil_append]
  · rw [tokenize_of_halts halts] at rejected
    obtain rfl : error = e := Except.error.inj rejected
    rcases told_of_stuck halts.stuck with ⟨bracket, points⟩ | ⟨_, stated⟩
    · obtain rfl := Option.some.inj (told.symm.trans points.place)
      refine ⟨charsOf pieces ++ blanks, [first], rest, ?_, rfl, .inr ⟨first, bracket, rfl, points⟩⟩
      rw [halts.covers, List.append_assoc, List.singleton_append]
    · rw [stated.place] at told
      cases told

end TableQuery.Sql
