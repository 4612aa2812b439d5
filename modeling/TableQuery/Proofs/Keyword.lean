import TableQuery.Sql.Parse

/-!
# Keywords

A word spells a keyword when both agree but for the case of ASCII letters. The readers raise the
word to capitals and compare; since keywords are written in capitals, this is the same
(`spells_iff`). No word spells two keywords, so that a reader that looks for one of them never
takes another (`skipKeyword?_other`).
-/

namespace TableQuery.Sql

/-- The word is the keyword, the case of ASCII letters aside. -/
def Spells (word keyword : String) : Prop :=
  word.toList.map Char.toLower = keyword.toList.map Char.toLower

instance (word keyword : String) : Decidable (Spells word keyword) :=
  inferInstanceAs (Decidable (_ = _))

theorem toNat_toUpper (c : Char) :
    c.toUpper.toNat = if 97 ≤ c.toNat ∧ c.toNat ≤ 122 then c.toNat - 32 else c.toNat := by
  unfold Char.toUpper
  simp only [UInt32.le_iff_toNat_le]
  change (if h : 97 ≤ c.toNat ∧ c.toNat ≤ 122 then _ else c).toNat = _
  split
  · simp only [Char.toNat, UInt32.toNat_add]
    change (c.toNat + 4294967264) % 4294967296 = c.toNat - 32
    omega
  · rfl

theorem toNat_toLower (c : Char) :
    c.toLower.toNat = if 65 ≤ c.toNat ∧ c.toNat ≤ 90 then c.toNat + 32 else c.toNat := by
  unfold Char.toLower
  simp only [ge_iff_le, UInt32.le_iff_toNat_le]
  change (if h : 65 ≤ c.toNat ∧ c.toNat ≤ 90 then _ else c).toNat = _
  split
  · simp only [Char.toNat, UInt32.toNat_add]
    change (c.toNat + 32) % 4294967296 = c.toNat + 32
    omega
  · rfl

/-- Raising to a capital and lowering both sides are the same comparison. -/
theorem toUpper_eq_iff {c capital : Char} (isCapital : capital.isUpper = true) :
    c.toUpper = capital ↔ c.toLower = capital.toLower := by
  have bounds : 65 ≤ capital.toNat ∧ capital.toNat ≤ 90 := by
    have range : 'A'.val ≤ capital.val ∧ capital.val ≤ 'Z'.val := of_decide_eq_true isCapital
    exact ⟨UInt32.le_iff_toNat_le.1 range.1, UInt32.le_iff_toNat_le.1 range.2⟩
  rw [← Char.toNat_inj, ← Char.toNat_inj, toNat_toUpper, toNat_toLower, toNat_toLower,
    if_pos bounds]
  split <;> split <;> omega

theorem map_toUpper_eq_iff {cs capitals : List Char}
    (areCapital : ∀ c ∈ capitals, c.isUpper = true) :
    cs.map Char.toUpper = capitals ↔ cs.map Char.toLower = capitals.map Char.toLower := by
  induction capitals generalizing cs with
  | nil => simp
  | cons capital capitals ih =>
    cases cs with
    | nil => simp
    | cons c cs =>
      have head := @toUpper_eq_iff c capital (areCapital capital (by simp))
      have tail := @ih cs (fun c member => areCapital c (by simp [member]))
      simp only [List.map_cons, List.cons.injEq, head, tail]

theorem keywords_capital :
    ∀ keyword ∈ keywords, ∀ c ∈ keyword.toList, c.isUpper = true := by
  have all : keywords.all (·.toList.all Char.isUpper) = true := by decide
  simpa only [List.all_eq_true] using all

/-- Keywords differ in more than the case of their letters. -/
theorem keywords_apart : ∀ keyword ∈ keywords, ∀ other ∈ keywords,
    keyword.toList.map Char.toLower = other.toList.map Char.toLower → keyword = other := by
  decide

/-- Only words are keywords, and quoting takes this from them. -/
theorem spells_iff {keyword : String} (known : keyword ∈ keywords) (kind : TokenKind) :
    kind.spells keyword = true ↔ ∃ word, kind = .word word ∧ Spells word keyword := by
  have capital := keywords_capital keyword known
  cases kind with
  | word text => simp [TokenKind.spells, Spells, map_toUpper_eq_iff capital]
  | _ => simp [TokenKind.spells]

theorem isKeyword_iff (text : String) :
    isKeyword text = true ↔ ∃ keyword ∈ keywords, Spells text keyword := by
  unfold isKeyword
  rw [List.any_eq_true]
  constructor
  · rintro ⟨keyword, known, h⟩
    obtain ⟨word, same, spelled⟩ := (spells_iff known _).1 h
    cases same
    exact ⟨keyword, known, spelled⟩
  · rintro ⟨keyword, known, spelled⟩
    exact ⟨keyword, known, (spells_iff known _).2 ⟨text, rfl, spelled⟩⟩

/-- A keyword is passed over in any letter case. -/
theorem skipKeyword?_eq_some {keyword : String} (known : keyword ∈ keywords)
    {tokens rest : List Token} :
    skipKeyword? keyword tokens = some rest ↔
      ∃ word position, tokens = ⟨.word word, position⟩ :: rest ∧ Spells word keyword := by
  cases tokens with
  | nil => simp [skipKeyword?]
  | cons token tokens =>
    obtain ⟨kind, position⟩ := token
    simp only [skipKeyword?, Option.ite_none_right_eq_some, Option.some.injEq, spells_iff known]
    constructor
    · rintro ⟨⟨word, rfl, spelled⟩, rfl⟩
      exact ⟨word, position, rfl, spelled⟩
    · rintro ⟨word, place, same, spelled⟩
      cases same
      exact ⟨⟨word, rfl, spelled⟩, rfl⟩

/-- A word that spells one keyword spells no other. -/
theorem skipKeyword?_other {word keyword other : String} (spelled : Spells word keyword)
    (known : keyword ∈ keywords) (knownOther : other ∈ keywords) (different : keyword ≠ other)
    (position : Nat) (tokens : List Token) :
    skipKeyword? other (⟨.word word, position⟩ :: tokens) = none := by
  rw [Option.eq_none_iff_forall_ne_some]
  intro rest h
  obtain ⟨same, place, equal, spelledOther⟩ := (skipKeyword?_eq_some knownOther).1 h
  cases equal
  exact different (keywords_apart keyword known other knownOther (spelled.symm.trans spelledOther))

end TableQuery.Sql
