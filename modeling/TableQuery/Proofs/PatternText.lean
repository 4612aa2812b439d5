import Mathlib.Data.List.Basic
import TableQuery.Proofs.Wildcards

/-!
# Patterns as they are written

Patterns of different shapes may be written alike: a percent sign alone would do for an empty start
and for an empty end, two of them for an empty text that is contained and for an end that holds a
percent sign itself. Reading takes one pattern for each text, so that it undoes writing for the
patterns that `IsRead` describes and for no others. `WellPlaced` says which texts are read, by the
number of their percent signs and the places of these; what is read is written as that text again
(`reading_inverts_writing`).
-/

namespace TableQuery.Sql.Pattern

open TableQuery.Text

/-- There is no percent sign, there is one, or there are two, the first and the last character. -/
def WellPlaced (cs : List Char) : Prop :=
  cs.count '%' = 0 ∨ cs.count '%' = 1 ∨
    cs.count '%' = 2 ∧ cs.head? = some '%' ∧ cs.getLast? = some '%'

/-- The texts on either side of the percent signs that the pattern is written with. -/
def pieces : Pattern → List (List Char)
  | exact text => [text.toList]
  | starts text => [text.toList, []]
  | ends text => [[], text.toList]
  | contains text => [[], text.toList, []]
  | enclosed start finish => [start.toList, finish.toList]

variable {raw : String} {pattern : Pattern}

/-! ## Reading what was written -/

/-- A pattern is written by putting the signs back between its texts. -/
theorem toList_text (pattern : Pattern) : pattern.text.toList = join '%' pattern.pieces := by
  cases pattern <;> simp [text, pieces, join]

theorem cut_text (isRead : pattern.IsRead) : cut '%' pattern.text.toList = pattern.pieces := by
  rw [toList_text]
  apply cut_join
  · cases pattern <;> simp [pieces]
  · cases pattern <;> simp_all [pieces, IsRead]

theorem ofText?_text (isRead : pattern.IsRead) : ofText? pattern.text = some pattern := by
  rw [ofText?, cut_text isRead]
  cases pattern with
  | exact text | ends text | contains text => simp [pieces]
  | starts text =>
    -- An empty start would be taken for an empty end, which is looked for first.
    obtain ⟨c, rest, occupied⟩ := List.exists_cons_of_ne_nil isRead.1
    simp [pieces, occupied, ← String.toList_inj]
  | enclosed start finish =>
    obtain ⟨c, rest, occupied⟩ := List.exists_cons_of_ne_nil isRead.1.1
    obtain ⟨c', rest', occupied'⟩ := List.exists_cons_of_ne_nil isRead.2.1
    simp [pieces, occupied, occupied', ← String.toList_inj]

/-- What is read as a pattern is that pattern's own text. -/
theorem ofText?_eq_some_iff :
    ofText? raw = some pattern ↔ pattern.text = raw ∧ pattern.IsRead := by
  constructor
  · intro accepted
    exact ⟨text_of_ofText? accepted, isRead_of_ofText? accepted⟩
  · rintro ⟨rfl, isRead⟩
    exact ofText?_text isRead

/-! ## Which texts are read -/

theorem count_text (isRead : pattern.IsRead) :
    pattern.text.toList.count '%' + 1 = pattern.pieces.length := by
  rw [← length_cut, cut_text isRead]

theorem wellPlaced_text (isRead : pattern.IsRead) : WellPlaced pattern.text.toList := by
  have count := count_text isRead
  cases pattern with
  | exact text => exact .inl (Nat.succ.inj count)
  | starts text | ends text | enclosed start finish => exact .inr (.inl (Nat.succ.inj count))
  | contains text =>
    have written : (contains text).text.toList = '%' :: text.toList ++ ['%'] := by
      simp [Pattern.text]
    refine .inr (.inr ⟨Nat.succ.inj count, ?_, ?_⟩)
    · rw [written, List.cons_append, List.head?_cons]
    · rw [written, List.getLast?_concat]

/-- Two percent signs that a text starts and ends with have one piece between them. -/
theorem cut_of_ends {cs : List Char} (count : cs.count '%' = 2) (first : cs.head? = some '%')
    (last : cs.getLast? = some '%') : ∃ text, cut '%' cs = [[], text, []] := by
  obtain ⟨rest, rfl⟩ := List.head?_eq_some_iff.1 first
  obtain ⟨front, split⟩ := List.getLast?_eq_some_iff.1 last
  cases front with
  | nil =>
    rw [split] at count
    cases count
  | cons c text =>
    have behind : rest = text ++ ['%'] := (List.cons.inj split).2
    have absent : '%' ∉ text := by simpa [behind, List.count_eq_zero] using count
    refine ⟨text, ?_⟩
    rw [behind, cut, if_pos rfl, cut_append absent, cut]

theorem isSome_of_wellPlaced (placed : WellPlaced raw.toList) : (ofText? raw).isSome = true := by
  have length := length_cut '%' raw.toList
  unfold ofText?
  rcases placed with count | count | ⟨count, first, last⟩
  · rw [count] at length
    obtain ⟨text, pieces⟩ := List.length_eq_one_iff.1 length
    rw [pieces]
    rfl
  · rw [count] at length
    obtain ⟨start, finish, pieces⟩ := List.length_eq_two.1 length
    rw [pieces]
    cases start <;> cases finish <;> rfl
  · obtain ⟨text, pieces⟩ := cut_of_ends count first last
    rw [pieces]
    rfl

/-- Acceptance is a matter of where the signs stand. -/
theorem isSome_ofText?_iff : (ofText? raw).isSome = true ↔ WellPlaced raw.toList := by
  constructor
  · intro accepted
    obtain ⟨pattern, accepted⟩ := Option.isSome_iff_exists.1 accepted
    obtain ⟨rfl, isRead⟩ := ofText?_eq_some_iff.1 accepted
    exact wellPlaced_text isRead
  · exact isSome_of_wellPlaced

/-- Those texts are read whose percent signs are well placed, and what they are read as is written
as they are. A pattern is read back from the way it is written if it is one of those that `IsRead`
describes, and not otherwise. Different texts are never read as the same pattern. -/
theorem reading_inverts_writing :
    (∀ raw, (ofText? raw).isSome = true ↔ WellPlaced raw.toList) ∧
    (∀ raw pattern, ofText? raw = some pattern → pattern.text = raw) ∧
    (∀ pattern : Pattern, ofText? pattern.text = some pattern ↔ pattern.IsRead) ∧
    ∀ raw other, WellPlaced raw.toList → WellPlaced other.toList → raw ≠ other →
      ofText? raw ≠ ofText? other := by
  refine ⟨fun raw => isSome_ofText?_iff, fun raw pattern => text_of_ofText?, ?_, ?_⟩
  · intro pattern
    rw [ofText?_eq_some_iff]
    exact and_iff_right rfl
  · intro raw other placed _ distinct same
    obtain ⟨pattern, accepted⟩ := Option.isSome_iff_exists.1 (isSome_of_wellPlaced placed)
    have written : pattern.text = raw := text_of_ofText? accepted
    have written' : pattern.text = other := text_of_ofText? (same ▸ accepted)
    exact distinct (written.symm.trans written')

/-- A percent sign alone is read as an empty end, never as an empty start, and is told apart from
two of them. -/
theorem bareSigns_told_apart :
    ofText? "%" = some (ends "") ∧ (ends "").text = "%" ∧ (starts "").text = "%" ∧
      ofText? (ends "").text = some (ends "") ∧ ofText? (starts "").text ≠ some (starts "") ∧
      WellPlaced "%".toList ∧ WellPlaced "%%".toList ∧ "%" ≠ "%%" ∧
      ofText? "%" ≠ ofText? "%%" := by
  obtain ⟨placed, written, again, apart⟩ := reading_inverts_writing
  have single : ofText? "%" = some (ends "") := by decide
  have double : ofText? "%%" = some (contains "") := by decide
  have one : WellPlaced "%".toList := (placed "%").1 (by rw [single]; rfl)
  have two : WellPlaced "%%".toList := (placed "%%").1 (by rw [double]; rfl)
  have distinct : "%" ≠ "%%" := by decide
  refine ⟨single, written _ _ single, by decide, (again _).2 List.not_mem_nil, ?_, one, two,
    distinct, apart _ _ one two distinct⟩
  intro readBack
  exact ((again _).1 readBack).1 rfl

end TableQuery.Sql.Pattern
