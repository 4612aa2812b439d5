import TableQuery.Proofs.Comparison
import TableQuery.Proofs.ConditionChain
import TableQuery.Proofs.Rendering
import TableQuery.Proofs.Wildcards

/-!
# What a condition asks of a cell

The rows that a chain keeps are told by the truth of its conditions, and the truth of a condition is
that of its operator or its pattern. Here the two ends are joined: a comparison asks of two numerals
what its operator asks of their values, and of any other cells what it asks of their texts; a
pattern asks that the cell fills it in, or that its two texts overlap in the cell (`Asks`,
`holdsOn_iff_asks`).
-/

namespace TableQuery.Sql

/-- What an operator says of two values of an order. -/
def Comparator.Relates {α : Type} [LT α] [LE α] : Comparator → α → α → Prop
  | lt, a, b => a < b
  | le, a, b => a ≤ b
  | gt, a, b => b < a
  | ge, a, b => b ≤ a
  | eq, a, b => a = b
  | ne, a, b => a ≠ b

/-- An operator goes by the comparison of two values just when it relates them. -/
theorem Comparator.holds_compare_iff {α : Type} [LinearOrder α] (op : Comparator) (a b : α) :
    op.holds (compare a b) = true ↔ op.Relates a b := by
  cases op with
  | lt => exact beq_iff_eq.trans compare_lt_iff_lt
  | le => exact bne_iff_ne.trans compare_le_iff_le
  | gt => exact beq_iff_eq.trans compare_gt_iff_gt
  | ge => exact bne_iff_ne.trans compare_ge_iff_ge
  | eq => exact beq_iff_eq.trans compare_eq_iff_eq
  | ne => exact bne_iff_ne.trans (not_congr compare_eq_iff_eq)

end TableQuery.Sql

namespace TableQuery.Answer

open TableQuery.Sql
open TableQuery.Sql.Pattern (Fills Overlaps)

/-- The cells are related as numbers, if both are numerals, and otherwise as texts. -/
def RelatesCells (op : Comparator) (cell literal : String) : Prop :=
  (∃ x y, Writes cell x ∧ Writes literal y ∧ op.Relates x y) ∨
    ¬((∃ x, Writes cell x) ∧ ∃ y, Writes literal y) ∧ op.Relates cell literal

def Asks (cell : String) : Condition → Prop
  | .compare _ op literal => RelatesCells op cell literal
  | .like _ pattern =>
    Fills pattern.text.toList cell.toList ∨ Overlaps pattern.text.toList cell.toList

/-- An operator means the same whether it is computed from the order of cells or said of numerals
and texts. -/
theorem satisfies_iff_relatesCells (op : Comparator) (cell literal : String) :
    satisfies op cell literal = true ↔ RelatesCells op cell literal := by
  unfold satisfies RelatesCells
  by_cases numerals : (∃ x, Writes cell x) ∧ ∃ y, Writes literal y
  · obtain ⟨⟨x, first⟩, y, second⟩ := numerals
    rw [compareCells_of_writes first second, op.holds_compare_iff]
    constructor
    · intro related
      exact .inl ⟨x, y, first, second, related⟩
    · rintro (⟨x', y', first', second', related⟩ | ⟨texts, _⟩)
      · rwa [first.unique first', second.unique second']
      · exact absurd ⟨⟨x, first⟩, y, second⟩ texts
  · rw [compareCells_of_text (by rwa [writesInteger_iff, writesInteger_iff]),
      compareTexts_eq_compare, op.holds_compare_iff]
    constructor
    · intro related
      exact .inr ⟨numerals, related⟩
    · rintro (⟨x, y, first, second, _⟩ | ⟨_, related⟩)
      · exact absurd ⟨⟨x, first⟩, y, second⟩ numerals
      · exact related

/-- The truth of a condition that a query can be written with is what it asks of the cell. -/
theorem holdsOfCell_iff_asks {condition : Condition} (wellFormed : condition.WellFormed)
    (cell : String) : holdsOfCell condition cell = true ↔ Asks cell condition := by
  cases condition with
  | compare column op literal => exact satisfies_iff_relatesCells op cell literal
  | like column pattern =>
    obtain ⟨_, raw, accepted⟩ := wellFormed
    rw [Asks, Pattern.text_of_ofText? accepted]
    exact Pattern.holds_iff accepted cell

/-- Of a row, a condition asks it of the cell in its column. -/
theorem holdsOn_iff_asks {condition : Condition} (wellFormed : condition.WellFormed) (row : Row) :
    holdsOn row condition = true ↔ ∃ cell ∈ row.get? condition.column, Asks cell condition := by
  unfold holdsOn
  cases row.get? condition.column with
  | none => simp
  | some cell => simpa using holdsOfCell_iff_asks wellFormed cell

/-- Each condition of a query that was parsed holds of a row with its column just when the cell
there is what the condition asks for. -/
theorem holdsOn_of_parse {text : String} {query : Query} (parsed : Query.parse text = .ok query)
    {predicate : Predicate} (given : query.predicate = some predicate) (row : Row) :
    ∀ condition ∈ predicate.conditions, holdsOn row condition = true ↔
      ∃ cell ∈ row.get? condition.column, Asks cell condition := by
  intro condition listed
  have wellFormed := (wellFormed_of_parse parsed).predicate predicate given condition listed
  exact holdsOn_iff_asks wellFormed row

end TableQuery.Answer
