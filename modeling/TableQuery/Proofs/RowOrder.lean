import TableQuery.Proofs.CellOrder
import TableQuery.Proofs.Evaluation
import TableQuery.Proofs.StableSort

/-!
# Rows in the order of a column

Rows of a table are always sorted by a column of it, and no row comes right behind one that it
should precede, whatever the cells hold (`sortRows_neighbours`). If all cells write integers, or
none does, the outcome is the stable sort, of which there is one (`sortRows_stably`).
-/

namespace TableQuery.Answer

open TableQuery.Sql

/-! ## Directions -/

theorem apply_eq_iff {direction : Direction} {order : Ordering} :
    direction.apply order = .eq ↔ order = .eq := by
  cases direction <;> cases order <;> decide

theorem apply_swap (direction : Direction) (order : Ordering) :
    direction.apply order.swap = (direction.apply order).swap := by
  cases direction <;> rfl

/-- In this direction the one cell may come before the other: going up it is not greater, and going
down it is not less. -/
def mayPrecede : Direction → String → String → Prop
  | .ascending, a, b => compareCells a b ≠ .gt
  | .descending, a, b => compareCells a b ≠ .lt

theorem mayPrecede_iff {direction : Direction} {a b : String} :
    mayPrecede direction a b ↔ direction.apply (compareCells a b) ≠ .gt := by
  cases direction with
  | ascending => rfl
  | descending => simp [mayPrecede, Direction.apply]

/-! ## Rows -/

section

variable {cells : String → String → Ordering} {order : OrderBy}

instance [Std.OrientedCmp cells] : Std.OrientedCmp (compareRows cells order) where
  eq_swap {a b} := by
    have turned : cells (a.cell order.column) (b.cell order.column) =
        (cells (b.cell order.column) (a.cell order.column)).swap := Std.OrientedCmp.eq_swap
    rw [compareRows, turned, apply_swap]
    rfl

instance [Std.TransCmp cells] : Std.TransCmp (compareRows cells order) where
  isLE_trans {a b c} first second := by
    unfold compareRows at *
    generalize order.direction = direction at *
    cases direction with
    | ascending => exact @Std.TransCmp.isLE_trans _ cells _ _ _ _ first second
    | descending =>
      simp only [Direction.apply, Ordering.isLE_swap] at first second ⊢
      exact Std.TransCmp.isGE_trans first second

end

/-! ## Any column -/

/-- Whatever is compared and however, sorting loses nothing; and whatever the cells of a column
hold, in the rows sorted by it none comes right behind one that it should precede. -/
theorem sortRows_neighbours :
    (∀ (α : Type) (cmp : α → α → Ordering) (items : List α), (mergeSort cmp items).Perm items) ∧
    ∀ (table : Table) (order : OrderBy) (rows : List Row), table.Shaped →
      order.column ∈ table.header → (∀ row ∈ rows, row ∈ table.views) →
      ∃ sorted, sortRows (some order) rows = .ok sorted ∧ sorted.Perm rows ∧
        sorted.IsChain fun a b =>
          mayPrecede order.direction (a.cell order.column) (b.cell order.column) := by
  refine ⟨fun α cmp items => mergeSort_perm cmp items, ?_⟩
  intro table order rows shaped known among
  refine ⟨_, sortRows_eq_ok shaped known among, mergeSort_perm _ _, ?_⟩
  have chain : (mergeSort (compareRows compareCells order) rows).IsChain
      (compareRows compareCells order · · ≠ .gt) := isChain_mergeSort rows
  exact chain.imp fun a b before => mayPrecede_iff.2 before

/-- Each of 9, 10 and 1a is smaller than the next, and 1a is smaller than 9. -/
def mixedTable : Table :=
  ⟨["n", "k"], [["a", "1a"], ["b", "9"], ["c", "10"], ["d", "1a"], ["e", "09"]]⟩

theorem mixedTable_shaped : mixedTable.Shaped :=
  ⟨by decide, by decide, by decide⟩

/-- No order of this table has all pairs right, and still no neighbours are wrong. -/
theorem mixedTable_neighbours :
    (mergeSort (fun _ _ => .gt) mixedTable.rows).Perm mixedTable.rows ∧
    ∃ sorted, sortRows (some ⟨"k", .descending⟩) mixedTable.views = .ok sorted ∧
      sorted.Perm mixedTable.views ∧
      sorted.IsChain fun a b => mayPrecede .descending (a.cell "k") (b.cell "k") :=
  ⟨sortRows_neighbours.1 _ _ _, sortRows_neighbours.2 mixedTable ⟨"k", .descending⟩
    mixedTable.views mixedTable_shaped (by decide) fun _ member => member⟩

/-! ## A column of one kind -/

/-- All cells of the column write integers, or none does. -/
def Uniform (column : String) (rows : List Row) : Prop :=
  (∀ row ∈ rows, writesInteger (row.cell column) = true) ∨
    ∀ row ∈ rows, writesInteger (row.cell column) = false

/-- The key of the other row is equal to the key of this one, as are 020 and 20. -/
def sameKey (column : String) (row other : Row) : Bool :=
  compareCells (other.cell column) (row.cell column) == .eq

/-- The rows in the order asked for, and rows of equal keys as they stood, in both directions. -/
structure StablySorted (order : OrderBy) (rows sorted : List Row) : Prop where
  perm : sorted.Perm rows
  ordered : sorted.Pairwise fun a b =>
    mayPrecede order.direction (a.cell order.column) (b.cell order.column)
  stable : ∀ row ∈ rows, sorted.filter (sameKey order.column row) =
    rows.filter (sameKey order.column row)

/-- In the terms of the rows what `SortsStably` says of their comparison. -/
theorem stablySorted_iff {order : OrderBy} {rows sorted : List Row} :
    StablySorted order rows sorted ↔ SortsStably (compareRows compareCells order) rows sorted := by
  have ties : ∀ row, sameKey order.column row =
      (compareRows compareCells order · row == .eq) := by
    intro row
    funext other
    rw [sameKey, compareRows, Bool.eq_iff_iff, beq_iff_eq, beq_iff_eq, apply_eq_iff]
  constructor
  · rintro ⟨perm, ordered, stable⟩
    refine ⟨perm, ordered.imp fun before => mayPrecede_iff.1 before, fun row member => ?_⟩
    rw [← ties]
    exact stable row member
  · rintro ⟨perm, ordered, stable⟩
    refine ⟨perm, ordered.imp fun before => mayPrecede_iff.2 before, fun row member => ?_⟩
    rw [ties]
    exact stable row member

/-- Cells of one kind stand in an order that is transitive. -/
theorem transCmp_of_uniform {order : OrderBy} {rows : List Row}
    (uniform : Uniform order.column rows) :
    ∃ cells, Std.TransCmp cells ∧ ∀ a ∈ rows, ∀ b ∈ rows,
      compareRows compareCells order a b = compareRows cells order a b := by
  rcases uniform with integers | texts
  · refine ⟨compareIntegers, inferInstance, fun a left b right => ?_⟩
    rw [compareRows, compareCells_of_integers (integers a left) (integers b right)]
    rfl
  · refine ⟨compareTexts, inferInstance, fun a left b right => ?_⟩
    rw [compareRows, compareCells_of_text (by simp [texts a left])]
    rfl

/-- Rows of a table sorted by a column of one kind are in order, with rows of equal keys as they
stood, and no other list of these rows is so. -/
theorem sortRows_stably {table : Table} {order : OrderBy} {rows : List Row}
    (shaped : table.Shaped) (known : order.column ∈ table.header)
    (among : ∀ row ∈ rows, row ∈ table.views) (uniform : Uniform order.column rows) :
    ∃ sorted, sortRows (some order) rows = .ok sorted ∧ StablySorted order rows sorted ∧
      ∀ other, StablySorted order rows other → other = sorted := by
  obtain ⟨cells, transitive, agree⟩ := transCmp_of_uniform uniform
  have sorts : SortsStably (compareRows cells order) rows
      (mergeSort (compareRows compareCells order) rows) := by
    rw [mergeSort_congr agree]
    exact sortsStably_mergeSort rows
  refine ⟨_, sortRows_eq_ok shaped known among, ?_, fun other stably => ?_⟩
  · exact stablySorted_iff.2 (sorts.congr fun a left b right => (agree a left b right).symm)
  · exact ((stablySorted_iff.1 stably).congr agree).unique sorts

/-- Two spellings of one number, between them a greater and a smaller one. -/
def tiedTable : Table :=
  ⟨["n", "k"], [["a", "020"], ["b", "100"], ["c", "-3"], ["d", "+20"]]⟩

/-- Equal keys need not be equal texts. -/
theorem tiedTable_sorted :
    tiedTable.Shaped ∧ Uniform "k" tiedTable.views ∧
    ∃ sorted, sortRows (some ⟨"k", .descending⟩) tiedTable.views = .ok sorted ∧
      StablySorted ⟨"k", .descending⟩ tiedTable.views sorted ∧
      ∀ other, StablySorted ⟨"k", .descending⟩ tiedTable.views other → other = sorted := by
  have shaped : tiedTable.Shaped := ⟨by decide, by decide, by decide⟩
  have uniform : Uniform "k" tiedTable.views := .inl (by decide)
  exact ⟨shaped, uniform, sortRows_stably shaped (by decide) (fun _ member => member) uniform⟩

end TableQuery.Answer
