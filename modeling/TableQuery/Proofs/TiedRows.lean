import TableQuery.Proofs.RowOrder

/-!
# Rows with the same key

Rows whose keys are one text should come out of a sort as they stood, whatever else the column
holds. They do unless the keys are tangled: integers are compared by value and anything else by its
characters, so that three keys can lead round in a circle (`Tangle`), and in a circle a row can be
overtaken by one with its own key. On keys that are not tangled the comparison is transitive, and
the sort is stable; on tangled ones some rows lose their order (`sortKeepsTies_iff`).
-/

namespace TableQuery.Answer

open TableQuery.Text
open TableQuery.Sql (Direction OrderBy)

/-! ## Keys in a circle -/

/-- The first and the last are integers, and the first is not the greater; but as texts the last
stands in front of a text that is no integer, and that one in front of the first. -/
structure Tangle (low text high : String) : Prop where
  integers : writesInteger low = true ∧ writesInteger high = true
  plain : writesInteger text = false
  rising : compareIntegers low high ≠ .gt
  falling : compareTexts high text = .lt ∧ compareTexts text low = .lt

def Tangled (keys : Set String) : Prop :=
  ∃ low ∈ keys, ∃ text ∈ keys, ∃ high ∈ keys, Tangle low text high

/-- Each key of a tangle comes before the next, and the last one before the first. -/
theorem Tangle.circle {low text high : String} (tangle : Tangle low text high) :
    compareCells low high ≠ .gt ∧ compareCells high text = .lt ∧ compareCells text low = .lt := by
  rw [compareCells_of_integers tangle.integers.1 tangle.integers.2,
    compareCells_of_text (by simp [tangle.plain]), compareCells_of_text (by simp [tangle.plain])]
  exact ⟨tangle.rising, tangle.falling⟩

/-- An integer and a text that is none are never equal. -/
theorem lt_of_not_gt {a b : String} (kinds : writesInteger a ≠ writesInteger b)
    (before : compareTexts a b ≠ .gt) : compareTexts a b = .lt := by
  cases order : compareTexts a b with
  | lt => rfl
  | eq => exact absurd (congrArg writesInteger (Std.LawfulEqCmp.eq_of_compare order)) kinds
  | gt => exact absurd order before

/-- Nothing but a tangle keeps the order of cells from being transitive. -/
theorem compareCells_trans {keys : Set String} (untangled : ¬Tangled keys) {a b c : String}
    (keyA : a ∈ keys) (keyB : b ∈ keys) (keyC : c ∈ keys) (first : compareCells a b ≠ .gt)
    (second : compareCells b c ≠ .gt) : compareCells a c ≠ .gt := by
  intro greater
  have back : compareCells c a = .lt := Std.OrientedCmp.lt_of_gt greater
  cases integerA : writesInteger a <;> cases integerB : writesInteger b <;>
    cases integerC : writesInteger c
  case true.true.true =>
    rw [compareCells_of_integers integerA integerB] at first
    rw [compareCells_of_integers integerB integerC] at second
    rw [compareCells_of_integers integerA integerC] at greater
    exact not_gt_trans first second greater
  case true.true.false =>
    rw [compareCells_of_integers integerA integerB] at first
    rw [compareCells_of_text (by simp [integerC])] at second back
    have tangle : Tangle a c b := ⟨⟨integerA, integerB⟩, integerC, first,
      lt_of_not_gt (by simp [integerB, integerC]) second, back⟩
    exact untangled ⟨a, keyA, c, keyC, b, keyB, tangle⟩
  case true.false.true =>
    rw [compareCells_of_text (by simp [integerB])] at first second
    rw [compareCells_of_integers integerC integerA] at back
    have tangle : Tangle c b a := ⟨⟨integerC, integerA⟩, integerB, by simp [back],
      lt_of_not_gt (by simp [integerA, integerB]) first,
      lt_of_not_gt (by simp [integerB, integerC]) second⟩
    exact untangled ⟨c, keyC, b, keyB, a, keyA, tangle⟩
  case false.true.true =>
    rw [compareCells_of_text (by simp [integerA])] at first back
    rw [compareCells_of_integers integerB integerC] at second
    have tangle : Tangle b a c := ⟨⟨integerB, integerC⟩, integerA, second, back,
      lt_of_not_gt (by simp [integerA, integerB]) first⟩
    exact untangled ⟨b, keyB, a, keyA, c, keyC, tangle⟩
  -- With one integer at most, all three are compared as texts.
  all_goals
    rw [compareCells_of_text (by simp [*])] at first second greater
    exact not_gt_trans first second greater

theorem mayPrecede_descending {a b : String} :
    mayPrecede .descending a b ↔ compareCells b a ≠ .gt :=
  not_congr Std.OrientedCmp.gt_iff_lt.symm

/-- Without a tangle the order is transitive in both directions. -/
theorem mayPrecede_trans {keys : Set String} (untangled : ¬Tangled keys) {direction : Direction}
    {a b c : String} (keyA : a ∈ keys) (keyB : b ∈ keys) (keyC : c ∈ keys)
    (first : mayPrecede direction a b) (second : mayPrecede direction b c) :
    mayPrecede direction a c := by
  cases direction with
  | ascending => exact compareCells_trans untangled keyA keyB keyC first second
  | descending =>
    rw [mayPrecede_descending] at first second ⊢
    exact compareCells_trans untangled keyC keyB keyA second first

/-! ## Rows -/

/-- The rows are the given ones, and those with one text as their key stand as they stood. -/
structure KeepsTies (column : String) (rows sorted : List Row) : Prop where
  perm : sorted.Perm rows
  ties : ∀ text, sorted.filter (·.cell column == text) = rows.filter (·.cell column == text)

/-- Rows of any table with keys among these are sorted, and no two rows with the same key change
places. -/
def SortKeepsTies (direction : Direction) (keys : Set String) : Prop :=
  ∀ (table : Table) (column : String) (rows : List Row), table.Shaped → column ∈ table.header →
    (∀ row ∈ rows, row ∈ table.views) → (∀ row ∈ rows, row.cell column ∈ keys) →
    ∃ sorted, sortRows (some ⟨column, direction⟩) rows = .ok sorted ∧ KeepsTies column rows sorted

/-- Equal texts tie, so a stable sort keeps them in place. -/
theorem keepsTies_of_sortsStably {order : OrderBy} {rows sorted : List Row}
    (sorts : SortsStably (compareRows compareCells order) rows sorted) :
    KeepsTies order.column rows sorted := by
  refine ⟨sorts.perm, fun text => ?_⟩
  by_cases used : ∃ row ∈ rows, row.cell order.column = text
  · obtain ⟨row, among, rfl⟩ := used
    -- Rows with the same key are some of those that compare equal.
    have narrow : ∀ items : List Row,
        items.filter (·.cell order.column == row.cell order.column) =
          (items.filter (compareRows compareCells order · row == .eq)).filter
            (·.cell order.column == row.cell order.column) := by
      intro items
      rw [List.filter_filter]
      refine List.filter_congr fun other _ => ?_
      rw [Bool.eq_iff_iff, Bool.and_eq_true, beq_iff_eq, beq_iff_eq, compareRows, apply_eq_iff]
      refine ⟨fun same => ⟨same, ?_⟩, And.left⟩
      rw [same]
      exact Std.ReflCmp.compare_self
    rw [narrow sorted, sorts.stable row among, ← narrow rows]
  · have unused : ∀ items : List Row, items.Perm rows →
        items.filter (·.cell order.column == text) = [] := by
      intro items perm
      refine List.filter_eq_nil_iff.2 fun row member same => ?_
      exact used ⟨row, perm.mem_iff.1 member, beq_iff_eq.1 same⟩
    rw [unused sorted sorts.perm, unused rows (.refl rows)]

/-- Where the keys are not tangled, the comparison of rows is transitive. -/
theorem sortKeepsTies_of_untangled {keys : Set String} (untangled : ¬Tangled keys)
    (direction : Direction) : SortKeepsTies direction keys := by
  intro table column rows shaped known among keyed
  have sorts : SortsStably (compareRows compareCells ⟨column, direction⟩) rows
      (mergeSort (compareRows compareCells ⟨column, direction⟩) rows) := by
    refine sortsStably_of_transitive fun a memberA b memberB c memberC first second => ?_
    exact mayPrecede_iff.1 (mayPrecede_trans untangled (keyed a memberA) (keyed b memberB)
      (keyed c memberC) (mayPrecede_iff.2 first) (mayPrecede_iff.2 second))
  exact ⟨_, @sortRows_eq_ok table ⟨column, direction⟩ rows shaped known among,
    keepsTies_of_sortsStably sorts⟩

/-! ## Rows that are overtaken -/

/-- No step from `x` by `y` to `a` leads down, but `b`, with the key of `a`, is below `x`. -/
theorem mergeSort_overtakes {α : Type} {cmp : α → α → Ordering} {x y a b : α}
    (first : cmp x y ≠ .gt) (second : cmp y a ≠ .gt) (below : cmp x b = .gt)
    (tied : cmp b b ≠ .gt) : mergeSort cmp [x, y, a, b, b, b] = [b, b, b, x, y, a] := by
  simp [mergeSort, merge, first, second, below, tied]

/-- Six rows, of which the last four have one key. -/
def circling (first second key : String) : Table :=
  ⟨["k", "n"], [[first, ""], [second, ""], [key, "a"], [key, "b"], [key, "b"], [key, "b"]]⟩

theorem circling_shaped (first second key : String) : (circling first second key).Shaped :=
  ⟨by simp [circling], by simp [circling], by simp [circling]⟩

/-- The first of the four comes out behind the others. -/
theorem circling_overtakes {direction : Direction} {first second key : String}
    (up : mayPrecede direction first second) (up' : mayPrecede direction second key)
    (down : ¬mayPrecede direction first key) {sorted : List Row}
    (done : sortRows (some ⟨"k", direction⟩) (circling first second key).views = .ok sorted) :
    ¬KeepsTies "k" (circling first second key).views sorted := by
  intro keeps
  let row (cell mark : String) : Row := ⟨["k", "n"], [cell, mark]⟩
  have cells : ∀ a b mark mark', compareRows compareCells ⟨"k", direction⟩ (row a mark)
      (row b mark') = direction.apply (compareCells a b) := fun _ _ _ _ => rfl
  have tied : direction.apply (compareCells key key) ≠ .gt := by
    rw [apply_eq_iff.2 Std.ReflCmp.compare_self]
    decide
  have sort : mergeSort (compareRows compareCells ⟨"k", direction⟩)
      [row first "", row second "", row key "a", row key "b", row key "b", row key "b"] =
      [row key "b", row key "b", row key "b", row first "", row second "", row key "a"] := by
    refine mergeSort_overtakes ?_ ?_ ?_ ?_ <;> rw [cells]
    · exact mayPrecede_iff.1 up
    · exact mayPrecede_iff.1 up'
    · exact not_not.1 fun other => down (mayPrecede_iff.2 other)
    · exact tied
  rw [@sortRows_eq_ok _ ⟨"k", direction⟩ _ (circling_shaped first second key)
    (by simp [circling]) fun _ member => member] at done
  obtain rfl : [row key "b", row key "b", row key "b", row first "", row second "", row key "a"] =
      sorted := sort.symm.trans (Except.ok.inj done)
  have ends : ∀ (front : List Row) (mark : String),
      ((front ++ [row key mark]).filter (·.cell "k" == key)).getLast? = some (row key mark) := by
    intro front mark
    have own : (row key mark).cell "k" = key := rfl
    simp [List.filter_append, own]
  have last : some (row key "a") = some (row key "b") :=
    (ends [row key "b", row key "b", row key "b", row first "", row second ""] "a").symm.trans
      ((congrArg List.getLast? (keeps.ties key)).trans
        (ends [row first "", row second "", row key "a", row key "b", row key "b"] "b"))
  simp [row] at last

theorem cell_circling {keys : Set String} {first second key : String} (firstKey : first ∈ keys)
    (secondKey : second ∈ keys) (keyKey : key ∈ keys) :
    ∀ row ∈ (circling first second key).views, row.cell "k" ∈ keys := by
  intro row member
  obtain ⟨cells, stored, rfl⟩ := List.mem_map.1 member
  have own : ∀ cell mark, (Row.mk ["k", "n"] [cell, mark]).cell "k" = cell := fun _ _ => rfl
  simp only [circling, List.mem_cons, List.not_mem_nil, or_false] at stored
  rcases stored with rfl | rfl | rfl | rfl | rfl | rfl <;> simpa only [circling, own]

/-- Exactly on keys that are not tangled does a sort keep all rows with the same key in order. -/
theorem sortKeepsTies_iff (direction : Direction) (keys : Set String) :
    SortKeepsTies direction keys ↔ ¬Tangled keys := by
  refine ⟨fun keeps tangled => ?_, fun untangled => sortKeepsTies_of_untangled untangled direction⟩
  -- Any two steps up would have to make one step up, also two of the three that make a circle.
  have trans : ∀ first ∈ keys, ∀ second ∈ keys, ∀ key ∈ keys, mayPrecede direction first second →
      mayPrecede direction second key → mayPrecede direction first key := by
    intro first firstKey second secondKey key keyKey up up'
    by_contra down
    obtain ⟨sorted, done, kept⟩ := keeps (circling first second key) "k" _
      (circling_shaped first second key) (by simp [circling]) (fun _ member => member)
      (cell_circling firstKey secondKey keyKey)
    exact circling_overtakes up up' down done kept
  obtain ⟨low, lowKey, text, textKey, high, highKey, tangle⟩ := tangled
  obtain ⟨rising, falling, falling'⟩ := tangle.circle
  cases direction with
  | ascending =>
    have up : mayPrecede .ascending text low := by simp [mayPrecede, falling']
    exact trans text textKey low lowKey high highKey up rising (Std.OrientedCmp.gt_of_lt falling)
  | descending =>
    have up : mayPrecede .descending high low := mayPrecede_descending.2 rising
    have up' : mayPrecede .descending low text := mayPrecede_descending.2 (by simp [falling'])
    exact trans high highKey low lowKey text textKey up up' falling

/-- Each of 9, 10 and 1a is smaller than the next, and 1a is smaller than 9. -/
def circleTable : Table :=
  ⟨["n", "k"], [["a", "10"], ["b", "1a"], ["c", "9"], ["d", "9"], ["e", "9"], ["f", "9"]]⟩

/-- The third row ends up behind the last three, which have its key. -/
theorem circleTable_loses_order :
    ∃ sorted, sortRows (some ⟨"k", .ascending⟩) circleTable.views = .ok sorted ∧
      sorted.map Row.cells =
        [["d", "9"], ["e", "9"], ["f", "9"], ["a", "10"], ["b", "1a"], ["c", "9"]] ∧
      ¬KeepsTies "k" circleTable.views sorted ∧
      ¬∀ direction, SortKeepsTies direction Set.univ := by
  have done : sortRows (some ⟨"k", .ascending⟩) circleTable.views = .ok
      ([["d", "9"], ["e", "9"], ["f", "9"], ["a", "10"], ["b", "1a"], ["c", "9"]].map
        (Row.mk ["n", "k"])) := by
    decide +kernel
  have lost : ¬KeepsTies "k" circleTable.views
      ([["d", "9"], ["e", "9"], ["f", "9"], ["a", "10"], ["b", "1a"], ["c", "9"]].map
        (Row.mk ["n", "k"])) := fun keeps => absurd (keeps.ties "9") (by decide)
  refine ⟨_, done, rfl, lost, fun always => ?_⟩
  obtain ⟨sorted, done', kept⟩ := always .ascending circleTable "k" circleTable.views
    ⟨by decide, by decide, by decide⟩ (by decide) (fun _ member => member) fun _ _ => trivial
  rw [done] at done'
  cases done'
  exact lost kept

end TableQuery.Answer
