import TableQuery.Answer.Evaluate
import TableQuery.Proofs.MergeSort
import TableQuery.Proofs.Outcome

/-!
# Two evaluations that go alike

An evaluation asks its rows three questions: whether a row is kept, what its key is, and what it
shows. Where two tables, or two queries over one table, have rows in the same places that answer the
first two alike, both evaluations take the same decisions, and what they show is related row by row
(`evaluate_matched`).
-/

namespace TableQuery.Answer

open TableQuery.Sql

section Rows

variable {R : Row → Row → Prop} {rows rows' : List Row} (related : List.Forall₂ R rows rows')
include related

/-- Related rows that are kept alike leave related rows. -/
theorem filterRows_matched {predicate predicate' : Option Predicate}
    (alike : ∀ row row', R row row' → keeps predicate row = keeps predicate' row') :
    Matched (List.Forall₂ R) (filterRows predicate rows) (filterRows predicate' rows') := by
  induction related with
  | nil => exact .ok .nil
  | cons head _ ih =>
    simp only [filterRows, alike _ _ head]
    refine (matched_refl _).bind fun kept _ same => ih.bind fun more more' rest => ?_
    subst same
    split
    · exact .ok (.cons head rest)
    · exact .ok rest

theorem keyed_matched {column : String}
    (alike : ∀ row row', R row row' → row.require column = row'.require column) :
    Matched (List.Forall₂ fun item item' => item.1 = item'.1 ∧ R item.2 item'.2)
      (keyed column rows) (keyed column rows') := by
  induction related with
  | nil => exact .ok .nil
  | cons head _ ih =>
    simp only [keyed, alike _ _ head]
    refine (matched_refl _).bind fun key _ same => ih.bind fun more more' rest => ?_
    exact .ok (.cons ⟨same, head⟩ rest)

/-- Sorting moves related rows together, for it looks at nothing but the keys. -/
theorem sortRows_matched {order : Option OrderBy} (alike : ∀ given ∈ order,
      ∀ row row', R row row' → row.require given.column = row'.require given.column) :
    Matched (List.Forall₂ R) (sortRows order rows) (sortRows order rows') := by
  cases order with
  | none => exact .ok related
  | some given =>
    refine (keyed_matched related (alike given rfl)).bind fun items items' pairs => .ok ?_
    -- The comparison need not be an order: what counts is that it sees equal keys in both runs.
    have sorted : List.Forall₂ (fun item item' => item.1 = item'.1 ∧ R item.2 item'.2)
        (mergeSort (compareKeyed given.direction) items)
        (mergeSort (compareKeyed given.direction) items') :=
      mergeSort_forall₂ (fun a b a' b' left right => by simp only [compareKeyed, left.1, right.1])
        pairs
    exact List.forall₂_map_left_iff.2 (List.forall₂_map_right_iff.2 (sorted.imp fun _ _ h => h.2))

end Rows

/-- Answers over equally many rows of the table, with related rows in the same places. -/
structure Alike (S : OutputRow → OutputRow → Prop) (output output' : Output) : Prop where
  scanned : output.scanned = output'.scanned
  rows : List.Forall₂ S output.rows output'.rows

/-- Rows that are kept alike and sorted alike are shown in the same places. -/
theorem evaluate_matched {query query' : Query} {table table' : Table} {R : Row → Row → Prop}
    {S : OutputRow → OutputRow → Prop} (views : List.Forall₂ R table.views table'.views)
    (resolved : Matched (fun order order' => order = order' ∧ ∀ given ∈ order,
        ∀ row row', R row row' → row.require given.column = row'.require given.column)
      (resolve query table) (resolve query' table'))
    (kept : ∀ row row', R row row' → keeps query.predicate row = keeps query'.predicate row')
    (shown : ∀ row row', R row row' →
      Matched S (project query.select row) (project query'.select row')) :
    Matched (Alike S) (evaluate query table) (evaluate query' table') := by
  have size : table.size = table'.size := by
    simpa [Table.views, Table.size] using views.length_eq
  refine resolved.bind fun order order' ⟨same, keys⟩ => ?_
  subst same
  refine (filterRows_matched views kept).bind fun rows rows' keptAlike => ?_
  refine (sortRows_matched keptAlike keys).bind fun sorted sorted' sortedAlike => ?_
  exact (matched_mapM sortedAlike shown).bind fun _ _ shownAlike => .ok ⟨size, shownAlike⟩

/-- Two queries over one table that keep and sort its rows alike differ in what they show. -/
theorem evaluate_matched_of_project {query query' : Query} {table : Table}
    {S : OutputRow → OutputRow → Prop} (predicate : query.predicate = query'.predicate)
    (resolved : resolve query table = resolve query' table)
    (shown : ∀ row ∈ table.views,
      Matched S (project query.select row) (project query'.select row)) :
    Matched (Alike S) (evaluate query table) (evaluate query' table) := by
  refine evaluate_matched (R := fun row row' => row = row' ∧ row ∈ table.views)
    (List.forall₂_same.2 fun row member => ⟨rfl, member⟩) ?_ ?_ ?_
  · rw [resolved]
    refine (matched_refl _).imp ?_
    rintro order _ rfl
    exact ⟨rfl, fun given _ row row' same => by rw [same.1]⟩
  · rintro row _ ⟨rfl, _⟩
    rw [predicate]
  · rintro row _ ⟨rfl, member⟩
    exact shown row member

/-- Equal rows in the same places make equal answers. -/
theorem eq_of_alike {left right : Except TableError Output}
    (alike : Matched (Alike Eq) left right) : left = right := by
  refine (alike.imp fun output output' same => ?_).eq
  obtain ⟨scanned, rows⟩ := same
  rw [List.forall₂_eq_eq_eq] at rows
  cases output
  cases output'
  rw [Output.mk.injEq]
  exact ⟨rows, scanned⟩

end TableQuery.Answer
