import TableQuery.Proofs.Evaluation
import TableQuery.Proofs.TwoRuns

/-!
# A query sees only the columns that it names

Two tables that agree, row by row, on the columns that a query reads (`readColumns`) are the same
table to it: every step of the evaluation asks a row for the cell of such a column and for nothing
else, so that both runs take the same decisions (`evaluate_eq_of_agree`). Where a column stands,
what else is in the table and how the text was delimited makes no difference.
-/

namespace TableQuery.Answer

open TableQuery.Sql

/-- The columns that a query without a wildcard reads below this header. The name in an ORDER BY is
one of them if it is a column; if it is an output, its source is in the select list already. -/
def readColumns (query : Query) (header : List String) : List String :=
  query.select.filterMap SelectItem.source? ++ query.conditionColumns ++
    (query.order.toList.map OrderBy.column).filter (· ∈ header)

def Agree (columns : List String) (row row' : Row) : Prop :=
  ∀ column ∈ columns, row.get? column = row'.get? column

/-! ## One row -/

section Row

variable {columns : List String} {row row' : Row} (agree : Agree columns row row')
include agree

theorem require_agree {column : String} (asked : column ∈ columns) :
    row.require column = row'.require column := by
  unfold Row.require
  rw [agree column asked]

theorem holdsOf_agree {condition : Condition} (asked : condition.column ∈ columns) :
    holdsOf condition row = holdsOf condition row' := by
  unfold holdsOf
  rw [require_agree agree asked]

theorem chain_agree {links : List (Connective × Condition)}
    (asked : ∀ link ∈ links, link.2.column ∈ columns) (truth : Bool) :
    chain row truth links = chain row' truth links := by
  induction links generalizing truth with
  | nil => rfl
  | cons link links ih =>
    have rest := fun truth => ih (fun other member => asked other (by simp [member])) truth
    simp only [chain, holdsOf_agree agree (asked link (by simp)), rest]

/-- Rows that agree on the named columns are kept alike. -/
theorem keeps_agree {query : Query} (asked : ∀ column ∈ query.conditionColumns, column ∈ columns) :
    keeps query.predicate row = keeps query.predicate row' := by
  cases given : query.predicate with
  | none => rfl
  | some predicate =>
    obtain ⟨askedFirst, askedRest⟩ := (forall_conditionColumns given).1 asked
    simp only [keeps, holdsOf_agree agree askedFirst, chain_agree agree askedRest]

theorem project_agree {select : List SelectItem} (explicit : .wildcard ∉ select)
    (asked : ∀ source ∈ select.filterMap SelectItem.source?, source ∈ columns) :
    project select row = project select row' := by
  have items : projectItems row select = projectItems row' select := by
    induction select with
    | nil => rfl
    | cons item select ih =>
      cases item with
      | wildcard => simp at explicit
      | column source output =>
        simp only [List.filterMap_cons, SelectItem.source?, List.forall_mem_cons] at asked
        have rest := ih (by simpa using explicit) asked.2
        simp only [projectItems, projectItem, require_agree agree asked.1, rest]
  unfold project
  rw [items]

end Row

/-! ## The whole query -/

/-- The columns that a query names stand in both headers, its ORDER BY in both or in neither. -/
structure NamedAlike (query : Query) (header header' : List String) : Prop where
  select : ∀ source ∈ query.select.filterMap SelectItem.source?, source ∈ header ∧ source ∈ header'
  conditions : ∀ column ∈ query.conditionColumns, column ∈ header ∧ column ∈ header'
  order : ∀ given ∈ query.order, given.column ∈ header ↔ given.column ∈ header'

/-- What the name in an ORDER BY means is a column that the query reads. -/
theorem mem_readColumns_of_means {query : Query} {header : List String} {given : OrderBy}
    (ordered : given ∈ query.order) {column : String}
    (means : Means query.select header given.column column) :
    column ∈ readColumns query header := by
  rcases means with ⟨known, rfl⟩ | ⟨_, front, back, select, _⟩
  · refine List.mem_append_right _ (List.mem_filter.2 ⟨?_, by simpa using known⟩)
    exact List.mem_map_of_mem (Option.mem_toList.2 ordered)
  · refine List.mem_append_left _ (List.mem_append_left _ (mem_sources.2 ⟨given.column, ?_⟩))
    simp [select]

/-- The header decides what the ORDER BY means, not the rows. -/
theorem resolve_matched {query : Query} {table table' : Table}
    (named : NamedAlike query table.header table'.header) :
    Matched (fun order order' => order = order' ∧
        ∀ given ∈ order, given.column ∈ readColumns query table.header)
      (resolve query table) (resolve query table') := by
  rw [resolve_eq_mapM (fun source member => (named.select source member).1)
      (fun column member => (named.conditions column member).1),
    resolve_eq_mapM (fun source member => (named.select source member).2)
      (fun column member => (named.conditions column member).2)]
  cases given : query.order with
  | none => exact .ok ⟨rfl, by simp⟩
  | some order =>
    have same : resolveOrder query.select table order = resolveOrder query.select table' order := by
      have known : table.hasColumn order.column = table'.hasColumn order.column := by
        simpa [Table.hasColumn] using named.order order given
      unfold resolveOrder
      rw [known]
    simp only [Option.mapM_some, ← same]
    rcases resolveOrder_cases query.select table order with
      ⟨column, means, resolved⟩ | ⟨_, _, told⟩
    · rw [resolved]
      refine .ok ⟨rfl, ?_⟩
      rintro _ ⟨⟩
      exact mem_readColumns_of_means given means
    · rw [told]
      exact .error _

/-- Equal answers, or the same error. -/
theorem evaluate_eq_of_agree {query : Query} {table table' : Table}
    (explicit : .wildcard ∉ query.select) (named : NamedAlike query table.header table'.header)
    (agree : List.Forall₂ (Agree (readColumns query table.header)) table.views table'.views) :
    evaluate query table = evaluate query table' := by
  have conditions : ∀ column ∈ query.conditionColumns, column ∈ readColumns query table.header :=
    fun column member => by simp [readColumns, member]
  have sources : ∀ source ∈ query.select.filterMap SelectItem.source?,
      source ∈ readColumns query table.header :=
    fun source member => List.mem_append_left _ (List.mem_append_left _ member)
  refine eq_of_alike (evaluate_matched agree ((resolve_matched named).imp ?_)
    (fun row row' alike => keeps_agree alike conditions) fun row row' alike => ?_)
  · rintro order order' ⟨same, read⟩
    exact ⟨same, fun given ordered row row' alike => require_agree alike (read given ordered)⟩
  · rw [project_agree alike explicit sources]
    exact matched_refl _

end TableQuery.Answer

namespace TableQuery.Engine

open TableQuery.Answer
open TableQuery.Sql

/-- Over any two hosts and texts that a query without a wildcard cannot tell apart by the columns
that it names, it ends in the same way: equal rows in the same order and equal counts, or the same
error. -/
theorem executeParsed_eq_of_agree {σ σ' : Type} (host : Host (StateM σ)) (host' : Host (StateM σ'))
    (query : Query) (before : σ) (before' : σ') (text text' : String) (decoding decoding' : Decoding)
    (explicit : .wildcard ∉ query.select)
    (read : (host.read query.source before).1 = .ok text)
    (read' : (host'.read query.source before').1 = .ok text')
    (decoded : Decoding.ofText text = .ok decoding)
    (decoded' : Decoding.ofText text' = .ok decoding')
    (named : NamedAlike query decoding.table.header decoding'.table.header)
    (agree : List.Forall₂ (Agree (readColumns query decoding.table.header))
      decoding.table.views decoding'.table.views) :
    (executeParsed host query before).1.result =
      (executeParsed host' query before').1.result := by
  change (answer query (host.read query.source before).1).result =
    (answer query (host'.read query.source before').1).result
  rw [read, read']
  simp only [answer, traceDecoding, decoded, decoded', evaluate_eq_of_agree explicit named agree]

/-- Two columns, one under another name, with a condition on one and sorted by the other's new
name, which is a column of neither table. -/
def narrowQuery : Query :=
  ⟨[.column "b" "k", .column "a" "a"], "t", some ⟨.compare "a" .ge "1", []⟩,
    some ⟨"k", .descending⟩⟩

/-- The columns may change places, another may stand between them, and the delimiter may be
another. -/
theorem narrowQuery_sees_two_columns :
    (executeParsed (countingHost "a,b\n1,10\n2,9\n0,1a") narrowQuery 0).1.result =
      (executeParsed (countingHost "b;c;a\r\n10;x;1\r\n9;;2\r\n1a;;0") narrowQuery 7).1.result := by
  refine executeParsed_eq_of_agree (countingHost "a,b\n1,10\n2,9\n0,1a")
    (countingHost "b;c;a\r\n10;x;1\r\n9;;2\r\n1a;;0") narrowQuery 0 7 _ _
    ⟨.comma, ⟨["a", "b"], [["1", "10"], ["2", "9"], ["0", "1a"]]⟩⟩
    ⟨.semicolon, ⟨["b", "c", "a"], [["10", "x", "1"], ["9", "", "2"], ["1a", "", "0"]]⟩⟩
    (by decide) rfl rfl (by decide +kernel) (by decide +kernel) ⟨by decide, by decide, ?_⟩ ?_
  · rintro _ ⟨⟩
    decide
  · simp only [Table.views, List.map_cons, List.map_nil, List.forall₂_cons, List.forall₂_nil_left_iff,
      Agree]
    decide

end TableQuery.Engine
