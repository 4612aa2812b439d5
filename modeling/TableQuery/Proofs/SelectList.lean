import TableQuery.Proofs.Evaluation
import TableQuery.Proofs.TwoRuns

/-!
# What the select list decides

A select list decides what is shown of a row, and under which names. It has no part in which rows
are kept, and none in their order as long as the ORDER BY names a column of the header. So the
wildcard is the list of all columns under their own names (`executeParsed_wildcard`), and other
output names change the names in the answer and nothing else (`executeParsed_renamed`).
-/

namespace TableQuery.Answer

open TableQuery.Sql

def OutputRow.values (row : OutputRow) : List String :=
  row.fields.map (·.2)

/-! ## The wildcard -/

def everyColumn (header : List String) : List SelectItem :=
  header.map fun name => .column name name

theorem mem_everyColumn {header : List String} {source output : String} :
    .column source output ∈ everyColumn header ↔ source ∈ header ∧ output = source := by
  unfold everyColumn
  rw [List.mem_map]
  constructor
  · rintro ⟨name, listed, same⟩
    cases same
    exact ⟨listed, rfl⟩
  · rintro ⟨listed, rfl⟩
    exact ⟨_, listed, rfl⟩

theorem shownRow_everyColumn {row : Row} (full : row.cells.length = row.header.length)
    (distinct : row.header.Nodup) :
    shownRow (everyColumn row.header) row = shownRow [.wildcard] row := by
  have fields := fields_eq_map_cell full distinct
  rw [Row.fields] at fields
  simp only [shownRow, List.flatMap_singleton, fields, everyColumn, List.flatMap_map]
  rw [List.map_eq_flatMap]

/-- A wildcard shows what naming all columns shows. -/
theorem project_everyColumn {row : Row} (full : row.cells.length = row.header.length)
    (distinct : row.header.Nodup) :
    project (everyColumn row.header) row = project [.wildcard] row := by
  have known : ∀ source output, .column source output ∈ everyColumn row.header →
      source ∈ row.header := fun source output listed => (mem_everyColumn.1 listed).1
  rw [project_eq_ok full known, project_eq_ok full (by simp), shownRow_everyColumn full distinct]

/-- Columns of the header under their own names are no further names for an ORDER BY. -/
theorem resolveOrder_everyColumn (table : Table) (given : OrderBy) :
    resolveOrder (everyColumn table.header) table given = resolveOrder [.wildcard] table given := by
  by_cases known : given.column ∈ table.header
  · rw [resolveOrder_of_mem known, resolveOrder_of_mem known]
  · have unnamed : ∀ source, .column source given.column ∉ everyColumn table.header := by
      intro source listed
      obtain ⟨stored, same⟩ := mem_everyColumn.1 listed
      exact known (same ▸ stored)
    rw [resolveOrder_of_not_mem known unnamed, resolveOrder_of_not_mem known (by simp)]

theorem resolve_everyColumn {query : Query} {table : Table} (wild : query.select = [.wildcard]) :
    resolve { query with select := everyColumn table.header } table = resolve query table := by
  have sources : (everyColumn table.header).filterMap SelectItem.source? = table.header := by
    simp [everyColumn, List.filterMap_map, Function.comp_def, SelectItem.source?]
  have known := forM_ok fun name (member : name ∈ table.header) => requireColumn_eq_ok member
  have orders :
      resolveOrder (everyColumn table.header) table = resolveOrder query.select table := by
    rw [wild]
    exact funext (resolveOrder_everyColumn table)
  unfold resolve
  dsimp only
  rw [sources, known, orders, wild]
  rfl

/-- In any query a wildcard may be replaced by the columns that it stands for. -/
theorem evaluate_everyColumn {query : Query} {table : Table} (shaped : table.Shaped)
    (wild : query.select = [.wildcard]) :
    evaluate { query with select := everyColumn table.header } table = evaluate query table := by
  refine eq_of_alike
    (evaluate_matched_of_project rfl (resolve_everyColumn wild) fun row member => ?_)
  obtain ⟨header, full⟩ := mem_views shaped member
  have same := project_everyColumn full (header ▸ shaped.distinct)
  rw [header] at same
  rw [same, wild]
  exact matched_refl _

/-- Without a WHERE and an ORDER BY the wildcard shows the whole table. -/
theorem evaluate_wildcard {query : Query} {table : Table} (shaped : table.Shaped)
    (wild : query.select = [.wildcard]) (everywhere : query.predicate = none)
    (unordered : query.order = none) :
    ∃ output, evaluate query table = .ok output ∧
      List.Forall₂ (fun shown row => shown.names = table.header ∧ shown.values = row)
        output.rows table.rows := by
  have resolves : Resolves query table := by
    refine ⟨by simp [wild], ?_, by simp [unordered]⟩
    simp [Query.conditionColumns, everywhere]
  obtain ⟨output, evaluated, answers⟩ := evaluate_answers shaped resolves
  obtain ⟨sorted, _, ordered, rows⟩ := answers.rows
  refine ⟨output, evaluated, ?_⟩
  have kept : table.views.filter (holdsWhere query.predicate) = table.views := by
    rw [everywhere]
    exact List.filter_eq_self.2 fun _ _ => rfl
  rw [Ordered, unordered, kept] at ordered
  have whole : sorted = table.views := ordered
  rw [rows, whole, Table.views, List.map_map, List.forall₂_map_left_iff, List.forall₂_same]
  intro row stored
  have full := shaped.full row stored
  simp only [Function.comp_apply, wild, shownRow, List.flatMap_singleton]
  exact ⟨@map_fst_fields ⟨table.header, row⟩ full, @map_snd_fields ⟨table.header, row⟩ full⟩

/-! ## Output names -/

def shownNames (header : List String) (select : List SelectItem) : List String :=
  select.flatMap fun
    | .wildcard => header
    | .column _ output => [output]

/-- The queries differ in nothing but the output names of their select lists. -/
structure Renamed (query query' : Query) : Prop where
  select : query.select.map SelectItem.source? = query'.select.map SelectItem.source?
  source : query.source = query'.source
  predicate : query.predicate = query'.predicate
  order : query.order = query'.order

/-- The same values in the same places, each row under the names of its own select list. -/
structure SameValues (header : List String) (select select' : List SelectItem)
    (row row' : OutputRow) : Prop where
  values : row.values = row'.values
  names : row.names = shownNames header select
  names' : row'.names = shownNames header select'

/-- The same counts, and rows with the same values in the same places. -/
structure SameButNames (header : List String) (select select' : List SelectItem)
    (output output' : Output) : Prop where
  scanned : output.scanned = output'.scanned
  returned : output.returned = output'.returned
  rows : List.Forall₂ (SameValues header select select') output.rows output'.rows

theorem SameValues.append {header : List String} {select select' more more' : List SelectItem}
    {fields fields' rest rest' : List (String × String)}
    (front : SameValues header select select' ⟨fields⟩ ⟨fields'⟩)
    (back : SameValues header more more' ⟨rest⟩ ⟨rest'⟩) :
    SameValues header (select ++ more) (select' ++ more') ⟨fields ++ rest⟩ ⟨fields' ++ rest'⟩ := by
  obtain ⟨values, names, names'⟩ := front
  obtain ⟨moreValues, moreNames, moreNames'⟩ := back
  simp only [OutputRow.values] at values moreValues
  simp only [OutputRow.names] at names names' moreNames moreNames'
  constructor <;> simp_all [OutputRow.values, OutputRow.names, shownNames]

theorem projectItem_renamed {row : Row} (full : row.cells.length = row.header.length)
    {item item' : SelectItem} (same : item.source? = item'.source?) :
    Matched (fun fields fields' => SameValues row.header [item] [item'] ⟨fields⟩ ⟨fields'⟩)
      (projectItem row item) (projectItem row item') := by
  cases item with
  | wildcard =>
    cases item' with
    | wildcard =>
      have names := (map_fst_fields full).trans (List.append_nil row.header).symm
      exact .ok ⟨rfl, names, names⟩
    | column => cases same
  | column source output =>
    cases item' with
    | wildcard => cases same
    | column source' output' =>
      cases same
      refine (matched_refl (row.require source)).bind fun value _ equal => .ok ?_
      subst equal
      exact ⟨rfl, rfl, rfl⟩

theorem projectItems_renamed {row : Row} (full : row.cells.length = row.header.length)
    {select select' : List SelectItem}
    (same : select.map SelectItem.source? = select'.map SelectItem.source?) :
    Matched (fun fields fields' => SameValues row.header select select' ⟨fields⟩ ⟨fields'⟩)
      (projectItems row select) (projectItems row select') := by
  induction select generalizing select' with
  | nil =>
    cases select' with
    | nil => exact .ok ⟨rfl, rfl, rfl⟩
    | cons => cases same
  | cons item select ih =>
    cases select' with
    | nil => cases same
    | cons item' select' =>
      obtain ⟨own, others⟩ := List.cons.inj same
      refine (projectItem_renamed full own).bind fun fields fields' first => ?_
      refine (ih others).bind fun more more' rest => .ok ?_
      exact first.append rest

theorem project_renamed {row : Row} (full : row.cells.length = row.header.length)
    {select select' : List SelectItem}
    (same : select.map SelectItem.source? = select'.map SelectItem.source?) :
    Matched (SameValues row.header select select') (project select row) (project select' row) :=
  (projectItems_renamed full same).bind fun _ _ related => .ok related

/-- A name of the header is not looked for among the output names. -/
theorem resolve_renamed {query query' : Query} {table : Table} (renamed : Renamed query query')
    (ordered : ∀ given ∈ query.order, given.column ∈ table.header) :
    resolve query table = resolve query' table := by
  have sources : query.select.filterMap SelectItem.source? =
      query'.select.filterMap SelectItem.source? := by
    have each := congrArg (List.filterMap id) renamed.select
    simpa only [List.filterMap_map, Function.id_comp] using each
  have conditions : query.conditionColumns = query'.conditionColumns := by
    rw [Query.conditionColumns, Query.conditionColumns, renamed.predicate]
  have orders : query.order.mapM (resolveOrder query.select table) =
      query'.order.mapM (resolveOrder query'.select table) := by
    rw [← renamed.order]
    cases given : query.order with
    | none => rfl
    | some order =>
      have known := ordered order given
      simp only [Option.mapM_some, resolveOrder_of_mem known]
  unfold resolve
  rw [sources, conditions, orders]

/-- New output names change the names in the answer and nothing else. -/
theorem evaluate_renamed {query query' : Query} {table : Table} (shaped : table.Shaped)
    (renamed : Renamed query query')
    (ordered : ∀ given ∈ query.order, given.column ∈ table.header) :
    Matched (SameButNames table.header query.select query'.select)
      (evaluate query table) (evaluate query' table) := by
  have shown : ∀ row ∈ table.views, Matched (SameValues table.header query.select query'.select)
      (project query.select row) (project query'.select row) := by
    intro row member
    obtain ⟨header, full⟩ := mem_views shaped member
    rw [← header]
    exact project_renamed full renamed.select
  have alike :=
    evaluate_matched_of_project renamed.predicate (resolve_renamed renamed ordered) shown
  exact alike.imp fun _ _ same => ⟨same.scanned, same.rows.length_eq, same.rows⟩

end TableQuery.Answer

namespace TableQuery.Engine

open TableQuery.Answer
open TableQuery.Sql

/-- Over a table the wildcard is the list of its columns, also where the query fails; and without a
WHERE and an ORDER BY it shows the table as it is. -/
theorem executeParsed_wildcard {σ : Type} (host : Host (StateM σ)) (query : Query) (before : σ)
    (text : String) (decoding : Decoding) (wild : query.select = [.wildcard])
    (read : (host.read query.source before).1 = .ok text)
    (decoded : Decoding.ofText text = .ok decoding) :
    executeParsed host query before =
        executeParsed host { query with select := everyColumn decoding.table.header } before ∧
      (query.predicate = none → query.order = none →
        ∃ output, (executeParsed host query before).1.result = .ok output ∧
          List.Forall₂ (fun shown row => shown.names = decoding.table.header ∧ shown.values = row)
            output.rows decoding.table.rows) := by
  have shaped := shaped_of_ofText decoded
  constructor
  · rw [executeParsed_eq, executeParsed_eq, read]
    simp only [answer, decoded, traceDecoding, evaluate_everyColumn shaped wild]
  · intro everywhere unordered
    obtain ⟨output, evaluated, shown⟩ := evaluate_wildcard shaped wild everywhere unordered
    refine ⟨output, ?_, shown⟩
    rw [executeParsed_eq, read, answer_result query decoded, evaluated]
    rfl

/-- A wildcard over two columns that the text holds in no order of names. -/
def starQuery : Query :=
  ⟨[.wildcard], "t", none, none⟩

/-- Columns come in the order of the header, not in that of the alphabet. -/
theorem starQuery_lists_columns :
    executeParsed (countingHost "b,a\n1,\n,2") starQuery 0 =
        executeParsed (countingHost "b,a\n1,\n,2")
          ⟨[.column "b" "b", .column "a" "a"], "t", none, none⟩ 0 ∧
      ∃ output, (executeParsed (countingHost "b,a\n1,\n,2") starQuery 0).1.result = .ok output ∧
        List.Forall₂ (fun shown row => shown.names = ["b", "a"] ∧ shown.values = row)
          output.rows [["1", ""], ["", "2"]] := by
  have decoded : Decoding.ofText "b,a\n1,\n,2" =
      .ok ⟨.comma, ⟨["b", "a"], [["1", ""], ["", "2"]]⟩⟩ := by
    decide +kernel
  obtain ⟨listed, whole⟩ :=
    executeParsed_wildcard (countingHost "b,a\n1,\n,2") starQuery 0 _ _ rfl rfl decoded
  exact ⟨listed, whole rfl rfl⟩

/-- Queries that differ in their output names end alike: with the same error, or with the same
values in the same places, each under its own names. The name in an ORDER BY has to be a column of
the table, if there is a table. -/
theorem executeParsed_renamed {σ : Type} (host : Host (StateM σ)) (query query' : Query)
    (before : σ) (renamed : Renamed query query')
    (ordered : ∀ text decoding, (host.read query.source before).1 = .ok text →
      Decoding.ofText text = .ok decoding →
      ∀ given ∈ query.order, given.column ∈ decoding.table.header) :
    Matched (fun output output' => ∃ text decoding,
        (host.read query.source before).1 = .ok text ∧ Decoding.ofText text = .ok decoding ∧
        SameButNames decoding.table.header query.select query'.select output output')
      (executeParsed host query before).1.result (executeParsed host query' before).1.result := by
  rw [executeParsed_eq, executeParsed_eq, ← renamed.source]
  cases read : (host.read query.source before).1 with
  | error e => exact .error _
  | ok text =>
    cases decoded : Decoding.ofText text with
    | error e =>
      simp only [answer, traceDecoding, decoded]
      exact .error _
    | ok decoding =>
      have alike := evaluate_renamed (shaped_of_ofText decoded) renamed
        (ordered text decoding read decoded)
      rw [answer_result query decoded, answer_result query' decoded]
      exact (alike.mapError Error.table).imp fun _ _ same => ⟨text, decoding, rfl, decoded, same⟩

/-- Its output names are other columns, one of them that of the condition and of the ORDER BY, and
one stands twice. -/
def crossedQuery : Query :=
  ⟨[.column "a" "b", .column "b" "a", .column "c" "b"], "t", some ⟨.compare "b" .ge "2", []⟩,
    some ⟨"b", .descending⟩⟩

def plainQuery : Query :=
  { crossedQuery with select := [.column "a" "a", .column "b" "b", .column "c" "c"] }

/-- Output names that are columns of the table mislead neither the condition nor the sort. -/
theorem crossedQuery_differs_in_names :
    Matched (fun output output' => ∃ text decoding,
        ((countingHost "a,b,c\n1,2,x\n2,1,y\n3,10,z").read "t" 0).1 = .ok text ∧
        Decoding.ofText text = .ok decoding ∧
        SameButNames decoding.table.header crossedQuery.select plainQuery.select output output')
      (executeParsed (countingHost "a,b,c\n1,2,x\n2,1,y\n3,10,z") crossedQuery 0).1.result
      (executeParsed (countingHost "a,b,c\n1,2,x\n2,1,y\n3,10,z") plainQuery 0).1.result := by
  refine executeParsed_renamed (countingHost "a,b,c\n1,2,x\n2,1,y\n3,10,z") crossedQuery plainQuery
    0 ⟨rfl, rfl, rfl, rfl⟩ ?_
  rintro text decoding read decoded _ ⟨⟩
  have known : Decoding.ofText "a,b,c\n1,2,x\n2,1,y\n3,10,z" =
      .ok ⟨.comma, ⟨["a", "b", "c"], [["1", "2", "x"], ["2", "1", "y"], ["3", "10", "z"]]⟩⟩ := by
    decide +kernel
  cases read
  rw [known] at decoded
  cases decoded
  decide

end TableQuery.Engine
