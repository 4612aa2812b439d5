import TableQuery.Engine.Execute
import TableQuery.Proofs.MergeSort
import TableQuery.Proofs.TableShape

/-!
# The answer of a query whose columns exist

`Resolves` says that a query names columns of the table only, its ORDER BY aside, which may also
name an output of the select list. Such a query never fails: no lookup in a row comes to nothing
(`keeps_eq_ok`, `project_eq_ok`, `sortRows_eq_ok`), because every row of a decoded table has a cell
for every name of the header. What it answers is told by `Answers` without the order in which rows
are gone through: the rows that the WHERE clause holds of, each once, projected, and sorted by the
column that the ORDER BY name means.
-/

namespace TableQuery.Answer

open TableQuery.Sql

/-! ## What a query asks of a table -/

structure Resolves (query : Query) (table : Table) : Prop where
  select : ∀ source output, .column source output ∈ query.select → source ∈ table.header
  conditions : ∀ column ∈ query.conditionColumns, column ∈ table.header
  order : ∀ given ∈ query.order,
    given.column ∈ table.header ∨ ∃ source, .column source given.column ∈ query.select

/-- The name in an ORDER BY means the column: as a name of the header, and else as the output name
of an item of the select list, the first that has it. -/
def Means (select : List SelectItem) (header : List String) (name column : String) : Prop :=
  (name ∈ header ∧ column = name) ∨
    name ∉ header ∧ ∃ front back, select = front ++ .column column name :: back ∧
      ∀ source, .column source name ∉ front

/-- The chain of conditions is true of the row, taken from left to right. -/
def holdsChain (predicate : Predicate) (row : Row) : Bool :=
  predicate.rest.foldl
    (fun truth link => link.1.apply truth (holdsOfCell link.2 (row.cell link.2.column)))
    (holdsOfCell predicate.first (row.cell predicate.first.column))

def holdsWhere (predicate : Option Predicate) (row : Row) : Bool :=
  match predicate with
  | none => true
  | some predicate => holdsChain predicate row

def shownRow (select : List SelectItem) (row : Row) : OutputRow :=
  ⟨select.flatMap fun
    | .wildcard => row.header.zip row.cells
    | .column source output => [(output, row.cell source)]⟩

/-- The rows are those kept, in the order that the query asks for. -/
def Ordered (query : Query) (table : Table) (kept sorted : List Row) : Prop :=
  match query.order with
  | none => sorted = kept
  | some given => ∃ column, Means query.select table.header given.column column ∧
      column ∈ table.header ∧ sortRows (some ⟨column, given.direction⟩) kept = .ok sorted

/-- What a query answers over a table with its columns. Every lookup finds its cell, so that
filtering and projecting come out for each row. -/
structure Answers (query : Query) (table : Table) (output : Output) : Prop where
  cells : ∀ row ∈ table.views, ∀ column ∈ table.header,
    row.get? column = some (row.cell column)
  filtered : ∀ row ∈ table.views, keeps query.predicate row = .ok (holdsWhere query.predicate row)
  projected : ∀ row ∈ table.views, project query.select row = .ok (shownRow query.select row)
  scanned : output.scanned = table.rows.length
  returned : output.returned = table.views.countP (holdsWhere query.predicate)
  rows : ∃ sorted, sorted.Perm (table.views.filter (holdsWhere query.predicate)) ∧
    Ordered query table (table.views.filter (holdsWhere query.predicate)) sorted ∧
    output.rows = sorted.map (shownRow query.select)

theorem forall_conditionColumns {query : Query} {predicate : Predicate}
    (given : query.predicate = some predicate) {P : String → Prop} :
    (∀ column ∈ query.conditionColumns, P column) ↔
      P predicate.first.column ∧ ∀ link ∈ predicate.rest, P link.2.column := by
  simp only [Query.conditionColumns, given, Predicate.conditions, List.map_cons, List.map_map,
    List.forall_mem_cons, List.forall_mem_map, Function.comp_apply]

theorem mem_sources {select : List SelectItem} {source : String} :
    source ∈ select.filterMap SelectItem.source? ↔ ∃ output, .column source output ∈ select := by
  rw [List.mem_filterMap]
  constructor
  · rintro ⟨item, listed, named⟩
    cases item with
    | wildcard => cases named
    | column own output =>
      cases named
      exact ⟨output, listed⟩
  · rintro ⟨output, listed⟩
    exact ⟨_, listed, rfl⟩

/-! ## Rows with a cell for every name -/

section Row

variable {row : Row} (full : row.cells.length = row.header.length)
include full

theorem holdsOf_eq_ok {condition : Condition} (known : condition.column ∈ row.header) :
    holdsOf condition row = .ok (holdsOfCell condition (row.cell condition.column)) := by
  unfold holdsOf
  rw [require_eq_cell full known, ok_bind]
  rfl

/-- With all columns at hand the chain is a fold that cannot fail. -/
theorem chain_eq_ok {links : List (Connective × Condition)}
    (known : ∀ link ∈ links, link.2.column ∈ row.header) (truth : Bool) :
    chain row truth links = .ok (links.foldl
      (fun truth link => link.1.apply truth (holdsOfCell link.2 (row.cell link.2.column)))
      truth) := by
  induction links generalizing truth with
  | nil => rfl
  | cons link links ih =>
    have first := holdsOf_eq_ok full (known link (by simp))
    have rest := fun truth => ih (fun other member => known other (by simp [member])) truth
    rw [chain, first, ok_bind, rest, List.foldl_cons]

/-- A query that resolves never fails at a row. -/
theorem keeps_eq_ok {query : Query}
    (known : ∀ column ∈ query.conditionColumns, column ∈ row.header) :
    keeps query.predicate row = .ok (holdsWhere query.predicate row) := by
  cases given : query.predicate with
  | none => rfl
  | some predicate =>
    obtain ⟨knownFirst, knownRest⟩ := (forall_conditionColumns given).1 known
    have first := holdsOf_eq_ok full knownFirst
    unfold keeps
    dsimp only
    rw [first, ok_bind, chain_eq_ok full knownRest]
    rfl

theorem projectItems_eq_ok {select : List SelectItem}
    (known : ∀ source output, .column source output ∈ select → source ∈ row.header) :
    projectItems row select = .ok (shownRow select row).fields := by
  induction select with
  | nil => rfl
  | cons item select ih =>
    have rest := ih fun source output member => known source output (by simp [member])
    have own : projectItem row item = .ok (shownRow [item] row).fields := by
      cases item with
      | wildcard => simp [projectItem, shownRow, Row.fields]
      | column source output =>
        unfold projectItem
        dsimp only
        rw [require_eq_cell full (known source output (by simp)), ok_bind]
        rfl
    rw [projectItems, own, ok_bind, rest, ok_bind]
    simp only [shownRow, List.flatMap_cons, List.flatMap_nil, List.append_nil]
    rfl

theorem project_eq_ok {select : List SelectItem}
    (known : ∀ source output, .column source output ∈ select → source ∈ row.header) :
    project select row = .ok (shownRow select row) := by
  unfold project
  rw [projectItems_eq_ok full known, ok_bind]
  rfl

end Row

/-! ## Lists of rows -/

section Rows

variable {rows : List Row} (full : ∀ row ∈ rows, row.cells.length = row.header.length)
include full

theorem filterRows_eq_ok {query : Query}
    (known : ∀ row ∈ rows, ∀ column ∈ query.conditionColumns, column ∈ row.header) :
    filterRows query.predicate rows = .ok (rows.filter (holdsWhere query.predicate)) := by
  induction rows with
  | nil => rfl
  | cons row rows ih =>
    have own := keeps_eq_ok (full row (by simp)) (known row (by simp))
    have more := ih (fun other member => full other (by simp [member]))
      (fun other member => known other (by simp [member]))
    rw [filterRows, own, ok_bind, more, ok_bind, List.filter_cons]
    rfl

theorem keyed_eq_ok {column : String} (known : ∀ row ∈ rows, column ∈ row.header) :
    keyed column rows = .ok (rows.map fun row => (row.cell column, row)) := by
  induction rows with
  | nil => rfl
  | cons row rows ih =>
    have own := require_eq_cell (full row (by simp)) (known row (by simp))
    have more := ih (fun other member => full other (by simp [member]))
      (fun other member => known other (by simp [member]))
    rw [keyed, own, ok_bind, more, ok_bind, List.map_cons]
    rfl

end Rows

/-- The order of two rows by a column, seen in a direction, if `cells` is the order of cells. -/
def compareRows (cells : String → String → Ordering) (order : OrderBy) (a b : Row) : Ordering :=
  order.direction.apply (cells (a.cell order.column) (b.cell order.column))

/-- The keys that rows of a table are sorted with are their cells in the column. -/
theorem sortRows_eq_ok {table : Table} {order : OrderBy} {rows : List Row}
    (shaped : table.Shaped) (known : order.column ∈ table.header)
    (among : ∀ row ∈ rows, row ∈ table.views) :
    sortRows (some order) rows = .ok (mergeSort (compareRows compareCells order) rows) := by
  have keys : keyed order.column rows =
      .ok (rows.map fun row => (row.cell order.column, row)) := by
    refine keyed_eq_ok (fun row member => (mem_views shaped (among row member)).2) ?_
    intro row member
    rw [(mem_views shaped (among row member)).1]
    exact known
  unfold sortRows
  dsimp only
  rw [keys, ok_bind, mergeSort_map, List.map_map]
  exact congrArg Except.ok (List.map_id _)

/-! ## The columns of a query -/

theorem requireColumn_eq_ok {table : Table} {column : String} (known : column ∈ table.header) :
    table.requireColumn column = .ok () := by
  simp [Table.requireColumn, Table.hasColumn, known]

/-- The name in an ORDER BY means a column, or it is told to mean none. -/
theorem resolveOrder_cases (select : List SelectItem) (table : Table) (given : OrderBy) :
    (∃ column, Means select table.header given.column column ∧
      resolveOrder select table given = .ok ⟨column, given.direction⟩) ∨
    (given.column ∉ table.header ∧ (∀ source, .column source given.column ∉ select) ∧
      resolveOrder select table given = .error (.unknownColumn given.column)) := by
  unfold resolveOrder
  by_cases header : given.column ∈ table.header
  · exact .inl ⟨given.column, .inl ⟨header, rfl⟩, by simp [Table.hasColumn, header]⟩
  · rw [if_neg (by simp [Table.hasColumn, header])]
    dsimp only
    split
    · next column found =>
      obtain ⟨front, item, back, rfl, named, others⟩ := List.findSome?_eq_some_iff.1 found
      cases item with
      | wildcard => cases named
      | column own output =>
        simp only [Option.ite_none_right_eq_some, Option.some.injEq] at named
        obtain ⟨rfl, rfl⟩ := named
        refine .inl ⟨own, .inr ⟨header, front, back, rfl, fun other member => ?_⟩, rfl⟩
        have free := others _ member
        simp at free
    · next absent =>
      refine .inr ⟨header, fun source listed => ?_, rfl⟩
      have free := List.findSome?_eq_none_iff.1 absent _ listed
      simp at free

/-- A column of the header goes before an output name. -/
theorem resolveOrder_of_mem {select : List SelectItem} {table : Table} {given : OrderBy}
    (known : given.column ∈ table.header) : resolveOrder select table given = .ok given := by
  simp [resolveOrder, Table.hasColumn, known]

theorem resolveOrder_of_not_mem {select : List SelectItem} {table : Table} {given : OrderBy}
    (missing : given.column ∉ table.header)
    (unnamed : ∀ source, .column source given.column ∉ select) :
    resolveOrder select table given = .error (.unknownColumn given.column) := by
  rcases resolveOrder_cases select table given with ⟨column, means, _⟩ | ⟨_, _, told⟩
  · rcases means with ⟨known, _⟩ | ⟨_, front, back, rfl, _⟩
    · exact absurd known missing
    · exact absurd (by simp) (unnamed column)
  · exact told

/-- Whatever an ORDER BY means is a column of the table. -/
theorem mem_header_of_means {select : List SelectItem} {header : List String} {name column : String}
    (sources : ∀ source output, .column source output ∈ select → source ∈ header)
    (means : Means select header name column) : column ∈ header := by
  rcases means with ⟨known, rfl⟩ | ⟨_, front, back, rfl, _⟩
  · exact known
  · exact sources column name (by simp)

/-- With the columns of its select list and its conditions there, a query fails to be resolved at
its ORDER BY only. -/
theorem resolve_eq_mapM {query : Query} {table : Table}
    (select : ∀ source ∈ query.select.filterMap SelectItem.source?, source ∈ table.header)
    (conditions : ∀ column ∈ query.conditionColumns, column ∈ table.header) :
    resolve query table = query.order.mapM (resolveOrder query.select table) := by
  unfold resolve
  rw [forM_ok fun source member => requireColumn_eq_ok (select source member), ok_bind,
    forM_ok fun column member => requireColumn_eq_ok (conditions column member), ok_bind]

/-- Resolving goes well, and then the order is by the column that its name means. -/
theorem resolve_eq_ok {query : Query} {table : Table} (resolves : Resolves query table) :
    ∃ order, resolve query table = .ok order ∧
      match query.order with
      | none => order = none
      | some given => ∃ column, Means query.select table.header given.column column ∧
          column ∈ table.header ∧ order = some ⟨column, given.direction⟩ := by
  have sources : ∀ source ∈ query.select.filterMap SelectItem.source?, source ∈ table.header := by
    intro source member
    obtain ⟨output, listed⟩ := mem_sources.1 member
    exact resolves.select source output listed
  rw [resolve_eq_mapM sources resolves.conditions]
  cases given : query.order with
  | none => exact ⟨none, rfl, rfl⟩
  | some order =>
    rcases resolveOrder_cases query.select table order with
      ⟨column, means, resolved⟩ | ⟨missing, unnamed, _⟩
    · refine ⟨some ⟨column, order.direction⟩, ?_, column, means,
        mem_header_of_means resolves.select means, rfl⟩
      simp only [Option.mapM_some, resolved]
      rfl
    · rcases resolves.order order given with known | ⟨source, listed⟩
      · exact absurd known missing
      · exact absurd listed (unnamed source)

/-! ## The answer -/

/-- Any rows of the table can be put in the order that the query asks for. -/
theorem sortRows_ordered {query : Query} {table : Table} (shaped : table.Shaped)
    (resolves : Resolves query table) {kept : List Row} (among : ∀ row ∈ kept, row ∈ table.views) :
    ∃ order sorted, resolve query table = .ok order ∧ sortRows order kept = .ok sorted ∧
      sorted.Perm kept ∧ Ordered query table kept sorted := by
  obtain ⟨order, resolved, meaning⟩ := resolve_eq_ok resolves
  unfold Ordered
  cases given : query.order with
  | none =>
    rw [given] at meaning
    subst meaning
    exact ⟨none, kept, resolved, rfl, .refl _, rfl⟩
  | some named =>
    rw [given] at meaning
    obtain ⟨column, means, known, rfl⟩ := meaning
    have sort := @sortRows_eq_ok _ ⟨column, named.direction⟩ _ shaped known among
    exact ⟨_, _, resolved, sort, mergeSort_perm _ _, column, means, known, sort⟩

/-- A query that resolves is answered as its clauses say. -/
theorem evaluate_answers {query : Query} {table : Table} (shaped : table.Shaped)
    (resolves : Resolves query table) :
    ∃ output, evaluate query table = .ok output ∧ Answers query table output := by
  have full : ∀ row ∈ table.views, row.cells.length = row.header.length :=
    fun row member => (mem_views shaped member).2
  have conditions : ∀ row ∈ table.views, ∀ column ∈ query.conditionColumns,
      column ∈ row.header := by
    intro row member column asked
    rw [(mem_views shaped member).1]
    exact resolves.conditions column asked
  have projected : ∀ row ∈ table.views,
      project query.select row = .ok (shownRow query.select row) := by
    intro row member
    refine project_eq_ok (full row member) fun source output listed => ?_
    rw [(mem_views shaped member).1]
    exact resolves.select source output listed
  have filtered := filterRows_eq_ok full conditions
  obtain ⟨order, sorted, resolved, sort, perm, ordered⟩ :=
    sortRows_ordered shaped resolves fun row member => (List.mem_filter.1 member).1
  have shown : sorted.mapM (project query.select) = .ok (sorted.map (shownRow query.select)) :=
    mapM_ok fun row member => projected row (List.mem_filter.1 (perm.mem_iff.1 member)).1
  refine ⟨⟨sorted.map (shownRow query.select), table.size⟩, ?_, ?_⟩
  · unfold evaluate
    rw [resolved, ok_bind, filtered, ok_bind, sort, ok_bind, shown, ok_bind]
    rfl
  · refine ⟨?_, ?_, projected, rfl, ?_, sorted, perm, ordered, rfl⟩
    · intro row member column known
      refine get?_eq_cell (full row member) ?_
      rw [(mem_views shaped member).1]
      exact known
    · exact fun row member => keeps_eq_ok (full row member) (conditions row member)
    · rw [Output.returned, List.length_map, perm.length_eq, List.countP_eq_length_filter]

end TableQuery.Answer

namespace TableQuery.Engine

open TableQuery.Answer
open TableQuery.Sql

/-- What a host does to its state is of no matter to the answer. -/
theorem executeParsed_eq {σ : Type} (host : Host (StateM σ)) (query : Query) (before : σ) :
    executeParsed host query before =
      (answer query (host.read query.source before).1, (host.read query.source before).2) :=
  rfl

/-- Reading and decoding succeed before anything else is looked at. -/
theorem answer_result (query : Query) {text : String} {decoding : Decoding}
    (decoded : Decoding.ofText text = .ok decoding) :
    (answer query (.ok text)).result = (evaluate query decoding.table).mapError .table := by
  simp only [answer, traceDecoding, decoded]
  cases evaluate query decoding.table <;> rfl

/-- Whatever the host is, a query whose file is read, decodes and has its columns is answered. -/
theorem executeParsed_answers {σ : Type} (host : Host (StateM σ)) (query : Query)
    (before after : σ) (text : String) (decoding : Decoding)
    (read : host.read query.source before = (.ok text, after))
    (decoded : Decoding.ofText text = .ok decoding)
    (resolves : Resolves query decoding.table) :
    ∃ output, (executeParsed host query before).1.result = .ok output ∧
      Answers query decoding.table output := by
  have shaped := shaped_of_ofText decoded
  obtain ⟨output, evaluated, answers⟩ := evaluate_answers shaped resolves
  refine ⟨output, ?_, answers⟩
  have answered : (executeParsed host query before).1 = answer query (.ok text) := by
    change (answer query (host.read query.source before).1) = _
    rw [read]
  rw [answered]
  simp only [answer, decoded, traceDecoding, evaluated]

def countingHost (text : String) : Host (StateM Nat) where
  read _ := fun reads => (.ok text, reads + 1)
  now := pure 0

/-- Sorted by an output name, which stands for the column that the first such item shows. -/
def aliasQuery : Query :=
  ⟨[.column "b" "k", .column "a" "a", .column "a" "k"], "t",
    some ⟨.compare "a" .gt "1", [(.or, .like "b" (.starts "y"))]⟩, some ⟨"k", .descending⟩⟩

/-- Sorting by an output name, over a text with a blank line in it. -/
theorem aliasQuery_answers :
    ∃ output, (executeParsed (countingHost "a,b\n2,x\n1,z\n\n1,y") aliasQuery 0).1.result =
        .ok output ∧
      Answers aliasQuery ⟨["a", "b"], [["2", "x"], ["1", "z"], ["1", "y"]]⟩ output := by
  refine executeParsed_answers (countingHost "a,b\n2,x\n1,z\n\n1,y") aliasQuery 0 1
    "a,b\n2,x\n1,z\n\n1,y" ⟨.comma, ⟨["a", "b"], [["2", "x"], ["1", "z"], ["1", "y"]]⟩⟩ rfl ?_ ?_
  · decide +kernel
  · refine ⟨?_, by decide, ?_⟩
    · intro source output listed
      simp only [aliasQuery, List.mem_cons, SelectItem.column.injEq, List.not_mem_nil,
        or_false] at listed
      rcases listed with ⟨rfl, _⟩ | ⟨rfl, _⟩ | ⟨rfl, _⟩ <;> decide
    · rintro _ ⟨⟩
      exact .inr ⟨"b", by decide⟩

end TableQuery.Engine
