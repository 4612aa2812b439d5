import TableQuery.Proofs.Evaluation

/-!
# Which failure a query reports

A query refers to columns in its select list, in its conditions and in its ORDER BY, and these
references are looked up in this order (`references`). The first one that the header does not know
is the failure that is told (`resolve_eq_error`), and a query whose references are all known never
fails on the rows. What was read and how it decodes come before that, so `failure?` says from the
header alone how every query ends; `executeParsed_failure` is the proof that it is right.
-/

namespace TableQuery.Answer

open TableQuery.Sql

/-! ## References -/

inductive Reference
  /-- In the select list or in a condition, where only a column of the header can be meant. -/
  | column (name : String)
  /-- In the ORDER BY, where an output of the select list can be meant as well. -/
  | order (name : String)
  deriving DecidableEq, Repr

def outputs (select : List SelectItem) : List String :=
  select.filterMap fun
    | .wildcard => none
    | .column _ output => some output

namespace Reference

def name : Reference → String
  | column name | order name => name

def Known (select : List SelectItem) (header : List String) : Reference → Prop
  | column name => name ∈ header
  | order name => name ∈ header ∨ name ∈ outputs select

instance (select : List SelectItem) (header : List String) :
    DecidablePred (Known select header)
  | column name => inferInstanceAs (Decidable (name ∈ header))
  | order name => inferInstanceAs (Decidable (name ∈ header ∨ name ∈ outputs select))

end Reference

/-- All references: the sources of the select list from left to right, the columns of the conditions
from left to right, and the name in the ORDER BY. -/
def references (query : Query) : List Reference :=
  (query.select.filterMap SelectItem.source?).map .column ++
    query.conditionColumns.map .column ++
    query.order.toList.map fun given => .order given.column

/-- The name in the first reference that is not known. -/
def unknown? (query : Query) (header : List String) : Option String :=
  ((references query).find? fun reference => ¬ reference.Known query.select header).map
    Reference.name

theorem mem_outputs {select : List SelectItem} {name : String} :
    name ∈ outputs select ↔ ∃ source, .column source name ∈ select := by
  unfold outputs
  rw [List.mem_filterMap]
  constructor
  · rintro ⟨item, listed, named⟩
    cases item with
    | wildcard => cases named
    | column source output =>
      cases named
      exact ⟨source, listed⟩
  · rintro ⟨source, listed⟩
    exact ⟨_, listed, rfl⟩

/-- If no reference is unknown, all that the query needs is there. -/
theorem resolves_of_unknown? {query : Query} {table : Table}
    (known : unknown? query table.header = none) : Resolves query table := by
  unfold unknown? at known
  rw [Option.map_eq_none_iff, List.find?_eq_none] at known
  have each : ∀ reference ∈ references query, reference.Known query.select table.header :=
    fun reference member => by simpa using known reference member
  refine ⟨fun source output listed => ?_, fun column asked => ?_, fun given ordered => ?_⟩
  · refine each (.column source) ?_
    simp only [references, List.mem_append, List.mem_map]
    exact .inl (.inl ⟨source, mem_sources.2 ⟨output, listed⟩, rfl⟩)
  · refine each (.column column) ?_
    simp only [references, List.mem_append, List.mem_map]
    exact .inl (.inr ⟨column, asked, rfl⟩)
  · have sorted := each (.order given.column) (by
      simp only [references, List.mem_append, List.mem_map]
      exact .inr ⟨given, Option.mem_toList.2 ordered, rfl⟩)
    exact sorted.imp_right mem_outputs.1

/-! ## Looking the references up -/

theorem forM_requireColumn (table : Table) (names : List String) :
    names.forM table.requireColumn =
      match names.find? (· ∉ table.header) with
      | none => .ok ()
      | some name => .error (.unknownColumn name) := by
  induction names with
  | nil => rfl
  | cons name names ih =>
    rw [List.forM, List.find?_cons]
    by_cases known : name ∈ table.header
    · rw [requireColumn_eq_ok known]
      simpa [known] using ih
    · have missing : table.requireColumn name = .error (.unknownColumn name) := by
        simp [Table.requireColumn, Table.hasColumn, known]
      simp [missing, known]

theorem resolveOrder_eq_error {select : List SelectItem} {table : Table} {given : OrderBy}
    (unknown : ¬ (Reference.order given.column).Known select table.header) :
    resolveOrder select table given = .error (.unknownColumn given.column) := by
  obtain ⟨missing, unnamed⟩ : given.column ∉ table.header ∧ given.column ∉ outputs select := by
    simpa [Reference.Known] using unknown
  exact resolveOrder_of_not_mem missing fun source listed =>
    unnamed (mem_outputs.2 ⟨source, listed⟩)

/-- The first reference that is not known is told. -/
theorem resolve_eq_error {query : Query} {table : Table} {name : String}
    (unknown : unknown? query table.header = some name) :
    resolve query table = .error (.unknownColumn name) := by
  have columns : ∀ names : List String,
      (names.map Reference.column).find? (fun reference =>
        ¬ reference.Known query.select table.header) =
      (names.find? (· ∉ table.header)).map .column :=
    fun names => List.find?_map
  unfold unknown? references at unknown
  rw [List.find?_append, List.find?_append, columns, columns] at unknown
  unfold resolve
  rw [forM_requireColumn, forM_requireColumn]
  -- An unknown name in one clause hides those of the clauses behind it, on both sides.
  cases sources : (query.select.filterMap SelectItem.source?).find? (· ∉ table.header) with
  | some source =>
    rw [sources] at unknown
    cases unknown
    rfl
  | none =>
    cases conditions : query.conditionColumns.find? (· ∉ table.header) with
    | some column =>
      rw [sources, conditions] at unknown
      cases unknown
      rfl
    | none =>
      rw [sources, conditions] at unknown
      cases given : query.order with
      | none =>
        rw [given] at unknown
        cases unknown
      | some order =>
        simp only [given, Option.toList_some, List.map_cons, List.map_nil, List.find?_singleton,
          Option.map_none, Option.none_or] at unknown
        split at unknown
        · next missing =>
          cases unknown
          simp only [ok_bind, Option.mapM_some, resolveOrder_eq_error (of_decide_eq_true missing)]
          rfl
        · cases unknown

end TableQuery.Answer

namespace TableQuery.Engine

open TableQuery.Answer
open TableQuery.Files (FileError)
open TableQuery.Sql

/-- The failure of a query that finds this when it reads its file, or none if it is answered. The
rows of a table have no part in it. -/
def failure? (query : Query) : Except FileError String → Option Error
  | .error e => some (.file e)
  | .ok text =>
    match Decoding.ofText text with
    | .error e => some (.table e)
    | .ok decoding =>
      (unknown? query decoding.table.header).map fun name => .table (.unknownColumn name)

/-- Of the three stages the first that fails is told, and nothing else can fail. -/
theorem answer_failure (query : Query) (content : Except FileError String) :
    match failure? query content with
    | some error => (answer query content).result = .error error
    | none => ∃ output, (answer query content).result = .ok output := by
  cases content with
  | error e => rfl
  | ok text =>
    cases decoded : Decoding.ofText text with
    | error e => simp [failure?, answer, traceDecoding, decoded]
    | ok decoding =>
      rw [answer_result query decoded]
      simp only [failure?, decoded]
      cases unknown : unknown? query decoding.table.header with
      | some name =>
        rw [evaluate, resolve_eq_error unknown]
        rfl
      | none =>
        obtain ⟨output, evaluated, _⟩ :=
          evaluate_answers (shaped_of_ofText decoded) (resolves_of_unknown? unknown)
        exact ⟨output, by rw [evaluated]; rfl⟩

/-- How a query ends is settled by what it reads and by the header below which the rows stand: two
texts with equal headers make it fail with the same error or not at all. -/
theorem executeParsed_failure {σ σ' : Type} (host : Host (StateM σ)) (host' : Host (StateM σ'))
    (query : Query) (before : σ) (before' : σ') :
    (match failure? query (host.read query.source before).1 with
      | some error => (executeParsed host query before).1.result = .error error
      | none => ∃ output, (executeParsed host query before).1.result = .ok output) ∧
    ∀ text text' decoding decoding',
      (host.read query.source before).1 = .ok text →
      (host'.read query.source before').1 = .ok text' →
      Decoding.ofText text = .ok decoding → Decoding.ofText text' = .ok decoding' →
      decoding.table.header = decoding'.table.header →
      ∀ error, (executeParsed host query before).1.result = .error error ↔
        (executeParsed host' query before').1.result = .error error := by
  refine ⟨answer_failure query _, ?_⟩
  intro text text' decoding decoding' read read' decoded decoded' header error
  have failing : ∀ content, (answer query content).result = .error error ↔
      failure? query content = some error := by
    intro content
    have known := answer_failure query content
    cases told : failure? query content with
    | some other =>
      rw [told] at known
      simp [known]
    | none =>
      rw [told] at known
      obtain ⟨output, answered⟩ := known
      simp [answered]
  change (answer query (host.read query.source before).1).result = _ ↔
    (answer query (host'.read query.source before').1).result = _
  rw [failing, failing, read, read']
  simp only [failure?, decoded, decoded', header]

/-- A query with a known select list, and names in its condition and its ORDER BY that are not. -/
def lostQuery : Query :=
  ⟨[.column "b" "k"], "t", some ⟨.compare "c" .gt "1", []⟩, some ⟨"z", .ascending⟩⟩

/-- Without rows it fails as it does with them: at the condition, which is looked up first. -/
theorem lostQuery_fails_alike :
    Decoding.ofText "a,b" = .ok ⟨.comma, ⟨["a", "b"], []⟩⟩ ∧
    Decoding.ofText "a;b\n1;2" = .ok ⟨.semicolon, ⟨["a", "b"], [["1", "2"]]⟩⟩ ∧
    (executeParsed (countingHost "a,b") lostQuery 0).1.result =
      .error (.table (.unknownColumn "c")) ∧
    (executeParsed (countingHost "a;b\n1;2") lostQuery 0).1.result =
      .error (.table (.unknownColumn "c")) := by
  have empty : Decoding.ofText "a,b" = .ok ⟨.comma, ⟨["a", "b"], []⟩⟩ := by decide +kernel
  have filled : Decoding.ofText "a;b\n1;2" = .ok ⟨.semicolon, ⟨["a", "b"], [["1", "2"]]⟩⟩ := by
    decide +kernel
  obtain ⟨told, alike⟩ :=
    executeParsed_failure (countingHost "a,b") (countingHost "a;b\n1;2") lostQuery 0 0
  have unknown : failure? lostQuery ((countingHost "a,b").read lostQuery.source 0).1 =
      some (.table (.unknownColumn "c")) := by
    decide +kernel
  rw [unknown] at told
  exact ⟨empty, filled, told, (alike _ _ _ _ rfl rfl empty filled rfl _).1 told⟩

end TableQuery.Engine
