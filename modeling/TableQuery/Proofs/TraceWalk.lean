import TableQuery.Proofs.LeastSeverity

/-!
# The trace is a walk

A log that keeps every line keeps the lines of a walk through the steps, each step before those
behind it and the steps inside a scope between its first line and its last (`runSteps_walk`). Every
scope tells one end, the one that it came to: what leaving a scope would tell is silenced by an end
that has been told before. A query is a scope too, and inside it at most one line tells of a table.
-/

namespace TableQuery.Trace

def Line.mark (line : Line) : Severity × String :=
  (line.severity, line.event)

def Ending.mark (name : String) : Ending → Severity × String
  | .completed _ => (.info, name ++ "_COMPLETE")
  | .failed _ _ => (.warn, name ++ "_FAILED")
  | .dropped => (.warn, name ++ "_INCOMPLETE")

/-- An end that is told sets the flag that leaving the scope asks for. -/
theorem marks_finish (scope : Scope) (elapsed : Nat) (ending : Ending) :
    (scope.begun.finish elapsed ending).map Line.mark = [ending.mark scope.name] := by
  cases ending <;> rfl

theorem Log.writeAll_of_trace {log : Log} (whole : log.minimum = .trace) (lines : List Line) :
    log.writeAll lines = { log with lines := log.lines ++ lines } := by
  induction lines generalizing log with
  | nil => simp [Log.writeAll]
  | cons line lines ih =>
    have later := @ih { log with lines := log.lines ++ [line] } whole
    rw [List.append_assoc, List.singleton_append] at later
    rw [← later, ← write_of_trace whole line]
    rfl

end TableQuery.Trace

namespace TableQuery.Engine

open TableQuery.Files (FileError)
open TableQuery.Sql (Query)
open TableQuery.Trace

def decodes : Except FileError String → Bool
  | .error _ => false
  | .ok content => (Decoding.ofText content).isOk

/-- The text is a query, the file that it names can be read, and what is read decodes. -/
def reachesTable (read : String → Except FileError String) (text : String) : Bool :=
  match Query.parse text with
  | .error _ => false
  | .ok query => decodes (read query.source)

def succeeds (host : Host Id) (text : String) : Bool :=
  (Id.run (execute host text)).result.isOk

def tableMark (decoded : Bool) : List (Severity × String) :=
  if decoded then [(.trace, "TABLE_DECODED")] else []

def queryWalk (host : Host Id) (text : String) : List (Severity × String) :=
  (.trace, "QUERY_BEGIN") :: tableMark (reachesTable host.read text) ++
    [if succeeds host text then (.info, "QUERY_COMPLETE") else (.warn, "QUERY_FAILED")]

theorem marks_traceDecoding (decoding : Except TableError Decoding) :
    (traceDecoding decoding).lines.map Line.mark = tableMark decoding.isOk := by
  cases decoding <;> rfl

theorem marks_answer (query : Query) (content : Except FileError String) :
    (answer query content).lines.map Line.mark = tableMark (decodes content) := by
  cases content with
  | error e => rfl
  | ok text =>
    rw [decodes, ← marks_traceDecoding, answer]

/-- What a query text comes to inside its scope. -/
def asked (read : String → Except FileError String) (text : String) :
    Traced (Except Error Answer.Output) :=
  match Query.parse text with
  | .error e => ⟨[], .error (.syntaxError e)⟩
  | .ok query => answer query (read query.source)

/-- Between the two ends of a query there is the mark of its table, if it comes so far. -/
theorem marks_asked (read : String → Except FileError String) (text : String) :
    (asked read text).lines.map Line.mark = tableMark (reachesTable read text) := by
  unfold asked reachesTable
  cases Query.parse text with
  | error e => rfl
  | ok query => exact marks_answer query (read query.source)

theorem execute_eq_asked (host : Host Id) (text : String) :
    ∃ elapsed, Id.run (execute host text) =
      ⟨(queryScope text).opening :: (asked host.read text).lines ++
          (queryScope text).begun.finish elapsed (ending (asked host.read text).result),
        (asked host.read text).result⟩ := by
  refine ⟨Id.run host.now - Id.run host.now, ?_⟩
  unfold execute asked
  cases Query.parse text with
  | error e => rfl
  | ok query => rfl

theorem mark_ending (result : Except Error Answer.Output) :
    (ending result).mark "QUERY" =
      if result.isOk then (.info, "QUERY_COMPLETE") else (.warn, "QUERY_FAILED") := by
  cases result <;> rfl

/-- One query: a beginning, what happens, and an end in any case. -/
theorem marks_execute (host : Host Id) (text : String) :
    (Id.run (execute host text)).lines.map Line.mark = queryWalk host text := by
  obtain ⟨elapsed, executed⟩ := execute_eq_asked host text
  have result : succeeds host text = (asked host.read text).result.isOk := by
    rw [succeeds, executed]
  rw [executed, queryWalk, result, ← marks_asked, ← mark_ending, List.map_append, marks_finish]
  rfl

mutual

/-- The marks that a walk through a step meets. -/
def Step.walk : Step → List (Severity × String)
  | .setMinimum _ | .enabled _ => []
  | .logAt level event _ => (Severity.ofName? level).toList.map (·, event)
  | .log severity event _ => [(severity, event)]
  | .scope scope inner ending =>
    (.trace, scope.name ++ "_BEGIN") :: walkAll inner ++ [ending.mark scope.name]
  | .query read text => queryWalk (Host.still read) text
  | .decode text => tableMark (Decoding.ofText text).isOk

def walkAll : List Step → List (Severity × String)
  | [] => []
  | step :: rest => step.walk ++ walkAll rest

end

theorem lines_query (host : Host Id) (text : String) :
    (Id.run (query host text)).lines = (Id.run (execute host text)).lines := by
  unfold query
  rfl

theorem log_scope (log : Log) (scope : Scope) (inner : List Step) (ending : Ending) :
    ((Step.scope scope inner ending).run log).2 =
      (runSteps (log.write scope.opening) inner).2.writeAll (scope.begun.finish 0 ending) := by
  rw [Step.run]

theorem log_cons (log : Log) (step : Step) (rest : List Step) :
    (runSteps log (step :: rest)).2 = (runSteps (step.run log).2 rest).2 := by
  rw [runSteps]

mutual

/-- One step of a run adds the marks that the walk meets. Steps and lists of them go together. -/
theorem run_walk (before : List Line) :
    (step : Step) → step.steady → ∃ lines,
      (step.run ⟨.trace, before⟩).2 = ⟨.trace, before ++ lines⟩ ∧ lines.map Line.mark = step.walk
  | .logAt level event fields, _ => by
    unfold Step.run Step.walk
    cases Severity.ofName? level with
    | none => exact ⟨[], by simp, rfl⟩
    | some severity =>
      have kept := @Log.write_of_trace ⟨.trace, before⟩ rfl ⟨severity, event, fields⟩
      exact ⟨_, kept, rfl⟩
  | .log severity event fields, _ =>
    ⟨[⟨severity, event, fields⟩], by rw [Step.run, Log.write_of_trace rfl], rfl⟩
  | .enabled level, _ => by
    unfold Step.run
    cases Severity.ofName? level <;> exact ⟨[], by simp, rfl⟩
  | .scope scope inner ending, steady => by
    obtain ⟨lines, within, marks⟩ := runSteps_walked (before ++ [scope.opening]) inner steady
    refine ⟨scope.opening :: lines ++ scope.begun.finish 0 ending, ?_, ?_⟩
    · rw [log_scope, Log.write_of_trace rfl, within, Log.writeAll_of_trace rfl]
      simp
    · rw [List.map_append, List.map_cons, marks, marks_finish, Step.walk]
      rfl
  | .query read text, _ => by
    refine ⟨(Id.run (query (Host.still read) text)).lines, ?_, ?_⟩
    · rw [Step.run, Log.writeAll_of_trace rfl]
    · rw [lines_query, marks_execute, Step.walk]
  | .decode text, _ => by
    refine ⟨(traceDecoding (Decoding.ofText text)).lines, ?_, ?_⟩
    · rw [Step.run, Log.writeAll_of_trace rfl]
    · rw [marks_traceDecoding, Step.walk]

theorem runSteps_walked (before : List Line) :
    (steps : List Step) → stepsSteady steps → ∃ lines,
      (runSteps ⟨.trace, before⟩ steps).2 = ⟨.trace, before ++ lines⟩ ∧
        lines.map Line.mark = walkAll steps
  | [], _ => ⟨[], by simp [runSteps], rfl⟩
  | step :: rest, steady => by
    obtain ⟨own, others⟩ := Bool.and_eq_true_iff.1 steady
    obtain ⟨first, now, marks⟩ := run_walk before step own
    obtain ⟨later, after, behind⟩ := runSteps_walked (before ++ first) rest others
    refine ⟨first ++ later, ?_, by rw [List.map_append, marks, behind, walkAll]⟩
    rw [log_cons, now, after, List.append_assoc]

end

/-- With every line kept, the lines that steps write are those of the walk through them. -/
theorem runSteps_walk (steps : List Step) (steady : stepsSteady steps) :
    (runSteps ⟨.trace, []⟩ steps).2.lines.map Line.mark = walkAll steps := by
  obtain ⟨lines, run, marks⟩ := runSteps_walked [] steps steady
  rw [run, List.nil_append, marks]

/-- Scopes in each other that end in each way, around queries that end at each place where one can:
answered, without a column, without a file, and refused. -/
def bracketedSteps : List Step :=
  let files : String → Except FileError String := fun name =>
    if name = "t" then .ok "a;b\n1;2" else .error (.notFound name)
  [.scope ⟨"OUTER", []⟩
      [.query files "SELECT a FROM t",
        .scope ⟨"INNER", [("k", "v")]⟩
          [.query files "SELECT z FROM t", .query files "SELECT a FROM u", .decode "a,a"] .dropped,
        .query files "SELECT", .log .error "E" []]
      (.completed [("rows", "1")]),
    .scope ⟨"LAST", []⟩ [.decode "a\n1"] (.failed "CODE" "reason")]

/-- Begin and end of each scope stand around what lies inside. -/
theorem bracketedSteps_walk :
    stepsSteady bracketedSteps ∧
    (runSteps ⟨.trace, []⟩ bracketedSteps).2.lines.map Line.mark =
      [(.trace, "OUTER_BEGIN"),
        (.trace, "QUERY_BEGIN"), (.trace, "TABLE_DECODED"), (.info, "QUERY_COMPLETE"),
        (.trace, "INNER_BEGIN"),
          (.trace, "QUERY_BEGIN"), (.trace, "TABLE_DECODED"), (.warn, "QUERY_FAILED"),
          (.trace, "QUERY_BEGIN"), (.warn, "QUERY_FAILED"),
        (.warn, "INNER_INCOMPLETE"),
        (.trace, "QUERY_BEGIN"), (.warn, "QUERY_FAILED"),
        (.error, "E"),
      (.info, "OUTER_COMPLETE"),
      (.trace, "LAST_BEGIN"), (.trace, "TABLE_DECODED"), (.warn, "LAST_FAILED")] := by
  have steady : stepsSteady bracketedSteps := by decide
  refine ⟨steady, (runSteps_walk bracketedSteps steady).trans ?_⟩
  decide +kernel

end TableQuery.Engine
