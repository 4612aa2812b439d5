import TableQuery.Engine.Session

/-!
# The least severity

The least severity of a log decides which lines are kept, and nothing else. Whatever is observed,
with scopes in any depth and queries and decodings that go well or fail, the lines that are written
are those of the run that keeps every line, in their order, less those that are not grave enough;
and every query and decoding comes out the same (`runSteps_minimum`). Times are left aside: the
clock of observed steps stands still.
-/

namespace TableQuery.Trace

/-- The log keeps all that is grave enough of what the full log keeps, in its order. -/
structure Log.Thins (minimum : Severity) (log full : Log) : Prop where
  least : log.minimum = minimum
  whole : full.minimum = .trace
  lines : log.lines = full.lines.filter (·.severity.atLeast minimum)

namespace Log

variable {minimum : Severity} {log full : Log}

/-- A log of the least severity of all writes every line. -/
theorem write_of_trace (whole : full.minimum = .trace) (line : Line) :
    full.write line = { full with lines := full.lines ++ [line] } := by
  rw [Log.write, Log.enabled, whole, if_pos (by simp [Severity.atLeast, Severity.rank])]

/-- Every place that logs comes down to this test of the line's own severity. -/
theorem Thins.write (thins : Thins minimum log full) (line : Line) :
    Thins minimum (log.write line) (full.write line) := by
  have kept := write_of_trace thins.whole line
  have test : log.enabled line.severity = line.severity.atLeast minimum := by
    rw [Log.enabled, thins.least]
  rw [kept, Log.write, test]
  split
  · next grave =>
    refine ⟨thins.least, thins.whole, ?_⟩
    simp [thins.lines, grave]
  · next light =>
    refine ⟨thins.least, thins.whole, ?_⟩
    simp [thins.lines, light]

theorem Thins.writeAll (thins : Thins minimum log full) (lines : List Line) :
    Thins minimum (log.writeAll lines) (full.writeAll lines) := by
  induction lines generalizing log full with
  | nil => exact thins
  | cons line lines ih => exact ih (thins.write line)

end Log

end TableQuery.Trace

namespace TableQuery.Engine

open TableQuery.Trace

mutual

def Step.steady : Step → Bool
  | .setMinimum _ => false
  | .scope _ inner _ => stepsSteady inner
  | .logAt .. | .log .. | .enabled _ | .query .. | .decode _ => true

def stepsSteady : List Step → Bool
  | [] => true
  | step :: rest => step.steady && stepsSteady rest

end

mutual

/-- The answer, less what it tells of the least severity. -/
def StepAnswer.unlevelled : StepAnswer → StepAnswer
  | .minimum _ => .minimum .trace
  | .enabled _ => .enabled true
  | .scope inner => .scope (unlevelledAll inner)
  | .unknownLevel level => .unknownLevel level
  | .query result => .query result
  | .decode result => .decode result

def unlevelledAll : List StepAnswer → List StepAnswer
  | [] => []
  | answer :: rest => answer.unlevelled :: unlevelledAll rest

end

mutual

/-- One step: both runs answer alike, and one log stays the other's graver part. By induction on
the tree of steps, together with the lists of them. -/
theorem run_thins {minimum : Severity} {log full : Log} (thins : Log.Thins minimum log full) :
    (step : Step) → step.steady → (step.run log).1.unlevelled = (step.run full).1.unlevelled ∧
      Log.Thins minimum (step.run log).2 (step.run full).2
  | .logAt level event fields, _ => by
    unfold Step.run
    cases Severity.ofName? level with
    | none => exact ⟨rfl, thins⟩
    | some severity => exact ⟨rfl, thins.write _⟩
  | .log severity event fields, _ => by
    unfold Step.run
    exact ⟨rfl, thins.write _⟩
  | .enabled level, _ => by
    unfold Step.run
    cases Severity.ofName? level <;> exact ⟨rfl, thins⟩
  | .scope scope inner ending, steady => by
    obtain ⟨answers, after⟩ := runSteps_thins (thins.write scope.opening) inner steady
    exact ⟨congrArg StepAnswer.scope answers, after.writeAll _⟩
  -- What a query or a decoding comes to is not looked into: it takes nothing from the log.
  | .query read text, _ => by
    unfold Step.run
    generalize Id.run (query (Host.still read) text) = traced
    exact ⟨rfl, thins.writeAll traced.lines⟩
  | .decode text, _ => by
    unfold Step.run
    generalize traceDecoding (Decoding.ofText text) = traced
    exact ⟨rfl, thins.writeAll traced.lines⟩

theorem runSteps_thins {minimum : Severity} {log full : Log} (thins : Log.Thins minimum log full) :
    (steps : List Step) → stepsSteady steps →
      unlevelledAll (runSteps log steps).1 = unlevelledAll (runSteps full steps).1 ∧
      Log.Thins minimum (runSteps log steps).2 (runSteps full steps).2
  | [], _ => ⟨rfl, thins⟩
  | step :: rest, steady => by
    obtain ⟨own, others⟩ := Bool.and_eq_true_iff.1 steady
    obtain ⟨answer, between⟩ := run_thins thins step own
    obtain ⟨answers, after⟩ := runSteps_thins between rest others
    exact ⟨List.cons_eq_cons.2 ⟨answer, answers⟩, after⟩

end

/-- Steps that leave the least severity as it is answer the same under any, and write those lines of
the run that keeps every line which are grave enough. -/
theorem runSteps_minimum (minimum : Severity) (steps : List Step) (steady : stepsSteady steps) :
    unlevelledAll (runSteps ⟨minimum, []⟩ steps).1 =
        unlevelledAll (runSteps ⟨.trace, []⟩ steps).1 ∧
      (runSteps ⟨minimum, []⟩ steps).2.lines =
        (runSteps ⟨.trace, []⟩ steps).2.lines.filter (·.severity.atLeast minimum) := by
  have start : Log.Thins minimum ⟨minimum, []⟩ ⟨.trace, []⟩ := ⟨rfl, rfl, rfl⟩
  obtain ⟨answers, after⟩ := runSteps_thins start steps steady
  exact ⟨answers, after.lines⟩

/-- Scopes in each other that end in each way, around a query that fails, one that is refused, and
texts that decode or do not. -/
def nestedSteps : List Step :=
  let files : String → Except Files.FileError String := fun name => .error (.notFound name)
  [.enabled "info",
    .scope ⟨"OUTER", [("k", "v")]⟩
      [.decode "a;b\n1;2",
        .scope ⟨"INNER", []⟩ [.query files "SELECT a FROM t", .decode ""] .dropped,
        .logAt "ERROR" "E" [], .query files "SELECT", .logAt "loud" "E" []]
      (.completed [("rows", "1")]),
    .scope ⟨"LAST", []⟩ [.log .info "I" []] (.failed "CODE" "reason")]

theorem nestedSteps_minimum :
    stepsSteady nestedSteps ∧
    unlevelledAll (runSteps ⟨.warn, []⟩ nestedSteps).1 =
        unlevelledAll (runSteps ⟨.trace, []⟩ nestedSteps).1 ∧
      (runSteps ⟨.warn, []⟩ nestedSteps).2.lines =
        (runSteps ⟨.trace, []⟩ nestedSteps).2.lines.filter (·.severity.atLeast .warn) :=
  ⟨by decide, runSteps_minimum .warn nestedSteps (by decide)⟩

end TableQuery.Engine
