import TableQuery.Json.Layout
import TableQuery.Text.Basic

/-!
Log lines, the log that keeps those which are grave enough, and the scopes that write them.

A line is one JSON object: the event, the severity, and the fields sorted by their names. Fields of
one name keep the order in which they were given.
-/

namespace TableQuery.Trace

open TableQuery.Json (Value)
open TableQuery.Text

/-! ## How grave a line is -/

/-- A severity, from detail to the end of the program. -/
inductive Severity
  | trace | info | warn | error | fatal
  deriving DecidableEq, Repr

namespace Severity

def rank : Severity → Nat
  | trace => 0
  | info => 1
  | warn => 2
  | error => 3
  | fatal => 4

def atLeast (severity minimum : Severity) : Bool :=
  minimum.rank ≤ severity.rank

def name : Severity → String
  | trace => "TRACE"
  | info => "INFO"
  | warn => "WARN"
  | error => "ERROR"
  | fatal => "FATAL"

def all : List Severity :=
  [.trace, .info, .warn, .error, .fatal]

/-- The severity of this name, in any ASCII letter case. -/
def ofName? (text : String) : Option Severity :=
  all.find? fun severity => text.toList.map Char.toUpper == severity.name.toList

/-- What is said of a text that names no severity: it is quoted in small letters. -/
def unknown (text : String) : String :=
  s!"unknown log level '{text.map Char.toLower}'"

end Severity

/-! ## Lines and the log -/

abbrev Fields : Type :=
  List (String × String)

structure Line where
  severity : Severity
  event : String
  fields : Fields
  deriving DecidableEq, Repr

namespace Line

/-- The one field may stand in front of the other. -/
def ordered (a b : String × String) : Bool :=
  compareChars a.1.toList b.1.toList != .gt

def toJson (line : Line) : Value :=
  .record
    (("event", .text line.event) :: ("severity", .text line.severity.name) ::
      (line.fields.mergeSort ordered).map fun (name, value) => (name, .text value))

def written (line : Line) : String :=
  line.toJson.compact

/-- The line with its end, as one write puts it out. -/
def printed (line : Line) : String :=
  line.written ++ "\n"

end Line

/-- The least severity that is written, and the lines written so far. -/
structure Log where
  minimum : Severity
  lines : List Line
  deriving DecidableEq, Repr

namespace Log

/-- A log as it starts: warnings and what is graver, and nothing written. -/
def empty : Log :=
  ⟨.warn, []⟩

def enabled (log : Log) (severity : Severity) : Bool :=
  severity.atLeast log.minimum

def write (log : Log) (line : Line) : Log :=
  if log.enabled line.severity then { log with lines := log.lines ++ [line] } else log

def writeAll (log : Log) (lines : List Line) : Log :=
  lines.foldl write log

end Log

/-- A result and the lines that lead to it, the light ones included. -/
structure Traced (α : Type) where
  lines : List Line
  result : α
  deriving Repr

/-! ## Scopes

A scope has one line when its operation begins and one when it ends. A scope that has begun knows
whether its end has been told. Completing or failing it tells the end, with the fields of the first
line again; leaving it tells that there was none, unless an end has been told before.
-/

structure Scope where
  name : String
  fields : Fields
  deriving DecidableEq, Repr

inductive Ending
  | completed (extra : Fields)
  | failed (code reason : String)
  | dropped
  deriving DecidableEq, Repr

structure OpenScope where
  scope : Scope
  /-- The end has been told. -/
  completed : Bool
  deriving DecidableEq, Repr

namespace Scope

def opening (scope : Scope) : Line :=
  ⟨.trace, scope.name ++ "_BEGIN", scope.fields⟩

def begun (scope : Scope) : OpenScope :=
  ⟨scope, false⟩

end Scope

namespace OpenScope

/-- Tells the end as a success; `elapsed` is in milliseconds. -/
def complete (opened : OpenScope) (elapsed : Nat) (extra : Fields) : OpenScope × Line :=
  ({ opened with completed := true },
    ⟨.info, opened.scope.name ++ "_COMPLETE",
      opened.scope.fields ++ extra ++ [("elapsed_ms", toString elapsed)]⟩)

/-- Tells the end as a failure; `elapsed` is in milliseconds. -/
def fail (opened : OpenScope) (elapsed : Nat) (code reason : String) : OpenScope × Line :=
  ({ opened with completed := true },
    ⟨.warn, opened.scope.name ++ "_FAILED",
      opened.scope.fields ++
        [("code", code), ("reason", reason), ("elapsed_ms", toString elapsed)]⟩)

/-- What leaving the scope writes. -/
def leave (opened : OpenScope) : List Line :=
  if opened.completed then []
  else
    [⟨.warn, opened.scope.name ++ "_INCOMPLETE", [("reason", "scope dropped without completion")]⟩]

/-- What is written from the ending on. A scope is left in any case. -/
def finish (opened : OpenScope) (elapsed : Nat) : Ending → List Line
  | .completed extra =>
    let (ended, line) := opened.complete elapsed extra
    line :: ended.leave
  | .failed code reason =>
    let (ended, line) := opened.fail elapsed code reason
    line :: ended.leave
  | .dropped => opened.leave

end OpenScope

end TableQuery.Trace
