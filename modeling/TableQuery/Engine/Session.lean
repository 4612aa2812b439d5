import TableQuery.Engine.Execute
import TableQuery.Files.Store

/-!
What is asked of an engine one after the other: requests in a session, whose files come and go and
whose reads are counted, and steps that are observed by what they log.
-/

namespace TableQuery.Engine

open TableQuery.Answer
open TableQuery.Files
open TableQuery.Sql
open TableQuery.Trace

/-! ## Requests -/

/-- The store, and how often it has been read. -/
structure Session where
  store : Store
  reads : Nat
  deriving DecidableEq, Repr

inductive Request
  | read (name : String)
  | readLines (name : String)
  | query (text : String)
  | execute (text : String)
  | executeParsed (query : Query)
  | write (name : String) (entry : Entry)
  | remove (name : String)
  deriving DecidableEq, Repr

inductive Reply
  | content (result : Except FileError String)
  | lines (result : Except FileError (List String))
  | json (result : Except Error String)
  | output (result : Except Error Output)
  | done

namespace Session

/-- Reads a file; a read that fails counts too. -/
def read (name : String) : StateM Session (Except FileError String) := fun session =>
  (session.store.read name, { session with reads := session.reads + 1 })

/-- The surroundings of the engine in a session. Its clock stands still. -/
def host : Host (StateM Session) where
  read := read
  now := pure 0

def step : Request → StateM Session Reply
  | .read name => do
    let content ← read name
    return .content content
  | .readLines name => do
    let content ← read name
    return .lines (content.map Text.linesOf)
  | .query text => do
    let traced ← query host text
    return .json traced.result
  | .execute text => do
    let traced ← execute host text
    return .output traced.result
  | .executeParsed query => do
    let traced ← executeParsed host query
    return .output traced.result
  | .write name entry => do
    modify fun session => { session with store := session.store.write name entry }
    return .done
  | .remove name => do
    modify fun session => { session with store := session.store.remove name }
    return .done

end Session

/-! ## Steps

A step logs, changes what is logged, or does something that leaves lines of its own. Steps inside a
scope run between its first line and its last. Of the log, answers show nothing but its least
severity.
-/

/-- An observed step. -/
inductive Step
  /-- Writes only lines of this severity and graver from here on. -/
  | setMinimum (level : String)
  /-- Logs at a severity given by its name. -/
  | logAt (level event : String) (fields : Fields)
  | log (severity : Severity) (event : String) (fields : Fields)
  /-- Asks whether a line would be written. -/
  | enabled (level : String)
  | scope (scope : Scope) (inner : List Step) (ending : Ending)
  /-- Answers a query over files that do not change meanwhile. -/
  | query (read : String → Except FileError String) (text : String)
  | decode (text : String)

inductive StepAnswer
  /-- The level names no severity. -/
  | unknownLevel (level : String)
  /-- The least severity after a step that logs or sets it. -/
  | minimum (severity : Severity)
  | enabled (answer : Bool)
  | scope (inner : List StepAnswer)
  | query (result : Except Error String)
  | decode (result : Except TableError Table)

mutual

def Step.run (log : Log) : Step → StepAnswer × Log
  | .setMinimum level =>
    match Severity.ofName? level with
    | none => (.unknownLevel level, log)
    | some severity => (.minimum severity, { log with minimum := severity })
  | .logAt level event fields =>
    match Severity.ofName? level with
    | none => (.unknownLevel level, log)
    | some severity => (.minimum log.minimum, log.write ⟨severity, event, fields⟩)
  | .log severity event fields => (.minimum log.minimum, log.write ⟨severity, event, fields⟩)
  | .enabled level =>
    match Severity.ofName? level with
    | none => (.unknownLevel level, log)
    | some severity => (.enabled (log.enabled severity), log)
  | .scope scope inner ending =>
    let (answers, log) := runSteps (log.write scope.opening) inner
    (.scope answers, log.writeAll (scope.begun.finish 0 ending))
  | .query read text =>
    let traced := Id.run (query (Host.still read) text)
    (.query traced.result, log.writeAll traced.lines)
  | .decode text =>
    let traced := traceDecoding (Decoding.ofText text)
    (.decode (traced.result.map Decoding.table), log.writeAll traced.lines)

def runSteps (log : Log) : List Step → List StepAnswer × Log
  | [] => ([], log)
  | step :: rest =>
    let (answer, log) := step.run log
    let (answers, log) := runSteps log rest
    (answer :: answers, log)

end

end TableQuery.Engine
