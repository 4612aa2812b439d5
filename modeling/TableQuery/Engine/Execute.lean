import TableQuery.Answer.Evaluate
import TableQuery.Files.Path
import TableQuery.Json.Reader
import TableQuery.Sql.Parse
import TableQuery.Sql.Scan
import TableQuery.Table.Basic
import TableQuery.Table.Decode
import TableQuery.Trace.Log

/-!
Answering a query: the file that it names is read once, decoded, and asked.

The engine keeps nothing between queries. Where files come from and what time it is are effects of
the surrounding monad; everything else is a function of what the one read returned.
-/

namespace TableQuery.Engine

open TableQuery.Answer
open TableQuery.Files (FileError)
open TableQuery.Sql
open TableQuery.Trace

/-! ## Why a query has no answer

The wording of the part at fault is kept as it is, with its code in front.
-/

/-- A failure, by the part that it comes from. -/
inductive Error
  | syntaxError (error : SyntaxError)
  | table (error : TableError)
  | file (error : FileError)
  /-- The answer could not be written. -/
  | serialization (fault : Json.Fault)
  deriving DecidableEq, Repr

inductive ErrorKind
  | querySyntax | malformedTable | unknownColumn | fileAccess | serialization
  deriving DecidableEq, Repr

namespace Error

def code : Error → String
  | syntaxError _ => SyntaxError.code
  | table error => error.code
  | file error => error.code
  | serialization _ => "CSVQ_SERIALIZATION"

def message : Error → String
  | syntaxError error => error.message
  | table error => error.message
  | file error => error.message
  | serialization fault => fault.shown

/-- The failure as it is shown. Refusals and faults of a table are shown as they show themselves;
the other parts show no code of their own. -/
def shown : Error → String
  | syntaxError error => error.shown
  | table error => error.shown
  | file error => error.code ++ ": " ++ error.message
  | serialization fault => "CSVQ_SERIALIZATION: " ++ fault.shown

def kind : Error → ErrorKind
  | syntaxError _ => .querySyntax
  | table (.unknownColumn _) => .unknownColumn
  | table _ => .malformedTable
  | file _ => .fileAccess
  | serialization _ => .serialization

end Error

/-! ## Execution -/

/-- What the engine needs from its surroundings. -/
structure Host (m : Type → Type) where
  /-- The text of the file of this name. -/
  read : String → m (Except FileError String)
  /-- A clock, in milliseconds. -/
  now : m Nat

/-- Surroundings in which nothing changes: files given by a function, and a clock that stands. -/
def Host.still (read : String → Except FileError String) : Host Id where
  read := read
  now := (0 : Nat)

def decodedLine (decoding : Decoding) : Line :=
  ⟨.trace, "TABLE_DECODED",
    [("delimiter", decoding.delimiter.char.toString), ("rows", toString decoding.table.size)]⟩

/-- The decoding, with its line if it succeeds. -/
def traceDecoding (decoding : Except TableError Decoding) : Traced (Except TableError Decoding) :=
  match decoding with
  | .ok found => ⟨[decodedLine found], .ok found⟩
  | .error e => ⟨[], .error e⟩

/-- The answer of a query, given what reading its file returned. -/
def answer (query : Query) (content : Except FileError String) : Traced (Except Error Output) :=
  match content with
  | .error e => ⟨[], .error (.file e)⟩
  | .ok text =>
    let decoding := traceDecoding (Decoding.ofText text)
    ⟨decoding.lines,
      match decoding.result with
      | .error e => .error (.table e)
      | .ok found =>
        match evaluate query found.table with
        | .error e => .error (.table e)
        | .ok output => .ok output⟩

def queryScope (text : String) : Scope :=
  ⟨"QUERY", [("query", text)]⟩

def ending : Except Error Output → Ending
  | .ok output =>
    .completed [("rows", toString output.returned), ("scanned", toString output.scanned)]
  | .error e => .failed e.code e.shown

variable {m : Type → Type} [Monad m]

/-- Answers a query that is already parsed. -/
def executeParsed (host : Host m) (query : Query) : m (Traced (Except Error Output)) := do
  let content ← host.read query.source
  return answer query content

/-- Answers a query text. A text that is refused reads nothing. -/
def execute (host : Host m) (text : String) : m (Traced (Except Error Output)) := do
  let start ← host.now
  let inner ←
    match Query.parse text with
    | .ok query => executeParsed host query
    | .error e => pure ⟨[], .error (.syntaxError e)⟩
  let stop ← host.now
  let scope := queryScope text
  let last := scope.begun.finish (stop - start) (ending inner.result)
  return ⟨scope.opening :: inner.lines ++ last, inner.result⟩

/-- Answers a query text with the rows as compact JSON. -/
def query (host : Host m) (text : String) : m (Traced (Except Error String)) := do
  let traced ← execute host text
  return ⟨traced.lines, traced.result.map (Output.written false)⟩

end TableQuery.Engine
