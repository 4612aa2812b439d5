import TableQuery.CommandLine.Arguments
import TableQuery.Engine.Execute
import TableQuery.Files.Path
import TableQuery.Settings
import TableQuery.Sql.Parse
import TableQuery.Text.Basic

/-!
Running a command.

The settings are loaded first and decide what is logged. A command then prints one JSON document, or
nothing but its failure behind the log lines.
-/

namespace TableQuery.CommandLine

open TableQuery.Engine (Host)
open TableQuery.Files (Fault FileError)
open TableQuery.Sql (Explanation)
open TableQuery.Text (dropStart?)
open TableQuery.Trace (Line Log Severity)

/-! ## How a failure is reported -/

structure Report where
  code : String
  message : String
  deriving DecidableEq, Repr

namespace Report

def shown (report : Report) : String :=
  report.code ++ ": " ++ report.message

/-- Something is wrong with the settings. -/
def config (message : String) : Report :=
  ⟨"CSVQ_CLI_CONFIG_ERROR", message⟩

/-- Something could not be read or written. -/
def input (message : String) : Report :=
  ⟨"CSVQ_CLI_IO_ERROR", message⟩

/-- An answer could not be written as JSON. -/
def json (fault : Json.Fault) : Report :=
  input ("JSON error: " ++ fault.shown)

def ofSettings (error : SettingsError) : Report :=
  config error.message

/-- The report of a failure that is shown with its code in front: the code is told apart from what
follows it. -/
def ofShown (code text : String) : Report :=
  let message? := (dropStart? code.toList text.toList).bind (dropStart? ": ".toList)
  ⟨code, (message?.map String.ofList).getD text⟩

def ofEngine (error : Engine.Error) : Report :=
  ofShown error.code error.shown

end Report

/-! ## What a run leaves behind -/

/-- What the command line needs from its surroundings. -/
structure Surroundings (m : Type → Type) where
  /-- The text at a path. -/
  readPath : String → m (Except Fault String)
  /-- A clock, in milliseconds. -/
  now : m Nat
  /-- What is said of the text of a settings file that holds no settings. -/
  blame : String → Json.Fault

structure Outcome where
  exit : Nat
  stdout : String
  stderr : String
  deriving DecidableEq, Repr

namespace Outcome

def logText (lines : List Line) : String :=
  String.join (lines.map Line.printed)

def printed (lines : List Line) (document : String) : Outcome :=
  ⟨0, document ++ "\n", logText lines⟩

def failed (lines : List Line) (report : Report) : Outcome :=
  ⟨1, "", logText lines ++ report.shown ++ "\n"⟩

end Outcome

def versionText : String :=
  "csvquery 0.1.0\n"

def usageText : String :=
  "Usage: csvquery [OPTIONS] <COMMAND>\n\n" ++
  "Commands:\n" ++
  "  query    Run a query and print its rows as JSON\n" ++
  "  explain  Describe a query without opening its file\n" ++
  "  help     Print this message or the help of the given subcommand(s)\n\n" ++
  "Options:\n" ++
  "      --config <CONFIG>  Path to a JSON settings file\n" ++
  "  -h, --help             Print help\n" ++
  "  -V, --version          Print version\n"

variable {m : Type → Type} [Monad m]

/-- The engine's host: file names are looked up under the data directory. -/
def hostUnder (surroundings : Surroundings m) (root : String) : Host m where
  read := Files.readUnder surroundings.readPath root
  now := surroundings.now

/-- The settings in the file, or the defaults without one. -/
def loadSettings (surroundings : Surroundings m) (config : Option String) :
    m (Except SettingsError Settings) :=
  match config with
  | none => return .ok Settings.default
  | some path => do
    let content ← surroundings.readPath path
    return Settings.ofFile surroundings.blame content

/-- Answers a query under the settings, of which the log keeps what is grave enough. -/
def runQuery (surroundings : Surroundings m) (settings : Settings) (minimum : Severity)
    (text : String) : m Outcome := do
  let traced ← Engine.execute (hostUnder surroundings settings.dataDir) text
  let lines := ((⟨minimum, []⟩ : Log).writeAll traced.lines).lines
  match traced.result with
  | .ok output => return .printed lines (output.written settings.pretty)
  | .error e => return .failed lines (.ofEngine e)

def runCommand (surroundings : Surroundings m) (config : Option String) (command : Command) :
    m Outcome := do
  let loaded ← loadSettings surroundings config
  match loaded with
  | .error e => return .failed [] (.ofSettings e)
  | .ok settings =>
    match settings.severity with
    | .error e => return .failed [] (.ofSettings e)
    | .ok minimum =>
      match command with
      | .query text dataDir pretty =>
        runQuery surroundings (settings.override dataDir pretty) minimum text
      | .explain text =>
        return .printed [] ((Explanation.ofText text).toJson.written settings.pretty)

def run (surroundings : Surroundings m) (args : List String) : m Outcome :=
  match Invocation.ofArguments args with
  | .run config command => runCommand surroundings config command
  | .version => return ⟨0, versionText, ""⟩
  | .help => return ⟨0, usageText, ""⟩
  | .misuse => return ⟨2, "", usageText⟩

end TableQuery.CommandLine
