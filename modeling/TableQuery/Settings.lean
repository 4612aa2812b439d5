import TableQuery.Files.Path
import TableQuery.Json.Layout
import TableQuery.Json.Reader
import TableQuery.Text.Basic
import TableQuery.Trace.Log

/-!
The settings file.

It is one JSON value: an object whose members may be left out and may stand in any order, or an
array of at most three elements in the order of the fields, the last of which may be left out.
Members of other names are passed over, whatever they hold. What is left out has its default.
-/

namespace TableQuery

open TableQuery.Files (Fault)
open TableQuery.Json (Value Literal)
open TableQuery.Trace (Severity)

structure Settings where
  /-- The directory under which files are looked up. -/
  dataDir : String
  /-- The name of the least severity that is logged. -/
  logLevel : String
  /-- Answers are written indented. -/
  pretty : Bool
  deriving DecidableEq, Repr

inductive SettingsError
  | unreadable (fault : Fault)
  /-- The text is not JSON, or not of the form of settings, as its reader says. -/
  | invalidJson (fault : Json.Fault)
  | blankDataDir
  | unknownLevel (level : String)
  deriving DecidableEq, Repr

def SettingsError.message : SettingsError → String
  | unreadable fault => s!"Failed to read config: {fault.text}"
  | invalidJson fault => s!"Invalid config JSON: {fault.shown}"
  | blankDataDir => "data_dir must not be empty"
  | unknownLevel level => s!"Invalid log_level: {Severity.unknown level}"

namespace Settings

def default : Settings :=
  ⟨".", "warn", false⟩

def toJson (settings : Settings) : Value :=
  .record
    [("data_dir", .text settings.dataDir), ("log_level", .text settings.logLevel),
      ("pretty", .bool settings.pretty)]

def valuesOf (name : String) (members : List (Literal × Value)) : List Value :=
  (members.filter (·.1 = some name)).map (·.2)

/-- A text that may be left out, but not given twice. -/
def textMember (ifAbsent : String) : List Value → Option String
  | [] => some ifAbsent
  | [.string (some text)] => some text
  | _ => none

/-- A truth value that may be left out, but not given twice. -/
def boolMember (ifAbsent : Bool) : List Value → Option Bool
  | [] => some ifAbsent
  | [.bool value] => some value
  | _ => none

def ofValues (dataDir logLevel pretty : List Value) : Option Settings := do
  let dataDir ← textMember default.dataDir dataDir
  let logLevel ← textMember default.logLevel logLevel
  let pretty ← boolMember default.pretty pretty
  return ⟨dataDir, logLevel, pretty⟩

def ofJson : Value → Option Settings
  | .object members =>
    if members.all (·.1.isSome) then
      ofValues (valuesOf "data_dir" members) (valuesOf "log_level" members)
        (valuesOf "pretty" members)
    else none
  | .array elements =>
    if elements.length ≤ 3 then
      ofValues (elements.take 1) ((elements.drop 1).take 1) (elements.drop 2)
    else none
  | _ => none

def severity (settings : Settings) : Except SettingsError Severity :=
  match Severity.ofName? settings.logLevel with
  | some severity => .ok severity
  | none => .error (.unknownLevel settings.logLevel)

/-- Refuses a blank directory, and then a level that is none. -/
def check (settings : Settings) : Except SettingsError Settings :=
  if Text.allBlank settings.dataDir.toList then .error .blankDataDir
  else
    match settings.severity with
    | .ok _ => .ok settings
    | .error e => .error e

/-- The settings in a text. What is said of a text without any, in which words and of which place,
is up to whoever reads the JSON: that is `blame`. -/
def ofText (blame : String → Json.Fault) (text : String) : Except SettingsError Settings :=
  match (Json.read text).bind ofJson with
  | some settings => settings.check
  | none => .error (.invalidJson (blame text))

def ofFile (blame : String → Json.Fault) : Except Fault String → Except SettingsError Settings
  | .ok text => ofText blame text
  | .error fault => .error (.unreadable fault)

def override (settings : Settings) (dataDir : Option String) (pretty : Bool) : Settings :=
  { settings with
    dataDir := dataDir.getD settings.dataDir
    pretty := settings.pretty || pretty }

end Settings

end TableQuery
