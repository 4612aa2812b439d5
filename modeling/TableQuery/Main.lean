import TableQuery.CommandLine.Run

/-!
The program. Everything that it decides is decided in `CommandLine.run`; here the files, the clock
and the streams are the real ones.
-/

namespace TableQuery

open TableQuery.Files (Fault)

/-- The number of a system error, which may come negated. -/
def errorNumber (code : UInt32) : Nat :=
  min code.toNat (UInt32.size - code.toNat)

def faultOf : IO.Error → Fault
  | .noFileOrDirectory .. => .notFound
  | .permissionDenied .. => .permissionDenied
  | error@(.inappropriateType _ code _) | error@(.invalidArgument _ code _) =>
    match errorNumber code with
    | 20 => .notDirectory
    | 21 => .isDirectory
    | 36 => .nameTooLong
    | _ => .other (toString error)
  | error => .other (toString error)

def readPath (path : String) : IO (Except Fault String) := do
  if path.toList.contains '\x00' then
    return .error .nulInPath
  try
    let bytes ← IO.FS.readBinFile path
    match String.fromUTF8? bytes with
    | some content => return .ok content
    | none => return .error .notText
  catch error =>
    return .error (faultOf error)

/-- The real surroundings. A settings file is refused as a whole, without a place in it. -/
def surroundings : CommandLine.Surroundings IO where
  readPath := readPath
  now := IO.monoMsNow
  blame _ := ⟨"not the settings of this program", 0, 0⟩

end TableQuery

def main (args : List String) : IO UInt32 := do
  let outcome ← TableQuery.CommandLine.run TableQuery.surroundings args
  IO.eprint outcome.stderr
  try
    IO.print outcome.stdout
    (← IO.getStdout).flush
    return UInt32.ofNat outcome.exit
  catch error =>
    IO.eprintln (TableQuery.CommandLine.Report.input (toString error)).shown
    return 1
