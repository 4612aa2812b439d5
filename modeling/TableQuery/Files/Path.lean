import TableQuery.Text.Pieces

/-!
File names and paths.

The components of a path are what its pieces between slashes write. Empty pieces and single dots
stand for the place where they are and write none; only a dot that begins a path is told. A file
name may not go up and may not start at the top, so that the path of a name is always the root's own
path followed by the name's.
-/

namespace TableQuery.Files

open TableQuery.Text

/-! ## Why a file cannot be read -/

inductive Fault
  | notFound
  | permissionDenied
  | notDirectory
  | isDirectory
  | nameTooLong
  /-- The path holds a NUL character, which ends paths. -/
  | nulInPath
  /-- The bytes of the file are no UTF-8 text. -/
  | notText
  /-- Anything else, in the system's words. -/
  | other (text : String)
  deriving DecidableEq, Repr

def Fault.text : Fault → String
  | notFound => "No such file or directory (os error 2)"
  | permissionDenied => "Permission denied (os error 13)"
  | notDirectory => "Not a directory (os error 20)"
  | isDirectory => "Is a directory (os error 21)"
  | nameTooLong => "File name too long (os error 36)"
  | nulInPath => "file name contained an unexpected NUL byte"
  | notText => "stream did not contain valid UTF-8"
  | other text => text

inductive FileError
  | notFound (name : String)
  | permissionDenied (name : String)
  /-- The name is empty or leads out of the root. -/
  | invalidPath (name : String)
  | unreadable (name detail : String)
  deriving DecidableEq, Repr

namespace FileError

def ofFault (name : String) : Fault → FileError
  | .notFound => .notFound name
  | .permissionDenied => .permissionDenied name
  | fault => .unreadable name fault.text

def message : FileError → String
  | notFound name => s!"File not found: {name}"
  | permissionDenied name => s!"Permission denied: {name}"
  | invalidPath name => s!"Invalid path: {name}"
  | unreadable name detail => s!"I/O error reading {name}: {detail}"

def code : FileError → String
  | notFound _ => "CSVQ_FILE_NOT_FOUND"
  | permissionDenied _ => "CSVQ_FILE_PERMISSION_DENIED"
  | invalidPath _ => "CSVQ_FILE_INVALID_PATH"
  | unreadable _ _ => "CSVQ_FILE_IO"

end FileError

/-! ## From a name to its path -/

/-- The pieces between slashes. -/
def pieces (path : String) : List String :=
  (cut '/' path.toList).map String.ofList

/-- The piece leads nowhere else. -/
def staysPut (piece : String) : Bool :=
  piece = "" || piece = "."

def isAbsolute (path : String) : Bool :=
  path.toList.head? = some '/'

inductive Component
  | top
  /-- The place where a path begins, if the path says so. -/
  | here
  | up
  | named (name : String)
  deriving DecidableEq, Repr

namespace Component

def ofPiece? (piece : String) : Option Component :=
  if staysPut piece then none else if piece = ".." then some up else some (named piece)

/-- The component that the start of a path writes. -/
def leading (path : String) : List Component :=
  if isAbsolute path then [top] else if (pieces path).head? = some "." then [here] else []

def ofPath (path : String) : List Component :=
  leading path ++ (pieces path).filterMap ofPiece?

/-- The component leads to no place above or beside. -/
def staysBelow : Component → Bool
  | here | named _ => true
  | top | up => false

end Component

/-- The path below another. One that starts at the top is not put below anything. -/
def joinPath (root name : String) : String :=
  if isAbsolute name then name
  else if root = "" || root.toList.getLast? = some '/' then root ++ name
  else root ++ "/" ++ name

def fullPath (root name : String) : Except FileError String :=
  if name = "" || (Component.ofPath name).any (!·.staysBelow) then .error (.invalidPath name)
  else .ok (joinPath root name)

/-- The text of a file name under a root. A name that leads out of the root reads nothing. -/
def readUnder {m : Type → Type} [Monad m] (readPath : String → m (Except Fault String))
    (root name : String) : m (Except FileError String) :=
  match fullPath root name with
  | .error e => return .error e
  | .ok path => do
    let content ← readPath path
    return content.mapError (FileError.ofFault name)

end TableQuery.Files
