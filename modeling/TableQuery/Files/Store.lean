import TableQuery.Files.Path
import TableQuery.Text.Pieces

/-!
Where files are found: on a disk by their paths, or in memory by their names.

A path is followed piece by piece from the directory where the tree begins, and each piece needs a
directory to be looked up in, also a piece that stays put. Of what lies outside of the tree nothing
is known but the directories above it, up to the top of the system, which has nothing above it but
itself.
-/

namespace TableQuery.Files

/-! ## A tree of directories and files -/

inductive Entry
  | text (content : String)
  /-- A file whose bytes are no UTF-8 text. -/
  | binary
  | directory
  deriving DecidableEq, Repr

namespace Entry

def ofBytes (bytes : ByteArray) : Entry :=
  match String.fromUTF8? bytes with
  | some content => .text content
  | none => .binary

/-- The content of a file that is read to its end. -/
def content : Entry → Except Fault String
  | text content => .ok content
  | binary => .error .notText
  | directory => .error .isDirectory

end Entry

inductive Place
  /-- In the tree, by the components from where it begins. -/
  | within (components : List String)
  /-- At one of the directories above the tree. -/
  | outside
  deriving DecidableEq, Repr

namespace Place

/-- The directory where a path begins to be followed. -/
def start (path : String) : Place :=
  if isAbsolute path then outside else within []

def parent : Place → Place
  | within [] => outside
  | within components => within components.dropLast
  | outside => outside

/-- The place under a name, whether or not there is something. -/
def child (place : Place) (name : String) : Place :=
  match place with
  | within components => within (components ++ [name])
  | outside => outside

/-- The place that one piece of a path names from another. -/
def next (place : Place) (piece : String) : Place :=
  if staysPut piece then place
  else if piece = ".." then place.parent
  else place.child piece

def along (place : Place) (pieces : List String) : Place :=
  pieces.foldl next place

def ofPath (path : String) : Place :=
  (start path).along (pieces path)

/-- The directories that a path passes through, in its order. -/
def passed (path : String) : List Place :=
  (List.range (pieces path).length).map fun count =>
    (start path).along ((pieces path).take count)

end Place

/-- The entries by the components of their paths. -/
structure Disk where
  entries : List (List String × Entry)
  deriving DecidableEq, Repr

namespace Disk

def empty : Disk :=
  ⟨[]⟩

def entry? (disk : Disk) : Place → Option Entry
  | .within [] => some .directory
  | .within components => disk.entries.lookup components
  | .outside => some .directory

def child? (disk : Disk) (place : Place) (name : String) : Option Place :=
  if place ≠ .outside ∧ (disk.entry? (place.child name)).isSome then some (place.child name)
  else none

/-- The longest component that a directory can hold, in bytes. -/
def longestName : Nat :=
  255

/-- The longest path that can be followed, in bytes. -/
def longestPath : Nat :=
  4095

/-- The place that one piece leads to from another. -/
def step (disk : Disk) (place : Place) (piece : String) : Except Fault Place :=
  if disk.entry? place ≠ some .directory then .error .notDirectory
  else if staysPut piece then .ok place
  else if piece = ".." then .ok place.parent
  else if longestName < piece.utf8ByteSize then .error .nameTooLong
  else
    match disk.child? place piece with
    | some child => .ok child
    | none => .error .notFound

def follow (disk : Disk) (place : Place) : List String → Except Fault Place
  | [] => .ok place
  | piece :: rest => do
    let next ← disk.step place piece
    follow disk next rest

def open? (disk : Disk) (path : String) : Except Fault Entry :=
  if path.toList.contains '\x00' then .error .nulInPath
  else if path = "" then .error .notFound
  else if longestPath < path.utf8ByteSize then .error .nameTooLong
  else do
    let place ← disk.follow (Place.start path) (pieces path)
    return (disk.entry? place).getD .directory

def read (disk : Disk) (path : String) : Except Fault String := do
  let entry ← disk.open? path
  entry.content

def erase (disk : Disk) (place : Place) : Disk :=
  ⟨disk.entries.filter (.within ·.1 ≠ place)⟩

/-- The entry is put at a place of the tree, over what was there. -/
def put (disk : Disk) (place : Place) (entry : Entry) : Disk :=
  match place with
  | .within components => ⟨(components, entry) :: (disk.erase place).entries⟩
  | .outside => disk

def ensure (disk : Disk) (place : Place) : Disk :=
  if (disk.entry? place).isSome then disk else disk.put place .directory

/-- The entry is written under the path, and the directories on the way to it are made. -/
def write (disk : Disk) (path : String) (entry : Entry) : Disk :=
  ((Place.passed path).foldl ensure disk).put (Place.ofPath path) entry

def remove (disk : Disk) (path : String) : Disk :=
  disk.erase (Place.ofPath path)

end Disk

/-! ## Stores

In memory any text is a name; on a disk a name is looked up under a root.
-/

inductive Store
  | memory (files : List (String × String))
  | rooted (root : String) (disk : Disk)
  deriving DecidableEq, Repr

namespace Store

def read (store : Store) (name : String) : Except FileError String :=
  match store with
  | memory files =>
    match files.lookup name with
    | some content => .ok content
    | none => .error (.notFound name)
  | rooted root disk => Id.run (readUnder (m := Id) disk.read root name)

def write (store : Store) (name : String) (entry : Entry) : Store :=
  match store, entry with
  | memory files, .text content => .memory ((name, content) :: files.filter (·.1 ≠ name))
  | memory files, _ => .memory files
  | rooted root disk, entry => .rooted root (disk.write (joinPath root name) entry)

def remove (store : Store) (name : String) : Store :=
  match store with
  | memory files => .memory (files.filter (·.1 ≠ name))
  | rooted root disk => .rooted root (disk.remove (joinPath root name))

end Store

end TableQuery.Files
