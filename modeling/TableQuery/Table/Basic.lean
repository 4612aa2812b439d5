/-!
Tables of named columns.

The names of a table are not empty and none repeats, and every row has one cell for each of them.
`Table.ofHeader` makes a table and `Table.appendRow` makes it longer, and both refuse all else.
-/

namespace TableQuery

/-! ## What can be wrong with a table, or with a column that is asked of it -/

/-- A fault of a table. Lines are counted from one. -/
inductive TableError
  /-- There is no header to read. -/
  | headerEmpty
  /-- A column of the header has no name. -/
  | nameEmpty
  /-- Two columns of the header have this name. -/
  | nameRepeated (name : String)
  /-- A row is not as wide as the header. -/
  | width (line expected found : Nat)
  /-- No column has this name. -/
  | unknownColumn (column : String)
  /-- Any other fault of a line. -/
  | malformed (line : Nat) (reason : String)
  deriving DecidableEq, Repr

namespace TableError

/-- A fault that the reader could not tie to a line. -/
def unplaced (reason : String) : TableError :=
  .malformed 0 reason

/-- The line at fault; a fault of the header is in line one, a missing column in none. -/
def line? : TableError → Option Nat
  | headerEmpty | nameEmpty | nameRepeated _ => some 1
  | width line _ _ | malformed line _ => some line
  | unknownColumn _ => none

def column? : TableError → Option String
  | unknownColumn column => some column
  | _ => none

def reason : TableError → String
  | headerEmpty => "header line is empty"
  | nameEmpty => "header contains an empty column name"
  | nameRepeated name => s!"duplicate column name '{name}'"
  | width _ expected found => s!"expected {expected} fields but found {found}"
  | unknownColumn column => s!"Column '{column}' does not exist"
  | malformed _ reason => reason

/-- The reason with its line in front, without the code. -/
def message (error : TableError) : String :=
  match error.line? with
  | some line => s!"Line {line}: {error.reason}"
  | none => error.reason

def code : TableError → String
  | unknownColumn _ => "CSVQ_UNKNOWN_COLUMN"
  | _ => "CSVQ_MALFORMED_TABLE"

def shown (error : TableError) : String :=
  error.code ++ ": " ++ error.message

end TableError

/-! ## Tables and their rows -/

/-- A row as it is looked into: the names of the columns and a cell for each. -/
structure Row where
  header : List String
  cells : List String
  deriving DecidableEq, Repr

namespace Row

def get? (row : Row) (column : String) : Option String := do
  let index ← row.header.idxOf? column
  row.cells[index]?

/-- The cell in a column that has to exist. -/
def require (row : Row) (column : String) : Except TableError String :=
  match row.get? column with
  | some cell => .ok cell
  | none => .error (.unknownColumn column)

def fields (row : Row) : List (String × String) :=
  row.header.zip row.cells

end Row

/-- A header and the cells of the rows below it. -/
structure Table where
  header : List String
  rows : List (List String)
  deriving DecidableEq, Repr

namespace Table

/-- Refuses the first name that is empty or has been seen before. -/
def checkNames (seen : List String) : List String → Except TableError Unit
  | [] => .ok ()
  | name :: rest =>
    if name = "" then .error .nameEmpty
    else if name ∈ seen then .error (.nameRepeated name)
    else checkNames (name :: seen) rest

def ofHeader (header : List String) : Except TableError Table := do
  checkNames [] header
  return ⟨header, []⟩

def checkWidth (header : List String) (line : Nat) (cells : List String) :
    Except TableError (List String) :=
  if cells.length = header.length then .ok cells
  else .error (.width line header.length cells.length)

/-- Appends a row to the table at hand; `line` is where the row comes from. -/
def appendRow (line : Nat) (cells : List String) : ExceptT TableError (StateM Table) Unit := do
  let table ← get
  let cells ← checkWidth table.header line cells
  set { table with rows := table.rows ++ [cells] }

def push (table : Table) (line : Nat) (cells : List String) : Except TableError Table :=
  match (appendRow line cells).run.run table with
  | (.ok (), longer) => .ok longer
  | (.error e, _) => .error e

def hasColumn (table : Table) (column : String) : Bool :=
  table.header.contains column

def requireColumn (table : Table) (column : String) : Except TableError Unit :=
  if table.hasColumn column then .ok () else .error (.unknownColumn column)

def views (table : Table) : List Row :=
  table.rows.map (Row.mk table.header)

def size (table : Table) : Nat :=
  table.rows.length

end Table

end TableQuery
