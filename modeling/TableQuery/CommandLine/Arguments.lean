/-!
The arguments of the program.

    [--config FILE] query SQL [--data-dir DIR] [--pretty] [--config FILE]
    [--config FILE] explain SQL [--config FILE]

An option and its value are two arguments or one with an equals sign between; the value is not
empty, and as an argument of its own it does not look like an option. No option repeats on one side
of the command. Behind two dashes nothing is an option.
-/

namespace TableQuery.CommandLine

inductive Command
  | query (text : String) (dataDir : Option String) (pretty : Bool)
  | explain (text : String)
  deriving DecidableEq, Repr

inductive Invocation
  | run (config : Option String) (command : Command)
  | version
  | help
  /-- The arguments are not understood. -/
  | misuse
  deriving DecidableEq, Repr

inductive Argument
  /-- Two dashes alone. -/
  | separator
  /-- Two dashes and a name, perhaps with a value. -/
  | long (name : List Char) (value : Option (List Char))
  /-- One dash and letters. -/
  | short (letters : List Char)
  | plain (text : String)
  deriving DecidableEq, Repr

def Argument.ofText (text : String) : Argument :=
  match text.toList with
  | ['-', '-'] => .separator
  | '-' :: '-' :: rest =>
    let name := rest.takeWhile (· ≠ '=')
    match rest.drop name.length with
    | [] => .long name none
    | _ :: value => .long name (some value)
  | '-' :: c :: rest => .short (c :: rest)
  | _ => .plain text

def isValue (text : String) : Bool :=
  text ≠ "" && Argument.ofText text = .plain text

/-- The value of an option that has not been given before, and the arguments behind it. -/
def takeValue (given : Option String) (attached : Option (List Char)) (rest : List String) :
    Option (String × List String) :=
  match given, attached, rest with
  | some _, _, _ => none
  | none, some [], _ => none
  | none, some value, rest => some (String.ofList value, rest)
  | none, none, value :: rest => if isValue value then some (value, rest) else none
  | none, none, [] => none

inductive CommandName
  | query | explain
  deriving DecidableEq, Repr

def CommandName.ofText? (text : String) : Option CommandName :=
  if text = "query" then some .query else if text = "explain" then some .explain else none

/-- What has been given behind the command so far. -/
structure Given where
  text : Option String
  config : Option String
  dataDir : Option String
  pretty : Bool
  deriving DecidableEq, Repr

def Given.nothing : Given :=
  ⟨none, none, none, false⟩

namespace Given

/-- What is asked for once all arguments are taken; a settings file named behind the command goes
before one named in front of it. -/
def finish (name : CommandName) (outer : Option String) (given : Given) : Invocation :=
  match given.text with
  | none => .misuse
  | some text =>
    let config := given.config.or outer
    match name with
    | .query => .run config (.query text given.dataDir given.pretty)
    | .explain => .run config (.explain text)

def addPlain (given : Given) (text : String) : Option Given :=
  match given.text with
  | none => some { given with text }
  | some _ => none

def addAllPlain (given : Given) (rest : List String) : Option Given :=
  rest.foldlM addPlain given

end Given

/-- An option takes its value out of the arguments, so none are added. -/
theorem takeValue_length {given : Option String} {attached : Option (List Char)}
    {rest behind : List String} {value : String}
    (h : takeValue given attached rest = some (value, behind)) : behind.length ≤ rest.length := by
  fun_cases takeValue given attached rest <;> simp_all [takeValue]

/-- Takes the arguments behind the command. -/
def readCommand (name : CommandName) (outer : Option String) (given : Given) (args : List String) :
    Invocation :=
  match args with
  | [] => given.finish name outer
  | arg :: rest =>
    match Argument.ofText arg with
    | .separator =>
      match given.addAllPlain rest with
      | some given => given.finish name outer
      | none => .misuse
    | .plain text =>
      match given.addPlain text with
      | some given => readCommand name outer given rest
      | none => .misuse
    | .short letters => if letters.head? = some 'h' then .help else .misuse
    | .long option attached =>
      if option = "config".toList then
        match _h : takeValue given.config attached rest with
        | some (value, rest) => readCommand name outer { given with config := some value } rest
        | none => .misuse
      else if option = "data-dir".toList ∧ name = .query then
        match _h : takeValue given.dataDir attached rest with
        | some (value, rest) => readCommand name outer { given with dataDir := some value } rest
        | none => .misuse
      else if option = "pretty".toList ∧ name = .query ∧ attached = none ∧ given.pretty = false then
        readCommand name outer { given with pretty := true } rest
      else if option = "help".toList ∧ attached = none then .help
      else .misuse
termination_by args.length
decreasing_by
  · simp
  · have := takeValue_length _h
    simp only [List.length_cons]
    omega
  · have := takeValue_length _h
    simp only [List.length_cons]
    omega
  · simp

def readHelp : List String → Invocation
  | [] => .help
  | [name] => if name = "help" ∨ (CommandName.ofText? name).isSome then .help else .misuse
  | _ => .misuse

/-- Takes the arguments up to the command, and then those behind it. -/
def readArguments (config : Option String) (args : List String) : Invocation :=
  match args with
  | [] => .misuse
  | arg :: rest =>
    match Argument.ofText arg with
    | .separator => .misuse
    | .plain text =>
      match CommandName.ofText? text with
      | some name => readCommand name config Given.nothing rest
      | none => if text = "help" then readHelp rest else .misuse
    | .short letters =>
      match letters.head? with
      | some 'V' => .version
      | some 'h' => .help
      | _ => .misuse
    | .long option attached =>
      if option = "config".toList then
        match _h : takeValue config attached rest with
        | some (value, rest) => readArguments (some value) rest
        | none => .misuse
      else if option = "version".toList ∧ attached = none then .version
      else if option = "help".toList ∧ attached = none then .help
      else .misuse
termination_by args.length
decreasing_by
  have := takeValue_length _h
  simp only [List.length_cons]
  omega

def Invocation.ofArguments (args : List String) : Invocation :=
  readArguments none args

end TableQuery.CommandLine
