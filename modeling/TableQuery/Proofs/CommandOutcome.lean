import TableQuery.Proofs.JsonReading
import TableQuery.Proofs.Outcome
import TableQuery.Proofs.Reports
import TableQuery.Proofs.ResultRows
import TableQuery.Proofs.ValidSettings

/-!
# What a command prints

A command ends in one of two ways: with one JSON document on its output and nothing wrong, or with
an empty output and the failure at the end of its messages (`runCommand_prints_or_fails`). Which of
the two it is depends on what `Gives` and `Stops` say: the settings, and for a query the engine
under them. Files and clock are whatever the surroundings make of them, from one reading to the
next.
-/

namespace TableQuery.Sql.Explanation

open TableQuery.Json (Value)
open TableQuery.Json.Value (closed_array closed_bool closed_null closed_record closed_text
  closed_textOrNull)

theorem closed_toJson (explanation : Explanation) : explanation.toJson.Closed := by
  have texts : ∀ select : List String, (Value.array (select.map Value.text)).Closed :=
    fun select => closed_array (List.forall_mem_map.2 fun text _ => closed_text text)
  cases explanation with
  | accepted select source filter order =>
    refine closed_record ?_
    simp only [List.forall_mem_cons]
    exact ⟨closed_bool true, texts select, closed_text _, closed_textOrNull _, closed_textOrNull _,
      closed_null, closed_null, by simp⟩
  | rejected error =>
    refine closed_record ?_
    simp only [List.forall_mem_cons]
    exact ⟨closed_bool false, texts [], closed_null, closed_null, closed_null, closed_text _,
      closed_text _, by simp⟩

/-- The explanation tells whether the text is a query. -/
theorem accepted_toJson (text : String) :
    ∃ members, (Explanation.ofText text).toJson = .object members ∧
      members.lookup (some "accepted") = some (.bool (Query.parse text).isOk) := by
  unfold Explanation.ofText
  cases Query.parse text <;> exact ⟨_, rfl, rfl⟩

theorem isDocument_toJson (explanation : Explanation) (pretty : Bool) :
    Json.IsDocument (explanation.toJson.written pretty) explanation.toJson := by
  have closed := closed_toJson explanation
  cases explanation <;> exact Value.isDocument_object closed pretty

end TableQuery.Sql.Explanation

namespace TableQuery

open TableQuery.Files (Fault)
open TableQuery.Trace (Severity)

namespace CommandLine

open TableQuery.Answer (Output rowValue)
open TableQuery.Json (IsDocument Value)
open TableQuery.Sql (Explanation Query)

/-! ## The two ways to end -/

/-- The document is printed with one line end behind it, and nothing is wrong. -/
structure Outcome.Prints (outcome : Outcome) (document : String) (value : Value) : Prop where
  exit : outcome.exit = 0
  stdout : outcome.stdout = document ++ "\n"
  document : IsDocument document value

/-- Nothing is printed, and the failure ends the messages, behind the lines of the log. -/
structure Outcome.Fails (outcome : Outcome) (code message : String) : Prop where
  exit : outcome.exit = 1
  stdout : outcome.stdout = ""
  stderr : ∃ lines, outcome.stderr =
    Outcome.logText lines ++ (code ++ ": " ++ message) ++ "\n"

/-- A reported failure is shown as its code and its message. -/
theorem fails_of_report (lines : List Trace.Line) (report : Report) :
    (Outcome.failed lines report).Fails report.code report.message :=
  ⟨rfl, rfl, lines, rfl⟩

/-- A failure of the engine reaches the user under its own code. -/
theorem fails_of_engine (lines : List Trace.Line) (error : Engine.Error) :
    (Outcome.failed lines (.ofEngine error)).Fails error.code error.message := by
  rw [ofEngine_eq]
  exact fails_of_report lines _

theorem prints_of_document (lines : List Trace.Line) {document : String} {value : Value}
    (is : IsDocument document value) : (Outcome.printed lines document).Prints document value :=
  ⟨rfl, rfl, is⟩

/-! ## What a command depends on -/

section Run

variable {σ : Type} (surroundings : Surroundings (StateM σ)) (config : Option String) (before : σ)

def loaded : Except SettingsError Settings :=
  (loadSettings surroundings config before).1

/-- What the engine answers under the settings, once their file has been read. -/
def answered (settings : Settings) (text : String) : Except Engine.Error Output :=
  (Engine.execute (hostUnder surroundings settings.dataDir) text
    (loadSettings surroundings config before).2).1.result

/-- What a command has to print, as a text and as the value of that text. -/
inductive Gives : Command → (document : String) → (value : Value) → Prop
  | query {text : String} {dataDir : Option String} {pretty : Bool} {settings : Settings}
      {output : Output} (accepted : loaded surroundings config before = .ok settings)
      (succeeded : answered surroundings config before (settings.override dataDir pretty) text =
        .ok output) :
      Gives (.query text dataDir pretty) (output.written (settings.pretty || pretty))
        (.array (output.rows.map rowValue))
  | explain {text : String} {settings : Settings}
      (accepted : loaded surroundings config before = .ok settings) :
      Gives (.explain text) ((Explanation.ofText text).toJson.written settings.pretty)
        (Explanation.ofText text).toJson

/-- What stops a command: its settings, or the engine under them. -/
inductive Stops : Command → (code message : String) → Prop
  | settings {command : Command} {e : SettingsError}
      (refused : loaded surroundings config before = .error e) :
      Stops command "CSVQ_CLI_CONFIG_ERROR" e.message
  | engine {text : String} {dataDir : Option String} {pretty : Bool} {settings : Settings}
      {e : Engine.Error} (accepted : loaded surroundings config before = .ok settings)
      (failed : answered surroundings config before (settings.override dataDir pretty) text =
        .error e) :
      Stops (.query text dataDir pretty) e.code e.message

theorem bind_apply {α β : Type} (step : StateM σ α) (next : α → StateM σ β) (state : σ) :
    (step >>= next) state = next (step state).1 (step state).2 := rfl

variable {surroundings config before}

/-- Settings that are loaded have a level. -/
theorem severity_of_loaded {settings : Settings}
    (accepted : loaded surroundings config before = .ok settings) :
    ∃ minimum, settings.severity = .ok minimum :=
  (valid_of_loadSettings accepted).level

/-- Without settings no command is run, not even an explanation. -/
theorem runCommand_refused {e : SettingsError}
    (refused : loaded surroundings config before = .error e) (command : Command) :
    (runCommand surroundings config command before).1 = .failed [] (.ofSettings e) := by
  unfold loaded at refused
  rw [runCommand, bind_apply, refused]
  rfl

/-- Once the settings are there, their level is no further reason to stop. -/
theorem runCommand_accepted {settings : Settings}
    (accepted : loaded surroundings config before = .ok settings) :
    ∃ minimum, ∀ command, runCommand surroundings config command before =
      (match command with
        | .query text dataDir pretty =>
          runQuery surroundings (settings.override dataDir pretty) minimum text
        | .explain text =>
          pure (.printed [] ((Explanation.ofText text).toJson.written settings.pretty)))
        (loadSettings surroundings config before).2 := by
  obtain ⟨minimum, level⟩ := severity_of_loaded accepted
  unfold loaded at accepted
  refine ⟨minimum, fun command => ?_⟩
  rw [runCommand, bind_apply, accepted]
  cases command <;> simp only [level]

/-- What is printed or told depends on the engine's result alone. Only the log depends on the clock
and the level. -/
theorem runQuery_eq (settings : Settings) (minimum : Trace.Severity) (text : String) (state : σ) :
    ∃ lines, (runQuery surroundings settings minimum text state).1 =
      match (Engine.execute (hostUnder surroundings settings.dataDir) text state).1.result with
      | .ok output => .printed lines (output.written settings.pretty)
      | .error e => .failed lines (.ofEngine e) := by
  rw [runQuery, bind_apply]
  cases (Engine.execute (hostUnder surroundings settings.dataDir) text state).1.result <;>
    exact ⟨_, rfl⟩

/-- A query ends as the engine ends under its settings. -/
theorem runCommand_query {settings : Settings}
    (accepted : loaded surroundings config before = .ok settings) (text : String)
    (dataDir : Option String) (pretty : Bool) :
    ∃ lines, (runCommand surroundings config (.query text dataDir pretty) before).1 =
      match answered surroundings config before (settings.override dataDir pretty) text with
      | .ok output => .printed lines (output.written (settings.pretty || pretty))
      | .error e => .failed lines (.ofEngine e) := by
  obtain ⟨minimum, runs⟩ := runCommand_accepted accepted
  rw [runs]
  exact runQuery_eq (settings.override dataDir pretty) minimum text _

theorem prints_of_gives {command : Command} {document : String} {value : Value}
    (gives : Gives surroundings config before command document value) :
    (runCommand surroundings config command before).1.Prints document value := by
  cases gives with
  | @query text dataDir pretty settings output accepted succeeded =>
    obtain ⟨lines, ends⟩ := runCommand_query accepted text dataDir pretty
    rw [ends, succeeded, ← Answer.toJson_eq]
    exact prints_of_document lines (Value.isDocument_array (Answer.closed_toJson output) _)
  | explain accepted =>
    obtain ⟨minimum, runs⟩ := runCommand_accepted accepted
    rw [runs]
    exact prints_of_document [] (Explanation.isDocument_toJson _ _)

theorem fails_of_stops {command : Command} {code message : String}
    (stops : Stops surroundings config before command code message) :
    (runCommand surroundings config command before).1.Fails code message := by
  cases stops with
  | settings refused =>
    rw [runCommand_refused refused]
    exact fails_of_report [] _
  | @engine text dataDir pretty settings e accepted failed =>
    obtain ⟨lines, ends⟩ := runCommand_query accepted text dataDir pretty
    rw [ends, failed]
    exact fails_of_engine lines e

variable (surroundings config before)

/-- There is no third way for a command to end. -/
theorem gives_or_stops (command : Command) :
    (∃ document value, Gives surroundings config before command document value) ∨
      ∃ code message, Stops surroundings config before command code message := by
  cases found : loaded surroundings config before with
  | error e => exact .inr ⟨_, _, .settings found⟩
  | ok settings =>
    cases command with
    | query text dataDir pretty =>
      cases result : answered surroundings config before
          (settings.override dataDir pretty) text with
      | ok output => exact .inl ⟨_, _, .query found result⟩
      | error e => exact .inr ⟨_, _, .engine found result⟩
    | explain text => exact .inl ⟨_, _, .explain found⟩

/-- The exit status is that of a success just when there is something to print. -/
theorem exit_eq_zero_iff (command : Command) :
    (runCommand surroundings config command before).1.exit = 0 ↔
      ∃ document value, Gives surroundings config before command document value := by
  constructor
  · intro well
    rcases gives_or_stops surroundings config before command with given | ⟨code, message, stops⟩
    · exact given
    · have wrong := (fails_of_stops stops).exit
      omega
  · rintro ⟨document, value, gives⟩
    exact (prints_of_gives gives).exit

end Run

/-- A command prints one document or reports what stops it. A query prints exactly if the settings
load and the engine succeeds under them, and then its rows, indented if the settings or the command
line ask for it. An explanation is printed exactly if the settings load, whatever the text, and says
whether the text is a query. -/
theorem runCommand_prints_or_fails {σ : Type} (surroundings : Surroundings (StateM σ))
    (config : Option String) (before : σ) (command : Command) :
    let outcome := (runCommand surroundings config command before).1
    ((∃ document value, outcome.Prints document value) ∨
      ∃ code message, Stops surroundings config before command code message ∧
        outcome.Fails code message) ∧
    match command with
    | .query text dataDir pretty =>
      (outcome.exit = 0 ↔ ∃ settings output, loaded surroundings config before = .ok settings ∧
        answered surroundings config before (settings.override dataDir pretty) text = .ok output) ∧
      ∀ settings output, loaded surroundings config before = .ok settings →
        answered surroundings config before (settings.override dataDir pretty) text = .ok output →
        outcome.Prints (output.written (settings.pretty || pretty))
          (.array (output.rows.map rowValue))
    | .explain text =>
      (outcome.exit = 0 ↔ ∃ settings, loaded surroundings config before = .ok settings) ∧
      ∀ settings, loaded surroundings config before = .ok settings →
        ∃ members, outcome.Prints ((Explanation.ofText text).toJson.written settings.pretty)
            (.object members) ∧
          members.lookup (some "accepted") = some (.bool (Query.parse text).isOk) := by
  intro outcome
  constructor
  · rcases gives_or_stops surroundings config before command with
      ⟨document, value, gives⟩ | ⟨code, message, stops⟩
    · exact .inl ⟨document, value, prints_of_gives gives⟩
    · exact .inr ⟨code, message, stops, fails_of_stops stops⟩
  · have exit := exit_eq_zero_iff surroundings config before command
    cases command with
    | query text dataDir pretty =>
      refine ⟨exit.trans ⟨?_, ?_⟩, fun settings output accepted succeeded =>
        prints_of_gives (.query accepted succeeded)⟩
      · rintro ⟨_, _, gives⟩
        cases gives with
        | query accepted succeeded => exact ⟨_, _, accepted, succeeded⟩
      · rintro ⟨settings, output, accepted, succeeded⟩
        exact ⟨_, _, .query accepted succeeded⟩
    | explain text =>
      refine ⟨exit.trans ⟨?_, ?_⟩, fun settings accepted => ?_⟩
      · rintro ⟨_, _, gives⟩
        cases gives with
        | explain accepted => exact ⟨_, accepted⟩
      · rintro ⟨settings, accepted⟩
        exact ⟨_, _, .explain accepted⟩
      · obtain ⟨members, value, told⟩ := Explanation.accepted_toJson text
        refine ⟨members, ?_, told⟩
        rw [← value]
        exact prints_of_gives (.explain accepted)

/-- Surroundings with a settings file and a table below the directory that it names, a file without
settings, and a clock that goes on with every reading. -/
def tickingSurroundings : Surroundings (StateM Nat) where
  readPath path := fun time =>
    let files := [("c", "\x7b\"data_dir\": \"d/\", \"log_level\": \"TRACE\"\x7d"),
      ("d/t", "a;b\n1;2\n3;4"), ("x", "x")]
    ((files.lookup path).elim (.error .notFound) .ok, time + 1)
  now := fun time => (time, time + 3)
  blame := noValue

def loadedSettings : Settings :=
  ⟨"d/", "TRACE", false⟩

def oneRow : Output :=
  ⟨[⟨[("k", "4")]⟩], 2⟩

/-- The flag alone asks for the indented layout; and a file without settings is all that is told,
with what is said of it. -/
theorem tickingSurroundings_prints :
    loaded tickingSurroundings (some "c") 0 = .ok loadedSettings ∧
    answered tickingSurroundings (some "c") 0 (loadedSettings.override none true)
        "SELECT b AS k FROM t WHERE a > 1" = .ok oneRow ∧
    (runCommand tickingSurroundings (some "c")
        (.query "SELECT b AS k FROM t WHERE a > 1" none true) 0).1.stdout =
      "[\n  \x7b\n    \"k\": \"4\"\n  \x7d\n]\n" ∧
    (runCommand tickingSurroundings (some "x") (.explain "") 0).1.Fails "CSVQ_CLI_CONFIG_ERROR"
      "Invalid config JSON: expected value at line 1 column 1" := by
  have accepted : loaded tickingSurroundings (some "c") 0 = .ok loadedSettings := by
    decide +kernel
  have succeeded : answered tickingSurroundings (some "c") 0 (loadedSettings.override none true)
      "SELECT b AS k FROM t WHERE a > 1" = .ok oneRow := by
    decide +kernel
  have refused : loaded tickingSurroundings (some "x") 0 =
      .error (.invalidJson ⟨"expected value", 1, 1⟩) := by
    decide +kernel
  have prints := (runCommand_prints_or_fails tickingSurroundings (some "c") 0
    (.query "SELECT b AS k FROM t WHERE a > 1" none true)).2.2 loadedSettings oneRow accepted
      succeeded
  have ends := runCommand_prints_or_fails tickingSurroundings (some "x") 0 (.explain "")
  refine ⟨accepted, succeeded, prints.stdout.trans ?_, ?_⟩
  · decide +kernel
  · rcases ends.1 with ⟨document, value, printed⟩ | ⟨code, message, stops, fails⟩
    · obtain ⟨settings, loads⟩ := ends.2.1.1 printed.exit
      rw [refused] at loads
      cases loads
    · cases stops with
      | settings told =>
        rw [refused] at told
        cases told
        exact fails

end CommandLine

end TableQuery
