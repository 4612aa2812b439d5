import TableQuery.CommandLine.Run

/-!
# Failures as they are reported

A report takes the code off the text of a failure, so that it can be put back in front of it. Each
part that can be at fault shows its code and its message in a way of its own; whichever part it is,
the report has the code and the message of that part, whatever the message says (`ofEngine_tells`).
-/

namespace TableQuery

open TableQuery.Files (FileError)
open TableQuery.Sql (SyntaxError)

/-- Every failure is shown as its code and its message, whichever part it comes from. -/
theorem Engine.Error.shown_eq (error : Engine.Error) :
    error.shown = error.code ++ ": " ++ error.message := by
  unfold Engine.Error.shown Engine.Error.code Engine.Error.message
  cases error with
  | syntaxError error =>
    dsimp only
    rw [SyntaxError.shown]
  | table error =>
    dsimp only
    rw [TableError.shown]
  | file error => dsimp only
  | serialization fault =>
    have joined : "CSVQ_SERIALIZATION: " = "CSVQ_SERIALIZATION" ++ ": " := by decide
    dsimp only
    rw [joined]

namespace CommandLine

/-- A code in front of a message is told apart from it, whatever the message is. -/
theorem ofShown_eq (code message : String) :
    Report.ofShown code (code ++ ": " ++ message) = ⟨code, message⟩ := by
  have front : Text.dropStart? code.toList (code ++ ": " ++ message).toList =
      some (": ".toList ++ message.toList) :=
    Text.dropStart?_eq_some_iff.2 (by simp)
  have colon : Text.dropStart? ": ".toList (": ".toList ++ message.toList) = some message.toList :=
    Text.dropStart?_eq_some_iff.2 rfl
  rw [Report.ofShown, front, Option.bind_some, colon]
  simp

/-- The code is told apart from the message, though they come as one text. -/
theorem ofEngine_eq (error : Engine.Error) :
    Report.ofEngine error = ⟨error.code, error.message⟩ := by
  rw [Report.ofEngine, Engine.Error.shown_eq]
  exact ofShown_eq error.code error.message

/-- The failure tells the message under the code, and so does what is reported and printed of it. -/
structure Tells (error : Engine.Error) (code message : String) : Prop where
  code_eq : error.code = code
  shown_eq : error.shown = code ++ ": " ++ message
  report_code : (Report.ofEngine error).code = error.code
  report_message : (Report.ofEngine error).message = message
  report_shown : (Report.ofEngine error).shown = error.shown
  printed : ∀ lines, (Outcome.failed lines (.ofEngine error)).stderr =
    Outcome.logText lines ++ error.shown ++ "\n"

/-- What the user sees is the code and the message of the failure. -/
theorem tells_message (error : Engine.Error) : Tells error error.code error.message := by
  have report := ofEngine_eq error
  have shown := error.shown_eq
  have report_shown : (Report.ofEngine error).shown = error.shown := by
    rw [report, shown]
    rfl
  refine ⟨rfl, shown, ?_, ?_, report_shown, fun lines => ?_⟩
  · rw [report]
  · rw [report]
  · rw [Outcome.failed, report_shown]

/-- Each part's own message is told under that part's code. The code stands in front of it once, and
is taken off once, even if the message starts with a code and a colon itself. -/
theorem ofEngine_tells :
    (∀ error : SyntaxError, Tells (.syntaxError error) "CSVQ_QUERY_SYNTAX" error.message) ∧
    (∀ error : TableError, Tells (.table error) error.code error.message) ∧
    (∀ error : FileError, Tells (.file error) error.code error.message) ∧
    ∀ fault : Json.Fault, Tells (.serialization fault) "CSVQ_SERIALIZATION" fault.shown :=
  ⟨fun error => tells_message (.syntaxError error), fun error => tells_message (.table error),
    fun error => tells_message (.file error), fun fault => tells_message (.serialization fault)⟩

example : Report.ofEngine (.syntaxError (.invalid "CSVQ_QUERY_SYNTAX: CSVQ_QUERY_SYNTAX: : a")) =
    ⟨"CSVQ_QUERY_SYNTAX", "CSVQ_QUERY_SYNTAX: CSVQ_QUERY_SYNTAX: : a"⟩ := by
  decide +kernel

end CommandLine

end TableQuery
