import TableQuery.Proofs.LogLines
import TableQuery.Trace.Log

/-!
# The fields of a scope

A scope that is completed or failed shows all its fields in each of its lines. The last line of one
that is left without either does not repeat them (`lines_show_fields_iff`): it shows its event, its
severity and one reason, whatever the fields are.
-/

namespace TableQuery.Trace

open TableQuery.Json (Value)

/-- The field is a member of the object as which the line is read. -/
def Line.Shows (line : Line) (field : String × String) : Prop :=
  ∃ members, Json.read line.printed = some (.object members) ∧
    (some field.1, .string (some field.2)) ∈ members

theorem Line.shows_iff {line : Line} {field : String × String} :
    line.Shows field ↔
      field ∈ ("event", line.event) :: ("severity", line.severity.name) :: line.fields := by
  have member : (some field.1, Value.string (some field.2)) ∈
      line.members (line.fields.mergeSort Line.ordered) ↔
        field ∈ ("event", line.event) :: ("severity", line.severity.name) :: line.fields := by
    simp [Line.members, Prod.ext_iff]
  unfold Line.Shows
  rw [Line.read_printed, Line.toJson_eq, ← member]
  constructor
  · rintro ⟨members, read, held⟩
    rwa [Value.object.inj (Option.some.inj read)]
  · exact fun held => ⟨_, rfl, held⟩

theorem Line.shows_of_mem {line : Line} {field : String × String} (member : field ∈ line.fields) :
    line.Shows field :=
  shows_iff.2 (List.mem_cons_of_mem _ (List.mem_cons_of_mem _ member))

namespace Scope

/-- The lines of a scope, without those that are written between them. -/
def lines (scope : Scope) (elapsed : Nat) (ending : Ending) : List Line :=
  scope.opening :: scope.begun.finish elapsed ending

/-- What the last line of a scope shows that is left without an end. -/
def abandoned (scope : Scope) : Fields :=
  [("event", scope.name ++ "_INCOMPLETE"), ("severity", "WARN"),
    ("reason", "scope dropped without completion")]

/-- A scope that is ended repeats its fields on every line. -/
theorem subset_fields_of_ended {scope : Scope} {elapsed : Nat} {ending : Ending}
    (ended : ending ≠ .dropped) {line : Line} (own : line ∈ scope.lines elapsed ending) :
    scope.fields ⊆ line.fields := by
  rcases List.mem_cons.1 own with rfl | last
  · exact List.Subset.refl _
  · cases ending with
    | completed extra =>
      obtain rfl := List.mem_singleton.1 last
      intro field member
      exact List.mem_append_left _ (List.mem_append_left _ member)
    | failed code reason =>
      obtain rfl := List.mem_singleton.1 last
      intro field member
      exact List.mem_append_left _ member
    | dropped => exact absurd rfl ended

/-- One that is left open does not. -/
theorem lines_dropped (scope : Scope) (elapsed : Nat) :
    scope.lines elapsed .dropped = [scope.opening,
      ⟨.warn, scope.name ++ "_INCOMPLETE", [("reason", "scope dropped without completion")]⟩] :=
  rfl

/-- Every line of a scope shows all its fields exactly if the scope was completed or failed, or if
its fields are among those that its last line shows anyway. -/
theorem lines_show_fields_iff (scope : Scope) (elapsed : Nat) (ending : Ending) :
    (∀ line ∈ scope.lines elapsed ending, ∀ field ∈ scope.fields, line.Shows field) ↔
      ending ≠ .dropped ∨ scope.fields ⊆ scope.abandoned := by
  by_cases left : ending = .dropped
  · subst left
    rw [lines_dropped, List.forall_mem_cons, List.forall_mem_singleton]
    constructor
    · rintro ⟨_, last⟩
      exact .inr fun field member => Line.shows_iff.1 (last field member)
    · rintro (ended | among)
      · exact absurd rfl ended
      · exact ⟨fun field member => Line.shows_of_mem member,
          fun field member => Line.shows_iff.2 (among member)⟩
  · refine iff_of_true (fun line own field member => ?_) (.inl left)
    exact Line.shows_of_mem (subset_fields_of_ended left own member)

/-- The source of the scope is not in the line that tells that the scope was left. -/
theorem dropped_hides_source :
    let line : Line := ⟨.warn, "S_INCOMPLETE", [("reason", "scope dropped without completion")]⟩
    line ∈ Scope.lines ⟨"S", [("source", "u.csv")]⟩ 0 .dropped ∧
      ¬ line.Shows ("source", "u.csv") := by
  intro line
  refine ⟨by decide, fun shown => ?_⟩
  have listed := Line.shows_iff.1 shown
  revert listed
  decide

end Scope

end TableQuery.Trace
