import TableQuery.Answer.Evaluate
import TableQuery.Proofs.JsonReading

/-!
# Result rows as JSON

The text of an answer is read back, in either layout, as the array of its rows: each an object with
the names and values of the row in their order, repeated names included, and every value a string.
Nothing of a row is lost in the text, so that the rows can be told from it (`rows_of_written`).
-/

namespace TableQuery.Answer

open TableQuery.Json (Value)

def rowValue (row : OutputRow) : Value :=
  .object (row.fields.map fun (name, value) => (some name, .string (some value)))

/-- The object of a row keeps its order and its duplicates. -/
theorem rowValue_injective {row row' : OutputRow} (same : rowValue row = rowValue row') :
    row = row' := by
  have fields : row.fields = row'.fields := by
    refine (List.map_inj_right fun field field' equal => ?_).1 (Value.object.inj same)
    simpa [Prod.ext_iff] using equal
  cases row
  cases row'
  exact congrArg OutputRow.mk fields

theorem closed_toJson (output : Output) : output.toJson.Closed := by
  refine Value.closed_array fun value member => ?_
  obtain ⟨row, _, rfl⟩ := List.mem_map.1 member
  refine Value.closed_object fun field held => ?_
  obtain ⟨named, stated, rfl⟩ := List.mem_map.1 held
  obtain ⟨own, _, rfl⟩ := List.mem_map.1 stated
  exact Value.closed_text own.2

theorem toJson_eq (output : Output) : output.toJson = .array (output.rows.map rowValue) := by
  unfold Output.toJson
  congr 1
  refine List.map_congr_left fun row _ => ?_
  simp [OutputRow.toJson, rowValue, Value.record, Value.text]

/-- Either layout is read as the rows, and no two lists of rows share a text in any layout. -/
theorem rows_of_written (output : Output) :
    (∀ pretty, Json.read (output.written pretty) = some (.array (output.rows.map rowValue))) ∧
    ∀ (other : Output) (pretty pretty' : Bool),
      output.written pretty = other.written pretty' → output.rows = other.rows := by
  have reads : ∀ (output : Output) (pretty : Bool),
      Json.read (output.written pretty) = some (.array (output.rows.map rowValue)) := by
    intro output pretty
    rw [← toJson_eq]
    exact Json.read_written (closed_toJson output) pretty
  refine ⟨reads output, fun other pretty pretty' same => ?_⟩
  have values : output.rows.map rowValue = other.rows.map rowValue := by
    have read := reads other pretty'
    rw [← same, reads output pretty] at read
    exact Value.array.inj (Option.some.inj read)
  exact (List.map_inj_right fun _ _ => rowValue_injective).1 values

/-- A name that repeats, an empty one, and characters of every kind that is escaped. -/
def awkwardRows : List OutputRow :=
  [⟨[("a", "1"), ("", "\"\\"), ("a", "\x00\n\x1f\x7fé😀")]⟩, ⟨[]⟩]

/-- The number of rows that were looked at is no part of the text. -/
theorem awkwardRows_of_written :
    Output.written true ⟨awkwardRows, 2⟩ = Output.written true ⟨awkwardRows, 5⟩ ∧
    Output.rows ⟨awkwardRows, 2⟩ = Output.rows ⟨awkwardRows, 5⟩ :=
  ⟨rfl, (rows_of_written ⟨awkwardRows, 2⟩).2 ⟨awkwardRows, 5⟩ true true rfl⟩

example : Output.written false ⟨awkwardRows, 2⟩ =
    "[\x7b\"a\":\"1\",\"\":\"\\\"\\\\\",\"a\":\"\\u0000\\n\\u001f\x7fé😀\"\x7d,\x7b\x7d]" := by
  decide +kernel

end TableQuery.Answer
