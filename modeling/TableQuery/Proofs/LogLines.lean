import Mathlib.Data.List.Nodup
import TableQuery.Proofs.ByteOrder
import TableQuery.Proofs.JsonReading
import TableQuery.Proofs.StableSort
import TableQuery.Trace.Log

/-!
# Log lines

Whatever is logged, one call writes one line, and the line is one JSON object: the event, the
severity and the fields in the byte order of their names (`printed_as_record`). No event, name or
value can end the line or the object, since what could is escaped (`printable_compact`). The order
in which fields are given does not show in the line unless names repeat.
-/

namespace TableQuery.Json

def printable (cs : List Char) : Bool :=
  cs.all fun c => 0x20 ≤ c.toNat

theorem printable_flatMap {α : Type} {items : List α} {chars : α → List Char}
    (each : ∀ item ∈ items, printable (chars item) = true) :
    printable (items.flatMap chars) = true := by
  rw [printable, List.all_flatMap, List.all_eq_true]
  exact each

theorem toNat_hexDigit : ∀ value < 16, 0x20 ≤ (hexDigit value).toNat := by
  decide

/-- Escaping leaves no control character. -/
theorem printable_escape (c : Char) : printable (escape c) = true := by
  fun_cases escape c with
  | case8 _ _ _ _ _ _ _ control =>
    have high := toNat_hexDigit (c.toNat / 16) (by omega)
    have low := toNat_hexDigit (c.toNat % 16) (by omega)
    simp [printable, high, low]
  | case9 _ _ _ _ _ _ _ plain => simpa [printable] using plain
  | _ => rfl

theorem printable_writeLiteral (literal : Literal) : printable (writeLiteral literal) = true := by
  cases literal with
  | none => rfl
  | some text =>
    have body : printable (text.toList.flatMap escape) = true :=
      printable_flatMap fun c _ => printable_escape c
    rw [printable] at body
    simp [writeLiteral, printable, body]

theorem printable_written {symbol : Symbol} (closed : symbol.Closed) :
    printable symbol.written = true := by
  cases symbol with
  | number written => exact closed.elim
  | string literal => exact printable_writeLiteral literal
  | bool value => cases value <;> rfl
  | _ => rfl

/-- The compact layout holds no control character, and so no line end. -/
theorem printable_compact {value : Value} (closed : value.Closed) :
    printable value.compact.toList = true := by
  rw [Value.compact, String.toList_ofList]
  exact printable_flatMap fun symbol listed => printable_written (closed symbol listed)

end TableQuery.Json

namespace TableQuery.Trace

open TableQuery.Answer (SortsStably compareTexts sortsStably_listMergeSort)
open TableQuery.Json (Laid Value)
open TableQuery.Text

/-! ## The order of fields -/

def compareNames (a b : String × String) : Ordering :=
  compareTexts a.1 b.1

instance : Std.TransCmp compareNames where
  eq_swap {a b} := @Std.OrientedCmp.eq_swap _ compareTexts _ a.1 b.1
  isLE_trans {a b c} := @Std.TransCmp.isLE_trans _ compareTexts _ a.1 b.1 c.1

theorem compareNames_eq_eq_iff {a b : String × String} : compareNames a b = .eq ↔ a.1 = b.1 :=
  @Std.LawfulEqCmp.compare_eq_iff_eq _ compareTexts _ a.1 b.1

/-- The fields in the byte order of their names; those that share a name stand as they stood. -/
structure SortedByName (fields sorted : Fields) : Prop where
  perm : sorted.Perm fields
  ordered : sorted.Pairwise fun a b => bytes a.1 ≤ bytes b.1
  stable : ∀ name, sorted.filter (·.1 = name) = fields.filter (·.1 = name)

theorem sortsStably_ordered (fields : Fields) :
    SortsStably compareNames fields (fields.mergeSort Line.ordered) :=
  sortsStably_listMergeSort fields

/-- Fields are sorted by name, and those of one name keep their order. -/
theorem sortedByName_mergeSort (fields : Fields) :
    SortedByName fields (fields.mergeSort Line.ordered) := by
  have sorts := sortsStably_ordered fields
  refine ⟨sorts.perm, ?_, fun name => ?_⟩
  · exact sorts.ordered.imp fun {a b} inOrder => (compareChars_ne_gt_iff a.1 b.1).1 inOrder
  · by_cases held : ∃ field ∈ fields, field.1 = name
    · obtain ⟨key, member, rfl⟩ := held
      have test : ∀ field : String × String,
          decide (field.1 = key.1) = (compareNames field key == .eq) := by
        intro field
        rw [Bool.eq_iff_iff, decide_eq_true_iff, beq_iff_eq, compareNames_eq_eq_iff]
      simp only [test]
      exact sorts.stable key member
    · have absent : ∀ field ∈ fields, ¬ decide (field.1 = name) = true := by
        intro field member named
        exact held ⟨field, member, of_decide_eq_true named⟩
      rw [List.filter_eq_nil_iff.2 absent, List.filter_eq_nil_iff]
      exact fun field member => absent field (sorts.perm.mem_iff.1 member)

/-- Fields with different names are sorted into one list, in whatever order they are given. -/
theorem mergeSort_eq_of_perm {fields fields' : Fields} (perm : fields'.Perm fields)
    (distinct : (fields.map Prod.fst).Nodup) :
    fields'.mergeSort Line.ordered = fields.mergeSort Line.ordered := by
  have sorts := sortsStably_ordered fields
  have sorts' := sortsStably_ordered fields'
  refine List.Perm.eq_of_pairwise (fun a b left right before behind => ?_) sorts'.ordered
    sorts.ordered (sorts'.perm.trans (perm.trans sorts.perm.symm))
  have tied : compareNames a b = .eq :=
    Std.OrientedCmp.isLE_antisymm (Ordering.ne_gt_iff_isLE.1 before)
      (Ordering.ne_gt_iff_isLE.1 behind)
  exact List.inj_on_of_nodup_map distinct ((sorts'.perm.trans perm).mem_iff.1 left)
    (sorts.perm.mem_iff.1 right) (compareNames_eq_eq_iff.1 tied)

/-! ## The text of a line -/

namespace Line

theorem closed_toJson (line : Line) : line.toJson.Closed := by
  refine Value.closed_record ?_
  simp only [List.forall_mem_cons, List.forall_mem_map]
  exact ⟨Value.closed_text _, Value.closed_text _, fun field _ => Value.closed_text field.2⟩

theorem toList_printed (line : Line) : line.printed.toList = line.written.toList ++ ['\n'] := by
  rw [printed, String.toList_append]
  rfl

/-- The end of a line is a blank to the reader. -/
theorem read_printed (line : Line) : Json.read line.printed = some line.toJson := by
  have laid : Laid line.toJson.symbols line.written.toList := by
    rw [written, Value.compact, String.toList_ofList]
    exact Json.laid_compact (closed_toJson line)
  have ended : Laid (line.toJson.symbols ++ []) (line.written.toList ++ ['\n']) :=
    laid.append (.space (by decide) .nil)
  rw [List.append_nil, ← toList_printed] at ended
  exact Json.read_of_laid ended

def members (line : Line) (fields : Fields) : List (Json.Literal × Value) :=
  (("event", line.event) :: ("severity", line.severity.name) :: fields).map fun field =>
    (some field.1, .string (some field.2))

/-- A line is an object of its own fields behind the three that every line has. -/
theorem toJson_eq (line : Line) :
    line.toJson = .object (line.members (line.fields.mergeSort ordered)) := by
  simp [toJson, members, Value.record, Value.text]

/-- A line ends with the one line end in it, and is one object that tells the event, the severity
and then the fields by name. The fields may be given in any order if their names are different. -/
theorem printed_as_record (line : Line) :
    (∃ body, line.printed.toList = body ++ ['\n'] ∧ ∀ c ∈ body, 0x20 ≤ c.toNat) ∧
    (∃ sorted, SortedByName line.fields sorted ∧
      Json.read line.printed = some (.object (line.members sorted))) ∧
    ∀ fields : Fields, fields.Perm line.fields → (line.fields.map Prod.fst).Nodup →
      { line with fields := fields }.printed = line.printed := by
  refine ⟨⟨_, toList_printed line, fun c member => ?_⟩,
    ⟨_, sortedByName_mergeSort line.fields, ?_⟩, fun fields perm distinct => ?_⟩
  · have printable := Json.printable_compact (closed_toJson line)
    exact of_decide_eq_true (List.all_eq_true.1 printable c member)
  · rw [read_printed, toJson_eq]
  · have same := mergeSort_eq_of_perm perm distinct
    simp only [printed, written, toJson_eq, members, same]

/-- An event that would end its line, and names whose order is not that of their first units in
UTF-16. -/
def awkwardLine : Line :=
  ⟨.warn, "E\n\"", [("😀", "\x00"), ("", "\\"), ("\ufffd", "\t\x7f"), ("event", "é")]⟩

/-- The order in which fields are given does not show. -/
theorem awkwardLine_as_record :
    let fields := [("event", "é"), ("\ufffd", "\t\x7f"), ("😀", "\x00"), ("", "\\")]
    fields.Perm awkwardLine.fields ∧ (awkwardLine.fields.map Prod.fst).Nodup ∧
      { awkwardLine with fields := fields }.printed = awkwardLine.printed := by
  have perm : [("event", "é"), ("\ufffd", "\t\x7f"), ("😀", "\x00"), ("", "\\")].Perm
      awkwardLine.fields := by decide
  have distinct : (awkwardLine.fields.map Prod.fst).Nodup := by decide
  exact ⟨perm, distinct, (printed_as_record awkwardLine).2.2 _ perm distinct⟩

end Line

end TableQuery.Trace
