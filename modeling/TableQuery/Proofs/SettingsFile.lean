import TableQuery.Proofs.JsonReading
import TableQuery.Proofs.Keyword
import TableQuery.Proofs.ValidSettings

/-!
# Settings read from their file

Settings are read back from what is written for them. So they are from any other object that gives
the same members: in whatever order and spelling, without those that have their default, and with
any members of other names between them (`ofFile_given`).
-/

namespace TableQuery

open TableQuery.Json (Laid Literal Value)
open TableQuery.Trace (Severity)

/-- A name in any case of its letters is the name of a severity. -/
theorem Trace.Severity.ofName?_of_spells {text : String} {severity : Severity}
    (spells : Sql.Spells text severity.name) : ∃ found, Severity.ofName? text = some found := by
  have capitals : severity.name.toList.all Char.isUpper = true := by
    cases severity <;> decide
  have raised := (Sql.map_toUpper_eq_iff (List.all_eq_true.1 capitals)).2 spells
  have known : severity ∈ Severity.all := by
    cases severity <;> decide
  refine Option.isSome_iff_exists.1 (List.find?_isSome.2 ⟨severity, known, ?_⟩)
  rw [raised, beq_self_eq_true]

namespace Settings

def members (settings : Settings) : List (String × Value) :=
  [("data_dir", .text settings.dataDir), ("log_level", .text settings.logLevel),
    ("pretty", .bool settings.pretty)]

/-- The members give the settings: some of those that are written for the settings, where the others
are written for the defaults too, and any members of other names, all of them in any order. -/
inductive GivenBy (settings : Settings) (given : List (String × Value)) : Prop
  | mk (kept further : List (String × Value)) (order : given.Perm (kept ++ further))
      (own : kept.Sublist settings.members)
      (absent : ∀ member ∈ settings.members, member ∈ kept ∨ member ∈ default.members)
      (foreign : ∀ member ∈ further, member.1 ∉ ["data_dir", "log_level", "pretty"])

theorem valuesOf_record (name : String) (given : List (String × Value)) :
    valuesOf name (given.map fun (name, value) => (some name, value)) =
      (given.filter (·.1 = name)).map (·.2) := by
  unfold valuesOf
  rw [List.filter_map, List.map_map]
  simp only [Function.comp_def, Option.some.injEq]

/-- What is given under the name of a member is its value, or nothing if that is the default. -/
theorem valuesOf_given {settings : Settings} {given : List (String × Value)}
    (gives : settings.GivenBy given) (name : String) {value usual : Value}
    (alone : settings.members.filter (·.1 = name) = [(name, value)])
    (unsaid : default.members.filter (·.1 = name) = [(name, usual)]) :
    valuesOf name (given.map fun (name, value) => (some name, value)) = [value] ∨
      valuesOf name (given.map fun (name, value) => (some name, value)) = [] ∧ value = usual := by
  obtain ⟨kept, further, order, own, absent, foreign⟩ := gives
  have field : (name, value) ∈ settings.members := by
    have listed : (name, value) ∈ settings.members.filter (·.1 = name) := by simp [alone]
    exact List.mem_of_mem_filter listed
  have none : further.filter (·.1 = name) = [] := by
    refine List.filter_eq_nil_iff.2 fun member listed same => foreign member listed ?_
    rw [of_decide_eq_true same]
    exact List.mem_map_of_mem (f := Prod.fst) field
  have found : ((given.filter (·.1 = name)).map (·.2)).Perm
      ((kept.filter (·.1 = name)).map (·.2)) := by
    have filtered := (order.filter (·.1 = name)).map (·.2)
    rwa [List.filter_append, none, List.append_nil] at filtered
  have part := own.filter (·.1 = name)
  rw [alone] at part
  rw [valuesOf_record]
  rcases List.sublist_singleton.1 part with missing | held
  · right
    rw [missing] at found
    have left : (name, value) ∉ kept := fun listed =>
      List.filter_eq_nil_iff.1 missing _ listed (decide_eq_true rfl)
    have kind : (name, value) ∈ default.members.filter (·.1 = name) :=
      List.mem_filter.2 ⟨(absent _ field).resolve_left left, decide_eq_true rfl⟩
    rw [unsaid] at kind
    exact ⟨List.perm_nil.1 found, congrArg Prod.snd (List.mem_singleton.1 kind)⟩
  · left
    rw [held] at found
    exact List.perm_singleton.1 found

/-- A member that is left out gives what it gives by default. -/
theorem textMember_given {values : List Value} {text ifAbsent : String}
    (given : values = [.text text] ∨ values = [] ∧ Value.text text = .text ifAbsent) :
    textMember ifAbsent values = some text := by
  rcases given with rfl | ⟨rfl, ⟨⟩⟩ <;> rfl

theorem boolMember_given {values : List Value} {value ifAbsent : Bool}
    (given : values = [.bool value] ∨ values = [] ∧ Value.bool value = .bool ifAbsent) :
    boolMember ifAbsent values = some value := by
  rcases given with rfl | ⟨rfl, ⟨⟩⟩ <;> rfl

/-- Members that give the settings are read as them. -/
theorem ofJson_given {settings : Settings} {given : List (String × Value)}
    (gives : settings.GivenBy given) : ofJson (.record given) = some settings := by
  have dataDir := textMember_given (valuesOf_given gives "data_dir" rfl rfl)
  have logLevel := textMember_given (valuesOf_given gives "log_level" rfl rfl)
  have pretty := boolMember_given (valuesOf_given gives "pretty" rfl rfl)
  have named : (given.map fun (name, value) => ((some name, value) : Literal × Value)).all
      (·.1.isSome) = true := by
    simp
  rw [Value.record, ofJson, if_pos named, ofValues, dataDir, logLevel, pretty]
  rfl

theorem givenBy_members (settings : Settings) : settings.GivenBy settings.members :=
  ⟨settings.members, [], by simp, .refl _, fun _ listed => .inl listed, by simp⟩

theorem closed_toJson (settings : Settings) : settings.toJson.Closed := by
  refine Value.closed_record ?_
  simp only [List.forall_mem_cons]
  exact ⟨Value.closed_text _, Value.closed_text _, Value.closed_bool _, by simp⟩

/-- Settings with a directory that is not blank and a level that is one are read from what is
written for them, and from every text of an object that gives them. -/
theorem ofFile_given (blame : String → Json.Fault) {settings : Settings}
    (visible : Text.trim settings.dataDir.toList ≠ [])
    {severity : Severity} (level : Sql.Spells settings.logLevel severity.name) :
    ofFile blame (.ok settings.toJson.compact) = .ok settings ∧
    ∀ given text, settings.GivenBy given → Laid (Value.record given).symbols text.toList →
      ofFile blame (.ok text) = .ok settings := by
  have valid : settings.Valid := by
    obtain ⟨minimum, named⟩ := Severity.ofName?_of_spells level
    refine ⟨visible, minimum, ?_⟩
    rw [Settings.severity, named]
  have any : ∀ given text, settings.GivenBy given →
      Laid (Value.record given).symbols text.toList → ofFile blame (.ok text) = .ok settings := by
    intro given text gives laid
    rw [ofFile, ofText, Json.read_of_laid laid, Option.bind_some, ofJson_given gives]
    exact check_eq_ok_iff.2 ⟨rfl, valid⟩
  refine ⟨any _ _ (givenBy_members settings) ?_, any⟩
  rw [Value.compact, String.toList_ofList]
  exact Json.laid_compact (closed_toJson settings)

/-- Members without the one that has its default, in another order and behind one of another name
that holds a number. -/
def looseMembers : List (String × Value) :=
  [("x", .array [.number "-0.5E+1", .null]), ("log_level", .text "Info"),
    ("data_dir", .text "é\n")]

def looseText : String :=
  "\x7b \"x\":[-0.5E+1,null],\t\"log_level\":\"\\u0049nfo\",\"data_dir\":\"é\\n\"\x7d\n"

theorem looseMembers_give : GivenBy ⟨"é\n", "Info", false⟩ looseMembers := by
  refine ⟨[("data_dir", .text "é\n"), ("log_level", .text "Info")],
    [("x", .array [.number "-0.5E+1", .null])], ?_, ?_, ?_, ?_⟩
  · exact (List.reverse_perm looseMembers).symm
  · exact ((List.nil_sublist _).cons_cons _).cons_cons _
  · simp [members, default]
  · simp

open TableQuery.Json (IsNumber SpellsLiteral spellsLiteral_iff) in
theorem looseText_laid : Laid (Value.record looseMembers).symbols looseText.toList := by
  have number : IsNumber "-0.5E+1".toList := by
    have parts : "-0.5E+1".toList = ['-'] ++ (['0'] ++ ['.', '5'] ++ ('E' :: ['+'] ++ ['1'])) := by
      decide
    rw [parts]
    exact .mk (.inr rfl) .zero (.some ⟨by simp, List.forall_mem_singleton.2 rfl⟩)
      (.some (.inr rfl) (.inr (.inl rfl)) ⟨by simp, List.forall_mem_singleton.2 rfl⟩)
  have escaped : SpellsLiteral "\\u0049nfo".toList (some "Info") :=
    spellsLiteral_iff.2 ⟨[0x49, 0x6e, 0x66, 0x6f],
      .cons (.digits (by decide)) (.cons (.plain (c := 'n') (by decide) (by decide) (by decide))
        (.cons (.plain (c := 'f') (by decide) (by decide) (by decide))
          (.cons (.plain (c := 'o') (by decide) (by decide) (by decide)) .nil))), by decide⟩
  have laid := Laid.written (s := .openObject) trivial <| .space (c := ' ') (by decide) <|
    .written (s := .string (some "x")) trivial <| .written (s := .colon) trivial <|
    .written (s := .openArray) trivial <| .symbol (.number number) <|
    .written (s := .comma) trivial <| .written (s := .null) trivial <|
    .written (s := .closeArray) trivial <| .written (s := .comma) trivial <|
    .space (c := '\t') (by decide) <| .written (s := .string (some "log_level")) trivial <|
    .written (s := .colon) trivial <| .symbol (.string escaped) <|
    .written (s := .comma) trivial <| .written (s := .string (some "data_dir")) trivial <|
    .written (s := .colon) trivial <| .written (s := .string (some "é\n")) trivial <|
    .written (s := .closeObject) trivial <| .space (c := '\n') (by decide) .nil
  exact laid

/-- A default left out, a member of another name, another order, blanks and an escape. -/
theorem looseText_given :
    Text.trim "é\n".toList ≠ [] ∧ Sql.Spells "Info" Severity.info.name ∧
    GivenBy ⟨"é\n", "Info", false⟩ looseMembers ∧
    Laid (Value.record looseMembers).symbols looseText.toList ∧
    ofFile CommandLine.noValue (.ok looseText) = .ok ⟨"é\n", "Info", false⟩ := by
  have visible : Text.trim "é\n".toList ≠ [] := by decide +kernel
  have level : Sql.Spells "Info" Severity.info.name := by decide
  have any := (@ofFile_given CommandLine.noValue ⟨"é\n", "Info", false⟩ visible .info level).2
  exact ⟨visible, level, looseMembers_give, looseText_laid,
    any looseMembers looseText looseMembers_give looseText_laid⟩

end Settings

end TableQuery
