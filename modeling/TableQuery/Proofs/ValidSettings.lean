import TableQuery.CommandLine.Run
import TableQuery.Proofs.Cells

/-!
# Valid settings

Settings are checked when they are loaded, and the command line has its say after that. What it says
of the directory is not checked again, so that settings stay valid exactly if the directory that is
said is not blank (`override_valid_iff`).
-/

namespace TableQuery

open TableQuery.Files (Fault)
open TableQuery.Trace (Severity)

namespace Settings

/-- What the check of settings demands. -/
structure Valid (settings : Settings) : Prop where
  directory : Text.trim settings.dataDir.toList ≠ []
  level : ∃ minimum, settings.severity = .ok minimum

/-- The check passes valid settings as they are, and no others. -/
theorem check_eq_ok_iff {settings passed : Settings} :
    settings.check = .ok passed ↔ passed = settings ∧ settings.Valid := by
  have blank := trim_eq_nil_iff settings.dataDir.toList
  unfold check
  constructor
  · intro checked
    split at checked
    · cases checked
    · next visible =>
      split at checked
      · next minimum level =>
        exact ⟨(Except.ok.inj checked).symm, mt blank.1 visible, minimum, level⟩
      · cases checked
  · rintro ⟨rfl, visible, minimum, level⟩
    rw [if_neg (mt blank.2 visible), level]

/-- Without a settings file nothing is wrong either. -/
theorem default_valid : default.Valid where
  directory := by decide
  level := ⟨.warn, by decide⟩

/-- Settings that a file holds are valid. -/
theorem valid_of_ofFile {blame : String → Json.Fault} {content : Except Fault String}
    {settings : Settings} (accepted : ofFile blame content = .ok settings) : settings.Valid := by
  unfold ofFile ofText at accepted
  split at accepted
  · split at accepted
    · obtain ⟨rfl, valid⟩ := check_eq_ok_iff.1 accepted
      exact valid
    · cases accepted
  · cases accepted

/-- The level is not overridden, so that only the directory can be at fault. -/
theorem valid_override_iff {settings : Settings} (valid : settings.Valid) (dataDir : Option String)
    (pretty : Bool) :
    (settings.override dataDir pretty).Valid ↔
      ∀ directory ∈ dataDir, Text.trim directory.toList ≠ [] := by
  cases dataDir with
  | none =>
    constructor
    · intro _ directory named
      cases named
    · intro _
      exact ⟨valid.directory, valid.level⟩
  | some directory =>
    constructor
    · rintro overridden _ ⟨⟩
      exact overridden.directory
    · intro visible
      exact ⟨visible directory rfl, valid.level⟩

end Settings

namespace CommandLine

/-- Settings that are loaded are valid, from wherever they come. -/
theorem valid_of_loadSettings {σ : Type} {surroundings : Surroundings (StateM σ)}
    {config : Option String} {before : σ} {settings : Settings}
    (accepted : (loadSettings surroundings config before).1 = .ok settings) : settings.Valid := by
  unfold loadSettings at accepted
  cases config with
  | none =>
    obtain rfl := Except.ok.inj accepted
    exact Settings.default_valid
  | some path =>
    change Settings.ofFile surroundings.blame (surroundings.readPath path before).1 =
      .ok settings at accepted
    exact Settings.valid_of_ofFile accepted

/-- Loaded settings, from a file or not, stay valid under the command line exactly if it names no
directory or one that is not blank. -/
theorem override_valid_iff {σ : Type} (surroundings : Surroundings (StateM σ))
    (config : Option String) (before : σ) {settings : Settings}
    (accepted : (loadSettings surroundings config before).1 = .ok settings)
    (dataDir : Option String) (pretty : Bool) :
    (settings.override dataDir pretty).Valid ↔
      ∀ directory ∈ dataDir, Text.trim directory.toList ≠ [] :=
  Settings.valid_override_iff (valid_of_loadSettings accepted) dataDir pretty

/-- What is said of a text that starts with none of the characters that a value starts with. -/
def noValue (_ : String) : Json.Fault :=
  ⟨"expected value", 1, 1⟩

/-- There is one file, with settings of which the command line overrides all that it can. -/
def oneFile : Surroundings (StateM Unit) where
  readPath path :=
    return if path = "c" then .ok "\x7b\"log_level\":\"Info\"\x7d" else .error .notFound
  now := return 0
  blame := noValue

/-- The command line may name a directory with blanks around it, but also one of blanks. -/
theorem oneFile_override_valid :
    (loadSettings oneFile (some "c") ()).1 = .ok ⟨".", "Info", false⟩ ∧
    ((⟨".", "Info", false⟩ : Settings).override (some " d\t") true).Valid ∧
    ¬ ((⟨".", "Info", false⟩ : Settings).override (some "\u00a0\t") true).Valid := by
  have accepted : (loadSettings oneFile (some "c") ()).1 = .ok ⟨".", "Info", false⟩ := by
    decide +kernel
  have valid_iff := override_valid_iff oneFile (some "c") () accepted
  refine ⟨accepted, (valid_iff (some " d\t") true).2 ?_, fun valid => ?_⟩
  · rintro _ ⟨⟩
    decide +kernel
  · exact (valid_iff (some "\u00a0\t") true).1 valid _ rfl (by decide +kernel)

/-- A directory of one blank is taken from the command line, and the settings are no longer valid,
although a file that says the same is refused. -/
theorem blankDirectory_not_valid :
    Invocation.ofArguments ["query", "SELECT * FROM t", "--data-dir", " "] =
      .run none (.query "SELECT * FROM t" (some " ") false) ∧
    (loadSettings oneFile none ()).1 = .ok Settings.default ∧
    ¬ (Settings.default.override (some " ") false).Valid ∧
    Settings.ofText oneFile.blame "\x7b\"data_dir\":\" \"\x7d" = .error .blankDataDir := by
  refine ⟨by decide +kernel, by decide +kernel, fun valid => ?_, by decide +kernel⟩
  exact valid.directory (by decide +kernel)

end CommandLine

end TableQuery
