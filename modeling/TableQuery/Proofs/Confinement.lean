import TableQuery.Files.Path

/-!
# File names stay below the root

A file name is looked up under a root if it is confined: it is not empty, does not start with a
slash and has no piece that goes up. Its path then leads where the root leads and from there down
along the name, wherever relative paths begin. Any other name is refused before anything is read
(`fullPath_confined`). Links are left aside: a path is followed by its words alone.
-/

namespace TableQuery.Files

open TableQuery.Text

/-- The pieces of a path that lead somewhere. -/
def trail (path : String) : List String :=
  (pieces path).filter (!staysPut ·)

/-- The name goes down and nowhere else. -/
structure IsConfined (name : String) : Prop where
  nonempty : name ≠ ""
  relative : name.toList.head? ≠ some '/'
  level : ".." ∉ trail name

theorem isConfined_iff {name : String} : IsConfined name ↔
    name ≠ "" ∧ name.toList.head? ≠ some '/' ∧ ".." ∉ trail name :=
  ⟨fun ⟨nonempty, relative, level⟩ => ⟨nonempty, relative, level⟩,
    fun ⟨nonempty, relative, level⟩ => ⟨nonempty, relative, level⟩⟩

instance (name : String) : Decidable (IsConfined name) :=
  decidable_of_iff' _ isConfined_iff

/-- Where a piece leads from a place, which is the names from the top down. Nothing is above the
top. -/
def follow (place : List String) (piece : String) : List String :=
  if piece = ".." then place.dropLast else place ++ [piece]

/-- Where a path leads by its words when relative paths begin at the directory. -/
def resolve (directory : List String) (path : String) : List String :=
  (trail path).foldl follow (if isAbsolute path then [] else directory)

/-! ## Names that are refused -/

theorem mem_trail {path piece : String} :
    piece ∈ trail path ↔ piece ∈ pieces path ∧ staysPut piece = false := by
  simp [trail]

theorem top_mem_leading {path : String} : .top ∈ Component.leading path ↔ isAbsolute path := by
  unfold Component.leading
  split
  · simp_all
  · split <;> simp_all

/-- A path never starts by going up on its own account: `..` is a piece like any other. -/
theorem up_not_mem_leading (path : String) : .up ∉ Component.leading path := by
  unfold Component.leading
  split
  · simp
  · split <;> simp

theorem ofPiece?_eq_up_iff {piece : String} :
    Component.ofPiece? piece = some .up ↔ piece = ".." := by
  unfold Component.ofPiece?
  constructor
  · intro found
    split at found
    · cases found
    · split at found
      · assumption
      · cases found
  · rintro rfl
    decide

theorem ofPiece?_ne_top (piece : String) : Component.ofPiece? piece ≠ some .top := by
  unfold Component.ofPiece?
  split
  · simp
  · split <;> simp

theorem staysBelow_eq_false_iff {component : Component} :
    component.staysBelow = false ↔ component = .top ∨ component = .up := by
  cases component <;> simp [Component.staysBelow]

/-- The components that lead away are the slash in front and the pieces that go up. -/
theorem leaves_iff (name : String) :
    (Component.ofPath name).any (!·.staysBelow) = true ↔
      isAbsolute name = true ∨ ".." ∈ trail name := by
  have up : Component.up ∈ Component.ofPath name ↔ ".." ∈ trail name := by
    rw [Component.ofPath, List.mem_append, List.mem_filterMap, mem_trail]
    constructor
    · rintro (front | ⟨piece, listed, written⟩)
      · exact absurd front (up_not_mem_leading name)
      · rw [ofPiece?_eq_up_iff.1 written] at listed
        exact ⟨listed, by decide⟩
    · rintro ⟨listed, _⟩
      exact .inr ⟨"..", listed, ofPiece?_eq_up_iff.2 rfl⟩
  have top : Component.top ∈ Component.ofPath name ↔ isAbsolute name = true := by
    rw [Component.ofPath, List.mem_append, List.mem_filterMap, top_mem_leading]
    constructor
    · rintro (front | ⟨piece, _, written⟩)
      · exact front
      · exact absurd written (ofPiece?_ne_top piece)
    · exact .inl
  rw [List.any_eq_true, ← top, ← up]
  constructor
  · rintro ⟨component, listed, leaves⟩
    rw [Bool.not_eq_true', staysBelow_eq_false_iff] at leaves
    rcases leaves with rfl | rfl
    · exact .inl listed
    · exact .inr listed
  · rintro (listed | listed)
    · exact ⟨.top, listed, rfl⟩
    · exact ⟨.up, listed, rfl⟩

/-- A name is either put below the root as it is, or refused. -/
theorem fullPath_eq (root name : String) :
    fullPath root name =
      if IsConfined name then .ok (joinPath root name) else .error (.invalidPath name) := by
  have refused : (name = "" || (Component.ofPath name).any (!·.staysBelow)) = true ↔
      ¬ IsConfined name := by
    rw [Bool.or_eq_true, decide_eq_true_iff, leaves_iff, isConfined_iff, isAbsolute,
      decide_eq_true_iff]
    grind
  unfold fullPath
  by_cases confined : IsConfined name
  · rw [if_neg fun leaves => refused.1 leaves confined, if_pos confined]
  · rw [if_pos (refused.2 confined), if_neg confined]

/-! ## Names that are looked up -/

theorem trail_slash (left right : String) :
    trail (left ++ "/" ++ right) = trail left ++ trail right := by
  have chars : (left ++ "/" ++ right).toList = left.toList ++ '/' :: right.toList := by simp
  unfold trail pieces
  rw [chars, cut_append_cons, List.map_append, List.filter_append]

/-- The name adds its own pieces to those of the root and takes none away. -/
theorem trail_joinPath (root : String) {name : String} (relative : isAbsolute name = false) :
    trail (joinPath root name) = trail root ++ trail name := by
  unfold joinPath
  rw [if_neg (by simp [relative])]
  split
  · next ends =>
    rw [Bool.or_eq_true, decide_eq_true_iff, decide_eq_true_iff] at ends
    rcases ends with rfl | slash
    · rw [String.empty_append]
      rfl
    · -- The slash at the end of the root is the one between root and name.
      obtain ⟨front, chars⟩ := List.getLast?_eq_some_iff.1 slash
      obtain rfl : root = String.ofList front ++ "/" := by
        rw [← String.toList_inj, chars]
        simp
      have none : trail (String.ofList front ++ "/") = trail (String.ofList front) := by
        have empty := trail_slash (String.ofList front) ""
        rwa [String.append_empty, show trail "" = [] from rfl, List.append_nil] at empty
      rw [trail_slash, none]
  · exact trail_slash root name

theorem isAbsolute_joinPath (root : String) {name : String} (relative : isAbsolute name = false) :
    isAbsolute (joinPath root name) = isAbsolute root := by
  unfold joinPath
  rw [if_neg (by simp [relative])]
  by_cases empty : root = ""
  · subst empty
    simpa [show isAbsolute "" = false from rfl] using relative
  · have starts : ∃ c more, root.toList = c :: more :=
      List.exists_cons_of_ne_nil (mt String.toList_eq_nil_iff.1 empty)
    obtain ⟨c, more, chars⟩ := starts
    split <;> simp [isAbsolute, chars]

/-- Without `..` a walk only goes down. -/
theorem foldl_follow {trailed : List String} (level : ".." ∉ trailed) (place : List String) :
    trailed.foldl follow place = place ++ trailed := by
  induction trailed generalizing place with
  | nil => rw [List.foldl_nil, List.append_nil]
  | cons piece more ih =>
    obtain ⟨own, others⟩ := not_or.1 (mt List.mem_cons.2 level)
    rw [List.foldl_cons, follow, if_neg (Ne.symm own), ih others, List.append_assoc,
      List.singleton_append]

/-- Wherever the root is, the file is below it. -/
theorem resolve_joinPath (directory : List String) (root : String) {name : String}
    (confined : IsConfined name) :
    resolve directory (joinPath root name) = resolve directory root ++ trail name := by
  have relative : isAbsolute name = false := decide_eq_false confined.relative
  unfold resolve
  rw [trail_joinPath root relative, isAbsolute_joinPath root relative, List.foldl_append,
    foldl_follow confined.level]

/-- A confined name has a path that is the root's and then its own, so that it leads below the place
to which the root leads, or to that place. Any other name has none, and it is told with nothing
read, however reading would go. -/
theorem fullPath_confined (root name : String) :
    (IsConfined name → ∃ path, fullPath root name = .ok path ∧
      trail path = trail root ++ trail name ∧
      ∀ directory, resolve directory path = resolve directory root ++ trail name) ∧
    (¬ IsConfined name → fullPath root name = .error (.invalidPath name) ∧
      ∀ (m : Type → Type) [Monad m] (readPath : String → m (Except Fault String)),
        readUnder readPath root name = pure (.error (.invalidPath name))) := by
  constructor
  · intro confined
    refine ⟨joinPath root name, by rw [fullPath_eq, if_pos confined], ?_, fun directory => ?_⟩
    · exact trail_joinPath root (decide_eq_false confined.relative)
    · exact resolve_joinPath directory root confined
  · intro loose
    have refused : fullPath root name = .error (.invalidPath name) := by
      rw [fullPath_eq, if_neg loose]
    refine ⟨refused, fun m _ readPath => ?_⟩
    rw [readUnder, refused]

/-- Dots in other numbers than two go nowhere but down, and two of them lead away even where they
would come back. -/
theorem dottedNames_confined :
    IsConfined "./..a//.../b./" ∧
    (∃ path, fullPath "/srv/./d/" "./..a//.../b./" = .ok path ∧
      trail path = trail "/srv/./d/" ++ trail "./..a//.../b./" ∧
      ∀ directory, resolve directory path =
        resolve directory "/srv/./d/" ++ trail "./..a//.../b./") ∧
    ¬ IsConfined "a/./../b" ∧
    fullPath "/srv/./d/" "a/./../b" = .error (.invalidPath "a/./../b") := by
  have confined : IsConfined "./..a//.../b./" := by decide +kernel
  have loose : ¬ IsConfined "a/./../b" := by decide +kernel
  exact ⟨confined, (fullPath_confined "/srv/./d/" "./..a//.../b./").1 confined, loose,
    ((fullPath_confined "/srv/./d/" "a/./../b").2 loose).1⟩

example : trail "/srv/./d/" ++ trail "./..a//.../b./" = ["srv", "d", "..a", "...", "b."] := by
  decide +kernel

end TableQuery.Files
