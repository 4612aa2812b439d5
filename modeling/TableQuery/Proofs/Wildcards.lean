import TableQuery.Sql.Query

/-!
# Wildcards

A pattern is read into one of five shapes, by where its percent signs stand. What it means is told
by the pattern as it is written: a value fills it in if it comes out by putting some text in the
place of each percent sign (`Fills`). Every value that does so is matched, and of the others only
those in which the start and the end of a pattern with one percent sign inside lie over each other
(`holds_iff_fills`).
-/

namespace TableQuery.Sql.Pattern

open TableQuery.Text

/-- The value is the pattern with some text in the place of each percent sign. -/
inductive Fills : List Char → List Char → Prop
  | done : Fills [] []
  | wildcard (text : List Char) {pattern value : List Char} (behind : Fills pattern value) :
      Fills ('%' :: pattern) (text ++ value)
  | plain {c : Char} {pattern value : List Char} (other : c ≠ '%') (behind : Fills pattern value) :
      Fills (c :: pattern) (c :: value)

/-- The pattern has one percent sign, with text on either side. The value starts and ends with
these texts, but is too short to hold one behind the other. -/
def Overlaps (pattern value : List Char) : Prop :=
  ∃ start finish, pattern = start ++ '%' :: finish ∧
    (start ≠ [] ∧ '%' ∉ start) ∧ (finish ≠ [] ∧ '%' ∉ finish) ∧
    start <+: value ∧ finish <:+ value ∧ value.length < start.length + finish.length

/-! ## What fills a pattern in -/

section Fills

variable {text pattern value : List Char}

theorem fills_nil : Fills [] value ↔ value = [] := by
  constructor
  · intro fills
    cases fills
    rfl
  · rintro rfl
    exact .done

theorem fills_percent :
    Fills ('%' :: pattern) value ↔ ∃ text rest, value = text ++ rest ∧ Fills pattern rest := by
  constructor
  · intro fills
    cases fills with
    | wildcard text behind => exact ⟨text, _, rfl, behind⟩
    | plain other _ => exact absurd rfl other
  · rintro ⟨text, rest, rfl, behind⟩
    exact .wildcard text behind

/-- Text without percent signs stands for itself. -/
theorem fills_append (absent : '%' ∉ text) :
    Fills (text ++ pattern) value ↔ ∃ rest, value = text ++ rest ∧ Fills pattern rest := by
  induction text generalizing value with
  | nil => simp
  | cons c text ih =>
    obtain ⟨other, absent⟩ := not_or.1 (mt List.mem_cons.2 absent)
    constructor
    · intro fills
      cases fills with
      | wildcard => exact absurd rfl other
      | plain _ behind =>
        obtain ⟨rest, rfl, fills⟩ := (ih absent).1 behind
        exact ⟨rest, rfl, fills⟩
    · rintro ⟨rest, rfl, fills⟩
      exact .plain (Ne.symm other) ((ih absent).2 ⟨rest, rfl, fills⟩)

theorem fills_text (absent : '%' ∉ text) : Fills text value ↔ value = text := by
  simpa [fills_nil] using @fills_append text [] value absent

theorem fills_percent_text (absent : '%' ∉ text) : Fills ('%' :: text) value ↔ text <:+ value := by
  simp only [fills_percent, fills_text absent]
  constructor
  · rintro ⟨before, _, rfl, rfl⟩
    exact ⟨before, rfl⟩
  · rintro ⟨before, rfl⟩
    exact ⟨before, text, rfl, rfl⟩

theorem fills_text_percent (absent : '%' ∉ text) :
    Fills (text ++ ['%']) value ↔ text <+: value := by
  simp only [fills_append absent, fills_percent_text List.not_mem_nil, List.nil_suffix, and_true,
    List.IsPrefix, eq_comm]

theorem fills_percent_text_percent (absent : '%' ∉ text) :
    Fills ('%' :: (text ++ ['%'])) value ↔ text <:+: value := by
  simp only [fills_percent, fills_text_percent absent]
  constructor
  · rintro ⟨before, _, rfl, rest, rfl⟩
    exact ⟨before, rest, List.append_assoc ..⟩
  · rintro ⟨before, rest, rfl⟩
    exact ⟨before, text ++ rest, List.append_assoc .., rest, rfl⟩

theorem fills_text_percent_text {start finish : List Char} (absentStart : '%' ∉ start)
    (absentFinish : '%' ∉ finish) :
    Fills (start ++ '%' :: finish) value ↔ ∃ middle, value = start ++ (middle ++ finish) := by
  simp only [fills_append absentStart, fills_percent_text absentFinish]
  constructor
  · rintro ⟨_, rfl, middle, rfl⟩
    exact ⟨middle, rfl⟩
  · rintro ⟨middle, rfl⟩
    exact ⟨middle ++ finish, rfl, middle, rfl⟩

/-- Where texts fill the pattern, its two ends do not overlap. -/
theorem not_overlaps_of_fills (fills : Fills pattern value) : ¬Overlaps pattern value := by
  rintro ⟨start, finish, rfl, ⟨_, absentStart⟩, ⟨_, absentFinish⟩, _, _, short⟩
  obtain ⟨middle, rfl⟩ := (fills_text_percent_text absentStart absentFinish).1 fills
  simp only [List.length_append] at short
  omega

end Fills

/-! ## What the five shapes match -/

/-- The search finds a text wherever it stands. -/
theorem occursIn_iff {text value : List Char} : occursIn text value = true ↔ text <:+: value := by
  induction value with
  | nil => simp [occursIn]
  | cons c value ih => simp [occursIn, ih, List.infix_cons_iff]

/-- A value with the start and the end of a pattern holds them one behind the other, if it is long
enough. -/
theorem exists_middle_iff {start finish value : List Char} :
    (∃ middle, value = start ++ (middle ++ finish)) ↔
      start <+: value ∧ finish <:+ value ∧ start.length + finish.length ≤ value.length := by
  constructor
  · rintro ⟨middle, rfl⟩
    refine ⟨List.prefix_append .., ?_, by simp⟩
    exact (List.suffix_append middle finish).trans (List.suffix_append start _)
  · rintro ⟨⟨rest, rfl⟩, ending, long⟩
    rw [List.length_append] at long
    obtain ⟨middle, rfl⟩ :=
      List.suffix_of_suffix_length_le ending (List.suffix_append start rest) (by omega)
    exact ⟨middle, rfl⟩

/-- No text of the pattern holds a percent sign, and none is empty where its percent sign would then
stand at the other end. -/
def IsRead : Pattern → Prop
  | exact text | ends text | contains text => '%' ∉ text.toList
  | starts text => text.toList ≠ [] ∧ '%' ∉ text.toList
  | enclosed start finish =>
    (start.toList ≠ [] ∧ '%' ∉ start.toList) ∧ finish.toList ≠ [] ∧ '%' ∉ finish.toList

theorem isRead_of_ofText? {raw : String} {pattern : Pattern}
    (accepted : ofText? raw = some pattern) : pattern.IsRead := by
  have free : ∀ piece ∈ cut '%' raw.toList, '%' ∉ piece := fun _ => not_mem_of_mem_cut
  unfold ofText? at accepted
  split at accepted <;> cases accepted <;> next pieces => simp_all [IsRead]

/-- The value is long enough to hold the texts of the pattern one behind the other. -/
def HasRoom : Pattern → List Char → Prop
  | enclosed start finish, value => start.toList.length + finish.toList.length ≤ value.length
  | _, _ => True

/-- For the patterns that are read the relation comes to tests of the two ends. -/
theorem fills_iff {pattern : Pattern} {value : List Char} (isRead : pattern.IsRead) :
    Fills pattern.text.toList value ↔
      pattern.matchesChars value = true ∧ pattern.HasRoom value := by
  cases pattern with
  | exact text => simp [Pattern.text, matchesChars, HasRoom, fills_text isRead]
  | starts text =>
    have written : (starts text).text.toList = text.toList ++ ['%'] := by simp [Pattern.text]
    rw [written, fills_text_percent isRead.2]
    simp [matchesChars, HasRoom]
  | ends text =>
    have written : (ends text).text.toList = '%' :: text.toList := by simp [Pattern.text]
    rw [written, fills_percent_text isRead]
    simp [matchesChars, HasRoom]
  | contains text =>
    have written : (contains text).text.toList = '%' :: (text.toList ++ ['%']) := by
      simp [Pattern.text]
    rw [written, fills_percent_text_percent isRead]
    simp [matchesChars, HasRoom, occursIn_iff]
  | enclosed start finish =>
    have written : (enclosed start finish).text.toList = start.toList ++ '%' :: finish.toList := by
      simp [Pattern.text]
    rw [written, fills_text_percent_text isRead.1.2 isRead.2.2, exists_middle_iff]
    simp [matchesChars, HasRoom, and_assoc]

/-- A pattern with text on either side of its percent sign matches what starts and ends so. -/
theorem matchesChars_of_overlaps {raw : String} {pattern : Pattern} {value : List Char}
    (accepted : ofText? raw = some pattern) (overlaps : Overlaps raw.toList value) :
    pattern.matchesChars value = true := by
  obtain ⟨start, finish, written, ⟨_, absent⟩, ⟨_, absent'⟩, starting, ending, _⟩ := overlaps
  have pieces : cut '%' raw.toList = [start, finish] := by
    rw [written, cut_append absent, cut_eq_singleton absent']
  have enclosing : ofText? raw = some (enclosed (String.ofList start) (String.ofList finish)) := by
    simp [ofText?, pieces]
  obtain rfl := Option.some.inj (accepted.symm.trans enclosing)
  simp [matchesChars, starting, ending]

/-- The match is the usual one, save that the two ends of a pattern may overlap. -/
theorem holds_iff {raw : String} {pattern : Pattern} (accepted : ofText? raw = some pattern)
    (value : String) :
    pattern.holds value = true ↔
      Fills raw.toList value.toList ∨ Overlaps raw.toList value.toList := by
  have isRead := isRead_of_ofText? accepted
  have same : pattern.text = raw := text_of_ofText? accepted
  rw [holds, ← same]
  constructor
  · intro matched
    by_cases room : pattern.HasRoom value.toList
    · exact .inl ((fills_iff isRead).2 ⟨matched, room⟩)
    · -- Only a pattern with text on either side of its percent sign can lack room.
      cases pattern with
      | enclosed start finish =>
        obtain ⟨starting, ending⟩ := Bool.and_eq_true_iff.1 matched
        refine .inr ⟨start.toList, finish.toList, by simp [Pattern.text], isRead.1, isRead.2,
          List.isPrefixOf_iff_prefix.1 starting, List.isSuffixOf_iff_suffix.1 ending, ?_⟩
        exact Nat.lt_of_not_le room
      | _ => exact absurd trivial room
  · rintro (fills | overlaps)
    · exact ((fills_iff isRead).1 fills).1
    · exact matchesChars_of_overlaps accepted (same ▸ overlaps)

/-- A pattern that is read matches the values that fill it in, and besides them only values in
which its two texts overlap, which never do. -/
theorem holds_iff_fills {raw : String} {pattern : Pattern} (accepted : ofText? raw = some pattern)
    (value : String) :
    (pattern.holds value = true ↔
      Fills raw.toList value.toList ∨ Overlaps raw.toList value.toList) ∧
    ¬(Fills raw.toList value.toList ∧ Overlaps raw.toList value.toList) :=
  ⟨holds_iff accepted value, fun both => not_overlaps_of_fills both.1 both.2⟩

/-- A value in which the start and the end of the pattern share a letter is matched, though nothing
fills it in. -/
theorem sharedLetter_holds :
    ofText? "ab%ba" = some (enclosed "ab" "ba") ∧
      (enclosed "ab" "ba").holds "aba" = true ∧ ¬Fills "ab%ba".toList "aba".toList ∧
      (enclosed "ab" "ba").holds "abba" = true ∧ Fills "ab%ba".toList "abba".toList := by
  have accepted : ofText? "ab%ba" = some (enclosed "ab" "ba") := by decide
  have overlaps : Overlaps "ab%ba".toList "aba".toList :=
    ⟨['a', 'b'], ['b', 'a'], by decide, by decide, by decide, by decide, by decide, by decide⟩
  have fills : Fills "ab%ba".toList "abba".toList :=
    .plain (by decide) (.plain (by decide) (.wildcard [] (.plain (by decide)
      (.plain (by decide) .done))))
  obtain ⟨matched, apart⟩ := holds_iff_fills accepted "aba"
  refine ⟨accepted, matched.2 (.inr overlaps), fun filled => apart ⟨filled, overlaps⟩, ?_, fills⟩
  exact (holds_iff_fills accepted "abba").1.2 (.inl fills)

end TableQuery.Sql.Pattern
