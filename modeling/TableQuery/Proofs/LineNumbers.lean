import TableQuery.Proofs.LineByLine

/-!
# The number of a line at fault

A row that is not as wide as the header is told with the number of a line. A record is numbered
where its reading begins, right behind the terminator of the record before it, and a line where it
stands. Empty lines in between, and the line feed that belongs to a carriage return, come after the
one and before the other, so that the number told can be too low, and never too high
(`width_number`).
-/

namespace TableQuery

open TableQuery.Text

def occupied (number : Nat) (cs : List Char) : List (List Char × Nat) :=
  ((lines cs).zipIdx number).filter (!·.1.isEmpty)

/-- The line is not blank, and it has more or fewer cells than the header. -/
def misfits (delimiter : Char) (header line : List Char) : Bool :=
  !allBlank line && (cells delimiter line).length != (cells delimiter header).length

def chosen (text : String) : Char :=
  (Delimiter.detect (trim ((lines text.toList).headD []))).char

/-- The first line below the header that is neither blank nor as wide as the header, and its
number. -/
def misfit? (text : String) : Option (List Char × Nat) :=
  match occupied 1 (withoutMark text.toList) with
  | [] => none
  | (header, _) :: below => below.find? fun (line, _) => misfits (chosen text) header line

/-! ## Lines with numbers -/

theorem occupied_terminator {c : Char} {cs : List Char} (paired : Paired (c :: cs))
    (terminator : isTerminator c = true) (number : Nat) :
    occupied number (c :: cs) = occupied (number + [c].count '\n') cs := by
  -- The line feed behind a carriage return ends the line that the carriage return did not end.
  rcases terminator_cases paired terminator with rfl | ⟨rfl, rest, rfl⟩ <;> rfl

theorem occupied_gap {gap cs : List Char} (passed : Gap gap) (paired : Paired (gap ++ cs))
    (number : Nat) : occupied number (gap ++ cs) = occupied (number + gap.count '\n') cs := by
  induction gap generalizing number with
  | nil => rfl
  | cons c gap ih =>
    obtain ⟨terminator, others⟩ := List.forall_mem_cons.1 passed
    calc occupied number (c :: (gap ++ cs))
      _ = occupied (number + [c].count '\n') (gap ++ cs) :=
        occupied_terminator paired terminator number
      _ = occupied (number + [c].count '\n' + gap.count '\n') cs := ih others (paired_tail paired) _
      _ = occupied (number + ([c] ++ gap).count '\n') cs := by
        rw [List.count_append, Nat.add_assoc]

theorem occupied_run {run behind : List Char} (held : run ≠ []) (unbroken : Unbroken run)
    (ends : ∀ c ∈ behind.head?, isTerminator c = true) (paired : Paired behind) (number : Nat) :
    occupied number (run ++ behind) =
      (run, number) :: occupied (number + (behind.take 1).count '\n') (behind.drop 1) := by
  rw [occupied, lines_run held unbroken]
  cases behind with
  | nil => simp [lines, occupied, held]
  | cons t rest =>
    rcases terminator_cases paired (ends t rfl) with rfl | ⟨rfl, rest, rfl⟩ <;>
      simp [lines, occupied, held]

/-! ## Records on their lines -/

/-- There is no record and no line to be numbered, or there is one of each behind a gap, of the same
characters, and reading goes on behind the character that ends it. -/
theorem split_occupied_cases {cs : List Char} (paired : Paired cs) (number : Nat) :
    Record.split number cs = [] ∧ occupied number cs = [] ∨
    ∃ gap run behind, cs = gap ++ (run ++ behind) ∧ Gap gap ∧ run ≠ [] ∧ Unbroken run ∧
      (∀ c ∈ behind.head?, isTerminator c = true) ∧
      let next := number + (gap ++ behind.take 1).count '\n'
      Record.split number cs = ⟨number, run⟩ :: Record.split next (behind.drop 1) ∧
      occupied number cs = (run, number + gap.count '\n') :: occupied next (behind.drop 1) := by
  obtain ⟨none, gap⟩ | ⟨gap, run, behind, rfl, passed, held, unbroken, ends, step⟩ :=
    split_cases number cs
  · have skipped := @occupied_gap cs [] gap (by rwa [List.append_nil]) number
    rw [List.append_nil] at skipped
    exact .inl ⟨none, skipped⟩
  · refine .inr ⟨gap, run, behind, rfl, passed, held, unbroken, ends, step, ?_⟩
    have pairedBehind := paired_append (paired_append paired)
    rw [occupied_gap passed paired, occupied_run held unbroken ends pairedBehind,
      List.count_append, Nat.add_assoc]

/-- The characters end where a record ends, behind its terminator. -/
def EndsRecord (front : List Char) : Prop :=
  ∃ before c t, front = before ++ [c, t] ∧ isTerminator c = false ∧ isTerminator t = true

/-- The record is the characters of the line. Its number is the one of the place where another
record ends, and the number of the line is the one of the place where the line begins. -/
structure StandsAt (cs front gap back : List Char) (record : Record) (line : List Char × Nat) :
    Prop where
  whole : cs = front ++ (gap ++ (record.text ++ back))
  ended : EndsRecord front
  passed : Gap gap
  held : record.text ≠ []
  unbroken : Unbroken record.text
  told : record.line = 1 + front.count '\n'
  line : line = (record.text, 1 + (front ++ gap).count '\n')

def Stands (cs : List Char) (record : Record) (line : List Char × Nat) : Prop :=
  ∃ front gap back, StandsAt cs front gap back record line

theorem count_unbroken {run : List Char} (unbroken : Unbroken run) : run.count '\n' = 0 := by
  refine List.count_eq_zero_of_not_mem fun member => ?_
  cases unbroken _ member

theorem endsRecord_append {run : List Char} (held : run ≠ []) (unbroken : Unbroken run) {t : Char}
    (terminator : isTerminator t = true) (front : List Char) :
    EndsRecord (front ++ (run ++ [t])) := by
  refine ⟨front ++ run.dropLast, run.getLast held, t, ?_, unbroken _ (List.getLast_mem held),
    terminator⟩
  conv_lhs => rw [← List.dropLast_append_getLast held]
  simp

/-- Behind the end of a record, records and lines that hold a character go together. -/
theorem stands_of_split {front cs : List Char} (ended : EndsRecord front) (paired : Paired cs) :
    List.Forall₂ (Stands (front ++ cs)) (Record.split (1 + front.count '\n') cs)
      (occupied (1 + front.count '\n') cs) := by
  induction size : cs.length using Nat.strong_induction_on generalizing front cs with
  | _ size ih =>
    obtain ⟨none, empty⟩ | ⟨gap, run, behind, rfl, passed, held, unbroken, ends, step, numbered⟩ :=
      split_occupied_cases paired (1 + front.count '\n')
    · rw [none, empty]
      exact .nil
    · have own : StandsAt (front ++ (gap ++ (run ++ behind))) front gap behind
          ⟨1 + front.count '\n', run⟩ (run, 1 + front.count '\n' + gap.count '\n') :=
        ⟨rfl, ended, passed, held, unbroken, rfl, by rw [List.count_append, Nat.add_assoc]⟩
      rw [step, numbered]
      refine .cons ⟨front, gap, behind, own⟩ ?_
      cases behind with
      | nil => simp [Record.split, occupied, lines]
      | cons t rest =>
        -- Both go on behind `t`, and have counted the same line feeds up to there.
        have next := ih rest.length (by simp at size; omega)
          (endsRecord_append held unbroken (ends t rfl) (front ++ gap))
          (paired_tail (paired_append (paired_append paired))) rfl
        simpa [count_unbroken unbroken, ← Nat.add_assoc] using next

/-! ## The first row that is refused -/

theorem nameFault?_ne_width (header : List String) (number expected found : Nat) :
    nameFault? header ≠ some (.width number expected found) := by
  intro fault
  obtain ⟨_, _, decided⟩ := List.exists_of_findSome?_eq_some fault
  unfold nameFaultAt? at decided
  grind

theorem not_isOk_checkWidth (header cells : List String) (line : Nat) :
    (!(Table.checkWidth header line cells).isOk) = (cells.length != header.length) := by
  unfold Table.checkWidth
  split
  · next wide => simp [wide, Except.isOk, Except.toBool]
  · next narrow => simp [narrow, Except.isOk, Except.toBool]

/-- The row at fault is the first that is not as wide as the header. -/
theorem rows_eq_error {delimiter : Char} (visible : isBlank delimiter = false)
    {header : List Char} {records : List Record} {fault : TableError}
    (failed : Decoding.rows (cells delimiter header) delimiter records = .error fault) :
    ∃ record, records.find? (fun record => misfits delimiter header record.text) = some record ∧
      fault.line? = some record.line := by
  obtain ⟨record, found, refused⟩ := find?_of_mapM_eq_error failed
  refine ⟨record, ?_, ?_⟩
  · rw [List.find?_filter] at found
    rw [← found]
    congr 1
    funext record
    rw [Bool.decide_and, Bool.decide_coe, Bool.decide_coe, not_isOk_checkWidth,
      fields_ne_empty visible]
    rfl
  · unfold Table.checkWidth at refused
    split at refused
    · cases refused
    · rw [← Except.error.inj refused]
      rfl

/-- If decoding finds a row at fault, there is a header, and the row is below it. -/
theorem ofText_eq_width {text : String} {number expected found : Nat}
    (failed : Decoding.ofText text = .error (.width number expected found)) :
    ∃ header records record, Record.ofText text = header :: records ∧
      records.find? (fun record => misfits (chosen text) header.text record.text) = some record ∧
      record.line = number := by
  unfold Decoding.ofText Decoding.ofLines at failed
  unfold chosen
  rw [toList_headD_linesOf] at failed
  dsimp only at failed
  split at failed
  · cases failed
  · generalize Delimiter.detect (trim ((lines text.toList).headD [])) = delimiter at failed ⊢
    split at failed
    · cases failed
    · next header records split =>
      rw [ofHeader_eq] at failed
      cases named : nameFault? (header.fields delimiter.char) with
      | some fault =>
        rw [named] at failed
        cases failed
        exact absurd named (nameFault?_ne_width _ _ _ _)
      | none =>
        rw [named, ok_bind] at failed
        cases below : Decoding.rows (header.fields delimiter.char) delimiter.char records with
        | ok rows =>
          rw [below] at failed
          cases failed
        | error fault =>
          rw [below] at failed
          cases failed
          obtain ⟨record, found, told⟩ := rows_eq_error (isBlank_delimiter delimiter) below
          exact ⟨header, records, record, split, found, (Option.some.inj told).symm⟩

/-- Searches by tests that agree find related entries. -/
theorem find?_of_forall₂ {α β : Type} {R : α → β → Prop} {p : α → Bool} {q : β → Bool}
    (alike : ∀ x y, R x y → p x = q y) {xs : List α} {ys : List β} (related : List.Forall₂ R xs ys)
    {x : α} (found : xs.find? p = some x) : ∃ y, ys.find? q = some y ∧ R x y := by
  induction related with
  | nil => cases found
  | @cons x' y' _ _ head _ ih =>
    rw [List.find?_cons] at found ⊢
    rw [← alike _ _ head]
    cases first : p x' with
    | true =>
      rw [first] at found
      obtain rfl := Option.some.inj found
      exact ⟨y', rfl, head⟩
    | false => exact ih (by rwa [first] at found)

/-! ## The number told and the number of the line -/

/-- The characters end in a line that holds something and has no carriage return at its end. -/
def EndsPlainly (front : List Char) : Prop :=
  ∃ before c, front = before ++ [c, '\n'] ∧ isTerminator c = false

/-- In front of a line there is a line feed among two ends, and behind a single carriage return. -/
theorem feed_of_paired {t : Char} {gap run back : List Char} (terminator : isTerminator t = true)
    (held : run ≠ []) (unbroken : Unbroken run) (paired : Paired (t :: (gap ++ (run ++ back)))) :
    t = '\n' ∨ '\n' ∈ gap := by
  rcases terminator_cases paired terminator with feed | ⟨rfl, rest, behind⟩
  · exact .inl feed
  · right
    cases gap with
    | cons g gap => simp [(List.cons.inj behind).1]
    | nil =>
      cases run with
      | nil => exact absurd rfl held
      | cons c run =>
        have ordinary := unbroken c (by simp)
        rw [(List.cons.inj behind).1] at ordinary
        cases ordinary

theorem not_endsPlainly {front gap : List Char} (ended : EndsRecord front) (passed : Gap gap)
    (held : gap ≠ []) : ¬EndsPlainly (front ++ gap) := by
  rintro ⟨before, c, split, ordinary⟩
  obtain ⟨before', c', t, rfl, _, terminator⟩ := ended
  have behind : t :: gap <:+ before' ++ [c', t] ++ gap := ⟨before' ++ [c'], by simp⟩
  have last : [c, '\n'] <:+ t :: gap := by
    refine List.suffix_of_suffix_length_le ⟨before, split.symm⟩ behind ?_
    exact Nat.succ_le_succ (List.length_pos_of_ne_nil held)
  have terminators : Gap (t :: gap) := List.forall_mem_cons.2 ⟨terminator, passed⟩
  rw [terminators c (last.subset List.mem_cons_self)] at ordinary
  cases ordinary

/-- The number told is too low, unless the line above holds something and ends in a line feed
alone. -/
theorem StandsAt.told_eq_iff {cs front gap back : List Char} {record : Record}
    {line : List Char × Nat} (stands : StandsAt cs front gap back record line)
    (paired : Paired cs) : record.line = line.2 ↔ EndsPlainly (front ++ gap) := by
  obtain ⟨rfl, ended, passed, held, unbroken, told, rfl⟩ := stands
  rw [told]
  constructor
  · intro same
    have absent : '\n' ∉ gap := by
      rw [List.count_append] at same
      exact List.count_eq_zero.1 (by omega)
    obtain ⟨before, c, t, rfl, ordinary, terminator⟩ := ended
    have behind : Paired (t :: (gap ++ (record.text ++ back))) :=
      @paired_append (before ++ [c]) _ (by simpa using paired)
    cases gap with
    | nil =>
      obtain rfl | inside := feed_of_paired terminator held unbroken behind
      · exact ⟨before, c, by simp, ordinary⟩
      · exact absurd inside absent
    | cons g gap =>
      obtain ⟨own, _⟩ := List.forall_mem_cons.1 passed
      obtain rfl | inside := feed_of_paired own held unbroken (paired_tail behind)
      · exact absurd List.mem_cons_self absent
      · exact absurd (List.mem_cons_of_mem _ inside) absent
  · intro plain
    cases gap with
    | nil => rw [List.append_nil]
    | cons g gap => exact absurd plain (not_endsPlainly ended passed (List.cons_ne_nil g gap))

/-- A mark is on the first line and moves no number. -/
theorem exists_mark (cs : List Char) :
    ∃ mark, cs = mark ++ withoutMark cs ∧ mark.count '\n' = 0 := by
  fun_cases withoutMark cs with
  | case1 cs => exact ⟨['\uFEFF'], rfl, by decide⟩
  | case2 cs _ => exact ⟨[], rfl, rfl⟩

/-- Below the header, the records of a text and its lines that hold a character go together. -/
theorem stands_below {text : String} {header : Record} {records : List Record}
    (paired : Paired text.toList) (split : Record.ofText text = header :: records) :
    ∃ number below, occupied 1 (withoutMark text.toList) = (header.text, number) :: below ∧
      List.Forall₂ (Stands text.toList) records below := by
  obtain ⟨mark, whole, unmarked⟩ := exists_mark text.toList
  rw [ofText_eq_split] at split
  have pairedBehind : Paired (withoutMark text.toList) := paired_append (whole ▸ paired)
  generalize withoutMark text.toList = cs at *
  -- The header is read from the start of the text, where no record ends, so it is a step apart.
  obtain ⟨none, _⟩ | ⟨gap, run, behind, rfl, _, held, unbroken, ends, step, numbered⟩ :=
    split_occupied_cases pairedBehind 1
  · rw [none] at split
    cases split
  · rw [step] at split
    obtain ⟨rfl, rfl⟩ := List.cons.inj split
    refine ⟨_, _, numbered, ?_⟩
    cases behind with
    | nil => simp [Record.split, occupied, lines]
    | cons t rest =>
      have below := stands_of_split (endsRecord_append held unbroken (ends t rfl) (mark ++ gap))
        (paired_tail (paired_append (paired_append pairedBehind)))
      rw [whole]
      simpa [unmarked, count_unbroken unbroken] using below

/-- A row at fault is the first below the header that is neither blank nor as wide as it. The number
told is never above that of its line, and it is this number just when the line above it holds
something and ends in a line feed alone. -/
theorem width_number {text : String} {number expected found : Nat} (paired : Paired text.toList)
    (failed : Decoding.ofText text = .error (.width number expected found)) :
    ∃ front line back, text.toList = front ++ line ++ back ∧
      misfit? text = some (line, 1 + front.count '\n') ∧ number ≤ 1 + front.count '\n' ∧
      (number = 1 + front.count '\n' ↔ EndsPlainly front) := by
  obtain ⟨header, records, record, split, first, rfl⟩ := ofText_eq_width failed
  obtain ⟨_, below, numbered, together⟩ := stands_below paired split
  have alike : ∀ record line, Stands text.toList record line →
      misfits (chosen text) header.text record.text = misfits (chosen text) header.text line.1 :=
    fun record line ⟨_, _, _, stands⟩ => by rw [stands.line]
  obtain ⟨line, misfit, front, gap, back, stands⟩ := find?_of_forall₂ alike together first
  have told := stands.told_eq_iff paired
  have whole := stands.whole
  rw [stands.line] at misfit told
  refine ⟨front ++ gap, record.text, back, by simp [whole], ?_, ?_, told⟩
  · rw [misfit?, numbered]
    exact misfit
  · rw [stands.told, List.count_append]
    omega

/-- An empty line, and line ends of both kinds, but not in front of the row at fault. -/
def numberedText : String :=
  "a,b\r\n\n1,2\nc\n"

theorem numberedText_width :
    Decoding.ofText numberedText = .error (.width 4 2 1) ∧
    misfit? numberedText = some (['c'], 4) ∧
    ∃ front back, numberedText.toList = front ++ ['c'] ++ back ∧ EndsPlainly front := by
  have failed : Decoding.ofText numberedText = .error (.width 4 2 1) := by decide +kernel
  have misfit : misfit? numberedText = some (['c'], 4) := by decide +kernel
  obtain ⟨front, line, back, whole, first, _, right⟩ := width_number (by decide) failed
  rw [misfit] at first
  obtain ⟨rfl, number⟩ := Prod.mk.inj (Option.some.inj first)
  exact ⟨failed, misfit, front, back, whole, right.1 number⟩

/-- An empty line above the row, or a carriage return at the end of the line above it, and the
number is one too low. -/
theorem width_number_too_low :
    Decoding.ofText "a,b\n\nc" = .error (.width 2 2 1) ∧
    misfit? "a,b\n\nc" = some (['c'], 3) ∧
    Decoding.ofText "a,b\r\nc" = .error (.width 1 2 1) ∧
    misfit? "a,b\r\nc" = some (['c'], 2) ∧
    ¬∀ text number expected found, Paired text.toList →
      Decoding.ofText text = .error (.width number expected found) →
      ∃ line, misfit? text = some (line, number) := by
  have failed : Decoding.ofText "a,b\n\nc" = .error (.width 2 2 1) := by decide +kernel
  have misfit : misfit? "a,b\n\nc" = some (['c'], 3) := by decide +kernel
  refine ⟨failed, misfit, by decide +kernel, by decide +kernel, fun always => ?_⟩
  obtain ⟨line, first⟩ := always _ _ _ _ (by decide) failed
  rw [misfit] at first
  cases (Prod.mk.inj (Option.some.inj first)).2

end TableQuery
