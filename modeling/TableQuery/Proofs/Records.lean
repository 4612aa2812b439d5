import TableQuery.Table.Decode
import TableQuery.Text.Pieces

/-!
# Records and lines

Records and lines are cut independently. A record is a run of characters between terminators of
either kind (`texts_of_unmarked`); a line ends at a line feed only. Where every carriage return has
its line feed behind it, both cut alike: the records are the lines that are not empty
(`runs_of_paired`).
-/

namespace TableQuery

open TableQuery.Text

def Unbroken (cs : List Char) : Prop :=
  ∀ c ∈ cs, isTerminator c = false

def Gap (cs : List Char) : Prop :=
  ∀ c ∈ cs, isTerminator c = true

def nonempty (pieces : List (List Char)) : List (List Char) :=
  pieces.filter fun piece => !piece.isEmpty

theorem nonempty_headD (pieces : List (List Char)) :
    nonempty (pieces.headD [] :: pieces.tail) = nonempty pieces := by
  cases pieces <;> rfl

theorem nonempty_cons_of_ne_nil {piece : List Char} (occupied : piece ≠ [])
    (pieces : List (List Char)) : nonempty (piece :: pieces) = piece :: nonempty pieces := by
  simp [nonempty, occupied]

/-- A first piece counts the same in front of pieces that count the same. -/
theorem nonempty_cons {pieces pieces' : List (List Char)}
    (same : nonempty pieces = nonempty pieces') (piece : List Char) :
    nonempty (piece :: pieces) = nonempty (piece :: pieces') := by
  simp only [nonempty, List.filter_cons] at same ⊢
  rw [same]

/-- The runs of characters between terminators. -/
def runs (cs : List Char) : List (List Char) :=
  nonempty (cs.splitOnP isTerminator)

theorem runs_terminator {c : Char} (terminator : isTerminator c = true) (cs : List Char) :
    runs (c :: cs) = runs cs := by
  unfold runs
  rw [List.splitOnP_cons_eq_if_splitOnPPrepend, if_pos terminator]
  rfl

theorem runs_gap {gap : List Char} (passed : Gap gap) (cs : List Char) :
    runs (gap ++ cs) = runs cs := by
  induction gap with
  | nil => rfl
  | cons c gap ih =>
    obtain ⟨terminator, others⟩ := List.forall_mem_cons.1 passed
    rw [List.cons_append, runs_terminator terminator, ih others]

/-- A run ends at the first terminator behind it, or with the characters. -/
theorem runs_append {run rest : List Char} (occupied : run ≠ [])
    (unbroken : Unbroken run)
    (ends : ∀ c ∈ rest.head?, isTerminator c = true) : runs (run ++ rest) = run :: runs rest := by
  unfold runs
  cases rest with
  | nil => simp [nonempty, List.splitOnP_eq_singleton unbroken, occupied]
  | cons c rest =>
    have terminator : isTerminator c = true := ends c rfl
    have behind : runs (c :: rest) = runs rest := runs_terminator terminator rest
    unfold runs at behind
    rw [List.splitOnP_append_cons_of_forall_mem unbroken c terminator, behind,
      nonempty_cons_of_ne_nil occupied]

theorem unbroken_run {cs more : List Char} {first : Char}
    (found : cs.dropWhile isTerminator = first :: more) :
    Unbroken (first :: more.takeWhile (!isTerminator ·)) := by
  have head := List.head?_dropWhile_not isTerminator cs
  rw [found] at head
  have visible : isTerminator first = false := by simpa using head
  intro c member
  rcases List.mem_cons.1 member with rfl | behind
  · exact visible
  · simpa using List.all_eq_true.1 List.all_takeWhile c behind

theorem isTerminator_behind (more : List Char) :
    ∀ c ∈ (more.dropWhile (!isTerminator ·)).head?, isTerminator c = true := by
  intro c member
  have head := List.head?_dropWhile_not (!isTerminator ·) more
  rw [show (more.dropWhile (!isTerminator ·)).head? = some c from member] at head
  simpa using head

/-- There is no record, or there is one behind a gap, and reading goes on behind the character that
ends it. -/
theorem split_cases (line : Nat) (cs : List Char) :
    Record.split line cs = [] ∧ Gap cs ∨
    ∃ gap run behind, cs = gap ++ (run ++ behind) ∧ Gap gap ∧ run ≠ [] ∧ Unbroken run ∧
      (∀ c ∈ behind.head?, isTerminator c = true) ∧
      Record.split line cs = ⟨line, run⟩ ::
        Record.split (line + (gap ++ behind.take 1).count '\n') (behind.drop 1) := by
  have gap : Gap (cs.takeWhile isTerminator) := fun c member =>
    List.all_eq_true.1 List.all_takeWhile c member
  have whole : cs.takeWhile isTerminator ++ cs.dropWhile isTerminator = cs :=
    List.takeWhile_append_dropWhile
  rw [Record.split]
  split
  · next none =>
    rw [none, List.append_nil] at whole
    exact .inl ⟨rfl, whole ▸ gap⟩
  · next first more found =>
    refine .inr ⟨_, _, _, ?_, gap, List.cons_ne_nil _ _, unbroken_run found,
      isTerminator_behind more, rfl⟩
    rw [List.cons_append, List.takeWhile_append_dropWhile, ← found, whole]

/-- The records of the characters are their runs. -/
theorem texts_of_split (line : Nat) (cs : List Char) :
    (Record.split line cs).map Record.text = runs cs := by
  induction size : cs.length using Nat.strongRecOn generalizing line cs with
  | _ size ih =>
    obtain ⟨none, gap⟩ | ⟨gap, run, behind, rfl, passed, held, unbroken, ends, step⟩ :=
      split_cases line cs
    · have empty := runs_gap gap []
      rw [List.append_nil] at empty
      rw [none, empty]
      rfl
    · have skipped : runs (behind.drop 1) = runs behind := by
        cases behind with
        | nil => rfl
        | cons c rest => exact (runs_terminator (ends c rfl) rest).symm
      have read : 0 < run.length := List.length_pos_iff.2 held
      simp only [List.length_append] at size
      rw [step, List.map_cons, ih _ (by simp; omega) _ _ rfl, skipped, runs_gap passed,
        runs_append held unbroken ends]

theorem unbroken_of_mem_split {line : Nat} {cs : List Char} {record : Record}
    (listed : record ∈ Record.split line cs) : Unbroken record.text := by
  fun_induction Record.split line cs with
  | case1 line cs none => simp at listed
  | case2 line cs first more found behind passed ih =>
    rcases List.mem_cons.1 listed with rfl | later
    · exact unbroken_run found
    · exact ih later

def withoutMark : List Char → List Char
  | '\uFEFF' :: cs => cs
  | cs => cs

theorem withoutMark_of_unmarked {cs : List Char} (unmarked : cs.head? ≠ some '\uFEFF') :
    withoutMark cs = cs := by
  fun_cases withoutMark cs with
  | case1 cs => exact absurd rfl unmarked
  | case2 cs _ => rfl

/-- A mark in front belongs to no record. -/
theorem ofText_eq_split (text : String) :
    Record.ofText text = Record.split 1 (withoutMark text.toList) := by
  unfold Record.ofText
  generalize text.toList = cs
  fun_cases withoutMark cs with
  | case1 cs => rfl
  | case2 cs unmarked =>
    split
    · next same => exact (unmarked _ rfl).elim
    · rfl

theorem unbroken_of_mem_ofText {text : String} {record : Record}
    (listed : record ∈ Record.ofText text) : Unbroken record.text := by
  rw [ofText_eq_split] at listed
  exact unbroken_of_mem_split listed

theorem texts_of_unmarked {text : String} (unmarked : text.toList.head? ≠ some '\uFEFF') :
    (Record.ofText text).map Record.text = runs text.toList := by
  rw [ofText_eq_split, withoutMark_of_unmarked unmarked]
  exact texts_of_split 1 _

/-! ## Lines -/

theorem lines_cons {c : Char} (ordinary : isTerminator c = false) (cs : List Char) :
    lines (c :: cs) = ((lines cs).headD [] |>.cons c) :: (lines cs).tail := by
  have other : c ≠ '\r' ∧ c ≠ '\n' := by simpa [isTerminator] using ordinary
  rw [lines.eq_4 c cs other.2 fun _ same => absurd same other.1]
  cases lines cs <;> rfl

theorem lines_run {run rest : List Char} (held : run ≠ []) (unbroken : Unbroken run) :
    lines (run ++ rest) = (run ++ (lines rest).headD []) :: (lines rest).tail := by
  induction run with
  | nil => exact absurd rfl held
  | cons c run ih =>
    obtain ⟨own, others⟩ := List.forall_mem_cons.1 unbroken
    rw [List.cons_append, lines_cons own]
    cases run with
    | nil => rfl
    | cons d run =>
      rw [ih (List.cons_ne_nil d run) others]
      rfl

theorem lines_append {line : List Char} (unbroken : Unbroken line) (rest : List Char) :
    (lines (line ++ rest)).headD [] = line ++ (lines rest).headD [] := by
  cases line with
  | nil => rfl
  | cons c line => rw [lines_run (List.cons_ne_nil c line) unbroken, List.headD_cons]

theorem toList_headD_linesOf (text : String) :
    ((linesOf text).headD "").toList = (lines text.toList).headD [] := by
  unfold linesOf
  cases lines text.toList <;> simp

/-- Every carriage return has its line feed behind it. -/
def Paired (cs : List Char) : Prop :=
  ∀ front back, cs = front ++ '\r' :: back → back.head? = some '\n'

theorem paired_tail {c : Char} {cs : List Char} (paired : Paired (c :: cs)) : Paired cs := by
  intro front back split
  exact paired (c :: front) back (by rw [split, List.cons_append])

theorem paired_cons_iff {c : Char} {cs : List Char} :
    Paired (c :: cs) ↔ (c = '\r' → cs.head? = some '\n') ∧ Paired cs := by
  constructor
  · intro paired
    exact ⟨fun same => paired [] cs (by rw [same]; rfl), paired_tail paired⟩
  · rintro ⟨here, later⟩ front back split
    cases front with
    | nil =>
      obtain ⟨carriage, rest⟩ := List.cons.inj split
      rw [← rest]
      exact here carriage
    | cons d front => exact later front back (List.cons.inj split).2

theorem paired_append {front back : List Char} (paired : Paired (front ++ back)) :
    Paired back := by
  induction front with
  | nil => exact paired
  | cons c front ih => exact ih (paired_tail paired)

/-- A terminator ends a line where it stands, or stands in front of the one that does. -/
theorem terminator_cases {c : Char} {cs : List Char} (paired : Paired (c :: cs))
    (terminator : isTerminator c = true) : c = '\n' ∨ c = '\r' ∧ ∃ rest, cs = '\n' :: rest := by
  rcases (by simpa [isTerminator] using terminator : c = '\r' ∨ c = '\n') with rfl | rfl
  · exact .inr ⟨rfl, List.head?_eq_some_iff.1 ((paired_cons_iff.1 paired).1 rfl)⟩
  · exact .inl rfl

instance : (cs : List Char) → Decidable (Paired cs)
  | [] => isTrue fun front back split => by cases front <;> cases split
  | _ :: cs =>
    have := instDecidablePaired cs
    decidable_of_iff _ paired_cons_iff.symm

/-- Where no line ends, no record ends either. -/
theorem isTerminator_of_paired {c : Char} {cs : List Char} (paired : Paired (c :: cs))
    (feed : c ≠ '\n') (carriage : ∀ rest, c = '\r' → cs ≠ '\n' :: rest) :
    isTerminator c = false := by
  have plain : c ≠ '\r' := by
    intro same
    have behind := (paired_cons_iff.1 paired).1 same
    cases cs with
    | nil => simp at behind
    | cons d rest => exact carriage rest same (by rw [Option.some.inj behind])
  simp [isTerminator, feed, plain]

/-- Pieces between terminators start as the lines do, and differ in empty pieces only. -/
theorem splitOnP_of_paired {cs : List Char} (paired : Paired cs) :
    ∃ more, cs.splitOnP isTerminator = (lines cs).headD [] :: more ∧
      nonempty more = nonempty (lines cs).tail := by
  -- A line end adds an empty piece to the pieces, and one more if a carriage return stands in it.
  fun_induction lines cs with
  | case1 => exact ⟨[], rfl, rfl⟩
  | case2 rest ih =>
    obtain ⟨more, pieces, same⟩ := ih (paired_tail paired)
    refine ⟨(lines rest).headD [] :: more, ?_, ?_⟩
    · rw [List.splitOnP_cons_eq_if_modifyHead, if_pos (by decide), pieces]
      rfl
    · rw [List.tail_cons, ← nonempty_headD (lines rest)]
      exact nonempty_cons same _
  | case3 rest ih =>
    obtain ⟨more, pieces, same⟩ := ih (paired_tail (paired_tail paired))
    refine ⟨[] :: (lines rest).headD [] :: more, ?_, ?_⟩
    · rw [List.splitOnP_cons_eq_if_modifyHead, if_pos (by decide),
        List.splitOnP_cons_eq_if_modifyHead, if_pos (by decide), pieces]
      rfl
    · rw [List.tail_cons, ← nonempty_headD (lines rest)]
      exact nonempty_cons same _
  | case4 c rest feed carriage none ih =>
    obtain ⟨more, pieces, same⟩ := ih (paired_tail paired)
    have ordinary : isTerminator c = false := isTerminator_of_paired paired feed carriage
    refine ⟨more, ?_, ?_⟩
    · rw [List.splitOnP_cons_eq_if_modifyHead, if_neg (by simp [ordinary]), pieces, none]
      rfl
    · rw [same, none]
      rfl
  | case5 c rest feed carriage line tail some ih =>
    obtain ⟨more, pieces, same⟩ := ih (paired_tail paired)
    have ordinary : isTerminator c = false := isTerminator_of_paired paired feed carriage
    refine ⟨more, ?_, ?_⟩
    · rw [List.splitOnP_cons_eq_if_modifyHead, if_neg (by simp [ordinary]), pieces, some]
      rfl
    · rw [same, some]
      rfl

/-- Records and lines are cut alike: the records are the lines that are not empty. -/
theorem runs_of_paired {cs : List Char} (paired : Paired cs) : runs cs = nonempty (lines cs) := by
  obtain ⟨more, pieces, same⟩ := splitOnP_of_paired paired
  rw [runs, pieces, ← nonempty_headD (lines cs)]
  exact nonempty_cons same _

/-- In a text without lone carriage returns the records are the lines that hold something. -/
theorem texts_of_ofText {text : String} (unmarked : text.toList.head? ≠ some '\uFEFF')
    (paired : Paired text.toList) :
    (Record.ofText text).map Record.text = nonempty (lines text.toList) :=
  (texts_of_unmarked unmarked).trans (runs_of_paired paired)

end TableQuery
