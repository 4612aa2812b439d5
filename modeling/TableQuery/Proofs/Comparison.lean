import Mathlib.Data.List.Induction
import Mathlib.Data.Nat.Digits.Defs
import Mathlib.Data.String.Basic
import TableQuery.Proofs.CellOrder

/-!
# Comparing cells

A cell is a numeral if it is decimal digits behind at most one sign, and its value fits in 64 bits
(`Writes`). Two numerals compare by their values and any other two cells as texts, so the order of
cells is none that is known from elsewhere; but it is turned round by turning the cells round, its
ties are those of equal texts and of numerals with one value, and it is transitive among numerals
and among other texts (`compareCells_coherent`).
-/

namespace TableQuery.Text

/-! ## Numerals -/

/-- One ASCII digit or more, worth `value` in base ten. -/
structure IsDigits (digits : List Char) (value : Nat) : Prop where
  nonempty : digits ≠ []
  decimal : ∀ c ∈ digits, c.isDigit = true
  value_eq : Nat.ofDigits 10 (digits.reverse.map fun c => c.toNat - '0'.toNat) = value

/-- Digits, and at most one sign in front of them. -/
inductive IsNumeral : List Char → Int → Prop
  | unsigned {digits : List Char} {value : Nat} (isDigits : IsDigits digits value) :
      IsNumeral digits value
  | plus {digits : List Char} {value : Nat} (isDigits : IsDigits digits value) :
      IsNumeral ('+' :: digits) value
  | minus {digits : List Char} {value : Nat} (isDigits : IsDigits digits value) :
      IsNumeral ('-' :: digits) (-value)

/-- Going through the digits from the left gives their value in base ten. -/
theorem foldl_digits (digits : List Char) :
    digits.foldl (fun value c => value * 10 + (c.toNat - '0'.toNat)) 0 =
      Nat.ofDigits 10 (digits.reverse.map fun c => c.toNat - '0'.toNat) := by
  induction digits using List.reverseRecOn with
  | nil => rfl
  | append_singleton digits c ih =>
    rw [List.foldl_append, ih, List.reverse_append, List.reverse_singleton, List.singleton_append,
      List.map_cons, Nat.ofDigits_cons, List.foldl_cons, List.foldl_nil]
    omega

/-- What is read is a run of digits, worth its value in base ten. -/
theorem natural?_eq_some_iff {cs : List Char} {value : Nat} :
    natural? cs = some value ↔ IsDigits cs value := by
  unfold natural?
  rw [Option.ite_none_right_eq_some, Option.some.injEq, foldl_digits, Bool.and_eq_true,
    List.all_eq_true, Bool.not_eq_true', List.isEmpty_eq_false_iff]
  constructor
  · rintro ⟨⟨nonempty, decimal⟩, value_eq⟩
    exact ⟨nonempty, decimal, value_eq⟩
  · rintro ⟨nonempty, decimal, value_eq⟩
    exact ⟨⟨nonempty, decimal⟩, value_eq⟩

/-- No sign is a digit, so that digits are read as such. -/
theorem IsDigits.head_ne {c : Char} {digits : List Char} {value : Nat}
    (isDigits : IsDigits (c :: digits) value) : c ≠ '-' ∧ c ≠ '+' := by
  have decimal := isDigits.decimal c (by simp)
  constructor <;> rintro rfl <;> exact absurd decimal (by decide)

/-- A cell is an integer just when it is a numeral for a value of 64 bits. -/
theorem integer?_eq_some_iff {cs : List Char} {value : Int} :
    integer? cs = some value ↔ IsNumeral cs value ∧ -2 ^ 63 ≤ value ∧ value < 2 ^ 63 := by
  have half : Int64.size / 2 = 2 ^ 63 := by decide
  unfold integer?
  constructor
  · intro read
    split at read <;> simp only [half, Option.bind_eq_bind, Option.bind_eq_some_iff,
      Option.ite_none_right_eq_some, Option.some.injEq, natural?_eq_some_iff] at read <;>
      obtain ⟨size, isDigits, fits, rfl⟩ := read
    · exact ⟨.minus isDigits, by omega, by omega⟩
    · exact ⟨.plus isDigits, by omega, by omega⟩
    · exact ⟨.unsigned isDigits, by omega, by omega⟩
  · rintro ⟨isNumeral, low, high⟩
    cases isNumeral with
    | @unsigned _ size isDigits =>
      split
      · exact absurd rfl isDigits.head_ne.1
      · exact absurd rfl isDigits.head_ne.2
      · simp [half, natural?_eq_some_iff.2 isDigits]
        omega
    | @plus digits size isDigits =>
      simp [half, natural?_eq_some_iff.2 isDigits]
      omega
    | @minus digits size isDigits =>
      simp [half, natural?_eq_some_iff.2 isDigits]
      omega

theorem compareChars_eq_lt_iff {left right : List Char} :
    compareChars left right = .lt ↔ left < right := by
  fun_induction compareChars left right with
  | case1 => simp
  | case2 => simp
  | case3 => simp
  | case4 a left b right ih =>
    rw [Ordering.then_eq_lt, ih, Nat.compare_eq_lt, Nat.compare_eq_eq, Char.toNat_inj,
      List.cons_lt_cons_iff]
    rfl

end TableQuery.Text

namespace TableQuery.Answer

open TableQuery.Text
open TableQuery.Sql (Comparator)

/-- The cell is a numeral for the value, which is in the range of 64 bits. -/
def Writes (cell : String) (value : Int) : Prop :=
  IsNumeral cell.toList value ∧ -2 ^ 63 ≤ value ∧ value < 2 ^ 63

theorem writesInteger_iff {cell : String} :
    writesInteger cell = true ↔ ∃ value, Writes cell value := by
  rw [writesInteger, Option.isSome_iff_exists]
  exact exists_congr fun value => integer?_eq_some_iff

/-- A numeral has one value. -/
theorem Writes.unique {cell : String} {value other : Int} (writes : Writes cell value)
    (writesOther : Writes cell other) : value = other := by
  have read := integer?_eq_some_iff.2 writes
  rw [integer?_eq_some_iff.2 writesOther] at read
  exact (Option.some.inj read).symm

/-- Numerals compare by their values, however they are spelled. -/
theorem compareCells_of_writes {left right : String} {a b : Int} (first : Writes left a)
    (second : Writes right b) : compareCells left right = compare a b := by
  simp only [compareCells, integer?_eq_some_iff.2 first, integer?_eq_some_iff.2 second]

/-- The order of texts is that of strings, character by character. -/
theorem compareTexts_eq_compare (left right : String) :
    compareTexts left right = compare left right := by
  have before : ∀ {a b : String}, compareTexts a b = .lt → compare a b = .lt := fun h =>
    compare_lt_iff_lt.2 (String.lt_iff_toList_lt.2 (compareChars_eq_lt_iff.1 h))
  cases order : compareTexts left right with
  | lt => exact (before order).symm
  | eq =>
    obtain rfl := Std.LawfulEqCmp.eq_of_compare order
    exact Std.ReflCmp.compare_self.symm
  | gt => exact (Std.OrientedCmp.gt_of_lt (before (Std.OrientedCmp.lt_of_gt order))).symm

/-! ## Coherence -/

/-- An order of cells that takes numerals by their values and all else by the characters, as far as
it can be coherent. -/
structure Coherent (order : String → String → Ordering) : Prop where
  swap : ∀ a b, order b a = (order a b).swap
  tied : ∀ a b, order a b = .eq ↔ a = b ∨ ∃ value, Writes a value ∧ Writes b value
  tied_trans : ∀ a b c, order a b = .eq → order b c = .eq → order a c = .eq
  numerals : ∀ a b x y, Writes a x → Writes b y → order a b = compare x y
  numerals_trans : ∀ a b c, (∃ x, Writes a x) → (∃ y, Writes b y) → (∃ z, Writes c z) →
    (order a b).isLE → (order b c).isLE → (order a c).isLE
  texts : ∀ a b, ¬((∃ x, Writes a x) ∧ ∃ y, Writes b y) → order a b = compare a b
  texts_trans : ∀ a b c, (¬∃ x, Writes a x) → (¬∃ y, Writes b y) → (¬∃ z, Writes c z) →
    (order a b).isLE → (order b c).isLE → (order a c).isLE

/-- The operators that hold between two cells in this order: one of three, and the other three are
their opposites. -/
structure Decided (holds : Comparator → Bool) (order : Ordering) : Prop where
  one : ∃! op, op ∈ [Comparator.lt, .eq, .gt] ∧ holds op = true
  lt : holds .lt = true ↔ order = .lt
  eq : holds .eq = true ↔ order = .eq
  gt : holds .gt = true ↔ order = .gt
  le : holds .le = !holds .gt
  ge : holds .ge = !holds .lt
  ne : holds .ne = !holds .eq

/-- Different cells tie only as two numerals for one value. -/
theorem compareCells_eq_eq_iff {a b : String} :
    compareCells a b = .eq ↔ a = b ∨ ∃ value, Writes a value ∧ Writes b value := by
  by_cases integers : (∃ x, Writes a x) ∧ ∃ y, Writes b y
  · obtain ⟨⟨x, writesA⟩, y, writesB⟩ := integers
    rw [compareCells_of_writes writesA writesB, Std.LawfulEqCmp.compare_eq_iff_eq]
    constructor
    · rintro rfl
      exact .inr ⟨x, writesA, writesB⟩
    · rintro (rfl | ⟨value, writesA', writesB'⟩)
      · exact writesA.unique writesB
      · rw [writesA.unique writesA', writesB.unique writesB']
  · rw [compareCells_of_text (by rwa [writesInteger_iff, writesInteger_iff]),
      Std.LawfulEqCmp.compare_eq_iff_eq]
    refine ⟨.inl, ?_⟩
    rintro (same | ⟨value, writesA, writesB⟩)
    · exact same
    -- A tie of two numerals is excluded by the case.
    · exact absurd ⟨⟨value, writesA⟩, value, writesB⟩ integers

/-- A tie between different cells is one between numerals, so that ties never lead from a numeral
to another text. -/
theorem compareCells_eq_trans {a b c : String} (first : compareCells a b = .eq)
    (second : compareCells b c = .eq) : compareCells a c = .eq := by
  rcases compareCells_eq_eq_iff.1 first with rfl | ⟨value, writesA, writesB⟩
  · exact second
  · rcases compareCells_eq_eq_iff.1 second with rfl | ⟨other, writesB', writesC⟩
    · exact first
    · obtain rfl := writesB.unique writesB'
      exact compareCells_eq_eq_iff.2 (.inr ⟨value, writesA, writesC⟩)

theorem decided_holds (order : Ordering) : Decided (Comparator.holds · order) order := by
  have one : ∃! op, op ∈ [Comparator.lt, .eq, .gt] ∧ op.holds order = true := by
    cases order with
    | lt => exact ⟨.lt, by decide, fun op _ => by cases op <;> simp_all [Comparator.holds]⟩
    | eq => exact ⟨.eq, by decide, fun op _ => by cases op <;> simp_all [Comparator.holds]⟩
    | gt => exact ⟨.gt, by decide, fun op _ => by cases op <;> simp_all [Comparator.holds]⟩
  refine ⟨one, beq_iff_eq, beq_iff_eq, beq_iff_eq, ?_, ?_, ?_⟩ <;> cases order <;> rfl

/-- Cells compare coherently, and every operator follows the comparison. -/
theorem compareCells_coherent :
    Coherent compareCells ∧
      ∀ left right, Decided (satisfies · left right) (compareCells left right) := by
  refine ⟨?_, fun left right => decided_holds (compareCells left right)⟩
  refine
    { swap := fun a b => Std.OrientedCmp.eq_swap
      tied := fun a b => compareCells_eq_eq_iff
      tied_trans := fun a b c => compareCells_eq_trans
      numerals := fun a b x y => compareCells_of_writes
      numerals_trans := ?_
      texts := ?_
      texts_trans := ?_ }
  · rintro a b c ⟨x, writesA⟩ ⟨y, writesB⟩ ⟨z, writesC⟩ first second
    rw [compareCells_of_writes writesA writesB] at first
    rw [compareCells_of_writes writesB writesC] at second
    rw [compareCells_of_writes writesA writesC]
    exact Std.TransCmp.isLE_trans first second
  · intro a b text
    rw [compareCells_of_text (by rwa [writesInteger_iff, writesInteger_iff]),
      compareTexts_eq_compare]
  · intro a b c textA textB textC first second
    rw [compareCells_of_text (by simp [writesInteger_iff, textA])] at first ⊢
    rw [compareCells_of_text (by simp [writesInteger_iff, textB])] at second
    exact Std.TransCmp.isLE_trans first second

/-- Numerals for the same value are tied, however they are written, and the least value in range is
before any other; one below it is a text. -/
theorem signedNumerals_coherent :
    (Writes "-0" 0 ∧ Writes "+007" 7 ∧ Writes "-9223372036854775808" (-2 ^ 63) ∧
        ¬∃ value, Writes "-9223372036854775809" value) ∧
      compareCells "-0" "+000" = .eq ∧ compareCells "-9223372036854775808" "+007" = .lt ∧
      compareCells "-9223372036854775809" "-9223372036854775808" = .gt ∧
      satisfies .le "7" "+007" = true := by
  have reads : ∀ {cell value}, integer? cell.toList = some value → Writes cell value :=
    integer?_eq_some_iff.1
  have zero : Writes "-0" 0 := reads (by decide)
  have seven : Writes "+007" 7 := reads (by decide)
  have least : Writes "-9223372036854775808" (-2 ^ 63) := reads (by decide)
  have below : ¬∃ value, Writes "-9223372036854775809" value := by
    rw [← writesInteger_iff]
    decide
  obtain ⟨coherent, decided⟩ := compareCells_coherent
  refine ⟨⟨zero, seven, least, below⟩, ?_, ?_, ?_, ?_⟩
  · exact (coherent.tied _ _).2 (.inr ⟨0, zero, reads (by decide)⟩)
  · exact coherent.numerals _ _ _ _ least seven
  · exact coherent.texts _ _ fun both => below both.1
  · rw [(decided _ _).le, Bool.not_eq_true', Bool.eq_false_iff, ne_eq, (decided _ _).gt,
      coherent.numerals _ _ 7 7 (reads (by decide)) seven]
    decide

end TableQuery.Answer
