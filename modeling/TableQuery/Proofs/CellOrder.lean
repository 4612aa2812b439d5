import Mathlib.Order.Compare
import TableQuery.Answer.Rows

/-!
# The order of cells

Turned round, a comparison of cells turns its answer round. It is no total order, since it takes
integers by their value and texts by their characters; but where all cells write integers it is the
order of these (`compareCells_of_integers`), and where none does it is the order of the texts
(`compareCells_of_text`).
-/

namespace TableQuery.Text

/-- The laws of an order are taken over from the order of lists by their entries. -/
theorem compareChars_eq_compareLex :
    compareChars = List.compareLex (compareOn Char.toNat) := by
  funext left right
  induction left generalizing right with
  | nil => cases right <;> rfl
  | cons a left ih =>
    cases right with
    | nil => rfl
    | cons b right =>
      rw [compareChars, List.compareLex_cons_cons, ih]
      rfl

instance : Std.TransCmp compareChars := by
  rw [compareChars_eq_compareLex]
  infer_instance

instance : Std.LawfulEqCmp compareChars where
  eq_of_compare {left right} equal := by
    fun_induction compareChars left right with
    | case1 => rfl
    | case2 => cases equal
    | case3 => cases equal
    | case4 a left b right ih =>
      obtain ⟨same, behind⟩ := Ordering.then_eq_eq.1 equal
      rw [Char.toNat_inj.1 (Std.LawfulEqOrd.eq_of_compare same), ih behind]

end TableQuery.Text

namespace TableQuery.Answer

open TableQuery.Text

/-- The cell writes an integer of 64 bits. -/
def writesInteger (cell : String) : Bool :=
  (integer? cell.toList).isSome

def compareIntegers : String → String → Ordering :=
  compareOn fun cell => (integer? cell.toList).getD 0

def compareTexts (left right : String) : Ordering :=
  compareChars left.toList right.toList

instance : Std.TransCmp compareIntegers :=
  inferInstanceAs (Std.TransCmp (compareOn _))

instance : Std.TransCmp compareTexts where
  eq_swap {a b} := @Std.OrientedCmp.eq_swap _ compareChars _ a.toList b.toList
  isLE_trans {a b c} := @Std.TransCmp.isLE_trans _ compareChars _ a.toList b.toList c.toList

instance : Std.LawfulEqCmp compareTexts where
  eq_of_compare {a b} equal :=
    String.toList_inj.1 (@Std.LawfulEqCmp.eq_of_compare _ compareChars _ a.toList b.toList equal)

theorem compareCells_of_integers {left right : String} (first : writesInteger left)
    (second : writesInteger right) : compareCells left right = compareIntegers left right := by
  obtain ⟨a, left'⟩ := Option.isSome_iff_exists.1 first
  obtain ⟨b, right'⟩ := Option.isSome_iff_exists.1 second
  simp only [compareCells, compareIntegers, compareOn, left', right', Option.getD_some]

/-- As soon as one of the two is no integer, both are texts. -/
theorem compareCells_of_text {left right : String}
    (text : ¬(writesInteger left ∧ writesInteger right)) :
    compareCells left right = compareTexts left right := by
  unfold compareCells compareTexts
  split
  · next a b left' right' => exact absurd (by simp [writesInteger, left', right']) text
  · rfl

/-- Which of the two orders is taken is decided by both cells alike. -/
instance : Std.OrientedCmp compareCells where
  eq_swap {left right} := by
    by_cases integers : writesInteger left ∧ writesInteger right
    · rw [compareCells_of_integers integers.1 integers.2,
        compareCells_of_integers integers.2 integers.1]
      exact Std.OrientedCmp.eq_swap
    · rw [compareCells_of_text integers, compareCells_of_text (mt And.symm integers)]
      exact Std.OrientedCmp.eq_swap

end TableQuery.Answer
