import Mathlib.Algebra.Group.Nat.Defs
import TableQuery.Proofs.CellOrder

/-!
# The order of bytes

Texts are in the order of their UTF-8 bytes exactly when they are in the order of their code points
(`compareChars_eq_compare_bytes`). The first byte of a character tells how many bytes there are, and
it is greater for more of them; the bytes behind it hold six bits each, the highest first.
-/

namespace TableQuery.Text

def bytes (text : String) : List UInt8 :=
  text.toUTF8.data.toList

/-- The encoding goes character by character. -/
theorem bytes_eq (text : String) : bytes text = text.toList.flatMap String.utf8EncodeChar := by
  have whole : text.toByteArray = text.toList.utf8Encode := by
    rw [← String.toByteArray_ofList, String.ofList_toList]
  rw [bytes, String.toUTF8_eq_toByteArray, whole, List.utf8Encode, List.data_toByteArray]

/-! ## One character -/

/-- The bytes behind the first one of a character, with six bits of its code in each. -/
def continuation (code : Nat) : Nat → List UInt8
  | 0 => []
  | count + 1 => UInt8.ofNat (code / 64 ^ count % 64 + 128) :: continuation code count

/-- What the first byte adds to the highest bits of a code that takes so many more bytes. -/
inductive Leads (code : Nat) : (mark count : Nat) → Prop
  | one (most : code < 0x80) : Leads code 0 0
  | two (least : 0x80 ≤ code) (most : code < 0x800) : Leads code 0xC0 1
  | three (least : 0x800 ≤ code) (most : code < 0x10000) : Leads code 0xE0 2
  | four (least : 0x10000 ≤ code) (most : code < 0x110000) : Leads code 0xF0 3

/-- One shape for the four lengths of an encoded character. -/
theorem utf8EncodeChar_eq (c : Char) : ∃ mark count, Leads c.toNat mark count ∧
    String.utf8EncodeChar c =
      UInt8.ofNat (c.toNat / 64 ^ count + mark) :: continuation c.toNat count := by
  have bound : c.toNat < 0x110000 := by
    have valid : c.toNat < 0xD800 ∨ 0xDFFF < c.toNat ∧ c.toNat < 0x110000 := c.valid
    omega
  have code : c.val.toNat = c.toNat := rfl
  have small : ∀ {value width : Nat}, value < width → value % width = value := Nat.mod_eq_of_lt
  simp only [String.utf8EncodeChar, code]
  split_ifs with one two three
  · refine ⟨0, 0, .one (by omega), ?_⟩
    simp [continuation]
  · refine ⟨0xC0, 1, .two (by omega) (by omega), ?_⟩
    simp [continuation, small (show c.toNat / 64 < 32 by omega)]
  · refine ⟨0xE0, 2, .three (by omega) (by omega), ?_⟩
    simp [continuation, small (show c.toNat / 4096 < 16 by omega)]
  · refine ⟨0xF0, 3, .four (by omega) bound, ?_⟩
    simp [continuation, small (show c.toNat / 262144 < 8 by omega)]

theorem Leads.small {code mark count : Nat} (leads : Leads code mark count) :
    code / 64 ^ count + mark < 256 := by
  cases leads <;> omega

/-- The greater of two codes has the greater first byte, unless it has the same. -/
theorem Leads.lt {m n mark mark' count count' : Nat} (left : Leads m mark count)
    (right : Leads n mark' count') (less : m < n) :
    m / 64 ^ count + mark < n / 64 ^ count' + mark' ∨
      count = count' ∧ mark = mark' ∧ m / 64 ^ count = n / 64 ^ count := by
  cases left <;> cases right <;> omega

theorem compare_cons (x y : UInt8) (xs ys : List UInt8) :
    compare (x :: xs) (y :: ys) = (compare x y).then (compare xs ys) :=
  List.compareLex_cons_cons

theorem compare_ofNat {m n : Nat} (left : m < 256) (right : n < 256) :
    compare (UInt8.ofNat m) (UInt8.ofNat n) = compare m n := by
  simp only [compare, compareOfLessAndEq, UInt8.lt_iff_toNat_lt, ← UInt8.toNat_inj,
    UInt8.toNat_ofNat', Nat.mod_eq_of_lt left, Nat.mod_eq_of_lt right]

/-- Codes that do not differ in front of the bytes differ in the bytes. -/
theorem compare_continuation {m n count : Nat} (less : m < n)
    (front : m / 64 ^ count = n / 64 ^ count) (left right : List UInt8) :
    compare (continuation m count ++ left) (continuation n count ++ right) = .lt := by
  induction count with
  | zero =>
    rw [Nat.pow_zero, Nat.div_one, Nat.div_one] at front
    omega
  | succ count ih =>
    rw [Nat.pow_succ, ← Nat.div_div_eq_div_mul, ← Nat.div_div_eq_div_mul] at front
    have order : m / 64 ^ count ≤ n / 64 ^ count := Nat.div_le_div_right (Nat.le_of_lt less)
    rw [continuation, continuation, List.cons_append, List.cons_append, compare_cons,
      compare_ofNat (by omega) (by omega), Ordering.then_eq_lt]
    rcases Nat.lt_or_eq_of_le order with first | same
    · exact .inl (Nat.compare_eq_lt.2 (by omega))
    · exact .inr ⟨Nat.compare_eq_eq.2 (by rw [same]), ih same⟩

/-- A smaller character goes first, whatever follows the two. -/
theorem compare_encoded_of_lt {a b : Char} (less : a.toNat < b.toNat) (left right : List UInt8) :
    compare (String.utf8EncodeChar a ++ left) (String.utf8EncodeChar b ++ right) = .lt := by
  obtain ⟨mark, count, leads, encoded⟩ := utf8EncodeChar_eq a
  obtain ⟨mark', count', leads', encoded'⟩ := utf8EncodeChar_eq b
  rw [encoded, encoded', List.cons_append, List.cons_append, compare_cons,
    compare_ofNat leads.small leads'.small, Ordering.then_eq_lt]
  rcases leads.lt leads' less with first | ⟨rfl, rfl, same⟩
  · exact .inl (Nat.compare_eq_lt.2 first)
  · exact .inr ⟨Nat.compare_eq_eq.2 (by rw [same]), compare_continuation less same left right⟩

/-! ## Texts -/

theorem compare_append_left (front left right : List UInt8) :
    compare (front ++ left) (front ++ right) = compare left right := by
  induction front with
  | nil => rfl
  | cons x front ih =>
    rw [List.cons_append, List.cons_append, compare_cons, ih, Std.ReflOrd.compare_self]
    rfl

/-- An order by characters is one by bytes because no encoding is the beginning of another. -/
theorem compareChars_eq_compare_flatMap (left right : List Char) :
    compareChars left right =
      compare (left.flatMap String.utf8EncodeChar) (right.flatMap String.utf8EncodeChar) := by
  fun_induction compareChars left right with
  | case1 => rfl
  | case2 b right =>
    obtain ⟨_, _, _, encoded⟩ := utf8EncodeChar_eq b
    rw [List.flatMap_cons, encoded]
    rfl
  | case3 a left =>
    obtain ⟨_, _, _, encoded⟩ := utf8EncodeChar_eq a
    rw [List.flatMap_cons, encoded]
    rfl
  | case4 a left b right ih =>
    rw [ih, List.flatMap_cons, List.flatMap_cons]
    rcases Nat.lt_trichotomy a.toNat b.toNat with less | same | greater
    · rw [Nat.compare_eq_lt.2 less, compare_encoded_of_lt less]
      rfl
    · rw [Nat.compare_eq_eq.2 same, Char.toNat_inj.1 same, compare_append_left]
      rfl
    · rw [Nat.compare_eq_gt.2 greater, Std.OrientedCmp.gt_of_lt (compare_encoded_of_lt greater _ _)]
      rfl

/-- The order of code points is the order of bytes. -/
theorem compareChars_eq_compare_bytes (left right : String) :
    compareChars left.toList right.toList = compare (bytes left) (bytes right) := by
  rw [bytes_eq, bytes_eq, compareChars_eq_compare_flatMap]

theorem compare_eq_lt_iff (left right : List UInt8) :
    compare left right = .lt ↔ left < right := by
  induction left generalizing right with
  | nil => cases right <;> simp [compare, List.compareLex]
  | cons x left ih =>
    cases right with
    | nil => simp [compare, List.compareLex]
    | cons y right =>
      rw [compare_cons, Ordering.then_eq_lt, ih, List.cons_lt_cons_iff, Std.compare_eq_lt,
        Std.compare_eq_iff_eq]

theorem compareChars_ne_gt_iff (left right : String) :
    compareChars left.toList right.toList ≠ .gt ↔ bytes left ≤ bytes right := by
  have turned : compare (bytes left) (bytes right) = (compare (bytes right) (bytes left)).swap :=
    Std.OrientedOrd.eq_swap
  rw [compareChars_eq_compare_bytes, turned, ← List.not_lt, ← compare_eq_lt_iff,
    ← Ordering.swap_eq_gt]

end TableQuery.Text
