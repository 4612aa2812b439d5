/-!
Characters and texts: what is blank, what a text starts and ends with, how wide it is in bytes,
where it stands among others, and which number it writes.
-/

namespace TableQuery.Text

/-! ## Blank characters and trimming

The blank characters are those with the Unicode property White_Space. The zero-width space and the
byte order mark do not have it, and neither do the information separators U+001C to U+001F.
-/

/-- The ranges of White_Space, ends included, in ascending order. -/
def blankRanges : List (Nat × Nat) :=
  [(0x09, 0x0D), (0x20, 0x20), (0x85, 0x85), (0xA0, 0xA0), (0x1680, 0x1680), (0x2000, 0x200A),
    (0x2028, 0x2029), (0x202F, 0x202F), (0x205F, 0x205F), (0x3000, 0x3000)]

def isBlank (c : Char) : Bool :=
  blankRanges.any fun (first, last) => first ≤ c.toNat && c.toNat ≤ last

def trimStart (cs : List Char) : List Char :=
  cs.dropWhile isBlank

def trimEnd (cs : List Char) : List Char :=
  (cs.reverse.dropWhile isBlank).reverse

def trim (cs : List Char) : List Char :=
  trimEnd (trimStart cs)

def allBlank (cs : List Char) : Bool :=
  cs.all isBlank

/-! ## Taking off what a text starts or ends with

Both are partial inverses of appending: something is taken off exactly where it stands.
-/

/-- What follows the start, if the characters start so. -/
def dropStart? (start cs : List Char) : Option (List Char) :=
  if start.isPrefixOf cs then some (cs.drop start.length) else none

/-- What stands in front of the ending, if the characters end so. -/
def dropEnd? (ending cs : List Char) : Option (List Char) :=
  (dropStart? ending.reverse cs.reverse).map List.reverse

/-- What is left is what stands behind the start. -/
theorem dropStart?_eq_some_iff {start cs rest : List Char} :
    dropStart? start cs = some rest ↔ cs = start ++ rest := by
  unfold dropStart?
  constructor
  · intro h
    split at h
    · next hp =>
      obtain ⟨more, rfl⟩ := List.isPrefixOf_iff_prefix.1 hp
      simp_all
    · simp at h
  · rintro rfl
    simp

/-! ## Width in UTF-8 bytes

Positions in a query are counted in these bytes, so that a position is the offset of a character in
the stored text.
-/

/-- The number of bytes that the characters take in UTF-8. -/
def width : List Char → Nat
  | [] => 0
  | c :: rest => c.utf8Size + width rest

@[simp]
theorem width_append (xs ys : List Char) : width (xs ++ ys) = width xs + width ys := by
  induction xs with
  | nil => simp [width]
  | cons c rest ih => simp [width, ih, Nat.add_assoc]

theorem width_pos {cs : List Char} (nonempty : cs ≠ []) : 0 < width cs := by
  obtain ⟨c, more, rfl⟩ := List.exists_cons_of_ne_nil nonempty
  have byte := Char.utf8Size_pos c
  simp only [width]
  omega

/-- It is the size of the stored text. -/
theorem utf8ByteSize_ofList (cs : List Char) : (String.ofList cs).utf8ByteSize = width cs := by
  induction cs with
  | nil => rfl
  | cons c cs ih =>
    rw [String.ofList_cons, String.utf8ByteSize_append, String.utf8ByteSize_singleton, ih, width]

/-! ## The order by code points

It is also the order of the UTF-8 bytes.
-/

/-- The order at the first place where the texts differ; a text comes behind its own beginnings. -/
def compareChars : List Char → List Char → Ordering
  | [], [] => .eq
  | [], _ :: _ => .lt
  | _ :: _, [] => .gt
  | a :: as, b :: bs => (compare a.toNat b.toNat).then (compareChars as bs)

/-! ## 64-bit numbers written in decimal

A count is one or more ASCII digits, an integer has one optional sign in front of them, and nothing
else stands before, between or after; leading zeros are allowed. A value that does not fit in 64
bits is no number here.
-/

/-- The value of a non-empty run of ASCII digits. -/
def natural? (cs : List Char) : Option Nat :=
  if !cs.isEmpty && cs.all Char.isDigit then
    some (cs.foldl (fun value c => value * 10 + (c.toNat - '0'.toNat)) 0)
  else
    none

/-- The count that the characters write, if they write one. -/
def count? (cs : List Char) : Option Nat := do
  let value ← natural? cs
  if value < UInt64.size then some value else none

/-- The integer that the characters write, if they write one. -/
def integer? (cs : List Char) : Option Int :=
  match cs with
  | '-' :: digits => do
    let value ← natural? digits
    if value ≤ Int64.size / 2 then some (-(value : Int)) else none
  | '+' :: digits => do
    let value ← natural? digits
    if value < Int64.size / 2 then some (value : Int) else none
  | digits => do
    let value ← natural? digits
    if value < Int64.size / 2 then some (value : Int) else none

end TableQuery.Text
