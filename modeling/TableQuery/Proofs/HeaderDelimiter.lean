import TableQuery.Proofs.Cells
import TableQuery.Proofs.TableShape

/-!
# The header and its delimiter

The delimiter is looked for on the first line, and the header is the first record. These are the
same characters as long as the line holds nothing but that record. A lone carriage return ends a
record and no line, so that rows behind it are looked at too; and a line of a byte order mark alone
stands in front of a header that is then not looked at. `HeaderDecides` says when this makes no
difference, and it is exactly then that the delimiter is the one of the header
(`delimiter_eq_detect_header_iff`).
-/

namespace TableQuery

open TableQuery.Text

/-! ## Delimiters on the first line -/

/-- The first line has no line feed in it, and may lack a carriage return at its end. -/
theorem count_headD_lines {c : Char} (other : c ≠ '\r') (cs : List Char) :
    ((lines cs).headD []).count c = (cs.takeWhile (· != '\n')).count c := by
  fun_induction lines cs with
  | case1 => rfl
  | case2 rest _ => rfl
  | case3 rest _ => simp [other.symm]
  | case4 d rest feed _ none ih =>
    rw [List.takeWhile_cons_of_pos (by simpa using feed), List.count_cons, ← ih, none]
    simp [List.count_cons]
  | case5 d rest feed _ line more some ih =>
    rw [List.takeWhile_cons_of_pos (by simpa using feed), List.count_cons, ← ih, some,
      List.headD_cons, List.headD_cons, List.count_cons]

/-- Only the numbers of the two signs count. -/
theorem detect_congr {left right : List Char}
    (same : ∀ delimiter : Delimiter, left.count delimiter.char = right.count delimiter.char) :
    Delimiter.detect left = Delimiter.detect right := by
  have comma : left.count ',' = right.count ',' := same .comma
  have semicolon : left.count ';' = right.count ';' := same .semicolon
  rw [Delimiter.detect, Delimiter.detect, comma, semicolon]

theorem detect_headD_lines (cs : List Char) :
    Delimiter.detect ((lines cs).headD []) = Delimiter.detect (cs.takeWhile (· != '\n')) :=
  detect_congr fun delimiter => count_headD_lines (by cases delimiter <;> decide) cs

theorem detect_append {front : List Char} (free : ∀ delimiter : Delimiter, delimiter.char ∉ front)
    (line : List Char) : Delimiter.detect (front ++ line) = Delimiter.detect line :=
  detect_congr fun delimiter => by
    rw [List.count_append, List.count_eq_zero_of_not_mem (free delimiter), Nat.zero_add]

/-- Ends of records hold no delimiter. -/
theorem delimiter_notMem {cs : List Char} (terminators : Gap cs)
    (delimiter : Delimiter) : delimiter.char ∉ cs := by
  intro member
  have ordinary := isTerminator_delimiter delimiter
  rw [terminators _ member] at ordinary
  cases ordinary

/-! ## The header on the first line -/

theorem text_of_split {line : Nat} {cs : List Char} {header : Record} {records : List Record}
    (split : Record.split line cs = header :: records) :
    header.text = (cs.dropWhile isTerminator).takeWhile (!isTerminator ·) := by
  rw [Record.split] at split
  split at split
  · cases split
  · next first more found =>
    have head := unbroken_run found first (by simp)
    rw [found, List.takeWhile_cons_of_pos (by simp [head]), ← (List.cons.inj split).1]

/-- What stands behind the first record on its line. -/
def besideHeader (cs : List Char) : List Char :=
  ((cs.dropWhile isTerminator).dropWhile (!isTerminator ·)).takeWhile (· != '\n')

/-- If a line feed stands in front of the first record, no delimiter stands on the first line. -/
theorem detect_firstLine {line : Nat} {cs : List Char} {header : Record} {records : List Record}
    (split : Record.split line cs = header :: records) :
    Delimiter.detect (cs.takeWhile (· != '\n')) =
      if '\n' ∈ cs.takeWhile isTerminator then .comma
      else Delimiter.detect (header.text ++ besideHeader cs) := by
  have terminators : Gap (cs.takeWhile isTerminator) := fun c member =>
    List.all_eq_true.1 List.all_takeWhile c member
  have whole : cs.takeWhile isTerminator ++ cs.dropWhile isTerminator = cs :=
    List.takeWhile_append_dropWhile
  split
  · next found =>
    obtain ⟨front, back, gap, fresh⟩ := List.eq_append_cons_of_mem found
    have line : cs.takeWhile (· != '\n') = front ++ [] := by
      rw [← whole, gap, List.append_assoc, List.takeWhile_append_of_pos]
      · rfl
      · intro c member
        simpa using ne_of_mem_of_not_mem member fresh
    have free := delimiter_notMem fun c member =>
      terminators c (gap ▸ List.mem_append_left _ member)
    rw [line, detect_append free]
    rfl
  · next absent =>
    have record : header.text ++ (cs.dropWhile isTerminator).dropWhile (!isTerminator ·) =
        cs.dropWhile isTerminator := by
      rw [text_of_split split, List.takeWhile_append_dropWhile]
    have unbroken : Unbroken header.text :=
      unbroken_of_mem_split (split ▸ List.mem_cons_self)
    have line : cs.takeWhile (· != '\n') =
        cs.takeWhile isTerminator ++ (header.text ++ besideHeader cs) := by
      conv_lhs => rw [← whole, ← record]
      rw [List.takeWhile_append_of_pos, List.takeWhile_append_of_pos, besideHeader]
      · intro c member
        have ordinary := unbroken c member
        have other : c ≠ '\n' := by
          rintro rfl
          cases ordinary
        simpa using other
      · intro c member
        simpa using ne_of_mem_of_not_mem member absent
    rw [line, detect_append (delimiter_notMem terminators)]

/-- The delimiter of the header is that of all that stands on the first line with it, or, if there
is a line feed in front of it, the one that is taken where none is seen. -/
def HeaderDecides (cs header : List Char) : Prop :=
  if '\n' ∈ cs.takeWhile isTerminator then Delimiter.detect header = .comma
  else Delimiter.detect header = Delimiter.detect (header ++ besideHeader cs)

instance (cs header : List Char) : Decidable (HeaderDecides cs header) :=
  inferInstanceAs (Decidable (ite ..))

/-! ## Decoded texts -/

/-- The delimiter is chosen on all that stands in front of the first line feed. -/
theorem delimiter_eq_detect {text : String} {decoding : Decoding}
    (decoded : Decoding.ofText text = .ok decoding) :
    decoding.delimiter = Delimiter.detect ((withoutMark text.toList).takeWhile (· != '\n')) := by
  obtain ⟨_, _, _, read⟩ := ofText_eq_ok_iff.1 decoded
  rw [read.delimiter, detect_trim, toList_headD_linesOf, detect_headD_lines]
  generalize text.toList = cs
  fun_cases withoutMark cs with
  | case1 cs => exact @detect_append ['\uFEFF'] (by rintro (_ | _) <;> decide) _
  | case2 cs _ => rfl

/-- What stands beside the header on its line may have a say, and nothing else. -/
theorem delimiter_iff_headerDecides {text : String} {decoding : Decoding} {header : Record}
    {records : List Record} (decoded : Decoding.ofText text = .ok decoding)
    (split : Record.ofText text = header :: records) :
    decoding.delimiter = Delimiter.detect header.text ↔
      HeaderDecides (withoutMark text.toList) header.text := by
  rw [ofText_eq_split] at split
  rw [delimiter_eq_detect decoded, detect_firstLine split, HeaderDecides]
  split <;> exact eq_comm

/-- Where no carriage return stands alone, nothing stands on the line of a record but it. -/
theorem isTerminator_of_mem_besideHeader {cs : List Char} (paired : Paired cs) :
    ∀ c ∈ besideHeader cs, isTerminator c = true := by
  unfold besideHeader
  have suffix : (cs.dropWhile isTerminator).dropWhile (!isTerminator ·) <:+ cs :=
    (List.dropWhile_suffix _).trans (List.dropWhile_suffix _)
  have head := List.head?_dropWhile_not (!isTerminator ·) (cs.dropWhile isTerminator)
  generalize (cs.dropWhile isTerminator).dropWhile (!isTerminator ·) = behind at *
  obtain ⟨front, rfl⟩ := suffix
  cases behind with
  | nil => simp
  | cons t rest =>
    have terminator : isTerminator t = true := by simpa using head
    rcases terminator_cases (paired_append paired) terminator with rfl | ⟨rfl, rest, rfl⟩
    · simp
    · simp [isTerminator]

/-- In a text without a mark and without lone carriage returns the header decides. -/
theorem headerDecides_of_paired {text : String} {decoding : Decoding} {header : Record}
    (decoded : Decoding.ofText text = .ok decoding)
    (unmarked : text.toList.head? ≠ some '\uFEFF') (paired : Paired text.toList) :
    HeaderDecides (withoutMark text.toList) header.text := by
  obtain ⟨_, _, _, read⟩ := ofText_eq_ok_iff.1 decoded
  have visible := read.visible
  rw [toList_headD_linesOf] at visible
  rw [withoutMark_of_unmarked unmarked, HeaderDecides, if_neg]
  · refine detect_congr fun delimiter => ?_
    rw [List.count_append, List.count_eq_zero_of_not_mem
      (delimiter_notMem (isTerminator_of_mem_besideHeader paired) delimiter), Nat.add_zero]
  · generalize text.toList = cs at *
    cases cs with
    | nil => simp
    | cons c cs =>
      by_cases terminator : isTerminator c = true
      · rcases terminator_cases paired terminator with rfl | ⟨rfl, rest, rfl⟩
        · exact absurd rfl visible
        · exact absurd rfl visible
      · simp [terminator]

/-- The delimiter of a decoded text is the one of its header just when the header decides. So two
texts with the same header have the same delimiter just when it decides in both or in neither; and
in a text without a byte order mark and without a lone carriage return it does. -/
theorem delimiter_eq_detect_header_iff {text : String} {decoding : Decoding} {header : Record}
    {records : List Record} (decoded : Decoding.ofText text = .ok decoding)
    (split : Record.ofText text = header :: records) :
    (decoding.delimiter = Delimiter.detect header.text ↔
      HeaderDecides (withoutMark text.toList) header.text) ∧
    (text.toList.head? ≠ some '\uFEFF' → Paired text.toList →
      decoding.delimiter = Delimiter.detect header.text) ∧
    ∀ text' decoding' header' records', Decoding.ofText text' = .ok decoding' →
      Record.ofText text' = header' :: records' → header'.text = header.text →
      (decoding'.delimiter = decoding.delimiter ↔
        (HeaderDecides (withoutMark text'.toList) header'.text ↔
          HeaderDecides (withoutMark text.toList) header.text)) := by
  have decides := delimiter_iff_headerDecides decoded split
  refine ⟨decides, fun unmarked paired => ?_, ?_⟩
  · exact decides.2 (headerDecides_of_paired decoded unmarked paired)
  · intro text' decoding' header' records' decoded' split' same
    rw [← decides, ← delimiter_iff_headerDecides decoded' split', same]
    cases decoding.delimiter <;> cases decoding'.delimiter <;>
      cases Delimiter.detect header.text <;> decide

/-- A row behind a lone carriage return, with as many semicolons as the header has. -/
def returnedText : String :=
  "a;b\rc;d\ne;f,g"

def plainText : String :=
  "a;b\r\n1;2"

/-- What stands beside a header need not change the choice. -/
theorem returnedText_header_decides :
    Decoding.ofText returnedText = .ok ⟨.semicolon, ⟨["a", "b"], [["c", "d"], ["e", "f,g"]]⟩⟩ ∧
    HeaderDecides returnedText.toList "a;b".toList ∧
    Delimiter.semicolon = Delimiter.detect "a;b".toList ∧
    Decoding.ofText plainText = .ok ⟨.semicolon, ⟨["a", "b"], [["1", "2"]]⟩⟩ ∧
    HeaderDecides plainText.toList "a;b".toList := by
  have decoded : Decoding.ofText returnedText =
      .ok ⟨.semicolon, ⟨["a", "b"], [["c", "d"], ["e", "f,g"]]⟩⟩ := by decide +kernel
  have split : Record.ofText returnedText =
      ⟨1, "a;b".toList⟩ :: [⟨1, "c;d".toList⟩, ⟨2, "e;f,g".toList⟩] := by decide +kernel
  have plainDecoded : Decoding.ofText plainText = .ok ⟨.semicolon, ⟨["a", "b"], [["1", "2"]]⟩⟩ := by
    decide +kernel
  have plainSplit : Record.ofText plainText = ⟨1, "a;b".toList⟩ :: [⟨1, "1;2".toList⟩] := by
    decide +kernel
  obtain ⟨returned, _, together⟩ := delimiter_eq_detect_header_iff decoded split
  obtain ⟨plain, paired, _⟩ := delimiter_eq_detect_header_iff plainDecoded plainSplit
  have decides := plain.1 (paired (by decide) (by decide))
  have decides' := (together _ _ _ _ plainDecoded plainSplit rfl).1 rfl |>.1 decides
  exact ⟨decoded, decides', returned.2 decides', plainDecoded, decides⟩

/-- The header has as many commas as semicolons. With the row behind the lone carriage return there
are more semicolons, and without it there are not. -/
theorem detect_overruled :
    Decoding.ofText "a;b,c\rd;e" = .ok ⟨.semicolon, ⟨["a", "b,c"], [["d", "e"]]⟩⟩ ∧
    Record.ofText "a;b,c\rd;e" = [⟨1, "a;b,c".toList⟩, ⟨1, "d;e".toList⟩] ∧
    Decoding.ofText "a;b,c" = .ok ⟨.comma, ⟨["a;b", "c"], []⟩⟩ ∧
    Record.ofText "a;b,c" = [⟨1, "a;b,c".toList⟩] ∧
    ¬∀ text decoding header records, Decoding.ofText text = .ok decoding →
      Record.ofText text = header :: records →
      decoding.delimiter = Delimiter.detect header.text := by
  have decoded : Decoding.ofText "a;b,c\rd;e" =
      .ok ⟨.semicolon, ⟨["a", "b,c"], [["d", "e"]]⟩⟩ := by decide +kernel
  have split : Record.ofText "a;b,c\rd;e" = [⟨1, "a;b,c".toList⟩, ⟨1, "d;e".toList⟩] := by
    decide +kernel
  refine ⟨decoded, split, by decide +kernel, by decide +kernel, fun always => ?_⟩
  exact absurd (always _ _ _ _ decoded split) (by decide)

/-- The header has more semicolons than commas, but the first line is a byte order mark alone. -/
example : Decoding.ofText "\uFEFF\na;b\nc;d" = .ok ⟨.comma, ⟨["a;b"], [["c;d"]]⟩⟩ := by
  decide +kernel

end TableQuery
