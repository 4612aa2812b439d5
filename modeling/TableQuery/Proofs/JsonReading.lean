import Mathlib.Data.List.Chain
import TableQuery.Json.Layout
import TableQuery.Json.Reader
import TableQuery.Proofs.JsonSpelling

/-!
# Reading back what is written

Characters that spell the symbols of a value one after the other are read as these symbols,
whichever spelling each of them has and however many blanks stand around it (`symbols_of_laid`):
numbers, whose end alone is not marked, never stand side by side (`apart_symbols`). The symbols are
then read as the value they come from (`readValue_symbols`). Both layouts put nothing but blanks
between the symbols of a value (`laid_compact`, `laid_indentedChars`).
-/

namespace TableQuery.Json

/-! ## Symbols -/

theorem symbols_space {c : Char} (space : isSpace c = true) (cs : List Char) :
    symbols (c :: cs) = symbols cs := by
  rw [symbols, if_pos space]

theorem symbols_spelled {symbol : Symbol} {front rest : List Char}
    (spelled : symbol.Spelled front) (ends : symbol.Closed ∨ EndsNumber rest) :
    symbols (front ++ rest) = (symbols rest).map (symbol :: ·) := by
  have read := readSymbol_spelled spelled ends
  obtain ⟨first, more, chars, visible, _⟩ := spelled_eq_cons spelled
  rw [chars, List.cons_append] at read ⊢
  rw [symbols, if_neg (by simp [visible])]
  split
  · next failed =>
    rw [read] at failed
    cases failed
  · next found =>
    rw [read] at found
    cases found
    rw [Option.map_eq_bind]
    rfl

/-- The characters are spellings of the symbols with blanks before, between and behind them. -/
inductive Laid : List Symbol → List Char → Prop
  | nil : Laid [] []
  | space {ss : List Symbol} {c : Char} {cs : List Char} (blank : isSpace c = true)
      (laid : Laid ss cs) : Laid ss (c :: cs)
  | symbol {s : Symbol} {ss : List Symbol} {front cs : List Char} (spelled : s.Spelled front)
      (laid : Laid ss cs) : Laid (s :: ss) (front ++ cs)

/-- Of two symbols that follow each other one is no number, so that they do not run together. -/
def Apart (s t : Symbol) : Prop :=
  s.Closed ∨ t.Closed

/-- A blank does not go on with a number, and neither does a symbol that is none. -/
theorem endsNumber_of_laid {ss : List Symbol} {cs : List Char} (laid : Laid ss cs)
    (closed : ∀ s ∈ ss.head?, s.Closed) : EndsNumber cs := by
  cases laid with
  | nil => exact fun c none => by cases none
  | space blank =>
    rintro c ⟨⟩
    simp only [isSpace, Bool.or_eq_true, decide_eq_true_eq] at blank
    rcases blank with ((rfl | rfl) | rfl) | rfl <;> decide
  | symbol spelled =>
    obtain ⟨first, more, rfl, _, other⟩ := spelled_eq_cons spelled
    rintro c ⟨⟩
    exact other (closed _ rfl)

/-- However the symbols are spelled and spread over lines, they are read back as they are. -/
theorem symbols_of_laid {ss : List Symbol} {cs : List Char} (laid : Laid ss cs)
    (apart : ss.IsChain Apart) : symbols cs = some ss := by
  induction laid with
  | nil => rw [symbols]
  | space blank _ ih => rw [symbols_space blank, ih apart]
  | @symbol s ss front cs spelled laid ih =>
    have ends : s.Closed ∨ EndsNumber cs := by
      by_cases closed : s.Closed
      · exact .inl closed
      · exact .inr (endsNumber_of_laid laid fun t next =>
          ((List.isChain_cons.1 apart).1 t next).resolve_left closed)
    rw [symbols_spelled spelled ends, ih apart.tail, Option.map_some]

theorem Laid.written {s : Symbol} {ss : List Symbol} {cs : List Char} (closed : s.Closed)
    (laid : Laid ss cs) : Laid (s :: ss) (s.written ++ cs) :=
  .symbol (spelled_written closed) laid

theorem Laid.append {ss more : List Symbol} {cs rest : List Char} (front : Laid ss cs)
    (back : Laid more rest) : Laid (ss ++ more) (cs ++ rest) := by
  induction front with
  | nil => exact back
  | space blank _ ih => exact .space blank ih
  | symbol spelled _ ih =>
    rw [List.append_assoc]
    exact .symbol spelled ih

theorem laid_symbol {s : Symbol} (closed : s.Closed) : Laid [s] s.written := by
  have alone := Laid.written closed .nil
  rwa [List.append_nil] at alone

theorem laid_spaces {ss : List Symbol} {blanks cs : List Char}
    (spaces : ∀ c ∈ blanks, isSpace c = true) (laid : Laid ss cs) : Laid ss (blanks ++ cs) := by
  induction blanks with
  | nil => exact laid
  | cons c blanks ih =>
    exact .space (spaces c (by simp)) (ih fun other member => spaces other (by simp [member]))

theorem laid_newline {ss : List Symbol} {cs : List Char} (depth : Nat) (laid : Laid ss cs) :
    Laid ss (Value.newline depth ++ cs) := by
  refine laid_spaces (fun c member => ?_) laid
  rcases List.mem_cons.1 member with rfl | member
  · decide
  · rw [(List.mem_replicate.1 member).2]
    decide

/-! ## Layouts -/

/-- Without numbers, symbols may stand close together. -/
theorem laid_compact {ss : List Symbol} (closed : ∀ s ∈ ss, s.Closed) :
    Laid ss (ss.flatMap Symbol.written) := by
  induction ss with
  | nil => exact .nil
  | cons s ss ih =>
    exact .written (closed s (by simp)) (ih fun other member => closed other (by simp [member]))

namespace Value

def Closed (value : Value) : Prop :=
  ∀ s ∈ value.symbols, s.Closed

theorem closed_elementSymbols {elements : List Value} (closed : ∀ value ∈ elements, value.Closed) :
    ∀ s ∈ elementSymbols elements, s.Closed := by
  induction elements with
  | nil => simp [elementSymbols]
  | cons value more ih =>
    have first := closed value (by simp)
    have rest := ih fun other member => closed other (by simp [member])
    cases more with
    | nil => exact first
    | cons next more =>
      simp only [elementSymbols, List.forall_mem_append, List.forall_mem_cons]
      exact ⟨first, trivial, rest⟩

theorem closed_memberSymbols {members : List (Literal × Value)}
    (closed : ∀ member ∈ members, member.2.Closed) :
    ∀ s ∈ memberSymbols members, s.Closed := by
  induction members with
  | nil => simp [memberSymbols]
  | cons member more ih =>
    obtain ⟨name, value⟩ := member
    have held := closed (name, value) (by simp)
    have rest := ih fun other member => closed other (by simp [member])
    cases more with
    | nil =>
      simp only [memberSymbols, List.forall_mem_cons]
      exact ⟨trivial, trivial, held⟩
    | cons next more =>
      simp only [memberSymbols, List.cons_append, List.forall_mem_append, List.forall_mem_cons]
      exact ⟨trivial, trivial, held, trivial, rest⟩

theorem closed_array {elements : List Value} (closed : ∀ value ∈ elements, value.Closed) :
    (array elements).Closed := by
  simp only [Closed, symbols, List.cons_append, List.forall_mem_cons, List.forall_mem_append]
  exact ⟨trivial, closed_elementSymbols closed, trivial, by simp⟩

theorem closed_object {members : List (Literal × Value)}
    (closed : ∀ member ∈ members, member.2.Closed) : (object members).Closed := by
  simp only [Closed, symbols, List.cons_append, List.forall_mem_cons, List.forall_mem_append]
  exact ⟨trivial, closed_memberSymbols closed, trivial, by simp⟩

theorem closed_text (text : String) : (Value.text text).Closed := by
  simp only [Closed, Value.text, symbols, List.forall_mem_cons]
  exact ⟨trivial, by simp⟩

theorem closed_null : null.Closed := by
  simp [Closed, symbols, Symbol.Closed]

theorem closed_bool (value : Bool) : (bool value).Closed := by
  simp [Closed, symbols, Symbol.Closed]

theorem closed_textOrNull (text? : Option String) : (textOrNull text?).Closed := by
  cases text? with
  | none => exact closed_null
  | some text => exact closed_text text

theorem closed_record {members : List (String × Value)}
    (closed : ∀ member ∈ members, member.2.Closed) : (record members).Closed :=
  closed_object (List.forall_mem_map.2 closed)

mutual

/-- The indented layout spells the same symbols as the compact one. One theorem for values, one for
elements and one for members, as the layout goes. -/
theorem laid_indentedChars (depth : Nat) :
    (value : Value) → value.Closed → Laid value.symbols (value.indentedChars depth)
  | null, _ => laid_symbol trivial
  | bool _, _ => laid_symbol trivial
  | number written, closed => False.elim (closed (.number written) (by simp [symbols]))
  | string _, _ => laid_symbol trivial
  | array [], _ => .written (s := .openArray) trivial (laid_symbol (s := .closeArray) trivial)
  | array (value :: more), closed => by
    have elements := laid_indentedElements (depth + 1) (value :: more) fun s member =>
      closed s (by simp [symbols, member])
    have close := laid_newline depth (laid_symbol (s := .closeArray) trivial)
    have body := elements.append close
    rw [indentedChars, symbols, List.cons_append, List.append_assoc]
    exact .written (s := .openArray) trivial body
  | object [], _ => .written (s := .openObject) trivial (laid_symbol (s := .closeObject) trivial)
  | object (member :: more), closed => by
    have members := laid_indentedMembers (depth + 1) (member :: more) fun s held =>
      closed s (by simp [symbols, held])
    have close := laid_newline depth (laid_symbol (s := .closeObject) trivial)
    have body := members.append close
    rw [indentedChars, symbols, List.cons_append, List.append_assoc]
    exact .written (s := .openObject) trivial body

theorem laid_indentedElements (depth : Nat) :
    (elements : List Value) → (∀ s ∈ elementSymbols elements, s.Closed) →
      Laid (elementSymbols elements) (indentedElements depth elements)
  | [], _ => .nil
  | [value], closed => laid_newline depth (laid_indentedChars depth value closed)
  | value :: next :: more, closed => by
    have first := laid_indentedChars depth value fun s member =>
      closed s (by simp [elementSymbols, member])
    have rest := laid_indentedElements depth (next :: more) fun s member =>
      closed s (by simp [elementSymbols, member])
    have both := (laid_newline depth first).append (.written (s := .comma) trivial rest)
    simpa [elementSymbols, indentedElements, Symbol.written] using both

theorem laid_indentedMembers (depth : Nat) :
    (members : List (Literal × Value)) → (∀ s ∈ memberSymbols members, s.Closed) →
      Laid (memberSymbols members) (indentedMembers depth members)
  | [], _ => .nil
  | [(name, value)], closed => by
    have held := laid_indentedChars depth value fun s member =>
      closed s (by simp [memberSymbols, member])
    have spaced : Laid value.symbols (' ' :: value.indentedChars depth) := .space (by decide) held
    have named := Laid.written (s := .string name) trivial (.written (s := .colon) trivial spaced)
    simpa [memberSymbols, indentedMembers, Symbol.written] using laid_newline depth named
  | (name, value) :: next :: more, closed => by
    have held := laid_indentedChars depth value fun s member =>
      closed s (by simp [memberSymbols, member])
    have rest := laid_indentedMembers depth (next :: more) fun s member =>
      closed s (by simp [memberSymbols, member])
    have spaced : Laid value.symbols (' ' :: value.indentedChars depth) := .space (by decide) held
    have named := Laid.written (s := .string name) trivial (.written (s := .colon) trivial spaced)
    have both := (laid_newline depth named).append (.written (s := .comma) trivial rest)
    simpa [memberSymbols, indentedMembers, Symbol.written] using both

end

/-! ## Values -/

theorem isChain_cons_apart {s : Symbol} {behind : List Symbol} (closed : s.Closed)
    (apart : behind.IsChain Apart) : (s :: behind).IsChain Apart :=
  List.isChain_cons.2 ⟨fun _ _ => .inl closed, apart⟩

theorem isChain_append_apart {s : Symbol} {front behind : List Symbol} (closed : s.Closed)
    (left : front.IsChain Apart) (right : (s :: behind).IsChain Apart) :
    (front ++ s :: behind).IsChain Apart := by
  refine List.isChain_append.2 ⟨left, right, fun _ _ t next => ?_⟩
  obtain rfl := Option.some.inj next
  exact .inr closed

mutual

/-- Numbers in a value have a comma, a colon or a bracket between them. -/
theorem apart_symbols : (value : Value) → value.symbols.IsChain Apart
  | null | bool _ | number _ | string _ => .singleton _
  | array elements => by
    have closing := isChain_append_apart (s := .closeArray) trivial
      (apart_elementSymbols elements) (.singleton _)
    exact isChain_cons_apart (s := .openArray) trivial closing
  | object members => by
    have closing := isChain_append_apart (s := .closeObject) trivial
      (apart_memberSymbols members) (.singleton _)
    exact isChain_cons_apart (s := .openObject) trivial closing

theorem apart_elementSymbols :
    (elements : List Value) → (elementSymbols elements).IsChain Apart
  | [] => .nil
  | [value] => apart_symbols value
  | value :: next :: more => by
    have rest := isChain_cons_apart (s := .comma) trivial (apart_elementSymbols (next :: more))
    exact isChain_append_apart trivial (apart_symbols value) rest

theorem apart_memberSymbols :
    (members : List (Literal × Value)) → (memberSymbols members).IsChain Apart
  | [] => .nil
  | [(name, value)] => by
    have held := isChain_cons_apart (s := .colon) trivial (apart_symbols value)
    exact isChain_cons_apart (s := .string name) trivial held
  | (name, value) :: next :: more => by
    have rest := isChain_cons_apart (s := .comma) trivial (apart_memberSymbols (next :: more))
    have behind := isChain_append_apart (s := .comma) trivial (apart_symbols value) rest
    have held := isChain_cons_apart (s := .colon) trivial behind
    exact isChain_cons_apart (s := .string name) trivial held

end

/-- No value starts with a closing bracket. -/
theorem symbols_eq_cons (value : Value) :
    ∃ first more, value.symbols = first :: more ∧ first ≠ .closeArray := by
  cases value <;> exact ⟨_, _, rfl, by simp⟩

/-- So a bracket with elements behind it is not taken for an empty array. -/
theorem elementSymbols_eq_cons (value : Value) (more : List Value) :
    ∃ first rest, elementSymbols (value :: more) = first :: rest ∧ first ≠ .closeArray := by
  obtain ⟨first, rest, starts, other⟩ := symbols_eq_cons value
  cases more with
  | nil => exact ⟨first, rest, by rw [elementSymbols, starts], other⟩
  | cons next more =>
    exact ⟨first, rest ++ .comma :: elementSymbols (next :: more),
      by simp [elementSymbols, starts], other⟩

theorem memberSymbols_eq_cons (member : Literal × Value) (more : List (Literal × Value)) :
    ∃ name rest, memberSymbols (member :: more) = .string name :: rest := by
  cases more with
  | nil => exact ⟨member.1, _, rfl⟩
  | cons next more => exact ⟨member.1, _, rfl⟩

end Value

open Value (elementSymbols memberSymbols elementSymbols_eq_cons memberSymbols_eq_cons)

theorem readValue_openObject (count : Nat) (name : Literal) (rest : List Symbol) :
    readValue (count + 1) (.openObject :: .string name :: rest) =
      (readMembers count (.string name :: rest)).map fun found => (.object found.1, found.2) := by
  rw [readValue, Option.map_eq_bind]
  · rfl
  · rintro more ⟨⟩

theorem readValue_openArray (count : Nat) {first : Symbol} (other : first ≠ .closeArray)
    (rest : List Symbol) :
    readValue (count + 1) (.openArray :: first :: rest) =
      (readElements count (first :: rest)).map fun found => (.array found.1, found.2) := by
  rw [readValue, Option.map_eq_bind]
  · rfl
  · rintro more ⟨⟩
    exact other rfl

mutual

/-- What follows a value stays, and twice as many calls as it has symbols are enough. -/
theorem readValue_symbols :
    (value : Value) → (count : Nat) → 2 * value.symbols.length ≤ count → (rest : List Symbol) →
      readValue count (value.symbols ++ rest) = some (value, rest)
  | .null, count + 1, _, _ | .bool _, count + 1, _, _ | .number _, count + 1, _, _
  | .string _, count + 1, _, _ | .array [], count + 1, _, _ | .object [], count + 1, _, _ => rfl
  | .array (value :: more), count + 1, enough, rest => by
    -- One call is spent on the array itself, and its two brackets pay for more than that.
    have fits : 2 * (elementSymbols (value :: more)).length + 1 ≤ count := by
      simp only [Value.symbols, List.length_append, List.length_cons, List.length_nil] at enough
      omega
    have elements := readElements_symbols (value :: more) count fits (by simp) rest
    obtain ⟨first, behind, starts, other⟩ := elementSymbols_eq_cons value more
    rw [Value.symbols, List.cons_append, List.cons_append, List.append_assoc, List.singleton_append]
    rw [starts, List.cons_append] at elements ⊢
    rw [readValue_openArray count other, elements]
    rfl
  | .object (member :: more), count + 1, enough, rest => by
    have fits : 2 * (memberSymbols (member :: more)).length + 1 ≤ count := by
      simp only [Value.symbols, List.length_append, List.length_cons, List.length_nil] at enough
      omega
    have members := readMembers_symbols (member :: more) count fits (by simp) rest
    obtain ⟨name, behind, starts⟩ := memberSymbols_eq_cons member more
    rw [Value.symbols, List.cons_append, List.cons_append, List.append_assoc, List.singleton_append]
    rw [starts, List.cons_append] at members ⊢
    rw [readValue_openObject, members]
    rfl
  | .null, 0, enough, _ | .bool _, 0, enough, _ | .number _, 0, enough, _ | .string _, 0, enough, _
  | .array [], 0, enough, _ | .array (_ :: _), 0, enough, _
  | .object [], 0, enough, _ | .object (_ :: _), 0, enough, _ => by simp [Value.symbols] at enough

theorem readElements_symbols :
    (elements : List Value) → (count : Nat) → 2 * (elementSymbols elements).length + 1 ≤ count →
      elements ≠ [] → (rest : List Symbol) →
      readElements count (elementSymbols elements ++ .closeArray :: rest) = some (elements, rest)
  | [], _, _, nonempty, _ => absurd rfl nonempty
  | [value], count + 1, enough, _, rest => by
    have fits : 2 * value.symbols.length ≤ count := by
      simpa [elementSymbols] using enough
    rw [elementSymbols, readElements, readValue_symbols value count fits]
  | value :: next :: more, count + 1, enough, _, rest => by
    simp only [elementSymbols, List.length_append, List.length_cons] at enough
    have first := readValue_symbols value count (by omega)
    have others := readElements_symbols (next :: more) count (by omega) (by simp) rest
    rw [elementSymbols, List.append_assoc, List.cons_append, readElements, first]
    · simp only [others]
      rfl
    · simp

theorem readMembers_symbols :
    (members : List (Literal × Value)) → (count : Nat) →
      2 * (memberSymbols members).length + 1 ≤ count → members ≠ [] → (rest : List Symbol) →
      readMembers count (memberSymbols members ++ .closeObject :: rest) = some (members, rest)
  | [], _, _, nonempty, _ => absurd rfl nonempty
  | [(name, value)], count + 1, enough, _, rest => by
    simp only [memberSymbols, List.length_cons] at enough
    have held := readValue_symbols value count (by omega)
    rw [memberSymbols, List.cons_append, List.cons_append, readMembers, held]
  | (name, value) :: next :: more, count + 1, enough, _, rest => by
    simp only [memberSymbols, List.length_append, List.length_cons] at enough
    have held := readValue_symbols value count (by omega)
    have others := readMembers_symbols (next :: more) count (by omega) (by simp) rest
    rw [memberSymbols, List.cons_append, List.cons_append, List.cons_append, List.cons_append,
      List.append_assoc, List.cons_append, readMembers, held]
    · simp only [others]
      rfl
    · simp

end

/-- A text is read as the value whose symbols it holds with blanks around them. -/
theorem read_of_laid {value : Value} {text : String} (laid : Laid value.symbols text.toList) :
    read text = some value := by
  have whole := readValue_symbols value _ (Nat.le_refl _) []
  rw [List.append_nil] at whole
  unfold read
  rw [symbols_of_laid laid (Value.apart_symbols value), Option.bind_eq_bind, Option.bind_some]
  simp only [whole]
  rfl

/-- A value without numbers is read back from either layout. -/
theorem read_written {value : Value} (closed : value.Closed) (pretty : Bool) :
    read (value.written pretty) = some value := by
  refine read_of_laid ?_
  cases pretty with
  | false =>
    change Laid value.symbols value.compact.toList
    rw [Value.compact, String.toList_ofList]
    exact laid_compact closed
  | true =>
    change Laid value.symbols value.indented.toList
    rw [Value.indented, String.toList_ofList]
    exact Value.laid_indentedChars 0 value closed

/-! ## Texts that are one document

An array or an object is written between its brackets in both layouts, so that its text has no blank
at either end and is read as the value and nothing else (`isDocument_array`, `isDocument_object`).
-/

/-- The text is the value's and nothing more: no blank stands in front of it or behind it. -/
structure IsDocument (text : String) (value : Value) : Prop where
  reads : read text = some value
  starts : ∀ c ∈ text.toList.head?, isSpace c = false
  ends : ∀ c ∈ text.toList.getLast?, isSpace c = false

namespace Value

theorem written_array (elements : List Value) (pretty : Bool) :
    ∃ inner, ((array elements).written pretty).toList = '[' :: (inner ++ [']']) := by
  cases pretty with
  | false =>
    refine ⟨(elementSymbols elements).flatMap Symbol.written, ?_⟩
    simp [written, compact, symbols, Symbol.written]
  | true =>
    cases elements with
    | nil => exact ⟨[], by simp [written, indented, indentedChars]⟩
    | cons value more =>
      refine ⟨indentedElements 1 (value :: more) ++ newline 0, ?_⟩
      simp [written, indented, indentedChars]

theorem written_object (members : List (Literal × Value)) (pretty : Bool) :
    ∃ inner, ((object members).written pretty).toList = '{' :: (inner ++ ['}']) := by
  cases pretty with
  | false =>
    refine ⟨(memberSymbols members).flatMap Symbol.written, ?_⟩
    simp [written, compact, symbols, Symbol.written]
  | true =>
    cases members with
    | nil => exact ⟨[], by simp [written, indented, indentedChars]⟩
    | cons member more =>
      refine ⟨indentedMembers 1 (member :: more) ++ newline 0, ?_⟩
      simp [written, indented, indentedChars]

theorem isDocument_of_brackets {value : Value} {pretty : Bool} {first last : Char}
    {inner : List Char} (closed : value.Closed)
    (chars : (value.written pretty).toList = first :: (inner ++ [last]))
    (opens : isSpace first = false) (closes : isSpace last = false) :
    IsDocument (value.written pretty) value where
  reads := read_written closed pretty
  starts c front := by
    rw [chars, List.head?_cons] at front
    rwa [← Option.some.inj front]
  ends c back := by
    rw [chars, ← List.cons_append, List.getLast?_concat] at back
    rwa [← Option.some.inj back]

/-- An array whose text holds no number is a document in both layouts. -/
theorem isDocument_array {elements : List Value} (closed : (array elements).Closed)
    (pretty : Bool) : IsDocument ((array elements).written pretty) (array elements) := by
  obtain ⟨inner, chars⟩ := written_array elements pretty
  exact isDocument_of_brackets closed chars (by decide) (by decide)

theorem isDocument_object {members : List (Literal × Value)} (closed : (object members).Closed)
    (pretty : Bool) : IsDocument ((object members).written pretty) (object members) := by
  obtain ⟨inner, chars⟩ := written_object members pretty
  exact isDocument_of_brackets closed chars (by decide) (by decide)

end Value

end TableQuery.Json
