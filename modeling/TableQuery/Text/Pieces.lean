/-!
Cutting a text: at a character, so that the pieces can be joined again, and into its lines.
-/

namespace TableQuery.Text

/-! ## At a character

Cutting always gives at least one piece, and a piece never holds the character it was cut at.
Either undoes the other: joining the pieces gives the text back, and pieces without the character
are found again when they were joined.
-/

/-- The pieces between the occurrences of `d`, the empty ones included. -/
def cut (d : Char) : List Char → List (List Char)
  | [] => [[]]
  | c :: rest =>
    if c = d then [] :: cut d rest
    else
      match cut d rest with
      | [] => [[c]]
      | piece :: more => (c :: piece) :: more

def join (d : Char) : List (List Char) → List Char
  | [] => []
  | [piece] => piece
  | piece :: more => piece ++ d :: join d more

theorem cut_ne_nil (d : Char) (cs : List Char) : cut d cs ≠ [] := by
  fun_cases cut d cs <;> simp_all

/-- There is one piece more than there are places to cut at. -/
theorem length_cut (d : Char) (cs : List Char) : (cut d cs).length = cs.count d + 1 := by
  fun_induction cut d cs with
  | case1 => rfl
  | case2 rest ih => rw [List.length_cons, ih, List.count_cons_self]
  | case3 c rest other none ih => exact absurd none (cut_ne_nil d rest)
  | case4 c rest other piece more pieces ih =>
    rw [List.count_cons_of_ne other, ← ih, pieces]
    rfl

/-- Nothing is lost by cutting. -/
theorem join_cut (d : Char) (cs : List Char) : join d (cut d cs) = cs := by
  fun_induction cut d cs with
  | case1 => rfl
  | case2 rest ih =>
    cases h : cut d rest with
    | nil => exact absurd h (cut_ne_nil d rest)
    | cons piece more => simp_all [join]
  | case3 c rest hc h ih => exact absurd h (cut_ne_nil d rest)
  | case4 c rest hc piece more h ih =>
    cases more <;> simp_all [join]

theorem cut_eq_singleton {d : Char} {cs : List Char} (absent : d ∉ cs) : cut d cs = [cs] := by
  induction cs with
  | nil => rfl
  | cons c cs ih =>
    have other : c ≠ d := fun same => absent (by simp [same])
    rw [cut, if_neg other, ih fun member => absent (List.mem_cons_of_mem _ member)]

/-- What stands on either side of the character is cut by itself. -/
theorem cut_append_cons (d : Char) (left right : List Char) :
    cut d (left ++ d :: right) = cut d left ++ cut d right := by
  fun_induction cut d left with
  | case1 => rw [List.nil_append, cut, if_pos rfl, List.singleton_append]
  | case2 rest ih => rw [List.cons_append, cut, if_pos rfl, ih, List.cons_append]
  | case3 c rest other none ih => exact absurd none (cut_ne_nil d rest)
  | case4 c rest other piece more pieces ih =>
    rw [List.cons_append, cut, if_neg other, ih, pieces]
    rfl

/-- A piece ends where the character first stands. -/
theorem cut_append {d : Char} {piece : List Char} (absent : d ∉ piece) (rest : List Char) :
    cut d (piece ++ d :: rest) = piece :: cut d rest := by
  rw [cut_append_cons, cut_eq_singleton absent, List.singleton_append]

/-- Pieces without the separator come back, if there is one at all. -/
theorem cut_join {d : Char} {pieces : List (List Char)} (occupied : pieces ≠ [])
    (absent : ∀ piece ∈ pieces, d ∉ piece) : cut d (join d pieces) = pieces := by
  fun_induction join d pieces with
  | case1 => exact absurd rfl occupied
  | case2 piece => exact cut_eq_singleton (absent piece (by simp))
  | case3 piece more left ih =>
    obtain ⟨own, others⟩ := List.forall_mem_cons.1 absent
    rw [cut_append own, ih left others]

theorem not_mem_of_mem_cut {d : Char} {cs piece : List Char} (found : piece ∈ cut d cs) :
    d ∉ piece := by
  fun_induction cut d cs generalizing piece with
  | case1 => simp_all
  | case2 rest ih =>
    rcases List.mem_cons.1 found with rfl | later
    · exact List.not_mem_nil
    · exact ih later
  | case3 c rest other none ih => exact absurd none (cut_ne_nil d rest)
  | case4 c rest other first more pieces ih =>
    rw [pieces] at ih
    rcases List.mem_cons.1 found with rfl | later
    · have free : d ∉ first := ih (by simp)
      simp [Ne.symm other, free]
    · exact ih (List.mem_cons_of_mem _ later)

/-- The characters of joined pieces are those of the pieces, and what stands between them. -/
theorem mem_join {d c : Char} {pieces : List (List Char)} (found : c ∈ join d pieces) :
    c = d ∨ ∃ piece ∈ pieces, c ∈ piece := by
  fun_induction join d pieces with
  | case1 => simp at found
  | case2 piece => exact .inr ⟨piece, by simp, found⟩
  | case3 piece more left ih =>
    rcases List.mem_append.1 found with own | behind
    · exact .inr ⟨piece, by simp, own⟩
    · rcases List.mem_cons.1 behind with between | later
      · exact .inl between
      · refine (ih later).imp_right ?_
        rintro ⟨other, listed, inside⟩
        exact ⟨other, List.mem_cons_of_mem _ listed, inside⟩

theorem mem_join_of_mem {d c : Char} {pieces : List (List Char)} {piece : List Char}
    (listed : piece ∈ pieces) (inside : c ∈ piece) : c ∈ join d pieces := by
  fun_induction join d pieces with
  | case1 => simp at listed
  | case2 other => rwa [← List.mem_singleton.1 listed]
  | case3 other more left ih =>
    rcases List.mem_cons.1 listed with rfl | later
    · exact List.mem_append_left _ inside
    · exact List.mem_append_right _ (List.mem_cons_of_mem _ (ih later))

theorem mem_of_mem_cut {d c : Char} {cs piece : List Char} (found : piece ∈ cut d cs)
    (inside : c ∈ piece) : c ∈ cs := by
  rw [← join_cut d cs]
  exact mem_join_of_mem found inside

/-! ## Into lines

A line ends at a line feed, and one carriage return just before that line feed belongs to the end
and not to the line. What follows the last line feed is a line only if it is not empty. A carriage
return anywhere else is an ordinary character.
-/

def lines : List Char → List (List Char)
  | [] => []
  | '\n' :: rest => [] :: lines rest
  | '\r' :: '\n' :: rest => [] :: lines rest
  | c :: rest =>
    match lines rest with
    | [] => [[c]]
    | line :: more => (c :: line) :: more

def linesOf (text : String) : List String :=
  (lines text.toList).map String.ofList

example : linesOf "a\r\nb\nc\r\r\nd\re\n\n" = ["a", "b", "c\r", "d\re", ""] := by decide
example : linesOf "\n" = [""] ∧ linesOf "" = [] ∧ linesOf "\r" = ["\r"] := by decide

end TableQuery.Text
