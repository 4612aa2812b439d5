import TableQuery.Answer.Rows
import TableQuery.Proofs.Outcome

/-!
# Chains of conditions

A chain is gone through from left to right, and AND binds no tighter than OR. So it is true just
when some condition in it holds that is the first or stands behind an OR, and all conditions behind
that one which an AND joins hold as well (`Settles`). Before its truth counts, every column has to
be there: the first that is missing is told, also when the truth is settled in front of it
(`keeps_iff_settles`).
-/

namespace TableQuery.Sql

/-- The conditions in their order, with what joins each to those before it; nothing joins the
first. -/
def Predicate.links (predicate : Predicate) : List (Option Connective × Condition) :=
  (none, predicate.first) :: predicate.rest.map (Prod.map some id)

end TableQuery.Sql

namespace TableQuery.Answer

open TableQuery.Sql

def lacks (row : Row) (condition : Condition) : Bool :=
  (row.get? condition.column).isNone

/-- The row has a cell for the condition, which holds of it. -/
def holdsOn (row : Row) (condition : Condition) : Bool :=
  (row.get? condition.column).any (holdsOfCell condition)

/-- A condition that is the first or joined by an OR holds of the row, and so does every later one
that is joined by an AND. -/
def Settles (row : Row) (predicate : Predicate) : Prop :=
  ∃ front joint condition back, predicate.links = front ++ (joint, condition) :: back ∧
    (front = [] ∨ joint = some .or) ∧ holdsOn row condition = true ∧
    ∀ later, (some .and, later) ∈ back → holdsOn row later = true

section Row

variable (row : Row)

/-- The truth of a chain whose conditions so far came out as `truth`, if all columns are there. -/
def truthAfter (truth : Bool) (links : List (Connective × Condition)) : Bool :=
  links.foldl (fun truth link => link.1.apply truth (holdsOn row link.2)) truth

/-- A condition fails on a row only for want of its column. -/
theorem holdsOf_eq (condition : Condition) :
    holdsOf condition row =
      if lacks row condition then .error (.unknownColumn condition.column)
      else .ok (holdsOn row condition) := by
  unfold holdsOf Row.require lacks holdsOn
  cases row.get? condition.column <;> rfl

/-- A chain looks at every condition, also where its truth is already decided: the first missing
column is told before any truth is. -/
theorem chain_eq (truth : Bool) (links : List (Connective × Condition)) :
    chain row truth links =
      match (links.map (·.2)).find? (lacks row) with
      | some condition => .error (.unknownColumn condition.column)
      | none => .ok (truthAfter row truth links) := by
  induction links generalizing truth with
  | nil => rfl
  | cons link links ih =>
    rw [chain, holdsOf_eq, List.map_cons, List.find?_cons]
    cases lacks row link.2 with
    | true => rfl
    | false =>
      rw [if_neg (by decide), ok_bind, ih]
      rfl

theorem keeps_eq (predicate : Predicate) :
    keeps (some predicate) row =
      match predicate.conditions.find? (lacks row) with
      | some condition => .error (.unknownColumn condition.column)
      | none => .ok (truthAfter row (holdsOn row predicate.first) predicate.rest) := by
  rw [keeps, holdsOf_eq, Predicate.conditions, List.find?_cons]
  cases lacks row predicate.first with
  | true => rfl
  | false => rw [if_neg (by decide), ok_bind, chain_eq]

/-- No AND among the links ends a chain that is true. -/
def Carries (links : List (Connective × Condition)) : Prop :=
  ∀ later, (.and, later) ∈ links → holdsOn row later = true

/-- An OR among the links makes a chain true, and no later AND ends it. -/
def Raises (links : List (Connective × Condition)) : Prop :=
  ∃ front condition back, links = front ++ (.or, condition) :: back ∧
    holdsOn row condition = true ∧ Carries row back

variable {row} {condition : Condition} {links : List (Connective × Condition)}

theorem carries_and :
    Carries row ((.and, condition) :: links) ↔
      holdsOn row condition = true ∧ Carries row links := by
  simp [Carries]

theorem carries_or : Carries row ((.or, condition) :: links) ↔ Carries row links := by
  simp [Carries]

/-- Either this link is an OR that makes the chain true for good, or a later one is. -/
theorem raises_cons {connective : Connective} :
    Raises row ((connective, condition) :: links) ↔
      (connective = .or ∧ holdsOn row condition = true ∧ Carries row links) ∨
        Raises row links := by
  constructor
  · rintro ⟨front, raising, back, split, holds, carries⟩
    rcases List.cons_eq_append_iff.1 split with ⟨rfl, same⟩ | ⟨front, rfl, rfl⟩
    · cases same
      exact .inl ⟨rfl, holds, carries⟩
    · exact .inr ⟨front, raising, back, rfl, holds, carries⟩
  · rintro (⟨rfl, holds, carries⟩ | ⟨front, raising, back, rfl, holds, carries⟩)
    · exact ⟨[], condition, links, rfl, holds, carries⟩
    · exact ⟨(connective, condition) :: front, raising, back, rfl, holds, carries⟩

/-- A chain is true if it was so before its last links and they carry it, or if they raise it. -/
theorem truthAfter_eq_true_iff (truth : Bool) (links : List (Connective × Condition)) :
    truthAfter row truth links = true ↔ (truth = true ∧ Carries row links) ∨ Raises row links := by
  induction links generalizing truth with
  | nil => simp [truthAfter, Carries, Raises]
  | cons link links ih =>
    obtain ⟨connective, condition⟩ := link
    have step : truthAfter row truth ((connective, condition) :: links) =
        truthAfter row (connective.apply truth (holdsOn row condition)) links := rfl
    rw [step, ih, raises_cons]
    cases connective with
    | and => simp [Connective.apply, carries_and, and_assoc]
    | or => simp [Connective.apply, carries_or, or_and_right, or_assoc]

/-- Behind the first condition, what a chain asks of its links. -/
theorem carries_iff :
    (∀ later, (some .and, later) ∈ links.map (Prod.map some id) → holdsOn row later = true) ↔
      Carries row links := by
  simp [Carries]

/-- The closed form, taken apart as the fold goes through the chain. -/
theorem settles_iff {predicate : Predicate} :
    Settles row predicate ↔
      (holdsOn row predicate.first = true ∧ Carries row predicate.rest) ∨
        Raises row predicate.rest := by
  constructor
  · -- The settling condition is the first of all, or one of the rest, which an OR joins.
    rintro ⟨front, joint, condition, back, split, starts, holds, carries⟩
    rcases List.cons_eq_append_iff.1 split with ⟨rfl, same⟩ | ⟨front, rfl, behind⟩
    · cases same
      exact .inl ⟨holds, carries_iff.1 carries⟩
    · obtain rfl := starts.resolve_left (List.cons_ne_nil _ _)
      obtain ⟨before, more, split', rfl, mapped⟩ := List.map_eq_append_iff.1 behind
      obtain ⟨⟨connective, own⟩, after, rfl, same, rfl⟩ := List.map_eq_cons_iff.1 mapped
      cases same
      exact .inr ⟨before, own, after, split', holds, carries_iff.1 carries⟩
  · rintro (⟨holds, carries⟩ | ⟨front, condition, back, split, holds, carries⟩)
    · exact ⟨[], none, predicate.first, _, rfl, .inl rfl, holds, carries_iff.2 carries⟩
    · refine ⟨(none, predicate.first) :: front.map (Prod.map some id), some .or, condition,
        back.map (Prod.map some id), ?_, .inr rfl, holds, carries_iff.2 carries⟩
      rw [Predicate.links, split, List.map_append, List.map_cons, List.cons_append]
      rfl

end Row

/-- A row is kept if the chain is settled as true, provided that it has all the columns; otherwise
the first condition without its column is told. -/
theorem keeps_iff_settles (predicate : Predicate) (row : Row) :
    (∀ e, keeps (some predicate) row = .error e ↔
      ∃ condition, predicate.conditions.find? (lacks row) = some condition ∧
        e = .unknownColumn condition.column) ∧
    ∀ truth, keeps (some predicate) row = .ok truth ↔
      (∀ condition ∈ predicate.conditions, lacks row condition = false) ∧
        (truth = true ↔ Settles row predicate) := by
  have truth_iff : ∀ truth, truthAfter row (holdsOn row predicate.first) predicate.rest = truth ↔
      (truth = true ↔ Settles row predicate) := by
    intro truth
    rw [settles_iff, ← truthAfter_eq_true_iff, ← Bool.eq_iff_iff, eq_comm]
  rw [keeps_eq]
  cases missing : predicate.conditions.find? (lacks row) with
  | some condition =>
    have found := List.find?_some missing
    have listed := List.mem_of_find?_eq_some missing
    refine ⟨fun e => by simp [eq_comm], fun truth => ?_⟩
    simp only [reduceCtorEq, false_iff]
    rintro ⟨present, _⟩
    rw [present condition listed] at found
    exact absurd found (by decide)
  | none =>
    have present := fun condition listed =>
      Bool.eq_false_iff.2 (List.find?_eq_none.1 missing condition listed)
    refine ⟨fun e => by simp, fun truth => ?_⟩
    rw [Except.ok.injEq, truth_iff, and_iff_right present]

/-- The AND behind a chain that an OR made true decides it again. -/
example : keeps (some ⟨.compare "name" .eq "John",
    [(.or, .compare "age" .eq "20"), (.and, .compare "age" .gt "50")]⟩)
    ⟨["name", "age"], ["John", "20"]⟩ = .ok false := by
  decide

end TableQuery.Answer
