import Mathlib.Control.Monad.Basic
import Mathlib.Data.List.Forall2

/-!
# Steps that may fail

What a sequence of steps in `Except` comes to, when the outcome of each step is known, and what two
sequences have in common whose steps go alike (`Matched`).
-/

namespace TableQuery

variable {ε α β : Type}

@[simp]
theorem ok_bind (x : α) (next : α → Except ε β) : (Except.ok x >>= next) = next x := rfl

@[simp]
theorem error_bind (e : ε) (next : α → Except ε β) :
    ((Except.error e : Except ε α) >>= next) = .error e := rfl

/-- A step that went well, and what was done with its value. -/
theorem ok_of_bind_ok {step : Except ε α} {next : α → Except ε β} {value : β}
    (h : (step >>= next) = .ok value) : ∃ x, step = .ok x ∧ next x = .ok value := by
  cases step with
  | error e => cases h
  | ok x => exact ⟨x, rfl, h⟩

/-- Errors may be rewritten after a sequence of steps or after each step. -/
theorem mapError_bind (rewrite : ε → ε) (step : Except ε α) (next : α → Except ε β) :
    (step >>= next).mapError rewrite =
      step.mapError rewrite >>= fun x => (next x).mapError rewrite := by
  cases step <;> rfl

theorem mapM_ok {f : α → Except ε β} {g : α → β} {xs : List α} (each : ∀ x ∈ xs, f x = .ok (g x)) :
    xs.mapM f = .ok (xs.map g) := by
  induction xs with
  | nil => rfl
  | cons x xs ih =>
    rw [List.mapM_cons, each x (by simp), ok_bind, ih fun x member => each x (by simp [member])]
    rfl

/-- A traversal goes well just when each of its steps does. -/
theorem mapM_eq_ok_iff {f : α → Except ε β} {xs : List α} {ys : List β} :
    xs.mapM f = .ok ys ↔ List.Forall₂ (fun x y => f x = .ok y) xs ys := by
  constructor
  · intro success
    induction xs generalizing ys with
    | nil =>
      cases success
      exact .nil
    | cons x xs ih =>
      rw [List.mapM_cons] at success
      obtain ⟨y, first, decided⟩ := ok_of_bind_ok success
      obtain ⟨more, rest, done⟩ := ok_of_bind_ok decided
      cases done
      exact .cons first (ih rest)
  · intro each
    induction each with
    | nil => rfl
    | cons first _ ih =>
      rw [List.mapM_cons, first, ok_bind, ih]
      rfl

/-- A traversal fails as the first step that fails. -/
theorem find?_of_mapM_eq_error {f : α → Except ε β} {xs : List α} {e : ε}
    (failed : xs.mapM f = .error e) :
    ∃ x, xs.find? (fun x => !(f x).isOk) = some x ∧ f x = .error e := by
  induction xs with
  | nil => cases failed
  | cons x xs ih =>
    rw [List.mapM_cons] at failed
    rw [List.find?_cons]
    cases first : f x with
    | error e' =>
      rw [first, error_bind] at failed
      exact ⟨x, rfl, first.trans (congrArg _ (Except.error.inj failed))⟩
    | ok y =>
      rw [first, ok_bind] at failed
      cases rest : xs.mapM f with
      | error e' => exact ih (by rwa [rest] at failed ⊢)
      | ok ys =>
        rw [rest] at failed
        cases failed

theorem forM_ok {f : α → Except ε PUnit} {xs : List α} (each : ∀ x ∈ xs, f x = .ok ⟨⟩) :
    xs.forM f = .ok ⟨⟩ := by
  induction xs with
  | nil => rfl
  | cons x xs ih =>
    rw [List.forM, each x (by simp)]
    exact ih fun x member => each x (by simp [member])

/-! ## Two runs -/

/-- Both runs fail with the same error, or both go well and their values are related. -/
inductive Matched (R : α → β → Prop) : Except ε α → Except ε β → Prop
  | ok {x : α} {y : β} (related : R x y) : Matched R (.ok x) (.ok y)
  | error (e : ε) : Matched R (.error e) (.error e)

theorem Matched.eq {left right : Except ε α} (h : Matched Eq left right) : left = right := by
  cases h with
  | ok related => rw [related]
  | error e => rfl

theorem matched_refl (step : Except ε α) : Matched Eq step step := by
  cases step with
  | ok x => exact .ok rfl
  | error e => exact .error e

theorem Matched.imp {R S : α → β → Prop} {left : Except ε α} {right : Except ε β}
    (h : Matched R left right) (weaken : ∀ x y, R x y → S x y) : Matched S left right := by
  cases h with
  | ok related => exact .ok (weaken _ _ related)
  | error e => exact .error e

theorem Matched.mapError {ε' : Type} {R : α → β → Prop} {left : Except ε α} {right : Except ε β}
    (h : Matched R left right) (rewrite : ε → ε') :
    Matched R (left.mapError rewrite) (right.mapError rewrite) := by
  cases h with
  | ok related => exact .ok related
  | error e => exact .error (rewrite e)

/-- Runs that match so far go on matching if what follows does. -/
theorem Matched.bind {γ δ : Type} {R : α → β → Prop} {S : γ → δ → Prop} {left : Except ε α}
    {right : Except ε β} {nextLeft : α → Except ε γ} {nextRight : β → Except ε δ}
    (h : Matched R left right) (next : ∀ x y, R x y → Matched S (nextLeft x) (nextRight y)) :
    Matched S (left >>= nextLeft) (right >>= nextRight) := by
  cases h with
  | ok related => exact next _ _ related
  | error e => exact .error e

/-- Traversals over related lists match if their steps do. -/
theorem matched_mapM {γ δ : Type} {R : α → β → Prop} {S : γ → δ → Prop} {f : α → Except ε γ}
    {g : β → Except ε δ} {xs : List α} {ys : List β} (related : List.Forall₂ R xs ys)
    (each : ∀ x y, R x y → Matched S (f x) (g y)) :
    Matched (List.Forall₂ S) (xs.mapM f) (ys.mapM g) := by
  induction related with
  | nil => exact .ok .nil
  | cons head _ ih =>
    rw [List.mapM_cons, List.mapM_cons]
    refine (each _ _ head).bind fun a b first => ih.bind fun as bs rest => ?_
    exact .ok (.cons first rest)

end TableQuery
