import Mathlib.Data.List.Chain
import Mathlib.Data.List.Forall2
import TableQuery.Answer.Rows

/-!
# Merge sort under any comparison

The order of cells is not transitive, so that nothing here asks for an order: whatever the
comparison answers, the sorted list has the items of the given one, each as often. If a comparison
turned round turns its answer round, no item stands right behind one that it should precede
(`isChain_mergeSort`). Nor does the sort look at its items otherwise than by comparing them, so that
two lists whose items compare alike are sorted alike (`mergeSort_forall₂`).
-/

namespace TableQuery.Answer

variable {α β : Type}

theorem merge_perm (cmp : α → α → Ordering) (left right : List α) :
    (merge cmp left right).Perm (left ++ right) := by
  fun_induction merge cmp left right with
  | case1 right => exact .refl _
  | case2 left => rw [List.append_nil]
  | case3 a left b right greater ih =>
    calc b :: merge cmp (a :: left) right
      _ |>.Perm (b :: (a :: left ++ right)) := ih.cons b
      _ |>.Perm (a :: left ++ b :: right) := List.perm_middle.symm
  | case4 a left b right _ ih => exact ih.cons a

/-- Sorting loses and invents nothing, whatever the comparison. -/
theorem mergeSort_perm (cmp : α → α → Ordering) (items : List α) :
    (mergeSort cmp items).Perm items := by
  fun_induction mergeSort cmp items with
  | case1 items short => exact .refl _
  | case2 items long ihLeft ihRight =>
    have halves := ihLeft.append ihRight
    rw [List.take_append_drop] at halves
    exact (merge_perm cmp _ _).trans halves

/-! ## Neighbours -/

section Neighbours

variable {cmp : α → α → Ordering}

/-- A merged list starts as one of the two does. -/
theorem head?_merge {left right : List α} {x : α} (first : x ∈ (merge cmp left right).head?) :
    x ∈ left.head? ∨ x ∈ right.head? := by
  cases left with
  | nil => exact .inr (by rwa [merge] at first)
  | cons a left =>
    cases right with
    | nil => exact .inl (by rwa [merge] at first; simp)
    | cons b right =>
      rw [merge] at first
      split at first
      · exact .inr first
      · exact .inl first

variable [Std.OrientedCmp cmp]

/-- What comes behind an item that was taken is the next of its own half, which it may precede, or
the head of the other half, with which it was compared. -/
theorem isChain_merge {left right : List α} (lefts : left.IsChain (cmp · · ≠ .gt))
    (rights : right.IsChain (cmp · · ≠ .gt)) :
    (merge cmp left right).IsChain (cmp · · ≠ .gt) := by
  fun_induction merge cmp left right with
  | case1 right => exact rights
  | case2 left _ => exact lefts
  | case3 a left b right greater ih =>
    obtain ⟨next, rest⟩ := List.isChain_cons.1 rights
    have turned : cmp b a ≠ .gt := Std.OrientedCmp.not_gt_of_gt greater
    refine (ih lefts rest).cons fun x first => ?_
    rcases head?_merge first with own | other
    · obtain rfl : a = x := Option.some.inj own
      exact turned
    · exact next x other
  | case4 a left b right notGreater ih =>
    obtain ⟨next, rest⟩ := List.isChain_cons.1 lefts
    refine (ih rest rights).cons fun x first => ?_
    rcases head?_merge first with own | other
    · exact next x own
    · obtain rfl : b = x := Option.some.inj other
      exact notGreater

/-- No two neighbours stand the wrong way round. No law of the order is needed for this. -/
theorem isChain_mergeSort (items : List α) : (mergeSort cmp items).IsChain (cmp · · ≠ .gt) := by
  fun_induction mergeSort cmp items with
  | case1 items short =>
    match items, short with
    | [], _ => exact .nil
    | [item], _ => exact .singleton item
  | case2 items long ihLeft ihRight => exact isChain_merge ihLeft ihRight

end Neighbours

/-! ## Items that compare alike -/

section Alike

variable {R : α → β → Prop} {cmp : α → α → Ordering} {cmp' : β → β → Ordering}
  (alike : ∀ a b a' b', R a a' → R b b' → cmp a b = cmp' a' b')
include alike

theorem merge_forall₂ {left right : List α} {left' right' : List β}
    (lefts : List.Forall₂ R left left') (rights : List.Forall₂ R right right') :
    List.Forall₂ R (merge cmp left right) (merge cmp' left' right') := by
  fun_induction merge cmp left right generalizing left' right' with
  | case1 right =>
    cases lefts
    rwa [merge]
  | case2 left nonempty =>
    cases rights
    cases lefts with
    | nil => exact absurd rfl nonempty
    | cons head tail =>
      simp only [merge]
      exact .cons head tail
  | case3 a left b right greater ih =>
    cases lefts with
    | cons head tail =>
      cases rights with
      | cons head' tail' =>
        rw [merge, if_pos (by rwa [← alike _ _ _ _ head head'])]
        exact .cons head' (ih (.cons head tail) tail')
  | case4 a left b right notGreater ih =>
    cases lefts with
    | cons head tail =>
      cases rights with
      | cons head' tail' =>
        rw [merge, if_neg (by rwa [← alike _ _ _ _ head head'])]
        exact .cons head (ih tail (.cons head' tail'))

/-- Two runs of the sort make the same moves where the comparisons agree. -/
theorem mergeSort_forall₂ {items : List α} {items' : List β}
    (related : List.Forall₂ R items items') :
    List.Forall₂ R (mergeSort cmp items) (mergeSort cmp' items') := by
  fun_induction mergeSort cmp items generalizing items' with
  | case1 items short => rwa [mergeSort, if_pos (related.length_eq ▸ short)]
  | case2 items long ihLeft ihRight =>
    have halved : mergeSort cmp' items' =
        merge cmp' (mergeSort cmp' (items'.take (items.length / 2)))
          (mergeSort cmp' (items'.drop (items.length / 2))) := by
      rw [mergeSort, if_neg (related.length_eq ▸ long), related.length_eq]
    rw [halved]
    exact merge_forall₂ alike (ihLeft (List.forall₂_take _ related))
      (ihRight (List.forall₂_drop _ related))

end Alike

/-- Items that are to be sorted by what is made of them may be sorted before it is made. -/
theorem mergeSort_map (cmp : β → β → Ordering) (f : α → β) (items : List α) :
    mergeSort cmp (items.map f) = (mergeSort (fun a b => cmp (f a) (f b)) items).map f := by
  have related : List.Forall₂ (fun b a => b = f a) (items.map f) items :=
    List.forall₂_map_left_iff.2 (List.forall₂_same.2 fun _ _ => rfl)
  have sorted : List.Forall₂ (fun b a => b = f a) (mergeSort cmp (items.map f))
      (mergeSort (fun a b => cmp (f a) (f b)) items) := by
    refine mergeSort_forall₂ ?_ related
    rintro _ _ a b rfl rfl
    rfl
  rw [← List.forall₂_eq_eq_eq, List.forall₂_map_right_iff]
  exact sorted

end TableQuery.Answer
