import TableQuery.Proofs.MergeSort

/-!
# The stable sort

Where the comparison is a preorder, the merge sort is the stable one: its items are in order, and
those that compare equal stand as they stood (`sortsStably_mergeSort`). Only one list is so
(`SortsStably.unique`).
-/

namespace TableQuery.Answer

variable {α : Type}

/-- The list has the items in order, and those that compare equal to one of them as they stood. -/
structure SortsStably (cmp : α → α → Ordering) (items sorted : List α) : Prop where
  perm : sorted.Perm items
  ordered : sorted.Pairwise (cmp · · ≠ .gt)
  stable : ∀ key ∈ items, sorted.filter (cmp · key == .eq) = items.filter (cmp · key == .eq)

section Ordered

variable {cmp : α → α → Ordering} [Std.TransCmp cmp]

/-- Transitivity, in the form in which the merge asks for it. -/
theorem not_gt_trans {a b c : α} (first : cmp a b ≠ .gt) (second : cmp b c ≠ .gt) :
    cmp a c ≠ .gt := by
  have left := Ordering.ne_gt_iff_isLE.1 first
  have right := Ordering.ne_gt_iff_isLE.1 second
  exact Ordering.ne_gt_iff_isLE.2 (Std.TransCmp.isLE_trans left right)

/-- Nothing in an ordered list has to stand in front of its head. -/
theorem head_not_gt {a x : α} {items : List α} (ordered : (a :: items).Pairwise (cmp · · ≠ .gt))
    (member : x ∈ a :: items) : cmp a x ≠ .gt := by
  rcases List.mem_cons.1 member with rfl | behind
  · simp [Std.ReflCmp.compare_self]
  · exact (List.pairwise_cons.1 ordered).1 x behind

theorem pairwise_mergeSort (items : List α) : (mergeSort cmp items).Pairwise (cmp · · ≠ .gt) := by
  have : Trans (cmp · · ≠ .gt) (cmp · · ≠ .gt) (cmp · · ≠ .gt) := ⟨not_gt_trans⟩
  exact (isChain_mergeSort items).pairwise

/-- Items of the left half are not overtaken by those of the right half that they compare equal
to. -/
theorem filter_merge {left right : List α} (lefts : left.Pairwise (cmp · · ≠ .gt)) (key : α) :
    (merge cmp left right).filter (cmp · key == .eq) =
      left.filter (cmp · key == .eq) ++ right.filter (cmp · key == .eq) := by
  fun_induction merge cmp left right with
  | case1 right => rfl
  | case2 left _ => simp
  | case3 a left b right greater ih =>
    rw [List.filter_cons, ih lefts, List.filter_cons (x := b)]
    split
    · next tied =>
      have none : (a :: left).filter (cmp · key == .eq) = [] := by
        refine List.filter_eq_nil_iff.2 fun x member equal => ?_
        have same : cmp x b = .eq :=
          Std.TransCmp.eq_trans (beq_iff_eq.1 equal) (Std.OrientedCmp.eq_symm (beq_iff_eq.1 tied))
        have notGreater : cmp a b ≠ .gt := not_gt_trans (head_not_gt lefts member) (by simp [same])
        exact notGreater greater
      rw [none]
      rfl
    · rfl
  | case4 a left b right _ ih =>
    rw [List.filter_cons, ih lefts.tail, List.filter_cons (x := a)]
    split <;> rfl

/-- Those that tie with a key come out in the order in which they went in. -/
theorem filter_mergeSort (items : List α) (key : α) :
    (mergeSort cmp items).filter (cmp · key == .eq) = items.filter (cmp · key == .eq) := by
  fun_induction mergeSort cmp items with
  | case1 items short => rfl
  | case2 items long ihLeft ihRight =>
    rw [filter_merge (pairwise_mergeSort _), ihLeft, ihRight, ← List.filter_append,
      List.take_append_drop]

/-- Under a transitive order the sort is stable. -/
theorem sortsStably_mergeSort (items : List α) : SortsStably cmp items (mergeSort cmp items) where
  perm := mergeSort_perm cmp items
  ordered := pairwise_mergeSort items
  stable key _ := filter_mergeSort items key

/-- Lists in order that agree on the items equal to each of theirs are the same list. -/
theorem eq_of_ties {xs ys : List α} (perm : xs.Perm ys) (orderedXs : xs.Pairwise (cmp · · ≠ .gt))
    (orderedYs : ys.Pairwise (cmp · · ≠ .gt))
    (ties : ∀ key ∈ xs, xs.filter (cmp · key == .eq) = ys.filter (cmp · key == .eq)) : xs = ys := by
  induction xs generalizing ys with
  | nil => exact perm.nil_eq
  | cons x xs ih =>
    cases ys with
    | nil => exact absurd perm.symm.nil_eq (by simp)
    | cons y ys =>
      -- Both heads are least, so that they compare equal, and the first such item is one item.
      have before : cmp x y ≠ .gt :=
        head_not_gt orderedXs (perm.mem_iff.2 List.mem_cons_self)
      have behind : cmp y x ≠ .gt :=
        head_not_gt orderedYs (perm.mem_iff.1 List.mem_cons_self)
      have tied : cmp y x = .eq :=
        Std.OrientedCmp.isLE_antisymm (Ordering.ne_gt_iff_isLE.1 behind)
          (Ordering.ne_gt_iff_isLE.1 before)
      have heads := ties x List.mem_cons_self
      rw [List.filter_cons_of_pos (by simp [Std.ReflCmp.compare_self]),
        List.filter_cons_of_pos (by simp [tied])] at heads
      obtain rfl : x = y := (List.cons.inj heads).1
      rw [ih perm.cons_inv orderedXs.tail orderedYs.tail fun key member => ?_]
      have both := ties key (List.mem_cons_of_mem x member)
      rw [List.filter_cons, List.filter_cons] at both
      split at both
      · exact (List.cons.inj both).2
      · exact both

/-- There is only one way to sort stably. -/
theorem SortsStably.unique {items xs ys : List α} (first : SortsStably cmp items xs)
    (second : SortsStably cmp items ys) : xs = ys := by
  refine eq_of_ties (first.perm.trans second.perm.symm) first.ordered second.ordered
    fun key member => ?_
  have among := first.perm.mem_iff.1 member
  rw [first.stable key among, second.stable key among]

end Ordered

/-! ## Another stable sort -/

/-- The sort of the library sorts stably too. -/
theorem sortsStably_listMergeSort {cmp : α → α → Ordering} [Std.TransCmp cmp] (items : List α) :
    SortsStably cmp items (items.mergeSort fun a b => cmp a b != .gt) := by
  have trans : ∀ a b c : α, (cmp a b != .gt) = true → (cmp b c != .gt) = true →
      (cmp a c != .gt) = true := by
    simp only [bne_iff_ne]
    exact fun a b c => not_gt_trans
  have total : ∀ a b : α, (cmp a b != .gt || cmp b a != .gt) = true := by
    intro a b
    have turned : cmp b a = (cmp a b).swap := Std.OrientedCmp.eq_swap
    rw [turned]
    cases cmp a b <;> rfl
  have perm := items.mergeSort_perm fun a b => cmp a b != .gt
  refine ⟨perm, ?_, fun key _ => ?_⟩
  · exact (List.pairwise_mergeSort trans total items).imp bne_iff_ne.1
  · -- The items that tie with the key are in order as they stand, so that the sort keeps them so.
    have inOrder : (items.filter (cmp · key == .eq)).Pairwise
        fun a b => (cmp a b != .gt) = true := by
      refine List.pairwise_of_forall_mem_list fun a first b second => ?_
      have left : cmp a key = .eq := beq_iff_eq.1 (List.mem_filter.1 first).2
      have right : cmp b key = .eq := beq_iff_eq.1 (List.mem_filter.1 second).2
      rw [Std.TransCmp.eq_trans left (Std.OrientedCmp.eq_symm right)]
      rfl
    have kept := (List.sublist_mergeSort trans total inOrder List.filter_sublist).filter
      (cmp · key == .eq)
    simp only [List.filter_filter, Bool.and_self] at kept
    exact (kept.eq_of_length (perm.filter _).length_eq.symm).symm

/-! ## Comparisons that are orders on the items -/

/-- The comparison need be transitive on the items only. -/
theorem sortsStably_of_transitive {cmp : α → α → Ordering} [Std.OrientedCmp cmp] {items : List α}
    (transitive : ∀ a ∈ items, ∀ b ∈ items, ∀ c ∈ items,
      cmp a b ≠ .gt → cmp b c ≠ .gt → cmp a c ≠ .gt) :
    SortsStably cmp items (mergeSort cmp items) := by
  let onItems (a b : {item // item ∈ items}) : Ordering := cmp a b
  have : Std.TransCmp onItems :=
    { eq_swap := @fun a b => @Std.OrientedCmp.eq_swap _ cmp _ a.1 b.1
      isLE_trans := @fun a b c first second => Ordering.ne_gt_iff_isLE.1
        (transitive a a.2 b b.2 c c.2 (Ordering.ne_gt_iff_isLE.2 first)
          (Ordering.ne_gt_iff_isLE.2 second)) }
  have whole : items.attach.map Subtype.val = items := List.attach_map_subtype_val items
  have sorts : SortsStably onItems items.attach (mergeSort onItems items.attach) :=
    sortsStably_mergeSort items.attach
  have sorted : mergeSort cmp items = (mergeSort onItems items.attach).map Subtype.val := by
    rw [← mergeSort_map, whole]
  rw [sorted]
  refine ⟨?_, List.pairwise_map.2 sorts.ordered, fun key among => ?_⟩
  · have perm := sorts.perm.map Subtype.val
    rwa [whole] at perm
  · calc ((mergeSort onItems items.attach).map Subtype.val).filter (cmp · key == .eq)
      _ = ((mergeSort onItems items.attach).filter (onItems · ⟨key, among⟩ == .eq)).map
          Subtype.val := List.filter_map
      _ = (items.attach.filter (onItems · ⟨key, among⟩ == .eq)).map Subtype.val := by
        rw [sorts.stable ⟨key, among⟩ (List.mem_attach items _)]
      _ = (items.attach.map Subtype.val).filter (cmp · key == .eq) := by
        rw [List.filter_map]
        rfl
      _ = items.filter (cmp · key == .eq) := by rw [whole]

/-! ## Comparisons that agree on the items -/

/-- Only the comparisons of items with each other matter. -/
theorem mergeSort_congr {cmp cmp' : α → α → Ordering} {items : List α}
    (agree : ∀ a ∈ items, ∀ b ∈ items, cmp a b = cmp' a b) :
    mergeSort cmp items = mergeSort cmp' items := by
  have same : List.Forall₂ (fun a b => a = b ∧ a ∈ items) items items :=
    List.forall₂_same.2 fun item member => ⟨rfl, member⟩
  have sorted : List.Forall₂ (fun a b => a = b ∧ a ∈ items) (mergeSort cmp items)
      (mergeSort cmp' items) := by
    refine mergeSort_forall₂ ?_ same
    rintro a b _ _ ⟨rfl, left⟩ ⟨rfl, right⟩
    exact agree a left b right
  rw [← List.forall₂_eq_eq_eq]
  exact sorted.imp fun _ _ related => related.1

theorem SortsStably.congr {cmp cmp' : α → α → Ordering} {items sorted : List α}
    (sorts : SortsStably cmp items sorted)
    (agree : ∀ a ∈ items, ∀ b ∈ items, cmp a b = cmp' a b) : SortsStably cmp' items sorted where
  perm := sorts.perm
  ordered := by
    refine sorts.ordered.imp_of_mem fun {a b} left right before => ?_
    rwa [← agree a (sorts.perm.mem_iff.1 left) b (sorts.perm.mem_iff.1 right)]
  stable key member := by
    have first : sorted.filter (cmp' · key == .eq) = sorted.filter (cmp · key == .eq) :=
      List.filter_congr fun x among => by rw [agree x (sorts.perm.mem_iff.1 among) key member]
    have second : items.filter (cmp · key == .eq) = items.filter (cmp' · key == .eq) :=
      List.filter_congr fun x among => by rw [agree x among key member]
    rw [first, sorts.stable key member, second]

end TableQuery.Answer
