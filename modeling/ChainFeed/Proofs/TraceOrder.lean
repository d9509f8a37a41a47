import ChainFeed.Block.Trace
import Mathlib.Order.Lex

/-!
# Order and ancestry of traces

Traces are ordered by transaction and then by path, number by number, so that a
path comes before its extensions.  In this order the frames below a trace are
convex: whatever lies between a trace and a frame below it is itself below the
trace.  That is why one forward scan finds all of them.
-/

namespace ChainFeed

/-! ## Paths -/

/-- A path between another one and an extension of that one extends it as well. -/
theorem prefix_of_le_of_le {upper middle lower : List UInt32} (extended : upper <+: lower)
    (atLeast : upper ≤ middle) (atMost : middle ≤ lower) : upper <+: middle := by
  induction upper generalizing middle lower with
  | nil => exact List.nil_prefix
  | cons number rest ih =>
      obtain ⟨extension, rfl⟩ := extended
      cases middle with
      | nil => exact absurd atLeast (by simp)
      | cons other later =>
          rw [List.cons_append, List.cons_le_cons_iff] at atMost
          rw [List.cons_le_cons_iff] at atLeast
          rcases atLeast with below | ⟨rfl, restAtLeast⟩
          · rcases atMost with above | ⟨rfl, _⟩
            · exact absurd (UInt32.lt_trans below above) (UInt32.lt_irrefl _)
            · exact absurd below (UInt32.lt_irrefl _)
          · rcases atMost with above | ⟨_, laterAtMost⟩
            · exact absurd above (UInt32.lt_irrefl _)
            · rw [List.cons_prefix_cons]
              exact ⟨rfl, ih (List.prefix_append rest extension) restAtLeast laterAtMost⟩

/-- A path comes before its extensions. -/
theorem le_of_prefix {upper lower : List UInt32} (extended : upper <+: lower) :
    upper ≤ lower := by
  induction upper generalizing lower with
  | nil => exact List.nil_le lower
  | cons number rest ih =>
      obtain ⟨extension, rfl⟩ := extended
      rw [List.cons_append, List.cons_le_cons_iff]
      exact Or.inr ⟨rfl, ih (List.prefix_append rest extension)⟩

/-- Comparison of paths decides their lexicographic order. -/
theorem isLE_compare_paths {left right : List UInt32} :
    (compare left right).isLE = true ↔ left ≤ right := by
  induction left generalizing right with
  | nil => simp [List.isLE_compare_nil_left]
  | cons number rest ih =>
      cases right with
      | nil => simp
      | cons other later =>
          rw [List.compare_cons_cons, Ordering.isLE_then_iff_or, List.cons_le_cons_iff, ih,
            Std.compare_eq_iff_eq, Std.compare_eq_lt]

namespace Trace

/-- Where a frame stands: its transaction and its path. -/
def place (trace : Trace) : UInt32 × List UInt32 :=
  (trace.transactionIndex, trace.traceAddress)

/-- The canonical order: by transaction, then by path in lexicographic order, in
which a path comes before its extensions. -/
def Precedes (left right : Trace) : Prop :=
  left.transactionIndex < right.transactionIndex ∨
    left.transactionIndex = right.transactionIndex ∧ left.traceAddress ≤ right.traceAddress

theorem place_eq_iff {left right : Trace} :
    left.place = right.place ↔
      left.transactionIndex = right.transactionIndex ∧ left.traceAddress = right.traceAddress := by
  simp [place]

theorem order_isLE_iff {left right : Trace} :
    (left.order right).isLE = true ↔ left.Precedes right := by
  rw [order, Ordering.isLE_then_iff_or, isLE_compare_paths, Std.compare_eq_iff_eq,
    Std.compare_eq_lt, Precedes]

theorem Precedes.refl (trace : Trace) : trace.Precedes trace :=
  Or.inr ⟨rfl, List.le_refl _⟩

theorem Precedes.of_place_eq {left right : Trace} (same : left.place = right.place) :
    left.Precedes right := by
  obtain ⟨sameIndex, sameAddress⟩ := place_eq_iff.mp same
  exact Or.inr ⟨sameIndex, sameAddress ▸ List.le_refl _⟩

theorem Precedes.trans {first second third : Trace} (left : first.Precedes second)
    (right : second.Precedes third) : first.Precedes third := by
  rcases left with below | ⟨sameLeft, pathLeft⟩
  · rcases right with above | ⟨sameRight, _⟩
    · exact Or.inl (UInt32.lt_trans below above)
    · exact Or.inl (sameRight ▸ below)
  · rcases right with above | ⟨sameRight, pathRight⟩
    · exact Or.inl (sameLeft ▸ above)
    · exact Or.inr ⟨sameLeft.trans sameRight, List.le_trans pathLeft pathRight⟩

theorem Precedes.total (left right : Trace) : left.Precedes right ∨ right.Precedes left := by
  rcases Std.lt_trichotomy left.transactionIndex right.transactionIndex with
    below | same | above
  · exact Or.inl (Or.inl below)
  · rcases List.le_total left.traceAddress right.traceAddress with path | path
    · exact Or.inl (Or.inr ⟨same, path⟩)
    · exact Or.inr (Or.inr ⟨same.symm, path⟩)
  · exact Or.inr (Or.inl above)

/-- Two frames come before one another exactly if they stand at the same place. -/
theorem Precedes.antisymm {left right : Trace} (forward : left.Precedes right)
    (backward : right.Precedes left) : left.place = right.place := by
  rcases forward with below | ⟨same, path⟩
  · rcases backward with above | ⟨same, _⟩
    · exact absurd (UInt32.lt_trans below above) (UInt32.lt_irrefl _)
    · exact absurd (same ▸ below) (UInt32.lt_irrefl _)
  · rcases backward with above | ⟨_, reverse⟩
    · exact absurd (same ▸ above) (UInt32.lt_irrefl _)
    · exact place_eq_iff.mpr ⟨same, List.le_antisymm path reverse⟩

/-- The comparison that sorts traces is transitive. -/
theorem isLE_order_trans (first second third : Trace)
    (left : (first.order second).isLE = true) (right : (second.order third).isLE = true) :
    (first.order third).isLE = true :=
  order_isLE_iff.mpr ((order_isLE_iff.mp left).trans (order_isLE_iff.mp right))

/-- The comparison that sorts traces is total. -/
theorem isLE_order_total (left right : Trace) :
    ((left.order right).isLE || (right.order left).isLE) = true := by
  rw [Bool.or_eq_true, order_isLE_iff, order_isLE_iff]
  exact Precedes.total left right

/-- The comparison of traces does not depend on which of them comes first. -/
theorem swap_order (left right : Trace) : (left.order right).swap = right.order left := by
  have indexes : (compare left.transactionIndex right.transactionIndex).swap =
      compare right.transactionIndex left.transactionIndex := Std.OrientedCmp.eq_swap.symm
  have addresses : (compare left.traceAddress right.traceAddress).swap =
      compare right.traceAddress left.traceAddress := Std.OrientedCmp.eq_swap.symm
  rw [order, order, Ordering.swap_then, indexes, addresses]

/-- Traces are tied exactly if they stand at the same place. -/
theorem order_eq_eq_iff {left right : Trace} :
    left.order right = .eq ↔ left.place = right.place := by
  rw [order, Ordering.then_eq_eq, Std.compare_eq_iff_eq, Std.compare_eq_iff_eq, place_eq_iff]

/-- A trace sorts strictly before another one if it precedes it and stands elsewhere. -/
theorem order_eq_lt_iff {left right : Trace} :
    left.order right = .lt ↔ left.Precedes right ∧ left.place ≠ right.place := by
  rw [← order_isLE_iff, ne_eq, ← order_eq_eq_iff]
  cases left.order right <;> decide

theorem order_ne_gt_iff {left right : Trace} :
    left.order right ≠ .gt ↔ left.Precedes right := by
  rw [← order_isLE_iff]
  cases left.order right <;> decide

/-! ## Ancestry -/

theorem isAncestorOf_iff {upper lower : Trace} :
    upper.isAncestorOf lower = true ↔
      upper.transactionIndex = lower.transactionIndex ∧
        upper.traceAddress.length < lower.traceAddress.length ∧
          upper.traceAddress <+: lower.traceAddress := by
  simp [isAncestorOf, and_assoc]

/-- A frame comes before the frames below it, and at a different place. -/
theorem precedes_of_isAncestorOf {upper lower : Trace} (above : upper.isAncestorOf lower = true) :
    upper.Precedes lower ∧ upper.place ≠ lower.place := by
  obtain ⟨same, shorter, extended⟩ := isAncestorOf_iff.mp above
  refine ⟨Or.inr ⟨same, le_of_prefix extended⟩, ?_⟩
  intro samePlace
  rw [(place_eq_iff.mp samePlace).2] at shorter
  exact absurd shorter (Nat.lt_irrefl _)

/-- The frames below a trace are convex in the canonical order. -/
theorem isAncestorOf_of_between {upper middle lower : Trace}
    (above : upper.isAncestorOf lower = true) (after : upper.Precedes middle)
    (elsewhere : upper.place ≠ middle.place) (upTo : middle.Precedes lower) :
    upper.isAncestorOf middle = true := by
  obtain ⟨same, _, extended⟩ := isAncestorOf_iff.mp above
  rcases after with below | ⟨sameAfter, pathAfter⟩
  · rcases upTo with beyond | ⟨sameUpTo, _⟩
    · exact absurd (same ▸ UInt32.lt_trans below beyond) (UInt32.lt_irrefl _)
    · exact absurd ((sameUpTo.trans same.symm) ▸ below) (UInt32.lt_irrefl _)
  · rcases upTo with beyond | ⟨_, pathUpTo⟩
    · exact absurd ((sameAfter.symm.trans same) ▸ beyond) (UInt32.lt_irrefl _)
    · have prefixed := prefix_of_le_of_le extended pathAfter pathUpTo
      refine isAncestorOf_iff.mpr ⟨sameAfter, ?_, prefixed⟩
      apply Nat.lt_of_le_of_ne prefixed.length_le
      intro sameLength
      exact elsewhere (place_eq_iff.mpr ⟨sameAfter, prefixed.eq_of_length sameLength⟩)

theorem isAncestorOf_irrefl (trace : Trace) : ¬trace.isAncestorOf trace = true := by
  intro above
  exact (precedes_of_isAncestorOf above).2 rfl

theorem isAncestorOf_trans {upper middle lower : Trace}
    (above : upper.isAncestorOf middle = true) (below : middle.isAncestorOf lower = true) :
    upper.isAncestorOf lower = true := by
  obtain ⟨sameUpper, shorterUpper, extendedUpper⟩ := isAncestorOf_iff.mp above
  obtain ⟨sameLower, shorterLower, extendedLower⟩ := isAncestorOf_iff.mp below
  exact isAncestorOf_iff.mpr ⟨sameUpper.trans sameLower, Nat.lt_trans shorterUpper shorterLower,
    extendedUpper.trans extendedLower⟩

/-- Of two frames above a third one, the path that is not shorter extends the other one. -/
theorem prefix_of_isAncestorOf {upper other lower : Trace}
    (above : upper.isAncestorOf lower = true) (otherAbove : other.isAncestorOf lower = true)
    (notLonger : upper.traceAddress.length ≤ other.traceAddress.length) :
    upper.transactionIndex = other.transactionIndex ∧
      upper.traceAddress <+: other.traceAddress := by
  obtain ⟨same, _, extended⟩ := isAncestorOf_iff.mp above
  obtain ⟨sameOther, _, extendedOther⟩ := isAncestorOf_iff.mp otherAbove
  exact ⟨same.trans sameOther.symm,
    List.prefix_of_prefix_length_le extended extendedOther notLonger⟩

/-- The frames above a frame form a chain. -/
theorem isAncestorOf_chain {upper other lower : Trace}
    (above : upper.isAncestorOf lower = true) (otherAbove : other.isAncestorOf lower = true) :
    upper.isAncestorOf other = true ∨ other.isAncestorOf upper = true ∨
      upper.place = other.place := by
  rcases Nat.lt_trichotomy upper.traceAddress.length other.traceAddress.length with
    shorter | sameLength | longer
  · obtain ⟨same, extended⟩ := prefix_of_isAncestorOf above otherAbove (Nat.le_of_lt shorter)
    exact .inl (isAncestorOf_iff.mpr ⟨same, shorter, extended⟩)
  · obtain ⟨same, extended⟩ := prefix_of_isAncestorOf above otherAbove (Nat.le_of_eq sameLength)
    exact .inr (.inr (place_eq_iff.mpr ⟨same, extended.eq_of_length sameLength⟩))
  · obtain ⟨same, extended⟩ := prefix_of_isAncestorOf otherAbove above (Nat.le_of_lt longer)
    exact .inr (.inl (isAncestorOf_iff.mpr ⟨same, longer, extended⟩))

/-- Comparison is a total preorder that ties the traces at one place and no others, ancestry is a
strict partial order in which the frames above any frame form a chain, and the two agree: a frame
sorts before those below it, and whatever sorts between them is below it as well. -/
theorem subtrees_convex (upper middle lower : Trace) :
    (upper.order middle).swap = middle.order upper ∧
    ((upper.order middle).isLE = true ∨ (middle.order upper).isLE = true) ∧
    ((upper.order middle).isLE = true → (middle.order lower).isLE = true →
      (upper.order lower).isLE = true) ∧
    (upper.order middle = .eq ↔ upper.place = middle.place) ∧
    ¬upper.isAncestorOf upper = true ∧
    (upper.isAncestorOf middle = true → middle.isAncestorOf lower = true →
      upper.isAncestorOf lower = true) ∧
    (upper.isAncestorOf lower = true → middle.isAncestorOf lower = true →
      upper.isAncestorOf middle = true ∨ middle.isAncestorOf upper = true ∨
        upper.place = middle.place) ∧
    (upper.isAncestorOf lower = true → upper.order lower = .lt) ∧
    (upper.isAncestorOf lower = true → upper.order middle = .lt → middle.order lower ≠ .gt →
      upper.isAncestorOf middle = true) := by
  refine ⟨swap_order upper middle, ?_, isLE_order_trans upper middle lower, order_eq_eq_iff,
    isAncestorOf_irrefl upper, isAncestorOf_trans, isAncestorOf_chain, ?_, ?_⟩
  · exact (Bool.or_eq_true _ _).mp (isLE_order_total upper middle)
  · exact fun above => order_eq_lt_iff.mpr (precedes_of_isAncestorOf above)
  · intro above before upTo
    obtain ⟨after, elsewhere⟩ := order_eq_lt_iff.mp before
    exact isAncestorOf_of_between above after elsewhere (order_ne_gt_iff.mp upTo)

/-- A call, its sub-call and a call below that. -/
theorem subtrees_convex_nested :
    let frame (path : List UInt32) := bare 0 path (.suicide ⟨none, none, none⟩)
    (frame [0]).isAncestorOf (frame [0, 2]) = true ∧
      (frame [0, 2]).isAncestorOf (frame [0, 2, 1]) = true ∧
      (frame [0]).isAncestorOf (frame [0, 2, 1]) = true ∧
      (frame [0]).order (frame [0, 2, 1]) = .lt := by
  intro frame
  obtain ⟨_, _, _, _, _, transitive, _, before, between⟩ :=
    subtrees_convex (frame [0]) (frame [0, 2]) (frame [0, 2, 1])
  have above := transitive (by decide) (by decide)
  exact ⟨between above (by decide) (by decide), by decide, above, before above⟩

/-- Whether another frame is a direct sub-call of this one: its path is that of
this frame and one more number. -/
def isParentOf (trace other : Trace) : Bool :=
  trace.transactionIndex == other.transactionIndex &&
    !other.traceAddress.isEmpty && trace.traceAddress == other.traceAddress.dropLast

theorem isParentOf_iff {upper lower : Trace} :
    upper.isParentOf lower = true ↔
      upper.transactionIndex = lower.transactionIndex ∧
        ∃ number, lower.traceAddress = upper.traceAddress ++ [number] := by
  simp only [isParentOf, Bool.and_eq_true, beq_iff_eq, Bool.not_eq_true', List.isEmpty_eq_false_iff,
    and_assoc]
  constructor
  · rintro ⟨same, nonempty, path⟩
    refine ⟨same, lower.traceAddress.getLast nonempty, ?_⟩
    rw [path]
    exact (List.dropLast_concat_getLast nonempty).symm
  · rintro ⟨same, number, path⟩
    simp [same, path]

/-- A parent is the ancestor that is one number shorter. -/
theorem isParentOf_iff_isAncestorOf {upper lower : Trace} :
    upper.isParentOf lower = true ↔
      upper.isAncestorOf lower = true ∧
        upper.traceAddress.length + 1 = lower.traceAddress.length := by
  rw [isParentOf_iff, isAncestorOf_iff]
  constructor
  · rintro ⟨same, number, path⟩
    simp [same, path]
  · rintro ⟨⟨same, _, extension, path⟩, longer⟩
    refine ⟨same, ?_⟩
    rw [← path, List.length_append] at longer
    obtain ⟨number, rfl⟩ := List.length_eq_one_iff.mp (show extension.length = 1 by omega)
    exact ⟨number, path.symm⟩

end Trace

end ChainFeed
