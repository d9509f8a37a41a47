import ChainFeed.Proofs.KeyedLinks
import ChainFeed.Selection.Inclusion
import Mathlib.Logic.Relation

/-!
# Frames above a frame

A selection climbs from a frame to its parent for as long as there is one.  In
terms of paths: it strips the last number of the path again and again, and stops
where the block has no frame.
-/

namespace ChainFeed

namespace Trace

/-- Whether a frame can be climbed to from another one, from parent to parent,
over frames that are all there. -/
def Overlies (traces : List Trace) : Trace → Trace → Prop :=
  Relation.TransGen fun upper lower => upper ∈ traces ∧ upper.isParentOf lower = true

/-- Whether every path between those of two frames is the path of some frame. -/
def Unbroken (traces : List Trace) (upper lower : Trace) : Prop :=
  ∀ length < lower.traceAddress.length, upper.traceAddress.length < length →
    ∃ middle ∈ traces, middle.transactionIndex = lower.transactionIndex ∧
      middle.traceAddress = lower.traceAddress.take length

instance (traces : List Trace) (upper lower : Trace) :
    Decidable (Unbroken traces upper lower) :=
  inferInstanceAs (Decidable (∀ length < _, _ → ∃ middle ∈ _, _ ∧ _))

variable {traces : List Trace} {upper middle lower : Trace}

/-- A climb can start one frame further down. -/
theorem unbroken_of_isParentOf (member : middle ∈ traces)
    (step : middle.isParentOf lower = true) (unbroken : Unbroken traces upper middle) :
    Unbroken traces upper lower := by
  obtain ⟨same, number, path⟩ := isParentOf_iff.mp step
  intro length shorter longer
  rw [path, List.length_append, List.length_singleton] at shorter
  rcases Nat.lt_or_eq_of_le (Nat.le_of_lt_succ shorter) with inside | last
  · obtain ⟨frame, frameMember, frameIndex, framePath⟩ := unbroken length inside longer
    refine ⟨frame, frameMember, frameIndex.trans same, ?_⟩
    rw [framePath, path, List.take_append_of_le_length inside.le]
  · refine ⟨middle, member, same, ?_⟩
    rw [path, last, List.take_left]

/-- A frame can be climbed to exactly if it is above and no path in between is
missing. -/
theorem overlies_iff :
    Overlies traces upper lower ↔
      upper ∈ traces ∧ upper.isAncestorOf lower = true ∧ Unbroken traces upper lower := by
  constructor
  · intro overlies
    induction overlies with
    | single step =>
        obtain ⟨member, step⟩ := step
        obtain ⟨above, longer⟩ := isParentOf_iff_isAncestorOf.mp step
        exact ⟨member, above, fun length shorter beyond => by omega⟩
    | tail _ step ih =>
        obtain ⟨member, step⟩ := step
        obtain ⟨upperMember, above, unbroken⟩ := ih
        refine ⟨upperMember, ?_, unbroken_of_isParentOf member step unbroken⟩
        obtain ⟨sameUpper, shorterUpper, extendedUpper⟩ := isAncestorOf_iff.mp above
        obtain ⟨same, shorter, extended⟩ :=
          isAncestorOf_iff.mp (isParentOf_iff_isAncestorOf.mp step).1
        exact isAncestorOf_iff.mpr ⟨sameUpper.trans same, shorterUpper.trans shorter,
          extendedUpper.trans extended⟩
  · rintro ⟨member, above, unbroken⟩
    obtain ⟨same, shorter, extended⟩ := isAncestorOf_iff.mp above
    -- The induction is on the number of paths in between.
    generalize gap : lower.traceAddress.length - upper.traceAddress.length = distance
    induction distance generalizing lower with
    | zero => omega
    | succ distance ih =>
        rcases Nat.eq_zero_or_pos distance with adjacent | apart
        · refine .single ⟨member, isParentOf_iff_isAncestorOf.mpr ⟨above, by omega⟩⟩
        · obtain ⟨middle, middleMember, middleIndex, middlePath⟩ :=
            unbroken (lower.traceAddress.length - 1) (by omega) (by omega)
          have middleLength : middle.traceAddress.length + 1 = lower.traceAddress.length := by
            rw [middlePath, List.length_take]
            omega
          have middleExtended : middle.traceAddress <+: lower.traceAddress := by
            rw [middlePath]
            exact List.take_prefix _ _
          have step : middle.isParentOf lower = true := isParentOf_iff_isAncestorOf.mpr
            ⟨isAncestorOf_iff.mpr ⟨middleIndex, by omega, middleExtended⟩, middleLength⟩
          have upperExtended : upper.traceAddress <+: middle.traceAddress :=
            List.prefix_of_prefix_length_le extended middleExtended (by omega)
          have upperIndex := same.trans middleIndex.symm
          refine .tail (ih ?_ ?_ upperIndex ?_ upperExtended ?_) ⟨middleMember, step⟩
          · exact isAncestorOf_iff.mpr ⟨upperIndex, by omega, upperExtended⟩
          · intro length shorter longer
            obtain ⟨frame, frameMember, frameIndex, framePath⟩ :=
              unbroken length (by omega) longer
            refine ⟨frame, frameMember, frameIndex.trans middleIndex.symm, ?_⟩
            rw [framePath, middlePath, List.take_take, Nat.min_eq_left (by omega)]
          · omega
          · omega

instance : Decidable (Overlies traces upper lower) :=
  decidable_of_iff _ overlies_iff.symm

end Trace

namespace Block

variable {block : Block} {trace upper : Trace} {place position above steps : Nat}

/-- A link to a parent says where the climb from a trace goes on. -/
theorem LinkedByKeys.overlies_iff_of_parent (linked : block.LinkedByKeys)
    (member : trace ∈ block.traces) (link : trace.parent = some above)
    {parent : Trace} (found : block.traces[above]? = some parent) :
    Trace.Overlies block.traces upper trace ↔
      upper = parent ∨ Trace.Overlies block.traces upper parent := by
  obtain ⟨_, foundParent, isParent⟩ := (linked.parent trace member above).mp link
  rw [found, Option.some.injEq] at foundParent
  subst foundParent
  rw [Trace.Overlies, Relation.TransGen.tail'_iff]
  constructor
  · rintro ⟨middle, climbed, middleMember, step⟩
    obtain ⟨other, foundMiddle⟩ := List.getElem?_of_mem middleMember
    have same := (linked.parent trace member other).mpr ⟨middle, foundMiddle, step⟩
    rw [link, Option.some.injEq] at same
    rw [← same, found, Option.some.injEq] at foundMiddle
    subst foundMiddle
    rcases Relation.reflTransGen_iff_eq_or_transGen.mp climbed with reached | further
    · exact Or.inl reached.symm
    · exact Or.inr further
  · intro climbed
    refine ⟨parent, ?_, List.mem_of_getElem? found, isParent⟩
    rcases climbed with rfl | further
    · exact .refl
    · exact further.to_reflTransGen

/-- Nothing overlies a trace without a parent. -/
theorem LinkedByKeys.not_overlies_of_no_parent (linked : block.LinkedByKeys)
    (member : trace ∈ block.traces) (link : trace.parent = none) :
    ¬ Trace.Overlies block.traces upper trace := by
  intro climbed
  obtain ⟨middle, _, middleMember, step⟩ := Relation.TransGen.tail'_iff.mp climbed
  obtain ⟨other, foundMiddle⟩ := List.getElem?_of_mem middleMember
  have same := (linked.parent trace member other).mpr ⟨middle, foundMiddle, step⟩
  rw [link] at same
  exact absurd same (by simp)

/-- A parent stands before its sub-calls. -/
theorem LinkedByKeys.exists_parent (linked : block.LinkedByKeys)
    (ordered : block.traces.Pairwise Trace.Precedes)
    (found : block.traces[place]? = some trace) (link : trace.parent = some above) :
    ∃ parent, block.traces[above]? = some parent ∧ above < place := by
  obtain ⟨parent, foundParent, isParent⟩ :=
    (linked.parent trace (List.mem_of_getElem? found) above).mp link
  exact ⟨parent, foundParent, Trace.lt_of_isAncestorOf ordered foundParent found
    (Trace.isParentOf_iff_isAncestorOf.mp isParent).1⟩

/-- With links that follow keys, climbing from a trace visits exactly the traces
that overlie it. -/
theorem LinkedByKeys.mem_ancestorsWithin (linked : block.LinkedByKeys)
    (ordered : block.traces.Pairwise Trace.Precedes)
    (found : block.traces[place]? = some trace) (enough : place ≤ steps) :
    position ∈ ancestorsWithin block.traces steps trace.parent ↔
      ∃ upper, block.traces[position]? = some upper ∧
        Trace.Overlies block.traces upper trace := by
  induction steps generalizing place trace with
  | zero =>
      cases link : trace.parent with
      | none =>
          have member := List.mem_of_getElem? found
          simp [ancestorsWithin, linked.not_overlies_of_no_parent member link]
      | some above =>
          obtain ⟨_, _, before⟩ := linked.exists_parent ordered found link
          omega
  | succ steps ih =>
      have member := List.mem_of_getElem? found
      cases link : trace.parent with
      | none =>
          simp [ancestorsWithin, linked.not_overlies_of_no_parent member link]
      | some above =>
          obtain ⟨parent, foundParent, before⟩ := linked.exists_parent ordered found link
          rw [ancestorsWithin, List.mem_cons, foundParent, Option.bind_some,
            ih foundParent (by omega)]
          simp only [linked.overlies_iff_of_parent member link foundParent, and_or_left,
            exists_or]
          apply or_congr_left
          constructor
          · intro rfl
            exact ⟨parent, foundParent, rfl⟩
          · rintro ⟨_, foundUpper, rfl⟩
            obtain ⟨_, foundAgain, isParent⟩ := (linked.parent trace member above).mp link
            rw [foundParent, Option.some.injEq] at foundAgain
            subst foundAgain
            have same := (linked.parent trace member position).mpr ⟨_, foundUpper, isParent⟩
            rw [link, Option.some.injEq] at same
            exact same.symm

/-- The bound on the steps of a climb is high enough. -/
theorem LinkedByKeys.mem_ancestors (linked : block.LinkedByKeys)
    (ordered : block.traces.Pairwise Trace.Precedes) (member : trace ∈ block.traces) :
    position ∈ block.ancestors trace.parent ↔
      ∃ upper, block.traces[position]? = some upper ∧
        Trace.Overlies block.traces upper trace := by
  obtain ⟨place, found⟩ := List.getElem?_of_mem member
  have inBounds := (List.getElem?_eq_some_iff.mp found).1
  exact linked.mem_ancestorsWithin ordered found (by omega)

end Block

end ChainFeed
