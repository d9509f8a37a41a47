import ChainFeed.Enrichment
import Mathlib.Data.List.Forall2

/-!
# Theory of merging

Several calls add to several blocks, and their additions are merged block by
block.  What is known about each call's addition to a block therefore carries
over to the merged addition, and a block without a defect has none from any call.
-/

namespace ChainFeed

namespace Enrichment

variable {β : Type} {blocks : List β}

@[simp] theorem merge_empty (addition : Enrichment) : addition.merge empty = addition := by
  simp [merge, empty]

@[simp] theorem empty_merge (addition : Enrichment) : empty.merge addition = addition := by
  simp [merge, empty]

theorem merge_assoc (first second third : Enrichment) :
    (first.merge second).merge third = first.merge (second.merge third) := by
  have append {α : Type} (left middle right : Option (List α)) :
      (left.merge (· ++ ·) middle).merge (· ++ ·) right =
        left.merge (· ++ ·) (middle.merge (· ++ ·) right) :=
    Std.Associative.assoc left middle right
  simp only [merge, append]
  cases first.defect <;> rfl

/-- A merged addition has no defect exactly if neither part has one. -/
theorem merge_defect_eq_none {first second : Enrichment} :
    (first.merge second).defect = none ↔ first.defect = none ∧ second.defect = none := by
  cases firstDefect : first.defect <;> simp [merge, firstDefect]

/-- Nothing is added by no calls. -/
theorem mergeAll_nil (blocks : List β) :
    mergeAll blocks.length [] = blocks.map fun _ => empty := by
  rw [List.map_const']
  rfl

/-- What a call adds to each of a number of blocks. -/
def slots (count : Nat) (call : Option (List Enrichment)) : List Enrichment :=
  call.getD (List.replicate count empty)

/-- Additions merged block by block. -/
theorem forall₂_mergeEach {former latter : β → Enrichment → Prop}
    {firsts seconds : List Enrichment} (first : List.Forall₂ former blocks firsts)
    (second : List.Forall₂ latter blocks seconds) :
    List.Forall₂ (fun block merged => ∃ left right, former block left ∧ latter block right ∧
      merged = left.merge right) blocks (mergeEach firsts seconds) := by
  induction first generalizing seconds with
  | nil =>
      cases second
      exact .nil
  | cons holds _ ih =>
      cases second with
      | cons holdsToo rest => exact .cons ⟨_, _, holds, holdsToo, rfl⟩ (ih rest)

/-- A call that was not made adds nothing to every block. -/
theorem forall₂_slots_none {part : β → Enrichment → Prop} :
    List.Forall₂ part blocks (slots blocks.length none) ↔ ∀ block ∈ blocks, part block empty := by
  change List.Forall₂ part blocks (List.replicate blocks.length empty) ↔ _
  induction blocks with
  | nil => simp
  | cons block blocks ih =>
      rw [List.length_cons, List.replicate_succ, List.forall₂_cons, ih, List.forall_mem_cons]

/-- A call that was not made counts as one that adds nothing. -/
theorem forall₂_mergeEach_slots {former latter : β → Enrichment → Prop}
    {firsts : List Enrichment} {call : Option (List Enrichment)}
    (first : List.Forall₂ former blocks firsts)
    (second : List.Forall₂ latter blocks (slots blocks.length call)) :
    List.Forall₂ (fun block merged => ∃ left right, former block left ∧ latter block right ∧
      merged = left.merge right) blocks ((call.elim firsts (mergeEach firsts))) := by
  cases call with
  | some seconds => exact forall₂_mergeEach first second
  | none =>
      rw [List.forall₂_iff_zip] at first ⊢
      refine ⟨first.1, ?_⟩
      intro block addition member
      have added := forall₂_slots_none.mp second block (List.of_mem_zip member).1
      exact ⟨addition, empty, first.2 member, added, (merge_empty addition).symm⟩

/-- The additions of several calls are merged into those made before. -/
theorem forall₂_foldl_mergeEach {former : β → Enrichment → Prop}
    {firsts : List Enrichment} {parts : List (β → Enrichment → Prop)}
    {calls : List (Option (List Enrichment))} (first : List.Forall₂ former blocks firsts)
    (each : List.Forall₂ (fun part call => List.Forall₂ part blocks (slots blocks.length call))
      parts calls) :
    List.Forall₂ (fun block merged => ∃ (start : Enrichment) (additions : List Enrichment),
      former block start ∧ List.Forall₂ (fun part addition => part block addition)
        parts additions ∧ merged = additions.foldl merge start)
      blocks ((calls.filterMap id).foldl mergeEach firsts) := by
  induction each generalizing former firsts with
  | nil =>
      apply first.imp
      intro block start holds
      exact ⟨start, [], holds, .nil, rfl⟩
  | @cons part call _ _ second _ ih =>
      have next := ih (forall₂_mergeEach_slots first second)
      cases call <;>
      · apply next.imp
        rintro block merged ⟨_, additions, ⟨left, right, holds, holdsToo, rfl⟩, rest, equal⟩
        exact ⟨left, right :: additions, holds, .cons holdsToo rest, equal⟩

/-- The merged addition to a block consists of one addition from each call. -/
theorem forall₂_mergeAll {parts : List (β → Enrichment → Prop)}
    {calls : List (Option (List Enrichment))}
    (each : List.Forall₂ (fun part call => List.Forall₂ part blocks (slots blocks.length call))
      parts calls) :
    List.Forall₂ (fun block merged => ∃ additions : List Enrichment,
      List.Forall₂ (fun part addition => part block addition) parts additions ∧
        merged = additions.foldl merge empty)
      blocks (mergeAll blocks.length calls) := by
  have start : List.Forall₂ (fun _ addition => addition = empty) blocks
      (List.replicate blocks.length empty) :=
    forall₂_slots_none.mpr fun _ _ => rfl
  apply (forall₂_foldl_mergeEach start each).imp
  rintro block merged ⟨_, additions, rfl, rest, equal⟩
  exact ⟨additions, rest, equal⟩

end Enrichment

end ChainFeed
