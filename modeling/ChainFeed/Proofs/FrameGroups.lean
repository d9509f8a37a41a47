import ChainFeed.Engine.Traces
import Mathlib.Data.List.Induction
import Mathlib.Data.List.Nodup

/-!
# Frames grouped by transaction

A trace block lists the frames of all transactions in one list, in whatever order the node
sends them.  Grouping them adds one frame after another to the group of its transaction, and
what comes of it can be told from the whole list: the transactions in the order in which they
first appear, each with the frames that name it.
-/

namespace ChainFeed.Raw

/-- Whether groups are the frames of a list by transaction, without a change of order. -/
structure StablyGrouped (frames : List TraceFrame) (groups : List Replay) : Prop where
  /-- Transactions come in the order in which they first appear. -/
  hashes : groups.map Replay.transactionHash =
    (frames.filterMap TraceFrame.transactionHash).eraseDups.map some
  distinct : (groups.map Replay.transactionHash).Nodup
  members : ∀ group ∈ groups, group.trace =
    some (frames.filter fun frame => frame.transactionHash == group.transactionHash)
  /-- A frame without a transaction is in no group. -/
  anonymous : ∀ frame, frame.transactionHash = none →
    ∀ group ∈ groups, ∀ members ∈ group.trace, frame ∉ members
  unchanged : ∀ group ∈ groups, group.stateDiff = none

/-- The frames of a transaction as its replay. -/
def groupOf (frames : List TraceFrame) (hash : Hash) : Replay where
  transactionHash := some hash
  trace := some (frames.filter fun frame => frame.transactionHash == some hash)
  stateDiff := none

@[simp] theorem groupOf_transactionHash (frames : List TraceFrame) (hash : Hash) :
    (groupOf frames hash).transactionHash = some hash := rfl

variable {frames : List TraceFrame} {frame : TraceFrame} {hash : Hash} {hashes : List Hash}

theorem eraseDups_concat (hashes : List Hash) (hash : Hash) :
    (hashes ++ [hash]).eraseDups =
      if hash ∈ hashes then hashes.eraseDups else hashes.eraseDups ++ [hash] := by
  rw [List.eraseDups_append]
  split
  · rename_i member
    simp [List.removeAll, member]
  · rename_i absent
    simp [List.removeAll, absent, List.eraseDups_cons]

theorem nodup_eraseDups (hashes : List Hash) : hashes.eraseDups.Nodup := by
  induction hashes using List.reverseRecOn with
  | nil => exact List.nodup_nil
  | append_singleton hashes hash ih =>
      rw [eraseDups_concat]
      split
      · exact ih
      · rename_i absent
        refine ih.append (List.nodup_singleton hash) ?_
        rw [List.disjoint_singleton, List.mem_eraseDups]
        exact absent

/-- A frame of one transaction changes nothing for another one. -/
theorem groupOf_concat_of_ne (names : frame.transactionHash = some hash) {other : Hash}
    (differs : other ≠ hash) : groupOf (frames ++ [frame]) other = groupOf frames other := by
  have unnamed : (frame.transactionHash == some other) = false := by
    rw [names, beq_eq_false_iff_ne]
    exact fun same => differs (Option.some.inj same).symm
  simp [groupOf, List.filter_append, unnamed]

/-- A frame of a transaction comes last in its group. -/
theorem groupOf_concat_of_eq (names : frame.transactionHash = some hash) :
    groupOf (frames ++ [frame]) hash =
      { groupOf frames hash with
        trace := (groupOf frames hash).trace.map (· ++ [frame]) } := by
  simp [groupOf, List.filter_append, names]

/-- Adding a frame to the groups of the frames before it. -/
theorem addFrame_groups (names : frame.transactionHash = some hash)
    (distinct : hashes.Nodup)
    (unnamed : hash ∉ hashes → ∀ earlier ∈ frames, earlier.transactionHash ≠ some hash) :
    addFrame hash frame (hashes.map (groupOf frames)) =
      (if hash ∈ hashes then hashes else hashes ++ [hash]).map (groupOf (frames ++ [frame])) := by
  induction hashes with
  | nil =>
      have noFrames : (frames.filter fun frame => frame.transactionHash == some hash) = [] := by
        rw [List.filter_eq_nil_iff]
        intro earlier member isNamed
        exact unnamed (by simp) earlier member (by simpa using isNamed)
      simp [addFrame, groupOf, noFrames, names]
  | cons other rest ih =>
      obtain ⟨absent, distinctRest⟩ := List.nodup_cons.mp distinct
      rw [List.map_cons, addFrame]
      by_cases same : other = hash
      · subst same
        have others : rest.map (groupOf frames) = rest.map (groupOf (frames ++ [frame])) := by
          refine List.map_congr_left fun later member => ?_
          exact (groupOf_concat_of_ne names fun equal => absent (equal ▸ member)).symm
        rw [if_pos (groupOf_transactionHash frames other), if_pos List.mem_cons_self,
          List.map_cons, groupOf_concat_of_eq names, others]
      · have differs : (groupOf frames other).transactionHash ≠ some hash :=
          fun equal => same (Option.some.inj equal)
        have inRest : hash ∈ other :: rest ↔ hash ∈ rest := by
          simp [Ne.symm same]
        rw [if_neg differs, ih distinctRest fun absent => unnamed (mt inRest.mp absent),
          ← groupOf_concat_of_ne names same]
        simp only [inRest]
        split <;> rfl

/-- Each transaction that is named gets its frames, in the order of first appearance. -/
theorem groupFrames_eq (frames : List TraceFrame) :
    groupFrames frames =
      (frames.filterMap TraceFrame.transactionHash).eraseDups.map (groupOf frames) := by
  induction frames using List.reverseRecOn with
  | nil => rfl
  | append_singleton frames frame ih =>
      rw [groupFrames, List.foldl_append, List.foldl_cons, List.foldl_nil, ← groupFrames, ih,
        List.filterMap_append]
      cases names : frame.transactionHash with
      | none =>
          have unchanged : groupOf (frames ++ [frame]) = groupOf frames := by
            funext hash
            simp [groupOf, List.filter_append, names]
          simp [names, unchanged]
      | some hash =>
          have unnamed : hash ∉ (frames.filterMap TraceFrame.transactionHash).eraseDups →
              ∀ earlier ∈ frames, earlier.transactionHash ≠ some hash := by
            intro absent earlier member isNamed
            exact absent (List.mem_eraseDups.mpr
              (List.mem_filterMap.mpr ⟨earlier, member, isNamed⟩))
          rw [List.filterMap_cons_some names, List.filterMap_nil, eraseDups_concat]
          dsimp only
          rw [addFrame_groups names (nodup_eraseDups _) unnamed]
          simp only [List.mem_eraseDups]

/-- Grouped frames say nothing about state diffs. -/
theorem stateDiff_of_groupFrames (frames : List TraceFrame) :
    ∀ group ∈ groupFrames frames, group.stateDiff = none := by
  rw [groupFrames_eq, List.forall_mem_map]
  exact fun hash _ => rfl

theorem stablyGrouped_groupFrames (frames : List TraceFrame) :
    StablyGrouped frames (groupFrames frames) where
  hashes := by
    rw [groupFrames_eq, List.map_map]
    rfl
  distinct := by
    rw [groupFrames_eq, List.map_map]
    exact (nodup_eraseDups _).map fun _ _ => Option.some.inj
  members := by
    rw [groupFrames_eq, List.forall_mem_map]
    exact fun hash _ => rfl
  anonymous frame unnamed := by
    rw [groupFrames_eq, List.forall_mem_map]
    rintro hash - members ⟨⟩ member
    have isNamed := (List.mem_filter.mp member).2
    rw [unnamed] at isNamed
    cases isNamed
  unchanged := stateDiff_of_groupFrames frames

end ChainFeed.Raw
