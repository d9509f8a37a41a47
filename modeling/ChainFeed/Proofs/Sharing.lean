import ChainFeed.Proofs.LogRanges
import ChainFeed.Proofs.Positions
import Mathlib.Data.List.Nodup

/-!
# Sharing out what came for several blocks

What is fetched for several blocks at once arrives as one list.  If the items say which
block they are for, then every block gets back its own, in the order in which they came.
-/

namespace ChainFeed

variable {α ι : Type}

/-- Blocks with different hashes get all items that name them. -/
theorem shareByHash_eq {hashOf : α → Hash} {blocks : List FetchedBlock}
    (distinct : (blocks.map FetchedBlock.hash).Nodup) (items : List α) :
    shareByHash hashOf blocks items =
      blocks.map fun block => items.filter fun item => hashOf item == block.hash := by
  induction blocks generalizing items with
  | nil => rfl
  | cons block blocks ih =>
      rw [List.map_cons, List.nodup_cons] at distinct
      rw [shareByHash, ih distinct.2, List.map_cons]
      congr 1
      apply List.map_congr_left
      intro other isOther
      rw [List.filter_filter]
      apply List.filter_congr
      intro item _
      by_cases names : hashOf item = other.hash
      · have differ : other.hash ≠ block.hash := by
          rintro same
          exact distinct.1 (same ▸ List.mem_map_of_mem isOther)
        simp [names, differ]
      · simp [names]

/-- Items that came from several sources, each of which is the source of one block at most,
are shared out as they came. -/
theorem shareByHash_flatMap (source : FetchedBlock → ι) {hashOf : α → Hash}
    {blocks : List FetchedBlock} {sources : List ι} {part : ι → List α}
    (distinctBlocks : (blocks.map FetchedBlock.hash).Nodup) (distinct : sources.Nodup)
    (within : ∀ block ∈ blocks, source block ∈ sources)
    (named : ∀ block ∈ blocks, ∀ other ∈ sources, ∀ item ∈ part other,
      hashOf item = block.hash ↔ other = source block) :
    shareByHash hashOf blocks (sources.flatMap part) =
      blocks.map fun block => part (source block) := by
  rw [shareByHash_eq distinctBlocks]
  apply List.map_congr_left
  intro block isBlock
  apply filter_flatMap_eq distinct (within block isBlock)
  intro other isOther item isItem
  rw [beq_iff_eq]
  exact named block isBlock other isOther item isItem

theorem nodup_hash_ofBlock {blocks : List Raw.Block}
    (distinct : (blocks.map Raw.Block.hash).Nodup) :
    ((blocks.map FetchedBlock.ofBlock).map FetchedBlock.hash).Nodup := by
  rwa [List.map_map]

/-- Items that came block by block and name their blocks are shared out as they came. -/
theorem share_named {hashOf : α → Hash} {blocks : List Raw.Block} {part : Raw.Block → List α}
    (distinct : (blocks.map Raw.Block.hash).Nodup)
    (named : ∀ block ∈ blocks, ∀ item ∈ part block, hashOf item = block.hash) :
    shareByHash hashOf (blocks.map .ofBlock) (blocks.flatMap part) = blocks.map part := by
  rw [shareByHash_flatMap FetchedBlock.block (nodup_hash_ofBlock distinct)
    (List.Nodup.of_map _ distinct), List.map_map]
  · rfl
  · exact List.forall_mem_map.mpr fun block isBlock => isBlock
  · refine List.forall_mem_map.mpr fun block isBlock other isOther item isItem => ?_
    rw [named other isOther item isItem]
    exact ⟨fun same => List.inj_on_of_nodup_map distinct isOther isBlock same,
      fun same => same ▸ rfl⟩

/-! ## Logs of several blocks -/

/-- The smallest height of some blocks and a start. -/
theorem foldl_min_spec (start : UInt64) (blocks : List FetchedBlock) :
    let lowest := blocks.foldl (fun lowest block => min lowest block.height) start
    (lowest ≤ start ∧ ∀ block ∈ blocks, lowest ≤ block.height) ∧
      ∀ bound, bound ≤ start → (∀ block ∈ blocks, bound ≤ block.height) → bound ≤ lowest := by
  induction blocks generalizing start with
  | nil => simp
  | cons block blocks ih =>
      obtain ⟨⟨belowBoth, belowRest⟩, greatest⟩ := ih (min start block.height)
      have both := Std.le_min_iff.mp belowBoth
      refine ⟨⟨both.1, List.forall_mem_cons.mpr ⟨both.2, belowRest⟩⟩, ?_⟩
      intro bound belowStart belowAll
      obtain ⟨belowBlock, belowOthers⟩ := List.forall_mem_cons.mp belowAll
      exact greatest bound (Std.le_min_iff.mpr ⟨belowStart, belowBlock⟩) belowOthers

theorem max_le_iff {first second bound : UInt64} :
    max first second ≤ bound ↔ first ≤ bound ∧ second ≤ bound := by
  change (if first ≤ second then second else first) ≤ bound ↔ _
  simp only [UInt64.le_iff_toNat_le]
  split <;> omega

/-- The largest height of some blocks and a start. -/
theorem foldl_max_spec (start : UInt64) (blocks : List FetchedBlock) :
    let highest := blocks.foldl (fun highest block => max highest block.height) start
    (start ≤ highest ∧ ∀ block ∈ blocks, block.height ≤ highest) ∧
      ∀ bound, start ≤ bound → (∀ block ∈ blocks, block.height ≤ bound) → highest ≤ bound := by
  induction blocks generalizing start with
  | nil => simp
  | cons block blocks ih =>
      obtain ⟨⟨aboveBoth, aboveRest⟩, least⟩ := ih (max start block.height)
      have both := max_le_iff.mp aboveBoth
      refine ⟨⟨both.1, List.forall_mem_cons.mpr ⟨both.2, aboveRest⟩⟩, ?_⟩
      intro bound aboveStart aboveAll
      obtain ⟨aboveBlock, aboveOthers⟩ := List.forall_mem_cons.mp aboveAll
      exact least bound (max_le_iff.mpr ⟨aboveStart, aboveBlock⟩) aboveOthers

/-- The range that is asked for has all blocks, and lies within any range that has them. -/
theorem heightBounds_spec (first : FetchedBlock) (rest : List FetchedBlock) :
    (∀ block ∈ first :: rest, (heightBounds first rest).1 ≤ block.height ∧
        block.height ≤ (heightBounds first rest).2) ∧
      ∀ lowest highest, (∀ block ∈ first :: rest, lowest ≤ block.height ∧
          block.height ≤ highest) →
        lowest ≤ (heightBounds first rest).1 ∧ (heightBounds first rest).2 ≤ highest := by
  obtain ⟨⟨belowFirst, belowRest⟩, greatest⟩ := foldl_min_spec first.height rest
  obtain ⟨⟨aboveFirst, aboveRest⟩, least⟩ := foldl_max_spec first.height rest
  constructor
  · exact List.forall_mem_cons.mpr ⟨⟨belowFirst, aboveFirst⟩,
      fun block isBlock => ⟨belowRest block isBlock, aboveRest block isBlock⟩⟩
  · intro lowest highest within
    obtain ⟨withinFirst, withinRest⟩ := List.forall_mem_cons.mp within
    exact ⟨greatest lowest withinFirst.1 fun block isBlock => (withinRest block isBlock).1,
      least highest withinFirst.2 fun block isBlock => (withinRest block isBlock).2⟩

theorem nodup_heightsBetween (first last : UInt64) : (heightsBetween first last).Nodup := by
  apply List.Nodup.of_map UInt64.toNat
  rw [heightsBetween_toNat]
  exact List.nodup_range'

/-- Whether the logs of a range of heights tell blocks within it apart: a log names a
block exactly if it is a log of its height. -/
structure LogsTell (logs : UInt64 → List Raw.Log) (first last : UInt64)
    (blocks : List Raw.Block) : Prop where
  within : ∀ block ∈ blocks, first ≤ block.number ∧ block.number ≤ last
  named : ∀ block ∈ blocks, ∀ height, first ≤ height → height ≤ last → ∀ log ∈ logs height,
    log.blockHash = block.hash ↔ height = block.number

/-- Logs that tell blocks apart tell some of them apart. -/
theorem LogsTell.of_subset {logs : UInt64 → List Raw.Log} {first last : UInt64}
    {blocks part : List Raw.Block} (tell : LogsTell logs first last blocks)
    (within : part ⊆ blocks) : LogsTell logs first last part where
  within block isBlock := tell.within block (within isBlock)
  named block isBlock := tell.named block (within isBlock)

/-- Logs that tell blocks apart are shared out by height. -/
theorem share_logs {logs : UInt64 → List Raw.Log} {first last : UInt64} {blocks : List Raw.Block}
    (distinct : (blocks.map Raw.Block.hash).Nodup) (tell : LogsTell logs first last blocks) :
    shareByHash Raw.Log.blockHash (blocks.map .ofBlock) ((heightsBetween first last).flatMap logs) =
      blocks.map fun block => logs block.number := by
  rw [shareByHash_flatMap FetchedBlock.height (nodup_hash_ofBlock distinct)
    (nodup_heightsBetween first last), List.map_map]
  · rfl
  · exact List.forall_mem_map.mpr fun block isBlock =>
      mem_heightsBetween.mpr (tell.within block isBlock)
  · refine List.forall_mem_map.mpr fun block isBlock height isHeight => ?_
    obtain ⟨atLeast, atMost⟩ := mem_heightsBetween.mp isHeight
    exact tell.named block isBlock height atLeast atMost

namespace Endpoint

open Dialogue

variable {σ : Type} {memo : Memo} {endpoint : Endpoint σ} {logs : UInt64 → List Raw.Log}
  {first last : UInt64}

/-- Whether a node, in whatever state, lists the logs of any part of a range of heights. -/
def ListsLogs (endpoint : Endpoint σ) (logs : UInt64 → List Raw.Log) (first last : UInt64) :
    Prop :=
  ∀ lower upper, first ≤ lower → lower ≤ upper → upper ≤ last → ∀ state,
    endpoint.Answers (logsCall lower upper) (endpoint.tolerating .logsOutOfRange)
      (Json.list? Raw.Log.ofJson?) state ((heightsBetween lower upper).flatMap logs)

theorem ListsLogs.part {lower upper : UInt64} (lists : endpoint.ListsLogs logs first last)
    (afterFirst : first ≤ lower) (beforeLast : upper ≤ last) :
    endpoint.ListsLogs logs lower upper :=
  fun start stop afterLower ordered beforeUpper =>
    lists start stop (UInt64.le_trans afterFirst afterLower) ordered
      (UInt64.le_trans beforeUpper beforeLast)

/-- Fetching a range ends with all its logs, whether the node lists all of them at once or
serves them in parts. -/
theorem meets_logsBetween_of_serves (ordered : first ≤ last)
    (serves : endpoint.ListsLogs logs first last ∨ endpoint.ServesLogs logs first last) :
    Meets False memo (endpoint.logsBetween first last) fun fetched _ after =>
      fetched = (heightsBetween first last).flatMap logs ∧ after = memo := by
  rcases serves with lists | serves
  · rw [logsBetween]
    apply Meets.bind meets_ask
    rintro reply _ _ ⟨⟨state, replied⟩, rfl, rfl⟩
    obtain ⟨answer, answered, reading⟩ :=
      lists first last (UInt64.le_refl _) ordered (UInt64.le_refl _) state
    rw [replied] at answered
    subst answered
    refine Meets.mono (meets_decoded fun unread => ?_) ?_
    · rw [reading] at unread
      exact absurd unread (by simp)
    · rintro fetched _ _ ⟨read, _, same⟩
      rw [reading, Option.some.injEq] at read
      exact ⟨read.symm, same⟩
  · apply Meets.mono (meets_logsBetween ordered serves)
    rintro _ _ _ ⟨range, same⟩
    exact ⟨range.complete, same⟩

/-- Every block gets the logs of its height, whether the node lists all logs or serves them
in parts. -/
theorem meets_fetchLogs_of_serves {blocks : List Raw.Block}
    (distinct : (blocks.map Raw.Block.hash).Nodup) (tell : LogsTell logs first last blocks)
    (serves : endpoint.ListsLogs logs first last ∨ endpoint.ServesLogs logs first last) :
    Meets False memo (endpoint.fetchLogs (blocks.map .ofBlock)) fun additions _ after =>
      additions = blocks.map (fun block => logsOfBlock endpoint.config.skippedChecks
        (.ofBlock block) (logs block.number)) ∧ after = memo := by
  cases blocks with
  | nil => exact .pure ⟨rfl, rfl⟩
  | cons block rest =>
      obtain ⟨contains, smallest⟩ := heightBounds_spec (.ofBlock block) (rest.map .ofBlock)
      have within : ∀ other ∈ (block :: rest).map FetchedBlock.ofBlock,
          first ≤ other.height ∧ other.height ≤ last :=
        List.forall_mem_map.mpr tell.within
      obtain ⟨afterFirst, beforeLast⟩ := smallest first last within
      have narrowed : LogsTell logs (heightBounds (.ofBlock block) (rest.map .ofBlock)).1
          (heightBounds (.ofBlock block) (rest.map .ofBlock)).2 (block :: rest) := by
        refine ⟨fun other isOther => contains _ (List.mem_map_of_mem isOther), ?_⟩
        intro other isOther height atLeast atMost
        exact tell.named other isOther height (UInt64.le_trans afterFirst atLeast)
          (UInt64.le_trans atMost beforeLast)
      have ordered := narrowed.within block List.mem_cons_self
      apply Meets.bind (meets_logsBetween_of_serves (UInt64.le_trans ordered.1 ordered.2)
        (serves.imp (·.part afterFirst beforeLast) (·.part afterFirst beforeLast)))
      rintro _ _ _ ⟨rfl, rfl⟩
      refine .pure ⟨?_, rfl⟩
      have shares := share_logs distinct narrowed
      rw [List.map_cons] at shares
      rw [shares, ← List.map_cons (f := FetchedBlock.ofBlock), List.zip_map', List.map_map]
      rfl

end Endpoint

end ChainFeed
