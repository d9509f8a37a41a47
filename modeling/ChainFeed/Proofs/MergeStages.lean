import ChainFeed.Proofs.Consistency

/-!
# Merging in stages

What several calls add is merged before it is added to a block, and merged in stages: the calls
for traces among themselves, and what comes of them with the calls for logs and receipts.
Merging is associative, and to add what was merged is to add one thing after the other.  So the
stages leave no trace: the blocks are those to which the additions of each call were added in
turn, and the first reason to distrust a block is the one that stays.
-/

namespace ChainFeed

namespace Enrichment

/-- What several calls have for the block at a position, in their order. -/
def additionsAt (calls : List (Option (List Enrichment))) (position : Nat) : List Enrichment :=
  (calls.filterMap id).filterMap (·[position]?)

end Enrichment

namespace FetchedBlock

open Enrichment

/-! ## Additions to a block -/

@[simp] theorem enrich_empty (block : FetchedBlock) : block.enrich .empty = block := by
  rw [enrich, merge_empty]

theorem enrich_enrich (block : FetchedBlock) (first second : Enrichment) :
    (block.enrich first).enrich second = block.enrich (first.merge second) := by
  rw [enrich, enrich, enrich, merge_assoc]

/-- Of the reasons to distrust a block, the first one is kept. -/
theorem defect_foldl_enrich (block : FetchedBlock) (additions : List Enrichment) :
    (additions.foldl enrich block).data.defect =
      (block.data.defect <|> additions.findSome? defect) := by
  induction additions generalizing block with
  | nil =>
      rw [List.foldl_nil, List.findSome?_nil]
      cases block.data.defect <;> rfl
  | cons addition additions ih =>
      have kept : (block.enrich addition).data.defect =
          (block.data.defect <|> addition.defect) := rfl
      rw [List.foldl_cons, ih, kept, List.findSome?_cons]
      cases block.data.defect with
      | some reason => rfl
      | none => cases addition.defect <;> rfl

theorem isValid_foldl_enrich (block : FetchedBlock) (additions : List Enrichment) :
    (additions.foldl enrich block).isValid = (block.isValid && additions.all isSound) := by
  induction additions generalizing block with
  | nil => exact (Bool.and_true _).symm
  | cons addition additions ih =>
      have both : (block.enrich addition).isValid = (block.isValid && addition.isSound) := by
        unfold isValid isSound enrich merge
        cases block.data.defect <;> rfl
      rw [List.foldl_cons, ih, both, List.all_cons, Bool.and_assoc]

/-! ## Additions to several blocks -/

theorem enrichEach_replicate_empty (blocks : List FetchedBlock) :
    enrichEach blocks (List.replicate blocks.length .empty) = blocks := by
  induction blocks with
  | nil => rfl
  | cons block blocks ih =>
      rw [List.length_cons, List.replicate_succ, enrichEach, enrich_empty, ih]

/-- Merged additions are added one after the other. -/
theorem enrichEach_mergeEach {blocks : List FetchedBlock} {firsts : List Enrichment}
    (seconds : List Enrichment) (sameLength : firsts.length = blocks.length) :
    enrichEach blocks (mergeEach firsts seconds) =
      enrichEach (enrichEach blocks firsts) seconds := by
  induction blocks generalizing firsts seconds with
  | nil =>
      rw [List.eq_nil_of_length_eq_zero sameLength]
      cases seconds <;> rfl
  | cons block blocks ih =>
      cases firsts with
      | nil => cases sameLength
      | cons first firsts =>
          cases seconds with
          | nil => simp [mergeEach, enrichEach]
          | cons second seconds =>
              rw [mergeEach, enrichEach, enrichEach, enrichEach, enrich_enrich,
                ih seconds (Nat.succ.inj sameLength)]

theorem enrichEach_foldl_mergeEach {blocks : List FetchedBlock} {start : List Enrichment}
    (brought : List (List Enrichment)) (sameLength : start.length = blocks.length) :
    enrichEach blocks (brought.foldl mergeEach start) =
      brought.foldl enrichEach (enrichEach blocks start) := by
  induction brought generalizing start with
  | nil => rfl
  | cons additions brought ih =>
      rw [List.foldl_cons, List.foldl_cons, ← enrichEach_mergeEach additions sameLength]
      exact ih ((length_mergeEach start additions).trans sameLength)

theorem getElem?_enrichEach (blocks : List FetchedBlock) (additions : List Enrichment)
    (position : Nat) :
    (enrichEach blocks additions)[position]? =
      blocks[position]?.map fun block => additions[position]?.toList.foldl enrich block := by
  induction blocks generalizing additions position with
  | nil => cases additions <;> rfl
  | cons block blocks ih =>
      cases additions with
      | nil => simp [enrichEach]
      | cons addition additions =>
          cases position with
          | zero => rfl
          | succ position => exact ih additions position

/-- Blocks to which the additions of several calls are added, one call after another. -/
def enrichInTurn (blocks : List FetchedBlock) (calls : List (Option (List Enrichment))) :
    List FetchedBlock :=
  (calls.filterMap id).foldl enrichEach blocks

variable (blocks : List FetchedBlock) (calls former inner latter : List (Option (List Enrichment)))

theorem enrichInTurn_append :
    enrichInTurn blocks (former ++ latter) =
      enrichInTurn (enrichInTurn blocks former) latter := by
  rw [enrichInTurn, List.filterMap_append, List.foldl_append, ← enrichInTurn, ← enrichInTurn]

/-- A block gets what each call has for it, in the order of the calls. -/
theorem getElem?_enrichInTurn (position : Nat) :
    (enrichInTurn blocks calls)[position]? =
      blocks[position]?.map fun block => (additionsAt calls position).foldl enrich block := by
  unfold enrichInTurn additionsAt
  induction calls.filterMap id generalizing blocks with
  | nil => exact Option.map_id'.symm
  | cons additions brought ih =>
      rw [List.foldl_cons, ih, getElem?_enrichEach, Option.map_map]
      congr 1
      funext block
      rw [Function.comp_apply, ← List.foldl_append, List.filterMap_cons]
      cases additions[position]? <;> rfl

theorem map_enrichInTurn {β : Type} (read : FetchedBlock → β) :
    (enrichInTurn blocks calls).map read =
      blocks.mapIdx fun position block =>
        read ((additionsAt calls position).foldl enrich block) := by
  apply List.ext_getElem?
  intro position
  rw [List.getElem?_map, getElem?_enrichInTurn, List.getElem?_mapIdx, Option.map_map]
  rfl

@[simp] theorem length_enrichInTurn : (enrichInTurn blocks calls).length = blocks.length := by
  have counted := congrArg List.length (map_enrichInTurn blocks calls id)
  rwa [List.map_id, List.length_mapIdx] at counted

/-- To add what was merged is to add the additions of one call after another. -/
theorem enrichEach_mergeAll :
    enrichEach blocks (mergeAll blocks.length calls) = enrichInTurn blocks calls := by
  rw [mergeAll, enrichEach_foldl_mergeEach _ List.length_replicate, enrichEach_replicate_empty,
    enrichInTurn]

/-- Merging some of the calls first does not change what is added. -/
theorem enrichInTurn_merged :
    enrichInTurn blocks (former ++ some (mergeAll blocks.length inner) :: latter) =
      enrichInTurn blocks (former ++ inner ++ latter) := by
  have count : blocks.length = (enrichInTurn blocks former).length :=
    (length_enrichInTurn blocks former).symm
  rw [enrichInTurn_append, enrichInTurn_append, enrichInTurn_append, count,
    ← enrichEach_mergeAll _ inner]
  rfl

end FetchedBlock

namespace Endpoint

open Dialogue Enrichment FetchedBlock

variable {σ : Type} (endpoint : Endpoint σ) (demand : Demand) (finalized : Option UInt64)
  (blocks : List FetchedBlock)

/-! ## Calls of a round -/

/-- The calls for traces and state diffs on a chain without a profile. -/
def planCalls : Dialogue σ (List (Option (List Enrichment))) := do
  let plan := endpoint.tracePlan demand finalized blocks
  let prestates ← fetchIf plan.prestates (endpoint.fetchPrestates blocks)
  let traceBlocks ← fetchIf plan.traceBlock (endpoint.fetchTraceBlocks blocks)
  let callTrees ← fetchIf plan.callTrees (endpoint.fetchCallTrees blocks)
  let replays ←
    fetchIf (!plan.replay.isEmpty) (endpoint.fetchReplays replayMethod plan.replay blocks)
  pure [prestates, traceBlocks, callTrees, replays]

/-- The calls for traces on a chain with a profile, each for the blocks that it serves. -/
def profileCalls (profile : ChainProfile) : Dialogue σ (List (Option (List Enrichment))) := do
  if demand.stateDiffs && !profile.stateDiffsSupported then
    throw (.noStateDiffs profile.name)
  if !demand.traces then
    pure []
  else
    let replays ←
      endpoint.fetchReplays profile.replayMethod ⟨true, false⟩ (blocks.filter profile.isReplayed)
    let callTrees ← endpoint.fetchCallTrees (blocks.filter profile.isDebugged)
    pure
      [ some (spread (blocks.map profile.isReplayed) replays),
        some (spread (blocks.map profile.isDebugged) callTrees) ]

/-- The calls for traces and state diffs. -/
def traceCalls : Dialogue σ (List (Option (List Enrichment))) := do
  let genesis ← endpoint.genesisHash
  match ChainProfile.ofGenesis? genesis with
  | none => endpoint.planCalls demand finalized blocks
  | some profile => endpoint.profileCalls demand blocks profile

/-- Calls, if they are to be made. -/
def callsIf (wanted : Bool) (calls : Dialogue σ (List (Option (List Enrichment)))) :
    Dialogue σ (List (Option (List Enrichment))) :=
  if wanted then calls else pure []

/-- All calls of a round, none merged with another. -/
def roundCalls : Dialogue σ (List (Option (List Enrichment))) := do
  if blocks.isEmpty then
    pure []
  else
    let logs ← fetchIf demand.logs (endpoint.fetchLogs blocks)
    let receipts ← fetchIf demand.receipts (endpoint.fetchReceipts blocks)
    let traces ←
      callsIf (demand.traces || demand.stateDiffs) (endpoint.traceCalls demand finalized blocks)
    pure (logs :: receipts :: traces)

theorem fetchByPlan_eq :
    endpoint.fetchByPlan demand finalized blocks =
      mergeAll blocks.length <$> endpoint.planCalls demand finalized blocks := by
  simp [fetchByPlan, planCalls, tracePlan]

theorem fetchByProfile_eq (profile : ChainProfile) :
    endpoint.fetchByProfile profile demand blocks =
      mergeAll blocks.length <$> endpoint.profileCalls demand blocks profile := by
  unfold fetchByProfile profileCalls
  rw [← marked_eq_filter profile.isReplayed, ← marked_eq_filter profile.isDebugged]
  dsimp only
  split
  case isTrue => rfl
  case isFalse =>
    cases demand.traces with
    | false => simp [mergeAll_nil]
    | true =>
        simp only [List.map_map, Bool.not_true, Bool.false_eq_true, if_false, map_bind, map_pure]
        rfl

theorem fetchTraces_eq :
    endpoint.fetchTraces demand finalized blocks =
      mergeAll blocks.length <$> endpoint.traceCalls demand finalized blocks := by
  rw [fetchTraces, traceCalls, map_bind]
  congr 1
  funext genesis
  cases ChainProfile.ofGenesis? genesis with
  | none => exact endpoint.fetchByPlan_eq demand finalized blocks
  | some profile => exact endpoint.fetchByProfile_eq demand blocks profile

/-- To enrich blocks is to add to them what each call of the round brings, one after another. -/
theorem enrich_eq_inTurn :
    endpoint.enrich demand finalized blocks =
      enrichInTurn blocks <$> endpoint.roundCalls demand finalized blocks := by
  rw [enrich_eq_additions, additions, fetches, roundCalls]
  split
  case isTrue none =>
    rw [List.isEmpty_iff.mp none]
    rfl
  case isFalse =>
    have merged (logs receipts : Option (List Enrichment))
        (traces : List (Option (List Enrichment))) :
        enrichEach blocks (mergeAll blocks.length
          [logs, receipts, some (mergeAll blocks.length traces)]) =
            enrichInTurn blocks (logs :: receipts :: traces) := by
      have stages := enrichInTurn_merged blocks [logs, receipts] traces []
      rwa [← enrichEach_mergeAll, List.append_nil] at stages
    have unmade (logs receipts : Option (List Enrichment)) :
        enrichEach blocks (mergeAll blocks.length [logs, receipts, none]) =
          enrichInTurn blocks [logs, receipts] := by
      rw [enrichEach_mergeAll]
      cases logs <;> cases receipts <;> rfl
    cases demand.traces || demand.stateDiffs with
    | true => simp [fetchIf, callsIf, fetchTraces_eq, merged]
    | false => simp [fetchIf, callsIf, unmade]

section Counted

variable {endpoint demand finalized blocks} {memo : Memo}

/-- Whether a call, if it is made, brings one addition for each block. -/
def Counted (blocks : List FetchedBlock) (call : Option (List Enrichment)) : Prop :=
  ∀ additions ∈ call, additions.length = blocks.length

theorem Counted.of_toEach {adds : List Exchange → FetchedBlock → Enrichment → Prop}
    {said : List Exchange} {additions : List Enrichment}
    (toEach : AddsToEach adds blocks said additions) : Counted blocks (some additions) := by
  rintro _ ⟨⟩
  exact (toEach said (List.Subset.refl _)).length_eq.symm

theorem meets_fetchIf_counted {wanted : Bool} {fetch : Dialogue σ (List Enrichment)}
    (counted : wanted = true →
      Meets True memo fetch fun additions _ _ => Counted blocks (some additions)) :
    Meets True memo (fetchIf wanted fetch) fun call _ _ => Counted blocks call := by
  cases wanted with
  | true => exact Meets.map (counted rfl)
  | false => exact .pure fun _ member => by cases member

theorem meets_callsIf {wanted : Bool} {made : Dialogue σ (List (Option (List Enrichment)))}
    (counted : Meets True memo made fun calls _ _ => ∀ call ∈ calls, Counted blocks call) :
    Meets True memo (callsIf wanted made) fun calls _ _ => ∀ call ∈ calls, Counted blocks call := by
  cases wanted with
  | true => exact counted
  | false => exact .pure fun _ member => absurd member List.not_mem_nil

theorem meets_planCalls :
    Meets True memo (endpoint.planCalls demand finalized blocks) fun calls _ _ =>
      ∀ call ∈ calls, Counted blocks call := by
  have hears := hears_record endpoint
  refine Meets.bind (meets_fetchIf_counted fun _ => Meets.mono (meets_fetchPrestates_brings hears)
    fun _ _ _ brings => .of_toEach brings.1) ?_
  intro prestates _ _ ofPrestates
  refine Meets.bind (meets_fetchIf_counted fun _ => Meets.mono
    (meets_fetchTraceBlocks_brings hears) fun _ _ _ brings => .of_toEach brings.1) ?_
  intro frames _ _ ofFrames
  refine Meets.bind (meets_fetchIf_counted fun _ => Meets.mono (meets_fetchCallTrees_brings hears)
    fun _ _ _ brings => .of_toEach brings.1) ?_
  intro callTrees _ _ ofCallTrees
  refine Meets.bind (meets_fetchIf_counted fun used => Meets.mono (meets_fetchReplays_brings hears
    ((Bool.not_eq_true' _).mp used)) fun _ _ _ brings => .of_toEach brings.1) ?_
  intro replays _ _ ofReplays
  refine .pure ?_
  simpa using ⟨ofPrestates, ofFrames, ofCallTrees, ofReplays⟩

theorem meets_profileCalls {profile : ChainProfile} :
    Meets True memo (endpoint.profileCalls demand blocks profile) fun calls _ _ =>
      ∀ call ∈ calls, Counted blocks call := by
  have hears := hears_record endpoint
  unfold profileCalls
  dsimp only
  split
  case isTrue => exact Meets.bind (.throw trivial) fun _ _ _ (none : False) => none.elim
  case isFalse =>
    split
    case isTrue => exact .pure (by simp)
    case isFalse =>
      refine Meets.bind (meets_fetchReplays_brings hears rfl) ?_
      rintro replays saidFirst _ ⟨bringReplays, _⟩
      apply Meets.bind (meets_fetchCallTrees_brings hears)
      rintro callTrees saidSecond _ ⟨bringCallTrees, _⟩
      refine .pure ?_
      have ofReplays := forall₂_spread_filter (bringReplays saidFirst (List.Subset.refl _))
      have ofCallTrees := forall₂_spread_filter (bringCallTrees saidSecond (List.Subset.refl _))
      simpa [Counted] using ⟨ofReplays.length_eq.symm, ofCallTrees.length_eq.symm⟩

theorem meets_traceCalls :
    Meets True memo (endpoint.traceCalls demand finalized blocks) fun calls _ _ =>
      ∀ call ∈ calls, Counted blocks call := by
  apply Meets.bind meets_genesisHash
  intro genesis _ _ _
  cases ChainProfile.ofGenesis? genesis with
  | none => exact meets_planCalls
  | some profile => exact meets_profileCalls

/-- Every call that is made in a round brings one addition for each block. -/
theorem meets_roundCalls :
    Meets True memo (endpoint.roundCalls demand finalized blocks) fun calls _ _ =>
      ∀ call ∈ calls, Counted blocks call := by
  unfold roundCalls
  split
  case isTrue => exact .pure fun _ member => absurd member List.not_mem_nil
  case isFalse =>
    refine Meets.bind (meets_fetchIf_counted fun _ =>
      Meets.mono meets_fetchLogs fun _ _ _ adds => .of_toEach adds) ?_
    intro logs _ _ ofLogs
    refine Meets.bind (meets_fetchIf_counted fun _ =>
      Meets.mono meets_fetchReceipts fun _ _ _ adds => .of_toEach adds) ?_
    intro receipts _ _ ofReceipts
    apply Meets.bind (meets_callsIf meets_traceCalls)
    intro traces _ _ ofTraces
    refine .pure ?_
    rw [List.forall_mem_cons, List.forall_mem_cons]
    exact ⟨ofLogs, ofReceipts, ofTraces⟩

end Counted

/-- Additions form a monoid that acts on blocks.  So to merge what some calls bring, and then what
comes of it with what others bring, is to add all of it in turn, whichever calls are not made and
however much each of them brings.  A block is valid afterwards if it was before and no call has a
reason against it, and the first reason stays.  A round of enrichment does just that with all its
calls, each of which brings one addition for each block. -/
theorem enrich_inStages (former inner latter : List (Option (List Enrichment)))
    (block : FetchedBlock) (first second third : Enrichment) :
    ((first.merge second).merge third = first.merge (second.merge third) ∧
      empty.merge first = first ∧ first.merge empty = first) ∧
    (block.enrich empty = block ∧
      (block.enrich first).enrich second = block.enrich (first.merge second)) ∧
    (let calls := former ++ inner ++ latter
      let enriched := enrichEach blocks (mergeAll blocks.length
        (former ++ some (mergeAll blocks.length inner) :: latter))
      enriched = (calls.filterMap id).foldl enrichEach blocks ∧
      enriched.map (·.isValid) = blocks.mapIdx (fun position block =>
        block.isValid && (additionsAt calls position).all isSound) ∧
      enriched.map (·.data.defect) = blocks.mapIdx (fun position block =>
        block.data.defect <|> (additionsAt calls position).findSome? (·.defect))) ∧
    endpoint.enrich demand finalized blocks =
      (fun calls => (calls.filterMap id).foldl enrichEach blocks) <$>
        endpoint.roundCalls demand finalized blocks ∧
    ∀ session calls final,
      (endpoint.roundCalls demand finalized blocks).run.run session = (.ok calls, final) →
        ∀ additions, some additions ∈ calls → additions.length = blocks.length := by
  refine ⟨⟨merge_assoc first second third, empty_merge first, merge_empty first⟩,
    ⟨enrich_empty block, enrich_enrich block first second⟩, ?_,
    endpoint.enrich_eq_inTurn demand finalized blocks, ?_⟩
  · intro calls enriched
    have inTurn : enriched = enrichInTurn blocks calls :=
      (enrichEach_mergeAll blocks _).trans (enrichInTurn_merged blocks former inner latter)
    refine ⟨inTurn, ?_, ?_⟩
    · rw [inTurn, map_enrichInTurn]
      simp only [isValid_foldl_enrich]
    · rw [inTurn, map_enrichInTurn]
      simp only [defect_foldl_enrich]
  · intro session calls final run additions member
    obtain ⟨_, _, counted⟩ := meets_roundCalls.of_run rfl run
    exact counted _ member additions rfl

/-- Block eight is asked for its logs and its trace block, and each call brings one addition. -/
theorem enrich_inStages_bloomingBlock :
    ∃ calls final,
      (listingEndpoint.roundCalls listingDemand none [.ofBlock bloomingBlock]).run.run (.start ()) =
        (.ok calls, final) ∧
      calls.map Option.isSome = [true, false, false, true, false, false] ∧
        ∀ additions, some additions ∈ calls → additions.length = 1 := by
  have observed : ((listingEndpoint.roundCalls listingDemand none
      [.ofBlock bloomingBlock]).run.run (.start ())).1.toOption.map (·.map Option.isSome) =
        some [true, false, false, true, false, false] := by decide +kernel
  obtain ⟨calls, run, made⟩ := exists_of_observed observed
  obtain ⟨_, _, _, _, counted⟩ := enrich_inStages listingEndpoint listingDemand none
    [.ofBlock bloomingBlock] [] [] [] (.ofBlock bloomingBlock) empty empty empty
  exact ⟨calls, _, run, made, counted _ calls _ run⟩

/-- Of two reasons the earlier one stays, and an empty list of logs is not a missing one. -/
example :
    let merged := mergeAll 2
      [ some [{ empty with logs := some [] }, .defective .missingLogs], none,
        some [.defective .missingReceipts, .defective .missingTraces] ]
    merged.map (·.defect) = [some .missingReceipts, some .missingLogs] ∧
      merged.map (·.logs.isSome) = [true, false] := by decide

end Endpoint

end ChainFeed
