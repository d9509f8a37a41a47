import ChainFeed.Proofs.Consistency
import ChainFeed.Proofs.FrameGroups
import ChainFeed.Proofs.ProjectionFaults
import ChainFeed.Proofs.Splits

/-!
# Fetched blocks can be projected

What a fetch comes to is what a projection needs: the receipts that are demanded are
there, and no two sources have the same kind of item.  So a fetched block that cannot be
projected has an item whose content is at fault.
-/

namespace ChainFeed

open Dialogue

/-! ## Plans -/

namespace TracePlan

variable {demand : Demand} {preferTraceApi debugStateDiffs unfinalized : Bool}

/-- With snapshots nothing is replayed. -/
theorem replay_isEmpty_of_prestates
    (prestates : (of demand preferTraceApi debugStateDiffs unfinalized).prestates = true) :
    (of demand preferTraceApi debugStateDiffs unfinalized).replay.isEmpty = true := by
  simp only [of, ReplayOutputs.isEmpty] at prestates ⊢
  revert prestates
  cases demand.traces <;> cases demand.stateDiffs <;> cases preferTraceApi <;>
    cases debugStateDiffs <;> cases unfinalized <;> decide

/-- With call trees neither trace blocks nor the frames of replays are used. -/
theorem eq_false_of_callTrees
    (callTrees : (of demand preferTraceApi debugStateDiffs unfinalized).callTrees = true) :
    (of demand preferTraceApi debugStateDiffs unfinalized).traceBlock = false ∧
      (of demand preferTraceApi debugStateDiffs unfinalized).replay.trace = false := by
  simp only [of] at callTrees ⊢
  revert callTrees
  cases demand.traces <;> cases demand.stateDiffs <;> cases preferTraceApi <;>
    cases debugStateDiffs <;> cases unfinalized <;> decide

end TracePlan

/-! ## Sources of traces and state diffs -/

/-- Whether the replays of an addition say nothing about state diffs. -/
def NoReplayedDiffs (addition : Enrichment) : Prop :=
  ∀ replay ∈ addition.replays.getD [], replay.stateDiff = none

theorem framesOfBlock_noReplayedDiffs (skipped : SkippedChecks) (block : FetchedBlock)
    (frames : List Raw.TraceFrame) : NoReplayedDiffs (framesOfBlock skipped block frames) := by
  unfold NoReplayedDiffs framesOfBlock
  split
  · split <;> simp [Enrichment.defective, Enrichment.empty]
  · split
    · simp [Enrichment.defective, Enrichment.empty]
    · exact Raw.stateDiff_of_groupFrames frames

namespace Endpoint

variable {σ : Type} {endpoint : Endpoint σ} {record : List Exchange} {block : FetchedBlock}
  {addition : Enrichment}

/-- Whether replays are told by what was answered to a call for state diffs only. -/
def FromStateDiffCall (endpoint : Endpoint σ) (record : List Exchange) (block : FetchedBlock)
    (replay : Raw.Replay) : Prop :=
  ∃ answers, Heard record (replaysCall replayMethod ⟨false, true⟩ block) endpoint.options
    (Json.list? Raw.Replay.ofJson?) answers ∧ ∃ answer ∈ answers, replay.trace = answer.trace

/-- Whether the sources of traces and state diffs of a block do not have the same kind of
item, and refer to transactions of the block. -/
structure SourcesApart (endpoint : Endpoint σ) (record : List Exchange) (block : FetchedBlock)
    (addition : Enrichment) : Prop where
  stateDiffs : addition.prestates.isSome = true → NoReplayedDiffs addition
  traces : addition.callTrees.isSome = true →
    ∀ replay ∈ addition.replays.getD [], endpoint.FromStateDiffCall record block replay
  named : addition.defect = none → FromTraceBlock endpoint record block addition.replays ∨
    ∀ replay ∈ addition.replays.getD [], ∃ hash ∈ block.block.transactions.toHashes,
      replay.transactionHash = some hash

/-- An addition of traces and state diffs from sources that keep apart. -/
structure AddsApart (endpoint : Endpoint σ) (record : List Exchange) (block : FetchedBlock)
    (addition : Enrichment) : Prop where
  only : addition = { addition with logs := none, receipts := none }
  apart : SourcesApart endpoint record block addition

theorem empty_sourcesApart : SourcesApart endpoint record block .empty where
  stateDiffs := by simp [NoReplayedDiffs, Enrichment.empty]
  traces := by simp [Enrichment.empty]
  named _ := by simp [Enrichment.empty]

theorem FramesBring.noReplayedDiffs
    (brings : endpoint.FramesBring (OnRecord record) block addition) :
    NoReplayedDiffs addition := by
  obtain ⟨frames, _, rfl⟩ := brings
  exact framesOfBlock_noReplayedDiffs _ _ _

/-- Replays have the frames of the answers that they are made of. -/
theorem ReplaysBring.frames {method : String} {outputs : ReplayOutputs}
    (brings : endpoint.ReplaysBring (OnRecord record) method outputs block addition) :
    ∃ answers, Heard record (replaysCall method outputs block) endpoint.options
        (Json.list? Raw.Replay.ofJson?) answers ∧
      ∀ replay ∈ addition.replays.getD [], ∃ answer ∈ answers, replay.trace = answer.trace := by
  obtain ⟨answers, named, reads, renamed, rfl⟩ := brings
  refine ⟨answers, reads.heard, fun replay member => ?_⟩
  obtain ⟨answer, isAnswer, same⟩ := exists_mem_of_forall₂ (forall₂_of_mapM_eq_ok renamed) member
  obtain ⟨_, _, rfl⟩ := Raw.Replay.named_eq_ok same
  exact ⟨answer, isAnswer, rfl⟩

/-- Replays of a replay call name transactions of the block. -/
theorem named_of_addsReplays (adds : AddsReplays endpoint record block addition)
    (sound : addition.defect = none) :
    ∀ replay ∈ addition.replays.getD [], ∃ hash ∈ block.block.transactions.toHashes,
      replay.transactionHash = some hash := by
  cases found : addition.replays with
  | none => simp
  | some replays =>
      intro replay member
      obtain ⟨_, _, _, _, each⟩ := adds.consistent sound replays found
      obtain ⟨_, _, hash, isTransaction, _, rfl⟩ := exists_mem_of_forall₂ each member
      exact ⟨hash, isTransaction, rfl⟩

/-- The methods of a plan keep apart. -/
theorem addsApart_of_plan {demand : Demand} {preferTraceApi debugStateDiffs unfinalized : Bool}
    (together : Together (endpoint.planMethods (OnRecord record)
      (TracePlan.of demand preferTraceApi debugStateDiffs unfinalized)) block addition) :
    AddsApart endpoint record block addition := by
  obtain ⟨additions, each, rfl⟩ := together
  obtain _ | ⟨ofPrestates, _ | ⟨ofFrames, _ | ⟨ofCallTrees, _ | ⟨ofReplays, _ | _⟩⟩⟩⟩ := each
  rename_i prestates frames callTrees replays
  have addsPrestates := ofPrestates.elim PrestatesBring.adds empty_addsPrestates
  have addsCallTrees := ofCallTrees.elim CallTreesBring.adds empty_addsCallTrees
  have addsReplays := ofReplays.elim ReplaysBring.adds empty_addsReplays
  have merged := merge_traces addsPrestates (ofFrames.elim (fun brings => brings.adds.only) rfl)
    addsCallTrees addsReplays.only
  simp only [List.foldl_cons, List.foldl_nil, Enrichment.empty_merge]
  refine ⟨by rw [merged]; rfl, ?_⟩
  constructor
  case stateDiffs =>
    rw [merged]
    intro isSome
    have used := AddsIf.used_of_ne ofPrestates (by rintro rfl; simp [Enrichment.empty] at isSome)
    rw [ofReplays.eq_empty (by rw [TracePlan.replay_isEmpty_of_prestates used]; rfl)]
    have noDiffs : NoReplayedDiffs frames :=
      ofFrames.elim FramesBring.noReplayedDiffs (by simp [NoReplayedDiffs, Enrichment.empty])
    simpa [NoReplayedDiffs, Enrichment.empty] using noDiffs
  case traces =>
    rw [merged]
    intro isSome
    have used := AddsIf.used_of_ne ofCallTrees (by rintro rfl; simp [Enrichment.empty] at isSome)
    obtain ⟨noFrames, untraced⟩ := TracePlan.eq_false_of_callTrees used
    rw [ofFrames.eq_empty noFrames]
    have fromCall : ∀ replay ∈ replays.replays.getD [],
        endpoint.FromStateDiffCall record block replay := by
      cases replayed : !(TracePlan.of demand preferTraceApi debugStateDiffs
        unfinalized).replay.isEmpty with
      | false => simp [ofReplays.eq_empty replayed, Enrichment.empty]
      | true =>
          have outputs : (TracePlan.of demand preferTraceApi debugStateDiffs
              unfinalized).replay = ⟨false, true⟩ := by
            simp [ReplayOutputs.isEmpty, untraced] at replayed
            rw [← untraced, ← replayed]
          obtain ⟨answers, heard, frames⟩ := ReplaysBring.frames (ofReplays.of_used replayed)
          rw [outputs] at heard
          exact fun replay member => ⟨answers, heard, frames replay member⟩
    simpa [Enrichment.empty] using fromCall
  case named =>
    intro sound
    simp only [Enrichment.merge_defect_eq_none] at sound
    obtain ⟨⟨⟨_, framesSound⟩, _⟩, replaysSound⟩ := sound
    rw [merged]
    cases used : (TracePlan.of demand preferTraceApi debugStateDiffs unfinalized).traceBlock with
    | true =>
        have consistent := (FramesBring.adds (ofFrames.of_used used)).consistent framesSound
        rw [ofReplays.eq_empty (by rw [TracePlan.replay_isEmpty_of_traceBlock used]; rfl)]
        exact .inl (by simpa [Enrichment.empty] using consistent)
    | false =>
        rw [ofFrames.eq_empty used]
        exact .inr (by simpa [Enrichment.empty] using named_of_addsReplays addsReplays replaysSound)

/-- The methods of a profile keep apart. -/
theorem addsApart_of_profile {profile : ChainProfile}
    (together : Together (endpoint.profileMethods (OnRecord record) profile) block addition) :
    AddsApart endpoint record block addition := by
  obtain ⟨additions, each, rfl⟩ := together
  obtain _ | ⟨ofReplays, _ | ⟨ofCallTrees, _ | _⟩⟩ := each
  rename_i replays callTrees
  have addsReplays := ofReplays.elim ReplaysBring.adds empty_addsReplays
  have addsCallTrees := ofCallTrees.elim CallTreesBring.adds empty_addsCallTrees
  have merged := merge_replays_callTrees addsReplays.only addsCallTrees
  simp only [List.foldl_cons, List.foldl_nil, Enrichment.empty_merge]
  refine ⟨by rw [merged]; rfl, ?_⟩
  constructor
  case stateDiffs =>
    rw [merged]
    simp [NoReplayedDiffs, Enrichment.empty]
  case traces =>
    rw [merged]
    intro isSome
    have debugged := AddsIf.used_of_ne ofCallTrees
      (by rintro rfl; simp [Enrichment.empty] at isSome)
    have unreplayed : profile.isReplayed block = false := by
      revert debugged
      unfold ChainProfile.isReplayed ChainProfile.isDebugged
      cases profile.traceMethod block.height <;> simp
    rw [ofReplays.eq_empty unreplayed]
    simp [Enrichment.empty]
  case named =>
    intro sound
    have named := named_of_addsReplays addsReplays (Enrichment.merge_defect_eq_none.mp sound).1
    rw [merged]
    exact .inr named

theorem addsApart_of_traces {demand : Demand} {unfinalized : Bool} {genesis : Hash}
    (brings : endpoint.TracesBring (OnRecord record) demand unfinalized genesis block addition) :
    AddsApart endpoint record block addition := by
  cases profiled : ChainProfile.ofGenesis? genesis with
  | none =>
      rw [TracesBring, profiled] at brings
      exact addsApart_of_plan brings
  | some profile =>
      rw [TracesBring, profiled] at brings
      cases traced : demand.traces with
      | true =>
          simp only [traced, if_true] at brings
          exact addsApart_of_profile brings
      | false =>
          simp only [traced, Bool.false_eq_true, if_false] at brings
          exact brings ▸ ⟨rfl, empty_sourcesApart⟩

/-! ## Whole blocks -/

/-- What one round brings for a block, with sources that keep apart. -/
def RoundBrings (endpoint : Endpoint σ) (demand : Demand) (record : List Exchange) :
    FetchedBlock → Enrichment → Prop :=
  Together
    [ fun block => AddsIf demand.logs (AddsLogs endpoint.config.skippedChecks block),
      fun block => AddsIf demand.receipts (AddsReceipts endpoint record block),
      fun block => AddsIf (demand.traces || demand.stateDiffs) (AddsApart endpoint record block) ]

theorem meets_additions_apart {memo : Memo} {demand : Demand} {finalized : Option UInt64}
    {blocks : List FetchedBlock} :
    Meets True memo (endpoint.additions demand finalized blocks) fun additions said _ =>
      AddsToEach (endpoint.RoundBrings demand) blocks said additions ∧ True := by
  refine meets_additions (fun _ _ _ => ?_) (fun _ _ _ => ?_) (fun _ _ _ => ?_) trivial
  · exact Meets.mono meets_fetchLogs fun _ _ _ adds => ⟨adds, trivial⟩
  · exact Meets.mono meets_fetchReceipts fun _ _ _ adds => ⟨adds, trivial⟩
  · apply Meets.mono (meets_fetchTraces_brings (hears_record endpoint) meets_genesisHash)
    rintro additions said _ ⟨genesis, _, bring⟩
    refine ⟨fun record kept => (bring record kept).imp ?_, trivial⟩
    exact fun _ _ => addsApart_of_traces

/-- Whether what was added to a block goes together with a demand. -/
structure GoesTogether (endpoint : Endpoint σ) (demand : Demand) (record : List Exchange)
    (block : FetchedBlock) (data : Enrichment) : Prop where
  logs : demand.logs = false → data.logs = none
  receipts : demand.receipts = true → ∃ receipts, data.receipts = some receipts ∧
    ReceiptsOf endpoint record block receipts
  apart : SourcesApart endpoint record block data

/-- What one round brings without a defect goes together. -/
theorem goesTogether_of_round {demand : Demand}
    (brings : endpoint.RoundBrings demand record block addition)
    (sound : addition.defect = none) : GoesTogether endpoint demand record block addition := by
  obtain ⟨additions, each, rfl⟩ := brings
  obtain _ | ⟨ofLogs, _ | ⟨ofReceipts, _ | ⟨ofTraces, _ | _⟩⟩⟩ := each
  have addsApart := ofTraces.elim id ⟨rfl, empty_sourcesApart⟩
  have merged := merge_parts (ofLogs.elim AddsLogs.only rfl)
    (ofReceipts.elim AddsReceipts.only rfl) addsApart.only
  simp only [List.foldl_cons, List.foldl_nil, Enrichment.empty_merge,
    Enrichment.merge_defect_eq_none] at sound ⊢
  obtain ⟨⟨_, receiptsSound⟩, tracesSound⟩ := sound
  rw [merged]
  constructor
  case logs =>
    intro unlisted
    rw [ofLogs.eq_empty unlisted]
    rfl
  case receipts => exact fun demanded => (ofReceipts.of_used demanded).consistent receiptsSound
  case apart =>
    obtain ⟨stateDiffs, traces, named⟩ := addsApart.apart
    exact ⟨stateDiffs, traces, fun _ => named tracesSound⟩

/-- Whether no replay that was asked for state diffs only came with frames. -/
def NoUnaskedFrames (endpoint : Endpoint σ) (said : List Exchange) : Prop :=
  ∀ (height : UInt64) (replays : List Raw.Replay),
    Heard said ⟨replayMethod, [heightParam height, .arr [.str "stateDiff"]]⟩ endpoint.options
        (Json.list? Raw.Replay.ofJson?) replays →
      ∀ replay ∈ replays, replay.trace.getD [] = []

/-- Whether a fetched block can be projected as far as its parts go together. -/
structure Projectable (endpoint : Endpoint σ) (demand : Demand) (said : List Exchange)
    (fetched : FetchedBlock) : Prop where
  receipts : fetched.project demand ≠ .error .missingReceipts
  logs : fetched.project demand ≠ .error .duplicateLogSource
  stateDiffs : fetched.project demand ≠ .error .duplicateStateDiffSource
  transactions : endpoint.config.skippedChecks.receiptsNumber = false →
    ∀ position, fetched.project demand ≠ .error (.receiptWithoutTransaction position)
  traces : endpoint.NoUnaskedFrames said →
    fetched.project demand ≠ .error .duplicateTraceSource
  /-- Only frames of a trace block can be those of another block's transaction. -/
  replays : ¬FromTraceBlock endpoint said (.ofBlock fetched.block) fetched.data.replays →
    ∀ hash, fetched.project demand ≠ .error (.unknownReplayTransaction hash)

theorem projectable_of_goesTogether {request : Request} {fields : FieldSelection}
    {fetched : FetchedBlock} (valid : fetched.isValid = true)
    (together : GoesTogether endpoint (Demand.of request fields) record (.ofBlock fetched.block)
      fetched.data) :
    Projectable endpoint (Demand.of request fields) record fetched := by
  have fails := fetched.project_fails (Demand.of request fields)
  have sound := Option.isNone_iff_eq_none.mp valid
  constructor
  case receipts =>
    intro isFault
    cases fails _ isFault with
    | content isContent => exact isContent
    | missingReceipts demanded missing =>
        obtain ⟨_, found, _⟩ := together.receipts demanded
        exact absurd found (by simp [missing])
  case logs =>
    intro isFault
    cases fails _ isFault with
    | content isContent => exact isContent
    | duplicateLogSource demanded listed =>
        have unlisted : (Demand.of request fields).logs = false := by
          simp only [Demand.of] at demanded ⊢
          rw [demanded, Bool.not_true, Bool.and_false]
        rw [together.logs unlisted] at listed
        exact absurd listed (by simp)
  case stateDiffs =>
    intro isFault
    cases fails _ isFault with
    | content isContent => exact isContent
    | duplicateStateDiffSource prestates member changes =>
        exact changes (together.apart.stateDiffs prestates _ member)
  case transactions =>
    intro checked position isFault
    cases fails _ isFault with
    | content isContent => exact isContent
    | receiptWithoutTransaction demanded found more =>
        obtain ⟨receipts, same, consistent⟩ := together.receipts demanded
        rw [found, Option.some.injEq] at same
        have built : (Demand.of request fields).transactionList = true :=
          (Bool.and_eq_true_iff.mp demanded).1
        have fewer := more built
        rw [same, consistent.count checked] at fewer
        exact Nat.lt_irrefl _ fewer
  case traces =>
    intro unasked isFault
    cases fails _ isFault with
    | content isContent => exact isContent
    | duplicateTraceSource trees member frames =>
        obtain ⟨answers, heard, answer, isAnswer, same⟩ := together.apart.traces trees _ member
        rw [same] at frames
        exact frames (unasked fetched.height answers heard answer isAnswer)
  case replays =>
    intro notFrames hash isFault
    cases fails _ isFault with
    | content isContent => exact isContent
    | unknownReplayTransaction member unknown =>
        obtain ⟨hash, isTransaction, named⟩ :=
          (together.apart.named sound).resolve_left notFrames _ member
        rw [named] at unknown
        exact unknown isTransaction

/-! ## Fetches -/

/-- The ways to fetch blocks with what a demand asks for. -/
inductive Fetch where
  | finalizedSplit (heights : List UInt64)
  | finalizedBlock (hash : Hash) (finalized : Option UInt64)
  | headSplit (first last finalized : UInt64)

/-- The dialogue of a fetch, with the list of all blocks that it ends with. -/
def Fetch.dialogue (endpoint : Endpoint σ) (demand : Demand) :
    Fetch → Dialogue σ (List FetchedBlock)
  | finalizedSplit heights => endpoint.finalizedSplit heights demand
  | finalizedBlock hash finalized =>
      ([·]) <$> endpoint.finalizedBlock hash (some demand) finalized
  | headSplit first last finalized => endpoint.headSplit first last demand finalized

theorem meets_fetch {memo : Memo} {demand : Demand} (fetch : Fetch) :
    Meets True memo (fetch.dialogue endpoint demand) fun blocks said _ =>
      ∀ block ∈ blocks, Enriched (endpoint.RoundBrings demand said) block := by
  have rounds : ∀ (finalized : Option UInt64) (raws : List Raw.Block) (memo : Memo), True →
      Meets True memo (endpoint.additions demand finalized (raws.map .ofBlock))
        fun additions said _ => AddsToEach (endpoint.RoundBrings demand) (raws.map .ofBlock) said
          additions ∧ True :=
    fun _ _ _ _ => meets_additions_apart
  cases fetch with
  | finalizedSplit heights =>
      apply Meets.mono (meets_finalizedSplit (hears_record endpoint)
        (fun _ _ _ asked _ => rounds none asked) trivial)
      rintro blocks said _ ⟨each, _⟩ block member
      obtain ⟨_, _, _, enriched⟩ :=
        exists_mem_of_forall₂ (each said (List.Subset.refl said)) member
      exact enriched
  | finalizedBlock hash finalized =>
      apply Meets.map
      apply Meets.mono (meets_finalizedBlock_brings (rounds finalized) trivial)
      rintro block said _ ⟨enriched, _⟩ other member
      rw [List.mem_singleton.mp member]
      exact enriched said (List.Subset.refl said)
  | headSplit first last finalized =>
      apply Meets.mono (meets_headSplit_brings (rounds (some finalized)) trivial)
      rintro blocks said _ ⟨enriched, _⟩
      exact enriched said (List.Subset.refl said)

/-- What is projected of a fetched block fails only by the content of its items, as far as
the number of receipts is checked and the node does not answer what was not asked. -/
theorem fetch_projectable (endpoint : Endpoint σ) (request : Request) (fields : FieldSelection)
    (fetch : Fetch) {session final : Session σ} {blocks : List FetchedBlock}
    (run : (fetch.dialogue endpoint (Demand.of request fields)).run.run session =
      (.ok blocks, final)) :
    ∃ said, final.transcript = session.transcript ++ said ∧
      ∀ block ∈ blocks, Projectable endpoint (Demand.of request fields) said block := by
  obtain ⟨said, recorded, enriched⟩ := (meets_fetch fetch).of_run rfl run
  refine ⟨said, recorded, fun block member => ?_⟩
  obtain ⟨brought, valid⟩ := enriched block member
  exact projectable_of_goesTogether valid
    (goesTogether_of_round brought (Option.isNone_iff_eq_none.mp valid))

/-- A node of one transaction, with a receipt, a call tree and a replay of it. -/
def tracingNode : Node Unit where
  url := ""
  answer call _ _ :=
    let word := Json.arr (List.replicate 32 (.int 0))
    let block := Json.obj
      [ ("number", .str "0x0"), ("hash", word), ("parentHash", word),
        ("logsBloom", .arr (List.replicate 256 (.int 0))), ("transactions", .arr []) ]
    match call.method with
    | "eth_getBlockByNumber" => (.ok block, ())
    | _ => (.error (.server (-32601) "method not found"), ())
  answerBatch calls _ _ :=
    let word := Json.arr (List.replicate 32 (.int 0))
    let block := Json.obj
      [ ("number", .str "0x8"), ("hash", word), ("parentHash", word),
        ("logsBloom", .arr (List.replicate 256 (.int 0))), ("transactions", .arr [word]) ]
    let receipt := Json.obj
      [ ("blockNumber", .str "0x8"), ("blockHash", word), ("transactionIndex", .str "0x0"),
        ("transactionHash", word), ("logs", .arr []), ("status", .str "0x1") ]
    let tree := Json.obj
      [ ("result", .obj [("type", .str "STOP")]), ("txHash", word) ]
    let replay := Json.obj
      [ ("transactionHash", word), ("stateDiff", .obj []), ("trace", .arr []) ]
    let reply := fun (call : Call) =>
      match call.method with
      | "eth_getBlockByNumber" => block
      | "eth_getTransactionReceipt" => receipt
      | "debug_traceBlockByHash" => .arr [tree]
      | _ => .arr [replay]
    (.ok (calls.map reply), ())

/-- A demand for logs with all that belongs to their transactions. -/
def logsWithAll : Request :=
  { Request.empty with logs := [⟨none, none, none, none, none, ⟨true, true, true, true⟩⟩] }

/-- A selection of the status of transactions. -/
def statusOnly : FieldSelection :=
  { FieldSelection.off with transaction := { TransactionFields.off with status := true } }

/-- A block with a receipt, a call tree and a replay can be projected. -/
theorem fetch_projectable_tracingNode :
    ∃ (blocks : List FetchedBlock) (final : Session Unit) (said : List Exchange),
      ((Fetch.finalizedSplit [8]).dialogue (.of tracingNode .standard)
          (Demand.of logsWithAll statusOnly)).run.run (.start ()) = (.ok blocks, final) ∧
        (blocks.map fun block => (block.data.receipts.map List.length,
          block.data.callTrees.map List.length, block.data.replays.map List.length)) =
            [(some 1, some 1, some 1)] ∧
          final.transcript = said ∧
            ∀ block ∈ blocks, Projectable (.of tracingNode .standard)
              (Demand.of logsWithAll statusOnly) said block := by
  have observed : ((((Fetch.finalizedSplit [8]).dialogue (.of tracingNode .standard)
      (Demand.of logsWithAll statusOnly)).run.run (.start ())).1.toOption.map
        fun blocks => blocks.map fun block => (block.data.receipts.map List.length,
          block.data.callTrees.map List.length, block.data.replays.map List.length)) =
            some [(some 1, some 1, some 1)] := by
    decide +kernel
  obtain ⟨blocks, run, kinds⟩ := exists_of_observed observed
  obtain ⟨said, recorded, projectable⟩ := fetch_projectable (.of tracingNode .standard)
    logsWithAll statusOnly (.finalizedSplit [8]) run
  exact ⟨blocks, _, said, run, kinds, recorded, projectable⟩

end Endpoint

end ChainFeed
