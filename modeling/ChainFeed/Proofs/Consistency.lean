import ChainFeed.Proofs.Sources

/-!
# Consistency of enriched blocks

One round of enrichment asks a node in up to three ways for every block, and the
traces again in up to four.  The additions of all of them are merged, and whatever
the node answered, a block that is left without a defect is consistent.
-/

namespace ChainFeed

open Dialogue

/-! ## Choice of methods -/

/-- Trace blocks and replays are never used together. -/
theorem TracePlan.replay_isEmpty_of_traceBlock {demand : Demand}
    {preferTraceApi debugStateDiffs unfinalized : Bool}
    (traceBlock : (TracePlan.of demand preferTraceApi debugStateDiffs unfinalized).traceBlock =
      true) :
    (TracePlan.of demand preferTraceApi debugStateDiffs unfinalized).replay.isEmpty = true := by
  simp only [TracePlan.of, ReplayOutputs.isEmpty] at traceBlock ⊢
  revert traceBlock
  cases demand.traces <;> cases demand.stateDiffs <;> cases preferTraceApi <;>
    cases debugStateDiffs <;> cases unfinalized <;> decide

/-- Trace blocks are used for traces only. -/
theorem TracePlan.traces_of_traceBlock {demand : Demand}
    {preferTraceApi debugStateDiffs unfinalized : Bool}
    (traceBlock : (TracePlan.of demand preferTraceApi debugStateDiffs unfinalized).traceBlock =
      true) :
    demand.traces = true := by
  simp only [TracePlan.of, Bool.and_eq_true] at traceBlock
  exact traceBlock.1.1

namespace Endpoint

variable {σ : Type} {memo : Memo} {endpoint : Endpoint σ}

/-- Whether the replays of blocks come from trace blocks: the chain has no profile,
and the plan says so. -/
def UsesTraceBlocks (endpoint : Endpoint σ) (demand : Demand) (finalized : Option UInt64)
    (blocks : List FetchedBlock) (memo : Memo) : Prop :=
  ∃ genesis, memo.genesisHash = some genesis ∧ ChainProfile.ofGenesis? genesis = none ∧
    (endpoint.tracePlan demand finalized blocks).traceBlock = true

/-! ## Methods one by one -/

section OneMethod

variable {record : List Exchange} {block : FetchedBlock} {addition : Enrichment}

theorem empty_addsReplays : AddsReplays endpoint record block .empty :=
  ⟨rfl, fun _ _ found => absurd found (by simp [Enrichment.empty])⟩

theorem empty_addsCallTrees : AddsCallTrees block .empty :=
  ⟨rfl, fun _ found => absurd found (by simp [Enrichment.empty])⟩

theorem empty_addsPrestates : AddsPrestates block .empty :=
  ⟨rfl, fun _ found => absurd found (by simp [Enrichment.empty])⟩

theorem BlockReceiptsBring.adds {method : ReceiptsMethod} (byBlock : method ≠ .transactionReceipt)
    (brings : endpoint.BlockReceiptsBring (OnRecord record) method block addition) :
    AddsReceipts endpoint record block addition := by
  obtain ⟨answer, reads, rfl⟩ := brings
  cases answer with
  | none => exact defective_addsReceipts _
  | some receipts => exact receiptsOfBlock_adds byBlock reads.heard

theorem PrestatesBring.adds (brings : endpoint.PrestatesBring (OnRecord record) block addition) :
    AddsPrestates block addition := by
  obtain ⟨results, _, rfl⟩ := brings
  cases results with
  | none => exact ⟨rfl, by simp [prestatesOfBlock, Enrichment.defective, Enrichment.empty]⟩
  | some prestates =>
      refine ⟨rfl, ?_⟩
      rintro _ ⟨⟩
      exact length_alignResults _ _ _

theorem CallTreesBring.adds (brings : endpoint.CallTreesBring (OnRecord record) block addition) :
    AddsCallTrees block addition := by
  obtain ⟨results, _, rfl⟩ := brings
  cases results with
  | none => exact ⟨rfl, by simp [callTreesOfBlock, Enrichment.defective, Enrichment.empty]⟩
  | some trees =>
      refine ⟨rfl, ?_⟩
      rintro _ ⟨⟩
      exact length_alignResults _ _ _

theorem FramesBring.adds (brings : endpoint.FramesBring (OnRecord record) block addition) :
    AddsFrames endpoint record block addition := by
  obtain ⟨frames, reads, rfl⟩ := brings
  exact framesOfBlock_adds reads.heard

theorem ReplaysBring.adds {method : String} {outputs : ReplayOutputs}
    (brings : endpoint.ReplaysBring (OnRecord record) method outputs block addition) :
    AddsReplays endpoint record block addition := by
  obtain ⟨answers, named, reads, renamed, rfl⟩ := brings
  exact replaysOfBlock_adds reads.heard renamed

end OneMethod

variable {blocks : List FetchedBlock}

theorem meets_receiptsByTransaction :
    Meets True memo (endpoint.receiptsByTransaction blocks) fun additions said _ =>
      AddsToEach (AddsReceipts endpoint) blocks said additions := by
  apply Meets.bind meets_batch
  intro answers _ _ _
  refine .pure fun record _ => ?_
  apply forall₂_map_zip (forall₂_shareByHash blocks _)
  exact fun block share sameBlock => receiptsOfTransactions_adds sameBlock

theorem meets_fetchReceipts :
    Meets True memo (endpoint.fetchReceipts blocks) fun additions said _ =>
      AddsToEach (AddsReceipts endpoint) blocks said additions := by
  apply Meets.bind meets_receiptsMethod
  intro method said _ _
  have byBlock {method : ReceiptsMethod} (isByBlock : method ≠ .transactionReceipt)
      (memo : Memo) : Meets True memo (endpoint.receiptsByBlock method blocks)
        fun additions later _ => AddsToEach (AddsReceipts endpoint) blocks (said ++ later)
          additions := by
    apply Meets.mono (meets_receiptsByBlock_brings (hears_record endpoint))
    rintro additions later _ ⟨bring, _⟩
    refine AddsToEach.append_left (fun record kept => (bring record kept).imp ?_) said
    exact fun _ _ => BlockReceiptsBring.adds isByBlock
  cases method with
  | alchemy => exact byBlock (by decide) _
  | blockReceipts => exact byBlock (by decide) _
  | transactionReceipt =>
      apply Meets.mono meets_receiptsByTransaction
      exact fun _ _ _ toEach => toEach.append_left said

/-! ## Traces on most chains -/

section Plan

variable {record : List Exchange} {block : FetchedBlock}
  {prestates frames callTrees replays : Enrichment}

/-- The additions of the four methods of a plan lie side by side. -/
theorem merge_traces (addsPrestates : AddsPrestates block prestates)
    (addsFrames : AddsOnlyReplays frames) (addsCallTrees : AddsCallTrees block callTrees)
    (addsReplays : AddsOnlyReplays replays) :
    ((prestates.merge frames).merge callTrees).merge replays =
      { Enrichment.empty with
        replays := frames.replays.merge (· ++ ·) replays.replays
        callTrees := callTrees.callTrees
        prestates := prestates.prestates
        defect :=
          ((prestates.defect <|> frames.defect) <|> callTrees.defect) <|> replays.defect } := by
  rw [addsPrestates.only, addsFrames, addsCallTrees.only, addsReplays]
  simp [Enrichment.merge, Enrichment.empty]

variable {usesPrestates usesFrames usesCallTrees usesReplays : Bool}

/-- If trace blocks and replays are not both used, the additions of the methods of a
plan are consistent as a whole. -/
theorem merge_addsTraces (exclusive : usesFrames = true → usesReplays = false)
    (ofPrestates : AddsIf usesPrestates (AddsPrestates block) prestates)
    (ofFrames : AddsIf usesFrames (AddsFrames endpoint record block) frames)
    (ofCallTrees : AddsIf usesCallTrees (AddsCallTrees block) callTrees)
    (ofReplays : AddsIf usesReplays (AddsReplays endpoint record block) replays) :
    AddsTraces endpoint (usesFrames = true) record block
      ([prestates, frames, callTrees, replays].foldl Enrichment.merge .empty) := by
  have addsPrestates := ofPrestates.elim id empty_addsPrestates
  have addsCallTrees := ofCallTrees.elim id empty_addsCallTrees
  have addsReplays := ofReplays.elim id empty_addsReplays
  have merged := merge_traces addsPrestates (ofFrames.elim AddsFrames.only rfl) addsCallTrees
    addsReplays.only
  simp only [List.foldl_cons, List.foldl_nil, Enrichment.empty_merge]
  constructor
  case only =>
    rw [merged]
    rfl
  case consistent =>
    intro valid
    simp only [Enrichment.merge_defect_eq_none] at valid
    obtain ⟨⟨⟨_, noFrameDefect⟩, _⟩, noReplayDefect⟩ := valid
    rw [merged]
    constructor
    case callTrees => exact addsCallTrees.slots
    case prestates => exact addsPrestates.slots
    case frames =>
      intro used
      have consistent := (ofFrames.of_used used).consistent noFrameDefect
      rw [ofReplays.eq_empty (exclusive used)]
      simpa [Enrichment.empty] using consistent
    case replays =>
      intro unused found same
      rw [ofFrames.eq_empty (Bool.not_eq_true _ ▸ unused)] at same
      exact addsReplays.consistent noReplayDefect found (by simpa [Enrichment.empty] using same)

/-- What the methods of a plan bring is consistent as a whole. -/
theorem addsTraces_of_plan {plan : TracePlan}
    (exclusive : plan.traceBlock = true → plan.replay.isEmpty = true) {addition : Enrichment}
    (together : Together (endpoint.planMethods (OnRecord record) plan) block addition) :
    AddsTraces endpoint (plan.traceBlock = true) record block addition := by
  obtain ⟨additions, each, rfl⟩ := together
  obtain _ | ⟨ofPrestates, _ | ⟨ofFrames, _ | ⟨ofCallTrees, _ | ⟨ofReplays, _ | _⟩⟩⟩⟩ := each
  refine merge_addsTraces (fun used => ?_) (ofPrestates.imp fun _ => PrestatesBring.adds)
    (ofFrames.imp fun _ => FramesBring.adds) (ofCallTrees.imp fun _ => CallTreesBring.adds)
    (ofReplays.imp fun _ => ReplaysBring.adds)
  rw [exclusive used, Bool.not_true]

end Plan

/-! ## Traces on chains with a profile -/

/-- Additions of replays and of call trees lie side by side. -/
theorem merge_replays_callTrees {block : FetchedBlock} {replays callTrees : Enrichment}
    (onlyReplays : AddsOnlyReplays replays) (addsCallTrees : AddsCallTrees block callTrees) :
    replays.merge callTrees =
      { Enrichment.empty with
        replays := replays.replays
        callTrees := callTrees.callTrees
        defect := replays.defect <|> callTrees.defect } := by
  rw [onlyReplays, addsCallTrees.only]
  simp [Enrichment.merge, Enrichment.empty]

/-- Additions of replays and of call trees are consistent as a whole. -/
theorem merge_addsTraces_of_profile {record : List Exchange} {block : FetchedBlock}
    {replays callTrees : Enrichment} (addsReplays : AddsReplays endpoint record block replays)
    (addsCallTrees : AddsCallTrees block callTrees) :
    AddsTraces endpoint False record block
      ([replays, callTrees].foldl Enrichment.merge .empty) := by
  have merged := merge_replays_callTrees addsReplays.only addsCallTrees
  simp only [List.foldl_cons, List.foldl_nil, Enrichment.empty_merge]
  constructor
  case only =>
    rw [merged]
    rfl
  case consistent =>
    intro valid
    obtain ⟨noReplayDefect, _⟩ := Enrichment.merge_defect_eq_none.mp valid
    rw [merged]
    constructor
    case callTrees => exact addsCallTrees.slots
    case prestates => exact fun _ found => absurd found (by simp [Enrichment.empty])
    case frames => exact False.elim
    case replays => exact fun _ => addsReplays.consistent noReplayDefect

/-- Nothing is consistent with every block that has no trace block. -/
theorem empty_addsTraces {byTraceBlock : Prop} (unused : ¬byTraceBlock)
    {record : List Exchange} {block : FetchedBlock} :
    AddsTraces endpoint byTraceBlock record block .empty where
  only := rfl
  consistent _ :=
    { callTrees := fun _ found => absurd found (by simp [Enrichment.empty])
      prestates := fun _ found => absurd found (by simp [Enrichment.empty])
      frames := fun used => absurd used unused
      replays := fun _ _ found => absurd found (by simp [Enrichment.empty]) }

/-- What the methods of a profile bring is consistent as a whole. -/
theorem addsTraces_of_profile {record : List Exchange} {block : FetchedBlock}
    {addition : Enrichment} {profile : ChainProfile}
    (together : Together (endpoint.profileMethods (OnRecord record) profile) block addition) :
    AddsTraces endpoint False record block addition := by
  obtain ⟨additions, each, rfl⟩ := together
  obtain _ | ⟨ofReplays, _ | ⟨ofCallTrees, _ | _⟩⟩ := each
  exact merge_addsTraces_of_profile (ofReplays.elim ReplaysBring.adds empty_addsReplays)
    (ofCallTrees.elim CallTreesBring.adds empty_addsCallTrees)

/-! ## Enrichment -/

variable {demand : Demand} {finalized : Option UInt64}

/-- Traces of blocks, for whose source the memo tells the chain. -/
theorem meets_fetchTraces :
    Meets True memo (endpoint.fetchTraces demand finalized blocks) fun additions said after =>
      AddsToEach (AddsTraces endpoint (endpoint.UsesTraceBlocks demand finalized blocks after))
        blocks said additions ∧ True := by
  apply Meets.mono (meets_fetchTraces_brings (hears_record endpoint) meets_genesisHash)
  rintro additions said after ⟨genesis, identified, bring⟩
  refine ⟨fun record kept => (bring record kept).imp fun block addition brings => ?_, trivial⟩
  cases profiled : ChainProfile.ofGenesis? genesis with
  | none =>
      have source : endpoint.UsesTraceBlocks demand finalized blocks after =
          ((endpoint.tracePlan demand finalized blocks).traceBlock = true) := by
        apply propext
        constructor
        · rintro ⟨_, _, _, used⟩
          exact used
        · exact fun used => ⟨genesis, identified, profiled, used⟩
      rw [source]
      simp only [TracesBring, profiled] at brings
      exact addsTraces_of_plan TracePlan.replay_isEmpty_of_traceBlock brings
  | some profile =>
      have source : endpoint.UsesTraceBlocks demand finalized blocks after = False := by
        apply eq_false
        rintro ⟨other, same, unprofiled, _⟩
        rw [identified, Option.some.injEq] at same
        rw [← same, profiled] at unprofiled
        exact absurd unprofiled (by simp)
      rw [source]
      simp only [TracesBring, profiled] at brings
      cases traced : demand.traces with
      | true =>
          simp only [traced, if_true] at brings
          exact addsTraces_of_profile brings
      | false =>
          simp only [traced, Bool.false_eq_true, if_false] at brings
          exact brings ▸ empty_addsTraces id

/-- Whether what was added to a block is consistent with the block. -/
structure Consistent (endpoint : Endpoint σ) (demand : Demand) (byTraceBlock : Prop)
    (record : List Exchange) (block : FetchedBlock) (data : Enrichment) : Prop where
  logs : demand.logs = true → ∃ logs, data.logs = some logs ∧
    LogsOf endpoint.config.skippedChecks block logs
  receipts : demand.receipts = true → ∃ receipts, data.receipts = some receipts ∧
    ReceiptsOf endpoint record block receipts
  traces : TracesOf endpoint byTraceBlock record block data

section Whole

variable {byTraceBlock : Prop} {record : List Exchange} {block : FetchedBlock}
  {logs receipts traces : Enrichment}

/-- Additions of logs, receipts and traces lie side by side. -/
theorem merge_parts (onlyLogs : AddsOnlyLogs logs) (onlyReceipts : AddsOnlyReceipts receipts)
    (onlyTraces : traces = { traces with logs := none, receipts := none }) :
    (logs.merge receipts).merge traces =
      { traces with
        logs := logs.logs
        receipts := receipts.receipts
        defect := (logs.defect <|> receipts.defect) <|> traces.defect } := by
  rw [onlyLogs, onlyReceipts, onlyTraces]
  simp [Enrichment.merge, Enrichment.empty]

/-- If the additions of all parts come without a defect, they are consistent as a
whole. -/
theorem merge_consistent {usesTraces : Bool} (unused : usesTraces = false → ¬byTraceBlock)
    (ofLogs : AddsIf demand.logs (AddsLogs endpoint.config.skippedChecks block) logs)
    (ofReceipts : AddsIf demand.receipts (AddsReceipts endpoint record block) receipts)
    (ofTraces : AddsIf usesTraces (AddsTraces endpoint byTraceBlock record block) traces)
    (valid : ([logs, receipts, traces].foldl Enrichment.merge .empty).defect = none) :
    Consistent endpoint demand byTraceBlock record block
      ([logs, receipts, traces].foldl Enrichment.merge .empty) := by
  have addsTraces : AddsTraces endpoint byTraceBlock record block traces := by
    cases usesTraces with
    | true => exact ofTraces.of_used rfl
    | false => exact ofTraces.eq_empty rfl ▸ empty_addsTraces (unused rfl)
  have merged := merge_parts (ofLogs.elim AddsLogs.only rfl)
    (ofReceipts.elim AddsReceipts.only rfl) addsTraces.only
  simp only [List.foldl_cons, List.foldl_nil, Enrichment.empty_merge,
    Enrichment.merge_defect_eq_none] at valid ⊢
  obtain ⟨⟨noLogsDefect, noReceiptsDefect⟩, noTracesDefect⟩ := valid
  rw [merged]
  constructor
  case logs => exact fun wanted => (ofLogs.of_used wanted).consistent noLogsDefect
  case receipts => exact fun wanted => (ofReceipts.of_used wanted).consistent noReceiptsDefect
  case traces =>
    obtain ⟨callTrees, prestates, frames, replays⟩ := addsTraces.consistent noTracesDefect
    exact ⟨callTrees, prestates, frames, replays⟩

end Whole

/-- Every block is enriched by its own addition. -/
theorem forall₂_enrichEach {adds : FetchedBlock → Enrichment → Prop}
    {additions : List Enrichment} (each : List.Forall₂ adds blocks additions) :
    List.Forall₂ (fun block enriched => ∃ addition, adds block addition ∧
      enriched = block.enrich addition) blocks (FetchedBlock.enrichEach blocks additions) := by
  induction each with
  | nil => exact .nil
  | cons added _ ih => exact .cons ⟨_, added, rfl⟩ ih

theorem meets_enrich :
    Meets True memo (endpoint.enrich demand finalized blocks) fun enriched said after =>
      List.Forall₂ (fun block result => ∃ addition, result = block.enrich addition ∧
        (addition.defect = none → Consistent endpoint demand
          (endpoint.UsesTraceBlocks demand finalized blocks after) said block addition))
        blocks enriched := by
  unfold enrich
  split
  case isTrue none =>
    rw [List.isEmpty_iff.mp none]
    exact .pure .nil
  case isFalse =>
    refine Meets.bind (meets_fetchIf (fun _ => Meets.mono meets_fetchLogs
      fun _ _ _ adds => ⟨adds, trivial⟩) trivial) ?_
    rintro logs saidFirst _ ⟨addsLogs, _⟩
    refine Meets.bind (meets_fetchIf (fun _ => Meets.mono meets_fetchReceipts
      fun _ _ _ adds => ⟨adds, trivial⟩) trivial) ?_
    rintro receipts saidSecond _ ⟨addsReceipts, _⟩
    apply Meets.bind (meets_fetchIf (fun _ => meets_fetchTraces) trivial)
    rintro traces saidThird after ⟨addsTraces, _⟩
    refine .pure ?_
    rw [List.append_nil]
    have unused (noTraces : (demand.traces || demand.stateDiffs) = false) :
        ¬endpoint.UsesTraceBlocks demand finalized blocks after := by
      rintro ⟨_, _, _, used⟩
      simp [TracePlan.traces_of_traceBlock used] at noTraces
    have each := Enrichment.forall₂_mergeAll
      (.cons (addsLogs.append_right (saidSecond ++ saidThird) _ (List.Subset.refl _))
        (.cons ((addsReceipts.append_right saidThird).append_left saidFirst _
          (List.Subset.refl _))
          (.cons ((addsTraces.append_left saidSecond).append_left saidFirst _
            (List.Subset.refl _)) .nil)))
    apply (forall₂_enrichEach each).imp
    rintro block _ ⟨_, ⟨additions, parts, rfl⟩, rfl⟩
    obtain _ | ⟨ofLogs, _ | ⟨ofReceipts, _ | ⟨ofTraces, _ | _⟩⟩⟩ := parts
    exact ⟨_, rfl, merge_consistent unused ofLogs ofReceipts ofTraces⟩

/-- Whatever a node answers: if enriching blocks succeeds, then the blocks are the
same as before, and each of them that is not marked as defective is consistent with
what was added to it. -/
theorem enrich_consistent (endpoint : Endpoint σ) (demand : Demand)
    (finalized : Option UInt64) (fetched : List Raw.Block) {session final : Session σ}
    {enriched : List FetchedBlock}
    (run : (endpoint.enrich demand finalized (fetched.map .ofBlock)).run.run session =
      (.ok enriched, final)) :
    ∃ said : List Exchange, final.transcript = session.transcript ++ said ∧
      List.Forall₂ (fun raw result => result.block = raw ∧
        (result.isValid = true →
          Consistent endpoint demand
            (endpoint.UsesTraceBlocks demand finalized (fetched.map .ofBlock) final.memo) said
            (.ofBlock raw) result.data)) fetched enriched := by
  obtain ⟨said, recorded, each⟩ := meets_enrich.of_run rfl run
  refine ⟨said, recorded, ?_⟩
  rw [List.forall₂_map_left_iff] at each
  apply each.imp
  rintro raw _ ⟨addition, rfl, consistent⟩
  refine ⟨rfl, fun valid => ?_⟩
  have same : (FetchedBlock.enrich (.ofBlock raw) addition).data = addition :=
    Enrichment.empty_merge addition
  rw [same]
  apply consistent
  rwa [FetchedBlock.isValid, same, Option.isNone_iff_eq_none] at valid

/-- A node that lists one log of block eight and traces one call of every
transaction. -/
def listingNode : Node Unit where
  url := ""
  answer call _ _ :=
    let zeroHash := Json.arr (List.replicate 32 (.int 0))
    match call.method with
    | "eth_getLogs" =>
        let log := Json.obj
          [ ("blockNumber", .str "0x8"), ("blockHash", zeroHash), ("logIndex", .str "0x0"),
            ("transactionIndex", .str "0x0") ]
        (.ok (.arr [log]), ())
    | _ =>
        let genesis := Json.obj
          [ ("number", .str "0x0"), ("hash", zeroHash), ("parentHash", zeroHash),
            ("logsBloom", .arr (List.replicate 256 (.int 0))), ("transactions", .arr []) ]
        (.ok genesis, ())
  answerBatch calls _ _ :=
    let zeroHash := Json.arr (List.replicate 32 (.int 0))
    let frame := Json.obj
      [ ("blockHash", zeroHash), ("transactionHash", zeroHash), ("traceAddress", .arr []),
        ("type", .str "call") ]
    (.ok (calls.map fun _ => .arr [frame]), ())

/-- A demand for logs and traces. -/
def listingDemand : Demand :=
  { Demand.of .empty .off with logs := true, traces := true }

/-- An endpoint that asks the listing node for trace blocks. -/
def listingEndpoint : Endpoint Unit :=
  .of listingNode { Config.standard with preferTraceApi := true }

/-- Block eight is left valid by its enrichment, with one log and one replay of one
frame, and so it is consistent. -/
theorem enrich_bloomingBlock :
    ∃ (result : FetchedBlock) (final : Session Unit) (said : List Exchange),
      (listingEndpoint.enrich listingDemand none ([bloomingBlock].map .ofBlock)).run.run
          (.start ()) = (.ok [result], final) ∧
        result.isValid = true ∧ result.data.logs.map List.length = some 1 ∧
          result.data.replays.map List.length = some 1 ∧
            Consistent listingEndpoint listingDemand
              (listingEndpoint.UsesTraceBlocks listingDemand none
                ([bloomingBlock].map .ofBlock) final.memo) said
              (.ofBlock bloomingBlock) result.data := by
  rcases run : (listingEndpoint.enrich listingDemand none ([bloomingBlock].map .ofBlock)).run.run
    (.start ()) with ⟨outcome, final⟩
  have observed : (outcome.toOption.map fun blocks => blocks.map fun block =>
      (block.isValid, block.data.logs.map List.length, block.data.replays.map List.length)) =
        some [(true, some 1, some 1)] := by
    rw [show outcome = ((listingEndpoint.enrich listingDemand none
      ([bloomingBlock].map .ofBlock)).run.run (.start ())).1 by rw [run]]
    decide +kernel
  cases outcome with
  | error failure => exact absurd observed (by simp [Except.toOption])
  | ok enriched =>
      obtain ⟨said, _, each⟩ := enrich_consistent listingEndpoint listingDemand none
        [bloomingBlock] run
      obtain _ | ⟨⟨_, consistent⟩, _ | _⟩ := each
      simp only [Except.toOption, Option.map_some, List.map_cons, List.map_nil,
        Option.some.injEq, List.cons.injEq, Prod.mk.injEq, and_true] at observed
      obtain ⟨valid, oneLog, oneReplay⟩ := observed
      exact ⟨_, final, said, rfl, valid, oneLog, oneReplay, consistent valid⟩

end Endpoint

end ChainFeed
