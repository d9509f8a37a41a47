import ChainFeed.Proofs.Fetching
import ChainFeed.Proofs.Rounds

/-!
# Sources of additions

What one round adds to a block is made of answers to calls about that block alone, one
addition by each method that is used, merged in order.  Which answers count as heard is
left open here: those on record, or those that a node is known to give.
-/

namespace ChainFeed

open Dialogue

/-! ## Additions by several methods -/

/-- Whether an addition to a block is merged from one addition by each of several
methods. -/
def Together (methods : List (FetchedBlock → Enrichment → Prop)) (block : FetchedBlock)
    (merged : Enrichment) : Prop :=
  ∃ additions : List Enrichment,
    List.Forall₂ (fun method addition => method block addition) methods additions ∧
      merged = additions.foldl Enrichment.merge .empty

/-- Whether a profile has a block replayed. -/
def ChainProfile.isReplayed (profile : ChainProfile) (block : FetchedBlock) : Bool :=
  profile.traceMethod block.height matches .replay _

/-- Whether a profile has a block traced by the debug tracer. -/
def ChainProfile.isDebugged (profile : ChainProfile) (block : FetchedBlock) : Bool :=
  profile.traceMethod block.height matches .debugTracer

namespace Endpoint

variable {σ : Type}

/-- What a method adds if it is used; otherwise it adds nothing. -/
def AddsIf (used : Bool) (adds : Enrichment → Prop) (addition : Enrichment) : Prop :=
  if used then adds addition else addition = .empty

namespace AddsIf

variable {used : Bool} {adds : Enrichment → Prop} {addition : Enrichment}

theorem of_used (addsIf : AddsIf used adds addition) (isUsed : used = true) : adds addition := by
  rwa [AddsIf, if_pos isUsed] at addsIf

theorem eq_empty (addsIf : AddsIf used adds addition) (unused : used = false) :
    addition = .empty := by
  rwa [AddsIf, unused] at addsIf

/-- What holds of an addition of a method and of nothing. -/
theorem elim {holds : Enrichment → Prop} (addsIf : AddsIf used adds addition)
    (ofAdds : adds addition → holds addition) (ofEmpty : holds .empty) : holds addition := by
  cases used with
  | true => exact ofAdds (addsIf.of_used rfl)
  | false => exact addsIf.eq_empty rfl ▸ ofEmpty

theorem imp {other : Enrichment → Prop} (addsIf : AddsIf used adds addition)
    (weaken : ∀ addition, adds addition → other addition) : AddsIf used other addition := by
  cases used with
  | true => exact weaken addition addsIf
  | false => exact addsIf

theorem used_of_ne (addsIf : AddsIf used adds addition) (different : addition ≠ .empty) :
    used = true := by
  cases used with
  | true => rfl
  | false => exact absurd (addsIf.eq_empty rfl) different

end AddsIf

section Methods

variable (endpoint : Endpoint σ) (heard : Call → CallOptions → Json → Prop)

/-- What a method for the receipts of a block brings. -/
def BlockReceiptsBring (method : ReceiptsMethod) (block : FetchedBlock) (addition : Enrichment) :
    Prop :=
  ∃ answer, Reads heard (blockReceiptsCall method block) endpoint.options
      (Json.nullable (Json.list? Raw.Receipt.ofJson?)) answer ∧
    addition = match answer with
      | none => .defective (.noReceipts method.name)
      | some receipts => receiptsOfBlock endpoint.config.skippedChecks method block receipts

/-- The call for replays of a block. -/
def replaysCall (method : String) (outputs : ReplayOutputs) (block : FetchedBlock) : Call :=
  ⟨method, [heightParam block.height, .arr (outputs.names.map .str)]⟩

/-- What replays bring. -/
def ReplaysBring (method : String) (outputs : ReplayOutputs) (block : FetchedBlock)
    (addition : Enrichment) : Prop :=
  ∃ replays named, Reads heard (replaysCall method outputs block) endpoint.options
      (Json.list? Raw.Replay.ofJson?) replays ∧
    replays.mapM Raw.Replay.named = .ok named ∧ addition = replaysOfBlock method block named

/-- The call for the trace block of a block. -/
def traceBlockCall (block : FetchedBlock) : Call :=
  ⟨"trace_block", [heightParam block.height]⟩

/-- What a trace block brings. -/
def FramesBring (block : FetchedBlock) (addition : Enrichment) : Prop :=
  ∃ frames, Reads heard (traceBlockCall block) endpoint.options
      (Json.list? Raw.TraceFrame.ofJson?) frames ∧
    addition = framesOfBlock endpoint.config.skippedChecks block frames

/-- The call of a debug tracer. -/
def debugCall (param : Json) (block : FetchedBlock) : Call :=
  ⟨debugMethod, [hashParam block.hash, param]⟩

/-- What the answer of the call tracer adds to a block. -/
def callTreesOfBlock (block : FetchedBlock) :
    Option (List Raw.CallTreeResult) → Enrichment
  | none => .defective (.unknownBlock debugMethod)
  | some trees =>
      { Enrichment.empty with
        callTrees := some (alignResults Raw.CallTreeResult.transactionHash
          block.block.transactions.toHashes trees) }

/-- What the answer of the prestate tracer adds to a block. -/
def prestatesOfBlock (block : FetchedBlock) :
    Option (List Raw.PrestateResult) → Enrichment
  | none => .defective (.unknownBlock debugMethod)
  | some prestates =>
      { Enrichment.empty with
        prestates := some (alignResults Raw.PrestateResult.transactionHash
          block.block.transactions.toHashes prestates) }

/-- What the call tracer brings. -/
def CallTreesBring (block : FetchedBlock) (addition : Enrichment) : Prop :=
  ∃ results, Reads heard (debugCall (endpoint.tracerParam "callTracer" "withLog" false) block)
      (endpoint.tolerating .notFound)
      (fun answer => Json.nullable (Json.list? Raw.CallTreeResult.ofJson?) (wrapResults answer))
      results ∧
    addition = callTreesOfBlock block results

/-- What the prestate tracer brings. -/
def PrestatesBring (block : FetchedBlock) (addition : Enrichment) : Prop :=
  ∃ results, Reads heard (debugCall (endpoint.tracerParam "prestateTracer" "diffMode" true) block)
      (endpoint.tolerating .notFound)
      (Json.nullable (Json.list? Raw.PrestateResult.ofJson?)) results ∧
    addition = prestatesOfBlock block results

/-- The methods of a plan. -/
def planMethods (plan : TracePlan) : List (FetchedBlock → Enrichment → Prop) :=
  [ fun block => AddsIf plan.prestates (endpoint.PrestatesBring heard block),
    fun block => AddsIf plan.traceBlock (endpoint.FramesBring heard block),
    fun block => AddsIf plan.callTrees (endpoint.CallTreesBring heard block),
    fun block => AddsIf (!plan.replay.isEmpty)
      (endpoint.ReplaysBring heard replayMethod plan.replay block) ]

/-- The methods of a profile. -/
def profileMethods (profile : ChainProfile) : List (FetchedBlock → Enrichment → Prop) :=
  [ fun block => AddsIf (profile.isReplayed block)
      (endpoint.ReplaysBring heard profile.replayMethod ⟨true, false⟩ block),
    fun block => AddsIf (profile.isDebugged block) (endpoint.CallTreesBring heard block) ]

/-- What the methods of a chain bring for traces and state diffs. -/
def TracesBring (demand : Demand) (unfinalized : Bool) (genesis : Hash) :
    FetchedBlock → Enrichment → Prop :=
  match ChainProfile.ofGenesis? genesis with
  | none =>
      Together (endpoint.planMethods heard
        (TracePlan.of demand endpoint.config.preferTraceApi endpoint.config.debugStateDiffs
          unfinalized))
  | some profile =>
      if demand.traces then Together (endpoint.profileMethods heard profile)
      else fun _ addition => addition = .empty

end Methods

/-! ## Fetching -/

/-- The plan for blocks on a chain without a profile. -/
def tracePlan (endpoint : Endpoint σ) (demand : Demand) (finalized : Option UInt64)
    (blocks : List FetchedBlock) : TracePlan :=
  TracePlan.of demand endpoint.config.preferTraceApi endpoint.config.debugStateDiffs
    (finalized.any fun height => decide (height < highest blocks))

variable {mayFail : Prop} {memo : Memo} {endpoint : Endpoint σ} {blocks : List FetchedBlock}
  {heard : List Exchange → Call → CallOptions → Json → Prop} (hears : endpoint.Hears heard)

include hears

/-- A batch with one call for each block has one value for each. -/
theorem meets_batch_map_reads {α : Type} {callOf : FetchedBlock → Call} {options : CallOptions}
    {read : Json → Option α} :
    Meets True memo (endpoint.batch (blocks.map callOf) options read) fun values said after =>
      (∀ record, said ⊆ record →
        List.Forall₂ (fun block value => Reads (heard record) (callOf block) options read value)
          blocks values) ∧ after = memo := by
  apply Meets.mono (meets_batch_reads hears)
  rintro values said after ⟨readAll, same⟩
  exact ⟨fun record kept => List.forall₂_map_left_iff.mp (readAll record kept), same⟩

theorem meets_receiptsByBlock_brings {method : ReceiptsMethod} :
    Meets True memo (endpoint.receiptsByBlock method blocks) fun additions said after =>
      AddsToEach (fun record => endpoint.BlockReceiptsBring (heard record) method) blocks said
        additions ∧ after = memo := by
  apply Meets.bind (meets_batch_map_reads hears)
  rintro answers said _ ⟨readAll, rfl⟩
  refine .pure ⟨fun record kept => ?_, rfl⟩
  rw [List.append_nil] at kept
  apply forall₂_map_zip (readAll record kept)
  intro block answer reads
  refine ⟨answer, reads, ?_⟩
  cases answer <;> rfl

theorem meets_fetchTraceBlocks_brings :
    Meets True memo (endpoint.fetchTraceBlocks blocks) fun additions said after =>
      AddsToEach (fun record => endpoint.FramesBring (heard record)) blocks said additions ∧
        after = memo := by
  apply Meets.bind (meets_batch_map_reads hears)
  rintro answers said _ ⟨readAll, rfl⟩
  refine .pure ⟨fun record kept => ?_, rfl⟩
  rw [List.append_nil] at kept
  apply forall₂_map_zip (readAll record kept)
  exact fun block frames reads => ⟨frames, reads, rfl⟩

omit hears in
/-- Answers that are taken one by one, without another word, with the blocks beside them. -/
theorem meets_mapM_beside {α : Type} (each : FetchedBlock → α → Enrichment → Prop)
    {answers : List α} {act : FetchedBlock × α → Dialogue σ Enrichment}
    (acts : ∀ block answer, Meets True memo (act (block, answer)) fun addition said after =>
      each block answer addition ∧ said = [] ∧ after = memo) :
    Meets True memo ((blocks.zip answers).mapM act) fun additions said after =>
      (∀ beside : FetchedBlock → α → Prop, List.Forall₂ beside blocks answers →
        List.Forall₂ (fun block addition => ∃ answer, beside block answer ∧
          each block answer addition) blocks additions) ∧ said = [] ∧ after = memo := by
  refine Meets.mono (Meets.mapM (fun entry addition => each entry.1 entry.2 addition)
    (fun _ => False) ?_) ?_
  · rintro ⟨block, answer⟩ _
    apply Meets.mono (acts block answer)
    rintro addition _ _ ⟨added, rfl, same⟩
    exact ⟨added, fun _ member => absurd member List.not_mem_nil, same⟩
  · rintro additions said _ ⟨added, silent, same⟩
    exact ⟨fun beside stands => forall₂_of_zip stands added,
      List.eq_nil_iff_forall_not_mem.mpr silent, same⟩

theorem meets_fetchReplays_brings {method : String} {outputs : ReplayOutputs}
    (reported : outputs.isEmpty = false) :
    Meets True memo (endpoint.fetchReplays method outputs blocks) fun additions said after =>
      AddsToEach (fun record => endpoint.ReplaysBring (heard record) method outputs) blocks said
        additions ∧ after = memo := by
  unfold fetchReplays
  split
  case isTrue nothing =>
    rw [reported, Bool.or_false, List.isEmpty_iff] at nothing
    rw [nothing]
    exact .pure ⟨fun _ _ => .nil, rfl⟩
  case isFalse =>
    apply Meets.bind (meets_batch_map_reads hears)
    rintro answers said _ ⟨readAll, rfl⟩
    refine Meets.mono (meets_mapM_beside (fun block replays addition =>
      ∃ named, replays.mapM Raw.Replay.named = .ok named ∧
        addition = replaysOfBlock method block named) ?_) ?_
    · intro block replays
      cases renamed : replays.mapM Raw.Replay.named with
      | ok named =>
          simp only [renamed]
          exact .pure ⟨⟨named, rfl, rfl⟩, rfl, rfl⟩
      | error reason =>
          simp only [renamed]
          exact .throw trivial
    · rintro additions _ _ ⟨added, rfl, rfl⟩
      refine ⟨fun record kept => ?_, rfl⟩
      rw [List.append_nil] at kept
      apply (added _ (readAll record kept)).imp
      rintro block addition ⟨replays, reads, named, renamed, same⟩
      exact ⟨replays, named, reads, renamed, same⟩

theorem meets_traceByDebug_heard {param : Json} :
    Meets True memo (endpoint.traceByDebug param blocks) fun answers said after =>
      (∀ record, said ⊆ record →
        List.Forall₂ (fun block answer => heard record (debugCall param block)
          (endpoint.tolerating .notFound) answer) blocks answers) ∧ after = memo := by
  apply Meets.mono (hears _ _ _)
  rintro answers said _ ⟨heardAll, same⟩
  exact ⟨fun record kept => List.forall₂_map_left_iff.mp (heardAll record kept), same⟩

theorem meets_fetchCallTrees_brings :
    Meets True memo (endpoint.fetchCallTrees blocks) fun additions said after =>
      AddsToEach (fun record => endpoint.CallTreesBring (heard record)) blocks said additions ∧
        after = memo := by
  apply Meets.bind (meets_traceByDebug_heard hears)
  rintro answers said _ ⟨heardAll, rfl⟩
  refine Meets.mono (meets_mapM_beside (fun block answer addition => ∃ results,
    Json.nullable (Json.list? Raw.CallTreeResult.ofJson?) (wrapResults answer) = some results ∧
      addition = callTreesOfBlock block results) ?_) ?_
  · intro block answer
    apply Meets.bind (meets_decoded fun _ => trivial)
    rintro results _ _ ⟨reading, rfl, rfl⟩
    cases results with
    | none => exact .pure ⟨⟨none, reading, rfl⟩, rfl, rfl⟩
    | some trees => exact .pure ⟨⟨some trees, reading, rfl⟩, rfl, rfl⟩
  · rintro additions _ _ ⟨added, rfl, rfl⟩
    refine ⟨fun record kept => ?_, rfl⟩
    rw [List.append_nil] at kept
    apply (added _ (heardAll record kept)).imp
    rintro block addition ⟨answer, heardAnswer, results, reading, same⟩
    exact ⟨results, ⟨answer, heardAnswer, reading⟩, same⟩

theorem meets_fetchPrestates_brings :
    Meets True memo (endpoint.fetchPrestates blocks) fun additions said after =>
      AddsToEach (fun record => endpoint.PrestatesBring (heard record)) blocks said additions ∧
        after = memo := by
  apply Meets.bind (meets_traceByDebug_heard hears)
  rintro answers said _ ⟨heardAll, rfl⟩
  refine Meets.mono (meets_mapM_beside (fun block answer addition => ∃ results,
    Json.nullable (Json.list? Raw.PrestateResult.ofJson?) answer = some results ∧
      addition = prestatesOfBlock block results) ?_) ?_
  · intro block answer
    apply Meets.bind (meets_decoded fun _ => trivial)
    rintro results _ _ ⟨reading, rfl, rfl⟩
    cases results with
    | none => exact .pure ⟨⟨none, reading, rfl⟩, rfl, rfl⟩
    | some prestates => exact .pure ⟨⟨some prestates, reading, rfl⟩, rfl, rfl⟩
  · rintro additions _ _ ⟨added, rfl, rfl⟩
    refine ⟨fun record kept => ?_, rfl⟩
    rw [List.append_nil] at kept
    apply (added _ (heardAll record kept)).imp
    rintro block addition ⟨answer, heardAnswer, results, reading, same⟩
    exact ⟨results, ⟨answer, heardAnswer, reading⟩, same⟩

/-! ## Fetching by several methods -/

omit hears in
/-- What a method adds if it is used; it has to be known only then what it adds. -/
theorem meets_fetchIf {used : Bool} {fetch : Dialogue σ (List Enrichment)}
    {adds : Memo → List Exchange → FetchedBlock → Enrichment → Prop} {known : Memo → Prop}
    (fetches : used = true → Meets mayFail memo fetch fun additions said after =>
      AddsToEach (adds after) blocks said additions ∧ known after)
    (same : known memo) :
    Meets mayFail memo (fetchIf used fetch) fun call said after =>
      AddsToEach (fun record block => AddsIf used (adds after record block)) blocks said
        (Enrichment.slots blocks.length call) ∧ known after := by
  cases used with
  | true => exact Meets.map (fetches rfl)
  | false =>
      exact .pure ⟨fun _ _ => Enrichment.forall₂_slots_none.mpr fun _ _ => rfl, same⟩

omit hears in
/-- Nothing added to every block. -/
theorem forall₂_map_empty {adds : FetchedBlock → Enrichment → Prop}
    (empty : ∀ block, adds block .empty) :
    List.Forall₂ adds blocks (blocks.map fun _ => .empty) :=
  List.forall₂_map_right_iff.mpr (List.forall₂_same.mpr fun block _ => empty block)

theorem meets_fetchByPlan_brings {demand : Demand} {finalized : Option UInt64} :
    Meets True memo (endpoint.fetchByPlan demand finalized blocks) fun additions said after =>
      AddsToEach (fun record => Together (endpoint.planMethods (heard record)
        (endpoint.tracePlan demand finalized blocks))) blocks said additions ∧ after = memo := by
  refine Meets.bind (meets_fetchIf (fun _ => meets_fetchPrestates_brings hears) rfl) ?_
  rintro prestates saidFirst _ ⟨bringPrestates, rfl⟩
  refine Meets.bind (meets_fetchIf (fun _ => meets_fetchTraceBlocks_brings hears) rfl) ?_
  rintro frames saidSecond _ ⟨bringFrames, rfl⟩
  refine Meets.bind (meets_fetchIf (fun _ => meets_fetchCallTrees_brings hears) rfl) ?_
  rintro callTrees saidThird _ ⟨bringCallTrees, rfl⟩
  refine Meets.bind (meets_fetchIf (fun used => meets_fetchReplays_brings hears
    ((Bool.not_eq_true' _).mp used)) rfl) ?_
  rintro replays saidFourth _ ⟨bringReplays, rfl⟩
  refine .pure ⟨fun record kept => ?_, rfl⟩
  simp only [List.append_nil, List.append_subset] at kept
  obtain ⟨keptFirst, keptSecond, keptThird, keptFourth⟩ := kept
  exact Enrichment.forall₂_mergeAll
    (.cons (bringPrestates record keptFirst) (.cons (bringFrames record keptSecond)
      (.cons (bringCallTrees record keptThird) (.cons (bringReplays record keptFourth) .nil))))

omit hears in
/-- Blocks that are marked are those with a property. -/
theorem marked_eq_filter (property : FetchedBlock → Bool) (blocks : List FetchedBlock) :
    ((blocks.zip (blocks.map property)).filter Prod.snd).map Prod.fst =
      blocks.filter property := by
  induction blocks with
  | nil => rfl
  | cons block blocks ih => cases marked : property block <;> simp [marked, ih]

omit hears in
/-- Additions to the blocks with a property are spread over all blocks; the others get
nothing. -/
theorem forall₂_spread_filter {brings : FetchedBlock → Enrichment → Prop}
    {property : FetchedBlock → Bool} {additions : List Enrichment}
    (chosen : List.Forall₂ brings (blocks.filter property) additions) :
    List.Forall₂ (fun block => AddsIf (property block) (brings block)) blocks
      (spread (blocks.map property) additions) := by
  induction blocks generalizing additions with
  | nil => exact .nil
  | cons block blocks ih =>
      cases marked : property block with
      | true =>
          rw [List.filter_cons_of_pos marked] at chosen
          cases chosen with
          | cons brought rest =>
              rw [List.map_cons, marked, spread]
              exact .cons (by rw [marked]; exact brought) (ih rest)
      | false =>
          rw [List.filter_cons_of_neg (by simp [marked])] at chosen
          rw [List.map_cons, marked, spread]
          · exact .cons (by rw [marked]; exact rfl) (ih chosen)
          · simp

omit hears in
theorem forall₂_spread_marks (property : FetchedBlock → Bool)
    {brings : FetchedBlock → Enrichment → Prop} {marks : List Bool} {additions : List Enrichment}
    (marked : marks = blocks.map property)
    (chosen : List.Forall₂ brings (((blocks.zip marks).filter Prod.snd).map Prod.fst)
      additions) :
    List.Forall₂ (fun block => AddsIf (property block) (brings block)) blocks
      (spread marks additions) := by
  subst marked
  rw [marked_eq_filter] at chosen
  exact forall₂_spread_filter chosen

theorem meets_fetchByProfile_brings {profile : ChainProfile} {demand : Demand} :
    Meets True memo (endpoint.fetchByProfile profile demand blocks) fun additions said after =>
      AddsToEach (fun record =>
        if demand.traces then Together (endpoint.profileMethods (heard record) profile)
        else fun _ addition => addition = .empty) blocks said additions ∧ after = memo := by
  unfold fetchByProfile
  dsimp only
  split
  case isTrue => exact Meets.bind (.throw trivial) fun _ _ _ (none : False) => none.elim
  case isFalse =>
    cases traced : demand.traces with
    | false => exact .pure ⟨fun _ _ => forall₂_map_empty fun _ => rfl, rfl⟩
    | true =>
        refine Meets.bind (meets_fetchReplays_brings hears rfl) ?_
        rintro replays saidFirst _ ⟨bringReplays, rfl⟩
        apply Meets.bind (meets_fetchCallTrees_brings hears)
        rintro callTrees saidSecond _ ⟨bringCallTrees, rfl⟩
        refine .pure ⟨fun record kept => ?_, rfl⟩
        simp only [List.append_nil, List.append_subset] at kept
        obtain ⟨keptFirst, keptSecond⟩ := kept
        exact Enrichment.forall₂_mergeAll
          (.cons (forall₂_spread_marks profile.isReplayed (List.map_map ..)
              (bringReplays record keptFirst))
            (.cons (forall₂_spread_marks profile.isDebugged (List.map_map ..)
              (bringCallTrees record keptSecond)) .nil))

/-- Traces and state diffs, on a chain that is told by its genesis hash. -/
theorem meets_fetchTraces_brings {demand : Demand} {finalized : Option UInt64}
    {identified : Hash → Memo → Prop}
    (identifies : Meets True memo endpoint.genesisHash fun genesis _ after =>
      identified genesis after) :
    Meets True memo (endpoint.fetchTraces demand finalized blocks) fun additions said after =>
      ∃ genesis, identified genesis after ∧
        AddsToEach (fun record => endpoint.TracesBring (heard record) demand
          (finalized.any fun height => decide (height < highest blocks)) genesis)
          blocks said additions := by
  apply Meets.bind identifies
  intro genesis said known isGenesis
  cases profiled : ChainProfile.ofGenesis? genesis with
  | none =>
      apply Meets.mono (meets_fetchByPlan_brings hears)
      rintro additions later _ ⟨bring, rfl⟩
      refine ⟨genesis, isGenesis, fun record kept => ?_⟩
      simp only [TracesBring, profiled]
      exact bring.append_left said record kept
  | some profile =>
      apply Meets.mono (meets_fetchByProfile_brings hears)
      rintro additions later _ ⟨bring, rfl⟩
      refine ⟨genesis, isGenesis, fun record kept => ?_⟩
      simp only [TracesBring, profiled]
      exact bring.append_left said record kept

/-! ## Rounds -/

omit hears in
/-- What a round adds to a block, when it is known what its three parts bring. -/
theorem meets_additions {demand : Demand} {finalized : Option UInt64} {known : Memo → Prop}
    {logsBring receiptsBring tracesBring : List Exchange → FetchedBlock → Enrichment → Prop}
    (logs : demand.logs = true → ∀ memo, known memo →
      Meets mayFail memo (endpoint.fetchLogs blocks)
        fun additions said after => AddsToEach logsBring blocks said additions ∧ known after)
    (receipts : demand.receipts = true → ∀ memo, known memo →
      Meets mayFail memo (endpoint.fetchReceipts blocks)
        fun additions said after => AddsToEach receiptsBring blocks said additions ∧ known after)
    (traces : (demand.traces || demand.stateDiffs) = true → ∀ memo, known memo →
      Meets mayFail memo (endpoint.fetchTraces demand finalized blocks)
        fun additions said after => AddsToEach tracesBring blocks said additions ∧ known after)
    (start : known memo) :
    Meets mayFail memo (endpoint.additions demand finalized blocks) fun additions said after =>
      AddsToEach (fun record => Together
        [ fun block => AddsIf demand.logs (logsBring record block),
          fun block => AddsIf demand.receipts (receiptsBring record block),
          fun block => AddsIf (demand.traces || demand.stateDiffs) (tracesBring record block) ])
        blocks said additions ∧ known after := by
  apply Meets.map
  unfold fetches
  split
  case isTrue nothing =>
    rw [List.isEmpty_iff.mp nothing]
    exact .pure ⟨fun _ _ => .nil, start⟩
  case isFalse =>
    refine Meets.bind (meets_fetchIf (fun used => logs used _ start) start) ?_
    rintro ofLogs saidFirst _ ⟨bringLogs, knownFirst⟩
    refine Meets.bind (meets_fetchIf (fun used => receipts used _ knownFirst) knownFirst) ?_
    rintro ofReceipts saidSecond _ ⟨bringReceipts, knownSecond⟩
    refine Meets.bind (meets_fetchIf (fun used => traces used _ knownSecond)
      knownSecond) ?_
    rintro ofTraces saidThird _ ⟨bringTraces, knownThird⟩
    refine .pure ⟨fun record kept => ?_, knownThird⟩
    simp only [List.append_nil, List.append_subset] at kept
    obtain ⟨keptFirst, keptSecond, keptThird⟩ := kept
    exact Enrichment.forall₂_mergeAll
      (.cons (bringLogs record keptFirst) (.cons (bringReceipts record keptSecond)
        (.cons (bringTraces record keptThird) .nil)))

end Endpoint

end ChainFeed
