import ChainFeed.Proofs.KnownReplies
import ChainFeed.Proofs.Splits

/-!
# Batching of finalized blocks

A node that replies by a function and has one chain of blocks gives each block the same data
in every batch.  So finalized blocks may be fetched together or apart.
-/

namespace ChainFeed

open Dialogue

/-- The receipt of a transaction that a node replies, if there is one. -/
def Reply.receipt? (reply : Reply) (options : CallOptions) (hash : Hash) : Option Raw.Receipt :=
  ((reply (Endpoint.receiptCall hash) options).toOption.bind
    (Json.nullable Raw.Receipt.ofJson?)).join

namespace Endpoint

variable {σ : Type} {memo : Memo} {endpoint : Endpoint σ} {reply : Reply}

/-! ## One round -/

/-- What a node that replies by a function has as receipts of a block. -/
def ReceiptsReplied (endpoint : Endpoint σ) (reply : Reply) :
    FetchedBlock → Enrichment → Prop :=
  match reply.receiptsMethod with
  | .transactionReceipt => fun block addition =>
      addition = receiptsOfTransactions endpoint.config.skippedChecks block
        (block.block.transactions.toHashes.filterMap (reply.receipt? endpoint.options))
  | method => endpoint.BlockReceiptsBring reply.Answers method

/-- What a node that replies by a function has as traces and state diffs of a block. -/
def TracesReplied (endpoint : Endpoint σ) (reply : Reply) (demand : Demand)
    (block : FetchedBlock) (addition : Enrichment) : Prop :=
  ∃ genesis, endpoint.IsGenesis reply genesis ∧
    endpoint.TracesBring reply.Answers demand false genesis block addition

/-- What a node that replies by a function has for a block, with the logs of each height. -/
def RoundReplied (endpoint : Endpoint σ) (reply : Reply) (logs : UInt64 → List Raw.Log)
    (demand : Demand) : FetchedBlock → Enrichment → Prop :=
  Together
    [ fun block => AddsIf demand.logs fun addition =>
        addition = logsOfBlock endpoint.config.skippedChecks block (logs block.height),
      fun block => AddsIf demand.receipts (endpoint.ReceiptsReplied reply block),
      fun block => AddsIf (demand.traces || demand.stateDiffs)
        (endpoint.TracesReplied reply demand block) ]

theorem oneEach_round (logs : UInt64 → List Raw.Log) (demand : Demand) :
    OneEach (endpoint.RoundReplied reply logs demand) := by
  apply oneEach_together
  simp only [List.forall_mem_cons]
  refine ⟨oneEach_addsIf ?logs, oneEach_addsIf ?receipts, oneEach_addsIf ?traces,
    fun _ none => absurd none List.not_mem_nil⟩
  case logs =>
    rintro block _ _ rfl rfl
    rfl
  case receipts =>
    unfold ReceiptsReplied
    split
    · rintro block _ _ rfl rfl
      rfl
    · exact oneEach_blockReceipts _
  case traces =>
    rintro block _ _ ⟨genesis, isGenesis, brings⟩ ⟨other, isGenesisToo, bringsToo⟩
    rw [isGenesis.unique isGenesisToo] at brings
    exact oneEach_traces demand false other brings bringsToo

theorem receipt?_of_reads {options : CallOptions} {hash : Hash} {receipt : Option Raw.Receipt}
    (reads : Reads reply.Answers (receiptCall hash) options (Json.nullable Raw.Receipt.ofJson?)
      receipt) : reply.receipt? options hash = receipt := by
  obtain ⟨answer, isReply, reading⟩ := reads
  change reply (receiptCall hash) options = .ok answer at isReply
  rw [Reply.receipt?, isReply]
  simp [Except.toOption, reading]

/-- Receipts that are fetched one by one, when each names the block that it is fetched for. -/
theorem meets_receiptsByTransaction_reply (answers : endpoint.node.AnswersAs reply)
    {raws : List Raw.Block} (distinct : (raws.map Raw.Block.hash).Nodup)
    (named : ∀ raw ∈ raws, ∀ receipt ∈
      raw.transactions.toHashes.filterMap (reply.receipt? endpoint.options),
        receipt.blockHash = raw.hash) :
    Meets True memo (endpoint.receiptsByTransaction (raws.map .ofBlock))
      fun additions _ after => additions = raws.map (fun raw =>
        receiptsOfTransactions endpoint.config.skippedChecks (.ofBlock raw)
          (raw.transactions.toHashes.filterMap (reply.receipt? endpoint.options))) ∧
            after = memo := by
  unfold receiptsByTransaction
  rw [List.flatMap_map]
  apply Meets.bind (meets_batch_reads (hears_reply answers))
  rintro found said _ ⟨reads, rfl⟩
  refine .pure ⟨?_, rfl⟩
  have each := List.forall₂_map_left_iff.mp (reads said (List.Subset.refl said))
  have replied : found.map id = (raws.flatMap fun raw => raw.transactions.toHashes).map
      (reply.receipt? endpoint.options) :=
    map_eq_of_forall₂ each fun _ _ reads => (receipt?_of_reads reads).symm
  have collected : found.filterMap id = raws.flatMap fun raw =>
      raw.transactions.toHashes.filterMap (reply.receipt? endpoint.options) := by
    rw [← List.map_id found, replied, List.filterMap_map, Function.id_comp,
      List.filterMap_flatMap]
  rw [collected, share_named distinct named, List.zip_map', List.map_map]
  rfl

/-- What bare blocks are given one by one. -/
theorem addsToEach_map {raws : List Raw.Block} {add : Raw.Block → Enrichment}
    {brings : FetchedBlock → Enrichment → Prop} {said : List Exchange}
    (adds : ∀ raw, brings (.ofBlock raw) (add raw)) :
    AddsToEach (fun _ => brings) (raws.map .ofBlock) said (raws.map add) :=
  fun _ _ => List.forall₂_map_left_iff.mpr (List.forall₂_map_right_iff.mpr
    (List.forall₂_same.mpr fun raw _ => adds raw))

/-- Whether the logs and the receipts that a node has for blocks tell them apart. -/
structure TellsApart (endpoint : Endpoint σ) (reply : Reply) (logs : UInt64 → List Raw.Log)
    (first last : UInt64) (raws : List Raw.Block) : Prop where
  distinct : (raws.map Raw.Block.hash).Nodup
  logs : LogsTell logs first last raws
  receipts : ∀ raw ∈ raws, ∀ receipt ∈
    raw.transactions.toHashes.filterMap (reply.receipt? endpoint.options),
      receipt.blockHash = raw.hash

variable {logs : UInt64 → List Raw.Log} {first last : UInt64} {demand : Demand}

/-- Blocks that are told apart are told apart when fewer of them are asked about. -/
theorem TellsApart.of_sublist {raws asked : List Raw.Block}
    (apart : endpoint.TellsApart reply logs first last raws) (isPart : asked.Sublist raws) :
    endpoint.TellsApart reply logs first last asked where
  distinct := apart.distinct.sublist (isPart.map _)
  logs := apart.logs.of_subset isPart.subset
  receipts raw isAsked := apart.receipts raw (isPart.subset isAsked)

theorem meets_fetchReceipts_reply (answers : endpoint.node.AnswersAs reply)
    {raws : List Raw.Block} (apart : endpoint.TellsApart reply logs first last raws)
    (known : endpoint.KnownBy reply memo) :
    Meets True memo (endpoint.fetchReceipts (raws.map .ofBlock)) fun additions said after =>
      AddsToEach (fun _ => endpoint.ReceiptsReplied reply) (raws.map .ofBlock) said additions ∧
        endpoint.KnownBy reply after := by
  apply Meets.bind (meets_receiptsMethod_reply answers known)
  rintro _ saidFirst after ⟨rfl, stillKnown⟩
  have byBlock (method : ReceiptsMethod) :
      Meets True after (endpoint.receiptsByBlock method (raws.map .ofBlock))
        fun additions said later => AddsToEach (fun _ => endpoint.BlockReceiptsBring reply.Answers
          method) (raws.map .ofBlock) (saidFirst ++ said) additions ∧
            endpoint.KnownBy reply later := by
    apply Meets.mono (meets_receiptsByBlock_brings (hears_reply answers))
    rintro additions said _ ⟨bring, rfl⟩
    exact ⟨bring.append_left saidFirst, stillKnown⟩
  unfold ReceiptsReplied
  cases reply.receiptsMethod with
  | alchemy => exact byBlock .alchemy
  | blockReceipts => exact byBlock .blockReceipts
  | transactionReceipt =>
      apply Meets.mono (meets_receiptsByTransaction_reply answers apart.distinct apart.receipts)
      rintro _ _ _ ⟨rfl, rfl⟩
      exact ⟨addsToEach_map fun _ => rfl, stillKnown⟩

/-- One round for some blocks, whichever they are. -/
theorem meets_round_reply (answers : endpoint.node.AnswersAs reply)
    (servesLogs : endpoint.ServesLogs logs first last) {raws : List Raw.Block}
    (apart : endpoint.TellsApart reply logs first last raws)
    (known : endpoint.KnownBy reply memo) :
    Meets True memo (endpoint.round demand raws) fun additions said after =>
      AddsToEach (fun _ => endpoint.RoundReplied reply logs demand) (raws.map .ofBlock) said
        additions ∧ endpoint.KnownBy reply after := by
  refine meets_additions (fun _ memo known => ?logs) (fun _ memo known => ?receipts)
    (fun _ memo known => ?traces) known
  case logs =>
    apply Meets.mono (Meets.of_never (meets_fetchLogs_of_serves apart.distinct apart.logs
      (.inr servesLogs)))
    rintro _ _ _ ⟨rfl, rfl⟩
    exact ⟨addsToEach_map fun _ => rfl, known⟩
  case receipts => exact meets_fetchReceipts_reply answers apart known
  case traces =>
    apply Meets.mono (meets_fetchTraces_brings (hears_reply answers)
      (meets_genesisHash_reply answers known))
    rintro additions said after ⟨genesis, ⟨isGenesis, stillKnown⟩, bring⟩
    refine ⟨fun record kept => (bring record kept).imp fun _ _ brings => ?_, stillKnown⟩
    exact ⟨genesis, isGenesis, brings⟩

/-! ## Finalized blocks -/

/-- Whether a node that replies by a function has one chain of blocks between two heights:
the block at a height has a hash of its own, the logs and the receipts for the block name it,
and the logs of ranges are served. -/
structure ServesChain (endpoint : Endpoint σ) (reply : Reply) (hashAt : UInt64 → Hash)
    (logs : UInt64 → List Raw.Log) (first last : UInt64) : Prop where
  distinct : ∀ height other, first ≤ height → height ≤ last → first ≤ other → other ≤ last →
    hashAt height = hashAt other → height = other
  blocks : ∀ full height raw, first ≤ height → height ≤ last →
    endpoint.GivesBlock reply.Answers full height raw →
      raw.number = height ∧ raw.hash = hashAt height ∧ ∀ receipt ∈
        raw.transactions.toHashes.filterMap (reply.receipt? endpoint.options),
          receipt.blockHash = hashAt height
  named : ∀ height, first ≤ height → height ≤ last → ∀ log ∈ logs height,
    log.blockHash = hashAt height
  servesLogs : endpoint.ServesLogs logs first last

variable {hashAt : UInt64 → Hash}

/-- Blocks at different heights of a chain are told apart. -/
theorem ServesChain.tellsApart (serves : endpoint.ServesChain reply hashAt logs first last)
    {heights : List UInt64} (distinct : heights.Nodup)
    (within : ∀ height ∈ heights, first ≤ height ∧ height ≤ last) {full : Bool}
    {raws : List Raw.Block}
    (given : List.Forall₂ (endpoint.GivesBlock reply.Answers full) heights raws) :
    endpoint.TellsApart reply logs first last raws := by
  have givenWithin := (List.forall₂_and_left heights raws).mpr ⟨within, given⟩
  have each : ∀ raw ∈ raws, ∃ height, (first ≤ height ∧ height ≤ last) ∧
      endpoint.GivesBlock reply.Answers full height raw := by
    intro raw isRaw
    obtain ⟨height, _, isGiven⟩ := exists_mem_of_forall₂ givenWithin isRaw
    exact ⟨height, isGiven⟩
  constructor
  case distinct =>
    have hashes : raws.map Raw.Block.hash = heights.map hashAt := by
      refine map_eq_of_forall₂ givenWithin ?_
      rintro height raw ⟨⟨atLeast, atMost⟩, isGiven⟩
      exact (serves.blocks full height raw atLeast atMost isGiven).2.1
    rw [hashes]
    exact distinct.map_on fun height isHeight other isOther =>
      serves.distinct height other (within height isHeight).1 (within height isHeight).2
        (within other isOther).1 (within other isOther).2
  case logs =>
    constructor
    case within =>
      intro raw isRaw
      obtain ⟨height, ⟨atLeast, atMost⟩, isGiven⟩ := each raw isRaw
      rw [(serves.blocks full height raw atLeast atMost isGiven).1]
      exact ⟨atLeast, atMost⟩
    case named =>
      intro raw isRaw other otherAtLeast otherAtMost log isLog
      obtain ⟨height, ⟨atLeast, atMost⟩, isGiven⟩ := each raw isRaw
      obtain ⟨rfl, hash, _⟩ := serves.blocks full height raw atLeast atMost isGiven
      rw [serves.named other otherAtLeast otherAtMost log isLog, hash]
      exact ⟨serves.distinct other raw.number otherAtLeast otherAtMost atLeast atMost,
        fun same => same ▸ rfl⟩
  case receipts =>
    intro raw isRaw
    obtain ⟨height, ⟨atLeast, atMost⟩, isGiven⟩ := each raw isRaw
    obtain ⟨_, hash, named⟩ := serves.blocks full height raw atLeast atMost isGiven
    rw [hash]
    exact named

/-- What a node that replies by a function has for a height: the block with all that one
round brings for it, and no defect. -/
def HeightReplied (endpoint : Endpoint σ) (reply : Reply) (logs : UInt64 → List Raw.Log)
    (demand : Demand) (height : UInt64) (block : FetchedBlock) : Prop :=
  endpoint.GivesBlock reply.Answers demand.transactions height block.block ∧
    Enriched (endpoint.RoundReplied reply logs demand) block

theorem rightUnique_heightReplied :
    Relator.RightUnique (endpoint.HeightReplied reply logs demand) := by
  rintro height ⟨raw, data⟩ ⟨other, otherData⟩ ⟨given, enriched⟩ ⟨givenToo, enrichedToo⟩
  obtain rfl : raw = other := Option.some.inj (Reads.unique given givenToo)
  obtain rfl : data = otherData := oneEach_round logs demand enriched.brought enrichedToo.brought
  rfl

/-- However the attempts go, finalized blocks are what the node has for their heights. -/
theorem meets_finalizedSplit_reply (answers : endpoint.node.AnswersAs reply)
    (serves : endpoint.ServesChain reply hashAt logs first last) {heights : List UInt64}
    (distinct : heights.Nodup) (within : ∀ height ∈ heights, first ≤ height ∧ height ≤ last)
    (known : endpoint.KnownBy reply memo) :
    Meets True memo (endpoint.finalizedSplit heights demand) fun result _ _ =>
      List.Forall₂ (endpoint.HeightReplied reply logs demand) heights result := by
  apply Meets.mono (meets_finalizedSplit (hears_reply answers) (fun record raws given asked
    isPart memo known => meets_round_reply answers serves.servesLogs
      ((serves.tellsApart distinct within given).of_sublist isPart) known) known)
  rintro result said _ ⟨each, _⟩
  exact each said (List.Subset.refl said)

/-- Whether some session that knows nothing wrong about the node ends with finalized blocks. -/
def FetchesFinalized (endpoint : Endpoint σ) (reply : Reply) (demand : Demand)
    (heights : List UInt64) (blocks : List FetchedBlock) : Prop :=
  ∃ session final, endpoint.KnownBy reply session.memo ∧
    (endpoint.finalizedSplit heights demand).run.run session = (.ok blocks, final)

/-- Finalized blocks are the same whether they are fetched together or apart, in whatever
state of the node, from a node that replies by a function and has one chain of blocks. -/
theorem finalizedSplit_append (endpoint : Endpoint σ) (reply : Reply)
    (hashAt : UInt64 → Hash) (logs : UInt64 → List Raw.Log) (first last : UInt64)
    (answers : endpoint.node.AnswersAs reply)
    (serves : endpoint.ServesChain reply hashAt logs first last) (demand : Demand)
    (lefts rights : List UInt64) (distinct : (lefts ++ rights).Nodup)
    (within : ∀ height ∈ lefts ++ rights, first ≤ height ∧ height ≤ last)
    {left right whole : List FetchedBlock}
    (fetchesLeft : endpoint.FetchesFinalized reply demand lefts left)
    (fetchesRight : endpoint.FetchesFinalized reply demand rights right)
    (fetchesWhole : endpoint.FetchesFinalized reply demand (lefts ++ rights) whole) :
    whole = left ++ right := by
  -- The three sessions have nothing in common but the node, so none of the results is
  -- compared with another before each is told by its heights.
  have replied : ∀ heights blocks, heights.Sublist (lefts ++ rights) →
      endpoint.FetchesFinalized reply demand heights blocks →
        List.Forall₂ (endpoint.HeightReplied reply logs demand) heights blocks := by
    rintro heights blocks isPart ⟨session, final, known, run⟩
    obtain ⟨_, _, each⟩ := (meets_finalizedSplit_reply answers serves (distinct.sublist isPart)
      (fun height isHeight => within height (isPart.subset isHeight)) known).of_run rfl run
    exact each
  have ofLeft := replied lefts left (List.sublist_append_left _ _) fetchesLeft
  have ofRight := replied rights right (List.sublist_append_right _ _) fetchesRight
  have ofWhole := replied (lefts ++ rights) whole (List.Sublist.refl _) fetchesWhole
  exact List.right_unique_forall₂' rightUnique_heightReplied ofWhole
    (List.rel_append ofLeft ofRight)

/-! ## A chain of two blocks -/

/-- Replies as those of the refusing node, but with a hash of its own for block seven, and
with no call tree for any block. -/
def chainReply : Reply := fun call options =>
  let word := fun (byte : Int) => Json.arr (List.replicate 32 (.int byte))
  match call.method, call.params with
  | "debug_traceBlockByHash", _ => .ok (.arr [])
  | "eth_getBlockByNumber", [.str "0x7", _] =>
      .ok (.obj
        [ ("number", .str "0x7"), ("hash", word 1), ("parentHash", word 0),
          ("logsBloom", .arr (List.replicate 256 (.int 0))), ("transactions", .arr []) ])
  | _, _ => (refusingNode.answer call options ()).1

/-- A node that replies so, one by one or in a batch. -/
def chainNode : Node Unit where
  url := ""
  answer call options _ := (chainReply call options, ())
  answerBatch calls options _ := (calls.mapM (chainReply · options), ())

theorem chainNode_answers : chainNode.AnswersAs chainReply where
  single _ _ _ := rfl
  batch _ _ _ _ run := forall₂_of_mapM_eq_ok run

/-- The hashes of blocks seven and eight. -/
def chainHash (height : UInt64) : Hash :=
  if height = 7 then hashOfSeven else .zero 32

theorem seven_or_eight {height : UInt64} (atLeast : 7 ≤ height) (atMost : height ≤ 8) :
    height = 7 ∨ height = 8 := by
  simp only [UInt64.le_iff_toNat_le, ← UInt64.toNat_inj, UInt64.reduceToNat] at *
  omega

/-- What is seen of a value that is read from a reply. -/
theorem observed_of_reads {α β : Type} {call : Call} {options : CallOptions}
    {read : Json → Option α} {value : α} (observe : α → β) {seen : β}
    (reads : Reads reply.Answers call options read value)
    (observed : ((reply call options).toOption.bind read).map observe = some seen) :
    observe value = seen := by
  obtain ⟨answer, isReply, reading⟩ := reads
  change reply call options = .ok answer at isReply
  rw [isReply] at observed
  simpa [Except.toOption, reading] using observed

/-- The number, the hash and the transactions of a block. -/
def identify (raw : Raw.Block) : UInt64 × Hash × List Hash :=
  (raw.number, raw.hash, raw.transactions.toHashes)

theorem chainNode_givesSeven {full : Bool} {raw : Raw.Block}
    (given : (Endpoint.of chainNode .standard).GivesBlock chainReply.Answers full 7 raw) :
    identify raw = (7, chainHash 7, []) := by
  rw [GivesBlock, blockCall, heightParam_seven] at given
  exact Option.some.inj (observed_of_reads (Option.map identify) given
    (by cases full <;> decide +kernel))

theorem chainNode_givesEight {full : Bool} {raw : Raw.Block}
    (given : (Endpoint.of chainNode .standard).GivesBlock chainReply.Answers full 8 raw) :
    identify raw = (8, chainHash 8, [.zero 32]) := by
  rw [GivesBlock, blockCall, heightParam_eight] at given
  exact Option.some.inj (observed_of_reads (Option.map identify) given
    (by cases full <;> decide +kernel))

set_option maxRecDepth 2000 in
theorem chainNode_servesLogs :
    (Endpoint.of chainNode .standard).ServesLogs refusedLogs 7 8 where
  ranges := refusingNode_serves.ranges
  blocks height atLeast atMost state := by
    rcases seven_or_eight atLeast atMost with rfl | rfl
    · rw [blockCall, heightParam_seven]
      refine ⟨_, ⟨_, rfl, rfl⟩, fun _ => [], rfl, ?_⟩
      exact fun _ member => absurd member List.not_mem_nil
    · have serves := refusingNode_serves.blocks 8 atLeast atMost state
      rw [blockCall, heightParam_eight] at serves ⊢
      exact serves

theorem chainNode_serves : (Endpoint.of chainNode .standard).ServesChain chainReply chainHash
    refusedLogs 7 8 where
  distinct height other atLeast atMost otherAtLeast otherAtMost := by
    rcases seven_or_eight atLeast atMost with rfl | rfl <;>
      rcases seven_or_eight otherAtLeast otherAtMost with rfl | rfl <;> decide
  blocks full height raw atLeast atMost given := by
    rcases seven_or_eight atLeast atMost with rfl | rfl
    · have seen := chainNode_givesSeven given
      simp only [identify, Prod.mk.injEq] at seen
      obtain ⟨number, hash, hashes⟩ := seen
      rw [hashes]
      exact ⟨number, hash, fun _ none => absurd none List.not_mem_nil⟩
    · have seen := chainNode_givesEight given
      simp only [identify, Prod.mk.injEq] at seen
      obtain ⟨number, hash, hashes⟩ := seen
      rw [hashes]
      exact ⟨number, hash, by decide +kernel⟩
  named height atLeast atMost log isLog := by
    rcases seven_or_eight atLeast atMost with rfl | rfl
    · exact absurd isLog List.not_mem_nil
    · rw [List.mem_singleton.mp isLog]
      rfl
  servesLogs := chainNode_servesLogs

/-- A demand for logs, receipts and traces. -/
def chainDemand : Demand :=
  { Demand.of .empty .off with logs := true, receipts := true, traces := true }

/-- The hash of a block with the number of its logs, receipts and call trees. -/
def observeBlock (block : FetchedBlock) :
    Hash × Option Nat × Option Nat × Option Nat :=
  (block.hash, block.data.logs.map List.length, block.data.receipts.map List.length,
    block.data.callTrees.map List.length)

/-- Blocks eight and seven come to the same together and apart. -/
theorem finalizedSplit_append_chainNode :
    let endpoint := Endpoint.of chainNode .standard
    ∃ left right whole : List FetchedBlock,
      chainNode.AnswersAs chainReply ∧
        endpoint.ServesChain chainReply chainHash refusedLogs 7 8 ∧
        endpoint.FetchesFinalized chainReply chainDemand [8] left ∧
        endpoint.FetchesFinalized chainReply chainDemand [7] right ∧
        endpoint.FetchesFinalized chainReply chainDemand [8, 7] whole ∧
        whole.map observeBlock = [(chainHash 8, some 1, some 1, some 1),
          (chainHash 7, some 0, some 0, some 0)] ∧
        whole = left ++ right := by
  have run : ∀ heights seen, ((((Endpoint.of chainNode .standard).finalizedSplit heights
      chainDemand).run.run (.start ())).1.toOption.map fun blocks =>
        blocks.map observeBlock) = some seen →
      ∃ blocks, (Endpoint.of chainNode .standard).FetchesFinalized chainReply chainDemand heights
        blocks ∧ blocks.map observeBlock = seen := by
    intro heights seen observed
    obtain ⟨blocks, ending, same⟩ := exists_of_observed observed
    exact ⟨blocks, ⟨.start (), _, knownBy_empty, ending⟩, same⟩
  obtain ⟨left, fetchesLeft, _⟩ := run [8] [(chainHash 8, some 1, some 1, some 1)]
    (by decide +kernel)
  obtain ⟨right, fetchesRight, _⟩ := run [7] [(chainHash 7, some 0, some 0, some 0)]
    (by decide +kernel)
  obtain ⟨whole, fetchesWhole, seen⟩ := run [8, 7] [(chainHash 8, some 1, some 1, some 1),
    (chainHash 7, some 0, some 0, some 0)] (by decide +kernel)
  have within : ∀ height ∈ [8] ++ [7], (7 : UInt64) ≤ height ∧ height ≤ 8 :=
    List.forall_mem_cons.mpr ⟨by decide, List.forall_mem_singleton.mpr (by decide)⟩
  exact ⟨left, right, whole, chainNode_answers, chainNode_serves, fetchesLeft, fetchesRight,
    fetchesWhole, seen, finalizedSplit_append (.of chainNode .standard) chainReply chainHash
      refusedLogs 7 8 chainNode_answers chainNode_serves chainDemand [8] [7] (by decide) within
      fetchesLeft fetchesRight fetchesWhole⟩

end Endpoint

end ChainFeed
