import ChainFeed.Engine.Enrich
import ChainFeed.Proofs.Dialogue
import ChainFeed.Proofs.Merging
import ChainFeed.Proofs.Outcomes

/-!
# Theory of additions

What a call adds to a block is consistent with the block unless it comes with a
defect.  Consistency is stated for data by the call that it comes from; the record
of what was said tells which call that is.
-/

namespace ChainFeed

variable {σ : Type}

/-! ## Consistent data -/

/-- Whether listed logs are consistent with a block. -/
structure LogsOf (skipped : SkippedChecks) (block : FetchedBlock) (logs : List Raw.Log) :
    Prop where
  sameBlock : ∀ log ∈ logs, log.blockHash = block.hash
  bloom : skipped.logsBloom = false → block.block.logsBloom ≠ .zero 256 → logs ≠ []

/-- Whether receipts were the answer to a call for all receipts of a block. -/
def FromBlockMethod (endpoint : Endpoint σ) (record : List Exchange) (block : FetchedBlock)
    (receipts : List Raw.Receipt) : Prop :=
  ∃ method, method ≠ .transactionReceipt ∧
    Heard record (Endpoint.blockReceiptsCall method block) endpoint.options
      (Json.nullable (Json.list? Raw.Receipt.ofJson?)) (some receipts)

/-- Whether receipts are consistent with a block. -/
structure ReceiptsOf (endpoint : Endpoint σ) (record : List Exchange) (block : FetchedBlock)
    (receipts : List Raw.Receipt) : Prop where
  count : endpoint.config.skippedChecks.receiptsNumber = false →
    receipts.length = block.block.transactions.length
  sameBlock : (∀ receipt ∈ receipts, receipt.blockHash = block.hash) ∨
    endpoint.config.skippedChecks.receiptBlockHash = true ∧
      FromBlockMethod endpoint record block receipts

/-- Whether a replay names a transaction, by itself or else by its frames: some of
them name it, and none of them names another one. -/
def Raw.Replay.Names (replay : Raw.Replay) (hash : Hash) : Prop :=
  replay.transactionHash = some hash ∨
    replay.transactionHash = none ∧
      let named := (replay.trace.getD []).filterMap TraceFrame.transactionHash
      named ≠ [] ∧ ∀ other ∈ named, other = hash

/-- Whether replays are the answer to a replay call, each with the hash of the
transaction of the block that it names. -/
def FromReplayCall (endpoint : Endpoint σ) (record : List Exchange) (block : FetchedBlock)
    (replays : List Raw.Replay) : Prop :=
  ∃ (method : String) (outputs : Json) (answers : List Raw.Replay),
    Heard record ⟨method, [heightParam block.height, outputs]⟩ endpoint.options
        (Json.list? Raw.Replay.ofJson?) answers ∧
      List.Forall₂ (fun answer replay => ∃ hash ∈ block.block.transactions.toHashes,
        answer.Names hash ∧ replay = { answer with transactionHash := some hash })
        answers replays

/-- Whether replays are made of the frames of a trace block. -/
structure FramesOf (skipped : SkippedChecks) (block : FetchedBlock)
    (frames : List Raw.TraceFrame) (replays : List Raw.Replay) : Prop where
  grouped : replays = Raw.groupFrames frames
  onlyFrames : ∀ replay ∈ replays, ∀ frame ∈ replay.trace.getD [], frame ∈ frames
  sameBlock : skipped.traceBlockHash = false →
    ∀ frame ∈ frames, frame.blockHash = some block.hash

/-- Whether a block has the replays that the answer to a call for its trace block
comes to: without frames there are none, and then the block has no transactions. -/
def FromTraceBlock (endpoint : Endpoint σ) (record : List Exchange) (block : FetchedBlock)
    (replays : Option (List Raw.Replay)) : Prop :=
  ∃ frames : List Raw.TraceFrame,
    Heard record ⟨"trace_block", [heightParam block.height]⟩ endpoint.options
        (Json.list? Raw.TraceFrame.ofJson?) frames ∧
      match replays with
      | none => frames = [] ∧ (endpoint.config.skippedChecks.missingTraces = false →
          block.block.transactions.isEmpty = true)
      | some replays => frames ≠ [] ∧
          FramesOf endpoint.config.skippedChecks block frames replays

/-- Whether traces and state diffs are consistent with a block, given whether they
come from trace blocks. -/
structure TracesOf (endpoint : Endpoint σ) (byTraceBlock : Prop) (record : List Exchange)
    (block : FetchedBlock) (data : Enrichment) : Prop where
  callTrees : ∀ trees, data.callTrees = some trees →
    trees.length = block.block.transactions.length
  prestates : ∀ prestates, data.prestates = some prestates →
    prestates.length = block.block.transactions.length
  frames : byTraceBlock → FromTraceBlock endpoint record block data.replays
  replays : ¬byTraceBlock → ∀ replays, data.replays = some replays →
    FromReplayCall endpoint record block replays

/-! ## Additions of one kind -/

/-- An addition of nothing but logs. -/
def AddsOnlyLogs (addition : Enrichment) : Prop :=
  addition = { Enrichment.empty with logs := addition.logs, defect := addition.defect }

/-- An addition of logs. -/
structure AddsLogs (skipped : SkippedChecks) (block : FetchedBlock) (addition : Enrichment) :
    Prop where
  only : AddsOnlyLogs addition
  consistent : addition.defect = none → ∃ logs, addition.logs = some logs ∧
    LogsOf skipped block logs

/-- An addition of nothing but receipts. -/
def AddsOnlyReceipts (addition : Enrichment) : Prop :=
  addition = { Enrichment.empty with receipts := addition.receipts, defect := addition.defect }

/-- An addition of receipts. -/
structure AddsReceipts (endpoint : Endpoint σ) (record : List Exchange) (block : FetchedBlock)
    (addition : Enrichment) : Prop where
  only : AddsOnlyReceipts addition
  consistent : addition.defect = none → ∃ receipts, addition.receipts = some receipts ∧
    ReceiptsOf endpoint record block receipts

/-- An addition of nothing but replays. -/
def AddsOnlyReplays (addition : Enrichment) : Prop :=
  addition = { Enrichment.empty with replays := addition.replays, defect := addition.defect }

/-- An addition of replays by a replay call. -/
structure AddsReplays (endpoint : Endpoint σ) (record : List Exchange) (block : FetchedBlock)
    (addition : Enrichment) : Prop where
  only : AddsOnlyReplays addition
  consistent : addition.defect = none → ∀ replays, addition.replays = some replays →
    FromReplayCall endpoint record block replays

/-- An addition of replays by a trace block. -/
structure AddsFrames (endpoint : Endpoint σ) (record : List Exchange) (block : FetchedBlock)
    (addition : Enrichment) : Prop where
  only : AddsOnlyReplays addition
  consistent : addition.defect = none → FromTraceBlock endpoint record block addition.replays

/-- An addition of call trees. -/
structure AddsCallTrees (block : FetchedBlock) (addition : Enrichment) : Prop where
  only : addition =
    { Enrichment.empty with callTrees := addition.callTrees, defect := addition.defect }
  slots : ∀ trees, addition.callTrees = some trees →
    trees.length = block.block.transactions.length

/-- An addition of snapshots. -/
structure AddsPrestates (block : FetchedBlock) (addition : Enrichment) : Prop where
  only : addition =
    { Enrichment.empty with prestates := addition.prestates, defect := addition.defect }
  slots : ∀ prestates, addition.prestates = some prestates →
    prestates.length = block.block.transactions.length

/-- An addition of traces and state diffs. -/
structure AddsTraces (endpoint : Endpoint σ) (byTraceBlock : Prop) (record : List Exchange)
    (block : FetchedBlock) (addition : Enrichment) : Prop where
  only : addition = { addition with logs := none, receipts := none }
  consistent : addition.defect = none → TracesOf endpoint byTraceBlock record block addition

/-- Whether additions stand beside the blocks that they are for, judged by any
record that has what was said. -/
def AddsToEach (adds : List Exchange → FetchedBlock → Enrichment → Prop)
    (blocks : List FetchedBlock) (said : List Exchange) (additions : List Enrichment) : Prop :=
  ∀ record, said ⊆ record → List.Forall₂ (adds record) blocks additions

/-- More may have been said before. -/
theorem AddsToEach.append_left {adds : List Exchange → FetchedBlock → Enrichment → Prop}
    {blocks : List FetchedBlock} {said : List Exchange} {additions : List Enrichment}
    (toEach : AddsToEach adds blocks said additions) (before : List Exchange) :
    AddsToEach adds blocks (before ++ said) additions :=
  fun record kept => toEach record fun _ member => kept (List.mem_append_right _ member)

/-- More may have been said afterwards. -/
theorem AddsToEach.append_right {adds : List Exchange → FetchedBlock → Enrichment → Prop}
    {blocks : List FetchedBlock} {said : List Exchange} {additions : List Enrichment}
    (toEach : AddsToEach adds blocks said additions) (later : List Exchange) :
    AddsToEach adds blocks (said ++ later) additions :=
  fun record kept => toEach record fun _ member => kept (List.mem_append_left _ member)

/-! ## Sharing by block -/

/-- A block is given nothing that names another block. -/
theorem forall₂_shareByHash {α : Type} {hashOf : α → Hash} (blocks : List FetchedBlock)
    (items : List α) :
    List.Forall₂ (fun block share => ∀ item ∈ share, hashOf item = block.hash) blocks
      (shareByHash hashOf blocks items) := by
  induction blocks generalizing items with
  | nil => exact .nil
  | cons block blocks ih =>
      refine .cons ?_ (ih _)
      intro item member
      exact beq_iff_eq.mp (List.mem_filter.mp member).2

theorem logsOfBlock_adds {skipped : SkippedChecks} {block : FetchedBlock}
    {logs : List Raw.Log} (sameBlock : ∀ log ∈ logs, log.blockHash = block.hash) :
    AddsLogs skipped block (logsOfBlock skipped block logs) := by
  refine ⟨rfl, fun valid => ⟨logs, rfl, sameBlock, ?_⟩⟩
  intro checked bloom rfl
  simp [logsOfBlock, checked, bloom] at valid

/-! ## Receipts -/

variable {endpoint : Endpoint σ} {record : List Exchange} {block : FetchedBlock}

theorem defective_addsReceipts (defect : Defect) :
    AddsReceipts endpoint record block (.defective defect) :=
  ⟨rfl, fun valid => absurd valid (by simp [Enrichment.defective])⟩

theorem receiptsOfBlock_adds {method : ReceiptsMethod} {receipts : List Raw.Receipt}
    (byBlock : method ≠ .transactionReceipt)
    (heard : Heard record (Endpoint.blockReceiptsCall method block) endpoint.options
      (Json.nullable (Json.list? Raw.Receipt.ofJson?)) (some receipts)) :
    AddsReceipts endpoint record block
      (receiptsOfBlock endpoint.config.skippedChecks method block receipts) := by
  simp only [receiptsOfBlock]
  split
  case isTrue => exact defective_addsReceipts _
  case isFalse noForeign =>
    split
    case isTrue => exact defective_addsReceipts _
    case isFalse complete =>
      refine ⟨rfl, fun _ => ⟨receipts, rfl, ?_, ?_⟩⟩
      · intro checked
        simpa [checked] using complete
      · cases checked : endpoint.config.skippedChecks.receiptBlockHash with
        | true => exact Or.inr ⟨rfl, method, byBlock, heard⟩
        | false => exact Or.inl (by simpa [checked] using noForeign)

theorem receiptsOfTransactions_adds {receipts : List Raw.Receipt}
    (sameBlock : ∀ receipt ∈ receipts, receipt.blockHash = block.hash) :
    AddsReceipts endpoint record block
      (receiptsOfTransactions endpoint.config.skippedChecks block receipts) := by
  simp only [receiptsOfTransactions]
  split
  case isTrue => exact defective_addsReceipts _
  case isFalse complete =>
    refine ⟨rfl, fun _ => ⟨receipts, rfl, ?_, Or.inl sameBlock⟩⟩
    intro checked
    simpa [checked] using complete

/-! ## Replays -/

/-- The hash that the frames of a replay name is named by all that name one. -/
theorem Raw.Replay.hashFromFrames_eq_ok {replay : Raw.Replay} {hash : Hash}
    (found : replay.hashFromFrames = .ok hash) :
    let named := (replay.trace.getD []).filterMap TraceFrame.transactionHash
    named ≠ [] ∧ ∀ other ∈ named, other = hash := by
  intro named
  unfold Raw.Replay.hashFromFrames at found
  cases names : named with
  | nil =>
      rw [show (replay.trace.getD []).filterMap TraceFrame.transactionHash = [] from names]
        at found
      exact absurd found (by simp)
  | cons first rest =>
      rw [show (replay.trace.getD []).filterMap TraceFrame.transactionHash = first :: rest
        from names] at found
      simp only at found
      split at found
      case isTrue agree =>
        rw [Except.ok.injEq] at found
        subst found
        refine ⟨List.cons_ne_nil _ _, List.forall_mem_cons.mpr ⟨rfl, ?_⟩⟩
        intro other member
        exact beq_iff_eq.mp (List.all_eq_true.mp agree other member)
      case isFalse => exact absurd found (by simp)

/-- A replay is given the hash of the transaction that it names. -/
theorem Raw.Replay.named_eq_ok {answer replay : Raw.Replay} (found : answer.named = .ok replay) :
    ∃ hash, answer.Names hash ∧ replay = { answer with transactionHash := some hash } := by
  unfold Raw.Replay.named at found
  cases own : answer.transactionHash with
  | some hash =>
      rw [own] at found
      simp only [Except.ok.injEq] at found
      subst found
      exact ⟨hash, Or.inl own, by rw [← own]⟩
  | none =>
      rw [own] at found
      cases fromFrames : answer.hashFromFrames with
      | error reason =>
          rw [fromFrames] at found
          exact absurd found (by simp [bind, Except.bind])
      | ok hash =>
          rw [fromFrames] at found
          refine ⟨hash, Or.inr ⟨own, hashFromFrames_eq_ok fromFrames⟩, ?_⟩
          exact (Except.ok.inj found).symm

theorem replaysOfBlock_adds {method : String} {outputs : Json}
    {answers replays : List Raw.Replay}
    (heard : Heard record ⟨method, [heightParam block.height, outputs]⟩ endpoint.options
      (Json.list? Raw.Replay.ofJson?) answers)
    (renamed : answers.mapM Raw.Replay.named = .ok replays) :
    AddsReplays endpoint record block (replaysOfBlock method block replays) := by
  refine ⟨rfl, ?_⟩
  rintro valid _ ⟨⟩
  have own : ∀ replay ∈ replays, ∃ hash ∈ block.block.transactions.toHashes,
      replay.transactionHash = some hash := by
    intro replay member
    by_contra foreign
    apply absurd valid
    simp only [replaysOfBlock]
    rw [if_pos]
    · simp
    · rw [List.any_eq_true]
      refine ⟨replay, member, ?_⟩
      cases name : replay.transactionHash with
      | none => rfl
      | some hash =>
          have unknown : hash ∉ block.block.transactions.toHashes :=
            fun known => foreign ⟨hash, known, name⟩
          simp [unknown]
  refine ⟨method, outputs, answers, heard, ?_⟩
  have each := List.forall₂_iff_zip.mp (forall₂_of_mapM_eq_ok renamed)
  refine List.forall₂_iff_zip.mpr ⟨each.1, ?_⟩
  intro answer replay member
  obtain ⟨hash, names, rfl⟩ := Raw.Replay.named_eq_ok (each.2 member)
  obtain ⟨known, isTransaction, same⟩ := own _ (List.of_mem_zip member).2
  rw [Option.some.injEq] at same
  subst same
  exact ⟨hash, isTransaction, names, rfl⟩

/-! ## Trace blocks -/

/-- A group has the frame that is added to it and those that it had before. -/
theorem Raw.mem_addFrame {hash : Hash} {added : TraceFrame} {groups : List Replay}
    {replay : Replay} (member : replay ∈ addFrame hash added groups) {frame : TraceFrame}
    (inside : frame ∈ replay.trace.getD []) :
    frame = added ∨ ∃ group ∈ groups, frame ∈ group.trace.getD [] := by
  induction groups with
  | nil =>
      rw [addFrame, List.mem_singleton] at member
      subst member
      exact Or.inl (List.mem_singleton.mp inside)
  | cons group groups ih =>
      rw [addFrame] at member
      split at member
      case isTrue =>
        rcases List.mem_cons.mp member with rfl | later
        · cases old : group.trace with
          | none => simp [old] at inside
          | some frames =>
              simp only [old, Option.map_some, Option.getD_some, List.mem_append,
                List.mem_singleton] at inside
              rcases inside with before | same
              · exact Or.inr ⟨group, List.mem_cons_self, by simpa [old] using before⟩
              · exact Or.inl same
        · exact Or.inr ⟨replay, List.mem_cons_of_mem _ later, inside⟩
      case isFalse =>
        rcases List.mem_cons.mp member with rfl | later
        · exact Or.inr ⟨replay, List.mem_cons_self, inside⟩
        · rcases ih later with same | ⟨other, otherMember, otherInside⟩
          · exact Or.inl same
          · exact Or.inr ⟨other, List.mem_cons_of_mem _ otherMember, otherInside⟩

/-- Grouping makes up no frames. -/
theorem Raw.mem_groupFrames (frames : List TraceFrame) :
    ∀ group ∈ groupFrames frames, ∀ frame ∈ group.trace.getD [], frame ∈ frames := by
  unfold groupFrames
  refine List.foldlRecOn (motive := fun groups : List Replay =>
    ∀ group ∈ groups, ∀ frame ∈ group.trace.getD [], frame ∈ frames) frames _ ?_ ?_
  · exact fun _ none => absurd none List.not_mem_nil
  · intro groups grouped added isFrame group groupMember frame inside
    split at groupMember
    · rcases mem_addFrame groupMember inside with rfl | ⟨older, olderMember, olderInside⟩
      · exact isFrame
      · exact grouped older olderMember frame olderInside
    · exact grouped group groupMember frame inside

theorem framesOfBlock_adds {frames : List Raw.TraceFrame}
    (heard : Heard record ⟨"trace_block", [heightParam block.height]⟩ endpoint.options
      (Json.list? Raw.TraceFrame.ofJson?) frames) :
    AddsFrames endpoint record block
      (framesOfBlock endpoint.config.skippedChecks block frames) := by
  have defective (defect : Defect) : AddsFrames endpoint record block (.defective defect) :=
    ⟨rfl, fun valid => absurd valid (by simp [Enrichment.defective])⟩
  simp only [framesOfBlock]
  split
  case isTrue noFrames =>
    split
    case isTrue => exact defective _
    case isFalse accepted =>
      refine ⟨rfl, fun _ => ⟨frames, heard, List.isEmpty_iff.mp noFrames, ?_⟩⟩
      intro checked
      simpa [checked] using accepted
  case isFalse someFrames =>
    split
    case isTrue => exact defective _
    case isFalse noForeign =>
      refine ⟨rfl, fun _ => ⟨frames, heard, ?_, rfl, ?_, ?_⟩⟩
      · rwa [List.isEmpty_iff] at someFrames
      · exact Raw.mem_groupFrames frames
      · intro checked
        simpa [checked] using noForeign

/-! ## Debug tracers -/

theorem length_byHash {α : Type} (hashOf : α → Option Hash) (transactions : List Hash)
    (results : List α) :
    (alignResults.byHash hashOf transactions results).length = transactions.length := by
  induction transactions generalizing results with
  | nil => rfl
  | cons hash rest ih => rw [alignResults.byHash, List.length_cons, ih, List.length_cons]

/-- Every transaction has exactly one slot. -/
theorem length_alignResults {α : Type} (hashOf : α → Option Hash) (transactions : List Hash)
    (results : List α) :
    (alignResults hashOf transactions results).length = transactions.length := by
  rw [alignResults]
  split
  case isTrue same => rw [List.length_map, same]
  case isFalse => exact length_byHash hashOf transactions results

end ChainFeed
