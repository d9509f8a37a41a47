import ChainFeed.Proofs.Composition
import ChainFeed.Proofs.ProjectionPairs
import ChainFeed.Selection.Match

/-!
# What a selection hides

A block that is projected with every property selected shows all that a node said of it.  A
selection hides the properties that it leaves out, and nothing else, but for the keys that
entries of a request look at: those are shown always.  Two kinds of items show more than is
selected.  State diffs show both values whatever is selected, and frames of call trees show
why they failed.
-/

namespace ChainFeed

/-! ## All properties -/

/-- All switches for the properties of block headers on. -/
def BlockFields.on : BlockFields :=
  { nonce := true, sha3Uncles := true, logsBloom := true, transactionsRoot := true,
    stateRoot := true, receiptsRoot := true, mixHash := true, miner := true, difficulty := true,
    totalDifficulty := true, extraData := true, size := true, gasLimit := true, gasUsed := true,
    baseFeePerGas := true, timestamp := true, l1BlockNumber := true }

/-- All switches for the properties of transactions on. -/
def TransactionFields.on : TransactionFields :=
  { hash := true, sender := true, recipient := true, gas := true, gasPrice := true,
    maxFeePerGas := true, maxPriorityFeePerGas := true, sighash := true, input := true,
    nonce := true, value := true, v := true, r := true, s := true, yParity := true,
    chainId := true, authorizationList := true, gasUsed := true, cumulativeGasUsed := true,
    effectiveGasPrice := true, contractAddress := true, type := true, status := true,
    l1Fee := true, l1FeeScalar := true, l1GasPrice := true, l1GasUsed := true,
    l1BaseFeeScalar := true, l1BlobBaseFee := true, l1BlobBaseFeeScalar := true }

/-- All switches for the properties of logs on. -/
def LogFields.on : LogFields :=
  { transactionHash := true, address := true, data := true, topics := true }

/-- All switches for the properties of traces on. -/
def TraceFields.on : TraceFields :=
  { callCallType := true, callFrom := true, callGas := true, callInput := true,
    callResultGasUsed := true, callResultOutput := true, callSighash := true, callTo := true,
    callValue := true, createFrom := true, createGas := true, createInit := true,
    createResultAddress := true, createResultCode := true, createResultGasUsed := true,
    createValue := true, error := true, revertReason := true, rewardAuthor := true,
    rewardType := true, rewardValue := true, subtraces := true, suicideAddress := true,
    suicideBalance := true, suicideRefundAddress := true }

/-- All switches for the properties of state diffs on. -/
def StateDiffFields.on : StateDiffFields :=
  { kind := true, next := true, prev := true }

/-- The selection of all properties. -/
def FieldSelection.on : FieldSelection := ⟨.on, .on, .on, .on, .on⟩

/-! ## Hidden properties -/

/-- What is selected of a header. -/
def Header.restrict (fields : BlockFields) (header : Header) : Header :=
  { header with
    timestamp := shown fields.timestamp header.timestamp
    nonce := shown fields.nonce header.nonce
    sha3Uncles := shown fields.sha3Uncles header.sha3Uncles
    logsBloom := shown fields.logsBloom header.logsBloom
    transactionsRoot := shown fields.transactionsRoot header.transactionsRoot
    stateRoot := shown fields.stateRoot header.stateRoot
    receiptsRoot := shown fields.receiptsRoot header.receiptsRoot
    mixHash := shown fields.mixHash header.mixHash
    miner := shown fields.miner header.miner
    difficulty := shown fields.difficulty header.difficulty
    totalDifficulty := shown fields.totalDifficulty header.totalDifficulty
    extraData := shown fields.extraData header.extraData
    size := shown fields.size header.size
    gasLimit := shown fields.gasLimit header.gasLimit
    gasUsed := shown fields.gasUsed header.gasUsed
    baseFeePerGas := shown fields.baseFeePerGas header.baseFeePerGas
    l1BlockNumber := shown fields.l1BlockNumber header.l1BlockNumber }

/-- What is selected of a transaction, and the selector of the called function. -/
def Transaction.restrict (fields : TransactionFields) (transaction : Transaction) : Transaction :=
  { transaction with
    hash := shown fields.hash transaction.hash
    sender := shown fields.sender transaction.sender
    recipient := shown fields.recipient transaction.recipient
    gas := shown fields.gas transaction.gas
    gasPrice := shown fields.gasPrice transaction.gasPrice
    maxFeePerGas := shown fields.maxFeePerGas transaction.maxFeePerGas
    maxPriorityFeePerGas := shown fields.maxPriorityFeePerGas transaction.maxPriorityFeePerGas
    input := shown fields.input transaction.input
    nonce := shown fields.nonce transaction.nonce
    value := shown fields.value transaction.value
    v := shown fields.v transaction.v
    r := shown fields.r transaction.r
    s := shown fields.s transaction.s
    yParity := shown fields.yParity transaction.yParity
    chainId := shown fields.chainId transaction.chainId
    authorizationList := shown fields.authorizationList transaction.authorizationList
    gasUsed := shown fields.gasUsed transaction.gasUsed
    cumulativeGasUsed := shown fields.cumulativeGasUsed transaction.cumulativeGasUsed
    effectiveGasPrice := shown fields.effectiveGasPrice transaction.effectiveGasPrice
    contractAddress := shown fields.contractAddress transaction.contractAddress
    type := shown fields.type transaction.type
    status := shown fields.status transaction.status
    l1Fee := shown fields.l1Fee transaction.l1Fee
    l1FeeScalar := shown fields.l1FeeScalar transaction.l1FeeScalar
    l1GasPrice := shown fields.l1GasPrice transaction.l1GasPrice
    l1GasUsed := shown fields.l1GasUsed transaction.l1GasUsed
    l1BaseFeeScalar := shown fields.l1BaseFeeScalar transaction.l1BaseFeeScalar
    l1BlobBaseFee := shown fields.l1BlobBaseFee transaction.l1BlobBaseFee
    l1BlobBaseFeeScalar := shown fields.l1BlobBaseFeeScalar transaction.l1BlobBaseFeeScalar }

/-- What is selected of a log. -/
def Log.restrict (fields : LogFields) (log : Log) : Log :=
  { log with
    transactionHash := shown fields.transactionHash log.transactionHash
    address := shown fields.address log.address
    data := shown fields.data log.data
    topics := shown fields.topics log.topics }

/-- What is selected of a creation's outcome. -/
def CreateResult.restrict (fields : TraceFields) (result : CreateResult) : CreateResult where
  gasUsed := shown fields.createResultGasUsed result.gasUsed
  code := shown fields.createResultCode result.code
  address := shown fields.createResultAddress result.address

/-- What is selected of a call's outcome. -/
def CallResult.restrict (fields : TraceFields) (result : CallResult) : CallResult where
  gasUsed := shown fields.callResultGasUsed result.gasUsed
  output := shown fields.callResultOutput result.output

/-- What is selected of what a frame did, and the keys that entries look at.  An outcome of
which nothing is selected is left out. -/
def TraceData.restrict (fields : TraceFields) : TraceData → TraceData
  | create action result =>
      .create
        { action with
          value := shown fields.createValue action.value
          gas := shown fields.createGas action.gas
          init := shown fields.createInit action.init }
        (result.bind fun result => unlessEmpty .empty (result.restrict fields))
  | call action result =>
      .call
        { action with
          callType := shown fields.callCallType action.callType
          value := shown fields.callValue action.value
          gas := shown fields.callGas action.gas
          input := shown fields.callInput action.input }
        (result.bind fun result => unlessEmpty .empty (result.restrict fields))
  | suicide action =>
      .suicide
        { action with
          address := shown fields.suicideAddress action.address
          balance := shown fields.suicideBalance action.balance }
  | reward action =>
      .reward
        { action with
          value := shown fields.rewardValue action.value
          rewardType := shown fields.rewardType action.rewardType }

/-- What is selected of a trace, and the keys that entries look at. -/
def Trace.restrict (fields : TraceFields) (trace : Trace) : Trace :=
  { trace with
    subtraces := shown fields.subtraces trace.subtraces
    error := shown fields.error trace.error
    revertReason := shown fields.revertReason trace.revertReason
    data := trace.data.restrict fields }

/-- What is selected of a state diff, and its kind. -/
def StateDiff.restrict (fields : StateDiffFields) (diff : StateDiff) : StateDiff :=
  { diff with
    prev := shown fields.prev diff.prev
    next := shown fields.next diff.next }

/-- What is selected of a block, and the keys that entries look at. -/
def Block.restrict (fields : FieldSelection) (block : Block) : Block where
  header := block.header.restrict fields.block
  transactions := block.transactions.map (Transaction.restrict fields.transaction)
  logs := block.logs.map (Log.restrict fields.log)
  traces := block.traces.map (Trace.restrict fields.trace)
  stateDiffs := block.stateDiffs.map (StateDiff.restrict fields.stateDiff)

/-! ## What is shown -/

/-- What a frame did, without the sender of a call unless it is selected. -/
def TraceData.hideCallFrom (selected : Bool) : TraceData → TraceData
  | call action result =>
      .call { action with sender := shown selected action.sender } result
  | other => other

/-- What is shown of a frame of a call tree: why it failed, whatever is selected, but the
sender of a call only if selected. -/
def Trace.restrictInTree (fields : TraceFields) (trace : Trace) : Trace :=
  { trace.restrict fields with
    error := trace.error
    revertReason := trace.revertReason
    data := (trace.data.restrict fields).hideCallFrom fields.callFrom }

/-- What is shown of a trace from a call tree, or else from a replay. -/
def Trace.restrictAsShown (fields : TraceFields) (fromCallTrees : Bool) (trace : Trace) : Trace :=
  if fromCallTrees then trace.restrictInTree fields else trace.restrict fields

/-- What is shown of a block whose traces are from call trees, or else from replays.  State
diffs are shown in full. -/
def Block.restrictAsShown (fields : FieldSelection) (fromCallTrees : Bool) (block : Block) :
    Block :=
  { block.restrict fields with
    traces := block.traces.map (Trace.restrictAsShown fields.trace fromCallTrees)
    stateDiffs := block.stateDiffs }

/-! ## Properties -/

section Properties

variable {α β : Type}

@[simp] theorem shown_none (selected : Bool) : shown selected (none : Option α) = none := by
  cases selected <;> rfl

@[simp] theorem shown_true (property : Option α) : shown true property = property := rfl

@[simp] theorem shownAlways_true (property : α) : shownAlways true property = some property := rfl

@[simp] theorem shown_some (selected : Bool) (property : α) :
    shown selected (some property) = shownAlways selected property := rfl

theorem map_shown (selected : Bool) (property : Option α) (function : α → β) :
    (shown selected property).map function = shown selected (property.map function) := by
  cases selected <;> rfl

theorem shown_eq_self_iff {selected : Bool} {property : Option α} :
    shown selected property = property ↔ (selected = false → property = none) := by
  cases selected with
  | false => simp [shown, eq_comm]
  | true => simp

/-- An outcome is left out if it says nothing, or nothing any more. -/
theorem unlessEmpty_bind_restrict [DecidableEq α] {empty : α} {restrict : α → α}
    (stays : restrict empty = empty) (value : α) :
    ((unlessEmpty empty value).bind fun value => unlessEmpty empty (restrict value)) =
      unlessEmpty empty (restrict value) := by
  by_cases isEmpty : value = empty
  · simp [unlessEmpty, isEmpty, stays]
  · simp [unlessEmpty, isEmpty]

end Properties

/-! ## Headers, transactions and logs -/

theorem Header.project_eq_restrict (block : Raw.Block) (fields : BlockFields) :
    project block fields = (project block .on).restrict fields := by
  simp [project, restrict, BlockFields.on, map_shown]

namespace Transaction

theorem ofFull_eq_restrict (index : UInt32) (source : Raw.Transaction)
    (fields : TransactionFields) :
    ofFull index source fields = (ofFull index source .on).restrict fields := by
  simp [ofFull, bare, restrict, TransactionFields.on, map_shown]

theorem ofHash_eq_restrict (index : UInt32) (hash : Hash) (fields : TransactionFields) :
    ofHash index hash fields = (ofHash index hash .on).restrict fields := by
  simp [ofHash, bare, restrict, TransactionFields.on]

/-- A receipt adds what is selected of it, whatever is hidden of the transaction. -/
theorem restrict_withReceipt (transaction : Transaction) (receipt : Raw.Receipt)
    (fields : TransactionFields) :
    (transaction.restrict fields).withReceipt receipt fields =
      (transaction.withReceipt receipt .on).restrict fields := by
  cases typed : receipt.type <;> simp [withReceipt, restrict, TransactionFields.on, typed]

theorem ofFullFrom_restrict (fields : TransactionFields) (sources : List Raw.Transaction)
    (position : Nat) :
    EndAlike (List.Forall₂ fun full hidden => hidden = full.restrict fields)
      (ofFullFrom position .on sources) (ofFullFrom position fields sources) := by
  induction sources generalizing position with
  | nil => exact .ok .nil
  | cons source rest ih =>
      unfold ofFullFrom
      split
      · exact .error _
      · apply (EndAlike.refl _).bind
        rintro index _ rfl
        apply (ih (position + 1)).bind
        intro fulls hiddens relate
        exact .ok (.cons (ofFull_eq_restrict index source fields) relate)

theorem ofBody_restrict (fields : TransactionFields) (body : Raw.Body) :
    EndAlike (List.Forall₂ fun full hidden => hidden = full.restrict fields)
      (ofBody .on body) (ofBody fields body) := by
  cases body with
  | full sources => exact ofFullFrom_restrict fields sources 0
  | hashes words =>
      apply EndAlike.ok
      rw [List.mapIdx_eq_zipIdx_map, List.mapIdx_eq_zipIdx_map, List.forall₂_map_left_iff,
        List.forall₂_map_right_iff, List.forall₂_same]
      exact fun entry _ => ofHash_eq_restrict _ _ fields

end Transaction

theorem Log.project_restrict (fields : LogFields) (source : Raw.Log) :
    EndAlike (fun full hidden => hidden = full.restrict fields) (project .on source)
      (project fields source) := by
  apply (EndAlike.refl _).bind
  rintro logIndex _ rfl
  apply (EndAlike.refl _).bind
  rintro transactionIndex _ rfl
  exact .ok (by simp [restrict, LogFields.on])

/-! ## Traces -/

theorem CreateResult.restrict_empty (fields : TraceFields) :
    CreateResult.empty.restrict fields = .empty := by
  simp [restrict, empty, shown]

theorem CallResult.restrict_empty (fields : TraceFields) :
    CallResult.empty.restrict fields = .empty := by
  simp [restrict, empty, shown]

namespace TraceData

theorem ofFrame_restrict (fields : TraceFields) (frame : Raw.TraceFrame) :
    EndAlike (fun full hidden => hidden = full.restrict fields) (ofFrame .on frame)
      (ofFrame fields frame) := by
  unfold ofFrame
  split
  · apply EndAlike.ok
    simp only [restrict, Option.bind_assoc,
      unlessEmpty_bind_restrict (CreateResult.restrict_empty fields)]
    simp [TraceFields.on, CreateResult.restrict]
  · apply EndAlike.ok
    simp only [restrict, Option.bind_assoc,
      unlessEmpty_bind_restrict (CallResult.restrict_empty fields)]
    simp [TraceFields.on, CallResult.restrict]
  · exact .ok (by simp [restrict, TraceFields.on])
  · exact .ok (by simp [restrict, TraceFields.on])
  · exact .error _

theorem ofCall_restrict (fields : TraceFields) (call : Raw.Call) :
    EndAlike (fun full hidden => hidden = (full.restrict fields).hideCallFrom fields.callFrom)
      (ofCall .on call) (ofCall fields call) := by
  unfold ofCall
  split
  case h_1 | h_2 =>
    apply EndAlike.ok
    simp only [restrict, hideCallFrom,
      unlessEmpty_bind_restrict (CreateResult.restrict_empty fields)]
    simp [TraceFields.on, CreateResult.restrict]
  case h_3 | h_4 | h_5 | h_6 | h_7 =>
    apply EndAlike.ok
    simp only [restrict, hideCallFrom,
      unlessEmpty_bind_restrict (CallResult.restrict_empty fields)]
    simp [TraceFields.on, CallResult.restrict]
  case h_8 => exact .ok (by simp [restrict, hideCallFrom, TraceFields.on])
  case h_9 => exact .error _

end TraceData

namespace Trace

theorem ofFrame_restrict (fields : TraceFields) (index : UInt32) (frame : Raw.TraceFrame) :
    EndAlike (fun full hidden => hidden = full.restrict fields) (ofFrame .on index frame)
      (ofFrame fields index frame) := by
  apply (TraceData.ofFrame_restrict fields frame).bind
  rintro data _ rfl
  exact .ok (by simp [restrict, bare, TraceFields.on])

theorem ofVisit_restrict (fields : TraceFields) (index : UInt32) (visit : Raw.CallTree.Visit) :
    EndAlike (fun full hidden => hidden = full.restrictInTree fields) (ofVisit .on index visit)
      (ofVisit fields index visit) := by
  apply (TraceData.ofCall_restrict fields visit.call).bind
  rintro data _ rfl
  exact .ok (by simp [restrictInTree, restrict, bare, TraceFields.on])

theorem ofCallTree_restrict (fields : TraceFields) (index : UInt32) (tree : Raw.CallTree) :
    EndAlike (fun fulls hiddens => hiddens = fulls.map (restrictInTree fields))
      (ofCallTree .on index tree) (ofCallTree fields index tree) := by
  unfold ofCallTree
  split
  · split
    · exact .ok rfl
    · exact .error _
  · exact .mapM_map _ (ofVisit_restrict fields index)

end Trace

namespace Projection

/-- What is shown of the frames of replays, and all of their state diffs. -/
def restrictFrames (fields : TraceFields) (frames : List Trace × List StateDiff) :
    List Trace × List StateDiff :=
  (frames.1.map (Trace.restrict fields), frames.2)

theorem ofReplay_restrict (fields : TraceFields) (body : Raw.Body) (replay : Raw.Replay) :
    EndAlike (fun fulls hiddens => hiddens = restrictFrames fields fulls)
      (ofReplay .on body replay) (ofReplay fields body replay) := by
  unfold ofReplay
  dsimp only
  cases lastPositionWhere? (· == replay.transactionHash.getD (.zero 32)) body.toHashes with
  | none => exact .error _
  | some position =>
      dsimp only
      apply (EndAlike.mapM_map _ (Trace.ofFrame_restrict fields _)).bind
      rintro traces _ rfl
      exact .ok rfl

theorem ofCallTrees_restrict (fields : TraceFields) (results : List (Option Raw.CallTreeResult)) :
    EndAlike (fun fulls hiddens => hiddens = fulls.map (Trace.restrictInTree fields))
      (ofCallTrees .on results) (ofCallTrees fields results) := by
  unfold ofCallTrees
  refine (@EndAlike.mapM_map _ _ _ _ (List.map (Trace.restrictInTree fields)) _ _ _ ?_).bind ?_
  · rintro ⟨result, position⟩
    cases result with
    | none => exact .ok rfl
    | some tree => exact Trace.ofCallTree_restrict fields _ _
  · rintro traces _ rfl
    exact .ok List.map_flatten.symm

theorem withCallTrees_restrict (fields : TraceFields) (fetched : FetchedBlock)
    (replayTraces : List Trace) :
    EndAlike
      (fun fulls hiddens =>
        hiddens = fulls.map (Trace.restrictAsShown fields fetched.data.callTrees.isSome))
      (withCallTrees .on fetched replayTraces)
      (withCallTrees fields fetched (replayTraces.map (Trace.restrict fields))) := by
  unfold withCallTrees
  cases fetched.data.callTrees with
  | none => exact .ok rfl
  | some trees =>
      dsimp only
      rw [List.isEmpty_map]
      split
      · exact .error _
      · exact ofCallTrees_restrict fields trees

theorem tracesAndStateDiffs_restrict (fields : TraceFields) (fetched : FetchedBlock) :
    EndAlike
      (fun full hidden =>
        hidden =
          (full.1.map (Trace.restrictAsShown fields fetched.data.callTrees.isSome), full.2))
      (tracesAndStateDiffs .on fetched) (tracesAndStateDiffs fields fetched) := by
  rw [tracesAndStateDiffs_eq, tracesAndStateDiffs_eq]
  apply (EndAlike.mapM_map _ (ofReplay_restrict fields _)).bind
  rintro replayed _ rfl
  have frames : (replayed.map (restrictFrames fields)).flatMap Prod.fst =
      (replayed.flatMap Prod.fst).map (Trace.restrict fields) := by
    rw [List.flatMap_map, List.map_flatMap]
    rfl
  have records : (replayed.map (restrictFrames fields)).flatMap Prod.snd =
      replayed.flatMap Prod.snd := by
    rw [List.flatMap_map]
    rfl
  rw [frames, records]
  apply (withCallTrees_restrict fields fetched _).bind
  rintro traces _ rfl
  apply (EndAlike.refl _).bind
  rintro stateDiffs _ rfl
  exact .ok rfl

end Projection

/-! ## Blocks -/

theorem StateDiff.eq_restrict_iff {fields : StateDiffFields} {diff : StateDiff} :
    diff = diff.restrict fields ↔
      (fields.prev = false → diff.prev = none) ∧ (fields.next = false → diff.next = none) := by
  rw [← shown_eq_self_iff, ← shown_eq_self_iff]
  cases diff
  simp [restrict, eq_comm]

theorem TraceData.hideCallFrom_eq_self_iff {selected : Bool} {data : TraceData} :
    data.hideCallFrom selected = data ↔ (selected = false → data.callFrom? = none) := by
  cases data with
  | call action result =>
      rw [callFrom?, ← shown_eq_self_iff]
      cases action
      simp [hideCallFrom]
  | _ => simp [hideCallFrom, callFrom?]

theorem TraceData.callFrom?_restrict (fields : TraceFields) (data : TraceData) :
    (data.restrict fields).callFrom? = data.callFrom? := by
  cases data <;> rfl

/-- When a frame of a call tree shows no more and no less than is selected. -/
theorem Trace.restrictInTree_eq_restrict_iff {fields : TraceFields} {trace : Trace} :
    trace.restrictInTree fields = trace.restrict fields ↔
      (fields.error = false → trace.error = none) ∧
        (fields.revertReason = false → trace.revertReason = none) ∧
        (fields.callFrom = false → trace.data.callFrom? = none) := by
  rw [← shown_eq_self_iff, ← shown_eq_self_iff, ← trace.data.callFrom?_restrict fields,
    ← TraceData.hideCallFrom_eq_self_iff]
  simp [restrictInTree, restrict, eq_comm]

/-- When a block shows no more and no less than is selected. -/
theorem Block.restrictAsShown_eq_restrict_iff {fields : FieldSelection} {fromCallTrees : Bool}
    {full : Block} :
    full.restrictAsShown fields fromCallTrees = full.restrict fields ↔
      (∀ diff ∈ full.stateDiffs,
          (fields.stateDiff.prev = false → diff.prev = none) ∧
            (fields.stateDiff.next = false → diff.next = none)) ∧
        (fromCallTrees = true → ∀ trace ∈ full.traces,
          (fields.trace.error = false → trace.error = none) ∧
            (fields.trace.revertReason = false → trace.revertReason = none) ∧
            (fields.trace.callFrom = false → trace.data.callFrom? = none)) := by
  have sameTraces :
      full.traces.map (Trace.restrictAsShown fields.trace fromCallTrees) =
          full.traces.map (Trace.restrict fields.trace) ↔
        (fromCallTrees = true → ∀ trace ∈ full.traces,
          trace.restrictInTree fields.trace = trace.restrict fields.trace) := by
    cases fromCallTrees with
    | false => simp [Trace.restrictAsShown]
    | true => simp [Trace.restrictAsShown, List.map_inj_left]
  have sameDiffs :
      full.stateDiffs = full.stateDiffs.map (StateDiff.restrict fields.stateDiff) ↔
        ∀ diff ∈ full.stateDiffs, diff = diff.restrict fields.stateDiff := by
    conv_lhs => rw [← List.map_id full.stateDiffs, List.map_map]
    rw [List.map_inj_left]
    rfl
  simp only [← Trace.restrictInTree_eq_restrict_iff, ← StateDiff.eq_restrict_iff]
  rw [← sameTraces, ← sameDiffs]
  simp [restrictAsShown, restrict, and_comm]

namespace FetchedBlock

/-- Whatever is selected, a block is projected to a part of what it is projected to with every
property selected. -/
theorem project_restrictAsShown (fetched : FetchedBlock) (demand : Demand) :
    EndAlike
      (fun full block =>
        block = full.restrictAsShown demand.fields fetched.data.callTrees.isSome)
      (fetched.project { demand with fields := .on }) (fetched.project demand) := by
  have readAlike : Projection.ReadAlike
      (fun full hidden => hidden = full.restrict demand.fields.transaction)
      (fun full hidden => hidden = full.restrict demand.fields.log)
      { demand with fields := .on } demand :=
    { receipts := rfl
      logList := rfl
      withReceipt := by
        rintro full _ receipt rfl
        exact full.restrict_withReceipt receipt _
      log := Log.project_restrict demand.fields.log }
  have body := Transaction.ofBody_restrict demand.fields.transaction fetched.block.transactions
  apply (Projection.transactionsAndLogs_related readAlike rfl rfl
    (Projection.bodyTransactions_related rfl body)).bind
  rintro ⟨transactions, logs⟩ ⟨hidden, hiddenLogs⟩ ⟨relate, relateLogs⟩
  apply (Projection.tracesAndStateDiffs_restrict demand.fields.trace fetched).bind
  rintro frames _ rfl
  apply EndAlike.ok
  apply Block.eq_of_parts
  · exact Header.project_eq_restrict _ _
  · exact eq_map_of_forall₂ relate
  · exact eq_map_of_forall₂ relateLogs
  · rfl
  · rfl

/-- A block shows what is selected of it and the keys that entries look at, no more and no
less, if and only if its state diffs have no value to hide, and its frames of call trees have
no error to hide and no sender that is not selected. -/
theorem project_eq_restrict_iff {fetched : FetchedBlock} {demand : Demand}
    {block : Block} (projected : fetched.project demand = .ok block) :
    ∃ full : Block,
      fetched.project { demand with fields := .on } = .ok full ∧
        block = full.restrictAsShown demand.fields fetched.data.callTrees.isSome ∧
        (block = full.restrict demand.fields ↔
          (∀ diff ∈ full.stateDiffs,
              (demand.fields.stateDiff.prev = false → diff.prev = none) ∧
                (demand.fields.stateDiff.next = false → diff.next = none)) ∧
            (fetched.data.callTrees.isSome = true → ∀ trace ∈ full.traces,
              (demand.fields.trace.error = false → trace.error = none) ∧
                (demand.fields.trace.revertReason = false → trace.revertReason = none) ∧
                (demand.fields.trace.callFrom = false → trace.data.callFrom? = none))) := by
  have alike := fetched.project_restrictAsShown demand
  rw [projected] at alike
  cases all : fetched.project { demand with fields := .on } with
  | error fault =>
      rw [all] at alike
      cases alike
  | ok full =>
      obtain rfl := alike.of_ok all rfl
      exact ⟨full, rfl, rfl, Block.restrictAsShown_eq_restrict_iff⟩

/-- The demand of no request, with both values of state diffs selected. -/
def valuesDemand : Demand := .of .empty { FieldSelection.off with stateDiff := .on }

/-- Both values of state diffs are selected, and the call did not fail. -/
theorem project_fedBlock_eq_restrict :
    ∃ block full : Block,
      fedBlock.project valuesDemand = .ok block ∧
        fedBlock.project { valuesDemand with fields := .on } = .ok full ∧
        block = full.restrict valuesDemand.fields := by
  refine ⟨_, _, rfl, rfl, ?_⟩
  obtain ⟨full, all, -, exactly⟩ := @project_eq_restrict_iff fedBlock valuesDemand _ rfl
  cases all
  exact exactly.mpr ⟨fun _ _ => ⟨nofun, nofun⟩, fun _ => by decide⟩

/-- The block with a call that failed. -/
def failedBlock : FetchedBlock where
  block := fedBlock.block
  data :=
    { fedBlock.data with
      callTrees :=
        some
          [ none,
            some
              { transactionHash := none
                result :=
                  .node
                    ⟨"CALL", none, none, none, none, none, .empty, none, some "out of gas", none⟩
                    [] } ] }

/-- Nothing is selected, yet the error of the call and the new value of the balance are
shown. -/
theorem project_failedBlock_ne_restrict :
    ∃ block full : Block,
      failedBlock.project (.of .empty .off) = .ok block ∧
        failedBlock.project { Demand.of .empty .off with fields := .on } = .ok full ∧
        block.traces.map Trace.error = [some "out of gas"] ∧
        block.stateDiffs.map StateDiff.next = [some .empty] ∧
        (full.restrict .off).traces.map Trace.error = [none] ∧
        (full.restrict .off).stateDiffs.map StateDiff.next = [none] ∧
        block ≠ full.restrict .off :=
  ⟨_, _, rfl, rfl, rfl, rfl, rfl, rfl, by decide⟩

end FetchedBlock

end ChainFeed
