import ChainFeed.Proofs.Outcomes
import ChainFeed.Proofs.ProjectionPairs
import ChainFeed.Proofs.SeenItems
import Mathlib

/-!
# Items do not depend on selected properties

Two selections of properties that agree on what a request asks for give blocks of
which the request sees the same.  So the request keeps the same items, whatever else
is shown of them.
-/

namespace ChainFeed

/-- Whether two selections agree on the properties that are asked for. Call trees show
the sender of a call only if it is selected; replays show it always. -/
structure FieldsAgree (tested : Tested) (fromCallTrees : Bool)
    (first second : FieldSelection) : Prop where
  logAddress : tested.logAddress = true → first.log.address = second.log.address
  logTopics : tested.logTopics = true → first.log.topics = second.log.topics
  recipient : tested.recipient = true →
    first.transaction.recipient = second.transaction.recipient
  sender : tested.sender = true → first.transaction.sender = second.transaction.sender
  type : tested.type = true → first.transaction.type = second.transaction.type
  callFrom : fromCallTrees = true → tested.callFrom = true →
    first.trace.callFrom = second.trace.callFrom

variable {tested : Tested} {fromCallTrees : Bool} {first second : FieldSelection}

theorem shown_shown_congr {α : Type} {asked left right : Bool}
    (agree : asked = true → left = right) (property : Option α) :
    shown asked (shown left property) = shown asked (shown right property) := by
  cases asked with
  | false => rfl
  | true => rw [agree rfl]

/-! ## Logs and transactions -/

theorem Log.project_alike (agree : FieldsAgree tested fromCallTrees first second)
    (source : Raw.Log) :
    EndAlike (fun left right => left.seen tested = right.seen tested)
      (project first.log source) (project second.log source) := by
  apply (EndAlike.refl _).bind
  rintro logIndex _ rfl
  apply (EndAlike.refl _).bind
  rintro transactionIndex _ rfl
  apply EndAlike.ok
  simp only [seen, shown_shown_congr agree.logAddress, shown_shown_congr agree.logTopics]

namespace Transaction

theorem ofFull_seen (agree : FieldsAgree tested fromCallTrees first second) (index : UInt32)
    (source : Raw.Transaction) :
    (ofFull index source first.transaction).seen tested =
      (ofFull index source second.transaction).seen tested := by
  simp only [ofFull, seen, bare, shown_shown_congr agree.recipient,
    shown_shown_congr agree.sender, shown_shown_congr agree.type]

theorem ofFullFrom_alike (agree : FieldsAgree tested fromCallTrees first second) (position : Nat)
    (sources : List Raw.Transaction) :
    EndAlike (fun left right => left.map (seen tested) = right.map (seen tested))
      (ofFullFrom position first.transaction sources)
      (ofFullFrom position second.transaction sources) := by
  induction sources generalizing position with
  | nil => exact .ok rfl
  | cons source rest ih =>
      unfold ofFullFrom
      split
      · exact .error _
      · apply (EndAlike.refl _).bind
        rintro index _ rfl
        apply (ih (position + 1)).bind
        intro left right same
        exact .ok (by rw [List.map_cons, List.map_cons, same, ofFull_seen agree])

theorem ofBody_alike (agree : FieldsAgree tested fromCallTrees first second)
    (body : Raw.Body) :
    EndAlike (fun left right => left.map (seen tested) = right.map (seen tested))
      (ofBody first.transaction body) (ofBody second.transaction body) := by
  cases body with
  | full transactions => exact ofFullFrom_alike agree 0 transactions
  | hashes words =>
      apply EndAlike.ok
      apply List.ext_getElem?
      intro position
      simp [Function.comp_def]
      rfl

/-- What a receipt changes of what is seen. -/
theorem seen_withReceipt (transaction : Transaction) (receipt : Raw.Receipt)
    (fields : TransactionFields) :
    (transaction.withReceipt receipt fields).seen tested =
      { transaction.seen tested with
        type :=
          if receipt.type.isSome then shown tested.type (shown fields.type receipt.type)
          else (transaction.seen tested).type } := by
  cases found : receipt.type.isSome <;> simp [withReceipt, seen, found]

theorem withReceipt_alike (agree : FieldsAgree tested fromCallTrees first second)
    {left right : Transaction} (same : left.seen tested = right.seen tested)
    (receipt : Raw.Receipt) :
    (left.withReceipt receipt first.transaction).seen tested =
      (right.withReceipt receipt second.transaction).seen tested := by
  rw [seen_withReceipt, seen_withReceipt, same, shown_shown_congr agree.type]

end Transaction

namespace Projection

variable {demand : Demand}

/-- Whether of two pairs of transactions and logs the same is seen. -/
def SeenAlike (tested : Tested) (left right : List Transaction × List Log) : Prop :=
  left.1.map (Transaction.seen tested) = right.1.map (Transaction.seen tested) ∧
    left.2.map (Log.seen tested) = right.2.map (Log.seen tested)

theorem transactionsAndLogs_alike (agree : FieldsAgree tested fromCallTrees first second)
    (fetched : FetchedBlock) :
    EndAlike (SeenAlike tested)
      (transactionsAndLogs { demand with fields := first } fetched)
      (transactionsAndLogs { demand with fields := second } fetched) := by
  have readAlike : ReadAlike (fun one other => one.seen tested = other.seen tested)
      (fun one other => one.seen tested = other.seen tested)
      { demand with fields := first } { demand with fields := second } :=
    { receipts := rfl
      logList := rfl
      withReceipt := fun _ _ receipt same => Transaction.withReceipt_alike agree same receipt
      log := Log.project_alike agree }
  have body := (Transaction.ofBody_alike agree fetched.block.transactions).mono
    fun _ _ _ => forall₂_image_iff.mpr
  apply (transactionsAndLogs_related readAlike rfl rfl (bodyTransactions_related rfl body)).mono
  intro items otherItems _ related
  exact ⟨forall₂_image_iff.mp related.1, forall₂_image_iff.mp related.2⟩

end Projection

/-! ## Traces -/

namespace TraceData

/-- What is seen of a frame of a replay is shown always. -/
theorem ofFrame_alike (tested : Tested) (left right : TraceFields) (frame : Raw.TraceFrame) :
    EndAlike (fun data other => data.seen tested = other.seen tested) (ofFrame left frame)
      (ofFrame right frame) := by
  unfold ofFrame
  split
  · exact .ok rfl
  · exact .ok rfl
  · exact .ok rfl
  · exact .ok rfl
  · exact .error _

/-- What is seen of a call of a call tree is shown always, but for the sender. -/
theorem ofCall_alike {left right : TraceFields}
    (agree : tested.callFrom = true → left.callFrom = right.callFrom) (call : Raw.Call) :
    EndAlike (fun data other => data.seen tested = other.seen tested) (ofCall left call)
      (ofCall right call) := by
  unfold ofCall
  split
  case h_1 | h_2 | h_8 => exact .ok rfl
  case h_3 | h_4 | h_5 | h_6 | h_7 =>
    exact .ok (by simp only [seen, shown_shown_congr agree])
  case h_9 => exact .error _

end TraceData

namespace Trace

theorem ofFrame_alike (tested : Tested) (left right : TraceFields) (index : UInt32)
    (frame : Raw.TraceFrame) :
    EndAlike (fun trace other => trace.seen tested = other.seen tested)
      (ofFrame left index frame) (ofFrame right index frame) := by
  apply (TraceData.ofFrame_alike tested left right frame).bind
  intro data other same
  exact .ok (by simp [seen, bare, same])

theorem ofCallTree_alike {left right : TraceFields}
    (agree : tested.callFrom = true → left.callFrom = right.callFrom) (index : UInt32)
    (tree : Raw.CallTree) :
    EndAlike (fun traces others => traces.map (seen tested) = others.map (seen tested))
      (ofCallTree left index tree) (ofCallTree right index tree) := by
  unfold ofCallTree
  split
  · split
    · exact .ok rfl
    · exact .error _
  · apply EndAlike.mapM
    intro visit
    apply (TraceData.ofCall_alike agree visit.call).bind
    intro data other same
    exact .ok (by simp [seen, bare, same])

end Trace

namespace Projection

/-- What is seen of traces and state diffs. -/
def seenFrames (tested : Tested) (frames : List Trace × List StateDiff) :
    List Trace × List StateDiff :=
  (frames.1.map (Trace.seen tested), frames.2)

theorem ofReplay_alike (tested : Tested) (left right : TraceFields) (body : Raw.Body)
    (replay : Raw.Replay) :
    EndAlike (fun frames others => seenFrames tested frames = seenFrames tested others)
      (ofReplay left body replay) (ofReplay right body replay) := by
  unfold ofReplay
  dsimp only
  cases lastPositionWhere? (· == replay.transactionHash.getD (.zero 32)) body.toHashes with
  | none => exact .error _
  | some position =>
      dsimp only
      apply (EndAlike.mapM _ (Trace.ofFrame_alike tested left right _)).bind
      intro traces others same
      exact .ok (by simp [seenFrames, same])

theorem ofCallTrees_alike {left right : TraceFields}
    (agree : tested.callFrom = true → left.callFrom = right.callFrom)
    (results : List (Option Raw.CallTreeResult)) :
    EndAlike (fun traces others =>
        traces.map (Trace.seen tested) = others.map (Trace.seen tested))
      (ofCallTrees left results) (ofCallTrees right results) := by
  have flat : ∀ traces others : List (List Trace),
      traces.map (List.map (Trace.seen tested)) = others.map (List.map (Trace.seen tested)) →
        EndAlike (fun traces others =>
            traces.map (Trace.seen tested) = others.map (Trace.seen tested))
          (pure traces.flatten : Except ProjectionFault (List Trace)) (pure others.flatten) := by
    intro traces others same
    exact .ok (by rw [List.map_flatten, List.map_flatten, same])
  unfold ofCallTrees
  refine .bind (EndAlike.mapM _ ?_) flat
  intro entry
  cases entry with
  | mk result position =>
      cases result with
      | none => exact .ok rfl
      | some tree => exact Trace.ofCallTree_alike agree _ _

theorem withCallTrees_alike {fetched : FetchedBlock}
    (agree : FieldsAgree tested fetched.data.callTrees.isSome first second)
    {left right : List Trace}
    (same : left.map (Trace.seen tested) = right.map (Trace.seen tested)) :
    EndAlike (fun traces others =>
        traces.map (Trace.seen tested) = others.map (Trace.seen tested))
      (withCallTrees first.trace fetched left) (withCallTrees second.trace fetched right) := by
  have callFrom := agree.callFrom
  have noneYet : left.isEmpty = right.isEmpty := by
    rw [← List.isEmpty_map (f := Trace.seen tested), same, List.isEmpty_map]
  unfold withCallTrees
  cases trees : fetched.data.callTrees with
  | none => exact .ok same
  | some trees =>
      simp only [trees, Option.isSome_some, true_implies] at callFrom
      dsimp only
      rw [noneYet]
      split
      · exact .error _
      · exact ofCallTrees_alike callFrom _

theorem tracesAndStateDiffs_alike {fetched : FetchedBlock}
    (agree : FieldsAgree tested fetched.data.callTrees.isSome first second) :
    EndAlike (fun frames others => seenFrames tested frames = seenFrames tested others)
      (tracesAndStateDiffs first.trace fetched) (tracesAndStateDiffs second.trace fetched) := by
  rw [tracesAndStateDiffs_eq, tracesAndStateDiffs_eq]
  apply (EndAlike.mapM _ (ofReplay_alike tested first.trace second.trace _)).bind
  intro replayed others same
  have sameTraces : (replayed.flatMap Prod.fst).map (Trace.seen tested) =
      (others.flatMap Prod.fst).map (Trace.seen tested) := by
    have folded := congrArg (List.flatMap Prod.fst) same
    simpa [List.flatMap_map, List.map_flatMap, seenFrames] using folded
  have sameDiffs : replayed.flatMap Prod.snd = others.flatMap Prod.snd := by
    have folded := congrArg (List.flatMap Prod.snd) same
    simpa [List.flatMap_map, seenFrames] using folded
  apply (withCallTrees_alike agree sameTraces).bind
  intro traces otherTraces alike
  rw [sameDiffs]
  apply (EndAlike.refl _).bind
  rintro stateDiffs _ rfl
  exact .ok (by simp [seenFrames, alike])

end Projection

/-! ## Blocks -/

theorem FetchedBlock.project_alike {demand : Demand} {fetched : FetchedBlock}
    (agree : FieldsAgree tested fetched.data.callTrees.isSome first second) :
    EndAlike (fun block other => block.seen tested = other.seen tested)
      (fetched.project { demand with fields := first })
      (fetched.project { demand with fields := second }) := by
  apply (Projection.transactionsAndLogs_alike agree fetched).bind
  intro items otherItems sameItems
  apply (Projection.tracesAndStateDiffs_alike agree).bind
  intro frames otherFrames sameFrames
  rw [Projection.seenFrames, Projection.seenFrames, Prod.mk.injEq] at sameFrames
  apply EndAlike.ok
  apply Block.eq_of_parts
  · rfl
  · exact sameItems.1
  · exact sameItems.2
  · exact sameFrames.1
  · exact sameFrames.2

namespace Block

/-- What tells the items of a block apart, kind by kind: transactions by index, logs by
index, traces by place, state diffs by what they are about. -/
def itemKeys (block : Block) :
    List UInt32 × List UInt32 × List (UInt32 × List UInt32) ×
      List (UInt32 × Address × DiffKey) :=
  (block.transactions.map Transaction.transactionIndex, block.logs.map Log.logIndex,
    block.traces.map fun trace => (trace.transactionIndex, trace.traceAddress),
    block.stateDiffs.map fun diff => (diff.transactionIndex, diff.address, diff.key))

/-- Items are told apart by what is seen of them. -/
theorem itemKeys_seen (tested : Tested) (block : Block) :
    (block.seen tested).itemKeys = block.itemKeys := by
  simp [itemKeys, seen, Function.comp_def, Transaction.seen, Transaction.bare, Log.seen,
    Log.bare, Trace.seen, Trace.bare]

end Block

/-- Two selections that agree on the properties that entries ask for, among those that
are shown only if selected, keep the same items. -/
theorem FetchedBlock.itemKeys_select_eq {fetched : FetchedBlock} {demand : Demand}
    (agree : FieldsAgree demand.request.tested fetched.data.callTrees.isSome first second)
    {block other : Block} (projected : fetched.project { demand with fields := first } = .ok block)
    (otherProjected : fetched.project { demand with fields := second } = .ok other) :
    (block.wire.select demand.request).itemKeys = (other.wire.select demand.request).itemKeys := by
  -- Wiring and selection commute with reducing a block to what the request sees of it.
  have same : block.seen demand.request.tested = other.seen demand.request.tested :=
    (project_alike agree).of_ok projected otherProjected
  have kept : (block.wire.select demand.request).seen demand.request.tested =
      (other.wire.select demand.request).seen demand.request.tested := by
    rw [← Block.select_seen, ← Block.wire_seen, same, Block.wire_seen, Block.select_seen]
  rw [← Block.itemKeys_seen demand.request.tested, kept, Block.itemKeys_seen]

namespace FetchedBlock

/-- The account that is asked for. -/
def account : Address := ⟨List.replicate 20 1, List.length_replicate⟩

/-- A log of which nothing more is said. -/
def plainLog (index : UInt64) : Raw.Log where
  blockNumber := 8
  blockHash := .zero 32
  logIndex := index
  transactionIndex := 0
  transactionHash := none
  address := none
  data := none
  topics := none

/-- A transaction of which nothing more is said. -/
def plainTransaction (index : UInt64) : Raw.Transaction where
  blockNumber := 8
  blockHash := .zero 32
  transactionIndex := index
  hash := .zero 32
  input := .empty
  sender := none
  recipient := none
  gas := none
  gasPrice := none
  maxFeePerGas := none
  maxPriorityFeePerGas := none
  nonce := none
  value := none
  v := none
  r := none
  s := none
  yParity := none
  chainId := none
  type := none
  authorizationList := none

/-- A call by the account. -/
def accountCall : Raw.CallTree :=
  .node
    { type := "CALL", sender := some account, recipient := none, value := none, gas := none,
      gasUsed := none, input := .empty, output := none, error := none, revertReason := none }
    []

/-- A block of which each item has one of the properties that are shown only if
selected. -/
def telltaleBlock : FetchedBlock where
  block :=
    { number := 8, hash := .zero 32, parentHash := .zero 32, logsBloom := .zero 256,
      transactions :=
        .full
          [ { plainTransaction 0 with sender := some account },
            { plainTransaction 1 with recipient := some account },
            { plainTransaction 2 with type := some 2 } ],
      timestamp := none, nonce := none, sha3Uncles := none, transactionsRoot := none,
      stateRoot := none, receiptsRoot := none, mixHash := none, miner := none,
      difficulty := none, totalDifficulty := none, extraData := none, size := none,
      gasLimit := none, gasUsed := none, baseFeePerGas := none, l1BlockNumber := none }
  data :=
    { Enrichment.empty with
      logs :=
        some
          [ { plainLog 0 with address := some account },
            { plainLog 1 with topics := some [.zero 32] } ]
      callTrees := some [some { transactionHash := none, result := accountCall }] }

/-- A request that asks for each item of the block by the property that it has. -/
def telltaleRequest : Request where
  logs :=
    [ ⟨some [account], none, none, none, none, ⟨false, false, false, false⟩⟩,
      ⟨none, some [.zero 32], none, none, none, ⟨false, false, false, false⟩⟩ ]
  transactions :=
    [ ⟨none, some [account], none, none, ⟨false, false, false⟩⟩,
      ⟨some [account], none, none, none, ⟨false, false, false⟩⟩,
      ⟨none, none, none, some [2], ⟨false, false, false⟩⟩ ]
  traces :=
    [⟨none, none, none, some [account], none, none, none, ⟨false, false, false, false⟩⟩]
  stateDiffs := []

/-- A selection of nothing but the properties that the request asks for. -/
def telltaleFields : FieldSelection :=
  { FieldSelection.off with
    transaction :=
      { TransactionFields.off with sender := true, recipient := true, type := true }
    log := { LogFields.off with address := true, topics := true }
    trace := { TraceFields.off with callFrom := true } }

/-- The demand of the request. -/
def telltaleDemand : Demand := .of telltaleRequest .standard

/-- The same selection together with what is shown of headers. -/
def telltaleFieldsAndHeader : FieldSelection :=
  { telltaleFields with block := .standard }

/-- As long as the properties are shown, all items are kept. -/
theorem itemKeys_select_telltaleBlock :
    ∃ block other : Block,
      telltaleBlock.project { telltaleDemand with fields := telltaleFields } = .ok block ∧
        telltaleBlock.project { telltaleDemand with fields := telltaleFieldsAndHeader } =
          .ok other ∧
        (block.wire.select telltaleRequest).itemKeys = ([0, 1, 2], [0, 1], [(0, [])], []) ∧
        (block.wire.select telltaleRequest).itemKeys =
          (other.wire.select telltaleRequest).itemKeys := by
  have agree : FieldsAgree telltaleDemand.request.tested telltaleBlock.data.callTrees.isSome
      telltaleFields telltaleFieldsAndHeader := by
    constructor <;> decide
  refine ⟨_, _, rfl, rfl, ?_, ?_⟩
  · cbv
  · exact itemKeys_select_eq agree rfl rfl

/-- When the properties are hidden, all items are dropped. -/
theorem itemKeys_select_hidden :
    ∃ block other : Block,
      telltaleBlock.project { telltaleDemand with fields := telltaleFields } = .ok block ∧
        telltaleBlock.project { telltaleDemand with fields := .off } = .ok other ∧
        (block.wire.select telltaleRequest).itemKeys = ([0, 1, 2], [0, 1], [(0, [])], []) ∧
        (other.wire.select telltaleRequest).itemKeys = ([], [], [], []) := by
  refine ⟨_, _, rfl, rfl, ?_, ?_⟩
  · cbv
  · cbv

end FetchedBlock

end ChainFeed
