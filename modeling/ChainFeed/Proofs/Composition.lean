import ChainFeed.Proofs.Outcomes
import ChainFeed.Proofs.ProjectionSteps
import Mathlib.Data.List.Forall2
import Mathlib.Data.List.Permutation

/-!
# What a projected block is composed of

Five optional sources feed the items of a block.  Each list of items shows all of one
source, item by item and in order, and nothing of another.
-/

namespace ChainFeed

/-! ## Transactions -/

namespace Transaction

/-- The transactions of a body in order, each at its own position. -/
def ofEntries (fields : TransactionFields) : Raw.Body → List Transaction
  | .hashes words => words.mapIdx fun position hash => ofHash (UInt32.ofNat position) hash fields
  | .full sources =>
      sources.mapIdx fun position source => ofFull (UInt32.ofNat position) source fields

/-- The transaction at a position with what the receipt at the same position adds, if
there is one. -/
def withReceiptAt (fields : TransactionFields) (receipts : List Raw.Receipt) (position : Nat)
    (transaction : Transaction) : Transaction :=
  match receipts[position]? with
  | none => transaction
  | some receipt => transaction.withReceipt receipt fields

@[simp] theorem withReceiptAt_nil (fields : TransactionFields) (position : Nat) :
    withReceiptAt fields [] position = id :=
  rfl

theorem transactionIndex_withReceiptAt (fields : TransactionFields) (receipts : List Raw.Receipt)
    (position : Nat) (transaction : Transaction) :
    (withReceiptAt fields receipts position transaction).transactionIndex =
      transaction.transactionIndex := by
  unfold withReceiptAt
  split <;> rfl

theorem length_ofEntries (fields : TransactionFields) (body : Raw.Body) :
    (ofEntries fields body).length = body.length := by
  cases body <;> simp [ofEntries, Raw.Body.length, Raw.Body.toHashes]

theorem transactionIndex_ofEntries {fields : TransactionFields} {body : Raw.Body} {position : Nat}
    {transaction : Transaction} (found : (ofEntries fields body)[position]? = some transaction) :
    transaction.transactionIndex = UInt32.ofNat position := by
  cases body <;>
  · simp only [ofEntries, List.getElem?_mapIdx, Option.map_eq_some_iff] at found
    obtain ⟨source, -, rfl⟩ := found
    rfl

/-- The transactions of a body in full carry their positions as indexes. -/
theorem ofFullFrom_eq_ok {fields : TransactionFields} {sources : List Raw.Transaction}
    {position : Nat} {transactions : List Transaction}
    (run : ofFullFrom position fields sources = .ok transactions) :
    transactions = sources.mapIdx
        (fun offset source => ofFull (UInt32.ofNat (position + offset)) source fields) ∧
      ∀ offset source, sources[offset]? = some source →
        source.transactionIndex.toNat = position + offset ∧ position + offset < UInt32.size := by
  induction sources generalizing position transactions with
  | nil =>
      cases run
      exact ⟨rfl, fun offset source found => by simp at found⟩
  | cons source rest ih =>
      unfold ofFullFrom at run
      split at run
      · cases run
      · rename_i carried
        rw [ne_eq, not_not] at carried
        obtain ⟨index, narrowed, run⟩ := exists_of_bind_eq_ok run
        obtain ⟨later, laterRun, run⟩ := exists_of_bind_eq_ok run
        cases run
        unfold narrow at narrowed
        split at narrowed
        · rename_i small
          cases narrowed
          obtain ⟨rfl, carriedLater⟩ := ih laterRun
          have isIndex : source.transactionIndex.toUInt32 = UInt32.ofNat position := by
            rw [← carried]
            rfl
          constructor
          · rw [List.mapIdx_cons, isIndex]
            simp [Nat.add_comm, Nat.add_left_comm]
          · intro offset other found
            cases offset with
            | zero =>
                cases found
                exact ⟨carried, carried ▸ small⟩
            | succ offset =>
                have := carriedLater offset other found
                omega
        · cases narrowed

end Transaction

namespace Projection

/-! ## Receipts and logs -/

/-- The receipts that a demand takes from a fetched block. -/
def usedReceipts (demand : Demand) (fetched : FetchedBlock) : List Raw.Receipt :=
  if demand.receipts then fetched.data.receipts.getD [] else []

/-- The logs of receipts in order. -/
def logsOfReceipts (receipts : List Raw.Receipt) : List Raw.Log :=
  receipts.flatMap fun receipt => receipt.logs.getD []

/-- Whether logs show fetched logs, one each and in order. -/
def ShowLogs (fields : LogFields) (sources : List Raw.Log) (logs : List Log) : Prop :=
  List.Forall₂ (fun source log => Log.project fields source = .ok log) sources logs

/-- What receipts add to transactions from a position on. -/
structure ReceiptsAdded (demand : Demand) (body : Raw.Body) (position : Nat)
    (transactions : List Transaction) (receipts : List Raw.Receipt)
    (items : List Transaction × List Log) : Prop where
  named : ∀ offset receipt, receipts[offset]? = some receipt →
    body.hash? (position + offset) = some receipt.transactionHash
  transactions : items.1 =
    transactions.mapIdx (Transaction.withReceiptAt demand.fields.transaction receipts)
  logs : demand.logList = true →
    (∀ receipt ∈ receipts, receipt.logs.isSome) ∧
      ShowLogs demand.fields.log (logsOfReceipts receipts) items.2
  noLogs : demand.logList = false → items.2 = []

/-- The logs that a demand takes from the receipt at a position. -/
def logsOfReceipt (demand : Demand) (position : Nat) (receipt : Raw.Receipt) :
    Except ProjectionFault (List Log) :=
  if demand.logList then
    match receipt.logs with
    | none => throw (.missingReceiptLogs position)
    | some logs => logs.mapM (Log.project demand.fields.log)
  else
    pure []

/-- What a receipt adds to the transaction at its position, and later ones after it. -/
theorem withReceiptsFrom_cons {demand : Demand} {body : Raw.Body} {position : Nat}
    {transaction : Transaction} {later : List Transaction} {receipt : Raw.Receipt}
    {rest : List Raw.Receipt} (named : body.hash? position = some receipt.transactionHash) :
    withReceiptsFrom demand body position (transaction :: later) (receipt :: rest) =
      (do
        let logs ← logsOfReceipt demand position receipt
        let items ← withReceiptsFrom demand body (position + 1) later rest
        pure
          (transaction.withReceipt receipt demand.fields.transaction :: items.1,
            logs ++ items.2)) := by
  rw [withReceiptsFrom.eq_def]
  unfold logsOfReceipt
  simp only [named, ne_eq, not_true_eq_false, if_false]
  cases demand.logList <;> cases receipt.logs <;> rfl

/-- A receipt is added only to a transaction that it names. -/
theorem exists_of_withReceiptsFrom_cons {demand : Demand} {body : Raw.Body} {position : Nat}
    {transactions : List Transaction} {receipt : Raw.Receipt} {rest : List Raw.Receipt}
    {items : List Transaction × List Log}
    (run : withReceiptsFrom demand body position transactions (receipt :: rest) = .ok items) :
    body.hash? position = some receipt.transactionHash ∧
      ∃ transaction later, transactions = transaction :: later := by
  unfold withReceiptsFrom at run
  cases named : body.hash? position with
  | none =>
      rw [named] at run
      cases run
  | some hash =>
      rw [named] at run
      dsimp only at run
      split at run
      · cases run
      · rename_i same
        rw [ne_eq, not_not] at same
        cases transactions with
        | nil => cases run
        | cons transaction later => exact ⟨by rw [same], transaction, later, rfl⟩

theorem logsOfReceipt_eq_ok {demand : Demand} {position : Nat} {receipt : Raw.Receipt}
    {logs : List Log} (run : logsOfReceipt demand position receipt = .ok logs) :
    (demand.logList = true →
      receipt.logs.isSome ∧ ShowLogs demand.fields.log (receipt.logs.getD []) logs) ∧
      (demand.logList = false → logs = []) := by
  unfold logsOfReceipt at run
  cases listed : demand.logList with
  | false =>
      rw [listed] at run
      cases run
      simp
  | true =>
      rw [listed] at run
      cases carried : receipt.logs with
      | none =>
          rw [carried] at run
          cases run
      | some sources =>
          rw [carried] at run
          simpa [ShowLogs] using forall₂_of_mapM_eq_ok run

/-- Receipts add to the transactions one after another, and their logs add up. -/
theorem receiptsAdded {demand : Demand} {body : Raw.Body} {receipts : List Raw.Receipt}
    {position : Nat} {transactions : List Transaction} {items : List Transaction × List Log}
    (run : withReceiptsFrom demand body position transactions receipts = .ok items) :
    ReceiptsAdded demand body position transactions receipts items := by
  induction receipts generalizing position transactions items with
  | nil =>
      rw [withReceiptsFrom, Except.ok.injEq] at run
      subst run
      constructor
      · simp
      · exact (List.mapIdx_eq_iff.mpr fun position => by simp).symm
      · simp [logsOfReceipts, ShowLogs]
      · simp
  | cons receipt rest ih =>
      obtain ⟨named, transaction, later, rfl⟩ := exists_of_withReceiptsFrom_cons run
      rw [withReceiptsFrom_cons named] at run
      obtain ⟨logs, logsRun, run⟩ := exists_of_bind_eq_ok run
      obtain ⟨laterItems, laterRun, run⟩ := exists_of_bind_eq_ok run
      cases run
      have fromLogs := logsOfReceipt_eq_ok logsRun
      have fromLater := ih laterRun
      constructor
      · intro offset other found
        cases offset with
        | zero =>
            cases found
            exact named
        | succ offset =>
            rw [← Nat.add_assoc, Nat.add_right_comm]
            exact fromLater.named offset other found
      · rw [List.mapIdx_cons, fromLater.transactions]
        rfl
      · intro listed
        obtain ⟨carried, shown⟩ := fromLogs.1 listed
        obtain ⟨carriedLater, shownLater⟩ := fromLater.logs listed
        exact ⟨List.forall_mem_cons.mpr ⟨carried, carriedLater⟩, List.rel_append shown shownLater⟩
      · intro unlisted
        rw [fromLogs.2 unlisted, fromLater.noLogs unlisted]
        rfl

/-! ## Replays, call trees and snapshots -/

/-- Whether an index is that of a transaction with the hash that a replay names. -/
def IsIndexFor (body : Raw.Body) (replay : Raw.Replay) (index : UInt32) : Prop :=
  ∃ position, body.hash? position = some (replay.transactionHash.getD (.zero 32)) ∧
    index = UInt32.ofNat position

/-- The frames of replays in order, each with the index of its replay's transaction. -/
def framesOf (indexed : List (UInt32 × Raw.Replay)) : List (UInt32 × Raw.TraceFrame) :=
  indexed.flatMap fun entry => (entry.2.trace.getD []).map (Prod.mk entry.1)

/-- The records of replays in order, each with the index of its replay's transaction. -/
def recordsOf (indexed : List (UInt32 × Raw.Replay)) : List StateDiff :=
  indexed.flatMap fun entry => (entry.2.stateDiff.map (StateDiff.ofReplay entry.1)).getD []

/-- The calls of a call tree in depth-first order; a root that stops at once is none. -/
def shownVisits (tree : Raw.CallTree) : List Raw.CallTree.Visit :=
  if tree.call.type = "STOP" then [] else tree.visits []

/-- The calls of several call trees in order, each with the position of its tree. -/
def visitsOf (trees : List (Option Raw.CallTreeResult)) : List (UInt32 × Raw.CallTree.Visit) :=
  trees.zipIdx.flatMap fun entry =>
    (entry.1.toList.flatMap fun tree => shownVisits tree.result).map
      (Prod.mk (UInt32.ofNat entry.2))

/-- Whether traces show frames of replays, one each and in order. -/
def ShowFrames (fields : TraceFields) (frames : List (UInt32 × Raw.TraceFrame))
    (traces : List Trace) : Prop :=
  List.Forall₂ (fun entry trace => Trace.ofFrame fields entry.1 entry.2 = .ok trace) frames traces

/-- Whether traces show calls of call trees, one each and in order. -/
def ShowVisits (fields : TraceFields) (visits : List (UInt32 × Raw.CallTree.Visit))
    (traces : List Trace) : Prop :=
  List.Forall₂ (fun entry trace => Trace.ofVisit fields entry.1 entry.2 = .ok trace) visits traces

theorem ShowFrames.indexes {fields : TraceFields} {frames : List (UInt32 × Raw.TraceFrame)}
    {traces : List Trace} (shown : ShowFrames fields frames traces) :
    traces.map Trace.transactionIndex = frames.map Prod.fst := by
  apply map_eq_of_forall₂ shown
  intro entry trace run
  obtain ⟨data, -, run⟩ := exists_of_bind_eq_ok run
  cases run
  rfl

theorem ShowVisits.indexes {fields : TraceFields} {visits : List (UInt32 × Raw.CallTree.Visit)}
    {traces : List Trace} (shown : ShowVisits fields visits traces) :
    traces.map Trace.transactionIndex = visits.map Prod.fst := by
  apply map_eq_of_forall₂ shown
  intro entry trace run
  obtain ⟨data, -, run⟩ := exists_of_bind_eq_ok run
  cases run
  rfl

theorem ofReplay_eq_ok {fields : TraceFields} {body : Raw.Body} {replay : Raw.Replay}
    {frames : List Trace × List StateDiff} (run : ofReplay fields body replay = .ok frames) :
    ∃ index, IsIndexFor body replay index ∧
      List.Forall₂ (fun frame trace => Trace.ofFrame fields index frame = .ok trace)
        (replay.trace.getD []) frames.1 ∧
      frames.2 = (replay.stateDiff.map (StateDiff.ofReplay index)).getD [] := by
  unfold ofReplay at run
  dsimp only at run
  cases found :
      lastPositionWhere? (· == replay.transactionHash.getD (.zero 32)) body.toHashes with
  | none =>
      rw [found] at run
      cases run
  | some position =>
      rw [found] at run
      obtain ⟨traces, tracesRun, run⟩ := exists_of_bind_eq_ok run
      cases run
      refine ⟨UInt32.ofNat position, ⟨position, ?_, rfl⟩, forall₂_of_mapM_eq_ok tracesRun, rfl⟩
      obtain ⟨hash, atPosition, same⟩ :=
        mem_positionsWhere.mp (List.mem_of_getLast? found)
      rw [beq_iff_eq] at same
      rw [← same]
      exact atPosition

/-- Several replays, each with the index of its transaction. -/
theorem exists_indexed {fields : TraceFields} {body : Raw.Body} {replays : List Raw.Replay}
    {replayed : List (List Trace × List StateDiff)}
    (each : List.Forall₂ (fun replay frames => ofReplay fields body replay = .ok frames)
      replays replayed) :
    ∃ indexed : List (UInt32 × Raw.Replay),
      indexed.map Prod.snd = replays ∧
        (∀ entry ∈ indexed, IsIndexFor body entry.2 entry.1) ∧
        ShowFrames fields (framesOf indexed) (replayed.flatMap Prod.fst) ∧
        replayed.flatMap Prod.snd = recordsOf indexed := by
  induction each with
  | nil => exact ⟨[], rfl, by simp, .nil, rfl⟩
  | @cons replay frames replays replayed run _ ih =>
      obtain ⟨indexed, same, named, shown, recorded⟩ := ih
      obtain ⟨index, isIndex, first, records⟩ := ofReplay_eq_ok run
      refine ⟨(index, replay) :: indexed, by rw [List.map_cons, same],
        List.forall_mem_cons.mpr ⟨isIndex, named⟩, ?_, ?_⟩
      · rw [framesOf, List.flatMap_cons, List.flatMap_cons]
        exact List.rel_append (List.forall₂_map_left_iff.mpr first) shown
      · rw [recordsOf, List.flatMap_cons, List.flatMap_cons, records, recorded]
        rfl

theorem ofCallTree_eq_ok {fields : TraceFields} {index : UInt32} {tree : Raw.CallTree}
    {traces : List Trace} (run : Trace.ofCallTree fields index tree = .ok traces) :
    List.Forall₂ (fun visit trace => Trace.ofVisit fields index visit = .ok trace)
      (shownVisits tree) traces := by
  unfold Trace.ofCallTree at run
  unfold shownVisits
  split at run
  · rename_i stops
    rw [if_pos stops]
    split at run
    · cases run
      exact .nil
    · cases run
  · rename_i runs
    rw [if_neg runs]
    exact forall₂_of_mapM_eq_ok run

theorem ofCallTrees_eq_ok {fields : TraceFields} {trees : List (Option Raw.CallTreeResult)}
    {traces : List Trace} (run : ofCallTrees fields trees = .ok traces) :
    ShowVisits fields (visitsOf trees) traces := by
  obtain ⟨lists, each, run⟩ := exists_of_bind_eq_ok run
  cases run
  apply forall₂_flatMap_flatten
  refine (forall₂_of_mapM_eq_ok each).imp ?_
  rintro ⟨tree, position⟩ traces run
  cases tree with
  | none =>
      cases run
      exact .nil
  | some tree =>
      rw [List.forall₂_map_left_iff]
      simpa using ofCallTree_eq_ok run

/-! ## Sources of a block's items -/

/-- What transactions are composed of: the entries of the body, each at its own position
and with what the receipt at that position adds. -/
structure TransactionsComposed (demand : Demand) (fetched : FetchedBlock)
    (transactions : List Transaction) : Prop where
  undemanded : demand.transactionList = false → transactions = []
  composed : demand.transactionList = true →
    transactions =
      (Transaction.ofEntries demand.fields.transaction fetched.block.transactions).mapIdx
        (Transaction.withReceiptAt demand.fields.transaction (usedReceipts demand fetched))
  length : demand.transactionList = true →
    transactions.length = fetched.block.transactions.length
  /-- The index of a transaction is its position, in 32 bits. -/
  index : ∀ position transaction, transactions[position]? = some transaction →
    transaction.transactionIndex = UInt32.ofNat position
  /-- Entries in full carry their positions themselves. -/
  carried : demand.transactionList = true → ∀ sources,
    fetched.block.transactions = .full sources →
      ∀ position source, sources[position]? = some source →
        source.transactionIndex.toNat = position ∧ position < UInt32.size
  receipts : demand.receipts = true → fetched.data.receipts.isSome
  named : ∀ position receipt, (usedReceipts demand fetched)[position]? = some receipt →
    fetched.block.transactions.hash? position = some receipt.transactionHash

/-- What logs are composed of: those of all receipts, or the listed ones. -/
inductive LogsComposed (demand : Demand) (fetched : FetchedBlock) (logs : List Log) : Prop
  | ofReceipts (receipts : demand.receipts = true) (demanded : demand.logList = true)
      (unlisted : fetched.data.logs = none)
      (carried : ∀ receipt ∈ usedReceipts demand fetched, receipt.logs.isSome)
      (shown : ShowLogs demand.fields.log (logsOfReceipts (usedReceipts demand fetched)) logs)
  | listed (unused : demand.logList = true → usedReceipts demand fetched = [])
      (shown : ShowLogs demand.fields.log (fetched.data.logs.getD []) logs)

/-- What traces are composed of: the frames of replays, or the calls of call trees. -/
inductive TracesComposed (fields : TraceFields) (indexed : List (UInt32 × Raw.Replay)) :
    Option (List (Option Raw.CallTreeResult)) → List Trace → Prop
  | ofReplays {traces : List Trace}
      (shown : ShowFrames fields (framesOf indexed) traces)
      (indexes : traces.map Trace.transactionIndex = (framesOf indexed).map Prod.fst) :
      TracesComposed fields indexed none traces
  | ofCallTrees {trees : List (Option Raw.CallTreeResult)} {traces : List Trace}
      (noFrames : framesOf indexed = [])
      (shown : ShowVisits fields (visitsOf trees) traces)
      (indexes : traces.map Trace.transactionIndex = (visitsOf trees).map Prod.fst) :
      TracesComposed fields indexed (some trees) traces

/-- What state diffs are composed of: the records of replays, or those of snapshots. -/
inductive StateDiffsComposed (indexed : List (UInt32 × Raw.Replay)) :
    Option (List (Option Raw.PrestateResult)) → List StateDiff → Prop
  | ofReplays : StateDiffsComposed indexed none (recordsOf indexed)
  | ofPrestates {prestates : List (Option Raw.PrestateResult)}
      (noRecords : recordsOf indexed = []) :
      StateDiffsComposed indexed (some prestates) (ofPrestates prestates)

/-- The transactions of a body are those of its entries, if any are demanded. -/
theorem bodyTransactions_eq_ok {demand : Demand} {fetched : FetchedBlock}
    {transactions : List Transaction} (run : bodyTransactions demand fetched = .ok transactions) :
    (demand.transactionList = false → transactions = []) ∧
      (demand.transactionList = true →
        transactions =
            Transaction.ofEntries demand.fields.transaction fetched.block.transactions ∧
          ∀ sources, fetched.block.transactions = .full sources →
            ∀ position source, sources[position]? = some source →
              source.transactionIndex.toNat = position ∧ position < UInt32.size) := by
  unfold bodyTransactions at run
  cases demanded : demand.transactionList with
  | false =>
      rw [demanded] at run
      cases run
      simp
  | true =>
      rw [demanded] at run
      refine ⟨by simp, fun _ => ?_⟩
      cases entries : fetched.block.transactions with
      | hashes words =>
          rw [entries] at run
          cases run
          exact ⟨rfl, fun sources full => by cases full⟩
      | full sources =>
          rw [entries] at run
          obtain ⟨rfl, carried⟩ := Transaction.ofFullFrom_eq_ok run
          simp only [Nat.zero_add] at carried ⊢
          refine ⟨rfl, fun others full => ?_⟩
          cases full
          exact carried

theorem demandedReceipts_eq_ok {demand : Demand} {fetched : FetchedBlock}
    {receipts : List Raw.Receipt} (run : demandedReceipts demand fetched = .ok receipts) :
    receipts = usedReceipts demand fetched ∧
      (demand.receipts = true → fetched.data.receipts.isSome) := by
  unfold demandedReceipts at run
  unfold usedReceipts
  cases demanded : demand.receipts <;> cases there : fetched.data.receipts <;>
    rw [demanded, there] at run <;> cases run <;> simp

theorem transactionsComposed {demand : Demand} {fetched : FetchedBlock}
    {transactions : List Transaction} {receipts : List Raw.Receipt}
    {items : List Transaction × List Log}
    (body : bodyTransactions demand fetched = .ok transactions)
    (demanded : demandedReceipts demand fetched = .ok receipts)
    (run : withReceiptsFrom demand fetched.block.transactions 0 transactions receipts =
      .ok items) : TransactionsComposed demand fetched items.1 := by
  obtain ⟨nothing, entries⟩ := bodyTransactions_eq_ok body
  obtain ⟨rfl, there⟩ := demandedReceipts_eq_ok demanded
  have added := receiptsAdded run
  have composed := fun listed => added.transactions.trans (by rw [(entries listed).1])
  constructor
  · intro unlisted
    rw [added.transactions, nothing unlisted]
    rfl
  · exact composed
  · intro listed
    rw [composed listed, List.length_mapIdx, Transaction.length_ofEntries]
  · intro position transaction found
    cases listed : demand.transactionList with
    | false =>
        rw [added.transactions, nothing listed] at found
        simp at found
    | true =>
        rw [composed listed, List.getElem?_mapIdx, Option.map_eq_some_iff] at found
        obtain ⟨entry, isEntry, rfl⟩ := found
        rw [Transaction.transactionIndex_withReceiptAt]
        exact Transaction.transactionIndex_ofEntries isEntry
  · exact fun listed => (entries listed).2
  · exact there
  · simpa using added.named

theorem logsComposed {demand : Demand} {fetched : FetchedBlock}
    {transactions : List Transaction} {items result : List Transaction × List Log}
    (run : withReceiptsFrom demand fetched.block.transactions 0 transactions
      (usedReceipts demand fetched) = .ok items)
    (listing : withListedLogs demand fetched (usedReceipts demand fetched) items = .ok result) :
    result.1 = items.1 ∧ LogsComposed demand fetched result.2 := by
  have added := receiptsAdded run
  unfold withListedLogs at listing
  cases listed : fetched.data.logs with
  | some logs =>
      rw [listed] at listing
      dsimp only at listing
      split at listing
      · cases listing
      · rename_i apart
        obtain ⟨shown, shownRun, listing⟩ := exists_of_bind_eq_ok listing
        cases listing
        refine ⟨rfl, .listed ?_ ?_⟩
        · intro demanded
          simpa [demanded] using apart
        · rw [listed]
          exact forall₂_of_mapM_eq_ok shownRun
  | none =>
      rw [listed] at listing
      cases listing
      refine ⟨rfl, ?_⟩
      cases demanded : demand.logList with
      | false =>
          refine .listed (fun listed => by rw [demanded] at listed; cases listed) ?_
          rw [added.noLogs demanded, listed]
          exact .nil
      | true =>
          obtain ⟨carried, shown⟩ := added.logs demanded
          cases used : demand.receipts with
          | true => exact .ofReceipts used demanded listed carried shown
          | false =>
              have unused : usedReceipts demand fetched = [] := by
                simp [usedReceipts, used]
              refine .listed (fun _ => unused) ?_
              rw [unused] at shown
              rw [listed]
              exact shown

theorem tracesComposed {fields : TraceFields} {fetched : FetchedBlock}
    {indexed : List (UInt32 × Raw.Replay)} {replayTraces traces : List Trace}
    (shown : ShowFrames fields (framesOf indexed) replayTraces)
    (run : withCallTrees fields fetched replayTraces = .ok traces) :
    TracesComposed fields indexed fetched.data.callTrees traces := by
  unfold withCallTrees at run
  cases debugged : fetched.data.callTrees with
  | none =>
      rw [debugged] at run
      cases run
      exact .ofReplays shown shown.indexes
  | some trees =>
      rw [debugged] at run
      dsimp only at run
      split at run
      · cases run
      · rename_i apart
        have noTraces : replayTraces = [] := by simpa using apart
        rw [noTraces, ShowFrames, List.forall₂_nil_right_iff] at shown
        have visits := ofCallTrees_eq_ok run
        exact .ofCallTrees shown visits visits.indexes

theorem stateDiffsComposed {fetched : FetchedBlock} {indexed : List (UInt32 × Raw.Replay)}
    {stateDiffs : List StateDiff}
    (run : withPrestates fetched (recordsOf indexed) = .ok stateDiffs) :
    StateDiffsComposed indexed fetched.data.prestates stateDiffs := by
  unfold withPrestates at run
  cases snapshots : fetched.data.prestates with
  | none =>
      rw [snapshots] at run
      cases run
      exact .ofReplays
  | some prestates =>
      rw [snapshots] at run
      dsimp only at run
      split at run
      · cases run
      · rename_i apart
        cases run
        exact .ofPrestates (by simpa using apart)

theorem itemsComposed {demand : Demand} {fetched : FetchedBlock}
    {items : List Transaction × List Log} (run : transactionsAndLogs demand fetched = .ok items) :
    TransactionsComposed demand fetched items.1 ∧ LogsComposed demand fetched items.2 := by
  rw [transactionsAndLogs_eq] at run
  obtain ⟨entries, bodyRun, run⟩ := exists_of_bind_eq_ok run
  obtain ⟨receipts, receiptsRun, run⟩ := exists_of_bind_eq_ok run
  obtain ⟨added, addedRun, listing⟩ := exists_of_bind_eq_ok run
  have composed := transactionsComposed bodyRun receiptsRun addedRun
  obtain ⟨rfl, -⟩ := demandedReceipts_eq_ok receiptsRun
  obtain ⟨same, logsComposed⟩ := logsComposed addedRun listing
  rw [← same] at composed
  exact ⟨composed, logsComposed⟩

theorem framesComposed {fields : TraceFields} {fetched : FetchedBlock}
    {frames : List Trace × List StateDiff}
    (run : tracesAndStateDiffs fields fetched = .ok frames) :
    ∃ indexed : List (UInt32 × Raw.Replay),
      indexed.map Prod.snd = fetched.data.replays.getD [] ∧
        (∀ entry ∈ indexed, IsIndexFor fetched.block.transactions entry.2 entry.1) ∧
        TracesComposed fields indexed fetched.data.callTrees frames.1 ∧
        StateDiffsComposed indexed fetched.data.prestates frames.2 := by
  rw [tracesAndStateDiffs_eq] at run
  obtain ⟨replayed, replaysRun, run⟩ := exists_of_bind_eq_ok run
  obtain ⟨indexed, same, named, shown, recorded⟩ :=
    exists_indexed (forall₂_of_mapM_eq_ok replaysRun)
  rw [recorded] at run
  obtain ⟨traces, tracesRun, run⟩ := exists_of_bind_eq_ok run
  obtain ⟨stateDiffs, diffsRun, run⟩ := exists_of_bind_eq_ok run
  cases run
  exact ⟨indexed, same, named, tracesComposed shown tracesRun, stateDiffsComposed diffsRun⟩

end Projection

/-- What a block is composed of: all items of the sources that a demand uses, each once
and in order, and no list from two sources. -/
structure Block.ComposedOf (demand : Demand) (fetched : FetchedBlock) (block : Block) : Prop where
  header : block.header = Header.project fetched.block demand.fields.block
  transactions : Projection.TransactionsComposed demand fetched block.transactions
  logs : Projection.LogsComposed demand fetched block.logs
  /-- The replays in order, each with the index of a transaction with its hash, give the
  frames and the records. -/
  frames : ∃ indexed : List (UInt32 × Raw.Replay),
    indexed.map Prod.snd = fetched.data.replays.getD [] ∧
      (∀ entry ∈ indexed, Projection.IsIndexFor fetched.block.transactions entry.2 entry.1) ∧
      Projection.TracesComposed demand.fields.trace indexed fetched.data.callTrees block.traces ∧
      Projection.StateDiffsComposed indexed fetched.data.prestates block.stateDiffs

namespace FetchedBlock

/-- Nothing of a source is lost, shown twice or mixed with another source. -/
theorem project_composedOf {fetched : FetchedBlock} {demand : Demand} {block : Block}
    (projected : fetched.project demand = .ok block) : block.ComposedOf demand fetched := by
  obtain ⟨⟨transactions, logs⟩, itemsRun, projected⟩ := exists_of_bind_eq_ok projected
  obtain ⟨⟨traces, stateDiffs⟩, framesRun, projected⟩ := exists_of_bind_eq_ok projected
  cases projected
  obtain ⟨transactionsComposed, logsComposed⟩ := Projection.itemsComposed itemsRun
  exact
    { header := rfl
      transactions := transactionsComposed
      logs := logsComposed
      frames := Projection.framesComposed framesRun }

/-- A hash of equal octets. -/
def evenHash (octet : UInt8) : Hash := ⟨List.replicate 32 octet, List.length_replicate⟩

/-- Block eight with two transactions of which only the hashes are known. -/
def pairBlock : Raw.Block where
  number := 8
  hash := .zero 32
  parentHash := .zero 32
  logsBloom := .zero 256
  transactions := .hashes [evenHash 1, evenHash 2]
  timestamp := none
  nonce := none
  sha3Uncles := none
  transactionsRoot := none
  stateRoot := none
  receiptsRoot := none
  mixHash := none
  miner := none
  difficulty := none
  totalDifficulty := none
  extraData := none
  size := none
  gasLimit := none
  gasUsed := none
  baseFeePerGas := none
  l1BlockNumber := none

/-- A receipt with a status and logs. -/
def receiptWith (transactionHash : Hash) (status : UInt64) (logs : List UInt64) : Raw.Receipt where
  blockNumber := 8
  blockHash := .zero 32
  transactionIndex := 0
  transactionHash := transactionHash
  logs := some (logs.map fun index => ⟨8, .zero 32, index, 0, none, none, none, none⟩)
  gasUsed := none
  cumulativeGasUsed := none
  effectiveGasPrice := none
  contractAddress := none
  type := none
  status := some status
  l1Fee := none
  l1FeeScalar := none
  l1GasPrice := none
  l1GasUsed := none
  l1BaseFeeScalar := none
  l1BlobBaseFee := none
  l1BlobBaseFeeScalar := none

/-- Receipts for both transactions, a call tree for the second one only, and a replay of
the second one that changes a balance. -/
def fedBlock : FetchedBlock where
  block := pairBlock
  data :=
    { Enrichment.empty with
      receipts := some [receiptWith (evenHash 1) 1 [5], receiptWith (evenHash 2) 0 [3, 4]]
      replays :=
        some
          [ { transactionHash := some (evenHash 2)
              trace := none
              stateDiff :=
                some
                  (.ofList [(.zero 20, ⟨.added .empty, .same, .same, .ofList []⟩)]) } ]
      callTrees :=
        some
          [ none,
            some
              { transactionHash := none
                result :=
                  .node
                    ⟨"CALL", none, none, none, none, none, .empty, none, none, none⟩
                    [] } ] }

/-- A demand for all items, with the status of each transaction. -/
def fullDemand : Demand :=
  { Demand.of .empty
      { FieldSelection.off with
        transaction := { TransactionFields.off with status := true } } with
    transactionList := true
    logList := true
    receipts := true }

/-- Each item comes from its own source: the statuses and logs from the receipts, the
trace from the call tree, the state diff from the replay. -/
theorem project_fedBlock :
    ∃ block : Block,
      fedBlock.project fullDemand = .ok block ∧ block.ComposedOf fullDemand fedBlock ∧
        block.transactions.map (fun transaction =>
          (transaction.transactionIndex, transaction.status)) = [(0, some 1), (1, some 0)] ∧
        block.logs.map Log.logIndex = [5, 3, 4] ∧
        block.traces.map Trace.transactionIndex = [1] ∧
        block.stateDiffs.map StateDiff.transactionIndex = [1] :=
  ⟨_, rfl, project_composedOf rfl, rfl, rfl, rfl, rfl⟩

end FetchedBlock

end ChainFeed
