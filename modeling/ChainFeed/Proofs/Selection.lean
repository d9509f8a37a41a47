import ChainFeed.Proofs.Ancestors
import ChainFeed.Proofs.Inclusion
import ChainFeed.Selection
import Mathlib.Data.List.Permutation

/-!
# Theory of selection

Which items of a block a request keeps can be told from what the items are and
the keys they carry: their transaction indexes and, for traces, their paths.  No
link is needed.  Selecting from a wired block keeps exactly these items.
-/

namespace ChainFeed

/-! ## Items that a request keeps -/

namespace Request

variable (request : Request) (block : Block)

/-- Whether an entry with a switch on asks for a log with a transaction index. -/
def AsksLogOf (switch : LogPulls → Bool) (index : UInt32) : Prop :=
  ∃ log ∈ block.logs, log.transactionIndex = index ∧ request.AsksLog switch log

/-- Whether an entry with a switch on asks for a transaction with an index. -/
def AsksTransactionOf (switch : TransactionPulls → Bool) (index : UInt32) : Prop :=
  ∃ transaction ∈ block.transactions,
    transaction.transactionIndex = index ∧ request.AsksTransaction switch transaction

/-- Whether an entry with a switch on asks for a trace with a transaction index. -/
def AsksTraceOf (switch : TracePulls → Bool) (index : UInt32) : Prop :=
  ∃ trace ∈ block.traces, trace.transactionIndex = index ∧ request.AsksTrace switch trace

/-- Whether an entry with a switch on asks for a state diff with a transaction
index. -/
def AsksStateDiffOf (switch : StateDiffPulls → Bool) (index : UInt32) : Prop :=
  ∃ diff ∈ block.stateDiffs, diff.transactionIndex = index ∧ request.AsksStateDiff switch diff

/-- Whether a request keeps a log of a block. -/
def KeepsLog (log : Log) : Prop :=
  request.logs = [] ∨ request.AsksLog itself log ∨
    request.AsksLogOf block (·.transactionLogs) log.transactionIndex ∨
    request.AsksTransactionOf block (·.logs) log.transactionIndex ∨
    request.AsksTraceOf block (·.transactionLogs) log.transactionIndex

/-- Whether a request keeps a transaction of a block. -/
def KeepsTransaction (transaction : Transaction) : Prop :=
  request.transactions = [] ∨ request.AsksTransaction itself transaction ∨
    request.AsksLogOf block (·.transaction) transaction.transactionIndex ∨
    request.AsksTraceOf block (·.transaction) transaction.transactionIndex ∨
    request.AsksStateDiffOf block (·.transaction) transaction.transactionIndex

/-- Whether a request keeps a trace of a block. -/
def KeepsTrace (trace : Trace) : Prop :=
  request.traces = [] ∨ request.AsksTrace itself trace ∨
    (∃ lower ∈ block.traces,
      request.AsksTrace (·.parents) lower ∧ Trace.Overlies block.traces trace lower) ∨
    (∃ upper ∈ block.traces,
      request.AsksTrace (·.subtraces) upper ∧ upper.isAncestorOf trace = true) ∨
    request.AsksLogOf block (·.transactionTraces) trace.transactionIndex ∨
    request.AsksTransactionOf block (·.traces) trace.transactionIndex

/-- Whether a request keeps a state diff of a block. -/
def KeepsStateDiff (diff : StateDiff) : Prop :=
  request.stateDiffs = [] ∨ request.AsksStateDiff itself diff ∨
    request.AsksLogOf block (·.transactionStateDiffs) diff.transactionIndex ∨
    request.AsksTransactionOf block (·.stateDiffs) diff.transactionIndex

instance (switch : LogPulls → Bool) (index : UInt32) :
    Decidable (request.AsksLogOf block switch index) :=
  inferInstanceAs (Decidable (∃ _ ∈ _, _))

instance (switch : TransactionPulls → Bool) (index : UInt32) :
    Decidable (request.AsksTransactionOf block switch index) :=
  inferInstanceAs (Decidable (∃ _ ∈ _, _))

instance (switch : TracePulls → Bool) (index : UInt32) :
    Decidable (request.AsksTraceOf block switch index) :=
  inferInstanceAs (Decidable (∃ _ ∈ _, _))

instance (switch : StateDiffPulls → Bool) (index : UInt32) :
    Decidable (request.AsksStateDiffOf block switch index) :=
  inferInstanceAs (Decidable (∃ _ ∈ _, _))

instance : DecidablePred (request.KeepsLog block) :=
  fun _ => inferInstanceAs (Decidable (_ ∨ _))

instance : DecidablePred (request.KeepsTransaction block) :=
  fun _ => inferInstanceAs (Decidable (_ ∨ _))

instance : DecidablePred (request.KeepsTrace block) :=
  fun _ => inferInstanceAs (Decidable (_ ∨ _))

instance : DecidablePred (request.KeepsStateDiff block) :=
  fun _ => inferInstanceAs (Decidable (_ ∨ _))

/-- The block with only those items that a request keeps. -/
def keptItems : Block where
  header := block.header
  transactions := block.transactions.filter fun item => request.KeepsTransaction block item
  logs := block.logs.filter fun item => request.KeepsLog block item
  traces := block.traces.filter fun item => request.KeepsTrace block item
  stateDiffs := block.stateDiffs.filter fun item => request.KeepsStateDiff block item

end Request

/-! ## Marks -/

namespace Keep

variable {α : Type} {items : List α}

/-- Marks that agree with a property retain the items with that property. -/
theorem retain_range {mark : Nat → Bool} {keeps : α → Bool}
    (agree : ∀ (position : Nat) (item : α), items[position]? = some item →
      mark position = keeps item) :
    retain ((List.range items.length).map mark) items = items.filter keeps := by
  induction items generalizing mark with
  | nil => rfl
  | cons item rest ih =>
      have later : retain ((List.range rest.length).map (mark ∘ Nat.succ)) rest =
          rest.filter keeps := ih fun position => agree (position + 1)
      rw [List.length_cons, List.range_succ_eq_map, List.map_cons, List.map_map,
        List.filter_cons, ← later, ← agree 0 item rfl]
      cases mark 0 with
      | false => rfl
      | true => rfl

/-- Without entries of a kind everything is kept, with entries what is included. -/
theorem retain_marks {ε : Type} {entries : List ε} {included : List Nat} {keeps : α → Prop}
    [DecidablePred keeps]
    (agree : ∀ (position : Nat) (item : α), items[position]? = some item →
      (entries = [] ∨ position ∈ included ↔ keeps item)) :
    retain (marks (!entries.isEmpty) included items.length) items =
      items.filter fun item => keeps item := by
  apply retain_range
  intro position item found
  rw [Bool.eq_iff_iff, decide_eq_true_iff, ← agree position item found]
  simp

end Keep

/-! ## Links and keys -/

namespace Block

variable {block : Block} {request : Request}

/-- Reaching an item by its index. -/
theorem exists_reaching_iff {α : Type} {items : List α} {asks reaches : α → Prop}
    {index : α → UInt32} {wanted : UInt32}
    (follows : ∀ item ∈ items, reaches item ↔ index item = wanted) :
    (∃ item ∈ items, asks item ∧ reaches item) ↔
      ∃ item ∈ items, index item = wanted ∧ asks item := by
  apply exists_congr
  intro item
  apply and_congr_right
  intro member
  rw [follows item member, and_comm]

/-- The positions with an index are those of the items with it. -/
theorem mem_positionsWhere_index {α : Type} {items : List α} {index : α → UInt32}
    {position : Nat} {item : α} (found : items[position]? = some item) (wanted : UInt32) :
    position ∈ positionsWhere (fun other => index other == wanted) items ↔
      wanted = index item := by
  rw [mem_positionsWhere, found]
  simp only [Option.some.injEq, exists_eq_left', beq_iff_eq]
  exact eq_comm

theorem mem_logsOf {position : Nat} {log : Log} (found : block.logs[position]? = some log)
    (index : UInt32) : position ∈ block.logsOf index ↔ index = log.transactionIndex :=
  mem_positionsWhere_index found index

theorem mem_tracesOf {position : Nat} {trace : Trace}
    (found : block.traces[position]? = some trace) (index : UInt32) :
    position ∈ block.tracesOf index ↔ index = trace.transactionIndex :=
  mem_positionsWhere_index found index

theorem mem_stateDiffsOf {position : Nat} {diff : StateDiff}
    (found : block.stateDiffs[position]? = some diff) (index : UInt32) :
    position ∈ block.stateDiffsOf index ↔ index = diff.transactionIndex :=
  mem_positionsWhere_index found index

theorem exists_at_iff {α : Type} {items : List α} {position : Nat} {item : α}
    (found : items[position]? = some item) {property : α → Prop} :
    (∃ other, items[position]? = some other ∧ property other) ↔ property item := by
  rw [found]
  simp

variable (linked : block.LinkedByKeys) {position : Nat}

include linked

/-- With links that follow keys, the included logs are those that are kept. -/
theorem LinkedByKeys.keepsLog_iff {log : Log} (found : block.logs[position]? = some log) :
    request.logs = [] ∨ position ∈ (request.inclusion block).logs ↔
      request.KeepsLog block log := by
  rw [Request.mem_inclusion_logs]
  refine or_congr_right (or_congr (exists_at_iff found)
    (or_congr ?ofLogs (or_congr ?ofTransactions ?ofTraces)))
  case ofLogs => exact exists_reaching_iff fun _ _ => mem_logsOf found _
  case ofTransactions =>
    apply exists_reaching_iff
    intro transaction member
    rw [linked.transactionLogs transaction member position, exists_at_iff found, eq_comm]
  case ofTraces => exact exists_reaching_iff fun _ _ => mem_logsOf found _

/-- With links that follow keys, the included transactions are those that are kept. -/
theorem LinkedByKeys.keepsTransaction_iff {transaction : Transaction}
    (found : block.transactions[position]? = some transaction) :
    request.transactions = [] ∨ position ∈ (request.inclusion block).transactions ↔
      request.KeepsTransaction block transaction := by
  rw [Request.mem_inclusion_transactions]
  refine or_congr_right (or_congr (exists_at_iff found)
    (or_congr ?ofLogs (or_congr ?ofTraces ?ofStateDiffs)))
  case ofLogs =>
    apply exists_reaching_iff
    intro log member
    rw [Option.mem_toList, linked.logTransaction log member position, exists_at_iff found,
      eq_comm]
  case ofTraces =>
    apply exists_reaching_iff
    intro trace member
    rw [Option.mem_toList, linked.traceTransaction trace member position, exists_at_iff found,
      eq_comm]
  case ofStateDiffs =>
    apply exists_reaching_iff
    intro diff member
    rw [Option.mem_toList, linked.stateDiffTransaction diff member position,
      exists_at_iff found, eq_comm]

/-- With links that follow keys, the included traces are those that are kept. -/
theorem LinkedByKeys.keepsTrace_iff (ordered : block.traces.Pairwise Trace.Precedes)
    {trace : Trace} (found : block.traces[position]? = some trace) :
    request.traces = [] ∨ position ∈ (request.inclusion block).traces ↔
      request.KeepsTrace block trace := by
  rw [Request.mem_inclusion_traces]
  refine or_congr_right (or_congr (exists_at_iff found)
    (or_congr ?climbed (or_congr ?below (or_congr ?ofLogs ?ofTransactions))))
  case climbed =>
    apply exists_congr
    intro lower
    apply and_congr_right
    intro member
    rw [linked.mem_ancestors ordered member, exists_at_iff found]
  case below =>
    apply exists_congr
    intro upper
    apply and_congr_right
    intro member
    rw [linked.children upper member position, exists_at_iff found]
  case ofLogs => exact exists_reaching_iff fun _ _ => mem_tracesOf found _
  case ofTransactions =>
    apply exists_reaching_iff
    intro transaction member
    rw [linked.transactionTraces transaction member position, exists_at_iff found, eq_comm]

/-- With links that follow keys, the included state diffs are those that are kept. -/
theorem LinkedByKeys.keepsStateDiff_iff {diff : StateDiff}
    (found : block.stateDiffs[position]? = some diff) :
    request.stateDiffs = [] ∨ position ∈ (request.inclusion block).stateDiffs ↔
      request.KeepsStateDiff block diff := by
  rw [Request.mem_inclusion_stateDiffs]
  refine or_congr_right (or_congr (exists_at_iff found) (or_congr ?ofLogs ?ofTransactions))
  case ofLogs => exact exists_reaching_iff fun _ _ => mem_stateDiffsOf found _
  case ofTransactions =>
    apply exists_reaching_iff
    intro transaction member
    rw [linked.transactionStateDiffs transaction member position, exists_at_iff found, eq_comm]

end Block

/-! ## Selecting by keys -/

namespace Block

variable {block : Block} {request : Request}

/-- Pruning changes nothing but positions in what it retains. -/
theorem prune_unlinked (block : Block) (keep : Keep) :
    (block.prune keep).unlinked =
      { header := block.header
        transactions := (Keep.retain keep.transactions block.transactions).map .unlinked
        logs := (Keep.retain keep.logs block.logs).map .unlinked
        traces := (Keep.retain keep.traces block.traces).map .unlinked
        stateDiffs := (Keep.retain keep.stateDiffs block.stateDiffs).map .unlinked } := by
  simp only [unlinked, prune, List.map_map]
  rfl

/-- Selecting from a block whose links follow keys keeps what the keys say. -/
theorem LinkedByKeys.select_unlinked (linked : block.LinkedByKeys)
    (ordered : block.traces.Pairwise Trace.Precedes) :
    (block.select request).unlinked = (request.keptItems block).unlinked := by
  rw [select, prune_unlinked, Request.keep,
    Keep.retain_marks fun _ _ => linked.keepsTransaction_iff,
    Keep.retain_marks fun _ _ => linked.keepsLog_iff,
    Keep.retain_marks fun _ _ => linked.keepsTrace_iff ordered,
    Keep.retain_marks fun _ _ => linked.keepsStateDiff_iff]
  rfl

/-- What a request keeps of a wired block is told by keys alone, if transactions
have different indexes and traces stand at different places: the kept items are in
the order of the wired block and differ from its items in links only. -/
theorem select_wire_unlinked (block : Block) (request : Request)
    (indexes : (block.transactions.map Transaction.transactionIndex).Nodup)
    (places : (block.traces.map Trace.place).Nodup) :
    (block.wire.select request).unlinked = (request.keptItems block.wire).unlinked :=
  (linkedByKeys_wire indexes places).select_unlinked block.wire_traces_ordered

/-- A block with two transactions, in the first of which a contract is destroyed two
calls deep. -/
def destroyingBlock : Block :=
  let call : TraceData := .call ⟨none, none, none, none, none, none, none⟩ none
  { header := .bare 7 (.zero 32) (.zero 32)
    transactions := [.bare 1, .bare 0]
    logs := []
    traces :=
      [ .bare 0 [0, 1] (.suicide ⟨none, none, none⟩), .bare 1 [] call, .bare 0 [1] call,
        .bare 0 [0] call, .bare 0 [] call ]
    stateDiffs := [] }

/-- A request for destroyed contracts and the calls that lead to them. -/
def destroyedRequest : Request :=
  let pulls : TracePulls :=
    { transaction := false, transactionLogs := false, subtraces := false, parents := true }
  { Request.empty with
    traces := [⟨some [.suicide], none, none, none, none, none, none, pulls⟩] }

/-- The call beside and the call in another transaction are dropped. -/
theorem select_wire_destroyingBlock :
    (destroyingBlock.transactions.map Transaction.transactionIndex).Nodup ∧
      (destroyingBlock.traces.map Trace.place).Nodup ∧
        (destroyingBlock.wire.select destroyedRequest).unlinked.traces.map
          Trace.traceAddress = [[], [0], [0, 1]] := by
  refine ⟨by decide, by decide, ?_⟩
  rw [select_wire_unlinked destroyingBlock destroyedRequest (by decide) (by decide)]
  cbv

end Block

end ChainFeed
