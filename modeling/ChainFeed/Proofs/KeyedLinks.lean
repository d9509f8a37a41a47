import ChainFeed.Proofs.Wiring

/-!
# Links that follow keys

If no two transactions of a block have the same index and no two traces stand at
the same place, wiring makes every link say what the keys say: an item is linked
to the transaction with its index, and the other way round, and traces are linked
as their paths are.  What follows from links can then be told from keys.
-/

namespace ChainFeed

namespace Block

/-- Every link of the block says exactly what indexes and paths say. -/
structure LinkedByKeys (block : Block) : Prop where
  logTransaction : ∀ log ∈ block.logs, ∀ position, log.transaction = some position ↔
    ∃ transaction, block.transactions[position]? = some transaction ∧
      transaction.transactionIndex = log.transactionIndex
  traceTransaction : ∀ trace ∈ block.traces, ∀ position, trace.transaction = some position ↔
    ∃ transaction, block.transactions[position]? = some transaction ∧
      transaction.transactionIndex = trace.transactionIndex
  stateDiffTransaction : ∀ diff ∈ block.stateDiffs, ∀ position,
    diff.transaction = some position ↔
      ∃ transaction, block.transactions[position]? = some transaction ∧
        transaction.transactionIndex = diff.transactionIndex
  transactionLogs : ∀ transaction ∈ block.transactions, ∀ position,
    position ∈ transaction.logs ↔
      ∃ log, block.logs[position]? = some log ∧
        log.transactionIndex = transaction.transactionIndex
  transactionTraces : ∀ transaction ∈ block.transactions, ∀ position,
    position ∈ transaction.traces ↔
      ∃ trace, block.traces[position]? = some trace ∧
        trace.transactionIndex = transaction.transactionIndex
  transactionStateDiffs : ∀ transaction ∈ block.transactions, ∀ position,
    position ∈ transaction.stateDiffs ↔
      ∃ diff, block.stateDiffs[position]? = some diff ∧
        diff.transactionIndex = transaction.transactionIndex
  parent : ∀ trace ∈ block.traces, ∀ position, trace.parent = some position ↔
    ∃ upper, block.traces[position]? = some upper ∧ upper.isParentOf trace = true
  children : ∀ trace ∈ block.traces, ∀ position, position ∈ trace.children ↔
    ∃ lower, block.traces[position]? = some lower ∧ trace.isAncestorOf lower = true

variable (block : Block)

/-! ## Links to transactions -/

theorem getElem?_wire_transactions (position : Nat) :
    block.wire.transactions[position]? =
      block.arrange.transactions[position]?.map fun transaction =>
        { transaction with
          logs := positionsWhere (fun log => log.transaction == some position) block.wire.logs
          traces :=
            positionsWhere (fun trace => trace.transaction == some position) block.wire.traces
          stateDiffs :=
            positionsWhere (fun diff => diff.transaction == some position)
              block.wire.stateDiffs } :=
  List.getElem?_mapIdx

theorem wire_transactions_indexes :
    block.wire.transactions.map Transaction.transactionIndex =
      block.arrange.transactions.map Transaction.transactionIndex := by
  apply List.ext_getElem?
  intro position
  rw [List.getElem?_map, getElem?_wire_transactions, Option.map_map, List.getElem?_map]
  rfl

/-- Wiring leaves the indexes of the transactions as they are. -/
theorem wire_transactions_indexes_perm :
    (block.wire.transactions.map Transaction.transactionIndex).Perm
      (block.transactions.map Transaction.transactionIndex) := by
  rw [wire_transactions_indexes]
  have indexes := (List.mergeSort_perm (block.transactions.map Transaction.unlinked)
    fun left right => left.transactionIndex ≤ right.transactionIndex).map
      Transaction.transactionIndex
  rw [List.map_map] at indexes
  exact indexes

theorem position?_wire_transactions (index : UInt32) :
    Transaction.position? block.arrange.transactions index =
      Transaction.position? block.wire.transactions index := by
  have sameIndexes (transactions : List Transaction) :
      Transaction.position? transactions index =
        (positionsWhere (· == index)
          (transactions.map Transaction.transactionIndex)).getLast? := by
    rw [positionsWhere_map]
    rfl
  rw [sameIndexes, sameIndexes, wire_transactions_indexes]

variable {block}

/-- Among transactions with different indexes, the last one with an index is the
only one. -/
theorem position?_eq_some_iff {transactions : List Transaction}
    (distinct : (transactions.map Transaction.transactionIndex).Nodup) {index : UInt32}
    {position : Nat} :
    Transaction.position? transactions index = some position ↔
      ∃ transaction, transactions[position]? = some transaction ∧
        transaction.transactionIndex = index := by
  rw [Transaction.position?, lastPositionWhere?_eq_some_iff_of_nodup_map distinct]
  · simp only [beq_iff_eq]
  · intro left right leftIndex rightIndex
    rw [beq_iff_eq] at leftIndex rightIndex
    exact leftIndex.trans rightIndex.symm

/-- What the last position with a parent's place means if all places differ. -/
theorem parent_eq_some_iff {traces : List Trace} (distinct : (traces.map Trace.place).Nodup)
    {trace : Trace} {position : Nat} :
    lastPositionWhere? (·.isParentOf trace) traces = some position ↔
      ∃ upper, traces[position]? = some upper ∧ upper.isParentOf trace = true := by
  apply lastPositionWhere?_eq_some_iff_of_nodup_map distinct
  intro left right isLeftParent isRightParent
  obtain ⟨leftIndex, leftNumber, leftPath⟩ := Trace.isParentOf_iff.mp isLeftParent
  obtain ⟨rightIndex, rightNumber, rightPath⟩ := Trace.isParentOf_iff.mp isRightParent
  rw [Trace.place_eq_iff]
  exact ⟨leftIndex.trans rightIndex.symm,
    (List.append_inj' (leftPath.symm.trans rightPath) rfl).1⟩

/-- If items are linked to the transactions with their indexes, the positions of the
items that are linked to a transaction are those of the items with its index. -/
theorem mem_positionsWhere_linked {α : Type} {items : List α} {link : α → Option Nat}
    {index : α → UInt32} {transactions : List Transaction} {position : Nat}
    {transaction : Transaction} (found : transactions[position]? = some transaction)
    (linked : ∀ item ∈ items, ∀ position, link item = some position ↔
      ∃ transaction, transactions[position]? = some transaction ∧
        transaction.transactionIndex = index item)
    {place : Nat} :
    place ∈ positionsWhere (fun item => link item == some position) items ↔
      ∃ item, items[place]? = some item ∧ index item = transaction.transactionIndex := by
  rw [mem_positionsWhere]
  apply exists_congr
  intro item
  apply and_congr_right
  intro foundItem
  rw [beq_iff_eq, linked item (List.mem_of_getElem? foundItem), found]
  simp [eq_comm]

/-- Wiring links by keys if the keys tell the items apart. -/
theorem linkedByKeys_wire
    (indexes : (block.transactions.map Transaction.transactionIndex).Nodup)
    (places : (block.traces.map Trace.place).Nodup) : block.wire.LinkedByKeys := by
  have wiredIndexes := block.wire_transactions_indexes_perm.nodup_iff.mpr indexes
  have wiredPlaces := block.wire_traces_places.nodup_iff.mpr places
  have linked (index : UInt32) (position : Nat) :
      Transaction.position? block.arrange.transactions index = some position ↔
        ∃ transaction, block.wire.transactions[position]? = some transaction ∧
          transaction.transactionIndex = index := by
    rw [position?_wire_transactions]
    exact position?_eq_some_iff wiredIndexes
  have logTransaction : ∀ log ∈ block.wire.logs, ∀ position, log.transaction = some position ↔
      ∃ transaction, block.wire.transactions[position]? = some transaction ∧
        transaction.transactionIndex = log.transactionIndex := by
    intro log member
    obtain ⟨source, _, rfl⟩ := List.mem_map.mp member
    exact linked source.transactionIndex
  have traceTransaction : ∀ trace ∈ block.wire.traces, ∀ position,
      trace.transaction = some position ↔
        ∃ transaction, block.wire.transactions[position]? = some transaction ∧
          transaction.transactionIndex = trace.transactionIndex := by
    intro trace member
    obtain ⟨source, _, rfl⟩ := List.mem_map.mp member
    exact linked source.transactionIndex
  have stateDiffTransaction : ∀ diff ∈ block.wire.stateDiffs, ∀ position,
      diff.transaction = some position ↔
        ∃ transaction, block.wire.transactions[position]? = some transaction ∧
          transaction.transactionIndex = diff.transactionIndex := by
    intro diff member
    obtain ⟨source, _, rfl⟩ := List.mem_map.mp member
    exact linked source.transactionIndex
  have foundTransaction : ∀ transaction ∈ block.wire.transactions,
      ∃ (position : Nat) (source : Transaction),
        block.wire.transactions[position]? = some transaction ∧
        transaction =
          { source with
            logs := positionsWhere (fun log => log.transaction == some position) block.wire.logs
            traces :=
              positionsWhere (fun trace => trace.transaction == some position) block.wire.traces
            stateDiffs :=
              positionsWhere (fun diff => diff.transaction == some position)
                block.wire.stateDiffs } := by
    intro transaction member
    obtain ⟨position, found⟩ := List.getElem?_of_mem member
    have wired := found
    rw [getElem?_wire_transactions, Option.map_eq_some_iff] at wired
    obtain ⟨source, _, equal⟩ := wired
    exact ⟨position, source, found, equal.symm⟩
  constructor
  case logTransaction => exact logTransaction
  case traceTransaction => exact traceTransaction
  case stateDiffTransaction => exact stateDiffTransaction
  case transactionLogs =>
    intro transaction member place
    obtain ⟨position, source, found, equal⟩ := foundTransaction transaction member
    rw [← mem_positionsWhere_linked found logTransaction, equal]
  case transactionTraces =>
    intro transaction member place
    obtain ⟨position, source, found, equal⟩ := foundTransaction transaction member
    rw [← mem_positionsWhere_linked found traceTransaction, equal]
  case transactionStateDiffs =>
    intro transaction member place
    obtain ⟨position, source, found, equal⟩ := foundTransaction transaction member
    rw [← mem_positionsWhere_linked found stateDiffTransaction, equal]
  case parent =>
    intro trace member position
    rw [block.wire_traces_parent member]
    exact parent_eq_some_iff wiredPlaces
  case children =>
    intro trace member position
    rw [block.wire_traces_children_of_distinct places member, mem_positionsWhere]

end Block

end ChainFeed
