import ChainFeed.Proofs.WiringPasses

/-!
# Links between items and transactions

Wiring sorts transactions and logs, and it links the items of every kind to their transactions
and back.  The indexes of the transactions need not be distinct, nor dense, and there need not
be a transaction with the index of an item.
-/

namespace ChainFeed

/-- Whether items are the given ones, sorted by an index, with tied ones in the given order. -/
structure StablySorted {α : Type} (index : α → UInt32) (sources items : List α) : Prop where
  perm : items.Perm sources
  ordered : items.Pairwise fun left right => index left ≤ index right
  stable : ∀ tie : UInt32, items.filter (index · == tie) = sources.filter (index · == tie)

/-- Whether items of one kind and the transactions of a block are linked to one another. -/
structure LinkedToLast {α : Type} (index : α → UInt32) (link : α → Option Nat)
    (links : Transaction → List Nat) (transactions : List Transaction) (items : List α) :
    Prop where
  /-- An item is linked to the last transaction with its index. -/
  link_eq_some : ∀ item ∈ items, ∀ position, link item = some position ↔
    (∃ transaction, transactions[position]? = some transaction ∧
      transaction.transactionIndex = index item) ∧
    ∀ (other : Nat) (transaction : Transaction), transactions[other]? = some transaction →
      transaction.transactionIndex = index item → other ≤ position
  /-- An item is not linked exactly if no transaction has its index. -/
  link_eq_none : ∀ item ∈ items, link item = none ↔
    ∀ transaction ∈ transactions, transaction.transactionIndex ≠ index item
  /-- A transaction has links to exactly the items that are linked to it. -/
  mem_links : ∀ (position : Nat) (transaction : Transaction),
    transactions[position]? = some transaction → ∀ place, place ∈ links transaction ↔
      ∃ item, items[place]? = some item ∧ link item = some position
  ascending : ∀ transaction ∈ transactions, (links transaction).Pairwise (· < ·)

/-- What wiring makes of the items of a block. -/
structure WiredItems (block wired : Block) : Prop where
  transactions : StablySorted Transaction.transactionIndex
    (block.transactions.map Transaction.unlinked) (wired.transactions.map Transaction.unlinked)
  logs : StablySorted Log.logIndex (block.logs.map Log.unlinked) (wired.logs.map Log.unlinked)
  stateDiffs : wired.stateDiffs.map StateDiff.unlinked = block.stateDiffs.map StateDiff.unlinked
  linkedLogs : LinkedToLast Log.transactionIndex Log.transaction Transaction.logs
    wired.transactions wired.logs
  linkedTraces : LinkedToLast Trace.transactionIndex Trace.transaction Transaction.traces
    wired.transactions wired.traces
  linkedStateDiffs : LinkedToLast StateDiff.transactionIndex StateDiff.transaction
    Transaction.stateDiffs wired.transactions wired.stateDiffs
  /-- Every position named on the way exists. -/
  inRange : block.wireInPasses? = some wired

/-! ## Sorting -/

theorem stablySorted_mergeSort {α : Type} (index : α → UInt32) (sources : List α) :
    StablySorted index sources
      (sources.mergeSort fun left right => index left ≤ index right) := by
  constructor
  case perm => exact List.mergeSort_perm _ _
  case ordered =>
    simpa only [decide_eq_true_eq] using
      List.pairwise_mergeSort index_le_trans index_le_total sources
  case stable =>
    intro tie
    apply filter_mergeSort index_le_trans index_le_total
    intro left right leftTied rightTied
    rw [beq_iff_eq] at leftTied rightTied
    rw [decide_eq_true_eq, leftTied, rightTied]
    exact UInt32.le_refl tie

/-! ## Links -/

/-- Links to the last position with an index, and links back, are those of wiring. -/
theorem LinkedToLast.of_position? {α : Type} {index : α → UInt32} {link : α → Option Nat}
    {links : Transaction → List Nat} {transactions : List Transaction} {items : List α}
    (linked : ∀ item ∈ items, link item = Transaction.position? transactions (index item))
    (noted : ∀ (position : Nat) (transaction : Transaction),
      transactions[position]? = some transaction →
        links transaction = positionsWhere (fun item => link item == some position) items) :
    LinkedToLast index link links transactions items where
  link_eq_some item member position := by
    rw [linked item member, Transaction.position?, lastPositionWhere?_eq_some_iff]
    simp only [beq_iff_eq]
  link_eq_none item member := by
    rw [linked item member, Transaction.position?, lastPositionWhere?_eq_none_iff]
    simp only [beq_eq_false_iff_ne]
  mem_links position transaction found place := by
    rw [noted position transaction found, mem_positionsWhere]
    simp only [beq_iff_eq]
  ascending transaction member := by
    obtain ⟨position, found⟩ := List.getElem?_of_mem member
    rw [noted position transaction found]
    exact positionsWhere_ascending _ _

namespace Block

/-- Whatever indexes the items of a block have, and whatever links they had, wiring sorts the
transactions and the logs stably, links every item to the last transaction with its index and
back, and never goes out of range. -/
theorem wiredItems_wire (block : Block) : WiredItems block block.wire := by
  have noted (position : Nat) (transaction : Transaction)
      (found : block.wire.transactions[position]? = some transaction) :
      transaction.logs =
          positionsWhere (fun log => log.transaction == some position) block.wire.logs ∧
        transaction.traces =
          positionsWhere (fun trace => trace.transaction == some position) block.wire.traces ∧
        transaction.stateDiffs =
          positionsWhere (fun diff => diff.transaction == some position)
            block.wire.stateDiffs := by
    rw [getElem?_wire_transactions, Option.map_eq_some_iff] at found
    obtain ⟨source, _, rfl⟩ := found
    exact ⟨rfl, rfl, rfl⟩
  constructor
  case transactions =>
    have sorted : block.wire.transactions.map Transaction.unlinked = block.arrange.transactions :=
      congrArg Block.transactions block.wire_unlinked
    rw [sorted]
    exact stablySorted_mergeSort _ _
  case logs =>
    have sorted : block.wire.logs.map Log.unlinked = block.arrange.logs :=
      congrArg Block.logs block.wire_unlinked
    rw [sorted]
    exact stablySorted_mergeSort _ _
  case stateDiffs => exact congrArg Block.stateDiffs block.wire_unlinked
  case linkedLogs =>
    apply LinkedToLast.of_position?
    · intro log member
      obtain ⟨source, _, rfl⟩ := List.mem_map.mp member
      exact block.position?_wire_transactions source.transactionIndex
    · exact fun position transaction found => (noted position transaction found).1
  case linkedTraces =>
    apply LinkedToLast.of_position?
    · intro trace member
      obtain ⟨source, _, rfl⟩ := List.mem_map.mp member
      exact block.position?_wire_transactions source.transactionIndex
    · exact fun position transaction found => (noted position transaction found).2.1
  case linkedStateDiffs =>
    apply LinkedToLast.of_position?
    · intro diff member
      obtain ⟨source, _, rfl⟩ := List.mem_map.mp member
      exact block.position?_wire_transactions source.transactionIndex
    · exact fun position transaction found => (noted position transaction found).2.2
  case inRange => exact block.wireInPasses?_eq

end Block

end ChainFeed
