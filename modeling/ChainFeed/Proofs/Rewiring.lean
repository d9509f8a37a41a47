import ChainFeed.Archive
import ChainFeed.Proofs.Pruning
import Mathlib.Data.List.Permutation

/-!
# Wiring selected blocks again

If keys tell the transactions and the traces of a block apart, wiring leaves no choice:
the order of the items and all links follow from the items.  Selection keeps this form.
So the links of a selected block may be lost or wrong, and wiring restores them.
-/

namespace ChainFeed

/-! ## Links determined by items -/

section Determined

variable {α β : Type} {itemImage : α → α} {targetImage : β → β} {wanted : α → β → Prop}
  {left right : α} {targets others : List β}

/-- Lists with the same images hold equal items if items with the same image are. -/
theorem eq_of_map_eq_map {items rest : List α} (same : items.map itemImage = rest.map itemImage)
    (determined : ∀ left ∈ items, ∀ right ∈ rest, itemImage left = itemImage right →
      left = right) : items = rest := by
  induction items generalizing rest with
  | nil => exact (List.map_eq_nil_iff.mp same.symm).symm
  | cons item items ih =>
      cases rest with
      | nil => simp at same
      | cons other rest =>
          rw [List.map_cons, List.map_cons, List.cons.injEq] at same
          obtain ⟨sameFirst, sameLater⟩ := same
          rw [determined item (by simp) other (by simp) sameFirst, ih sameLater]
          intro left leftMember right rightMember
          exact determined left (by simp [leftMember]) right (by simp [rightMember])

/-- What leads exactly to the wanted items leads to the same positions in lists with the
same images. -/
theorem wanted_at_iff (sameTargets : targets.map targetImage = others.map targetImage)
    (respects : ∀ item target, wanted (itemImage item) (targetImage target) ↔ wanted item target)
    (same : itemImage left = itemImage right) (position : Nat) :
    (∃ target, targets[position]? = some target ∧ wanted left target) ↔
      ∃ target, others[position]? = some target ∧ wanted right target := by
  have sameAt := congrArg (·[position]?) sameTargets
  simp only [List.getElem?_map] at sameAt
  cases found : targets[position]? with
  | none =>
      rw [found, Option.map_none] at sameAt
      rw [Option.map_eq_none_iff.mp sameAt.symm]
      simp
  | some target =>
      rw [found, Option.map_some] at sameAt
      obtain ⟨other, foundOther, sameTarget⟩ := Option.map_eq_some_iff.mp sameAt.symm
      rw [foundOther]
      simp only [Option.some.injEq, exists_eq_left']
      rw [← respects left target, ← respects right other, same, sameTarget]

/-- Single links that lead exactly to what is wanted follow from the items. -/
theorem link_eq_of_wanted {link : α → Option Nat} {items rest : List α}
    (sameTargets : targets.map targetImage = others.map targetImage)
    (respects : ∀ item target, wanted (itemImage item) (targetImage target) ↔ wanted item target)
    (linked : ∀ item ∈ items, ∀ position, link item = some position ↔
      ∃ target, targets[position]? = some target ∧ wanted item target)
    (otherLinked : ∀ item ∈ rest, ∀ position, link item = some position ↔
      ∃ target, others[position]? = some target ∧ wanted item target)
    (member : left ∈ items) (otherMember : right ∈ rest)
    (same : itemImage left = itemImage right) : link left = link right := by
  apply Option.ext
  intro position
  rw [linked left member, otherLinked right otherMember]
  exact wanted_at_iff sameTargets respects same position

/-- Ascending lists of links that lead exactly to what is wanted follow from the items. -/
theorem links_eq_of_wanted {links : α → List Nat} {items rest : List α}
    (sameTargets : targets.map targetImage = others.map targetImage)
    (respects : ∀ item target, wanted (itemImage item) (targetImage target) ↔ wanted item target)
    (linked : ∀ item ∈ items, ∀ position, position ∈ links item ↔
      ∃ target, targets[position]? = some target ∧ wanted item target)
    (otherLinked : ∀ item ∈ rest, ∀ position, position ∈ links item ↔
      ∃ target, others[position]? = some target ∧ wanted item target)
    (ascending : ∀ item ∈ items, (links item).Pairwise (· < ·))
    (otherAscending : ∀ item ∈ rest, (links item).Pairwise (· < ·))
    (member : left ∈ items) (otherMember : right ∈ rest)
    (same : itemImage left = itemImage right) : links left = links right := by
  apply (ascending left member).eq_of_mem_iff (otherAscending right otherMember)
  intro position
  rw [linked left member, otherLinked right otherMember]
  exact wanted_at_iff sameTargets respects same position

end Determined

/-! ## Canonical blocks -/

namespace Block

/-- A block of which order and links follow from its items. -/
structure Canonical (block : Block) : Prop where
  transactionsOrdered : block.transactions.Pairwise fun left right =>
    left.transactionIndex ≤ right.transactionIndex
  logsOrdered : block.logs.Pairwise fun left right => left.logIndex ≤ right.logIndex
  tracesOrdered : block.traces.Pairwise Trace.Precedes
  linked : block.LinkedByKeys
  transactionLogs : ∀ transaction ∈ block.transactions, transaction.logs.Pairwise (· < ·)
  transactionTraces : ∀ transaction ∈ block.transactions, transaction.traces.Pairwise (· < ·)
  transactionStateDiffs : ∀ transaction ∈ block.transactions,
    transaction.stateDiffs.Pairwise (· < ·)
  children : ∀ trace ∈ block.traces, trace.children.Pairwise (· < ·)

variable {block first second : Block}

/-- Canonical blocks with the same items are equal. -/
theorem Canonical.eq_of_unlinked_eq (left : first.Canonical) (right : second.Canonical)
    (same : first.unlinked = second.unlinked) : first = second := by
  have transactions : first.transactions.map Transaction.unlinked =
      second.transactions.map Transaction.unlinked := congrArg Block.transactions same
  have logs : first.logs.map Log.unlinked = second.logs.map Log.unlinked :=
    congrArg Block.logs same
  have traces : first.traces.map Trace.unlinked = second.traces.map Trace.unlinked :=
    congrArg Block.traces same
  have stateDiffs : first.stateDiffs.map StateDiff.unlinked =
      second.stateDiffs.map StateDiff.unlinked := congrArg Block.stateDiffs same
  apply eq_of_parts
  case header =>
    have headers : first.unlinked.header = second.unlinked.header := by rw [same]
    exact headers
  case transactions =>
    apply eq_of_map_eq_map transactions
    intro item member other otherMember sameItem
    have sameLogs := links_eq_of_wanted logs (fun _ _ => Iff.rfl) left.linked.transactionLogs
      right.linked.transactionLogs left.transactionLogs right.transactionLogs member otherMember
      sameItem
    have sameTraces := links_eq_of_wanted traces (fun _ _ => Iff.rfl)
      left.linked.transactionTraces right.linked.transactionTraces left.transactionTraces
      right.transactionTraces member otherMember sameItem
    have sameStateDiffs := links_eq_of_wanted stateDiffs (fun _ _ => Iff.rfl)
      left.linked.transactionStateDiffs right.linked.transactionStateDiffs
      left.transactionStateDiffs right.transactionStateDiffs member otherMember sameItem
    calc
      item = { item.unlinked with
          logs := item.logs, traces := item.traces, stateDiffs := item.stateDiffs } := rfl
      _ = other := by rw [sameItem, sameLogs, sameTraces, sameStateDiffs]; rfl
  case logs =>
    apply eq_of_map_eq_map logs
    intro item member other otherMember sameItem
    have sameTransaction := link_eq_of_wanted transactions (fun _ _ => Iff.rfl)
      left.linked.logTransaction right.linked.logTransaction member otherMember sameItem
    calc
      item = { item.unlinked with transaction := item.transaction } := rfl
      _ = other := by rw [sameItem, sameTransaction]; rfl
  case traces =>
    apply eq_of_map_eq_map traces
    intro item member other otherMember sameItem
    have sameTransaction := link_eq_of_wanted transactions (fun _ _ => Iff.rfl)
      left.linked.traceTransaction right.linked.traceTransaction member otherMember sameItem
    have sameParent := link_eq_of_wanted traces (fun _ _ => Iff.rfl) left.linked.parent
      right.linked.parent member otherMember sameItem
    have sameChildren := links_eq_of_wanted traces (fun _ _ => Iff.rfl) left.linked.children
      right.linked.children left.children right.children member otherMember sameItem
    calc
      item = { item.unlinked with
          transaction := item.transaction, parent := item.parent,
          children := item.children } := rfl
      _ = other := by rw [sameItem, sameTransaction, sameParent, sameChildren]; rfl
  case stateDiffs =>
    apply eq_of_map_eq_map stateDiffs
    intro item member other otherMember sameItem
    have sameTransaction := link_eq_of_wanted transactions (fun _ _ => Iff.rfl)
      left.linked.stateDiffTransaction right.linked.stateDiffTransaction member otherMember
      sameItem
    calc
      item = { item.unlinked with transaction := item.transaction } := rfl
      _ = other := by rw [sameItem, sameTransaction]; rfl

/-! ## Canonical order -/

/-- Items in canonical order have no links. -/
theorem arrange_unlinked (block : Block) : block.arrange.unlinked = block.arrange := by
  have unlinkedOf {α : Type} {unlink : α → α} {sources arranged : List α}
      (perm : arranged.Perm (sources.map unlink))
      (again : ∀ item, unlink (unlink item) = unlink item) :
      arranged.map unlink = arranged := by
    refine (List.map_congr_left ?_).trans arranged.map_id
    intro item member
    obtain ⟨source, _, rfl⟩ := List.mem_map.mp (perm.subset member)
    exact again source
  apply eq_of_parts
  case header => rfl
  case transactions => exact unlinkedOf (List.mergeSort_perm _ _) fun _ => rfl
  case logs => exact unlinkedOf (List.mergeSort_perm _ _) fun _ => rfl
  case traces => exact unlinkedOf (List.mergeSort_perm _ _) fun _ => rfl
  case stateDiffs => exact unlinkedOf (List.Perm.refl _) fun _ => rfl

/-- Up to links, a wired block holds the items in canonical order. -/
theorem wire_unlinked (block : Block) : block.wire.unlinked = block.arrange := by
  rw [← arrange_unlinked]
  apply eq_of_parts
  case header => rfl
  case transactions =>
    apply List.ext_getElem?
    intro position
    change (block.wire.transactions.map Transaction.unlinked)[position]? =
      (block.arrange.transactions.map Transaction.unlinked)[position]?
    rw [List.getElem?_map, getElem?_wire_transactions, Option.map_map, List.getElem?_map]
    rfl
  case logs => exact List.map_map
  case traces => rw [arrange_unlinked]; exact block.wire_traces_unlinked
  case stateDiffs => exact List.map_map

/-- The canonical order depends on the items alone. -/
theorem arrange_eq_of_unlinked_eq (same : first.unlinked = second.unlinked) :
    first.arrange = second.arrange := by
  have arranged (block : Block) : block.arrange =
      { header := block.unlinked.header
        transactions := block.unlinked.transactions.mergeSort fun left right =>
          left.transactionIndex ≤ right.transactionIndex
        logs := block.unlinked.logs.mergeSort fun left right => left.logIndex ≤ right.logIndex
        traces := block.unlinked.traces.mergeSort fun left right => (left.order right).isLE
        stateDiffs := block.unlinked.stateDiffs } := rfl
  rw [arranged, same, ← arranged]

/-- Whether the items of a block come in canonical order. -/
structure Ordered (block : Block) : Prop where
  transactions : block.transactions.Pairwise fun left right =>
    left.transactionIndex ≤ right.transactionIndex
  logs : block.logs.Pairwise fun left right => left.logIndex ≤ right.logIndex
  traces : block.traces.Pairwise Trace.Precedes

/-- Items that are in canonical order stay where they are. -/
theorem Ordered.arrange_eq (ordered : block.Ordered) : block.arrange = block.unlinked := by
  apply eq_of_parts
  case header => rfl
  case transactions =>
    apply List.mergeSort_of_pairwise
    simp only [List.pairwise_map, decide_eq_true_eq]
    exact ordered.transactions
  case logs =>
    apply List.mergeSort_of_pairwise
    simp only [List.pairwise_map, decide_eq_true_eq]
    exact ordered.logs
  case traces =>
    apply List.mergeSort_of_pairwise
    simp only [List.pairwise_map, Trace.order_isLE_iff]
    exact ordered.traces
  case stateDiffs => rfl

theorem Canonical.arrange_eq (canonical : block.Canonical) : block.arrange = block.unlinked :=
  Ordered.arrange_eq
    ⟨canonical.transactionsOrdered, canonical.logsOrdered, canonical.tracesOrdered⟩

/-! ## What wiring and pruning leave -/

theorem wire_transactions_ordered (block : Block) :
    block.wire.transactions.Pairwise fun left right =>
      left.transactionIndex ≤ right.transactionIndex := by
  have ordered : block.arrange.transactions.Pairwise fun left right =>
      decide (left.transactionIndex ≤ right.transactionIndex) = true :=
    List.pairwise_mergeSort index_le_trans index_le_total _
  rw [← wire_unlinked, unlinked, List.pairwise_map] at ordered
  simp only [decide_eq_true_eq] at ordered
  exact ordered

theorem wire_logs_ordered (block : Block) :
    block.wire.logs.Pairwise fun left right => left.logIndex ≤ right.logIndex := by
  have ordered : block.arrange.logs.Pairwise fun left right =>
      decide (left.logIndex ≤ right.logIndex) = true :=
    List.pairwise_mergeSort index_le_trans index_le_total _
  rw [← wire_unlinked, unlinked, List.pairwise_map] at ordered
  simp only [decide_eq_true_eq] at ordered
  exact ordered

theorem ordered_wire (block : Block) : block.wire.Ordered :=
  ⟨block.wire_transactions_ordered, block.wire_logs_ordered, block.wire_traces_ordered⟩

/-- The lists of a wired transaction are lists of positions with a property. -/
theorem ascending_wire_transaction {transaction : Transaction}
    (member : transaction ∈ block.wire.transactions) :
    transaction.logs.Pairwise (· < ·) ∧ transaction.traces.Pairwise (· < ·) ∧
      transaction.stateDiffs.Pairwise (· < ·) := by
  obtain ⟨position, found⟩ := List.getElem?_of_mem member
  rw [getElem?_wire_transactions, Option.map_eq_some_iff] at found
  obtain ⟨source, _, rfl⟩ := found
  dsimp only
  exact ⟨positionsWhere_ascending _ _, positionsWhere_ascending _ _,
    positionsWhere_ascending _ _⟩

/-- Wiring leaves a canonical block if keys tell its transactions and its traces apart. -/
theorem canonical_wire
    (indexes : (block.transactions.map Transaction.transactionIndex).Nodup)
    (places : (block.traces.map Trace.place).Nodup) : block.wire.Canonical where
  transactionsOrdered := block.wire_transactions_ordered
  logsOrdered := block.wire_logs_ordered
  tracesOrdered := block.wire_traces_ordered
  linked := linkedByKeys_wire indexes places
  transactionLogs _ member := (ascending_wire_transaction member).1
  transactionTraces _ member := (ascending_wire_transaction member).2.1
  transactionStateDiffs _ member := (ascending_wire_transaction member).2.2
  children := by
    intro trace member
    rw [wire_traces_children_of_distinct block places member]
    exact positionsWhere_ascending _ _

/-- Renumbered lists of links ascend if the lists did. -/
theorem ascending_prune {α : Type} {items : List α} {itemMarks marks : List Bool}
    {links : α → List Nat} {moveItem : α → α}
    (moves : ∀ item, links (moveItem item) = Keep.newPositions marks (links item))
    (ascending : ∀ item ∈ items, (links item).Pairwise (· < ·)) :
    ∀ item ∈ (Keep.retain itemMarks items).map moveItem, (links item).Pairwise (· < ·) := by
  intro item member
  obtain ⟨source, kept, rfl⟩ := List.mem_map.mp member
  rw [moves]
  exact Keep.newPositions_ascending
    (ascending source ((Keep.retain_sublist itemMarks items).subset kept))

theorem Canonical.prune (canonical : block.Canonical) (keep : Keep) :
    (block.prune keep).Canonical where
  transactionsOrdered := by
    rw [prune_transactions, List.pairwise_map]
    exact canonical.transactionsOrdered.sublist (Keep.retain_sublist _ _)
  logsOrdered := by
    rw [prune_logs, List.pairwise_map]
    exact canonical.logsOrdered.sublist (Keep.retain_sublist _ _)
  tracesOrdered := by
    rw [prune_traces, List.pairwise_map]
    exact canonical.tracesOrdered.sublist (Keep.retain_sublist _ _)
  linked := canonical.linked.prune keep
  transactionLogs := ascending_prune (fun _ => rfl) canonical.transactionLogs
  transactionTraces := ascending_prune (fun _ => rfl) canonical.transactionTraces
  transactionStateDiffs := ascending_prune (fun _ => rfl) canonical.transactionStateDiffs
  children := ascending_prune (fun _ => rfl) canonical.children

/-! ## Wiring again -/

/-- A canonical block is what wiring makes of its items, whatever links they are given. -/
theorem Canonical.wire_eq (canonical : block.Canonical)
    (indexes : (block.transactions.map Transaction.transactionIndex).Nodup)
    (places : (block.traces.map Trace.place).Nodup) {relinked : Block}
    (same : relinked.unlinked = block.unlinked) : relinked.wire = block := by
  have unlinkedIndexes (block : Block) :
      block.transactions.map Transaction.transactionIndex =
        block.unlinked.transactions.map Transaction.transactionIndex := by
    rw [unlinked, List.map_map]
    rfl
  have unlinkedPlaces (block : Block) :
      block.traces.map Trace.place = block.unlinked.traces.map Trace.place := by
    rw [unlinked, List.map_map]
    rfl
  rw [unlinkedIndexes, ← same, ← unlinkedIndexes] at indexes
  rw [unlinkedPlaces, ← same, ← unlinkedPlaces] at places
  apply (canonical_wire indexes places).eq_of_unlinked_eq canonical
  calc
    relinked.wire.unlinked = relinked.arrange := relinked.wire_unlinked
    _ = block.arrange := arrange_eq_of_unlinked_eq same
    _ = block.unlinked := canonical.arrange_eq

/-- The block that a request selects from a wired block is canonical: given its items with
whatever links, wiring gives back that block.  So an archive that holds selected blocks
delivers what selection delivers. -/
theorem wire_relinked_select {block relinked : Block} {request : Request}
    (indexes : (block.transactions.map Transaction.transactionIndex).Nodup)
    (places : (block.traces.map Trace.place).Nodup)
    (same : relinked.unlinked = (block.wire.select request).unlinked) :
    relinked.wire = block.wire.select request ∧
      ∀ (archive : Archive) (query : ArchiveQuery) (before after : List Block),
        archive.answer query = .ok (before ++ relinked :: after) →
          archive.fetch query =
            .ok (before.map wire ++ block.wire.select request :: after.map wire) := by
  have canonical : (block.wire.select request).Canonical :=
    (canonical_wire indexes places).prune (request.keep block.wire)
  have keptIndexes :
      ((block.wire.select request).transactions.map Transaction.transactionIndex).Nodup := by
    rw [select, prune_transactions, List.map_map]
    exact (block.wire_transactions_indexes_perm.nodup_iff.mpr indexes).sublist
      ((Keep.retain_sublist _ _).map _)
  have keptPlaces : ((block.wire.select request).traces.map Trace.place).Nodup := by
    rw [select, prune_traces, List.map_map]
    exact (block.wire_traces_places.nodup_iff.mpr places).sublist
      ((Keep.retain_sublist _ _).map _)
  have rewired := canonical.wire_eq keptIndexes keptPlaces same
  refine ⟨rewired, ?_⟩
  intro archive query before after answered
  rw [Archive.fetch, answered, ← rewired]
  simp [Except.map]

/-- A call of an account, or of nobody. -/
def callOf (recipient : Option Address) : TraceData :=
  .call ⟨none, none, recipient, none, none, none, none⟩ none

/-- A block in which a contract is destroyed two calls deep, below a call of nobody. -/
def nestedBlock : Block where
  header := .bare 7 (.zero 32) (.zero 32)
  transactions := [.bare 1, .bare 0]
  logs := [.bare 3 1, .bare 2 0]
  traces :=
    [ .bare 0 [0, 1] (.suicide ⟨none, none, none⟩), .bare 1 [] (callOf (some (.zero 20))),
      .bare 0 [0] (callOf none), .bare 0 [] (callOf (some (.zero 20))) ]
  stateDiffs := []

/-- A request for destroyed contracts with their transactions, and for calls of one account. -/
def nestedRequest : Request where
  logs := []
  transactions := [⟨some [.zero 20], none, none, none, ⟨false, false, false⟩⟩]
  traces :=
    [ ⟨some [.suicide], none, none, none, none, none, none, ⟨true, false, false, false⟩⟩,
      ⟨none, none, some [.zero 20], none, none, none, none, ⟨false, false, false, false⟩⟩ ]
  stateDiffs := []

/-- What the request keeps of the block, with links that lead astray. -/
def strayBlock : Block where
  header := .bare 7 (.zero 32) (.zero 32)
  transactions := [{ Transaction.bare 0 with logs := [5], traces := [2, 0] }]
  logs := [.bare 2 0, { Log.bare 3 1 with transaction := some 0 }]
  traces :=
    [ { Trace.bare 0 [] (callOf (some (.zero 20))) with parent := some 1 },
      { Trace.bare 0 [0, 1] (.suicide ⟨none, none, none⟩) with parent := some 0 },
      { Trace.bare 1 [] (callOf (some (.zero 20))) with transaction := some 4, children := [0] } ]
  stateDiffs := []

/-- The frame between is dropped, and so is one transaction. -/
theorem wire_strayBlock :
    (nestedBlock.transactions.map Transaction.transactionIndex).Nodup ∧
      (nestedBlock.traces.map Trace.place).Nodup ∧
      strayBlock.unlinked = (nestedBlock.wire.select nestedRequest).unlinked ∧
      strayBlock.wire = nestedBlock.wire.select nestedRequest ∧
      strayBlock.wire.traces.map
          (fun trace => (trace.place, trace.transaction, trace.parent, trace.children)) =
        [((0, []), some 0, none, [1]), ((0, [0, 1]), some 0, none, []),
          ((1, []), none, none, [])] := by
  have same : strayBlock.unlinked = (nestedBlock.wire.select nestedRequest).unlinked := by cbv
  have rewired := (wire_relinked_select (by decide) (by decide) same).1
  refine ⟨by decide, by decide, same, rewired, ?_⟩
  rw [rewired]
  cbv

end Block

end ChainFeed
