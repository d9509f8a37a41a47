import ChainFeed.Proofs.Rewiring
import Mathlib.Data.List.Sort

/-!
# Wiring reordered blocks

A node may answer the items of a block in any order, and an archive may hold them with
any links.  If keys tell the items apart, wiring forgets all of that: two blocks are
wired to the same block exactly if they hold the same items.
-/

namespace ChainFeed

/-- Sorting does not depend on the given order if tied items are told apart by their keys. -/
theorem mergeSort_eq_of_perm {α κ : Type} {le : α → α → Bool} {key : α → κ}
    {items reordered : List α}
    (trans : ∀ first second third : α, le first second = true → le second third = true →
      le first third = true)
    (total : ∀ left right : α, (le left right || le right left) = true)
    (tied : ∀ left right, le left right = true → le right left = true → key left = key right)
    (distinct : (items.map key).Nodup) (perm : items.Perm reordered) :
    items.mergeSort le = reordered.mergeSort le := by
  have sameItems : (items.mergeSort le).Perm (reordered.mergeSort le) :=
    ((List.mergeSort_perm items le).trans perm).trans (List.mergeSort_perm reordered le).symm
  refine sameItems.eq_of_pairwise ?_ (List.pairwise_mergeSort trans total items)
    (List.pairwise_mergeSort trans total reordered)
  intro left right leftMember rightMember forward backward
  have leftItem : left ∈ items := List.mem_mergeSort.mp leftMember
  have rightItem : right ∈ items := perm.symm.subset (List.mem_mergeSort.mp rightMember)
  exact List.inj_on_of_nodup_map distinct leftItem rightItem (tied left right forward backward)

/-- Sorting by indexes does not depend on the given order if the indexes are distinct. -/
theorem mergeSort_index_eq_of_perm {α : Type} {index : α → UInt32} {items reordered : List α}
    (distinct : (items.map index).Nodup) (perm : items.Perm reordered) :
    (items.mergeSort fun left right => index left ≤ index right) =
      reordered.mergeSort fun left right => index left ≤ index right := by
  refine mergeSort_eq_of_perm index_le_trans index_le_total ?_ distinct perm
  intro left right
  simpa only [decide_eq_true_eq] using UInt32.le_antisymm

/-- Traces that their places tell apart have one canonical order. -/
theorem mergeSort_order_eq_of_perm {traces reordered : List Trace}
    (places : (traces.map Trace.place).Nodup) (perm : traces.Perm reordered) :
    (traces.mergeSort fun left right => (left.order right).isLE) =
      reordered.mergeSort fun left right => (left.order right).isLE := by
  have tied (left right : Trace) (forward : (left.order right).isLE = true)
      (backward : (right.order left).isLE = true) : left.place = right.place :=
    (Trace.order_isLE_iff.mp forward).antisymm (Trace.order_isLE_iff.mp backward)
  exact mergeSort_eq_of_perm Trace.isLE_order_trans Trace.isLE_order_total tied places perm

namespace Block

/-- Whether two blocks hold the same items up to links, and up to order where wiring sets
the order.  State diffs are not sorted, so they have to come in the same order. -/
structure SameItems (block other : Block) : Prop where
  header : block.header = other.header
  transactions : (block.transactions.map Transaction.unlinked).Perm
    (other.transactions.map Transaction.unlinked)
  logs : (block.logs.map Log.unlinked).Perm (other.logs.map Log.unlinked)
  traces : (block.traces.map Trace.unlinked).Perm (other.traces.map Trace.unlinked)
  stateDiffs : block.stateDiffs.map StateDiff.unlinked = other.stateDiffs.map StateDiff.unlinked

variable {block other : Block}

/-- Canonical order keeps the items. -/
theorem SameItems.of_arrange_eq (same : block.arrange = other.arrange) :
    block.SameItems other where
  header := by
    have headers : block.arrange.header = other.arrange.header := by rw [same]
    exact headers
  transactions := by
    have sorted : block.arrange.transactions.Perm (other.transactions.map Transaction.unlinked) :=
      same ▸ List.mergeSort_perm _ _
    exact (List.mergeSort_perm _ _).symm.trans sorted
  logs := by
    have sorted : block.arrange.logs.Perm (other.logs.map Log.unlinked) :=
      same ▸ List.mergeSort_perm _ _
    exact (List.mergeSort_perm _ _).symm.trans sorted
  traces := block.arrange_traces_perm.symm.trans (same ▸ other.arrange_traces_perm)
  stateDiffs := congrArg Block.stateDiffs same

/-- The canonical order of items that keys tell apart does not depend on the given one. -/
theorem SameItems.arrange_eq (same : block.SameItems other)
    (indexes : (block.transactions.map Transaction.transactionIndex).Nodup)
    (logIndexes : (block.logs.map Log.logIndex).Nodup)
    (places : (block.traces.map Trace.place).Nodup) : block.arrange = other.arrange := by
  apply eq_of_parts
  case header => exact same.header
  case transactions =>
    refine mergeSort_index_eq_of_perm ?_ same.transactions
    rw [List.map_map]
    exact indexes
  case logs =>
    refine mergeSort_index_eq_of_perm ?_ same.logs
    rw [List.map_map]
    exact logIndexes
  case traces =>
    refine mergeSort_order_eq_of_perm ?_ same.traces
    rw [List.map_map]
    exact places
  case stateDiffs => exact same.stateDiffs

/-- Wiring is canonical: of two blocks the first of which has distinct keys, wiring makes the
same block exactly if they hold the same items. -/
theorem wire_eq_wire_iff (indexes : (block.transactions.map Transaction.transactionIndex).Nodup)
    (logIndexes : (block.logs.map Log.logIndex).Nodup)
    (places : (block.traces.map Trace.place).Nodup) :
    block.wire = other.wire ↔ block.SameItems other := by
  constructor
  · intro same
    apply SameItems.of_arrange_eq
    rw [← wire_unlinked, same, wire_unlinked]
  · intro same
    rw [wire, same.arrange_eq indexes logIndexes places, wire]

/-- The frames of a nested block in another order, with stale links. -/
def shuffledBlock : Block where
  header := .bare 7 (.zero 32) (.zero 32)
  transactions := [{ Transaction.bare 0 with logs := [7], traces := [1, 1] }, .bare 1]
  logs := [{ Log.bare 2 0 with transaction := some 1 }, .bare 3 1]
  traces :=
    [ { Trace.bare 0 [] (callOf (some (.zero 20))) with parent := some 0, children := [9] },
      { Trace.bare 0 [0, 1] (.suicide ⟨none, none, none⟩) with parent := some 3 },
      { Trace.bare 0 [0] (callOf none) with transaction := some 1 },
      .bare 1 [] (callOf (some (.zero 20))) ]
  stateDiffs := []

/-- The nested block and its frames in another order are wired alike. -/
theorem wire_shuffledBlock :
    (nestedBlock.transactions.map Transaction.transactionIndex).Nodup ∧
      (nestedBlock.logs.map Log.logIndex).Nodup ∧
      (nestedBlock.traces.map Trace.place).Nodup ∧
      nestedBlock.SameItems shuffledBlock ∧ nestedBlock.wire = shuffledBlock.wire ∧
      nestedBlock.wire.traces.map
          (fun trace => (trace.place, trace.transaction, trace.parent, trace.children)) =
        [((0, []), some 0, none, [1, 2]), ((0, [0]), some 0, some 0, [2]),
          ((0, [0, 1]), some 0, some 1, []), ((1, []), some 1, none, [])] := by
  have same : nestedBlock.SameItems shuffledBlock := by
    constructor <;> decide
  exact ⟨by decide, by decide, by decide, same,
    (wire_eq_wire_iff (by decide) (by decide) (by decide)).mpr same, by cbv⟩

end Block

end ChainFeed
