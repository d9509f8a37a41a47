import ChainFeed.Proofs.WiringPasses

/-!
# Wiring wired blocks

A wired block has its items in canonical order already, and wiring forgets the links that a
block holds.  So a wired block is wired to itself, whatever keys its items share, and the
passes that set links where they find them do not add any.  Links of a wired block that were
lost or changed are restored.
-/

namespace ChainFeed

namespace Block

variable {block relinked : Block}

/-- The items of a wired block stay where they are. -/
theorem arrange_wire (block : Block) : block.wire.arrange = block.arrange :=
  calc
    block.wire.arrange = block.wire.unlinked := block.ordered_wire.arrange_eq
    _ = block.arrange := block.wire_unlinked

/-- The items of a wired block, with whatever links, are wired to that block. -/
theorem wire_eq_of_unlinked_eq (same : relinked.unlinked = block.wire.unlinked) :
    relinked.wire = block.wire := by
  have arranged : relinked.arrange = block.arrange := by
    rw [arrange_eq_of_unlinked_eq same, arrange_wire]
  rw [wire, arranged, wire]

/-- The blocks that wiring leaves as they are have their items in canonical order, and links
as wiring sets them without moving any item. -/
theorem wire_eq_self_iff :
    block.wire = block ↔ block.Ordered ∧ block.unlinked.linkItems.linkTransactions = block := by
  constructor
  · intro fixed
    have ordered : block.Ordered := fixed ▸ block.ordered_wire
    refine ⟨ordered, ?_⟩
    rw [← ordered.arrange_eq]
    exact fixed
  · rintro ⟨ordered, linked⟩
    rw [wire, ordered.arrange_eq, linked]

/-- Wiring is idempotent on every block, and so is wiring in passes: what has been wired is
wired to itself, with the links that it has or with any others. -/
theorem wire_wire (block : Block) :
    block.wire.wire = block.wire ∧
      block.wireInPasses?.bind wireInPasses? = block.wireInPasses? ∧
      ∀ relinked : Block, relinked.unlinked = block.wire.unlinked →
        relinked.wire = block.wire := by
  have again : block.wire.wire = block.wire := wire_eq_of_unlinked_eq rfl
  refine ⟨again, ?_, fun relinked => wire_eq_of_unlinked_eq⟩
  rw [wireInPasses?_eq, Option.bind_some, wireInPasses?_eq, again]

/-- A block with repeated indexes and places, without the frames between, and with links to
what is not there. -/
def repeatedBlock : Block where
  header := .bare 7 (.zero 32) (.zero 32)
  transactions := [{ Transaction.bare 4 with logs := [9, 9] }, .bare 1, .bare 4]
  logs := [{ Log.bare 3 4 with transaction := some 5 }, .bare 3 2, .bare 0 4]
  traces :=
    [ { Trace.bare 4 [0, 1] (callOf none) with parent := some 2, children := [0, 8] },
      .bare 4 [] (callOf (some (.zero 20))), .bare 4 [0, 1, 0] (.suicide ⟨none, none, none⟩),
      .bare 4 [] (callOf none) ]
  stateDiffs := []

/-- The wired block without its links. -/
def unlinkedBlock : Block :=
  repeatedBlock.wire.unlinked

/-- Items go to the last of two transactions, and frames to the last of two at one place. -/
theorem wire_wire_repeatedBlock :
    repeatedBlock.wire.wire = repeatedBlock.wire ∧
      unlinkedBlock.unlinked = repeatedBlock.wire.unlinked ∧
      unlinkedBlock.wire = repeatedBlock.wire ∧
      repeatedBlock.wire.transactions.map
          (fun transaction => (transaction.transactionIndex, transaction.logs)) =
        [(1, []), (4, []), (4, [0, 1])] ∧
      repeatedBlock.wire.traces.map
          (fun trace => (trace.place, trace.transaction, trace.parent, trace.children)) =
        [ ((4, []), some 2, none, []), ((4, []), some 2, none, [2, 3]),
          ((4, [0, 1]), some 2, none, [3]), ((4, [0, 1, 0]), some 2, some 2, []) ] := by
  obtain ⟨again, -, relinks⟩ := wire_wire repeatedBlock
  have same : unlinkedBlock.unlinked = repeatedBlock.wire.unlinked := by cbv
  exact ⟨again, same, relinks unlinkedBlock same, by cbv, by cbv⟩

end Block

end ChainFeed
