import ChainFeed.Proofs.TraceLinks

/-!
# Theory of wiring

Wiring only moves items and sets their links: up to links, a wired block holds
the items of the block in canonical order, and items that are tied stay in the
order in which they were given.  The links depend on indexes and places alone.
-/

namespace ChainFeed

/-! ## Stable sorting -/

section Sorting

variable {α : Type} {le : α → α → Bool}

/-- Sorting does not change the order of items that are tied with one another. -/
theorem filter_mergeSort
    (trans : ∀ first second third : α, le first second = true → le second third = true →
      le first third = true)
    (total : ∀ left right : α, (le left right || le right left) = true) (items : List α)
    {property : α → Bool}
    (tied : ∀ left right, property left = true → property right = true → le left right = true) :
    (items.mergeSort le).filter property = items.filter property := by
  have ordered : (items.filter property).Pairwise fun left right => le left right = true := by
    apply List.pairwise_of_forall_mem_list
    intro left leftMember right rightMember
    exact tied left right (List.mem_filter.mp leftMember).2 (List.mem_filter.mp rightMember).2
  have kept := (List.sublist_mergeSort trans total ordered List.filter_sublist).filter property
  simp only [List.filter_filter, Bool.and_self] at kept
  have sameLength := ((List.mergeSort_perm items le).filter property).length_eq
  exact (kept.eq_of_length sameLength.symm).symm

/-- Order by an index is transitive, in the form that sorting asks for. -/
theorem index_le_trans {index : α → UInt32} (first second third : α) :
    decide (index first ≤ index second) = true → decide (index second ≤ index third) = true →
      decide (index first ≤ index third) = true := by
  simpa only [decide_eq_true_eq] using UInt32.le_trans

/-- Order by an index is total, in the form that sorting asks for. -/
theorem index_le_total {index : α → UInt32} (left right : α) :
    (decide (index left ≤ index right) || decide (index right ≤ index left)) = true := by
  simpa only [Bool.or_eq_true, decide_eq_true_eq] using UInt32.le_total _ _

end Sorting

namespace Block

variable (block : Block)

/-! ## Canonical order -/

theorem arrange_traces_perm :
    block.arrange.traces.Perm (block.traces.map Trace.unlinked) :=
  List.mergeSort_perm _ _

theorem arrange_traces_ordered : block.arrange.traces.Pairwise Trace.Precedes := by
  have ordered : block.arrange.traces.Pairwise fun left right =>
      (left.order right).isLE = true :=
    List.pairwise_mergeSort Trace.isLE_order_trans Trace.isLE_order_total _
  simp only [Trace.order_isLE_iff] at ordered
  exact ordered

/-- Traces at the same place stay in the order in which they were given. -/
theorem arrange_traces_stable (place : UInt32 × List UInt32) :
    block.arrange.traces.filter (·.place == place) =
      (block.traces.map Trace.unlinked).filter (·.place == place) := by
  apply filter_mergeSort Trace.isLE_order_trans Trace.isLE_order_total
  intro left right leftPlace rightPlace
  rw [beq_iff_eq] at leftPlace rightPlace
  exact Trace.order_isLE_iff.mpr (Trace.Precedes.of_place_eq (leftPlace.trans rightPlace.symm))

/-! ## Wired traces -/

/-- A wired trace is one of the traces in canonical order with its links set. -/
theorem getElem?_wire_traces (position : Nat) :
    block.wire.traces[position]? =
      block.arrange.traces[position]?.map fun trace =>
        { trace with
          transaction :=
            Transaction.position? block.arrange.transactions trace.transactionIndex
          parent := lastPositionWhere? (·.isParentOf trace) block.arrange.traces
          children :=
            List.range' (position + 1)
              (Trace.scanLength block.arrange.traces position trace) } := by
  change ((Trace.linkTree block.arrange.traces).map _)[position]? = _
  rw [List.getElem?_map, Trace.getElem?_linkTree block.arrange_traces_ordered, Option.map_map]
  rfl

theorem unlinked_of_mem_arrange_traces {trace : Trace} (member : trace ∈ block.arrange.traces) :
    trace.unlinked = trace := by
  obtain ⟨source, _, rfl⟩ := List.mem_map.mp (block.arrange_traces_perm.subset member)
  rfl

/-- Up to links, the wired traces are the traces in canonical order. -/
theorem wire_traces_unlinked : block.wire.traces.map Trace.unlinked = block.arrange.traces := by
  apply List.ext_getElem?
  intro position
  rw [List.getElem?_map, getElem?_wire_traces]
  cases found : block.arrange.traces[position]? with
  | none => rfl
  | some trace =>
      exact congrArg some (block.unlinked_of_mem_arrange_traces (List.mem_of_getElem? found))

/-- Positions of traces with a property that does not depend on links. -/
theorem positionsWhere_wire_traces (property : Trace → Bool)
    (ignoresLinks : ∀ trace : Trace, property trace.unlinked = property trace) :
    positionsWhere property block.wire.traces = positionsWhere property block.arrange.traces := by
  rw [← wire_traces_unlinked, positionsWhere_map]
  exact congrArg (positionsWhere · block.wire.traces) (funext ignoresLinks).symm

theorem lastPositionWhere?_wire_traces (property : Trace → Bool)
    (ignoresLinks : ∀ trace : Trace, property trace.unlinked = property trace) :
    lastPositionWhere? property block.wire.traces =
      lastPositionWhere? property block.arrange.traces := by
  rw [lastPositionWhere?, positionsWhere_wire_traces block property ignoresLinks,
    lastPositionWhere?]

theorem wire_traces_ordered : block.wire.traces.Pairwise Trace.Precedes := by
  have ordered := block.arrange_traces_ordered
  rw [← wire_traces_unlinked, List.pairwise_map] at ordered
  exact ordered

end Block

/-- What wiring makes of the traces of a block. -/
structure WiredTraces (sources traces : List Trace) : Prop where
  /-- Nothing but the order and the links changes. -/
  perm : (traces.map Trace.unlinked).Perm (sources.map Trace.unlinked)
  ordered : traces.Pairwise Trace.Precedes
  /-- Traces at the same place keep their order. -/
  stable : ∀ place : UInt32 × List UInt32,
    (traces.filter (·.place == place)).map Trace.unlinked =
      (sources.filter (·.place == place)).map Trace.unlinked
  /-- The last trace at a place has all frames below it, which follow it. -/
  children_of_last : ∀ (position : Nat) (trace : Trace), traces[position]? = some trace →
    lastPositionWhere? (·.place == trace.place) traces = some position →
      trace.children = positionsWhere trace.isAncestorOf traces ∧
        trace.children = List.range' (position + 1) trace.children.length
  /-- Any other trace at that place has none. -/
  children_of_earlier : ∀ (position : Nat) (trace : Trace), traces[position]? = some trace →
    lastPositionWhere? (·.place == trace.place) traces ≠ some position → trace.children = []
  /-- The parent is the last trace at the place one number shorter. -/
  parent : ∀ trace ∈ traces, trace.parent = lastPositionWhere? (·.isParentOf trace) traces
  /-- If no two traces stand at the same place, each has exactly the frames below it. -/
  children_of_distinct : (sources.map Trace.place).Nodup →
    ∀ trace ∈ traces, trace.children = positionsWhere trace.isAncestorOf traces

namespace Block

variable (block : Block) {position : Nat} {trace : Trace}

theorem wire_traces_children_of_last (found : block.wire.traces[position]? = some trace)
    (last : lastPositionWhere? (·.place == trace.place) block.wire.traces = some position) :
    trace.children = positionsWhere trace.isAncestorOf block.wire.traces ∧
      trace.children = List.range' (position + 1) trace.children.length := by
  rw [lastPositionWhere?_wire_traces block _ fun _ => rfl] at last
  rw [positionsWhere_wire_traces block _ fun _ => rfl]
  rw [getElem?_wire_traces, Option.map_eq_some_iff] at found
  obtain ⟨source, foundSource, rfl⟩ := found
  refine ⟨?_, by simp⟩
  apply Trace.range'_scanLength block.arrange_traces_ordered foundSource
  intro later item after foundItem samePlace
  have atMost := (lastPositionWhere?_eq_some_iff.mp last).2 later item foundItem
    (beq_iff_eq.mpr samePlace.symm)
  omega

theorem wire_traces_children_of_earlier (found : block.wire.traces[position]? = some trace)
    (earlier : lastPositionWhere? (·.place == trace.place) block.wire.traces ≠ some position) :
    trace.children = [] := by
  rw [lastPositionWhere?_wire_traces block _ fun _ => rfl] at earlier
  rw [getElem?_wire_traces, Option.map_eq_some_iff] at found
  obtain ⟨source, foundSource, rfl⟩ := found
  obtain ⟨later, item, foundItem, samePlace, after⟩ :
      ∃ (later : Nat) (item : Trace), block.arrange.traces[later]? = some item ∧
        source.place = item.place ∧ position < later := by
    by_contra none
    apply earlier
    rw [lastPositionWhere?_eq_some_iff]
    refine ⟨⟨source, foundSource, beq_self_eq_true _⟩, ?_⟩
    intro later item foundItem samePlace
    by_contra after
    exact none ⟨later, item, foundItem, (beq_iff_eq.mp samePlace).symm, Nat.not_le.mp after⟩
  have stops := Trace.scanLength_eq_zero block.arrange_traces_ordered foundItem after samePlace
  simp [stops]

theorem wire_traces_parent (member : trace ∈ block.wire.traces) :
    trace.parent = lastPositionWhere? (·.isParentOf trace) block.wire.traces := by
  rw [lastPositionWhere?_wire_traces block _ fun _ => rfl]
  obtain ⟨position, found⟩ := List.getElem?_of_mem member
  rw [getElem?_wire_traces, Option.map_eq_some_iff] at found
  obtain ⟨source, _, rfl⟩ := found
  rfl

/-- Wiring leaves the places of the traces as they are. -/
theorem wire_traces_places :
    (block.wire.traces.map Trace.place).Perm (block.traces.map Trace.place) := by
  have places := block.arrange_traces_perm.map Trace.place
  rw [← wire_traces_unlinked, List.map_map, List.map_map] at places
  exact places

/-- If no two traces stand at the same place, every trace is the last one at its
place. -/
theorem wire_traces_children_of_distinct (distinct : (block.traces.map Trace.place).Nodup)
    (member : trace ∈ block.wire.traces) :
    trace.children = positionsWhere trace.isAncestorOf block.wire.traces := by
  obtain ⟨position, found⟩ := List.getElem?_of_mem member
  have wiredDistinct := (block.wire_traces_places.nodup_iff).mpr distinct
  refine (block.wire_traces_children_of_last found ?_).1
  rw [lastPositionWhere?_eq_some_iff_of_nodup_map wiredDistinct]
  · exact ⟨trace, found, beq_self_eq_true trace.place⟩
  · intro left right leftPlace rightPlace
    rw [beq_iff_eq] at leftPlace rightPlace
    exact leftPlace.trans rightPlace.symm

/-- Whatever traces a block has, and whatever links they had, wiring orders them
stably and links every trace to its parent and to the frames below it. -/
theorem wiredTraces_wire (block : Block) : WiredTraces block.traces block.wire.traces where
  perm := by
    rw [wire_traces_unlinked]
    exact block.arrange_traces_perm
  ordered := block.wire_traces_ordered
  stable place := by
    have stable := block.arrange_traces_stable place
    rw [← wire_traces_unlinked, List.filter_map, List.filter_map] at stable
    exact stable
  children_of_last _ _ := block.wire_traces_children_of_last
  children_of_earlier _ _ := block.wire_traces_children_of_earlier
  parent _ := block.wire_traces_parent
  children_of_distinct distinct _ := block.wire_traces_children_of_distinct distinct

end Block

end ChainFeed
