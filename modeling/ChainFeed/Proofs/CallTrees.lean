import ChainFeed.Proofs.CallTreePaths
import ChainFeed.Proofs.Composition
import ChainFeed.Proofs.KeyedLinks
import Mathlib

/-!
# Call trees through projection and wiring

Projection flattens call trees to traces, and wiring finds the trees again: there is one
trace for each frame, linked to the trace of the frame that called it and to those of all
frames below.  The traces come in canonical order already.
-/

namespace ChainFeed

/-- A call becomes a trace of the kind of its type, if its type has one. -/
theorem TraceData.kind_ofCall (fields : TraceFields) (call : Raw.Call) :
    (ofCall fields call).toOption.map kind = TraceKind.ofCallType? call.type := by
  unfold ofCall
  split
  case h_9 =>
    unfold TraceKind.ofCallType?
    split <;> first | rfl | contradiction
  all_goals
    rename_i isType
    rw [isType]
    rfl

namespace Trace

theorem exists_ofVisit {fields : TraceFields} {index : UInt32} {visit : Raw.CallTree.Visit}
    (known : (TraceKind.ofCallType? visit.call.type).isSome) :
    ∃ trace, ofVisit fields index visit = .ok trace := by
  rw [← TraceData.kind_ofCall fields, Option.isSome_map] at known
  unfold ofVisit
  cases outcome : TraceData.ofCall fields visit.call with
  | error fault =>
      rw [outcome] at known
      cases known
  | ok data => exact ⟨_, rfl⟩

/-- What the trace of a call says about its place, its kind and its sub-calls. -/
theorem ofVisit_eq_ok {fields : TraceFields} {index : UInt32} {visit : Raw.CallTree.Visit}
    {trace : Trace} (run : ofVisit fields index visit = .ok trace) :
    trace.place = (index, visit.path) ∧
      TraceKind.ofCallType? visit.call.type = some trace.kind ∧
      trace.subtraces = shownAlways fields.subtraces (UInt32.ofNat visit.subCalls) ∧
      trace.unlinked = trace := by
  obtain ⟨data, dataRun, run⟩ := exists_of_bind_eq_ok run
  cases run
  refine ⟨rfl, ?_, rfl, rfl⟩
  rw [← TraceData.kind_ofCall fields, dataRun]
  rfl

end Trace

namespace Projection

open Raw (CallTree)

variable {trees : List (Option Raw.CallTreeResult)}

/-! ## Frames of several call trees -/

/-- Whether each call tree there is has a root that stops at once, or is regular. -/
def RegularTrees (trees : List (Option Raw.CallTreeResult)) : Prop :=
  ∀ tree, some tree ∈ trees →
    (tree.result.call.type = "STOP" ∧ tree.result.calls = []) ∨ tree.result.Regular

/-- The frame at a path in the call tree of a transaction. A root that stops at once is
none. -/
def frameAt? (trees : List (Option Raw.CallTreeResult)) (index : UInt32) (path : List UInt32) :
    Option CallTree :=
  trees[index.toNat]?.join.bind fun tree =>
    if tree.result.call.type = "STOP" then none else tree.result.at? path

theorem frameAt?_eq_some_iff {index : UInt32} {path : List UInt32} {frame : CallTree} :
    frameAt? trees index path = some frame ↔
      ∃ tree, trees[index.toNat]? = some (some tree) ∧ tree.result.call.type ≠ "STOP" ∧
        tree.result.at? path = some frame := by
  simp [frameAt?, Option.bind_eq_some_iff, Option.join_eq_some_iff]

theorem RegularTrees.regular (regular : RegularTrees trees) {tree : Raw.CallTreeResult}
    (member : some tree ∈ trees) (runs : tree.result.call.type ≠ "STOP") :
    tree.result.Regular :=
  (regular tree member).resolve_left fun idle => runs idle.1

/-- The frame of a path that another one extends. -/
theorem exists_frameAt?_of_append {index : UInt32} {path rest : List UInt32}
    {frame : CallTree} (found : frameAt? trees index (path ++ rest) = some frame) :
    ∃ upper, frameAt? trees index path = some upper ∧ upper.at? rest = some frame := by
  obtain ⟨tree, isTree, runs, found⟩ := frameAt?_eq_some_iff.mp found
  rw [CallTree.at?_append, Option.bind_eq_some_iff] at found
  obtain ⟨upper, isUpper, found⟩ := found
  exact ⟨upper, frameAt?_eq_some_iff.mpr ⟨tree, isTree, runs, isUpper⟩, found⟩

theorem frameAt?_append {index : UInt32} {path rest : List UInt32} {upper frame : CallTree}
    (isUpper : frameAt? trees index path = some upper) (found : upper.at? rest = some frame) :
    frameAt? trees index (path ++ rest) = some frame := by
  obtain ⟨tree, isTree, runs, isUpper⟩ := frameAt?_eq_some_iff.mp isUpper
  refine frameAt?_eq_some_iff.mpr ⟨tree, isTree, runs, ?_⟩
  rw [CallTree.at?_append, isUpper]
  exact found

theorem RegularTrees.frame (regular : RegularTrees trees) {index : UInt32} {path : List UInt32}
    {frame : CallTree} (found : frameAt? trees index path = some frame) : frame.Regular := by
  obtain ⟨tree, isTree, runs, found⟩ := frameAt?_eq_some_iff.mp found
  exact (regular.regular (List.mem_of_getElem? isTree) runs).at? found

/-! ## Visits of several call trees -/

theorem mem_shownVisits {tree : CallTree} {visited : CallTree.Visit}
    (regular : tree.call.type ≠ "STOP" → tree.Regular) :
    visited ∈ shownVisits tree ↔
      tree.call.type ≠ "STOP" ∧
        ∃ path frame, tree.at? path = some frame ∧ visited = frame.visit path := by
  unfold shownVisits
  split
  · rename_i stops
    simp [stops]
  · rename_i runs
    simp [runs, CallTree.mem_visits (regular runs)]

/-- The calls that are visited are the frames of the trees. -/
theorem mem_visitsOf (regular : RegularTrees trees) (numbered : trees.length ≤ UInt32.size)
    {index : UInt32} {visited : CallTree.Visit} :
    (index, visited) ∈ visitsOf trees ↔
      ∃ frame, frameAt? trees index visited.path = some frame ∧
        visited = frame.visit visited.path := by
  simp only [visitsOf, List.mem_flatMap, List.mem_map, Option.mem_toList, Prod.exists,
    List.mem_zipIdx_iff_getElem?, Prod.mk.injEq]
  constructor
  · rintro ⟨_, position, isSlot, other, ⟨tree, rfl, member⟩, rfl, rfl⟩
    have inBounds := (List.getElem?_eq_some_iff.mp isSlot).1
    obtain ⟨runs, path, frame, found, rfl⟩ :=
      (mem_shownVisits (regular.regular (List.mem_of_getElem? isSlot))).mp member
    refine ⟨frame, frameAt?_eq_some_iff.mpr ⟨tree, ?_, runs, found⟩, rfl⟩
    rw [UInt32.toNat_ofNat_of_lt' (Nat.lt_of_lt_of_le inBounds numbered)]
    exact isSlot
  · rintro ⟨frame, found, same⟩
    obtain ⟨tree, isTree, runs, found⟩ := frameAt?_eq_some_iff.mp found
    refine ⟨some tree, index.toNat, isTree, visited, ⟨tree, rfl, ?_⟩, UInt32.ofNat_toNat, rfl⟩
    exact (mem_shownVisits (regular.regular (List.mem_of_getElem? isTree))).mpr
      ⟨runs, visited.path, frame, found, same⟩

theorem shownVisits_ascending {tree : CallTree}
    (regular : tree.call.type ≠ "STOP" → tree.Regular) :
    (shownVisits tree).Pairwise fun left right => left.path < right.path := by
  unfold shownVisits
  split
  · exact .nil
  · rename_i runs
    exact CallTree.visits_ascending (regular runs) []

/-- Calls are visited in strictly ascending order of their places. -/
theorem visitsOf_ascending (regular : RegularTrees trees)
    (numbered : trees.length ≤ UInt32.size) :
    (visitsOf trees).Pairwise fun left right =>
      Prod.Lex (· < ·) (· < ·) (left.1, left.2.path) (right.1, right.2.path) := by
  rw [visitsOf, List.pairwise_flatMap]
  constructor
  · rintro ⟨slot, position⟩ isEntry
    rw [List.pairwise_map]
    cases slot with
    | none => exact .nil
    | some tree =>
        have ascending :=
          shownVisits_ascending (regular.regular (List.fst_mem_of_mem_zipIdx isEntry))
        simpa [Prod.lex_def] using ascending
  · refine (zipIdx_ascending trees).imp_of_mem ?_
    rintro ⟨slot, position⟩ ⟨laterSlot, laterPosition⟩ - isLater earlier left isLeft right isRight
    obtain ⟨visited, -, rfl⟩ := List.mem_map.mp isLeft
    obtain ⟨laterVisited, -, rfl⟩ := List.mem_map.mp isRight
    rw [List.mem_zipIdx_iff_getElem?] at isLater
    have inBounds := (List.getElem?_eq_some_iff.mp isLater).1
    exact .left _ _ (ofNat_lt_ofNat earlier (Nat.lt_of_lt_of_le inBounds numbered))

/-! ## Traces of several call trees -/

/-- Regular call trees have traces. -/
theorem exists_ofCallTrees (regular : RegularTrees trees) (fields : TraceFields) :
    ∃ traces, ofCallTrees fields trees = .ok traces := by
  refine exists_bind_eq_ok (exists_mapM_eq_ok ?_) fun lists => ⟨lists.flatten, rfl⟩
  rintro ⟨_ | tree, position⟩ isEntry
  · exact ⟨[], rfl⟩
  · dsimp only
    unfold Trace.ofCallTree
    rcases regular tree (List.fst_mem_of_mem_zipIdx isEntry) with ⟨stops, noCalls⟩ | runs
    · exact ⟨[], by simp [stops, noCalls]⟩
    · rw [if_neg runs.runs]
      apply exists_mapM_eq_ok
      intro visit member
      obtain ⟨path, frame, found, rfl⟩ := (CallTree.mem_visits runs).mp member
      exact Trace.exists_ofVisit (runs.at? found).known

/-- Whether places are those of all frames of call trees, in canonical order. -/
structure ArePlacesOf (trees : List (Option Raw.CallTreeResult))
    (places : List (UInt32 × List UInt32)) : Prop where
  ascending : places.Pairwise (Prod.Lex (· < ·) (· < ·))
  mem_iff : ∀ index path,
    (index, path) ∈ places ↔ ∃ frame, frameAt? trees index path = some frame

theorem arePlacesOf_visits (regular : RegularTrees trees) (numbered : trees.length ≤ UInt32.size) :
    ArePlacesOf trees ((visitsOf trees).map fun entry => (entry.1, entry.2.path)) where
  ascending := by
    rw [List.pairwise_map]
    exact visitsOf_ascending regular numbered
  mem_iff index path := by
    simp only [List.mem_map, Prod.exists, mem_visitsOf regular numbered, Prod.mk.injEq]
    constructor
    · rintro ⟨_, visited, ⟨frame, found, -⟩, rfl, rfl⟩
      exact ⟨frame, found⟩
    · rintro ⟨frame, found⟩
      exact ⟨index, frame.visit path, ⟨frame, found, rfl⟩, rfl, rfl⟩

theorem places_of_shown {fields : TraceFields} {traces : List Trace}
    (shown : ShowVisits fields (visitsOf trees) traces) :
    traces.map Trace.place = (visitsOf trees).map fun entry => (entry.1, entry.2.path) := by
  apply map_eq_of_forall₂ shown
  intro entry trace run
  exact (Trace.ofVisit_eq_ok run).1

namespace ArePlacesOf

variable {traces : List Trace}

theorem nodup {places : List (UInt32 × List UInt32)} (arePlaces : ArePlacesOf trees places) :
    places.Nodup := by
  refine arePlaces.ascending.imp ?_
  rintro left _ before rfl
  exact irrefl left before

theorem ordered (arePlaces : ArePlacesOf trees (traces.map Trace.place)) :
    traces.Pairwise Trace.Precedes := by
  refine (List.pairwise_map.mp arePlaces.ascending).imp ?_
  intro left right before
  rcases Prod.lex_def.mp before with below | ⟨same, earlier⟩
  · exact .inl below
  · exact .inr ⟨same, List.le_of_lt earlier⟩

/-- The trace of a frame. -/
theorem exists_trace (arePlaces : ArePlacesOf trees (traces.map Trace.place)) {index : UInt32}
    {path : List UInt32} {frame : CallTree} (found : frameAt? trees index path = some frame) :
    ∃ (position : Nat) (trace : Trace),
      traces[position]? = some trace ∧ trace.place = (index, path) := by
  obtain ⟨trace, member, isPlace⟩ := List.mem_map.mp ((arePlaces.mem_iff _ _).mpr ⟨_, found⟩)
  obtain ⟨position, atPosition⟩ := List.getElem?_of_mem member
  exact ⟨position, trace, atPosition, isPlace⟩

/-- The traces below that of a frame stand at the places that are visited after the frame
itself. -/
theorem places_below (arePlaces : ArePlacesOf trees (traces.map Trace.place))
    (regular : RegularTrees trees) {trace : Trace} {frame : CallTree}
    (found : frameAt? trees trace.transactionIndex trace.traceAddress = some frame) :
    (traces.filter trace.isAncestorOf).map Trace.place =
      (frame.visits trace.traceAddress).tail.map fun below =>
        (trace.transactionIndex, below.path) := by
  have frameRegular := regular.frame found
  have ascending : ((traces.filter trace.isAncestorOf).map Trace.place).Pairwise
      (Prod.Lex (· < ·) (· < ·)) :=
    arePlaces.ascending.sublist (List.filter_sublist.map Trace.place)
  have visitedAscending : ((frame.visits trace.traceAddress).tail.map fun below =>
      (trace.transactionIndex, below.path)).Pairwise (Prod.Lex (· < ·) (· < ·)) := by
    rw [List.pairwise_map]
    refine (CallTree.visits_ascending frameRegular trace.traceAddress).tail.imp ?_
    intro left right before
    exact .right _ before
  -- Both lists ascend strictly, so they are equal if they hold the same places.
  apply ascending.eq_of_mem_iff visitedAscending
  rintro ⟨index, path⟩
  simp only [List.mem_map, List.mem_filter, CallTree.mem_tail_visits frameRegular]
  constructor
  · rintro ⟨lower, ⟨member, above⟩, isPlace⟩
    obtain ⟨same, shorter, below, extended⟩ := Trace.isAncestorOf_iff.mp above
    have lowerPlace : lower.place ∈ traces.map Trace.place := List.mem_map_of_mem member
    obtain ⟨lowerFrame, lowerFound⟩ := (arePlaces.mem_iff _ _).mp lowerPlace
    rw [← extended, ← same] at lowerFound
    obtain ⟨upper, isUpper, lowerAt⟩ := exists_frameAt?_of_append lowerFound
    rw [found] at isUpper
    cases isUpper
    refine ⟨_, ⟨below, lowerFrame, ?_, lowerAt, rfl⟩, ?_⟩
    · rintro rfl
      rw [← extended, List.append_nil] at shorter
      exact absurd shorter (Nat.lt_irrefl _)
    · rw [← isPlace, CallTree.visit, extended, same]
      rfl
  · rintro ⟨_, ⟨below, lowerFrame, nonempty, lowerAt, rfl⟩, isPlace⟩
    cases isPlace
    obtain ⟨position, lower, atPosition, isPlace⟩ :=
      arePlaces.exists_trace (frameAt?_append found lowerAt)
    refine ⟨lower, ⟨List.mem_of_getElem? atPosition, ?_⟩, isPlace⟩
    obtain ⟨sameIndex, samePath⟩ := Prod.mk.inj isPlace
    refine Trace.isAncestorOf_iff.mpr ⟨sameIndex.symm, ?_, ?_⟩
    · rw [samePath, List.length_append]
      have := List.length_pos_iff.mpr nonempty
      omega
    · rw [samePath]
      exact List.prefix_append _ _

end ArePlacesOf

end Projection

/-! ## Wired traces of call trees -/

namespace Block

open Raw (CallTree)
open Projection

variable {block : Block} {fields : TraceFields} {trees : List (Option Raw.CallTreeResult)}

/-- How the trace of a frame shows it and is linked as it is. -/
structure ShowsFrame (fields : TraceFields) (block : Block) (trace : Trace) (frame : CallTree) :
    Prop where
  shown : Trace.ofVisit fields trace.transactionIndex (frame.visit trace.traceAddress) =
    .ok trace.unlinked
  kind : TraceKind.ofCallType? frame.call.type = some trace.kind
  /-- The number of calls that the frame made itself. -/
  subtraces : trace.subtraces.map UInt32.toNat = shownAlways fields.subtraces frame.calls.length
  root : trace.traceAddress = [] → trace.parent = none
  parent : trace.traceAddress ≠ [] →
    (block.traceParent? trace).map Trace.place =
      some (trace.transactionIndex, trace.traceAddress.dropLast)
  /-- The frames strictly below, in depth-first order. -/
  children : trace.children.map (fun position => block.traces[position]?.map Trace.place) =
    (frame.visits trace.traceAddress).tail.map fun below =>
      some (trace.transactionIndex, below.path)

/-- Whether the traces of a block are those of the frames of call trees, one for each. -/
structure MirrorsTrees (fields : TraceFields) (trees : List (Option Raw.CallTreeResult))
    (block : Block) : Prop where
  unique : ∀ index path, (frameAt? trees index path).isSome →
    ∃! position : Nat, block.traces[position]?.map Trace.place = some (index, path)
  frame : ∀ trace ∈ block.traces, ∃ frame,
    frameAt? trees trace.transactionIndex trace.traceAddress = some frame ∧
      ShowsFrame fields block trace frame

/-- Traces that are in canonical order and without links stay as they are. -/
theorem arrange_traces_eq (ordered : block.traces.Pairwise Trace.Precedes)
    (unlinked : ∀ trace ∈ block.traces, trace.unlinked = trace) :
    block.arrange.traces = block.traces := by
  have same : block.traces.map Trace.unlinked = block.traces := by
    rw [List.map_congr_left unlinked, List.map_id']
  rw [arrange, same]
  apply List.mergeSort_of_pairwise
  simpa only [Trace.order_isLE_iff] using ordered

/-- The parent of a trace at a place that extends another one. -/
theorem traceParent?_wire (arePlaces : ArePlacesOf trees (block.wire.traces.map Trace.place))
    {trace : Trace} (member : trace ∈ block.wire.traces) (below : trace.traceAddress ≠ [])
    {frame : CallTree}
    (found : frameAt? trees trace.transactionIndex trace.traceAddress = some frame) :
    (block.wire.traceParent? trace).map Trace.place =
      some (trace.transactionIndex, trace.traceAddress.dropLast) := by
  rw [← List.dropLast_concat_getLast below] at found
  obtain ⟨upperFrame, isUpper, -⟩ := exists_frameAt?_of_append found
  obtain ⟨position, upper, atPosition, isPlace⟩ := arePlaces.exists_trace isUpper
  obtain ⟨sameIndex, samePath⟩ := Prod.mk.inj isPlace
  have isParent : upper.isParentOf trace = true := by
    refine Trace.isParentOf_iff.mpr ⟨sameIndex, trace.traceAddress.getLast below, ?_⟩
    rw [samePath, List.dropLast_concat_getLast]
  have linked : trace.parent = some position := by
    rw [block.wire_traces_parent member]
    exact (parent_eq_some_iff arePlaces.nodup).mpr ⟨upper, atPosition, isParent⟩
  rw [traceParent?, linked, Option.bind_some, atPosition, Option.map_some, isPlace]

theorem parent_wire_root {trace : Trace} (member : trace ∈ block.wire.traces)
    (root : trace.traceAddress = []) : trace.parent = none := by
  rw [block.wire_traces_parent member, lastPositionWhere?_eq_none_iff]
  intro upper _
  simp [Trace.isParentOf, root]

/-- The children of a trace stand at the places below it. -/
theorem map_children_wire (arePlaces : ArePlacesOf trees (block.wire.traces.map Trace.place))
    (regular : RegularTrees trees) {trace : Trace} (member : trace ∈ block.wire.traces)
    {frame : CallTree}
    (found : frameAt? trees trace.transactionIndex trace.traceAddress = some frame) :
    trace.children.map (fun position => block.wire.traces[position]?.map Trace.place) =
      (frame.visits trace.traceAddress).tail.map fun below =>
        some (trace.transactionIndex, below.path) := by
  have distinct := block.wire_traces_places.nodup_iff.mp arePlaces.nodup
  calc trace.children.map (fun position => block.wire.traces[position]?.map Trace.place)
      = ((positionsWhere trace.isAncestorOf block.wire.traces).map
          (block.wire.traces[·]?)).map (Option.map Trace.place) := by
        rw [block.wire_traces_children_of_distinct distinct member, List.map_map]
        rfl
    _ = ((block.wire.traces.filter trace.isAncestorOf).map Trace.place).map some := by
        rw [map_getElem?_positionsWhere, List.map_map, List.map_map]
        rfl
    _ = ((frame.visits trace.traceAddress).tail.map fun below =>
          (trace.transactionIndex, below.path)).map some := by
        rw [arePlaces.places_below regular found]
    _ = _ := List.map_map ..

/-- A frame has one trace only. -/
theorem existsUnique_wire (arePlaces : ArePlacesOf trees (block.wire.traces.map Trace.place))
    {index : UInt32} {path : List UInt32} {frame : CallTree}
    (found : frameAt? trees index path = some frame) :
    ∃! position : Nat, block.wire.traces[position]?.map Trace.place = some (index, path) := by
  obtain ⟨position, trace, atPosition, isPlace⟩ := arePlaces.exists_trace found
  refine ⟨position, Option.map_eq_some_iff.mpr ⟨trace, atPosition, isPlace⟩, ?_⟩
  intro other otherPlace
  obtain ⟨otherTrace, atOther, otherIsPlace⟩ := Option.map_eq_some_iff.mp otherPlace
  exact position_eq_of_nodup_map arePlaces.nodup atOther atPosition
    (otherIsPlace.trans isPlace.symm)

/-- Wiring does not move the traces of the calls that are visited. -/
theorem wire_traces_of_shown (regular : RegularTrees trees)
    (numbered : trees.length ≤ UInt32.size)
    (shown : ShowVisits fields (visitsOf trees) block.traces) :
    block.traces.Pairwise Trace.Precedes ∧ block.wire.traces.map Trace.unlinked = block.traces ∧
      ArePlacesOf trees (block.wire.traces.map Trace.place) := by
  have arePlaces : ArePlacesOf trees (block.traces.map Trace.place) := by
    rw [places_of_shown shown]
    exact arePlacesOf_visits regular numbered
  have unmoved : block.wire.traces.map Trace.unlinked = block.traces := by
    rw [wire_traces_unlinked]
    apply arrange_traces_eq arePlaces.ordered
    intro trace member
    obtain ⟨entry, -, run⟩ := exists_mem_of_forall₂ shown member
    exact (Trace.ofVisit_eq_ok run).2.2.2
  refine ⟨arePlaces.ordered, unmoved, ?_⟩
  rw [← unmoved, List.map_map] at arePlaces
  exact arePlaces

/-- Wiring finds the trees again from the traces of the calls that are visited. -/
theorem mirrorsTrees_wire (regular : RegularTrees trees) (numbered : trees.length ≤ UInt32.size)
    (shown : ShowVisits fields (visitsOf trees) block.traces) :
    block.wire.MirrorsTrees fields trees := by
  obtain ⟨-, unmoved, arePlaces⟩ := wire_traces_of_shown regular numbered shown
  constructor
  · intro index path there
    obtain ⟨frame, found⟩ := Option.isSome_iff_exists.mp there
    exact existsUnique_wire arePlaces found
  · intro trace member
    have source : trace.unlinked ∈ block.traces := by
      rw [← unmoved]
      exact List.mem_map_of_mem member
    obtain ⟨⟨index, visit⟩, visited, run⟩ := exists_mem_of_forall₂ shown source
    obtain ⟨isPlace, kind, subtraces, -⟩ := Trace.ofVisit_eq_ok run
    obtain ⟨frame, found, isVisit⟩ := (mem_visitsOf regular numbered).mp visited
    obtain ⟨rfl, samePath⟩ : trace.transactionIndex = index ∧ trace.traceAddress = visit.path :=
      Prod.mk.inj isPlace
    rw [← samePath] at found isVisit
    subst isVisit
    refine ⟨frame, found, ?_⟩
    constructor
    · exact run
    · exact kind
    · have counted : trace.subtraces =
          shownAlways fields.subtraces (UInt32.ofNat frame.calls.length) := subtraces
      have small := (regular.frame found).numbered
      rw [counted]
      cases fields.subtraces <;> simp [shownAlways, UInt32.toNat_ofNat_of_lt' small]
    · exact parent_wire_root member
    · exact fun below => traceParent?_wire arePlaces member below found
    · exact map_children_wire arePlaces regular member found

end Block

/-! ## Fetched blocks with call trees -/

namespace FetchedBlock

variable {fetched : FetchedBlock} {trees : List (Option Raw.CallTreeResult)}

/-- The fetched block with no call trees. -/
def withoutCallTrees (fetched : FetchedBlock) : FetchedBlock :=
  { fetched with data := { fetched.data with callTrees := none } }

/-- Regular call trees add traces to a block without traces, and nothing else. -/
theorem exists_tracesAndStateDiffs {fields : TraceFields}
    (debugged : fetched.data.callTrees = some trees) (regular : Projection.RegularTrees trees)
    {stateDiffs : List StateDiff}
    (run : Projection.tracesAndStateDiffs fields fetched.withoutCallTrees =
      .ok ([], stateDiffs)) :
    ∃ traces, Projection.tracesAndStateDiffs fields fetched = .ok (traces, stateDiffs) := by
  rw [Projection.tracesAndStateDiffs_eq] at run ⊢
  obtain ⟨replayed, replaysRun, run⟩ := exists_of_bind_eq_ok run
  obtain ⟨replayTraces, unchanged, run⟩ := exists_of_bind_eq_ok run
  obtain ⟨diffs, diffsRun, run⟩ := exists_of_bind_eq_ok run
  cases run
  have noFrames : replayed.flatMap Prod.fst = [] := Except.ok.inj unchanged
  obtain ⟨traces, tracesRun⟩ := Projection.exists_ofCallTrees regular fields
  refine ⟨traces, bind_eq_ok replaysRun (bind_eq_ok ?_ (bind_eq_ok diffsRun rfl))⟩
  rw [Projection.withCallTrees, debugged, noFrames]
  exact tracesRun

/-- The traces of a block are those of the calls that are visited. -/
theorem shown_of_project {demand : Demand} (debugged : fetched.data.callTrees = some trees)
    {block : Block} (projected : fetched.project demand = .ok block) :
    Projection.ShowVisits demand.fields.trace (Projection.visitsOf trees) block.traces := by
  obtain ⟨items, itemsRun, projected⟩ := exists_of_bind_eq_ok projected
  obtain ⟨frames, framesRun, projected⟩ := exists_of_bind_eq_ok projected
  cases projected
  obtain ⟨indexed, -, -, composed, -⟩ := Projection.framesComposed framesRun
  rw [debugged] at composed
  cases composed with
  | ofCallTrees noFrames shown indexes => exact shown

/-- Regular call trees never keep a block from being projected, and projection and wiring
recover them: there is one trace for each frame, linked as the frames are, and wiring
finds the traces in canonical order. Transactions are numbered in 32 bits. -/
theorem wire_project_callTrees {demand : Demand} (debugged : fetched.data.callTrees = some trees)
    (regular : Projection.RegularTrees trees) (numbered : trees.length ≤ UInt32.size) :
    (∀ other, fetched.withoutCallTrees.project demand = .ok other → other.traces = [] →
      ∃ traces, fetched.project demand = .ok { other with traces }) ∧
      ∀ block, fetched.project demand = .ok block →
        block.traces.Pairwise Trace.Precedes ∧
          block.wire.traces.map Trace.unlinked = block.traces ∧
          block.wire.MirrorsTrees demand.fields.trace trees := by
  constructor
  · intro other projected noTraces
    obtain ⟨items, itemsRun, projected⟩ := exists_of_bind_eq_ok projected
    obtain ⟨⟨otherTraces, stateDiffs⟩, framesRun, projected⟩ := exists_of_bind_eq_ok projected
    cases projected
    cases noTraces
    obtain ⟨traces, run⟩ := exists_tracesAndStateDiffs debugged regular framesRun
    exact ⟨traces, bind_eq_ok itemsRun (bind_eq_ok run rfl)⟩
  · intro block projected
    have shown := shown_of_project debugged projected
    obtain ⟨ordered, unmoved, -⟩ := Block.wire_traces_of_shown regular numbered shown
    exact ⟨ordered, unmoved, Block.mirrorsTrees_wire regular numbered shown⟩

/-- A call tree of which only the types of the calls are known. -/
def typedTree (type : String) (calls : List Raw.CallTree) : Raw.CallTree :=
  .node ⟨type, none, none, none, none, none, .empty, none, none, none⟩ calls

/-- A call that makes a call and a creation, which destroys a contract. -/
def nestedTree : Raw.CallTree :=
  typedTree "CALL"
    [ typedTree "STATICCALL" [], typedTree "CREATE2" [typedTree "SELFDESTRUCT" []] ]

theorem nestedTree_regular : nestedTree.Regular := by
  have leaf (type : String) (known : (TraceKind.ofCallType? type).isSome) :
      (typedTree type []).Regular :=
    .node known (by decide) (by simp)
  have creation : (typedTree "CREATE2" [typedTree "SELFDESTRUCT" []]).Regular :=
    .node (by decide) (by decide) (by simpa using leaf "SELFDESTRUCT" (by decide))
  exact .node (by decide) (by decide) (by simpa using ⟨leaf "STATICCALL" (by decide), creation⟩)

/-- Call trees of four transactions: the first runs no code, and for the second the node
had none. -/
def fourTrees : List (Option Raw.CallTreeResult) :=
  [ some ⟨typedTree "STOP" [], none⟩, none, some ⟨nestedTree, none⟩,
    some ⟨typedTree "SELFDESTRUCT" [], none⟩ ]

theorem fourTrees_regular : Projection.RegularTrees fourTrees := by
  intro tree member
  simp only [fourTrees, List.mem_cons, Option.some.injEq, reduceCtorEq, List.not_mem_nil,
    or_false, false_or] at member
  rcases member with rfl | rfl | rfl
  · exact .inl ⟨rfl, rfl⟩
  · exact .inr nestedTree_regular
  · exact .inr (.node (by decide) (by decide) (by simp))

/-- Block eight with four transactions and their call trees. -/
def treesBlock : FetchedBlock where
  block := { pairBlock with transactions := .hashes ((List.range 4).map fun _ => .zero 32) }
  data := { Enrichment.empty with callTrees := some fourTrees }

/-- A demand for traces with their numbers of sub-calls. -/
def tracesDemand : Demand :=
  { Demand.of .empty
      { FieldSelection.off with trace := { TraceFields.off with subtraces := true } } with
    traces := true }

/-- The five frames of the block are traces, each with its place, its kind, its number of
sub-calls, its parent and its children. -/
theorem wire_project_treesBlock :
    treesBlock.data.callTrees = some fourTrees ∧ Projection.RegularTrees fourTrees ∧
      fourTrees.length ≤ UInt32.size ∧
      ∃ block : Block,
        treesBlock.project tracesDemand = .ok block ∧
          block.wire.MirrorsTrees tracesDemand.fields.trace fourTrees ∧
          block.wire.traces.map (fun trace =>
              (trace.place, trace.kind, trace.subtraces, trace.parent, trace.children)) =
            [ ((2, []), .call, some 2, none, [1, 2, 3]),
              ((2, [0]), .call, some 0, some 0, []),
              ((2, [1]), .create, some 1, some 0, [3]),
              ((2, [1, 0]), .suicide, some 0, some 2, []),
              ((3, []), .suicide, some 0, none, []) ] := by
  have recovered := @wire_project_callTrees treesBlock fourTrees tracesDemand rfl
    fourTrees_regular (by decide)
  refine ⟨rfl, fourTrees_regular, by decide, _, rfl, (recovered.2 _ rfl).2.2, ?_⟩
  cbv

end FetchedBlock

end ChainFeed
