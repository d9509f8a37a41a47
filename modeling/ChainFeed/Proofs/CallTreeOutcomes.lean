import ChainFeed.Proofs.CallTreePaths
import ChainFeed.Proofs.Outcomes

/-!
# What becomes of a call tree

A call tree is refused, or it has one trace for each of its frames, or, if its root stops at
once, none at all.  What it is refused for is the first frame of a type without traces,
whichever properties of traces are selected.
-/

namespace ChainFeed

namespace Raw

/-- The types of calls that have traces. -/
def Call.tracedTypes : List String :=
  [ "CREATE", "CREATE2", "CALL", "CALLCODE", "DELEGATECALL", "STATICCALL", "INVALID",
    "SELFDESTRUCT" ]

/-- Whether a call has no trace, by its type. -/
def Call.isStray (call : Call) : Bool :=
  call.type ∉ tracedTypes

namespace CallTree

/-! ## Frames in order -/

mutual

/-- The frames of a tree in depth-first order, the tree itself first. -/
def frames : CallTree → List CallTree
  | node call calls => node call calls :: framesOf calls

/-- The frames of several trees, one tree after another. -/
def framesOf : List CallTree → List CallTree
  | [] => []
  | tree :: rest => frames tree ++ framesOf rest

end

theorem framesOf_eq (trees : List CallTree) : framesOf trees = trees.flatMap frames := by
  induction trees with
  | nil => rw [framesOf, List.flatMap_nil]
  | cons tree rest ih => rw [framesOf, List.flatMap_cons, ih]

/-- The frames are the tree itself and those of the calls that its root made. -/
theorem mem_frames {tree frame : CallTree} :
    frame ∈ tree.frames ↔ frame = tree ∨ ∃ called ∈ tree.calls, frame ∈ called.frames := by
  cases tree with
  | node call calls => rw [frames, framesOf_eq, List.mem_cons, List.mem_flatMap, CallTree.calls]

/-- A call with the number of calls that it made, without its place. -/
def Visit.unplaced (visit : Visit) : Call × Nat :=
  (visit.call, visit.subCalls)

/-- The root with the number of calls that it made. -/
def unplaced (tree : CallTree) : Call × Nat :=
  (tree.call, tree.calls.length)

mutual

/-- The traversal visits the frames, wherever the tree is. -/
theorem map_unplaced_visits (path : List UInt32) :
    (tree : CallTree) → (tree.visits path).map Visit.unplaced = tree.frames.map unplaced
  | node call calls => by
      rw [visits, frames, List.map_cons, List.map_cons, map_unplaced_visitsFrom]
      rfl

theorem map_unplaced_visitsFrom (path : List UInt32) (start : Nat) :
    (trees : List CallTree) →
      (visitsFrom path start trees).map Visit.unplaced = (framesOf trees).map unplaced
  | [] => rfl
  | tree :: rest => by
      rw [visitsFrom, framesOf, List.map_append, List.map_append, map_unplaced_visits,
        map_unplaced_visitsFrom]

end

/-! ## Refusal -/

/-- Why a call tree is refused. -/
inductive RefusedFor (tree : CallTree) : ProjectionFault → Prop
  | stops (stops : tree.call.type = "STOP") (calls : tree.calls ≠ []) :
      RefusedFor tree .stopFrameWithCalls
  | stray {frame : CallTree} (runs : tree.call.type ≠ "STOP")
      (first : tree.frames.find? (fun frame => frame.call.isStray) = some frame) :
      RefusedFor tree (.unexpectedTraceType frame.call.type)

theorem stray_of_find? {trees : List CallTree} {frame : CallTree}
    (first : trees.find? (fun frame => frame.call.isStray) = some frame) :
    frame ∈ trees ∧ frame.call.isStray = true := by
  rw [List.find?_eq_some_iff_append] at first
  obtain ⟨stray, earlier, later, rfl, -⟩ := first
  exact ⟨List.mem_append_right earlier List.mem_cons_self, stray⟩

theorem exists_refusedFor_iff {tree : CallTree} :
    (∃ fault, tree.RefusedFor fault) ↔
      (tree.call.type = "STOP" ∧ tree.calls ≠ []) ∨
        (tree.call.type ≠ "STOP" ∧ ∃ frame ∈ tree.frames, frame.call.isStray = true) := by
  constructor
  · rintro ⟨_, ⟨stops, calls⟩ | ⟨runs, first⟩⟩
    · exact .inl ⟨stops, calls⟩
    · exact .inr ⟨runs, _, stray_of_find? first⟩
  · rintro (⟨stops, calls⟩ | ⟨runs, frame, member, stray⟩)
    · exact ⟨_, .stops stops calls⟩
    · have found : (tree.frames.find? fun frame => frame.call.isStray).isSome :=
        List.find?_isSome.mpr ⟨frame, member, stray⟩
      obtain ⟨first, isFirst⟩ := Option.isSome_iff_exists.mp found
      exact ⟨_, .stray runs isFirst⟩

theorem RefusedFor.unique {tree : CallTree} {fault other : ProjectionFault}
    (refused : tree.RefusedFor fault) (refusedToo : tree.RefusedFor other) : fault = other := by
  cases refused with
  | stops stops calls =>
      cases refusedToo with
      | stops _ _ => rfl
      | stray runs first => exact absurd stops runs
  | stray runs first =>
      cases refusedToo with
      | stops stops calls => exact absurd stops runs
      | stray _ firstToo =>
          cases first.symm.trans firstToo
          rfl

/-- A root that stops at once is refused for its calls. -/
theorem RefusedFor.calls_ne_nil {tree : CallTree} {fault : ProjectionFault}
    (refused : tree.RefusedFor fault) (stops : tree.call.type = "STOP") : tree.calls ≠ [] := by
  cases refused with
  | stops _ calls => exact calls
  | stray runs first => exact absurd stops runs

end CallTree

end Raw

/-! ## Traces -/

open Raw (CallTree)

/-- A call has no trace if its type is none of those that have, and its type is the fault. -/
theorem TraceData.ofCall_eq_error_iff {fields : TraceFields} {call : Raw.Call}
    {fault : ProjectionFault} :
    ofCall fields call = .error fault ↔
      call.isStray = true ∧ fault = .unexpectedTraceType call.type := by
  unfold ofCall Raw.Call.isStray
  split
  case h_9 => simp_all [Raw.Call.tracedTypes, eq_comm]
  all_goals
    rename_i isType
    simp [isType, Raw.Call.tracedTypes]

namespace Trace

variable {fields : TraceFields} {index : UInt32}

theorem ofVisit_eq_error_iff {visit : CallTree.Visit} {fault : ProjectionFault} :
    ofVisit fields index visit = .error fault ↔
      visit.call.isStray = true ∧ fault = .unexpectedTraceType visit.call.type := by
  rw [← @TraceData.ofCall_eq_error_iff fields, ofVisit]
  cases TraceData.ofCall fields visit.call with
  | error other => constructor <;> rintro ⟨⟩ <;> rfl
  | ok data => constructor <;> intro isFault <;> cases isFault

/-- Whether a trace shows a frame, at some place. -/
def Shows (fields : TraceFields) (index : UInt32) (frame : CallTree) (trace : Trace) : Prop :=
  ∃ path, ofVisit fields index (frame.visit path) = .ok trace

/-- What becomes of a call tree. -/
inductive OutcomeOf (fields : TraceFields) (index : UInt32) (tree : CallTree) :
    Except ProjectionFault (List Trace) → Prop
  | refused {fault : ProjectionFault} (refused : tree.RefusedFor fault) :
      OutcomeOf fields index tree (.error fault)
  | idle (stops : tree.call.type = "STOP") (noCalls : tree.calls = []) :
      OutcomeOf fields index tree (.ok [])
  | traced {traces : List Trace} (runs : tree.call.type ≠ "STOP")
      (known : ∀ frame ∈ tree.frames, frame.call.isStray = false)
      (shown : List.Forall₂ (Shows fields index) tree.frames traces) :
      OutcomeOf fields index tree (.ok traces)

/-- The visits fail with the type of the first frame that has no trace. -/
theorem mapM_ofVisit_eq_error_iff {tree : CallTree} {path : List UInt32}
    {fault : ProjectionFault} :
    (tree.visits path).mapM (ofVisit fields index) = .error fault ↔
      ∃ frame, tree.frames.find? (fun frame => frame.call.isStray) = some frame ∧
        .unexpectedTraceType frame.call.type = fault := by
  have sameCalls : (tree.visits path).map CallTree.Visit.call = tree.frames.map CallTree.call := by
    have unplaced := congrArg (List.map Prod.fst) (tree.map_unplaced_visits path)
    rwa [List.map_map, List.map_map] at unplaced
  -- A visit fails because of its call, whatever its place.
  have sameFirst : ((tree.visits path).find? fun visit => visit.call.isStray).map
        (fun visit => ProjectionFault.unexpectedTraceType visit.call.type) =
      (tree.frames.find? fun frame => frame.call.isStray).map
        fun frame => .unexpectedTraceType frame.call.type :=
    calc
      _ = (((tree.visits path).map CallTree.Visit.call).find? Raw.Call.isStray).map
            fun call => .unexpectedTraceType call.type := by
        rw [List.find?_map, Option.map_map]
        rfl
      _ = ((tree.frames.map CallTree.call).find? Raw.Call.isStray).map
            fun call => .unexpectedTraceType call.type := by
        rw [sameCalls]
      _ = _ := by
        rw [List.find?_map, Option.map_map]
        rfl
  rw [mapM_eq_error_iff fun visit fault => ofVisit_eq_error_iff, sameFirst,
    Option.map_eq_some_iff]

/-- Visits that have traces show the frames. -/
theorem shows_of_mapM_ofVisit {tree : CallTree} {path : List UInt32} {traces : List Trace}
    (run : (tree.visits path).mapM (ofVisit fields index) = .ok traces) :
    List.Forall₂ (Shows fields index) tree.frames traces := by
  have shown : List.Forall₂
      (fun unplaced trace =>
        ∃ place, ofVisit fields index ⟨place, unplaced.1, unplaced.2⟩ = .ok trace)
      ((tree.visits path).map CallTree.Visit.unplaced) traces := by
    rw [List.forall₂_map_left_iff]
    exact (forall₂_of_mapM_eq_ok run).imp fun visit trace isTrace => ⟨visit.path, isTrace⟩
  rwa [CallTree.map_unplaced_visits, List.forall₂_map_left_iff] at shown

theorem outcomeOf_ofCallTree (fields : TraceFields) (index : UInt32) (tree : CallTree) :
    OutcomeOf fields index tree (ofCallTree fields index tree) := by
  unfold ofCallTree
  split
  · rename_i stops
    cases calls : tree.calls with
    | nil => exact .idle stops calls
    | cons first rest =>
        refine .refused (.stops stops ?_)
        rw [calls]
        exact List.cons_ne_nil first rest
  · rename_i runs
    cases run : (tree.visits []).mapM (ofVisit fields index) with
    | error fault =>
        obtain ⟨frame, first, rfl⟩ := mapM_ofVisit_eq_error_iff.mp run
        exact .refused (.stray runs first)
    | ok traces =>
        refine .traced runs ?_ (shows_of_mapM_ofVisit run)
        -- A stray frame would have been a fault.
        have noStray : tree.frames.find? (fun frame => frame.call.isStray) = none := by
          cases first : tree.frames.find? fun frame => frame.call.isStray with
          | none => rfl
          | some frame =>
              have failed : (tree.visits []).mapM (ofVisit fields index) =
                  .error (.unexpectedTraceType frame.call.type) :=
                mapM_ofVisit_eq_error_iff.mpr ⟨frame, first, rfl⟩
              rw [run] at failed
              cases failed
        simpa using noStray

namespace OutcomeOf

variable {tree : CallTree} {outcome : Except ProjectionFault (List Trace)}

theorem eq_error_iff (isOutcome : OutcomeOf fields index tree outcome) {fault : ProjectionFault} :
    outcome = .error fault ↔ tree.RefusedFor fault := by
  constructor
  · rintro rfl
    cases isOutcome with
    | refused refused => exact refused
  · intro refused
    cases isOutcome with
    | refused refusedToo => rw [refusedToo.unique refused]
    | idle stops noCalls => exact absurd noCalls (refused.calls_ne_nil stops)
    | traced runs known shown =>
        cases refused with
        | stops stops calls => exact absurd stops runs
        | stray _ first =>
            obtain ⟨member, stray⟩ := CallTree.stray_of_find? first
            rw [known _ member] at stray
            cases stray

theorem eq_ok_nil_iff (isOutcome : OutcomeOf fields index tree outcome) :
    outcome = .ok [] ↔ tree.call.type = "STOP" ∧ tree.calls = [] := by
  constructor
  · rintro rfl
    cases isOutcome with
    | idle stops noCalls => exact ⟨stops, noCalls⟩
    | traced runs known shown =>
        have member : tree ∈ tree.frames := CallTree.mem_frames.mpr (.inl rfl)
        rw [List.forall₂_nil_right_iff.mp shown] at member
        cases member
  · rintro ⟨stops, noCalls⟩
    cases isOutcome with
    | refused refused => exact absurd noCalls (refused.calls_ne_nil stops)
    | idle _ _ => rfl
    | traced runs known shown => exact absurd stops runs

end OutcomeOf

/-- A call tree has one of three outcomes, whatever is selected: it fails if its root stops but
calls, or if its root runs and some frame has a type without traces, of which the first one is
named; it has no traces if its root stops at once; and otherwise it has one trace for each
frame. -/
theorem ofCallTree_outcome (fields : TraceFields) (index : UInt32) (tree : CallTree) :
    OutcomeOf fields index tree (ofCallTree fields index tree) ∧
      ((∃ fault, ofCallTree fields index tree = .error fault) ↔
        (tree.call.type = "STOP" ∧ tree.calls ≠ []) ∨
          (tree.call.type ≠ "STOP" ∧ ∃ frame ∈ tree.frames, frame.call.isStray = true)) ∧
      (∀ fault, ofCallTree fields index tree = .error fault ↔ tree.RefusedFor fault) ∧
      (ofCallTree fields index tree = .ok [] ↔ tree.call.type = "STOP" ∧ tree.calls = []) := by
  have isOutcome := outcomeOf_ofCallTree fields index tree
  refine ⟨isOutcome, ?_, fun fault => isOutcome.eq_error_iff, isOutcome.eq_ok_nil_iff⟩
  rw [← CallTree.exists_refusedFor_iff]
  exact exists_congr fun fault => isOutcome.eq_error_iff

/-- A call that stops at once has no trace below the root either. -/
example :
    let call (type : String) (calls : List CallTree) : CallTree :=
      .node ⟨type, none, none, none, none, none, .empty, none, none, none⟩ calls
    ofCallTree .off 0 (call "CALL" [call "CREATE" [call "STOP" []], call "JUMP" []]) =
      .error (.unexpectedTraceType "STOP") :=
  rfl

end Trace

end ChainFeed
