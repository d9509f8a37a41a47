import ChainFeed.Proofs.CallTreeOutcomes
import ChainFeed.Proofs.Composition
import ChainFeed.Proofs.Positions

/-!
# Faults of projection

Why items cannot be built from a fetched block.  A fault of content comes from what one
item says.  Any other fault tells that the parts of the block do not go together: one is
missing, two have the same kind of item, or one refers to a transaction that is not there.
-/

namespace ChainFeed

namespace Projection

/-- Whether a fault is about what one item says. -/
def IsContentFault : ProjectionFault → Prop
  | .transactionIndexMismatch _ _ | .receiptTransactionMismatch _ _ _ | .missingReceiptLogs _
  | .unexpectedTraceType _ | .stopFrameWithCalls | .indexOverflow _ _ => True
  | _ => False

/-- Whether a fault of projection has its reason in the fetched block. -/
inductive FaultOf (demand : Demand) (fetched : FetchedBlock) : ProjectionFault → Prop
  | content {fault : ProjectionFault} (isContent : IsContentFault fault) :
      FaultOf demand fetched fault
  | missingReceipts (demanded : demand.receipts = true) (missing : fetched.data.receipts = none) :
      FaultOf demand fetched .missingReceipts
  /-- There are more receipts than transactions are built. -/
  | receiptWithoutTransaction {position : Nat} {receipts : List Raw.Receipt}
      (demanded : demand.receipts = true) (found : fetched.data.receipts = some receipts)
      (more : demand.transactionList = true →
        fetched.block.transactions.length < receipts.length) :
      FaultOf demand fetched (.receiptWithoutTransaction position)
  | duplicateLogSource (demanded : demand.receipts = true)
      (listed : fetched.data.logs.isSome = true) :
      FaultOf demand fetched .duplicateLogSource
  | duplicateTraceSource {replay : Raw.Replay} (trees : fetched.data.callTrees.isSome = true)
      (member : replay ∈ fetched.data.replays.getD []) (frames : replay.trace.getD [] ≠ []) :
      FaultOf demand fetched .duplicateTraceSource
  | duplicateStateDiffSource {replay : Raw.Replay}
      (prestates : fetched.data.prestates.isSome = true)
      (member : replay ∈ fetched.data.replays.getD []) (changes : replay.stateDiff ≠ none) :
      FaultOf demand fetched .duplicateStateDiffSource
  /-- A replay names no transaction of the body. -/
  | unknownReplayTransaction {replay : Raw.Replay}
      (member : replay ∈ fetched.data.replays.getD [])
      (unknown : replay.transactionHash.getD (.zero 32) ∉ fetched.block.transactions.toHashes) :
      FaultOf demand fetched
        (.unknownReplayTransaction (replay.transactionHash.getD (.zero 32)))

/-! ## Items -/

theorem narrow_fails (name : IndexName) (value : UInt64) :
    FailsOnlyBy IsContentFault (narrow name value) := by
  unfold narrow
  split
  · exact .ok _
  · exact .error trivial

theorem ofFullFrom_fails (fields : TransactionFields) (sources : List Raw.Transaction)
    (position : Nat) :
    FailsOnlyBy IsContentFault (Transaction.ofFullFrom position fields sources) := by
  induction sources generalizing position with
  | nil => exact .ok _
  | cons source sources ih =>
      unfold Transaction.ofFullFrom
      dsimp only
      split
      · exact .error trivial
      · exact (narrow_fails _ _).bind fun index _ => (ih _).bind fun _ _ => .ok _

theorem bodyTransactions_fails (demand : Demand) (fetched : FetchedBlock) :
    FailsOnlyBy IsContentFault (bodyTransactions demand fetched) := by
  unfold bodyTransactions
  split
  · unfold Transaction.ofBody
    split
    · exact .ok _
    · exact ofFullFrom_fails _ _ _
  · exact .ok _

theorem log_fails (fields : LogFields) (source : Raw.Log) :
    FailsOnlyBy IsContentFault (Log.project fields source) :=
  (narrow_fails _ _).bind fun _ _ => (narrow_fails _ _).bind fun _ _ => .ok _

theorem ofFrame_fails (fields : TraceFields) (index : UInt32) (frame : Raw.TraceFrame) :
    FailsOnlyBy IsContentFault (Trace.ofFrame fields index frame) := by
  have data : FailsOnlyBy IsContentFault (TraceData.ofFrame fields frame) := by
    unfold TraceData.ofFrame
    dsimp only
    split
    case h_5 => exact .error trivial
    all_goals exact .ok _
  exact data.bind fun _ _ => .ok _

theorem ofCallTree_fails (fields : TraceFields) (index : UInt32) (tree : Raw.CallTree) :
    FailsOnlyBy IsContentFault (Trace.ofCallTree fields index tree) := by
  intro fault isFault
  cases (Trace.outcomeOf_ofCallTree fields index tree).eq_error_iff.mp isFault with
  | stops stops calls => trivial
  | stray runs first => trivial

theorem ofCallTrees_fails (fields : TraceFields) (trees : List (Option Raw.CallTreeResult)) :
    FailsOnlyBy IsContentFault (ofCallTrees fields trees) := by
  unfold ofCallTrees
  refine .bind (.mapM ?_) fun _ _ => .ok _
  rintro ⟨_ | tree, position⟩ _
  · exact .ok _
  · exact ofCallTree_fails fields (UInt32.ofNat position) tree.result

/-! ## Receipts and logs -/

theorem logsOfReceipt_fails (demand : Demand) (position : Nat) (receipt : Raw.Receipt) :
    FailsOnlyBy IsContentFault (logsOfReceipt demand position receipt) := by
  unfold logsOfReceipt
  split
  · split
    · exact .error trivial
    · exact .mapM fun log _ => log_fails _ log
  · exact .ok _

/-- Whether a fault is about the content of receipts, or else there are more of them than
there are transactions. -/
def IsReceiptFault (body : Raw.Body) (position : Nat) (transactions : List Transaction)
    (receipts : List Raw.Receipt) (fault : ProjectionFault) : Prop :=
  IsContentFault fault ∨
    (∃ index, fault = .receiptWithoutTransaction index) ∧
      (body.length < position + receipts.length ∨ transactions.length < receipts.length)

theorem withReceiptsFrom_fails (demand : Demand) (body : Raw.Body) (position : Nat)
    (transactions : List Transaction) (receipts : List Raw.Receipt) :
    FailsOnlyBy (IsReceiptFault body position transactions receipts)
      (withReceiptsFrom demand body position transactions receipts) := by
  induction receipts generalizing position transactions with
  | nil =>
      rw [withReceiptsFrom]
      exact .ok _
  | cons receipt rest ih =>
      by_cases named : body.hash? position = some receipt.transactionHash
      · cases transactions with
        | nil =>
            have run : withReceiptsFrom demand body position [] (receipt :: rest) =
                .error (.receiptWithoutTransaction position) := by
              rw [withReceiptsFrom.eq_def]
              simp [named]
              rfl
            rw [run]
            exact .error (.inr ⟨⟨position, rfl⟩, .inr (by simp)⟩)
        | cons transaction later =>
            rw [withReceiptsFrom_cons named]
            refine .bind ((logsOfReceipt_fails _ _ _).mono fun _ => .inl) fun logs _ => ?_
            refine .bind ((ih (position + 1) later).mono ?_) fun items _ => .ok _
            rintro fault (isContent | ⟨isMissing, bodyShorter | listShorter⟩)
            · exact .inl isContent
            · exact .inr ⟨isMissing, .inl (by rw [List.length_cons]; omega)⟩
            · exact .inr ⟨isMissing, .inr (by simpa using listShorter)⟩
      · rw [withReceiptsFrom.eq_def]
        cases found : body.hash? position with
        | none =>
            refine .error (.inr ⟨⟨position, rfl⟩, .inl ?_⟩)
            have beyond : body.length ≤ position := List.getElem?_eq_none_iff.mp found
            rw [List.length_cons]
            omega
        | some hash =>
            have differs : receipt.transactionHash ≠ hash := by
              rintro rfl
              exact named found
            simp only [differs, ne_eq, not_false_eq_true, if_true]
            exact .error (.inl trivial)

variable {demand : Demand} {fetched : FetchedBlock}

theorem demandedReceipts_fails :
    FailsOnlyBy (FaultOf demand fetched) (demandedReceipts demand fetched) := by
  unfold demandedReceipts
  split
  case isTrue demanded =>
    split
    case h_1 missing => exact .error (.missingReceipts demanded missing)
    case h_2 => exact .ok _
  case isFalse => exact .ok _

theorem withListedLogs_fails {receipts : List Raw.Receipt}
    {items : List Transaction × List Log} (used : receipts = usedReceipts demand fetched) :
    FailsOnlyBy (FaultOf demand fetched) (withListedLogs demand fetched receipts items) := by
  unfold withListedLogs
  split
  case h_1 => exact .ok _
  case h_2 logs found =>
    split
    case isFalse =>
      exact .bind ((FailsOnlyBy.mapM fun log _ => log_fails _ log).mono fun _ => .content)
        fun _ _ => .ok _
    case isTrue both =>
      simp only [Bool.and_eq_true, Bool.not_eq_true', List.isEmpty_eq_false_iff] at both
      refine .error (.duplicateLogSource ?_ (by rw [found]; rfl))
      cases demanded : demand.receipts with
      | true => rfl
      | false => simp [used, usedReceipts, demanded] at both

theorem transactionsAndLogs_fails :
    FailsOnlyBy (FaultOf demand fetched) (transactionsAndLogs demand fetched) := by
  rw [transactionsAndLogs_eq]
  refine .bind ((bodyTransactions_fails _ _).mono fun _ => .content) fun transactions built => ?_
  refine .bind demandedReceipts_fails fun receipts taken => ?_
  have used := (demandedReceipts_eq_ok taken).1
  refine .bind ((withReceiptsFrom_fails _ _ _ _ _).mono ?_) fun _ _ => withListedLogs_fails used
  rintro fault (isContent | ⟨⟨position, rfl⟩, more⟩)
  · exact .content isContent
  · rw [used, usedReceipts] at more
    cases demanded : demand.receipts with
    | false => simp [demanded] at more
    | true =>
        obtain ⟨others, found⟩ :=
          Option.isSome_iff_exists.mp ((demandedReceipts_eq_ok taken).2 demanded)
        simp only [demanded, if_true, found, Option.getD_some, Nat.zero_add] at more
        refine .receiptWithoutTransaction demanded found fun listed => ?_
        rcases more with more | more
        · exact more
        · rwa [((bodyTransactions_eq_ok built).2 listed).1, Transaction.length_ofEntries] at more

/-! ## Traces and state diffs -/

theorem ofReplay_fails (fields : TraceFields) {replay : Raw.Replay}
    (member : replay ∈ fetched.data.replays.getD []) :
    FailsOnlyBy (FaultOf demand fetched)
      (ofReplay fields fetched.block.transactions replay) := by
  unfold ofReplay
  dsimp only
  split
  case h_1 =>
    exact .bind ((FailsOnlyBy.mapM fun frame _ => ofFrame_fails _ _ frame).mono fun _ => .content)
      fun _ _ => .ok _
  case h_2 unfound =>
    refine .error (.unknownReplayTransaction member fun known => ?_)
    have nowhere := Option.eq_none_iff_forall_ne_some.mpr unfound
    simpa using lastPositionWhere?_eq_none_iff.mp nowhere _ known

theorem withCallTrees_fails {fields : TraceFields}
    {replayed : List (List Trace × List StateDiff)}
    (each : List.Forall₂ (fun replay frames =>
      ofReplay fields fetched.block.transactions replay = .ok frames)
      (fetched.data.replays.getD []) replayed) :
    FailsOnlyBy (FaultOf demand fetched)
      (withCallTrees fields fetched (replayed.flatMap Prod.fst)) := by
  unfold withCallTrees
  split
  case h_1 => exact .ok _
  case h_2 trees found =>
    split
    case isFalse => exact (ofCallTrees_fails _ _).mono fun _ => .content
    case isTrue both =>
      simp only [Bool.not_eq_true', List.isEmpty_eq_false_iff] at both
      obtain ⟨trace, member⟩ := List.exists_mem_of_ne_nil _ both
      obtain ⟨frames, isReplayed, member⟩ := List.mem_flatMap.mp member
      obtain ⟨replay, isReplay, run⟩ := exists_mem_of_forall₂ each isReplayed
      obtain ⟨_, _, shown, _⟩ := ofReplay_eq_ok run
      refine .error (.duplicateTraceSource (by rw [found]; rfl) isReplay fun none => ?_)
      rw [none, List.forall₂_nil_left_iff] at shown
      simp [shown] at member

theorem withPrestates_fails {fields : TraceFields}
    {replayed : List (List Trace × List StateDiff)}
    (each : List.Forall₂ (fun replay frames =>
      ofReplay fields fetched.block.transactions replay = .ok frames)
      (fetched.data.replays.getD []) replayed) :
    FailsOnlyBy (FaultOf demand fetched)
      (withPrestates fetched (replayed.flatMap Prod.snd)) := by
  unfold withPrestates
  split
  case h_1 => exact .ok _
  case h_2 prestates found =>
    split
    case isFalse => exact .ok _
    case isTrue both =>
      simp only [Bool.not_eq_true', List.isEmpty_eq_false_iff] at both
      obtain ⟨diff, member⟩ := List.exists_mem_of_ne_nil _ both
      obtain ⟨frames, isReplayed, member⟩ := List.mem_flatMap.mp member
      obtain ⟨replay, isReplay, run⟩ := exists_mem_of_forall₂ each isReplayed
      obtain ⟨_, _, _, recorded⟩ := ofReplay_eq_ok run
      refine .error (.duplicateStateDiffSource (by rw [found]; rfl) isReplay fun none => ?_)
      simp [recorded, none] at member

theorem tracesAndStateDiffs_fails (fields : TraceFields) :
    FailsOnlyBy (FaultOf demand fetched) (tracesAndStateDiffs fields fetched) := by
  rw [tracesAndStateDiffs_eq]
  refine .bind (.mapM fun replay member => ofReplay_fails fields member) fun replayed ran => ?_
  have each := forall₂_of_mapM_eq_ok ran
  exact .bind (withCallTrees_fails each) fun _ _ =>
    .bind (withPrestates_fails each) fun _ _ => .ok _

end Projection

/-- A block cannot be projected only for a reason in the fetched block. -/
theorem FetchedBlock.project_fails (fetched : FetchedBlock) (demand : Demand) :
    FailsOnlyBy (Projection.FaultOf demand fetched) (fetched.project demand) :=
  .bind Projection.transactionsAndLogs_fails fun _ _ =>
    .bind (Projection.tracesAndStateDiffs_fails _) fun _ _ => .ok _

end ChainFeed
