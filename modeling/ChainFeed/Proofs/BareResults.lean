import ChainFeed.Engine.Traces
import ChainFeed.Proofs.RecordReading
import ChainFeed.Proofs.Runs

/-!
# Bare results of debug tracers

Some nodes answer debug tracers with the results of transactions as they are, not each as a
member of an object.  Call trees are read from such answers as from wrapped ones.  Snapshots
are not: one bare result makes what a node answers for a whole batch unusable.
-/

namespace ChainFeed

namespace Json

/-- Whether a document is the result of a transaction as it is. -/
def isBareResult : Json → Bool
  | obj members => !members.any fun member => member.1 == "result"
  | _ => false

/-- Whether an answer has a bare result among others. -/
def holdsBareResult : Json → Bool
  | arr items => items.any isBareResult
  | _ => false

/-- A result as a member of an object, which it may be already. -/
def wrapResult (item : Json) : Json :=
  if item.isBareResult then obj [("result", item)] else item

theorem wrapResults_arr (items : List Json) :
    wrapResults (arr items) = arr (items.map wrapResult) := by
  have each : ∀ item : Json, wrapResult item =
      match item with
      | obj members =>
          if members.any fun member => member.1 == "result" then obj members
          else obj [("result", obj members)]
      | other => other := by
    rintro (_ | _ | _ | _ | _ | _ | _ | members)
    case obj =>
      cases found : members.any (·.1 == "result") <;> simp [wrapResult, isBareResult, found]
    all_goals rfl
  rw [funext each]
  rfl

@[simp] theorem isBareResult_wrapResult (item : Json) : (wrapResult item).isBareResult = false := by
  cases bare : item.isBareResult with
  | true =>
      rw [wrapResult, if_pos bare]
      rfl
  | false => rwa [wrapResult, if_neg (by simp [bare])]

theorem wrapResults_of_no_bare {answer : Json} (noneBare : answer.holdsBareResult = false) :
    wrapResults answer = answer := by
  cases answer with
  | arr items =>
      simp only [holdsBareResult, List.any_eq_false, Bool.not_eq_true] at noneBare
      have kept : items.map wrapResult = items.map id :=
        List.map_congr_left fun item member => by simp [wrapResult, noneBare item member]
      rw [wrapResults_arr, kept, List.map_id]
  | _ => rfl

@[simp] theorem holdsBareResult_wrapResults (answer : Json) :
    (wrapResults answer).holdsBareResult = false := by
  cases answer with
  | arr items => simp [wrapResults_arr, holdsBareResult]
  | _ => rfl

/-- Wrapped results are not wrapped again. -/
@[simp] theorem wrapResults_wrapResults (answer : Json) :
    wrapResults (wrapResults answer) = wrapResults answer :=
  wrapResults_of_no_bare (holdsBareResult_wrapResults answer)

/-- Results that are all bare. -/
theorem wrapResults_of_bare {results : List (List (String × Json))}
    (bare : ∀ members ∈ results, ∀ member ∈ members, member.1 ≠ "result") :
    wrapResults (arr (results.map obj)) =
      arr (results.map fun members => obj [("result", obj members)]) := by
  rw [wrapResults_arr, List.map_map]
  congr 1
  refine List.map_congr_left fun members isResult => ?_
  have isBare : (obj members).isBareResult = true := by
    simpa [isBareResult] using bare members isResult
  exact if_pos isBare

theorem holdsBareResult_of_bare {results : List (List (String × Json))}
    (bare : ∀ members ∈ results, ∀ member ∈ members, member.1 ≠ "result") :
    (arr (results.map obj)).holdsBareResult = !results.isEmpty := by
  cases results with
  | nil => rfl
  | cons members rest =>
      have isBare : (obj members).isBareResult = true := by
        simpa [isBareResult] using bare members List.mem_cons_self
      simp [holdsBareResult, isBare]

/-- An item that cannot be read makes its list unreadable. -/
theorem list?_eq_none {α : Type} {read : Json → Option α} {items : List Json} {item : Json}
    (member : item ∈ items) (unread : read item = none) : list? read (arr items) = none := by
  rw [list?]
  induction items with
  | nil => cases member
  | cons first rest ih =>
      rw [List.mapM_cons]
      rcases List.mem_cons.mp member with rfl | later
      · rw [unread]
        rfl
      · rw [ih later]
        cases read first <;> rfl

/-- Snapshots are read from a member only. -/
theorem prestateResult_of_bare {item : Json} (bare : item.isBareResult = true) :
    Raw.PrestateResult.ofJson? item = none := by
  cases item with
  | obj members =>
      have absent : lastMember? "result" members = none := by
        simp only [isBareResult, Bool.not_eq_true', List.any_eq_false, beq_iff_eq] at bare
        induction members with
        | nil => rfl
        | cons member rest ih =>
            rw [lastMember?_cons, ih fun other later => bare other (List.mem_cons_of_mem _ later),
              Option.none_or, if_neg (bare member List.mem_cons_self)]
      have unread : (required "result" Raw.Snapshots.ofJson?).run (.named members) = none := by
        rw [required, StateT.run_bind, Reads.slot_unnamed absent]
        rfl
      rw [Raw.PrestateResult.ofJson?, record, StateT.run_bind, unread]
      rfl
  | _ => cases bare

theorem prestateResults_of_bare {answer : Json} (bare : answer.holdsBareResult = true) :
    nullable (list? Raw.PrestateResult.ofJson?) answer = none := by
  cases answer with
  | arr items =>
      obtain ⟨item, member, isBare⟩ := List.any_eq_true.mp bare
      rw [nullable, list?_eq_none member (prestateResult_of_bare isBare)]
      · rfl
      · simp
  | _ => cases bare

end Json

namespace Endpoint

open Dialogue

variable {σ α β : Type}

/-! ## What the answers come to -/

/-- Doing the same for each of some items, if that says nothing. -/
theorem run_mapM_of_silent {act : α → Dialogue σ β} {outcome : α → Except Fault β}
    (silent : ∀ item session, (act item).run.run session = (outcome item, session))
    (items : List α) (session : Session σ) :
    (items.mapM act).run.run session = (items.mapM outcome, session) := by
  induction items with
  | nil => rfl
  | cons item rest ih =>
      rw [List.mapM_cons, List.mapM_cons, run_bind, silent]
      cases outcome item with
      | error fault => rfl
      | ok value =>
          rw [continueWith_ok, run_bind, ih]
          cases rest.mapM outcome <;> rfl

/-- What a node replies to the calls of a debug tracer. -/
def debugReply (endpoint : Endpoint σ) (param : Json) (blocks : List FetchedBlock)
    (session : Session σ) : Except NodeFailure (List Json) :=
  let calls := blocks.map fun block => ⟨debugMethod, [hashParam block.hash, param]⟩
  (endpoint.node.answerBatch calls (endpoint.tolerating .notFound) session.node).1

/-- The answers in a reply to calls for blocks, one for each. -/
def debugAnswers (blocks : List FetchedBlock) (reply : Except NodeFailure (List Json)) :
    Except Fault (List Json) :=
  if blocks.isEmpty then
    .ok []
  else
    match reply with
    | .error failure => .error (.node failure)
    | .ok answers =>
        if answers.length = blocks.length then .ok answers
        else .error (.malformed debugMethod (.batchSize blocks.length answers.length))

theorem outcome_traceByDebug (endpoint : Endpoint σ) (param : Json) (blocks : List FetchedBlock)
    (session : Session σ) :
    ((endpoint.traceByDebug param blocks).run.run session).1 =
      debugAnswers blocks (endpoint.debugReply param blocks session) := by
  cases blocks with
  | nil => rfl
  | cons block rest =>
      rw [traceByDebug, List.map_cons, batchRaw, run_bind, run_askBatch, continueWith_ok, run_bind,
        debugReply, List.map_cons]
      cases (endpoint.node.answerBatch _ _ session.node).1 with
      | error failure => rfl
      | ok answers =>
          simp only [answered, run_pure, continueWith_ok, debugAnswers, List.isEmpty_cons,
            List.length_cons, List.length_map]
          split <;> rfl

/-- What the results of transactions add to a block, read from an answer. -/
def readResults (read : Json → Option α) (add : FetchedBlock → List α → Enrichment)
    (block : FetchedBlock) (answer : Json) : Except Fault Enrichment :=
  match Json.nullable (Json.list? read) answer with
  | none => .error (.malformed debugMethod .undecodable)
  | some none => .ok (.defective (.unknownBlock debugMethod))
  | some (some results) => .ok (add block results)

/-- What call trees add to a block. -/
def addCallTrees (block : FetchedBlock) (trees : List Raw.CallTreeResult) : Enrichment :=
  { Enrichment.empty with
    callTrees := some (alignResults Raw.CallTreeResult.transactionHash
      block.block.transactions.toHashes trees) }

/-- What snapshots add to a block. -/
def addPrestates (block : FetchedBlock) (prestates : List Raw.PrestateResult) : Enrichment :=
  { Enrichment.empty with
    prestates := some (alignResults Raw.PrestateResult.transactionHash
      block.block.transactions.toHashes prestates) }

/-- What is read from answers one by one, if that says nothing. -/
theorem outcome_traceByDebug_bind {endpoint : Endpoint σ} {param : Json}
    {blocks : List FetchedBlock} {act : FetchedBlock × Json → Dialogue σ Enrichment}
    {outcome : FetchedBlock × Json → Except Fault Enrichment} {session : Session σ}
    (silent : ∀ item session, (act item).run.run session = (outcome item, session)) :
    ((endpoint.traceByDebug param blocks >>= fun answers =>
        (blocks.zip answers).mapM act).run.run session).1 =
      (debugAnswers blocks (endpoint.debugReply param blocks session) >>= fun answers =>
        (blocks.zip answers).mapM outcome) := by
  rw [run_bind, ← outcome_traceByDebug]
  obtain ⟨ending, final⟩ := (endpoint.traceByDebug param blocks).run.run session
  cases ending with
  | error fault => rfl
  | ok answers =>
      rw [continueWith_ok, run_mapM_of_silent silent]
      rfl

/-- Call trees are read from wrapped results. -/
theorem outcome_fetchCallTrees (endpoint : Endpoint σ) (blocks : List FetchedBlock)
    (session : Session σ) :
    ((endpoint.fetchCallTrees blocks).run.run session).1 =
      (debugAnswers blocks (endpoint.debugReply
        (endpoint.tracerParam "callTracer" "withLog" false) blocks session) >>= fun answers =>
          (blocks.zip answers).mapM fun entry =>
            readResults Raw.CallTreeResult.ofJson? addCallTrees entry.1 (wrapResults entry.2)) := by
  refine outcome_traceByDebug_bind fun (block, answer) session => ?_
  rw [run_bind, run_decoded]
  unfold readResults
  rcases Json.nullable (Json.list? Raw.CallTreeResult.ofJson?) (wrapResults answer)
    with _ | _ | results <;> rfl

/-- Snapshots are read from results as they are. -/
theorem outcome_fetchPrestates (endpoint : Endpoint σ) (blocks : List FetchedBlock)
    (session : Session σ) :
    ((endpoint.fetchPrestates blocks).run.run session).1 =
      (debugAnswers blocks (endpoint.debugReply
        (endpoint.tracerParam "prestateTracer" "diffMode" true) blocks session) >>= fun answers =>
          (blocks.zip answers).mapM fun entry =>
            readResults Raw.PrestateResult.ofJson? addPrestates entry.1 entry.2) := by
  refine outcome_traceByDebug_bind fun (block, answer) session => ?_
  rw [run_bind, run_decoded]
  unfold readResults
  rcases Json.nullable (Json.list? Raw.PrestateResult.ofJson?) answer
    with _ | _ | results <;> rfl

/-! ## Bare results beside wrapped ones -/

/-- Wrapping the results does not change how many answers there are. -/
theorem debugAnswers_map (blocks : List FetchedBlock) (form : Json → Json)
    (answers : List Json) :
    debugAnswers blocks (.ok (answers.map form)) =
      (debugAnswers blocks (.ok answers)).map (·.map form) := by
  simp only [debugAnswers, List.length_map]
  split
  · rfl
  · split <;> rfl

theorem readResults_eq_error_iff {read : Json → Option α}
    {add : FetchedBlock → List α → Enrichment} {block : FetchedBlock} {answer : Json}
    {fault : Fault} :
    readResults read add block answer = .error fault ↔
      (Json.nullable (Json.list? read) answer).isNone = true ∧
        fault = .malformed debugMethod .undecodable := by
  unfold readResults
  rcases Json.nullable (Json.list? read) answer with _ | _ | results <;> simp [eq_comm]

variable {bare wrapping : Endpoint σ} {blocks : List FetchedBlock} {answers : List Json}
  {session other : Session σ}

/-- Call trees do not depend on whether results are wrapped. -/
theorem fetchCallTrees_of_wrapResults
    (bareReply : bare.debugReply (bare.tracerParam "callTracer" "withLog" false) blocks session =
      .ok answers)
    (wrappedReply : wrapping.debugReply (wrapping.tracerParam "callTracer" "withLog" false) blocks
      other = .ok (answers.map wrapResults)) :
    ((bare.fetchCallTrees blocks).run.run session).1 =
      ((wrapping.fetchCallTrees blocks).run.run other).1 := by
  rw [outcome_fetchCallTrees, outcome_fetchCallTrees, bareReply, wrappedReply, debugAnswers_map]
  cases debugAnswers blocks (.ok answers) with
  | error fault => rfl
  | ok answers =>
      change List.mapM _ _ = List.mapM _ (blocks.zip (answers.map wrapResults))
      rw [List.zip_map_right, List.mapM_map]
      simp [Function.comp_def]

/-- One bare result makes the snapshots of all blocks unreadable. -/
theorem mapM_readPrestates_of_bare (sameLength : answers.length = blocks.length)
    (anyBare : answers.any Json.holdsBareResult = true) :
    ((blocks.zip answers).mapM fun entry =>
      readResults Raw.PrestateResult.ofJson? addPrestates entry.1 entry.2) =
        .error (.malformed debugMethod .undecodable) := by
  obtain ⟨answer, member, holdsBare⟩ := List.any_eq_true.mp anyBare
  rw [← List.map_snd_zip (Nat.le_of_eq sameLength), List.mem_map] at member
  obtain ⟨entry, member, rfl⟩ := member
  have unread : (Json.nullable (Json.list? Raw.PrestateResult.ofJson?) entry.2).isNone = true := by
    rw [Json.prestateResults_of_bare holdsBare]
    rfl
  have anyUnread : ((blocks.zip answers).find? fun entry =>
      (Json.nullable (Json.list? Raw.PrestateResult.ofJson?) entry.2).isNone).isSome = true :=
    List.find?_isSome.mpr ⟨entry, member, unread⟩
  obtain ⟨first, found⟩ := Option.isSome_iff_exists.mp anyUnread
  refine (mapM_eq_error_iff fun _ _ => readResults_eq_error_iff).mpr ?_
  rw [found]
  rfl

/-- Snapshots are had as from wrapped results just if no result is bare, or there are not as many
answers as blocks. -/
theorem fetchPrestates_of_wrapResults
    (bareReply : bare.debugReply (bare.tracerParam "prestateTracer" "diffMode" true) blocks
      session = .ok answers)
    (wrappedReply : wrapping.debugReply (wrapping.tracerParam "prestateTracer" "diffMode" true)
      blocks other = .ok (answers.map wrapResults)) :
    ((bare.fetchPrestates blocks).run.run session).1 =
      if answers.length = blocks.length ∧ answers.any Json.holdsBareResult then
        .error (.malformed debugMethod .undecodable)
      else
        ((wrapping.fetchPrestates blocks).run.run other).1 := by
  rw [outcome_fetchPrestates, outcome_fetchPrestates, bareReply, wrappedReply, debugAnswers_map]
  split
  case isTrue unusable =>
    obtain ⟨sameLength, anyBare⟩ := unusable
    have nonempty : blocks.isEmpty = false := by
      cases blocks with
      | nil => simp [List.eq_nil_of_length_eq_zero sameLength] at anyBare
      | cons block rest => rfl
    simp only [debugAnswers, nonempty, sameLength, if_true]
    exact mapM_readPrestates_of_bare sameLength anyBare
  case isFalse usable =>
    by_cases sameLength : answers.length = blocks.length
    · have kept : answers.map wrapResults = answers.map id := by
        refine List.map_congr_left fun answer member => Json.wrapResults_of_no_bare ?_
        simp only [sameLength, true_and, List.any_eq_true, not_exists, not_and,
          Bool.not_eq_true] at usable
        exact usable answer member
      rw [← debugAnswers_map, kept, List.map_id]
    · simp only [debugAnswers, if_neg sameLength]
      split <;> rfl

/-- A node may answer the call tracer with bare results, all or some of them, as well as with
wrapped ones.  If it answers the prestate tracer so, its answers are refused for one bare result
among them, whatever the wrapped ones would come to. -/
theorem debugTracers_of_wrapResults (bare wrapping : Endpoint σ) (blocks : List FetchedBlock)
    (answers : List Json) (session other : Session σ) :
    (bare.debugReply (bare.tracerParam "callTracer" "withLog" false) blocks session =
        .ok answers →
      wrapping.debugReply (wrapping.tracerParam "callTracer" "withLog" false) blocks other =
        .ok (answers.map wrapResults) →
      ((bare.fetchCallTrees blocks).run.run session).1 =
        ((wrapping.fetchCallTrees blocks).run.run other).1) ∧
    (bare.debugReply (bare.tracerParam "prestateTracer" "diffMode" true) blocks session =
        .ok answers →
      wrapping.debugReply (wrapping.tracerParam "prestateTracer" "diffMode" true) blocks other =
        .ok (answers.map wrapResults) →
      ((bare.fetchPrestates blocks).run.run session).1 =
        if answers.length = blocks.length ∧ answers.any Json.holdsBareResult then
          .error (.malformed debugMethod .undecodable)
        else
          ((wrapping.fetchPrestates blocks).run.run other).1) ∧
    ∀ results : List (List (String × Json)),
      (∀ members ∈ results, ∀ member ∈ members, member.1 ≠ "result") →
        wrapResults (.arr (results.map .obj)) =
            .arr (results.map fun members => .obj [("result", .obj members)]) ∧
          (Json.arr (results.map .obj)).holdsBareResult = !results.isEmpty :=
  ⟨fetchCallTrees_of_wrapResults, fetchPrestates_of_wrapResults, fun _ allBare =>
    ⟨Json.wrapResults_of_bare allBare, Json.holdsBareResult_of_bare allBare⟩⟩

/-! ## A node that answers with bare results -/

/-- A node that gives one answer to all calls of a batch. -/
def resultNode (answer : Json) : Node Unit where
  url := ""
  answer _ _ _ := (.ok .null, ())
  answerBatch calls _ _ := (.ok (calls.map fun _ => answer), ())

/-- A result that can be read as a call tree and as snapshots. -/
def plainResult : List (String × Json) :=
  [("type", .str "CALL"), ("pre", .obj []), ("post", .obj [])]

/-- Block eight, with one transaction. -/
def tracedBlock : FetchedBlock where
  block :=
    { number := 8, hash := .zero 32, parentHash := .zero 32, logsBloom := .zero 256,
      transactions := .hashes [.zero 32], timestamp := none, nonce := none, sha3Uncles := none,
      transactionsRoot := none, stateRoot := none, receiptsRoot := none, mixHash := none,
      miner := none, difficulty := none, totalDifficulty := none, extraData := none,
      size := none, gasLimit := none, gasUsed := none, baseFeePerGas := none,
      l1BlockNumber := none }
  data := .empty

/-- An endpoint that hears the result of a transaction bare. -/
def bareEndpoint : Endpoint Unit :=
  .of (resultNode (.arr [.obj plainResult])) .standard

/-- An endpoint that hears the same result wrapped. -/
def wrappingEndpoint : Endpoint Unit :=
  .of (resultNode (.arr [.obj [("result", .obj plainResult)]])) .standard

/-- The call tree is had either way, and the bare snapshots are refused. -/
theorem debugTracers_bareEndpoint :
    ((bareEndpoint.fetchCallTrees [tracedBlock]).run.run (.start ())).1 =
        ((wrappingEndpoint.fetchCallTrees [tracedBlock]).run.run (.start ())).1 ∧
      ((bareEndpoint.fetchCallTrees [tracedBlock]).run.run (.start ())).1.isOk = true ∧
      ((bareEndpoint.fetchPrestates [tracedBlock]).run.run (.start ())).1 =
        .error (.malformed debugMethod .undecodable) := by
  obtain ⟨trees, prestates, results⟩ := debugTracers_of_wrapResults bareEndpoint wrappingEndpoint
    [tracedBlock] [.arr [.obj plainResult]] (.start ()) (.start ())
  obtain ⟨wrapped, holdsBare⟩ := results [plainResult] (by decide)
  have wrappedAnswers : [Json.arr [.obj plainResult]].map wrapResults =
      [.arr [.obj [("result", .obj plainResult)]]] := congrArg (fun answer => [answer]) wrapped
  refine ⟨trees rfl (wrappedAnswers ▸ rfl), by decide +kernel,
    (prestates rfl (wrappedAnswers ▸ rfl)).trans (if_pos ⟨rfl, ?_⟩)⟩
  simpa using holdsBare

/-- Bare snapshots are refused that could be read if they were wrapped. -/
theorem fetchPrestates_bareEndpoint_ne :
    ((bareEndpoint.fetchPrestates [tracedBlock]).run.run (.start ())).1 =
        .error (.malformed debugMethod .undecodable) ∧
      ((wrappingEndpoint.fetchPrestates [tracedBlock]).run.run (.start ())).1.isOk = true := by
  refine ⟨?_, by decide +kernel⟩
  rw [outcome_fetchPrestates]
  rfl

end Endpoint

end ChainFeed
