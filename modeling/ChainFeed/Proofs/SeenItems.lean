import ChainFeed.Block.Wiring
import ChainFeed.Projection.Property
import ChainFeed.Proofs.Positions
import ChainFeed.Selection

/-!
# What a request sees of a block

The entries of a request look at few properties of an item, and wiring looks at its
index and place only.  Of the properties that entries look at, some are shown always
and others only if selected.  What is left of a block when nothing but this is kept
is what the request sees of it, and it determines which items are kept.
-/

namespace ChainFeed

/-! ## Tested properties -/

/-- Which of the properties that are shown only if selected are asked for. -/
structure Tested where
  logAddress : Bool
  logTopics : Bool
  recipient : Bool
  sender : Bool
  type : Bool
  callFrom : Bool
  deriving DecidableEq, Repr

/-- Whether a list of accepted values rejects anything. -/
def restricts {α : Type} (values : Option (List α)) : Bool :=
  values.any fun values => !values.isEmpty

/-- The properties that the entries of a request ask for. -/
def Request.tested (request : Request) : Tested where
  logAddress := request.logs.any fun entry => restricts entry.address
  logTopics := request.logs.any fun entry =>
    restricts entry.topic0 || restricts entry.topic1 || restricts entry.topic2 ||
      restricts entry.topic3
  recipient := request.transactions.any fun entry => restricts entry.recipient
  sender := request.transactions.any fun entry => restricts entry.sender
  type := request.transactions.any fun entry => restricts entry.type
  callFrom := request.traces.any fun entry => restricts entry.callFrom

/-- A property that is not asked for may as well be missing. -/
theorem accepts_shown {α : Type} [BEq α] {values : Option (List α)} {tested : Bool}
    (asked : restricts values = true → tested = true) (property : Option α) :
    accepts values (shown tested property) = accepts values property := by
  cases tested with
  | true => rfl
  | false =>
      cases values with
      | none => rfl
      | some values =>
          cases values with
          | nil => rfl
          | cons first rest => simp [restricts] at asked

/-! ## Seen items -/

/-- What is seen of a log. -/
def Log.seen (tested : Tested) (log : Log) : Log :=
  { Log.bare log.logIndex log.transactionIndex with
    address := shown tested.logAddress log.address
    topics := shown tested.logTopics log.topics
    transaction := log.transaction }

/-- What is seen of a transaction. -/
def Transaction.seen (tested : Tested) (transaction : Transaction) : Transaction :=
  { Transaction.bare transaction.transactionIndex with
    recipient := shown tested.recipient transaction.recipient
    sender := shown tested.sender transaction.sender
    sighash := transaction.sighash
    type := shown tested.type transaction.type
    logs := transaction.logs
    traces := transaction.traces
    stateDiffs := transaction.stateDiffs }

/-- What is seen of what a frame did. -/
def TraceData.seen (tested : Tested) : TraceData → TraceData
  | create action _ =>
      .create { sender := action.sender, value := none, gas := none, init := none } none
  | call action _ =>
      .call
        { callType := none
          sender := shown tested.callFrom action.sender
          recipient := action.recipient
          value := none
          gas := none
          input := none
          sighash := action.sighash }
        none
  | suicide action =>
      .suicide { address := none, refundAddress := action.refundAddress, balance := none }
  | reward action => .reward { author := action.author, value := none, rewardType := none }

/-- What is seen of a trace. -/
def Trace.seen (tested : Tested) (trace : Trace) : Trace :=
  { Trace.bare trace.transactionIndex trace.traceAddress (trace.data.seen tested) with
    transaction := trace.transaction
    parent := trace.parent
    children := trace.children }

/-- What is seen of a block. State diffs are seen in full. -/
def Block.seen (tested : Tested) (block : Block) : Block where
  header := .bare block.header.height block.header.hash block.header.parentHash
  transactions := block.transactions.map (Transaction.seen tested)
  logs := block.logs.map (Log.seen tested)
  traces := block.traces.map (Trace.seen tested)
  stateDiffs := block.stateDiffs

/-! ## Matching -/

section Matching

variable {request : Request}

theorem Log.topic?_seen (tested : Tested) (log : Log) (position : Nat) :
    (log.seen tested).topic? position = shown tested.logTopics (log.topic? position) := by
  cases testedTopics : tested.logTopics <;> simp [topic?, seen, shown, testedTopics]

theorem LogEntry.isMatch_seen {entry : LogEntry} (member : entry ∈ request.logs) (log : Log) :
    entry.isMatch (log.seen request.tested) = entry.isMatch log := by
  have topics : (restricts entry.topic0 || restricts entry.topic1 || restricts entry.topic2 ||
      restricts entry.topic3) = true → request.tested.logTopics = true :=
    fun asked => List.any_eq_true.mpr ⟨entry, member, asked⟩
  have address : accepts entry.address (log.seen request.tested).address =
      accepts entry.address log.address :=
    accepts_shown (fun asked => List.any_eq_true.mpr ⟨entry, member, asked⟩) _
  simp only [isMatch, address, Log.topic?_seen]
  rw [accepts_shown (fun asked => topics (by simp [asked])),
    accepts_shown (fun asked => topics (by simp [asked])),
    accepts_shown (fun asked => topics (by simp [asked])),
    accepts_shown (fun asked => topics (by simp [asked]))]

theorem TransactionEntry.isMatch_seen {entry : TransactionEntry}
    (member : entry ∈ request.transactions) (transaction : Transaction) :
    entry.isMatch (transaction.seen request.tested) = entry.isMatch transaction := by
  have recipient : accepts entry.recipient (transaction.seen request.tested).recipient =
      accepts entry.recipient transaction.recipient :=
    accepts_shown (fun asked => List.any_eq_true.mpr ⟨entry, member, asked⟩) _
  have sender : accepts entry.sender (transaction.seen request.tested).sender =
      accepts entry.sender transaction.sender :=
    accepts_shown (fun asked => List.any_eq_true.mpr ⟨entry, member, asked⟩) _
  have type : accepts entry.type (transaction.seen request.tested).type =
      accepts entry.type transaction.type :=
    accepts_shown (fun asked => List.any_eq_true.mpr ⟨entry, member, asked⟩) _
  rw [isMatch, recipient, sender, type]
  rfl

theorem TraceEntry.isMatch_seen {entry : TraceEntry} (member : entry ∈ request.traces)
    (trace : Trace) : entry.isMatch (trace.seen request.tested) = entry.isMatch trace := by
  have callFrom : accepts entry.callFrom (trace.seen request.tested).data.callFrom? =
      accepts entry.callFrom trace.data.callFrom? := by
    cases data : trace.data with
    | call action _ =>
        simp only [Trace.seen, Trace.bare, data, TraceData.seen, TraceData.callFrom?]
        exact accepts_shown (fun asked => List.any_eq_true.mpr ⟨entry, member, asked⟩) _
    | _ => simp [Trace.seen, Trace.bare, data, TraceData.seen, TraceData.callFrom?]
  rw [isMatch, callFrom, isMatch]
  cases data : trace.data <;>
    simp [Trace.seen, Trace.bare, data, TraceData.seen, Trace.kind, TraceData.kind,
      TraceData.createFrom?, TraceData.callTo?, TraceData.callSighash?, TraceData.refundAddress?,
      TraceData.author?]

/-- What pulls depend on is which entries match. -/
theorem pullsOf?_congr {ε ρ : Type} {first second : ε → Bool} {pulls : ε → ρ}
    {union : ρ → ρ → ρ} {entries : List ε}
    (alike : ∀ entry ∈ entries, first entry = second entry) :
    pullsOf? first pulls union entries = pullsOf? second pulls union entries := by
  induction entries with
  | nil => rfl
  | cons entry entries ih =>
      have later := ih fun other member => alike other (List.mem_cons_of_mem _ member)
      simp only [pullsOf?, later, alike entry List.mem_cons_self]

theorem Request.logPulls?_seen (request : Request) (log : Log) :
    request.logPulls? (log.seen request.tested) = request.logPulls? log :=
  pullsOf?_congr fun _ member => LogEntry.isMatch_seen member log

theorem Request.transactionPulls?_seen (request : Request) (transaction : Transaction) :
    request.transactionPulls? (transaction.seen request.tested) =
      request.transactionPulls? transaction :=
  pullsOf?_congr fun _ member => TransactionEntry.isMatch_seen member transaction

theorem Request.tracePulls?_seen (request : Request) (trace : Trace) :
    request.tracePulls? (trace.seen request.tested) = request.tracePulls? trace :=
  pullsOf?_congr fun _ member => TraceEntry.isMatch_seen member trace

end Matching

/-! ## Wiring -/

variable (tested : Tested) (block : Block)

/-- A function of items that another function commutes with. -/
theorem map_map_comm {α : Type} {image before after : α → α}
    (commutes : ∀ item, before (image item) = image (after item)) (items : List α) :
    (items.map image).map before = (items.map after).map image := by
  simp [commutes]

/-- A function of items and their positions that another function commutes with. -/
theorem mapIdx_map_comm {α : Type} {image : α → α} {before after : Nat → α → α}
    (commutes : ∀ position item, before position (image item) = image (after position item))
    (items : List α) : (items.map image).mapIdx before = (items.mapIdx after).map image := by
  apply List.ext_getElem?
  intro position
  simp [Function.comp_def, commutes]

/-- Ordering by something that a function keeps, which leaves links alone. -/
theorem mergeSort_map_comm {α : Type} {unlinked image : α → α} {le : α → α → Bool}
    (commutes : ∀ item, unlinked (image item) = image (unlinked item))
    (kept : ∀ left right, le left right = le (image left) (image right)) (items : List α) :
    ((items.map image).map unlinked).mergeSort le =
      ((items.map unlinked).mergeSort le).map image := by
  rw [List.map_mergeSort fun left _ right _ => kept left right, map_map_comm commutes]

namespace Trace

theorem descendantCounts_seen (traces : List Trace) :
    descendantCounts (traces.map (Trace.seen tested)) = descendantCounts traces := by
  induction traces with
  | nil => rfl
  | cons trace rest ih =>
      rw [List.map_cons, descendantCounts, ih, List.takeWhile_map, List.length_map]
      rfl

theorem parentPosition?_seen (traces : List Trace) (counts : List Nat) (position : Nat)
    (trace : Trace) :
    parentPosition? (traces.map (Trace.seen tested)) counts position (trace.seen tested) =
      parentPosition? traces counts position trace := by
  rw [parentPosition?, List.zip_map_left, List.zipIdx_map, lastPositionWhere?, positionsWhere_map]
  rfl

theorem linkTree_seen (traces : List Trace) :
    linkTree (traces.map (Trace.seen tested)) = (linkTree traces).map (Trace.seen tested) := by
  apply mapIdx_map_comm
  intro position trace
  rw [descendantCounts_seen, parentPosition?_seen]
  rfl

end Trace

theorem Transaction.position?_seen (transactions : List Transaction) :
    position? (transactions.map (Transaction.seen tested)) = position? transactions := by
  funext index
  rw [position?, lastPositionWhere?, positionsWhere_map]
  rfl

namespace Block

theorem arrange_seen : (block.seen tested).arrange = block.arrange.seen tested := by
  apply eq_of_parts
  · rfl
  · apply mergeSort_map_comm <;> (intros; rfl)
  · apply mergeSort_map_comm <;> (intros; rfl)
  · apply mergeSort_map_comm <;> (intros; rfl)
  · rfl

theorem linkItems_seen : (block.seen tested).linkItems = block.linkItems.seen tested := by
  have position : Transaction.position? (block.seen tested).transactions =
      Transaction.position? block.transactions := Transaction.position?_seen tested _
  apply eq_of_parts
  · rfl
  · rfl
  · simp only [linkItems, position]
    apply map_map_comm
    intro log
    rfl
  · simp only [linkItems, position]
    change (Trace.linkTree (block.traces.map (Trace.seen tested))).map _ = _
    rw [Trace.linkTree_seen]
    apply map_map_comm
    intro trace
    rfl
  · simp only [linkItems, position]
    rfl

theorem linkTransactions_seen :
    (block.seen tested).linkTransactions = block.linkTransactions.seen tested := by
  apply eq_of_parts
  · rfl
  · apply mapIdx_map_comm
    intro position transaction
    simp only [seen, positionsWhere_map]
    rfl
  · rfl
  · rfl
  · rfl

/-- Wiring takes nothing into account but what is seen. -/
theorem wire_seen : (block.seen tested).wire = block.wire.seen tested := by
  rw [wire, arrange_seen, linkItems_seen, linkTransactions_seen]
  rfl

end Block

/-! ## Selecting -/

/-- What items reach, when a function leaves that alone. -/
theorem Request.reaches_map {α : Type} {image : α → α}
    {before after : Nat → α → Option Inclusion.Reach}
    (kept : ∀ position item, before position (image item) = after position item)
    (items : List α) : reaches before (items.map image) = reaches after items := by
  rw [reaches, List.zipIdx_map, List.filterMap_map]
  exact congrArg (List.filterMap · items.zipIdx) (funext fun entry => kept entry.2 entry.1)

namespace Block

/-- The way up from a link depends on nothing but what the traces name as parents. -/
theorem ancestorsWithin_map (image : Trace → Trace)
    (kept : ∀ trace, (image trace).parent = trace.parent) (traces : List Trace) (steps : Nat)
    (link : Option Nat) :
    ancestorsWithin (traces.map image) steps link = ancestorsWithin traces steps link := by
  induction steps generalizing link with
  | zero => cases link <;> rfl
  | succ steps ih =>
      cases link with
      | none => rfl
      | some position =>
          rw [ancestorsWithin, ancestorsWithin, ih, List.getElem?_map]
          cases traces[position]? with
          | none => rfl
          | some trace => simp [kept]

theorem ancestors_seen : (block.seen tested).ancestors = block.ancestors := by
  funext link
  simp only [ancestors, seen, List.length_map]
  exact ancestorsWithin_map (Trace.seen tested) (fun _ => rfl) _ _ _

theorem logsOf_seen : (block.seen tested).logsOf = block.logsOf := by
  funext index
  exact positionsWhere_map _ _

theorem tracesOf_seen : (block.seen tested).tracesOf = block.tracesOf := by
  funext index
  exact positionsWhere_map _ _

end Block

/-- What is included depends on what is seen. -/
theorem Request.inclusion_seen (request : Request) :
    request.inclusion (block.seen request.tested) = request.inclusion block := by
  have logs : reaches (request.logReach? (block.seen request.tested))
      (block.seen request.tested).logs = reaches (request.logReach? block) block.logs := by
    apply reaches_map
    intro position log
    rw [logReach?, logPulls?_seen, Block.logsOf_seen, Block.tracesOf_seen]
    rfl
  have transactions : reaches request.transactionReach?
      (block.seen request.tested).transactions =
        reaches request.transactionReach? block.transactions := by
    apply reaches_map
    intro position transaction
    rw [transactionReach?, transactionPulls?_seen]
    rfl
  have traces : reaches (request.traceReach? (block.seen request.tested))
      (block.seen request.tested).traces = reaches (request.traceReach? block) block.traces := by
    apply reaches_map
    intro position trace
    rw [traceReach?, tracePulls?_seen, Block.logsOf_seen, Block.ancestors_seen]
    rfl
  rw [inclusion, logs, transactions, traces]
  rfl

theorem Request.keep_seen (request : Request) :
    request.keep (block.seen request.tested) = request.keep block := by
  rw [keep, inclusion_seen]
  simp [keep, Block.seen]

theorem Keep.retain_map {α : Type} (image : α → α) (marks : List Bool) (items : List α) :
    retain marks (items.map image) = (retain marks items).map image := by
  induction marks generalizing items with
  | nil => rfl
  | cons mark marks ih =>
      cases items with
      | nil => cases mark <;> rfl
      | cons item items => cases mark <;> simp [retain, ih]

namespace Block

theorem prune_seen (keep : Keep) :
    (block.seen tested).prune keep = (block.prune keep).seen tested := by
  apply eq_of_parts
  · rfl
  · simp only [prune, seen, Keep.retain_map]
    apply map_map_comm
    intro transaction
    rfl
  · simp only [prune, seen, Keep.retain_map]
    apply map_map_comm
    intro log
    rfl
  · simp only [prune, seen, Keep.retain_map]
    apply map_map_comm
    intro trace
    rfl
  · rfl

/-- Selecting takes nothing into account but what is seen. -/
theorem select_seen (request : Request) :
    (block.seen request.tested).select request = (block.select request).seen request.tested := by
  rw [select, request.keep_seen, prune_seen]
  rfl

end Block

end ChainFeed
