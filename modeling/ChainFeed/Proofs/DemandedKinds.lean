import ChainFeed.Demand
import ChainFeed.Proofs.Inclusion
import ChainFeed.Proofs.Pruning
import ChainFeed.Proofs.SeenItems

/-!
# Demanded kinds of items

A demand names the kinds of items that are built.  Without the items of the other
kinds a block is wired and selected from as it is with them, as far as the demanded
kinds go: a request has no entries for other kinds and pulls nothing of them in.
-/

namespace ChainFeed

/-! ## Items of demanded kinds -/

/-- Items or positions of a kind, if the kind is demanded. -/
def ofKind {α : Type} (demanded : Bool) (items : List α) : List α :=
  if demanded then items else []

section OfKind

variable {α β : Type} (demanded : Bool)

@[simp] theorem ofKind_true (items : List α) : ofKind true items = items := rfl

@[simp] theorem ofKind_false (items : List α) : ofKind false items = [] := rfl

@[simp] theorem ofKind_nil : ofKind demanded ([] : List α) = [] := by
  cases demanded <;> rfl

theorem map_ofKind (image : α → β) (items : List α) :
    (ofKind demanded items).map image = ofKind demanded (items.map image) := by
  cases demanded <;> rfl

theorem mergeSort_ofKind (le : α → α → Bool) (items : List α) :
    (ofKind demanded items).mergeSort le = ofKind demanded (items.mergeSort le) := by
  cases demanded <;> simp

theorem positionsWhere_ofKind (property : α → Bool) (items : List α) :
    positionsWhere property (ofKind demanded items) =
      ofKind demanded (positionsWhere property items) := by
  cases demanded <;> rfl

theorem onlyIf_ofKind (switch : Bool) (positions : List Nat) :
    Request.onlyIf switch (ofKind demanded positions) =
      ofKind demanded (Request.onlyIf switch positions) := by
  cases demanded <;> cases switch <;> rfl

theorem toList_shown (link : Option Nat) :
    (shown demanded link).toList = ofKind demanded link.toList := by
  cases demanded <;> rfl

theorem ascending_flatMap_ofKind (positions : α → List Nat) (items : List α) :
    Inclusion.ascending (items.flatMap fun item => ofKind demanded (positions item)) =
      ofKind demanded (Inclusion.ascending (items.flatMap positions)) := by
  cases demanded with
  | true => rfl
  | false => simp only [ofKind_false, List.flatMap_eq_nil_iff.mpr fun _ _ => rfl]; rfl

theorem retain_ofKind (marks : List Bool) (items : List α) :
    Keep.retain (ofKind demanded marks) (ofKind demanded items) =
      ofKind demanded (Keep.retain marks items) := by
  cases demanded <;> rfl

theorem newPositions_ofKind (marks : List Bool) (positions : List Nat) :
    Keep.newPositions (ofKind demanded marks) (ofKind demanded positions) =
      ofKind demanded (Keep.newPositions marks positions) := by
  cases demanded <;> rfl

theorem bind_newPosition?_shown (marks : List Bool) (link : Option Nat) :
    (shown demanded link).bind (Keep.newPosition? (ofKind demanded marks)) =
      shown demanded (link.bind (Keep.newPosition? marks)) := by
  cases demanded <;> rfl

end OfKind

variable (demand : Demand)

/-- The block with the items of demanded kinds only. -/
def Block.built (block : Block) : Block where
  header := block.header
  transactions := ofKind demand.transactionList block.transactions
  logs := ofKind demand.logList block.logs
  traces := ofKind demand.traces block.traces
  stateDiffs := ofKind demand.stateDiffs block.stateDiffs

/-- A transaction with links to items of demanded kinds only. -/
def Transaction.limited (transaction : Transaction) : Transaction :=
  { transaction with
    logs := ofKind demand.logList transaction.logs
    traces := ofKind demand.traces transaction.traces
    stateDiffs := ofKind demand.stateDiffs transaction.stateDiffs }

/-- A log with a link to its transaction only if transactions are demanded. -/
def Log.limited (log : Log) : Log :=
  { log with transaction := shown demand.transactionList log.transaction }

/-- A trace with a link to its transaction only if transactions are demanded. -/
def Trace.limited (trace : Trace) : Trace :=
  { trace with transaction := shown demand.transactionList trace.transaction }

/-- A state diff with a link to its transaction only if transactions are demanded. -/
def StateDiff.limited (diff : StateDiff) : StateDiff :=
  { diff with transaction := shown demand.transactionList diff.transaction }

/-- The block with the items of demanded kinds and the links between them only. -/
def Block.limited (block : Block) : Block where
  header := block.header
  transactions := ofKind demand.transactionList (block.transactions.map (.limited demand))
  logs := ofKind demand.logList (block.logs.map (.limited demand))
  traces := ofKind demand.traces (block.traces.map (.limited demand))
  stateDiffs := ofKind demand.stateDiffs (block.stateDiffs.map (.limited demand))

/-! ## Wiring -/

section Wiring

variable {demand}

/-- Links to transactions are left alone if transactions are demanded. -/
theorem Log.limited_eq_id (transactions : demand.transactionList = true) :
    Log.limited demand = id := by
  funext log
  rw [limited, transactions]
  rfl

theorem Trace.limited_eq_id (transactions : demand.transactionList = true) :
    Trace.limited demand = id := by
  funext trace
  rw [limited, transactions]
  rfl

theorem StateDiff.limited_eq_id (transactions : demand.transactionList = true) :
    StateDiff.limited demand = id := by
  funext diff
  rw [limited, transactions]
  rfl

end Wiring

theorem Transaction.position?_ofKind (demanded : Bool) (transactions : List Transaction)
    (index : UInt32) :
    position? (ofKind demanded transactions) index =
      shown demanded (position? transactions index) := by
  cases demanded <;> rfl

theorem Trace.linkTree_ofKind (demanded : Bool) (traces : List Trace) :
    linkTree (ofKind demanded traces) = ofKind demanded (linkTree traces) := by
  cases demanded <;> rfl

namespace Block

variable (block : Block)

theorem arrange_built : (block.built demand).arrange = block.arrange.built demand := by
  simp only [arrange, built, map_ofKind, mergeSort_ofKind]

/-- Items of demanded kinds are linked to one another as they are among all. -/
theorem linkItems_built :
    (block.built demand).linkItems =
      { block.linkItems.limited demand with
        transactions := ofKind demand.transactionList block.transactions } := by
  apply eq_of_parts
  · rfl
  · rfl
  · simp only [linkItems, built, limited, Transaction.position?_ofKind, map_ofKind, List.map_map]
    rfl
  · simp only [linkItems, built, limited, Transaction.position?_ofKind, Trace.linkTree_ofKind,
      map_ofKind, List.map_map]
    rfl
  · simp only [linkItems, built, limited, Transaction.position?_ofKind, map_ofKind, List.map_map]
    rfl

/-- Wiring does not mix kinds: the items of demanded kinds alone are wired as they are
among all, without the links to other kinds. -/
theorem wire_built : (block.built demand).wire = block.wire.limited demand := by
  rw [wire, arrange_built, linkItems_built]
  apply eq_of_parts
  · rfl
  · cases transactions : demand.transactionList with
    | false => simp [linkTransactions, limited, transactions]
    | true =>
        simp only [wire, linkTransactions, limited, transactions, ofKind_true, linkItems,
          Log.limited_eq_id transactions, Trace.limited_eq_id transactions,
          StateDiff.limited_eq_id transactions, List.map_id, positionsWhere_ofKind]
        apply List.ext_getElem?
        intro position
        simp only [List.getElem?_mapIdx, List.getElem?_map, Option.map_map]
        rfl
  · rfl
  · rfl
  · rfl

end Block

/-! ## Selecting -/

/-- What pulls something in has entries. -/
theorem ne_nil_of_pullsOf? {ε ρ : Type} {isMatch : ε → Bool} {pulls : ε → ρ}
    {union : ρ → ρ → ρ} {entries : List ε} {pulled : ρ}
    (asked : pullsOf? isMatch pulls union entries = some pulled) : entries ≠ [] := by
  rintro rfl
  cases asked

/-- Whether a demand has all kinds built that a request has entries for. -/
structure Demand.Covers (demand : Demand) (request : Request) : Prop where
  transactions : request.transactions ≠ [] → demand.transactionList = true
  logs : request.logs ≠ [] → demand.logList = true
  traces : request.traces ≠ [] → demand.traces = true
  stateDiffs : request.stateDiffs ≠ [] → demand.stateDiffs = true

namespace Inclusion

/-- The positions of items of demanded kinds. -/
def Reach.limited (reach : Reach) : Reach where
  logs := ofKind demand.logList reach.logs
  transactions := ofKind demand.transactionList reach.transactions
  traces := ofKind demand.traces reach.traces
  stateDiffs := ofKind demand.stateDiffs reach.stateDiffs

/-- The positions of items of demanded kinds. -/
def limited (inclusion : Inclusion) : Inclusion where
  logs := ofKind demand.logList inclusion.logs
  transactions := ofKind demand.transactionList inclusion.transactions
  traces := ofKind demand.traces inclusion.traces
  stateDiffs := ofKind demand.stateDiffs inclusion.stateDiffs

theorem ofReaches_limited (reaches : List Reach) :
    ofReaches (reaches.map (.limited demand)) = (ofReaches reaches).limited demand := by
  simp only [ofReaches, limited, List.flatMap_map, Reach.limited, ascending_flatMap_ofKind]

end Inclusion

namespace Block

variable (block : Block)

theorem logsOf_limited (index : UInt32) :
    (block.limited demand).logsOf index = ofKind demand.logList (block.logsOf index) := by
  simp only [logsOf, limited, positionsWhere_ofKind, positionsWhere_map]
  rfl

theorem tracesOf_limited (index : UInt32) :
    (block.limited demand).tracesOf index = ofKind demand.traces (block.tracesOf index) := by
  simp only [tracesOf, limited, positionsWhere_ofKind, positionsWhere_map]
  rfl

theorem stateDiffsOf_limited (index : UInt32) :
    (block.limited demand).stateDiffsOf index =
      ofKind demand.stateDiffs (block.stateDiffsOf index) := by
  simp only [stateDiffsOf, limited, positionsWhere_ofKind, positionsWhere_map]
  rfl

theorem ancestors_limited (traces : demand.traces = true) (link : Option Nat) :
    (block.limited demand).ancestors link = block.ancestors link := by
  simp only [ancestors, limited, traces, ofKind_true, List.length_map]
  exact ancestorsWithin_map (Trace.limited demand) (fun _ => rfl) _ _ _

end Block

variable {demand} {request : Request} (covers : demand.Covers request) (block : Block)

namespace Request

include covers

theorem logReach?_limited (position : Nat) (log : Log) :
    request.logReach? (block.limited demand) position (log.limited demand) =
      (request.logReach? block position log).map (.limited demand) := by
  have same : request.logPulls? (log.limited demand) = request.logPulls? log := rfl
  rw [logReach?, logReach?, same]
  cases asked : request.logPulls? log with
  | none => rfl
  | some pulls =>
      have logs : demand.logList = true := covers.logs (ne_nil_of_pullsOf? asked)
      simp only [Option.map_some, Inclusion.Reach.limited, logs, ofKind_true, Block.logsOf_limited,
        Block.tracesOf_limited, Block.stateDiffsOf_limited, Log.limited, toList_shown,
        onlyIf_ofKind]

theorem transactionReach?_limited (position : Nat) (transaction : Transaction) :
    request.transactionReach? position (transaction.limited demand) =
      (request.transactionReach? position transaction).map (.limited demand) := by
  have same : request.transactionPulls? (transaction.limited demand) =
      request.transactionPulls? transaction := rfl
  rw [transactionReach?, transactionReach?, same]
  cases asked : request.transactionPulls? transaction with
  | none => rfl
  | some pulls =>
      have transactions : demand.transactionList = true :=
        covers.transactions (ne_nil_of_pullsOf? asked)
      simp only [Option.map_some, Inclusion.Reach.limited, transactions, ofKind_true,
        Transaction.limited, onlyIf_ofKind]

theorem traceReach?_limited (position : Nat) (trace : Trace) :
    request.traceReach? (block.limited demand) position (trace.limited demand) =
      (request.traceReach? block position trace).map (.limited demand) := by
  have same : request.tracePulls? (trace.limited demand) = request.tracePulls? trace := rfl
  rw [traceReach?, traceReach?, same]
  cases asked : request.tracePulls? trace with
  | none => rfl
  | some pulls =>
      have traces : demand.traces = true := covers.traces (ne_nil_of_pullsOf? asked)
      simp only [Option.map_some, Inclusion.Reach.limited, traces, ofKind_true,
        Block.logsOf_limited, Block.ancestors_limited demand block traces, Trace.limited,
        toList_shown, onlyIf_ofKind, ofKind_nil]

theorem stateDiffReach?_limited (position : Nat) (diff : StateDiff) :
    request.stateDiffReach? position (diff.limited demand) =
      (request.stateDiffReach? position diff).map (.limited demand) := by
  have same : request.stateDiffPulls? (diff.limited demand) = request.stateDiffPulls? diff := rfl
  rw [stateDiffReach?, stateDiffReach?, same]
  cases asked : request.stateDiffPulls? diff with
  | none => rfl
  | some pulls =>
      have stateDiffs : demand.stateDiffs = true := covers.stateDiffs (ne_nil_of_pullsOf? asked)
      simp only [Option.map_some, Inclusion.Reach.limited, stateDiffs, ofKind_true,
        StateDiff.limited, toList_shown, onlyIf_ofKind, ofKind_nil]

omit covers in
/-- What the items of a kind reach, when items that reach something are of a demanded kind. -/
theorem reaches_ofKind {α : Type} {demanded : Bool} {image : α → α}
    {before after : Nat → α → Option Inclusion.Reach}
    (kept : ∀ position item, before position (image item) =
      (after position item).map (.limited demand))
    (reaching : ∀ position item, (after position item).isSome → demanded = true)
    (items : List α) :
    reaches before (ofKind demanded (items.map image)) =
      (reaches after items).map (.limited demand) := by
  cases demanded with
  | true =>
      rw [ofKind_true, reaches, List.zipIdx_map, List.filterMap_map, reaches, List.map_filterMap]
      exact congrArg (List.filterMap · items.zipIdx) (funext fun entry => kept entry.2 entry.1)
  | false =>
      -- The items of this kind are gone, and there was nothing that they would have reached.
      have none : reaches after items = [] := by
        rw [reaches, List.filterMap_eq_nil_iff]
        intro entry _
        simpa using mt (reaching entry.2 entry.1)
      rw [none]
      rfl

/-- Without the items of other kinds the same items are included, as far as the demanded
kinds go. -/
theorem inclusion_limited :
    request.inclusion (block.limited demand) = (request.inclusion block).limited demand := by
  have logs : reaches (request.logReach? (block.limited demand)) (block.limited demand).logs =
      (reaches (request.logReach? block) block.logs).map (.limited demand) := by
    apply reaches_ofKind (logReach?_limited covers block)
    intro position log reached
    rw [logReach?, Option.isSome_map] at reached
    exact covers.logs (ne_nil_of_pullsOf? (Option.some_get reached).symm)
  have transactions :
      reaches request.transactionReach? (block.limited demand).transactions =
        (reaches request.transactionReach? block.transactions).map (.limited demand) := by
    apply reaches_ofKind (transactionReach?_limited covers)
    intro position transaction reached
    rw [transactionReach?, Option.isSome_map] at reached
    exact covers.transactions (ne_nil_of_pullsOf? (Option.some_get reached).symm)
  have traces :
      reaches (request.traceReach? (block.limited demand)) (block.limited demand).traces =
        (reaches (request.traceReach? block) block.traces).map (.limited demand) := by
    apply reaches_ofKind (traceReach?_limited covers block)
    intro position trace reached
    rw [traceReach?, Option.isSome_map] at reached
    exact covers.traces (ne_nil_of_pullsOf? (Option.some_get reached).symm)
  have stateDiffs :
      reaches request.stateDiffReach? (block.limited demand).stateDiffs =
        (reaches request.stateDiffReach? block.stateDiffs).map (.limited demand) := by
    apply reaches_ofKind (stateDiffReach?_limited covers)
    intro position diff reached
    rw [stateDiffReach?, Option.isSome_map] at reached
    exact covers.stateDiffs (ne_nil_of_pullsOf? (Option.some_get reached).symm)
  rw [inclusion, inclusion, ← Inclusion.ofReaches_limited, logs, transactions, traces, stateDiffs]
  simp only [List.map_append]

end Request

namespace Keep

/-- The marks of items of demanded kinds. -/
def limited (demand : Demand) (keep : Keep) : Keep where
  transactions := ofKind demand.transactionList keep.transactions
  logs := ofKind demand.logList keep.logs
  traces := ofKind demand.traces keep.traces
  stateDiffs := ofKind demand.stateDiffs keep.stateDiffs

theorem marks_ofKind {α : Type} (demanded hasEntries : Bool) (included : List Nat)
    (items : List α) :
    marks hasEntries (ofKind demanded included) (ofKind demanded items).length =
      ofKind demanded (marks hasEntries included items.length) := by
  cases demanded <;> rfl

end Keep

include covers in
theorem Request.keep_limited :
    request.keep (block.limited demand) = (request.keep block).limited demand := by
  rw [keep, inclusion_limited covers]
  simp only [Inclusion.limited, Block.limited, Keep.marks_ofKind, List.length_map]
  rfl

namespace Block

theorem prune_limited (keep : Keep) :
    (block.limited demand).prune (keep.limited demand) =
      (block.prune keep).limited demand := by
  apply eq_of_parts
  · rfl
  · simp only [prune_transactions, limited, Keep.limited, retain_ofKind, Keep.retain_map,
      map_ofKind, List.map_map]
    refine congrArg (ofKind _) (List.map_congr_left fun transaction _ => ?_)
    simp only [Function.comp_apply, Transaction.renumbered, Transaction.limited,
      newPositions_ofKind]
  · simp only [prune_logs, limited, Keep.limited, retain_ofKind, Keep.retain_map, map_ofKind,
      List.map_map]
    refine congrArg (ofKind _) (List.map_congr_left fun log _ => ?_)
    simp only [Function.comp_apply, Log.renumbered, Log.limited, bind_newPosition?_shown]
  · simp only [prune_traces, limited, Keep.limited, retain_ofKind, Keep.retain_map, map_ofKind,
      List.map_map]
    cases traces : demand.traces with
    | false => rfl
    | true =>
        refine List.map_congr_left fun trace _ => ?_
        simp only [Function.comp_apply, Trace.renumbered, Trace.limited, bind_newPosition?_shown,
          ofKind_true]
  · simp only [prune_stateDiffs, limited, Keep.limited, retain_ofKind, Keep.retain_map,
      map_ofKind, List.map_map]
    refine congrArg (ofKind _) (List.map_congr_left fun diff _ => ?_)
    simp only [Function.comp_apply, StateDiff.renumbered, StateDiff.limited,
      bind_newPosition?_shown]

include covers in
/-- Selecting does without the kinds that are not demanded. -/
theorem select_limited :
    (block.limited demand).select request = (block.select request).limited demand := by
  rw [select, request.keep_limited covers, prune_limited]
  rfl

end Block

/-! ## Demands of requests -/

/-- Whether only items of kinds that a demand has built are included. -/
structure Inclusion.Within (inclusion : Inclusion) (demand : Demand) : Prop where
  transactions : inclusion.transactions ≠ [] → demand.transactionList = true
  logs : inclusion.logs ≠ [] → demand.logList = true
  traces : inclusion.traces ≠ [] → demand.traces = true
  stateDiffs : inclusion.stateDiffs ≠ [] → demand.stateDiffs = true

/-- Asking for an item by a switch takes an entry with that switch on. -/
theorem Asks.any {α ε ρ : Type} {isMatch : ε → α → Bool} {pulls : ε → ρ} {entries : List ε}
    {switch : ρ → Bool} {item : α} (asks : Asks isMatch pulls entries switch item) :
    (entries.any fun entry => switch (pulls entry)) = true := by
  obtain ⟨entry, member, _, on⟩ := asks
  exact List.any_eq_true.mpr ⟨entry, member, on⟩

theorem Asks.ne_nil {α ε ρ : Type} {isMatch : ε → α → Bool} {pulls : ε → ρ} {entries : List ε}
    {switch : ρ → Bool} {item : α} (asks : Asks isMatch pulls entries switch item) :
    entries ≠ [] := by
  obtain ⟨_, member, _⟩ := asks
  exact List.ne_nil_of_mem member

variable (request) (fields : FieldSelection)

theorem Demand.of_covers : (Demand.of request fields).Covers request where
  transactions := by
    intro entries
    simp [Demand.of, Request.needsTransactions, entries]
  logs := by
    intro entries
    simp [Demand.of, Request.needsLogs, entries]
  traces := by
    intro entries
    simp [Demand.of, Request.needsTraces, entries]
  stateDiffs := by
    intro entries
    simp [Demand.of, Request.needsStateDiffs, entries]

/-- Whatever a block links, a request includes nothing of a kind that it does not demand. -/
theorem Request.inclusion_within : (request.inclusion block).Within (Demand.of request fields) where
  transactions := by
    intro included
    obtain ⟨position, member⟩ := List.exists_mem_of_ne_nil _ included
    rcases mem_inclusion_transactions.mp member with ⟨_, _, asks⟩ | ⟨_, _, asks, _⟩ |
      ⟨_, _, asks, _⟩ | ⟨_, _, asks, _⟩
    · exact (Demand.of_covers request fields).transactions asks.ne_nil
    all_goals simp [Demand.of, needsTransactions, Asks.any asks]
  logs := by
    intro included
    obtain ⟨position, member⟩ := List.exists_mem_of_ne_nil _ included
    rcases mem_inclusion_logs.mp member with ⟨_, _, asks⟩ | ⟨_, _, asks, _⟩ | ⟨_, _, asks, _⟩ |
      ⟨_, _, asks, _⟩
    · exact (Demand.of_covers request fields).logs asks.ne_nil
    · exact (Demand.of_covers request fields).logs asks.ne_nil
    all_goals simp [Demand.of, needsLogs, Asks.any asks]
  traces := by
    intro included
    obtain ⟨position, member⟩ := List.exists_mem_of_ne_nil _ included
    rcases mem_inclusion_traces.mp member with ⟨_, _, asks⟩ | ⟨_, _, asks, _⟩ |
      ⟨_, _, asks, _⟩ | ⟨_, _, asks, _⟩ | ⟨_, _, asks, _⟩
    · exact (Demand.of_covers request fields).traces asks.ne_nil
    · exact (Demand.of_covers request fields).traces asks.ne_nil
    · exact (Demand.of_covers request fields).traces asks.ne_nil
    all_goals simp [Demand.of, needsTraces, Asks.any asks]
  stateDiffs := by
    intro included
    obtain ⟨position, member⟩ := List.exists_mem_of_ne_nil _ included
    rcases mem_inclusion_stateDiffs.mp member with ⟨_, _, asks⟩ | ⟨_, _, asks, _⟩ |
      ⟨_, _, asks, _⟩
    · exact (Demand.of_covers request fields).stateDiffs asks.ne_nil
    all_goals simp [Demand.of, needsStateDiffs, Asks.any asks]

/-- What a request demands is enough for it: of every demanded kind it keeps the same items
in the same order, linked among one another alike, whether or not the block has items of
other kinds.  And of other kinds it includes nothing, whatever the block. -/
theorem select_wire_built (request : Request) (fields : FieldSelection) (block : Block) :
    let demand := Demand.of request fields
    let part := (block.built demand).wire.select request
    let whole := block.wire.select request
    part = whole.limited demand ∧
      (demand.transactionList = true →
        part.transactions.map Transaction.unlinked = whole.transactions.map Transaction.unlinked) ∧
      (demand.logList = true →
        part.logs.map Log.unlinked = whole.logs.map Log.unlinked) ∧
      (demand.traces = true →
        part.traces.map Trace.unlinked = whole.traces.map Trace.unlinked) ∧
      (demand.stateDiffs = true →
        part.stateDiffs.map StateDiff.unlinked = whole.stateDiffs.map StateDiff.unlinked) ∧
      ∀ other : Block, (request.inclusion other).Within demand := by
  intro demand part whole
  have limited : part = whole.limited demand := by
    rw [← Block.select_limited (Demand.of_covers request fields), ← Block.wire_built]
  refine ⟨limited, ?_, ?_, ?_, ?_, fun other => request.inclusion_within other fields⟩
  · intro transactions
    simp only [limited, Block.limited, transactions, ofKind_true, List.map_map]
    rfl
  · intro logs
    simp only [limited, Block.limited, logs, ofKind_true, List.map_map]
    rfl
  · intro traces
    simp only [limited, Block.limited, traces, ofKind_true, List.map_map]
    rfl
  · intro stateDiffs
    simp only [limited, Block.limited, stateDiffs, ofKind_true, List.map_map]
    rfl

end ChainFeed
