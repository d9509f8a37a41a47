import ChainFeed.Selection.Inclusion
import Mathlib.Data.List.Basic

/-!
# Theory of inclusion

What one item pulls in is the union over all entries that it matches, so a
position is included exactly if some entry includes it, through one switch.  The
statements here take the links of the block as they stand.
-/

namespace ChainFeed

open Inclusion

/-! ## Entries that ask for an item -/

/-- Whether some entry that an item matches has a switch on. -/
def Asks {α ε ρ : Type} (isMatch : ε → α → Bool) (pulls : ε → ρ) (entries : List ε)
    (switch : ρ → Bool) (item : α) : Prop :=
  ∃ entry ∈ entries, isMatch entry item = true ∧ switch (pulls entry) = true

instance {α ε ρ : Type} (isMatch : ε → α → Bool) (pulls : ε → ρ) (entries : List ε)
    (switch : ρ → Bool) (item : α) : Decidable (Asks isMatch pulls entries switch item) :=
  inferInstanceAs (Decidable (∃ entry ∈ entries, _))

/-- The switch of the item itself, which every matching entry has on. -/
def itself {ρ : Type} (_ : ρ) : Bool := true

/-- A switch is on in the union of what the matching entries pull in exactly if it
is on in one of them. -/
theorem asks_iff_pullsOf? {α ε ρ : Type} {isMatch : ε → α → Bool} {pulls : ε → ρ}
    {union : ρ → ρ → ρ} {switch : ρ → Bool} {entries : List ε} {item : α}
    (distributes : ∀ left right, switch (union left right) = (switch left || switch right)) :
    Asks isMatch pulls entries switch item ↔
      ∃ pulled, pullsOf? (isMatch · item) pulls union entries = some pulled ∧
        switch pulled = true := by
  induction entries with
  | nil => simp [Asks, pullsOf?]
  | cons entry rest ih =>
      simp only [Asks, List.exists_mem_cons_iff] at ih ⊢
      rw [ih, pullsOf?]
      by_cases matched : isMatch entry item = true
      · cases later : pullsOf? (isMatch · item) pulls union rest with
        | none => simp [matched]
        | some pulled => simp [matched, distributes]
      · simp [matched]

namespace Request

variable (request : Request)

/-- Whether an entry with a switch on asks for a log. -/
def AsksLog : (LogPulls → Bool) → Log → Prop :=
  Asks LogEntry.isMatch LogEntry.pulls request.logs

/-- Whether an entry with a switch on asks for a transaction. -/
def AsksTransaction : (TransactionPulls → Bool) → Transaction → Prop :=
  Asks TransactionEntry.isMatch TransactionEntry.pulls request.transactions

/-- Whether an entry with a switch on asks for a trace. -/
def AsksTrace : (TracePulls → Bool) → Trace → Prop :=
  Asks TraceEntry.isMatch TraceEntry.pulls request.traces

/-- Whether an entry with a switch on asks for a state diff. -/
def AsksStateDiff : (StateDiffPulls → Bool) → StateDiff → Prop :=
  Asks StateDiffEntry.isMatch StateDiffEntry.pulls request.stateDiffs

instance (switch : LogPulls → Bool) (log : Log) : Decidable (request.AsksLog switch log) :=
  inferInstanceAs (Decidable (Asks _ _ _ _ _))

instance (switch : TransactionPulls → Bool) (transaction : Transaction) :
    Decidable (request.AsksTransaction switch transaction) :=
  inferInstanceAs (Decidable (Asks _ _ _ _ _))

instance (switch : TracePulls → Bool) (trace : Trace) :
    Decidable (request.AsksTrace switch trace) :=
  inferInstanceAs (Decidable (Asks _ _ _ _ _))

instance (switch : StateDiffPulls → Bool) (diff : StateDiff) :
    Decidable (request.AsksStateDiff switch diff) :=
  inferInstanceAs (Decidable (Asks _ _ _ _ _))

/-! ## Reaches -/

theorem mem_onlyIf {switch : Bool} {positions : List Nat} {position : Nat} :
    position ∈ onlyIf switch positions ↔ switch = true ∧ position ∈ positions := by
  cases switch <;> simp [onlyIf]

section Reaches

variable {α ρ : Type} {items : List α} {position : Nat} {pulls? : α → Option ρ}

/-- What some items reach, when the reach of an item depends on what it pulls in. -/
theorem mem_flatMap_reaches {reach : Nat → α → ρ → Reach} {part : Reach → List Nat} :
    position ∈ (reaches (fun index item => (pulls? item).map (reach index item)) items).flatMap
        part ↔
      ∃ (index : Nat) (item : α), items[index]? = some item ∧
        ∃ pulled, pulls? item = some pulled ∧ position ∈ part (reach index item pulled) := by
  simp only [reaches, List.mem_flatMap, List.mem_filterMap, Prod.exists,
    List.mem_zipIdx_iff_getElem?, Option.map_eq_some_iff]
  constructor
  · rintro ⟨_, ⟨item, index, found, pulled, equal, rfl⟩, member⟩
    exact ⟨index, item, found, pulled, equal, member⟩
  · rintro ⟨index, item, found, pulled, equal, member⟩
    exact ⟨_, ⟨item, index, found, pulled, equal, rfl⟩, member⟩

variable {asks : (ρ → Bool) → α → Prop}

/-- Positions that items pull in by a switch. -/
theorem exists_pulled_iff {switch : ρ → Bool} {positions : α → List Nat}
    (asks_iff : ∀ item, asks switch item ↔
      ∃ pulled, pulls? item = some pulled ∧ switch pulled = true) :
    (∃ (index : Nat) (item : α), items[index]? = some item ∧
        ∃ pulled, pulls? item = some pulled ∧
          position ∈ onlyIf (switch pulled) (positions item)) ↔
      ∃ item ∈ items, asks switch item ∧ position ∈ positions item := by
  simp only [mem_onlyIf]
  constructor
  · rintro ⟨index, item, found, pulled, equal, on, member⟩
    exact ⟨item, List.mem_of_getElem? found, (asks_iff item).mpr ⟨pulled, equal, on⟩, member⟩
  · rintro ⟨item, itemMember, asked, member⟩
    obtain ⟨index, found⟩ := List.getElem?_of_mem itemMember
    obtain ⟨pulled, equal, on⟩ := (asks_iff item).mp asked
    exact ⟨index, item, found, pulled, equal, on, member⟩

/-- Positions of the items themselves. -/
theorem exists_itself_iff
    (asks_iff : ∀ item, asks itself item ↔
      ∃ pulled, pulls? item = some pulled ∧ itself pulled = true) :
    (∃ (index : Nat) (item : α), items[index]? = some item ∧
        ∃ pulled, pulls? item = some pulled ∧ position = index) ↔
      ∃ item, items[position]? = some item ∧ asks itself item := by
  constructor
  · rintro ⟨_, item, found, pulled, equal, rfl⟩
    exact ⟨item, found, (asks_iff item).mpr ⟨pulled, equal, rfl⟩⟩
  · rintro ⟨item, found, asked⟩
    obtain ⟨pulled, equal, _⟩ := (asks_iff item).mp asked
    exact ⟨position, item, found, pulled, equal, rfl⟩

end Reaches

/-! ## What the items of each kind reach -/

variable {request}

theorem asksLog_iff {switch : LogPulls → Bool}
    (distributes : ∀ left right, switch (.union left right) = (switch left || switch right))
    (log : Log) :
    request.AsksLog switch log ↔
      ∃ pulled, request.logPulls? log = some pulled ∧ switch pulled = true :=
  asks_iff_pullsOf? distributes

theorem asksTransaction_iff {switch : TransactionPulls → Bool}
    (distributes : ∀ left right, switch (.union left right) = (switch left || switch right))
    (transaction : Transaction) :
    request.AsksTransaction switch transaction ↔
      ∃ pulled, request.transactionPulls? transaction = some pulled ∧ switch pulled = true :=
  asks_iff_pullsOf? distributes

theorem asksTrace_iff {switch : TracePulls → Bool}
    (distributes : ∀ left right, switch (.union left right) = (switch left || switch right))
    (trace : Trace) :
    request.AsksTrace switch trace ↔
      ∃ pulled, request.tracePulls? trace = some pulled ∧ switch pulled = true :=
  asks_iff_pullsOf? distributes

theorem asksStateDiff_iff {switch : StateDiffPulls → Bool}
    (distributes : ∀ left right, switch (.union left right) = (switch left || switch right))
    (diff : StateDiff) :
    request.AsksStateDiff switch diff ↔
      ∃ pulled, request.stateDiffPulls? diff = some pulled ∧ switch pulled = true :=
  asks_iff_pullsOf? distributes

variable {block : Block} {position : Nat}

/-- Which logs are included. -/
theorem mem_inclusion_logs :
    position ∈ (request.inclusion block).logs ↔
      (∃ log, block.logs[position]? = some log ∧ request.AsksLog itself log) ∨
      (∃ log ∈ block.logs, request.AsksLog (·.transactionLogs) log ∧
        position ∈ block.logsOf log.transactionIndex) ∨
      (∃ transaction ∈ block.transactions, request.AsksTransaction (·.logs) transaction ∧
        position ∈ transaction.logs) ∨
      (∃ trace ∈ block.traces, request.AsksTrace (·.transactionLogs) trace ∧
        position ∈ block.logsOf trace.transactionIndex) := by
  have ofLogs : position ∈ (reaches (request.logReach? block) block.logs).flatMap Reach.logs ↔
      (∃ log, block.logs[position]? = some log ∧ request.AsksLog itself log) ∨
      (∃ log ∈ block.logs, request.AsksLog (·.transactionLogs) log ∧
        position ∈ block.logsOf log.transactionIndex) := by
    apply mem_flatMap_reaches.trans
    simp only [List.mem_cons, and_or_left, exists_or]
    rw [exists_itself_iff (asksLog_iff fun _ _ => rfl),
      exists_pulled_iff (asksLog_iff fun _ _ => rfl)]
  have ofTransactions :
      position ∈ (reaches request.transactionReach? block.transactions).flatMap Reach.logs ↔
        ∃ transaction ∈ block.transactions, request.AsksTransaction (·.logs) transaction ∧
          position ∈ transaction.logs :=
    mem_flatMap_reaches.trans (exists_pulled_iff (asksTransaction_iff fun _ _ => rfl))
  have ofTraces :
      position ∈ (reaches (request.traceReach? block) block.traces).flatMap Reach.logs ↔
        ∃ trace ∈ block.traces, request.AsksTrace (·.transactionLogs) trace ∧
          position ∈ block.logsOf trace.transactionIndex :=
    mem_flatMap_reaches.trans (exists_pulled_iff (asksTrace_iff fun _ _ => rfl))
  have ofStateDiffs :
      position ∉ (reaches request.stateDiffReach? block.stateDiffs).flatMap Reach.logs := by
    intro member
    obtain ⟨_, _, _, _, _, member⟩ := mem_flatMap_reaches.mp member
    exact List.not_mem_nil member
  simp only [inclusion, ofReaches, mem_ascending, List.flatMap_append, List.mem_append, ofLogs,
    ofTransactions, ofTraces, ofStateDiffs, or_false, or_assoc]

/-- Which transactions are included. -/
theorem mem_inclusion_transactions :
    position ∈ (request.inclusion block).transactions ↔
      (∃ transaction, block.transactions[position]? = some transaction ∧
        request.AsksTransaction itself transaction) ∨
      (∃ log ∈ block.logs, request.AsksLog (·.transaction) log ∧
        position ∈ log.transaction.toList) ∨
      (∃ trace ∈ block.traces, request.AsksTrace (·.transaction) trace ∧
        position ∈ trace.transaction.toList) ∨
      (∃ diff ∈ block.stateDiffs, request.AsksStateDiff (·.transaction) diff ∧
        position ∈ diff.transaction.toList) := by
  have ofLogs :
      position ∈ (reaches (request.logReach? block) block.logs).flatMap Reach.transactions ↔
        ∃ log ∈ block.logs, request.AsksLog (·.transaction) log ∧
          position ∈ log.transaction.toList :=
    mem_flatMap_reaches.trans (exists_pulled_iff (asksLog_iff fun _ _ => rfl))
  have ofTransactions :
      position ∈ (reaches request.transactionReach? block.transactions).flatMap
          Reach.transactions ↔
        ∃ transaction, block.transactions[position]? = some transaction ∧
          request.AsksTransaction itself transaction := by
    apply mem_flatMap_reaches.trans
    simp only [List.mem_singleton]
    exact exists_itself_iff (asksTransaction_iff fun _ _ => rfl)
  have ofTraces :
      position ∈ (reaches (request.traceReach? block) block.traces).flatMap Reach.transactions ↔
        ∃ trace ∈ block.traces, request.AsksTrace (·.transaction) trace ∧
          position ∈ trace.transaction.toList :=
    mem_flatMap_reaches.trans (exists_pulled_iff (asksTrace_iff fun _ _ => rfl))
  have ofStateDiffs :
      position ∈ (reaches request.stateDiffReach? block.stateDiffs).flatMap Reach.transactions ↔
        ∃ diff ∈ block.stateDiffs, request.AsksStateDiff (·.transaction) diff ∧
          position ∈ diff.transaction.toList :=
    mem_flatMap_reaches.trans (exists_pulled_iff (asksStateDiff_iff fun _ _ => rfl))
  simp only [inclusion, ofReaches, mem_ascending, List.flatMap_append, List.mem_append, ofLogs,
    ofTransactions, ofTraces, ofStateDiffs]
  rw [or_assoc, or_assoc, or_left_comm]

/-- Which traces are included. -/
theorem mem_inclusion_traces :
    position ∈ (request.inclusion block).traces ↔
      (∃ trace, block.traces[position]? = some trace ∧ request.AsksTrace itself trace) ∨
      (∃ trace ∈ block.traces, request.AsksTrace (·.parents) trace ∧
        position ∈ block.ancestors trace.parent) ∨
      (∃ trace ∈ block.traces, request.AsksTrace (·.subtraces) trace ∧
        position ∈ trace.children) ∨
      (∃ log ∈ block.logs, request.AsksLog (·.transactionTraces) log ∧
        position ∈ block.tracesOf log.transactionIndex) ∨
      (∃ transaction ∈ block.transactions, request.AsksTransaction (·.traces) transaction ∧
        position ∈ transaction.traces) := by
  have ofLogs : position ∈ (reaches (request.logReach? block) block.logs).flatMap Reach.traces ↔
      ∃ log ∈ block.logs, request.AsksLog (·.transactionTraces) log ∧
        position ∈ block.tracesOf log.transactionIndex :=
    mem_flatMap_reaches.trans (exists_pulled_iff (asksLog_iff fun _ _ => rfl))
  have ofTransactions :
      position ∈ (reaches request.transactionReach? block.transactions).flatMap Reach.traces ↔
        ∃ transaction ∈ block.transactions, request.AsksTransaction (·.traces) transaction ∧
          position ∈ transaction.traces :=
    mem_flatMap_reaches.trans (exists_pulled_iff (asksTransaction_iff fun _ _ => rfl))
  have ofTraces :
      position ∈ (reaches (request.traceReach? block) block.traces).flatMap Reach.traces ↔
        (∃ trace, block.traces[position]? = some trace ∧ request.AsksTrace itself trace) ∨
        (∃ trace ∈ block.traces, request.AsksTrace (·.parents) trace ∧
          position ∈ block.ancestors trace.parent) ∨
        (∃ trace ∈ block.traces, request.AsksTrace (·.subtraces) trace ∧
          position ∈ trace.children) := by
    apply mem_flatMap_reaches.trans
    simp only [List.mem_cons, List.mem_append, and_or_left, exists_or]
    rw [exists_itself_iff (asksTrace_iff fun _ _ => rfl),
      exists_pulled_iff (asksTrace_iff fun _ _ => rfl),
      exists_pulled_iff (asksTrace_iff fun _ _ => rfl)]
  have ofStateDiffs :
      position ∉ (reaches request.stateDiffReach? block.stateDiffs).flatMap Reach.traces := by
    intro member
    obtain ⟨_, _, _, _, _, member⟩ := mem_flatMap_reaches.mp member
    exact List.not_mem_nil member
  simp only [inclusion, ofReaches, mem_ascending, List.flatMap_append, List.mem_append, ofLogs,
    ofTransactions, ofTraces, ofStateDiffs, or_false]
  rw [or_comm, or_assoc, or_assoc]

/-- Which state diffs are included. -/
theorem mem_inclusion_stateDiffs :
    position ∈ (request.inclusion block).stateDiffs ↔
      (∃ diff, block.stateDiffs[position]? = some diff ∧ request.AsksStateDiff itself diff) ∨
      (∃ log ∈ block.logs, request.AsksLog (·.transactionStateDiffs) log ∧
        position ∈ block.stateDiffsOf log.transactionIndex) ∨
      (∃ transaction ∈ block.transactions, request.AsksTransaction (·.stateDiffs) transaction ∧
        position ∈ transaction.stateDiffs) := by
  have ofLogs :
      position ∈ (reaches (request.logReach? block) block.logs).flatMap Reach.stateDiffs ↔
        ∃ log ∈ block.logs, request.AsksLog (·.transactionStateDiffs) log ∧
          position ∈ block.stateDiffsOf log.transactionIndex :=
    mem_flatMap_reaches.trans (exists_pulled_iff (asksLog_iff fun _ _ => rfl))
  have ofTransactions :
      position ∈ (reaches request.transactionReach? block.transactions).flatMap
          Reach.stateDiffs ↔
        ∃ transaction ∈ block.transactions, request.AsksTransaction (·.stateDiffs) transaction ∧
          position ∈ transaction.stateDiffs :=
    mem_flatMap_reaches.trans (exists_pulled_iff (asksTransaction_iff fun _ _ => rfl))
  have ofTraces :
      position ∉ (reaches (request.traceReach? block) block.traces).flatMap Reach.stateDiffs := by
    intro member
    obtain ⟨_, _, _, _, _, member⟩ := mem_flatMap_reaches.mp member
    exact List.not_mem_nil member
  have ofStateDiffs :
      position ∈ (reaches request.stateDiffReach? block.stateDiffs).flatMap Reach.stateDiffs ↔
        ∃ diff, block.stateDiffs[position]? = some diff ∧
          request.AsksStateDiff itself diff := by
    apply mem_flatMap_reaches.trans
    simp only [List.mem_singleton]
    exact exists_itself_iff (asksStateDiff_iff fun _ _ => rfl)
  simp only [inclusion, ofReaches, mem_ascending, List.flatMap_append, List.mem_append, ofLogs,
    ofTransactions, ofTraces, ofStateDiffs, or_false]
  rw [or_comm]

end Request

end ChainFeed
