import ChainFeed.Proofs.Reselection

/-!
# Entries as alternatives

The entries of a request work independently of one another: what two requests include
together is what a request with the entries of both includes.  So neither the order of the
entries nor their repetition matters, an entry may be split by its switches, and further
entries of a kind never remove anything.
-/

namespace ChainFeed

/-! ## Requests with related entries -/

/-- An entry for logs with other switches. -/
def LogEntry.withPulls (entry : LogEntry) (pulls : LogPulls) : LogEntry :=
  { entry with pulls }

/-- An entry for transactions with other switches. -/
def TransactionEntry.withPulls (entry : TransactionEntry) (pulls : TransactionPulls) :
    TransactionEntry :=
  { entry with pulls }

/-- An entry for traces with other switches. -/
def TraceEntry.withPulls (entry : TraceEntry) (pulls : TracePulls) : TraceEntry :=
  { entry with pulls }

/-- An entry for state diffs with other switches. -/
def StateDiffEntry.withPulls (entry : StateDiffEntry) (pulls : StateDiffPulls) :
    StateDiffEntry :=
  { entry with pulls }

/-- One entry is replaced by two with the same value lists, between which its switches are
divided. -/
inductive SplitsEntry {ε ρ : Type} (withPulls : ε → ρ → ε) (union : ρ → ρ → ρ) :
    List ε → List ε → Prop where
  | split (before after : List ε) (entry : ε) (left right : ρ) :
      SplitsEntry withPulls union (before ++ withPulls entry (union left right) :: after)
        (before ++ withPulls entry left :: withPulls entry right :: after)

/-- An entry is added to others, anywhere among them. -/
inductive AddsEntry {ε : Type} : List ε → List ε → Prop where
  | add (before after : List ε) (entry : ε) (others : before ++ after ≠ []) :
      AddsEntry (before ++ after) (before ++ entry :: after)

namespace Request

/-- The request with the entries of two requests. -/
def append (first second : Request) : Request where
  logs := first.logs ++ second.logs
  transactions := first.transactions ++ second.transactions
  traces := first.traces ++ second.traces
  stateDiffs := first.stateDiffs ++ second.stateDiffs

instance : Append Request := ⟨append⟩

/-- Whether two requests have the same entries, in any order and any number of times. -/
structure SameEntries (request other : Request) : Prop where
  logs : ∀ entry, entry ∈ request.logs ↔ entry ∈ other.logs
  transactions : ∀ entry, entry ∈ request.transactions ↔ entry ∈ other.transactions
  traces : ∀ entry, entry ∈ request.traces ↔ entry ∈ other.traces
  stateDiffs : ∀ entry, entry ∈ request.stateDiffs ↔ entry ∈ other.stateDiffs

/-- The request with one entry of one kind split. -/
inductive SplitsInto (request : Request) : Request → Prop where
  | logs {entries : List LogEntry}
      (splits : SplitsEntry LogEntry.withPulls .union request.logs entries) :
      SplitsInto request { request with logs := entries }
  | transactions {entries : List TransactionEntry}
      (splits : SplitsEntry TransactionEntry.withPulls .union request.transactions entries) :
      SplitsInto request { request with transactions := entries }
  | traces {entries : List TraceEntry}
      (splits : SplitsEntry TraceEntry.withPulls .union request.traces entries) :
      SplitsInto request { request with traces := entries }
  | stateDiffs {entries : List StateDiffEntry}
      (splits : SplitsEntry StateDiffEntry.withPulls .union request.stateDiffs entries) :
      SplitsInto request { request with stateDiffs := entries }

/-- The request with a further entry of a kind of which it has entries. -/
inductive GainsEntry (request : Request) : Request → Prop where
  | logs {entries : List LogEntry} (adds : AddsEntry request.logs entries) :
      GainsEntry request { request with logs := entries }
  | transactions {entries : List TransactionEntry}
      (adds : AddsEntry request.transactions entries) :
      GainsEntry request { request with transactions := entries }
  | traces {entries : List TraceEntry} (adds : AddsEntry request.traces entries) :
      GainsEntry request { request with traces := entries }
  | stateDiffs {entries : List StateDiffEntry} (adds : AddsEntry request.stateDiffs entries) :
      GainsEntry request { request with stateDiffs := entries }

end Request

/-! ## What entries ask for -/

/-- Whether a switch is on in a union exactly if it is on in a part of it. -/
def Distributes {ρ : Type} (union : ρ → ρ → ρ) (switch : ρ → Bool) : Prop :=
  ∀ left right, switch (union left right) = (switch left || switch right)

section Asking

variable {α ε ρ : Type} {isMatch : ε → α → Bool} {pulls : ε → ρ} {withPulls : ε → ρ → ε}
  {union : ρ → ρ → ρ} {entries others : List ε} {switch : ρ → Bool} {item : α}

theorem asks_append :
    Asks isMatch pulls (entries ++ others) switch item ↔
      Asks isMatch pulls entries switch item ∨ Asks isMatch pulls others switch item := by
  simp only [Asks, List.mem_append, or_and_right, exists_or]

theorem asks_cons {entry : ε} :
    Asks isMatch pulls (entry :: entries) switch item ↔
      (isMatch entry item = true ∧ switch (pulls entry) = true) ∨
        Asks isMatch pulls entries switch item := by
  simp only [Asks, List.exists_mem_cons_iff]

theorem Asks.of_subset (subset : entries ⊆ others)
    (asks : Asks isMatch pulls entries switch item) :
    Asks isMatch pulls others switch item := by
  obtain ⟨entry, member, matched, on⟩ := asks
  exact ⟨entry, subset member, matched, on⟩

/-- The parts of an entry ask together for what the entry asks for. -/
theorem SplitsEntry.asks_iff (splits : SplitsEntry withPulls union entries others)
    (sameValues : ∀ entry pulled, isMatch (withPulls entry pulled) item = isMatch entry item)
    (pulled : ∀ entry other, pulls (withPulls entry other) = other)
    (distributes : Distributes union switch) :
    Asks isMatch pulls entries switch item ↔ Asks isMatch pulls others switch item := by
  cases splits with
  | split before after entry left right =>
      simp only [asks_append, asks_cons, sameValues, pulled, distributes left right,
        Bool.or_eq_true, and_or_left, or_assoc]

theorem AddsEntry.subset (adds : AddsEntry entries others) : entries ⊆ others := by
  cases adds with
  | add before after entry _ =>
      intro other member
      rcases List.mem_append.mp member with earlier | later
      · exact List.mem_append_left _ earlier
      · exact List.mem_append_right _ (List.mem_cons_of_mem entry later)

theorem SplitsEntry.isEmpty_eq (splits : SplitsEntry withPulls union entries others) :
    entries.isEmpty = others.isEmpty := by
  cases splits with
  | split before after entry left right => cases before <;> rfl

theorem AddsEntry.isEmpty_eq (adds : AddsEntry entries others) :
    entries.isEmpty = others.isEmpty := by
  cases adds with
  | add before after entry nonempty =>
      rw [List.isEmpty_eq_false_iff.mpr nonempty, List.isEmpty_eq_false_iff.mpr (by simp)]

theorem isEmpty_eq_of_mem_iff (same : ∀ entry, entry ∈ entries ↔ entry ∈ others) :
    entries.isEmpty = others.isEmpty := by
  rw [Bool.eq_iff_iff, List.isEmpty_iff, List.isEmpty_iff, List.eq_nil_iff_forall_not_mem,
    List.eq_nil_iff_forall_not_mem]
  exact forall_congr' fun entry => not_congr (same entry)

end Asking

namespace Request

variable {request wider other : Request}

/-- Whether a request asks for no more than another one. -/
structure AsksWithin (request wider : Request) : Prop where
  logs : ∀ {switch : LogPulls → Bool}, Distributes .union switch → ∀ {log},
    request.AsksLog switch log → wider.AsksLog switch log
  transactions : ∀ {switch : TransactionPulls → Bool}, Distributes .union switch →
    ∀ {transaction}, request.AsksTransaction switch transaction →
      wider.AsksTransaction switch transaction
  traces : ∀ {switch : TracePulls → Bool}, Distributes .union switch → ∀ {trace},
    request.AsksTrace switch trace → wider.AsksTrace switch trace
  stateDiffs : ∀ {switch : StateDiffPulls → Bool}, Distributes .union switch → ∀ {diff},
    request.AsksStateDiff switch diff → wider.AsksStateDiff switch diff

/-- Whether two requests have entries of the same kinds. -/
structure SameKinds (request other : Request) : Prop where
  logs : request.logs.isEmpty = other.logs.isEmpty
  transactions : request.transactions.isEmpty = other.transactions.isEmpty
  traces : request.traces.isEmpty = other.traces.isEmpty
  stateDiffs : request.stateDiffs.isEmpty = other.stateDiffs.isEmpty

theorem asksWithin_of_subset (logs : request.logs ⊆ wider.logs)
    (transactions : request.transactions ⊆ wider.transactions)
    (traces : request.traces ⊆ wider.traces)
    (stateDiffs : request.stateDiffs ⊆ wider.stateDiffs) : request.AsksWithin wider where
  logs _ _ asks := Asks.of_subset logs asks
  transactions _ _ asks := Asks.of_subset transactions asks
  traces _ _ asks := Asks.of_subset traces asks
  stateDiffs _ _ asks := Asks.of_subset stateDiffs asks

theorem AsksWithin.refl (request : Request) : request.AsksWithin request :=
  asksWithin_of_subset (.refl _) (.refl _) (.refl _) (.refl _)

theorem GainsEntry.asksWithin (gains : request.GainsEntry wider) :
    request.AsksWithin wider := by
  cases gains with
  | logs adds => exact asksWithin_of_subset adds.subset (.refl _) (.refl _) (.refl _)
  | transactions adds => exact asksWithin_of_subset (.refl _) adds.subset (.refl _) (.refl _)
  | traces adds => exact asksWithin_of_subset (.refl _) (.refl _) adds.subset (.refl _)
  | stateDiffs adds => exact asksWithin_of_subset (.refl _) (.refl _) (.refl _) adds.subset

theorem GainsEntry.sameKinds (gains : request.GainsEntry wider) : request.SameKinds wider := by
  cases gains with
  | logs adds => exact ⟨adds.isEmpty_eq, rfl, rfl, rfl⟩
  | transactions adds => exact ⟨rfl, adds.isEmpty_eq, rfl, rfl⟩
  | traces adds => exact ⟨rfl, rfl, adds.isEmpty_eq, rfl⟩
  | stateDiffs adds => exact ⟨rfl, rfl, rfl, adds.isEmpty_eq⟩

/-- Whether two requests ask for the same. -/
structure AsksAlike (request other : Request) : Prop where
  there : request.AsksWithin other
  back : other.AsksWithin request
  kinds : request.SameKinds other

theorem SameEntries.asksAlike (same : request.SameEntries other) : request.AsksAlike other where
  there := asksWithin_of_subset (fun _ => (same.logs _).mp) (fun _ => (same.transactions _).mp)
    (fun _ => (same.traces _).mp) (fun _ => (same.stateDiffs _).mp)
  back := asksWithin_of_subset (fun _ => (same.logs _).mpr) (fun _ => (same.transactions _).mpr)
    (fun _ => (same.traces _).mpr) (fun _ => (same.stateDiffs _).mpr)
  kinds := ⟨isEmpty_eq_of_mem_iff same.logs, isEmpty_eq_of_mem_iff same.transactions,
    isEmpty_eq_of_mem_iff same.traces, isEmpty_eq_of_mem_iff same.stateDiffs⟩

theorem SplitsInto.asksAlike (splits : request.SplitsInto other) : request.AsksAlike other := by
  have unchanged := AsksWithin.refl request
  cases splits with
  | @logs entries splits =>
      have alike {switch : LogPulls → Bool} (distributes : Distributes .union switch) (log : Log) :
          request.AsksLog switch log ↔
            Asks LogEntry.isMatch LogEntry.pulls entries switch log :=
        splits.asks_iff (fun _ _ => rfl) (fun _ _ => rfl) distributes
      exact ⟨{ unchanged with logs := fun distributes log => (alike distributes log).mp },
        { unchanged with logs := fun distributes log => (alike distributes log).mpr },
        ⟨splits.isEmpty_eq, rfl, rfl, rfl⟩⟩
  | @transactions entries splits =>
      have alike {switch : TransactionPulls → Bool} (distributes : Distributes .union switch)
          (transaction : Transaction) :
          request.AsksTransaction switch transaction ↔
            Asks TransactionEntry.isMatch TransactionEntry.pulls entries switch transaction :=
        splits.asks_iff (fun _ _ => rfl) (fun _ _ => rfl) distributes
      exact ⟨{ unchanged with transactions := fun distributes item => (alike distributes item).mp },
        { unchanged with transactions := fun distributes item => (alike distributes item).mpr },
        ⟨rfl, splits.isEmpty_eq, rfl, rfl⟩⟩
  | @traces entries splits =>
      have alike {switch : TracePulls → Bool} (distributes : Distributes .union switch)
          (trace : Trace) :
          request.AsksTrace switch trace ↔
            Asks TraceEntry.isMatch TraceEntry.pulls entries switch trace :=
        splits.asks_iff (fun _ _ => rfl) (fun _ _ => rfl) distributes
      exact ⟨{ unchanged with traces := fun distributes item => (alike distributes item).mp },
        { unchanged with traces := fun distributes item => (alike distributes item).mpr },
        ⟨rfl, rfl, splits.isEmpty_eq, rfl⟩⟩
  | @stateDiffs entries splits =>
      have alike {switch : StateDiffPulls → Bool} (distributes : Distributes .union switch)
          (diff : StateDiff) :
          request.AsksStateDiff switch diff ↔
            Asks StateDiffEntry.isMatch StateDiffEntry.pulls entries switch diff :=
        splits.asks_iff (fun _ _ => rfl) (fun _ _ => rfl) distributes
      exact ⟨{ unchanged with stateDiffs := fun distributes item => (alike distributes item).mp },
        { unchanged with stateDiffs := fun distributes item => (alike distributes item).mpr },
        ⟨rfl, rfl, rfl, splits.isEmpty_eq⟩⟩

end Request

/-! ## What requests include -/

/-- Whether an inclusion holds exactly what two inclusions hold together. -/
structure Inclusion.IsUnion (whole left right : Inclusion) : Prop where
  logs : ∀ position, position ∈ whole.logs ↔ position ∈ left.logs ∨ position ∈ right.logs
  transactions : ∀ position, position ∈ whole.transactions ↔
    position ∈ left.transactions ∨ position ∈ right.transactions
  traces : ∀ position, position ∈ whole.traces ↔
    position ∈ left.traces ∨ position ∈ right.traces
  stateDiffs : ∀ position, position ∈ whole.stateDiffs ↔
    position ∈ left.stateDiffs ∨ position ∈ right.stateDiffs

/-- Whether an inclusion holds no more than another one. -/
structure Inclusion.Subset (inclusion other : Inclusion) : Prop where
  logs : inclusion.logs ⊆ other.logs
  transactions : inclusion.transactions ⊆ other.transactions
  traces : inclusion.traces ⊆ other.traces
  stateDiffs : inclusion.stateDiffs ⊆ other.stateDiffs

section Rules

variable {α ε ρ : Type} {isMatch : ε → α → Bool} {pulls : ε → ρ} {entries others : List ε}
  {switch : ρ → Bool} {items : List α} {reached : α → Prop} {position : Nat}

theorem exists_itself_append :
    (∃ item, items[position]? = some item ∧
        Asks isMatch pulls (entries ++ others) switch item) ↔
      (∃ item, items[position]? = some item ∧ Asks isMatch pulls entries switch item) ∨
        ∃ item, items[position]? = some item ∧ Asks isMatch pulls others switch item := by
  simp only [asks_append, and_or_left, exists_or]

theorem exists_pulled_append :
    (∃ item ∈ items, Asks isMatch pulls (entries ++ others) switch item ∧ reached item) ↔
      (∃ item ∈ items, Asks isMatch pulls entries switch item ∧ reached item) ∨
        ∃ item ∈ items, Asks isMatch pulls others switch item ∧ reached item := by
  simp only [asks_append, or_and_right, and_or_left, exists_or]

theorem exists_itself_mono {asks more : α → Prop} (mono : ∀ item, asks item → more item) :
    (∃ item, items[position]? = some item ∧ asks item) →
      ∃ item, items[position]? = some item ∧ more item :=
  Exists.imp fun item => And.imp_right (mono item)

theorem exists_pulled_mono {asks more : α → Prop} (mono : ∀ item, asks item → more item) :
    (∃ item ∈ items, asks item ∧ reached item) → ∃ item ∈ items, more item ∧ reached item :=
  Exists.imp fun item => And.imp_right (And.imp_left (mono item))

/-- Two rules that hold of a whole as of one of its parts. -/
theorem union_or {first firstLeft firstRight second secondLeft secondRight : Prop}
    (ofFirst : first ↔ firstLeft ∨ firstRight) (ofSecond : second ↔ secondLeft ∨ secondRight) :
    first ∨ second ↔ (firstLeft ∨ secondLeft) ∨ (firstRight ∨ secondRight) := by
  rw [ofFirst, ofSecond, or_or_or_comm]

end Rules

namespace Inclusion

variable {position : Nat} {positions others : List Nat}

theorem place_ascending (ordered : positions.Pairwise (· < ·)) :
    (place position positions).Pairwise (· < ·) := by
  induction positions with
  | nil => simp [place]
  | cons other rest ih =>
      obtain ⟨below, restOrdered⟩ := List.pairwise_cons.mp ordered
      simp only [place]
      split
      · rename_i less
        refine List.pairwise_cons.mpr ⟨?_, ordered⟩
        intro later member
        rcases List.mem_cons.mp member with rfl | inRest
        · exact less
        · exact Nat.lt_trans less (below later inRest)
      · split
        · exact ordered
        · refine List.pairwise_cons.mpr ⟨?_, ih restOrdered⟩
          intro later member
          rcases mem_place.mp member with rfl | inRest
          · omega
          · exact below later inRest

theorem ascending_pairwise (positions : List Nat) :
    (ascending positions).Pairwise (· < ·) := by
  induction positions with
  | nil => exact .nil
  | cons position rest ih => exact place_ascending ih

theorem eq_of_parts {left right : Inclusion} (logs : left.logs = right.logs)
    (transactions : left.transactions = right.transactions) (traces : left.traces = right.traces)
    (stateDiffs : left.stateDiffs = right.stateDiffs) : left = right := by
  cases left
  cases right
  simp_all

/-- Inclusions list positions in one way only. -/
theorem ascending_eq_of_mem_iff
    (same : ∀ position, position ∈ ascending positions ↔ position ∈ ascending others) :
    ascending positions = ascending others :=
  (ascending_pairwise positions).eq_of_mem_iff (ascending_pairwise others) same

end Inclusion

namespace Request

open Inclusion

variable {request wider other : Request}

/-- Every rule by which a request includes an item speaks of one entry, so what the entries of
two requests include together is what the one or the other includes. -/
theorem isUnion_inclusion_append (first second : Request) (block : Block) :
    ((first ++ second).inclusion block).IsUnion (first.inclusion block)
      (second.inclusion block) where
  logs position := by
    rw [mem_inclusion_logs, mem_inclusion_logs, mem_inclusion_logs]
    exact union_or exists_itself_append (union_or exists_pulled_append
      (union_or exists_pulled_append exists_pulled_append))
  transactions position := by
    rw [mem_inclusion_transactions, mem_inclusion_transactions, mem_inclusion_transactions]
    exact union_or exists_itself_append (union_or exists_pulled_append
      (union_or exists_pulled_append exists_pulled_append))
  traces position := by
    rw [mem_inclusion_traces, mem_inclusion_traces, mem_inclusion_traces]
    exact union_or exists_itself_append (union_or exists_pulled_append
      (union_or exists_pulled_append (union_or exists_pulled_append exists_pulled_append)))
  stateDiffs position := by
    rw [mem_inclusion_stateDiffs, mem_inclusion_stateDiffs, mem_inclusion_stateDiffs]
    exact union_or exists_itself_append (union_or exists_pulled_append exists_pulled_append)

/-- What asks for more includes more. -/
theorem AsksWithin.inclusion_subset (within : request.AsksWithin wider) (block : Block) :
    (request.inclusion block).Subset (wider.inclusion block) where
  logs position := by
    rw [mem_inclusion_logs, mem_inclusion_logs]
    exact Or.imp (exists_itself_mono fun _ => within.logs fun _ _ => rfl)
      (Or.imp (exists_pulled_mono fun _ => within.logs fun _ _ => rfl)
        (Or.imp (exists_pulled_mono fun _ => within.transactions fun _ _ => rfl)
          (exists_pulled_mono fun _ => within.traces fun _ _ => rfl)))
  transactions position := by
    rw [mem_inclusion_transactions, mem_inclusion_transactions]
    exact Or.imp (exists_itself_mono fun _ => within.transactions fun _ _ => rfl)
      (Or.imp (exists_pulled_mono fun _ => within.logs fun _ _ => rfl)
        (Or.imp (exists_pulled_mono fun _ => within.traces fun _ _ => rfl)
          (exists_pulled_mono fun _ => within.stateDiffs fun _ _ => rfl)))
  traces position := by
    rw [mem_inclusion_traces, mem_inclusion_traces]
    exact Or.imp (exists_itself_mono fun _ => within.traces fun _ _ => rfl)
      (Or.imp (exists_pulled_mono fun _ => within.traces fun _ _ => rfl)
        (Or.imp (exists_pulled_mono fun _ => within.traces fun _ _ => rfl)
          (Or.imp (exists_pulled_mono fun _ => within.logs fun _ _ => rfl)
            (exists_pulled_mono fun _ => within.transactions fun _ _ => rfl))))
  stateDiffs position := by
    rw [mem_inclusion_stateDiffs, mem_inclusion_stateDiffs]
    exact Or.imp (exists_itself_mono fun _ => within.stateDiffs fun _ _ => rfl)
      (Or.imp (exists_pulled_mono fun _ => within.logs fun _ _ => rfl)
        (exists_pulled_mono fun _ => within.transactions fun _ _ => rfl))

/-- Requests that ask for the same include the same. -/
theorem AsksAlike.inclusion_eq (alike : request.AsksAlike other) (block : Block) :
    other.inclusion block = request.inclusion block := by
  have there := alike.there.inclusion_subset block
  have back := alike.back.inclusion_subset block
  apply Inclusion.eq_of_parts
  case logs =>
    exact ascending_eq_of_mem_iff fun _ => ⟨fun member => back.logs member,
      fun member => there.logs member⟩
  case transactions =>
    exact ascending_eq_of_mem_iff fun _ => ⟨fun member => back.transactions member,
      fun member => there.transactions member⟩
  case traces =>
    exact ascending_eq_of_mem_iff fun _ => ⟨fun member => back.traces member,
      fun member => there.traces member⟩
  case stateDiffs =>
    exact ascending_eq_of_mem_iff fun _ => ⟨fun member => back.stateDiffs member,
      fun member => there.stateDiffs member⟩

/-- Requests that ask for the same keep the same. -/
theorem AsksAlike.select_eq (alike : request.AsksAlike other) (block : Block) :
    block.select other = block.select request := by
  have sameKeep : other.keep block = request.keep block := by
    simp only [keep, alike.inclusion_eq block, alike.kinds.logs, alike.kinds.transactions,
      alike.kinds.traces, alike.kinds.stateDiffs]
  rw [Block.select, sameKeep, Block.select]

end Request

/-! ## What requests keep -/

/-- Whether everything that is kept is also kept by other marks. -/
structure Keep.Within (keep wider : Keep) : Prop where
  transactions : ∀ position : Nat, keep.transactions[position]? = some true →
    wider.transactions[position]? = some true
  logs : ∀ position : Nat, keep.logs[position]? = some true →
    wider.logs[position]? = some true
  traces : ∀ position : Nat, keep.traces[position]? = some true →
    wider.traces[position]? = some true
  stateDiffs : ∀ position : Nat, keep.stateDiffs[position]? = some true →
    wider.stateDiffs[position]? = some true

/-- Whether the items of a block are among those of another one, in the same order. -/
structure Block.Sublists (block larger : Block) : Prop where
  transactions : block.transactions.Sublist larger.transactions
  logs : block.logs.Sublist larger.logs
  traces : block.traces.Sublist larger.traces
  stateDiffs : block.stateDiffs.Sublist larger.stateDiffs

namespace Keep

/-- More marks retain more. -/
theorem retain_sublist_retain {α : Type} {items : List α} {marks others : List Bool}
    (sameLength : marks.length = others.length)
    (within : ∀ position : Nat, marks[position]? = some true → others[position]? = some true) :
    (retain marks items).Sublist (retain others items) := by
  induction items generalizing marks others with
  | nil => simp
  | cons item rest ih =>
      cases marks with
      | nil => exact List.nil_sublist _
      | cons mark marks =>
          cases others with
          | nil => simp at sameLength
          | cons other others =>
              have later := ih (Nat.succ.inj sameLength) fun position => within (position + 1)
              have first := within 0
              cases mark with
              | false =>
                  cases other with
                  | false => exact later
                  | true => exact later.cons item
              | true =>
                  cases other with
                  | false => simp at first
                  | true => exact later.cons_cons item

theorem marks_within {hasEntries : Bool} {included wider : List Nat} {count : Nat}
    (subset : included ⊆ wider) :
    ∀ position : Nat, (marks hasEntries included count)[position]? = some true →
      (marks hasEntries wider count)[position]? = some true := by
  intro position marked
  obtain ⟨inBounds, isIncluded⟩ := marks_eq_some_true_iff.mp marked
  exact marks_eq_some_true_iff.mpr ⟨inBounds, fun entries => subset (isIncluded entries)⟩

end Keep

namespace Request

variable {request wider : Request}

/-- A request that asks for more by entries of the same kinds keeps more. -/
theorem AsksWithin.keep_within (within : request.AsksWithin wider)
    (kinds : request.SameKinds wider) (block : Block) :
    (request.keep block).Within (wider.keep block) := by
  have subset := within.inclusion_subset block
  constructor
  case transactions =>
    simp only [keep, ← kinds.transactions]
    exact Keep.marks_within subset.transactions
  case logs =>
    simp only [keep, ← kinds.logs]
    exact Keep.marks_within subset.logs
  case traces =>
    simp only [keep, ← kinds.traces]
    exact Keep.marks_within subset.traces
  case stateDiffs =>
    simp only [keep, ← kinds.stateDiffs]
    exact Keep.marks_within subset.stateDiffs

/-- Keeping more, a selection holds at least the same items, up to links. -/
theorem sublists_select {block : Block} (within : (request.keep block).Within (wider.keep block)) :
    (block.select request).unlinked.Sublists (block.select wider).unlinked := by
  rw [Block.select, Block.select, Block.prune_unlinked, Block.prune_unlinked]
  have sameLength {ε α : Type} (entries others : List ε) (included more : List Nat)
      (items : List α) :
      (Keep.marks (!entries.isEmpty) included items.length).length =
        (Keep.marks (!others.isEmpty) more items.length).length := by
    rw [Keep.length_marks, Keep.length_marks]
  constructor
  case transactions =>
    exact (Keep.retain_sublist_retain (sameLength _ _ _ _ _) within.transactions).map _
  case logs => exact (Keep.retain_sublist_retain (sameLength _ _ _ _ _) within.logs).map _
  case traces => exact (Keep.retain_sublist_retain (sameLength _ _ _ _ _) within.traces).map _
  case stateDiffs =>
    exact (Keep.retain_sublist_retain (sameLength _ _ _ _ _) within.stateDiffs).map _

/-- The entries of a request are alternatives. What a request with the entries of two requests
includes is what the one or the other includes. So a request is not changed by the order of its
entries, by repeating them or by splitting one by its switches, and an entry of a kind that it
has entries for removes nothing. -/
theorem inclusion_alternatives (first second : Request) (block : Block) :
    ((first ++ second).inclusion block).IsUnion (first.inclusion block)
        (second.inclusion block) ∧
      (∀ other, first.SameEntries other →
        other.inclusion block = first.inclusion block ∧
          block.select other = block.select first) ∧
      (∀ other, first.SplitsInto other →
        other.inclusion block = first.inclusion block ∧
          block.select other = block.select first) ∧
      ∀ wider, first.GainsEntry wider →
        (first.keep block).Within (wider.keep block) ∧
          (block.select first).unlinked.Sublists (block.select wider).unlinked := by
  refine ⟨isUnion_inclusion_append first second block, ?same, ?split, ?gained⟩
  case same =>
    intro other same
    exact ⟨same.asksAlike.inclusion_eq block, same.asksAlike.select_eq block⟩
  case split =>
    intro other splits
    exact ⟨splits.asksAlike.inclusion_eq block, splits.asksAlike.select_eq block⟩
  case gained =>
    intro wider gains
    have within := gains.asksWithin.keep_within gains.sameKinds block
    exact ⟨within, sublists_select within⟩

/-- An entry for destroyed contracts. -/
def destroyedEntry (pulls : TracePulls) : TraceEntry :=
  ⟨some [.suicide], none, none, none, none, none, none, pulls⟩

/-- A request for destroyed contracts, with an entry for each of some switches. -/
def destroyedBy (pulls : List TracePulls) : Request :=
  { Request.empty with traces := pulls.map destroyedEntry }

/-- Only the transaction. -/
def transactionPulls : TracePulls := ⟨true, false, false, false⟩

/-- Only the calls above. -/
def parentPulls : TracePulls := ⟨false, false, false, true⟩

/-- The transaction and the calls above. -/
def upwardPulls : TracePulls := .union transactionPulls parentPulls

/-- A request for destroyed contracts with what is above them, and for calls. -/
def destroyedOrCalled : Request :=
  { Request.empty with
    traces :=
      [ ⟨some [.call], none, none, none, none, none, none, ⟨false, false, false, false⟩⟩,
        destroyedEntry upwardPulls ] }

/-- An entry that pulls in the transaction and the calls above is repeated, or split into one
for the transaction and one for the calls.  Only a further entry includes the call beside and
the call in another transaction. -/
theorem inclusion_alternatives_destroyingBlock :
    (destroyedBy [upwardPulls]).SameEntries (destroyedBy [upwardPulls, upwardPulls]) ∧
      (destroyedBy [upwardPulls]).SplitsInto
        (destroyedBy [transactionPulls, parentPulls]) ∧
      (destroyedBy [upwardPulls]).GainsEntry destroyedOrCalled ∧
      (destroyedBy [upwardPulls, upwardPulls]).inclusion Block.destroyingBlock.wire =
        ⟨[], [0], [0, 1, 2], []⟩ ∧
      (destroyedBy [transactionPulls, parentPulls]).inclusion Block.destroyingBlock.wire =
        ⟨[], [0], [0, 1, 2], []⟩ ∧
      destroyedOrCalled.inclusion Block.destroyingBlock.wire =
        ⟨[], [0], [0, 1, 2, 3, 4], []⟩ ∧
      (Block.destroyingBlock.wire.select (destroyedBy [upwardPulls])).unlinked.Sublists
        (Block.destroyingBlock.wire.select destroyedOrCalled).unlinked := by
  have same : (destroyedBy [upwardPulls]).SameEntries
      (destroyedBy [upwardPulls, upwardPulls]) := by
    constructor <;> simp [destroyedBy]
  have splits : (destroyedBy [upwardPulls]).SplitsInto
      (destroyedBy [transactionPulls, parentPulls]) :=
    .traces (.split [] [] (destroyedEntry upwardPulls) transactionPulls parentPulls)
  have gains : (destroyedBy [upwardPulls]).GainsEntry destroyedOrCalled :=
    .traces (.add [] [destroyedEntry upwardPulls] _ (by simp))
  have included : (destroyedBy [upwardPulls]).inclusion Block.destroyingBlock.wire =
      ⟨[], [0], [0, 1, 2], []⟩ := by cbv
  obtain ⟨_, ofSame, ofSplits, ofGains⟩ :=
    inclusion_alternatives (destroyedBy [upwardPulls]) Request.empty Block.destroyingBlock.wire
  exact ⟨same, splits, gains, (ofSame _ same).1.trans included,
    (ofSplits _ splits).1.trans included, by cbv, (ofGains _ gains).2⟩

end Request

end ChainFeed
