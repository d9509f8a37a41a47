import ChainFeed.Proofs.Pruning
import ChainFeed.Proofs.Selection

/-!
# Selecting again

Whatever a request includes in a block is included again in the selected block: an item
that pulls in another one is asked for itself, so it is kept together with the link that
leads to the other item, and a climb to a frame keeps all frames on the way.  So a second
selection by the same request drops nothing.
-/

namespace ChainFeed

/-! ## Climbing -/

namespace Trace

/-- Whether every frame comes after the one that it is linked to as its parent. -/
def ParentsFirst (traces : List Trace) : Prop :=
  ∀ (position : Nat) (trace : Trace), traces[position]? = some trace →
    ∀ above, trace.parent = some above → above < position

end Trace

namespace Block

variable {block : Block} {traces : List Trace} {marks : List Bool} {keep : Keep}
  {position above steps : Nat}

/-- Wiring puts parents first, also if several frames stand at one place. -/
theorem parentsFirst_wire (block : Block) : Trace.ParentsFirst block.wire.traces := by
  intro position trace found above link
  rw [block.wire_traces_parent (List.mem_of_getElem? found),
    lastPositionWhere?_eq_some_iff] at link
  obtain ⟨⟨parent, foundParent, isParent⟩, _⟩ := link
  exact Trace.lt_of_isAncestorOf block.wire_traces_ordered foundParent found
    (Trace.isParentOf_iff_isAncestorOf.mp isParent).1

theorem parentsFirst_prune (parentsFirst : Trace.ParentsFirst block.traces) :
    Trace.ParentsFirst (block.prune keep).traces := by
  intro new trace found newAbove link
  rw [prune_traces, List.getElem?_map, Option.map_eq_some_iff] at found
  obtain ⟨source, foundSource, rfl⟩ := found
  obtain ⟨position, moved, foundOld⟩ := Keep.exists_of_getElem?_retain foundSource
  obtain ⟨above, oldLink, movedAbove⟩ := Option.bind_eq_some_iff.mp link
  exact Keep.newPosition?_lt (parentsFirst position source foundOld above oldLink) movedAbove
    moved

@[simp] theorem ancestorsWithin_zero (traces : List Trace) (link : Option Nat) :
    ancestorsWithin traces 0 link = [] := by
  cases link with
  | none => rfl
  | some start => rfl

@[simp] theorem ancestorsWithin_none (traces : List Trace) (steps : Nat) :
    ancestorsWithin traces steps none = [] := by
  cases steps with
  | zero => rfl
  | succ steps => rfl

/-- A climb visits nothing beyond its start. -/
theorem le_of_mem_ancestorsWithin (parentsFirst : Trace.ParentsFirst traces) {start : Nat}
    (member : position ∈ ancestorsWithin traces steps (some start)) : position ≤ start := by
  induction steps generalizing start with
  | zero => simp at member
  | succ steps ih =>
      rcases List.mem_cons.mp member with rfl | later
      · exact Nat.le_refl position
      · cases link : traces[start]?.bind Trace.parent with
        | none => simp [link] at later
        | some above =>
            rw [link] at later
            obtain ⟨trace, found, parent⟩ := Option.bind_eq_some_iff.mp link
            have before := parentsFirst start trace found above parent
            have visited := ih later
            omega

/-- A climb needs no more steps than there are frames up to its start. -/
theorem ancestorsWithin_add (parentsFirst : Trace.ParentsFirst traces) {start : Nat}
    (enough : start < steps) (more : Nat) :
    ancestorsWithin traces (steps + more) (some start) =
      ancestorsWithin traces steps (some start) := by
  induction steps generalizing start with
  | zero => omega
  | succ steps ih =>
      rw [Nat.succ_add_eq_add_succ, Nat.add_succ, ancestorsWithin, ancestorsWithin]
      congr 1
      cases link : traces[start]?.bind Trace.parent with
      | none => simp
      | some above =>
          obtain ⟨trace, found, parent⟩ := Option.bind_eq_some_iff.mp link
          have before := parentsFirst start trace found above parent
          exact ih (by omega)

/-- How many steps a climb may take does not matter, if they are enough. -/
theorem ancestorsWithin_eq (parentsFirst : Trace.ParentsFirst traces) {start other : Nat}
    (enough : start < steps) (alsoEnough : start < other) :
    ancestorsWithin traces steps (some start) = ancestorsWithin traces other (some start) := by
  have least (steps : Nat) (enough : start < steps) :
      ancestorsWithin traces steps (some start) =
        ancestorsWithin traces (start + 1) (some start) := by
    obtain ⟨more, rfl⟩ := Nat.exists_eq_add_of_le (Nat.succ_le_of_lt enough)
    exact ancestorsWithin_add parentsFirst (Nat.lt_succ_self start) more
  rw [least steps enough, least other alsoEnough]

/-- If all frames of a climb are kept, the climb leads over the same frames as before. -/
theorem ancestorsWithin_prune {link : Option Nat}
    (kept : ∀ position ∈ ancestorsWithin block.traces steps link,
      keep.traces[position]? = some true) :
    ancestorsWithin (block.prune keep).traces steps
        (link.bind (Keep.newPosition? keep.traces)) =
      Keep.newPositions keep.traces (ancestorsWithin block.traces steps link) := by
  induction steps generalizing link with
  | zero => simp [Keep.newPositions]
  | succ steps ih =>
      cases link with
      | none => simp [Keep.newPositions]
      | some start =>
          rw [ancestorsWithin] at kept
          obtain ⟨new, moved⟩ := Keep.exists_newPosition? (kept start (by simp))
          have parent : (block.prune keep).traces[new]?.bind Trace.parent =
              (block.traces[start]?.bind Trace.parent).bind (Keep.newPosition? keep.traces) := by
            rw [prune_traces, List.getElem?_map, Keep.getElem?_retain _ moved]
            cases block.traces[start]? with
            | none => rfl
            | some trace => rfl
          rw [Option.bind_some, moved, ancestorsWithin, ancestorsWithin, parent,
            ih fun position member => kept position (by simp [member]), Keep.newPositions,
            Keep.newPositions, List.filterMap_cons, moved]

end Block

/-! ## Marks -/

namespace Keep

variable {α : Type} {items : List α} {hasEntries : Bool} {included : List Nat}
  {position new : Nat}

theorem length_marks (hasEntries : Bool) (included : List Nat) (count : Nat) :
    (marks hasEntries included count).length = count := by
  simp [marks]

/-- What is marked: everything, or with entries what is included. -/
theorem marks_eq_some_true_iff {count : Nat} :
    (marks hasEntries included count)[position]? = some true ↔
      position < count ∧ (hasEntries = true → position ∈ included) := by
  rw [marks, List.getElem?_map, Option.map_eq_some_iff]
  constructor
  · rintro ⟨_, found, holds⟩
    obtain ⟨inBounds, rfl⟩ := List.getElem?_eq_some_iff.mp found
    simp only [List.length_range] at inBounds
    refine ⟨inBounds, ?_⟩
    intro rfl
    simpa using holds
  · rintro ⟨inBounds, holds⟩
    refine ⟨position, List.getElem?_range inBounds, ?_⟩
    cases hasEntries with
    | false => rfl
    | true => simpa using holds rfl

/-- If everything that is there is included, everything is marked. -/
theorem marks_eq_replicate {count : Nat}
    (all : ∀ position < count, hasEntries = true → position ∈ included) :
    marks hasEntries included count = List.replicate count true := by
  apply List.ext_getElem?
  intro position
  rw [List.getElem?_replicate]
  split
  · rename_i inBounds
    exact marks_eq_some_true_iff.mpr ⟨inBounds, all position inBounds⟩
  · rename_i beyond
    exact List.getElem?_eq_none (by rw [length_marks]; omega)

theorem retain_replicate (items : List α) :
    retain (List.replicate items.length true) items = items := by
  induction items with
  | nil => rfl
  | cons item rest ih => rw [List.length_cons, List.replicate_succ, retain, ih]

theorem newPosition?_replicate {count : Nat} (inBounds : position < count) :
    newPosition? (List.replicate count true) position = some position := by
  rw [newPosition?, if_pos (by simp [inBounds]), List.take_replicate, List.count_replicate_self,
    Nat.min_eq_left inBounds.le]

theorem newPositions_replicate {count : Nat} {positions : List Nat}
    (inBounds : ∀ position ∈ positions, position < count) :
    newPositions (List.replicate count true) positions = positions := by
  induction positions with
  | nil => rfl
  | cons position rest ih =>
      rw [newPositions, List.filterMap_cons, newPosition?_replicate (inBounds position (by simp))]
      exact congrArg (position :: ·) (ih fun other member => inBounds other (by simp [member]))

/-- A new position is one of a kept item, if there is a mark for each item only. -/
theorem newPosition?_lt_length {marks : List Bool} (sameLength : marks.length = items.length)
    (moved : newPosition? marks position = some new) : new < (retain marks items).length := by
  have marked := marked_of_newPosition? moved
  have inBounds : position < items.length := by
    rw [← sameLength]
    exact (List.getElem?_eq_some_iff.mp marked).1
  have found := getElem?_retain items moved
  rw [List.getElem?_eq_getElem inBounds] at found
  exact (List.getElem?_eq_some_iff.mp found).1

end Keep

/-! ## Keeping everything -/

namespace Block

/-- Whether all links of a block lead to items of the block. -/
structure LinksInRange (block : Block) : Prop where
  logTransaction : ∀ log ∈ block.logs, ∀ position ∈ log.transaction,
    position < block.transactions.length
  traceTransaction : ∀ trace ∈ block.traces, ∀ position ∈ trace.transaction,
    position < block.transactions.length
  stateDiffTransaction : ∀ diff ∈ block.stateDiffs, ∀ position ∈ diff.transaction,
    position < block.transactions.length
  transactionLogs : ∀ transaction ∈ block.transactions, ∀ position ∈ transaction.logs,
    position < block.logs.length
  transactionTraces : ∀ transaction ∈ block.transactions, ∀ position ∈ transaction.traces,
    position < block.traces.length
  transactionStateDiffs : ∀ transaction ∈ block.transactions,
    ∀ position ∈ transaction.stateDiffs, position < block.stateDiffs.length
  parent : ∀ trace ∈ block.traces, ∀ position ∈ trace.parent, position < block.traces.length
  children : ∀ trace ∈ block.traces, ∀ position ∈ trace.children,
    position < block.traces.length

/-- Marks that keep everything. -/
def keepAll (block : Block) : Keep where
  transactions := List.replicate block.transactions.length true
  logs := List.replicate block.logs.length true
  traces := List.replicate block.traces.length true
  stateDiffs := List.replicate block.stateDiffs.length true

variable {block : Block} {keep : Keep}

/-- A link in range stays as it is if everything is kept. -/
theorem bind_newPosition?_replicate {link : Option Nat} {count : Nat}
    (inRange : ∀ position ∈ link, position < count) :
    link.bind (Keep.newPosition? (List.replicate count true)) = link := by
  cases link with
  | none => rfl
  | some position => exact Keep.newPosition?_replicate (inRange position rfl)

/-- Pruning changes nothing if everything is kept. -/
theorem LinksInRange.prune_keepAll (inRange : block.LinksInRange) :
    block.prune block.keepAll = block := by
  apply eq_of_parts
  case header => rfl
  case transactions =>
    rw [prune_transactions, keepAll, Keep.retain_replicate]
    refine (List.map_congr_left ?_).trans (List.map_id _)
    intro transaction member
    rw [Transaction.renumbered, Keep.newPositions_replicate (inRange.transactionLogs _ member),
      Keep.newPositions_replicate (inRange.transactionTraces _ member),
      Keep.newPositions_replicate (inRange.transactionStateDiffs _ member)]
    rfl
  case logs =>
    rw [prune_logs, keepAll, Keep.retain_replicate]
    refine (List.map_congr_left ?_).trans (List.map_id _)
    intro log member
    rw [Log.renumbered, bind_newPosition?_replicate (inRange.logTransaction _ member)]
    rfl
  case traces =>
    rw [prune_traces, keepAll, Keep.retain_replicate]
    refine (List.map_congr_left ?_).trans (List.map_id _)
    intro trace member
    rw [Trace.renumbered, bind_newPosition?_replicate (inRange.traceTransaction _ member),
      bind_newPosition?_replicate (inRange.parent _ member),
      Keep.newPositions_replicate (inRange.children _ member)]
    rfl
  case stateDiffs =>
    rw [prune_stateDiffs, keepAll, Keep.retain_replicate]
    refine (List.map_congr_left ?_).trans (List.map_id _)
    intro diff member
    rw [StateDiff.renumbered, bind_newPosition?_replicate (inRange.stateDiffTransaction _ member)]
    rfl

section InRange

variable {α β : Type} {items : List α} {targets : List β} {itemMarks marks : List Bool}
  {moveItem : α → α} {moveTarget : β → β}

theorem links_inRange_prune (links : α → List Nat)
    (moves : ∀ item, links (moveItem item) = Keep.newPositions marks (links item))
    (sameLength : marks.length = targets.length) :
    ∀ item ∈ (Keep.retain itemMarks items).map moveItem, ∀ position ∈ links item,
      position < ((Keep.retain marks targets).map moveTarget).length := by
  intro item member position reached
  obtain ⟨source, _, rfl⟩ := List.mem_map.mp member
  rw [moves] at reached
  obtain ⟨old, _, moved⟩ := Keep.mem_newPositions.mp reached
  rw [List.length_map]
  exact Keep.newPosition?_lt_length sameLength moved

theorem link_inRange_prune {link : α → Option Nat}
    (moves : ∀ item, link (moveItem item) = (link item).bind (Keep.newPosition? marks))
    (sameLength : marks.length = targets.length) :
    ∀ item ∈ (Keep.retain itemMarks items).map moveItem, ∀ position ∈ link item,
      position < ((Keep.retain marks targets).map moveTarget).length := by
  intro item member position reached
  refine links_inRange_prune (fun item => (link item).toList) ?_ sameLength item member position
    (Option.mem_toList.mpr reached)
  intro item
  rw [moves, Keep.toList_bind_newPosition?]

end InRange

/-- The links of a selected block lead to kept items. -/
theorem linksInRange_select (block : Block) (request : Request) :
    (block.select request).LinksInRange where
  logTransaction := link_inRange_prune (fun _ => rfl) (Keep.length_marks _ _ _)
  traceTransaction := link_inRange_prune (fun _ => rfl) (Keep.length_marks _ _ _)
  stateDiffTransaction := link_inRange_prune (fun _ => rfl) (Keep.length_marks _ _ _)
  transactionLogs := links_inRange_prune _ (fun _ => rfl) (Keep.length_marks _ _ _)
  transactionTraces := links_inRange_prune _ (fun _ => rfl) (Keep.length_marks _ _ _)
  transactionStateDiffs := links_inRange_prune _ (fun _ => rfl) (Keep.length_marks _ _ _)
  parent := link_inRange_prune (fun _ => rfl) (Keep.length_marks _ _ _)
  children := links_inRange_prune _ (fun _ => rfl) (Keep.length_marks _ _ _)

/-! ## Included again -/

/-- What is asked for by any switch is asked for itself. -/
theorem asks_itself {α ε ρ : Type} {isMatch : ε → α → Bool} {pulls : ε → ρ} {entries : List ε}
    {switch : ρ → Bool} {item : α} (asked : Asks isMatch pulls entries switch item) :
    Asks isMatch pulls entries itself item := by
  obtain ⟨entry, member, matched, _⟩ := asked
  exact ⟨entry, member, matched, rfl⟩

section Again

variable {α : Type} {items : List α} {move : α → α} {hasEntries : Bool} {included : List Nat}
  {position new : Nat}

theorem getElem?_map_retain {marks : List Bool} {item : α}
    (moved : Keep.newPosition? marks position = some new)
    (found : items[position]? = some item) :
    ((Keep.retain marks items).map move)[new]? = some (move item) := by
  rw [List.getElem?_map, Keep.getElem?_retain items moved, found, Option.map_some]

/-- An included item is kept. -/
theorem mem_retain_of_included {item : α} (found : items[position]? = some item)
    (isIncluded : position ∈ included) :
    move item ∈ (Keep.retain (Keep.marks hasEntries included items.length) items).map move := by
  have inBounds := (List.getElem?_eq_some_iff.mp found).1
  have marked : (Keep.marks hasEntries included items.length)[position]? = some true :=
    Keep.marks_eq_some_true_iff.mpr ⟨inBounds, fun _ => isIncluded⟩
  obtain ⟨new, moved⟩ := Keep.exists_newPosition? marked
  exact List.mem_of_getElem? (getElem?_map_retain moved found)

/-- If what was included is included again, everything that is left is marked. -/
theorem marks_again {includedAgain : List Nat}
    (again : ∀ {position new : Nat},
      Keep.newPosition? (Keep.marks hasEntries included items.length) position = some new →
        position ∈ included → new ∈ includedAgain) :
    Keep.marks hasEntries includedAgain
        ((Keep.retain (Keep.marks hasEntries included items.length) items).map move).length =
      List.replicate
        ((Keep.retain (Keep.marks hasEntries included items.length) items).map move).length
        true := by
  apply Keep.marks_eq_replicate
  intro new inBounds entries
  rw [List.length_map] at inBounds
  obtain ⟨position, moved, _⟩ :=
    Keep.exists_of_getElem?_retain (List.getElem?_eq_getElem inBounds)
  have marked := Keep.marks_eq_some_true_iff.mp (Keep.marked_of_newPosition? moved)
  exact again moved (marked.2 entries)

/-- Items with a property that does not depend on links keep it at their new positions. -/
theorem mem_positionsWhere_again {marks : List Bool} {property : α → Bool}
    (respects : ∀ item, property (move item) = property item)
    (moved : Keep.newPosition? marks position = some new)
    (reached : position ∈ positionsWhere property items) :
    new ∈ positionsWhere property ((Keep.retain marks items).map move) := by
  obtain ⟨item, found, holds⟩ := mem_positionsWhere.mp reached
  exact mem_positionsWhere.mpr
    ⟨move item, getElem?_map_retain moved found, (respects item).trans holds⟩

end Again

variable {request : Request} {position new : Nat}

theorem mem_select_logs {switch : LogPulls → Bool} {log : Log} (member : log ∈ block.logs)
    (asked : request.AsksLog switch log) :
    log.renumbered (request.keep block) ∈ (block.select request).logs := by
  obtain ⟨place, found⟩ := List.getElem?_of_mem member
  exact mem_retain_of_included found
    (Request.mem_inclusion_logs.mpr (Or.inl ⟨log, found, asks_itself asked⟩))

theorem mem_select_transactions {switch : TransactionPulls → Bool} {transaction : Transaction}
    (member : transaction ∈ block.transactions)
    (asked : request.AsksTransaction switch transaction) :
    transaction.renumbered (request.keep block) ∈ (block.select request).transactions := by
  obtain ⟨place, found⟩ := List.getElem?_of_mem member
  exact mem_retain_of_included found
    (Request.mem_inclusion_transactions.mpr (Or.inl ⟨transaction, found, asks_itself asked⟩))

theorem mem_select_traces {switch : TracePulls → Bool} {trace : Trace}
    (member : trace ∈ block.traces) (asked : request.AsksTrace switch trace) :
    trace.renumbered (request.keep block) ∈ (block.select request).traces := by
  obtain ⟨place, found⟩ := List.getElem?_of_mem member
  exact mem_retain_of_included found
    (Request.mem_inclusion_traces.mpr (Or.inl ⟨trace, found, asks_itself asked⟩))

theorem mem_select_stateDiffs {switch : StateDiffPulls → Bool} {diff : StateDiff}
    (member : diff ∈ block.stateDiffs) (asked : request.AsksStateDiff switch diff) :
    diff.renumbered (request.keep block) ∈ (block.select request).stateDiffs := by
  obtain ⟨place, found⟩ := List.getElem?_of_mem member
  exact mem_retain_of_included found
    (Request.mem_inclusion_stateDiffs.mpr (Or.inl ⟨diff, found, asks_itself asked⟩))

/-- A renumbered link leads where the link led. -/
theorem mem_toList_again {marks : List Bool} {link : Option Nat}
    (moved : Keep.newPosition? marks position = some new) (reached : position ∈ link.toList) :
    new ∈ (link.bind (Keep.newPosition? marks)).toList := by
  rw [Keep.toList_bind_newPosition?]
  exact Keep.mem_newPositions.mpr ⟨position, reached, moved⟩

theorem included_again_logs
    (moved : Keep.newPosition? (request.keep block).logs position = some new)
    (included : position ∈ (request.inclusion block).logs) :
    new ∈ (request.inclusion (block.select request)).logs := by
  rw [Request.mem_inclusion_logs] at included ⊢
  rcases included with ⟨log, found, asked⟩ | ⟨log, member, asked, reached⟩ |
    ⟨transaction, member, asked, reached⟩ | ⟨trace, member, asked, reached⟩
  · exact Or.inl ⟨_, getElem?_map_retain moved found, asked⟩
  · exact Or.inr (Or.inl ⟨_, mem_select_logs member asked, asked,
      mem_positionsWhere_again (fun _ => rfl) moved reached⟩)
  · exact Or.inr (Or.inr (Or.inl ⟨_, mem_select_transactions member asked, asked,
      Keep.mem_newPositions.mpr ⟨position, reached, moved⟩⟩))
  · exact Or.inr (Or.inr (Or.inr ⟨_, mem_select_traces member asked, asked,
      mem_positionsWhere_again (fun _ => rfl) moved reached⟩))

theorem included_again_transactions
    (moved : Keep.newPosition? (request.keep block).transactions position = some new)
    (included : position ∈ (request.inclusion block).transactions) :
    new ∈ (request.inclusion (block.select request)).transactions := by
  rw [Request.mem_inclusion_transactions] at included ⊢
  rcases included with ⟨transaction, found, asked⟩ | ⟨log, member, asked, reached⟩ |
    ⟨trace, member, asked, reached⟩ | ⟨diff, member, asked, reached⟩
  · exact Or.inl ⟨_, getElem?_map_retain moved found, asked⟩
  · exact Or.inr (Or.inl ⟨_, mem_select_logs member asked, asked,
      mem_toList_again moved reached⟩)
  · exact Or.inr (Or.inr (Or.inl ⟨_, mem_select_traces member asked, asked,
      mem_toList_again moved reached⟩))
  · exact Or.inr (Or.inr (Or.inr ⟨_, mem_select_stateDiffs member asked, asked,
      mem_toList_again moved reached⟩))

/-- A climb that keeps what it visits leads over the same frames again. -/
theorem ancestors_select (parentsFirst : Trace.ParentsFirst block.traces) {lower : Trace}
    (member : lower ∈ block.traces) (asked : request.AsksTrace (·.parents) lower) :
    (block.select request).ancestors (lower.renumbered (request.keep block)).parent =
      Keep.newPositions (request.keep block).traces (block.ancestors lower.parent) := by
  obtain ⟨place, found⟩ := List.getElem?_of_mem member
  cases link : lower.parent with
  | none => simp [ancestors, Trace.renumbered, link, Keep.newPositions]
  | some start =>
      have before := parentsFirst place lower found start link
      have inBounds := (List.getElem?_eq_some_iff.mp found).1
      have kept : ∀ visited ∈ block.ancestors (some start),
          (request.keep block).traces[visited]? = some true := by
        intro visited onTheWay
        have atMost := le_of_mem_ancestorsWithin parentsFirst onTheWay
        refine Keep.marks_eq_some_true_iff.mpr ⟨by omega, fun _ => ?_⟩
        exact Request.mem_inclusion_traces.mpr
          (Or.inr (Or.inl ⟨lower, member, asked, link ▸ onTheWay⟩))
      obtain ⟨newStart, moved⟩ :=
        Keep.exists_newPosition? (kept start (by simp [ancestors, ancestorsWithin]))
      have newInBounds : newStart < (block.select request).traces.length := by
        rw [select, prune_traces, List.length_map]
        exact Keep.newPosition?_lt_length (Keep.length_marks _ _ _) moved
      -- The selected block has fewer traces, so the climb there is given less fuel.
      have atMost : (block.select request).traces.length ≤ block.traces.length := by
        rw [select, prune_traces, List.length_map]
        exact (Keep.retain_sublist _ _).length_le
      rw [Trace.renumbered, link, Option.bind_some, moved, ancestors, ancestors,
        ← ancestorsWithin_prune kept, Option.bind_some, moved]
      exact ancestorsWithin_eq (parentsFirst_prune parentsFirst) (by omega) (by omega)

theorem included_again_traces (parentsFirst : Trace.ParentsFirst block.traces)
    (moved : Keep.newPosition? (request.keep block).traces position = some new)
    (included : position ∈ (request.inclusion block).traces) :
    new ∈ (request.inclusion (block.select request)).traces := by
  rw [Request.mem_inclusion_traces] at included ⊢
  rcases included with ⟨trace, found, asked⟩ | ⟨lower, member, asked, reached⟩ |
    ⟨upper, member, asked, reached⟩ | ⟨log, member, asked, reached⟩ |
    ⟨transaction, member, asked, reached⟩
  · exact Or.inl ⟨_, getElem?_map_retain moved found, asked⟩
  · refine Or.inr (Or.inl ⟨_, mem_select_traces member asked, asked, ?_⟩)
    rw [ancestors_select parentsFirst member asked]
    exact Keep.mem_newPositions.mpr ⟨position, reached, moved⟩
  · exact Or.inr (Or.inr (Or.inl ⟨_, mem_select_traces member asked, asked,
      Keep.mem_newPositions.mpr ⟨position, reached, moved⟩⟩))
  · exact Or.inr (Or.inr (Or.inr (Or.inl ⟨_, mem_select_logs member asked, asked,
      mem_positionsWhere_again (fun _ => rfl) moved reached⟩)))
  · exact Or.inr (Or.inr (Or.inr (Or.inr ⟨_, mem_select_transactions member asked, asked,
      Keep.mem_newPositions.mpr ⟨position, reached, moved⟩⟩)))

theorem included_again_stateDiffs
    (moved : Keep.newPosition? (request.keep block).stateDiffs position = some new)
    (included : position ∈ (request.inclusion block).stateDiffs) :
    new ∈ (request.inclusion (block.select request)).stateDiffs := by
  rw [Request.mem_inclusion_stateDiffs] at included ⊢
  rcases included with ⟨diff, found, asked⟩ | ⟨log, member, asked, reached⟩ |
    ⟨transaction, member, asked, reached⟩
  · exact Or.inl ⟨_, getElem?_map_retain moved found, asked⟩
  · exact Or.inr (Or.inl ⟨_, mem_select_logs member asked, asked,
      mem_positionsWhere_again (fun _ => rfl) moved reached⟩)
  · exact Or.inr (Or.inr ⟨_, mem_select_transactions member asked, asked,
      Keep.mem_newPositions.mpr ⟨position, reached, moved⟩⟩)

/-! ## Idempotence -/

/-- A request keeps everything that it has kept. -/
theorem keep_select (parentsFirst : Trace.ParentsFirst block.traces) (request : Request) :
    request.keep (block.select request) = (block.select request).keepAll := by
  rw [Request.keep, keepAll, Keep.mk.injEq]
  exact ⟨marks_again included_again_transactions, marks_again included_again_logs,
    marks_again (included_again_traces parentsFirst), marks_again included_again_stateDiffs⟩

/-- Selecting from a wired block by the same request again changes nothing, neither items
nor links, whatever indexes and places the items have. -/
theorem select_wire_idempotent (block : Block) (request : Request) :
    (block.wire.select request).select request = block.wire.select request := by
  have allKept := keep_select block.parentsFirst_wire request
  calc
    (block.wire.select request).select request
      = (block.wire.select request).prune (request.keep (block.wire.select request)) := rfl
    _ = (block.wire.select request).prune (block.wire.select request).keepAll := by rw [allKept]
    _ = block.wire.select request :=
        (linksInRange_select block.wire request).prune_keepAll

end Block

end ChainFeed
