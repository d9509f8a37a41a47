import ChainFeed.Proofs.KeyedLinks
import ChainFeed.Selection

/-!
# Theory of pruning

Dropping items renumbers the kept ones without changing their order.  A renumbered
position leads to the item that the old position led to, and every item that is left
is led to in this way.  So links that lead exactly to the items with a property still
do after pruning, as far as these items are kept.
-/

namespace ChainFeed

namespace Keep

variable {α : Type} {marks : List Bool} {items : List α} {position new : Nat}

/-! ## New positions -/

@[simp] theorem retain_nil_right (marks : List Bool) : retain marks ([] : List α) = [] := by
  cases marks with
  | nil => rfl
  | cons mark rest => cases mark <;> rfl

@[simp] theorem newPosition?_nil (position : Nat) : newPosition? [] position = none := rfl

@[simp] theorem newPosition?_cons_zero (mark : Bool) (rest : List Bool) :
    newPosition? (mark :: rest) 0 = if mark then some 0 else none := by
  simp [newPosition?]

@[simp] theorem newPosition?_cons_succ (mark : Bool) (rest : List Bool) (position : Nat) :
    newPosition? (mark :: rest) (position + 1) =
      (newPosition? rest position).map (· + mark.toNat) := by
  simp only [newPosition?, List.getElem?_cons_succ, List.take_succ_cons]
  cases mark <;> split <;> simp

/-- Only what is marked gets a new position. -/
theorem marked_of_newPosition? (moved : newPosition? marks position = some new) :
    marks[position]? = some true := by
  by_contra unmarked
  simp [newPosition?, unmarked] at moved

/-- Whatever is marked gets a new position. -/
theorem exists_newPosition? (marked : marks[position]? = some true) :
    ∃ new, newPosition? marks position = some new :=
  ⟨_, if_pos marked⟩

/-- The kept items are in the order of all items. -/
theorem retain_sublist (marks : List Bool) (items : List α) :
    (retain marks items).Sublist items := by
  induction items generalizing marks with
  | nil => simp
  | cons item rest ih =>
      cases marks with
      | nil => exact List.nil_sublist _
      | cons mark marks =>
          cases mark with
          | false => exact (ih marks).cons item
          | true => exact (ih marks).cons_cons item

/-- A new position leads to the same item as the old one. -/
theorem getElem?_retain (items : List α) (moved : newPosition? marks position = some new) :
    (retain marks items)[new]? = items[position]? := by
  induction marks generalizing items position new with
  | nil => simp at moved
  | cons mark marks ih =>
      cases items with
      | nil => simp
      | cons item rest =>
          cases position with
          | zero =>
              cases mark with
              | false => simp at moved
              | true =>
                  rw [newPosition?_cons_zero, if_pos rfl, Option.some.injEq] at moved
                  subst moved
                  rfl
          | succ position =>
              rw [newPosition?_cons_succ, Option.map_eq_some_iff] at moved
              obtain ⟨later, movedLater, rfl⟩ := moved
              cases mark with
              | false => exact ih rest movedLater
              | true => exact ih rest movedLater

/-- Every kept item comes from an old position. -/
theorem exists_of_getElem?_retain {item : α} (found : (retain marks items)[new]? = some item) :
    ∃ position, newPosition? marks position = some new ∧ items[position]? = some item := by
  induction marks generalizing items new with
  | nil => simp [retain] at found
  | cons mark marks ih =>
      cases items with
      | nil => simp at found
      | cons first rest =>
          cases mark with
          | false =>
              obtain ⟨position, moved, foundItem⟩ := ih found
              exact ⟨position + 1, by simp [moved], foundItem⟩
          | true =>
              cases new with
              | zero => exact ⟨0, rfl, found⟩
              | succ new =>
                  obtain ⟨position, moved, foundItem⟩ := ih found
                  exact ⟨position + 1, by simp [moved], foundItem⟩

/-- Renumbering keeps the order of positions. -/
theorem newPosition?_lt {left right newLeft newRight : Nat} (before : left < right)
    (movedLeft : newPosition? marks left = some newLeft)
    (movedRight : newPosition? marks right = some newRight) : newLeft < newRight := by
  induction marks generalizing left right newLeft newRight with
  | nil => simp at movedLeft
  | cons mark marks ih =>
      cases right with
      | zero => omega
      | succ right =>
          rw [newPosition?_cons_succ, Option.map_eq_some_iff] at movedRight
          obtain ⟨laterRight, movedRight, rfl⟩ := movedRight
          cases left with
          | zero =>
              cases mark with
              | false => simp at movedLeft
              | true =>
                  rw [newPosition?_cons_zero, if_pos rfl, Option.some.injEq] at movedLeft
                  simp [← movedLeft]
          | succ left =>
              rw [newPosition?_cons_succ, Option.map_eq_some_iff] at movedLeft
              obtain ⟨laterLeft, movedLeft, rfl⟩ := movedLeft
              have later := ih (Nat.lt_of_succ_lt_succ before) movedLeft movedRight
              omega

/-! ## Lists of positions -/

theorem mem_newPositions {positions : List Nat} :
    new ∈ newPositions marks positions ↔
      ∃ position ∈ positions, newPosition? marks position = some new :=
  List.mem_filterMap

/-- Renumbered positions ascend if the old ones do. -/
theorem newPositions_ascending {positions : List Nat} (ascending : positions.Pairwise (· < ·)) :
    (newPositions marks positions).Pairwise (· < ·) := by
  rw [newPositions, List.pairwise_filterMap]
  apply ascending.imp
  intro left right before newLeft movedLeft newRight movedRight
  exact newPosition?_lt before movedLeft movedRight

/-- Positions that lead exactly to the items with a property still do when they are
renumbered, as far as these items are kept. -/
theorem mem_newPositions_of_exact {positions : List Nat} {property : α → Prop}
    (exact : ∀ position, position ∈ positions ↔
      ∃ item, items[position]? = some item ∧ property item) :
    new ∈ newPositions marks positions ↔
      ∃ item, (retain marks items)[new]? = some item ∧ property item := by
  rw [mem_newPositions]
  constructor
  · rintro ⟨position, member, moved⟩
    obtain ⟨item, found, holds⟩ := (exact position).mp member
    exact ⟨item, (getElem?_retain items moved).trans found, holds⟩
  · rintro ⟨item, found, holds⟩
    obtain ⟨position, moved, foundItem⟩ := exists_of_getElem?_retain found
    exact ⟨position, (exact position).mpr ⟨item, foundItem, holds⟩, moved⟩

/-- A link is a list of at most one position. -/
theorem toList_bind_newPosition? (marks : List Bool) (link : Option Nat) :
    (link.bind (newPosition? marks)).toList = newPositions marks link.toList := by
  cases link with
  | none => rfl
  | some position => cases moved : newPosition? marks position <;> simp [newPositions, moved]

end Keep

/-! ## Renumbered items -/

/-- A kept transaction. -/
def Transaction.renumbered (keep : Keep) (transaction : Transaction) : Transaction :=
  { transaction with
    logs := Keep.newPositions keep.logs transaction.logs
    traces := Keep.newPositions keep.traces transaction.traces
    stateDiffs := Keep.newPositions keep.stateDiffs transaction.stateDiffs }

/-- A kept log. -/
def Log.renumbered (keep : Keep) (log : Log) : Log :=
  { log with transaction := log.transaction.bind (Keep.newPosition? keep.transactions) }

/-- A kept trace. -/
def Trace.renumbered (keep : Keep) (trace : Trace) : Trace :=
  { trace with
    transaction := trace.transaction.bind (Keep.newPosition? keep.transactions)
    parent := trace.parent.bind (Keep.newPosition? keep.traces)
    children := Keep.newPositions keep.traces trace.children }

/-- A kept state diff. -/
def StateDiff.renumbered (keep : Keep) (diff : StateDiff) : StateDiff :=
  { diff with transaction := diff.transaction.bind (Keep.newPosition? keep.transactions) }

namespace Block

variable {block : Block}

@[simp] theorem prune_transactions (block : Block) (keep : Keep) :
    (block.prune keep).transactions =
      (Keep.retain keep.transactions block.transactions).map (.renumbered keep) := rfl

@[simp] theorem prune_logs (block : Block) (keep : Keep) :
    (block.prune keep).logs = (Keep.retain keep.logs block.logs).map (.renumbered keep) := rfl

@[simp] theorem prune_traces (block : Block) (keep : Keep) :
    (block.prune keep).traces = (Keep.retain keep.traces block.traces).map (.renumbered keep) :=
  rfl

@[simp] theorem prune_stateDiffs (block : Block) (keep : Keep) :
    (block.prune keep).stateDiffs =
      (Keep.retain keep.stateDiffs block.stateDiffs).map (.renumbered keep) := rfl

/-! ## Links of a pruned block -/

section Links

variable {α β : Type} {items : List α} {targets : List β} {itemMarks marks : List Bool}
  {moveItem : α → α} {moveTarget : β → β} {wanted : α → β → Prop}

/-- Lists of positions that lead exactly to what the items that hold them want still do
after both sides are pruned. -/
theorem mem_links_prune (links : α → List Nat)
    (moves : ∀ item, links (moveItem item) = Keep.newPositions marks (links item))
    (respects : ∀ item target, wanted (moveItem item) (moveTarget target) ↔ wanted item target)
    (linked : ∀ item ∈ items, ∀ position, position ∈ links item ↔
      ∃ target, targets[position]? = some target ∧ wanted item target) :
    ∀ item ∈ (Keep.retain itemMarks items).map moveItem, ∀ position, position ∈ links item ↔
      ∃ target, ((Keep.retain marks targets).map moveTarget)[position]? = some target ∧
        wanted item target := by
  intro item member position
  obtain ⟨source, kept, rfl⟩ := List.mem_map.mp member
  have sourceMember := (Keep.retain_sublist itemMarks items).subset kept
  rw [moves, Keep.mem_newPositions_of_exact (linked source sourceMember), List.getElem?_map]
  cases (Keep.retain marks targets)[position]? with
  | none => simp
  | some target => simp [respects]

/-- The same for single links. -/
theorem link_eq_some_prune {link : α → Option Nat}
    (moves : ∀ item, link (moveItem item) = (link item).bind (Keep.newPosition? marks))
    (respects : ∀ item target, wanted (moveItem item) (moveTarget target) ↔ wanted item target)
    (linked : ∀ item ∈ items, ∀ position, link item = some position ↔
      ∃ target, targets[position]? = some target ∧ wanted item target) :
    ∀ item ∈ (Keep.retain itemMarks items).map moveItem, ∀ position, link item = some position ↔
      ∃ target, ((Keep.retain marks targets).map moveTarget)[position]? = some target ∧
        wanted item target := by
  intro item member position
  rw [← Option.mem_toList]
  refine mem_links_prune (fun item => (link item).toList) ?_ respects ?_ item member position
  · intro item
    rw [moves, Keep.toList_bind_newPosition?]
  · intro item member position
    rw [Option.mem_toList, linked item member position]

end Links

/-- Links that follow keys still do so after pruning. -/
theorem LinkedByKeys.prune (linked : block.LinkedByKeys) (keep : Keep) :
    (block.prune keep).LinkedByKeys where
  logTransaction := link_eq_some_prune (fun _ => rfl) (fun _ _ => Iff.rfl) linked.logTransaction
  traceTransaction :=
    link_eq_some_prune (fun _ => rfl) (fun _ _ => Iff.rfl) linked.traceTransaction
  stateDiffTransaction :=
    link_eq_some_prune (fun _ => rfl) (fun _ _ => Iff.rfl) linked.stateDiffTransaction
  transactionLogs := mem_links_prune _ (fun _ => rfl) (fun _ _ => Iff.rfl) linked.transactionLogs
  transactionTraces :=
    mem_links_prune _ (fun _ => rfl) (fun _ _ => Iff.rfl) linked.transactionTraces
  transactionStateDiffs :=
    mem_links_prune _ (fun _ => rfl) (fun _ _ => Iff.rfl) linked.transactionStateDiffs
  parent := link_eq_some_prune (fun _ => rfl) (fun _ _ => Iff.rfl) linked.parent
  children := mem_links_prune _ (fun _ => rfl) (fun _ _ => Iff.rfl) linked.children

end Block

end ChainFeed
