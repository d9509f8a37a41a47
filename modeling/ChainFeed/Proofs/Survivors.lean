import ChainFeed.Proofs.Reselection

/-!
# Items left by a selection

A selection leaves the items at certain positions and numbers them anew.  The list of these
positions, in ascending order, tells which item stands where afterwards, and so where a link
has to lead: to the item that it led to if that is left, and nowhere otherwise.
-/

namespace ChainFeed

/-! ## Positions of what is left -/

/-- Where the items that are left stood, kind by kind and in ascending order. -/
structure Survivors where
  transactions : List Nat
  logs : List Nat
  traces : List Nat
  stateDiffs : List Nat

namespace Survivors

/-- Which of a number of items are left: all of them, or with entries for their kind those
that are included. -/
def among {ε : Type} (entries : List ε) (included : List Nat) (count : Nat) : List Nat :=
  (List.range count).filter fun position => entries.isEmpty || included.contains position

variable {ε : Type} {entries : List ε} {included : List Nat} {count position : Nat}

@[simp] theorem mem_among :
    position ∈ among entries included count ↔
      position < count ∧ (entries = [] ∨ position ∈ included) := by
  simp [among]

theorem among_ascending (entries : List ε) (included : List Nat) (count : Nat) :
    (among entries included count).Pairwise (· < ·) :=
  List.pairwise_lt_range.sublist List.filter_sublist

/-- The marks of a selection mark the items that are left. -/
theorem positionsWhere_marks (entries : List ε) (included : List Nat) (count : Nat) :
    positionsWhere id (Keep.marks (!entries.isEmpty) included count) =
      among entries included count := by
  symm
  apply eq_positionsWhere (among_ascending entries included count)
  intro position
  have marked := @Keep.marks_eq_some_true_iff (!entries.isEmpty) included position count
  rw [mem_among]
  simp only [id, exists_eq_right, marked]
  cases entries with
  | nil => simp
  | cons entry rest => simp

end Survivors

/-- Where the items stood that a request leaves of a block. -/
def Request.survivors (request : Request) (block : Block) : Survivors where
  transactions := Survivors.among request.transactions (request.inclusion block).transactions
    block.transactions.length
  logs := Survivors.among request.logs (request.inclusion block).logs block.logs.length
  traces := Survivors.among request.traces (request.inclusion block).traces block.traces.length
  stateDiffs := Survivors.among request.stateDiffs (request.inclusion block).stateDiffs
    block.stateDiffs.length

/-! ## Links to what is left -/

/-- What becomes of a link to items of which those at some positions are left. -/
structure LinkFollows (left : List Nat) (old new : Option Nat) : Prop where
  /-- It leads to an item exactly if it led to the same item before. -/
  leads : ∀ place, new = some place ↔
    ∃ position, old = some position ∧ left[place]? = some position
  /-- It is lost exactly if it led to nothing that is left. A position that was out of range
  is none of those. -/
  lost : new = none ↔ old = none ∨ ∃ position, old = some position ∧ position ∉ left

/-- What becomes of a list of links: those that led to nothing that is left are gone, and the
others lead to the same items in the same order. -/
def LinksFollow (left old new : List Nat) : Prop :=
  new.map (left[·]?) = (old.filter (· ∈ left)).map some

namespace Keep

variable {α : Type}

section Marks

variable {marks : List Bool} {items : List α} {position place : Nat}

/-- New positions number the marked ones. -/
theorem newPosition?_eq_some_iff :
    newPosition? marks position = some place ↔
      (positionsWhere id marks)[place]? = some position := by
  induction marks generalizing position place with
  | nil => simp [positionsWhere]
  | cons mark rest ih =>
      rw [positionsWhere_cons]
      cases mark with
      | false =>
          cases position with
          | zero => simp
          | succ position => simp [ih]
      | true =>
          cases position with
          | zero => cases place <;> simp
          | succ position => cases place <;> simp [ih]

theorem newPosition?_eq_none_iff :
    newPosition? marks position = none ↔ position ∉ positionsWhere id marks := by
  rw [Option.eq_none_iff_forall_ne_some, List.mem_iff_getElem?, not_exists]
  exact forall_congr' fun place => not_congr newPosition?_eq_some_iff

/-- The retained items are those at the marked positions. -/
theorem forall₂_retain (sameLength : marks.length = items.length) :
    List.Forall₂ (fun position item => items[position]? = some item) (positionsWhere id marks)
      (retain marks items) := by
  induction marks generalizing items with
  | nil => exact .nil
  | cons mark marks ih =>
      cases items with
      | nil => simp at sameLength
      | cons item items =>
          have later := ih (Nat.succ.inj sameLength)
          rw [positionsWhere_cons]
          cases mark with
          | false => exact List.forall₂_map_left_iff.mpr later
          | true => exact .cons rfl (List.forall₂_map_left_iff.mpr later)

end Marks

section Links

variable {ε : Type} (entries : List ε) (included : List Nat) (count : Nat)

theorem linkFollows_marks (link : Option Nat) :
    LinkFollows (Survivors.among entries included count) link
      (link.bind (newPosition? (marks (!entries.isEmpty) included count))) := by
  rw [← Survivors.positionsWhere_marks]
  constructor
  case leads =>
    intro place
    rw [Option.bind_eq_some_iff]
    exact exists_congr fun position => and_congr_right fun _ => newPosition?_eq_some_iff
  case lost =>
    cases link with
    | none => simp
    | some position => simp [newPosition?_eq_none_iff]

theorem linksFollow_marks (links : List Nat) :
    LinksFollow (Survivors.among entries included count) links
      (newPositions (marks (!entries.isEmpty) included count) links) := by
  rw [← Survivors.positionsWhere_marks]
  generalize marks (!entries.isEmpty) included count = marks
  induction links with
  | nil => rfl
  | cons position rest ih =>
      rw [newPositions, List.filterMap_cons]
      cases moved : newPosition? marks position with
      | none =>
          have gone := newPosition?_eq_none_iff.mp moved
          rw [LinksFollow, List.filter_cons_of_neg (by simpa using gone)]
          exact ih
      | some place =>
          have found := newPosition?_eq_some_iff.mp moved
          have left : position ∈ positionsWhere id marks := List.mem_of_getElem? found
          rw [LinksFollow, List.filter_cons_of_pos (by simpa using left), List.map_cons,
            List.map_cons, found]
          exact congrArg (some position :: ·) ih

end Links

end Keep

/-! ## Items that are left -/

/-- What becomes of a transaction that is left. -/
structure Transaction.LeftAs (left : Survivors) (old new : Transaction) : Prop where
  content : new.unlinked = old.unlinked
  logs : LinksFollow left.logs old.logs new.logs
  traces : LinksFollow left.traces old.traces new.traces
  stateDiffs : LinksFollow left.stateDiffs old.stateDiffs new.stateDiffs

/-- What becomes of a log that is left. -/
structure Log.LeftAs (left : Survivors) (old new : Log) : Prop where
  content : new.unlinked = old.unlinked
  transaction : LinkFollows left.transactions old.transaction new.transaction

/-- What becomes of a trace that is left. -/
structure Trace.LeftAs (left : Survivors) (old new : Trace) : Prop where
  content : new.unlinked = old.unlinked
  transaction : LinkFollows left.transactions old.transaction new.transaction
  parent : LinkFollows left.traces old.parent new.parent
  children : LinksFollow left.traces old.children new.children

/-- What becomes of a state diff that is left. -/
structure StateDiff.LeftAs (left : Survivors) (old new : StateDiff) : Prop where
  content : new.unlinked = old.unlinked
  transaction : LinkFollows left.transactions old.transaction new.transaction

/-- Whether items are those at some positions, each of them changed in a certain way. -/
def LeftOf {α : Type} (changed : α → α → Prop) (positions : List Nat) (items new : List α) :
    Prop :=
  List.Forall₂ (fun position item => ∃ old, items[position]? = some old ∧ changed old item)
    positions new

namespace Block

open Keep

/-- What becomes of a block of which the items at some positions are left. -/
structure LeftAs (left : Survivors) (old new : Block) : Prop where
  header : new.header = old.header
  transactions : LeftOf (Transaction.LeftAs left) left.transactions old.transactions
    new.transactions
  logs : LeftOf (Log.LeftAs left) left.logs old.logs new.logs
  traces : LeftOf (Trace.LeftAs left) left.traces old.traces new.traces
  stateDiffs : LeftOf (StateDiff.LeftAs left) left.stateDiffs old.stateDiffs new.stateDiffs
  linksInRange : new.LinksInRange

/-- The items that a selection marks, each of them changed. -/
theorem leftOf_retain {α ε : Type} {entries : List ε} {included : List Nat} {items : List α}
    {changed : α → α → Prop} {change : α → α}
    (changes : ∀ item, changed item (change item)) :
    LeftOf changed (Survivors.among entries included items.length) items
      ((Keep.retain (Keep.marks (!entries.isEmpty) included items.length) items).map change) := by
  have retained : List.Forall₂ (fun position item => items[position]? = some item) _ _ :=
    forall₂_retain (length_marks (!entries.isEmpty) included items.length)
  rw [Survivors.positionsWhere_marks] at retained
  apply List.forall₂_map_right_iff.mpr
  apply retained.imp
  intro position item found
  exact ⟨item, found, changes item⟩

/-- Selecting leaves every link to what is left as a link to the same item, whatever links
the block holds: stale ones and ones that lead nowhere included. -/
theorem leftAs_select (block : Block) (request : Request) :
    LeftAs (request.survivors block) block (block.select request) := by
  constructor
  case header => rfl
  case transactions =>
    exact leftOf_retain fun item =>
      ⟨rfl, linksFollow_marks _ _ _ item.logs, linksFollow_marks _ _ _ item.traces,
        linksFollow_marks _ _ _ item.stateDiffs⟩
  case logs => exact leftOf_retain fun item => ⟨rfl, linkFollows_marks _ _ _ item.transaction⟩
  case traces =>
    exact leftOf_retain fun item =>
      ⟨rfl, linkFollows_marks _ _ _ item.transaction, linkFollows_marks _ _ _ item.parent,
        linksFollow_marks _ _ _ item.children⟩
  case stateDiffs => exact leftOf_retain fun item => ⟨rfl, linkFollows_marks _ _ _ item.transaction⟩
  case linksInRange => exact linksInRange_select block request

end Block

end ChainFeed
