import ChainFeed.Block.Wiring.Passes
import ChainFeed.Proofs.Rewiring

/-!
# Passes over items

Each pass is followed state by state: after the items before a place have been handled, the
lists are described outright, and the step at that place leads from one description to the
next.  So no step meets a position that does not exist.
-/

namespace ChainFeed

/-! ## Folds and single changes -/

/-- A fold that leads from each described state to the next one ends in the last of them. -/
theorem foldlM_eq_some {σ α : Type} {step : σ → α → Option σ} {items : List α}
    (stateAt : Nat → σ)
    (steps : ∀ (place : Nat) (item : α), items[place]? = some item →
      step (stateAt place) item = some (stateAt (place + 1))) :
    items.foldlM step (stateAt 0) = some (stateAt items.length) := by
  induction items generalizing stateAt with
  | nil => rfl
  | cons item rest ih =>
      rw [List.foldlM_cons, steps 0 item rfl]
      exact ih (fun place => stateAt (place + 1)) fun place later found =>
        steps (place + 1) later found

/-- A fold over the numbers below a bound, in the same way. -/
theorem foldlM_range_eq_some {σ : Type} {step : σ → Nat → Option σ} {count : Nat}
    (stateAt : Nat → σ)
    (steps : ∀ place < count, step (stateAt place) place = some (stateAt (place + 1))) :
    (List.range count).foldlM step (stateAt 0) = some (stateAt count) := by
  have step (place number : Nat) (found : (List.range count)[place]? = some number) :
      step (stateAt place) number = some (stateAt (place + 1)) := by
    obtain ⟨inBounds, rfl⟩ := List.getElem?_eq_some_iff.mp found
    rw [List.getElem_range]
    exact steps place (by simpa using inBounds)
  rw [foldlM_eq_some stateAt step, List.length_range]

theorem changeAt?_eq_some {α : Type} {items : List α} {position : Nat} (change : α → α)
    (inBounds : position < items.length) :
    changeAt? change position items = some (items.modify position change) :=
  if_pos inBounds

theorem take_succ_eq_concat {α : Type} {items : List α} {place : Nat} {item : α}
    (found : items[place]? = some item) :
    items.take (place + 1) = items.take place ++ [item] := by
  rw [List.take_add_one, found, Option.toList_some]

theorem length_take_of_getElem? {α : Type} {items : List α} {place : Nat} {item : α}
    (found : items[place]? = some item) : (items.take place).length = place := by
  have inBounds := (List.getElem?_eq_some_iff.mp found).1
  rw [List.length_take, Nat.min_eq_left inBounds.le]

/-- A change at a position depends on the item there only. -/
theorem modify_congr {α : Type} {items : List α} {position : Nat} {item : α}
    {change other : α → α} (found : items[position]? = some item)
    (same : change item = other item) :
    items.modify position change = items.modify position other := by
  apply List.ext_getElem?
  intro place
  rw [List.getElem?_modify, List.getElem?_modify]
  by_cases here : position = place
  · subst here
    simp [found, same]
  · simp [here]

theorem modify_eq_mapIdx {α : Type} (items : List α) (position : Nat) (change : α → α) :
    items.modify position change =
      items.mapIdx fun place item => if position = place then change item else item := by
  apply List.ext_getElem?
  intro place
  rw [List.getElem?_modify, List.getElem?_mapIdx]
  rfl

/-- A change that does not show in an image does not change the images. -/
theorem map_modify_of_eq {α β : Type} {items : List α} {place : Nat} {change : α → α}
    {image : α → β} (same : ∀ item, image (change item) = image item) :
    (items.modify place change).map image = items.map image := by
  apply List.ext_getElem?
  intro position
  rw [List.getElem?_map, List.getElem?_modify, List.getElem?_map]
  by_cases here : place = position <;> simp [here, Function.comp_def, same]

/-! ## The table of positions -/

namespace PositionTable

/-- In canonical order no index is beyond that of the last transaction. -/
theorem toNat_lt_size {transactions : List Transaction}
    (ordered : transactions.Pairwise fun left right =>
      left.transactionIndex ≤ right.transactionIndex)
    {transaction : Transaction} (member : transaction ∈ transactions) :
    transaction.transactionIndex.toNat < size transactions := by
  rw [size]
  cases lastFound : transactions.getLast? with
  | none => simp [List.getLast?_eq_none_iff.mp lastFound] at member
  | some last =>
      obtain ⟨initial, rfl⟩ := List.getLast?_eq_some_iff.mp lastFound
      rw [Option.elim_some, Nat.lt_succ_iff, ← UInt32.le_iff_toNat_le]
      rcases List.mem_append.mp member with earlier | final
      · exact (List.pairwise_append.mp ordered).2.2 transaction earlier last (by simp)
      · exact List.mem_singleton.mp final ▸ UInt32.le_refl _

/-- The table of transactions in canonical order is filled within its size, and it tells the
last position with an index. -/
theorem exists_ofTransactions? {transactions : List Transaction}
    (ordered : transactions.Pairwise fun left right =>
      left.transactionIndex ≤ right.transactionIndex) :
    ∃ table, ofTransactions? transactions = some table ∧
      table.position? = Transaction.position? transactions := by
  let filled (count : Nat) : List (Option Nat) := (List.range (size transactions)).map
    fun number => lastPositionWhere?
      (fun transaction => transaction.transactionIndex.toNat == number)
      (transactions.take count)
  have blank : filled 0 = List.replicate (size transactions) none := by
    simp [filled, lastPositionWhere?, positionsWhere]
  have step (place : Nat) (entry : Transaction × Nat)
      (found : transactions.zipIdx[place]? = some entry) :
      note? (filled place) entry = some (filled (place + 1)) := by
    obtain ⟨transaction, foundTransaction, rfl⟩ :
        ∃ transaction, transactions[place]? = some transaction ∧ (transaction, place) = entry := by
      rw [List.getElem?_zipIdx, Nat.zero_add] at found
      exact Option.map_eq_some_iff.mp found
    have inBounds : transaction.transactionIndex.toNat < (filled place).length := by
      rw [List.length_map, List.length_range]
      exact toNat_lt_size ordered (List.mem_of_getElem? foundTransaction)
    rw [note?, changeAt?_eq_some _ inBounds, Option.some.injEq]
    apply List.ext_getElem?
    intro number
    simp only [filled, List.getElem?_modify, List.getElem?_map]
    rw [take_succ_eq_concat foundTransaction]
    simp only [lastPositionWhere?_concat, length_take_of_getElem? foundTransaction]
    rcases Nat.lt_or_ge number (size transactions) with inside | beyond
    · rw [List.getElem?_range inside]
      by_cases same : transaction.transactionIndex.toNat = number <;> simp [same]
    · rw [List.getElem?_eq_none (by simpa using beyond)]
      rfl
  refine ⟨⟨filled transactions.length⟩, ?_, ?_⟩
  · rw [ofTransactions?, ← blank, foldlM_eq_some filled step, List.length_zipIdx]
    rfl
  · funext index
    have sameIndex (transaction : Transaction) :
        (transaction.transactionIndex.toNat == index.toNat) =
          (transaction.transactionIndex == index) := by
      rw [Bool.eq_iff_iff, beq_iff_eq, beq_iff_eq, UInt32.toNat_inj]
    rw [position?, Transaction.position?, List.getElem?_map, List.take_length]
    rcases Nat.lt_or_ge index.toNat (size transactions) with inside | beyond
    · rw [List.getElem?_range inside]
      simp only [Option.map_some, Option.join_some, sameIndex]
    · rw [List.getElem?_eq_none (by simpa using beyond), Option.map_none, Option.join_none, eq_comm,
        lastPositionWhere?_eq_none_iff]
      intro transaction member
      have inside := toNat_lt_size ordered member
      rw [beq_eq_false_iff_ne]
      rintro rfl
      omega

end PositionTable

/-! ## Items and their transactions -/

namespace Linking

variable {α : Type} (linking : Linking α) (table : PositionTable)

/-- An item with its link set. -/
def linked (item : α) : α :=
  (table.position? (linking.index item)).elim item fun position => linking.link position item

/-- A transaction with links to the items at some places set. -/
def recorded (places : List Nat) (transaction : Transaction) : Transaction :=
  places.foldl (fun transaction place => linking.record place transaction) transaction

/-- Whether an item belongs to the transaction at a position. -/
def belongs (position : Nat) (item : α) : Bool :=
  table.position? (linking.index item) == some position

variable {linking} {table} {items : List α} {transactions : List Transaction} {place : Nat}
  {item : α}

/-- The step at a place sets the link of the item there and notes the place with its
transaction. -/
theorem linkAt?_eq_some
    (bounded : ∀ index position, table.position? index = some position →
      position < transactions.length)
    (found : items[place]? = some item) :
    linking.linkAt? table place items transactions =
      some (items.modify place (linking.linked table),
        transactions.mapIdx fun position transaction =>
          if linking.belongs table position item then linking.record place transaction
          else transaction) := by
  have inBounds := (List.getElem?_eq_some_iff.mp found).1
  rw [linkAt?, found]
  cases owner : table.position? (linking.index item) with
  | none =>
      have same : items.modify place (linking.linked table) = items := by
        have unchanged : linking.linked table item = id item := by simp [linked, owner]
        rw [modify_congr found unchanged, List.modify_id]
      have kept : (transactions.mapIdx fun position transaction =>
          if linking.belongs table position item then linking.record place transaction
          else transaction) = transactions := by
        apply List.ext_getElem?
        intro position
        simp [belongs, owner]
      simp [owner, same, kept]
  | some position =>
      have same : items.modify place (linking.linked table) =
          items.modify place (linking.link position) :=
        modify_congr found (by simp [linked, owner])
      have noted : (transactions.mapIdx fun other transaction =>
          if linking.belongs table other item then linking.record place transaction
          else transaction) = transactions.modify position (linking.record place) := by
        rw [modify_eq_mapIdx]
        simp only [belongs, owner, beq_iff_eq, Option.some.injEq]
      simp [owner, same, noted, changeAt?_eq_some _ inBounds,
        changeAt?_eq_some _ (bounded _ _ owner)]

section UpTo

variable (linking table items transactions)

/-- The items of which the first ones are linked. -/
def linkedUpTo (count : Nat) : List α :=
  items.mapIdx fun place item => if place < count then linking.linked table item else item

/-- The transactions with links to the first items noted. -/
def notedUpTo (count : Nat) : List Transaction :=
  transactions.mapIdx fun position transaction =>
    linking.recorded (positionsWhere (linking.belongs table position) (items.take count))
      transaction

theorem linkedUpTo_zero : linking.linkedUpTo table items 0 = items := by
  apply List.ext_getElem?
  intro place
  simp [linkedUpTo]

theorem notedUpTo_zero : linking.notedUpTo table items transactions 0 = transactions := by
  apply List.ext_getElem?
  intro position
  simp [notedUpTo, positionsWhere, recorded]

@[simp] theorem length_notedUpTo (count : Nat) :
    (linking.notedUpTo table items transactions count).length = transactions.length :=
  List.length_mapIdx

theorem linkedUpTo_length :
    linking.linkedUpTo table items items.length = items.map (linking.linked table) := by
  apply List.ext_getElem?
  intro place
  rw [linkedUpTo, List.getElem?_mapIdx, List.getElem?_map]
  cases found : items[place]? with
  | none => rfl
  | some item => simp [(List.getElem?_eq_some_iff.mp found).1]

end UpTo

theorem linkedUpTo_succ (place : Nat) :
    linking.linkedUpTo table items (place + 1) =
      (linking.linkedUpTo table items place).modify place (linking.linked table) := by
  apply List.ext_getElem?
  intro other
  simp only [linkedUpTo, List.getElem?_modify, List.getElem?_mapIdx]
  rcases Nat.lt_trichotomy other place with before | rfl | after
  · simp [before, show place ≠ other by omega, show other < place + 1 by omega]
  · simp
  · simp [show place ≠ other by omega, show ¬other < place + 1 by omega,
      show ¬other < place by omega]

theorem notedUpTo_succ (found : items[place]? = some item) :
    linking.notedUpTo table items transactions (place + 1) =
      (linking.notedUpTo table items transactions place).mapIdx fun position transaction =>
        if linking.belongs table position item then linking.record place transaction
        else transaction := by
  apply List.ext_getElem?
  intro position
  simp only [notedUpTo, List.getElem?_mapIdx, Option.map_map, take_succ_eq_concat found,
    positionsWhere_concat, length_take_of_getElem? found]
  congr 1
  funext transaction
  by_cases belongs : linking.belongs table position item <;> simp [recorded, belongs]

/-- A pass over items links each of them and notes all of them. -/
theorem linkAll?_eq_some
    (bounded : ∀ index position, table.position? index = some position →
      position < transactions.length) :
    linking.linkAll? table items transactions =
      some (items.map (linking.linked table),
        linking.notedUpTo table items transactions items.length) := by
  let stateAt (count : Nat) : List α × List Transaction :=
    (linking.linkedUpTo table items count, linking.notedUpTo table items transactions count)
  have steps (place : Nat) (inBounds : place < items.length) :
      linking.linkAt? table place (stateAt place).1 (stateAt place).2 =
        some (stateAt (place + 1)) := by
    have found : items[place]? = some items[place] := List.getElem?_eq_getElem inBounds
    have current : (linking.linkedUpTo table items place)[place]? = some items[place] := by
      rw [linkedUpTo, List.getElem?_mapIdx, found]
      simp
    rw [linkAt?_eq_some (by simpa [stateAt] using bounded) current, ← linkedUpTo_succ,
      ← notedUpTo_succ found]
  have start : (items, transactions) = stateAt 0 :=
    congrArg₂ Prod.mk (linkedUpTo_zero linking table items).symm
      (notedUpTo_zero linking table items transactions).symm
  calc
    linking.linkAll? table items transactions = some (stateAt items.length) := by
      rw [linkAll?, start]
      exact foldlM_range_eq_some stateAt steps
    _ = some (items.map (linking.linked table), _) := by
      rw [← linkedUpTo_length]

end Linking

end ChainFeed
