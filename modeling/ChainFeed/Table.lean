import ChainFeed.Bytes

/-!
# Tables keyed by fixed-width words

Accounts are listed by address and storage by slot.  A table holds at most one
value per key, in ascending order of the keys, so two tables with the same
bindings are equal.
-/

namespace ChainFeed

/-- Bindings in ascending order of their keys. -/
structure Table (width : Nat) (α : Type) where
  entries : List (FixedBytes width × α)
  ascending : entries.Pairwise fun left right => left.1 < right.1
  deriving DecidableEq

namespace Table

variable {width : Nat} {α : Type}

/-- The table without bindings. -/
def empty : Table width α := ⟨[], .nil⟩

instance : Inhabited (Table width α) := ⟨empty⟩

/-- The value bound to a key. -/
def get? (table : Table width α) (key : FixedBytes width) : Option α :=
  table.entries.lookup key

/-- Whether a key is bound. -/
def contains (table : Table width α) (key : FixedBytes width) : Bool :=
  (table.get? key).isSome

/-- Place a binding before the first larger key; an equal key is rebound. -/
def insertEntry (key : FixedBytes width) (value : α) :
    List (FixedBytes width × α) → List (FixedBytes width × α)
  | [] => [(key, value)]
  | (other, bound) :: rest =>
      if key < other then
        (key, value) :: (other, bound) :: rest
      else if key = other then
        (key, value) :: rest
      else
        (other, bound) :: insertEntry key value rest

theorem mem_insertEntry {key : FixedBytes width} {value : α}
    {entries : List (FixedBytes width × α)} {entry : FixedBytes width × α}
    (member : entry ∈ insertEntry key value entries) :
    entry = (key, value) ∨ entry ∈ entries := by
  induction entries with
  | nil => simpa [insertEntry] using member
  | cons head rest ih =>
      obtain ⟨other, bound⟩ := head
      simp only [insertEntry] at member
      split at member
      · simpa using member
      · split at member
        · rcases List.mem_cons.mp member with rfl | inRest
          · exact .inl rfl
          · exact .inr (List.mem_cons_of_mem _ inRest)
        · rcases List.mem_cons.mp member with rfl | inRest
          · exact .inr List.mem_cons_self
          · rcases ih inRest with equal | old
            · exact .inl equal
            · exact .inr (List.mem_cons_of_mem _ old)

theorem insertEntry_ascending {key : FixedBytes width} {value : α}
    {entries : List (FixedBytes width × α)}
    (ascending : entries.Pairwise fun left right => left.1 < right.1) :
    (insertEntry key value entries).Pairwise fun left right => left.1 < right.1 := by
  induction entries with
  | nil => simp [insertEntry]
  | cons head rest ih =>
      obtain ⟨other, bound⟩ := head
      obtain ⟨below, restAscending⟩ := List.pairwise_cons.mp ascending
      simp only [insertEntry]
      split
      · rename_i less
        refine List.pairwise_cons.mpr ⟨fun entry member => ?_, ascending⟩
        rcases List.mem_cons.mp member with rfl | inRest
        · exact less
        · exact FixedBytes.lt_trans less (below entry inRest)
      · rename_i notLess
        split
        · rename_i equal
          subst equal
          exact List.pairwise_cons.mpr ⟨below, restAscending⟩
        · rename_i different
          refine List.pairwise_cons.mpr ⟨fun entry member => ?_, ih restAscending⟩
          rcases mem_insertEntry member with rfl | old
          · exact FixedBytes.lt_of_not_lt notLess different
          · exact below entry old

/-- Bind a key, replacing what it was bound to. -/
def insert (table : Table width α) (key : FixedBytes width) (value : α) : Table width α :=
  ⟨insertEntry key value table.entries, insertEntry_ascending table.ascending⟩

/-- Bind the pairs one after another; of equal keys the last one stays. -/
def ofList (bindings : List (FixedBytes width × α)) : Table width α :=
  bindings.foldl (fun table binding => table.insert binding.1 binding.2) empty

end Table

end ChainFeed
