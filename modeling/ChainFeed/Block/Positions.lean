/-!
# Positions in a list
-/

namespace ChainFeed

/-- Positions of the items with a property, in ascending order. -/
def positionsWhere {α : Type} (property : α → Bool) (items : List α) : List Nat :=
  (items.zipIdx.filter fun entry => property entry.1).map Prod.snd

/-- The last position of an item with a property. -/
def lastPositionWhere? {α : Type} (property : α → Bool) (items : List α) : Option Nat :=
  (positionsWhere property items).getLast?

@[simp] theorem mem_positionsWhere {α : Type} {property : α → Bool} {items : List α}
    {position : Nat} :
    position ∈ positionsWhere property items ↔
      ∃ item, items[position]? = some item ∧ property item = true := by
  simp only [positionsWhere, List.mem_map, List.mem_filter, Prod.exists,
    List.mem_zipIdx_iff_getElem?]
  constructor
  · rintro ⟨item, index, ⟨found, holds⟩, rfl⟩
    exact ⟨item, found, holds⟩
  · rintro ⟨item, found, holds⟩
    exact ⟨item, position, ⟨found, holds⟩, rfl⟩

end ChainFeed
