import ChainFeed.Block.Positions
import Mathlib.Data.List.Sort

/-!
# Theory of positions

Positions of items with a property come in ascending order, so such a list is
determined by what it holds, and its last entry is its largest.
-/

namespace ChainFeed

variable {α β : Type} {property : α → Bool} {items : List α}

/-- Items are numbered in strictly ascending order. -/
theorem zipIdx_ascending (items : List α) :
    items.zipIdx.Pairwise fun left right => left.2 < right.2 := by
  rw [← List.pairwise_map, List.zipIdx_map_snd]
  exact List.pairwise_lt_range'

/-- Positions are listed in strictly ascending order. -/
theorem positionsWhere_ascending (property : α → Bool) (items : List α) :
    (positionsWhere property items).Pairwise (· < ·) := by
  rw [positionsWhere, List.pairwise_map]
  exact (zipIdx_ascending items).sublist List.filter_sublist

/-- A strictly ascending list is the list of positions of a property if it holds
the right positions. -/
theorem eq_positionsWhere {positions : List Nat} (ascending : positions.Pairwise (· < ·))
    (mem_iff : ∀ position, position ∈ positions ↔
      ∃ item, items[position]? = some item ∧ property item = true) :
    positions = positionsWhere property items := by
  apply ascending.eq_of_mem_iff (positionsWhere_ascending property items)
  intro position
  rw [mem_iff, mem_positionsWhere]

/-- What stands at the positions of a property are the items with the property in order. -/
theorem map_getElem?_positionsWhere (property : α → Bool) (items : List α) :
    (positionsWhere property items).map (items[·]?) = (items.filter property).map some := by
  have found : ∀ entry ∈ items.zipIdx.filter fun entry => property entry.1,
      items[entry.2]? = some entry.1 := by
    intro entry member
    exact List.mem_zipIdx_iff_getElem?.mp (List.mem_of_mem_filter member)
  have unnumbered : items.filter property =
      (items.zipIdx.filter fun entry => property entry.1).map Prod.fst := by
    rw [← Function.comp_def property Prod.fst, ← List.filter_map, List.zipIdx_map_fst]
  rw [positionsWhere, unnumbered, List.map_map, List.map_map]
  exact List.map_congr_left found

/-- Positions in a mapped list are positions in the list itself. -/
theorem positionsWhere_map (image : β → α) (sources : List β) :
    positionsWhere property (sources.map image) = positionsWhere (property ∘ image) sources := by
  apply eq_positionsWhere (positionsWhere_ascending property _)
  intro position
  simp only [mem_positionsWhere, List.getElem?_map, Option.map_eq_some_iff, Function.comp_apply]
  constructor
  · rintro ⟨_, ⟨source, found, rfl⟩, holds⟩
    exact ⟨source, found, holds⟩
  · rintro ⟨source, found, holds⟩
    exact ⟨image source, ⟨source, found, rfl⟩, holds⟩

/-- Equally marked items have equal positions. -/
theorem positionsWhere_eq_of_map_eq {other : β → Bool} {others : List β}
    (same : items.map property = others.map other) :
    positionsWhere property items = positionsWhere other others :=
  calc
    positionsWhere property items = positionsWhere id (items.map property) :=
      (@positionsWhere_map _ _ id property items).symm
    _ = positionsWhere id (others.map other) := by rw [same]
    _ = positionsWhere other others := @positionsWhere_map _ _ id other others

theorem positionsWhere_cons (property : α → Bool) (item : α) (rest : List α) :
    positionsWhere property (item :: rest) =
      (if property item then [0] else []) ++ (positionsWhere property rest).map (· + 1) := by
  symm
  apply eq_positionsWhere
  · have later : ((positionsWhere property rest).map (· + 1)).Pairwise (· < ·) := by
      rw [List.pairwise_map]
      exact (positionsWhere_ascending property rest).imp Nat.succ_lt_succ
    by_cases holds : property item
    · rw [if_pos holds, List.singleton_append, List.pairwise_cons]
      refine ⟨?_, later⟩
      intro place member
      obtain ⟨position, _, rfl⟩ := List.mem_map.mp member
      exact Nat.succ_pos position
    · simpa [holds] using later
  · intro position
    cases position with
    | zero => by_cases holds : property item <;> simp [holds]
    | succ position => by_cases holds : property item <;> simp [holds]

theorem positionsWhere_concat (property : α → Bool) (items : List α) (item : α) :
    positionsWhere property (items ++ [item]) =
      positionsWhere property items ++ if property item then [items.length] else [] := by
  rw [positionsWhere, positionsWhere, List.zipIdx_append, List.filter_append, List.map_append]
  by_cases holds : property item <;> simp [holds]

theorem lastPositionWhere?_concat (property : α → Bool) (items : List α) (item : α) :
    lastPositionWhere? property (items ++ [item]) =
      if property item then some items.length else lastPositionWhere? property items := by
  rw [lastPositionWhere?, positionsWhere_concat]
  by_cases holds : property item <;> simp [holds, lastPositionWhere?]

/-- The last entry of an ascending list is its largest. -/
theorem getLast?_eq_some_iff_of_ascending {positions : List Nat} {last : Nat}
    (ascending : positions.Pairwise (· < ·)) :
    positions.getLast? = some last ↔
      last ∈ positions ∧ ∀ position ∈ positions, position ≤ last := by
  constructor
  · intro found
    obtain ⟨initial, rfl⟩ := List.getLast?_eq_some_iff.mp found
    refine ⟨by simp, ?_⟩
    intro position member
    rcases List.mem_append.mp member with earlier | final
    · exact Nat.le_of_lt ((List.pairwise_append.mp ascending).2.2 position earlier last (by simp))
    · exact Nat.le_of_eq (List.mem_singleton.mp final)
  · rintro ⟨member, largest⟩
    cases found : positions.getLast? with
    | none => simp [List.getLast?_eq_none_iff.mp found] at member
    | some other =>
        obtain ⟨initial, rfl⟩ := List.getLast?_eq_some_iff.mp found
        have atMost : other ≤ last := largest other (by simp)
        rcases List.mem_append.mp member with earlier | final
        · have below := (List.pairwise_append.mp ascending).2.2 last earlier other (by simp)
          omega
        · simp [List.mem_singleton.mp final]

/-- What it is to be the last position with a property. -/
theorem lastPositionWhere?_eq_some_iff {last : Nat} :
    lastPositionWhere? property items = some last ↔
      (∃ item, items[last]? = some item ∧ property item = true) ∧
        ∀ (position : Nat) (item : α), items[position]? = some item → property item = true →
          position ≤ last := by
  rw [lastPositionWhere?, getLast?_eq_some_iff_of_ascending (positionsWhere_ascending _ _)]
  simp only [mem_positionsWhere]
  constructor
  · rintro ⟨member, largest⟩
    refine ⟨member, ?_⟩
    intro position item found holds
    exact largest position ⟨item, found, holds⟩
  · rintro ⟨member, largest⟩
    refine ⟨member, ?_⟩
    rintro position ⟨item, found, holds⟩
    exact largest position item found holds

/-- There is no last position exactly if no item has the property. -/
theorem lastPositionWhere?_eq_none_iff :
    lastPositionWhere? property items = none ↔ ∀ item ∈ items, property item = false := by
  rw [lastPositionWhere?, List.getLast?_eq_none_iff, List.eq_nil_iff_forall_not_mem]
  simp only [mem_positionsWhere]
  constructor
  · intro nowhere item member
    obtain ⟨position, found⟩ := List.getElem?_of_mem member
    by_contra holds
    exact nowhere position ⟨item, found, by simpa using holds⟩
  · rintro nowhere position ⟨item, found, holds⟩
    simp [nowhere item (List.mem_of_getElem? found)] at holds

/-- Items that differ in some respect are told apart by it. -/
theorem position_eq_of_nodup_map {image : α → β} (distinct : (items.map image).Nodup)
    {left right : Nat} {leftItem rightItem : α} (foundLeft : items[left]? = some leftItem)
    (foundRight : items[right]? = some rightItem) (same : image leftItem = image rightItem) :
    left = right := by
  have inBounds : left < (items.map image).length := by
    rw [List.length_map]
    exact (List.getElem?_eq_some_iff.mp foundLeft).1
  apply (List.getElem?_inj inBounds distinct).mp
  rw [List.getElem?_map, List.getElem?_map, foundLeft, foundRight, Option.map_some,
    Option.map_some, same]

/-- If all items with a property agree in some respect in which no two items do,
then a position with the property is the last one. -/
theorem lastPositionWhere?_eq_some_iff_of_nodup_map {image : α → β}
    (distinct : (items.map image).Nodup)
    (agree : ∀ left right, property left = true → property right = true →
      image left = image right)
    {position : Nat} :
    lastPositionWhere? property items = some position ↔
      ∃ item, items[position]? = some item ∧ property item = true := by
  rw [lastPositionWhere?_eq_some_iff]
  constructor
  · exact And.left
  · rintro ⟨item, found, holds⟩
    refine ⟨⟨item, found, holds⟩, ?_⟩
    intro other otherItem foundOther otherHolds
    exact Nat.le_of_eq
      (position_eq_of_nodup_map distinct foundOther found (agree otherItem item otherHolds holds))

/-- Keeping only what comes from one of several distinct sources. -/
theorem filter_flatMap_eq {sources : List β} {part : β → List α} {keep : α → Bool} {source : β}
    (distinct : sources.Nodup) (member : source ∈ sources)
    (only : ∀ other ∈ sources, ∀ item ∈ part other, keep item = true ↔ other = source) :
    (sources.flatMap part).filter keep = part source := by
  have dropped : ∀ others : List β, others ⊆ sources → source ∉ others →
      (others.flatMap part).filter keep = [] := by
    intro others within absent
    rw [List.filter_eq_nil_iff]
    intro item isItem kept
    obtain ⟨other, isOther, comes⟩ := List.mem_flatMap.mp isItem
    exact absent ((only other (within isOther) item comes).mp kept ▸ isOther)
  -- The one source that counts stands between others, all items of which are dropped.
  obtain ⟨before, after, rfl⟩ := List.append_of_mem member
  obtain ⟨_, afterDistinct, disjoint⟩ := List.nodup_append.mp distinct
  have notBefore : source ∉ before := fun isBefore => disjoint _ isBefore _ List.mem_cons_self rfl
  have own : (part source).filter keep = part source :=
    List.filter_eq_self.mpr fun item isItem => (only source member item isItem).mpr rfl
  rw [List.flatMap_append, List.filter_append, List.flatMap_cons, List.filter_append, own,
    dropped before (List.subset_append_left _ _) notBefore,
    dropped after (fun _ isAfter => List.mem_append_right _ (List.mem_cons_of_mem _ isAfter))
      (List.nodup_cons.mp afterDistinct).1,
    List.nil_append, List.append_nil]

end ChainFeed
