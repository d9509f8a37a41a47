import ChainFeed.Proofs.HexText
import Mathlib.Data.List.Nodup

/-!
# Theory of tables

A table has one value per key, so it is told by what its keys are bound to.  Written as an
object it has its keys in ascending order, and it is read back from that object if its values
are read back.
-/

namespace ChainFeed

/-- Insertion that puts a last item last leaves an ascending list as it is. -/
theorem foldl_eq_of_pairwise {α : Type} {below : α → α → Prop} {insert : List α → α → List α}
    (puts : ∀ front item, (∀ earlier ∈ front, below earlier item) →
      insert front item = front ++ [item])
    {items : List α} (ascending : items.Pairwise below) : items.foldl insert [] = items := by
  suffices continued : ∀ front : List α, (front ++ items).Pairwise below →
      items.foldl insert front = front ++ items from continued [] ascending
  clear ascending
  induction items with
  | nil => simp
  | cons item rest ih =>
      intro front ascending
      have earlier : ∀ other ∈ front, below other item := fun other member =>
        (List.pairwise_append.mp ascending).2.2 other member item List.mem_cons_self
      rw [List.foldl_cons, puts front item earlier, ih, List.append_assoc, List.singleton_append]
      rwa [List.append_assoc, List.singleton_append]

namespace Table

variable {width : Nat} {α β : Type} {table : Table width α} {key : FixedBytes width} {value : α}

/-! ## Bindings -/

theorem keys_nodup (table : Table width α) : (table.entries.map Prod.fst).Nodup := by
  rw [List.Nodup, List.pairwise_map]
  refine table.ascending.imp ?_
  intro left right below same
  exact FixedBytes.lt_irrefl right.1 (same ▸ below)

/-- What is listed is what keys are bound to. -/
theorem get?_eq_some_iff : table.get? key = some value ↔ (key, value) ∈ table.entries := by
  rw [get?]
  have distinct := table.keys_nodup
  generalize table.entries = entries at distinct
  induction entries with
  | nil => simp
  | cons entry rest ih =>
      obtain ⟨other, bound⟩ := entry
      obtain ⟨fresh, distinctRest⟩ := List.nodup_cons.mp distinct
      rw [List.lookup_cons, List.mem_cons, Prod.mk.injEq]
      by_cases same : key = other
      · subst same
        have unlisted : (key, value) ∉ rest := fun member =>
          fresh (List.mem_map.mpr ⟨(key, value), member, rfl⟩)
        simp [unlisted, eq_comm]
      · rw [beq_eq_false_iff_ne.mpr same]
        simp [same, ih distinctRest]

/-- The bound keys are those listed. -/
theorem contains_iff : table.contains key = true ↔ key ∈ table.entries.map Prod.fst := by
  rw [contains, Option.isSome_iff_exists, List.mem_map]
  constructor
  · rintro ⟨value, found⟩
    exact ⟨(key, value), get?_eq_some_iff.mp found, rfl⟩
  · rintro ⟨⟨_, value⟩, member, rfl⟩
    exact ⟨value, get?_eq_some_iff.mpr member⟩

theorem contains_eq_false_iff : table.contains key = false ↔ table.get? key = none := by
  rw [contains, Option.isSome_eq_false_iff, Option.isNone_iff_eq_none]

/-- The table with other values bound to the same keys. -/
def map (image : α → β) (table : Table width α) : Table width β where
  entries := table.entries.map fun entry => (entry.1, image entry.2)
  ascending := by
    rw [List.pairwise_map]
    exact table.ascending

@[simp] theorem get?_map (image : α → β) :
    (table.map image).get? key = (table.get? key).map image := by
  apply Option.ext
  intro value
  rw [get?_eq_some_iff, Option.map_eq_some_iff]
  simp only [map, List.mem_map, Prod.mk.injEq, Prod.exists, get?_eq_some_iff]
  constructor
  · rintro ⟨other, bound, member, rfl, rfl⟩
    exact ⟨bound, member, rfl⟩
  · rintro ⟨bound, member, rfl⟩
    exact ⟨key, bound, member, rfl, rfl⟩

/-- The keys of a table, and then those of another table that are not among them. -/
def jointKeys (first : Table width α) (second : Table width β) : List (FixedBytes width) :=
  first.entries.map Prod.fst ++
    (second.entries.filter fun entry => !first.contains entry.1).map Prod.fst

theorem jointKeys_nodup (first : Table width α) (second : Table width β) :
    (first.jointKeys second).Nodup := by
  rw [jointKeys, List.nodup_append]
  refine ⟨first.keys_nodup, second.keys_nodup.sublist (List.filter_sublist.map _), ?_⟩
  intro key listed other unlisted same
  obtain ⟨⟨_, value⟩, member, rfl⟩ := List.mem_map.mp listed
  obtain ⟨_, kept, rfl⟩ := List.mem_map.mp unlisted
  have isNone := contains_eq_false_iff.mp (by simpa using (List.mem_filter.mp kept).2)
  rw [← same, get?_eq_some_iff.mpr member] at isNone
  cases isNone

theorem mem_jointKeys {first : Table width α} {second : Table width β} :
    key ∈ first.jointKeys second ↔ first.contains key = true ∨ second.contains key = true := by
  have unlisted : key ∈ (second.entries.filter fun entry => !first.contains entry.1).map Prod.fst ↔
      first.contains key = false ∧ second.contains key = true := by
    rw [contains_iff, List.mem_map, List.mem_map]
    constructor
    · rintro ⟨entry, kept, rfl⟩
      obtain ⟨member, isNew⟩ := List.mem_filter.mp kept
      exact ⟨by simpa using isNew, entry, member, rfl⟩
    · rintro ⟨isNew, entry, member, rfl⟩
      exact ⟨entry, List.mem_filter.mpr ⟨member, by simpa using isNew⟩, rfl⟩
  rw [jointKeys, List.mem_append, unlisted, ← contains_iff]
  cases first.contains key <;> simp

/-- What holds where nothing is bound holds everywhere if it holds at the listed keys. -/
theorem forall_get?_iff {γ : Type} {holds : Option α → Option β → Option γ → Prop}
    (blank : holds none none none) (first : Table width α) (second : Table width β)
    (third : Table width γ) :
    (∀ key ∈ first.entries.map Prod.fst ++ second.jointKeys third,
        holds (first.get? key) (second.get? key) (third.get? key)) ↔
      ∀ key, holds (first.get? key) (second.get? key) (third.get? key) := by
  constructor
  · intro each key
    by_cases listed : key ∈ first.entries.map Prod.fst ++ second.jointKeys third
    · exact each key listed
    · rw [List.mem_append, mem_jointKeys, ← contains_iff] at listed
      simp only [not_or, Bool.not_eq_true, contains_eq_false_iff] at listed
      rw [listed.1, listed.2.1, listed.2.2]
      exact blank
  · exact fun each key _ => each key

/-- Tables that bind the same values to the same keys are equal. -/
theorem ext_get? {first second : Table width α}
    (same : ∀ key, first.get? key = second.get? key) : first = second := by
  have sameEntries : first.entries = second.entries := by
    have perm : first.entries.Perm second.entries := by
      rw [List.perm_ext_iff_of_nodup first.keys_nodup.of_map second.keys_nodup.of_map]
      rintro ⟨key, value⟩
      rw [← get?_eq_some_iff, ← get?_eq_some_iff, same]
    refine perm.eq_of_pairwise ?_ first.ascending second.ascending
    intro left right _ _ below above
    exact absurd (FixedBytes.lt_trans below above) (FixedBytes.lt_irrefl left.1)
  cases first
  cases second
  simpa using sameEntries

/-! ## Changes -/

theorem lookup_insertEntry {entries : List (FixedBytes width × α)} (other : FixedBytes width) :
    (insertEntry key value entries).lookup other =
      if other = key then some value else entries.lookup other := by
  have lookup_cons (first bound) (rest : List (FixedBytes width × α)) :
      ((first, bound) :: rest).lookup other =
        if other = first then some bound else rest.lookup other := by
    rw [List.lookup_cons]
    by_cases same : other = first
    · simp [same]
    · rw [beq_eq_false_iff_ne.mpr same, if_neg same]
  induction entries with
  | nil => rw [insertEntry, lookup_cons]
  | cons entry rest ih =>
      obtain ⟨first, bound⟩ := entry
      rw [insertEntry]
      split
      · rw [lookup_cons]
      · split
        · rename_i same
          rw [lookup_cons, lookup_cons, ← same]
          by_cases isKey : other = key <;> simp [isKey]
        · rename_i different
          rw [lookup_cons, ih, lookup_cons]
          by_cases isFirst : other = first
          · have notKey : other ≠ key := fun isKey => different (isKey.symm.trans isFirst)
            simp [isFirst, Ne.symm different]
          · simp [isFirst]

/-- A key that is bound has the new value, and the others have theirs. -/
@[simp] theorem get?_insert (table : Table width α) (key other : FixedBytes width) (value : α) :
    (table.insert key value).get? other = if other = key then some value else table.get? other :=
  lookup_insertEntry other

/-- Unbind a key. -/
def erase (table : Table width α) (key : FixedBytes width) : Table width α where
  entries := table.entries.filter fun entry => entry.1 ≠ key
  ascending := table.ascending.sublist List.filter_sublist

@[simp] theorem get?_erase (table : Table width α) (key other : FixedBytes width) :
    (table.erase key).get? other = if other = key then none else table.get? other := by
  apply Option.ext
  intro value
  rw [get?_eq_some_iff, erase, List.mem_filter, ← get?_eq_some_iff]
  by_cases same : other = key <;> simp [same]

/-! ## Reading -/

theorem insertEntry_eq_append {entries : List (FixedBytes width × α)}
    (below : ∀ entry ∈ entries, entry.1 < key) :
    insertEntry key value entries = entries ++ [(key, value)] := by
  induction entries with
  | nil => rfl
  | cons entry rest ih =>
      obtain ⟨other, bound⟩ := entry
      have otherBelow : other < key := below (other, bound) List.mem_cons_self
      have notLess : ¬key < other := fun less =>
        FixedBytes.lt_irrefl key (FixedBytes.lt_trans less otherBelow)
      have different : key ≠ other := fun same => FixedBytes.lt_irrefl key (same ▸ otherBelow)
      rw [insertEntry, if_neg notLess, if_neg different,
        ih fun entry member => below entry (List.mem_cons_of_mem _ member)]
      rfl

/-- The bindings of a table make up the same table. -/
@[simp] theorem ofList_entries (table : Table width α) : ofList table.entries = table := by
  have sameEntries : (ofList table.entries).entries = table.entries := by
    have listed : table.entries.foldl
        (fun entries binding => insertEntry binding.1 binding.2 entries) [] =
          (ofList table.entries).entries :=
      @List.foldl_hom _ _ _ Table.entries _ _ table.entries empty fun _ _ => rfl
    rw [← listed]
    exact foldl_eq_of_pairwise (fun _ _ => insertEntry_eq_append) table.ascending
  cases same : ofList table.entries
  rw [same] at sameEntries
  cases table
  simpa using sameEntries

end Table

/-! ## Names -/

namespace Hex

/-- Digits of larger values come later. -/
theorem digit_lt_digit {left right : Nat} (below : left < right) (small : right < 16) :
    digit left < digit right := by
  have each : ∀ right < 16, ∀ left < right, digit left < digit right := by decide
  exact each right small left below

/-- Of byte strings of the same length the later one is written as the later text. -/
theorem encode_lt_encode {left right : List UInt8} (sameLength : left.length = right.length)
    (below : left < right) : encode left < encode right := by
  induction left generalizing right with
  | nil => simp_all [List.eq_nil_of_length_eq_zero sameLength.symm]
  | cons byte rest ih =>
      cases right with
      | nil => simp at sameLength
      | cons other otherRest =>
          have byteSmall : byte.toNat < 256 := byte.toNat_lt
          have otherSmall : other.toNat < 256 := other.toNat_lt
          rw [encode, encode, List.cons_lt_cons_iff, List.cons_lt_cons_iff]
          rcases List.cons_lt_cons_iff.mp below with less | ⟨rfl, laterLess⟩
          · rw [UInt8.lt_iff_toNat_lt] at less
            rcases Nat.lt_or_ge (byte.toNat / 16) (other.toNat / 16) with highLess | highAtLeast
            · exact .inl (digit_lt_digit highLess (by omega))
            · have sameHigh : byte.toNat / 16 = other.toNat / 16 := by omega
              exact .inr ⟨by rw [sameHigh], .inl (digit_lt_digit (by omega) (by omega))⟩
          · exact .inr ⟨rfl, .inr ⟨rfl, ih (by simpa using sameLength) laterLess⟩⟩

end Hex

theorem FixedBytes.text_lt_text {width : Nat} {left right : FixedBytes width}
    (below : left < right) : left.text < right.text := by
  have sameLength := left.length_eq.trans right.length_eq.symm
  change left.text.toList < right.text.toList
  rw [text, text, Bytes.toList_text, Bytes.toList_text, List.cons_lt_cons_iff,
    List.cons_lt_cons_iff]
  exact .inr ⟨rfl, .inr ⟨rfl, Hex.encode_lt_encode sameLength below⟩⟩

namespace Json

theorem insertMember_eq_append {name : String} {value : Json} {members : List (String × Json)}
    (below : ∀ member ∈ members, member.1 < name) :
    insertMember name value members = members ++ [(name, value)] := by
  induction members with
  | nil => rfl
  | cons member rest ih =>
      obtain ⟨other, old⟩ := member
      have otherBelow : other < name := below (other, old) List.mem_cons_self
      have notLess : ¬name < other := String.lt_asymm otherBelow
      have different : name ≠ other := fun same => String.lt_irrefl name (same ▸ otherBelow)
      rw [insertMember, if_neg notLess, if_neg different,
        ih fun member inRest => below member (List.mem_cons_of_mem _ inRest)]
      rfl

/-- Members in ascending order of their names are left as they are. -/
theorem distinctMembers_eq {members : List (String × Json)}
    (ascending : members.Pairwise fun left right => left.1 < right.1) :
    distinctMembers members = members :=
  foldl_eq_of_pairwise (fun _ _ => insertMember_eq_append) ascending

/-- A table is read from the object that it is written as if its values are. -/
theorem table?_toJson {width : Nat} {α β : Type} {write : α → Json} {read : Json → Option β}
    {image : α → β} (each : ∀ value, read (write value) = some (image value))
    (table : Table width α) : table? read (table.toJson write) = some (table.map image) := by
  let written (entry : FixedBytes width × α) : String × Json := (entry.1.text, write entry.2)
  let readMember (member : String × Json) : Option (FixedBytes width × β) := do
    let key ← FixedBytes.ofText? member.1
    let value ← read member.2
    pure (key, value)
  have ascending : (table.entries.map written).Pairwise fun left right => left.1 < right.1 := by
    rw [List.pairwise_map]
    exact table.ascending.imp FixedBytes.text_lt_text
  have readEach (entries : List (FixedBytes width × α)) :
      (entries.map written).mapM readMember =
        some (entries.map fun entry => (entry.1, image entry.2)) := by
    induction entries with
    | nil => rfl
    | cons entry rest ih =>
        have readEntry : readMember (written entry) = some (entry.1, image entry.2) := by
          simp [readMember, written, each]
        rw [List.map_cons, List.mapM_cons, ih, readEntry]
        rfl
  calc
    table? read (table.toJson write)
        = (distinctMembers (table.entries.map written)).mapM readMember >>= fun bindings =>
            some (Table.ofList bindings) := rfl
    _ = some (Table.ofList (table.map image).entries) := by
      rw [distinctMembers_eq ascending, readEach]
      rfl
    _ = some (table.map image) := by rw [Table.ofList_entries]

end Json

end ChainFeed
