import ChainFeed.Engine.Traces
import ChainFeed.Proofs.Composition
import ChainFeed.Proofs.Positions

/-!
# Results handed out to transactions

A debug tracer should answer with one result for each transaction, in the order of the
body.  If it answers with more or fewer, the hashes that the results name decide who gets
what: a transaction gets the last result that names it, and a hole if there is none.
Results are told apart by their positions, so equal results count one by one.
-/

namespace ChainFeed

variable {α : Type} {hashOf : α → Option Hash} {transactions : List Hash} {results : List α}

/-- Whether the result at a place is the last one that names a transaction. -/
def IsLastNaming (hashOf : α → Option Hash) (results : List α) (hash : Hash) (place : Nat) :
    Prop :=
  (∃ result, results[place]? = some result ∧ hashOf result = some hash) ∧
    ∀ (later : Nat) (result : α), results[later]? = some result → hashOf result = some hash →
      later ≤ place

/-- Whether slots of transactions are filled with results, each from the place that is its
source, if it has one. -/
structure Aligned (hashOf : α → Option Hash) (transactions : List Hash) (results : List α)
    (sources : List (Option Nat)) (slots : List (Option α)) : Prop where
  length : slots.length = transactions.length
  filled : slots = sources.map fun source => source.bind (results[·]?)
  /-- No result is used twice. -/
  once : (sources.filterMap id).Nodup
  /-- As many results as transactions are taken in order. -/
  inOrder : results.length = transactions.length → slots = results.map some
  lastNaming : results.length ≠ transactions.length →
    ∀ (position : Nat) (hash : Hash), transactions[position]? = some hash → ∀ place,
      sources[position]? = some (some place) ↔ IsLastNaming hashOf results hash place
  hole : results.length ≠ transactions.length →
    ∀ (position : Nat) (hash : Hash), transactions[position]? = some hash →
      (slots[position]? = some none ↔ ∀ result ∈ results, hashOf result ≠ some hash)
  own : results.length ≠ transactions.length →
    ∀ (position : Nat) (hash : Hash), transactions[position]? = some hash → ∀ result,
      slots[position]? = some (some result) → hashOf result = some hash
  /-- What names no transaction of the block is dropped. -/
  dropped : results.length ≠ transactions.length →
    ∀ (place : Nat) (result : α), results[place]? = some result →
      (∀ hash ∈ transactions, hashOf result ≠ some hash) → some place ∉ sources

/-! ## Sources -/

/-- The place of the last result that names a transaction. -/
def lastNaming? (hashOf : α → Option Hash) (results : List α) (hash : Hash) : Option Nat :=
  lastPositionWhere? (fun result => hashOf result == some hash) results

theorem lastNaming?_eq_some_iff {hash : Hash} {place : Nat} :
    lastNaming? hashOf results hash = some place ↔ IsLastNaming hashOf results hash place := by
  simp only [lastNaming?, IsLastNaming, lastPositionWhere?_eq_some_iff, beq_iff_eq]

theorem lastNaming?_eq_none_iff {hash : Hash} :
    lastNaming? hashOf results hash = none ↔ ∀ result ∈ results, hashOf result ≠ some hash := by
  simp only [lastNaming?, lastPositionWhere?_eq_none_iff, beq_eq_false_iff_ne]

/-- Every place at which a result is the last one of its transaction has a result. -/
theorem exists_of_lastNaming? {hash : Hash} {place : Nat}
    (last : lastNaming? hashOf results hash = some place) :
    ∃ result, results[place]? = some result ∧ hashOf result = some hash :=
  (lastNaming?_eq_some_iff.mp last).1

/-- Where the results of the transactions are taken from. -/
def sourcesOf (hashOf : α → Option Hash) (transactions : List Hash) (results : List α) :
    List (Option Nat) :=
  if results.length = transactions.length then
    (List.range results.length).map some
  else
    transactions.map (lastNaming? hashOf results)

theorem sourcesOf_of_length_eq (counted : results.length = transactions.length) :
    sourcesOf hashOf transactions results = (List.range results.length).map some :=
  if_pos counted

theorem sourcesOf_of_length_ne (miscounted : results.length ≠ transactions.length) :
    sourcesOf hashOf transactions results = transactions.map (lastNaming? hashOf results) :=
  if_neg miscounted

/-- Different transactions have different sources. -/
theorem sourcesOf_once (distinct : transactions.Nodup) :
    ((sourcesOf hashOf transactions results).filterMap id).Nodup := by
  by_cases counted : results.length = transactions.length
  · rw [sourcesOf_of_length_eq counted, List.filterMap_map]
    simpa using List.nodup_range
  · rw [sourcesOf_of_length_ne counted, List.filterMap_map]
    refine distinct.filterMap ?_
    intro hash other place here there
    obtain ⟨result, found, named⟩ := exists_of_lastNaming? here
    obtain ⟨otherResult, otherFound, otherNamed⟩ := exists_of_lastNaming? there
    rw [found, Option.some.injEq] at otherFound
    subst otherFound
    exact Option.some.inj (named.symm.trans otherNamed)

/-! ## Slots -/

theorem getLast?_filter_eq (property : α → Bool) (items : List α) :
    (items.filter property).getLast? = (lastPositionWhere? property items).bind (items[·]?) := by
  have last := congrArg List.getLast? (map_getElem?_positionsWhere property items)
  rw [List.getLast?_map, List.getLast?_map] at last
  rw [lastPositionWhere?]
  cases found : (positionsWhere property items).getLast? with
  | none =>
      rw [found, Option.map_none] at last
      exact Option.map_eq_none_iff.mp last.symm
  | some place =>
      rw [found, Option.map_some] at last
      obtain ⟨item, isLast, same⟩ := Option.map_eq_some_iff.mp last.symm
      rw [isLast, same, Option.bind_some]

/-- What is left for later transactions has all results that name them. -/
theorem byHash_eq (distinct : transactions.Nodup) (results : List α) :
    alignResults.byHash hashOf transactions results =
      transactions.map fun hash => (lastNaming? hashOf results hash).bind (results[·]?) := by
  have slot (hash : Hash) : (lastNaming? hashOf results hash).bind (results[·]?) =
      (results.filter fun result => hashOf result == some hash).getLast? :=
    (getLast?_filter_eq _ _).symm
  simp only [slot]
  clear slot
  induction transactions generalizing results with
  | nil => rfl
  | cons hash rest ih =>
      obtain ⟨fresh, distinct⟩ := List.nodup_cons.mp distinct
      rw [alignResults.byHash, ih distinct, List.map_cons]
      congr 1
      apply List.map_congr_left
      intro other isLater
      have differ : other ≠ hash := fun same => fresh (same ▸ isLater)
      rw [List.filter_filter]
      congr 1
      apply List.filter_congr
      intro result _
      by_cases named : hashOf result = some other
      · simp [named, differ]
      · simp [named]

theorem alignResults_eq (distinct : transactions.Nodup) :
    alignResults hashOf transactions results =
      (sourcesOf hashOf transactions results).map fun source => source.bind (results[·]?) := by
  by_cases counted : results.length = transactions.length
  · rw [alignResults, if_pos counted, sourcesOf_of_length_eq counted, List.map_map]
    apply List.ext_getElem?
    intro position
    rw [List.getElem?_map, List.getElem?_map]
    by_cases inBounds : position < results.length
    · simp [inBounds]
    · simp [inBounds]
  · rw [alignResults, if_neg counted, sourcesOf_of_length_ne counted, List.map_map,
      byHash_eq distinct]
    rfl

/-- If the counts differ, the slot of a transaction is filled from the last result that names
it. -/
theorem getElem?_alignResults (distinct : transactions.Nodup)
    (miscounted : results.length ≠ transactions.length) {position : Nat} {hash : Hash}
    (found : transactions[position]? = some hash) :
    (alignResults hashOf transactions results)[position]? =
      some ((lastNaming? hashOf results hash).bind (results[·]?)) := by
  rw [alignResults_eq distinct, sourcesOf_of_length_ne miscounted, List.map_map,
    List.getElem?_map, found]
  rfl

/-- For transactions with distinct hashes, every slot is filled as it should be, whatever the
tracer answers: results that are missing, repeated, in another order, for other blocks or
without a hash. -/
theorem aligned_alignResults (hashOf : α → Option Hash) {transactions : List Hash}
    (results : List α) (distinct : transactions.Nodup) :
    Aligned hashOf transactions results (sourcesOf hashOf transactions results)
      (alignResults hashOf transactions results) where
  length := by
    rw [alignResults_eq distinct, List.length_map]
    by_cases counted : results.length = transactions.length
    · rw [sourcesOf_of_length_eq counted, List.length_map, List.length_range, counted]
    · rw [sourcesOf_of_length_ne counted, List.length_map]
  filled := alignResults_eq distinct
  once := sourcesOf_once distinct
  inOrder counted := if_pos counted
  lastNaming miscounted position hash found place := by
    rw [sourcesOf_of_length_ne miscounted, List.getElem?_map, found, Option.map_some,
      Option.some.injEq, lastNaming?_eq_some_iff]
  hole miscounted position hash found := by
    rw [getElem?_alignResults distinct miscounted found, Option.some.injEq,
      ← lastNaming?_eq_none_iff]
    cases last : lastNaming? hashOf results hash with
    | none => simp
    | some place =>
        obtain ⟨result, isResult, _⟩ := exists_of_lastNaming? last
        simp [isResult]
  own miscounted position hash found result filled := by
    rw [getElem?_alignResults distinct miscounted found, Option.some.injEq,
      Option.bind_eq_some_iff] at filled
    obtain ⟨place, last, isResult⟩ := filled
    obtain ⟨other, isOther, named⟩ := exists_of_lastNaming? last
    rw [isResult, Option.some.injEq] at isOther
    exact isOther ▸ named
  dropped miscounted place result isResult unnamed isSource := by
    rw [sourcesOf_of_length_ne miscounted] at isSource
    obtain ⟨hash, member, last⟩ := List.mem_map.mp isSource
    obtain ⟨other, isOther, named⟩ := exists_of_lastNaming? last
    rw [isResult, Option.some.injEq] at isOther
    exact unnamed hash member (isOther ▸ named)

/-- A result of which only the hash matters, and a nonce that tells it from others. -/
def markedResult (hash : Option Hash) (nonce : UInt64) : Raw.PrestateResult :=
  ⟨⟨.ofList [(.zero 20, { Raw.Account.empty with nonce := some nonce })], .ofList []⟩, hash⟩

/-- Five results: two name one transaction, one names no transaction at all. -/
def strayResults : List Raw.PrestateResult :=
  [ markedResult (some (FetchedBlock.evenHash 3)) 0, markedResult none 1,
    markedResult (some (FetchedBlock.evenHash 9)) 2,
    markedResult (some (FetchedBlock.evenHash 3)) 3,
    markedResult (some (FetchedBlock.evenHash 1)) 4 ]

/-- Of three transactions the first and the third get a result, in spite of the order. -/
theorem aligned_strayResults :
    let transactions := [1, 2, 3].map FetchedBlock.evenHash
    transactions.Nodup ∧
      Aligned Raw.PrestateResult.transactionHash transactions strayResults [some 4, none, some 3]
        [ some (markedResult (some (FetchedBlock.evenHash 1)) 4), none,
          some (markedResult (some (FetchedBlock.evenHash 3)) 3) ] :=
  ⟨by decide, aligned_alignResults Raw.PrestateResult.transactionHash strayResults (by decide)⟩

end ChainFeed
