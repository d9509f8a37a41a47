import ChainFeed.Block.Wiring
import ChainFeed.Proofs.Positions
import ChainFeed.Proofs.TraceOrder

/-!
# Links between traces

In canonical order the scan from a trace finds exactly the frames below it,
provided no later trace stands at the same place; of several traces at one place
only the last one finds anything.  The parent of a trace is therefore the last
trace at the place above it.
-/

namespace ChainFeed

namespace Trace

/-! ## The scan below a trace -/

/-- A list is scanned beyond a number of items if all up to that one pass. -/
theorem lt_length_takeWhile_iff {α : Type} {property : α → Bool} {items : List α} {count : Nat} :
    count < (items.takeWhile property).length ↔
      count < items.length ∧
        ∀ (position : Nat) (item : α), position ≤ count → items[position]? = some item →
          property item = true := by
  induction items generalizing count with
  | nil => simp
  | cons first rest ih =>
      by_cases passes : property first = true
      · rw [List.takeWhile_cons_of_pos passes]
        cases count with
        | zero =>
            simp only [List.length_cons, Nat.zero_lt_succ, true_and, Nat.le_zero_eq, true_iff]
            intro _ item rfl found
            simp only [List.getElem?_cons_zero, Option.some.injEq] at found
            exact found ▸ passes
        | succ count =>
            simp only [List.length_cons, Nat.add_lt_add_iff_right]
            rw [ih]
            apply and_congr_right
            intro _
            constructor
            · intro all position item atMost found
              cases position with
              | zero =>
                  simp only [List.getElem?_cons_zero, Option.some.injEq] at found
                  exact found ▸ passes
              | succ position => exact all position item (by omega) (by simpa using found)
            · intro all position item atMost found
              exact all (position + 1) item (by omega) (by simpa using found)
      · rw [List.takeWhile_cons_of_neg passes]
        simp only [List.length_nil, Nat.not_lt_zero, false_iff, not_and]
        intro _ all
        exact passes (all 0 first (Nat.zero_le _) rfl)

/-- How many frames the scan from a position finds below a trace. -/
def scanLength (traces : List Trace) (position : Nat) (trace : Trace) : Nat :=
  ((traces.drop (position + 1)).takeWhile trace.isAncestorOf).length

theorem getElem?_descendantCounts (traces : List Trace) (position : Nat) :
    (descendantCounts traces)[position]? =
      traces[position]?.map (scanLength traces position) := by
  induction traces generalizing position with
  | nil => rfl
  | cons trace rest ih =>
      cases position with
      | zero => simp [descendantCounts, scanLength]
      | succ position =>
          simp only [descendantCounts, List.getElem?_cons_succ, ih]
          rfl

variable {traces : List Trace} {position other : Nat} {trace lower : Trace}

/-- What the scan passes is below the trace. -/
theorem isAncestorOf_of_scanned (found : traces[other]? = some lower) (after : position < other)
    (scanned : other ≤ position + scanLength traces position trace) :
    trace.isAncestorOf lower = true := by
  have passed : other - (position + 1) < scanLength traces position trace := by omega
  apply (lt_length_takeWhile_iff.mp passed).2 (other - (position + 1)) lower (Nat.le_refl _)
  rw [List.getElem?_drop]
  simpa [show position + 1 + (other - (position + 1)) = other by omega] using found

/-- In canonical order a frame comes before the ones at larger positions. -/
theorem precedes_of_lt (ordered : traces.Pairwise Precedes)
    (found : traces[position]? = some trace) (foundOther : traces[other]? = some lower)
    (before : position < other) : trace.Precedes lower := by
  obtain ⟨inBounds, rfl⟩ := List.getElem?_eq_some_iff.mp found
  obtain ⟨otherInBounds, rfl⟩ := List.getElem?_eq_some_iff.mp foundOther
  exact List.pairwise_iff_getElem.mp ordered position other inBounds otherInBounds before

/-- A frame below a trace comes later. -/
theorem lt_of_isAncestorOf (ordered : traces.Pairwise Precedes)
    (found : traces[position]? = some trace) (foundLower : traces[other]? = some lower)
    (above : trace.isAncestorOf lower = true) : position < other := by
  obtain ⟨precedes, elsewhere⟩ := precedes_of_isAncestorOf above
  by_contra notBefore
  rcases Nat.lt_or_eq_of_le (Nat.not_lt.mp notBefore) with before | same
  · exact elsewhere (precedes.antisymm (precedes_of_lt ordered foundLower found before))
  · subst same
    rw [found, Option.some.injEq] at foundLower
    exact elsewhere (congrArg place foundLower)

/-- The scan finds every frame below the last trace at a place: up to such a frame
all traces are below the first one, because they lie between the two. -/
theorem scanned_of_isAncestorOf (ordered : traces.Pairwise Precedes)
    (found : traces[position]? = some trace) (foundLower : traces[other]? = some lower)
    (last : ∀ (later : Nat) (item : Trace), position < later → traces[later]? = some item →
      trace.place ≠ item.place)
    (above : trace.isAncestorOf lower = true) :
    other ≤ position + scanLength traces position trace := by
  have after := lt_of_isAncestorOf ordered found foundLower above
  have inBounds := (List.getElem?_eq_some_iff.mp foundLower).1
  suffices passed : other - (position + 1) < scanLength traces position trace by omega
  apply lt_length_takeWhile_iff.mpr
  refine ⟨by rw [List.length_drop]; omega, ?_⟩
  intro offset middle atMost foundMiddle
  rw [List.getElem?_drop] at foundMiddle
  apply isAncestorOf_of_between above
  · exact precedes_of_lt ordered found foundMiddle (by omega)
  · exact last _ middle (by omega) foundMiddle
  · rcases Nat.lt_or_eq_of_le (show position + 1 + offset ≤ other by omega) with before | same
    · exact precedes_of_lt ordered foundMiddle foundLower before
    · rw [same, foundLower, Option.some.injEq] at foundMiddle
      exact foundMiddle ▸ Precedes.refl lower

/-- The scan stops at once if a later trace stands at the same place. -/
theorem scanLength_eq_zero (ordered : traces.Pairwise Precedes)
    (foundLater : traces[other]? = some lower)
    (after : position < other) (same : trace.place = lower.place) :
    scanLength traces position trace = 0 := by
  by_contra nonzero
  have inBounds := (List.getElem?_eq_some_iff.mp foundLater).1
  have nextInBounds : position + 1 < traces.length := by omega
  obtain ⟨next, foundNext⟩ : ∃ next, traces[position + 1]? = some next :=
    ⟨_, List.getElem?_eq_getElem nextInBounds⟩
  have above : trace.isAncestorOf next = true :=
    isAncestorOf_of_scanned foundNext (Nat.lt_succ_self _) (by omega)
  obtain ⟨precedes, elsewhere⟩ := precedes_of_isAncestorOf above
  apply elsewhere
  apply precedes.antisymm
  apply Precedes.trans _ (Precedes.of_place_eq same.symm)
  rcases Nat.lt_or_eq_of_le (show position + 1 ≤ other by omega) with before | equal
  · exact precedes_of_lt ordered foundNext foundLater before
  · rw [equal, foundLater, Option.some.injEq] at foundNext
    exact foundNext ▸ Precedes.refl next

theorem add_scanLength_lt (found : traces[position]? = some trace) :
    position + scanLength traces position trace < traces.length := by
  have inBounds := (List.getElem?_eq_some_iff.mp found).1
  have atMost : scanLength traces position trace ≤ (traces.drop (position + 1)).length :=
    (List.takeWhile_sublist _).length_le
  rw [List.length_drop] at atMost
  omega

/-- The scan from the last trace at a place passes exactly the frames below it. -/
theorem range'_scanLength (ordered : traces.Pairwise Precedes)
    (found : traces[position]? = some trace)
    (last : ∀ (later : Nat) (item : Trace), position < later → traces[later]? = some item →
      trace.place ≠ item.place) :
    List.range' (position + 1) (scanLength traces position trace) =
      positionsWhere trace.isAncestorOf traces := by
  apply eq_positionsWhere List.pairwise_lt_range'
  intro other
  rw [List.mem_range'_1]
  constructor
  · rintro ⟨after, scanned⟩
    have inBounds := add_scanLength_lt found
    have otherInBounds : other < traces.length := by omega
    have foundLower := List.getElem?_eq_getElem otherInBounds
    have scannedBy : other ≤ position + scanLength traces position trace := by omega
    exact ⟨_, foundLower, isAncestorOf_of_scanned foundLower after scannedBy⟩
  · rintro ⟨lower, foundLower, above⟩
    have after := lt_of_isAncestorOf ordered found foundLower above
    have scanned := scanned_of_isAncestorOf ordered found foundLower last above
    omega

/-! ## Links between traces -/

theorem getElem?_scans (traces : List Trace) (position : Nat) :
    (traces.zip (descendantCounts traces)).zipIdx[position]? =
      traces[position]?.map fun trace =>
        ((trace, scanLength traces position trace), position) := by
  rw [List.getElem?_zipIdx, Nat.zero_add, List.zip, List.getElem?_zipWith,
    getElem?_descendantCounts]
  cases traces[position]? with
  | none => rfl
  | some trace => rfl

/-- The position that the scans give for a parent is the last one at the place above
the trace: scans that pass the trace start above it, and of several traces at the
place above it only the last one scans at all. -/
theorem parentPosition?_eq (ordered : traces.Pairwise Precedes)
    (found : traces[position]? = some trace) :
    parentPosition? traces (descendantCounts traces) position trace =
      lastPositionWhere? (·.isParentOf trace) traces := by
  have isParentOf_of_scanned : ∀ (start : Nat) (candidate : Trace), start < position →
      position ≤ start + scanLength traces start candidate →
        candidate.traceAddress.length + 1 = trace.traceAddress.length →
          candidate.isParentOf trace = true := by
    intro start candidate before scanned longer
    exact isParentOf_iff_isAncestorOf.mpr ⟨isAncestorOf_of_scanned found before scanned, longer⟩
  cases parent : lastPositionWhere? (·.isParentOf trace) traces with
  | none =>
      rw [parentPosition?, lastPositionWhere?_eq_none_iff]
      intro entry member
      obtain ⟨start, foundEntry⟩ := List.getElem?_of_mem member
      rw [getElem?_scans, Option.map_eq_some_iff] at foundEntry
      obtain ⟨candidate, foundCandidate, rfl⟩ := foundEntry
      have notParent := lastPositionWhere?_eq_none_iff.mp parent candidate
        (List.mem_of_getElem? foundCandidate)
      by_contra scans
      simp only [Bool.not_eq_false, Bool.and_eq_true, decide_eq_true_eq, beq_iff_eq] at scans
      rw [isParentOf_of_scanned start candidate scans.1.1 scans.1.2 scans.2] at notParent
      contradiction
  | some last =>
      obtain ⟨⟨upper, foundUpper, isParent⟩, largest⟩ := lastPositionWhere?_eq_some_iff.mp parent
      obtain ⟨above, longer⟩ := isParentOf_iff_isAncestorOf.mp isParent
      have scanned : position ≤ last + scanLength traces last upper := by
        apply scanned_of_isAncestorOf ordered foundUpper found _ above
        intro later item after foundItem samePlace
        obtain ⟨sameIndex, sameAddress⟩ := place_eq_iff.mp samePlace
        have alsoParent : item.isParentOf trace = true := by
          rw [isParentOf, ← sameIndex, ← sameAddress]
          exact isParent
        have := largest later item foundItem alsoParent
        omega
      rw [parentPosition?, lastPositionWhere?_eq_some_iff]
      constructor
      · refine ⟨((upper, scanLength traces last upper), last), ?_, ?_⟩
        · rw [getElem?_scans, foundUpper]
          rfl
        · simp [lt_of_isAncestorOf ordered foundUpper found above, scanned, longer]
      · intro start entry foundEntry scans
        rw [getElem?_scans, Option.map_eq_some_iff] at foundEntry
        obtain ⟨candidate, foundCandidate, rfl⟩ := foundEntry
        simp only [Bool.and_eq_true, decide_eq_true_eq, beq_iff_eq] at scans
        exact largest start candidate foundCandidate
          (isParentOf_of_scanned start candidate scans.1.1 scans.1.2 scans.2)

/-- The links of a trace in canonical order. -/
theorem getElem?_linkTree (ordered : traces.Pairwise Precedes) (position : Nat) :
    (linkTree traces)[position]? =
      traces[position]?.map fun trace =>
        { trace with
          parent := lastPositionWhere? (·.isParentOf trace) traces
          children := List.range' (position + 1) (scanLength traces position trace) } := by
  rw [linkTree, List.getElem?_mapIdx]
  cases found : traces[position]? with
  | none => rfl
  | some trace =>
      rw [Option.map_some, Option.map_some, parentPosition?_eq ordered found,
        getElem?_descendantCounts, found]
      rfl

end Trace

end ChainFeed
