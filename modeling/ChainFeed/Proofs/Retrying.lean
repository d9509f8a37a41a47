import ChainFeed.Engine.Finalized
import ChainFeed.Proofs.Runs

/-!
# Attempts at several items

Several items are tried at once, and those that come out badly are tried again, a
limited number of times.  Which items are open, and so are tried next, is told from
the record of all attempts.  The loop keeps no such record: it carries one list of
results along and puts new results into the places of bad ones.  Both come to the
same.  Attempts are counted by a word, so the limit is the number allowed or else the
largest one that can be counted up to.
-/

namespace ChainFeed

variable {σ α β : Type}

/-! ## Counting attempts -/

namespace Config

/-- The attempts after the first one that are made at most: as many as are allowed, if all
of them can be counted. -/
def retriesAllowed (config : Config) : Nat :=
  min config.maxRetryDepth.toNat (UInt32.size - 2)

/-- The fault after the last attempt: the given one, unless the count overflows first. -/
def lastFault (config : Config) (fault : Fault) : Fault :=
  if config.maxRetryDepth.toNat + 1 < UInt32.size then fault else .overflow

variable {config : Config} {attempts : UInt32}

theorem nextAttempt_of_spare (spare : attempts.toNat ≤ config.retriesAllowed) (fault : Fault) :
    config.nextAttempt attempts fault = .ok (attempts + 1) := by
  obtain ⟨inDepth, inWord⟩ := Nat.le_min.mp spare
  have allowed : ¬config.maxRetryDepth < attempts := by
    rw [UInt32.lt_iff_toNat_lt]
    omega
  have counts : attempts.toNat + 1 < UInt32.size := by
    have size : UInt32.size = 4294967296 := rfl
    omega
  rw [nextAttempt, if_neg allowed, if_pos counts]

theorem toNat_add_one_of_spare (spare : attempts.toNat ≤ config.retriesAllowed) :
    (attempts + 1).toNat = attempts.toNat + 1 :=
  toNat_of_nextAttempt (nextAttempt_of_spare spare .overflow)

theorem nextAttempt_of_spent (spent : attempts.toNat = config.retriesAllowed + 1)
    (fault : Fault) : config.nextAttempt attempts fault = .error (config.lastFault fault) := by
  have size : UInt32.size = 4294967296 := rfl
  have largest := config.maxRetryDepth.toNat_lt_size
  unfold retriesAllowed at spent
  unfold nextAttempt lastFault
  by_cases countable : config.maxRetryDepth.toNat + 1 < UInt32.size
  · have exceeded : config.maxRetryDepth < attempts := by
      rw [UInt32.lt_iff_toNat_lt]
      omega
    rw [if_pos exceeded, if_pos countable]
  · have allowed : ¬config.maxRetryDepth < attempts := by
      rw [UInt32.lt_iff_toNat_lt]
      omega
    rw [if_neg allowed, if_neg (by omega), if_neg countable]

/-- The first attempt is made before any of the others. -/
theorem one_add_retriesAllowed (config : Config) :
    (1 : UInt32).toNat + config.retriesAllowed = config.retriesAllowed + 1 :=
  Nat.add_comm _ _

theorem retriesAllowed_of_countable (countable : config.maxRetryDepth.toNat + 1 < UInt32.size) :
    config.retriesAllowed = config.maxRetryDepth.toNat :=
  Nat.min_eq_left (by omega)

theorem lastFault_of_countable (countable : config.maxRetryDepth.toNat + 1 < UInt32.size)
    (fault : Fault) : config.lastFault fault = fault :=
  if_pos countable

theorem retriesAllowed_of_uncountable
    (uncountable : ¬config.maxRetryDepth.toNat + 1 < UInt32.size) :
    config.retriesAllowed + 1 = UInt32.size - 1 := by
  have size : UInt32.size = 4294967296 := rfl
  unfold retriesAllowed
  omega

theorem lastFault_of_uncountable (uncountable : ¬config.maxRetryDepth.toNat + 1 < UInt32.size)
    (fault : Fault) : config.lastFault fault = .overflow :=
  if_neg uncountable

end Config

/-! ## Attempts on record -/

/-- What came of one attempt: a result for each position that was tried. -/
abbrev Attempt (α : Type) := List (Nat × α)

/-- The results of an attempt at a position. -/
def Attempt.resultsAt (attempt : Attempt α) (position : Nat) : List α :=
  (attempt.filter (·.1 == position)).map Prod.snd

/-- All results at a position, from the first attempt to the last. -/
def history (attempts : List (Attempt α)) (position : Nat) : List α :=
  attempts.flatMap (·.resultsAt position)

/-- The items with their positions for which no attempt had a good result. -/
def openItems (good : α → Bool) (attempts : List (Attempt α)) (items : List β) :
    List (β × Nat) :=
  items.zipIdx.filter fun (_, position) =>
    (history attempts position).all fun result => !good result

/-- The items whose results are not good, with these results. -/
def unsettled (good : α → Bool) (items : List β) (results : List α) : List (β × α) :=
  (items.zip results).filter fun (_, result) => !good result

/-- Puts results into the places of those that are not good, in order. -/
def refill (good : α → Bool) : List α → List α → List α
  | result :: results, again =>
      if good result then
        result :: refill good results again
      else
        match again with
        | other :: later => other :: refill good results later
        | [] => result :: results
  | [], _ => []

namespace Dialogue

/-- Tries the items again whose results are not good, at most a number of times,
after some attempts were made. -/
def retry (attempt : List β → Dialogue σ (List α)) (good : α → Bool)
    (giveUp : Nat → β → α → Fault) (items : List β) :
    (retries attempts : Nat) → List α → Dialogue σ (List α)
  | retries, attempts, results =>
      match unsettled good items results with
      | [] => pure results
      | (item, result) :: rest =>
          match retries with
          | 0 => throw (giveUp attempts item result)
          | retries + 1 => do
              let again ← attempt (item :: rest.map Prod.fst)
              retry attempt good giveUp items retries (attempts + 1) (refill good results again)

/-- Tries all items, and then those again whose results are not good, at most a number
of times. -/
def persist (attempt : List β → Dialogue σ (List α)) (good : α → Bool)
    (giveUp : Nat → β → α → Fault) (limit : Nat) (items : List β) : Dialogue σ (List α) := do
  let results ← attempt items
  retry attempt good giveUp items limit 1 results

end Dialogue

/-! ## The results so far -/

theorem unsettled_cons (good : α → Bool) (item : β) (items : List β) (result : α)
    (results : List α) :
    unsettled good (item :: items) (result :: results) =
      if good result then unsettled good items results
      else (item, result) :: unsettled good items results := by
  by_cases isGood : good result <;> simp [unsettled, isGood]

@[simp] theorem length_refill (good : α → Bool) (results again : List α) :
    (refill good results again).length = results.length := by
  induction results generalizing again with
  | nil => rfl
  | cons result results ih =>
      unfold refill
      split
      · simp [ih]
      · cases again with
        | nil => rfl
        | cons other later => simp [ih]

@[simp] theorem Attempt.resultsAt_nil (position : Nat) :
    Attempt.resultsAt ([] : Attempt α) position = [] := rfl

theorem Attempt.resultsAt_cons (place : Nat) (result : α) (attempt : Attempt α)
    (position : Nat) :
    Attempt.resultsAt ((place, result) :: attempt) position =
      if place = position then result :: attempt.resultsAt position
      else attempt.resultsAt position := by
  by_cases same : place = position <;> simp [Attempt.resultsAt, same]

theorem Attempt.resultsAt_zip_of_lt {positions : List Nat} {start position : Nat}
    (beyond : ∀ place ∈ positions, start ≤ place) (before : position < start)
    (results : List α) : Attempt.resultsAt (positions.zip results) position = [] := by
  simp only [resultsAt, List.map_eq_nil_iff, List.filter_eq_nil_iff]
  intro entry member
  have place := beyond entry.1 (List.of_mem_zip member).1
  simp
  omega

theorem Attempt.resultsAt_zip_range' (start : Nat) (results : List α) (position : Nat) :
    Attempt.resultsAt ((List.range' start results.length).zip results) (start + position) =
      results[position]?.toList := by
  induction results generalizing start position with
  | nil => simp
  | cons result results ih =>
      rw [List.length_cons, List.range'_succ, List.zip_cons_cons, resultsAt_cons]
      cases position with
      | zero =>
          rw [Nat.add_zero, resultsAt_zip_of_lt _ (Nat.lt_succ_self start)]
          · simp
          · intro place member
            exact (List.mem_range'_1.mp member).1
      | succ position =>
          have tail := ih (start + 1) position
          rw [Nat.add_right_comm start 1 position] at tail
          simpa [Nat.add_assoc] using tail

@[simp] theorem history_nil (position : Nat) :
    history ([] : List (Attempt α)) position = [] := rfl

theorem history_append (attempts : List (Attempt α)) (attempt : Attempt α) (position : Nat) :
    history (attempts ++ [attempt]) position =
      history attempts position ++ attempt.resultsAt position := by
  simp [history]

@[simp] theorem openItems_nil (good : α → Bool) (items : List β) :
    openItems good [] items = items.zipIdx := by
  simp [openItems]

/-- The positions of the results that are not good, where the first one has a given
position. -/
def badPositions (good : α → Bool) (start : Nat) (results : List α) : List Nat :=
  ((results.zipIdx start).filter fun (result, _) => !good result).map Prod.snd

theorem le_of_mem_badPositions {good : α → Bool} {start : Nat} {results : List α} {place : Nat}
    (member : place ∈ badPositions good start results) : start ≤ place := by
  simp only [badPositions, List.mem_map, List.mem_filter] at member
  obtain ⟨entry, ⟨inside, _⟩, rfl⟩ := member
  exact List.le_snd_of_mem_zipIdx inside

theorem badPositions_cons (good : α → Bool) (start : Nat) (result : α) (results : List α) :
    badPositions good start (result :: results) =
      if good result then badPositions good (start + 1) results
      else start :: badPositions good (start + 1) results := by
  by_cases isGood : good result <;> simp [badPositions, isGood]

/-- A good result stays and nothing new comes of its position; any other one makes way
for what comes of its position. -/
theorem refill_at {good : α → Bool} {results again : List α} (start : Nat)
    (sameLength : again.length = (badPositions good start results).length) {position : Nat}
    {result : α} (found : results[position]? = some result) :
    let attempt := (badPositions good start results).zip again
    (good result = true ∧ (refill good results again)[position]? = some result ∧
        Attempt.resultsAt attempt (start + position) = []) ∨
      (good result = false ∧ ∃ other, (refill good results again)[position]? = some other ∧
        Attempt.resultsAt attempt (start + position) = [other]) := by
  -- The places of the new results are counted from `start`, so the tail starts one later.
  induction results generalizing start again position with
  | nil => simp at found
  | cons head results ih =>
      have later : ∀ others : List α, Attempt.resultsAt
          ((badPositions good (start + 1) results).zip others) start = [] :=
        Attempt.resultsAt_zip_of_lt (fun _ => le_of_mem_badPositions) (Nat.lt_succ_self start)
      rw [badPositions_cons] at sameLength
      rw [badPositions_cons]
      unfold refill
      cases isGood : good head with
      | true =>
          simp only [isGood, if_true] at sameLength
          simp only [if_true]
          cases position with
          | zero =>
              simp at found
              simp [← found, isGood, later]
          | succ position =>
              have tail := ih (start + 1) sameLength found
              rw [Nat.add_right_comm start 1 position] at tail
              exact tail
      | false =>
          simp only [isGood, Bool.false_eq_true, if_false] at sameLength
          simp only [Bool.false_eq_true, if_false]
          cases again with
          | nil => simp at sameLength
          | cons other again =>
              simp only [List.zip_cons_cons, Attempt.resultsAt_cons]
              cases position with
              | zero =>
                  simp at found
                  simp [← found, isGood, later]
              | succ position =>
                  have tail := ih (start + 1) (Nat.succ.inj sameLength) found
                  rw [Nat.add_right_comm start 1 position] at tail
                  simpa [Nat.add_assoc] using tail

theorem bad_of_unsettled_eq_cons {good : α → Bool} {items : List β} {results : List α}
    {entry : β × α} {rest : List (β × α)} (first : unsettled good items results = entry :: rest) :
    good entry.2 = false := by
  have member : entry ∈ unsettled good items results := first ▸ List.mem_cons_self
  simpa using (List.mem_filter.mp member).2

/-- The items whose results are not good are those at the bad positions. -/
theorem unsettled_eq (good : α → Bool) (items : List β) (results : List α) :
    unsettled good items results =
      ((items.zip results).zipIdx.filter fun entry => !good entry.1.2).map Prod.fst := by
  have beside : (items.zip results).zipIdx.map Prod.fst = items.zip results :=
    List.zipIdx_map_fst _ _
  rw [unsettled, ← beside, List.filter_map, beside]
  rfl

/-- Whether the results are the latest ones in a record of attempts, in which a
position is not tried again after a good result. -/
structure UpToDate (good : α → Bool) (attempts : List (Attempt α)) (items : List β)
    (results : List α) : Prop where
  length_eq : results.length = items.length
  latest : ∀ {position : Nat} {result : α}, results[position]? = some result →
    ∃ earlier : List α, history attempts position = earlier ++ [result] ∧
      ∀ other ∈ earlier, good other = false

namespace UpToDate

variable {good : α → Bool} {attempts : List (Attempt α)} {items : List β} {results : List α}

/-- The results of one attempt at all items. -/
theorem of_first (sameLength : results.length = items.length) :
    UpToDate good [(items.zipIdx.map Prod.snd).zip results] items results where
  length_eq := sameLength
  latest := by
    intro position result found
    refine ⟨[], ?_, by simp⟩
    have recorded := Attempt.resultsAt_zip_range' 0 results position
    rw [found, Nat.zero_add, sameLength] at recorded
    simp [history, List.zipIdx_map_snd, recorded]

/-- What is open at a position shows in the result at it. -/
theorem all_bad (upToDate : UpToDate good attempts items results) {position : Nat} {result : α}
    (found : results[position]? = some result) :
    ((history attempts position).all fun other => !good other) = !good result := by
  obtain ⟨earlier, recorded, bad⟩ := upToDate.latest found
  rw [recorded, List.all_append, List.all_eq_true.mpr]
  · simp
  · intro other member
    simp [bad other member]

/-- The open items with their results, in order. -/
theorem openItems_eq (upToDate : UpToDate good attempts items results) :
    openItems good attempts items =
      ((items.zip results).zipIdx.filter fun entry => !good entry.1.2).map
        fun entry => (entry.1.1, entry.2) := by
  have beside : items = (items.zip results).map Prod.fst :=
    (List.map_fst_zip (Nat.le_of_eq upToDate.length_eq.symm)).symm
  have same : openItems good attempts ((items.zip results).map Prod.fst) =
      ((items.zip results).zipIdx.filter fun entry => !good entry.1.2).map
        fun entry => (entry.1.1, entry.2) := by
    rw [openItems, List.zipIdx_map, List.filter_map]
    apply congrArg
    apply List.filter_congr
    intro entry member
    have found := List.mem_zipIdx_iff_getElem?.mp member
    rw [List.getElem?_zip_eq_some] at found
    exact upToDate.all_bad found.2
  exact (congrArg _ beside).trans same

theorem openItems_map_fst (upToDate : UpToDate good attempts items results) :
    (openItems good attempts items).map Prod.fst =
      (unsettled good items results).map Prod.fst := by
  rw [upToDate.openItems_eq, unsettled_eq, List.map_map, List.map_map]
  rfl

theorem openItems_map_snd (upToDate : UpToDate good attempts items results) :
    (openItems good attempts items).map Prod.snd = badPositions good 0 results := by
  have beside : (items.zip results).map Prod.snd = results :=
    List.map_snd_zip (Nat.le_of_eq upToDate.length_eq)
  have same : badPositions good 0 ((items.zip results).map Prod.snd) =
      (openItems good attempts items).map Prod.snd := by
    rw [upToDate.openItems_eq, badPositions, List.zipIdx_map, List.filter_map, List.map_map,
      List.map_map]
    rfl
  exact same.symm.trans (congrArg _ beside)

/-- One more attempt at the open items. -/
theorem next (upToDate : UpToDate good attempts items results) {again : List α}
    (sameLength : again.length = (openItems good attempts items).length) :
    UpToDate good
      (attempts ++ [((openItems good attempts items).map Prod.snd).zip again]) items
      (refill good results again) where
  length_eq := by rw [length_refill, upToDate.length_eq]
  latest := by
    intro position result found
    have inside : position < results.length := by
      rw [← length_refill good results again]
      exact (List.getElem?_eq_some_iff.mp found).1
    obtain ⟨earlier, recorded, bad⟩ := upToDate.latest (List.getElem?_eq_getElem inside)
    have counted : again.length = (badPositions good 0 results).length := by
      rw [sameLength, ← upToDate.openItems_map_snd, List.length_map]
    rw [history_append, upToDate.openItems_map_snd, recorded]
    cases refill_at 0 counted (List.getElem?_eq_getElem inside) with
    | inl kept =>
        obtain ⟨_, same, silent⟩ := kept
        rw [found, Option.some.injEq] at same
        rw [Nat.zero_add] at silent
        exact ⟨earlier, by simp [silent, same], bad⟩
    | inr replaced =>
        obtain ⟨isBad, other, same, fresh⟩ := replaced
        rw [found, Option.some.injEq] at same
        rw [Nat.zero_add] at fresh
        refine ⟨earlier ++ [results[position]], by simp [fresh, same], ?_⟩
        simp [or_imp, forall_and, isBad]
        exact bad

/-- Nothing is open when no result is bad. -/
theorem openItems_eq_nil (upToDate : UpToDate good attempts items results)
    (settled : unsettled good items results = []) : openItems good attempts items = [] := by
  have empty := upToDate.openItems_map_fst
  simpa [settled] using empty

/-- Every result is good when nothing is open. -/
theorem good_of_openItems_eq_nil (upToDate : UpToDate good attempts items results)
    (closed : openItems good attempts items = []) {result : α} (member : result ∈ results) :
    good result = true := by
  obtain ⟨position, inside, rfl⟩ := List.getElem_of_mem member
  have inItems : position < items.length := upToDate.length_eq ▸ inside
  rw [openItems, List.filter_eq_nil_iff] at closed
  have isGood := closed (items[position], position)
    (List.mem_zipIdx_iff_getElem?.mpr (List.getElem?_eq_getElem inItems))
  simp only [upToDate.all_bad (List.getElem?_eq_getElem inside)] at isGood
  simpa using isGood

/-- The first open item is the first one whose result is bad, and the result is the
latest one at its position. -/
theorem openItems_eq_cons (upToDate : UpToDate good attempts items results) {item : β}
    {result : α} {rest : List (β × α)}
    (first : unsettled good items results = (item, result) :: rest) :
    ∃ position others, openItems good attempts items = (item, position) :: others ∧
      (history attempts position).getLast? = some result := by
  rw [unsettled_eq, List.map_eq_cons_iff] at first
  obtain ⟨⟨_, position⟩, others, isFirst, rfl, _⟩ := first
  refine ⟨position, others.map fun entry => (entry.1.1, entry.2), ?_, ?_⟩
  · rw [upToDate.openItems_eq, isFirst, List.map_cons]
  · have member : ((item, result), position) ∈ (items.zip results).zipIdx :=
      (List.mem_filter.mp (isFirst ▸ List.mem_cons_self)).1
    have found := List.mem_zipIdx_iff_getElem?.mp member
    rw [List.getElem?_zip_eq_some] at found
    obtain ⟨earlier, recorded, _⟩ := upToDate.latest found.2
    simp [recorded]

end UpToDate

/-! ## Runs of the loop -/

namespace Dialogue

variable (attempt : List β → Dialogue σ (List α)) (good : α → Bool)
  (giveUp : Nat → β → α → Fault) (items : List β)

/-- What one more attempt at the open items leaves on record. -/
def oneMore (attempts : List (Attempt α)) (results : List α) : List (Attempt α) :=
  attempts ++ [((openItems good attempts items).map Prod.snd).zip results]

/-- A run of attempts, the first one at all items and each later one at the items that
are open then. -/
inductive Attempted (start : Session σ) : List (Attempt α) → Session σ → Prop
  | none : Attempted start [] start
  | next {attempts : List (Attempt α)} {middle final : Session σ} {results : List α} :
      Attempted start attempts middle →
      (attempts = [] ∨ openItems good attempts items ≠ []) →
      (attempt ((openItems good attempts items).map Prod.fst)).run.run middle =
        (.ok results, final) →
      Attempted start (oneMore good items attempts results) final

/-- The ways in which a limited number of further attempts ends. -/
inductive Persisted (limit : Nat) (start : Session σ) : Except Fault (List α) × Session σ → Prop
  /-- An attempt fails. -/
  | interrupted {attempts : List (Attempt α)} {middle final : Session σ} {fault : Fault} :
      Attempted attempt good items start attempts middle → attempts.length ≤ limit →
      (attempts = [] ∨ openItems good attempts items ≠ []) →
      (attempt ((openItems good attempts items).map Prod.fst)).run.run middle =
        (.error fault, final) →
      Persisted limit start (.error fault, final)
  /-- No item is open any more. -/
  | settled {attempts : List (Attempt α)} {final : Session σ} {results : List α} :
      Attempted attempt good items start attempts final → 0 < attempts.length →
      attempts.length ≤ limit + 1 →
      openItems good attempts items = [] → UpToDate good attempts items results →
      Persisted limit start (.ok results, final)
  /-- Some item is open after the last attempt. -/
  | exhausted {attempts : List (Attempt α)} {final : Session σ} {item : β} {position : Nat}
      {others : List (β × Nat)} {result : α} :
      Attempted attempt good items start attempts final → attempts.length = limit + 1 →
      openItems good attempts items = (item, position) :: others →
      (history attempts position).getLast? = some result →
      Persisted limit start (.error (giveUp (limit + 1) item result), final)

variable {attempt} {good} {giveUp} {items}

theorem persisted_retry
    (keepsLength : ∀ asked session results final,
      (attempt asked).run.run session = (.ok results, final) → results.length = asked.length)
    {limit retries : Nat} {start middle : Session σ} {attempts : List (Attempt α)}
    {results : List α} (made : Attempted attempt good items start attempts middle)
    (begun : 0 < attempts.length) (counted : attempts.length + retries = limit + 1)
    (upToDate : UpToDate good attempts items results) :
    Persisted attempt good giveUp items limit start
      ((retry attempt good giveUp items retries attempts.length results).run.run middle) := by
  -- Attempts made and attempts left always come to the limit, and the results that the loop
  -- carries along are the latest ones on record.
  induction retries generalizing attempts results middle with
  | zero =>
      unfold retry
      split
      case h_1 settled =>
        exact .settled made begun (Nat.le_of_eq counted) (upToDate.openItems_eq_nil settled)
          upToDate
      case h_2 item result rest first =>
        obtain ⟨position, others, open', latest⟩ := upToDate.openItems_eq_cons first
        rw [Nat.add_zero] at counted
        rw [counted]
        exact .exhausted made counted open' latest
  | succ retries ih =>
      unfold retry
      split
      case h_1 settled =>
        exact .settled made begun (by omega) (upToDate.openItems_eq_nil settled) upToDate
      case h_2 item result rest first =>
        obtain ⟨position, others, opened, latest⟩ := upToDate.openItems_eq_cons first
        have asked : item :: rest.map Prod.fst = (openItems good attempts items).map Prod.fst := by
          rw [upToDate.openItems_map_fst, first, List.map_cons]
        have needed : openItems good attempts items ≠ [] := by simp [opened]
        rw [asked]
        simp only [run_bind]
        cases ending : (attempt ((openItems good attempts items).map Prod.fst)).run.run middle with
        | mk outcome final =>
            cases outcome with
            | error fault => exact .interrupted made (by omega) (.inr needed) ending
            | ok again =>
                have sameLength := keepsLength _ _ _ _ ending
                rw [List.length_map] at sameLength
                have later := ih (.next made (.inr needed) ending) (by simp [oneMore])
                  (by simp [oneMore]; omega) (upToDate.next sameLength)
                simpa [oneMore] using later

/-- Every run of repeated attempts ends in one of these ways. -/
theorem persisted_persist
    (keepsLength : ∀ asked session results final,
      (attempt asked).run.run session = (.ok results, final) → results.length = asked.length)
    (limit : Nat) (start : Session σ) :
    Persisted attempt good giveUp items limit start
      ((persist attempt good giveUp limit items).run.run start) := by
  have all : (openItems good ([] : List (Attempt α)) items).map Prod.fst = items := by
    simp
  rw [persist, run_bind]
  cases ending : (attempt items).run.run start with
  | mk outcome final =>
      cases outcome with
      | error fault =>
          rw [← all] at ending
          exact .interrupted .none (Nat.zero_le limit) (.inl rfl) ending
      | ok results =>
          have sameLength := keepsLength _ _ _ _ ending
          have upToDate : UpToDate good _ items results := UpToDate.of_first sameLength
          rw [← all] at ending
          have made := Attempted.next .none (.inl rfl) ending
          exact persisted_retry keepsLength made (by simp [oneMore]) (by simp [oneMore]; omega)
            (by simpa [oneMore] using upToDate)

/-! ## An item that never comes out well -/

section Hopeless

variable {item : β} {bad : α} {exchange : Exchange} (isBad : good bad = false)
  (runs : ∀ session, (attempt [item]).run.run session =
    (.ok [bad], { session with transcript := session.transcript ++ [exchange] }))

include isBad runs

theorem run_retry_of_hopeless (retries attempts : Nat) (session : Session σ) :
    (retry attempt good giveUp [item] retries attempts [bad]).run.run session =
      (.error (giveUp (attempts + retries) item bad),
        { session with transcript := session.transcript ++ List.replicate retries exchange }) := by
  have isOpen : unsettled good [item] [bad] = [(item, bad)] := by simp [unsettled, isBad]
  have same : refill good [bad] [bad] = [bad] := by simp [refill, isBad]
  induction retries generalizing attempts session with
  | zero =>
      unfold retry
      rw [isOpen, List.replicate_zero, List.append_nil]
      rfl
  | succ retries ih =>
      unfold retry
      rw [isOpen]
      dsimp only
      rw [List.map_nil, run_bind, runs, continueWith_ok, same, ih, List.append_assoc,
        List.singleton_append, ← List.replicate_succ, Nat.add_assoc, Nat.add_comm 1]

/-- It is tried as often as allowed, and what is said is the same each time. -/
theorem run_persist_of_hopeless (limit : Nat) (session : Session σ) :
    (persist attempt good giveUp limit [item]).run.run session =
      (.error (giveUp (limit + 1) item bad),
        { session with
          transcript := session.transcript ++ List.replicate (limit + 1) exchange }) := by
  rw [persist, run_bind, runs, continueWith_ok, run_retry_of_hopeless isBad runs,
    List.append_assoc, List.singleton_append, ← List.replicate_succ, Nat.add_comm 1]

end Hopeless

end Dialogue

end ChainFeed
