import ChainFeed.Engine.Finalized
import ChainFeed.Proofs.Retrying

/-!
# Completing finalized blocks

Finalized blocks are asked for in batches, each at the heights for which every batch
before was answered by null.  Every run says as many batches as there were attempts,
and ends with the first block given for each height, or else with a fault.  With the
largest depth allowed it never gives up, since its attempts cannot be counted.
-/

namespace ChainFeed

theorem fillSlots_eq_refill {α : Type} (slots values : List (Option α)) :
    fillSlots slots values = refill Option.isSome slots values := by
  induction slots generalizing values with
  | nil => cases values <;> rfl
  | cons slot slots ih =>
      cases slot with
      | some value => simp [fillSlots, refill, ih]
      | none =>
          cases values with
          | nil => simp [fillSlots, refill]
          | cons other values => simp [fillSlots, refill, ih]

theorem missingHeights_eq (heights : List UInt64) (slots : List (Option FetchedBlock)) :
    missingHeights heights slots = (unsettled Option.isSome heights slots).map Prod.fst := by
  simp [missingHeights, unsettled]

namespace Endpoint

open Dialogue

variable {σ : Type}

/-- The fault when there is no block at a height after the last attempt. -/
def unavailableAt (endpoint : Endpoint σ) (attempts : Nat) (height : UInt64)
    (_ : Option FetchedBlock) : Fault :=
  endpoint.config.lastFault (.inconsistent (.height height) (.unavailable attempts))

theorem completeSlots_eq (endpoint : Endpoint σ) (heights : List UInt64) (full : Bool)
    {retries : Nat} {attempts : UInt32}
    (counted : attempts.toNat + retries = endpoint.config.retriesAllowed + 1)
    (slots : List (Option FetchedBlock)) :
    endpoint.completeSlots heights full attempts slots =
      (·.filterMap id) <$> retry (endpoint.blockBatch · full) Option.isSome
        endpoint.unavailableAt heights retries attempts.toNat slots := by
  induction retries generalizing attempts slots with
  | zero =>
      unfold retry
      cases missing : unsettled Option.isSome heights slots with
      | nil => simp [completeSlots, missingHeights_eq, missing]
      | cons entry rest =>
          rw [completeSlots_of_missing (by rw [missingHeights_eq, missing, List.map_cons]),
            Config.nextAttempt_of_spent counted]
          rfl
  | succ retries ih =>
      unfold retry
      cases missing : unsettled Option.isSome heights slots with
      | nil => simp [completeSlots, missingHeights_eq, missing]
      | cons entry rest =>
          have spare : attempts.toNat ≤ endpoint.config.retriesAllowed := by omega
          have oneMore := Config.toNat_add_one_of_spare spare
          have countedNext : (attempts + 1).toNat + retries =
              endpoint.config.retriesAllowed + 1 := by omega
          rw [completeSlots_of_missing (by rw [missingHeights_eq, missing, List.map_cons]),
            Config.nextAttempt_of_spare spare]
          simp [ih countedNext, oneMore, fillSlots_eq_refill]

theorem finalizedBlocks_eq (endpoint : Endpoint σ) (heights : List UInt64) (full : Bool) :
    endpoint.finalizedBlocks heights full =
      (·.filterMap id) <$> persist (endpoint.blockBatch · full) Option.isSome
        endpoint.unavailableAt endpoint.config.retriesAllowed heights := by
  have counted := endpoint.config.one_add_retriesAllowed
  simp [finalizedBlocks, persist, completeSlots_eq endpoint heights full counted]

/-- Nothing is asked for no height. -/
theorem finalizedBlocks_nil (endpoint : Endpoint σ) (full : Bool) :
    endpoint.finalizedBlocks [] full = pure [] := by
  simp [finalizedBlocks, blockBatch, batch, batchRaw, completeSlots, missingHeights]

/-! ## What is said -/

/-- The calls for the heights that are open after some attempts. -/
def openCalls (heights : List UInt64) (full : Bool)
    (attempts : List (Attempt (Option FetchedBlock))) : List Call :=
  (openItems Option.isSome attempts heights).map fun (height, _) => blockCall height full

/-- What replies to these calls are for: the blocks or nulls for the open positions. -/
def slotsFor (heights : List UInt64) (attempts : List (Attempt (Option FetchedBlock)))
    (replies : List (Option Raw.Block)) : Attempt (Option FetchedBlock) :=
  ((openItems Option.isSome attempts heights).map Prod.snd).zip
    (replies.map (·.map FetchedBlock.ofBlock))

/-- Whether batches were said one after the other, each with the calls for the heights
that were open, and each with a reply that could be read as the next attempt. -/
structure Batched (endpoint : Endpoint σ) (heights : List UInt64) (full : Bool)
    (said : List Exchange) (attempts : List (Attempt (Option FetchedBlock))) : Prop where
  length_eq : said.length = attempts.length
  batch : ∀ {index : Nat} {exchange : Exchange}, said[index]? = some exchange →
    let calls := openCalls heights full (attempts.take index)
    ∃ reply replies, exchange = .batch calls (endpoint.tolerating .unfinalized) reply ∧
      repliesTo calls reply = .ok replies ∧
      attempts[index]? = some (slotsFor heights (attempts.take index) replies)

variable {endpoint : Endpoint σ} {heights : List UInt64} {full : Bool}

/-- One more attempt at the open heights is one more batch. -/
theorem exchange_of_openItems {attempts : List (Attempt (Option FetchedBlock))}
    {session final : Session σ} {outcome : Except Fault (List (Option FetchedBlock))}
    (nonempty : heights ≠ [])
    (needed : attempts = [] ∨ openItems Option.isSome attempts heights ≠ [])
    (run : (endpoint.blockBatch ((openItems Option.isSome attempts heights).map Prod.fst)
      full).run.run session = (outcome, final)) :
    let calls := openCalls heights full attempts
    ∃ reply, final.transcript =
        session.transcript ++ [.batch calls (endpoint.tolerating .unfinalized) reply] ∧
      outcome = (repliesTo calls reply).map fun replies =>
        replies.map (·.map FetchedBlock.ofBlock) := by
  have asked : (openItems Option.isSome attempts heights).map Prod.fst ≠ [] := by
    cases needed with
    | inl first => simpa [first] using nonempty
    | inr needed => simpa using needed
  have exchange := exchange_of_blockBatch asked run
  rw [List.map_map] at exchange
  exact exchange

/-- An exchange with one more at the end is an earlier one or the last. -/
theorem getElem?_concat_eq_some {said : List Exchange} {last exchange : Exchange} {index : Nat}
    (found : (said ++ [last])[index]? = some exchange) :
    (index < said.length ∧ said[index]? = some exchange) ∨
      (index = said.length ∧ exchange = last) := by
  by_cases before : index < said.length
  · rw [List.getElem?_append_left before] at found
    exact .inl ⟨before, found⟩
  · have inside := (List.getElem?_eq_some_iff.mp found).1
    have isLast : index = said.length := by
      rw [List.length_append, List.length_singleton] at inside
      omega
    rw [isLast, List.getElem?_concat_length, Option.some.injEq] at found
    exact .inr ⟨isLast, found.symm⟩

namespace Batched

theorem nil : Batched endpoint heights full [] [] := ⟨rfl, by simp⟩

/-- One more batch whose reply can be read. -/
theorem next {said : List Exchange} {attempts : List (Attempt (Option FetchedBlock))}
    {reply : Except NodeFailure (List Json)} {replies : List (Option Raw.Block)}
    (batched : Batched endpoint heights full said attempts)
    (replied : repliesTo (openCalls heights full attempts) reply = .ok replies) :
    Batched endpoint heights full
      (said ++ [.batch (openCalls heights full attempts) (endpoint.tolerating .unfinalized) reply])
      (attempts ++ [slotsFor heights attempts replies]) where
  length_eq := by simp [batched.length_eq]
  batch := by
    intro index exchange found
    cases getElem?_concat_eq_some found with
    | inl earlier =>
        have inside : index < attempts.length := batched.length_eq ▸ earlier.1
        rw [List.take_append_of_le_length (Nat.le_of_lt inside),
          List.getElem?_append_left inside]
        exact batched.batch earlier.2
    | inr last =>
        rw [last.1, batched.length_eq, List.take_left, List.getElem?_concat_length]
        exact ⟨reply, replies, last.2, replied, rfl⟩

end Batched

/-- Every run of attempts is said in batches. -/
theorem batched_of_attempted (nonempty : heights ≠ []) {start final : Session σ}
    {attempts : List (Attempt (Option FetchedBlock))}
    (made : Attempted (endpoint.blockBatch · full) Option.isSome heights start attempts final) :
    ∃ said, final.transcript = start.transcript ++ said ∧
      Batched endpoint heights full said attempts := by
  induction made with
  | none => exact ⟨[], by simp, .nil⟩
  | @next attempts middle final results made needed run ih =>
      obtain ⟨said, recorded, batched⟩ := ih
      obtain ⟨reply, added, read⟩ := exchange_of_openItems nonempty needed run
      obtain ⟨replies, replied, rfl⟩ := exists_of_map_eq_ok read.symm
      exact ⟨_, by rw [added, recorded, List.append_assoc], batched.next replied⟩

/-- Whether every reply has one readable item for each call. -/
def AllReadable (said : List Exchange) : Prop :=
  ∀ calls options reply, .batch calls options reply ∈ said →
    ∃ replies, repliesTo calls reply = .ok replies

/-- What a run of asking for finalized blocks says, and how it ends. -/
structure CompletionRun (endpoint : Endpoint σ) (heights : List UInt64) (full : Bool)
    (said : List Exchange) (attempts : List (Attempt (Option FetchedBlock)))
    (outcome : Except Fault (List FetchedBlock)) : Prop where
  /-- There are no more batches than allowed. -/
  bounded : said.length ≤ endpoint.config.maxRetryDepth.toNat + 1
  /-- Nothing is taken from anything but a batch. -/
  attempts_le : attempts.length ≤ said.length
  /-- Each batch has the calls for the heights for which no block was given before. Its
  reply is the next attempt, position by position, or else the batch is the last one and
  the run ends with the fault. -/
  batch : ∀ {index : Nat} {exchange : Exchange}, said[index]? = some exchange →
    let calls := openCalls heights full (attempts.take index)
    ∃ reply, exchange = .batch calls (endpoint.tolerating .unfinalized) reply ∧
      match repliesTo calls reply with
      | .ok replies => attempts[index]? = some (slotsFor heights (attempts.take index) replies)
      | .error fault => said.length = index + 1 ∧ outcome = .error fault
  /-- There is one block for each height, the first one given for its position. -/
  blocks : ∀ blocks, outcome = .ok blocks → blocks.length = heights.length ∧
    ∀ (position : Nat) (inside : position < blocks.length),
      (history attempts position).findSome? id = some blocks[position]
  /-- As long as the replies can be read, a run fails only by a height without a block
  after the last batch allowed. -/
  fails_iff : AllReadable said →
    ((∃ fault, outcome = .error fault) ↔
      said.length = endpoint.config.maxRetryDepth.toNat + 1 ∧
        openItems Option.isSome attempts heights ≠ [])
  /-- The fault then names the first such height and the number of attempts. -/
  fault_eq : AllReadable said → ∀ fault, outcome = .error fault →
    ∃ height position others,
      openItems Option.isSome attempts heights = (height, position) :: others ∧
        fault = .inconsistent (.height height)
          (.unavailable (endpoint.config.maxRetryDepth.toNat + 1))
  /-- A reply with more or fewer items than calls is a fault. -/
  miscounted : ∀ calls options answers, .batch calls options (.ok answers) ∈ said →
    answers.length ≠ calls.length →
      outcome = .error
        (.malformed "eth_getBlockByNumber" (.batchSize calls.length answers.length))

/-- Batches whose replies can all be read have the right number of items. -/
theorem Batched.length_answers {said : List Exchange}
    {attempts : List (Attempt (Option FetchedBlock))}
    (batched : Batched endpoint heights full said attempts) {calls : List Call}
    {options : CallOptions} {answers : List Json}
    (member : .batch calls options (.ok answers) ∈ said) : answers.length = calls.length := by
  obtain ⟨index, inside, found⟩ := List.getElem_of_mem member
  obtain ⟨reply, replies, same, replied, _⟩ :=
    batched.batch (List.getElem?_eq_some_iff.mpr ⟨inside, found⟩)
  cases same
  exact length_eq_of_repliesTo replied

/-- A run in which every reply can be read. -/
theorem Batched.completionRun {said : List Exchange}
    {attempts : List (Attempt (Option FetchedBlock))} {outcome : Except Fault (List FetchedBlock)}
    (batched : Batched endpoint heights full said attempts)
    (bounded : attempts.length ≤ endpoint.config.maxRetryDepth.toNat + 1)
    (blocks : ∀ blocks, outcome = .ok blocks → blocks.length = heights.length ∧
      ∀ (position : Nat) (inside : position < blocks.length),
        (history attempts position).findSome? id = some blocks[position])
    (settled : ∀ blocks, outcome = .ok blocks → openItems Option.isSome attempts heights = [])
    (fault_eq : ∀ fault, outcome = .error fault →
      attempts.length = endpoint.config.maxRetryDepth.toNat + 1 ∧
        ∃ height position others,
          openItems Option.isSome attempts heights = (height, position) :: others ∧
            fault = .inconsistent (.height height)
              (.unavailable (endpoint.config.maxRetryDepth.toNat + 1))) :
    CompletionRun endpoint heights full said attempts outcome where
  bounded := batched.length_eq ▸ bounded
  attempts_le := Nat.le_of_eq batched.length_eq.symm
  batch := by
    intro index exchange found
    obtain ⟨reply, replies, isBatch, replied, recorded⟩ := batched.batch found
    refine ⟨reply, isBatch, ?_⟩
    rw [replied]
    exact recorded
  blocks := blocks
  fails_iff := by
    intro _
    constructor
    · intro ⟨fault, isFault⟩
      obtain ⟨spent, height, position, others, opened, _⟩ := fault_eq fault isFault
      exact ⟨batched.length_eq.trans spent, by simp [opened]⟩
    · intro ⟨_, opened⟩
      cases ending : outcome with
      | ok blocks => exact absurd (settled blocks ending) opened
      | error fault => exact ⟨fault, rfl⟩
  fault_eq := fun _ fault isFault => (fault_eq fault isFault).2
  miscounted := fun _ _ _ member differ => absurd (batched.length_answers member) differ

/-- A run that ends with a reply that cannot be read. -/
theorem Batched.completionRun_of_unreadable {said : List Exchange}
    {attempts : List (Attempt (Option FetchedBlock))} {fault : Fault}
    {reply : Except NodeFailure (List Json)}
    (batched : Batched endpoint heights full said attempts)
    (bounded : attempts.length ≤ endpoint.config.maxRetryDepth.toNat)
    (replied : repliesTo (openCalls heights full attempts) reply = .error fault) :
    CompletionRun endpoint heights full
      (said ++ [.batch (openCalls heights full attempts) (endpoint.tolerating .unfinalized) reply])
      attempts (.error fault) := by
  have unreadable : ¬AllReadable (said ++
      [.batch (openCalls heights full attempts) (endpoint.tolerating .unfinalized) reply]) := by
    intro readable
    obtain ⟨replies, read⟩ := readable _ _ _ (List.mem_append_right _ (List.mem_singleton_self _))
    rw [replied] at read
    cases read
  refine ⟨?_, ?_, ?_, by simp, fun readable => absurd readable unreadable,
    fun readable => absurd readable unreadable, ?_⟩
  · simp [batched.length_eq, bounded]
  · simp [batched.length_eq]
  · intro index exchange found
    cases getElem?_concat_eq_some found with
    | inl earlier =>
        obtain ⟨reply, replies, isBatch, read, recorded⟩ := batched.batch earlier.2
        refine ⟨reply, isBatch, ?_⟩
        rw [read]
        exact recorded
    | inr last =>
        rw [last.1, batched.length_eq, List.take_length]
        refine ⟨reply, last.2, ?_⟩
        rw [replied]
        simp [batched.length_eq]
  · intro calls options answers member differ
    rw [List.mem_append, List.mem_singleton] at member
    cases member with
    | inl earlier => exact absurd (batched.length_answers earlier) differ
    | inr last =>
        cases last
        have same := replied.symm.trans (repliesTo_of_length_ne differ)
        rw [Except.error.injEq] at same
        rw [same]

/-- The slots of blocks that are all there. -/
theorem map_some_filterMap_id {slots : List (Option FetchedBlock)}
    (all : ∀ slot ∈ slots, slot.isSome = true) : (slots.filterMap id).map some = slots := by
  induction slots with
  | nil => rfl
  | cons slot slots ih =>
      have rest := ih fun other member => all other (List.mem_cons_of_mem _ member)
      cases slot with
      | none => exact absurd (all none List.mem_cons_self) (by simp)
      | some block => simpa using rest

/-- The blocks of a run in which no height is open any more. -/
theorem blocks_of_upToDate {attempts : List (Attempt (Option FetchedBlock))}
    {slots : List (Option FetchedBlock)}
    (upToDate : UpToDate Option.isSome attempts heights slots)
    (settled : openItems Option.isSome attempts heights = []) :
    (slots.filterMap id).length = heights.length ∧
      ∀ (position : Nat) (inside : position < (slots.filterMap id).length),
        (history attempts position).findSome? id = some (slots.filterMap id)[position] := by
  have allSome := map_some_filterMap_id fun slot => upToDate.good_of_openItems_eq_nil settled
  have sameLength := congrArg List.length allSome
  rw [List.length_map] at sameLength
  refine ⟨sameLength.trans upToDate.length_eq, ?_⟩
  intro position inside
  have found : slots[position]? = some (some (slots.filterMap id)[position]) :=
    (congrArg (·[position]?) allSome).symm.trans (by simp)
  obtain ⟨earlier, recorded, bad⟩ := upToDate.latest found
  have nothing : earlier.findSome? id = none := by
    rw [List.findSome?_eq_none_iff]
    intro slot member
    simpa using bad slot member
  rw [recorded, List.findSome?_append, nothing]
  rfl

/-- However the attempts end, what is said and what comes of it is a run of this kind. -/
theorem completionRun_of_persisted (nonempty : heights ≠ [])
    (countable : endpoint.config.maxRetryDepth.toNat + 1 < UInt32.size) {session : Session σ}
    {ending : Except Fault (List (Option FetchedBlock)) × Session σ}
    (persisted : Persisted (endpoint.blockBatch · full) Option.isSome endpoint.unavailableAt
      heights endpoint.config.retriesAllowed session ending) :
    ∃ said attempts, ending.2.transcript = session.transcript ++ said ∧
      CompletionRun endpoint heights full said attempts (mapEnding (·.filterMap id) ending).1 := by
  rw [Config.retriesAllowed_of_countable countable] at persisted
  -- Only the batch after the last attempt on record can be one that cannot be read.
  cases persisted with
  | @interrupted attempts middle final fault made spare needed run =>
      obtain ⟨said, recorded, batched⟩ := batched_of_attempted nonempty made
      obtain ⟨reply, added, read⟩ := exchange_of_openItems nonempty needed run
      have unreadable := eq_error_of_map read.symm
      exact ⟨said ++ [_], attempts, by rw [added, recorded, List.append_assoc],
        batched.completionRun_of_unreadable spare unreadable⟩
  | settled made begun bounded settled upToDate =>
      obtain ⟨said, recorded, batched⟩ := batched_of_attempted nonempty made
      refine ⟨said, _, recorded, batched.completionRun bounded ?_ (fun _ _ => settled) ?_⟩
      · intro blocks same
        cases same
        exact blocks_of_upToDate upToDate settled
      · intro fault same
        cases same
  | exhausted made spent opened latest =>
      obtain ⟨said, recorded, batched⟩ := batched_of_attempted nonempty made
      refine ⟨said, _, recorded, batched.completionRun (Nat.le_of_eq spent) ?_ ?_ ?_⟩
      · intro blocks same
        cases same
      · intro blocks same
        cases same
      · intro fault same
        cases same
        exact ⟨spent, _, _, _, opened, Config.lastFault_of_countable countable _⟩

/-- Finalized blocks are asked for in batches, each at the heights that are open, until
there is a block for every height or the batches allowed are spent, as long as these can be
counted. -/
theorem finalizedBlocks_run (endpoint : Endpoint σ)
    (countable : endpoint.config.maxRetryDepth.toNat + 1 < UInt32.size)
    (heights : List UInt64) (full : Bool) (session : Session σ) :
    ∃ (said : List Exchange) (attempts : List (Attempt (Option FetchedBlock))),
      ((endpoint.finalizedBlocks heights full).run.run session).2.transcript =
          session.transcript ++ said ∧
        CompletionRun endpoint heights full said attempts
          ((endpoint.finalizedBlocks heights full).run.run session).1 := by
  cases heights with
  | nil =>
      rw [finalizedBlocks_nil, run_pure]
      refine ⟨[], [], (List.append_nil _).symm, Batched.nil.completionRun (Nat.zero_le _) ?_
        (fun _ _ => rfl) ?_⟩
      · intro blocks same
        cases same
        simp
      · intro fault same
        cases same
  | cons height heights =>
      have nonempty := List.cons_ne_nil height heights
      have persisted : Persisted (endpoint.blockBatch · full) Option.isSome
          endpoint.unavailableAt (height :: heights) endpoint.config.retriesAllowed session _ :=
        persisted_persist (fun _ _ _ _ => length_of_blockBatch) _ session
      obtain ⟨said, attempts, recorded, run⟩ :=
        completionRun_of_persisted nonempty countable persisted
      refine ⟨said, attempts, ?_, ?_⟩
      · rw [finalizedBlocks_eq, run_map, mapEnding_snd, recorded]
      · rw [finalizedBlocks_eq, run_map]
        exact run

/-- A node that has no block. -/
def emptyNode : Node Unit where
  url := ""
  answer _ _ _ := (.ok .null, ())
  answerBatch calls _ _ := (.ok (calls.map fun _ => .null), ())

/-- With the standard configuration, the attempts can be counted. -/
theorem finalizedBlocks_run_emptyNode :
    let endpoint := Endpoint.of emptyNode .standard
    endpoint.config.maxRetryDepth.toNat + 1 < UInt32.size ∧
      ∃ (said : List Exchange) (attempts : List (Attempt (Option FetchedBlock))),
        ((endpoint.finalizedBlocks [5, 6, 5] true).run.run (.start ())).2.transcript = said ∧
          CompletionRun endpoint [5, 6, 5] true said attempts
            ((endpoint.finalizedBlocks [5, 6, 5] true).run.run (.start ())).1 :=
  ⟨by decide, finalizedBlocks_run (.of emptyNode .standard) (by decide) [5, 6, 5] true (.start ())⟩

/-- With a depth that cannot be counted up to, a node that has no block is asked until the
count overflows. -/
theorem run_finalizedBlocks_of_uncountable {config : Config}
    (uncountable : ¬config.maxRetryDepth.toNat + 1 < UInt32.size) (height : UInt64) (full : Bool)
    (session : Session Unit) :
    let endpoint := Endpoint.of emptyNode config
    (endpoint.finalizedBlocks [height] full).run.run session =
      (.error .overflow, { session with
        transcript := session.transcript ++ List.replicate (UInt32.size - 1)
          (.batch [blockCall height full] (endpoint.tolerating .unfinalized) (.ok [.null])) }) := by
  intro endpoint
  have runs (session : Session Unit) : (endpoint.blockBatch [height] full).run.run session =
      (.ok [none], { session with transcript := session.transcript ++
        [.batch [blockCall height full] (endpoint.tolerating .unfinalized) (.ok [.null])] }) :=
    endpoint.run_blockBatch (List.cons_ne_nil _ _) full session
  have uncounted (attempts : Nat) : endpoint.unavailableAt attempts height none = .overflow :=
    Config.lastFault_of_uncountable uncountable _
  have spent : endpoint.config.retriesAllowed + 1 = UInt32.size - 1 :=
    Config.retriesAllowed_of_uncountable uncountable
  rw [finalizedBlocks_eq, run_map, run_persist_of_hopeless rfl runs, spent, uncounted]
  rfl

/-- The largest depth cannot be counted up to: the node is asked once less than the attempts
allowed, and there is no fault that names the height. -/
theorem finalizedBlocks_overflow :
    let endpoint := Endpoint.of emptyNode { Config.standard with maxRetryDepth := 4294967295 }
    let ending := (endpoint.finalizedBlocks [5] false).run.run (.start ())
    ending.1 = .error .overflow ∧
      ending.2.transcript = List.replicate (UInt32.size - 1)
        (.batch [blockCall 5 false] (endpoint.tolerating .unfinalized) (.ok [.null])) := by
  have uncountable : ¬(4294967295 : UInt32).toNat + 1 < UInt32.size := by decide
  intro endpoint ending
  have run : ending = _ := run_finalizedBlocks_of_uncountable uncountable 5 false (.start ())
  rw [run, Session.start, List.nil_append]
  exact ⟨rfl, rfl⟩

end Endpoint

end ChainFeed
