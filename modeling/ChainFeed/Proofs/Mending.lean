import ChainFeed.Engine.Finalized
import ChainFeed.Proofs.Retrying
import ChainFeed.Proofs.Rounds

/-!
# Mending defective blocks

Finalized blocks are enriched in rounds, the first one for all of them and each later
one for those that are still defective.  A round starts from the bare blocks, so what
an abandoned round brought is dropped, and an enriched block holds the additions of
one round only.  With the largest depth allowed there is no last round, since the rounds
cannot be counted.
-/

namespace ChainFeed

theorem defectiveSources_cons (source block : FetchedBlock) (sources blocks : List FetchedBlock) :
    defectiveSources (source :: sources) (block :: blocks) =
      if block.isValid then defectiveSources sources blocks
      else source :: defectiveSources sources blocks := by
  by_cases valid : block.isValid <;> simp [defectiveSources, valid]

/-- The blocks that are enriched again are those whose additions are unsound. -/
theorem defectiveSources_eq (blocks : List Raw.Block) (additions : List Enrichment) :
    defectiveSources (blocks.map FetchedBlock.ofBlock)
        (List.zipWith FetchedBlock.mk blocks additions) =
      ((unsettled Enrichment.isSound blocks additions).map Prod.fst).map
        FetchedBlock.ofBlock := by
  induction blocks generalizing additions with
  | nil => rfl
  | cons block blocks ih =>
      cases additions with
      | nil => rfl
      | cons addition additions =>
          rw [List.map_cons, List.zipWith_cons_cons, defectiveSources_cons, unsettled_cons,
            FetchedBlock.isValid_mk, ih]
          cases addition.isSound <;> simp

/-- New blocks take the places of defective ones as new additions do of unsound ones. -/
theorem replaceDefective_eq {blocks : List Raw.Block} {additions again : List Enrichment}
    (sameLength : again.length = (unsettled Enrichment.isSound blocks additions).length) :
    replaceDefective (List.zipWith FetchedBlock.mk blocks additions)
        (List.zipWith FetchedBlock.mk
          ((unsettled Enrichment.isSound blocks additions).map Prod.fst) again) =
      List.zipWith FetchedBlock.mk blocks (refill Enrichment.isSound additions again) := by
  induction blocks generalizing additions again with
  | nil => simp [replaceDefective]
  | cons block blocks ih =>
      cases additions with
      | nil => simp [replaceDefective, refill]
      | cons addition additions =>
          rw [unsettled_cons] at sameLength ⊢
          unfold refill
          cases sound : addition.isSound with
          | true =>
              simp only [sound, if_true] at sameLength ⊢
              simp [replaceDefective, sound, ih sameLength]
          | false =>
              simp only [sound, Bool.false_eq_true, if_false] at sameLength ⊢
              cases again with
              | nil => simp at sameLength
              | cons other again =>
                  simp [replaceDefective, sound, ih (Nat.succ.inj sameLength)]

/-- The first defective block is the first one whose addition is unsound. -/
theorem findSome?_defect_eq (blocks : List Raw.Block) (additions : List Enrichment) :
    (List.zipWith FetchedBlock.mk blocks additions).findSome?
        (fun block => block.data.defect.map (block, ·)) =
      (unsettled Enrichment.isSound blocks additions).head?.bind fun (block, addition) =>
        addition.defect.map (FetchedBlock.mk block addition, ·) := by
  induction blocks generalizing additions with
  | nil => rfl
  | cons block blocks ih =>
      cases additions with
      | nil => rfl
      | cons addition additions =>
          rw [List.zipWith_cons_cons, List.findSome?_cons, unsettled_cons, ih]
          cases defect : addition.defect <;> simp [Enrichment.isSound, defect]

theorem exists_findSome?_defect {blocks : List Raw.Block} {additions : List Enrichment}
    {entry : Raw.Block × Enrichment} {rest : List (Raw.Block × Enrichment)}
    (first : unsettled Enrichment.isSound blocks additions = entry :: rest) :
    ∃ defect, entry.2.defect = some defect ∧
      (List.zipWith FetchedBlock.mk blocks additions).findSome?
        (fun block => block.data.defect.map (block, ·)) =
          some (⟨entry.1, entry.2⟩, defect) := by
  obtain ⟨defect, found⟩ := Enrichment.exists_defect (bad_of_unsettled_eq_cons first)
  exact ⟨defect, found, by simp [findSome?_defect_eq, first, found]⟩

namespace Endpoint

open Dialogue

variable {σ : Type}

/-- One round for some bare blocks. -/
def round (endpoint : Endpoint σ) (demand : Demand) (blocks : List Raw.Block) :
    Dialogue σ (List Enrichment) :=
  endpoint.additions demand none (blocks.map FetchedBlock.ofBlock)

/-- The fault when the additions to a block are unsound after the last attempt. -/
def defectiveAt (endpoint : Endpoint σ) (_ : Nat) (block : Raw.Block) (addition : Enrichment) :
    Fault :=
  endpoint.config.lastFault
    (.inconsistent (.both block.number block.hash)
      (.defective (addition.defect.getD .missingLogs)))

theorem length_of_round {endpoint : Endpoint σ} {demand : Demand} {blocks : List Raw.Block}
    {session final : Session σ} {added : List Enrichment}
    (run : (endpoint.round demand blocks).run.run session = (.ok added, final)) :
    added.length = blocks.length := by
  rw [length_of_additions run, List.length_map]

theorem mendDefective_eq (endpoint : Endpoint σ) (demand : Demand) (blocks : List Raw.Block)
    {retries : Nat} {attempts : UInt32}
    (counted : attempts.toNat + retries = endpoint.config.retriesAllowed + 1)
    {additions : List Enrichment} (sameLength : additions.length = blocks.length) :
    endpoint.mendDefective demand (blocks.map FetchedBlock.ofBlock) attempts
        (List.zipWith FetchedBlock.mk blocks additions) =
      List.zipWith FetchedBlock.mk blocks <$>
        retry (endpoint.round demand) Enrichment.isSound endpoint.defectiveAt blocks retries
          attempts.toNat additions := by
  induction retries generalizing attempts additions with
  | zero =>
      unfold retry
      cases first : unsettled Enrichment.isSound blocks additions with
      | nil => simp [mendDefective, findSome?_defect_eq, first]
      | cons entry rest =>
          obtain ⟨defect, found, isFirst⟩ := exists_findSome?_defect first
          rw [mendDefective_of_defect isFirst, Config.nextAttempt_of_spent counted]
          simp only [defectiveAt, found, Option.getD_some]
          rfl
  | succ retries ih =>
      unfold retry
      cases first : unsettled Enrichment.isSound blocks additions with
      | nil => simp [mendDefective, findSome?_defect_eq, first]
      | cons entry rest =>
          obtain ⟨defect, found, isFirst⟩ := exists_findSome?_defect first
          have spare : attempts.toNat ≤ endpoint.config.retriesAllowed := by omega
          have oneMore := Config.toNat_add_one_of_spare spare
          rw [mendDefective_of_defect isFirst, Config.nextAttempt_of_spare spare,
            defectiveSources_eq, first]
          apply ext_run
          intro session
          dsimp only
          rw [run_bind, enrich_eq_additions, run_map, run_map, run_bind]
          change continueWith _ (mapEnding _ ((endpoint.round demand ((entry :: rest).map
            Prod.fst)).run.run session)) = mapEnding _ (continueWith _ ((endpoint.round demand
              ((entry :: rest).map Prod.fst)).run.run session))
          cases ending : (endpoint.round demand ((entry :: rest).map Prod.fst)).run.run session with
          | mk outcome final =>
              cases outcome with
              | error fault => rfl
              | ok again =>
                  have counted := length_of_round ending
                  rw [← first] at counted ⊢
                  rw [mapEnding_ok, continueWith_ok, continueWith_ok,
                    FetchedBlock.enrichEach_ofBlock counted, replaceDefective_eq, ih (by omega),
                    oneMore, run_map]
                  · rw [length_refill, sameLength]
                  · rw [counted, List.length_map]

theorem enrichFinalized_eq (endpoint : Endpoint σ) (demand : Demand) (blocks : List Raw.Block) :
    endpoint.enrichFinalized demand (blocks.map FetchedBlock.ofBlock) =
      List.zipWith FetchedBlock.mk blocks <$>
        persist (endpoint.round demand) Enrichment.isSound endpoint.defectiveAt
          endpoint.config.retriesAllowed blocks := by
  have counted := endpoint.config.one_add_retriesAllowed
  apply ext_run
  intro session
  rw [enrichFinalized, persist, run_bind, run_map, run_bind, enrich_eq_additions, run_map]
  change continueWith _ (mapEnding _ ((endpoint.round demand blocks).run.run session)) = _
  cases ending : (endpoint.round demand blocks).run.run session with
  | mk outcome final =>
      cases outcome with
      | error fault => rfl
      | ok added =>
          have sameLength := length_of_round ending
          rw [mapEnding_ok, continueWith_ok, continueWith_ok,
            FetchedBlock.enrichEach_ofBlock sameLength,
            mendDefective_eq endpoint demand blocks counted sameLength, run_map]
          rfl

/-- What comes of rounds none of which failed. -/
structure Mended (endpoint : Endpoint σ) (blocks : List Raw.Block)
    (rounds : List (Attempt Enrichment)) (outcome : Except Fault (List FetchedBlock)) : Prop where
  /-- There is a first round. -/
  begun : 0 < rounds.length
  /-- There are no more rounds than allowed. -/
  bounded : rounds.length ≤ endpoint.config.maxRetryDepth.toNat + 1
  /-- The enriched blocks are valid and in the order of the bare ones, each of which has
  the addition of the last round that it was in, and nothing else. -/
  mended : ∀ enriched, outcome = .ok enriched → enriched.length = blocks.length ∧
    (∀ block ∈ enriched, block.isValid = true) ∧
    ∀ (position : Nat) (block : Raw.Block), blocks[position]? = some block →
      ∃ addition, (history rounds position).getLast? = some addition ∧
        enriched[position]? = some ((FetchedBlock.ofBlock block).enrich addition)
  /-- The run fails exactly if a block is defective after the last round allowed. -/
  fails_iff : (∃ fault, outcome = .error fault) ↔
    rounds.length = endpoint.config.maxRetryDepth.toNat + 1 ∧
      openItems Enrichment.isSound rounds blocks ≠ []
  /-- The fault then names the first such block and its latest defect. -/
  fault_eq : ∀ fault, outcome = .error fault →
    ∃ block position others addition defect,
      openItems Enrichment.isSound rounds blocks = (block, position) :: others ∧
        (history rounds position).getLast? = some addition ∧ addition.defect = some defect ∧
        fault = .inconsistent (.both block.number block.hash) (.defective defect)

variable {endpoint : Endpoint σ} {demand : Demand} {blocks : List Raw.Block}
  {rounds : List (Attempt Enrichment)}

/-- Rounds after which no block is defective. -/
theorem mended_of_settled {additions : List Enrichment} (begun : 0 < rounds.length)
    (bounded : rounds.length ≤ endpoint.config.maxRetryDepth.toNat + 1)
    (settled : openItems Enrichment.isSound rounds blocks = [])
    (upToDate : UpToDate Enrichment.isSound rounds blocks additions) :
    Mended endpoint blocks rounds (.ok (List.zipWith FetchedBlock.mk blocks additions)) where
  begun := begun
  bounded := bounded
  mended := by
    intro enriched same
    cases same
    refine ⟨by simp [upToDate.length_eq], ?_, ?_⟩
    · intro block member
      obtain ⟨position, inside, rfl⟩ := List.getElem_of_mem member
      rw [List.getElem_zipWith, FetchedBlock.isValid_mk]
      exact upToDate.good_of_openItems_eq_nil settled (List.getElem_mem _)
    · intro position block found
      have inside : position < additions.length := by
        rw [upToDate.length_eq]
        exact (List.getElem?_eq_some_iff.mp found).1
      obtain ⟨earlier, recorded, _⟩ := upToDate.latest (List.getElem?_eq_getElem inside)
      exact ⟨additions[position], by simp [recorded],
        by simp [List.getElem?_zipWith, found, inside]⟩
  fails_iff := by simp [settled]
  fault_eq := by
    intro fault same
    cases same

/-- Rounds after the last of which a block is defective. -/
theorem mended_of_exhausted {block : Raw.Block} {position : Nat} {others : List (Raw.Block × Nat)}
    {addition : Enrichment} (spent : rounds.length = endpoint.config.maxRetryDepth.toNat + 1)
    (opened : openItems Enrichment.isSound rounds blocks = (block, position) :: others)
    (latest : (history rounds position).getLast? = some addition)
    (countable : endpoint.config.maxRetryDepth.toNat + 1 < UInt32.size) (attempts : Nat) :
    Mended endpoint blocks rounds (.error (endpoint.defectiveAt attempts block addition)) where
  begun := by simp [spent]
  bounded := Nat.le_of_eq spent
  mended := by
    intro enriched same
    cases same
  fails_iff := by simp [spent, opened]
  fault_eq := by
    intro fault same
    cases same
    have isOpen : (block, position) ∈ openItems Enrichment.isSound rounds blocks :=
      opened ▸ List.mem_cons_self
    have unsound := List.all_eq_true.mp (List.mem_filter.mp isOpen).2 addition
      (List.mem_of_getLast? latest)
    rw [Bool.not_eq_true'] at unsound
    obtain ⟨defect, found⟩ := Enrichment.exists_defect unsound
    exact ⟨block, position, others, addition, defect, opened, latest, found,
      by simp [defectiveAt, Config.lastFault_of_countable countable, found]⟩

/-- Finalized blocks are enriched in rounds, each of them for the bare blocks that are
still defective, until none is or the rounds allowed are spent, as long as these can be
counted. -/
theorem enrichFinalized_run (endpoint : Endpoint σ)
    (countable : endpoint.config.maxRetryDepth.toNat + 1 < UInt32.size) (demand : Demand)
    (blocks : List Raw.Block) (session : Session σ) :
    (∀ asked : List Raw.Block, endpoint.enrich demand none (asked.map FetchedBlock.ofBlock) =
        FetchedBlock.enrichEach (asked.map FetchedBlock.ofBlock) <$> endpoint.round demand asked) ∧
      ∃ (rounds : List (Attempt Enrichment)) (last : Session σ),
        Attempted (endpoint.round demand) Enrichment.isSound blocks session rounds last ∧
          ((∃ fault final, rounds.length ≤ endpoint.config.maxRetryDepth.toNat ∧
              (rounds = [] ∨ openItems Enrichment.isSound rounds blocks ≠ []) ∧
              (endpoint.round demand ((openItems Enrichment.isSound rounds blocks).map
                Prod.fst)).run.run last = (.error fault, final) ∧
              (endpoint.enrichFinalized demand (blocks.map FetchedBlock.ofBlock)).run.run session =
                (.error fault, final)) ∨
            ∃ outcome,
              (endpoint.enrichFinalized demand (blocks.map FetchedBlock.ofBlock)).run.run session =
                (outcome, last) ∧ Mended endpoint blocks rounds outcome) := by
  refine ⟨fun _ => enrich_eq_additions endpoint demand none _, ?_⟩
  have persisted : Persisted (endpoint.round demand) Enrichment.isSound endpoint.defectiveAt
      blocks endpoint.config.retriesAllowed session _ :=
    persisted_persist (fun _ _ _ _ => length_of_round) _ session
  rw [enrichFinalized_eq, run_map]
  generalize (persist _ _ _ _ _).run.run session = ending at persisted
  rw [Config.retriesAllowed_of_countable countable] at persisted
  cases persisted with
  | interrupted made spare needed run =>
      exact ⟨_, _, made, .inl ⟨_, _, spare, needed, run, rfl⟩⟩
  | settled made begun bounded settled upToDate =>
      exact ⟨_, _, made, .inr ⟨_, rfl, mended_of_settled begun bounded settled upToDate⟩⟩
  | exhausted made spent opened latest =>
      exact ⟨_, _, made, .inr ⟨_, rfl, mended_of_exhausted spent opened latest countable _⟩⟩

/-- A node that lists nothing. -/
def barrenNode : Node Unit where
  url := ""
  answer _ _ _ := (.ok (.arr []), ())
  answerBatch calls _ _ := (.ok (calls.map fun _ => .arr []), ())

/-- A demand for logs alone. -/
def logsAlone : Demand := { Demand.of .empty .off with logs := true }

/-- With the standard configuration, the rounds can be counted. -/
theorem enrichFinalized_run_barrenNode :
    let endpoint := Endpoint.of barrenNode .standard
    endpoint.config.maxRetryDepth.toNat + 1 < UInt32.size ∧
      ∃ (rounds : List (Attempt Enrichment)) (last : Session Unit),
        Attempted (endpoint.round logsAlone) Enrichment.isSound [bloomingBlock] (.start ()) rounds
            last ∧
          ((∃ fault final, rounds.length ≤ 9 ∧
              (rounds = [] ∨ openItems Enrichment.isSound rounds [bloomingBlock] ≠ []) ∧
              (endpoint.round logsAlone ((openItems Enrichment.isSound rounds
                [bloomingBlock]).map Prod.fst)).run.run last = (.error fault, final) ∧
              (endpoint.enrichFinalized logsAlone [.ofBlock bloomingBlock]).run.run (.start ()) =
                (.error fault, final)) ∨
            ∃ outcome,
              (endpoint.enrichFinalized logsAlone [.ofBlock bloomingBlock]).run.run (.start ()) =
                (outcome, last) ∧ Mended endpoint [bloomingBlock] rounds outcome) :=
  ⟨by decide, (enrichFinalized_run (.of barrenNode .standard) (by decide) logsAlone
    [bloomingBlock] (.start ())).2⟩

/-- The exchange in which no logs are listed for a block. -/
def nothingListed (config : Config) (block : Raw.Block) : Exchange :=
  .single (logsCall block.number block.number)
    ((Endpoint.of barrenNode config).tolerating .logsOutOfRange) (.ok (.arr []))

theorem run_fetchLogs_barrenNode (config : Config) (block : Raw.Block) (session : Session Unit) :
    ((Endpoint.of barrenNode config).fetchLogs [.ofBlock block]).run.run session =
      (.ok [logsOfBlock config.skippedChecks (.ofBlock block) []],
        { session with transcript := session.transcript ++ [nothingListed config block] }) := by
  have listed : ((Endpoint.of barrenNode config).logsBetween block.number
      block.number).run.run session = (.ok [],
        { session with transcript := session.transcript ++ [nothingListed config block] }) := by
    rw [logsBetween]
    rfl
  rw [fetchLogs, run_bind]
  change continueWith _ (((Endpoint.of barrenNode config).logsBetween block.number
    block.number).run.run session) = _
  rw [listed]
  rfl

/-- A demand for logs alone is a round of one call. -/
theorem fetches_logsAlone (endpoint : Endpoint σ) (block : FetchedBlock) :
    endpoint.fetches logsAlone none [block] =
      (fun logs => [some logs, none, none]) <$> endpoint.fetchLogs [block] := by
  have noReceipts : logsAlone.receipts = false := rfl
  have noTraces : (logsAlone.traces || logsAlone.stateDiffs) = false := rfl
  rw [fetches, noReceipts, noTraces]
  simp [fetchIf, logsAlone]

/-- A round for a block of which the logs are missing. -/
theorem run_round_barrenNode {config : Config} (checked : config.skippedChecks.logsBloom = false)
    {block : Raw.Block} (bloom : block.logsBloom ≠ .zero 256) (session : Session Unit) :
    ((Endpoint.of barrenNode config).round logsAlone [block]).run.run session =
      (.ok [{ Enrichment.empty with logs := some [], defect := some .missingLogs }],
        { session with transcript := session.transcript ++ [nothingListed config block] }) := by
  have added : logsOfBlock config.skippedChecks (.ofBlock block) [] =
      { Enrichment.empty with logs := some [], defect := some .missingLogs } := by
    simp [logsOfBlock, checked, bloom, FetchedBlock.ofBlock]
  rw [round, List.map_singleton, additions, fetches_logsAlone, run_map, run_map,
    run_fetchLogs_barrenNode, added]
  rfl

/-- With a depth that cannot be counted up to, a block of which the logs stay missing is
enriched until the count overflows. -/
theorem run_enrichFinalized_of_uncountable {config : Config}
    (uncountable : ¬config.maxRetryDepth.toNat + 1 < UInt32.size)
    (checked : config.skippedChecks.logsBloom = false) {block : Raw.Block}
    (bloom : block.logsBloom ≠ .zero 256) (session : Session Unit) :
    ((Endpoint.of barrenNode config).enrichFinalized logsAlone [.ofBlock block]).run.run session =
      (.error .overflow, { session with
        transcript := session.transcript ++
          List.replicate (UInt32.size - 1) (nothingListed config block) }) := by
  have runs := run_round_barrenNode checked bloom
  have uncounted (attempts : Nat) (addition : Enrichment) :
      (Endpoint.of barrenNode config).defectiveAt attempts block addition = .overflow :=
    Config.lastFault_of_uncountable uncountable _
  have spent : (Endpoint.of barrenNode config).config.retriesAllowed + 1 = UInt32.size - 1 :=
    Config.retriesAllowed_of_uncountable uncountable
  have same := (Endpoint.of barrenNode config).enrichFinalized_eq logsAlone [block]
  rw [List.map_singleton] at same
  rw [same, run_map, run_persist_of_hopeless rfl runs, spent, uncounted]
  rfl

/-- The largest depth cannot be counted up to: there is one round less than allowed, each of
which leaves the block defective, and no fault that names it. -/
theorem enrichFinalized_overflow :
    let config := { Config.standard with maxRetryDepth := 4294967295 }
    let ending := ((Endpoint.of barrenNode config).enrichFinalized logsAlone
      [.ofBlock bloomingBlock]).run.run (.start ())
    ending.1 = .error .overflow ∧
      ending.2.transcript =
        List.replicate (UInt32.size - 1) (nothingListed config bloomingBlock) := by
  have uncountable : ¬(4294967295 : UInt32).toNat + 1 < UInt32.size := by decide
  have bloom : bloomingBlock.logsBloom ≠ .zero 256 := by decide +kernel
  intro config ending
  have run : ending = _ := run_enrichFinalized_of_uncountable uncountable rfl bloom (.start ())
  rw [run, Session.start, List.nil_append]
  exact ⟨rfl, rfl⟩

end Endpoint

end ChainFeed
