import ChainFeed.Feed
import ChainFeed.Proofs.Orderly

/-!
# Runs of operations

An endpoint is used for one operation after the other, with different hints of priority, and what
was found out is kept from each to the next, however it ends.  Over a whole run the receipts
methods are tried once, and the block that identifies the chain is asked for until it is answered
for the first time.
-/

namespace ChainFeed

variable {σ : Type}

namespace Endpoint

open Dialogue

variable (endpoint : Endpoint σ)

/-! ## Orderly operations -/

theorem orderly_fetchIf {fetch : UInt64 → Dialogue σ (List Enrichment)} (wanted : Bool)
    (orderly : Orderly endpoint fetch) :
    Orderly endpoint fun height => fetchIf wanted (fetch height) := by
  cases wanted with
  | true => exact orderly.map
  | false => exact .of_detached (.pure _)

theorem orderly_enrich (demand : Demand) (finalized : Option UInt64)
    (blocks : List FetchedBlock) :
    Orderly endpoint fun height =>
      (endpoint.withGenesisHeight height).enrich demand finalized blocks := by
  unfold enrich
  split
  · exact .of_detached (.pure _)
  · exact (endpoint.orderly_fetchIf demand.logs
        (.of_detached (endpoint.detached_fetchLogs blocks))).bind fun _ =>
      (endpoint.orderly_fetchIf demand.receipts
        (endpoint.orderly_fetchReceipts blocks)).bind fun _ =>
      (endpoint.orderly_fetchIf (demand.traces || demand.stateDiffs)
        (endpoint.orderly_fetchTraces demand finalized blocks)).bind fun _ =>
      .of_detached (.pure _)

theorem orderly_mendDefective (demand : Demand) (sources : List FetchedBlock) (attempts : UInt32)
    (enriched : List FetchedBlock) :
    Orderly endpoint fun height =>
      (endpoint.withGenesisHeight height).mendDefective demand sources attempts enriched := by
  induction attempts, enriched using mendDefective.induct endpoint with
  | case1 attempts enriched settled =>
      unfold mendDefective
      rw [settled]
      exact .of_detached (.pure _)
  | case2 attempts enriched block defect found fault stops =>
      simp only [mendDefective_of_defect found, nextAttempt_withGenesisHeight, stops]
      exact .of_detached (.throw _)
  | case3 attempts enriched block defect found next counts ih =>
      simp only [mendDefective_of_defect found, nextAttempt_withGenesisHeight, counts]
      exact (endpoint.orderly_enrich demand none _).bind fun again => ih _

theorem orderly_enrichFinalized (demand : Demand) (blocks : List FetchedBlock) :
    Orderly endpoint fun height =>
      (endpoint.withGenesisHeight height).enrichFinalized demand blocks :=
  (endpoint.orderly_enrich demand none blocks).bind fun enriched =>
    endpoint.orderly_mendDefective demand blocks 1 enriched

theorem orderly_finalizedSplit (heights : List UInt64) (demand : Demand) :
    Orderly endpoint fun height =>
      (endpoint.withGenesisHeight height).finalizedSplit heights demand :=
  Orderly.bind (.of_detached (endpoint.detached_finalizedBlocks heights demand.transactions))
    fun blocks => endpoint.orderly_enrichFinalized demand blocks

theorem orderly_finalizedBlock (hash : Hash) (demand : Option Demand)
    (finalized : Option UInt64) :
    Orderly endpoint fun height =>
      (endpoint.withGenesisHeight height).finalizedBlock hash demand finalized := by
  refine Orderly.bind (.of_detached (endpoint.detached_blockByHash hash _)) fun block => ?_
  cases block with
  | none => exact .of_detached (.throw _)
  | some block =>
      rcases demand with _ | demand
      on_goal 1 => refine Orderly.bind (.of_detached (.pure _)) fun enriched => ?_
      on_goal 2 => refine (endpoint.orderly_enrich demand finalized _).bind fun enriched => ?_
      all_goals
        dsimp only
        split
        · exact .of_detached (.pure _)
        · exact .of_detached (.throw _)

theorem orderly_headSplit (first last : UInt64) (demand : Demand) (finalized : UInt64) :
    Orderly endpoint fun height =>
      (endpoint.withGenesisHeight height).headSplit first last demand finalized :=
  Orderly.bind
    (.of_detached (endpoint.detached_blockBatch (heightsBetween first last) demand.transactions))
    fun slots => (endpoint.orderly_enrich demand (some finalized) (linkedPart none slots)).bind
      fun _ => .of_detached (.pure _)

theorem orderly_liftExcept {α : Type} (result : Except Fault α) :
    Orderly endpoint fun _ => (finalizedBatch.liftExcept result : Dialogue σ α) := by
  cases result with
  | ok value => exact .of_detached (.pure _)
  | error fault => exact .of_detached (.throw _)

theorem orderly_finalizedBatch (heights : List UInt64) (demand : Demand) :
    Orderly endpoint fun height =>
      (endpoint.withGenesisHeight height).finalizedBatch heights demand :=
  (endpoint.orderly_finalizedSplit heights demand).bind fun _ =>
    (endpoint.orderly_liftExcept _).bind fun _ => .of_detached (.pure _)

theorem orderly_hotBatch (first last finalized : UInt64) (demand : Demand) :
    Orderly endpoint fun height =>
      (endpoint.withGenesisHeight height).hotBatch first last finalized demand := by
  refine (endpoint.orderly_headSplit first last demand finalized).bind fun fetched =>
    (endpoint.orderly_liftExcept _).bind fun blocks => ?_
  split
  · exact .of_detached (.pure _)
  · exact Orderly.bind (.of_detached endpoint.detached_chainHeight) fun _ => .of_detached (.pure _)

end Endpoint

/-! ## Operations -/

/-- What an endpoint is used for. -/
inductive Operation where
  | chainHeight
  | genesisHash
  | receiptsMethod
  | blockHash (number : UInt64)
  | blockByHeight (number : UInt64) (full : Bool)
  | blockByHash (hash : Hash) (full : Bool)
  | blockBatch (heights : List UInt64) (full : Bool)
  | logsBetween (first last : UInt64)
  | logsByReceipts (number : UInt64)
  | enrich (demand : Demand) (finalized : Option UInt64) (blocks : List FetchedBlock)
  | enrichFinalized (demand : Demand) (blocks : List FetchedBlock)
  | finalizedBlocks (heights : List UInt64) (full : Bool)
  | finalizedSplit (heights : List UInt64) (demand : Demand)
  | finalizedBlock (hash : Hash) (demand : Option Demand) (finalized : Option UInt64)
  | finalizedBatch (heights : List UInt64) (demand : Demand)
  | headSplit (first last : UInt64) (demand : Demand) (finalized : UInt64)
  | hotBatch (first last finalized : UInt64) (demand : Demand)

namespace Operation

/-- The dialogue of an operation, without its value. -/
def dialogue (endpoint : Endpoint σ) : Operation → Dialogue σ Unit
  | chainHeight => discard endpoint.chainHeight
  | genesisHash => discard endpoint.genesisHash
  | receiptsMethod => discard endpoint.receiptsMethod
  | blockHash number => discard (endpoint.blockHash number)
  | blockByHeight number full => discard (endpoint.blockByHeight number full)
  | blockByHash hash full => discard (endpoint.blockByHash hash full)
  | blockBatch heights full => discard (endpoint.blockBatch heights full)
  | logsBetween first last => discard (endpoint.logsBetween first last)
  | logsByReceipts number => discard (endpoint.logsByReceipts number)
  | enrich demand finalized blocks => discard (endpoint.enrich demand finalized blocks)
  | enrichFinalized demand blocks => discard (endpoint.enrichFinalized demand blocks)
  | finalizedBlocks heights full => discard (endpoint.finalizedBlocks heights full)
  | finalizedSplit heights demand => discard (endpoint.finalizedSplit heights demand)
  | finalizedBlock hash demand finalized =>
      discard (endpoint.finalizedBlock hash demand finalized)
  | finalizedBatch heights demand => discard (endpoint.finalizedBatch heights demand)
  | headSplit first last demand finalized =>
      discard (endpoint.headSplit first last demand finalized)
  | hotBatch first last finalized demand =>
      discard (endpoint.hotBatch first last finalized demand)

end Operation

namespace Endpoint

open Dialogue

variable (endpoint : Endpoint σ)

theorem orderly_operation (operation : Operation) :
    Orderly endpoint fun height => operation.dialogue (endpoint.withGenesisHeight height) := by
  cases operation with
  | chainHeight => exact (Orderly.of_detached endpoint.detached_chainHeight).map
  | genesisHash => exact endpoint.orderly_genesisHash.map
  | receiptsMethod => exact endpoint.orderly_receiptsMethod.map
  | blockHash number => exact (Orderly.of_detached (endpoint.detached_blockHash number)).map
  | blockByHeight number full =>
      exact (Orderly.of_detached (endpoint.detached_blockByHeight number full)).map
  | blockByHash hash full =>
      exact (Orderly.of_detached (endpoint.detached_blockByHash hash full)).map
  | blockBatch heights full =>
      exact (Orderly.of_detached (endpoint.detached_blockBatch heights full)).map
  | logsBetween first last =>
      exact (Orderly.of_detached (endpoint.detached_logsBetween first last)).map
  | logsByReceipts number =>
      exact (Orderly.of_detached (endpoint.detached_logsByReceipts number)).map
  | enrich demand finalized blocks =>
      exact (endpoint.orderly_enrich demand finalized blocks).map
  | enrichFinalized demand blocks => exact (endpoint.orderly_enrichFinalized demand blocks).map
  | finalizedBlocks heights full =>
      exact (Orderly.of_detached (endpoint.detached_finalizedBlocks heights full)).map
  | finalizedSplit heights demand =>
      exact (endpoint.orderly_finalizedSplit heights demand).map
  | finalizedBlock hash demand finalized =>
      exact (endpoint.orderly_finalizedBlock hash demand finalized).map
  | finalizedBatch heights demand =>
      exact (endpoint.orderly_finalizedBatch heights demand).map
  | headSplit first last demand finalized =>
      exact (endpoint.orderly_headSplit first last demand finalized).map
  | hotBatch first last finalized demand =>
      exact (endpoint.orderly_hotBatch first last finalized demand).map

/-! ## Runs -/

/-- What an operation does with a hint of priority, for each height of the block that identifies
the chain. -/
def attempt (priority : UInt32) (operation : Operation) (height : UInt64) : Dialogue σ Unit :=
  operation.dialogue ((endpoint.withPriority priority).withGenesisHeight height)

/-- Performs operations one after the other, each with a hint of priority and however the one
before ended. -/
def perform : List (UInt32 × Operation) → Session σ → Session σ
  | [], session => session
  | (priority, operation) :: later, session =>
      perform later ((operation.dialogue (endpoint.withPriority priority)).run.run session).2

/-- Whether the hash that identifies the chain is known for good: whatever is done from then on,
the block is not asked for, the hash is kept, and traces are fetched in the way of its chain. -/
structure Settled (hash : Hash) (session : Session σ) : Prop where
  known : session.memo.genesisHash = some hash
  notAsked : ∀ later height,
    (endpoint.withGenesisHeight height).perform later session = endpoint.perform later session
  stays : ∀ later, Stays session (endpoint.perform later session)
  strategy : ∀ later priority demand finalized blocks,
    ((endpoint.withPriority priority).fetchTraces demand finalized blocks).run.run
        (endpoint.perform later session) =
      ((endpoint.withPriority priority).tracesOn demand finalized blocks hash).run.run
        (endpoint.perform later session)

/-- The course that operations take from a session on in which it is unknown which chain it is. -/
inductive Undetermined : List (UInt32 × Operation) → Session σ → Prop
  /-- It stays unknown. -/
  | over {session : Session σ} (unknown : session.memo.genesisHash = none) :
      Undetermined [] session
  /-- The operation does not come to ask for the block, and goes the same way whichever it is. -/
  | spared {priority : UInt32} {operation : Operation} {later : List (UInt32 × Operation)}
      {session final : Session σ} {outcome : Except Fault Unit}
      (notAsked : ∀ asked rest,
        ¬Inquires endpoint (endpoint.attempt priority operation) session asked rest)
      (run_eq : ∀ height, (endpoint.attempt priority operation height).run.run session =
        (outcome, final))
      (stays : Stays session final) (next : Undetermined later final) :
      Undetermined ((priority, operation) :: later) session
  /-- The operation asks for the block, gets none and fails. -/
  | refused {priority : UInt32} {operation : Operation} {later : List (UInt32 × Operation)}
      {session asked : Session σ} {rest : Hash → Dialogue σ Unit} {fault : Fault}
      (inquires : Inquires endpoint (endpoint.attempt priority operation) session asked rest)
      (noBlock : endpoint.probedHash? asked = none)
      (run_eq : (operation.dialogue (endpoint.withPriority priority)).run.run session =
        (.error fault, endpoint.afterProbe asked))
      (next : Undetermined later (endpoint.afterProbe asked)) :
      Undetermined ((priority, operation) :: later) session
  /-- The operation asks for the block, gets it and goes on with its hash. -/
  | found {priority : UInt32} {operation : Operation} {later : List (UInt32 × Operation)}
      {session asked final : Session σ} {rest : Hash → Dialogue σ Unit} {hash : Hash}
      {outcome : Except Fault Unit}
      (inquires : Inquires endpoint (endpoint.attempt priority operation) session asked rest)
      (answered : endpoint.probedHash? asked = some hash)
      (run_eq : (operation.dialogue (endpoint.withPriority priority)).run.run session =
        (rest hash).run.run ((endpoint.afterProbe asked).knowing hash))
      (ends : (rest hash).run.run ((endpoint.afterProbe asked).knowing hash) = (outcome, final))
      (stays : Stays ((endpoint.afterProbe asked).knowing hash) final)
      (settled : endpoint.Settled hash final) :
      Undetermined ((priority, operation) :: later) session

variable {endpoint}

theorem orderly_attempt (endpoint : Endpoint σ) (priority : UInt32) (operation : Operation) :
    Orderly endpoint (endpoint.attempt priority operation) :=
  ((endpoint.withPriority priority).orderly_operation operation).of_withPriority

theorem settled_of_known {hash : Hash} {session : Session σ}
    (known : session.memo.genesisHash = some hash) : endpoint.Settled hash session := by
  have goesOn : ∀ (later : List (UInt32 × Operation)) (session : Session σ),
      session.memo.genesisHash = some hash →
        (∀ height, (endpoint.withGenesisHeight height).perform later session =
          endpoint.perform later session) ∧ Stays session (endpoint.perform later session) := by
    intro later
    induction later with
    | nil => exact fun session _ => ⟨fun _ => rfl, .refl session⟩
    | cons entry later ih =>
        obtain ⟨priority, operation⟩ := entry
        intro session known
        obtain ⟨ending, same, stays⟩ :=
          (endpoint.orderly_attempt priority operation).spared_of_known known
        have own : (operation.dialogue (endpoint.withPriority priority)).run.run session = ending :=
          same endpoint.config.genesisHeight
        obtain ⟨sameLater, staysLater⟩ := ih ending.2 (stays.1.trans known)
        refine ⟨fun height => ?_, ?_⟩
        · have other : (operation.dialogue
              ((endpoint.withGenesisHeight height).withPriority priority)).run.run session =
                ending := same height
          rw [perform, perform, own, other, sameLater]
        · rw [perform, own]
          exact stays.trans staysLater
  refine ⟨known, fun later height => (goesOn later session known).1 height,
    fun later => (goesOn later session known).2, ?_⟩
  intro later priority demand finalized blocks
  exact run_fetchTraces_of_known ((goesOn later session known).2.1.trans known)

theorem knowsReceipts_perform (endpoint : Endpoint σ) (operations : List (UInt32 × Operation))
    {session : Session σ} (known : session.KnowsReceipts) :
    (endpoint.perform operations session).KnowsReceipts := by
  induction operations generalizing session with
  | nil => exact known
  | cons entry later ih =>
      obtain ⟨priority, operation⟩ := entry
      exact ih ((endpoint.orderly_attempt priority operation).receipts
        endpoint.config.genesisHeight session known)

theorem undetermined_of_unknown (endpoint : Endpoint σ)
    (operations : List (UInt32 × Operation)) {session : Session σ}
    (unknown : session.memo.genesisHash = none) : endpoint.Undetermined operations session := by
  induction operations generalizing session with
  | nil => exact .over unknown
  | cons entry later ih =>
      obtain ⟨priority, operation⟩ := entry
      rcases (endpoint.orderly_attempt priority operation).genesis session with
        ⟨⟨outcome, final⟩, same, stays⟩ | ⟨asked, rest, inquires⟩
      · have notAsked (asked : Session σ) (rest : Hash → Dialogue σ Unit) :
            ¬Inquires endpoint (endpoint.attempt priority operation) session asked rest :=
          fun inquires => inquires.not_spared ⟨(outcome, final), same, stays⟩
        exact .spared notAsked same stays (ih (stays.1.trans unknown))
      · have run_eq : (operation.dialogue (endpoint.withPriority priority)).run.run session =
            (endpoint.genesisHash >>= rest).run.run asked :=
          inquires.run_eq endpoint.config.genesisHeight
        have asks := endpoint.asksFirst_genesisHash_bind rest asked inquires.unknown
        cases answered : endpoint.probedHash? asked with
        | none =>
            rw [answered] at asks
            obtain ⟨fault, run⟩ := asks
            exact .refused inquires answered (run_eq.trans run) (ih inquires.unknown)
        | some hash =>
            rw [answered] at asks
            have stays := inquires.after hash ((endpoint.afterProbe asked).knowing hash) rfl
            exact .found inquires answered (run_eq.trans asks) rfl stays (settled_of_known stays.1)

/-- Over any run of operations each receipts method is tried once at most, and receipts are
fetched by the method that was decided for then.  The block that identifies the chain is asked for
by the operations that come to need it, until it is answered for the first time, and from then on
its hash is used whatever the node answers.  To need it is to be asked for the hash or for traces:
as long as the hash is unknown, both ask for the block, however often it was refused before. -/
theorem perform_start (endpoint : Endpoint σ) (operations : List (UInt32 × Operation)) (node : σ) :
    let final := endpoint.perform operations (.start node)
    ReceiptsKnown final.memo.receiptsMethod final.transcript ∧
      (∀ tried, tried ≠ .transactionReceipt →
        final.transcript.countP (Exchange.tries tried) ≤ 1) ∧
      endpoint.Undetermined operations (.start node) ∧
      ∀ priority, endpoint.AsksFirst (endpoint.withPriority priority).genesisHash pure ∧
        ∀ demand finalized blocks,
          endpoint.AsksFirst
            ((endpoint.withPriority priority).fetchTraces demand finalized blocks)
            ((endpoint.withPriority priority).tracesOn demand finalized blocks) := by
  have known : (endpoint.perform operations (.start node)).KnowsReceipts :=
    endpoint.knowsReceipts_perform operations fun _ member => absurd member List.not_mem_nil
  exact ⟨known, fun _ isTried => known.countP_tries_le isTried,
    endpoint.undetermined_of_unknown operations rfl, fun priority =>
      ⟨(endpoint.withPriority priority).asksFirst_genesisHash,
        (endpoint.withPriority priority).asksFirst_fetchTraces⟩⟩

/-- A node that answers no block the first time, and a different one each time afterwards. -/
def wanderingNode : Node Nat where
  url := ""
  answer _ _ count :=
    let zeroHash := Json.arr (List.replicate 32 (.int 0))
    let block := Json.obj
      [ ("number", .str "0x0"), ("hash", .arr (List.replicate 32 (.int count))),
        ("parentHash", zeroHash), ("logsBloom", .arr (List.replicate 256 (.int 0))),
        ("transactions", .arr []) ]
    (.ok (if count = 0 then .null else block), count + 1)
  answerBatch _ _ count := (.error (.transport ""), count)

/-- The second operation gets the block, and the third one does not ask for it. -/
example :
    let operations := [(0, .genesisHash), (7, .genesisHash), (0, .genesisHash)]
    let final := (Endpoint.of wanderingNode .standard).perform operations (.start 0)
    final.node = 2 ∧ final.memo.genesisHash.map FixedBytes.toList = some (List.replicate 32 1) := by
  decide +kernel

end Endpoint

end ChainFeed
