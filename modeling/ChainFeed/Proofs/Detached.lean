import ChainFeed.Engine.Finalized
import ChainFeed.Engine.Head
import ChainFeed.Proofs.LogRanges
import ChainFeed.Proofs.Topics

/-!
# Dialogues apart from what is known

Most dialogues make no use of what is known about an endpoint and find nothing out: they go the
same way whatever is known and whichever block identifies the chain.  What they talk about is
that blocks, logs and single receipts are looked up; and the ways to fetch receipts and traces
are such dialogues too, once it is known which of them to take.
-/

namespace ChainFeed

variable {σ α β : Type}

/-- The same endpoint with another block to identify the chain by. -/
def Endpoint.withGenesisHeight (endpoint : Endpoint σ) (height : UInt64) : Endpoint σ :=
  { endpoint with config := { endpoint.config with genesisHeight := height } }

namespace Dialogue

/-- Whether a dialogue goes the same way for every height of the block that identifies the chain
and whatever is known, finds nothing out, and all that is said has a property. -/
def Detached (topic : Exchange → Prop) (dialogue : UInt64 → Dialogue σ α) : Prop :=
  ∀ (node : σ) (record : List Exchange), ∃ outcome next said,
    (∀ exchange ∈ said, topic exchange) ∧
      ∀ height memo, (dialogue height).run.run ⟨node, memo, record⟩ =
        (outcome, ⟨next, memo, record ++ said⟩)

variable {topic : Exchange → Prop} {dialogue : UInt64 → Dialogue σ α}

namespace Detached

theorem pure (value : α) : Detached topic fun _ => (Pure.pure value : Dialogue σ α) := by
  refine fun node record => ⟨.ok value, node, [], List.forall_mem_nil _, fun _ memo => ?_⟩
  rw [List.append_nil]
  rfl

/-- A value in which the height has no part. -/
theorem pure_of_eq {value : UInt64 → α} (same : ∀ height, value height = value 0) :
    Detached topic fun height => (Pure.pure (value height) : Dialogue σ α) := by
  simp only [same]
  exact pure (value 0)

theorem throw (fault : Fault) :
    Detached topic fun _ => (MonadExcept.throw fault : Dialogue σ α) := by
  refine fun node record => ⟨.error fault, node, [], List.forall_mem_nil _, fun _ memo => ?_⟩
  rw [List.append_nil]
  rfl

theorem bind {next : UInt64 → α → Dialogue σ β} (first : Detached topic dialogue)
    (later : ∀ value, Detached topic fun height => next height value) :
    Detached topic fun height => dialogue height >>= next height := by
  intro node record
  obtain ⟨outcome, middle, said, onTopic, run⟩ := first node record
  cases outcome with
  | error fault =>
      refine ⟨.error fault, middle, said, onTopic, fun height memo => ?_⟩
      rw [run_bind, run, continueWith_error]
  | ok value =>
      obtain ⟨ending, last, more, moreOnTopic, runLater⟩ := later value middle (record ++ said)
      refine ⟨ending, last, said ++ more, List.forall_mem_append.mpr ⟨onTopic, moreOnTopic⟩, ?_⟩
      intro height memo
      rw [run_bind, run, continueWith_ok, runLater, List.append_assoc]

theorem map {function : α → β} (detached : Detached topic dialogue) :
    Detached topic fun height => function <$> dialogue height := by
  simp only [map_eq_pure_bind]
  exact detached.bind fun value => pure _

theorem mapM {act : UInt64 → α → Dialogue σ β}
    (each : ∀ item, Detached topic fun height => act height item) (items : List α) :
    Detached topic fun height => items.mapM (act height) := by
  induction items with
  | nil => exact pure _
  | cons item rest ih =>
      simp only [List.mapM_cons]
      exact (each item).bind fun _ => ih.bind fun _ => pure _

/-- What a detached dialogue leaves behind. -/
theorem run_eq (detached : Detached topic dialogue) (session : Session σ) :
    ∃ outcome next said, (∀ exchange ∈ said, topic exchange) ∧
      ∀ height, (dialogue height).run.run session =
        (outcome, ⟨next, session.memo, session.transcript ++ said⟩) := by
  obtain ⟨outcome, next, said, onTopic, run⟩ := detached session.node session.transcript
  exact ⟨outcome, next, said, onTopic, fun height => run height session.memo⟩

end Detached

end Dialogue

/-! ## What dialogues are about -/

/-- The methods that look up blocks, logs and the receipt of one transaction. -/
def lookupMethods : List String :=
  ["eth_blockNumber", "eth_getBlockByNumber", "eth_getBlockByHash", "eth_getLogs",
    "eth_getTransactionReceipt"]

/-- Whether an exchange is a lookup. Of lookups only those of blocks are made in batches. -/
def Exchange.IsLookup : Exchange → Prop
  | .single call _ _ => call.method ∈ lookupMethods
  | .batch calls _ _ => ∀ call ∈ calls, call.method = "eth_getBlockByNumber"

/-- Whether an exchange is a batch of calls of some methods. -/
def Exchange.IsBatchOf (methods : List String) : Exchange → Prop
  | .single _ _ _ => False
  | .batch calls _ _ => ∀ call ∈ calls, call.method ∈ methods

namespace Endpoint

open Dialogue

variable {endpoint : Endpoint σ} {topic : Exchange → Prop}

/-! ## Calls -/

theorem detached_ask (call : Call) (options : CallOptions)
    (onTopic : ∀ reply, topic (.single call options reply)) :
    Detached topic fun height => (endpoint.withGenesisHeight height).ask call options := by
  intro node record
  let answered := endpoint.node.answer call options node
  exact ⟨.ok answered.1, answered.2, [.single call options answered.1],
    List.forall_mem_singleton.mpr (onTopic _), fun _ _ => rfl⟩

theorem detached_askBatch (calls : List Call) (options : CallOptions)
    (onTopic : ∀ reply, topic (.batch calls options reply)) :
    Detached topic fun height => (endpoint.withGenesisHeight height).askBatch calls options := by
  intro node record
  let answered := endpoint.node.answerBatch calls options node
  exact ⟨.ok answered.1, answered.2, [.batch calls options answered.1],
    List.forall_mem_singleton.mpr (onTopic _), fun _ _ => rfl⟩

theorem detached_answered (reply : Except NodeFailure α) :
    Detached topic fun _ => (answered reply : Dialogue σ α) := by
  cases reply with
  | error failure => exact .throw _
  | ok value => exact .pure _

theorem detached_decoded (method : String) (read : Json → Option α) (answer : Json) :
    Detached topic fun _ => (decoded method read answer : Dialogue σ α) := by
  unfold decoded
  cases read answer with
  | none => exact .throw _
  | some value => exact .pure _

theorem detached_call (call : Call) (options : CallOptions) (read : Json → Option α)
    (onTopic : ∀ reply, topic (.single call options reply)) :
    Detached topic fun height => (endpoint.withGenesisHeight height).call call options read :=
  (detached_ask call options onTopic).bind fun reply => (detached_answered reply).bind fun answer =>
    detached_decoded _ read answer

theorem detached_batchRaw (calls : List Call) (options : CallOptions)
    (onTopic : ∀ reply, topic (.batch calls options reply)) :
    Detached topic fun height => (endpoint.withGenesisHeight height).batchRaw calls options := by
  cases calls with
  | nil => exact .pure _
  | cons first rest =>
      refine (detached_askBatch (first :: rest) options onTopic).bind fun reply =>
        (detached_answered reply).bind fun answers => ?_
      split
      · exact .pure _
      · exact .throw _

theorem detached_batch (calls : List Call) (options : CallOptions) (read : Json → Option α)
    (onTopic : ∀ reply, topic (.batch calls options reply)) :
    Detached topic fun height => (endpoint.withGenesisHeight height).batch calls options read :=
  (detached_batchRaw calls options onTopic).bind fun _ =>
    .mapM (fun _ => detached_decoded _ read _) _

theorem detached_fetchIf {fetch : UInt64 → Dialogue σ (List Enrichment)} (wanted : Bool)
    (detached : Detached topic fetch) :
    Detached topic fun height => fetchIf wanted (fetch height) := by
  cases wanted with
  | true => exact detached.map
  | false => exact .pure _

/-! ## Lookups -/

variable (endpoint)

theorem detached_chainHeight :
    Detached Exchange.IsLookup fun height => (endpoint.withGenesisHeight height).chainHeight :=
  detached_call _ endpoint.options _ fun _ => by simp [Exchange.IsLookup, lookupMethods]

theorem detached_blockByHeight (number : UInt64) (full : Bool) :
    Detached Exchange.IsLookup fun height =>
      (endpoint.withGenesisHeight height).blockByHeight number full :=
  detached_call (blockCall number full) endpoint.options _ fun _ => by
    simp [Exchange.IsLookup, lookupMethods, blockCall]

theorem detached_blockByHash (hash : Hash) (full : Bool) :
    Detached Exchange.IsLookup fun height =>
      (endpoint.withGenesisHeight height).blockByHash hash full :=
  detached_call _ endpoint.options _ fun _ => by simp [Exchange.IsLookup, lookupMethods]

theorem detached_blockHash (number : UInt64) :
    Detached Exchange.IsLookup fun height => (endpoint.withGenesisHeight height).blockHash number :=
  (endpoint.detached_blockByHeight number false).bind fun _ => .pure _

theorem detached_blockBatch (heights : List UInt64) (full : Bool) :
    Detached Exchange.IsLookup fun height =>
      (endpoint.withGenesisHeight height).blockBatch heights full := by
  refine (detached_batch _ (endpoint.tolerating .unfinalized) _ fun _ => ?_).bind fun _ => .pure _
  simp [Exchange.IsLookup, blockCall]

/-- Attempts are counted alike whichever block identifies the chain. -/
theorem nextAttempt_withGenesisHeight (height : UInt64) (attempts : UInt32) (fault : Fault) :
    (endpoint.withGenesisHeight height).config.nextAttempt attempts fault =
      endpoint.config.nextAttempt attempts fault := rfl

theorem detached_completeSlots (heights : List UInt64) (full : Bool) (attempts : UInt32)
    (slots : List (Option FetchedBlock)) :
    Detached Exchange.IsLookup fun height =>
      (endpoint.withGenesisHeight height).completeSlots heights full attempts slots := by
  induction attempts, slots using completeSlots.induct endpoint heights with
  | case1 attempts slots settled =>
      unfold completeSlots
      rw [settled]
      exact .pure _
  | case2 attempts slots first rest missing fault stops =>
      simp only [completeSlots_of_missing missing, nextAttempt_withGenesisHeight, stops]
      exact .throw _
  | case3 attempts slots first rest missing next counts ih =>
      simp only [completeSlots_of_missing missing, nextAttempt_withGenesisHeight, counts]
      exact (endpoint.detached_blockBatch (first :: rest) full).bind ih

theorem detached_finalizedBlocks (heights : List UInt64) (full : Bool) :
    Detached Exchange.IsLookup fun height =>
      (endpoint.withGenesisHeight height).finalizedBlocks heights full :=
  (endpoint.detached_blockBatch heights full).bind fun _ =>
    endpoint.detached_completeSlots heights full 1 _

theorem detached_logsByReceipts (number : UInt64) :
    Detached Exchange.IsLookup fun height =>
      (endpoint.withGenesisHeight height).logsByReceipts number := by
  refine (endpoint.detached_blockByHeight number false).bind fun block => ?_
  cases block with
  | none => exact .pure _
  | some block =>
      refine Detached.bind (.mapM (fun hash => ?_) _) fun receipts => ?_
      · exact detached_call (receiptCall hash) endpoint.options _ fun _ => by
          simp [Exchange.IsLookup, lookupMethods, receiptCall, ReceiptsMethod.name]
      · split <;> exact .pure _

theorem detached_logsBetween (first last : UInt64) :
    Detached Exchange.IsLookup fun height =>
      (endpoint.withGenesisHeight height).logsBetween first last := by
  induction size : last.toNat - first.toNat using Nat.strongRecOn generalizing first last with
  | ind size ih =>
      unfold logsBetween
      refine (detached_ask (logsCall first last) (endpoint.tolerating .logsOutOfRange)
        fun _ => by simp [Exchange.IsLookup, lookupMethods, logsCall]).bind fun reply => ?_
      cases reply with
      | ok answer => exact detached_decoded _ _ _
      | error failure =>
          dsimp only
          split
          case isFalse => exact .throw _
          case isTrue =>
            split
            case isTrue proper =>
              obtain ⟨_, atLeast, below⟩ := proper
              obtain ⟨_, shorterLeft, shorterRight⟩ := parts_within atLeast below
              exact (ih _ (size ▸ shorterLeft) _ _ rfl).bind fun left =>
                (ih _ (size ▸ shorterRight) _ _ rfl).bind fun right => .pure _
            case isFalse =>
              exact Detached.bind (.mapM endpoint.detached_logsByReceipts _) fun _ => .pure _

theorem detached_fetchLogs (blocks : List FetchedBlock) :
    Detached Exchange.IsLookup fun height =>
      (endpoint.withGenesisHeight height).fetchLogs blocks := by
  cases blocks with
  | nil => exact .pure _
  | cons first rest =>
      exact (endpoint.detached_logsBetween _ _).bind fun logs => .pure_of_eq fun _ => rfl

/-! ## Receipts and traces -/

variable {methods : List String}

/-- A batch with a call for each of some items. -/
theorem isBatchOf_map {call : α → Call} (each : ∀ item, (call item).method ∈ methods)
    (items : List α) (options : CallOptions) (reply : Except NodeFailure (List Json)) :
    Exchange.IsBatchOf methods (.batch (items.map call) options reply) := by
  intro made member
  obtain ⟨item, _, rfl⟩ := List.mem_map.mp member
  exact each item

theorem detached_receiptsByBlock (method : ReceiptsMethod) (blocks : List FetchedBlock) :
    Detached (Exchange.IsBatchOf [method.name]) fun height =>
      (endpoint.withGenesisHeight height).receiptsByBlock method blocks := by
  refine (detached_batch _ endpoint.options _ (isBatchOf_map (fun block => ?_) _ _)).bind
    fun answers => .pure_of_eq fun _ => rfl
  cases method <;> exact List.mem_singleton_self _

theorem detached_receiptsByTransaction (blocks : List FetchedBlock) :
    Detached (Exchange.IsBatchOf [ReceiptsMethod.transactionReceipt.name]) fun height =>
      (endpoint.withGenesisHeight height).receiptsByTransaction blocks := by
  refine (detached_batch _ endpoint.options _ (isBatchOf_map (fun _ => ?_) _ _)).bind
    fun answers => .pure_of_eq fun _ => rfl
  exact List.mem_singleton_self _

theorem detached_fetchReplays {method : String} (member : method ∈ methods)
    (outputs : ReplayOutputs) (blocks : List FetchedBlock) :
    Detached (Exchange.IsBatchOf methods) fun height =>
      (endpoint.withGenesisHeight height).fetchReplays method outputs blocks := by
  unfold fetchReplays
  split
  · exact .pure _
  · refine (detached_batch _ endpoint.options _ (isBatchOf_map (fun _ => member) _ _)).bind
      fun answers => .mapM (fun (block, replays) => ?_) _
    dsimp only
    split
    · exact .pure _
    · exact .throw _

theorem detached_fetchTraceBlocks (member : "trace_block" ∈ methods)
    (blocks : List FetchedBlock) :
    Detached (Exchange.IsBatchOf methods) fun height =>
      (endpoint.withGenesisHeight height).fetchTraceBlocks blocks :=
  (detached_batch _ endpoint.options _ (isBatchOf_map (fun _ => member) _ _)).bind fun _ =>
    .pure_of_eq fun _ => rfl

theorem detached_traceByDebug (member : debugMethod ∈ methods) (param : Json)
    (blocks : List FetchedBlock) :
    Detached (Exchange.IsBatchOf methods) fun height =>
      (endpoint.withGenesisHeight height).traceByDebug param blocks :=
  detached_batchRaw _ (endpoint.tolerating .notFound) (isBatchOf_map (fun _ => member) _ _)

theorem detached_fetchCallTrees (member : debugMethod ∈ methods) (blocks : List FetchedBlock) :
    Detached (Exchange.IsBatchOf methods) fun height =>
      (endpoint.withGenesisHeight height).fetchCallTrees blocks := by
  refine (endpoint.detached_traceByDebug member
    (endpoint.tracerParam "callTracer" "withLog" false) blocks).bind fun answers =>
      .mapM (fun (block, answer) => (detached_decoded _ _ _).bind fun results => ?_) _
  cases results <;> exact .pure _

theorem detached_fetchPrestates (member : debugMethod ∈ methods) (blocks : List FetchedBlock) :
    Detached (Exchange.IsBatchOf methods) fun height =>
      (endpoint.withGenesisHeight height).fetchPrestates blocks := by
  refine (endpoint.detached_traceByDebug member
    (endpoint.tracerParam "prestateTracer" "diffMode" true) blocks).bind fun answers =>
      .mapM (fun (block, answer) => (detached_decoded _ _ _).bind fun results => ?_) _
  cases results <;> exact .pure _

theorem detached_fetchByPlan (demand : Demand) (finalized : Option UInt64)
    (blocks : List FetchedBlock) :
    Detached (Exchange.IsBatchOf [debugMethod, "trace_block", replayMethod]) fun height =>
      (endpoint.withGenesisHeight height).fetchByPlan demand finalized blocks := by
  let unfinalized := finalized.any fun height => decide (height < highest blocks)
  let plan :=
    TracePlan.of demand endpoint.config.preferTraceApi endpoint.config.debugStateDiffs unfinalized
  exact (detached_fetchIf plan.prestates
      (endpoint.detached_fetchPrestates (by simp) blocks)).bind fun _ =>
    (detached_fetchIf plan.traceBlock
      (endpoint.detached_fetchTraceBlocks (by simp) blocks)).bind fun _ =>
    (detached_fetchIf plan.callTrees
      (endpoint.detached_fetchCallTrees (by simp) blocks)).bind fun _ =>
    (detached_fetchIf (!plan.replay.isEmpty)
      (endpoint.detached_fetchReplays (by simp) plan.replay blocks)).bind fun _ => .pure _

theorem detached_fetchByProfile (profile : ChainProfile) (demand : Demand)
    (blocks : List FetchedBlock) :
    Detached (Exchange.IsBatchOf [debugMethod, profile.replayMethod]) fun height =>
      (endpoint.withGenesisHeight height).fetchByProfile profile demand blocks := by
  unfold fetchByProfile
  dsimp only
  split
  case isTrue => exact .throw _
  case isFalse =>
    split
    · exact .pure _
    · exact (endpoint.detached_fetchReplays (by simp) ⟨true, false⟩ _).bind fun _ =>
        (endpoint.detached_fetchCallTrees (by simp) _).bind fun _ => .pure _

end Endpoint

end ChainFeed
