import ChainFeed.Proofs.Composition
import ChainFeed.Proofs.Consistency
import ChainFeed.Proofs.Sharing
import ChainFeed.Proofs.Splits

/-!
# Receipts and logs by any method

A node that has the same receipts by every method leaves no trace of the method in the
blocks.  And where it lists the logs that the receipts carry, logs can be built from either
of the two.
-/

namespace ChainFeed

open Dialogue

namespace Raw.Block

/-- The receipts of a block, given those of its transactions. -/
def receiptsBy (receiptOf : Hash → Receipt) (block : Block) : List Receipt :=
  block.transactions.toHashes.map receiptOf

/-- Whether the receipts of the transactions of a block name them and the block, and carry
logs. -/
def ReceiptsName (receiptOf : Hash → Receipt) (block : Block) : Prop :=
  ∀ hash ∈ block.transactions.toHashes, (receiptOf hash).transactionHash = hash ∧
    (receiptOf hash).blockHash = block.hash ∧ (receiptOf hash).logs.isSome = true

theorem length_receiptsBy (block : Block) (receiptOf : Hash → Receipt) :
    (block.receiptsBy receiptOf).length = block.transactions.length :=
  List.length_map _

/-- The block with its receipts. -/
def withReceipts (receiptOf : Hash → Receipt) (block : Block) : FetchedBlock :=
  ⟨block, { Enrichment.empty with receipts := some (block.receiptsBy receiptOf) }⟩

/-- The block with the logs of its receipts as they are listed. -/
def withListedLogs (receiptOf : Hash → Receipt) (skipped : SkippedChecks) (block : Block) :
    FetchedBlock :=
  ⟨block, logsOfBlock skipped (.ofBlock block)
    (Projection.logsOfReceipts (block.receiptsBy receiptOf))⟩

end Raw.Block

namespace Demand

/-- Whether receipts are all that a demand has fetched for blocks. -/
structure FetchesOnlyReceipts (demand : Demand) : Prop where
  receipts : demand.receipts = true
  logs : demand.logs = false
  traces : demand.traces = false
  stateDiffs : demand.stateDiffs = false

/-- Whether a demand takes transactions and logs from receipts. -/
structure TakesReceipts (demand : Demand) : Prop where
  receipts : demand.receipts = true
  transactionList : demand.transactionList = true
  logList : demand.logList = true

/-- Whether a list of logs is all that a demand has fetched for blocks. -/
structure FetchesOnlyLogs (demand : Demand) : Prop where
  logs : demand.logs = true
  receipts : demand.receipts = false
  traces : demand.traces = false
  stateDiffs : demand.stateDiffs = false

end Demand

namespace Endpoint

variable {σ α : Type} {memo : Memo} {endpoint : Endpoint σ}

/-! ## Batches that are answered -/

/-- Whether a batch of calls, unless it is empty, is answered with values, whatever the state
of the node. -/
def AnswersBatch (endpoint : Endpoint σ) (calls : List Call) (options : CallOptions)
    (read : Json → Option α) (values : List α) : Prop :=
  calls ≠ [] → ∀ state, ∃ answers,
    (endpoint.node.answerBatch calls options state).1 = .ok answers ∧
      List.Forall₂ (fun answer value => read answer = some value) answers values

section Batches

variable {calls : List Call} {options : CallOptions} {read : Json → Option α} {values : List α}

theorem meets_batchRaw_of_answers (sameLength : values.length = calls.length)
    (answers : endpoint.AnswersBatch calls options read values) :
    Meets False memo (endpoint.batchRaw calls options) fun answers _ after =>
      (answers.length = calls.length ∧
        List.Forall₂ (fun answer value => read answer = some value) answers values) ∧
          after = memo := by
  unfold batchRaw
  cases calls with
  | nil =>
      rw [List.eq_nil_of_length_eq_zero sameLength]
      exact .pure ⟨⟨rfl, .nil⟩, rfl⟩
  | cons first rest =>
      apply Meets.bind meets_askBatch
      rintro reply _ _ ⟨⟨state, replied⟩, _, rfl⟩
      obtain ⟨given, answered, reads⟩ := answers (List.cons_ne_nil _ _) state
      rw [answered] at replied
      subst replied
      apply Meets.bind (meets_answered (by simp))
      rintro _ _ _ ⟨same, _, rfl⟩
      cases same
      have counted := reads.length_eq.trans sameLength
      rw [if_pos counted]
      exact .pure ⟨⟨counted, reads⟩, rfl⟩

/-- A batch that is answered ends with the values. -/
theorem meets_batch_of_answers (sameLength : values.length = calls.length)
    (answers : endpoint.AnswersBatch calls options read values) :
    Meets False memo (endpoint.batch calls options read) fun result _ after =>
      result = values ∧ after = memo := by
  apply Meets.bind (meets_batchRaw_of_answers sameLength answers)
  rintro given _ _ ⟨⟨counted, reads⟩, rfl⟩
  have beside : List.Forall₂ (fun (entry : Call × Json) value => read entry.2 = some value)
      (calls.zip given) values := by
    rw [← List.map_snd_zip (Nat.le_of_eq counted)] at reads
    exact List.forall₂_map_left_iff.mp reads
  refine Meets.mono (Meets.mapM (fun (entry : Call × Json) value => read entry.2 = some value)
    (fun _ => True) ?_) ?_
  · intro entry member
    obtain ⟨value, _, reading⟩ := exists_mem_of_forall₂ beside.flip member
    refine Meets.mono (meets_decoded fun unread => ?_) ?_
    · rw [reading] at unread
      exact absurd unread (by simp)
    · rintro other _ _ ⟨isRead, _, same⟩
      exact ⟨isRead, fun _ _ => trivial, same⟩
  · rintro result _ _ ⟨readAll, _, same⟩
    have unique : Relator.RightUnique fun (entry : Call × Json) (value : α) =>
        read entry.2 = some value :=
      fun entry first second isFirst isSecond => Option.some.inj (isFirst.symm.trans isSecond)
    exact ⟨List.right_unique_forall₂' unique readAll beside, same⟩

end Batches

/-! ## Receipts -/

/-- Whether a node, in whatever state, has the same receipts for blocks by every method. -/
structure ServesReceiptsBy (endpoint : Endpoint σ) (receiptOf : Hash → Raw.Receipt)
    (blocks : List Raw.Block) : Prop where
  byBlock : ∀ method, method ≠ .transactionReceipt →
    endpoint.AnswersBatch (blocks.map fun block => blockReceiptsCall method (.ofBlock block))
      endpoint.options (Json.nullable (Json.list? Raw.Receipt.ofJson?))
      (blocks.map fun block => some (block.receiptsBy receiptOf))
  byTransaction :
    endpoint.AnswersBatch ((blocks.flatMap (·.transactions.toHashes)).map receiptCall)
      endpoint.options (Json.nullable Raw.Receipt.ofJson?)
      ((blocks.flatMap (·.transactions.toHashes)).map (some ∘ receiptOf))
  named : ∀ block ∈ blocks, block.ReceiptsName receiptOf

variable {receiptOf : Hash → Raw.Receipt} {blocks : List Raw.Block}

theorem blockHash_of_receiptsBy {block : Raw.Block} (named : block.ReceiptsName receiptOf) :
    ∀ receipt ∈ block.receiptsBy receiptOf, receipt.blockHash = block.hash :=
  List.forall_mem_map.mpr fun hash isTransaction => (named hash isTransaction).2.1

theorem receiptsOfBlock_receiptsBy {block : Raw.Block} (named : block.ReceiptsName receiptOf)
    (skipped : SkippedChecks) (method : ReceiptsMethod) :
    receiptsOfBlock skipped method (.ofBlock block) (block.receiptsBy receiptOf) =
      (block.withReceipts receiptOf).data := by
  have own : ((block.receiptsBy receiptOf).any fun receipt =>
      receipt.blockHash != block.hash) = false := by
    simpa using blockHash_of_receiptsBy named
  have counted := block.length_receiptsBy receiptOf
  simp [receiptsOfBlock, FetchedBlock.ofBlock, FetchedBlock.hash, own, counted,
    Raw.Block.withReceipts]

theorem receiptsOfTransactions_receiptsBy (skipped : SkippedChecks) (block : Raw.Block) :
    receiptsOfTransactions skipped (.ofBlock block) (block.receiptsBy receiptOf) =
      (block.withReceipts receiptOf).data := by
  simp [receiptsOfTransactions, FetchedBlock.ofBlock, Raw.Block.length_receiptsBy,
    Raw.Block.withReceipts]

theorem meets_receiptsByBlock_of_serves {method : ReceiptsMethod}
    (byBlock : method ≠ .transactionReceipt)
    (serves : endpoint.ServesReceiptsBy receiptOf blocks) :
    Meets False memo (endpoint.receiptsByBlock method (blocks.map .ofBlock))
      fun additions _ _ => additions =
        blocks.map fun block => (block.withReceipts receiptOf).data := by
  have answers := serves.byBlock method byBlock
  unfold receiptsByBlock
  rw [List.map_map]
  apply Meets.bind (meets_batch_of_answers (by simp) answers)
  rintro _ _ _ ⟨rfl, rfl⟩
  refine .pure ?_
  rw [List.zip_map', List.map_map]
  apply List.map_congr_left
  intro block isBlock
  exact receiptsOfBlock_receiptsBy (serves.named block isBlock) _ _

/-- The receipts of transactions that are fetched one by one find back to their blocks. -/
theorem meets_receiptsByTransaction_of_serves
    (distinct : (blocks.map Raw.Block.hash).Nodup)
    (serves : endpoint.ServesReceiptsBy receiptOf blocks) :
    Meets False memo (endpoint.receiptsByTransaction (blocks.map .ofBlock))
      fun additions _ _ => additions =
        blocks.map fun block => (block.withReceipts receiptOf).data := by
  have answers := serves.byTransaction
  unfold receiptsByTransaction
  rw [List.flatMap_map]
  apply Meets.bind (meets_batch_of_answers (by simp) answers)
  rintro _ _ _ ⟨rfl, rfl⟩
  refine .pure ?_
  have shares := share_named distinct fun block isBlock =>
    blockHash_of_receiptsBy (serves.named block isBlock)
  have collected : ((blocks.flatMap (·.transactions.toHashes)).map (some ∘ receiptOf)).filterMap
      id = blocks.flatMap (Raw.Block.receiptsBy receiptOf) := by
    rw [List.filterMap_map, Function.id_comp, List.filterMap_eq_map, List.map_flatMap]
    rfl
  rw [collected, shares, List.zip_map', List.map_map]
  exact List.map_congr_left fun block _ => receiptsOfTransactions_receiptsBy _ block

theorem meets_fetchReceipts_of_serves (distinct : (blocks.map Raw.Block.hash).Nodup)
    (serves : endpoint.ServesReceiptsBy receiptOf blocks) :
    Meets False memo (endpoint.fetchReceipts (blocks.map .ofBlock))
      fun additions _ _ => additions =
        blocks.map fun block => (block.withReceipts receiptOf).data := by
  apply Meets.bind meets_receiptsMethod
  intro method _ _ _
  cases method with
  | alchemy => exact meets_receiptsByBlock_of_serves (by decide) serves
  | blockReceipts => exact meets_receiptsByBlock_of_serves (by decide) serves
  | transactionReceipt => exact meets_receiptsByTransaction_of_serves distinct serves

/-! ## Enriched blocks -/

/-- What a call adds if no other call is made. -/
theorem mergeAll_of_single {count : Nat} {calls : List (Option (List Enrichment))}
    {added : List Enrichment} (single : calls.filterMap id = [added])
    (counted : added.length = count) : Enrichment.mergeAll count calls = added := by
  rw [Enrichment.mergeAll, single, ← counted]
  change Enrichment.mergeEach (List.replicate added.length .empty) added = added
  clear single counted
  induction added with
  | nil => rfl
  | cons addition added ih =>
      rw [List.length_cons, List.replicate_succ, Enrichment.mergeEach, ih, Enrichment.empty_merge]

variable {demand : Demand} {finalized : Option UInt64} {add : Raw.Block → Enrichment}

/-- Blocks for which one call is made are enriched by what it adds. -/
theorem meets_enrich_of_single (fetched : blocks ≠ [] →
      Meets False memo (endpoint.fetches demand finalized (blocks.map .ofBlock))
        fun calls _ _ => calls.filterMap id = [blocks.map add]) :
    Meets False memo (endpoint.enrich demand finalized (blocks.map .ofBlock))
      fun result _ _ => result = blocks.map fun block => ⟨block, add block⟩ := by
  rw [enrich_eq_additions]
  apply Meets.map
  apply Meets.map
  by_cases nothing : blocks = []
  · subst nothing
    exact .pure rfl
  · apply Meets.mono (fetched nothing)
    intro calls _ _ single
    have counted : (blocks.map add).length = blocks.length := List.length_map _
    rw [List.length_map, mergeAll_of_single single counted,
      FetchedBlock.enrichEach_ofBlock counted, List.zipWith_map_right, List.zipWith_self]

/-- A call that is made. -/
theorem meets_some {fetch : Dialogue σ (List Enrichment)} {added : List Enrichment}
    (fetches : Meets False memo fetch fun additions _ _ => additions = added) :
    Meets False memo (some <$> fetch) fun call _ _ => call = some added :=
  Meets.map (fetches.mono fun _ _ _ same => congrArg some same)

theorem meets_enrich_of_receipts (only : demand.FetchesOnlyReceipts)
    (distinct : (blocks.map Raw.Block.hash).Nodup)
    (serves : endpoint.ServesReceiptsBy receiptOf blocks) :
    Meets False memo (endpoint.enrich demand finalized (blocks.map .ofBlock))
      fun result _ _ => result = blocks.map (Raw.Block.withReceipts receiptOf) := by
  apply meets_enrich_of_single
  intro nonempty
  unfold fetches
  rw [if_neg (by simpa using nonempty), only.logs, only.receipts, only.traces, only.stateDiffs]
  simp only [fetchIf, Bool.or_self, Bool.false_eq_true, if_true, if_false, pure_bind]
  apply Meets.bind (meets_some (meets_fetchReceipts_of_serves distinct serves))
  rintro _ _ _ rfl
  exact .pure rfl

theorem meets_enrich_of_logs {logs : UInt64 → List Raw.Log} {first last : UInt64}
    (only : demand.FetchesOnlyLogs) (distinct : (blocks.map Raw.Block.hash).Nodup)
    (tell : LogsTell logs first last blocks)
    (carried : ∀ block ∈ blocks,
      logs block.number = Projection.logsOfReceipts (block.receiptsBy receiptOf))
    (serves : endpoint.ListsLogs logs first last ∨ endpoint.ServesLogs logs first last) :
    Meets False memo (endpoint.enrich demand finalized (blocks.map .ofBlock))
      fun result _ _ => result =
        blocks.map (Raw.Block.withListedLogs receiptOf endpoint.config.skippedChecks) := by
  have fetched : Meets False memo (endpoint.fetchLogs (blocks.map .ofBlock))
      fun additions _ _ => additions = blocks.map fun block =>
        (block.withListedLogs receiptOf endpoint.config.skippedChecks).data := by
    apply Meets.mono (meets_fetchLogs_of_serves distinct tell serves)
    rintro _ _ _ ⟨rfl, _⟩
    apply List.map_congr_left
    intro block isBlock
    rw [carried block isBlock]
    rfl
  apply meets_enrich_of_single
  intro nonempty
  unfold fetches
  rw [if_neg (by simpa using nonempty), only.logs, only.receipts, only.traces, only.stateDiffs]
  simp only [fetchIf, Bool.or_self, Bool.false_eq_true, if_true, if_false, pure_bind]
  apply Meets.bind (meets_some fetched)
  rintro _ _ _ rfl
  exact .pure rfl

end Endpoint

/-! ## Logs of either source -/

namespace Transaction

/-- Whether a body can be built does not depend on the properties that are shown. -/
theorem ofFullFrom_endsAlike (first second : TransactionFields)
    (sources : List Raw.Transaction) (position : Nat) :
    EndAlike (fun _ _ => True) (ofFullFrom position first sources)
      (ofFullFrom position second sources) := by
  induction sources generalizing position with
  | nil => exact .ok trivial
  | cons source rest ih =>
      unfold ofFullFrom
      split
      · exact .error _
      · apply (EndAlike.refl _).bind
        intro index _ _
        apply (ih (position + 1)).bind
        exact fun _ _ _ => .ok trivial

theorem ofBody_endsAlike (first second : TransactionFields) (body : Raw.Body) :
    EndAlike (fun transactions _ => transactions.length = body.length) (ofBody first body)
      (ofBody second body) := by
  cases body with
  | hashes words => exact .ok (List.length_mapIdx ..)
  | full sources =>
      apply (ofFullFrom_endsAlike first second sources 0).mono
      intro transactions _ run _
      obtain ⟨rfl, _⟩ := ofFullFrom_eq_ok run
      simp [Raw.Body.length, Raw.Body.toHashes]

end Transaction

namespace Projection

variable {demand : Demand} {body : Raw.Body}

/-- Receipts that name the transactions of a body end with their logs. -/
theorem withReceiptsFrom_endsAlike (listed : demand.logList = true) {receipts : List Raw.Receipt}
    {transactions : List Transaction} {position : Nat}
    (named : ∀ offset receipt, receipts[offset]? = some receipt →
      body.hash? (position + offset) = some receipt.transactionHash ∧
        receipt.logs.isSome = true)
    (enough : receipts.length ≤ transactions.length) :
    EndAlike (fun items logs => items.2 = logs)
      (withReceiptsFrom demand body position transactions receipts)
      ((logsOfReceipts receipts).mapM (Log.project demand.fields.log)) := by
  induction receipts generalizing position transactions with
  | nil =>
      rw [withReceiptsFrom]
      exact .ok rfl
  | cons receipt rest ih =>
      cases transactions with
      | nil => simp at enough
      | cons transaction later =>
          obtain ⟨namesFirst, carried⟩ := named 0 receipt rfl
          rw [Nat.add_zero] at namesFirst
          have logsFirst : logsOfReceipt demand position receipt =
              (receipt.logs.getD []).mapM (Log.project demand.fields.log) := by
            obtain ⟨logs, found⟩ := Option.isSome_iff_exists.mp carried
            rw [logsOfReceipt, if_pos listed, found]
            rfl
          rw [withReceiptsFrom_cons namesFirst, logsFirst, logsOfReceipts, List.flatMap_cons,
            List.mapM_append]
          apply (EndAlike.refl _).bind
          rintro logs _ rfl
          refine (ih ?_ (Nat.le_of_succ_le_succ enough)).bind ?_
          · intro offset other found
            have next := named (offset + 1) other found
            rwa [Nat.add_comm offset, ← Nat.add_assoc] at next
          · rintro items others rfl
            exact .ok rfl

variable {byReceipts byList : Demand} {receiptOf : Hash → Raw.Receipt} {block : Raw.Block}
  {skipped : SkippedChecks}

theorem names_of_receiptsBy (named : block.ReceiptsName receiptOf) (offset : Nat)
    (receipt : Raw.Receipt) (found : (block.receiptsBy receiptOf)[offset]? = some receipt) :
    block.transactions.hash? (0 + offset) = some receipt.transactionHash ∧
      receipt.logs.isSome = true := by
  rw [Raw.Block.receiptsBy, List.getElem?_map, Option.map_eq_some_iff] at found
  obtain ⟨hash, isTransaction, rfl⟩ := found
  obtain ⟨names, _, carries⟩ := named hash (List.mem_of_getElem? isTransaction)
  rw [Nat.zero_add, Raw.Body.hash?, isTransaction, names]
  exact ⟨rfl, carries⟩

/-- The transactions of a body are built for both, or else they can be built. -/
theorem bodyTransactions_endsAlike (listed : byReceipts.transactionList = true)
    (built : byList.transactionList = false → ∃ transactions,
      Transaction.ofBody byReceipts.fields.transaction block.transactions = .ok transactions) :
    EndAlike (fun transactions _ => transactions.length = block.transactions.length)
      (bodyTransactions byReceipts (block.withReceipts receiptOf))
      (bodyTransactions byList (block.withListedLogs receiptOf skipped)) := by
  have alike := Transaction.ofBody_endsAlike byReceipts.fields.transaction
    byList.fields.transaction block.transactions
  unfold bodyTransactions
  rw [if_pos listed]
  cases listedToo : byList.transactionList with
  | true => exact alike
  | false =>
      -- A demand without transactions does not read the body, so only the other one could fail.
      obtain ⟨transactions, run⟩ := built listedToo
      change EndAlike _ (Transaction.ofBody _ block.transactions) _
      rw [run] at alike ⊢
      generalize Transaction.ofBody byList.fields.transaction block.transactions = other at alike
      cases alike with
      | ok counted => exact .ok counted

/-- Logs come out alike from receipts that carry them and from a list of them. -/
theorem transactionsAndLogs_endsAlike (takes : byReceipts.TakesReceipts)
    (unreceipted : byList.receipts = false)
    (sameFields : byReceipts.fields.log = byList.fields.log)
    (named : block.ReceiptsName receiptOf)
    (built : byList.transactionList = false → ∃ transactions,
      Transaction.ofBody byReceipts.fields.transaction block.transactions = .ok transactions) :
    EndAlike (fun left right => left.2 = right.2)
      (transactionsAndLogs byReceipts (block.withReceipts receiptOf))
      (transactionsAndLogs byList (block.withListedLogs receiptOf skipped)) := by
  rw [transactionsAndLogs_eq, transactionsAndLogs_eq]
  apply (bodyTransactions_endsAlike takes.transactionList built).bind
  intro transactions others counted
  have demanded : demandedReceipts byReceipts (block.withReceipts receiptOf) =
      .ok (block.receiptsBy receiptOf) := by
    rw [demandedReceipts, if_pos takes.receipts]
    rfl
  have unused : demandedReceipts byList (block.withListedLogs receiptOf skipped) = .ok [] := by
    rw [demandedReceipts, unreceipted]
    rfl
  have unchanged : withReceiptsFrom byList block.transactions 0 others [] = .ok (others, []) := by
    rw [withReceiptsFrom]
  have listing : withListedLogs byList (block.withListedLogs receiptOf skipped) [] (others, []) =
      (logsOfReceipts (block.receiptsBy receiptOf)).mapM (Log.project byReceipts.fields.log) >>=
        fun listed => .ok (others, listed) := by
    rw [sameFields]
    simp [withListedLogs, Raw.Block.withListedLogs, logsOfBlock]
    rfl
  rw [demanded, unused]
  change EndAlike _
    (withReceiptsFrom byReceipts block.transactions 0 transactions (block.receiptsBy receiptOf) >>=
      fun items => .ok items)
    (withReceiptsFrom byList block.transactions 0 others [] >>= _)
  rw [unchanged]
  change EndAlike _ _
    (withListedLogs byList (block.withListedLogs receiptOf skipped) [] (others, []))
  rw [listing]
  refine (withReceiptsFrom_endsAlike takes.logList ?_ ?_).bind ?_
  · exact names_of_receiptsBy named
  · rw [counted]
    exact Nat.le_of_eq (block.length_receiptsBy receiptOf)
  · rintro items logs same
    exact .ok same

/-- A block is built with the same logs from either source, or it cannot be built for the
same reason. -/
theorem project_endsAlike (takes : byReceipts.TakesReceipts) (unreceipted : byList.receipts = false)
    (sameFields : byReceipts.fields.log = byList.fields.log)
    (named : block.ReceiptsName receiptOf)
    (built : byList.transactionList = false → ∃ transactions,
      Transaction.ofBody byReceipts.fields.transaction block.transactions = .ok transactions) :
    EndAlike (fun left right => left.logs = right.logs)
      ((block.withReceipts receiptOf).project byReceipts)
      ((block.withListedLogs receiptOf skipped).project byList) := by
  apply (transactionsAndLogs_endsAlike takes unreceipted sameFields named built).bind
  rintro ⟨transactions, logs⟩ ⟨others, _⟩ rfl
  exact .ok rfl

end Projection

namespace Endpoint

variable {σ : Type}

/-- For blocks with receipts that a node has by every method, and of which it lists the logs:
whichever method is in use, the blocks are valid with the same receipts, and the logs that are
built from these are those that are built from the list.  Where a list does without the
transactions of a block, they are taken to be such that they can be built. -/
theorem receipts_or_listed_logs (endpoint : Endpoint σ) (receiptOf : Hash → Raw.Receipt)
    (logs : UInt64 → List Raw.Log) (first last : UInt64) (blocks : List Raw.Block)
    (distinct : (blocks.map Raw.Block.hash).Nodup)
    (serves : endpoint.ServesReceiptsBy receiptOf blocks) (tell : LogsTell logs first last blocks)
    (carried : ∀ block ∈ blocks,
      logs block.number = Projection.logsOfReceipts (block.receiptsBy receiptOf))
    (servesLogs : endpoint.ListsLogs logs first last ∨ endpoint.ServesLogs logs first last)
    (finalized : Option UInt64) (session : Session σ) :
    (∀ demand : Demand, demand.FetchesOnlyReceipts → ∃ final,
      (endpoint.enrich demand finalized (blocks.map .ofBlock)).run.run session =
        (.ok (blocks.map (Raw.Block.withReceipts receiptOf)), final)) ∧
    (∀ demand : Demand, demand.FetchesOnlyLogs → ∃ final,
      (endpoint.enrich demand finalized (blocks.map .ofBlock)).run.run session =
        (.ok (blocks.map
          (Raw.Block.withListedLogs receiptOf endpoint.config.skippedChecks)), final)) ∧
    ∀ block ∈ blocks, (block.withReceipts receiptOf).isValid = true ∧
      ∀ byReceipts byList : Demand, byReceipts.TakesReceipts → byList.receipts = false →
        byReceipts.fields.log = byList.fields.log →
        (byList.transactionList = false → ∃ transactions,
          Transaction.ofBody byReceipts.fields.transaction block.transactions =
            .ok transactions) →
        EndAlike (fun left right => left.logs = right.logs)
          ((block.withReceipts receiptOf).project byReceipts)
          ((block.withListedLogs receiptOf endpoint.config.skippedChecks).project byList) := by
  refine ⟨fun demand only => ?_, fun demand only => ?_, fun block isBlock => ⟨rfl, ?_⟩⟩
  · obtain ⟨_, _, final, run, _, rfl⟩ :=
      (meets_enrich_of_receipts only distinct serves).ends session rfl
    exact ⟨final, run⟩
  · obtain ⟨_, _, final, run, _, rfl⟩ :=
      (meets_enrich_of_logs only distinct tell carried servesLogs).ends session rfl
    exact ⟨final, run⟩
  · exact fun byReceipts byList takes unreceipted sameFields built =>
      Projection.project_endsAlike takes unreceipted sameFields (serves.named block isBlock) built

/-- The refusing node, with the receipts of blocks seven and eight by every method. -/
def receiptsNode : Node Unit :=
  { refusingNode with
    answerBatch := fun calls _ _ =>
      let word := Json.arr (List.replicate 32 (.int 0))
      let log := Json.obj
        [ ("blockNumber", .str "0x8"), ("blockHash", word), ("logIndex", .str "0x0"),
          ("transactionIndex", .str "0x0") ]
      let receipt := Json.obj
        [ ("blockNumber", .str "0x8"), ("blockHash", word), ("transactionIndex", .str "0x0"),
          ("transactionHash", word), ("logs", .arr [log]) ]
      match calls.map Call.method with
      | ["eth_getTransactionReceipt"] => (.ok [receipt], ())
      | _ => (.ok [.arr [], .arr [receipt]], ()) }

/-- Block seven, which has no transactions. -/
def emptyBlock : Raw.Block :=
  { bloomingBlock with
    number := 7
    hash := hashOfSeven
    logsBloom := .zero 256
    transactions := .hashes [] }

/-- The receipt of the transaction of block eight. -/
def receiptOfEight : Raw.Receipt where
  blockNumber := 8
  blockHash := .zero 32
  transactionIndex := 0
  transactionHash := .zero 32
  logs := some (refusedLogs 8)
  gasUsed := none
  cumulativeGasUsed := none
  effectiveGasPrice := none
  contractAddress := none
  type := none
  status := none
  l1Fee := none
  l1FeeScalar := none
  l1GasPrice := none
  l1GasUsed := none
  l1BaseFeeScalar := none
  l1BlobBaseFee := none
  l1BlobBaseFeeScalar := none

theorem receiptsNode_serves :
    (Endpoint.of receiptsNode .standard).ServesReceiptsBy (fun _ => receiptOfEight)
      [emptyBlock, bloomingBlock] where
  byBlock method byBlock _ _ := by
    cases method with
    | transactionReceipt => exact absurd rfl byBlock
    | alchemy =>
        refine ⟨_, rfl, ?_⟩
        exact .cons (by decide +kernel) (.cons (by decide +kernel) .nil)
    | blockReceipts =>
        refine ⟨_, rfl, ?_⟩
        exact .cons (by decide +kernel) (.cons (by decide +kernel) .nil)
  byTransaction _ _ := ⟨_, rfl, .cons (by decide +kernel) .nil⟩
  named := by
    refine List.forall_mem_cons.mpr ⟨fun _ none => absurd none List.not_mem_nil, ?_⟩
    refine List.forall_mem_singleton.mpr fun hash isTransaction => ?_
    rw [List.mem_singleton.mp isTransaction]
    exact ⟨rfl, rfl, rfl⟩

theorem refusedLogs_tell : LogsTell refusedLogs 7 8 [emptyBlock, bloomingBlock] where
  within := List.forall_mem_cons.mpr ⟨by decide, List.forall_mem_singleton.mpr (by decide)⟩
  named := by
    have only : ∀ height, ∀ log ∈ refusedLogs height, height = 8 ∧ log.blockHash = .zero 32 := by
      intro height log isLog
      unfold refusedLogs at isLog
      split at isLog
      · rename_i isEight
        rw [List.mem_singleton.mp isLog]
        exact ⟨isEight, rfl⟩
      · exact absurd isLog List.not_mem_nil
    refine List.forall_mem_cons.mpr ⟨?_, List.forall_mem_singleton.mpr ?_⟩
    · intro height _ _ log isLog
      obtain ⟨rfl, zero⟩ := only height log isLog
      rw [zero]
      decide
    · intro height _ _ log isLog
      obtain ⟨rfl, zero⟩ := only height log isLog
      rw [zero]
      decide

theorem receiptsNode_servesLogs :
    (Endpoint.of receiptsNode .standard).ServesLogs refusedLogs 7 8 :=
  ⟨refusingNode_serves.ranges, refusingNode_serves.blocks⟩

/-- A demand for transactions and logs from receipts. -/
def receiptsDemand : Demand :=
  { Demand.of .empty .off with transactionList := true, logList := true, receipts := true }

/-- Blocks seven and eight have the same receipts and the same log by either source. -/
theorem receipts_or_listed_logs_receiptsNode :
    let endpoint := Endpoint.of receiptsNode .standard
    let blocks := [emptyBlock, bloomingBlock]
    let receiptOf := fun _ => receiptOfEight
    (blocks.map Raw.Block.hash).Nodup ∧ endpoint.ServesReceiptsBy receiptOf blocks ∧
      LogsTell refusedLogs 7 8 blocks ∧ endpoint.ServesLogs refusedLogs 7 8 ∧
      (∃ final, (endpoint.enrich receiptsDemand none (blocks.map .ofBlock)).run.run (.start ()) =
        (.ok (blocks.map (Raw.Block.withReceipts receiptOf)), final)) ∧
      (∃ final, (endpoint.enrich logsDemand none (blocks.map .ofBlock)).run.run (.start ()) =
        (.ok (blocks.map (Raw.Block.withListedLogs receiptOf .nothing)), final)) ∧
      EndAlike (fun left right => left.logs = right.logs)
        ((bloomingBlock.withReceipts receiptOf).project receiptsDemand)
        ((bloomingBlock.withListedLogs receiptOf .nothing).project logsDemand) ∧
      (((bloomingBlock.withReceipts receiptOf).project receiptsDemand).toOption.map
        fun block => block.logs.length) = some 1 := by
  have distinct : ([emptyBlock, bloomingBlock].map Raw.Block.hash).Nodup := by decide
  have carried : ∀ block ∈ [emptyBlock, bloomingBlock], refusedLogs block.number =
      Projection.logsOfReceipts (block.receiptsBy fun _ => receiptOfEight) :=
    List.forall_mem_cons.mpr ⟨by decide, List.forall_mem_singleton.mpr (by decide)⟩
  obtain ⟨receipts, logs, alike⟩ := receipts_or_listed_logs (Endpoint.of receiptsNode .standard)
    (fun _ => receiptOfEight) refusedLogs 7 8 [emptyBlock, bloomingBlock] distinct
    receiptsNode_serves refusedLogs_tell carried (.inr receiptsNode_servesLogs) none (.start ())
  exact ⟨distinct, receiptsNode_serves, refusedLogs_tell, receiptsNode_servesLogs,
    receipts receiptsDemand ⟨rfl, rfl, rfl, rfl⟩, logs logsDemand ⟨rfl, rfl, rfl, rfl⟩,
    (alike bloomingBlock (List.mem_cons_of_mem _ List.mem_cons_self)).2 receiptsDemand logsDemand
      ⟨rfl, rfl, rfl⟩ rfl rfl fun _ => ⟨_, rfl⟩, by decide +kernel⟩

end Endpoint

end ChainFeed
