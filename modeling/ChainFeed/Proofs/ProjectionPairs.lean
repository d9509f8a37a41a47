import ChainFeed.Proofs.Outcomes
import ChainFeed.Proofs.ProjectionSteps

/-!
# Two projections side by side

Two demands that ask for the same kinds of items, or two fetched blocks that differ in
their bodies only, are projected in the same steps.  Items that come out related in one
step stay related in the next.
-/

namespace ChainFeed.Projection

variable {relatedTransactions : Transaction → Transaction → Prop} {relatedLogs : Log → Log → Prop}
  {demand otherDemand : Demand}

/-- Whether transactions and logs of one projection are related to those of another. -/
def RelatedItems (relatedTransactions : Transaction → Transaction → Prop)
    (relatedLogs : Log → Log → Prop) (left right : List Transaction × List Log) : Prop :=
  List.Forall₂ relatedTransactions left.1 right.1 ∧ List.Forall₂ relatedLogs left.2 right.2

/-- Whether two demands read receipts and logs alike, and show related items of them. -/
structure ReadAlike (relatedTransactions : Transaction → Transaction → Prop)
    (relatedLogs : Log → Log → Prop) (demand otherDemand : Demand) : Prop where
  receipts : demand.receipts = otherDemand.receipts
  logList : demand.logList = otherDemand.logList
  withReceipt : ∀ left right (receipt : Raw.Receipt), relatedTransactions left right →
    relatedTransactions (left.withReceipt receipt demand.fields.transaction)
      (right.withReceipt receipt otherDemand.fields.transaction)
  log : ∀ source : Raw.Log, EndAlike relatedLogs (Log.project demand.fields.log source)
    (Log.project otherDemand.fields.log source)

theorem hash?_congr {body otherBody : Raw.Body} (same : body.toHashes = otherBody.toHashes)
    (position : Nat) : body.hash? position = otherBody.hash? position := by
  rw [Raw.Body.hash?, Raw.Body.hash?, same]

/-- Related transactions of a body are related where both demands ask for them. -/
theorem bodyTransactions_related {fetched : FetchedBlock}
    (listed : demand.transactionList = otherDemand.transactionList)
    (body : EndAlike (List.Forall₂ relatedTransactions)
      (Transaction.ofBody demand.fields.transaction fetched.block.transactions)
      (Transaction.ofBody otherDemand.fields.transaction fetched.block.transactions)) :
    EndAlike (List.Forall₂ relatedTransactions) (bodyTransactions demand fetched)
      (bodyTransactions otherDemand fetched) := by
  unfold bodyTransactions
  rw [listed]
  split
  · exact body
  · exact .ok .nil

/-- One more transaction with its receipt and the logs in it. -/
theorem withReceipt_cons_related
    (alike : ReadAlike relatedTransactions relatedLogs demand otherDemand)
    {one other : Transaction} (relates : relatedTransactions one other) (receipt : Raw.Receipt)
    {logs otherLogs : List Log} (relateLogs : List.Forall₂ relatedLogs logs otherLogs)
    {rest others : Except ProjectionFault (List Transaction × List Log)}
    (later : EndAlike (RelatedItems relatedTransactions relatedLogs) rest others) :
    EndAlike (RelatedItems relatedTransactions relatedLogs)
      (do
        let items ← rest
        pure (one.withReceipt receipt demand.fields.transaction :: items.1, logs ++ items.2))
      (do
        let items ← others
        pure
          (other.withReceipt receipt otherDemand.fields.transaction :: items.1,
            otherLogs ++ items.2)) := by
  apply later.bind
  intro items otherItems relateItems
  exact .ok
    ⟨.cons (alike.withReceipt one other receipt relates) relateItems.1,
      List.rel_append relateLogs relateItems.2⟩

theorem withReceiptsFrom_related
    (alike : ReadAlike relatedTransactions relatedLogs demand otherDemand)
    {body otherBody : Raw.Body} (same : body.toHashes = otherBody.toHashes) {position : Nat}
    {left right : List Transaction} (relate : List.Forall₂ relatedTransactions left right)
    (receipts : List Raw.Receipt) :
    EndAlike (RelatedItems relatedTransactions relatedLogs)
      (withReceiptsFrom demand body position left receipts)
      (withReceiptsFrom otherDemand otherBody position right receipts) := by
  induction receipts generalizing position left right with
  | nil =>
      rw [withReceiptsFrom, withReceiptsFrom]
      exact .ok ⟨relate, .nil⟩
  | cons receipt rest ih =>
      unfold withReceiptsFrom
      rw [hash?_congr same, alike.logList]
      cases otherBody.hash? position with
      | none => exact .error _
      | some hash =>
          dsimp only
          split
          · exact .error _
          · cases relate with
            | nil => exact .error _
            | cons relates relate =>
                have later := @ih (position + 1) _ _ relate
                dsimp only
                split
                · cases receipt.logs with
                  | none => exact .error _
                  | some logs =>
                      apply (EndAlike.mapM_forall₂ logs alike.log).bind
                      intro shown otherShown relateLogs
                      exact withReceipt_cons_related alike relates receipt relateLogs later
                · exact withReceipt_cons_related alike relates receipt .nil later

/-- Related transactions of the bodies end with related transactions and logs. -/
theorem transactionsAndLogs_related
    (alike : ReadAlike relatedTransactions relatedLogs demand otherDemand)
    {fetched otherFetched : FetchedBlock} (sameData : fetched.data = otherFetched.data)
    (same : fetched.block.transactions.toHashes = otherFetched.block.transactions.toHashes)
    (bodies : EndAlike (List.Forall₂ relatedTransactions) (bodyTransactions demand fetched)
      (bodyTransactions otherDemand otherFetched)) :
    EndAlike (RelatedItems relatedTransactions relatedLogs) (transactionsAndLogs demand fetched)
      (transactionsAndLogs otherDemand otherFetched) := by
  have sameReceipts : demandedReceipts demand fetched =
      demandedReceipts otherDemand otherFetched := by
    rw [demandedReceipts, demandedReceipts, alike.receipts, sameData]
  rw [transactionsAndLogs_eq, transactionsAndLogs_eq, sameReceipts]
  apply bodies.bind
  intro left right relate
  apply (EndAlike.refl _).bind
  rintro receipts _ rfl
  apply (withReceiptsFrom_related alike same relate receipts).bind
  intro items otherItems relateItems
  unfold withListedLogs
  rw [sameData, alike.logList]
  cases otherFetched.data.logs with
  | none => exact .ok relateItems
  | some logs =>
      dsimp only
      split
      · exact .error _
      · apply (EndAlike.mapM_forall₂ logs alike.log).bind
        intro listed otherListed relateLogs
        exact .ok ⟨relateItems.1, relateLogs⟩

/-- Replays are assigned to transactions by hash. -/
theorem tracesAndStateDiffs_congr (fields : TraceFields) {fetched otherFetched : FetchedBlock}
    (sameData : fetched.data = otherFetched.data)
    (same : fetched.block.transactions.toHashes = otherFetched.block.transactions.toHashes) :
    tracesAndStateDiffs fields fetched = tracesAndStateDiffs fields otherFetched := by
  have sameReplay : ofReplay fields fetched.block.transactions =
      ofReplay fields otherFetched.block.transactions := by
    funext replay
    rw [ofReplay, ofReplay, same]
  rw [tracesAndStateDiffs, tracesAndStateDiffs, sameData, sameReplay]

end ChainFeed.Projection
