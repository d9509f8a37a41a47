import ChainFeed.Proofs.Additions
import ChainFeed.Proofs.LogRanges

/-!
# Theory of fetching

What each way of asking a node adds to each of the blocks that it is asked about.
Nothing is assumed of the node: whatever it answers, the additions are consistent
with their blocks or come with a defect, unless the dialogue ends with a fault.
-/

namespace ChainFeed

/-- Answers that stand beside blocks, with what each of them adds to its block. -/
theorem forall₂_map_zip {α β γ : Type} {related : α → β → Prop} {adds : α → γ → Prop}
    {blocks : List α} {answers : List β} {add : α × β → γ}
    (beside : List.Forall₂ related blocks answers)
    (each : ∀ block answer, related block answer → adds block (add (block, answer))) :
    List.Forall₂ adds blocks ((blocks.zip answers).map add) := by
  induction beside with
  | nil => exact .nil
  | cons relates _ ih => exact .cons (each _ _ relates) ih

namespace Endpoint

open Dialogue

variable {σ : Type} {mayFail : Prop} {memo : Memo} {endpoint : Endpoint σ}

/-! ## Memory -/

theorem meets_memo :
    Meets mayFail memo (Endpoint.memo : Dialogue σ Memo) fun known said after =>
      known = memo ∧ said = [] ∧ after = memo := by
  intro session start
  exact ⟨[], (List.append_nil _).symm, start, rfl, start⟩

theorem meets_remember {update : Memo → Memo} :
    Meets mayFail memo (remember update : Dialogue σ Unit) fun _ said after =>
      said = [] ∧ after = update memo := by
  intro session rfl
  exact ⟨[], (List.append_nil _).symm, rfl, rfl⟩

/-- A call that may fail leaves the memo as it is. -/
theorem meets_call_memo {α : Type} {call : Call} {options : CallOptions}
    {read : Json → Option α} :
    Meets True memo (endpoint.call call options read) fun _ _ after => after = memo := by
  apply Meets.mono (meets_call (Or.inl trivial))
  rintro _ _ _ ⟨_, _, _, _, _, same⟩
  exact same

/-- The hash that identifies the chain is known from then on. -/
theorem meets_genesisHash :
    Meets True memo endpoint.genesisHash fun genesis _ after =>
      after.genesisHash = some genesis := by
  apply Meets.bind meets_memo
  rintro known _ after ⟨rfl, rfl, rfl⟩
  cases hash : after.genesisHash with
  | some genesis => exact .pure hash
  | none =>
      apply Meets.bind meets_call_memo
      intro block said _ rfl
      cases block with
      | none => exact .throw trivial
      | some block =>
          apply Meets.bind meets_remember
          rintro _ _ _ ⟨rfl, rfl⟩
          exact .pure rfl

/-! ## Logs -/

theorem meets_logsByReceipts_memo {height : UInt64} :
    Meets True memo (endpoint.logsByReceipts height) fun _ _ after => after = memo := by
  apply Meets.bind meets_call_memo
  intro block _ _ rfl
  cases block with
  | none => exact .pure rfl
  | some block =>
      refine Meets.bind (Meets.mapM (fun _ _ => True) (fun _ => True) ?_) ?_
      · intro hash _
        apply Meets.mono meets_call_memo
        exact fun _ _ _ same => ⟨trivial, fun _ _ => trivial, same⟩
      · rintro receipts _ _ ⟨_, _, rfl⟩
        split
        · exact .pure rfl
        · exact .pure rfl

theorem meets_logsBetween_memo {first last : UInt64} :
    Meets True memo (endpoint.logsBetween first last) fun _ _ after => after = memo := by
  induction size : last.toNat - first.toNat using Nat.strongRecOn
    generalizing first last memo with
  | ind size ih =>
      rw [logsBetween]
      apply Meets.bind meets_ask
      rintro reply _ _ ⟨_, rfl, rfl⟩
      cases reply with
      | ok answer =>
          apply Meets.mono (meets_decoded fun _ => trivial)
          rintro _ _ _ ⟨_, _, same⟩
          exact same
      | error failure =>
          simp only
          split
          case isFalse => exact .throw trivial
          case isTrue =>
            split
            case isTrue proper =>
              obtain ⟨_, atLeast, below⟩ := proper
              obtain ⟨_, shorterLeft, shorterRight⟩ := parts_within atLeast below
              apply Meets.bind (ih _ (size ▸ shorterLeft) rfl)
              intro left _ _ rfl
              apply Meets.bind (ih _ (size ▸ shorterRight) rfl)
              intro right _ _ rfl
              exact .pure rfl
            case isFalse =>
              refine Meets.bind (Meets.mapM (fun _ _ => True) (fun _ => True) ?_) ?_
              · intro height _
                apply Meets.mono meets_logsByReceipts_memo
                exact fun _ _ _ same => ⟨trivial, fun _ _ => trivial, same⟩
              · rintro _ _ _ ⟨_, _, rfl⟩
                exact .pure rfl

/-- A block gets only logs that name it. -/
theorem meets_fetchLogs {blocks : List FetchedBlock} :
    Meets True memo (endpoint.fetchLogs blocks) fun additions said _ =>
      AddsToEach (fun _ => AddsLogs endpoint.config.skippedChecks) blocks said additions := by
  cases blocks with
  | nil => exact .pure fun _ _ => .nil
  | cons first rest =>
      apply Meets.bind meets_logsBetween_memo
      intro logs _ _ rfl
      refine .pure fun _ _ => ?_
      apply forall₂_map_zip (forall₂_shareByHash (first :: rest) logs)
      exact fun block share sameBlock => logsOfBlock_adds sameBlock

/-! ## Receipts -/

variable {blocks : List FetchedBlock}

theorem meets_answersList {call : Call} :
    Meets mayFail memo (endpoint.answersList call) fun _ _ _ => True := by
  apply Meets.bind meets_ask
  intro reply _ _ _
  split
  · exact .pure trivial
  · exact .pure trivial

theorem meets_receiptsMethod :
    Meets mayFail memo endpoint.receiptsMethod fun _ _ _ => True := by
  apply Meets.bind meets_memo
  rintro known _ after ⟨rfl, rfl, rfl⟩
  cases after.receiptsMethod with
  | some method => exact .pure trivial
  | none =>
      have probed : Meets mayFail after endpoint.probeReceiptsMethod fun _ _ _ => True := by
        apply Meets.bind meets_answersList
        intro byHash _ _ _
        split
        · exact .pure trivial
        · apply Meets.bind meets_answersList
          intro byHeight _ _ _
          split
          · exact .pure trivial
          · exact .pure trivial
      apply Meets.bind probed
      intro method _ _ _
      apply Meets.bind meets_remember
      exact fun _ _ _ _ => .pure trivial

end Endpoint

end ChainFeed
