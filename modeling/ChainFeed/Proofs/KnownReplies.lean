import ChainFeed.Proofs.Sharing
import ChainFeed.Proofs.Sources
import Mathlib.Logic.Relator

/-!
# Nodes that reply by a function

If what a node replies to a call depends on the call alone, then so does what an answer
brings for a block: one block, one addition, whatever other blocks are asked about along
with it.
-/

namespace ChainFeed

open Dialogue

/-- What a node replies to each call. -/
abbrev Reply := Call → CallOptions → Except NodeFailure Json

/-- Whether an answer is the reply to a call. -/
def Reply.Answers (reply : Reply) (call : Call) (options : CallOptions) (answer : Json) : Prop :=
  reply call options = .ok answer

/-- Whether a reply is a list. -/
def isList : Except NodeFailure Json → Bool
  | .ok (.arr _) => true
  | _ => false

/-- The receipts method that is found out from the replies of a node. -/
def Reply.receiptsMethod (reply : Reply) : ReceiptsMethod :=
  if isList (reply ⟨ReceiptsMethod.alchemy.name, [.obj [("blockNumber", .str "0x1")]]⟩ .plain) then
    .alchemy
  else if isList (reply ⟨ReceiptsMethod.blockReceipts.name, [.str "latest"]⟩ .plain) then
    .blockReceipts
  else
    .transactionReceipt

/-- Whether a node, in whatever state, answers each call as it replies to it; a batch may
still fail as a whole. -/
structure Node.AnswersAs {σ : Type} (node : Node σ) (reply : Reply) : Prop where
  single : ∀ call options state, (node.answer call options state).1 = reply call options
  batch : ∀ calls options state answers,
    (node.answerBatch calls options state).1 = .ok answers →
      List.Forall₂ (fun call answer => reply.Answers call options answer) calls answers

/-! ## One addition for one block -/

/-- Whether an addition is told by its block. -/
abbrev OneEach (brings : FetchedBlock → Enrichment → Prop) : Prop := Relator.RightUnique brings

theorem oneEach_addsIf {used : FetchedBlock → Bool} {brings : FetchedBlock → Enrichment → Prop}
    (one : OneEach brings) :
    OneEach fun block => Endpoint.AddsIf (used block) (brings block) := by
  intro block addition other added addedToo
  cases isUsed : used block with
  | true => exact one (added.of_used isUsed) (addedToo.of_used isUsed)
  | false => rw [added.eq_empty isUsed, addedToo.eq_empty isUsed]

/-- Methods that bring one addition each bring one together. -/
theorem oneEach_together {methods : List (FetchedBlock → Enrichment → Prop)}
    (one : ∀ method ∈ methods, OneEach method) : OneEach (Together methods) := by
  rintro block _ _ ⟨additions, each, rfl⟩ ⟨others, eachToo, rfl⟩
  have same : additions = others := by
    induction each generalizing others with
    | nil =>
        cases eachToo
        rfl
    | cons brings _ ih =>
        obtain _ | ⟨bringsToo, restToo⟩ := eachToo
        obtain ⟨first, rest⟩ := List.forall_mem_cons.mp one
        rw [first brings bringsToo, ih rest _ restToo]
  rw [same]

namespace Endpoint

variable {σ α : Type} {memo : Memo} {endpoint : Endpoint σ} {reply : Reply}

theorem Reads.unique {call : Call} {options : CallOptions} {read : Json → Option α}
    {value other : α} (reads : Reads reply.Answers call options read value)
    (readsToo : Reads reply.Answers call options read other) : value = other := by
  obtain ⟨answer, isReply, reading⟩ := reads
  obtain ⟨again, isReplyToo, readingToo⟩ := readsToo
  have same : answer = again := Except.ok.inj (isReply.symm.trans isReplyToo)
  rw [← same] at readingToo
  exact Option.some.inj (reading.symm.trans readingToo)

theorem oneEach_blockReceipts (method : ReceiptsMethod) :
    OneEach (endpoint.BlockReceiptsBring reply.Answers method) := by
  rintro block _ _ ⟨answer, reads, rfl⟩ ⟨other, readsToo, rfl⟩
  rw [reads.unique readsToo]

theorem oneEach_replays (method : String) (outputs : ReplayOutputs) :
    OneEach (endpoint.ReplaysBring reply.Answers method outputs) := by
  rintro block _ _ ⟨replays, named, reads, renamed, rfl⟩ ⟨others, _, readsToo, renamedToo, rfl⟩
  rw [reads.unique readsToo] at renamed
  rw [Except.ok.inj (renamed.symm.trans renamedToo)]

theorem oneEach_frames : OneEach (endpoint.FramesBring reply.Answers) := by
  rintro block _ _ ⟨frames, reads, rfl⟩ ⟨others, readsToo, rfl⟩
  rw [reads.unique readsToo]

theorem oneEach_callTrees : OneEach (endpoint.CallTreesBring reply.Answers) := by
  rintro block _ _ ⟨results, reads, rfl⟩ ⟨others, readsToo, rfl⟩
  rw [reads.unique readsToo]

theorem oneEach_prestates : OneEach (endpoint.PrestatesBring reply.Answers) := by
  rintro block _ _ ⟨results, reads, rfl⟩ ⟨others, readsToo, rfl⟩
  rw [reads.unique readsToo]

theorem oneEach_plan (plan : TracePlan) :
    OneEach (Together (endpoint.planMethods reply.Answers plan)) := by
  apply oneEach_together
  simp only [planMethods, List.forall_mem_cons]
  exact ⟨oneEach_addsIf oneEach_prestates, oneEach_addsIf oneEach_frames,
    oneEach_addsIf oneEach_callTrees, oneEach_addsIf (oneEach_replays _ _),
    fun _ none => absurd none List.not_mem_nil⟩

theorem oneEach_profile (profile : ChainProfile) :
    OneEach (Together (endpoint.profileMethods reply.Answers profile)) := by
  apply oneEach_together
  simp only [profileMethods, List.forall_mem_cons]
  exact ⟨oneEach_addsIf (oneEach_replays _ _), oneEach_addsIf oneEach_callTrees,
    fun _ none => absurd none List.not_mem_nil⟩

/-- Traces and state diffs are told by the block, on chains with a profile and without. -/
theorem oneEach_traces (demand : Demand) (unfinalized : Bool) (genesis : Hash) :
    OneEach (endpoint.TracesBring reply.Answers demand unfinalized genesis) := by
  unfold TracesBring
  cases ChainProfile.ofGenesis? genesis with
  | none => exact oneEach_plan _
  | some profile =>
      dsimp only
      split
      · exact oneEach_profile profile
      · rintro block _ _ rfl rfl
        rfl

/-! ## What is known about the node -/

/-- Whether a hash is that of the block which identifies the chain. -/
def IsGenesis (endpoint : Endpoint σ) (reply : Reply) (hash : Hash) : Prop :=
  ∃ block, Reads reply.Answers (blockCall endpoint.config.genesisHeight false) .plain
      (Json.nullable Raw.Block.ofJson?) (some block) ∧
    hash = block.hash

theorem IsGenesis.unique {hash other : Hash} (isGenesis : endpoint.IsGenesis reply hash)
    (isGenesisToo : endpoint.IsGenesis reply other) : hash = other := by
  obtain ⟨block, reads, rfl⟩ := isGenesis
  obtain ⟨again, readsToo, rfl⟩ := isGenesisToo
  rw [Option.some.inj (reads.unique readsToo)]

/-- Whether what is known about an endpoint is what its node replies. -/
structure KnownBy (endpoint : Endpoint σ) (reply : Reply) (memo : Memo) : Prop where
  genesis : ∀ hash, memo.genesisHash = some hash → endpoint.IsGenesis reply hash
  receipts : ∀ method, memo.receiptsMethod = some method → method = reply.receiptsMethod

/-- Nothing is known at first. -/
theorem knownBy_empty : endpoint.KnownBy reply .empty where
  genesis _ known := by cases known
  receipts _ known := by cases known

section Dialogues

variable (answers : endpoint.node.AnswersAs reply)

include answers

theorem hears_reply : endpoint.Hears fun _ => reply.Answers := by
  intro memo calls options
  apply Meets.mono meets_batchRaw
  rintro given said _ ⟨⟨sameLength, _⟩, replied, same⟩
  refine ⟨fun _ _ => ?_, same⟩
  cases calls with
  | nil =>
      -- An empty batch is not sent, so the node has no say in it.
      rw [List.eq_nil_of_length_eq_zero sameLength]
      exact .nil
  | cons first rest =>
      obtain ⟨state, replied⟩ := replied (List.cons_ne_nil _ _)
      exact answers.batch _ _ state _ replied

theorem meets_genesisHash_reply (known : endpoint.KnownBy reply memo) :
    Meets True memo endpoint.genesisHash fun genesis _ after =>
      endpoint.IsGenesis reply genesis ∧ endpoint.KnownBy reply after := by
  apply Meets.bind meets_memo
  rintro _ _ after ⟨rfl, rfl, rfl⟩
  cases found : after.genesisHash with
  | some hash => exact .pure ⟨known.genesis hash found, known⟩
  | none =>
      refine Meets.bind (meets_call (Or.inl trivial)) ?_
      rintro block _ _ ⟨state, answer, replied, reading, _, rfl⟩
      rw [answers.single] at replied
      cases block with
      | none => exact .throw trivial
      | some block =>
          have isGenesis : endpoint.IsGenesis reply block.hash :=
            ⟨block, ⟨answer, replied, reading⟩, rfl⟩
          apply Meets.bind meets_remember
          rintro _ _ _ ⟨rfl, rfl⟩
          refine .pure ⟨isGenesis, ?_, known.receipts⟩
          rintro _ ⟨⟩
          exact isGenesis

theorem meets_answersList_reply {call : Call} :
    Meets True memo (endpoint.answersList call) fun value _ after =>
      value = isList (reply call .plain) ∧ after = memo := by
  apply Meets.bind meets_ask
  rintro given _ _ ⟨⟨state, replied⟩, _, rfl⟩
  rw [answers.single] at replied
  subst replied
  split
  case h_1 items listed =>
    rw [listed]
    exact .pure ⟨rfl, rfl⟩
  case h_2 unlisted =>
    refine .pure ⟨?_, rfl⟩
    unfold isList
    split
    · rename_i items listed
      exact absurd listed (unlisted items)
    · rfl

theorem meets_receiptsMethod_reply (known : endpoint.KnownBy reply memo) :
    Meets True memo endpoint.receiptsMethod fun method _ after =>
      method = reply.receiptsMethod ∧ endpoint.KnownBy reply after := by
  apply Meets.bind meets_memo
  rintro _ _ after ⟨rfl, rfl, rfl⟩
  cases found : after.receiptsMethod with
  | some method => exact .pure ⟨known.receipts method found, known⟩
  | none =>
      have probed : Meets True after endpoint.probeReceiptsMethod fun method _ other =>
          method = reply.receiptsMethod ∧ other = after := by
        apply Meets.bind (meets_answersList_reply answers)
        rintro _ _ _ ⟨rfl, rfl⟩
        unfold Reply.receiptsMethod
        split
        case isTrue => exact .pure ⟨rfl, rfl⟩
        case isFalse =>
          apply Meets.bind (meets_answersList_reply answers)
          rintro _ _ _ ⟨rfl, rfl⟩
          split
          · exact .pure ⟨rfl, rfl⟩
          · exact .pure ⟨rfl, rfl⟩
      apply Meets.bind probed
      rintro method _ _ ⟨rfl, rfl⟩
      apply Meets.bind meets_remember
      rintro _ _ _ ⟨rfl, rfl⟩
      refine .pure ⟨rfl, known.genesis, ?_⟩
      rintro _ ⟨⟩
      rfl

end Dialogues

end Endpoint

end ChainFeed
