import ChainFeed.Proofs.LogRanges
import ChainFeed.Proofs.RangeHints
import ChainFeed.Proofs.Topics

/-!
# Where logs are collected from receipts

A range of logs that a node refuses as too large is split, or else its logs are collected from
receipts, which takes a call for each of its transactions.  Which way each range goes can be
told from what is said.  A range is split where the node suggests, or in the middle if it
suggests nothing; but a suggestion that is no proper first part of the range keeps it from being
split at all, however long it is.
-/

namespace ChainFeed.Endpoint

open Dialogue

variable {σ : Type} {endpoint : Endpoint σ}

/-! ## Collecting -/

/-- Whether an exchange is not about logs of ranges. -/
def Elsewhere (exchange : Exchange) : Prop :=
  ∀ call ∈ exchange.calls, call.method ≠ "eth_getLogs"

theorem opensWith_logsByReceipts (endpoint : Endpoint σ) (height : UInt64) :
    OpensWith (blockCall height false) endpoint.options Elsewhere
      (endpoint.logsByReceipts height) := by
  refine (opensWith_call _ _ _).bind fun block => ?_
  cases block with
  | none => exact .pure _
  | some block =>
      refine (SaysOnly.mapM (fun hash => ?_) _).bind fun receipts => ?_
      · exact (opensWith_call _ _ _).saysOnly fun reply => by
          simp [Elsewhere, Exchange.calls, receiptCall, ReceiptsMethod.name]
      · split <;> exact .pure _

theorem exists_heightsBetween_eq_cons {first last : UInt64} (ordered : first ≤ last) :
    ∃ rest, heightsBetween first last = first :: rest := by
  rw [UInt64.le_iff_toNat_le] at ordered
  have size : last.toNat + 1 - first.toNat = (last.toNat - first.toNat) + 1 := by omega
  rw [heightsBetween, size, List.range_succ_eq_map, List.map_cons]
  exact ⟨_, congrArg (· :: _) (UInt64.add_zero first)⟩

/-- Collecting the logs of a range starts with its first block. -/
theorem opensWith_collecting (endpoint : Endpoint σ) {first last : UInt64} (ordered : first ≤ last) :
    OpensWith (blockCall first false) endpoint.options Elsewhere
      ((heightsBetween first last).mapM endpoint.logsByReceipts) := by
  obtain ⟨rest, heights⟩ := exists_heightsBetween_eq_cons ordered
  rw [heights, List.mapM_cons]
  refine (opensWith_logsByReceipts endpoint first).bind fun logs => ?_
  refine (SaysOnly.mapM (fun height => ?_) rest).bind fun others => .pure _
  exact (opensWith_logsByReceipts endpoint height).saysOnly fun reply => by
    simp [Elsewhere, Exchange.calls, blockCall]

/-! ## Ways of a range -/

/-- What may become of a range that is refused: it is split after a height, or its logs are
collected from receipts. -/
abbrev SplitLaw := NodeFailure → (first last : UInt64) → Option UInt64 → Prop

/-- The law by which only the logs of single blocks are collected from receipts. -/
def lastResort : SplitLaw := fun _ first last choice => choice = none → first = last

/-- The height after which a refused range is split: the end of the range that the node suggests,
if that is a proper first part, or the middle if it suggests nothing. -/
def splitPoint? (failure : NodeFailure) (first last : UInt64) : Option UInt64 :=
  match HeightRange.suggested? failure.text with
  | some hint => if hint.first = first ∧ hint.last < last then some hint.last else none
  | none => if first < last then some (first + (last - first) / 2) else none

/-- The law by which the node has a say. -/
def asSuggested : SplitLaw := fun failure first last choice =>
  choice = splitPoint? failure first last

/-- Whether exchanges are what fetching the logs of a range may say under a law, up to the end or
until it fails. -/
inductive RangeTalk (endpoint : Endpoint σ) (law : SplitLaw) :
    (first last : UInt64) → (complete : Bool) → List Exchange → Prop where
  | answered {first last : UInt64} (answer : Json) :
      RangeTalk endpoint law first last (Json.list? Raw.Log.ofJson? answer).isSome
        [.single (logsCall first last) (endpoint.tolerating .logsOutOfRange) (.ok answer)]
  | failed {first last : UInt64} {failure : NodeFailure} (other : failure.isTooBig = false) :
      RangeTalk endpoint law first last false
        [.single (logsCall first last) (endpoint.tolerating .logsOutOfRange) (.error failure)]
  /-- Receipts are asked for block by block. -/
  | collected {first last : UInt64} {failure : NodeFailure} {complete : Bool}
      {reply : Except NodeFailure Json} {said : List Exchange} (tooBig : failure.isTooBig = true)
      (choice : law failure first last none) (elsewhere : ∀ exchange ∈ said, Elsewhere exchange) :
      RangeTalk endpoint law first last complete
        (.single (logsCall first last) (endpoint.tolerating .logsOutOfRange) (.error failure) ::
          .single (blockCall first false) endpoint.options reply :: said)
  | split {first middle last : UInt64} {failure : NodeFailure} {complete : Bool}
      {left right : List Exchange} (tooBig : failure.isTooBig = true)
      (choice : law failure first last (some middle)) (atLeast : first ≤ middle)
      (below : middle < last) (lower : RangeTalk endpoint law first middle true left)
      (upper : RangeTalk endpoint law (middle + 1) last complete right) :
      RangeTalk endpoint law first last complete
        (.single (logsCall first last) (endpoint.tolerating .logsOutOfRange) (.error failure) ::
          (left ++ right))
  /-- Nothing is asked for after a failure. -/
  | brokenOff {first middle last : UInt64} {failure : NodeFailure} {left : List Exchange}
      (tooBig : failure.isTooBig = true) (choice : law failure first last (some middle))
      (atLeast : first ≤ middle) (below : middle < last)
      (lower : RangeTalk endpoint law first middle false left) :
      RangeTalk endpoint law first last false
        (.single (logsCall first last) (endpoint.tolerating .logsOutOfRange) (.error failure) ::
          left)

/-- Whether fetching the logs of a range says what a law allows, in every session and however it
ends. -/
def Obeys (endpoint : Endpoint σ) (law : SplitLaw) (first last : UInt64) : Prop :=
  ∀ session : Session σ, ∃ said : List Exchange,
    ((endpoint.logsBetween first last).run.run session).2.transcript =
        session.transcript ++ said ∧
      RangeTalk endpoint law first last
        ((endpoint.logsBetween first last).run.run session).1.isOk said

variable {law : SplitLaw} {failure : NodeFailure} {first last : UInt64} {complete : Bool}
  {said : List Exchange} {session : Session σ}

/-- The middle of a range is in its first half. -/
theorem middle_within (below : first < last) :
    first ≤ first + (last - first) / 2 ∧ first + (last - first) / 2 < last := by
  have middle := (splitsExactly (UInt64.le_of_lt below)).middle
  rw [UInt64.lt_iff_toNat_lt] at below
  rw [UInt64.le_iff_toNat_le, UInt64.lt_iff_toNat_lt, middle]
  omega

/-- A range is split after its first part, if that is proper. -/
theorem splitPoint?_eq (failure : NodeFailure) (first last : UInt64) :
    splitPoint? failure first last =
      if (firstPart failure first last).first = first ∧
          first ≤ (firstPart failure first last).last ∧
          (firstPart failure first last).last < last then
        some (firstPart failure first last).last
      else none := by
  rw [splitPoint?, firstPart]
  cases suggested : HeightRange.suggested? failure.text with
  | some hint =>
      have ordered := HeightRange.suggested?_ordered suggested
      exact if_congr ⟨fun ⟨same, below⟩ => ⟨same, same ▸ ordered, below⟩,
        fun ⟨same, _, below⟩ => ⟨same, below⟩⟩ rfl rfl
  | none =>
      exact if_congr ⟨fun below => ⟨rfl, middle_within below⟩,
        fun ⟨_, atLeast, below⟩ => UInt64.lt_of_le_of_lt atLeast below⟩ rfl rfl

theorem proper_of_splitPoint? {middle : UInt64}
    (point : splitPoint? failure first last = some middle) :
    ((firstPart failure first last).first = first ∧
      first ≤ (firstPart failure first last).last ∧
      (firstPart failure first last).last < last) ∧
      (firstPart failure first last).last = middle := by
  rw [splitPoint?_eq, Option.ite_none_right_eq_some] at point
  exact ⟨point.1, Option.some.inj point.2⟩

theorem improper_of_splitPoint? (unsplit : splitPoint? failure first last = none) :
    ¬((firstPart failure first last).first = first ∧
      first ≤ (firstPart failure first last).last ∧
      (firstPart failure first last).last < last) := by
  intro proper
  rw [splitPoint?_eq, if_pos proper] at unsplit
  cases unsplit

/-! ## What fetching says -/

section Refused

variable (refused : (endpoint.node.answer (logsCall first last)
  (endpoint.tolerating .logsOutOfRange) session.node).1 = .error failure)
include refused

theorem run_logsBetween_of_failed (other : failure.isTooBig = false) :
    (endpoint.logsBetween first last).run.run session =
      (.error (.node failure),
        endpoint.afterAsk (logsCall first last) (endpoint.tolerating .logsOutOfRange)
          session) := by
  rw [logsBetween, run_bind, run_ask, continueWith_ok, refused]
  simp only [other, Bool.false_eq_true, if_false]
  rfl

variable (tooBig : failure.isTooBig = true)
include tooBig

theorem run_logsBetween_of_split {middle : UInt64}
    (point : splitPoint? failure first last = some middle) :
    (endpoint.logsBetween first last).run.run session =
      (do
        let left ← endpoint.logsBetween first middle
        let right ← endpoint.logsBetween (middle + 1) last
        pure (left ++ right) : Dialogue σ (List Raw.Log)).run.run
        (endpoint.afterAsk (logsCall first last) (endpoint.tolerating .logsOutOfRange)
          session) := by
  obtain ⟨proper, rfl⟩ := proper_of_splitPoint? point
  rw [logsBetween, run_bind, run_ask, continueWith_ok, refused]
  simp only [tooBig, if_true, dif_pos proper]

theorem run_logsBetween_of_unsplit (unsplit : splitPoint? failure first last = none) :
    (endpoint.logsBetween first last).run.run session =
      (do
        let perBlock ← (heightsBetween first last).mapM endpoint.logsByReceipts
        pure perBlock.flatten : Dialogue σ (List Raw.Log)).run.run
        (endpoint.afterAsk (logsCall first last) (endpoint.tolerating .logsOutOfRange)
          session) := by
  rw [logsBetween, run_bind, run_ask, continueWith_ok, refused]
  simp only [tooBig, if_true, dif_neg (improper_of_splitPoint? unsplit)]

/-- A range that is not split is looked at block by block. -/
theorem transcript_of_unsplit (ordered : first ≤ last)
    (unsplit : splitPoint? failure first last = none) :
    ∃ (reply : Except NodeFailure Json) (said : List Exchange),
      ((endpoint.logsBetween first last).run.run session).2.transcript =
          session.transcript ++
            .single (logsCall first last) (endpoint.tolerating .logsOutOfRange)
                (.error failure) ::
              .single (blockCall first false) endpoint.options reply :: said ∧
        ∀ exchange ∈ said, Elsewhere exchange := by
  have collecting := (opensWith_collecting endpoint ordered).bind
    fun perBlock => SaysOnly.pure perBlock.flatten
  obtain ⟨reply, said, recorded, elsewhere⟩ := collecting
    (endpoint.afterAsk (logsCall first last) (endpoint.tolerating .logsOutOfRange) session)
  refine ⟨reply, said, ?_, elsewhere⟩
  rw [run_logsBetween_of_unsplit refused tooBig unsplit, recorded, afterAsk_transcript refused,
    List.append_assoc, List.singleton_append]

end Refused

/-- Fetching the parts of a range one after the other. -/
theorem Obeys.parts {middle : UInt64} (lower : endpoint.Obeys law first middle)
    (upper : endpoint.Obeys law (middle + 1) last) (session : Session σ) :
    let ending := (do
      let left ← endpoint.logsBetween first middle
      let right ← endpoint.logsBetween (middle + 1) last
      pure (left ++ right) : Dialogue σ (List Raw.Log)).run.run session
    ∃ said, ending.2.transcript = session.transcript ++ said ∧
      (ending.1.isOk = false ∧ RangeTalk endpoint law first middle false said ∨
        ∃ left right, said = left ++ right ∧ RangeTalk endpoint law first middle true left ∧
          RangeTalk endpoint law (middle + 1) last ending.1.isOk right) := by
  obtain ⟨left, recordedLeft, lowerTalk⟩ := lower session
  rw [run_bind]
  generalize (endpoint.logsBetween first middle).run.run session = ending at *
  obtain ⟨outcome, between⟩ := ending
  cases outcome with
  | error fault => exact ⟨left, recordedLeft, .inl ⟨rfl, lowerTalk⟩⟩
  | ok leftLogs =>
      obtain ⟨right, recordedRight, upperTalk⟩ := upper between
      rw [continueWith_ok, run_bind]
      generalize (endpoint.logsBetween (middle + 1) last).run.run between = ending at *
      obtain ⟨outcome, final⟩ := ending
      have recorded : final.transcript = session.transcript ++ (left ++ right) := by
        rw [recordedRight, recordedLeft, List.append_assoc]
      cases outcome with
      | error fault => exact ⟨_, recorded, .inr ⟨left, right, rfl, lowerTalk, upperTalk⟩⟩
      | ok rightLogs => exact ⟨_, recorded, .inr ⟨left, right, rfl, lowerTalk, upperTalk⟩⟩

/-- However fetching the logs of a range ends, and whatever the node answers, each range that is
refused as too large is split where the node suggests, or in the middle. If the node suggests a
range that is of no use for that, the logs of the whole range are collected from receipts. -/
theorem obeys_asSuggested (endpoint : Endpoint σ) (ordered : first ≤ last) :
    endpoint.Obeys asSuggested first last := by
  induction size : last.toNat - first.toNat using Nat.strongRecOn generalizing first last with
  | ind size ih =>
      intro session
      cases replied : (endpoint.node.answer (logsCall first last)
        (endpoint.tolerating .logsOutOfRange) session.node).1 with
      | ok answer =>
          rw [logsBetween, run_bind, run_ask, continueWith_ok, replied]
          dsimp only
          rw [run_decoded]
          refine ⟨_, afterAsk_transcript replied, ?_⟩
          have talk := @RangeTalk.answered σ endpoint asSuggested first last answer
          cases read : Json.list? Raw.Log.ofJson? answer <;> rw [read] at talk <;> exact talk
      | error failure =>
          cases tooBig : failure.isTooBig with
          | false =>
              rw [run_logsBetween_of_failed replied tooBig]
              exact ⟨_, afterAsk_transcript replied, .failed tooBig⟩
          | true =>
              cases point : splitPoint? failure first last with
              | none =>
                  obtain ⟨reply, said, recorded, elsewhere⟩ :=
                    transcript_of_unsplit replied tooBig ordered point
                  exact ⟨_, recorded, .collected tooBig point.symm elsewhere⟩
              | some middle =>
                  obtain ⟨⟨-, atLeast, below⟩, rfl⟩ := proper_of_splitPoint? point
                  obtain ⟨⟨-, beforeLast⟩, shorterLeft, shorterRight⟩ :=
                    parts_within atLeast below
                  have lower := ih _ (size ▸ shorterLeft) atLeast rfl
                  have upper := ih _ (size ▸ shorterRight) beforeLast rfl
                  obtain ⟨said, recorded, talk⟩ := lower.parts upper
                    (endpoint.afterAsk (logsCall first last)
                      (endpoint.tolerating .logsOutOfRange) session)
                  rw [afterAsk_transcript replied, List.append_assoc, List.singleton_append]
                    at recorded
                  rw [run_logsBetween_of_split replied tooBig point]
                  refine ⟨_, recorded, ?_⟩
                  rcases talk with ⟨failed, lower⟩ | ⟨left, right, rfl, lower, upper⟩
                  · rw [failed]
                    exact .brokenOff tooBig point.symm atLeast below lower
                  · exact .split tooBig point.symm atLeast below lower upper

theorem RangeTalk.opens (talk : RangeTalk endpoint law first last complete said) :
    ∃ reply rest, said = .single (logsCall first last) (endpoint.tolerating .logsOutOfRange)
      reply :: rest := by
  cases talk <;> exact ⟨_, _, rfl⟩

/-- If a node ever refuses more than one block as too large and suggests a range that is of no use,
receipts are not the last resort. -/
theorem not_obeys_of_unsplit (longer : first < last) (session : Session σ)
    (refused : (endpoint.node.answer (logsCall first last)
      (endpoint.tolerating .logsOutOfRange) session.node).1 = .error failure)
    (tooBig : failure.isTooBig = true) (unsplit : splitPoint? failure first last = none) :
    ¬endpoint.Obeys lastResort first last := by
  intro obeys
  obtain ⟨said, recorded, talk⟩ := obeys session
  obtain ⟨reply, others, collected, -⟩ :=
    transcript_of_unsplit refused tooBig (UInt64.le_of_lt longer) unsplit
  have same := List.append_cancel_left (collected.symm.trans recorded)
  -- After the refusal, a talk about a first part would go on with a call for logs.
  have elsewhere {middle : UInt64} {part rest : List Exchange} {ended : Bool}
      (lower : RangeTalk endpoint lastResort first middle ended part) :
      .single (blockCall first false) endpoint.options reply :: others ≠ part ++ rest := by
    obtain ⟨partReply, partRest, rfl⟩ := lower.opens
    simp [blockCall, logsCall]
  generalize ((endpoint.logsBetween first last).run.run session).1.isOk = complete at talk
  cases talk with
  | answered answer => simp at same
  | failed other => simp at same
  | collected _ choice _ =>
      obtain rfl := choice rfl
      exact absurd longer (UInt64.lt_irrefl _)
  | split _ _ _ _ lower _ => exact elsewhere lower (List.cons.inj same).2
  | brokenOff _ _ _ _ lower =>
      exact elsewhere lower (((List.cons.inj same).2).trans (List.append_nil _).symm)

/-! ## A node that suggests something else -/

/-- A refusal that suggests blocks one and two. -/
def strayFailure : NodeFailure :=
  .server (-32005)
    "query returned more than 10000 results. Try with this block range [0x1, 0x2]."

/-- A node that lists logs block by block only, and knows no blocks. -/
def strayNode : Node Unit where
  url := ""
  answer call _ _ :=
    match call.method, call.params with
    | "eth_getLogs", [.obj [(_, .str first), (_, .str last)]] =>
        (if first = last then .ok (.arr []) else .error strayFailure, ())
    | _, _ => (.ok .null, ())
  answerBatch _ _ _ := (.error (.transport ""), ())

theorem strayNode_refuses (options : CallOptions) :
    (strayNode.answer (logsCall 7 8) options ()).1 = .error strayFailure := by
  rw [logsCall, heightParam_seven, heightParam_eight]
  rfl

/-- Two blocks are not split, although each of them could be listed. -/
theorem obeys_strayNode :
    (7 : UInt64) ≤ 8 ∧ splitPoint? strayFailure 7 8 = none ∧
      (Endpoint.of strayNode .standard).Obeys asSuggested 7 8 :=
  ⟨by decide, by decide +kernel, obeys_asSuggested _ (by decide)⟩

/-- The logs of two blocks are collected from receipts. -/
theorem not_obeys_strayNode : ¬(Endpoint.of strayNode .standard).Obeys lastResort 7 8 :=
  not_obeys_of_unsplit (by decide) (.start ()) (strayNode_refuses _) (by decide +kernel)
    (by decide +kernel)

end ChainFeed.Endpoint
