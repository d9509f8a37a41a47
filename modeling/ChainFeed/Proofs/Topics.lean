import ChainFeed.Proofs.Runs

/-!
# What dialogues are about

A dialogue that fails has said something too.  What all its exchanges have in common, and which
call comes first, follows from its parts, whatever the node answers.
-/

namespace ChainFeed

variable {σ α β : Type}

namespace Dialogue

/-- Whether all that is said in a dialogue has a property. -/
def SaysOnly (topic : Exchange → Prop) (dialogue : Dialogue σ α) : Prop :=
  ∀ session : Session σ, ∃ said : List Exchange,
    (dialogue.run.run session).2.transcript = session.transcript ++ said ∧
      ∀ exchange ∈ said, topic exchange

/-- Whether a dialogue starts with a call, and all that is said afterwards has a property. -/
def OpensWith (call : Call) (options : CallOptions) (topic : Exchange → Prop)
    (dialogue : Dialogue σ α) : Prop :=
  ∀ session : Session σ, ∃ (reply : Except NodeFailure Json) (said : List Exchange),
    (dialogue.run.run session).2.transcript =
        session.transcript ++ .single call options reply :: said ∧
      ∀ exchange ∈ said, topic exchange

variable {topic : Exchange → Prop} {dialogue : Dialogue σ α} {call : Call}
  {options : CallOptions}

namespace SaysOnly

theorem pure (value : α) : SaysOnly topic (Pure.pure value : Dialogue σ α) :=
  fun _ => ⟨[], (List.append_nil _).symm, List.forall_mem_nil _⟩

theorem throw (fault : Fault) : SaysOnly topic (MonadExcept.throw fault : Dialogue σ α) :=
  fun _ => ⟨[], (List.append_nil _).symm, List.forall_mem_nil _⟩

theorem bind {next : α → Dialogue σ β} (first : SaysOnly topic dialogue)
    (later : ∀ value, SaysOnly topic (next value)) : SaysOnly topic (dialogue >>= next) := by
  intro session
  obtain ⟨said, recorded, onTopic⟩ := first session
  rw [run_bind]
  generalize dialogue.run.run session = ending at recorded
  obtain ⟨outcome, middle⟩ := ending
  cases outcome with
  | error fault => exact ⟨said, recorded, onTopic⟩
  | ok value =>
      obtain ⟨more, recordedMore, moreOnTopic⟩ := later value middle
      refine ⟨said ++ more, ?_, List.forall_mem_append.mpr ⟨onTopic, moreOnTopic⟩⟩
      rw [continueWith_ok, recordedMore, recorded, List.append_assoc]

theorem mapM {act : α → Dialogue σ β} (each : ∀ item, SaysOnly topic (act item))
    (items : List α) : SaysOnly topic (items.mapM act) := by
  induction items with
  | nil => exact pure _
  | cons item rest ih =>
      rw [List.mapM_cons]
      exact (each item).bind fun _ => ih.bind fun _ => pure _

end SaysOnly

namespace OpensWith

theorem bind {next : α → Dialogue σ β} (first : OpensWith call options topic dialogue)
    (later : ∀ value, SaysOnly topic (next value)) :
    OpensWith call options topic (dialogue >>= next) := by
  intro session
  obtain ⟨reply, said, recorded, onTopic⟩ := first session
  rw [run_bind]
  generalize dialogue.run.run session = ending at recorded
  obtain ⟨outcome, middle⟩ := ending
  cases outcome with
  | error fault => exact ⟨reply, said, recorded, onTopic⟩
  | ok value =>
      obtain ⟨more, recordedMore, moreOnTopic⟩ := later value middle
      refine ⟨reply, said ++ more, ?_, List.forall_mem_append.mpr ⟨onTopic, moreOnTopic⟩⟩
      rw [continueWith_ok, recordedMore, recorded, List.append_assoc, List.cons_append]

theorem saysOnly (opens : OpensWith call options topic dialogue)
    (onTopic : ∀ reply, topic (.single call options reply)) : SaysOnly topic dialogue := by
  intro session
  obtain ⟨reply, said, recorded, others⟩ := opens session
  exact ⟨_, recorded, List.forall_mem_cons.mpr ⟨onTopic reply, others⟩⟩

end OpensWith

end Dialogue

namespace Endpoint

open Dialogue

variable {endpoint : Endpoint σ} {topic : Exchange → Prop}

theorem saysOnly_answered (reply : Except NodeFailure α) :
    SaysOnly topic (answered reply : Dialogue σ α) := by
  cases reply with
  | error failure => exact .throw _
  | ok value => exact .pure _

theorem saysOnly_decoded (method : String) (read : Json → Option α) (answer : Json) :
    SaysOnly topic (decoded method read answer : Dialogue σ α) := by
  unfold decoded
  cases read answer with
  | none => exact .throw _
  | some value => exact .pure _

theorem opensWith_call (call : Call) (options : CallOptions) (read : Json → Option α) :
    OpensWith call options topic (endpoint.call call options read) := by
  have asked : OpensWith call options topic (endpoint.ask call options) :=
    fun _ => ⟨_, [], rfl, List.forall_mem_nil _⟩
  exact asked.bind fun reply => (saysOnly_answered reply).bind fun answer =>
    saysOnly_decoded _ read answer

/-- The session after a call was answered. -/
def afterAsk (endpoint : Endpoint σ) (call : Call) (options : CallOptions)
    (session : Session σ) : Session σ :=
  let answered := endpoint.node.answer call options session.node
  { session with
    node := answered.2
    transcript := session.transcript ++ [.single call options answered.1] }

theorem run_ask (call : Call) (options : CallOptions) (session : Session σ) :
    (endpoint.ask call options).run.run session =
      (.ok (endpoint.node.answer call options session.node).1,
        endpoint.afterAsk call options session) := rfl

theorem afterAsk_transcript {session : Session σ} {call : Call} {options : CallOptions}
    {reply : Except NodeFailure Json}
    (replied : (endpoint.node.answer call options session.node).1 = reply) :
    (endpoint.afterAsk call options session).transcript =
      session.transcript ++ [.single call options reply] := by
  rw [← replied]
  rfl

end Endpoint

end ChainFeed
