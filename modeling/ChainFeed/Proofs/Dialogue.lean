import ChainFeed.Engine.Dialogue
import Mathlib.Data.List.Forall2

/-!
# Theory of dialogues

What a dialogue achieves is stated by a property of its value, of what was said
on the way and of the memo afterwards.  A dialogue either may fail, and then the
property is about the runs that do not, or it may not, and then it has to end
with a value whatever the state of the node is.
-/

namespace ChainFeed

namespace Dialogue

variable {σ α β : Type}

/-- Whether a dialogue that starts with a memo ends with a value for which a
property holds, or else with a fault if it may. The record of the session is only
added to. -/
def Meets (mayFail : Prop) (memo : Memo) (dialogue : Dialogue σ α)
    (post : α → List Exchange → Memo → Prop) : Prop :=
  ∀ session : Session σ, session.memo = memo →
    ∃ said : List Exchange,
      (dialogue.run.run session).2.transcript = session.transcript ++ said ∧
        match (dialogue.run.run session).1 with
        | .ok value => post value said (dialogue.run.run session).2.memo
        | .error _ => mayFail

variable {mayFail : Prop} {memo : Memo} {dialogue : Dialogue σ α}
  {post : α → List Exchange → Memo → Prop}

namespace Meets

/-! ## Structure of dialogues -/

theorem pure {value : α} (holds : post value [] memo) :
    Meets mayFail memo (Pure.pure value : Dialogue σ α) post := by
  intro session rfl
  exact ⟨[], (List.append_nil _).symm, holds⟩

theorem throw {fault : Fault} (allowed : mayFail) :
    Meets mayFail memo (MonadExcept.throw fault : Dialogue σ α) post := by
  intro session _
  exact ⟨[], (List.append_nil _).symm, allowed⟩

/-- A weaker property. -/
theorem mono {weaker : α → List Exchange → Memo → Prop}
    (meets : Meets mayFail memo dialogue post)
    (weaken : ∀ value said after, post value said after → weaker value said after) :
    Meets mayFail memo dialogue weaker := by
  intro session start
  obtain ⟨said, recorded, ending⟩ := meets session start
  refine ⟨said, recorded, ?_⟩
  cases outcome : (dialogue.run.run session).1 with
  | ok value =>
      rw [outcome] at ending
      exact weaken _ _ _ ending
  | error fault =>
      rw [outcome] at ending
      exact ending

/-- A dialogue that does not fail. -/
theorem of_never (meets : Meets False memo dialogue post) :
    Meets mayFail memo dialogue post := by
  intro session start
  obtain ⟨said, recorded, ending⟩ := meets session start
  refine ⟨said, recorded, ?_⟩
  cases outcome : (dialogue.run.run session).1 with
  | ok value =>
      rw [outcome] at ending
      exact ending
  | error fault =>
      rw [outcome] at ending
      exact ending.elim

/-- One dialogue after the other. -/
theorem bind {next : α → Dialogue σ β} {last : β → List Exchange → Memo → Prop}
    (first : Meets mayFail memo dialogue post)
    (second : ∀ value said after, post value said after →
      Meets mayFail after (next value) fun result later => last result (said ++ later)) :
    Meets mayFail memo (dialogue >>= next) last := by
  intro session start
  obtain ⟨said, recorded, ending⟩ := first session start
  have run : (dialogue >>= next).run.run session =
      match (dialogue.run.run session).1 with
      | .ok value => (next value).run.run (dialogue.run.run session).2
      | .error fault => (.error fault, (dialogue.run.run session).2) := by
    change (ExceptT.bindCont next (dialogue.run.run session).1).run
      (dialogue.run.run session).2 = _
    cases (dialogue.run.run session).1 <;> rfl
  rw [run]
  cases outcome : (dialogue.run.run session).1 with
  | ok value =>
      rw [outcome] at ending
      obtain ⟨later, recordedLater, endingLater⟩ :=
        second value said _ ending (dialogue.run.run session).2 rfl
      refine ⟨said ++ later, ?_, endingLater⟩
      rw [recordedLater, recorded, List.append_assoc]
  | error fault =>
      rw [outcome] at ending
      exact ⟨said, recorded, ending⟩

theorem map {function : α → β} {last : β → List Exchange → Memo → Prop}
    (first : Meets mayFail memo dialogue fun value said after =>
      last (function value) said after) :
    Meets mayFail memo (function <$> dialogue) last := by
  rw [map_eq_pure_bind]
  apply bind first
  intro value said after holds
  apply pure
  rw [List.append_nil]
  exact holds

/-- The same dialogue for each of some items, when each of them leaves the memo as
it is and what is said about each of them has a property. -/
theorem mapM (each : α → β → Prop) (topic : Exchange → Prop) {act : α → Dialogue σ β}
    {items : List α}
    (meets : ∀ item ∈ items, Meets mayFail memo (act item) fun value said after =>
      each item value ∧ (∀ exchange ∈ said, topic exchange) ∧ after = memo) :
    Meets mayFail memo (items.mapM act) fun values said after =>
      List.Forall₂ each items values ∧ (∀ exchange ∈ said, topic exchange) ∧ after = memo := by
  induction items with
  | nil =>
      rw [List.mapM_nil]
      exact pure ⟨.nil, fun _ member => absurd member List.not_mem_nil, rfl⟩
  | cons item items ih =>
      rw [List.mapM_cons]
      apply bind (meets item List.mem_cons_self)
      rintro value said _ ⟨holds, saidTopic, rfl⟩
      apply bind (ih fun other member => meets other (List.mem_cons_of_mem _ member))
      rintro values later _ ⟨holdLater, laterTopic, rfl⟩
      refine pure ⟨.cons holds holdLater, ?_, rfl⟩
      intro exchange member
      rw [List.append_nil, List.mem_append] at member
      exact member.elim (saidTopic exchange) (laterTopic exchange)

/-! ## Runs of dialogues -/

/-- A dialogue that may not fail ends with a value. -/
theorem ends (meets : Meets False memo dialogue post) (session : Session σ)
    (start : session.memo = memo) :
    ∃ (value : α) (said : List Exchange) (final : Session σ),
      dialogue.run.run session = (.ok value, final) ∧
        final.transcript = session.transcript ++ said ∧ post value said final.memo := by
  obtain ⟨said, recorded, ending⟩ := meets session start
  cases outcome : (dialogue.run.run session).1 with
  | ok value =>
      rw [outcome] at ending
      exact ⟨value, said, _, Prod.ext outcome rfl, recorded, ending⟩
  | error fault =>
      rw [outcome] at ending
      exact ending.elim

/-- What holds of a run that ends with a value. -/
theorem of_run (meets : Meets mayFail memo dialogue post) {session final : Session σ}
    (start : session.memo = memo) {value : α}
    (run : dialogue.run.run session = (.ok value, final)) :
    ∃ said : List Exchange,
      final.transcript = session.transcript ++ said ∧ post value said final.memo := by
  obtain ⟨said, recorded, ending⟩ := meets session start
  rw [run] at recorded ending
  exact ⟨said, recorded, ending⟩

end Meets

end Dialogue

/-- The calls of an exchange. -/
def Exchange.calls : Exchange → List Call
  | single call _ _ => [call]
  | batch calls _ _ => calls

/-- Whether a value was read from the answer to a call of a batch. -/
def Heard {α : Type} (said : List Exchange) (call : Call) (options : CallOptions)
    (read : Json → Option α) (value : α) : Prop :=
  ∃ (calls : List Call) (answers : List Json), .batch calls options (.ok answers) ∈ said ∧
    ∃ (position : Nat) (answer : Json), calls[position]? = some call ∧
      answers[position]? = some answer ∧ read answer = some value

theorem Heard.mono {α : Type} {said more : List Exchange} {call : Call} {options : CallOptions}
    {read : Json → Option α} {value : α} (heard : Heard said call options read value)
    (kept : said ⊆ more) : Heard more call options read value := by
  obtain ⟨calls, answers, member, rest⟩ := heard
  exact ⟨calls, answers, kept member, rest⟩

/-- An answer that was heard can be read. -/
theorem Heard.read {α : Type} {said : List Exchange} {call : Call} {options : CallOptions}
    {read : Json → Option α} {answer : Json} {value : α}
    (heard : Heard said call options some answer) (reading : read answer = some value) :
    Heard said call options read value := by
  obtain ⟨calls, answers, member, position, found, foundCall, foundAnswer, same⟩ := heard
  rw [Option.some.injEq] at same
  subst same
  exact ⟨calls, answers, member, position, found, foundCall, foundAnswer, reading⟩

/-- Relating a list to one that is related to its pairs with another list. -/
theorem forall₂_of_zip {α β γ : Type} {related : α → β → Prop} {next : α × β → γ → Prop}
    {left : List α} {middle : List β} {right : List γ} (beside : List.Forall₂ related left middle)
    (paired : List.Forall₂ next (left.zip middle) right) :
    List.Forall₂ (fun first last => ∃ between, related first between ∧ next (first, between) last)
      left right := by
  induction beside generalizing right with
  | nil =>
      rw [List.zip_nil_left, List.forall₂_nil_left_iff] at paired
      rw [paired]
      exact .nil
  | cons relates _ ih =>
      rw [List.zip_cons_cons] at paired
      cases paired with
      | cons leads rest => exact .cons ⟨_, relates, leads⟩ (ih rest)

namespace Endpoint

open Dialogue

variable {σ α : Type} {mayFail : Prop} {memo : Memo} {endpoint : Endpoint σ}

/-! ## Calls -/

theorem meets_ask {call : Call} {options : CallOptions} :
    Meets mayFail memo (endpoint.ask call options) fun reply said after =>
      (∃ state, (endpoint.node.answer call options state).1 = reply) ∧
        said = [.single call options reply] ∧ after = memo := by
  intro session start
  exact ⟨_, rfl, ⟨session.node, rfl⟩, rfl, start⟩

theorem meets_askBatch {calls : List Call} {options : CallOptions} :
    Meets mayFail memo (endpoint.askBatch calls options) fun reply said after =>
      (∃ state, (endpoint.node.answerBatch calls options state).1 = reply) ∧
        said = [.batch calls options reply] ∧ after = memo := by
  intro session start
  exact ⟨_, rfl, ⟨session.node, rfl⟩, rfl, start⟩

theorem meets_answered {reply : Except NodeFailure α}
    (allowed : ∀ failure, reply = .error failure → mayFail) :
    Meets mayFail memo (answered reply : Dialogue σ α) fun value said after =>
      reply = .ok value ∧ said = [] ∧ after = memo := by
  cases reply with
  | ok result => exact .pure ⟨rfl, rfl, rfl⟩
  | error reason => exact .throw (allowed reason rfl)

theorem meets_decoded {method : String} {read : Json → Option α} {answer : Json}
    (allowed : read answer = none → mayFail) :
    Meets mayFail memo (decoded method read answer : Dialogue σ α) fun value said after =>
      read answer = some value ∧ said = [] ∧ after = memo := by
  unfold decoded
  cases reading : read answer with
  | none => exact .throw (allowed reading)
  | some result => exact .pure ⟨rfl, rfl, rfl⟩

/-- A call ends with the value that the answer is read as. -/
theorem meets_call {call : Call} {options : CallOptions} {read : Json → Option α}
    (readable : mayFail ∨ ∀ state : σ, ∃ answer,
      (endpoint.node.answer call options state).1 = .ok answer ∧ (read answer).isSome) :
    Meets mayFail memo (endpoint.call call options read) fun value said after =>
      ∃ (state : σ) (answer : Json),
        (endpoint.node.answer call options state).1 = .ok answer ∧ read answer = some value ∧
          said = [.single call options (.ok answer)] ∧ after = memo := by
  apply Meets.bind meets_ask
  rintro reply _ known ⟨⟨state, replied⟩, rfl, rfl⟩
  refine Meets.bind (meets_answered ?_) ?_
  · intro reason rfl
    apply readable.resolve_right
    intro isReadable
    obtain ⟨answer, answers, _⟩ := isReadable state
    rw [replied] at answers
    exact absurd answers (by simp)
  · rintro answer _ _ ⟨rfl, rfl, rfl⟩
    refine Meets.mono (meets_decoded ?_) ?_
    · intro unread
      apply readable.resolve_right
      intro isReadable
      obtain ⟨other, answers, isSome⟩ := isReadable state
      rw [replied, Except.ok.injEq] at answers
      rw [← answers, unread] at isSome
      exact absurd isSome (by simp)
    · rintro result _ _ ⟨reading, rfl, rfl⟩
      exact ⟨state, answer, replied, reading, rfl, rfl⟩

/-! ## Batches -/

/-- What a batch of calls says: nothing if it is empty, and otherwise one exchange
with an answer for every call. -/
def BatchSaid (calls : List Call) (options : CallOptions) (answers : List Json)
    (said : List Exchange) : Prop :=
  answers.length = calls.length ∧
    (calls = [] ∧ said = [] ∨ said = [.batch calls options (.ok answers)])

/-- Every answer to a batch stands beside its call. -/
theorem BatchSaid.answered {calls : List Call} {options : CallOptions} {answers : List Json}
    {said : List Exchange} (batchSaid : BatchSaid calls options answers said) :
    List.Forall₂ (fun call answer => Heard said call options some answer) calls answers := by
  obtain ⟨sameLength, silent | spoken⟩ := batchSaid
  · obtain ⟨rfl, _⟩ := silent
    rw [List.eq_nil_of_length_eq_zero sameLength]
    exact .nil
  · rw [List.forall₂_iff_get]
    refine ⟨sameLength.symm, ?_⟩
    intro position inCalls inAnswers
    refine ⟨calls, answers, ?_, position, answers[position], ?_, ?_, rfl⟩
    · rw [spoken]
      exact List.mem_singleton_self _
    · exact List.getElem?_eq_getElem inCalls
    · exact List.getElem?_eq_getElem inAnswers

/-- The answers to a batch are those of the node. -/
theorem meets_batchRaw {calls : List Call} {options : CallOptions} :
    Meets True memo (endpoint.batchRaw calls options) fun answers said after =>
      BatchSaid calls options answers said ∧
        (calls ≠ [] →
          ∃ state, (endpoint.node.answerBatch calls options state).1 = .ok answers) ∧
        after = memo := by
  unfold batchRaw
  cases calls with
  | nil => exact .pure ⟨⟨rfl, Or.inl ⟨rfl, rfl⟩⟩, fun asked => absurd rfl asked, rfl⟩
  | cons first rest =>
      apply Meets.bind meets_askBatch
      rintro reply _ _ ⟨replied, rfl, rfl⟩
      apply Meets.bind (meets_answered fun _ _ => trivial)
      rintro answers _ _ ⟨rfl, rfl, rfl⟩
      split
      · rename_i sameLength
        exact .pure ⟨⟨sameLength, Or.inr rfl⟩, fun _ => replied, rfl⟩
      · exact .throw trivial

/-- Whether answers to batches of calls count as heard, judged by any record that has what
was said. -/
def Hears (endpoint : Endpoint σ)
    (heard : List Exchange → Call → CallOptions → Json → Prop) : Prop :=
  ∀ (memo : Memo) (calls : List Call) (options : CallOptions),
    Meets True memo (endpoint.batchRaw calls options) fun answers said after =>
      (∀ record, said ⊆ record →
        List.Forall₂ (fun call answer => heard record call options answer) calls answers) ∧
          after = memo

/-- Whether an answer to a call of a batch is on record. -/
abbrev OnRecord (record : List Exchange) (call : Call) (options : CallOptions) (answer : Json) :
    Prop :=
  Heard record call options some answer

/-- What is on record was heard. -/
theorem hears_record (endpoint : Endpoint σ) : endpoint.Hears OnRecord := by
  intro memo calls options
  apply Meets.mono meets_batchRaw
  rintro answers said _ ⟨batchSaid, _, same⟩
  exact ⟨fun record kept => batchSaid.answered.imp fun _ _ heard => heard.mono kept, same⟩

/-- Whether a value is read from an answer that counts as heard. -/
def Reads (heard : Call → CallOptions → Json → Prop) (call : Call) (options : CallOptions)
    (read : Json → Option α) (value : α) : Prop :=
  ∃ answer, heard call options answer ∧ read answer = some value

theorem Reads.heard {record : List Exchange} {call : Call} {options : CallOptions}
    {read : Json → Option α} {value : α} (reads : Reads (OnRecord record) call options read value) :
    Heard record call options read value := by
  obtain ⟨answer, answered, reading⟩ := reads
  exact answered.read reading

/-- Every value of a batch is read from what was heard. -/
theorem meets_batch_reads {heard : List Exchange → Call → CallOptions → Json → Prop}
    (hears : endpoint.Hears heard) {calls : List Call} {options : CallOptions}
    {read : Json → Option α} :
    Meets True memo (endpoint.batch calls options read) fun values said after =>
      (∀ record, said ⊆ record →
        List.Forall₂ (fun call value => Reads (heard record) call options read value)
          calls values) ∧ after = memo := by
  apply Meets.bind (hears memo calls options)
  rintro answers said _ ⟨heardAll, rfl⟩
  refine Meets.mono (Meets.mapM
    (fun (entry : Call × Json) value => read entry.2 = some value) (fun _ => False) ?_) ?_
  · intro entry _
    apply Meets.mono (meets_decoded fun _ => trivial)
    rintro value _ _ ⟨reading, rfl, rfl⟩
    exact ⟨reading, fun _ member => absurd member List.not_mem_nil, rfl⟩
  · rintro values later _ ⟨read, silent, rfl⟩
    obtain rfl := List.eq_nil_iff_forall_not_mem.mpr silent
    refine ⟨fun record kept => ?_, rfl⟩
    rw [List.append_nil] at kept
    exact forall₂_of_zip (heardAll record kept) read

/-- Every value of a batch was read from the answer to its call. -/
theorem meets_batch {calls : List Call} {options : CallOptions} {read : Json → Option α} :
    Meets True memo (endpoint.batch calls options read) fun values said after =>
      List.Forall₂ (fun call value => Heard said call options read value) calls values ∧
        after = memo := by
  apply Meets.mono (meets_batch_reads (hears_record endpoint))
  rintro values said _ ⟨readAll, same⟩
  exact ⟨(readAll said (List.Subset.refl said)).imp fun _ _ reads => reads.heard, same⟩

end Endpoint

end ChainFeed
