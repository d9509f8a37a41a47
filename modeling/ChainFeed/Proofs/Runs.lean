import ChainFeed.Engine.Blocks
import ChainFeed.Proofs.Outcomes

/-!
# Runs of dialogues

What a dialogue comes to from a given session on, computed step by step: its ending
is a value or a fault together with the session afterwards.  A batch of calls for
blocks is one exchange, and its ending can be read off the reply of the node.
-/

namespace ChainFeed

namespace Dialogue

variable {σ α β : Type}

/-- How a dialogue goes on after an ending of its first part. -/
def continueWith (next : α → Dialogue σ β) :
    Except Fault α × Session σ → Except Fault β × Session σ
  | (.ok value, session) => (next value).run.run session
  | (.error fault, session) => (.error fault, session)

/-- A function of the value of an ending. -/
def mapEnding (function : α → β) :
    Except Fault α × Session σ → Except Fault β × Session σ
  | (.ok value, session) => (.ok (function value), session)
  | (.error fault, session) => (.error fault, session)

theorem run_pure (value : α) (session : Session σ) :
    (Pure.pure value : Dialogue σ α).run.run session = (.ok value, session) := rfl

theorem run_bind (dialogue : Dialogue σ α) (next : α → Dialogue σ β) (session : Session σ) :
    (dialogue >>= next).run.run session = continueWith next (dialogue.run.run session) := by
  change (ExceptT.bindCont next (dialogue.run.run session).1).run
    (dialogue.run.run session).2 = _
  generalize dialogue.run.run session = ending
  cases ending with
  | mk outcome final => cases outcome <;> rfl

theorem run_map (function : α → β) (dialogue : Dialogue σ α) (session : Session σ) :
    (function <$> dialogue).run.run session = mapEnding function (dialogue.run.run session) := by
  rw [map_eq_pure_bind, run_bind]
  generalize dialogue.run.run session = ending
  cases ending with
  | mk outcome final => cases outcome <;> rfl

@[simp] theorem continueWith_ok (next : α → Dialogue σ β) (value : α) (session : Session σ) :
    continueWith next (.ok value, session) = (next value).run.run session := rfl

@[simp] theorem continueWith_error (next : α → Dialogue σ β) (fault : Fault)
    (session : Session σ) : continueWith next (.error fault, session) = (.error fault, session) :=
  rfl

@[simp] theorem mapEnding_ok (function : α → β) (value : α) (session : Session σ) :
    mapEnding function (.ok value, session) = (.ok (function value), session) := rfl

@[simp] theorem mapEnding_error (function : α → β) (fault : Fault) (session : Session σ) :
    mapEnding function (.error fault, session) = (.error fault, session) := rfl

@[simp] theorem mapEnding_snd (function : α → β) (ending : Except Fault α × Session σ) :
    (mapEnding function ending).2 = ending.2 := by
  cases ending with
  | mk outcome final => cases outcome <;> rfl

/-- Dialogues that end alike from every session are the same. -/
theorem ext_run {first second : Dialogue σ α}
    (same : ∀ session, first.run.run session = second.run.run session) : first = second :=
  funext same

/-- The parts of a dialogue that ends with a value. -/
theorem run_bind_eq_ok {dialogue : Dialogue σ α} {next : α → Dialogue σ β}
    {session final : Session σ} {result : β}
    (run : (dialogue >>= next).run.run session = (.ok result, final)) :
    ∃ value middle, dialogue.run.run session = (.ok value, middle) ∧
      (next value).run.run middle = (.ok result, final) := by
  rw [run_bind] at run
  generalize dialogue.run.run session = ending at run
  cases ending with
  | mk outcome middle =>
      cases outcome with
      | ok value => exact ⟨value, middle, rfl, run⟩
      | error fault => exact absurd (congrArg Prod.fst run) (by simp)

/-- The value that a function was applied to at the end of a dialogue. -/
theorem run_map_eq_ok {function : α → β} {dialogue : Dialogue σ α} {session final : Session σ}
    {result : β} (run : (function <$> dialogue).run.run session = (.ok result, final)) :
    ∃ value, dialogue.run.run session = (.ok value, final) ∧ function value = result := by
  rw [map_eq_pure_bind] at run
  obtain ⟨value, middle, first, last⟩ := run_bind_eq_ok run
  cases last
  exact ⟨value, first, rfl⟩

/-- A run of which something about its value is observed ends with that value. -/
theorem exists_of_observed {ending : Except Fault α × Session σ} {observe : α → β} {seen : β}
    (observed : ending.1.toOption.map observe = some seen) :
    ∃ value, ending = (.ok value, ending.2) ∧ observe value = seen := by
  cases ending with
  | mk outcome final =>
      cases outcome with
      | error fault => simp [Except.toOption] at observed
      | ok value => exact ⟨value, rfl, by simpa [Except.toOption] using observed⟩

end Dialogue

namespace Endpoint

open Dialogue

variable {σ α : Type}

/-! ## Batches of calls for blocks -/

/-- What the reply of a node to calls for blocks comes to: one block or null for each
call, or else a fault. -/
def repliesTo (calls : List Call) :
    Except NodeFailure (List Json) → Except Fault (List (Option Raw.Block))
  | .error failure => .error (.node failure)
  | .ok answers =>
      if answers.length = calls.length then
        match answers.mapM (Json.nullable Raw.Block.ofJson?) with
        | some replies => .ok replies
        | none => .error (.malformed "eth_getBlockByNumber" .undecodable)
      else
        .error (.malformed "eth_getBlockByNumber" (.batchSize calls.length answers.length))

theorem repliesTo_of_length_ne {calls : List Call} {answers : List Json}
    (differ : answers.length ≠ calls.length) :
    repliesTo calls (.ok answers) =
      .error (.malformed "eth_getBlockByNumber" (.batchSize calls.length answers.length)) :=
  if_neg differ

theorem length_eq_of_repliesTo {calls : List Call} {answers : List Json}
    {replies : List (Option Raw.Block)} (replied : repliesTo calls (.ok answers) = .ok replies) :
    answers.length = calls.length := by
  by_cases same : answers.length = calls.length
  · exact same
  · rw [repliesTo_of_length_ne same] at replied
    cases replied

theorem length_of_mapM_eq_some {source : Type} {read : source → Option α} {sources : List source}
    {values : List α} (reading : sources.mapM read = some values) :
    values.length = sources.length := by
  induction sources generalizing values with
  | nil =>
      simp at reading
      simp [← reading]
  | cons source rest ih =>
      rw [List.mapM_cons] at reading
      cases first : read source with
      | none => simp [first] at reading
      | some value =>
          cases later : rest.mapM read with
          | none => simp [first, later] at reading
          | some others =>
              simp [first, later] at reading
              simp [← reading, ih later]

/-- There are as many replies as calls. -/
theorem length_of_repliesTo {calls : List Call} {reply : Except NodeFailure (List Json)}
    {replies : List (Option Raw.Block)} (replied : repliesTo calls reply = .ok replies) :
    replies.length = calls.length := by
  cases reply with
  | error failure => simp [repliesTo] at replied
  | ok answers =>
      have sameLength := length_eq_of_repliesTo replied
      simp only [repliesTo, if_pos sameLength] at replied
      cases reading : answers.mapM (Json.nullable Raw.Block.ofJson?) with
      | none => simp [reading] at replied
      | some values =>
          simp only [reading, Except.ok.injEq] at replied
          rw [← replied, length_of_mapM_eq_some reading, sameLength]

/-- The session after a batch of calls was answered. -/
def afterBatch (endpoint : Endpoint σ) (calls : List Call) (options : CallOptions)
    (session : Session σ) : Session σ :=
  let answered := endpoint.node.answerBatch calls options session.node
  { session with
    node := answered.2
    transcript := session.transcript ++ [.batch calls options answered.1] }

theorem run_decoded (method : String) (read : Json → Option α) (answer : Json)
    (session : Session σ) :
    (decoded method read answer : Dialogue σ α).run.run session =
      ((read answer).elim (.error (.malformed method .undecodable)) .ok, session) := by
  unfold decoded
  cases read answer <;> rfl

/-- Reading answers one by one, each as the answer to a call of the same method. -/
theorem run_mapM_decoded {method : String} {read : Json → Option α} {calls : List Call}
    {answers : List Json} (sameMethod : ∀ call ∈ calls, call.method = method)
    (sameLength : answers.length = calls.length) (session : Session σ) :
    ((calls.zip answers).mapM fun ((call, answer) : Call × Json) =>
        (decoded call.method read answer : Dialogue σ α)).run.run session =
      ((answers.mapM read).elim (.error (.malformed method .undecodable)) .ok, session) := by
  induction calls generalizing answers with
  | nil =>
      simp at sameLength
      simp [sameLength]
      rfl
  | cons call rest ih =>
      cases answers with
      | nil => simp at sameLength
      | cons answer answers =>
          have later := ih (fun other member => sameMethod other (List.mem_cons_of_mem _ member))
            (Nat.succ.inj sameLength)
          rw [List.zip_cons_cons, List.mapM_cons, run_bind, run_decoded,
            sameMethod call List.mem_cons_self, List.mapM_cons]
          cases read answer with
          | none => rfl
          | some value =>
              rw [Option.elim_some, continueWith_ok, run_bind, later]
              cases answers.mapM read <;> rfl

theorem run_askBatch (endpoint : Endpoint σ) (calls : List Call) (options : CallOptions)
    (session : Session σ) :
    (endpoint.askBatch calls options).run.run session =
      (.ok (endpoint.node.answerBatch calls options session.node).1,
        endpoint.afterBatch calls options session) := rfl

/-- A batch of calls for blocks is one exchange, and the replies are those in it. -/
theorem run_blockBatch (endpoint : Endpoint σ) {heights : List UInt64} (nonempty : heights ≠ [])
    (full : Bool) (session : Session σ) :
    let calls := heights.map (blockCall · full)
    let options := endpoint.tolerating .unfinalized
    (endpoint.blockBatch heights full).run.run session =
      ((repliesTo calls (endpoint.node.answerBatch calls options session.node).1).map
          fun replies => replies.map (·.map FetchedBlock.ofBlock),
        endpoint.afterBatch calls options session) := by
  intro calls options
  have sameMethod : ∀ call ∈ calls, call.method = "eth_getBlockByNumber" := by
    intro call member
    obtain ⟨height, _, rfl⟩ := List.mem_map.mp member
    rfl
  rw [blockBatch, run_bind, batch, run_bind]
  cases heights with
  | nil => exact absurd rfl nonempty
  | cons height heights =>
      change continueWith _ (continueWith _ ((endpoint.batchRaw calls options).run.run session)) = _
      have asked : (endpoint.batchRaw calls options).run.run session =
          continueWith (fun reply => do
              let answers ← answered reply
              if answers.length = calls.length then
                pure answers
              else
                throw (.malformed "eth_getBlockByNumber"
                  (.batchSize calls.length answers.length)))
            ((endpoint.askBatch calls options).run.run session) := run_bind _ _ _
      rw [asked, run_askBatch, continueWith_ok, run_bind]
      cases (endpoint.node.answerBatch calls options session.node).1 with
      | error failure => rfl
      | ok answers =>
          simp only [answered, run_pure, continueWith_ok, repliesTo]
          split
          case isFalse => rfl
          case isTrue sameLength =>
            rw [run_pure, continueWith_ok, run_mapM_decoded sameMethod sameLength]
            cases answers.mapM (Json.nullable Raw.Block.ofJson?) <;> rfl

/-- The exchange of a batch of calls for blocks. -/
theorem exchange_of_blockBatch {endpoint : Endpoint σ} {heights : List UInt64} {full : Bool}
    {session final : Session σ} {outcome : Except Fault (List (Option FetchedBlock))}
    (nonempty : heights ≠ [])
    (run : (endpoint.blockBatch heights full).run.run session = (outcome, final)) :
    let calls := heights.map (blockCall · full)
    ∃ reply, final.transcript =
        session.transcript ++ [.batch calls (endpoint.tolerating .unfinalized) reply] ∧
      outcome = (repliesTo calls reply).map fun replies =>
        replies.map (·.map FetchedBlock.ofBlock) := by
  intro calls
  rw [run_blockBatch endpoint nonempty full session, Prod.mk.injEq] at run
  obtain ⟨rfl, rfl⟩ := run
  exact ⟨_, rfl, rfl⟩

/-- Whether replies for the blocks at some heights came from one batch, or from none
if there are no heights. -/
def Replied (endpoint : Endpoint σ) (heights : List UInt64) (full : Bool)
    (session : Session σ) (replies : List (Option Raw.Block)) (final : Session σ) : Prop :=
  heights = [] ∧ replies = [] ∧ final = session ∨
    ∃ reply, final.transcript = session.transcript ++
        [.batch (heights.map (blockCall · full)) (endpoint.tolerating .unfinalized) reply] ∧
      repliesTo (heights.map (blockCall · full)) reply = .ok replies

/-- The slots of a batch hold the replies. -/
theorem replied_of_blockBatch {endpoint : Endpoint σ} {heights : List UInt64} {full : Bool}
    {session final : Session σ} {slots : List (Option FetchedBlock)}
    (run : (endpoint.blockBatch heights full).run.run session = (.ok slots, final)) :
    ∃ replies, slots = replies.map (·.map FetchedBlock.ofBlock) ∧
      endpoint.Replied heights full session replies final := by
  by_cases nonempty : heights = []
  · subst nonempty
    cases run
    exact ⟨[], rfl, .inl ⟨rfl, rfl, rfl⟩⟩
  · obtain ⟨reply, added, read⟩ := exchange_of_blockBatch nonempty run
    obtain ⟨replies, replied, rfl⟩ := exists_of_map_eq_ok read.symm
    exact ⟨replies, rfl, .inr ⟨reply, added, replied⟩⟩

/-- There is one reply for each height. -/
theorem Replied.length_eq {endpoint : Endpoint σ} {heights : List UInt64} {full : Bool}
    {session final : Session σ} {replies : List (Option Raw.Block)}
    (replied : endpoint.Replied heights full session replies final) :
    replies.length = heights.length := by
  cases replied with
  | inl silent => simp [silent.1, silent.2.1]
  | inr asked =>
      obtain ⟨reply, _, read⟩ := asked
      rw [length_of_repliesTo read, List.length_map]

/-- A batch of calls for blocks has one slot for each height. -/
theorem length_of_blockBatch {endpoint : Endpoint σ} {heights : List UInt64} {full : Bool}
    {session final : Session σ} {slots : List (Option FetchedBlock)}
    (run : (endpoint.blockBatch heights full).run.run session = (.ok slots, final)) :
    slots.length = heights.length := by
  obtain ⟨replies, rfl, replied⟩ := replied_of_blockBatch run
  rw [List.length_map, replied.length_eq]

end Endpoint

end ChainFeed
