import ChainFeed.Proofs.Memos

/-!
# Orderly dialogues

A call for the block that identifies the chain looks like any other lookup of a block.  That it
was made can be told by what would have been said if another block identified the chain: up to
that call nothing depends on which block it is, and what follows depends on its hash only.
-/

namespace ChainFeed

variable {σ α β : Type}

/-- Whether what is known of the receipts method in a session agrees with what was said. -/
def Session.KnowsReceipts (session : Session σ) : Prop :=
  ReceiptsKnown session.memo.receiptsMethod session.transcript

namespace Dialogue

/-- Whether a dialogue goes the same way whichever block identifies the chain, and finds nothing
out about that. -/
def Spared (dialogue : UInt64 → Dialogue σ α) (session : Session σ) : Prop :=
  ∃ ending, (∀ height, (dialogue height).run.run session = ending) ∧ Stays session ending.2

/-- Whether a dialogue goes the same way whichever block identifies the chain up to a session in
which it asks for that block, and what it does with the hash is the same too. -/
structure Inquires (endpoint : Endpoint σ) (dialogue : UInt64 → Dialogue σ α)
    (session asked : Session σ) (rest : Hash → Dialogue σ α) : Prop where
  unknown : asked.memo.genesisHash = none
  before : Stays session asked
  run_eq : ∀ height, (dialogue height).run.run session =
    ((endpoint.withGenesisHeight height).genesisHash >>= rest).run.run asked
  after : ∀ hash (session : Session σ), session.memo.genesisHash = some hash →
    Stays session ((rest hash).run.run session).2

/-- Whether a dialogue keeps to what is known about an endpoint, and finds it out in order. -/
structure Orderly (endpoint : Endpoint σ) (dialogue : UInt64 → Dialogue σ α) : Prop where
  receipts : ∀ height (session : Session σ), session.KnowsReceipts →
    ((dialogue height).run.run session).2.KnowsReceipts
  genesis : ∀ session, Spared dialogue session ∨
    ∃ asked rest, Inquires endpoint dialogue session asked rest

variable {endpoint : Endpoint σ} {dialogue : UInt64 → Dialogue σ α}

theorem Detached.spared {topic : Exchange → Prop} (detached : Detached topic dialogue)
    {session : Session σ}
    (follows : ∀ exchange, topic exchange → exchange.Follows session.memo.genesisHash) :
    Spared dialogue session := by
  obtain ⟨outcome, next, said, onTopic, run⟩ := detached.run_eq session
  exact ⟨_, run, rfl, said, rfl, fun exchange member => follows exchange (onTopic exchange member)⟩

theorem Detached.knowsReceipts {topic : Exchange → Prop} (detached : Detached topic dialogue)
    {height : UInt64} {session : Session σ} (known : session.KnowsReceipts)
    (noProbe : ∀ exchange, topic exchange → exchange.isProbe = false)
    (byMethod : ∀ exchange, topic exchange → ∀ other, exchange.FetchesReceipts other →
      session.memo.receiptsMethod = some other) :
    ((dialogue height).run.run session).2.KnowsReceipts := by
  obtain ⟨outcome, next, said, onTopic, run⟩ := detached.run_eq session
  rw [run]
  exact ReceiptsKnown.append known
    (fun exchange member => noProbe exchange (onTopic exchange member))
    fun exchange member => byMethod exchange (onTopic exchange member)

/-- The hint of priority has no part in asking for the block. -/
theorem Inquires.of_withPriority {priority : UInt32} {session asked : Session σ}
    {rest : Hash → Dialogue σ α}
    (inquires : Inquires (endpoint.withPriority priority) dialogue session asked rest) :
    Inquires endpoint dialogue session asked rest :=
  ⟨inquires.unknown, inquires.before, inquires.run_eq, inquires.after⟩

/-- What is said after the call for the block, whichever it is. -/
theorem Inquires.transcript {session asked : Session σ} {rest : Hash → Dialogue σ α}
    (inquires : Inquires endpoint dialogue session asked rest) (height : UInt64) :
    ∃ reply said, ((dialogue height).run.run session).2.transcript =
      asked.transcript ++ .single (Endpoint.blockCall height false) .plain reply :: said := by
  rw [inquires.run_eq, run_bind]
  cases found : (endpoint.withGenesisHeight height).probedHash? asked with
  | none =>
      obtain ⟨fault, run⟩ := Endpoint.run_genesisHash_of_refused inquires.unknown found
      rw [run]
      exact ⟨_, [], rfl⟩
  | some hash =>
      rw [Endpoint.run_genesisHash_of_found inquires.unknown found, continueWith_ok]
      obtain ⟨-, said, recorded, -⟩ := inquires.after hash
        (((endpoint.withGenesisHeight height).afterProbe asked).knowing hash) rfl
      refine ⟨(endpoint.node.answer (Endpoint.blockCall height false) .plain asked.node).1, said,
        recorded.trans ?_⟩
      exact List.append_assoc _ [_] said

/-- Whoever asks for the block that identifies the chain says something else for another one. -/
theorem Inquires.not_spared {session asked : Session σ} {rest : Hash → Dialogue σ α}
    (inquires : Inquires endpoint dialogue session asked rest) : ¬Spared dialogue session := by
  rintro ⟨ending, same, -⟩
  obtain ⟨reply, said, recorded⟩ := inquires.transcript 0
  obtain ⟨replyToo, saidToo, recordedToo⟩ := inquires.transcript 1
  rw [same] at recorded recordedToo
  have calls := (List.cons.inj (List.append_cancel_left (recorded.symm.trans recordedToo))).1
  have heights : heightParam 0 = heightParam 1 := by
    simp only [Exchange.single.injEq, Endpoint.blockCall, Call.mk.injEq, List.cons.injEq] at calls
    exact calls.1.2.1
  exact absurd (Json.str.inj heights) (by decide +kernel)

namespace Orderly

/-- A dialogue that talks about nothing but lookups. -/
theorem of_detached (detached : Detached Exchange.IsLookup dialogue) :
    Orderly endpoint dialogue where
  receipts _ _ known :=
    detached.knowsReceipts known (fun _ isLookup => isLookup.apartFromReceipts.noProbe)
      fun _ isLookup other fetches => absurd fetches (isLookup.apartFromReceipts.noFetch other)
  genesis _ := .inl (detached.spared fun _ isLookup => isLookup.follows)

/-- If the hash is known that identifies the chain, it is not asked for. -/
theorem spared_of_known (orderly : Orderly endpoint dialogue) {session : Session σ} {hash : Hash}
    (known : session.memo.genesisHash = some hash) : Spared dialogue session := by
  rcases orderly.genesis session with spared | ⟨asked, rest, inquires⟩
  · exact spared
  · have unknown := inquires.before.1.symm.trans inquires.unknown
    rw [known] at unknown
    cases unknown

variable {next : UInt64 → α → Dialogue σ β}

theorem spared_bind_of_known {session : Session σ} {hash : Hash} {first : Dialogue σ α}
    (known : session.memo.genesisHash = some hash)
    (stays : Stays session (first.run.run session).2)
    (later : ∀ value, Orderly endpoint fun height => next height value) :
    Spared (fun height => first >>= next height) session := by
  simp only [Spared, run_bind]
  generalize first.run.run session = ending at stays
  obtain ⟨outcome, middle⟩ := ending
  cases outcome with
  | error fault => exact ⟨(.error fault, middle), fun _ => rfl, stays⟩
  | ok value =>
      have knownThen : middle.memo.genesisHash = some hash := stays.1.trans known
      obtain ⟨ending, same, staysLater⟩ := (later value).spared_of_known knownThen
      exact ⟨ending, same, stays.trans staysLater⟩

theorem bind (first : Orderly endpoint dialogue)
    (later : ∀ value, Orderly endpoint fun height => next height value) :
    Orderly endpoint fun height => dialogue height >>= next height where
  receipts height session known := by
    have knownThen := first.receipts height session known
    rw [run_bind]
    generalize (dialogue height).run.run session = ending at knownThen
    obtain ⟨outcome, middle⟩ := ending
    cases outcome with
    | error fault => exact knownThen
    | ok value => exact (later value).receipts height middle knownThen
  genesis session := by
    rcases first.genesis session with ⟨⟨outcome, middle⟩, same, stays⟩ | ⟨asked, rest, inquires⟩
    · cases outcome with
      | error fault =>
          refine .inl ⟨(.error fault, middle), fun height => ?_, stays⟩
          rw [run_bind, same, continueWith_error]
      | ok value =>
          rcases (later value).genesis middle with ⟨ending, sameLater, staysLater⟩ |
            ⟨asked, rest, inquires⟩
          · refine .inl ⟨ending, fun height => ?_, stays.trans staysLater⟩
            rw [run_bind, same, continueWith_ok, sameLater]
          · refine .inr ⟨asked, rest, inquires.unknown, stays.trans inquires.before,
              fun height => ?_, inquires.after⟩
            rw [run_bind, same, continueWith_ok, inquires.run_eq]
    · have spared (hash : Hash) (session : Session σ)
          (known : session.memo.genesisHash = some hash) :
          Spared (fun height => rest hash >>= next height) session :=
        spared_bind_of_known known (inquires.after hash session known) later
      refine .inr ⟨asked, fun hash => rest hash >>= next 0, inquires.unknown, inquires.before,
        fun height => ?_, fun hash session known => ?_⟩
      · rw [run_bind, inquires.run_eq, ← run_bind, bind_assoc, run_bind, run_bind]
        cases found : (endpoint.withGenesisHeight height).probedHash? asked with
        | none =>
            obtain ⟨fault, run⟩ := Endpoint.run_genesisHash_of_refused inquires.unknown found
            rw [run, continueWith_error, continueWith_error]
        | some hash =>
            obtain ⟨ending, same, -⟩ := spared hash
              (((endpoint.withGenesisHeight height).afterProbe asked).knowing hash) rfl
            rw [Endpoint.run_genesisHash_of_found inquires.unknown found, continueWith_ok,
              continueWith_ok, same, same]
      · obtain ⟨ending, same, stays⟩ := spared hash session known
        rwa [← same 0] at stays

theorem map {function : α → β} (orderly : Orderly endpoint dialogue) :
    Orderly endpoint fun height => function <$> dialogue height := by
  simp only [map_eq_pure_bind]
  exact orderly.bind fun value => of_detached (.pure _)

theorem of_withPriority {priority : UInt32}
    (orderly : Orderly (endpoint.withPriority priority) dialogue) : Orderly endpoint dialogue where
  receipts := orderly.receipts
  genesis session := (orderly.genesis session).imp_right fun ⟨asked, rest, inquires⟩ =>
    ⟨asked, rest, inquires.of_withPriority⟩

end Orderly

end Dialogue

namespace Endpoint

open Dialogue

variable {endpoint : Endpoint σ} {session : Session σ}

/-! ## Finding out the receipts method -/

theorem run_answersList (call : Call) (session : Session σ) :
    (endpoint.answersList call).run.run session =
      (.ok (isList (endpoint.node.answer call .plain session.node).1),
        endpoint.afterAsk call .plain session) := by
  rw [answersList, run_bind, run_ask, continueWith_ok]
  generalize (endpoint.node.answer call .plain session.node).1 = reply
  rcases reply with failure | answer
  · rfl
  · cases answer <;> rfl

/-- A receipts method is decided for, whatever the node answers. -/
theorem run_probeReceiptsMethod (endpoint : Endpoint σ) (session : Session σ) :
    ∃ method final said, endpoint.probeReceiptsMethod.run.run session = (.ok method, final) ∧
      Decided method said ∧ final.memo = session.memo ∧
        final.transcript = session.transcript ++ said := by
  let tried := endpoint.afterAsk alchemyProbe .plain session
  have both : (endpoint.afterAsk blockReceiptsProbe .plain tried).transcript =
      session.transcript ++
        [.single alchemyProbe .plain (endpoint.node.answer alchemyProbe .plain session.node).1,
          .single blockReceiptsProbe .plain
            (endpoint.node.answer blockReceiptsProbe .plain tried.node).1] :=
    List.append_assoc _ _ _
  rw [probeReceiptsMethod, run_bind, run_answersList, continueWith_ok]
  split
  case isTrue first => exact ⟨_, _, _, rfl, .alchemy first, rfl, rfl⟩
  case isFalse first =>
    rw [run_bind, run_answersList, continueWith_ok]
    split
    case isTrue second =>
      exact ⟨_, _, _, rfl, .blockReceipts (Bool.eq_false_of_not_eq_true first) second, rfl, both⟩
    case isFalse second =>
      exact ⟨_, _, _, rfl, .transactionReceipt (Bool.eq_false_of_not_eq_true first)
        (Bool.eq_false_of_not_eq_true second), rfl, both⟩

/-- The receipts method is known afterwards, and nothing was found out about the chain. -/
theorem run_receiptsMethod (endpoint : Endpoint σ) (session : Session σ) :
    ∃ method final, endpoint.receiptsMethod.run.run session = (.ok method, final) ∧
      final.memo.receiptsMethod = some method ∧ Stays session final ∧
        (session.KnowsReceipts → final.KnowsReceipts) := by
  rw [receiptsMethod, run_bind]
  change ∃ method final, continueWith _ (.ok session.memo, session) = (.ok method, final) ∧ _
  rw [continueWith_ok]
  cases known : session.memo.receiptsMethod with
  | some method => exact ⟨method, session, rfl, known, .refl session, id⟩
  | none =>
      obtain ⟨method, final, said, run, decided, kept, recorded⟩ :=
        endpoint.run_probeReceiptsMethod session
      refine ⟨method,
        { final with memo := { final.memo with receiptsMethod := some method } }, ?_, rfl, ?_, ?_⟩
      · dsimp only
        rw [run_bind, run]
        rfl
      · have same : final.memo.genesisHash = session.memo.genesisHash :=
          congrArg Memo.genesisHash kept
        exact ⟨same, said, recorded, fun _ member => decided.follows member⟩
      · intro unknown
        rw [Session.KnowsReceipts, known] at unknown
        change ReceiptsKnown (some method) final.transcript
        rw [recorded]
        exact unknown.append_decided decided

theorem orderly_receiptsMethod (endpoint : Endpoint σ) :
    Orderly endpoint fun height => (endpoint.withGenesisHeight height).receiptsMethod where
  receipts _ session known := by
    obtain ⟨method, final, run, -, -, keeps⟩ := endpoint.run_receiptsMethod session
    change (endpoint.receiptsMethod.run.run session).2.KnowsReceipts
    rw [run]
    exact keeps known
  genesis session := by
    obtain ⟨method, final, run, -, stays, -⟩ := endpoint.run_receiptsMethod session
    exact .inl ⟨(.ok method, final), fun _ => run, stays⟩

/-! ## Receipts -/

/-- The way to fetch receipts by a method. -/
def receiptsBy (endpoint : Endpoint σ) (blocks : List FetchedBlock) :
    ReceiptsMethod → Dialogue σ (List Enrichment)
  | .transactionReceipt => endpoint.receiptsByTransaction blocks
  | method => endpoint.receiptsByBlock method blocks

theorem detached_receiptsBy (endpoint : Endpoint σ) (blocks : List FetchedBlock)
    (method : ReceiptsMethod) :
    Detached (Exchange.IsBatchOf [method.name]) fun height =>
      (endpoint.withGenesisHeight height).receiptsBy blocks method := by
  cases method with
  | transactionReceipt => exact endpoint.detached_receiptsByTransaction blocks
  | alchemy | blockReceipts => exact endpoint.detached_receiptsByBlock _ blocks

theorem fetchReceipts_eq (endpoint : Endpoint σ) (blocks : List FetchedBlock) :
    endpoint.fetchReceipts blocks = endpoint.receiptsMethod >>= endpoint.receiptsBy blocks := by
  refine bind_congr fun method => ?_
  cases method <;> rfl

/-- Receipts are fetched by the method that is known. -/
theorem orderly_fetchReceipts (endpoint : Endpoint σ) (blocks : List FetchedBlock) :
    Orderly endpoint fun height => (endpoint.withGenesisHeight height).fetchReceipts blocks where
  receipts height session known := by
    obtain ⟨method, final, run, isMethod, -, keeps⟩ :=
      (endpoint.withGenesisHeight height).run_receiptsMethod session
    rw [fetchReceipts_eq, run_bind, run, continueWith_ok]
    refine (endpoint.detached_receiptsBy blocks method).knowsReceipts (keeps known)
      (fun _ isBatch => isBatch.noProbe) fun _ isBatch other fetches => ?_
    rw [isMethod, isBatch.fetches_eq fetches]
  genesis session := by
    obtain ⟨method, final, run, -, stays, -⟩ := endpoint.run_receiptsMethod session
    have spared : Spared (fun height =>
        (endpoint.withGenesisHeight height).receiptsBy blocks method) final :=
      (endpoint.detached_receiptsBy blocks method).spared fun _ isBatch => isBatch.follows_receipts
    obtain ⟨ending, same, staysLater⟩ := spared
    refine .inl ⟨ending, fun height => ?_, stays.trans staysLater⟩
    dsimp only
    rw [fetchReceipts_eq, run_bind]
    change continueWith _ (endpoint.receiptsMethod.run.run session) = ending
    rw [run, continueWith_ok, same]

/-! ## The chain -/

theorem knowsReceipts_afterProbe (known : session.KnowsReceipts) :
    (endpoint.afterProbe session).KnowsReceipts := by
  refine ReceiptsKnown.append_apart known (List.forall_mem_singleton.mpr ?_)
  apply Exchange.IsLookup.apartFromReceipts
  simp [Exchange.IsLookup, lookupMethods, blockCall]

theorem knowsReceipts_genesisHash (known : session.KnowsReceipts) :
    (endpoint.genesisHash.run.run session).2.KnowsReceipts := by
  cases isKnown : session.memo.genesisHash with
  | some hash =>
      rw [run_genesisHash_of_known isKnown]
      exact known
  | none =>
      cases found : endpoint.probedHash? session with
      | some hash =>
          rw [run_genesisHash_of_found isKnown found]
          exact knowsReceipts_afterProbe known
      | none =>
          obtain ⟨fault, run⟩ := run_genesisHash_of_refused isKnown found
          rw [run]
          exact knowsReceipts_afterProbe known

/-- Whether a dialogue asks for the block that identifies the chain whenever its hash is unknown,
whatever was said before: it fails without the block, and goes on with its hash. -/
def AsksFirst (endpoint : Endpoint σ) (dialogue : Dialogue σ α) (rest : Hash → Dialogue σ α) :
    Prop :=
  ∀ session : Session σ, session.memo.genesisHash = none →
    match endpoint.probedHash? session with
    | none => ∃ fault, dialogue.run.run session = (.error fault, endpoint.afterProbe session)
    | some hash => dialogue.run.run session =
        (rest hash).run.run ((endpoint.afterProbe session).knowing hash)

theorem asksFirst_genesisHash_bind (endpoint : Endpoint σ) (rest : Hash → Dialogue σ α) :
    endpoint.AsksFirst (endpoint.genesisHash >>= rest) rest := by
  intro session unknown
  rw [run_bind]
  cases found : endpoint.probedHash? session with
  | none =>
      obtain ⟨fault, run⟩ := run_genesisHash_of_refused unknown found
      exact ⟨fault, by rw [run, continueWith_error]⟩
  | some hash =>
      dsimp only
      rw [run_genesisHash_of_found unknown found, continueWith_ok]

theorem asksFirst_genesisHash (endpoint : Endpoint σ) :
    endpoint.AsksFirst endpoint.genesisHash pure := by
  simpa using endpoint.asksFirst_genesisHash_bind pure

/-- The way to fetch traces on a chain that was told by its hash. -/
def tracesOn (endpoint : Endpoint σ) (demand : Demand) (finalized : Option UInt64)
    (blocks : List FetchedBlock) (genesis : Hash) : Dialogue σ (List Enrichment) :=
  match ChainProfile.ofGenesis? genesis with
  | none => endpoint.fetchByPlan demand finalized blocks
  | some profile => endpoint.fetchByProfile profile demand blocks

/-- With the hash known, traces are fetched in the way of its chain. -/
theorem run_fetchTraces_of_known {demand : Demand} {finalized : Option UInt64}
    {blocks : List FetchedBlock} {hash : Hash} (known : session.memo.genesisHash = some hash) :
    (endpoint.fetchTraces demand finalized blocks).run.run session =
      (endpoint.tracesOn demand finalized blocks hash).run.run session := by
  rw [fetchTraces, run_bind, run_genesisHash_of_known known, continueWith_ok]
  rfl

theorem asksFirst_fetchTraces (endpoint : Endpoint σ) (demand : Demand)
    (finalized : Option UInt64) (blocks : List FetchedBlock) :
    endpoint.AsksFirst (endpoint.fetchTraces demand finalized blocks)
      (endpoint.tracesOn demand finalized blocks) :=
  endpoint.asksFirst_genesisHash_bind _

theorem detached_tracesOn (endpoint : Endpoint σ) (demand : Demand) (finalized : Option UInt64)
    (blocks : List FetchedBlock) (genesis : Hash) :
    Detached (Exchange.IsBatchOf (Exchange.tracingMethods genesis)) fun height =>
      (endpoint.withGenesisHeight height).tracesOn demand finalized blocks genesis := by
  unfold tracesOn Exchange.tracingMethods
  cases ChainProfile.ofGenesis? genesis with
  | none => exact endpoint.detached_fetchByPlan demand finalized blocks
  | some profile => exact endpoint.detached_fetchByProfile profile demand blocks

/-- A dialogue that asks for the hash of the chain first, and goes on as it does on that chain. -/
theorem orderly_genesisHash_bind (endpoint : Endpoint σ)
    {next : UInt64 → Hash → Dialogue σ α}
    (later : ∀ hash, Detached (Exchange.IsBatchOf (Exchange.tracingMethods hash)) fun height =>
      next height hash) :
    Orderly endpoint fun height =>
      (endpoint.withGenesisHeight height).genesisHash >>= next height where
  receipts height session known := by
    have knownThen : ((endpoint.withGenesisHeight height).genesisHash.run.run
        session).2.KnowsReceipts := knowsReceipts_genesisHash known
    rw [run_bind]
    generalize (endpoint.withGenesisHeight height).genesisHash.run.run session = ending
      at knownThen
    obtain ⟨outcome, middle⟩ := ending
    cases outcome with
    | error fault => exact knownThen
    | ok hash =>
        exact (later hash).knowsReceipts knownThen
          (fun _ isBatch => isBatch.apartFromReceipts.noProbe)
          fun _ isBatch other fetches => absurd fetches (isBatch.apartFromReceipts.noFetch other)
  genesis session := by
    have spared (hash : Hash) (session : Session σ)
        (known : session.memo.genesisHash = some hash) :
        Spared (fun height => next height hash) session :=
      (later hash).spared fun _ isBatch => known ▸ isBatch.follows_tracing
    cases isKnown : session.memo.genesisHash with
    | some hash =>
        obtain ⟨ending, same, stays⟩ := spared hash session isKnown
        refine .inl ⟨ending, fun height => ?_, stays⟩
        rw [run_bind, run_genesisHash_of_known isKnown, continueWith_ok, same]
    | none =>
        refine .inr ⟨session, next 0, isKnown, .refl session, fun height => ?_, ?_⟩
        · rw [run_bind, run_bind]
          cases found : (endpoint.withGenesisHeight height).probedHash? session with
          | none =>
              obtain ⟨fault, run⟩ := run_genesisHash_of_refused isKnown found
              rw [run, continueWith_error, continueWith_error]
          | some hash =>
              obtain ⟨ending, same, -⟩ := spared hash
                (((endpoint.withGenesisHeight height).afterProbe session).knowing hash) rfl
              rw [run_genesisHash_of_found isKnown found, continueWith_ok, continueWith_ok, same,
                same]
        · intro hash session known
          obtain ⟨ending, same, stays⟩ := spared hash session known
          rwa [← same 0] at stays

theorem orderly_genesisHash (endpoint : Endpoint σ) :
    Orderly endpoint fun height => (endpoint.withGenesisHeight height).genesisHash := by
  simpa using endpoint.orderly_genesisHash_bind fun hash => .pure hash

theorem orderly_fetchTraces (endpoint : Endpoint σ) (demand : Demand)
    (finalized : Option UInt64) (blocks : List FetchedBlock) :
    Orderly endpoint fun height =>
      (endpoint.withGenesisHeight height).fetchTraces demand finalized blocks :=
  endpoint.orderly_genesisHash_bind (endpoint.detached_tracesOn demand finalized blocks)

end Endpoint

end ChainFeed
