import ChainFeed.Proofs.Detached
import ChainFeed.Proofs.KnownReplies

/-!
# What is found out about an endpoint

Receipts are fetched by the method that was decided for, after each of the others was tried at
most once.  The block that identifies the chain is asked for while its hash is unknown, and traces
are fetched when it is known, by the methods of its chain.
-/

namespace ChainFeed

variable {σ α β : Type}

theorem ReceiptsMethod.name_injective : Function.Injective ReceiptsMethod.name := by
  intro method other
  cases method <;> cases other <;> decide

namespace Exchange

/-! ## Exchanges about receipts -/

/-- Whether an exchange is a single call of a receipts method. -/
def tries (method : ReceiptsMethod) : Exchange → Bool
  | single call _ _ => call.method == method.name
  | batch _ _ _ => false

/-- Whether an exchange tries one of the receipts methods that not every node serves. -/
def isProbe (exchange : Exchange) : Bool :=
  exchange.tries .alchemy || exchange.tries .blockReceipts

/-- Whether an exchange fetches receipts of blocks by a method. -/
def FetchesReceipts (method : ReceiptsMethod) : Exchange → Prop
  | single _ _ _ => False
  | batch calls _ _ => ∃ call ∈ calls, call.method = method.name

/-! ## Exchanges about traces -/

/-- The methods that traces and state diffs are fetched by on a chain. -/
def tracingMethods (genesis : Hash) : List String :=
  match ChainProfile.ofGenesis? genesis with
  | none => [Endpoint.debugMethod, "trace_block", Endpoint.replayMethod]
  | some profile => [Endpoint.debugMethod, profile.replayMethod]

/-- The methods that traces and state diffs are fetched by on any chain. -/
def allTracingMethods : List String :=
  [Endpoint.debugMethod, "trace_block", Endpoint.replayMethod] ++
    ChainProfile.all.map ChainProfile.replayMethod

/-- Whether an exchange fetches traces and state diffs by the methods of the chain only, and not
at all if it is not known which chain it is. -/
def Follows (genesis : Option Hash) (exchange : Exchange) : Prop :=
  ∀ call ∈ exchange.calls, call.method ∈ allTracingMethods →
    ∃ hash, genesis = some hash ∧ call.method ∈ tracingMethods hash

variable {exchange : Exchange} {genesis : Option Hash} {hash : Hash} {method : String}

theorem mem_allTracingMethods (member : method ∈ tracingMethods hash) :
    method ∈ allTracingMethods := by
  unfold tracingMethods at member
  cases found : ChainProfile.ofGenesis? hash with
  | none =>
      rw [found] at member
      exact List.mem_append_left _ member
  | some profile =>
      rw [found] at member
      rcases List.mem_cons.mp member with rfl | replays
      · exact List.mem_append_left _ List.mem_cons_self
      · rw [List.mem_singleton.mp replays]
        exact List.mem_append_right _ (List.mem_map_of_mem (List.mem_of_find?_eq_some found))

/-- Receipts are not fetched by methods that trace. -/
theorem name_not_mem_allTracingMethods (method : ReceiptsMethod) :
    method.name ∉ allTracingMethods := by
  cases method <;> decide

theorem follows_of_forall (apart : ∀ call ∈ exchange.calls, call.method ∉ allTracingMethods) :
    exchange.Follows genesis :=
  fun call member traces => absurd traces (apart call member)

/-- An exchange that has nothing to do with receipts of blocks. -/
structure ApartFromReceipts (exchange : Exchange) : Prop where
  noProbe : exchange.isProbe = false
  noFetch : ∀ method, ¬ exchange.FetchesReceipts method

theorem IsLookup.apartFromReceipts (isLookup : exchange.IsLookup) :
    exchange.ApartFromReceipts := by
  cases exchange with
  | single call options reply =>
      have apart : ∀ method ∈ lookupMethods, (method == ReceiptsMethod.alchemy.name) = false ∧
          (method == ReceiptsMethod.blockReceipts.name) = false := by decide
      obtain ⟨notAlchemy, notBlockReceipts⟩ := apart _ isLookup
      exact ⟨by simp [isProbe, tries, notAlchemy, notBlockReceipts], fun _ fetches => fetches⟩
  | batch calls options reply =>
      refine ⟨rfl, ?_⟩
      rintro method ⟨call, member, named⟩
      rw [isLookup call member] at named
      cases method <;> exact absurd named (by decide)

theorem IsLookup.follows (isLookup : exchange.IsLookup) : exchange.Follows genesis := by
  apply follows_of_forall
  have apart : ∀ method ∈ lookupMethods, method ∉ allTracingMethods := by decide
  cases exchange with
  | single call options reply => exact List.forall_mem_singleton.mpr (apart _ isLookup)
  | batch calls options reply =>
      intro call member
      rw [isLookup call member]
      decide

theorem IsBatchOf.noProbe {methods : List String} (isBatch : exchange.IsBatchOf methods) :
    exchange.isProbe = false := by
  cases exchange with
  | single call options reply => exact isBatch.elim
  | batch calls options reply => rfl

theorem IsBatchOf.follows_tracing (isBatch : exchange.IsBatchOf (tracingMethods hash)) :
    exchange.Follows (some hash) := by
  cases exchange with
  | single call options reply => exact isBatch.elim
  | batch calls options reply => exact fun call member _ => ⟨hash, rfl, isBatch call member⟩

theorem IsBatchOf.apartFromReceipts (isBatch : exchange.IsBatchOf (tracingMethods hash)) :
    exchange.ApartFromReceipts := by
  refine ⟨isBatch.noProbe, fun method fetches => ?_⟩
  cases exchange with
  | single call options reply => exact isBatch.elim
  | batch calls options reply =>
      obtain ⟨call, member, named⟩ := fetches
      have traces := mem_allTracingMethods (isBatch call member)
      rw [named] at traces
      exact name_not_mem_allTracingMethods method traces

theorem IsBatchOf.follows_receipts {method : ReceiptsMethod}
    (isBatch : exchange.IsBatchOf [method.name]) : exchange.Follows genesis := by
  apply follows_of_forall
  cases exchange with
  | single call options reply => exact isBatch.elim
  | batch calls options reply =>
      intro call member
      rw [List.mem_singleton.mp (isBatch call member)]
      exact name_not_mem_allTracingMethods method

theorem IsBatchOf.fetches_eq {method other : ReceiptsMethod}
    (isBatch : exchange.IsBatchOf [method.name]) (fetches : exchange.FetchesReceipts other) :
    other = method := by
  cases exchange with
  | single call options reply => exact isBatch.elim
  | batch calls options reply =>
      obtain ⟨call, member, named⟩ := fetches
      rw [List.mem_singleton.mp (isBatch call member)] at named
      exact ReceiptsMethod.name_injective named.symm

end Exchange

/-! ## The receipts method -/

/-- The call that tries to get receipts by the hash of a block. -/
def alchemyProbe : Call := ⟨ReceiptsMethod.alchemy.name, [.obj [("blockNumber", .str "0x1")]]⟩

/-- The call that tries to get receipts by the height of a block. -/
def blockReceiptsProbe : Call := ⟨ReceiptsMethod.blockReceipts.name, [.str "latest"]⟩

/-- The exchanges that decide for a receipts method: the first one that was answered with a
list, or else the last one. -/
inductive Decided : ReceiptsMethod → List Exchange → Prop
  | alchemy {reply : Except NodeFailure Json} (served : isList reply = true) :
      Decided .alchemy [.single alchemyProbe .plain reply]
  | blockReceipts {first reply : Except NodeFailure Json} (refused : isList first = false)
      (served : isList reply = true) :
      Decided .blockReceipts
        [.single alchemyProbe .plain first, .single blockReceiptsProbe .plain reply]
  | transactionReceipt {first second : Except NodeFailure Json} (refused : isList first = false)
      (refusedToo : isList second = false) :
      Decided .transactionReceipt
        [.single alchemyProbe .plain first, .single blockReceiptsProbe .plain second]

/-- Whether what is known of the receipts method agrees with what was said: nothing was tried or
fetched if it is unknown; and otherwise the methods were tried once, that decided for it, and all
receipts of blocks were fetched by it afterwards. -/
def ReceiptsKnown : Option ReceiptsMethod → List Exchange → Prop
  | none, record => ∀ exchange ∈ record, exchange.ApartFromReceipts
  | some method, record =>
      Decided method (record.filter Exchange.isProbe) ∧
        (∀ exchange ∈ record, ∀ other, exchange.FetchesReceipts other → other = method) ∧
          record.Pairwise fun earlier later =>
            earlier.FetchesReceipts method → later.isProbe = false

variable {memo : Option ReceiptsMethod} {record said : List Exchange} {method : ReceiptsMethod}

theorem Decided.isProbe (decided : Decided method said) :
    ∀ exchange ∈ said, exchange.isProbe = true := by
  cases decided <;>
    simp [Exchange.isProbe, Exchange.tries, alchemyProbe, blockReceiptsProbe]

/-- A method is tried once at most. -/
theorem Decided.countP_tries_le (decided : Decided method said) (tried : ReceiptsMethod) :
    said.countP (Exchange.tries tried) ≤ 1 := by
  cases decided <;> cases tried <;>
    simp [Exchange.tries, alchemyProbe, blockReceiptsProbe, ReceiptsMethod.name]

/-- The methods are tried by single calls. -/
theorem Decided.exists_eq_single (decided : Decided method said) {exchange : Exchange}
    (member : exchange ∈ said) :
    ∃ call ∈ [alchemyProbe, blockReceiptsProbe], ∃ reply, exchange = .single call .plain reply := by
  have first : alchemyProbe ∈ [alchemyProbe, blockReceiptsProbe] := List.mem_cons_self
  have second : blockReceiptsProbe ∈ [alchemyProbe, blockReceiptsProbe] :=
    List.mem_cons_of_mem _ List.mem_cons_self
  cases decided with
  | alchemy => exact ⟨_, first, _, List.mem_singleton.mp member⟩
  | blockReceipts | transactionReceipt =>
      rcases List.mem_pair.mp member with isFirst | isSecond
      · exact ⟨_, first, _, isFirst⟩
      · exact ⟨_, second, _, isSecond⟩

/-- Trying the methods does not fetch receipts of blocks. -/
theorem Decided.noFetch (decided : Decided method said) {exchange : Exchange}
    (member : exchange ∈ said) (other : ReceiptsMethod) : ¬exchange.FetchesReceipts other := by
  obtain ⟨call, _, reply, rfl⟩ := decided.exists_eq_single member
  exact fun fetches => fetches

/-- Trying the methods has nothing to do with traces. -/
theorem Decided.follows (decided : Decided method said) {exchange : Exchange}
    (member : exchange ∈ said) {genesis : Option Hash} : exchange.Follows genesis := by
  obtain ⟨call, isProbe, reply, rfl⟩ := decided.exists_eq_single member
  have apart : ∀ call ∈ [alchemyProbe, blockReceiptsProbe],
      call.method ∉ Exchange.allTracingMethods := by decide
  exact Exchange.follows_of_forall (List.forall_mem_singleton.mpr (apart call isProbe))

namespace ReceiptsKnown

/-- What is said apart from receipts of blocks, or fetches them by the known method. -/
theorem append (known : ReceiptsKnown memo record)
    (noProbe : ∀ exchange ∈ said, exchange.isProbe = false)
    (byMethod : ∀ exchange ∈ said, ∀ other, exchange.FetchesReceipts other → memo = some other) :
    ReceiptsKnown memo (record ++ said) := by
  cases memo with
  | none =>
      refine List.forall_mem_append.mpr ⟨known, fun exchange member =>
        ⟨noProbe exchange member, fun other fetches => ?_⟩⟩
      cases byMethod exchange member other fetches
  | some method =>
      obtain ⟨decided, fetched, inOrder⟩ := known
      have noneProbe : said.filter Exchange.isProbe = [] :=
        List.filter_eq_nil_iff.mpr fun exchange member => by simp [noProbe exchange member]
      refine ⟨?_, List.forall_mem_append.mpr ⟨fetched, ?_⟩, List.pairwise_append.mpr
        ⟨inOrder, ?_, fun _ _ later member _ => noProbe later member⟩⟩
      · rwa [List.filter_append, noneProbe, List.append_nil]
      · intro exchange member other fetches
        exact (Option.some.inj (byMethod exchange member other fetches)).symm
      · exact List.pairwise_of_forall_mem_list fun _ _ later member _ => noProbe later member

theorem append_apart (known : ReceiptsKnown memo record)
    (apart : ∀ exchange ∈ said, exchange.ApartFromReceipts) :
    ReceiptsKnown memo (record ++ said) :=
  known.append (fun exchange member => (apart exchange member).noProbe)
    fun exchange member other fetches => absurd fetches ((apart exchange member).noFetch other)

/-- Once the methods were tried, the one that they decide for is known. -/
theorem append_decided (unknown : ReceiptsKnown none record) (decided : Decided method said) :
    ReceiptsKnown (some method) (record ++ said) := by
  have noneFetched : ∀ exchange ∈ record ++ said, ∀ other, ¬ exchange.FetchesReceipts other :=
    List.forall_mem_append.mpr ⟨fun exchange member => (unknown exchange member).noFetch,
      fun exchange member => decided.noFetch member⟩
  have noneTried : record.filter Exchange.isProbe = [] :=
    List.filter_eq_nil_iff.mpr fun exchange member => by simp [(unknown exchange member).noProbe]
  refine ⟨?_, fun exchange member other fetches =>
    absurd fetches (noneFetched exchange member other), ?_⟩
  · rwa [List.filter_append, noneTried, List.nil_append, List.filter_eq_self.mpr decided.isProbe]
  · exact List.pairwise_of_forall_mem_list fun earlier member _ _ fetches =>
      absurd fetches (noneFetched earlier member method)

/-- Each of the methods that not every node serves is tried once at most. -/
theorem countP_tries_le (known : ReceiptsKnown memo record) {tried : ReceiptsMethod}
    (isTried : tried ≠ .transactionReceipt) : record.countP (Exchange.tries tried) ≤ 1 := by
  have amongProbes : record.countP (Exchange.tries tried) =
      (record.filter Exchange.isProbe).countP (Exchange.tries tried) := by
    rw [List.countP_filter]
    refine List.countP_congr fun exchange _ => ?_
    cases tried with
    | transactionReceipt => exact absurd rfl isTried
    | _ => simp +contextual [Exchange.isProbe]
  rw [amongProbes]
  cases memo with
  | none =>
      have noneTried : record.filter Exchange.isProbe = [] :=
        List.filter_eq_nil_iff.mpr fun exchange member => by simp [(known exchange member).noProbe]
      simp [noneTried]
  | some method => exact known.1.countP_tries_le tried

end ReceiptsKnown

/-! ## The hash that identifies the chain -/

/-- Whether a session comes after another one with nothing found out in between about the chain,
and all traces said in between are those of the chain as far as it is known. -/
def Stays (before after : Session σ) : Prop :=
  after.memo.genesisHash = before.memo.genesisHash ∧
    ∃ said, after.transcript = before.transcript ++ said ∧
      ∀ exchange ∈ said, exchange.Follows before.memo.genesisHash

namespace Stays

theorem refl (session : Session σ) : Stays session session :=
  ⟨rfl, [], (List.append_nil _).symm, List.forall_mem_nil _⟩

theorem trans {first second third : Session σ} (one : Stays first second)
    (two : Stays second third) : Stays first third := by
  obtain ⟨same, said, recorded, follows⟩ := one
  obtain ⟨sameToo, more, recordedMore, followsToo⟩ := two
  refine ⟨sameToo.trans same, said ++ more, ?_, List.forall_mem_append.mpr ⟨follows, ?_⟩⟩
  · rw [recordedMore, recorded, List.append_assoc]
  · rwa [same] at followsToo

end Stays

/-- The session with a hash known that identifies the chain. -/
def Session.knowing (session : Session σ) (hash : Hash) : Session σ :=
  { session with memo := { session.memo with genesisHash := some hash } }

namespace Endpoint

open Dialogue

/-- The session after the block was asked for that identifies the chain. -/
def afterProbe (endpoint : Endpoint σ) (session : Session σ) : Session σ :=
  endpoint.afterAsk (blockCall endpoint.config.genesisHeight false) .plain session

/-- The hash of the block that the node answers then, if it is one. -/
def probedHash? (endpoint : Endpoint σ) (session : Session σ) : Option Hash :=
  let call := blockCall endpoint.config.genesisHeight false
  match (endpoint.node.answer call .plain session.node).1 with
  | .ok answer => (Json.nullable Raw.Block.ofJson? answer).join.map Raw.Block.hash
  | .error _ => none

variable {endpoint : Endpoint σ} {session : Session σ} {hash : Hash}

/-- A known hash is not asked for. -/
theorem run_genesisHash_of_known (known : session.memo.genesisHash = some hash) :
    endpoint.genesisHash.run.run session = (.ok hash, session) := by
  rw [genesisHash, run_bind]
  change continueWith _ (.ok session.memo, session) = _
  rw [continueWith_ok, known]
  rfl

theorem run_call (call : Call) (options : CallOptions) (read : Json → Option α)
    (session : Session σ) :
    (endpoint.call call options read).run.run session =
      (match (endpoint.node.answer call options session.node).1 with
        | .error failure => .error (.node failure)
        | .ok answer => (read answer).elim (.error (.malformed call.method .undecodable)) .ok,
        endpoint.afterAsk call options session) := by
  rw [Endpoint.call, run_bind, run_ask, continueWith_ok, run_bind]
  cases (endpoint.node.answer call options session.node).1 with
  | error failure => rfl
  | ok answer => exact run_decoded _ _ _ _

theorem run_genesisHash_of_unknown (unknown : session.memo.genesisHash = none) :
    endpoint.genesisHash.run.run session =
      continueWith (fun block => do
          match block with
          | none => throw (.unknownGenesis endpoint.config.genesisHeight endpoint.node.url)
          | some block => do
              remember fun memo => { memo with genesisHash := some block.hash }
              pure block.hash)
        ((endpoint.call (blockCall endpoint.config.genesisHeight false) .plain
          (Json.nullable Raw.Block.ofJson?)).run.run session) := by
  rw [genesisHash, run_bind]
  change continueWith _ (.ok session.memo, session) = _
  rw [continueWith_ok, unknown]
  exact run_bind _ _ _

/-- An unknown hash is asked for, and known if a block is answered. -/
theorem run_genesisHash_of_found (unknown : session.memo.genesisHash = none)
    (found : endpoint.probedHash? session = some hash) :
    endpoint.genesisHash.run.run session =
      (.ok hash, (endpoint.afterProbe session).knowing hash) := by
  rw [run_genesisHash_of_unknown unknown, run_call]
  dsimp only [probedHash?] at found
  generalize (endpoint.node.answer _ _ session.node).1 = reply at found
  cases reply with
  | error failure => cases found
  | ok answer =>
      obtain ⟨block, read, rfl⟩ := Option.map_eq_some_iff.mp found
      rw [Option.join_eq_some_iff] at read
      dsimp only
      rw [read]
      rfl

/-- An unknown hash stays unknown if no block is answered, and what needs it fails. -/
theorem run_genesisHash_of_refused (unknown : session.memo.genesisHash = none)
    (refused : endpoint.probedHash? session = none) :
    ∃ fault, endpoint.genesisHash.run.run session =
      (.error fault, endpoint.afterProbe session) := by
  rw [run_genesisHash_of_unknown unknown, run_call]
  dsimp only [probedHash?] at refused
  generalize (endpoint.node.answer _ _ session.node).1 = reply at refused
  cases reply with
  | error failure => exact ⟨_, rfl⟩
  | ok answer =>
      rw [Option.map_eq_none_iff, Option.join_eq_none_iff] at refused
      dsimp only
      rcases refused with unread | noBlock
      · rw [unread]
        exact ⟨_, rfl⟩
      · rw [noBlock]
        exact ⟨_, rfl⟩

end Endpoint

end ChainFeed
