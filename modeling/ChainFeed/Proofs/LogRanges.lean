import ChainFeed.Engine.Logs
import ChainFeed.Proofs.Dialogue

/-!
# Theory of log ranges

A node that lists the logs of a range either lists all of them or refuses.
Whatever ranges it refuses, and whatever it suggests instead, the logs of a range
come out complete and in order, in a bounded number of calls.
-/

namespace ChainFeed

/-! ## Heights -/

theorem add_ofNat_toNat {height : UInt64} {offset : Nat}
    (fits : height.toNat + offset < UInt64.size) :
    (height + UInt64.ofNat offset).toNat = height.toNat + offset := by
  rw [UInt64.toNat_add, UInt64.toNat_ofNat_of_lt' (Nat.lt_of_le_of_lt (Nat.le_add_left ..) fits)]
  exact Nat.mod_eq_of_lt fits

/-- The heights of a range are counted up without wrapping around. -/
theorem heightsBetween_toNat (first last : UInt64) :
    (heightsBetween first last).map UInt64.toNat =
      List.range' first.toNat (last.toNat + 1 - first.toNat) := by
  rw [heightsBetween, List.map_map, List.range'_eq_map_range]
  apply List.map_congr_left
  intro offset inRange
  rw [List.mem_range] at inRange
  have := last.toNat_lt_size
  exact add_ofNat_toNat (by omega)

theorem mem_heightsBetween {first last height : UInt64} :
    height ∈ heightsBetween first last ↔ first ≤ height ∧ height ≤ last := by
  have injective : Function.Injective UInt64.toNat := fun _ _ => UInt64.toNat.inj
  rw [← List.mem_map_of_injective injective, heightsBetween_toNat, List.mem_range'_1,
    UInt64.le_iff_toNat_le, UInt64.le_iff_toNat_le]
  omega

/-- There is a next height below another one. -/
theorem toNat_next {height last : UInt64} (below : height < last) :
    (height + 1).toNat = height.toNat + 1 := by
  rw [UInt64.lt_iff_toNat_lt] at below
  have := last.toNat_lt_size
  exact add_ofNat_toNat (show height.toNat + 1 < UInt64.size by omega)

/-- A range is cut after a height without loss. -/
theorem heightsBetween_append {first middle last : UInt64} (atLeast : first ≤ middle)
    (below : middle < last) :
    heightsBetween first middle ++ heightsBetween (middle + 1) last =
      heightsBetween first last := by
  have injective : Function.Injective (List.map UInt64.toNat) :=
    List.map_injective_iff.mpr fun _ _ => UInt64.toNat.inj
  apply injective
  rw [List.map_append, heightsBetween_toNat, heightsBetween_toNat, heightsBetween_toNat,
    toNat_next below]
  rw [UInt64.le_iff_toNat_le] at atLeast
  rw [UInt64.lt_iff_toNat_lt] at below
  have start : middle.toNat + 1 = first.toNat + (middle.toNat + 1 - first.toNat) := by omega
  nth_rewrite 2 [start]
  rw [List.range'_append_1]
  congr 1
  omega

/-! ## Splitting -/

namespace Endpoint

/-- Whether the places where a range is split are computed within 64 bits: neither
does the middle of the range wrap around, nor the start of its second part. -/
structure SplitsExactly (first last : UInt64) : Prop where
  size : (last - first).toNat = last.toNat - first.toNat
  middle : (first + (last - first) / 2).toNat = first.toNat + (last.toNat - first.toNat) / 2
  next : ∀ failure, (firstPart failure first last).last < last →
    ((firstPart failure first last).last + 1).toNat =
      (firstPart failure first last).last.toNat + 1

theorem splitsExactly {first last : UInt64} (ordered : first ≤ last) :
    SplitsExactly first last := by
  have size : (last - first).toNat = last.toNat - first.toNat :=
    UInt64.toNat_sub_of_le _ _ ordered
  constructor
  case size => exact size
  case middle =>
    rw [UInt64.le_iff_toNat_le] at ordered
    have := last.toNat_lt
    rw [UInt64.toNat_add, UInt64.toNat_div, size]
    exact Nat.mod_eq_of_lt (by simp; omega)
  case next => exact fun failure below => toNat_next below

/-! ## Calls for logs -/

/-- The calls for the logs of ranges among some exchanges. -/
def logsCalls (said : List Exchange) : List Call :=
  (said.flatMap Exchange.calls).filter fun call => call.method == "eth_getLogs"

theorem logsCalls_append (said later : List Exchange) :
    logsCalls (said ++ later) = logsCalls said ++ logsCalls later := by
  simp [logsCalls]

/-- Exchanges about other things have no calls for logs. -/
theorem logsCalls_eq_nil {said : List Exchange}
    (other : ∀ exchange ∈ said, ∀ call ∈ exchange.calls, call.method ≠ "eth_getLogs") :
    logsCalls said = [] := by
  simp only [logsCalls, List.filter_eq_nil_iff, List.mem_flatMap, beq_iff_eq]
  rintro call ⟨exchange, member, callMember⟩
  exact other exchange member call callMember

theorem logsCalls_single (first last : UInt64) (options : CallOptions)
    (reply : Except NodeFailure Json) :
    logsCalls [.single (logsCall first last) options reply] = [logsCall first last] := by
  simp [logsCalls, Exchange.calls, logsCall]

/-! ## Nodes that serve logs -/

variable {σ : Type}

/-- Whether a call is answered with a value. -/
def Answers {α : Type} (endpoint : Endpoint σ) (call : Call) (options : CallOptions)
    (read : Json → Option α) (state : σ) (value : α) : Prop :=
  ∃ answer, (endpoint.node.answer call options state).1 = .ok answer ∧ read answer = some value

/-- Whether a call is refused because the answer would be too large. -/
def Refuses (endpoint : Endpoint σ) (call : Call) (options : CallOptions) (state : σ) : Prop :=
  ∃ failure, (endpoint.node.answer call options state).1 = .error failure ∧
    failure.isTooBig = true

/-- Whether a node has receipts for the transactions of a block, which together
carry given logs. -/
def ServesReceipts (endpoint : Endpoint σ) (block : Raw.Block) (logs : List Raw.Log) : Prop :=
  ∃ share : Hash → List Raw.Log, block.transactions.toHashes.flatMap share = logs ∧
    ∀ hash ∈ block.transactions.toHashes, ∀ state, ∃ receipt : Raw.Receipt,
      endpoint.Answers (receiptCall hash) endpoint.options
          (Json.nullable Raw.Receipt.ofJson?) state (some receipt) ∧
        receipt.blockHash = block.hash ∧ receipt.logs.getD [] = share hash

/-- Whether a node, in whatever state, serves the logs of a range of heights: it
lists the logs of any part of the range or refuses to, and it has a block for each
height and receipts for the block, which carry the same logs. -/
structure ServesLogs (endpoint : Endpoint σ) (logs : UInt64 → List Raw.Log)
    (first last : UInt64) : Prop where
  ranges : ∀ lower upper, first ≤ lower → lower ≤ upper → upper ≤ last → ∀ state,
    endpoint.Answers (logsCall lower upper) (endpoint.tolerating .logsOutOfRange)
        (Json.list? Raw.Log.ofJson?) state ((heightsBetween lower upper).flatMap logs) ∨
      endpoint.Refuses (logsCall lower upper) (endpoint.tolerating .logsOutOfRange) state
  blocks : ∀ height, first ≤ height → height ≤ last → ∀ state, ∃ block : Raw.Block,
    endpoint.Answers (blockCall height false) endpoint.options
        (Json.nullable Raw.Block.ofJson?) state (some block) ∧
      endpoint.ServesReceipts block (logs height)

variable {endpoint : Endpoint σ} {memo : Memo}

open Dialogue

/-- A call that is always answered with a value of some kind. -/
theorem meets_call_of_answers {α : Type} (wanted : α → Prop) {call : Call}
    {options : CallOptions} {read : Json → Option α}
    (answers : ∀ state : σ, ∃ value, endpoint.Answers call options read state value ∧
      wanted value) :
    Meets False memo (endpoint.call call options read) fun value said after =>
      wanted value ∧ (∀ exchange ∈ said, exchange.calls = [call]) ∧ after = memo := by
  refine Meets.mono (meets_call (Or.inr fun state => ?_)) ?_
  · obtain ⟨value, ⟨answer, replied, reading⟩, _⟩ := answers state
    exact ⟨answer, replied, Option.isSome_of_eq_some reading⟩
  · rintro value _ _ ⟨state, answer, replied, reading, rfl, rfl⟩
    obtain ⟨other, ⟨otherAnswer, otherReplied, otherReading⟩, isWanted⟩ := answers state
    rw [replied, Except.ok.injEq] at otherReplied
    subst otherReplied
    rw [reading, Option.some.injEq] at otherReading
    subst otherReading
    exact ⟨isWanted, by simp [Exchange.calls], rfl⟩

/-- Whether a receipt is there, belongs to a block and carries given logs. -/
def Carries (block : Hash) (logs : List Raw.Log) (receipt : Option Raw.Receipt) : Prop :=
  ∃ found : Raw.Receipt, receipt = some found ∧ found.blockHash = block ∧
    found.logs.getD [] = logs

/-- The logs of complete receipts of a block are put together in order. -/
theorem logs_of_receipts {block : Hash} {share : Hash → List Raw.Log} {hashes : List Hash}
    {receipts : List (Option Raw.Receipt)}
    (complete : List.Forall₂ (fun hash receipt => Carries block (share hash) receipt)
      hashes receipts) :
    (receipts.all fun receipt => receipt.any (·.blockHash == block)) = true ∧
      ((receipts.filterMap id).flatMap fun receipt => receipt.logs.getD []) =
        hashes.flatMap share := by
  induction complete with
  | nil => exact ⟨rfl, rfl⟩
  | cons head _ ih =>
      obtain ⟨found, rfl, sameBlock, sameLogs⟩ := head
      obtain ⟨all, collected⟩ := ih
      constructor
      · rw [List.all_cons, all, Option.any_some, sameBlock, beq_self_eq_true, Bool.and_self]
      · rw [List.flatMap_cons, ← collected, ← sameLogs]
        rfl

/-- Collecting the logs of a block from its receipts takes no call for logs. -/
theorem meets_logsByReceipts {logs : UInt64 → List Raw.Log} {first last height : UInt64}
    (serves : endpoint.ServesLogs logs first last) (atLeast : first ≤ height)
    (atMost : height ≤ last) :
    Meets False memo (endpoint.logsByReceipts height) fun value said after =>
      value = logs height ∧
        (∀ exchange ∈ said, ∀ call ∈ exchange.calls, call.method ≠ "eth_getLogs") ∧
          after = memo := by
  refine Meets.bind (meets_call_of_answers (fun block => ∃ found : Raw.Block,
    block = some found ∧ endpoint.ServesReceipts found (logs height)) fun state => ?_) ?_
  · obtain ⟨block, answered, complete⟩ := serves.blocks height atLeast atMost state
    exact ⟨some block, answered, block, rfl, complete⟩
  · rintro _ said _ ⟨⟨block, rfl, share, shared, complete⟩, asked, rfl⟩
    refine Meets.bind (Meets.mapM (fun hash => Carries block.hash (share hash))
      (fun exchange => ∀ call ∈ exchange.calls, call.method ≠ "eth_getLogs") ?_) ?_
    · intro hash member
      refine Meets.mono (meets_call_of_answers (Carries block.hash (share hash))
        fun state => ?_) ?_
      · obtain ⟨receipt, answered, carries⟩ := complete hash member state
        exact ⟨some receipt, answered, receipt, rfl, carries⟩
      · rintro receipt said after ⟨carries, asked, same⟩
        refine ⟨carries, ?_, same⟩
        intro exchange said
        simp [asked exchange said, receiptCall, ReceiptsMethod.name]
    · rintro receipts later _ ⟨carries, askedLater, rfl⟩
      obtain ⟨all, collected⟩ := logs_of_receipts carries
      rw [if_pos all]
      refine .pure ⟨collected.trans shared, ?_, rfl⟩
      intro exchange member
      rw [List.append_nil, List.mem_append] at member
      rcases member with member | member
      · simp [asked exchange member, blockCall]
      · exact askedLater exchange member

/-! ## Ranges -/

/-- What fetching the logs of a range comes to: all logs in order, in at most two
calls for each height but one, each of them for a part of the range that is not
empty and can be split without wrapping around. -/
structure RangeFetched (logs : UInt64 → List Raw.Log) (first last : UInt64)
    (fetched : List Raw.Log) (said : List Exchange) : Prop where
  complete : fetched = (heightsBetween first last).flatMap logs
  callCount : (logsCalls said).length ≤ 2 * (last.toNat - first.toNat) + 1
  calls : ∀ call ∈ logsCalls said, ∃ lower upper, call = logsCall lower upper ∧
    first ≤ lower ∧ lower ≤ upper ∧ upper ≤ last ∧ SplitsExactly lower upper

variable {logs : UInt64 → List Raw.Log} {first last : UInt64}

/-- A range that is fetched in one call, with further exchanges about other things. -/
theorem rangeFetched_of_single {options : CallOptions} {reply : Except NodeFailure Json}
    {later : List Exchange} (ordered : first ≤ last)
    (other : ∀ exchange ∈ later, ∀ call ∈ exchange.calls, call.method ≠ "eth_getLogs") :
    RangeFetched logs first last ((heightsBetween first last).flatMap logs)
      (.single (logsCall first last) options reply :: later) := by
  have asked : logsCalls (.single (logsCall first last) options reply :: later) =
      [logsCall first last] := by
    rw [← List.singleton_append, logsCalls_append, logsCalls_single, logsCalls_eq_nil other,
      List.append_nil]
  constructor
  case complete => rfl
  case callCount =>
    rw [asked, List.length_singleton]
    omega
  case calls =>
    intro call member
    rw [asked, List.mem_singleton] at member
    exact ⟨first, last, member, UInt64.le_refl _, ordered, UInt64.le_refl _,
      splitsExactly ordered⟩

/-- A range that is refused and fetched in two parts. -/
theorem rangeFetched_of_parts {options : CallOptions} {reply : Except NodeFailure Json}
    {middle : UInt64} {left right : List Raw.Log} {saidLeft saidRight : List Exchange}
    (atLeast : first ≤ middle) (below : middle < last)
    (lower : RangeFetched logs first middle left saidLeft)
    (upper : RangeFetched logs (middle + 1) last right saidRight) :
    RangeFetched logs first last (left ++ right)
      (.single (logsCall first last) options reply :: (saidLeft ++ saidRight)) := by
  have ordered : first ≤ last := UInt64.le_trans atLeast (UInt64.le_of_lt below)
  have next := toNat_next below
  have asked :
      logsCalls (.single (logsCall first last) options reply :: (saidLeft ++ saidRight)) =
        logsCall first last :: (logsCalls saidLeft ++ logsCalls saidRight) := by
    rw [← List.singleton_append, logsCalls_append, logsCalls_single, logsCalls_append,
      List.singleton_append]
  constructor
  case complete =>
    rw [lower.complete, upper.complete, ← List.flatMap_append,
      heightsBetween_append atLeast below]
  case callCount =>
    have countLeft := lower.callCount
    have countRight := upper.callCount
    rw [UInt64.le_iff_toNat_le] at atLeast
    rw [UInt64.lt_iff_toNat_lt] at below
    rw [asked, List.length_cons, List.length_append]
    omega
  case calls =>
    intro call member
    rw [asked, List.mem_cons, List.mem_append] at member
    rcases member with rfl | member | member
    · exact ⟨first, last, rfl, UInt64.le_refl _, ordered, UInt64.le_refl _,
        splitsExactly ordered⟩
    · obtain ⟨start, stop, same, afterFirst, partOrdered, beforeMiddle, exact⟩ :=
        lower.calls call member
      exact ⟨start, stop, same, afterFirst, partOrdered,
        UInt64.le_trans beforeMiddle (UInt64.le_of_lt below), exact⟩
    · obtain ⟨start, stop, same, afterMiddle, partOrdered, beforeLast, exact⟩ :=
        upper.calls call member
      refine ⟨start, stop, same, ?_, partOrdered, beforeLast, exact⟩
      rw [UInt64.le_iff_toNat_le] at atLeast afterMiddle ⊢
      omega

/-- A node that serves a range serves its parts. -/
theorem ServesLogs.part {lower upper : UInt64} (serves : endpoint.ServesLogs logs first last)
    (afterFirst : first ≤ lower) (beforeLast : upper ≤ last) :
    endpoint.ServesLogs logs lower upper where
  ranges start stop afterLower ordered beforeUpper :=
    serves.ranges start stop (UInt64.le_trans afterFirst afterLower) ordered
      (UInt64.le_trans beforeUpper beforeLast)
  blocks height afterLower beforeUpper :=
    serves.blocks height (UInt64.le_trans afterFirst afterLower)
      (UInt64.le_trans beforeUpper beforeLast)

/-- Without listings, the logs of a range are collected height by height. -/
theorem meets_collected (serves : endpoint.ServesLogs logs first last) :
    Meets False memo ((heightsBetween first last).mapM endpoint.logsByReceipts)
      fun perBlock said after => perBlock = (heightsBetween first last).map logs ∧
        (∀ exchange ∈ said, ∀ call ∈ exchange.calls, call.method ≠ "eth_getLogs") ∧
          after = memo := by
  refine Meets.mono (Meets.mapM (fun height value => value = logs height)
    (fun exchange => ∀ call ∈ exchange.calls, call.method ≠ "eth_getLogs") ?_) ?_
  · intro height member
    obtain ⟨atLeast, atMost⟩ := mem_heightsBetween.mp member
    exact meets_logsByReceipts serves atLeast atMost
  · rintro perBlock said after ⟨each, rest⟩
    refine ⟨?_, rest⟩
    have flipped := List.forall₂_map_left_iff.mpr (each.imp fun _ _ => Eq.symm)
    rw [List.forall₂_eq_eq_eq] at flipped
    exact flipped.symm

/-- Both parts of a range that is split lie within it and are shorter. -/
theorem parts_within {middle : UInt64} (atLeast : first ≤ middle) (below : middle < last) :
    (first ≤ middle + 1 ∧ middle + 1 ≤ last) ∧
      middle.toNat - first.toNat < last.toNat - first.toNat ∧
        last.toNat - (middle + 1).toNat < last.toNat - first.toNat := by
  have next := toNat_next below
  rw [UInt64.le_iff_toNat_le] at atLeast
  rw [UInt64.lt_iff_toNat_lt] at below
  rw [UInt64.le_iff_toNat_le, UInt64.le_iff_toNat_le]
  omega

/-- Whatever part of a refused range is fetched first, the range is fetched. -/
theorem meets_logsBetween (ordered : first ≤ last)
    (serves : endpoint.ServesLogs logs first last) :
    Meets False memo (endpoint.logsBetween first last) fun fetched said after =>
      RangeFetched logs first last fetched said ∧ after = memo := by
  induction size : last.toNat - first.toNat using Nat.strongRecOn
    generalizing first last memo with
  | ind size ih =>
      rw [logsBetween]
      apply Meets.bind meets_ask
      rintro reply _ _ ⟨⟨state, replied⟩, rfl, rfl⟩
      have range := serves.ranges first last (UInt64.le_refl _) ordered (UInt64.le_refl _) state
      rcases range with ⟨answer, answered, reading⟩ | ⟨failure, refused, tooBig⟩
      · rw [replied] at answered
        subst answered
        refine Meets.mono (meets_decoded fun unread => ?_) ?_
        · rw [reading] at unread
          exact absurd unread (by simp)
        · rintro fetched _ _ ⟨read, rfl, rfl⟩
          rw [reading, Option.some.injEq] at read
          subst read
          exact ⟨rangeFetched_of_single ordered (by simp), rfl⟩
      · rw [replied] at refused
        subst refused
        simp only [tooBig, if_true]
        split
        case isTrue proper =>
          obtain ⟨_, atLeast, below⟩ := proper
          obtain ⟨⟨afterFirst, beforeLast⟩, shorterLeft, shorterRight⟩ :=
            parts_within atLeast below
          refine Meets.bind (ih _ (size ▸ shorterLeft) atLeast
            (serves.part (UInt64.le_refl _) (UInt64.le_of_lt below)) rfl) ?_
          rintro left saidLeft _ ⟨lower, rfl⟩
          refine Meets.bind (ih _ (size ▸ shorterRight) beforeLast
            (serves.part afterFirst (UInt64.le_refl _)) rfl) ?_
          rintro right saidRight _ ⟨upper, rfl⟩
          refine .pure ⟨?_, rfl⟩
          rw [List.append_nil, List.singleton_append]
          exact rangeFetched_of_parts atLeast below lower upper
        case isFalse =>
          apply Meets.bind (meets_collected serves)
          rintro _ later _ ⟨rfl, other, rfl⟩
          refine .pure ⟨?_, rfl⟩
          rw [List.append_nil, ← List.flatMap_def, List.singleton_append]
          exact rangeFetched_of_single ordered other

/-- If a node serves the logs of a range, whatever parts of it the node refuses to
list, then fetching the range ends with all logs in order: it takes a bounded number
of calls for logs, each for a part of the range that is not empty, and where a range
is split is never computed wrongly. -/
theorem logsBetween_complete (endpoint : Endpoint σ) (logs : UInt64 → List Raw.Log)
    {first last : UInt64} (ordered : first ≤ last)
    (serves : endpoint.ServesLogs logs first last) (session : Session σ) :
    ∃ (said : List Exchange) (final : Session σ),
      (endpoint.logsBetween first last).run.run session =
          (.ok ((heightsBetween first last).flatMap logs), final) ∧
        final.transcript = session.transcript ++ said ∧
          (logsCalls said).length ≤ 2 * (last.toNat - first.toNat) + 1 ∧
            ∀ call ∈ logsCalls said, ∃ lower upper, call = logsCall lower upper ∧
              first ≤ lower ∧ lower ≤ upper ∧ upper ≤ last ∧ SplitsExactly lower upper := by
  obtain ⟨fetched, said, final, run, recorded, range, _⟩ :=
    (meets_logsBetween ordered serves).ends session rfl
  obtain ⟨rfl, callCount, calls⟩ := range
  exact ⟨said, final, run, recorded, callCount, calls⟩

/-! ## A node that refuses -/

/-- A node that knows one log, at height 8, and lists no range that has it. -/
def refusingNode : Node Unit where
  url := ""
  answer call _ _ :=
    let word := Json.arr (List.replicate 32 (.int 0))
    let block := fun (height : String) (hashes : List Json) =>
      Json.obj
        [ ("number", .str height), ("hash", word), ("parentHash", word),
          ("logsBloom", .arr (List.replicate 256 (.int 0))), ("transactions", .arr hashes) ]
    let log :=
      Json.obj
        [ ("blockNumber", .str "0x8"), ("blockHash", word), ("logIndex", .str "0x0"),
          ("transactionIndex", .str "0x0") ]
    let receipt :=
      Json.obj
        [ ("blockNumber", .str "0x8"), ("blockHash", word), ("transactionIndex", .str "0x0"),
          ("transactionHash", word), ("logs", .arr [log]) ]
    let reply :=
      match call.method, call.params with
      | "eth_getLogs", [.obj [_, (_, .str "0x7")]] => .ok (.arr [])
      | "eth_getLogs", _ =>
          .error (.server (-32005)
            "Query returned more than 0 results. Try with this block range [0x7, 0x7].")
      | "eth_getBlockByNumber", [.str "0x7", _] => .ok (block "0x7" [])
      | "eth_getBlockByNumber", _ => .ok (block "0x8" [word])
      | _, _ => .ok receipt
    (reply, ())
  answerBatch _ _ _ := (.error (.transport ""), ())

/-- The logs that the node knows. -/
def refusedLogs (height : UInt64) : List Raw.Log :=
  if height = 8 then [⟨8, .zero 32, 0, 0, none, none, none, none⟩] else []

/-- A hash that block seven may have, to be told from block eight. -/
def hashOfSeven : Hash :=
  ⟨List.replicate 32 1, List.length_replicate⟩

theorem heightParam_seven : heightParam 7 = .str "0x7" := by
  rw [heightParam, hexNumeral, digitsOf]
  rfl

theorem heightParam_eight : heightParam 8 = .str "0x8" := by
  rw [heightParam, hexNumeral, digitsOf]
  rfl

set_option maxRecDepth 2000 in
theorem refusingNode_serves :
    (Endpoint.of refusingNode .standard).ServesLogs refusedLogs 7 8 where
  ranges lower upper afterFirst ordered beforeLast state := by
    have ends : lower = 7 ∧ upper = 7 ∨ upper = 8 := by
      simp only [UInt64.le_iff_toNat_le, ← UInt64.toNat_inj, UInt64.reduceToNat] at *
      omega
    rcases ends with ⟨rfl, rfl⟩ | rfl
    · refine Or.inl ⟨.arr [], ?_, by decide⟩
      rw [logsCall, heightParam_seven]
      rfl
    · refine Or.inr ⟨.server (-32005)
        "Query returned more than 0 results. Try with this block range [0x7, 0x7].",
        ?_, by decide +kernel⟩
      rw [logsCall, heightParam_eight]
      rfl
  blocks height afterFirst beforeLast state := by
    have ends : height = 7 ∨ height = 8 := by
      simp only [UInt64.le_iff_toNat_le, ← UInt64.toNat_inj, UInt64.reduceToNat] at *
      omega
    rcases ends with rfl | rfl
    · rw [blockCall, heightParam_seven]
      refine ⟨_, ⟨_, rfl, rfl⟩, fun _ => [], rfl, ?_⟩
      exact fun _ member => absurd member List.not_mem_nil
    · rw [blockCall, heightParam_eight]
      refine ⟨_, ⟨_, rfl, rfl⟩, fun _ => refusedLogs 8, rfl, ?_⟩
      exact fun hash member state => ⟨_, ⟨_, rfl, rfl⟩, rfl, rfl⟩

/-- The range is split as the node suggests, and its second part is collected from
receipts. -/
theorem logsBetween_refusingNode :
    (7 : UInt64) ≤ 8 ∧
      (Endpoint.of refusingNode .standard).ServesLogs refusedLogs 7 8 ∧
        (((Endpoint.of refusingNode .standard).logsBetween 7 8).run.run (.start ())).1 =
          .ok [⟨8, .zero 32, 0, 0, none, none, none, none⟩] := by
  refine ⟨by decide, refusingNode_serves, ?_⟩
  obtain ⟨_, _, run, _⟩ := logsBetween_complete (Endpoint.of refusingNode .standard) refusedLogs
    (by decide) refusingNode_serves (.start ())
  rw [run]
  rfl

end Endpoint

end ChainFeed
