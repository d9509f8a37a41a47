import ChainFeed.Feed
import ChainFeed.Proofs.Outcomes
import ChainFeed.Proofs.Rounds
import Mathlib.Data.List.Chain
import Mathlib.Data.List.TakeWhile
import Mathlib.Order.Bounds.Basic

/-!
# The chain at the head

A range near the head is cut twice: before enrichment where a block is missing or does
not follow the one before, and after it where a block is defective.  What is left is
a chain of valid blocks, and each cut leaves as much as it can.
-/

namespace ChainFeed

variable {α : Type}

/-- Whether a list is the longest part of another from the start on for which a
property holds. -/
structure IsLongestPart (property : List α → Prop) (part whole : List α) : Prop where
  starts : part <+: whole
  holds : property part
  longest : ∀ {other : List α}, other <+: whole → property other → other.length ≤ part.length

/-- What is taken while items are good is the longest part of good items. -/
theorem isLongestPart_takeWhile (good : α → Bool) (whole : List α) :
    IsLongestPart (fun part => ∀ item ∈ part, good item = true) (whole.takeWhile good)
      whole where
  starts := List.takeWhile_prefix good
  holds := fun _ => List.mem_takeWhile_imp
  longest := by
    intro other starts allGood
    obtain ⟨rest, rfl⟩ := starts
    rw [List.takeWhile_append_of_pos allGood, List.length_append]
    exact Nat.le_add_right _ _

/-! ## Linked replies -/

/-- Whether each block names the one before as its parent. -/
def HashLinked (blocks : List Raw.Block) : Prop :=
  blocks.IsChain fun previous block => block.parentHash = previous.hash

/-- Whether replies are linked blocks without a gap, the first of which names a given
parent. -/
def LinkedFrom (parent : Option Hash) (replies : List (Option Raw.Block)) : Prop :=
  ∃ blocks, replies = blocks.map some ∧ HashLinked blocks ∧
    ∀ hash ∈ parent, ∀ block ∈ blocks.head?, block.parentHash = hash

/-- Whether replies are linked blocks without a gap. -/
def LinkedReplies (replies : List (Option Raw.Block)) : Prop :=
  ∃ blocks, replies = blocks.map some ∧ HashLinked blocks

theorem linkedFrom_none_iff (replies : List (Option Raw.Block)) :
    LinkedFrom none replies ↔ LinkedReplies replies := by
  simp [LinkedFrom, LinkedReplies]

theorem linkedFrom_nil (parent : Option Hash) : LinkedFrom parent [] :=
  ⟨[], rfl, .nil, by simp⟩

theorem not_linkedFrom_gap (parent : Option Hash) (replies : List (Option Raw.Block)) :
    ¬LinkedFrom parent (none :: replies) := by
  intro ⟨blocks, same, _⟩
  cases blocks <;> simp at same

theorem linkedFrom_cons_iff (parent : Option Hash) (block : Raw.Block)
    (replies : List (Option Raw.Block)) :
    LinkedFrom parent (some block :: replies) ↔
      parent.all (· == block.parentHash) = true ∧ LinkedFrom (some block.hash) replies := by
  constructor
  · intro ⟨blocks, same, linked, follows⟩
    cases blocks with
    | nil => simp at same
    | cons first blocks =>
        simp only [List.map_cons, List.cons.injEq, Option.some.injEq] at same
        obtain ⟨rfl, rfl⟩ := same
        rw [HashLinked, List.isChain_cons] at linked
        refine ⟨?_, blocks, rfl, linked.2, by simpa using linked.1⟩
        cases parent with
        | none => rfl
        | some hash => simpa using (follows hash rfl block rfl).symm
  · intro ⟨follows, blocks, same, linked, next⟩
    refine ⟨block :: blocks, by rw [same, List.map_cons], ?_, ?_⟩
    · rw [HashLinked, List.isChain_cons]
      exact ⟨next block.hash rfl, linked⟩
    · intro hash isParent first isFirst
      cases isParent
      cases isFirst
      exact (beq_iff_eq.mp follows).symm

/-- Nothing linked starts with replies that have nothing linked at their start. -/
theorem isLongestPart_nil {parent : Option Hash} {replies : List (Option Raw.Block)}
    (stuck : ∀ reply rest, replies = reply :: rest →
      ∀ others, ¬LinkedFrom parent (reply :: others)) :
    IsLongestPart (LinkedFrom parent) [] replies where
  starts := List.nil_prefix
  holds := linkedFrom_nil parent
  longest := by
    intro other starts linked
    obtain ⟨rest, rfl⟩ := starts
    cases other with
    | nil => exact Nat.le_refl 0
    | cons reply other => exact absurd linked (stuck reply (other ++ rest) rfl other)

theorem IsLongestPart.cons {parent : Option Hash} {block : Raw.Block}
    {part replies : List (Option Raw.Block)}
    (isLongest : IsLongestPart (LinkedFrom (some block.hash)) part replies)
    (follows : parent.all (· == block.parentHash) = true) :
    IsLongestPart (LinkedFrom parent) (some block :: part) (some block :: replies) where
  starts := (List.prefix_cons_inj _).mpr isLongest.starts
  holds := (linkedFrom_cons_iff _ _ _).mpr ⟨follows, isLongest.holds⟩
  longest := by
    intro other starts linked
    cases other with
    | nil => exact Nat.zero_le _
    | cons reply other =>
        rw [List.cons_prefix_cons] at starts
        obtain ⟨rfl, starts⟩ := starts
        exact Nat.succ_le_succ
          (isLongest.longest starts ((linkedFrom_cons_iff _ _ _).mp linked).2)

/-- The linked part of replies is the longest one. -/
theorem exists_chain_of_linkedPart (parent : Option Hash) (replies : List (Option Raw.Block)) :
    ∃ chain : List Raw.Block,
      linkedPart parent (replies.map (·.map FetchedBlock.ofBlock)) =
          chain.map FetchedBlock.ofBlock ∧
        IsLongestPart (LinkedFrom parent) (chain.map some) replies := by
  -- Each block is the parent that the rest has to name, so the parent varies.
  induction replies generalizing parent with
  | nil => exact ⟨[], rfl, isLongestPart_nil (by simp)⟩
  | cons reply replies ih =>
      cases reply with
      | none =>
          refine ⟨[], rfl, isLongestPart_nil ?_⟩
          intro reply rest same others
          cases same
          exact not_linkedFrom_gap parent others
      | some block =>
          cases follows : parent.all (· == block.parentHash) with
          | true =>
              obtain ⟨chain, same, isLongest⟩ := ih (some block.hash)
              refine ⟨block :: chain, ?_, isLongest.cons follows⟩
              simp only [List.map_cons, Option.map_some, linkedPart, ← same]
              exact if_pos follows
          | false =>
              refine ⟨[], ?_, isLongestPart_nil ?_⟩
              · simp only [List.map_cons, Option.map_some, linkedPart]
                exact if_neg (by simp [FetchedBlock.ofBlock, follows])
              · intro reply rest same others
                cases same
                simp [linkedFrom_cons_iff, follows]

namespace Endpoint

open Dialogue

variable {σ : Type} {endpoint : Endpoint σ} {first last finalized : UInt64} {demand : Demand}

/-! ## Ranges near the head -/

/-- What the blocks of a range near the head are made of: the replies for the heights,
the chain at their start, which is enriched, and the valid blocks at its start. -/
structure HeadRun (endpoint : Endpoint σ) (first last : UInt64) (demand : Demand)
    (finalized : UInt64) (session : Session σ) (replies : List (Option Raw.Block))
    (chain : List Raw.Block) (enriched result : List FetchedBlock) (final : Session σ) :
    Prop where
  /-- The replies are asked for first, and exactly the chain is enriched then. -/
  said : ∃ middle, endpoint.Replied (heightsBetween first last) demand.transactions session
      replies middle ∧
    (endpoint.enrich demand (some finalized) (chain.map FetchedBlock.ofBlock)).run.run middle =
      (.ok enriched, final)
  /-- The chain is the longest part of the replies without a gap or a fork. -/
  linked : IsLongestPart LinkedReplies (chain.map some) replies
  /-- The result is the longest part of the enriched chain without a defect. -/
  valid : IsLongestPart (fun part => ∀ block ∈ part, block.isValid = true) result enriched

theorem headRun_of_headSplit {session final : Session σ} {result : List FetchedBlock}
    (run : (endpoint.headSplit first last demand finalized).run.run session =
      (.ok result, final)) :
    ∃ replies chain enriched,
      HeadRun endpoint first last demand finalized session replies chain enriched result
        final := by
  obtain ⟨slots, middle, batch, rest⟩ := run_bind_eq_ok run
  obtain ⟨replies, rfl, replied⟩ := replied_of_blockBatch batch
  obtain ⟨chain, same, linked⟩ := exists_chain_of_linkedPart none replies
  rw [same] at rest
  obtain ⟨enriched, after, enriching, cut⟩ := run_bind_eq_ok rest
  cases cut
  refine ⟨replies, chain, enriched, ⟨middle, replied, enriching⟩, ?_,
    isLongestPart_takeWhile _ _⟩
  rwa [funext fun part => propext (linkedFrom_none_iff part)] at linked

/-- What a batch near the head is made of. -/
structure HotRun (replies : List (Option Raw.Block)) (chain : List Raw.Block)
    (enriched result : List FetchedBlock) (demand : Demand) (blocks : List Block) : Prop where
  /-- Each block of the result is served. -/
  served : List.Forall₂ (fun fetched block => fetched.serve demand = .ok block) result blocks
  /-- The headers are those of the start of the chain. -/
  headers : blocks.map (fun block =>
      (block.header.height, block.header.hash, block.header.parentHash)) =
    (chain.take blocks.length).map fun block => (block.number, block.hash, block.parentHash)
  /-- Each header names the one before as its parent. -/
  linked : blocks.IsChain fun previous block =>
    block.header.parentHash = previous.header.hash
  /-- The blocks stand for as many replies as there are before the first gap, fork or
  defect. -/
  complete : IsGreatest {count | count ≤ replies.length ∧ LinkedReplies (replies.take count) ∧
    ∀ block ∈ enriched.take count, block.isValid = true} blocks.length

theorem header_of_project {fetched : FetchedBlock} {block : Block}
    (run : fetched.project demand = .ok block) :
    block.header = Header.project fetched.block demand.fields.block := by
  obtain ⟨items, _, rest⟩ := exists_of_bind_eq_ok run
  obtain ⟨others, _, rest⟩ := exists_of_bind_eq_ok rest
  cases rest
  rfl

/-- A served block has the identity of the block it is served for. -/
theorem header_of_serve {fetched : FetchedBlock} {block : Block}
    (served : fetched.serve demand = .ok block) :
    (block.header.height, block.header.hash, block.header.parentHash) =
      (fetched.block.number, fetched.block.hash, fetched.block.parentHash) := by
  unfold FetchedBlock.serve at served
  cases run : fetched.project demand with
  | error fault =>
      rw [run] at served
      cases served
  | ok projected =>
      rw [run] at served
      cases served
      have same := header_of_project run
      change (projected.header.height, projected.header.hash, projected.header.parentHash) = _
      rw [same]
      rfl

theorem run_liftExcept {outcome : Except Fault α} {session final : Session σ} {value : α}
    (run : (finalizedBatch.liftExcept outcome : Dialogue σ α).run.run session =
      (.ok value, final)) :
    outcome = .ok value ∧ final = session := by
  cases outcome <;> cases run
  exact ⟨rfl, rfl⟩

/-- The blocks of a batch near the head are those of the range, served one by one. -/
theorem served_of_hotBatch {session final : Session σ} {batch : BlockBatch}
    (run : (endpoint.hotBatch first last finalized demand).run.run session = (.ok batch, final)) :
    ∃ result middle,
      (endpoint.headSplit first last demand finalized).run.run session = (.ok result, middle) ∧
        List.Forall₂ (fun fetched block => fetched.serve demand = .ok block) result
          batch.blocks := by
  obtain ⟨result, middle, split, rest⟩ := run_bind_eq_ok run
  obtain ⟨blocks, after, lifted, rest⟩ := run_bind_eq_ok rest
  have served := forall₂_of_mapM_eq_ok (run_liftExcept lifted).1
  refine ⟨result, middle, split, ?_⟩
  cases last : blocks.getLast? with
  | none =>
      simp only [last] at rest
      cases rest
      exact served
  | some block =>
      simp only [last] at rest
      obtain ⟨height, later, _, rest⟩ := run_bind_eq_ok rest
      cases rest
      exact served

theorem headers_of_served {result : List FetchedBlock} {blocks : List Block}
    (served : List.Forall₂ (fun fetched block => fetched.serve demand = .ok block) result
      blocks) :
    blocks.map (fun block => (block.header.height, block.header.hash, block.header.parentHash)) =
      (result.map FetchedBlock.block).map fun block =>
        (block.number, block.hash, block.parentHash) := by
  induction served with
  | nil => rfl
  | cons one _ ih =>
      rw [List.map_cons, header_of_serve one, ih]
      rfl

/-- Headers that are those of linked blocks are linked. -/
theorem isChain_headers {raws : List Raw.Block} {blocks : List Block}
    (headers : blocks.map (fun block =>
        (block.header.height, block.header.hash, block.header.parentHash)) =
      raws.map fun block => (block.number, block.hash, block.parentHash))
    (linked : HashLinked raws) :
    blocks.IsChain fun previous block => block.header.parentHash = previous.header.hash := by
  let follows (previous block : UInt64 × Hash × Hash) : Prop := block.2.2 = previous.2.1
  have chained : (raws.map fun block =>
      (block.number, block.hash, block.parentHash)).IsChain follows :=
    (List.isChain_map _).mpr linked
  rw [← headers, List.isChain_map] at chained
  exact chained

/-- A linked part of replies is made of linked blocks. -/
theorem linkedReplies_map_some {blocks : List Raw.Block} :
    LinkedReplies (blocks.map some) ↔ HashLinked blocks := by
  constructor
  · intro ⟨others, same, linked⟩
    rwa [List.map_injective_iff.mpr (Option.some_injective _) same]
  · intro linked
    exact ⟨blocks, rfl, linked⟩

theorem hotRun_of_headRun {session final : Session σ} {replies : List (Option Raw.Block)}
    {chain : List Raw.Block} {enriched result : List FetchedBlock} {blocks : List Block}
    (headRun : HeadRun endpoint first last demand finalized session replies chain enriched result
      final)
    (served : List.Forall₂ (fun fetched block => fetched.serve demand = .ok block) result
      blocks) : HotRun replies chain enriched result demand blocks := by
  obtain ⟨middle, _, enriching⟩ := headRun.said
  have sameBlocks := block_of_enrich enriching
  have asMany : enriched.length = chain.length := by rw [← sameBlocks, List.length_map]
  have atMost : blocks.length ≤ enriched.length :=
    served.length_eq ▸ headRun.valid.starts.length_le
  have isTake : result = enriched.take blocks.length :=
    served.length_eq ▸ List.prefix_iff_eq_take.mp headRun.valid.starts
  have isStart : replies.take chain.length = chain.map some := by
    rw [← List.length_map (f := some)]
    exact (List.prefix_iff_eq_take.mp headRun.linked.starts).symm
  have headers := headers_of_served served
  rw [isTake, List.map_take, sameBlocks] at headers
  have linked : HashLinked (chain.take blocks.length) :=
    (linkedReplies_map_some.mp headRun.linked.holds).take _
  refine ⟨served, headers, isChain_headers headers linked, ⟨?_, ?_, ?_⟩, ?_⟩
  · have inReplies := headRun.linked.starts.length_le
    rw [List.length_map] at inReplies
    omega
  · have upTo : replies.take blocks.length = (chain.take blocks.length).map some := by
      rw [List.map_take, ← isStart, List.take_take, Nat.min_eq_left (asMany ▸ atMost)]
    rw [upTo]
    exact linkedReplies_map_some.mpr linked
  · rw [← isTake]
    exact headRun.valid.holds
  -- A longer start of the replies would be linked, so within the chain, and there valid.
  · intro count ⟨inReplies, linkedPart, validPart⟩
    have inChain := headRun.linked.longest (List.take_prefix count replies) linkedPart
    have inResult := headRun.valid.longest (List.take_prefix count enriched) validPart
    rw [List.length_take, Nat.min_eq_left inReplies, List.length_map] at inChain
    rw [List.length_take, Nat.min_eq_left (asMany ▸ inChain), served.length_eq] at inResult
    exact inResult

/-- Near the head, exactly the longest linked part of the replies is enriched, and the
result is the longest valid part of that.  So the headers of a batch are linked, and it
ends only where the replies do or where a block is missing, forked or defective. -/
theorem headSplit_hotBatch_longest (endpoint : Endpoint σ) (first last finalized : UInt64)
    (demand : Demand) (session final : Session σ) :
    (∀ result, (endpoint.headSplit first last demand finalized).run.run session =
        (.ok result, final) →
      ∃ replies chain enriched,
        HeadRun endpoint first last demand finalized session replies chain enriched result
          final) ∧
    ∀ batch, (endpoint.hotBatch first last finalized demand).run.run session =
        (.ok batch, final) →
      ∃ replies chain enriched result middle,
        HeadRun endpoint first last demand finalized session replies chain enriched result
            middle ∧
          HotRun replies chain enriched result demand batch.blocks := by
  constructor
  · intro result run
    exact headRun_of_headSplit run
  · intro batch run
    obtain ⟨result, middle, split, served⟩ := served_of_hotBatch run
    obtain ⟨replies, chain, enriched, headRun⟩ := headRun_of_headSplit split
    exact ⟨replies, chain, enriched, result, middle, headRun,
      hotRun_of_headRun headRun served⟩

/-- A block in which every octet of a hash is the same. -/
def uniformBlock (height : String) (hash parent bloom : Int) : Json :=
  .obj
    [ ("number", .str height), ("hash", .arr (List.replicate 32 (.int hash))),
      ("parentHash", .arr (List.replicate 32 (.int parent))),
      ("logsBloom", .arr (List.replicate 256 (.int bloom))), ("transactions", .arr []) ]

/-- A node that lists no logs, and that has four blocks from height seven on: the third
one promises logs, and the fourth one follows the second. -/
def forkedNode : Node Unit where
  url := ""
  answer call _ _ :=
    match call.method with
    | "eth_getLogs" => (.ok (.arr []), ())
    | _ => (.ok (.str "0xa"), ())
  answerBatch _ _ _ :=
    (.ok
      [ uniformBlock "0x7" 7 6 0, uniformBlock "0x8" 8 7 0, uniformBlock "0x9" 9 8 1,
        uniformBlock "0xa" 10 8 0 ], ())

/-- A demand for logs. -/
def logsDemand : Demand :=
  { Demand.of .empty .off with logs := true }

/-- Of the four blocks of the forked node, the first two are served. -/
theorem hotBatch_forkedNode :
    (∃ (result : List FetchedBlock) (final : Session Unit) (replies : List (Option Raw.Block))
      (chain : List Raw.Block) (enriched : List FetchedBlock),
      result.map (·.height) = [7, 8] ∧
        HeadRun (.of forkedNode .standard) 7 10 logsDemand 0 (.start ()) replies chain enriched
          result final) ∧
    ∃ (batch : BlockBatch) (replies : List (Option Raw.Block)) (chain : List Raw.Block)
      (enriched result : List FetchedBlock) (middle : Session Unit),
      batch.blocks.map (·.header.height) = [7, 8] ∧
        HeadRun (.of forkedNode .standard) 7 10 logsDemand 0 (.start ()) replies chain enriched
            result middle ∧
          HotRun replies chain enriched result logsDemand batch.blocks := by
  constructor
  · have observed : ((((Endpoint.of forkedNode .standard).headSplit 7 10 logsDemand 0).run.run
        (.start ())).1.toOption.map fun result => result.map (·.height)) = some [7, 8] := by
      decide +kernel
    obtain ⟨result, run, heights⟩ := exists_of_observed observed
    obtain ⟨replies, chain, enriched, headRun⟩ :=
      (headSplit_hotBatch_longest (.of forkedNode .standard) 7 10 0 logsDemand (.start ())
        _).1 result run
    exact ⟨result, _, replies, chain, enriched, heights, headRun⟩
  · have observed : ((((Endpoint.of forkedNode .standard).hotBatch 7 10 0 logsDemand).run.run
        (.start ())).1.toOption.map fun batch => batch.blocks.map (·.header.height)) =
          some [7, 8] := by
      decide +kernel
    obtain ⟨batch, run, heights⟩ := exists_of_observed observed
    obtain ⟨replies, chain, enriched, result, middle, headRun, hotRun⟩ :=
      (headSplit_hotBatch_longest (.of forkedNode .standard) 7 10 0 logsDemand (.start ())
        _).2 batch run
    exact ⟨batch, replies, chain, enriched, result, middle, heights, headRun, hotRun⟩

end Endpoint

end ChainFeed
