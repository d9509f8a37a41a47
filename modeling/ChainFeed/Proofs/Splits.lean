import ChainFeed.Engine.Head
import ChainFeed.Proofs.Completion
import ChainFeed.Proofs.HeadChain
import ChainFeed.Proofs.Mending
import ChainFeed.Proofs.Sources

/-!
# Splits of blocks

The blocks that a fetch comes to stand beside the heights that it is for.  Whatever
each attempt says of a height or of a block carries over to them, however many attempts
were made and whichever blocks were part of them.
-/

namespace ChainFeed

open Dialogue

variable {σ : Type}

/-! ## Repeated attempts -/

section Attempts

variable {α β : Type} {memo : Memo} {attempt : List β → Dialogue σ (List α)} {good : α → Bool}
  {giveUp : Nat → β → α → Fault} {items : List β} {results : List α}

/-- New results take the places of bad ones beside the same items. -/
theorem forall₂_refill {each : β → α → Prop} {again : List α}
    (sofar : List.Forall₂ each items results)
    (fresh : List.Forall₂ each ((unsettled good items results).map Prod.fst) again) :
    List.Forall₂ each items (refill good results again) := by
  induction sofar generalizing again with
  | nil => exact .nil
  | @cons item result items results relates rest ih =>
      rw [unsettled_cons] at fresh
      unfold refill
      cases isGood : good result with
      | true =>
          rw [if_pos rfl]
          rw [isGood, if_pos rfl] at fresh
          exact .cons relates (ih fresh)
      | false =>
          rw [if_neg (by simp)]
          rw [isGood, if_neg (by simp), List.map_cons] at fresh
          cases fresh with
          | cons relatesAgain later => exact .cons relatesAgain (ih later)

/-- What is left to try is part of the items. -/
theorem unsettled_sublist (sameLength : items.length = results.length) :
    ((unsettled good items results).map Prod.fst).Sublist items := by
  have beside : (items.zip results).map Prod.fst = items :=
    List.map_fst_zip (Nat.le_of_eq sameLength)
  have kept : ((unsettled good items results).map Prod.fst).Sublist
      ((items.zip results).map Prod.fst) := List.filter_sublist.map Prod.fst
  rwa [beside] at kept

/-- Nothing is left to try when all results are good. -/
theorem forall₂_good_of_settled {each : β → α → Prop}
    (sofar : List.Forall₂ each items results) (settled : unsettled good items results = []) :
    List.Forall₂ (fun item result => each item result ∧ good result = true) items results := by
  induction sofar with
  | nil => exact .nil
  | @cons item result items results relates rest ih =>
      rw [unsettled_cons] at settled
      cases isGood : good result with
      | true =>
          rw [isGood, if_pos rfl] at settled
          exact .cons ⟨relates, isGood⟩ (ih settled)
      | false =>
          rw [isGood, if_neg (by simp)] at settled
          exact absurd settled (by simp)

variable {each : List Exchange → β → α → Prop} {known : Memo → Prop}
  (attempts : ∀ asked, asked.Sublist items → ∀ memo, known memo →
    Meets True memo (attempt asked) fun results said after =>
      (∀ record, said ⊆ record → List.Forall₂ (each record) asked results) ∧ known after)

include attempts

theorem meets_retry {before : List Exchange} {retries made : Nat}
    (sofar : ∀ record, before ⊆ record → List.Forall₂ (each record) items results)
    (start : known memo) :
    Meets True memo (retry attempt good giveUp items retries made results)
      fun final said after => (∀ record, before ++ said ⊆ record →
        List.Forall₂ (fun item result => each record item result ∧ good result = true) items
          final) ∧ known after := by
  -- The record grows with each attempt, so what stands so far is stated of every record
  -- that has what was said before.
  induction retries generalizing before made results memo with
  | zero =>
      unfold retry
      cases settled : unsettled good items results with
      | cons entry rest => exact .throw trivial
      | nil =>
          refine .pure ⟨fun record kept => ?_, start⟩
          rw [List.append_nil] at kept
          exact forall₂_good_of_settled (sofar record kept) settled
  | succ retries ih =>
      unfold retry
      cases left : unsettled good items results with
      | nil =>
          refine .pure ⟨fun record kept => ?_, start⟩
          rw [List.append_nil] at kept
          exact forall₂_good_of_settled (sofar record kept) left
      | cons entry rest =>
          have isPart : ((entry :: rest).map Prod.fst).Sublist items :=
            left ▸ unsettled_sublist (sofar before (List.Subset.refl before)).length_eq
          refine Meets.bind (attempts _ isPart memo start) ?_
          rintro again said after ⟨fresh, stillKnown⟩
          have sofarLater : ∀ record, before ++ said ⊆ record →
              List.Forall₂ (each record) items (refill good results again) := by
            intro record kept
            rw [List.append_subset] at kept
            apply forall₂_refill (sofar record kept.1)
            rw [left]
            exact fresh record kept.2
          apply Meets.mono (ih sofarLater stillKnown)
          rintro final later _ ⟨settled, finallyKnown⟩
          rw [List.append_assoc] at settled
          exact ⟨settled, finallyKnown⟩

/-- What each attempt says of the items that are part of it holds of all of them in the
end. -/
theorem meets_persist {limit : Nat} (start : known memo) :
    Meets True memo (persist attempt good giveUp limit items) fun final said after =>
      (∀ record, said ⊆ record →
        List.Forall₂ (fun item result => each record item result ∧ good result = true) items
          final) ∧ known after := by
  apply Meets.bind (attempts items (List.Sublist.refl items) memo start)
  rintro results said after ⟨sofar, stillKnown⟩
  exact meets_retry attempts sofar stillKnown

end Attempts

namespace Endpoint

variable {memo : Memo} {endpoint : Endpoint σ} {demand : Demand} {known : Memo → Prop}

/-! ## Blocks at heights -/

theorem meets_blockBatch_reads {heard : List Exchange → Call → CallOptions → Json → Prop}
    (hears : endpoint.Hears heard) {heights : List UInt64} {full : Bool} :
    Meets True memo (endpoint.blockBatch heights full) fun slots said after =>
      ∃ replies : List (Option Raw.Block), slots = replies.map (·.map FetchedBlock.ofBlock) ∧
        (∀ record, said ⊆ record →
          List.Forall₂ (fun height reply => Reads (heard record) (blockCall height full)
            (endpoint.tolerating .unfinalized) (Json.nullable Raw.Block.ofJson?) reply) heights
            replies) ∧ after = memo := by
  apply Meets.bind (meets_batch_reads hears)
  rintro replies said _ ⟨readAll, rfl⟩
  refine .pure ⟨replies, rfl, fun record kept => ?_, rfl⟩
  rw [List.append_nil] at kept
  exact List.forall₂_map_left_iff.mp (readAll record kept)

/-- Whether a block is given for a height. -/
def GivesBlock (endpoint : Endpoint σ) (heard : Call → CallOptions → Json → Prop) (full : Bool)
    (height : UInt64) (raw : Raw.Block) : Prop :=
  Reads heard (blockCall height full) (endpoint.tolerating .unfinalized)
    (Json.nullable Raw.Block.ofJson?) (some raw)

/-- Whether a slot is empty or has a block that is given. -/
def SlotGives (gives : UInt64 → Raw.Block → Prop) (height : UInt64)
    (slot : Option FetchedBlock) : Prop :=
  ∀ block, slot = some block → ∃ raw, gives height raw ∧ block = .ofBlock raw

theorem meets_blockBatch_gives {heard : List Exchange → Call → CallOptions → Json → Prop}
    (hears : endpoint.Hears heard) {heights : List UInt64} {full : Bool} :
    Meets True memo (endpoint.blockBatch heights full) fun slots said after =>
      (∀ record, said ⊆ record →
        List.Forall₂ (SlotGives (endpoint.GivesBlock (heard record) full)) heights slots) ∧
          after = memo := by
  apply Meets.mono (meets_blockBatch_reads hears)
  rintro _ said _ ⟨replies, rfl, readAll, same⟩
  refine ⟨fun record kept => List.forall₂_map_right_iff.mpr ((readAll record kept).imp ?_), same⟩
  rintro height reply reads block isBlock
  obtain ⟨raw, rfl, rfl⟩ := Option.map_eq_some_iff.mp isBlock
  exact ⟨raw, reads, rfl⟩

section Finalized

variable {heard : List Exchange → Call → CallOptions → Json → Prop}
  (hears : endpoint.Hears heard) {brings : List Exchange → FetchedBlock → Enrichment → Prop}
  {heights : List UInt64}

/-- Full slots hold given blocks. -/
theorem exists_given_of_slots {gives : UInt64 → Raw.Block → Prop}
    {slots : List (Option FetchedBlock)}
    (full : List.Forall₂ (fun height slot => SlotGives gives height slot ∧ slot.isSome = true)
      heights slots) :
    ∃ raws, List.Forall₂ gives heights raws ∧
      slots.filterMap id = raws.map FetchedBlock.ofBlock := by
  induction full with
  | nil => exact ⟨[], .nil, rfl⟩
  | @cons height slot heights slots isFull _ ih =>
      obtain ⟨slotGives, isSome⟩ := isFull
      obtain ⟨raws, givenAll, same⟩ := ih
      obtain ⟨block, rfl⟩ := Option.isSome_iff_exists.mp isSome
      obtain ⟨raw, given, rfl⟩ := slotGives block rfl
      exact ⟨raw :: raws, .cons given givenAll, by simpa using same⟩

include hears in
theorem meets_finalizedBlocks_gives {full : Bool} :
    Meets True memo (endpoint.finalizedBlocks heights full) fun blocks said after =>
      (∀ record, said ⊆ record → ∃ raws,
        List.Forall₂ (endpoint.GivesBlock (heard record) full) heights raws ∧
          blocks = raws.map FetchedBlock.ofBlock) ∧ after = memo := by
  have given : ∀ asked, asked.Sublist heights → ∀ other, other = memo →
      Meets True other (endpoint.blockBatch asked full) fun slots said after =>
        (∀ record, said ⊆ record →
          List.Forall₂ (SlotGives (endpoint.GivesBlock (heard record) full)) asked slots) ∧
            after = memo := by
    rintro asked _ _ rfl
    exact meets_blockBatch_gives hears
  rw [finalizedBlocks_eq]
  apply Meets.map
  apply Meets.mono (meets_persist given rfl)
  rintro slots said after ⟨full, same⟩
  exact ⟨fun record kept => exists_given_of_slots (full record kept), same⟩

/-- Whether a block is enriched by what is brought for it, without a defect. -/
structure Enriched (brings : FetchedBlock → Enrichment → Prop) (block : FetchedBlock) : Prop where
  brought : brings (.ofBlock block.block) block.data
  valid : block.isValid = true

/-- Blocks beside what they are given for, with additions beside the blocks. -/
theorem forall₂_zipWith_mk {α : Type} {given : α → Raw.Block → Prop}
    {added : Raw.Block → Enrichment → Prop} {items : List α} {raws : List Raw.Block}
    {additions : List Enrichment} (givenAll : List.Forall₂ given items raws)
    (addedAll : List.Forall₂ added raws additions) :
    List.Forall₂ (fun item block => given item block.block ∧ added block.block block.data)
      items (List.zipWith FetchedBlock.mk raws additions) := by
  induction givenAll generalizing additions with
  | nil => exact .nil
  | cons isGiven _ ih =>
      cases addedAll with
      | cons isAdded rest => exact .cons ⟨isGiven, isAdded⟩ (ih rest)

include hears in
/-- Finalized blocks are given at their heights and enriched by what is brought for them. -/
theorem meets_finalizedSplit
    (rounds : ∀ record raws,
      List.Forall₂ (endpoint.GivesBlock (heard record) demand.transactions) heights raws →
        ∀ asked, asked.Sublist raws → ∀ memo, known memo →
          Meets True memo (endpoint.round demand asked) fun additions said after =>
            AddsToEach brings (asked.map .ofBlock) said additions ∧ known after)
    (start : known memo) :
    Meets True memo (endpoint.finalizedSplit heights demand) fun result said after =>
      (∀ record, said ⊆ record → List.Forall₂ (fun height block =>
        endpoint.GivesBlock (heard record) demand.transactions height block.block ∧
          Enriched (brings record) block) heights result) ∧ known after := by
  apply Meets.bind (meets_finalizedBlocks_gives hears)
  rintro blocks saidFirst _ ⟨givenAll, rfl⟩
  obtain ⟨raws, standing, rfl⟩ := givenAll saidFirst (List.Subset.refl _)
  rw [enrichFinalized_eq]
  apply Meets.map
  have enriches : ∀ asked : List Raw.Block, asked.Sublist raws → ∀ memo, known memo →
      Meets True memo (endpoint.round demand asked) fun additions said after =>
        (∀ record, said ⊆ record → List.Forall₂ (fun raw addition =>
          brings record (.ofBlock raw) addition) asked additions) ∧ known after := by
    intro asked isPart memo isKnown
    apply Meets.mono (rounds saidFirst raws standing asked isPart memo isKnown)
    rintro additions said after ⟨bring, finallyKnown⟩
    exact ⟨fun record kept => List.forall₂_map_left_iff.mp (bring record kept), finallyKnown⟩
  apply Meets.mono (meets_persist enriches start)
  rintro additions saidLater after ⟨settled, finallyKnown⟩
  refine ⟨fun record kept => ?_, finallyKnown⟩
  rw [List.append_subset] at kept
  -- A longer record gives the same blocks: they are fixed once they have been fetched.
  obtain ⟨others, givenRaws, same⟩ := givenAll record kept.1
  have sameRaws := congrArg (List.map FetchedBlock.block) same
  simp only [List.map_map, Function.comp_def, FetchedBlock.ofBlock, List.map_id'] at sameRaws
  subst sameRaws
  apply (forall₂_zipWith_mk givenRaws (settled record kept.2)).imp
  rintro height block ⟨given, brought, sound⟩
  exact ⟨given, brought, sound⟩

end Finalized

/-! ## Blocks near the head and single blocks -/

section Others

variable {brings : List Exchange → FetchedBlock → Enrichment → Prop}
  {finalized : Option UInt64}

/-- One round for bare blocks enriches them by what it brings. -/
theorem meets_enrich_brings {mayFail : Prop} {raws : List Raw.Block}
    (round : Meets mayFail memo (endpoint.additions demand finalized (raws.map .ofBlock))
      fun additions said after =>
        AddsToEach brings (raws.map .ofBlock) said additions ∧ known after) :
    Meets mayFail memo (endpoint.enrich demand finalized (raws.map .ofBlock))
      fun result said after => (∀ record, said ⊆ record → List.Forall₂ (fun raw block =>
        raw = block.block ∧ brings record (.ofBlock block.block) block.data) raws result) ∧
          known after := by
  rw [enrich_eq_additions]
  apply Meets.map
  apply Meets.mono round
  rintro additions said after ⟨bring, stillKnown⟩
  refine ⟨fun record kept => ?_, stillKnown⟩
  have beside := List.forall₂_map_left_iff.mp (bring record kept)
  rw [FetchedBlock.enrichEach_ofBlock beside.length_eq.symm]
  exact forall₂_zipWith_mk (List.forall₂_same.mpr fun _ _ => rfl) beside

/-- Blocks near the head are enriched by what one round brings for them. -/
theorem meets_headSplit_brings {first last height : UInt64}
    (rounds : ∀ (raws : List Raw.Block) (memo : Memo), known memo →
      Meets True memo (endpoint.additions demand (some height) (raws.map .ofBlock))
        fun additions said after =>
          AddsToEach brings (raws.map .ofBlock) said additions ∧ known after)
    (start : known memo) :
    Meets True memo (endpoint.headSplit first last demand height) fun result said after =>
      (∀ record, said ⊆ record → ∀ block ∈ result, Enriched (brings record) block) ∧
        known after := by
  apply Meets.bind (meets_blockBatch_reads (hears_record endpoint))
  rintro slots saidFirst _ ⟨replies, rfl, _, rfl⟩
  obtain ⟨raws, same, _⟩ := exists_chain_of_linkedPart none replies
  rw [same]
  apply Meets.bind (meets_enrich_brings (rounds raws _ start))
  rintro enriched saidLater after ⟨each, stillKnown⟩
  refine .pure ⟨fun record kept => ?_, stillKnown⟩
  simp only [List.append_nil, List.append_subset] at kept
  intro block member
  obtain ⟨_, _, _, brought⟩ := exists_mem_of_forall₂ (each record kept.2)
    ((List.takeWhile_prefix FetchedBlock.isValid).subset member)
  exact ⟨brought, List.mem_takeWhile_imp member⟩

/-- A single block is enriched by what one round brings for it. -/
theorem meets_finalizedBlock_brings {hash : Hash}
    (rounds : ∀ (raws : List Raw.Block) (memo : Memo), known memo →
      Meets True memo (endpoint.additions demand finalized (raws.map .ofBlock))
        fun additions said after =>
          AddsToEach brings (raws.map .ofBlock) said additions ∧ known after)
    (start : known memo) :
    Meets True memo (endpoint.finalizedBlock hash (some demand) finalized)
      fun block said after => (∀ record, said ⊆ record → Enriched (brings record) block) ∧
        known after := by
  apply Meets.bind meets_call_memo
  intro reply saidFirst _ rfl
  cases reply with
  | none => exact .throw trivial
  | some raw =>
      refine Meets.bind (meets_enrich_brings (rounds [raw] _ start)) ?_
      rintro enriched saidLater after ⟨each, stillKnown⟩
      obtain ⟨block, rfl⟩ : ∃ block, enriched = [block] :=
        List.length_eq_one_iff.mp (each saidLater (List.Subset.refl _)).length_eq.symm
      simp only [List.headD_cons]
      cases sound : block.data.defect with
      | some defect => exact .throw trivial
      | none =>
          refine .pure ⟨fun record kept => ?_, stillKnown⟩
          simp only [List.append_nil, List.append_subset] at kept
          obtain _ | ⟨⟨_, brought⟩, _⟩ := each record kept.2
          exact ⟨brought, Option.isNone_iff_eq_none.mpr sound⟩

end Others

end Endpoint

end ChainFeed
