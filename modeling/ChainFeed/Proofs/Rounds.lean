import ChainFeed.Engine.Enrich
import ChainFeed.Proofs.Merging
import ChainFeed.Proofs.Runs

/-!
# Rounds of enrichment

One round brings one addition for each block, and to enrich blocks is to add to each
of them what the round brings for it.  The blocks themselves stay as they are.
-/

namespace ChainFeed

namespace Enrichment

@[simp] theorem length_mergeEach (blocks additions : List Enrichment) :
    (mergeEach blocks additions).length = blocks.length := by
  induction blocks generalizing additions with
  | nil => cases additions <;> rfl
  | cons block blocks ih =>
      cases additions with
      | nil => rfl
      | cons addition additions => simp [mergeEach, ih]

/-- There is one merged addition for each block. -/
@[simp] theorem length_mergeAll (count : Nat) (calls : List (Option (List Enrichment))) :
    (mergeAll count calls).length = count := by
  have kept : ∀ (brought : List (List Enrichment)) (start : List Enrichment),
      (brought.foldl mergeEach start).length = start.length := by
    intro brought
    induction brought with
    | nil => simp
    | cons additions brought ih => simp [ih]
  rw [mergeAll, kept, List.length_replicate]

/-- Whether additions give no reason to distrust the block. -/
def isSound (addition : Enrichment) : Bool := addition.defect.isNone

theorem exists_defect {addition : Enrichment} (unsound : addition.isSound = false) :
    ∃ defect, addition.defect = some defect := by
  cases found : addition.defect with
  | none => simp [isSound, found] at unsound
  | some defect => exact ⟨defect, rfl⟩

end Enrichment

namespace FetchedBlock

@[simp] theorem isValid_mk (block : Raw.Block) (data : Enrichment) :
    (mk block data).isValid = data.isSound := rfl

@[simp] theorem enrich_ofBlock (block : Raw.Block) (addition : Enrichment) :
    (ofBlock block).enrich addition = ⟨block, addition⟩ := by
  simp [enrich, ofBlock]

/-- Bare blocks with one addition for each. -/
theorem enrichEach_ofBlock {blocks : List Raw.Block} {additions : List Enrichment}
    (sameLength : additions.length = blocks.length) :
    enrichEach (blocks.map ofBlock) additions = List.zipWith mk blocks additions := by
  induction blocks generalizing additions with
  | nil =>
      rw [List.eq_nil_of_length_eq_zero sameLength]
      rfl
  | cons block blocks ih =>
      cases additions with
      | nil => simp at sameLength
      | cons addition additions => simp [enrichEach, ih (Nat.succ.inj sameLength)]

end FetchedBlock

namespace Endpoint

open Dialogue

variable {σ : Type}

/-- What the calls of one round bring for several blocks; a call that is not made
brings nothing. -/
def fetches (endpoint : Endpoint σ) (demand : Demand) (finalized : Option UInt64)
    (blocks : List FetchedBlock) : Dialogue σ (List (Option (List Enrichment))) :=
  if blocks.isEmpty then
    pure []
  else do
    let logs ← fetchIf demand.logs (endpoint.fetchLogs blocks)
    let receipts ← fetchIf demand.receipts (endpoint.fetchReceipts blocks)
    let traces ←
      fetchIf (demand.traces || demand.stateDiffs)
        (endpoint.fetchTraces demand finalized blocks)
    pure [logs, receipts, traces]

/-- What one round of enrichment adds to each of several blocks. -/
def additions (endpoint : Endpoint σ) (demand : Demand) (finalized : Option UInt64)
    (blocks : List FetchedBlock) : Dialogue σ (List Enrichment) :=
  Enrichment.mergeAll blocks.length <$> endpoint.fetches demand finalized blocks

/-- To enrich blocks is to add to each of them what one round brings for it. -/
theorem enrich_eq_additions (endpoint : Endpoint σ) (demand : Demand) (finalized : Option UInt64)
    (blocks : List FetchedBlock) :
    endpoint.enrich demand finalized blocks =
      FetchedBlock.enrichEach blocks <$> endpoint.additions demand finalized blocks := by
  cases blocks with
  | nil => rfl
  | cons block blocks => simp [enrich, additions, fetches]

theorem length_of_additions {endpoint : Endpoint σ} {demand : Demand} {finalized : Option UInt64}
    {blocks : List FetchedBlock} {session final : Session σ} {added : List Enrichment}
    (run : (endpoint.additions demand finalized blocks).run.run session = (.ok added, final)) :
    added.length = blocks.length := by
  obtain ⟨fetched, _, rfl⟩ := run_map_eq_ok run
  exact Enrichment.length_mergeAll _ _

/-- Enriched blocks are the same blocks as before. -/
theorem block_of_enrich {endpoint : Endpoint σ} {demand : Demand} {finalized : Option UInt64}
    {blocks : List Raw.Block} {session final : Session σ} {enriched : List FetchedBlock}
    (run : (endpoint.enrich demand finalized (blocks.map FetchedBlock.ofBlock)).run.run session =
      (.ok enriched, final)) : enriched.map FetchedBlock.block = blocks := by
  rw [enrich_eq_additions] at run
  obtain ⟨added, adding, rfl⟩ := run_map_eq_ok run
  have sameLength := length_of_additions adding
  rw [List.length_map] at sameLength
  rw [FetchedBlock.enrichEach_ofBlock sameLength, List.map_zipWith]
  change List.zipWith (fun block _ => block) blocks added = blocks
  rw [← List.map_uncurry_zip_eq_zipWith]
  exact List.map_fst_zip (Nat.le_of_eq sameLength.symm)

/-- Block eight, with one transaction and a bloom filter that is not zero. -/
def bloomingBlock : Raw.Block where
  number := 8
  hash := .zero 32
  parentHash := .zero 32
  logsBloom := ⟨List.replicate 256 1, List.length_replicate⟩
  transactions := .hashes [.zero 32]
  timestamp := none
  nonce := none
  sha3Uncles := none
  transactionsRoot := none
  stateRoot := none
  receiptsRoot := none
  mixHash := none
  miner := none
  difficulty := none
  totalDifficulty := none
  extraData := none
  size := none
  gasLimit := none
  gasUsed := none
  baseFeePerGas := none
  l1BlockNumber := none

end Endpoint

end ChainFeed
