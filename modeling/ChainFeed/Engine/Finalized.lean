import ChainFeed.Engine.Enrich

/-!
# Finalized blocks

A finalized block exists and does not change, so whatever is missing or defective
is asked for again: first the blocks that the node answered by null, then the
enrichment of blocks that came out defective, always from the bare block.  After a
number of attempts the dialogue ends with a fault.
-/

namespace ChainFeed

/-- Puts values into the empty slots, in order. -/
def fillSlots {α : Type} : List (Option α) → List (Option α) → List (Option α)
  | none :: slots, value :: values => value :: fillSlots slots values
  | some value :: slots, values => some value :: fillSlots slots values
  | slots, [] => slots
  | [], _ => []

/-- The heights whose slots are empty. -/
def missingHeights (heights : List UInt64) (slots : List (Option FetchedBlock)) : List UInt64 :=
  ((heights.zip slots).filter fun entry => entry.2.isNone).map Prod.fst

/-- The bare blocks whose enriched form is defective. -/
def defectiveSources (sources enriched : List FetchedBlock) : List FetchedBlock :=
  ((sources.zip enriched).filter fun entry => !entry.2.isValid).map Prod.fst

/-- Puts blocks into the places of the defective ones, in order. -/
def replaceDefective : List FetchedBlock → List FetchedBlock → List FetchedBlock
  | block :: blocks, replacements =>
      if block.isValid then
        block :: replaceDefective blocks replacements
      else
        match replacements with
        | replacement :: later => replacement :: replaceDefective blocks later
        | [] => block :: blocks
  | [], _ => []

namespace Config

/-- The number of the next attempt, after as many as were made, or else the fault that ends
them. They are counted by a word of 32 bits, and to count past the largest one is an
overflow. -/
def nextAttempt (config : Config) (attempts : UInt32) (fault : Fault) : Except Fault UInt32 :=
  if config.maxRetryDepth < attempts then .error fault
  else if attempts.toNat + 1 < UInt32.size then .ok (attempts + 1)
  else .error .overflow

/-- An attempt is counted by one. -/
theorem toNat_of_nextAttempt {config : Config} {attempts next : UInt32} {fault : Fault}
    (counted : config.nextAttempt attempts fault = .ok next) :
    next.toNat = attempts.toNat + 1 := by
  unfold nextAttempt at counted
  split at counted
  case isTrue => cases counted
  case isFalse =>
    split at counted
    case isTrue below =>
      cases counted
      rw [UInt32.toNat_add]
      exact Nat.mod_eq_of_lt below
    case isFalse => cases counted

end Config

namespace Endpoint

variable {σ : Type}

/-- Asks for the blocks in empty slots, after some attempts were made. -/
def completeSlots (endpoint : Endpoint σ) (heights : List UInt64) (full : Bool)
    (attempts : UInt32) (slots : List (Option FetchedBlock)) : Dialogue σ (List FetchedBlock) :=
  match missingHeights heights slots with
  | [] => pure (slots.filterMap id)
  | first :: rest =>
      match _counted : endpoint.config.nextAttempt attempts
        (.inconsistent (.height first) (.unavailable attempts.toNat)) with
      | .error fault => throw fault
      | .ok next => do
          let fetched ← endpoint.blockBatch (first :: rest) full
          endpoint.completeSlots heights full next (fillSlots slots fetched)
termination_by UInt32.size - attempts.toNat
decreasing_by
  have := Config.toNat_of_nextAttempt _counted
  have := next.toNat_lt_size
  omega

/-- With blocks missing, they are asked for in one more attempt if there is one. -/
theorem completeSlots_of_missing {endpoint : Endpoint σ} {heights rest : List UInt64}
    {first : UInt64} {slots : List (Option FetchedBlock)}
    (missing : missingHeights heights slots = first :: rest) (full : Bool) (attempts : UInt32) :
    endpoint.completeSlots heights full attempts slots =
      match endpoint.config.nextAttempt attempts
        (.inconsistent (.height first) (.unavailable attempts.toNat)) with
      | .error fault => throw fault
      | .ok next =>
          endpoint.blockBatch (first :: rest) full >>= fun fetched =>
            endpoint.completeSlots heights full next (fillSlots slots fetched) := by
  rw [completeSlots, missing]
  dsimp only
  split
  case h_1 fault stops => rw [stops]
  case h_2 next counts => rw [counts]

/-- The finalized blocks at several heights, in the order of the heights. -/
def finalizedBlocks (endpoint : Endpoint σ) (heights : List UInt64) (full : Bool) :
    Dialogue σ (List FetchedBlock) := do
  let slots ← endpoint.blockBatch heights full
  endpoint.completeSlots heights full 1 slots

/-- Enriches defective blocks again from their bare form, after some attempts were
made. -/
def mendDefective (endpoint : Endpoint σ) (demand : Demand) (sources : List FetchedBlock)
    (attempts : UInt32) (enriched : List FetchedBlock) : Dialogue σ (List FetchedBlock) :=
  match enriched.findSome? fun block => block.data.defect.map (block, ·) with
  | none => pure enriched
  | some (block, defect) =>
      match _counted : endpoint.config.nextAttempt attempts
        (.inconsistent (.both block.height block.hash) (.defective defect)) with
      | .error fault => throw fault
      | .ok next => do
          let again ← endpoint.enrich demand none (defectiveSources sources enriched)
          endpoint.mendDefective demand sources next (replaceDefective enriched again)
termination_by UInt32.size - attempts.toNat
decreasing_by
  have := Config.toNat_of_nextAttempt _counted
  have := next.toNat_lt_size
  omega

/-- With a block defective, the defective ones are enriched in one more attempt if there is
one. -/
theorem mendDefective_of_defect {endpoint : Endpoint σ} {demand : Demand}
    {sources enriched : List FetchedBlock} {block : FetchedBlock} {defect : Defect}
    (found : (enriched.findSome? fun block => block.data.defect.map (block, ·)) =
      some (block, defect)) (attempts : UInt32) :
    endpoint.mendDefective demand sources attempts enriched =
      match endpoint.config.nextAttempt attempts
        (.inconsistent (.both block.height block.hash) (.defective defect)) with
      | .error fault => throw fault
      | .ok next =>
          endpoint.enrich demand none (defectiveSources sources enriched) >>= fun again =>
            endpoint.mendDefective demand sources next (replaceDefective enriched again) := by
  rw [mendDefective, found]
  dsimp only
  split
  case h_1 fault stops => rw [stops]
  case h_2 next counts => rw [counts]

/-- Enriches finalized blocks until none of them is defective. -/
def enrichFinalized (endpoint : Endpoint σ) (demand : Demand) (blocks : List FetchedBlock) :
    Dialogue σ (List FetchedBlock) := do
  let enriched ← endpoint.enrich demand none blocks
  endpoint.mendDefective demand blocks 1 enriched

/-- The finalized blocks at several heights with what a demand asks for. -/
def finalizedSplit (endpoint : Endpoint σ) (heights : List UInt64) (demand : Demand) :
    Dialogue σ (List FetchedBlock) := do
  let blocks ← endpoint.finalizedBlocks heights demand.transactions
  endpoint.enrichFinalized demand blocks

/-- One finalized block by its hash, with what a demand asks for, if there is one. -/
def finalizedBlock (endpoint : Endpoint σ) (hash : Hash) (demand : Option Demand)
    (finalized : Option UInt64) : Dialogue σ FetchedBlock := do
  let full := demand.any Demand.transactions
  let some block ← endpoint.blockByHash hash full
    | throw (.inconsistent (.hash hash) .notFound)
  let bare := FetchedBlock.ofBlock block
  let enriched ←
    match demand with
    | none => pure [bare]
    | some demand => endpoint.enrich demand finalized [bare]
  let result := enriched.headD bare
  match result.data.defect with
  | none => pure result
  | some defect => throw (.inconsistent (.both result.height result.hash) (.defective defect))

end Endpoint

end ChainFeed
