import ChainFeed.Proofs.Reselection
import ChainFeed.Selection.Climbing

/-!
# Climbs that end

A climb goes on only as long as links lead it on, and what ends it is their order: wiring links
every frame to a parent before it and to children after it, and no selection changes that, since
what is kept stays in order.  So no sequence of selections leads to a block on
which a climb would not end.
-/

namespace ChainFeed

variable {block : Block} {link : Option Nat} {position : Nat} {visited : List Nat}

/-! ## Climbs of any block -/

namespace Block

theorem climb?_none (block : Block) : block.climb? none = some [] := by
  rw [climb?]

theorem climb?_some (block : Block) (position : Nat) :
    block.climb? (some position) =
      (block.climb? (block.traces[position]?.bind Trace.parent)).map (position :: ·) := by
  rw [climb?]
  cases block.climb? (block.traces[position]?.bind Trace.parent) with
  | none => rfl
  | some above => rfl

theorem climb?_eq_some_cons {above : List Nat}
    (climbed : block.climb? link = some (position :: above)) :
    link = some position ∧
      block.climb? (block.traces[position]?.bind Trace.parent) = some above := by
  cases link with
  | none => simp [climb?_none] at climbed
  | some start =>
      rw [climb?_some, Option.map_eq_some_iff] at climbed
      obtain ⟨rest, climbedRest, equal⟩ := climbed
      obtain ⟨rfl, rfl⟩ := List.cons.inj equal
      exact ⟨rfl, climbedRest⟩

/-- A climb from a frame on the way is the rest of the way. -/
theorem exists_climb?_of_mem (climbed : block.climb? link = some visited)
    (member : position ∈ visited) :
    ∃ rest, block.climb? (some position) = some rest ∧ rest.length ≤ visited.length := by
  induction visited generalizing link with
  | nil => simp at member
  | cons start above ih =>
      obtain ⟨rfl, climbedAbove⟩ := climb?_eq_some_cons climbed
      rcases List.mem_cons.mp member with rfl | later
      · exact ⟨_, climbed, Nat.le_refl _⟩
      · obtain ⟨rest, climbedRest, shorter⟩ := ih climbedAbove later
        exact ⟨rest, climbedRest, by rw [List.length_cons]; omega⟩

/-- A climb that ends visits nothing twice, since it would go on from there as it did before. -/
theorem climb?_nodup (climbed : block.climb? link = some visited) : visited.Nodup := by
  induction visited generalizing link with
  | nil => exact List.nodup_nil
  | cons start above ih =>
      obtain ⟨rfl, climbedAbove⟩ := climb?_eq_some_cons climbed
      refine List.nodup_cons.mpr ⟨fun again => ?_, ih climbedAbove⟩
      obtain ⟨rest, climbedRest, shorter⟩ := exists_climb?_of_mem climbedAbove again
      rw [climbed, Option.some.injEq] at climbedRest
      rw [← climbedRest, List.length_cons] at shorter
      omega

/-- A climb along a link that leads to itself never ends. -/
theorem climb?_circular (circular : block.traces[position]?.bind Trace.parent = some position) :
    block.climb? (some position) = none := by
  cases climbed : block.climb? (some position) with
  | none => rfl
  | some visited =>
      have again := climb?_some block position
      rw [circular, climbed, Option.map_some, Option.some.injEq] at again
      have longer := congrArg List.length again
      rw [List.length_cons] at longer
      omega

/-- Where parents come first a climb ends, in no more steps than a bounded one is given. -/
theorem climb?_eq_ancestorsWithin (parentsFirst : Trace.ParentsFirst block.traces)
    {start steps : Nat} (enough : start < steps) :
    block.climb? (some start) = some (ancestorsWithin block.traces steps (some start)) := by
  induction steps generalizing start with
  | zero => omega
  | succ steps ih =>
      rw [climb?_some, ancestorsWithin]
      cases next : block.traces[start]?.bind Trace.parent with
      | none => rw [climb?_none, ancestorsWithin_none, Option.map_some]
      | some above =>
          obtain ⟨trace, found, parent⟩ := Option.bind_eq_some_iff.mp next
          have before := parentsFirst start trace found above parent
          rw [ih (by omega), Option.map_some]

end Block

/-! ## Links in order -/

namespace Trace

variable {traces : List Trace}

/-- Whether every frame is linked to a parent before it and to children after it, all of which
are there. -/
structure LinkedInOrder (traces : List Trace) : Prop where
  parent : ∀ (position : Nat) (trace : Trace), traces[position]? = some trace →
    ∀ above ∈ trace.parent, above < position ∧ above < traces.length
  children : ∀ (position : Nat) (trace : Trace), traces[position]? = some trace →
    ∀ below ∈ trace.children, position < below ∧ below < traces.length

theorem LinkedInOrder.parentsFirst (ordered : LinkedInOrder traces) : ParentsFirst traces :=
  fun position trace found above link => (ordered.parent position trace found above link).1

end Trace

namespace Block

theorem linkedInOrder_wire (block : Block) : Trace.LinkedInOrder block.wire.traces where
  parent position trace found above link := by
    have before := block.parentsFirst_wire position trace found above link
    have inBounds := (List.getElem?_eq_some_iff.mp found).1
    exact ⟨before, by omega⟩
  children position trace found below reached := by
    rw [getElem?_wire_traces, Option.map_eq_some_iff] at found
    obtain ⟨source, foundSource, rfl⟩ := found
    have scanned := Trace.add_scanLength_lt foundSource
    obtain ⟨atLeast, atMost⟩ := List.mem_range'_1.mp reached
    have sameLength := congrArg List.length block.wire_traces_unlinked
    rw [List.length_map] at sameLength
    omega

/-- Kept frames stay in order, so their links do. -/
theorem linkedInOrder_select (ordered : Trace.LinkedInOrder block.traces) (request : Request) :
    Trace.LinkedInOrder (block.select request).traces where
  parent position trace found above link :=
    ⟨parentsFirst_prune ordered.parentsFirst position trace found above link,
      (linksInRange_select block request).parent trace (List.mem_of_getElem? found) above link⟩
  children new trace found below reached := by
    have inRange := (linksInRange_select block request).children trace
      (List.mem_of_getElem? found) below reached
    rw [select, prune_traces, List.getElem?_map, Option.map_eq_some_iff] at found
    obtain ⟨source, foundSource, rfl⟩ := found
    obtain ⟨position, moved, foundOld⟩ := Keep.exists_of_getElem?_retain foundSource
    obtain ⟨old, oldLink, movedBelow⟩ := Keep.mem_newPositions.mp reached
    have after := (ordered.children position source foundOld old oldLink).1
    exact ⟨Keep.newPosition?_lt after moved movedBelow, inRange⟩

/-! ## Inclusion by climbing -/

theorem climb?_parent (ordered : Trace.LinkedInOrder block.traces) {trace : Trace}
    (found : block.traces[position]? = some trace) :
    block.climb? trace.parent = some (block.ancestors trace.parent) := by
  cases link : trace.parent with
  | none => rw [climb?_none, ancestors, ancestorsWithin_none]
  | some above =>
      have inRange := (ordered.parent position trace found above link).2
      exact climb?_eq_ancestorsWithin ordered.parentsFirst (by omega)

theorem traceReachByClimbing?_eq (ordered : Trace.LinkedInOrder block.traces)
    (request : Request) {trace : Trace} (found : block.traces[position]? = some trace) :
    request.traceReachByClimbing? block position trace =
      some (request.traceReach? block position trace) := by
  rw [Request.traceReachByClimbing?, Request.traceReach?]
  cases request.tracePulls? trace with
  | none => rfl
  | some pulls =>
      cases wanted : pulls.parents with
      | false => simp [Request.onlyIf, wanted]
      | true => simp [Request.onlyIf, wanted, climb?_parent ordered found]

/-- Steps each of which has an outcome. -/
theorem mapM_eq_some_map {α β : Type} {step : α → Option β} {image : α → β} {items : List α}
    (each : ∀ item ∈ items, step item = some (image item)) :
    items.mapM step = some (items.map image) := by
  induction items with
  | nil => rfl
  | cons item rest ih =>
      rw [List.mapM_cons, each item List.mem_cons_self,
        ih fun other member => each other (List.mem_cons_of_mem _ member)]
      rfl

theorem inclusionByClimbing?_eq (ordered : Trace.LinkedInOrder block.traces)
    (request : Request) :
    request.inclusionByClimbing? block = some (request.inclusion block) := by
  have climbed : block.traces.zipIdx.mapM (fun entry =>
      request.traceReachByClimbing? block entry.2 entry.1) =
        some (block.traces.zipIdx.map fun entry => request.traceReach? block entry.2 entry.1) := by
    apply mapM_eq_some_map
    rintro ⟨trace, position⟩ member
    exact traceReachByClimbing?_eq ordered request (List.mem_zipIdx_iff_getElem?.mp member)
  rw [Request.inclusionByClimbing?, climbed, Option.bind_eq_bind, Option.bind_some,
    List.filterMap_map]
  rfl

theorem selectByClimbing?_eq (ordered : Trace.LinkedInOrder block.traces) (request : Request) :
    block.selectByClimbing? request = some (block.select request) := by
  rw [selectByClimbing?, inclusionByClimbing?_eq ordered, Option.map_some,
    ← Request.keep_eq_keepIncluded, select]

/-! ## Reachable blocks -/

/-- Whether every request has an outcome on a block, since every climb ends. -/
structure Climbable (block : Block) : Prop where
  linkedInOrder : Trace.LinkedInOrder block.traces
  included : ∀ request : Request,
    request.inclusionByClimbing? block = some (request.inclusion block)
  /-- The way up from a trace visits only traces before it, each of them once. -/
  climbs : ∀ (place : Nat) (trace : Trace), block.traces[place]? = some trace →
    ∃ visited, block.climb? trace.parent = some visited ∧ visited.Nodup ∧
      ∀ position ∈ visited, position < place

theorem climbable_of_linkedInOrder (ordered : Trace.LinkedInOrder block.traces) :
    block.Climbable where
  linkedInOrder := ordered
  included := inclusionByClimbing?_eq ordered
  climbs place trace found := by
    have climbed := climb?_parent ordered found
    refine ⟨_, climbed, climb?_nodup climbed, ?_⟩
    intro position member
    cases link : trace.parent with
    | none => simp [link, ancestors] at member
    | some above =>
        have before := ordered.parent place trace found above link
        rw [link] at member
        have atMost := le_of_mem_ancestorsWithin ordered.parentsFirst member
        omega

/-- Selections one after another all have an outcome, and keep links in order. -/
theorem foldlM_selectByClimbing? (ordered : Trace.LinkedInOrder block.traces)
    (requests : List Request) :
    requests.foldlM selectByClimbing? block = some (requests.foldl select block) ∧
      Trace.LinkedInOrder (requests.foldl select block).traces := by
  induction requests generalizing block with
  | nil => exact ⟨rfl, ordered⟩
  | cons request rest ih =>
      rw [List.foldlM_cons, selectByClimbing?_eq ordered, Option.bind_eq_bind,
        Option.bind_some, List.foldl_cons]
      exact ih (linkedInOrder_select ordered request)

/-- However often items are selected from a wired block, no climb goes on for ever, neither on
the way there nor for a further request. -/
theorem climbable_of_selections (block : Block) (requests : List Request) :
    requests.foldlM selectByClimbing? block.wire = some (requests.foldl select block.wire) ∧
      (requests.foldl select block.wire).Climbable := by
  obtain ⟨selected, ordered⟩ := foldlM_selectByClimbing? block.linkedInOrder_wire requests
  exact ⟨selected, climbable_of_linkedInOrder ordered⟩

end Block

end ChainFeed
