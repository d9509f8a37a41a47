import ChainFeed.Proofs.CallTrees
import ChainFeed.Proofs.FrameGroups
import ChainFeed.Proofs.Reordering
import Mathlib.Data.List.Perm.Basic

/-!
# Frames in any order

Frames of different transactions may come interleaved, and a replay method would have sent
them transaction by transaction.  What a replay carries is its frames, each with the
transaction that the replay is of.  Grouping keeps what frames carry, projection shows it frame
by frame, and wiring puts it in order, so only what is carried counts.
-/

namespace ChainFeed

/-! ## What replays carry -/

namespace Raw

/-- What a frame says, whichever block and transaction it names. -/
def TraceFrame.content (frame : TraceFrame) : TraceFrame :=
  { frame with blockHash := none, transactionHash := none }

/-- The frames that name transactions, each with the one it names. -/
def attributed (frames : List TraceFrame) : List (Hash × TraceFrame) :=
  frames.filterMap fun frame => frame.transactionHash.map (·, frame.content)

namespace Replay

/-- The transaction that a replay is taken to be of. -/
def hash (replay : Replay) : Hash := replay.transactionHash.getD (.zero 32)

/-- The frames of a replay, each with the transaction of the replay. -/
def carried (replay : Replay) : List (Hash × TraceFrame) :=
  (replay.trace.getD []).map fun frame => (replay.hash, frame.content)

end Replay

/-- The number of a transaction in a body: of its last occurrence, in 32 bits. -/
def Body.index? (body : Body) (hash : Hash) : Option UInt32 :=
  (lastPositionWhere? (· == hash) body.toHashes).map UInt32.ofNat

/-- The place of a frame in a block, if the transaction that it names is in the body. -/
def Body.place? (body : Body) (frame : TraceFrame) : Option (UInt32 × List UInt32) :=
  (frame.transactionHash.bind body.index?).map (·, frame.traceAddress)

/-- Whether replays carry all frames of a list that name a transaction, in any order, and each of
them is of a transaction of the body. -/
structure Carry (body : Body) (replays : List Replay) (frames : List TraceFrame) : Prop where
  known : ∀ replay ∈ replays, ∃ hash ∈ body.toHashes, replay.transactionHash = some hash
  frames : (replays.flatMap Replay.carried).Perm (attributed frames)

/-- Items grouped by distinct keys are the items in another order. -/
theorem flatMap_filter_perm {α κ : Type} [DecidableEq κ] {key : α → κ} {keys : List κ}
    {items : List α} (distinct : keys.Nodup) (covered : ∀ item ∈ items, key item ∈ keys) :
    (keys.flatMap fun wanted => items.filter (key · == wanted)).Perm items := by
  induction keys generalizing items with
  | nil =>
      cases items with
      | nil => exact .nil
      | cons item rest => exact absurd (covered item List.mem_cons_self) (by simp)
  | cons wanted rest ih =>
      obtain ⟨absent, distinctRest⟩ := List.nodup_cons.mp distinct
      have others : (rest.flatMap fun other => items.filter (key · == other)) =
          rest.flatMap fun other =>
            (items.filter (!key · == wanted)).filter (key · == other) := by
        refine List.flatMap_congr fun other member => ?_
        rw [List.filter_filter]
        refine List.filter_congr fun item _ => ?_
        cases isOther : key item == other with
        | false => rfl
        | true =>
            have differs : key item ≠ wanted := by
              rintro rfl
              exact absent (eq_of_beq isOther ▸ member)
            simpa using differs
      rw [List.flatMap_cons, others]
      refine ((ih distinctRest ?_).append_left _).trans (List.filter_append_perm _ items)
      intro item member
      obtain ⟨isItem, differs⟩ := List.mem_filter.mp member
      exact (List.mem_cons.mp (covered item isItem)).resolve_left (by simpa using differs)

theorem carried_groupOf (frames : List TraceFrame) (hash : Hash) :
    (groupOf frames hash).carried = (attributed frames).filter (·.1 == hash) := by
  rw [Replay.carried, groupOf, attributed, List.filter_filterMap, ← List.filterMap_eq_map,
    Option.getD_some, List.filterMap_filter]
  refine List.filterMap_congr fun frame _ => ?_
  cases named : frame.transactionHash with
  | none => rfl
  | some other =>
      by_cases same : other = hash
      · simp [same, Replay.hash, Option.filter_some]
      · simp [same, Option.filter_some]

/-- The groups carry all frames that name a transaction. -/
theorem carried_groupFrames (frames : List TraceFrame) :
    ((groupFrames frames).flatMap Replay.carried).Perm (attributed frames) := by
  rw [groupFrames_eq, List.flatMap_map]
  simp only [carried_groupOf]
  refine flatMap_filter_perm (nodup_eraseDups _) ?_
  intro entry member
  obtain ⟨frame, isFrame, attribution⟩ := List.mem_filterMap.mp member
  obtain ⟨hash, named, rfl⟩ := Option.map_eq_some_iff.mp attribution
  exact List.mem_eraseDups.mpr (List.mem_filterMap.mpr ⟨frame, isFrame, named⟩)

/-- No group is empty. -/
theorem exists_carried_of_mem_groupFrames {frames : List TraceFrame} {group : Replay}
    (member : group ∈ groupFrames frames) : ∃ content, (group.hash, content) ∈ group.carried := by
  rw [groupFrames_eq] at member
  obtain ⟨hash, isHash, rfl⟩ := List.mem_map.mp member
  obtain ⟨frame, isFrame, named⟩ := List.mem_filterMap.mp (List.mem_eraseDups.mp isHash)
  refine ⟨frame.content, List.mem_map.mpr ⟨frame, ?_, rfl⟩⟩
  exact List.mem_filter.mpr ⟨isFrame, by simp [named]⟩

end Raw

/-! ## What projection makes of it -/

namespace Projection

variable {fields : TraceFields} {body : Raw.Body} {replay : Raw.Replay}
  {replays : List Raw.Replay} {mapped : List (List Trace × List StateDiff)}

/-- The trace of a carried frame, if its transaction is in the body and its type is known. -/
def carriedTrace? (fields : TraceFields) (body : Raw.Body) (entry : Hash × Raw.TraceFrame) :
    Option Trace := do
  let index ← body.index? entry.1
  (Trace.ofFrame fields index entry.2).toOption

/-- The place of a carried frame, if its transaction is in the body. -/
def carriedPlace? (body : Raw.Body) (entry : Hash × Raw.TraceFrame) :
    Option (UInt32 × List UInt32) :=
  (body.index? entry.1).map (·, entry.2.traceAddress)

theorem ofReplay_eq_ok_iff {frames : List Trace × List StateDiff} :
    ofReplay fields body replay = .ok frames ↔
      ∃ index, body.index? replay.hash = some index ∧
        (replay.trace.getD []).mapM (Trace.ofFrame fields index) = .ok frames.1 ∧
        frames.2 = (replay.stateDiff.map (StateDiff.ofReplay index)).getD [] := by
  rw [ofReplay, Raw.Body.index?, Raw.Replay.hash]
  cases found : lastPositionWhere? (· == replay.transactionHash.getD (.zero 32)) body.toHashes with
  | none =>
      constructor
      · intro run
        cases run
      · rintro ⟨index, ⟨⟩, -⟩
  | some position =>
      constructor
      · intro run
        obtain ⟨traces, tracesRun, run⟩ := exists_of_bind_eq_ok run
        cases run
        exact ⟨_, rfl, tracesRun, rfl⟩
      · obtain ⟨traces, stateDiffs⟩ := frames
        rintro ⟨index, ⟨⟩, tracesRun, same⟩
        subst same
        exact bind_eq_ok tracesRun rfl

theorem carriedTrace?_eq_some_iff {index : UInt32} (known : body.index? replay.hash = some index)
    {frame : Raw.TraceFrame} {trace : Trace} :
    carriedTrace? fields body (replay.hash, frame.content) = some trace ↔
      Trace.ofFrame fields index frame = .ok trace := by
  rw [carriedTrace?, known, Option.bind_eq_bind, Option.bind_some]
  change (Trace.ofFrame fields index frame).toOption = some trace ↔ _
  cases Trace.ofFrame fields index frame with
  | error fault => exact ⟨nofun, nofun⟩
  | ok shown =>
      exact ⟨fun same => congrArg Except.ok (Option.some.inj same),
        fun same => congrArg some (Except.ok.inj same)⟩

/-- Carried frames are shown one by one. -/
theorem carriedTraces_of_ofReplay {frames : List Trace × List StateDiff}
    (run : ofReplay fields body replay = .ok frames) :
    replay.carried.map (carriedTrace? fields body) = frames.1.map some := by
  obtain ⟨index, known, tracesRun, -⟩ := ofReplay_eq_ok_iff.mp run
  rw [Raw.Replay.carried, List.map_map]
  refine (map_eq_of_forall₂ (forall₂_of_mapM_eq_ok tracesRun) fun frame trace shown => ?_).symm
  exact ((carriedTrace?_eq_some_iff known).mpr shown).symm

theorem carriedTraces_of_mapM (run : replays.mapM (ofReplay fields body) = .ok mapped) :
    (replays.flatMap Raw.Replay.carried).map (carriedTrace? fields body) =
      (mapped.flatMap Prod.fst).map some := by
  have each := forall₂_of_mapM_eq_ok run
  clear run
  induction each with
  | nil => rfl
  | cons run _ ih =>
      rw [List.flatMap_cons, List.flatMap_cons, List.map_append, List.map_append,
        carriedTraces_of_ofReplay run, ih]

/-- Replays of known transactions are mapped if all frames that they carry are shown. -/
theorem exists_mapM_ofReplay
    (known : ∀ replay ∈ replays, ∃ index, body.index? replay.hash = some index)
    (shown : ∀ entry ∈ replays.flatMap Raw.Replay.carried,
      ∃ trace, carriedTrace? fields body entry = some trace) :
    ∃ mapped, replays.mapM (ofReplay fields body) = .ok mapped := by
  refine exists_mapM_eq_ok fun replay member => ?_
  obtain ⟨index, isIndex⟩ := known replay member
  have each : ∀ frame ∈ replay.trace.getD [], ∃ trace,
      Trace.ofFrame fields index frame = .ok trace := by
    intro frame isFrame
    obtain ⟨trace, isTrace⟩ := shown _ (List.mem_flatMap.mpr
      ⟨replay, member, List.mem_map_of_mem isFrame⟩)
    exact ⟨trace, (carriedTrace?_eq_some_iff isIndex).mp isTrace⟩
  obtain ⟨traces, run⟩ := exists_mapM_eq_ok each
  exact ⟨(traces, _), ofReplay_eq_ok_iff.mpr ⟨index, isIndex, run, rfl⟩⟩

/-- Replays without state diffs give none. -/
theorem stateDiffs_of_mapM (run : replays.mapM (ofReplay fields body) = .ok mapped)
    (unchanged : ∀ replay ∈ replays, replay.stateDiff = none) :
    mapped.flatMap Prod.snd = [] := by
  rw [List.flatMap_eq_nil_iff]
  intro frames member
  obtain ⟨replay, isReplay, run⟩ := exists_mem_of_forall₂ (forall₂_of_mapM_eq_ok run) member
  obtain ⟨index, -, -, same⟩ := ofReplay_eq_ok_iff.mp run
  rw [same, unchanged replay isReplay]
  rfl

theorem place_of_ofFrame {index : UInt32} {frame : Raw.TraceFrame} {trace : Trace}
    (shown : Trace.ofFrame fields index frame = .ok trace) :
    trace.place = (index, frame.traceAddress) := by
  obtain ⟨data, -, shown⟩ := exists_of_bind_eq_ok shown
  cases shown
  rfl

/-- A trace is at the place that the frame names. -/
theorem carriedPlace?_eq {entry : Hash × Raw.TraceFrame} {trace : Trace}
    (shown : carriedTrace? fields body entry = some trace) :
    carriedPlace? body entry = some trace.place := by
  obtain ⟨index, known, shown⟩ := Option.bind_eq_some_iff.mp shown
  rw [carriedPlace?, known, Option.map_some, Option.some.injEq]
  cases run : Trace.ofFrame fields index entry.2 with
  | error fault =>
      rw [run] at shown
      cases shown
  | ok other =>
      rw [run] at shown
      cases shown
      exact (place_of_ofFrame run).symm

theorem carriedPlaces_eq {entries : List (Hash × Raw.TraceFrame)} {traces : List Trace}
    (shown : entries.map (carriedTrace? fields body) = traces.map some) :
    entries.filterMap (carriedPlace? body) = traces.map Trace.place := by
  induction entries generalizing traces with
  | nil =>
      cases traces with
      | nil => rfl
      | cons trace rest => cases shown
  | cons entry rest ih =>
      cases traces with
      | nil => cases shown
      | cons trace others =>
          obtain ⟨isTrace, later⟩ := List.cons.inj shown
          rw [List.filterMap_cons_some (carriedPlace?_eq isTrace), ih later, List.map_cons]

/-- Frames have the places of what they carry. -/
theorem carriedPlaces_attributed (body : Raw.Body) (frames : List Raw.TraceFrame) :
    (Raw.attributed frames).filterMap (carriedPlace? body) = frames.filterMap body.place? := by
  rw [Raw.attributed, List.filterMap_filterMap]
  refine List.filterMap_congr fun frame _ => ?_
  rw [Raw.Body.place?]
  cases frame.transactionHash with
  | none => rfl
  | some hash => rfl

end Projection

/-! ## Blocks that are arranged alike -/

namespace Block

variable {block other : Block}

/-- Whether two blocks have the same transactions and logs, and the same traces once they are in
canonical order. -/
structure ArrangedAlike (block other : Block) : Prop where
  header : block.header = other.header
  transactions : block.transactions = other.transactions
  logs : block.logs = other.logs
  traces : block.arrange.traces = other.arrange.traces

theorem ArrangedAlike.arrange_eq (alike : block.ArrangedAlike other)
    (stateDiffs : block.stateDiffs = other.stateDiffs) : block.arrange = other.arrange := by
  apply eq_of_parts
  case header => exact alike.header
  case transactions => rw [arrange, arrange, alike.transactions]
  case logs => rw [arrange, arrange, alike.logs]
  case traces => exact alike.traces
  case stateDiffs => rw [arrange, arrange, stateDiffs]

theorem ArrangedAlike.wire_eq (alike : block.ArrangedAlike other)
    (stateDiffs : block.stateDiffs = other.stateDiffs) : block.wire = other.wire := by
  rw [wire, alike.arrange_eq stateDiffs, wire]

/-- State diffs make no difference to traces. -/
theorem ArrangedAlike.wire_traces_eq (alike : block.ArrangedAlike other) :
    block.wire.traces = other.wire.traces := by
  have withoutDiffs : { block with stateDiffs := [] }.ArrangedAlike
      { other with stateDiffs := [] } :=
    ⟨alike.header, alike.transactions, alike.logs, alike.traces⟩
  have same := congrArg Block.traces (withoutDiffs.wire_eq rfl)
  exact same

theorem arrange_traces_eq_of_perm (places : (block.traces.map Trace.place).Nodup)
    (perm : block.traces.Perm other.traces) : block.arrange.traces = other.arrange.traces := by
  refine mergeSort_order_eq_of_perm ?_ (perm.map _)
  rw [List.map_map]
  exact places

end Block

namespace FetchedBlock

variable {fetched : FetchedBlock} {demand : Demand} {replays others : List Raw.Replay}
  {block : Block}

/-- The fetched block with some replays. -/
def withReplays (fetched : FetchedBlock) (replays : List Raw.Replay) : FetchedBlock :=
  { fetched with data := { fetched.data with replays := some replays } }

/-- The wired block that a demand asks for, from a fetched block with some replays. -/
def wired? (fetched : FetchedBlock) (demand : Demand) (replays : List Raw.Replay) :
    Option Block :=
  (((fetched.withReplays replays).project demand).map Block.wire).toOption

/-- How a block comes from replays. -/
theorem project_withReplays_eq_ok_iff :
    (fetched.withReplays replays).project demand = .ok block ↔
      block.header = Header.project fetched.block demand.fields.block ∧
        Projection.transactionsAndLogs demand fetched = .ok (block.transactions, block.logs) ∧
        ∃ mapped,
          replays.mapM (Projection.ofReplay demand.fields.trace fetched.block.transactions) =
            .ok mapped ∧
          Projection.withCallTrees demand.fields.trace fetched (mapped.flatMap Prod.fst) =
            .ok block.traces ∧
          Projection.withPrestates fetched (mapped.flatMap Prod.snd) = .ok block.stateDiffs := by
  constructor
  · intro projected
    obtain ⟨⟨transactions, logs⟩, itemsRun, projected⟩ := exists_of_bind_eq_ok projected
    obtain ⟨⟨traces, stateDiffs⟩, framesRun, projected⟩ := exists_of_bind_eq_ok projected
    cases projected
    rw [Projection.tracesAndStateDiffs_eq] at framesRun
    obtain ⟨mapped, mappedRun, framesRun⟩ := exists_of_bind_eq_ok framesRun
    obtain ⟨_, tracesRun, framesRun⟩ := exists_of_bind_eq_ok framesRun
    obtain ⟨_, diffsRun, framesRun⟩ := exists_of_bind_eq_ok framesRun
    cases framesRun
    exact ⟨rfl, itemsRun, mapped, mappedRun, tracesRun, diffsRun⟩
  · obtain ⟨header, transactions, logs, traces, stateDiffs⟩ := block
    rintro ⟨sameHeader, itemsRun, mapped, mappedRun, tracesRun, diffsRun⟩
    dsimp only at sameHeader itemsRun tracesRun diffsRun
    subst sameHeader
    have framesRun : Projection.tracesAndStateDiffs demand.fields.trace
        (fetched.withReplays replays) = .ok (traces, stateDiffs) := by
      rw [Projection.tracesAndStateDiffs_eq]
      exact bind_eq_ok mappedRun (bind_eq_ok tracesRun (bind_eq_ok diffsRun rfl))
    exact bind_eq_ok itemsRun (bind_eq_ok framesRun rfl)

/-- Traces of replays in another order make no other block, with call trees or without. -/
theorem exists_withCallTrees {fields : TraceFields} {replayTraces otherTraces traces : List Trace}
    (run : Projection.withCallTrees fields fetched replayTraces = .ok traces)
    (places : (replayTraces.map Trace.place).Nodup) (perm : replayTraces.Perm otherTraces) :
    ∃ reordered, Projection.withCallTrees fields fetched otherTraces = .ok reordered ∧
      ∀ block : Block, { block with traces }.arrange.traces =
        { block with traces := reordered }.arrange.traces := by
  cases debugged : fetched.data.callTrees with
  | none =>
      rw [Projection.withCallTrees, debugged] at run
      cases run
      refine ⟨otherTraces, by rw [Projection.withCallTrees, debugged]; rfl, fun block => ?_⟩
      exact Block.arrange_traces_eq_of_perm places perm
  | some trees =>
      cases replayTraces with
      | nil => exact ⟨traces, List.nil_perm.mp perm ▸ run, fun _ => rfl⟩
      | cons trace rest =>
          rw [Projection.withCallTrees, debugged] at run
          cases run

theorem exists_withPrestates {stateDiffs : List StateDiff}
    (settled : fetched.data.prestates = none ∨ stateDiffs = []) :
    ∃ shown, Projection.withPrestates fetched stateDiffs = .ok shown := by
  rw [Projection.withPrestates]
  cases debugged : fetched.data.prestates with
  | none => exact ⟨stateDiffs, rfl⟩
  | some prestates =>
      rw [debugged] at settled
      have noDiffs := settled.resolve_left nofun
      subst noDiffs
      exact ⟨_, rfl⟩

/-- Other replays that carry the same frames give a block that is arranged alike, unless state
diffs are in the way. -/
theorem exists_project_of_carried
    (projected : (fetched.withReplays replays).project demand = .ok block)
    (perm : (replays.flatMap Raw.Replay.carried).Perm (others.flatMap Raw.Replay.carried))
    (places : ((replays.flatMap Raw.Replay.carried).filterMap
      (Projection.carriedPlace? fetched.block.transactions)).Nodup)
    (known : ∀ other ∈ others,
      (∃ index, fetched.block.transactions.index? other.hash = some index) ∨
        ∃ content, (other.hash, content) ∈ other.carried)
    (settled : fetched.data.prestates = none ∨ ∀ other ∈ others, other.stateDiff = none) :
    ∃ result, (fetched.withReplays others).project demand = .ok result ∧
      block.ArrangedAlike result ∧
      ((∀ replay ∈ replays, replay.stateDiff = none) →
        (∀ other ∈ others, other.stateDiff = none) → block.stateDiffs = result.stateDiffs) := by
  obtain ⟨sameHeader, itemsRun, mapped, mappedRun, tracesRun, diffsRun⟩ :=
    project_withReplays_eq_ok_iff.mp projected
  have shown := Projection.carriedTraces_of_mapM mappedRun
  have othersShown : ∀ entry ∈ others.flatMap Raw.Replay.carried, ∃ trace,
      Projection.carriedTrace? demand.fields.trace fetched.block.transactions entry =
        some trace := by
    intro entry member
    have image := List.mem_map_of_mem (perm.symm.subset member)
      (f := Projection.carriedTrace? demand.fields.trace fetched.block.transactions)
    rw [shown] at image
    obtain ⟨trace, -, isTrace⟩ := List.mem_map.mp image
    exact ⟨trace, isTrace.symm⟩
  have othersKnown : ∀ other ∈ others, ∃ index,
      fetched.block.transactions.index? other.hash = some index := by
    intro other member
    rcases known other member with isKnown | ⟨content, carries⟩
    · exact isKnown
    · obtain ⟨trace, isTrace⟩ :=
        othersShown _ (List.mem_flatMap.mpr ⟨other, member, carries⟩)
      obtain ⟨index, isIndex, -⟩ := Option.bind_eq_some_iff.mp isTrace
      exact ⟨index, isIndex⟩
  obtain ⟨otherMapped, otherRun⟩ := Projection.exists_mapM_ofReplay othersKnown othersShown
  have sameTraces : (mapped.flatMap Prod.fst).Perm (otherMapped.flatMap Prod.fst) := by
    have images := perm.map
      (Projection.carriedTrace? demand.fields.trace fetched.block.transactions)
    rw [shown, Projection.carriedTraces_of_mapM otherRun] at images
    exact (List.map_perm_map_iff fun _ _ => Option.some.inj).mp images
  rw [Projection.carriedPlaces_eq shown] at places
  obtain ⟨traces, otherTracesRun, sorted⟩ := exists_withCallTrees tracesRun places sameTraces
  obtain ⟨stateDiffs, otherDiffsRun⟩ : ∃ stateDiffs,
      Projection.withPrestates fetched (otherMapped.flatMap Prod.snd) = .ok stateDiffs :=
    exists_withPrestates (settled.imp_right (Projection.stateDiffs_of_mapM otherRun))
  refine ⟨{ block with traces, stateDiffs }, project_withReplays_eq_ok_iff.mpr
    ⟨sameHeader, itemsRun, otherMapped, otherRun, otherTracesRun, otherDiffsRun⟩,
    ⟨rfl, rfl, rfl, sorted block⟩, ?_⟩
  intro unchanged othersUnchanged
  rw [Projection.stateDiffs_of_mapM mappedRun unchanged] at diffsRun
  rw [Projection.stateDiffs_of_mapM otherRun othersUnchanged, diffsRun] at otherDiffsRun
  exact Except.ok.inj otherDiffsRun

theorem toOption_map_eq_some_iff {ε α β : Type} {step : Except ε α} {function : α → β}
    {result : β} :
    (step.map function).toOption = some result ↔
      ∃ value, step = .ok value ∧ function value = result := by
  cases step with
  | error fault => exact ⟨nofun, nofun⟩
  | ok value =>
      constructor
      · intro same
        exact ⟨value, rfl, Option.some.inj same⟩
      · rintro ⟨_, ⟨⟩, rfl⟩
        rfl

theorem wired?_eq_some_iff {wired : Block} :
    fetched.wired? demand replays = some wired ↔
      ∃ block, (fetched.withReplays replays).project demand = .ok block ∧ block.wire = wired :=
  toOption_map_eq_some_iff

/-! ## Frames and replays -/

/-- Whether the frames of a block may come in any order, and from replays as well. -/
structure OrderFree (fetched : FetchedBlock) (demand : Demand) (frames : List Raw.TraceFrame) :
    Prop where
  reordered : ∀ reordered, frames.Perm reordered →
    fetched.wired? demand (Raw.groupFrames reordered) =
      fetched.wired? demand (Raw.groupFrames frames)
  replayed : ∀ (replays : List Raw.Replay) (block : Block),
    Raw.Carry fetched.block.transactions replays frames →
      fetched.wired? demand replays = some block →
        ∃ other, fetched.wired? demand (Raw.groupFrames frames) = some other ∧
          other.traces = block.traces
  /-- Only state diffs, which frames do not have, may come in the way of replays. -/
  sameTraces : ∀ replays : List Raw.Replay,
    Raw.Carry fetched.block.transactions replays frames →
      (fetched.data.prestates = none ∨ ∀ replay ∈ replays, replay.stateDiff = none) →
        (fetched.wired? demand replays).map Block.traces =
          (fetched.wired? demand (Raw.groupFrames frames)).map Block.traces

variable {frames reordered : List Raw.TraceFrame}

theorem carriedPlaces_groupFrames (body : Raw.Body)
    (places : (frames.filterMap body.place?).Nodup) :
    (((Raw.groupFrames frames).flatMap Raw.Replay.carried).filterMap
      (Projection.carriedPlace? body)).Nodup := by
  rw [((Raw.carried_groupFrames frames).filterMap _).nodup_iff,
    Projection.carriedPlaces_attributed]
  exact places

theorem wired?_of_perm (places : (frames.filterMap fetched.block.transactions.place?).Nodup)
    (perm : frames.Perm reordered) {wired : Block}
    (isWired : fetched.wired? demand (Raw.groupFrames frames) = some wired) :
    fetched.wired? demand (Raw.groupFrames reordered) = some wired := by
  obtain ⟨block, projected, rfl⟩ := wired?_eq_some_iff.mp isWired
  have carriedAlike : ((Raw.groupFrames frames).flatMap Raw.Replay.carried).Perm
      ((Raw.groupFrames reordered).flatMap Raw.Replay.carried) :=
    ((Raw.carried_groupFrames frames).trans (perm.filterMap _)).trans
      (Raw.carried_groupFrames reordered).symm
  obtain ⟨other, otherProjected, alike, sameDiffs⟩ :=
    exists_project_of_carried projected carriedAlike (carriedPlaces_groupFrames _ places)
      (fun _ member => .inr (Raw.exists_carried_of_mem_groupFrames member))
      (.inr (Raw.stateDiff_of_groupFrames _))
  refine wired?_eq_some_iff.mpr ⟨other, otherProjected, (alike.wire_eq ?_).symm⟩
  exact sameDiffs (Raw.stateDiff_of_groupFrames _) (Raw.stateDiff_of_groupFrames _)

/-- A transaction of the body has a number. -/
theorem exists_index? {body : Raw.Body} {hash : Hash} (member : hash ∈ body.toHashes) :
    ∃ index, body.index? hash = some index := by
  cases found : lastPositionWhere? (· == hash) body.toHashes with
  | none =>
      have differs := lastPositionWhere?_eq_none_iff.mp found hash member
      simp at differs
  | some position => exact ⟨_, congrArg (Option.map UInt32.ofNat) found⟩

theorem orderFree (places : (frames.filterMap fetched.block.transactions.place?).Nodup) :
    fetched.OrderFree demand frames := by
  have replayed : ∀ (replays : List Raw.Replay) (block : Block),
      Raw.Carry fetched.block.transactions replays frames →
        fetched.wired? demand replays = some block →
          ∃ other, fetched.wired? demand (Raw.groupFrames frames) = some other ∧
            other.traces = block.traces := by
    intro replays wired carry isWired
    obtain ⟨block, projected, rfl⟩ := wired?_eq_some_iff.mp isWired
    have carriedPlaces : ((replays.flatMap Raw.Replay.carried).filterMap
        (Projection.carriedPlace? fetched.block.transactions)).Nodup := by
      rw [(carry.frames.filterMap _).nodup_iff, Projection.carriedPlaces_attributed]
      exact places
    obtain ⟨other, otherProjected, alike, -⟩ :=
      exists_project_of_carried projected
        (carry.frames.trans (Raw.carried_groupFrames frames).symm) carriedPlaces
        (fun _ member => .inr (Raw.exists_carried_of_mem_groupFrames member))
        (.inr (Raw.stateDiff_of_groupFrames _))
    exact ⟨other.wire, wired?_eq_some_iff.mpr ⟨other, otherProjected, rfl⟩,
      alike.wire_traces_eq.symm⟩
  constructor
  case replayed => exact replayed
  case reordered =>
    intro reordered perm
    have otherPlaces := (perm.filterMap fetched.block.transactions.place?).nodup_iff.mp places
    exact Option.ext fun wired =>
      ⟨wired?_of_perm otherPlaces perm.symm, wired?_of_perm places perm⟩
  case sameTraces =>
    intro replays carry settled
    refine Option.ext fun traces => ?_
    simp only [Option.map_eq_some_iff]
    constructor
    · rintro ⟨block, isWired, rfl⟩
      exact replayed replays block carry isWired
    · rintro ⟨wired, isWired, rfl⟩
      obtain ⟨block, projected, rfl⟩ := wired?_eq_some_iff.mp isWired
      obtain ⟨other, otherProjected, alike, -⟩ :=
        exists_project_of_carried projected
          ((Raw.carried_groupFrames frames).trans carry.frames.symm)
          (carriedPlaces_groupFrames _ places)
          (fun replay member => by
            obtain ⟨hash, isHash, named⟩ := carry.known replay member
            rw [Raw.Replay.hash, named]
            exact .inl (exists_index? isHash))
          settled
      exact ⟨other.wire, wired?_eq_some_iff.mpr ⟨other, otherProjected, rfl⟩,
        alike.wire_traces_eq.symm⟩

/-- Grouping is stable, so the order in which frames come makes no difference, provided that the
place of each frame in the block tells it from the others. -/
theorem stablyGrouped_orderFree (frames : List Raw.TraceFrame) :
    Raw.StablyGrouped frames (Raw.groupFrames frames) ∧
      ∀ (fetched : FetchedBlock) (demand : Demand),
        (frames.filterMap fetched.block.transactions.place?).Nodup →
          fetched.OrderFree demand frames :=
  ⟨Raw.stablyGrouped_groupFrames frames, fun _ _ places => orderFree places⟩

/-- Numbers tell transactions apart as far as they go. -/
theorem index?_injective {body : Raw.Body} (numbered : body.length ≤ UInt32.size)
    {hash other : Hash} {index : UInt32} (isIndex : body.index? hash = some index)
    (isOther : body.index? other = some index) : hash = other := by
  obtain ⟨position, last, rfl⟩ := Option.map_eq_some_iff.mp isIndex
  obtain ⟨otherPosition, otherLast, sameIndex⟩ := Option.map_eq_some_iff.mp isOther
  obtain ⟨⟨word, found, isWord⟩, -⟩ := lastPositionWhere?_eq_some_iff.mp last
  obtain ⟨⟨otherWord, otherFound, isOtherWord⟩, -⟩ := lastPositionWhere?_eq_some_iff.mp otherLast
  have inBounds : position < UInt32.size :=
    Nat.lt_of_lt_of_le (List.getElem?_eq_some_iff.mp found).1 numbered
  have otherInBounds : otherPosition < UInt32.size :=
    Nat.lt_of_lt_of_le (List.getElem?_eq_some_iff.mp otherFound).1 numbered
  have samePosition := congrArg UInt32.toNat sameIndex
  rw [UInt32.toNat_ofNat_of_lt' inBounds, UInt32.toNat_ofNat_of_lt' otherInBounds] at samePosition
  subst samePosition
  rw [found, Option.some.injEq] at otherFound
  rw [← eq_of_beq isWord, ← eq_of_beq isOtherWord, otherFound]

/-- Frames that their transactions and paths tell apart have different places. -/
theorem nodup_places {body : Raw.Body} (numbered : body.length ≤ UInt32.size)
    (distinct : (frames.map fun frame => (frame.transactionHash, frame.traceAddress)).Nodup) :
    (frames.filterMap body.place?).Nodup := by
  have byPairs : frames.filterMap body.place? =
      (frames.map fun frame => (frame.transactionHash, frame.traceAddress)).filterMap
        fun pair => (pair.1.bind body.index?).map (·, pair.2) := by
    rw [List.filterMap_map]
    rfl
  rw [byPairs]
  refine distinct.filterMap ?_
  rintro ⟨name, path⟩ ⟨otherName, otherPath⟩ place isPlace isOther
  obtain ⟨index, isIndex, rfl⟩ := Option.map_eq_some_iff.mp isPlace
  obtain ⟨otherIndex, isOtherIndex, same⟩ := Option.map_eq_some_iff.mp isOther
  obtain ⟨rfl, rfl⟩ := Prod.mk.inj same
  obtain ⟨hash, rfl, isIndex⟩ := Option.bind_eq_some_iff.mp isIndex
  obtain ⟨other, rfl, isOtherIndex⟩ := Option.bind_eq_some_iff.mp isOtherIndex
  rw [index?_injective numbered isIndex isOtherIndex]

/-- A frame of which only the type is known. -/
def typedFrame (hash : Option Hash) (path : List UInt32) (type : String) : Raw.TraceFrame :=
  ⟨none, hash, path, none, type, .empty, none, none, none⟩

/-- The frames of two transactions, interleaved, and one of no transaction. -/
def interleavedFrames : List Raw.TraceFrame :=
  [ typedFrame (some (evenHash 2)) [0] "suicide", typedFrame (some (evenHash 1)) [] "call",
    typedFrame none [] "reward", typedFrame (some (evenHash 2)) [] "create",
    typedFrame (some (evenHash 1)) [0] "call" ]

/-- The replays of the two transactions, the second of which changes a balance. -/
def pairReplays : List Raw.Replay :=
  [ ⟨some (evenHash 1), some [typedFrame none [] "call", typedFrame none [0] "call"], none⟩,
    ⟨some (evenHash 2), some [typedFrame none [] "create", typedFrame none [0] "suicide"],
      some (.ofList [(.zero 20, ⟨.added .empty, .same, .same, .ofList []⟩)])⟩ ]

/-- The frames backwards, and the replays, give the same four traces. -/
theorem wired?_interleavedFrames :
    let fetched : FetchedBlock := ⟨pairBlock, .empty⟩
    (interleavedFrames.filterMap fetched.block.transactions.place?).Nodup ∧
      interleavedFrames.Perm interleavedFrames.reverse ∧
      Raw.Carry fetched.block.transactions pairReplays interleavedFrames ∧
      fetched.wired? tracesDemand (Raw.groupFrames interleavedFrames.reverse) =
        fetched.wired? tracesDemand (Raw.groupFrames interleavedFrames) ∧
      (fetched.wired? tracesDemand pairReplays).map Block.traces =
        (fetched.wired? tracesDemand (Raw.groupFrames interleavedFrames)).map Block.traces ∧
      ((fetched.wired? tracesDemand (Raw.groupFrames interleavedFrames)).map fun block =>
          block.traces.map fun trace => (trace.place, trace.kind, trace.parent)) =
        some [ ((0, []), .call, none), ((0, [0]), .call, some 0), ((1, []), .create, none),
          ((1, [0]), .suicide, some 2) ] := by
  intro fetched
  have places : (interleavedFrames.filterMap fetched.block.transactions.place?).Nodup :=
    nodup_places (by decide) (by decide)
  have carry : Raw.Carry fetched.block.transactions pairReplays interleavedFrames :=
    ⟨by decide, by decide⟩
  have free := (stablyGrouped_orderFree interleavedFrames).2 fetched tracesDemand places
  exact ⟨places, (List.reverse_perm _).symm, carry,
    free.reordered _ (List.reverse_perm _).symm, free.sameTraces _ carry (.inl rfl), by cbv⟩

end FetchedBlock

end ChainFeed
