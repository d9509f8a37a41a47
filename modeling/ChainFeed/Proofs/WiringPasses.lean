import ChainFeed.Proofs.LinkingPasses

/-!
# Wiring in passes

The scan from a trace finds frames one after another, and the pass over the traces scans from
each of them.  With the passes over the items this wires every block, without a step that goes
out of range.
-/

namespace ChainFeed

/-! ## The scan below a trace -/

namespace Trace

/-- A trace after the scan from a start has found some traces in a row, from `next` on. -/
def scannedBy (start depth next count position : Nat) (trace : Trace) : Trace :=
  if position = start then
    { trace with children := trace.children ++ List.range' next count }
  else if next ≤ position ∧ position < next + count ∧ trace.traceAddress.length = depth + 1 then
    { trace with parent := some start }
  else
    trace

variable {start depth next count position : Nat} {traces : List Trace} {trace upper lower : Trace}

theorem scannedBy_start : scannedBy start depth next count start = fun trace =>
    { trace with children := trace.children ++ List.range' next count } := by
  funext trace
  exact if_pos rfl

theorem scannedBy_outside (elsewhere : position ≠ start)
    (outside : ¬(next ≤ position ∧ position < next + count)) :
    scannedBy start depth next count position = id := by
  funext trace
  rw [scannedBy, if_neg elsewhere, if_neg fun inside => outside ⟨inside.1, inside.2.1⟩, id]

theorem scannedBy_later (later : start < position) :
    scannedBy start depth (start + 1) count position = fun trace =>
      { trace with
        parent :=
          if start < position ∧ position ≤ start + count ∧
              depth + 1 = trace.traceAddress.length then
            some start
          else trace.parent } := by
  funext trace
  have passes : (start + 1 ≤ position ∧ position < start + 1 + count ∧
        trace.traceAddress.length = depth + 1) ↔
      start < position ∧ position ≤ start + count ∧ depth + 1 = trace.traceAddress.length := by
    omega
  rw [scannedBy, if_neg later.ne', if_congr passes rfl rfl]
  split <;> rfl

theorem scannedBy_zero : scannedBy start depth next 0 position = id := by
  rcases eq_or_ne position start with rfl | elsewhere
  · simp only [scannedBy_start, List.range'_zero, List.append_nil]
    rfl
  · exact scannedBy_outside elsewhere (by omega)

/-- A scan that finds traces finds the first one and then the others. -/
theorem scannedBy_succ (before : start < next) :
    scannedBy start depth next (count + 1) position trace =
      scannedBy start depth (next + 1) count position
        (scannedBy start depth next 1 position trace) := by
  rcases eq_or_ne position start with rfl | elsewhere
  · simp [scannedBy, List.range'_succ]
  · have sameDepth : (scannedBy start depth next 1 position trace).traceAddress =
        trace.traceAddress := by
      rw [scannedBy, if_neg elsewhere]
      split <;> rfl
    rcases Nat.lt_trichotomy position next with earlier | rfl | later
    · simp [scannedBy, elsewhere, show ¬next ≤ position by omega,
        show ¬next + 1 ≤ position by omega]
    · simp [scannedBy, elsewhere]
    · simp [scannedBy, elsewhere, show next ≤ position by omega,
        show next + 1 ≤ position by omega, show ¬position < next + 1 by omega,
        show next + (count + 1) = next + 1 + count by omega]

/-- The step at a trace below the start finds that trace. -/
theorem scanBelow?_succ (found : traces[start]? = some upper) (before : start < next)
    (foundLower : traces[next]? = some lower) (above : upper.isAncestorOf lower = true) :
    scanBelow? start depth (count + 1) next traces =
      scanBelow? start depth count (next + 1)
        (traces.mapIdx (scannedBy start depth next 1)) := by
  let started := traces.modify start fun upper =>
    { upper with children := upper.children ++ [next] }
  have start_eq :
      changeAt? (fun upper => { upper with children := upper.children ++ [next] }) start traces =
        some started :=
    changeAt?_eq_some _ (List.getElem?_eq_some_iff.mp found).1
  have startedAt (position : Nat) (elsewhere : position ≠ next) :
      started[position]? = (traces.mapIdx (scannedBy start depth next 1))[position]? := by
    rw [List.getElem?_modify, List.getElem?_mapIdx]
    rcases eq_or_ne position start with rfl | notStart
    · rw [scannedBy_start]
      simp
    · rw [scannedBy_outside notStart (by omega)]
      simp [notStart.symm]
  have nextAt : started[next]? = some lower := by
    rw [List.getElem?_modify, foundLower]
    simp [before.ne]
  -- Only a frame one level below the start gets it for its parent.
  by_cases direct : lower.traceAddress.length = depth + 1
  · have linked : changeAt? (fun lower : Trace => { lower with parent := some start }) next
        started = some (traces.mapIdx (scannedBy start depth next 1)) := by
      rw [changeAt?_eq_some _ (List.getElem?_eq_some_iff.mp nextAt).1, Option.some.injEq]
      apply List.ext_getElem?
      intro position
      rw [List.getElem?_modify]
      rcases eq_or_ne position next with rfl | elsewhere
      · rw [nextAt, List.getElem?_mapIdx, foundLower]
        simp [scannedBy, direct, before.ne']
      · simp [startedAt position elsewhere, elsewhere.symm]
    simp [scanBelow?, found, foundLower, above, direct, start_eq, linked]
  · have kept : started = traces.mapIdx (scannedBy start depth next 1) := by
      apply List.ext_getElem?
      intro position
      rcases eq_or_ne position next with rfl | elsewhere
      · rw [nextAt, List.getElem?_mapIdx, foundLower]
        simp [scannedBy, direct, before.ne']
      · exact startedAt position elsewhere
    simp [scanBelow?, found, foundLower, above, direct, start_eq, kept]

/-- What a scan from a start does to the traces. It ends at the first trace that is not below
the one at the start. -/
theorem scanBelow?_eq_some (found : traces[start]? = some upper) (before : start < next)
    (reaches : next + count = traces.length) :
    scanBelow? start depth count next traces =
      some (traces.mapIdx (scannedBy start depth next
        ((traces.drop next).takeWhile upper.isAncestorOf).length)) := by
  have unchanged (traces : List Trace) (next : Nat) :
      traces.mapIdx (scannedBy start depth next 0) = traces := by
    apply List.ext_getElem?
    intro position
    rw [List.getElem?_mapIdx, scannedBy_zero, Option.map_id, id]
  -- The scan asks for places only, and those stay as they are while links are set.
  induction count generalizing next traces upper with
  | zero =>
      have ended : traces.drop next = [] := List.drop_of_length_le reaches.ge
      rw [scanBelow?, ended, List.takeWhile_nil, List.length_nil, unchanged]
      rfl
  | succ count ih =>
      have inBounds : next < traces.length := by omega
      have foundLower : traces[next]? = some traces[next] := List.getElem?_eq_getElem inBounds
      by_cases above : upper.isAncestorOf traces[next] = true
      · let scanned := traces.mapIdx (scannedBy start depth next 1)
        obtain ⟨started, foundStarted, sameTree⟩ : ∃ started, scanned[start]? = some started ∧
            started.isAncestorOf = upper.isAncestorOf := by
          refine ⟨{ upper with children := upper.children ++ [next] }, ?_, rfl⟩
          rw [List.getElem?_mapIdx, found, scannedBy_start]
          rfl
        have later : scanned.drop (next + 1) = traces.drop (next + 1) := by
          apply List.ext_getElem?
          intro place
          rw [List.getElem?_drop, List.getElem?_drop, List.getElem?_mapIdx,
            scannedBy_outside (by omega) (by omega), Option.map_id, id]
        rw [scanBelow?_succ found before foundLower above,
          ih foundStarted (by omega) (by rw [List.length_mapIdx]; omega), sameTree, later,
          List.drop_eq_getElem_cons inBounds, List.takeWhile_cons_of_pos above, List.length_cons,
          Option.some.injEq]
        apply List.ext_getElem?
        intro position
        simp only [scanned, List.getElem?_mapIdx, Option.map_map]
        congr 1
        funext trace
        exact (scannedBy_succ before).symm
      · rw [List.drop_eq_getElem_cons inBounds, List.takeWhile_cons_of_neg above, List.length_nil,
          unchanged]
        simp [scanBelow?, found, foundLower, above]

/-! ## Traces and their transactions -/

section UpTo

variable (table : PositionTable) (traces : List Trace)

/-- The traces of which the first ones are linked and scanned. -/
def treeUpTo (count : Nat) : List Trace :=
  traces.mapIdx fun position trace =>
    { trace with
      transaction := if position < count then table.position? trace.transactionIndex else none
      parent := parentPosition? (traces.take count) (descendantCounts traces) position trace
      children :=
        if position < count then List.range' (position + 1) (scanLength traces position trace)
        else [] }

end UpTo

variable {table : PositionTable}

/-- A further scan gives a parent to the traces that it passes one level down. -/
theorem parentPosition?_take_succ (found : traces[start]? = some upper) :
    parentPosition? (traces.take (start + 1)) (descendantCounts traces) position trace =
      if start < position ∧ position ≤ start + scanLength traces start upper ∧
          upper.traceAddress.length + 1 = trace.traceAddress.length then
        some start
      else
        parentPosition? (traces.take start) (descendantCounts traces) position trace := by
  have scans (count : Nat) : ((traces.take count).zip (descendantCounts traces)).zipIdx =
      (traces.zip (descendantCounts traces)).zipIdx.take count := by
    apply List.ext_getElem?
    intro place
    simp only [List.getElem?_take, List.getElem?_zipIdx, List.zip, List.getElem?_zipWith]
    by_cases inside : place < count <;> simp [inside]
  have foundScan : (traces.zip (descendantCounts traces)).zipIdx[start]? =
      some ((upper, scanLength traces start upper), start) := by
    rw [getElem?_scans, found]
    rfl
  rw [parentPosition?, scans, take_succ_eq_concat foundScan, lastPositionWhere?_concat, ← scans,
    ← parentPosition?, scans, length_take_of_getElem? foundScan]
  simp only [Bool.and_eq_true, decide_eq_true_eq, beq_iff_eq, and_assoc]

theorem treeUpTo_zero (blank : ∀ trace ∈ traces, trace.unlinked = trace) :
    treeUpTo table traces 0 = traces := by
  apply List.ext_getElem?
  intro position
  rw [treeUpTo, List.getElem?_mapIdx]
  cases found : traces[position]? with
  | none => rfl
  | some trace =>
      refine congrArg some (Eq.trans ?_ (blank trace (List.mem_of_getElem? found)))
      simp [parentPosition?, lastPositionWhere?, positionsWhere, unlinked]

theorem treeUpTo_succ (found : traces[start]? = some upper) :
    ((treeUpTo table traces start).modify start (Linking.traces.linked table)).mapIdx
      (scannedBy start upper.traceAddress.length (start + 1) (scanLength traces start upper)) =
    treeUpTo table traces (start + 1) := by
  apply List.ext_getElem?
  intro position
  simp only [treeUpTo, List.getElem?_mapIdx, List.getElem?_modify]
  cases foundTrace : traces[position]? with
  | none => rfl
  | some trace =>
      simp only [Option.map_some, parentPosition?_take_succ found]
      rcases Nat.lt_trichotomy position start with earlier | rfl | later
      · rw [scannedBy_outside earlier.ne (by omega)]
        have alsoEarlier : position < start + 1 := by omega
        simp [earlier, earlier.ne', alsoEarlier, earlier.asymm]
      · rw [scannedBy_start]
        obtain rfl : upper = trace := by simpa [found] using foundTrace
        cases owner : table.position? upper.transactionIndex <;>
          simp [Linking.linked, Linking.traces, owner]
      · have notBefore : ¬position < start := later.asymm
        have notYet : ¬position < start + 1 := by omega
        rw [scannedBy_later later]
        simp [later, later.ne, notBefore, notYet]

theorem treeUpTo_length :
    treeUpTo table traces traces.length = (linkTree traces).map fun trace =>
      { trace with transaction := table.position? trace.transactionIndex } := by
  apply List.ext_getElem?
  intro position
  rw [treeUpTo, linkTree, List.getElem?_mapIdx, List.getElem?_map, List.getElem?_mapIdx,
    List.take_length, getElem?_descendantCounts]
  cases found : traces[position]? with
  | none => rfl
  | some trace => simp [(List.getElem?_eq_some_iff.mp found).1]

theorem treeUpTo_unlinked (blank : ∀ trace ∈ traces, trace.unlinked = trace) (count : Nat) :
    (treeUpTo table traces count).map unlinked = traces := by
  apply List.ext_getElem?
  intro position
  rw [List.getElem?_map, treeUpTo, List.getElem?_mapIdx]
  cases found : traces[position]? with
  | none => rfl
  | some trace => exact congrArg some (blank trace (List.mem_of_getElem? found))

theorem unlinked_linked (trace : Trace) :
    (Linking.traces.linked table trace).unlinked = trace.unlinked := by
  rw [Linking.linked]
  cases table.position? (Linking.traces.index trace) <;> rfl

theorem scanLength_unlinked (traces : List Trace) (position : Nat) (trace : Trace) :
    scanLength (traces.map unlinked) position trace.unlinked =
      scanLength traces position trace := by
  rw [scanLength, ← List.map_drop, List.takeWhile_map, List.length_map]
  rfl

theorem exists_getElem?_of_map_unlinked {sources : List Trace}
    (same : sources.map unlinked = traces) (found : traces[position]? = some trace) :
    ∃ source, sources[position]? = some source ∧ source.unlinked = trace := by
  rw [← same, List.getElem?_map] at found
  exact Option.map_eq_some_iff.mp found

/-- The step at a place leads to the next state. -/
theorem linkAt?_eq_some {transactions : List Transaction}
    (bounded : ∀ index position, table.position? index = some position →
      position < transactions.length)
    (blank : ∀ trace ∈ traces, trace.unlinked = trace) (found : traces[start]? = some trace) :
    linkAt? table start (treeUpTo table traces start)
        (Linking.traces.notedUpTo table traces transactions start) =
      some (treeUpTo table traces (start + 1),
        Linking.traces.notedUpTo table traces transactions (start + 1)) := by
  let linked := (treeUpTo table traces start).modify start (Linking.traces.linked table)
  have linkedItems : linked.map unlinked = traces := by
    rw [map_modify_of_eq unlinked_linked, treeUpTo_unlinked blank]
  have linkedLength : linked.length = traces.length := by
    rw [← List.length_map unlinked, linkedItems]
  have inBounds : start < traces.length := (List.getElem?_eq_some_iff.mp found).1
  obtain ⟨current, foundCurrent, rfl⟩ :=
    exists_getElem?_of_map_unlinked (@treeUpTo_unlinked _ table blank start) found
  obtain ⟨upper, foundUpper, sameUpper⟩ := exists_getElem?_of_map_unlinked linkedItems found
  have scanned : scanBelow? start upper.traceAddress.length (linked.length - (start + 1))
      (start + 1) linked = some (treeUpTo table traces (start + 1)) := by
    rw [scanBelow?_eq_some foundUpper (Nat.lt_succ_self start) (by omega), ← treeUpTo_succ found,
      ← scanLength, ← scanLength_unlinked, linkedItems, sameUpper, ← sameUpper]
    rfl
  rw [linkAt?, Linking.linkAt?_eq_some (by simpa using bounded) foundCurrent]
  change ((linked[start]?).bind fun upper =>
    (scanBelow? start upper.traceAddress.length (linked.length - (start + 1)) (start + 1)
      linked).bind fun traces => some (traces, _)) = _
  rw [foundUpper, Option.bind_some, scanned, Option.bind_some, Linking.notedUpTo_succ found]
  rfl

/-- The pass over the traces links them to their transactions and to one another. -/
theorem linkAll?_eq_some {transactions : List Transaction}
    (bounded : ∀ index position, table.position? index = some position →
      position < transactions.length)
    (blank : ∀ trace ∈ traces, trace.unlinked = trace) :
    linkAll? table traces transactions =
      some ((linkTree traces).map fun trace =>
          { trace with transaction := table.position? trace.transactionIndex },
        Linking.traces.notedUpTo table traces transactions traces.length) := by
  let stateAt (count : Nat) : List Trace × List Transaction :=
    (treeUpTo table traces count, Linking.traces.notedUpTo table traces transactions count)
  have begin : (traces, transactions) = stateAt 0 :=
    congrArg₂ Prod.mk (treeUpTo_zero blank).symm
      (Linking.notedUpTo_zero Linking.traces table traces transactions).symm
  rw [linkAll?, begin, ← treeUpTo_length]
  refine foldlM_range_eq_some stateAt ?_
  intro start inBounds
  exact linkAt?_eq_some bounded blank (List.getElem?_eq_getElem inBounds)

end Trace

/-! ## Blocks -/

namespace Linking

variable {table : PositionTable}

/-- To record places one after another is to record them all, in the manner of the linking. -/
theorem recorded_eq {α : Type} {linking : Linking α}
    {recordAll : List Nat → Transaction → Transaction}
    (nothing : ∀ transaction, recordAll [] transaction = transaction)
    (first : ∀ place rest transaction,
      recordAll rest (linking.record place transaction) = recordAll (place :: rest) transaction)
    (places : List Nat) : linking.recorded places = recordAll places := by
  funext transaction
  induction places generalizing transaction with
  | nil => exact (nothing transaction).symm
  | cons place rest ih => exact (ih (linking.record place transaction)).trans (first _ _ _)

theorem logs_recorded (places : List Nat) :
    logs.recorded places = fun transaction =>
      { transaction with logs := transaction.logs ++ places } :=
  @recorded_eq _ logs (fun places transaction =>
    { transaction with logs := transaction.logs ++ places }) (by simp) (by simp [logs]) places

theorem traces_recorded (places : List Nat) :
    traces.recorded places = fun transaction =>
      { transaction with traces := transaction.traces ++ places } :=
  @recorded_eq _ traces (fun places transaction =>
    { transaction with traces := transaction.traces ++ places }) (by simp) (by simp [traces])
    places

theorem stateDiffs_recorded (places : List Nat) :
    stateDiffs.recorded places = fun transaction =>
      { transaction with stateDiffs := transaction.stateDiffs ++ places } :=
  @recorded_eq _ stateDiffs (fun places transaction =>
    { transaction with stateDiffs := transaction.stateDiffs ++ places }) (by simp)
    (by simp [stateDiffs]) places

theorem logs_linked (log : Log) :
    logs.linked table log.unlinked =
      { log.unlinked with transaction := table.position? log.transactionIndex } := by
  have index : logs.index log.unlinked = log.transactionIndex := rfl
  rw [linked, index]
  cases table.position? log.transactionIndex <;> rfl

theorem stateDiffs_linked (diff : StateDiff) :
    stateDiffs.linked table diff.unlinked =
      { diff.unlinked with transaction := table.position? diff.transactionIndex } := by
  have index : stateDiffs.index diff.unlinked = diff.transactionIndex := rfl
  rw [linked, index]
  cases table.position? diff.transactionIndex <;> rfl

end Linking

/-- Functions that agree on items without links agree on a list of such items. -/
theorem map_congr_of_map_eq_self {α β : Type} {items : List α} {unlink : α → α}
    {image other : α → β} (blank : items.map unlink = items)
    (agree : ∀ item, image (unlink item) = other (unlink item)) :
    items.map image = items.map other := by
  rw [← blank, List.map_map, List.map_map]
  exact List.map_congr_left fun item _ => agree item

namespace Block

theorem arrange_transactions_ordered (block : Block) :
    block.arrange.transactions.Pairwise fun left right =>
      left.transactionIndex ≤ right.transactionIndex := by
  rw [← wire_unlinked, unlinked, List.pairwise_map]
  exact block.wire_transactions_ordered

section Linked

variable {block : Block} {table : PositionTable}
  (positionEq : table.position? = Transaction.position? block.arrange.transactions)
include positionEq

theorem arrange_logs_linked :
    block.arrange.logs.map (Linking.logs.linked table) = block.wire.logs := by
  apply map_congr_of_map_eq_self (congrArg Block.logs block.arrange_unlinked)
  intro log
  rw [Linking.logs_linked, positionEq]
  rfl

theorem arrange_stateDiffs_linked :
    block.arrange.stateDiffs.map (Linking.stateDiffs.linked table) = block.wire.stateDiffs := by
  apply map_congr_of_map_eq_self (congrArg Block.stateDiffs block.arrange_unlinked)
  intro diff
  rw [Linking.stateDiffs_linked, positionEq]
  rfl

/-- All places noted are the links of the wired transactions. -/
theorem arrange_transactions_noted :
    Linking.stateDiffs.notedUpTo table block.arrange.stateDiffs
        (Linking.traces.notedUpTo table block.arrange.traces
          (Linking.logs.notedUpTo table block.arrange.logs block.arrange.transactions
            block.arrange.logs.length)
          block.arrange.traces.length)
        block.arrange.stateDiffs.length = block.wire.transactions := by
  have belongs {α : Type} (linking : Linking α) (position : Nat) :
      linking.belongs table position = fun item =>
        Transaction.position? block.arrange.transactions (linking.index item) ==
          some position := by
    funext item
    rw [Linking.belongs, positionEq]
  apply List.ext_getElem?
  intro position
  have logs : positionsWhere (Linking.logs.belongs table position) block.arrange.logs =
      positionsWhere (fun log => log.transaction == some position) block.wire.logs := by
    rw [belongs]
    apply positionsWhere_eq_of_map_eq
    change _ = (block.arrange.logs.map _).map _
    rw [List.map_map]
    rfl
  have traces : positionsWhere (Linking.traces.belongs table position) block.arrange.traces =
      positionsWhere (fun trace => trace.transaction == some position) block.wire.traces := by
    rw [belongs]
    apply positionsWhere_eq_of_map_eq
    apply List.ext_getElem?
    intro place
    rw [List.getElem?_map, List.getElem?_map, getElem?_wire_traces, Option.map_map]
    rfl
  have stateDiffs :
      positionsWhere (Linking.stateDiffs.belongs table position) block.arrange.stateDiffs =
        positionsWhere (fun diff => diff.transaction == some position) block.wire.stateDiffs := by
    rw [belongs]
    apply positionsWhere_eq_of_map_eq
    change _ = (block.arrange.stateDiffs.map _).map _
    rw [List.map_map]
    rfl
  simp only [Linking.notedUpTo, List.getElem?_mapIdx, getElem?_wire_transactions, Option.map_map,
    List.take_length, Linking.logs_recorded, Linking.traces_recorded, Linking.stateDiffs_recorded,
    logs, traces, stateDiffs]
  have blank : block.arrange.transactions.map Transaction.unlinked =
      block.arrange.transactions := congrArg Block.transactions block.arrange_unlinked
  rw [← blank, List.getElem?_map, Option.map_map, Option.map_map]
  rfl

end Linked

/-- The passes wire every block: they do not go out of range. -/
theorem wireInPasses?_eq (block : Block) : block.wireInPasses? = some block.wire := by
  obtain ⟨table, foundTable, positionEq⟩ :=
    PositionTable.exists_ofTransactions? block.arrange_transactions_ordered
  have bounded (index : UInt32) (position : Nat) (found : table.position? index = some position) :
      position < block.arrange.transactions.length := by
    rw [positionEq, Transaction.position?, lastPositionWhere?_eq_some_iff] at found
    obtain ⟨_, found, _⟩ := found.1
    exact (List.getElem?_eq_some_iff.mp found).1
  have blank (trace : Trace) := @unlinked_of_mem_arrange_traces block trace
  rw [wireInPasses?, foundTable]
  simp only [Option.bind_eq_bind, Option.bind_some]
  rw [Linking.linkAll?_eq_some bounded]
  simp only [Option.bind_some]
  rw [Trace.linkAll?_eq_some (by simpa using bounded) blank]
  simp only [Option.bind_some]
  rw [Linking.linkAll?_eq_some (by simpa using bounded)]
  simp only [Option.bind_some]
  rw [arrange_logs_linked positionEq, arrange_stateDiffs_linked positionEq,
    arrange_transactions_noted positionEq, positionEq]
  rfl

end Block

end ChainFeed
