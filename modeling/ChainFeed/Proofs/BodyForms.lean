import ChainFeed.Proofs.Composition
import ChainFeed.Proofs.ProjectionPairs

/-!
# Bodies in full and bodies of hashes

A block is fetched with the hashes of its transactions only, if nothing is asked for that
transactions in full are needed for.  The two bodies then give the same items, but for the
selector of the called function: it is taken from the transaction in full, yet selecting it
does not count as a reason to fetch that.
-/

namespace ChainFeed

/-- The fetched block with another body. -/
def FetchedBlock.withBody (fetched : FetchedBlock) (body : Raw.Body) : FetchedBlock :=
  { fetched with block := { fetched.block with transactions := body } }

namespace Transaction

/-- What is selected of a transaction and is not taken from receipts. -/
def selectedOfBody (fields : TransactionFields) (transaction : Transaction) : Transaction :=
  { bare transaction.transactionIndex with
    hash := shown fields.hash transaction.hash
    sender := shown fields.sender transaction.sender
    recipient := shown fields.recipient transaction.recipient
    gas := shown fields.gas transaction.gas
    gasPrice := shown fields.gasPrice transaction.gasPrice
    maxFeePerGas := shown fields.maxFeePerGas transaction.maxFeePerGas
    maxPriorityFeePerGas := shown fields.maxPriorityFeePerGas transaction.maxPriorityFeePerGas
    input := shown fields.input transaction.input
    sighash := shown fields.sighash transaction.sighash
    nonce := shown fields.nonce transaction.nonce
    value := shown fields.value transaction.value
    v := shown fields.v transaction.v
    r := shown fields.r transaction.r
    s := shown fields.s transaction.s
    yParity := shown fields.yParity transaction.yParity
    chainId := shown fields.chainId transaction.chainId
    authorizationList := shown fields.authorizationList transaction.authorizationList }

/-- The transaction without the selector of the called function. -/
def withoutSighash (transaction : Transaction) : Transaction :=
  { transaction with sighash := none }

/-- Whether a transaction from a hash shows what the same one in full does, but for the
selector of the called function. -/
structure HashShows (fields : TransactionFields) (full hashed : Transaction) : Prop where
  selected : hashed.selectedOfBody fields = (full.selectedOfBody fields).withoutSighash
  sighash : full.sighash.isSome = true

variable {fields : TransactionFields}

/-- Without a property that only the transaction itself has, its hash and the selector are
all that can be selected of its body. -/
theorem selectedOfBody_of_anyOfBody (unselected : fields.anyOfBody = false)
    (transaction : Transaction) :
    transaction.selectedOfBody fields =
      { bare transaction.transactionIndex with
        hash := shown fields.hash transaction.hash
        sighash := shown fields.sighash transaction.sighash } := by
  simp only [TransactionFields.anyOfBody, Bool.or_eq_false_iff] at unselected
  simp [selectedOfBody, shown, unselected, bare]

theorem hashShows_ofHash (unselected : fields.anyOfBody = false) (index : UInt32)
    (source : Raw.Transaction) :
    HashShows fields (ofFull index source fields) (ofHash index source.hash fields) := by
  constructor
  · rw [selectedOfBody_of_anyOfBody unselected, selectedOfBody_of_anyOfBody unselected]
    simp [ofHash, ofFull, bare, withoutSighash, shown]
  · rfl

/-- Receipts add nothing that bodies show. -/
theorem HashShows.withReceipt {full hashed : Transaction} (shows : HashShows fields full hashed)
    (receipt : Raw.Receipt) :
    HashShows fields (full.withReceipt receipt fields) (hashed.withReceipt receipt fields) :=
  ⟨shows.selected, shows.sighash⟩

/-- Transactions that carry their positions can be built from bodies in full, as long as
the positions fit. -/
theorem ofFullFrom_eq_or_overflow {sources : List Raw.Transaction} {position : Nat}
    (carried : ∀ offset source, sources[offset]? = some source →
      source.transactionIndex.toNat = position + offset) :
    (UInt32.size < position + sources.length ∧
        ∃ value, ofFullFrom position fields sources =
          .error (.indexOverflow .transactionIndex value)) ∨
      ofFullFrom position fields sources =
        .ok
          (sources.mapIdx fun offset source =>
            ofFull (UInt32.ofNat (position + offset)) source fields) := by
  induction sources generalizing position with
  | nil => exact .inr rfl
  | cons source rest ih =>
      have isPosition : source.transactionIndex.toNat = position := carried 0 source rfl
      have carriedLater : ∀ offset other, rest[offset]? = some other →
          other.transactionIndex.toNat = position + 1 + offset := by
        intro offset other found
        have := carried (offset + 1) other found
        omega
      have isIndex : source.transactionIndex.toUInt32 = UInt32.ofNat position := by
        rw [← isPosition]
        rfl
      unfold ofFullFrom narrow
      rw [if_neg (by simpa using isPosition)]
      by_cases small : source.transactionIndex.toNat < UInt32.size
      · rw [if_pos small]
        rcases ih carriedLater with ⟨long, value, run⟩ | run
        · rw [run]
          exact .inl ⟨by rw [List.length_cons]; omega, value, rfl⟩
        · rw [run, List.mapIdx_cons, isIndex]
          refine .inr ?_
          simp only [Nat.add_comm, Nat.add_left_comm]
          rfl
      · rw [if_neg small]
        exact .inl ⟨by rw [List.length_cons]; omega, _, rfl⟩

/-- Transactions from hashes, beside the same ones in full. -/
theorem forall₂_hashShows (unselected : fields.anyOfBody = false) (sources : List Raw.Transaction) :
    List.Forall₂ (HashShows fields)
      (ofEntries fields (.full sources))
      (ofEntries fields (.hashes (sources.map Raw.Transaction.hash))) := by
  have hashed : ofEntries fields (.hashes (sources.map Raw.Transaction.hash)) =
      sources.mapIdx fun position source => ofHash (UInt32.ofNat position) source.hash fields := by
    simp [ofEntries, List.mapIdx_eq_zipIdx_map, List.zipIdx_map]
  rw [hashed, ofEntries, List.mapIdx_eq_zipIdx_map, List.mapIdx_eq_zipIdx_map,
    List.forall₂_map_left_iff, List.forall₂_map_right_iff, List.forall₂_same]
  exact fun entry _ => hashShows_ofHash unselected _ _

/-- A hash shows all that is selected, unless the selector of the called function is. -/
theorem HashShows.selectedOfBody_eq_iff {full hashed : Transaction}
    (shows : HashShows fields full hashed) :
    hashed.selectedOfBody fields = full.selectedOfBody fields ↔ fields.sighash = false := by
  rw [shows.selected]
  constructor
  · intro same
    have lost : shown fields.sighash full.sighash = none :=
      (congrArg Transaction.sighash same).symm
    have there := shows.sighash
    cases selected : fields.sighash with
    | false => rfl
    | true =>
        rw [selected] at lost
        rw [show full.sighash = none from lost] at there
        cases there
  · intro unselected
    simp [selectedOfBody, withoutSighash, shown, unselected]

theorem map_selectedOfBody_of_forall₂ {fulls hasheds : List Transaction}
    (show₂ : List.Forall₂ (HashShows fields) fulls hasheds) :
    hasheds.map (selectedOfBody fields) =
      fulls.map fun full => (full.selectedOfBody fields).withoutSighash :=
  map_eq_of_forall₂ show₂ fun _ _ shows => shows.selected

theorem map_selectedOfBody_eq_iff {fulls hasheds : List Transaction}
    (show₂ : List.Forall₂ (HashShows fields) fulls hasheds) :
    hasheds.map (selectedOfBody fields) = fulls.map (selectedOfBody fields) ↔
      (fields.sighash = true → fulls = []) := by
  induction show₂ with
  | nil => simp
  | cons shows _ ih =>
      rw [List.map_cons, List.map_cons, List.cons.injEq, shows.selectedOfBody_eq_iff, ih]
      cases fields.sighash <;> simp

end Transaction

/-! ## Blocks -/

namespace FetchedBlock

variable {request : Request} {fields : FieldSelection}

/-- Hashes are fetched only if no property is selected that only transactions have. -/
theorem anyOfBody_of_hashesOnly (listed : (Demand.of request fields).transactionList = true)
    (hashesOnly : (Demand.of request fields).transactions = false) :
    fields.transaction.anyOfBody = false := by
  simp only [Demand.of, Bool.or_eq_false_iff] at listed hashesOnly
  rw [listed] at hashesOnly
  simpa using hashesOnly.2

/-- The transactions of a body in full beside those of the hashes. -/
theorem bodyTransactions_hashes (fetched : FetchedBlock) {demand : Demand}
    {sources : List Raw.Transaction} (listed : demand.transactionList = true)
    (unselected : demand.fields.transaction.anyOfBody = false)
    (carried : ∀ (position : Nat) (source : Raw.Transaction), sources[position]? = some source →
      source.transactionIndex.toNat = position) :
    (UInt32.size < sources.length ∧
        ∃ value, Projection.bodyTransactions demand (fetched.withBody (.full sources)) =
          .error (.indexOverflow .transactionIndex value)) ∨
      EndAlike (List.Forall₂ (Transaction.HashShows demand.fields.transaction))
        (Projection.bodyTransactions demand (fetched.withBody (.full sources)))
        (Projection.bodyTransactions demand
          (fetched.withBody (.hashes (sources.map Raw.Transaction.hash)))) := by
  rw [Projection.bodyTransactions, Projection.bodyTransactions, if_pos listed, if_pos listed]
  rcases @Transaction.ofFullFrom_eq_or_overflow demand.fields.transaction sources 0
    (by simpa using carried) with ⟨long, overflow⟩ | run
  · exact .inl ⟨by rwa [Nat.zero_add] at long, overflow⟩
  · refine .inr ?_
    have show₂ := Transaction.forall₂_hashShows unselected sources
    simp only [Nat.zero_add] at run
    rw [show Transaction.ofBody _ (fetched.withBody (.full sources)).block.transactions = _
      from run]
    exact .ok show₂

/-- A block projected with its transactions in full and with their hashes only, as it is
fetched: unless there are more than can be indexed, both ways end alike, and all that is
selected of the transactions is the same but for the selector of the called function.  That one
is lost if it is selected and there are transactions. -/
theorem project_hashes_endsAlike (fetched : FetchedBlock) {sources : List Raw.Transaction}
    (listed : (Demand.of request fields).transactionList = true)
    (hashesOnly : (Demand.of request fields).transactions = false)
    (carried : ∀ (position : Nat) (source : Raw.Transaction), sources[position]? = some source →
      source.transactionIndex.toNat = position) :
    (UInt32.size < sources.length ∧
        ∃ value, (fetched.withBody (.full sources)).project (.of request fields) =
          .error (.indexOverflow .transactionIndex value)) ∨
      EndAlike
        (fun block other =>
          other = { block with transactions := other.transactions } ∧
            other.transactions.map (·.selectedOfBody fields.transaction) =
              block.transactions.map
                (fun full => (full.selectedOfBody fields.transaction).withoutSighash) ∧
            (other.transactions.map (·.selectedOfBody fields.transaction) =
                block.transactions.map (·.selectedOfBody fields.transaction) ↔
              (fields.transaction.sighash = true → block.transactions = [])))
        ((fetched.withBody (.full sources)).project (.of request fields))
        ((fetched.withBody (.hashes (sources.map Raw.Transaction.hash))).project
          (.of request fields)) := by
  have unselected := anyOfBody_of_hashesOnly listed hashesOnly
  have readAlike : Projection.ReadAlike (Transaction.HashShows fields.transaction) Eq
      (.of request fields) (.of request fields) :=
    { receipts := rfl, logList := rfl
      withReceipt := fun _ _ receipt shows => shows.withReceipt receipt
      log := fun _ => .refl _ }
  let full := fetched.withBody (.full sources)
  let hashed := fetched.withBody (.hashes (sources.map Raw.Transaction.hash))
  have sameData : full.data = hashed.data := rfl
  have sameHashes :
      full.block.transactions.toHashes = hashed.block.transactions.toHashes := rfl
  rcases fetched.bodyTransactions_hashes listed unselected carried with
    ⟨long, value, overflow⟩ | bodies
  · refine .inl ⟨long, value, ?_⟩
    rw [project, Projection.transactionsAndLogs_eq, overflow]
    rfl
  · refine .inr ?_
    apply (Projection.transactionsAndLogs_related readAlike sameData sameHashes bodies).bind
    rintro ⟨transactions, logs⟩ ⟨fromHashes, otherLogs⟩ ⟨show₂, sameLogs⟩
    obtain rfl : logs = otherLogs := List.forall₂_eq_eq_eq ▸ sameLogs
    dsimp only
    rw [Projection.tracesAndStateDiffs_congr _ sameData sameHashes]
    apply (EndAlike.refl _).bind
    rintro frames _ rfl
    exact .ok ⟨rfl, Transaction.map_selectedOfBody_of_forall₂ show₂,
      Transaction.map_selectedOfBody_eq_iff show₂⟩

/-- A transaction that calls a function and of which nothing more is said. -/
def callTransaction : Raw.Transaction where
  blockNumber := 8
  blockHash := .zero 32
  transactionIndex := 0
  hash := evenHash 1
  input := ⟨[1, 2, 3, 4, 5]⟩
  sender := none
  recipient := none
  gas := none
  gasPrice := none
  maxFeePerGas := none
  maxPriorityFeePerGas := none
  nonce := none
  value := none
  v := none
  r := none
  s := none
  yParity := none
  chainId := none
  type := none
  authorizationList := none

/-- The demand for logs with their transactions, of which the hash and the selector of the
called function are selected. -/
def selectorDemand : Demand :=
  .of { Request.empty with logs := [⟨none, none, none, none, none, ⟨true, false, false, false⟩⟩] }
    { FieldSelection.off with
      transaction := { TransactionFields.off with hash := true, sighash := true } }

/-- The hash of the transaction is shown either way. -/
theorem project_hashes_callTransaction :
    selectorDemand.transactionList = true ∧ selectorDemand.transactions = false ∧
      ∃ block other : Block,
        (FetchedBlock.withBody ⟨pairBlock, .empty⟩ (.full [callTransaction])).project
            selectorDemand = .ok block ∧
          (FetchedBlock.withBody ⟨pairBlock, .empty⟩ (.hashes [evenHash 1])).project
            selectorDemand = .ok other ∧
          other.transactions.map Transaction.hash = [some (evenHash 1)] ∧
          other.transactions.map (·.selectedOfBody selectorDemand.fields.transaction) =
            block.transactions.map fun full =>
              (full.selectedOfBody selectorDemand.fields.transaction).withoutSighash := by
  have carried : ∀ (position : Nat) (source : Raw.Transaction),
      [callTransaction][position]? = some source → source.transactionIndex.toNat = position := by
    intro position source found
    cases position with
    | zero =>
        cases found
        rfl
    | succ position => cases found
  refine ⟨rfl, rfl, _, _, rfl, rfl, rfl, ?_⟩
  rcases project_hashes_endsAlike ⟨pairBlock, .empty⟩
    (show selectorDemand.transactionList = true from rfl) rfl carried with ⟨_, _, overflow⟩ | alike
  · cases overflow
  · exact (alike.of_ok rfl rfl).2.1

/-- The selector of the called function is lost, although it is selected. -/
theorem sighash_lost_callTransaction :
    selectorDemand.transactionList = true ∧ selectorDemand.transactions = false ∧
      selectorDemand.fields.transaction.sighash = true ∧
      ∃ block other : Block,
        (FetchedBlock.withBody ⟨pairBlock, .empty⟩ (.full [callTransaction])).project
            selectorDemand = .ok block ∧
          (FetchedBlock.withBody ⟨pairBlock, .empty⟩ (.hashes [evenHash 1])).project
            selectorDemand = .ok other ∧
          block.transactions.map Transaction.sighash = [some ⟨[1, 2, 3, 4]⟩] ∧
          other.transactions.map Transaction.sighash = [none] :=
  ⟨rfl, rfl, rfl, _, _, rfl, rfl, rfl, rfl⟩

end FetchedBlock

end ChainFeed
