import ChainFeed.Proofs.Snapshots

/-!
# Changes told by snapshots

The state diffs of two snapshots lead from the storage of every account before to its storage
after, one slot after another.  Of the fields of an account they tell where the second snapshot
lists another value than the first one.  So of an account that is missing there the storage is
cleared, and nothing is told of its fields.
-/

namespace ChainFeed

namespace StateDiff

/-! ## Records -/

/-- Whether the kind of a record says which of its values there are. -/
structure Classified (record : StateDiff) : Prop where
  add : record.kind = .add ↔ record.prev = none
  delete : record.kind = .delete ↔ record.next = none
  change : record.kind = .change ↔ record.prev.isSome = true ∧ record.next.isSome = true
  differ : record.prev ≠ record.next
  noChange : record.kind ≠ .noChange

variable {transactionIndex : UInt32} {address : Address} {key : DiffKey} {record : StateDiff}
  {prev next : Option Bytes} {snapshots : Raw.Snapshots}

/-- What the record of a change between two values says. -/
theorem classified_of_between?
    (isRecord : between? transactionIndex address key prev next = some record) :
    record.transactionIndex = transactionIndex ∧ record.prev = prev ∧ record.next = next ∧
      record.Classified := by
  obtain ⟨kind, isKind, rfl⟩ := Option.map_eq_some_iff.mp isRecord
  refine ⟨rfl, rfl, rfl, ?_⟩
  cases prev with
  | none =>
      cases next with
      | none => cases isKind
      | some new =>
          cases isKind
          constructor <;> simp
  | some old =>
      cases next with
      | none =>
          cases isKind
          constructor <;> simp
      | some new =>
          rw [Option.ite_none_left_eq_some] at isKind
          obtain ⟨different, isKind⟩ := isKind
          cases isKind
          constructor <;> simp [different]

/-- There is a record of a change if the values differ. -/
theorem exists_between?_iff :
    (∃ record, between? transactionIndex address key prev next = some record) ↔ prev ≠ next := by
  unfold between?
  rw [← Option.isSome_iff_exists, Option.isSome_map]
  cases prev with
  | none => cases next <;> simp
  | some old => cases next <;> simp

/-- A state diff of snapshots says what they list about its value. -/
theorem of_mem_ofSnapshots (member : record ∈ ofSnapshots transactionIndex snapshots) :
    record.transactionIndex = transactionIndex ∧
      record.prev = (snapshots.before record.address).value? record.key ∧
      record.next = (snapshots.after record.address).value? record.key ∧ record.Classified := by
  obtain ⟨address, key, isRecord⟩ := mem_ofSnapshots.mp member
  rw [ofValue?, Option.ite_none_right_eq_some] at isRecord
  obtain ⟨_, isRecord⟩ := isRecord
  obtain ⟨rfl, rfl⟩ := of_between?_eq_some isRecord
  exact classified_of_between? isRecord

/-- There is a state diff about a value that counts if the snapshots list it differently. -/
theorem exists_mem_ofSnapshots_iff :
    (∃ record ∈ ofSnapshots transactionIndex snapshots, record.subject = (address, key)) ↔
      (key.isStorage = true ∨ ((snapshots.after address).value? key).isSome = true) ∧
        (snapshots.before address).value? key ≠ (snapshots.after address).value? key := by
  constructor
  · rintro ⟨record, member, isAbout⟩
    obtain ⟨other, otherKey, isRecord⟩ := mem_ofSnapshots.mp member
    rw [ofValue?, Option.ite_none_right_eq_some] at isRecord
    obtain ⟨counts, isRecord⟩ := isRecord
    obtain ⟨rfl, rfl⟩ := of_between?_eq_some isRecord
    cases isAbout
    exact ⟨counts, exists_between?_iff.mp ⟨record, isRecord⟩⟩
  · rintro ⟨counts, different⟩
    obtain ⟨record, isRecord⟩ := exists_between?_iff.mpr different
    obtain ⟨isAddress, isKey⟩ := of_between?_eq_some isRecord
    refine ⟨record, mem_ofSnapshots.mpr ⟨address, key, ?_⟩, congrArg₂ Prod.mk isAddress isKey⟩
    rw [ofValue?, if_pos counts, isRecord]

/-! ## Fields -/

/-- Whether records tell of a field of an account that has a value after, exactly if it is not
the value before. -/
def TellsField {α : Type} (records : List StateDiff) (address : Address) (key : DiffKey)
    (data : α → Bytes) (before after : Option α) : Prop :=
  ∀ value, after = some value →
    ((∃ record ∈ records, record.subject = (address, key)) ↔ before ≠ some value) ∧
      ∀ record ∈ records, record.subject = (address, key) →
        record.prev = before.map data ∧ record.next = some (data value)

theorem tellsField_ofSnapshots {α : Type} {data : α → Bytes} {before after : Option α}
    (injective : Function.Injective data)
    (isBefore : (snapshots.before address).value? key = before.map data)
    (isAfter : (snapshots.after address).value? key = after.map data) :
    TellsField (ofSnapshots transactionIndex snapshots) address key data before after := by
  rintro value rfl
  constructor
  · have same : before.map data = some (data value) ↔ before = some value :=
      (Option.map_injective injective).eq_iff (b := some value)
    rw [exists_mem_ofSnapshots_iff, isBefore, isAfter, Option.map_some, Ne, same]
    simp
  · intro record member isAbout
    obtain ⟨-, isPrev, isNext, -⟩ := of_mem_ofSnapshots member
    cases isAbout
    exact ⟨isPrev.trans isBefore, isNext.trans isAfter⟩

/-! ## Storage -/

/-- The storage of an account after a change of one of its slots. The record has to say what the
slot holds, and what it is to hold has to be a word. Other records leave the storage as it is. -/
def applyTo? (storage : Table 32 Hash) (record : StateDiff) : Option (Table 32 Hash) :=
  match record.key with
  | .storage slot =>
      if (storage.get? slot).map FixedBytes.toBytes = record.prev then
        match record.next with
        | none => some (storage.erase slot)
        | some value => (FixedBytes.ofList? value.toList).map (storage.insert slot)
      else
        none
  | _ => some storage

/-- A record of a slot changes that slot and no other. -/
theorem exists_applyTo?_eq_some {storage : Table 32 Hash} {slot : Hash} {word : Option Hash}
    (isSlot : record.key = .storage slot)
    (isPrev : record.prev = (storage.get? slot).map FixedBytes.toBytes)
    (isNext : record.next = word.map FixedBytes.toBytes) :
    ∃ changed, applyTo? storage record = some changed ∧
      ∀ other, changed.get? other = if other = slot then word else storage.get? other := by
  rw [applyTo?, isSlot, isPrev, isNext]
  dsimp only
  rw [if_pos rfl]
  cases word with
  | none => exact ⟨storage.erase slot, rfl, storage.get?_erase slot⟩
  | some value =>
      refine ⟨storage.insert slot value, ?_, fun other => storage.get?_insert slot other value⟩
      change (FixedBytes.ofList? value.toList).map (storage.insert slot) = _
      rw [FixedBytes.ofList?_toList, Option.map_some]

theorem applyTo?_of_not_storage {storage : Table 32 Hash}
    (notSlot : ∀ slot, record.key ≠ .storage slot) : applyTo? storage record = some storage := by
  unfold applyTo?
  split
  · rename_i slot isSlot
    exact absurd isSlot (notSlot slot)
  · rfl

/-- Records that say of different slots what they hold, and what they hold in the end, lead
there if the other slots hold it already. -/
theorem foldlM_applyTo?_eq_some {records : List StateDiff} {storage target : Table 32 Hash}
    (distinct : records.Pairwise fun left right => left.key ≠ right.key)
    (tells : ∀ record ∈ records, ∀ slot, record.key = .storage slot →
      record.prev = (storage.get? slot).map FixedBytes.toBytes ∧
        record.next = (target.get? slot).map FixedBytes.toBytes)
    (others : ∀ slot, (∀ record ∈ records, record.key ≠ .storage slot) →
      storage.get? slot = target.get? slot) :
    records.foldlM applyTo? storage = some target := by
  induction records generalizing storage with
  | nil =>
      have same : storage = target := Table.ext_get? fun slot => others slot (by simp)
      rw [List.foldlM_nil, same]
      rfl
  | cons record rest ih =>
      obtain ⟨fresh, distinctRest⟩ := List.pairwise_cons.mp distinct
      obtain ⟨tellsFirst, tellsRest⟩ := List.forall_mem_cons.mp tells
      rw [List.foldlM_cons]
      by_cases isField : ∀ slot, record.key ≠ .storage slot
      · rw [applyTo?_of_not_storage isField]
        apply ih distinctRest tellsRest
        intro slot unsaid
        exact others slot (List.forall_mem_cons.mpr ⟨isField slot, unsaid⟩)
      · simp only [not_forall, not_not] at isField
        obtain ⟨slot, isSlot⟩ := isField
        obtain ⟨isPrev, isNext⟩ := tellsFirst slot isSlot
        obtain ⟨changed, applied, holds⟩ := exists_applyTo?_eq_some isSlot isPrev isNext
        rw [applied]
        -- The slot of the record holds what it is to hold in the end, and the others what they did.
        apply ih distinctRest
        · intro later member other isOther
          have elsewhere : other ≠ slot := by
            rintro rfl
            exact fresh later member (isSlot.trans isOther.symm)
          rw [holds, if_neg elsewhere]
          exact tellsRest later member other isOther
        · intro other unsaid
          rw [holds]
          split
          · rename_i same
            rw [same]
          · rename_i elsewhere
            refine others other (List.forall_mem_cons.mpr ⟨?_, unsaid⟩)
            rw [isSlot]
            exact fun same => elsewhere (DiffKey.storage.inj same).symm

/-- The state diffs about an account lead from its storage before to its storage after. -/
theorem foldlM_ofSnapshots (transactionIndex : UInt32) (snapshots : Raw.Snapshots)
    (address : Address) :
    ((ofSnapshots transactionIndex snapshots).filter fun record =>
        record.address = address).foldlM applyTo? ((snapshots.before address).storage.getD .empty) =
      some ((snapshots.after address).storage.getD .empty) := by
  apply foldlM_applyTo?_eq_some
  case distinct =>
    rw [filter_ofSnapshots]
    exact ofAccounts_distinct
  case tells =>
    intro record member slot isSlot
    obtain ⟨member, isAbout⟩ := List.mem_filter.mp member
    obtain ⟨-, isPrev, isNext, -⟩ := of_mem_ofSnapshots member
    rw [decide_eq_true_eq] at isAbout
    rw [isAbout, isSlot] at isPrev isNext
    exact ⟨isPrev, isNext⟩
  case others =>
    intro slot unsaid
    by_contra different
    have differently : (snapshots.before address).value? (.storage slot) ≠
        (snapshots.after address).value? (.storage slot) := by
      intro same
      exact different (Option.map_injective FixedBytes.toBytes_injective same)
    obtain ⟨record, member, isAbout⟩ :=
      exists_mem_ofSnapshots_iff.mpr ⟨.inl rfl, differently⟩
    obtain ⟨isAddress, isSlot⟩ := Prod.mk.inj isAbout
    exact unsaid record (List.mem_filter.mpr ⟨member, decide_eq_true isAddress⟩) isSlot

/-- What records have to be to tell how two snapshots of a transaction differ. -/
structure TellsChanges (transactionIndex : UInt32) (snapshots : Raw.Snapshots)
    (records : List StateDiff) : Prop where
  index : ∀ record ∈ records, record.transactionIndex = transactionIndex
  distinct : (records.map subject).Nodup
  classified : ∀ record ∈ records, record.Classified
  prev : ∀ record ∈ records,
    record.prev = (snapshots.before record.address).value? record.key
  storage : ∀ address,
    (records.filter fun record => record.address = address).foldlM applyTo?
        ((snapshots.before address).storage.getD .empty) =
      some ((snapshots.after address).storage.getD .empty)
  balance : ∀ address, TellsField records address .balance Quantity.toBytes
    (snapshots.before address).balance (snapshots.after address).balance
  code : ∀ address, TellsField records address .code id
    (snapshots.before address).code (snapshots.after address).code
  nonce : ∀ address, TellsField records address .nonce nonceBytes
    (snapshots.before address).nonce (snapshots.after address).nonce

/-- The state diffs of two snapshots tell how they differ, and numbers in them are as short as
they can be. -/
theorem tellsChanges_ofSnapshots (transactionIndex : UInt32) (snapshots : Raw.Snapshots) :
    TellsChanges transactionIndex snapshots (ofSnapshots transactionIndex snapshots) ∧
      (∀ balance : Quantity, balance.toBytes.IsShortestOf balance.toNat) ∧
      ∀ nonce : UInt64, (nonceBytes nonce).IsShortestOf nonce.toNat := by
  refine ⟨?_, Quantity.isShortestOf_toBytes, ?_⟩
  · constructor
    case index => exact fun record member => (of_mem_ofSnapshots member).1
    case distinct => exact ofSnapshots_subjects_nodup
    case classified => exact fun record member => (of_mem_ofSnapshots member).2.2.2
    case prev => exact fun record member => (of_mem_ofSnapshots member).2.1
    case storage => exact foldlM_ofSnapshots transactionIndex snapshots
    case balance =>
      exact fun address => tellsField_ofSnapshots Quantity.toBytes_injective rfl rfl
    case code =>
      intro address
      refine tellsField_ofSnapshots Function.injective_id ?_ ?_
      · rw [Option.map_id_apply]
        rfl
      · rw [Option.map_id_apply]
        rfl
    case nonce => exact fun address => tellsField_ofSnapshots nonceBytes_injective rfl rfl
  · intro nonce
    rw [← toNat_nonceQuantity nonce]
    exact Quantity.isShortestOf_toBytes _

/-! ## Destroyed accounts -/

/-- The record of a slot that is cleared. -/
def cleared (transactionIndex : UInt32) (address : Address) (slot value : Hash) : StateDiff :=
  { transactionIndex, address, key := .storage slot, kind := .delete,
    prev := some value.toBytes, next := none, transaction := none }

/-- Of an account that is no longer listed only the storage is cleared. -/
theorem ofAccounts_empty (transactionIndex : UInt32) (address : Address)
    (before : Raw.Account) :
    ofAccounts transactionIndex address before .empty =
      (before.storage.getD .empty).entries.map fun entry =>
        cleared transactionIndex address entry.1 entry.2 := by
  have values : valuesOf before .empty =
      (before.storage.getD .empty).entries.map fun entry =>
        (DiffKey.storage entry.1, some entry.2.toBytes, none) :=
    List.append_nil _
  rw [ofAccounts, values, List.filterMap_map]
  exact congrFun List.filterMap_eq_map _

/-- All that is told of a destroyed account is that its slots are cleared, and what they held. -/
theorem filter_ofSnapshots_destroyed {snapshots : Raw.Snapshots} {address : Address}
    {account : Raw.Account} (transactionIndex : UInt32)
    (listed : snapshots.pre.get? address = some account)
    (destroyed : snapshots.post.contains address = false) :
    ((ofSnapshots transactionIndex snapshots).filter fun record => record.address = address) =
      (account.storage.getD .empty).entries.map fun entry =>
        cleared transactionIndex address entry.1 entry.2 := by
  rw [filter_ofSnapshots, Raw.Snapshots.before, Raw.Snapshots.after, listed,
    Table.contains_eq_false_iff.mp destroyed]
  exact ofAccounts_empty transactionIndex address account

/-- A contract with one slot. -/
def contractAccount : Raw.Account where
  balance := some 16
  code := some ⟨[96, 128]⟩
  nonce := some 1
  storage := some ⟨[(.zero 32, ⟨List.replicate 32 7, rfl⟩)], by decide⟩

/-- Snapshots of a transaction that destroys the contract. -/
def destroyedSnapshots : Raw.Snapshots where
  pre := ⟨[(.zero 20, contractAccount)], by decide⟩
  post := .empty

/-- Its slot is told as cleared, and nothing else. -/
theorem filter_ofSnapshots_destroyedSnapshots :
    destroyedSnapshots.pre.get? (.zero 20) = some contractAccount ∧
      destroyedSnapshots.post.contains (.zero 20) = false ∧
        ((ofSnapshots 0 destroyedSnapshots).filter fun record => record.address = .zero 20) =
          [cleared 0 (.zero 20) (.zero 32) ⟨List.replicate 32 7, rfl⟩] := by
  have listed : destroyedSnapshots.pre.get? (.zero 20) = some contractAccount := rfl
  have destroyed : destroyedSnapshots.post.contains (.zero 20) = false := rfl
  exact ⟨listed, destroyed, filter_ofSnapshots_destroyed 0 listed destroyed⟩

/-- Not everything that is listed about a destroyed account is told as deleted: the balance of
the contract is not. -/
theorem not_forall_deleted_destroyedSnapshots :
    ¬∀ (snapshots : Raw.Snapshots) (address : Address) (account : Raw.Account),
      snapshots.pre.get? address = some account → snapshots.post.contains address = false →
        ∀ key value, account.value? key = some value →
          ∃ record ∈ ofSnapshots 0 snapshots,
            record.subject = (address, key) ∧ record.kind = .delete ∧
              record.prev = some value := by
  intro deleted
  have balance : contractAccount.value? .balance = some ⟨[16]⟩ := by decide +kernel
  obtain ⟨record, member, isAbout, -⟩ :=
    deleted destroyedSnapshots (.zero 20) contractAccount rfl rfl .balance ⟨[16]⟩ balance
  have untold : ∀ record ∈ ofSnapshots 0 destroyedSnapshots, record.key ≠ .balance := by
    decide +kernel
  exact untold record member (congrArg Prod.snd isAbout)

end StateDiff

end ChainFeed
