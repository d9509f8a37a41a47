import ChainFeed.Proofs.RecordReading
import ChainFeed.Proofs.Snapshots

/-!
# Replays and snapshots of the same changes

Nodes tell the changes of a transaction in two ways: as a replay, which says outright what
changed, or as snapshots, which have to be compared.  Both give the same state diffs.
-/

namespace ChainFeed

/-! ## Changes -/

/-- How a field of an account changes. -/
inductive FieldChange (α : Type) where
  | unchanged
  | added (new : α)
  | changed (old new : α) (differ : old ≠ new)

/-- How a slot of an account's storage changes. -/
inductive SlotChange where
  | added (new : Hash)
  | changed (old new : Hash) (differ : old ≠ new)
  | deleted (old : Hash)

/-- How an account changes. Slots that are not listed do not. -/
structure AccountChange where
  balance : FieldChange Quantity
  code : FieldChange Bytes
  nonce : FieldChange UInt64
  storage : Table 32 SlotChange

/-- How an account changes about which nothing is said. -/
def AccountChange.unchanged : AccountChange :=
  ⟨.unchanged, .unchanged, .unchanged, .empty⟩

/-- How the accounts change. Those that are not listed do not. -/
abbrev StateChanges := Table 20 AccountChange

/-! ## Replays -/

section Replays

variable {α : Type}

/-- A change of a field as a replay writes it. -/
def FieldChange.toJson (write : α → Json) : FieldChange α → Json
  | unchanged => .str "="
  | added new => .obj [("+", write new)]
  | changed old new _ => .obj [("*", .obj [("from", write old), ("to", write new)])]

/-- A change of a slot as a replay writes it. -/
def SlotChange.toJson : SlotChange → Json
  | added new => .obj [("+", new.toJson)]
  | changed old new _ => .obj [("*", .obj [("from", old.toJson), ("to", new.toJson)])]
  | deleted old => .obj [("-", old.toJson)]

/-- The changes of an account as a replay writes them. -/
def AccountChange.toJson (change : AccountChange) : Json :=
  .obj
    [ ("balance", change.balance.toJson Quantity.toJson),
      ("code", change.code.toJson Bytes.toJson),
      ("nonce", change.nonce.toJson fun nonce => .str (hexNumeral nonce.toNat)),
      ("storage", change.storage.toJson SlotChange.toJson) ]

/-- The changes of all accounts as a replay writes them. -/
def StateChanges.toJson (changes : StateChanges) : Json :=
  Table.toJson AccountChange.toJson changes

/-- A change of a field with its values as data. -/
def FieldChange.image (data : α → Bytes) : FieldChange α → Raw.Change
  | unchanged => .same
  | added new => .added (data new)
  | changed old new _ => .changed (data old) (data new)

/-- A change of a slot with its values as data. -/
def SlotChange.image : SlotChange → Raw.Change
  | added new => .added new.toBytes
  | changed old new _ => .changed old.toBytes new.toBytes
  | deleted old => .removed old.toBytes

/-- The changes of an account with all values as data. -/
def AccountChange.image (change : AccountChange) : Raw.AccountChanges where
  balance := change.balance.image Quantity.toBytes
  code := change.code.image id
  nonce := change.nonce.image StateDiff.nonceBytes
  storage := change.storage.map SlotChange.image

namespace Raw.Change

open Json

variable {document other : Json} {value bytes : Bytes}

theorem ofJson?_added (reads : unpaddedBytes? document = some value) :
    ofJson? (.obj [("+", document)]) = some (added value) := by
  change (unpaddedBytes? document).map added = _
  rw [reads, Option.map_some]

theorem ofJson?_removed (reads : unpaddedBytes? document = some value) :
    ofJson? (.obj [("-", document)]) = some (removed value) := by
  change (unpaddedBytes? document).map removed = _
  rw [reads, Option.map_some]

theorem ofJson?_changed (readsOld : unpaddedBytes? document = some value)
    (readsNew : unpaddedBytes? other = some bytes) :
    ofJson? (.obj [("*", .obj [("from", document), ("to", other)])]) =
      some (changed value bytes) := by
  change pair? (.obj [("from", document), ("to", other)]) = _
  apply Reads.record_eq
  refine (Reads.required ?_ readsOld).bind ((Reads.required ?_ readsNew).bind (.pure _)) <;> simp

end Raw.Change

variable {write : α → Json} {data : α → Bytes}

/-- A change of a field is read from what a replay writes if its values are. -/
theorem FieldChange.ofJson?_toJson
    (reads : ∀ value, Json.unpaddedBytes? (write value) = some (data value))
    (change : FieldChange α) :
    Raw.Change.ofJson? (change.toJson write) = some (change.image data) := by
  cases change with
  | unchanged => rfl
  | added new => exact Raw.Change.ofJson?_added (reads new)
  | changed old new _ => exact Raw.Change.ofJson?_changed (reads old) (reads new)

theorem SlotChange.ofJson?_toJson (change : SlotChange) :
    Raw.Change.ofJson? change.toJson = some change.image := by
  have reads (word : Hash) : Json.unpaddedBytes? word.toJson = some word.toBytes :=
    word.toBytes.ofUnpadded?_text
  cases change with
  | added new => exact Raw.Change.ofJson?_added (reads new)
  | changed old new _ => exact Raw.Change.ofJson?_changed (reads old) (reads new)
  | deleted old => exact Raw.Change.ofJson?_removed (reads old)

theorem AccountChange.ofJson?_toJson (change : AccountChange) :
    Raw.AccountChanges.ofJson? change.toJson = some change.image := by
  have balance : Raw.Change.ofJson? (change.balance.toJson Quantity.toJson) =
      some (change.balance.image Quantity.toBytes) :=
    FieldChange.ofJson?_toJson Quantity.ofUnpadded?_text change.balance
  have code : Raw.Change.ofJson? (change.code.toJson Bytes.toJson) =
      some (change.code.image id) :=
    FieldChange.ofJson?_toJson Bytes.ofUnpadded?_text change.code
  have nonce : Raw.Change.ofJson?
        (change.nonce.toJson fun nonce => .str (hexNumeral nonce.toNat)) =
      some (change.nonce.image StateDiff.nonceBytes) := by
    apply FieldChange.ofJson?_toJson
    intro nonce
    rw [← StateDiff.toNat_nonceQuantity]
    exact Quantity.ofUnpadded?_text _
  have storage : Json.table? Raw.Change.ofJson? (change.storage.toJson SlotChange.toJson) =
      some (change.storage.map SlotChange.image) :=
    Json.table?_toJson SlotChange.ofJson?_toJson change.storage
  apply Json.Reads.record_eq
  refine (Json.Reads.required ?_ balance).bind <| (Json.Reads.required ?_ code).bind <|
    (Json.Reads.required ?_ nonce).bind <| (Json.Reads.required ?_ storage).bind (.pure _) <;> simp

/-- What a replay writes is read. -/
theorem StateChanges.table?_toJson (changes : StateChanges) :
    Json.table? Raw.AccountChanges.ofJson? changes.toJson =
      some (changes.map AccountChange.image) :=
  Json.table?_toJson AccountChange.ofJson?_toJson changes

end Replays

/-! ## Snapshots -/

section Snapshots

variable {α : Type}

/-- Whether the values listed before and after show a change of a field. A field that does
not change may be listed before, but not after. -/
def FieldChange.ShownBy (before after : Option α) : FieldChange α → Prop
  | unchanged => after = none
  | added new => before = none ∧ after = some new
  | changed old new _ => before = some old ∧ after = some new

instance [DecidableEq α] (before after : Option α) :
    (change : FieldChange α) → Decidable (change.ShownBy before after)
  | .unchanged => inferInstanceAs (Decidable (after = none))
  | .added new => inferInstanceAs (Decidable (before = none ∧ after = some new))
  | .changed old new _ => inferInstanceAs (Decidable (before = some old ∧ after = some new))

/-- Whether the values listed before and after show how a slot changes, if it does. -/
def SlotChange.ShownBy (before after : Option Hash) : Option SlotChange → Prop
  | none => before = none ∧ after = none
  | some (added new) => before = none ∧ after = some new
  | some (changed old new _) => before = some old ∧ after = some new
  | some (deleted old) => before = some old ∧ after = none

instance (before after : Option Hash) :
    (change : Option SlotChange) → Decidable (SlotChange.ShownBy before after change)
  | none => inferInstanceAs (Decidable (before = none ∧ after = none))
  | some (.added new) => inferInstanceAs (Decidable (before = none ∧ after = some new))
  | some (.changed old new _) =>
      inferInstanceAs (Decidable (before = some old ∧ after = some new))
  | some (.deleted old) => inferInstanceAs (Decidable (before = some old ∧ after = none))

/-- Whether what is listed about an account before and after shows how it changes. -/
structure AccountChange.ShownBy (before after : Raw.Account) (change : AccountChange) : Prop where
  balance : change.balance.ShownBy before.balance after.balance
  code : change.code.ShownBy before.code after.code
  nonce : change.nonce.ShownBy before.nonce after.nonce
  storage : ∀ slot, SlotChange.ShownBy ((before.storage.getD .empty).get? slot)
    ((after.storage.getD .empty).get? slot) (change.storage.get? slot)

instance (before after : Raw.Account) (change : AccountChange) :
    Decidable (change.ShownBy before after) :=
  have slots := @Table.forall_get?_iff _ _ _ _
    (fun change before after => SlotChange.ShownBy before after change) ⟨rfl, rfl⟩
    change.storage (before.storage.getD .empty) (after.storage.getD .empty)
  have := decidable_of_iff _ slots
  decidable_of_iff
    (change.balance.ShownBy before.balance after.balance ∧
      change.code.ShownBy before.code after.code ∧
      change.nonce.ShownBy before.nonce after.nonce ∧
      ∀ slot, SlotChange.ShownBy ((before.storage.getD .empty).get? slot)
        ((after.storage.getD .empty).get? slot) (change.storage.get? slot))
    ⟨fun ⟨balance, code, nonce, storage⟩ => ⟨balance, code, nonce, storage⟩,
      fun ⟨balance, code, nonce, storage⟩ => ⟨balance, code, nonce, storage⟩⟩

/-- How an account changes, listed or not. -/
def StateChanges.at (changes : StateChanges) (address : Address) : AccountChange :=
  (changes.get? address).getD .unchanged

/-- Whether snapshots show how the accounts change. An account of which they have nothing to
show may be listed or not. -/
def StateChanges.ShownBy (snapshots : Raw.Snapshots) (changes : StateChanges) : Prop :=
  ∀ address, (changes.at address).ShownBy (snapshots.before address) (snapshots.after address)

theorem AccountChange.shownBy_unchanged :
    AccountChange.unchanged.ShownBy .empty .empty :=
  ⟨rfl, rfl, rfl, fun _ => ⟨rfl, rfl⟩⟩

instance (snapshots : Raw.Snapshots) (changes : StateChanges) :
    Decidable (changes.ShownBy snapshots) :=
  decidable_of_iff _ <| @Table.forall_get?_iff _ _ _ _
    (fun change before after =>
      (change.getD .unchanged).ShownBy (before.getD .empty) (after.getD .empty))
    AccountChange.shownBy_unchanged changes snapshots.pre snapshots.post

end Snapshots

namespace StateDiff

variable {transactionIndex : UInt32} {address : Address} {key : DiffKey}

theorem between?_of_field {α : Type} {data : α → Bytes} (injective : Function.Injective data)
    {change : FieldChange α} {before after : Option α} (shown : change.ShownBy before after) :
    (if (after.map data).isSome = true then
      between? transactionIndex address key (before.map data) (after.map data) else none) =
      ofChange? transactionIndex address key (change.image data) := by
  cases change with
  | unchanged =>
      obtain rfl : after = none := shown
      rfl
  | added new =>
      obtain ⟨rfl, rfl⟩ := shown
      rfl
  | changed old new differ =>
      obtain ⟨rfl, rfl⟩ := shown
      have different : data old ≠ data new := fun same => differ (injective same)
      simp [between?, FieldChange.image, ofChange?, different]

theorem between?_of_slot {change : Option SlotChange} {before after : Option Hash}
    (shown : SlotChange.ShownBy before after change) :
    between? transactionIndex address key (before.map FixedBytes.toBytes)
        (after.map FixedBytes.toBytes) =
      (change.map SlotChange.image).bind (ofChange? transactionIndex address key) := by
  cases change with
  | none =>
      obtain ⟨rfl, rfl⟩ := shown
      rfl
  | some change =>
      cases change with
      | added new =>
          obtain ⟨rfl, rfl⟩ := shown
          rfl
      | changed old new differ =>
          obtain ⟨rfl, rfl⟩ := shown
          have different : old.toBytes ≠ new.toBytes := fun same =>
            differ (FixedBytes.toBytes_injective same)
          simp [between?, SlotChange.image, ofChange?, different]
      | deleted old =>
          obtain ⟨rfl, rfl⟩ := shown
          rfl

/-- What two listed accounts say about a value is what the replay says. -/
theorem ofValue?_eq {change : AccountChange} {before after : Raw.Account}
    (shown : change.ShownBy before after) :
    ofValue? transactionIndex address before after key =
      (change.image.change? key).bind (ofChange? transactionIndex address key) := by
  cases key with
  | balance =>
      simp only [ofValue?, DiffKey.isStorage, Bool.false_eq_true, false_or]
      exact between?_of_field Quantity.toBytes_injective shown.balance
  | code =>
      have field := @between?_of_field transactionIndex address .code _ _ Function.injective_id
        _ _ _ shown.code
      simp only [Option.map_id_fun, id] at field
      simp only [ofValue?, DiffKey.isStorage, Bool.false_eq_true, false_or]
      exact field
  | nonce =>
      simp only [ofValue?, DiffKey.isStorage, Bool.false_eq_true, false_or]
      exact between?_of_field nonceBytes_injective shown.nonce
  | storage slot =>
      simp only [ofValue?, DiffKey.isStorage, true_or, if_true]
      rw [Raw.AccountChanges.change?, AccountChange.image, Table.get?_map]
      exact between?_of_slot (shown.storage slot)

/-- Nothing is said about an account that does not change. -/
theorem change?_unchanged :
    (AccountChange.unchanged.image.change? key).bind
      (ofChange? transactionIndex address key) = none := by
  cases key <;> rfl

end StateDiff

/-- The state diffs of a replay and of snapshots of the same changes are the same, whatever
changes there are. -/
theorem StateChanges.ofReplay_perm_ofSnapshots (transactionIndex : UInt32)
    {changes : StateChanges} {snapshots : Raw.Snapshots} (shown : changes.ShownBy snapshots) :
    ∃ accounts, Json.table? Raw.AccountChanges.ofJson? changes.toJson = some accounts ∧
      (StateDiff.ofReplay transactionIndex accounts).Perm
        (StateDiff.ofSnapshots transactionIndex snapshots) := by
  refine ⟨_, changes.table?_toJson, ?_⟩
  rw [List.perm_ext_iff_of_nodup StateDiff.ofReplay_subjects_nodup.of_map
    StateDiff.ofSnapshots_subjects_nodup.of_map]
  intro record
  rw [StateDiff.mem_ofReplay, StateDiff.mem_ofSnapshots]
  apply exists_congr
  intro address
  simp only [StateDiff.ofValue?_eq (shown address), Table.get?_map, StateChanges.at]
  cases changes.get? address with
  | none => simp [StateDiff.change?_unchanged]
  | some change => simp [Option.bind_eq_some_iff]

/-- All bytes one. -/
def FixedBytes.ones (width : Nat) : FixedBytes width :=
  ⟨List.replicate width 1, List.length_replicate⟩

/-- An account that changes in all ways, and one that is new. -/
def mixedChanges : StateChanges where
  entries :=
    [ (.zero 20,
        { balance := .changed 16 8 (by decide), code := .added ⟨[96, 128]⟩, nonce := .unchanged
          storage :=
            ⟨[(.zero 32, .changed (.zero 32) (.ones 32) (by decide)),
              (.ones 32, .deleted (.ones 32))], by decide⟩ }),
      (.ones 20, { AccountChange.unchanged with nonce := .added 0 }) ]
  ascending := by decide

/-- Snapshots of these changes. The nonce of the first account is listed, but unchanged. -/
def mixedSnapshots : Raw.Snapshots where
  pre :=
    ⟨[(.zero 20,
        { balance := some 16, code := none, nonce := some 4
          storage := some ⟨[(.zero 32, .zero 32), (.ones 32, .ones 32)], by decide⟩ })],
      by decide⟩
  post :=
    ⟨[(.zero 20,
        { balance := some 8, code := some ⟨[96, 128]⟩, nonce := none
          storage := some ⟨[(.zero 32, .ones 32)], by decide⟩ }),
      (.ones 20, { Raw.Account.empty with nonce := some 0 })], by decide⟩

/-- Both tell five changes, of all kinds. -/
theorem StateChanges.ofReplay_perm_mixedSnapshots :
    mixedChanges.ShownBy mixedSnapshots ∧
      (∃ accounts, Json.table? Raw.AccountChanges.ofJson? mixedChanges.toJson = some accounts ∧
        (StateDiff.ofReplay 3 accounts).Perm (StateDiff.ofSnapshots 3 mixedSnapshots)) ∧
      (StateDiff.ofSnapshots 3 mixedSnapshots).map (fun record => (record.key, record.kind)) =
        [ (.code, .add), (.balance, .change), (.storage (.zero 32), .change),
          (.storage (.ones 32), .delete), (.nonce, .add) ] := by
  have shown : mixedChanges.ShownBy mixedSnapshots := by decide +kernel
  exact ⟨shown, ofReplay_perm_ofSnapshots 3 shown, by decide +kernel⟩

end ChainFeed
