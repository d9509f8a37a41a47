import ChainFeed.Projection.StateDiff
import ChainFeed.Proofs.HexNumerals
import ChainFeed.Proofs.Positions
import ChainFeed.Proofs.Tables
import Mathlib.Data.List.Nodup

/-!
# State diffs value by value

A state diff is about one value of one account.  Whether there is one, and what it says,
follows from what the snapshots, or the replay, list about that value.
-/

namespace ChainFeed

/-! ## Listed values -/

theorem FixedBytes.toBytes_injective {width : Nat} : Function.Injective (@toBytes width) :=
  fun _ _ same => ext_toList (congrArg Bytes.toList same)

theorem StateDiff.toNat_nonceQuantity (nonce : UInt64) :
    (BitVec.ofNat 256 nonce.toNat).toNat = nonce.toNat := by
  rw [BitVec.toNat_ofNat]
  exact Nat.mod_eq_of_lt (Nat.lt_trans nonce.toNat_lt (by decide))

theorem StateDiff.nonceBytes_injective : Function.Injective nonceBytes := by
  intro left right same
  apply UInt64.toNat_inj.mp
  rw [← toNat_nonceQuantity left, Quantity.toBytes_injective same, toNat_nonceQuantity]

namespace Raw

/-- What a snapshot lists about a value of an account, as data. -/
def Account.value? (account : Account) : DiffKey → Option Bytes
  | .balance => account.balance.map Quantity.toBytes
  | .code => account.code
  | .nonce => account.nonce.map StateDiff.nonceBytes
  | .storage slot => ((account.storage.getD .empty).get? slot).map FixedBytes.toBytes

@[simp] theorem Account.value?_empty (key : DiffKey) : empty.value? key = none := by
  cases key <;> rfl

namespace Snapshots

variable (snapshots : Snapshots)

/-- What is listed about an account before; nothing if it is not listed. -/
def before (address : Address) : Account :=
  (snapshots.pre.get? address).getD .empty

/-- What is listed about an account after; nothing if it is not listed. -/
def after (address : Address) : Account :=
  (snapshots.post.get? address).getD .empty

/-- The listed accounts: those listed before, and then those listed only after. -/
def addresses : List Address :=
  snapshots.pre.jointKeys snapshots.post

variable {snapshots} in
theorem eq_empty_of_unlisted {address : Address} (unlisted : address ∉ snapshots.addresses) :
    snapshots.before address = .empty ∧ snapshots.after address = .empty := by
  rw [addresses, Table.mem_jointKeys, not_or, Bool.not_eq_true, Bool.not_eq_true,
    Table.contains_eq_false_iff, Table.contains_eq_false_iff] at unlisted
  rw [before, after, unlisted.1, unlisted.2]
  exact ⟨rfl, rfl⟩

end Snapshots

/-- What a replay says about a value of an account. -/
def AccountChanges.change? (changes : AccountChanges) : DiffKey → Option Change
  | .balance => some changes.balance
  | .code => some changes.code
  | .nonce => some changes.nonce
  | .storage slot => changes.storage.get? slot

end Raw

namespace StateDiff

/-! ## Records of one account -/

/-- The state diff of one value of an account. A field of the account counts only if it is
listed after. -/
def ofValue? (transactionIndex : UInt32) (address : Address) (before after : Raw.Account)
    (key : DiffKey) : Option StateDiff :=
  if key.isStorage = true ∨ (after.value? key).isSome = true then
    between? transactionIndex address key (before.value? key) (after.value? key)
  else
    none

variable {transactionIndex : UInt32} {address : Address} {key : DiffKey}
  {before after : Raw.Account} {record : StateDiff}

/-- A record tells what it is about. -/
theorem of_between?_eq_some {prev next : Option Bytes}
    (isRecord : between? transactionIndex address key prev next = some record) :
    record.address = address ∧ record.key = key := by
  obtain ⟨kind, _, rfl⟩ := Option.map_eq_some_iff.mp isRecord
  exact ⟨rfl, rfl⟩

/-- A field counts if it is listed after. -/
theorem exists_field_iff {α : Type} {write : α → Bytes} {old new : Option α}
    {prev next : Option Bytes} :
    (∃ value, new = some value ∧ old.map write = prev ∧ some (write value) = next) ↔
      old.map write = prev ∧ new.map write = next ∧ next.isSome = true := by
  cases new with
  | none =>
      simp only [Option.map_none, reduceCtorEq, false_and, exists_false, false_iff]
      rintro ⟨_, rfl, isSome⟩
      cases isSome
  | some value =>
      simp only [Option.map_some, Option.some.injEq, exists_eq_left']
      constructor
      · rintro ⟨same, rfl⟩
        exact ⟨same, rfl, rfl⟩
      · rintro ⟨same, rfl, _⟩
        exact ⟨same, rfl⟩

/-- A slot counts if it is listed before, or after and not before. -/
theorem exists_slot_iff {old new : Table 32 Hash} {slot : Hash} {prev next : Option Bytes} :
    (∃ value, old.get? slot = some value ∧ some value.toBytes = prev ∧
        (new.get? slot).map FixedBytes.toBytes = next) ∨
      (∃ value, new.get? slot = some value ∧ old.contains slot = false ∧ none = prev ∧
        some value.toBytes = next) ↔
    (old.get? slot).map FixedBytes.toBytes = prev ∧
      (new.get? slot).map FixedBytes.toBytes = next ∧
        (next.isSome = true ∨ prev.isSome = true) := by
  rw [Table.contains]
  cases old.get? slot with
  | none =>
      constructor
      · rintro (⟨_, found, _⟩ | ⟨value, found, _, rfl, rfl⟩)
        · cases found
        · rw [found]
          exact ⟨rfl, rfl, .inl rfl⟩
      · rintro ⟨rfl, rfl, isSome⟩
        obtain ⟨value, found⟩ : ∃ value, new.get? slot = some value := by
          simpa [Option.isSome_iff_exists] using isSome
        rw [found]
        exact .inr ⟨value, rfl, rfl, rfl, rfl⟩
  | some value =>
      constructor
      · rintro (⟨_, found, rfl, rfl⟩ | ⟨_, _, unlisted, _⟩)
        · cases found
          exact ⟨rfl, rfl, .inr rfl⟩
        · cases unlisted
      · rintro ⟨rfl, rfl, _⟩
        exact .inl ⟨value, rfl, rfl, rfl⟩

/-- What is compared are the values listed before and after, unless neither is. -/
theorem mem_valuesOf {prev next : Option Bytes} :
    (key, prev, next) ∈ valuesOf before after ↔
      before.value? key = prev ∧ after.value? key = next ∧
        (next.isSome = true ∨ key.isStorage = true ∧ prev.isSome = true) := by
  cases key with
  | balance =>
      rw [Raw.Account.value?, Raw.Account.value?]
      simp [valuesOf, DiffKey.isStorage, ← exists_field_iff]
  | code =>
      have field := @exists_field_iff _ id before.code after.code prev next
      simp only [Option.map_id_fun, id] at field
      rw [Raw.Account.value?, Raw.Account.value?]
      simp [valuesOf, DiffKey.isStorage, ← field]
  | nonce =>
      rw [Raw.Account.value?, Raw.Account.value?]
      simp [valuesOf, DiffKey.isStorage, ← exists_field_iff]
  | storage slot =>
      rw [Raw.Account.value?, Raw.Account.value?]
      simp only [DiffKey.isStorage, true_and, ← exists_slot_iff, Table.get?_eq_some_iff]
      simp only [valuesOf, List.append_assoc, List.mem_append, Option.mem_toList,
        Option.map_eq_some_iff, Prod.mk.injEq, reduceCtorEq, false_and, and_false, exists_const,
        List.mem_map, DiffKey.storage.injEq, Prod.exists, List.mem_filter, Bool.not_eq_eq_eq_not,
        Bool.not_true, false_or]
      apply or_congr
      · constructor
        · rintro ⟨_, value, member, rfl, same⟩
          exact ⟨value, member, same⟩
        · rintro ⟨value, member, same⟩
          exact ⟨slot, value, member, rfl, same⟩
      · constructor
        · rintro ⟨_, value, ⟨member, unlisted⟩, rfl, same⟩
          exact ⟨value, member, unlisted, same⟩
        · rintro ⟨value, member, unlisted, same⟩
          exact ⟨slot, value, ⟨member, unlisted⟩, rfl, same⟩

theorem valuesOf_nodup : ((valuesOf before after).map Prod.fst).Nodup := by
  have keys : (valuesOf before after).map Prod.fst =
      ((after.code.map fun _ => DiffKey.code).toList ++
        (after.balance.map fun _ => DiffKey.balance).toList ++
        (after.nonce.map fun _ => DiffKey.nonce).toList) ++
      ((before.storage.getD .empty).jointKeys (after.storage.getD .empty)).map DiffKey.storage := by
    have listed {α β : Type} (field : Option α) (entry : α → DiffKey × β) (key : DiffKey)
        (about : ∀ value, (entry value).1 = key) :
        (field.map entry).toList.map Prod.fst = (field.map fun _ => key).toList := by
      cases field <;> simp [about]
    simp only [valuesOf, List.map_append, Table.jointKeys, List.map_map]
    rw [listed after.code _ .code fun _ => rfl, listed after.balance _ .balance fun _ => rfl,
      listed after.nonce _ .nonce fun _ => rfl, List.append_assoc]
    rfl
  rw [keys, List.nodup_append]
  refine ⟨?_, ?_, ?_⟩
  · cases after.code <;> cases after.balance <;> cases after.nonce <;> simp
  · exact List.Nodup.map (fun _ _ => DiffKey.storage.inj) (Table.jointKeys_nodup _ _)
  · intro field isField key isSlot same
    obtain ⟨slot, _, rfl⟩ := List.mem_map.mp isSlot
    simp [same] at isField

/-- What an account's state diffs are: those of its values. -/
theorem mem_ofAccounts :
    record ∈ ofAccounts transactionIndex address before after ↔
      ∃ key, ofValue? transactionIndex address before after key = some record := by
  have nothing (key : DiffKey) : between? transactionIndex address key none none = none := rfl
  rw [ofAccounts, List.mem_filterMap]
  constructor
  · rintro ⟨⟨key, prev, next⟩, member, isRecord⟩
    obtain ⟨rfl, rfl, listed⟩ := mem_valuesOf.mp member
    exact ⟨key, (if_pos (listed.symm.imp_left And.left)).trans isRecord⟩
  · rintro ⟨key, isRecord⟩
    rw [ofValue?, Option.ite_none_right_eq_some] at isRecord
    obtain ⟨counts, isRecord⟩ := isRecord
    refine ⟨(key, before.value? key, after.value? key), mem_valuesOf.mpr ⟨rfl, rfl, ?_⟩, isRecord⟩
    rcases counts with isSlot | listedAfter
    · cases old : before.value? key with
      | some _ => exact .inr ⟨isSlot, rfl⟩
      | none =>
          cases new : after.value? key with
          | some _ => exact .inl rfl
          | none =>
              rw [old, new, nothing] at isRecord
              cases isRecord
    · exact .inl listedAfter

theorem address_of_mem_ofAccounts
    (member : record ∈ ofAccounts transactionIndex address before after) :
    record.address = address := by
  obtain ⟨_, _, isRecord⟩ := List.mem_filterMap.mp member
  exact (of_between?_eq_some isRecord).1

/-- No two state diffs are about the same value of an account. -/
theorem ofAccounts_distinct :
    (ofAccounts transactionIndex address before after).Pairwise fun left right =>
      left.key ≠ right.key := by
  rw [ofAccounts, List.pairwise_filterMap]
  have distinct := @valuesOf_nodup before after
  rw [List.Nodup, List.pairwise_map] at distinct
  refine distinct.imp ?_
  intro left right different first isFirst second isSecond
  rw [(of_between?_eq_some isFirst).2, (of_between?_eq_some isSecond).2]
  exact different

/-! ## Records of all accounts -/

/-- What a record is about. -/
def subject (record : StateDiff) : Address × DiffKey := (record.address, record.key)

/-- Records of different accounts are about different values. -/
theorem subjects_nodup {α : Type} {accounts : List α} {place : α → Address}
    {records : α → List StateDiff} (distinct : (accounts.map place).Nodup)
    (about : ∀ account, ∀ record ∈ records account, record.address = place account)
    (each : ∀ account, (records account).Pairwise fun left right => left.key ≠ right.key) :
    ((accounts.flatMap records).map subject).Nodup := by
  rw [List.Nodup, List.pairwise_map] at distinct ⊢
  rw [List.pairwise_flatMap]
  constructor
  · intro account _
    refine (each account).imp ?_
    intro left right different same
    exact different (congrArg Prod.snd same)
  · refine distinct.imp ?_
    intro account other different left leftMember right rightMember same
    apply different
    rw [← about account left leftMember, ← about other right rightMember]
    exact congrArg Prod.fst same

section Snapshots

variable {snapshots : Raw.Snapshots}

/-- The listed accounts are handled one after another, all in the same way. -/
theorem ofSnapshots_eq (transactionIndex : UInt32) (snapshots : Raw.Snapshots) :
    ofSnapshots transactionIndex snapshots =
      snapshots.addresses.flatMap fun address =>
        ofAccounts transactionIndex address (snapshots.before address)
          (snapshots.after address) := by
  rw [ofSnapshots, Raw.Snapshots.addresses, Table.jointKeys, List.flatMap_append,
    List.flatMap_map, List.flatMap_map]
  congr 1
  · refine List.flatMap_congr ?_
    rintro ⟨address, listed⟩ member
    have found := Table.get?_eq_some_iff.mpr member
    simp only [Raw.Snapshots.before, Raw.Snapshots.after, found, Option.getD_some]
  · refine List.flatMap_congr ?_
    rintro ⟨address, listed⟩ member
    obtain ⟨member, isNew⟩ := List.mem_filter.mp member
    have found := Table.get?_eq_some_iff.mpr member
    have notFound := Table.contains_eq_false_iff.mp (by simpa using isNew)
    simp only [Raw.Snapshots.before, Raw.Snapshots.after, found, notFound, Option.getD_some,
      Option.getD_none]

/-- An account about which nothing is listed has no state diffs. -/
theorem ofValue?_empty :
    ofValue? transactionIndex address .empty .empty key = none := by
  rw [ofValue?, Raw.Account.value?_empty]
  exact ite_self none

/-- Those about one account follow from what is listed about it. -/
theorem filter_ofSnapshots (transactionIndex : UInt32) (snapshots : Raw.Snapshots)
    (address : Address) :
    ((ofSnapshots transactionIndex snapshots).filter fun record => record.address = address) =
      ofAccounts transactionIndex address (snapshots.before address)
        (snapshots.after address) := by
  rw [ofSnapshots_eq]
  by_cases listed : address ∈ snapshots.addresses
  · apply filter_flatMap_eq (Table.jointKeys_nodup _ _) listed
    intro other _ record member
    rw [decide_eq_true_eq, address_of_mem_ofAccounts member]
  · have nothing : ofAccounts transactionIndex address .empty .empty = [] := rfl
    obtain ⟨before, after⟩ := Raw.Snapshots.eq_empty_of_unlisted listed
    rw [before, after, nothing, List.filter_eq_nil_iff]
    intro record member isAbout
    obtain ⟨other, isListed, member⟩ := List.mem_flatMap.mp member
    rw [decide_eq_true_eq, address_of_mem_ofAccounts member] at isAbout
    exact listed (isAbout ▸ isListed)

/-- What the state diffs of two snapshots are. -/
theorem mem_ofSnapshots :
    record ∈ ofSnapshots transactionIndex snapshots ↔
      ∃ address key, ofValue? transactionIndex address (snapshots.before address)
        (snapshots.after address) key = some record := by
  simp only [ofSnapshots_eq, List.mem_flatMap, mem_ofAccounts]
  constructor
  · rintro ⟨address, _, isRecord⟩
    exact ⟨address, isRecord⟩
  · rintro ⟨address, key, isRecord⟩
    refine ⟨address, ?_, key, isRecord⟩
    by_contra unlisted
    obtain ⟨before, after⟩ := Raw.Snapshots.eq_empty_of_unlisted unlisted
    rw [before, after, ofValue?_empty] at isRecord
    cases isRecord

/-- No two state diffs of two snapshots are about the same value. -/
theorem ofSnapshots_subjects_nodup :
    ((ofSnapshots transactionIndex snapshots).map subject).Nodup := by
  rw [ofSnapshots_eq]
  have distinct : (snapshots.addresses.map id).Nodup := by
    rw [List.map_id]
    exact Table.jointKeys_nodup _ _
  apply subjects_nodup distinct
  · exact fun _ _ => address_of_mem_ofAccounts
  · exact fun _ => ofAccounts_distinct

end Snapshots

section Replay

variable {accounts : Table 20 Raw.AccountChanges} {changes : Raw.AccountChanges}
  {change : Raw.Change}

theorem mem_changesOf :
    (key, change) ∈ changesOf changes ↔ changes.change? key = some change := by
  cases key with
  | balance => simp [changesOf, Raw.AccountChanges.change?, eq_comm]
  | code => simp [changesOf, Raw.AccountChanges.change?, eq_comm]
  | nonce => simp [changesOf, Raw.AccountChanges.change?, eq_comm]
  | storage slot => simp [changesOf, Raw.AccountChanges.change?, Table.get?_eq_some_iff]

theorem changesOf_nodup : ((changesOf changes).map Prod.fst).Nodup := by
  have slots : (changes.storage.entries.map fun entry => DiffKey.storage entry.1).Nodup := by
    have distinct := List.Nodup.map (fun _ _ => DiffKey.storage.inj) changes.storage.keys_nodup
    rwa [List.map_map] at distinct
  simpa [changesOf, Function.comp_def] using slots

theorem of_ofChange?_eq_some
    (isRecord : ofChange? transactionIndex address key change = some record) :
    record.address = address ∧ record.key = key := by
  cases change <;> cases isRecord <;> exact ⟨rfl, rfl⟩

/-- What the state diffs of a replay are. -/
theorem mem_ofReplay :
    record ∈ ofReplay transactionIndex accounts ↔
      ∃ address changes, accounts.get? address = some changes ∧
        ∃ key change, changes.change? key = some change ∧
          ofChange? transactionIndex address key change = some record := by
  simp only [ofReplay, List.mem_flatMap, List.mem_filterMap, Prod.exists, mem_changesOf,
    Table.get?_eq_some_iff]

/-- No two state diffs of a replay are about the same value. -/
theorem ofReplay_subjects_nodup :
    ((ofReplay transactionIndex accounts).map subject).Nodup := by
  apply subjects_nodup accounts.keys_nodup
  · rintro ⟨address, changes⟩ record member
    obtain ⟨_, _, isRecord⟩ := List.mem_filterMap.mp member
    exact (of_ofChange?_eq_some isRecord).1
  · rintro ⟨address, changes⟩
    rw [List.pairwise_filterMap]
    have distinct := @changesOf_nodup changes
    rw [List.Nodup, List.pairwise_map] at distinct
    refine distinct.imp ?_
    intro left right different first isFirst second isSecond
    rw [(of_ofChange?_eq_some isFirst).2, (of_ofChange?_eq_some isSecond).2]
    exact different

end Replay

end StateDiff

end ChainFeed
