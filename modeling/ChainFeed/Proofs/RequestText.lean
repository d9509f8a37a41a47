import ChainFeed.Archive
import ChainFeed.Proofs.HexText
import ChainFeed.Proofs.JsonText
import ChainFeed.Proofs.RecordReading

/-!
# Requests and selections read back

Requests and selections of properties are what an archive is asked with.  Each is read
back from its document, and its document from the text that is sent.
-/

namespace ChainFeed

open Json

/-! ## Values -/

theorem Json.word64?_int (word : UInt64) : word64? (int word.toNat) = some word := by
  have below : (word.toNat : Int) < UInt64.size := by
    exact_mod_cast word.toNat_lt
  rw [word64?, natBelow?, if_pos ⟨Int.natCast_nonneg _, below⟩]
  simp

theorem StateDiffEntry.key?_text (key : DiffKey) : key? (str key.text) = some key :=
  key.ofText?_text

theorem TraceKind.choice?_name (kind : TraceKind) :
    choice? byName (str kind.name) = some kind := by
  cases kind <;> rfl

theorem DiffKind.choice?_sign (kind : DiffKind) :
    choice? bySign (str kind.sign) = some kind := by
  cases kind <;> rfl

/-! ## Entries -/

theorem LogEntry.ofJson?_toJson (entry : LogEntry) : ofJson? entry.toJson = some entry := by
  apply Reads.objectRecord_eq
  refine (Reads.values entry.address (by simp [valuesMember, flags]) word?_toJson).bind ?_
  refine (Reads.values entry.topic0 (by simp [valuesMember, flags]) word?_toJson).bind ?_
  refine (Reads.values entry.topic1 (by simp [valuesMember, flags]) word?_toJson).bind ?_
  refine (Reads.values entry.topic2 (by simp [valuesMember, flags]) word?_toJson).bind ?_
  refine (Reads.values entry.topic3 (by simp [valuesMember, flags]) word?_toJson).bind ?_
  refine (Reads.flag entry.pulls.transaction (by simp [valuesMember, flags])).bind ?_
  refine (Reads.flag entry.pulls.transactionLogs (by simp [valuesMember, flags])).bind ?_
  refine (Reads.flag entry.pulls.transactionTraces (by simp [valuesMember, flags])).bind ?_
  refine (Reads.flag entry.pulls.transactionStateDiffs (by simp [valuesMember, flags])).bind ?_
  exact .pure entry

theorem TransactionEntry.ofJson?_toJson (entry : TransactionEntry) :
    ofJson? entry.toJson = some entry := by
  apply Reads.objectRecord_eq
  refine (Reads.values entry.recipient (by simp [valuesMember, flags]) word?_toJson).bind ?_
  refine (Reads.values entry.sender (by simp [valuesMember, flags]) word?_toJson).bind ?_
  refine (Reads.values entry.sighash (by simp [valuesMember, flags]) bytes?_toJson).bind ?_
  refine (Reads.values entry.type (by simp [valuesMember, flags]) word64?_int).bind ?_
  refine (Reads.flag entry.pulls.logs (by simp [valuesMember, flags])).bind ?_
  refine (Reads.flag entry.pulls.traces (by simp [valuesMember, flags])).bind ?_
  refine (Reads.flag entry.pulls.stateDiffs (by simp [valuesMember, flags])).bind ?_
  exact .pure entry

theorem TraceEntry.ofJson?_toJson (entry : TraceEntry) : ofJson? entry.toJson = some entry := by
  apply Reads.objectRecord_eq
  refine (Reads.values entry.kind (by simp [valuesMember, flags]) TraceKind.choice?_name).bind ?_
  refine (Reads.values entry.createFrom (by simp [valuesMember, flags]) word?_toJson).bind ?_
  refine (Reads.values entry.callTo (by simp [valuesMember, flags]) word?_toJson).bind ?_
  refine (Reads.values entry.callFrom (by simp [valuesMember, flags]) word?_toJson).bind ?_
  refine (Reads.values entry.callSighash (by simp [valuesMember, flags]) bytes?_toJson).bind ?_
  refine (Reads.values entry.suicideRefundAddress (by simp [valuesMember, flags])
    word?_toJson).bind ?_
  refine (Reads.values entry.rewardAuthor (by simp [valuesMember, flags]) word?_toJson).bind ?_
  refine (Reads.flag entry.pulls.transaction (by simp [valuesMember, flags])).bind ?_
  refine (Reads.flag entry.pulls.transactionLogs (by simp [valuesMember, flags])).bind ?_
  refine (Reads.flag entry.pulls.subtraces (by simp [valuesMember, flags])).bind ?_
  refine (Reads.flag entry.pulls.parents (by simp [valuesMember, flags])).bind ?_
  exact .pure entry

theorem StateDiffEntry.ofJson?_toJson (entry : StateDiffEntry) :
    ofJson? entry.toJson = some entry := by
  apply Reads.objectRecord_eq
  refine (Reads.values entry.address (by simp [valuesMember, flags]) word?_toJson).bind ?_
  refine (Reads.values entry.key (by simp [valuesMember, flags]) key?_text).bind ?_
  refine (Reads.values entry.kind (by simp [valuesMember, flags]) DiffKind.choice?_sign).bind ?_
  refine (Reads.flag entry.pulls.transaction (by simp [valuesMember, flags])).bind ?_
  exact .pure entry

/-! ## Requests and selections -/

namespace Request

/-- A request is read back from its members, whatever members come before them. -/
theorem ofJson?_append_members (others : List (String × Json)) (request : Request) :
    ofJson? (obj (others ++ request.members)) = some request := by
  apply Reads.record_eq
  refine (Reads.defaulted (by simp [members])
    (list?_map LogEntry.ofJson?_toJson request.logs)).bind ?_
  refine (Reads.defaulted (by simp [members])
    (list?_map TransactionEntry.ofJson?_toJson request.transactions)).bind ?_
  refine (Reads.defaulted (by simp [members])
    (list?_map TraceEntry.ofJson?_toJson request.traces)).bind ?_
  refine (Reads.defaulted (by simp [members])
    (list?_map StateDiffEntry.ofJson?_toJson request.stateDiffs)).bind ?_
  exact .pure request

theorem ofJson?_toJson (request : Request) : ofJson? request.toJson = some request :=
  ofJson?_append_members [] request

end Request

theorem BlockFields.ofJson?_switches (fields : BlockFields) :
    ofJson? (obj (flags fields.switches)) = some fields := rfl

theorem TransactionFields.ofJson?_switches (fields : TransactionFields) :
    ofJson? (obj (flags fields.switches)) = some fields := rfl

theorem LogFields.ofJson?_switches (fields : LogFields) :
    ofJson? (obj (flags fields.switches)) = some fields := rfl

theorem TraceFields.ofJson?_switches (fields : TraceFields) :
    ofJson? (obj (flags fields.switches)) = some fields := rfl

theorem StateDiffFields.ofJson?_switches (fields : StateDiffFields) :
    ofJson? (obj (flags fields.switches)) = some fields := rfl

theorem FieldSelection.ofJson?_toJson (fields : FieldSelection) :
    ofJson? fields.toJson = some fields := by
  apply Reads.record_eq
  refine (Reads.defaulted (by simp) fields.block.ofJson?_switches).bind ?_
  refine (Reads.defaulted (by simp) fields.transaction.ofJson?_switches).bind ?_
  refine (Reads.defaulted (by simp) fields.log.ofJson?_switches).bind ?_
  refine (Reads.defaulted (by simp) fields.trace.ofJson?_switches).bind ?_
  refine (Reads.defaulted (by simp) fields.stateDiff.ofJson?_switches).bind ?_
  exact .pure fields

/-! ## Texts -/

namespace Json.Writable

variable {α : Type} {write : α → Json}

theorem word64 (word : UInt64) : Writable (.int word.toNat) := by
  have below : (word.toNat : Int) < UInt64.size := by
    exact_mod_cast word.toNat_lt
  have atLeast : Int64.minValue.toInt ≤ 0 := by decide
  exact .int (by omega) below

theorem list (values : List α) (each : ∀ value, Writable (write value)) :
    Writable (.arr (values.map write)) := by
  refine .arr fun item inItems => ?_
  obtain ⟨value, _, rfl⟩ := List.mem_map.mp inItems
  exact each value

theorem flags {switches : List (String × Bool)} : Writable (.obj (Json.flags switches)) := by
  refine .obj fun member inMembers => ?_
  obtain ⟨⟨_, value⟩, _, rfl⟩ := List.mem_map.mp inMembers
  exact .bool value

/-- Members that are left out do not matter. -/
theorem present {members : List (String × Option Json)}
    (each : ∀ member ∈ members, ∀ document ∈ member.2, Writable document) :
    Writable (.obj (presentMembers members)) := by
  refine .obj fun member inMembers => ?_
  obtain ⟨⟨_, value⟩, inAll, isMember⟩ := List.mem_filterMap.mp inMembers
  obtain ⟨document, isValue, rfl⟩ := Option.map_eq_some_iff.mp isMember
  exact each _ inAll document isValue

theorem valuesMember {name : String} {values : Option (List α)}
    (each : ∀ value, Writable (write value)) :
    ∀ document ∈ (ChainFeed.valuesMember name write values).2, Writable document := by
  intro document isValues
  obtain ⟨values, _, rfl⟩ := Option.map_eq_some_iff.mp isValues
  exact list values each

theorem append {first second : List (String × Json)} (before : Writable (.obj first))
    (after : Writable (.obj second)) : Writable (.obj (first ++ second)) := by
  cases before with
  | obj before =>
      cases after with
      | obj after => exact .obj (List.forall_mem_append.mpr ⟨before, after⟩)

end Json.Writable

theorem Bytes.writable (bytes : Bytes) : Writable bytes.toJson := .str _

theorem FixedBytes.writable {width : Nat} (word : FixedBytes width) : Writable word.toJson :=
  .str _

theorem LogEntry.writable (entry : LogEntry) : Writable entry.toJson := by
  refine .append (.present ?_) .flags
  simp only [List.forall_mem_cons]
  exact ⟨.valuesMember FixedBytes.writable, .valuesMember FixedBytes.writable,
    .valuesMember FixedBytes.writable, .valuesMember FixedBytes.writable,
    .valuesMember FixedBytes.writable, List.forall_mem_nil _⟩

theorem TransactionEntry.writable (entry : TransactionEntry) : Writable entry.toJson := by
  refine .append (.present ?_) .flags
  simp only [List.forall_mem_cons]
  exact ⟨.valuesMember FixedBytes.writable, .valuesMember FixedBytes.writable,
    .valuesMember Bytes.writable, .valuesMember .word64, List.forall_mem_nil _⟩

theorem TraceEntry.writable (entry : TraceEntry) : Writable entry.toJson := by
  refine .append (.present ?_) .flags
  simp only [List.forall_mem_cons]
  exact ⟨.valuesMember fun _ => .str _, .valuesMember FixedBytes.writable,
    .valuesMember FixedBytes.writable, .valuesMember FixedBytes.writable,
    .valuesMember Bytes.writable, .valuesMember FixedBytes.writable,
    .valuesMember FixedBytes.writable, List.forall_mem_nil _⟩

theorem StateDiffEntry.writable (entry : StateDiffEntry) : Writable entry.toJson := by
  refine .append (.present ?_) .flags
  simp only [List.forall_mem_cons]
  exact ⟨.valuesMember FixedBytes.writable, .valuesMember fun _ => .str _,
    .valuesMember fun _ => .str _, List.forall_mem_nil _⟩

theorem Request.writable (request : Request) : Writable request.toJson := by
  refine .obj ?_
  simp only [members, List.forall_mem_cons]
  exact ⟨.list _ LogEntry.writable, .list _ TransactionEntry.writable,
    .list _ TraceEntry.writable, .list _ StateDiffEntry.writable, List.forall_mem_nil _⟩

theorem FieldSelection.writable (fields : FieldSelection) : Writable fields.toJson := by
  refine .obj ?_
  simp only [List.forall_mem_cons]
  exact ⟨.flags, .flags, .flags, .flags, .flags, List.forall_mem_nil _⟩

namespace ArchiveQuery

theorem writable (query : ArchiveQuery) : Writable query.toJson := by
  refine .append (.present ?_) query.request.writable
  simp only [List.forall_mem_cons, Option.mem_def, Option.some.injEq, forall_eq',
    Option.map_eq_some_iff, forall_exists_index, and_imp, forall_apply_eq_imp_iff₂]
  exact ⟨.word64 _, fun height _ => .word64 height, query.fields.writable, List.forall_mem_nil _⟩

theorem member?_fields (query : ArchiveQuery) :
    query.toJson.member? "fields" = some query.fields.toJson := by
  simp [toJson, member?, Request.members]

/-- What an archive is sent says what is asked for: requests and selections are read back
from the text that they are written as, each on its own and as parts of a query.  The text of
a key of state diffs is read back too, and no two keys share one. -/
theorem read_written :
    (∀ request : Request,
        (parse? request.toJson.render).bind Request.ofJson? = some request) ∧
      (∀ fields : FieldSelection,
        (parse? fields.toJson.render).bind FieldSelection.ofJson? = some fields) ∧
      (∀ query : ArchiveQuery, ∃ document, parse? query.toJson.render = some document ∧
        Request.ofJson? document = some query.request ∧
        (document.member? "fields").bind FieldSelection.ofJson? = some query.fields) ∧
      (∀ key : DiffKey, DiffKey.ofText? key.text = some key) ∧
      Function.Injective DiffKey.text := by
  refine ⟨fun request => ?_, fun fields => ?_, fun query => ?_, DiffKey.ofText?_text,
    fun left right => DiffKey.eq_of_text_eq⟩
  · rw [parse?_render request.writable, Option.bind_some, request.ofJson?_toJson]
  · rw [parse?_render fields.writable, Option.bind_some, fields.ofJson?_toJson]
  · refine ⟨query.toJson, parse?_render query.writable, ?_, ?_⟩
    · exact query.request.ofJson?_append_members _
    · rw [query.member?_fields, Option.bind_some, query.fields.ofJson?_toJson]

end ArchiveQuery

end ChainFeed
