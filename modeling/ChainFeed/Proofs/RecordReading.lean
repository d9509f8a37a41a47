import ChainFeed.Request.Entry

/-!
# Records read from objects

A reader of a record takes from an object the members that it asks for by name, one after
the other, and leaves the object as it is.  So what an object says of each name decides
what is read.
-/

namespace ChainFeed.Json

/-! ## Members by name -/

@[simp] theorem lastMember?_nil (name : String) : lastMember? name [] = none := rfl

@[simp] theorem lastMember?_append (name : String) (first second : List (String × Json)) :
    lastMember? name (first ++ second) =
      (lastMember? name second).or (lastMember? name first) := by
  induction first with
  | nil => simp
  | cons member first ih =>
      obtain ⟨other, value⟩ := member
      rw [List.cons_append, lastMember?, lastMember?, ih]
      cases lastMember? name second <;> rfl

@[simp] theorem lastMember?_cons (name other : String) (value : Json)
    (rest : List (String × Json)) :
    lastMember? name ((other, value) :: rest) =
      (lastMember? name rest).or (if other = name then some value else none) := by
  rw [lastMember?]
  cases lastMember? name rest <;> rfl

@[simp] theorem lastMember?_presentMembers_nil (name : String) :
    lastMember? name (presentMembers []) = none := rfl

@[simp] theorem lastMember?_presentMembers_cons (name other : String) (value : Option Json)
    (rest : List (String × Option Json)) :
    lastMember? name (presentMembers ((other, value) :: rest)) =
      (lastMember? name (presentMembers rest)).or (if other = name then value else none) := by
  cases value with
  | none => simp [presentMembers]
  | some value => exact lastMember?_cons name other value (presentMembers rest)

/-! ## Lists and names -/

/-- A list is read back if each of its items is. -/
theorem list?_map {α : Type} {write : α → Json} {read : Json → Option α}
    (each : ∀ value, read (write value) = some value) (values : List α) :
    list? read (arr (values.map write)) = some values := by
  rw [list?]
  induction values with
  | nil => rfl
  | cons value values ih =>
      rw [List.map_cons, List.mapM_cons, each, ih]
      rfl

/-! ## Readers -/

variable {α β : Type} {members : List (String × Json)}

/-- Whether a reader gets a value from the members of an object. -/
def Reads (reader : FieldReader α) (members : List (String × Json)) (value : α) : Prop :=
  reader.run (.named members) = some (value, .named members)

namespace Reads

theorem pure (value : α) : Reads (Pure.pure value) members value := rfl

/-- What is read first does not change what is read next. -/
theorem bind {reader : FieldReader α} {next : α → FieldReader β} {value : α} {result : β}
    (first : Reads reader members value) (later : Reads (next value) members result) :
    Reads (reader >>= next) members result := by
  rw [Reads, StateT.run_bind, first]
  exact later

theorem slot_given {name : String} {document : Json}
    (found : lastMember? name members = some document) :
    Reads (slot name) members (.given document) := by
  simp [Reads, slot, StateT.run, found]

theorem slot_unnamed {name : String} (missing : lastMember? name members = none) :
    Reads (slot name) members .unnamed := by
  simp [Reads, slot, StateT.run, missing]

theorem lift {step : Option α} {value : α} (isValue : step = some value) :
    Reads (liftM step) members value := by
  rw [isValue]
  rfl

/-- A field that stands for its default if it is not given, and that is given. -/
theorem defaulted {name : String} {read : Json → Option α} {default value : α} {document : Json}
    (found : lastMember? name members = some document) (reads : read document = some value) :
    Reads (Json.defaulted name read default) members value :=
  (slot_given found).bind (lift reads)

/-- A field that has to be there, and that is given. -/
theorem required {name : String} {read : Json → Option α} {value : α} {document : Json}
    (found : lastMember? name members = some document) (reads : read document = some value) :
    Reads (Json.required name read) members value :=
  (slot_given found).bind (lift reads)

/-- A switch that is given. -/
theorem flag {name : String} (value : Bool)
    (found : lastMember? name members = some (bool value)) :
    Reads (Json.flag name) members value :=
  defaulted found rfl

/-- A list of accepted values, which is given only if there is one. -/
theorem values {name : String} {write : α → Json} {read : Json → Option α}
    (values : Option (List α))
    (found : lastMember? name members = (valuesMember name write values).2)
    (each : ∀ value, read (write value) = some value) :
    Reads (Json.optional name (list? read)) members values := by
  cases values with
  | none => exact (slot_unnamed found).bind (pure none)
  | some values =>
      refine (slot_given found).bind (lift ?_)
      rw [nullable, list?_map each, Option.map_some]
      simp

/-- An object from which a reader gets a value. -/
theorem record_eq {fields : FieldReader α} {value : α} (reads : Reads fields members value) :
    record fields (obj members) = some value := by
  rw [record, reads]
  rfl

theorem objectRecord_eq {fields : FieldReader α} {value : α} (reads : Reads fields members value) :
    objectRecord fields (obj members) = some value := by
  rw [objectRecord, reads]
  rfl

end Reads

end ChainFeed.Json
