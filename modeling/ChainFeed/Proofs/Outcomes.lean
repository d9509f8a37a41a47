import Mathlib.Data.List.Forall2

/-!
# Outcomes of several steps

A step ends with a value or with a fault, and several steps end with all their values
or with the fault of the first one that has no value.
-/

namespace ChainFeed

variable {ε α β γ δ : Type}

/-- The first of two steps that end with a value. -/
theorem exists_of_bind_eq_ok {step : Except ε α} {next : α → Except ε β} {result : β}
    (run : step >>= next = .ok result) :
    ∃ value, step = .ok value ∧ next value = .ok result := by
  cases step with
  | error fault => cases run
  | ok value => exact ⟨value, rfl, run⟩

/-- The value that a function was applied to. -/
theorem exists_of_map_eq_ok {step : Except ε α} {function : α → β} {result : β}
    (run : step.map function = .ok result) :
    ∃ value, step = .ok value ∧ function value = result := by
  cases step with
  | error fault => cases run
  | ok value =>
      cases run
      exact ⟨value, rfl, rfl⟩

theorem eq_error_of_map {step : Except ε α} {function : α → β} {fault : ε}
    (run : step.map function = .error fault) : step = .error fault := by
  cases step with
  | error other =>
      cases run
      rfl
  | ok value => cases run

/-- The values of steps that all have one. -/
theorem forall₂_of_mapM_eq_ok {step : α → Except ε β} {items : List α} {values : List β}
    (run : items.mapM step = .ok values) :
    List.Forall₂ (fun item value => step item = .ok value) items values := by
  induction items generalizing values with
  | nil =>
      rw [List.mapM_nil] at run
      cases run
      exact .nil
  | cons item items ih =>
      rw [List.mapM_cons] at run
      cases first : step item with
      | error fault =>
          rw [first] at run
          cases run
      | ok value =>
          cases later : items.mapM step with
          | error fault =>
              rw [first, later] at run
              cases run
          | ok others =>
              rw [first, later] at run
              cases run
              exact .cons first (ih later)

theorem bind_eq_ok {step : Except ε α} {next : α → Except ε β} {value : α} {result : β}
    (first : step = .ok value) (later : next value = .ok result) :
    step >>= next = .ok result := by
  rw [first]
  exact later

/-- Two steps that always have a value. -/
theorem exists_bind_eq_ok {step : Except ε α} {next : α → Except ε β}
    (first : ∃ value, step = .ok value) (later : ∀ value, ∃ result, next value = .ok result) :
    ∃ result, step >>= next = .ok result := by
  obtain ⟨value, first⟩ := first
  obtain ⟨result, later⟩ := later value
  exact ⟨result, bind_eq_ok first later⟩

/-- Steps each of which has a value. -/
theorem exists_mapM_eq_ok {step : α → Except ε β} {items : List α}
    (each : ∀ item ∈ items, ∃ value, step item = .ok value) :
    ∃ values, items.mapM step = .ok values := by
  induction items with
  | nil => exact ⟨[], rfl⟩
  | cons item items ih =>
      obtain ⟨⟨value, first⟩, later⟩ := List.forall_mem_cons.mp each
      obtain ⟨values, rest⟩ := ih later
      refine ⟨value :: values, ?_⟩
      rw [List.mapM_cons, first, rest]
      rfl

/-- Steps end with the fault of the first item that has one. -/
theorem mapM_eq_error_iff {step : α → Except ε β} {fails : α → Bool} {blame : α → ε}
    {items : List α} {fault : ε}
    (each : ∀ item fault, step item = .error fault ↔ fails item = true ∧ fault = blame item) :
    items.mapM step = .error fault ↔ (items.find? fails).map blame = some fault := by
  induction items with
  | nil =>
      rw [List.mapM_nil, List.find?_nil, Option.map_none]
      constructor <;> intro isFault <;> cases isFault
  | cons item items ih =>
      rw [List.mapM_cons, List.find?_cons]
      cases failing : fails item with
      | true =>
          rw [(each item (blame item)).mpr ⟨failing, rfl⟩]
          constructor <;> rintro ⟨⟩ <;> rfl
      | false =>
          dsimp only
          rw [← ih]
          cases first : step item with
          | error other =>
              obtain ⟨fails, -⟩ := (each item other).mp first
              rw [failing] at fails
              cases fails
          | ok value =>
              cases later : items.mapM step with
              | error other => exact Iff.rfl
              | ok values => constructor <;> intro isFault <;> cases isFault

/-- The item that a value belongs to. -/
theorem exists_mem_of_forall₂ {related : α → β → Prop} {items : List α} {values : List β}
    (each : List.Forall₂ related items values) {value : β} (member : value ∈ values) :
    ∃ item ∈ items, related item value := by
  induction each with
  | nil => simp at member
  | cons relates _ ih =>
      rcases List.mem_cons.mp member with rfl | later
      · exact ⟨_, List.mem_cons_self, relates⟩
      · obtain ⟨item, isItem, relates⟩ := ih later
        exact ⟨item, List.mem_cons_of_mem _ isItem, relates⟩

/-- What values say of the items that they belong to. -/
theorem map_eq_of_forall₂ {related : α → β → Prop} {left : α → γ} {right : β → γ}
    {items : List α} {values : List β} (each : List.Forall₂ related items values)
    (same : ∀ item value, related item value → right value = left item) :
    values.map right = items.map left := by
  induction each with
  | nil => rfl
  | cons relates _ ih => rw [List.map_cons, List.map_cons, ih, same _ _ relates]

/-- Values that are the images of the items that they belong to. -/
theorem eq_map_of_forall₂ {image : α → β} {items : List α} {values : List β}
    (each : List.Forall₂ (fun item value => value = image item) items values) :
    values = items.map image := by
  rw [← map_eq_of_forall₂ each fun _ _ isImage => isImage, List.map_id']

/-- Items and values that have one image, one by one, are those with one image as lists. -/
theorem forall₂_image_iff {left : α → γ} {right : β → γ} {items : List α} {values : List β} :
    List.Forall₂ (fun item value => left item = right value) items values ↔
      items.map left = values.map right := by
  rw [← List.forall₂_eq_eq_eq, List.forall₂_map_left_iff, List.forall₂_map_right_iff]

/-- Values that belong to the parts of items belong to all parts in order. -/
theorem forall₂_flatMap_flatten {related : β → γ → Prop} {parts : α → List β} {items : List α}
    {lists : List (List γ)}
    (each : List.Forall₂ (fun item values => List.Forall₂ related (parts item) values) items
      lists) :
    List.Forall₂ related (items.flatMap parts) lists.flatten := by
  rw [List.flatMap_def]
  exact List.rel_flatten (List.forall₂_map_left_iff.mpr each)

/-! ## Faults -/

/-- Whether every fault that a step can end with has a property. -/
def FailsOnlyBy (property : ε → Prop) (step : Except ε α) : Prop :=
  ∀ fault, step = .error fault → property fault

namespace FailsOnlyBy

variable {property : ε → Prop}

theorem ok (value : α) : FailsOnlyBy property (.ok value : Except ε α) :=
  fun _ isFault => by cases isFault

theorem error {fault : ε} (holds : property fault) :
    FailsOnlyBy property (.error fault : Except ε α) := by
  rintro _ ⟨⟩
  exact holds

/-- One step after the other. -/
theorem bind {step : Except ε α} {next : α → Except ε β} (first : FailsOnlyBy property step)
    (later : ∀ value, step = .ok value → FailsOnlyBy property (next value)) :
    FailsOnlyBy property (step >>= next) := by
  cases run : step with
  | error fault => exact error (first fault run)
  | ok value => exact later value run

/-- A step for each of several items. -/
theorem mapM {step : α → Except ε β} {items : List α}
    (each : ∀ item ∈ items, FailsOnlyBy property (step item)) :
    FailsOnlyBy property (items.mapM step) := by
  induction items with
  | nil => exact ok []
  | cons item items ih =>
      obtain ⟨head, rest⟩ := List.forall_mem_cons.mp each
      rw [List.mapM_cons]
      exact head.bind fun value _ => (ih rest).bind fun values _ => ok _

theorem mono {weaker : ε → Prop} {step : Except ε α} (fails : FailsOnlyBy property step)
    (weaken : ∀ fault, property fault → weaker fault) : FailsOnlyBy weaker step :=
  fun fault isFault => weaken fault (fails fault isFault)

end FailsOnlyBy

/-! ## Two outcomes side by side -/

/-- Whether two steps end alike: with related values, or with the same fault. -/
inductive EndAlike (related : α → β → Prop) : Except ε α → Except ε β → Prop
  | ok {left : α} {right : β} : related left right → EndAlike related (.ok left) (.ok right)
  | error (fault : ε) : EndAlike related (.error fault) (.error fault)

namespace EndAlike

theorem refl (step : Except ε α) : EndAlike Eq step step := by
  cases step with
  | error fault => exact .error fault
  | ok value => exact .ok rfl

/-- Steps that go on alike from related values. -/
theorem bind {related : α → β → Prop} {later : γ → δ → Prop} {first : Except ε α}
    {second : Except ε β} {next : α → Except ε γ} {other : β → Except ε δ}
    (alike : EndAlike related first second)
    (nexts : ∀ left right, related left right → EndAlike later (next left) (other right)) :
    EndAlike later (first >>= next) (second >>= other) := by
  cases alike with
  | error fault => exact .error fault
  | ok relates => exact nexts _ _ relates

/-- Steps for each of several items, each pair of which ends with values of one image. -/
theorem mapM {image : β → γ} {first second : α → Except ε β} (items : List α)
    (each : ∀ item, EndAlike (fun left right => image left = image right) (first item)
      (second item)) :
    EndAlike (fun left right => left.map image = right.map image) (items.mapM first)
      (items.mapM second) := by
  induction items with
  | nil => exact .ok rfl
  | cons item items ih =>
      rw [List.mapM_cons, List.mapM_cons]
      apply (each item).bind
      intro left right same
      apply ih.bind
      intro lefts rights sames
      exact .ok (by rw [List.map_cons, List.map_cons, same, sames])

/-- Steps for each of several items, each pair of which ends with related values. -/
theorem mapM_forall₂ {related : β → γ → Prop} {first : α → Except ε β} {second : α → Except ε γ}
    (items : List α) (each : ∀ item, EndAlike related (first item) (second item)) :
    EndAlike (List.Forall₂ related) (items.mapM first) (items.mapM second) := by
  induction items with
  | nil => exact .ok .nil
  | cons item items ih =>
      rw [List.mapM_cons, List.mapM_cons]
      apply (each item).bind
      intro left right relates
      apply ih.bind
      intro lefts rights relate
      exact .ok (.cons relates relate)

/-- Values of steps that end alike may be related by more than is asked of them. -/
theorem mono {related weaker : α → β → Prop} {first : Except ε α} {second : Except ε β}
    (alike : EndAlike related first second)
    (weaken : ∀ left right, first = .ok left → related left right → weaker left right) :
    EndAlike weaker first second := by
  cases alike with
  | error fault => exact .error fault
  | ok relates => exact .ok (weaken _ _ rfl relates)

/-- Steps for each of several items, each pair of which ends with a value and its image. -/
theorem mapM_map {image : β → γ} {first : α → Except ε β} {second : α → Except ε γ}
    (items : List α)
    (each : ∀ item, EndAlike (fun left right => right = image left) (first item) (second item)) :
    EndAlike (fun lefts rights => rights = lefts.map image) (items.mapM first)
      (items.mapM second) := by
  apply (mapM_forall₂ items each).mono
  exact fun lefts rights _ relate => eq_map_of_forall₂ relate

/-- Values of steps that end alike are related. -/
theorem of_ok {related : α → β → Prop} {first : Except ε α} {second : Except ε β} {left : α}
    {right : β} (alike : EndAlike related first second) (isLeft : first = .ok left)
    (isRight : second = .ok right) : related left right := by
  cases alike with
  | error fault => cases isLeft
  | ok relates =>
      cases isLeft
      cases isRight
      exact relates

end EndAlike

end ChainFeed
