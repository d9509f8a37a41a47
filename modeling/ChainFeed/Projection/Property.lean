import ChainFeed.Projection.Fault

/-!
# Showing selected properties
-/

namespace ChainFeed

/-- A property, if it is selected and there. -/
def shown {α : Type} (selected : Bool) (property : Option α) : Option α :=
  if selected then property else none

/-- A property that is always there, if it is selected. -/
def shownAlways {α : Type} (selected : Bool) (property : α) : Option α :=
  if selected then some property else none

/-- An index in 32 bits, if it fits. -/
def narrow (name : IndexName) (value : UInt64) : Except ProjectionFault UInt32 :=
  if value.toNat < UInt32.size then .ok value.toUInt32 else .error (.indexOverflow name value)

end ChainFeed
