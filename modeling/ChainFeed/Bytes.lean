/-!
# Byte strings

Data of a chain is either a byte string of any length or one of a fixed width:
hashes and storage slots, addresses, bloom filters.  The width of the second
kind is part of its type, so no later operation has to check it again.
-/

namespace ChainFeed

/-- A byte string of any length. -/
structure Bytes where
  toList : List UInt8
  deriving DecidableEq, Inhabited, Repr

namespace Bytes

/-- The byte string without bytes. -/
def empty : Bytes := ⟨[]⟩

/-- The first four bytes of call data, which name the called function. Shorter
data is its own selector. -/
def selector (input : Bytes) : Bytes := ⟨input.toList.take 4⟩

end Bytes

/-- A byte string of exactly `width` bytes. -/
structure FixedBytes (width : Nat) where
  toList : List UInt8
  length_eq : toList.length = width
  deriving DecidableEq, Repr

/-- A 32-byte word: a hash or a storage slot. -/
abbrev Hash := FixedBytes 32

/-- A 20-byte account address. -/
abbrev Address := FixedBytes 20

/-- The 256-byte bloom filter of a block's logs. -/
abbrev Bloom := FixedBytes 256

namespace FixedBytes

variable {width : Nat}

/-- All bytes zero. -/
def zero (width : Nat) : FixedBytes width :=
  ⟨List.replicate width 0, List.length_replicate⟩

instance : Inhabited (FixedBytes width) := ⟨zero width⟩

/-- The bytes as a fixed-width string, if their number is right. -/
def ofList? (bytes : List UInt8) : Option (FixedBytes width) :=
  if length_eq : bytes.length = width then some ⟨bytes, length_eq⟩ else none

/-- The same bytes, with the width forgotten. -/
def toBytes (word : FixedBytes width) : Bytes := ⟨word.toList⟩

/-- Byte-wise lexicographic order, which for equal widths is the order of the
big-endian numbers. -/
instance : LT (FixedBytes width) := ⟨fun left right => left.toList < right.toList⟩

instance : DecidableLT (FixedBytes width) := fun left right =>
  inferInstanceAs (Decidable (left.toList < right.toList))

theorem ext_toList {left right : FixedBytes width}
    (equal : left.toList = right.toList) : left = right := by
  cases left
  cases right
  simp_all

theorem lt_irrefl (word : FixedBytes width) : ¬ word < word :=
  List.lt_irrefl word.toList

theorem lt_trans {first second third : FixedBytes width}
    (below : first < second) (above : second < third) : first < third :=
  List.lt_trans (α := UInt8) below above

/-- Of two different words one is smaller. -/
theorem lt_of_not_lt {left right : FixedBytes width}
    (notLess : ¬ left < right) (different : left ≠ right) : right < left := by
  rcases List.le_iff_lt_or_eq.mp (List.not_lt.mp notLess) with less | equal
  · exact less
  · exact absurd (ext_toList equal.symm) different

@[simp] theorem ofList?_toList (word : FixedBytes width) :
    ofList? word.toList = some word := by
  simp [ofList?, word.length_eq]

end FixedBytes

end ChainFeed
