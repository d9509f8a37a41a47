import ChainFeed.Proofs.HexText

/-!
# Numerals read as data

A numeral has no leading zero, so it may have an odd number of digits.  Read with a zero
before them, its digits are the shortest byte string of the number.
-/

namespace ChainFeed

/-! ## Digits -/

theorem digitsOf_of_lt {base number : Nat} (small : number < base) :
    digitsOf base number = [number] := by
  rw [digitsOf, if_pos (.inl small)]

theorem digitsOf_of_le {base number : Nat} (large : base ≤ number) (atLeastTwo : 2 ≤ base) :
    digitsOf base number = digitsOf base (number / base) ++ [number % base] := by
  rw [digitsOf, if_neg (by omega)]

theorem lt_of_mem_digitsOf {base number digit : Nat} (atLeastTwo : 2 ≤ base)
    (member : digit ∈ digitsOf base number) : digit < base := by
  induction number using Nat.strongRecOn with
  | _ number ih =>
    rcases Nat.lt_or_ge number base with small | large
    · rw [digitsOf_of_lt small, List.mem_singleton] at member
      rwa [member]
    · rw [digitsOf_of_le large atLeastTwo, List.mem_append, List.mem_singleton] at member
      rcases member with earlier | rfl
      · exact ih (number / base) (Nat.div_lt_self (by omega) atLeastTwo) earlier
      · exact Nat.mod_lt number (by omega)

/-- The first of the digits is zero for zero only. -/
theorem exists_digitsOf_eq_cons {base : Nat} (atLeastTwo : 2 ≤ base) (number : Nat) :
    ∃ first rest, digitsOf base number = first :: rest ∧ (first = 0 → number = 0) := by
  induction number using Nat.strongRecOn with
  | _ number ih =>
    rcases Nat.lt_or_ge number base with small | large
    · exact ⟨number, [], digitsOf_of_lt small, id⟩
    · obtain ⟨first, rest, digits, zero⟩ :=
        ih (number / base) (Nat.div_lt_self (by omega) atLeastTwo)
      refine ⟨first, rest ++ [number % base], ?_, fun isZero => ?_⟩
      · rw [digitsOf_of_le large atLeastTwo, digits, List.cons_append]
      · have below := (Nat.div_eq_zero_iff_lt (by omega)).mp (zero isZero)
        omega

namespace Hex

/-- Digits with a zero before them if their number is odd. -/
def padded (digits : List Char) : List Char :=
  if digits.length % 2 = 1 then '0' :: digits else digits

theorem padded_of_even {text : List Char} (even : text.length % 2 = 0) : padded text = text :=
  if_neg (by omega)

theorem even_padded (text : List Char) : (padded text).length % 2 = 0 := by
  unfold padded
  split
  · rw [List.length_cons]
    omega
  · omega

/-- Two digits are one byte. -/
theorem decode?_cons_cons {high low : Char} {rest : List Char} {bytes : List UInt8} :
    decode? (high :: low :: rest) = some bytes ↔
      ∃ highValue, digit? high = some highValue ∧ ∃ lowValue, digit? low = some lowValue ∧
        ∃ later, decode? rest = some later ∧
          UInt8.ofNat (16 * highValue + lowValue) :: later = bytes := by
  simp only [decode?, Option.bind_eq_bind, Option.bind_eq_some_iff, Option.pure_def,
    Option.some.injEq]

theorem decode?_append {front : List Char} {bytes : List UInt8} (back : List Char)
    (read : decode? front = some bytes) :
    decode? (front ++ back) = (decode? back).map (bytes ++ ·) := by
  induction front using decode?.induct generalizing bytes with
  | case1 =>
      obtain rfl : [] = bytes := Option.some.inj read
      simp
  | case2 _ => simp [decode?] at read
  | case3 high low rest ih =>
      obtain ⟨highValue, highRead, lowValue, lowRead, later, laterRead, rfl⟩ :=
        decode?_cons_cons.mp read
      simp only [List.cons_append, decode?, highRead, lowRead, ih laterRead]
      cases decode? back <;> rfl

/-- Text that is read as digits does not begin with a mark. -/
theorem decodeMarked?_of_decode? {text : List Char} {bytes : List UInt8}
    (read : decode? text = some bytes) : decodeMarked? text = some bytes := by
  unfold decodeMarked? dropMark
  split
  · simp [decode?, digit?] at read
  · simp [decode?, digit?] at read
  · exact read

/-- Two more digits are one more byte. -/
theorem decode?_padded_append {digits : List Char} {bytes : List UInt8} {high low : Nat}
    (read : decode? (padded digits) = some bytes) (highSmall : high < 16) (lowSmall : low < 16) :
    decode? (padded (digits ++ [digit high, digit low])) =
      some (bytes ++ [UInt8.ofNat (16 * high + low)]) := by
  have sameParity : padded (digits ++ [digit high, digit low]) =
      padded digits ++ [digit high, digit low] := by
    have twoMore : (digits.length + 2) % 2 = digits.length % 2 := Nat.add_mod_right _ _
    rw [padded, padded, List.length_append]
    simp only [List.length_cons, List.length_nil, Nat.reduceAdd, twoMore]
    split <;> rfl
  rw [sameParity, decode?_append _ read, decode?, digit?_digit highSmall, digit?_digit lowSmall]
  rfl

/-- The padded digits of a number are read as its shortest byte string. -/
theorem decode?_padded_digitsOf (number : Nat) :
    decode? (padded ((digitsOf 16 number).map digit)) =
      some ((digitsOf 256 number).map UInt8.ofNat) := by
  induction number using Nat.strongRecOn with
  | _ number ih =>
    rcases Nat.lt_or_ge number 16 with oneDigit | moreDigits
    · rw [digitsOf_of_lt oneDigit, digitsOf_of_lt (by omega)]
      change decode? [digit 0, digit number] = _
      rw [decode?, digit?_digit (by omega), digit?_digit oneDigit]
      simp [decode?]
    rw [digitsOf_of_le moreDigits (by omega)]
    rcases Nat.lt_or_ge number 256 with oneByte | moreBytes
    · have first : decode? (padded []) = some [] := rfl
      have whole : 16 * (number / 16) + number % 16 = number := Nat.div_add_mod number 16
      have read := decode?_padded_append first (show number / 16 < 16 by omega)
        (Nat.mod_lt number (by decide))
      rw [digitsOf_of_lt (by omega), digitsOf_of_lt oneByte]
      simpa [whole] using read
    · have whole : 16 * (number / 16 % 16) + number % 16 = number % 256 := by omega
      have read := decode?_padded_append (ih (number / 256) (by omega))
        (Nat.mod_lt (number / 16) (by decide)) (Nat.mod_lt number (by decide))
      rw [digitsOf_of_le (by omega) (by omega), Nat.div_div_eq_div_mul,
        digitsOf_of_le moreBytes (by omega), ← whole]
      simpa using read

end Hex

namespace Bytes

/-- Data of whole bytes is read back, however its length came about. -/
@[simp] theorem ofUnpadded?_text (bytes : Bytes) : ofUnpadded? bytes.text = some bytes := by
  have even : (Hex.encode bytes.toList).length % 2 = 0 := by
    rw [Hex.length_encode, Nat.mul_mod_right]
  rw [ofUnpadded?, toList_text]
  change (Hex.decodeMarked? (Hex.padded (Hex.encode bytes.toList))).map _ = _
  rw [Hex.padded_of_even even, Hex.decodeMarked?_of_decode? (Hex.decode?_encode _)]
  rfl

/-- The number that a byte string stands for, most significant byte first. -/
def number (bytes : Bytes) : Nat :=
  bytes.toList.foldl (fun soFar byte => 256 * soFar + byte.toNat) 0

/-- Whether a byte string is the shortest one that stands for a number, where zero has one
byte. -/
structure IsShortestOf (bytes : Bytes) (number : Nat) : Prop where
  number_eq : bytes.number = number
  nonempty : bytes.toList ≠ []
  /-- The first byte is not zero, but that of zero, which is the only one. -/
  first : bytes.toList.head? = some 0 → number = 0 ∧ bytes.toList = [0]

end Bytes

namespace Quantity

/-- The numeral of a quantity is read as its shortest byte string. -/
@[simp] theorem ofUnpadded?_text (quantity : Quantity) :
    Bytes.ofUnpadded? quantity.text = some quantity.toBytes := by
  rw [text, hexNumeral, Bytes.ofUnpadded?, String.toList_ofList]
  change (Hex.decodeMarked? (Hex.padded ((digitsOf 16 quantity.toNat).map Hex.digit))).map _ = _
  rw [Hex.decodeMarked?_of_decode? (Hex.decode?_padded_digitsOf _)]
  rfl

@[simp] theorem number_toBytes (quantity : Quantity) :
    quantity.toBytes.number = quantity.toNat := by
  rw [Bytes.number, toBytes]
  generalize quantity.toNat = number
  induction number using Nat.strongRecOn with
  | _ number ih =>
    rcases Nat.lt_or_ge number 256 with oneByte | moreBytes
    · rw [digitsOf_of_lt oneByte]
      simpa using Nat.mod_eq_of_lt oneByte
    · rw [digitsOf_of_le moreBytes (by omega), List.map_append, List.foldl_append,
        ih (number / 256) (by omega)]
      simp [Nat.div_add_mod]

theorem isShortestOf_toBytes (quantity : Quantity) :
    quantity.toBytes.IsShortestOf quantity.toNat := by
  obtain ⟨first, rest, digits, zero⟩ :=
    exists_digitsOf_eq_cons (show 2 ≤ 256 by decide) quantity.toNat
  have small : first < 256 := lt_of_mem_digitsOf (by decide) (digits ▸ List.mem_cons_self)
  constructor
  case number_eq => exact quantity.number_toBytes
  case nonempty => simp [toBytes, digits]
  case first =>
    intro isZero
    have firstZero : first = 0 := by
      rw [toBytes, digits, List.map_cons, List.head?_cons, Option.some.injEq] at isZero
      have asNumber := congrArg UInt8.toNat isZero
      rwa [UInt8.toNat_ofNat_of_lt' small] at asNumber
    have quantityZero := zero firstZero
    refine ⟨quantityZero, ?_⟩
    rw [toBytes, quantityZero, digitsOf_of_lt (by decide)]
    rfl

/-- Different quantities have different byte strings. -/
theorem toBytes_injective : Function.Injective toBytes := by
  intro left right same
  apply BitVec.eq_of_toNat_eq
  rw [← number_toBytes left, same, number_toBytes]

end Quantity

end ChainFeed
