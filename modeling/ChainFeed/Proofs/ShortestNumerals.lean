import ChainFeed.Proofs.HexNumerals
import Mathlib.Data.List.Induction
import Mathlib.Tactic.Choose

/-!
# Shortest numerals and shortest data

A number has one numeral without a leading zero, and one byte string without a leading
zero byte, where zero keeps one digit and one byte.  The byte string is what remains of the
bytes of full width when the zeros before the first other byte are dropped.  Read as data,
the numeral is the byte string.
-/

namespace ChainFeed

/-! ## Digits without a leading zero -/

/-- The number that digits of a base stand for, most significant first. -/
def numberOfDigits (base : Nat) (digits : List Nat) : Nat :=
  digits.foldl (fun soFar digit => base * soFar + digit) 0

@[simp] theorem numberOfDigits_concat (base : Nat) (digits : List Nat) (last : Nat) :
    numberOfDigits base (digits ++ [last]) = base * numberOfDigits base digits + last := by
  simp [numberOfDigits]

/-- Digits without a leading zero stand for a number that is not zero. -/
theorem numberOfDigits_pos {base first : Nat} (positive : 0 < base) (notZero : first ≠ 0)
    (rest : List Nat) : 0 < numberOfDigits base (first :: rest) := by
  induction rest using List.reverseRecOn with
  | nil => simpa [numberOfDigits] using Nat.pos_of_ne_zero notZero
  | append_singleton rest last ih =>
      rw [← List.cons_append, numberOfDigits_concat]
      exact Nat.add_pos_left (Nat.mul_pos positive ih) last

@[simp] theorem numberOfDigits_digitsOf {base : Nat} (atLeastTwo : 2 ≤ base) (number : Nat) :
    numberOfDigits base (digitsOf base number) = number := by
  induction number using Nat.strongRecOn with
  | _ number ih =>
    rcases Nat.lt_or_ge number base with small | large
    · rw [digitsOf_of_lt small]
      simp [numberOfDigits]
    · rw [digitsOf_of_le large atLeastTwo, numberOfDigits_concat,
        ih (number / base) (Nat.div_lt_self (by omega) atLeastTwo), Nat.div_add_mod]

/-- Digits are those of the number that they stand for, unless they have a leading zero. -/
theorem eq_digitsOf {base : Nat} (atLeastTwo : 2 ≤ base) {digits : List Nat}
    (small : ∀ digit ∈ digits, digit < base) (nonempty : digits ≠ [])
    (first : digits.head? = some 0 → digits = [0]) :
    digits = digitsOf base (numberOfDigits base digits) := by
  induction digits using List.reverseRecOn with
  | nil => exact absurd rfl nonempty
  | append_singleton digits last ih =>
      have lastSmall : last < base := small last (by simp)
      cases digits with
      | nil =>
          have value : numberOfDigits base [last] = last := by simp [numberOfDigits]
          rw [List.nil_append, value, digitsOf_of_lt lastSmall]
      | cons head rest =>
          have headNotZero : head ≠ 0 := by
            rintro rfl
            simpa using first rfl
          have whole := ih (fun digit member => small digit (List.mem_append_left _ member))
            (List.cons_ne_nil _ _)
            (fun isZero => absurd (Option.some.inj isZero) headNotZero)
          have positive := numberOfDigits_pos (by omega : 0 < base) headNotZero rest
          rw [numberOfDigits_concat]
          generalize numberOfDigits base (head :: rest) = number at whole positive
          have large : base ≤ base * number + last :=
            Nat.le_add_right_of_le (Nat.le_mul_of_pos_right base positive)
          rw [digitsOf_of_le large atLeastTwo, Nat.mul_add_div (by omega),
            Nat.div_eq_of_lt lastSmall, Nat.add_zero, Nat.mul_add_mod, Nat.mod_eq_of_lt lastSmall,
            ← whole]

/-! ## Digits of full width -/

/-- Digits of a number, as many as the width says, most significant first and with the
leading zeros that this takes. -/
def wideDigits (base : Nat) : (width number : Nat) → List Nat
  | 0, _ => []
  | width + 1, number => wideDigits base width (number / base) ++ [number % base]

@[simp] theorem length_wideDigits (base width number : Nat) :
    (wideDigits base width number).length = width := by
  induction width generalizing number with
  | zero => rfl
  | succ width ih => rw [wideDigits, List.length_append, ih, List.length_singleton]

@[simp] theorem wideDigits_zero (base width : Nat) :
    wideDigits base width 0 = List.replicate width 0 := by
  induction width with
  | zero => rfl
  | succ width ih => rw [wideDigits, Nat.zero_div, Nat.zero_mod, ih, List.replicate_succ']

/-- The digits of full width are the shortest ones after zeros. -/
theorem exists_wideDigits_eq {base width number : Nat} (atLeastTwo : 2 ≤ base)
    (nonempty : 0 < width) (fits : number < Nat.pow base width) :
    ∃ zeros, wideDigits base width number =
      List.replicate zeros 0 ++ digitsOf base number := by
  induction width generalizing number with
  | zero => exact absurd nonempty (Nat.lt_irrefl 0)
  | succ width ih =>
      rcases Nat.lt_or_ge number base with small | large
      · refine ⟨width, ?_⟩
        rw [digitsOf_of_lt small, wideDigits, Nat.div_eq_of_lt small, Nat.mod_eq_of_lt small,
          wideDigits_zero]
      · have shorter : number / base < Nat.pow base width :=
          Nat.div_lt_of_lt_mul (Nat.lt_of_lt_of_eq fits Nat.pow_succ')
        -- A number of two digits or more does not fit in a width of one.
        have moreDigits : 0 < width := by
          rcases Nat.eq_zero_or_pos width with rfl | positive
          · change number / base < 1 at shorter
            rw [Nat.lt_one_iff, Nat.div_eq_zero_iff_lt (by omega)] at shorter
            exact absurd shorter (Nat.not_lt.mpr large)
          · exact positive
        obtain ⟨zeros, wide⟩ := ih moreDigits shorter
        refine ⟨zeros, ?_⟩
        rw [wideDigits, wide, digitsOf_of_le large atLeastTwo, List.append_assoc]

/-! ## Numerals -/

namespace Hex

/-- The number that hexadecimal digits stand for, most significant first. -/
def number (digits : List Char) : Nat :=
  digits.foldl (fun soFar char => 16 * soFar + (digit? char).getD 0) 0

/-- Whether digits are the shortest numeral of a number in lower case. -/
structure IsShortestOf (digits : List Char) (value : Nat) : Prop where
  number_eq : number digits = value
  nonempty : digits ≠ []
  lowerCase : ∀ char ∈ digits, char ∈ "0123456789abcdef".toList
  /-- The first digit is not zero, but that of zero, which is the only one. -/
  first : digits.head? = some '0' → digits = ['0']

/-- The lower-case digits are those that are written. -/
theorem lowerCase_eq : "0123456789abcdef".toList = (List.range 16).map digit := by decide

theorem exists_digit_of_mem {char : Char} (lowerCase : char ∈ "0123456789abcdef".toList) :
    ∃ value < 16, digit value = char := by
  rw [lowerCase_eq, List.mem_map] at lowerCase
  obtain ⟨value, small, written⟩ := lowerCase
  exact ⟨value, List.mem_range.mp small, written⟩

theorem digit_mem {value : Nat} (small : value < 16) :
    digit value ∈ "0123456789abcdef".toList := by
  rw [lowerCase_eq]
  exact List.mem_map_of_mem (List.mem_range.mpr small)

theorem number_map_digit {digits : List Nat} (small : ∀ digit ∈ digits, digit < 16) :
    number (digits.map digit) = numberOfDigits 16 digits := by
  induction digits using List.reverseRecOn with
  | nil => rfl
  | append_singleton digits last ih =>
      have earlier := ih fun value member => small value (List.mem_append_left _ member)
      have lastRead := digit?_digit (small last (by simp))
      rw [numberOfDigits_concat, ← earlier]
      simp [number, lastRead]

theorem eq_zero_of_digit {value : Nat} (small : value < 16) (isZero : digit value = '0') :
    value = 0 := by
  have read := digit?_digit small
  rw [isZero] at read
  exact (Option.some.inj read).symm

/-- The digits of a number are its shortest numeral, and the only one. -/
theorem isShortestOf_iff (digits : List Char) (value : Nat) :
    IsShortestOf digits value ↔ digits = (digitsOf 16 value).map digit := by
  have small : ∀ digit ∈ digitsOf 16 value, digit < 16 :=
    fun _ member => lt_of_mem_digitsOf (by decide) member
  constructor
  · intro shortest
    obtain ⟨values, valuesSmall, rfl⟩ : ∃ values : List Nat,
        (∀ value ∈ values, value < 16) ∧ values.map digit = digits := by
      have each : ∀ char ∈ digits, ∃ value, value < 16 ∧ digit value = char :=
        fun char member => exists_digit_of_mem (shortest.lowerCase char member)
      choose! valueOf valueSmall written using each
      refine ⟨digits.map valueOf, ?_, ?_⟩
      · simpa using valueSmall
      · rw [List.map_map]
        exact (List.map_congr_left written).trans (List.map_id digits)
    have denoted := shortest.number_eq
    rw [number_map_digit valuesSmall] at denoted
    rw [← denoted, ← eq_digitsOf (by decide) valuesSmall]
    · simpa using shortest.nonempty
    · intro isZero
      cases values with
      | nil => cases isZero
      | cons first rest =>
          obtain rfl : first = 0 := Option.some.inj isZero
          have alone := (List.cons.inj (shortest.first rfl)).2
          rw [List.map_eq_nil_iff.mp alone]
  · rintro rfl
    obtain ⟨first, rest, written, zero⟩ :=
      exists_digitsOf_eq_cons (show 2 ≤ 16 by decide) value
    constructor
    case number_eq => rw [number_map_digit small, numberOfDigits_digitsOf (by decide)]
    case nonempty => simp [written]
    case lowerCase =>
      intro char member
      obtain ⟨value, isDigit, rfl⟩ := List.mem_map.mp member
      exact digit_mem (small value isDigit)
    case first =>
      intro isZero
      rw [written, List.map_cons, List.head?_cons, Option.some.injEq] at isZero
      have firstZero := eq_zero_of_digit (small first (by simp [written])) isZero
      rw [zero firstZero, digitsOf_of_lt (by decide)]
      rfl

end Hex

/-! ## Quantities -/

namespace Quantity

/-- The bytes of a quantity at its full width, most significant first. -/
def wideBytes (quantity : Quantity) : FixedBytes 32 where
  toList := (wideDigits 256 32 quantity.toNat).map UInt8.ofNat
  length_eq := by rw [List.length_map, length_wideDigits]

end Quantity

/-- The bytes from the first one on that is not zero, or else the last byte. -/
def FixedBytes.significant (word : FixedBytes 32) : List UInt8 :=
  word.toList.drop ((word.toList.findIdx? (· != 0)).getD 31)

namespace Quantity

theorem toBytes_zero : toBytes 0 = ⟨[0]⟩ := by
  rw [toBytes, digitsOf_of_lt (by decide)]
  rfl

/-- The first byte of a quantity is zero for zero only. -/
theorem head?_toBytes_eq_zero_iff (quantity : Quantity) :
    quantity.toBytes.toList.head? = some 0 ↔ quantity = 0 := by
  constructor
  · intro isZero
    exact BitVec.eq_of_toNat_eq (quantity.isShortestOf_toBytes.first isZero).1
  · rintro rfl
    rw [toBytes_zero]
    rfl

theorem toList_wideBytes (quantity : Quantity) :
    quantity.wideBytes.toList = (wideDigits 256 32 quantity.toNat).map UInt8.ofNat := by
  simp only [wideBytes]

/-- The bytes of full width are the shortest ones after zero bytes. -/
theorem exists_wideBytes_eq (quantity : Quantity) :
    ∃ zeros, quantity.wideBytes.toList = List.replicate zeros 0 ++ quantity.toBytes.toList := by
  have fits : quantity.toNat < Nat.pow 256 32 :=
    Nat.lt_of_lt_of_eq quantity.isLt (by decide)
  obtain ⟨zeros, wide⟩ := exists_wideDigits_eq (by decide) (by decide) fits
  refine ⟨zeros, ?_⟩
  rw [toList_wideBytes, wide, List.map_append, List.map_replicate]
  rfl

/-- The shortest byte string is what remains of the wide one without its leading zeros. -/
theorem toList_toBytes_eq_significant (quantity : Quantity) :
    quantity.toBytes.toList = quantity.wideBytes.significant := by
  obtain ⟨zeros, bytes⟩ := quantity.exists_wideBytes_eq
  have skipped : (List.replicate zeros (0 : UInt8)).findIdx? (· != 0) = none := by simp
  have width := congrArg List.length bytes
  rw [FixedBytes.length_eq] at width
  rw [FixedBytes.significant, bytes, List.findIdx?_append, skipped, List.length_replicate]
  by_cases isZero : quantity = 0
  · subst isZero
    rw [toBytes_zero] at width ⊢
    simp only [List.length_append, List.length_replicate, List.length_singleton] at width
    obtain rfl : zeros = 31 := by omega
    rfl
  · obtain ⟨first, rest, shortest⟩ :=
      List.exists_cons_of_ne_nil quantity.isShortestOf_toBytes.nonempty
    have firstNotZero : first ≠ 0 := by
      rintro rfl
      exact isZero ((head?_toBytes_eq_zero_iff quantity).mp (by rw [shortest]; rfl))
    rw [shortest]
    simp [List.findIdx?_cons, firstNotZero]

/-- A quantity has one shortest numeral, and this is read as its byte string. That is what
remains of the wide one without leading zeros: it has a byte, which is zero for zero only, and
no other quantity has the same. -/
theorem shortest_numeral_read (quantity : Quantity) :
    (∃ digits, (∀ other, Hex.IsShortestOf other quantity.toNat ↔ other = digits) ∧
      Json.unpaddedBytes? (.str ("0x" ++ String.ofList digits)) = some quantity.toBytes) ∧
    quantity.toBytes.toList = quantity.wideBytes.significant ∧
    quantity.toBytes.toList ≠ [] ∧
    (quantity.toBytes.toList.head? = some 0 ↔ quantity = 0) ∧
    (quantity = 0 ↔ quantity.toBytes = ⟨[0]⟩) ∧
    ∀ other : Quantity, quantity.toBytes = other.toBytes ↔ quantity = other := by
  refine ⟨⟨(digitsOf 16 quantity.toNat).map Hex.digit, ?_, ?_⟩, ?_, ?_, ?_, ?_, ?_⟩
  · exact fun other => Hex.isShortestOf_iff other quantity.toNat
  · have text : "0x" ++ String.ofList ((digitsOf 16 quantity.toNat).map Hex.digit) =
        quantity.text := by
      rw [Quantity.text, hexNumeral]
      apply String.ext
      simp
    rw [Json.unpaddedBytes?, text, ofUnpadded?_text]
  · exact quantity.toList_toBytes_eq_significant
  · exact quantity.isShortestOf_toBytes.nonempty
  · exact quantity.head?_toBytes_eq_zero_iff
  · rw [← toBytes_zero]
    exact toBytes_injective.eq_iff.symm
  · exact fun other => toBytes_injective.eq_iff

/-- An odd number of digits: the first one is read as a byte of its own. -/
example : Json.unpaddedBytes? (.str "0x1bc") = some (toBytes 0x1bc) ∧
    (toBytes 0x1bc).toList = [0x01, 0xbc] := by decide +kernel

end Quantity

end ChainFeed
