import ChainFeed.Proofs.HexNumerals

/-!
# Texts that are read as data

Data of state diffs is written as `0x` and digits, and the first byte may have lost its leading
zero.  All such texts are read, as the bytes that the digits stand for.  But the digits are read
by a reader that drops a mark of its own.  So a second mark before an even number of digits
passes, and so does one without a zero, as padding brings the zero back.
-/

namespace ChainFeed

namespace Hex

/-! ## Digits -/

/-- The digits of both cases. -/
def alphabet : List Char := "0123456789abcdefABCDEF".toList

/-- A digit of either case has the value of the lower-case digit. -/
theorem exists_digit?_of_mem {char : Char} (isDigit : char ∈ alphabet) :
    ∃ value < 16, digit? char = some value ∧ digit value = char.toLower := by
  have each : (alphabet.all fun char => (digit? char).any fun value =>
      decide (value < 16) && digit value == char.toLower) = true := by decide
  have found := List.all_eq_true.mp each char isDigit
  rw [Option.any_eq_true] at found
  obtain ⟨value, read, same⟩ := found
  rw [Bool.and_eq_true, decide_eq_true_eq, beq_iff_eq] at same
  exact ⟨value, same.1, read, same.2⟩

theorem toNat_lt_of_digit? {char : Char} {value : Nat} (read : digit? char = some value) :
    char.toNat < 128 := by
  rcases Nat.lt_or_ge char.toNat 128 with small | large
  · exact small
  · rw [digit?, if_neg (by omega), if_neg (by omega), if_neg (by omega)] at read
    cases read

/-- Only digits have a value. -/
theorem mem_alphabet_of_digit? {char : Char} {value : Nat} (read : digit? char = some value) :
    char ∈ alphabet := by
  have each : ∀ code < 128, (digit? (Char.ofNat code)).isSome = true →
      Char.ofNat code ∈ alphabet := by decide
  have found := each char.toNat (toNat_lt_of_digit? read)
  rw [Char.ofNat_toNat, read] at found
  exact found rfl

theorem digit_of_digit? {char : Char} {value : Nat} (read : digit? char = some value) :
    value < 16 ∧ digit value = char.toLower := by
  obtain ⟨_, small, same, lower⟩ := exists_digit?_of_mem (mem_alphabet_of_digit? read)
  obtain rfl := Option.some.inj (same.symm.trans read)
  exact ⟨small, lower⟩

/-! ## Bytes -/

/-- Digits that are even in number are read. -/
theorem exists_decode?_of_even {text : List Char} (allDigits : text ⊆ alphabet)
    (even : text.length % 2 = 0) : ∃ bytes, decode? text = some bytes := by
  induction text using decode?.induct with
  | case1 => exact ⟨[], rfl⟩
  | case2 _ => cases even
  | case3 high low rest ih =>
      rw [List.cons_subset, List.cons_subset] at allDigits
      obtain ⟨highDigit, lowDigit, restDigits⟩ := allDigits
      obtain ⟨highValue, _, highRead, _⟩ := exists_digit?_of_mem highDigit
      obtain ⟨lowValue, _, lowRead, _⟩ := exists_digit?_of_mem lowDigit
      rw [List.length_cons, List.length_cons, Nat.add_assoc, Nat.add_mod_right] at even
      obtain ⟨bytes, read⟩ := ih restDigits even
      exact ⟨_, decode?_cons_cons.mpr ⟨highValue, highRead, lowValue, lowRead, bytes, read, rfl⟩⟩

/-- What is read are digits, and the bytes are written as these digits in lower case. -/
theorem digits_of_decode? {text : List Char} {bytes : List UInt8}
    (read : decode? text = some bytes) :
    text ⊆ alphabet ∧ encode bytes = text.map Char.toLower := by
  induction text using decode?.induct generalizing bytes with
  | case1 =>
      obtain rfl : [] = bytes := Option.some.inj read
      exact ⟨List.nil_subset _, rfl⟩
  | case2 _ => cases read
  | case3 high low rest ih =>
      obtain ⟨highValue, highRead, lowValue, lowRead, later, laterRead, rfl⟩ :=
        decode?_cons_cons.mp read
      obtain ⟨highSmall, highLower⟩ := digit_of_digit? highRead
      obtain ⟨lowSmall, lowLower⟩ := digit_of_digit? lowRead
      obtain ⟨restDigits, written⟩ := ih laterRead
      have whole : (UInt8.ofNat (16 * highValue + lowValue)).toNat = 16 * highValue + lowValue :=
        UInt8.toNat_ofNat_of_lt' (show 16 * highValue + lowValue < 256 by omega)
      constructor
      · rw [List.cons_subset, List.cons_subset]
        exact ⟨mem_alphabet_of_digit? highRead, mem_alphabet_of_digit? lowRead, restDigits⟩
      · rw [encode, whole, Nat.mul_add_div (by decide), Nat.div_eq_of_lt lowSmall, Nat.add_zero,
          Nat.mul_add_mod, Nat.mod_eq_of_lt lowSmall, highLower, lowLower, written,
          List.map_cons, List.map_cons]

/-! ## Marks -/

/-- A mark is dropped, and digits are read without one. -/
theorem decodeMarked?_eq_some_iff {text : List Char} {bytes : List UInt8} :
    decodeMarked? text = some bytes ↔
      decode? text = some bytes ∨
        ∃ letter ∈ ['x', 'X'], ∃ digits, text = '0' :: letter :: digits ∧
          decode? digits = some bytes := by
  constructor
  · intro read
    unfold decodeMarked? dropMark at read
    split at read
    case h_1 digits => exact .inr ⟨'x', by decide, digits, rfl, read⟩
    case h_2 digits => exact .inr ⟨'X', by decide, digits, rfl, read⟩
    case h_3 => exact .inl read
  · rintro (read | ⟨letter, isMark, digits, rfl, read⟩)
    · exact decodeMarked?_of_decode? read
    · obtain rfl | rfl : letter = 'x' ∨ letter = 'X' := by simpa using isMark
      · exact read
      · exact read

theorem even_of_decode? {text : List Char} {bytes : List UInt8}
    (read : decode? text = some bytes) : text.length % 2 = 0 := by
  rw [← List.length_map Char.toLower, ← (digits_of_decode? read).2, length_encode,
    Nat.mul_mod_right]

theorem padded_subset {text : List Char} : padded text ⊆ alphabet ↔ text ⊆ alphabet := by
  unfold padded
  split
  · rw [List.cons_subset]
    exact and_iff_right (by decide)
  · exact Iff.rfl

/-- Padding makes a mark of one without a zero, and leaves a whole one as it is. -/
theorem padded_eq_mark_iff {letter : Char} {text digits : List Char}
    (even : digits.length % 2 = 0) :
    padded text = '0' :: letter :: digits ↔
      text = '0' :: letter :: digits ∨ text = letter :: digits := by
  constructor
  · intro same
    unfold padded at same
    split at same
    -- The zero before an odd number of characters is the one that was missing.
    · exact .inr (List.cons.inj same).2
    · exact .inl same
  · rintro (rfl | rfl)
    · refine padded_of_even ?_
      rwa [List.length_cons, List.length_cons, Nat.add_assoc, Nat.add_mod_right]
    · refine if_pos ?_
      rw [List.length_cons]
      omega

/-! ## Texts -/

/-- Whether a text is the mark `0x` and digits. -/
structure IsMarked (text : String) (digits : List Char) : Prop where
  text_eq : text.toList = '0' :: 'x' :: digits
  allDigits : digits ⊆ alphabet

/-- Whether a text is the mark `0x`, a second mark, which may lack its zero, and digits that are
even in number. -/
structure IsMarkedTwice (text : String) (digits : List Char) : Prop where
  text_eq : ∃ letter ∈ ['x', 'X'], text.toList = '0' :: 'x' :: '0' :: letter :: digits ∨
    text.toList = '0' :: 'x' :: letter :: digits
  even : digits.length % 2 = 0
  allDigits : digits ⊆ alphabet

end Hex

namespace Bytes

open Hex

variable {text : String} {bytes : Bytes}

theorem ofUnpadded?_eq_some_iff :
    ofUnpadded? text = some bytes ↔
      ∃ rest, text.toList = '0' :: 'x' :: rest ∧
        decodeMarked? (padded rest) = some bytes.toList := by
  constructor
  · intro read
    unfold ofUnpadded? at read
    split at read
    case h_1 rest marked =>
      obtain ⟨list, listRead, rfl⟩ := Option.map_eq_some_iff.mp read
      exact ⟨rest, marked, listRead⟩
    case h_2 => cases read
  · rintro ⟨rest, marked, read⟩
    rw [ofUnpadded?, marked]
    exact Option.map_eq_some_iff.mpr ⟨bytes.toList, read, rfl⟩

/-- A text that is read consists of digits after one mark or two. -/
theorem marked_of_ofUnpadded? (read : ofUnpadded? text = some bytes) :
    ∃ digits, IsMarked text digits ∨ IsMarkedTwice text digits := by
  obtain ⟨rest, marked, read⟩ := ofUnpadded?_eq_some_iff.mp read
  rcases decodeMarked?_eq_some_iff.mp read with plain | ⟨letter, isMark, digits, same, later⟩
  · exact ⟨rest, .inl ⟨marked, padded_subset.mp (digits_of_decode? plain).1⟩⟩
  · have even := even_of_decode? later
    refine ⟨digits, .inr ⟨⟨letter, isMark, ?_⟩, even, (digits_of_decode? later).1⟩⟩
    rcases (padded_eq_mark_iff even).mp same with rfl | rfl
    · exact .inl marked
    · exact .inr marked

/-- What follows one mark or two is read if it is digits, which are padded. -/
theorem ofUnpadded?_of_marked {digits : List Char}
    (marked : IsMarked text digits ∨ IsMarkedTwice text digits)
    (read : decode? (padded digits) = some bytes.toList) : ofUnpadded? text = some bytes := by
  apply ofUnpadded?_eq_some_iff.mpr
  rcases marked with once | twice
  · exact ⟨digits, once.text_eq, decodeMarked?_of_decode? read⟩
  · obtain ⟨letter, isMark, marks⟩ := twice.text_eq
    rw [padded_of_even twice.even] at read
    have dropped : decodeMarked? ('0' :: letter :: digits) = some bytes.toList :=
      decodeMarked?_eq_some_iff.mpr (.inr ⟨letter, isMark, digits, rfl, read⟩)
    rcases marks with whole | bare
    · refine ⟨_, whole, ?_⟩
      rwa [(padded_eq_mark_iff twice.even).mpr (.inl rfl)]
    · refine ⟨_, bare, ?_⟩
      rwa [(padded_eq_mark_iff twice.even).mpr (.inr rfl)]

end Bytes

namespace Json

open Hex

theorem exists_unpaddedBytes?_of_marked {text : String} {digits : List Char}
    (marked : IsMarked text digits ∨ IsMarkedTwice text digits) :
    ∃ bytes, unpaddedBytes? (.str text) = some bytes ∧
      encode bytes.toList = (padded digits).map Char.toLower := by
  have allDigits : digits ⊆ alphabet := marked.elim IsMarked.allDigits IsMarkedTwice.allDigits
  obtain ⟨list, read⟩ :=
    exists_decode?_of_even (padded_subset.mpr allDigits) (even_padded digits)
  exact ⟨⟨list⟩, Bytes.ofUnpadded?_of_marked marked read, (digits_of_decode? read).2⟩

/-- A text is read as data exactly if it is the mark `0x` and digits, or has a second mark before
digits that are even in number, and the data is what is written as these digits, with a zero
before them if they are odd in number. -/
theorem unpaddedBytes?_accepts (text : String) :
    ((unpaddedBytes? (.str text)).isSome = true ↔
      ∃ digits, IsMarked text digits ∨ IsMarkedTwice text digits) ∧
    ∀ digits, IsMarked text digits ∨ IsMarkedTwice text digits →
      ∀ bytes, unpaddedBytes? (.str text) = some bytes ↔
        encode bytes.toList = (padded digits).map Char.toLower := by
  refine ⟨⟨?_, ?_⟩, ?_⟩
  · intro accepted
    obtain ⟨bytes, read⟩ := Option.isSome_iff_exists.mp accepted
    exact Bytes.marked_of_ofUnpadded? read
  · rintro ⟨digits, marked⟩
    obtain ⟨bytes, read, _⟩ := exists_unpaddedBytes?_of_marked marked
    rw [read]
    rfl
  · intro digits marked bytes
    obtain ⟨found, read, written⟩ := exists_unpaddedBytes?_of_marked marked
    rw [read, Option.some.injEq, ← written]
    constructor
    · rintro rfl
      rfl
    · intro same
      exact congrArg Bytes.mk (encode_injective same.symm)

/-- Texts with a second mark are read, although one mark and digits they are not. -/
theorem unpaddedBytes?_strayMark :
    (unpaddedBytes? (.str "0x0x05") = some ⟨[0x05]⟩ ∧ ¬∃ digits, IsMarked "0x0x05" digits) ∧
      unpaddedBytes? (.str "0xx05") = some ⟨[0x05]⟩ ∧ ¬∃ digits, IsMarked "0xx05" digits := by
  have stray {text : String} (letter : 'x' ∈ text.toList.drop 2) :
      ¬∃ digits, IsMarked text digits := by
    rintro ⟨digits, once⟩
    rw [once.text_eq] at letter
    exact absurd (once.allDigits letter) (by decide)
  exact ⟨⟨by decide, stray (by decide)⟩, by decide, stray (by decide)⟩

end Json

end ChainFeed
