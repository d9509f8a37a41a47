import ChainFeed.Node.RangeHint
import ChainFeed.Proofs.ShortestNumerals
import Mathlib.Data.List.TakeWhile

/-!
# Ranges read from messages

A hint is found by its wording, in any case, and of several hints the first one counts.  No
hint begins within another one, so what stands before a hint cannot hide it unless it is one
itself.  The numerals of a hint may have any number of leading zeros; they name a range
unless one of them does not fit or they are in the wrong order.
-/

namespace ChainFeed

namespace RangeHint

/-! ## The wording -/

/-- What stands before the digits of the first end. -/
@[irreducible] def opening : List Char := "try with this block range [0x".toList

/-- What stands between the digits of both ends. -/
@[irreducible] def middle : List Char := ", 0x".toList

/-- What stands after the digits of the last end. -/
@[irreducible] def closing : List Char := "]".toList

/-- The wording of a hint with the digits of both ends, in lower case. -/
def wording (first last : List Char) : List Char :=
  opening ++ (first ++ (middle ++ (last ++ closing)))

/-- Whether characters are hexadecimal digits, one at least. -/
structure IsNumeral (digits : List Char) : Prop where
  nonempty : digits ≠ []
  isDigit : ∀ char ∈ digits, (Hex.digit? char).isSome = true

/-- Whether a text is a hint, in any case, with the digits of both ends in lower case. -/
structure IsHint (text first last : List Char) : Prop where
  firstNumeral : IsNumeral first
  lastNumeral : IsNumeral last
  wording_eq : text.map Text.foldCase = wording first last

/-- Whether no part of a text is a hint. -/
def HintFree (text : List Char) : Prop :=
  ∀ part, part <:+: text → ∀ first last, ¬ IsHint part first last

variable {first last digits text rest : List Char}

theorem IsNumeral.not_mem (numeral : IsNumeral digits) {char : Char}
    (other : Hex.digit? char = none) : char ∉ digits := by
  intro member
  have isDigit := numeral.isDigit char member
  rw [other] at isDigit
  cases isDigit

theorem exists_opening_eq : ∃ rest, opening = 't' :: 'r' :: 'y' :: rest ∧ 'y' ∉ rest := by
  unfold opening
  exact ⟨" with this block range [0x".toList, by decide, by decide⟩

theorem exists_middle_eq : ∃ rest, middle = ',' :: rest ∧ 'y' ∉ rest := by
  unfold middle
  exact ⟨" 0x".toList, by decide, by decide⟩

theorem closing_eq : closing = [']'] := by
  unfold closing
  decide

/-- The third letter of the wording does not come again. -/
theorem exists_wording_eq (firstNumeral : IsNumeral first) (lastNumeral : IsNumeral last) :
    ∃ tail, wording first last = 't' :: 'r' :: 'y' :: tail ∧ 'y' ∉ tail := by
  obtain ⟨opened, opening_eq, notOpened⟩ := exists_opening_eq
  obtain ⟨parted, middle_eq, notParted⟩ := exists_middle_eq
  have notFirst : 'y' ∉ first := firstNumeral.not_mem rfl
  have notLast : 'y' ∉ last := lastNumeral.not_mem rfl
  refine ⟨opened ++ (first ++ (middle ++ (last ++ closing))), by rw [wording, opening_eq]; rfl, ?_⟩
  simp [middle_eq, closing_eq, notOpened, notParted, notFirst, notLast]

theorem wording_eq_concat (first last : List Char) :
    wording first last = opening ++ first ++ middle ++ last ++ [']'] := by
  simp only [wording, closing_eq, List.append_assoc]

/-! ## Reading a hint -/

theorem after?_append (phrase text : List Char) :
    Text.after? phrase (phrase ++ text) = some text := by
  induction phrase with
  | nil => rfl
  | cons char phrase ih => rw [List.cons_append, Text.after?, if_pos rfl, ih]

theorem eq_append_of_after? {phrase : List Char} (found : Text.after? phrase text = some rest) :
    text = phrase ++ rest := by
  induction phrase generalizing text with
  | nil => exact Option.some.inj found
  | cons expected phrase ih =>
      cases text with
      | nil => cases found
      | cons char text =>
          rw [Text.after?, Option.ite_none_right_eq_some] at found
          rw [found.1, ih found.2, List.cons_append]

/-- A numeral is read up to a character that is no digit. -/
theorem digits?_append (numeral : IsNumeral digits) {stop : Char}
    (noDigit : Hex.digit? stop = none) (rest : List Char) :
    digits? (digits ++ stop :: rest) = some (digits, stop :: rest) := by
  have taken : (digits ++ stop :: rest).takeWhile (fun char => (Hex.digit? char).isSome) =
      digits := by
    rw [List.takeWhile_append_of_pos numeral.isDigit, List.takeWhile_cons, noDigit]
    exact List.append_nil digits
  have dropped : (digits ++ stop :: rest).dropWhile (fun char => (Hex.digit? char).isSome) =
      stop :: rest := by
    rw [List.dropWhile_append_of_pos numeral.isDigit, List.dropWhile_cons, noDigit]
    rfl
  simp only [digits?, taken, dropped]
  rw [if_neg (by simpa using numeral.nonempty)]

theorem eq_append_of_digits? (found : digits? text = some (digits, rest)) :
    IsNumeral digits ∧ text = digits ++ rest := by
  simp only [digits?] at found
  split at found
  · cases found
  · rename_i nonempty
    cases found
    refine ⟨⟨by simpa using nonempty, ?_⟩, List.takeWhile_append_dropWhile.symm⟩
    exact List.all_eq_true.mp List.all_takeWhile

theorem atStart?_eq (text : List Char) :
    atStart? text =
      (Text.after? opening text).bind fun text =>
        (digits? text).bind fun (first, text) =>
          (Text.after? middle text).bind fun text =>
            (digits? text).bind fun (last, text) =>
              (Text.after? closing text).bind fun _ => some (first, last) := by
  unfold opening middle closing
  rfl

/-- A hint is read at the start of a text in lower case just if its wording stands there. -/
theorem atStart?_eq_some_iff :
    atStart? text = some (first, last) ↔
      IsNumeral first ∧ IsNumeral last ∧ wording first last <+: text := by
  rw [atStart?_eq]
  constructor
  · intro found
    simp only [Option.bind_eq_some_iff, Prod.exists, Option.some.injEq, Prod.mk.injEq] at found
    obtain ⟨_, opened, _, _, firstRead, _, parted, _, _, lastRead, rest, closed, rfl, rfl⟩ := found
    obtain ⟨firstNumeral, firstText⟩ := eq_append_of_digits? firstRead
    obtain ⟨lastNumeral, lastText⟩ := eq_append_of_digits? lastRead
    refine ⟨firstNumeral, lastNumeral, rest, ?_⟩
    rw [eq_append_of_after? opened, firstText, eq_append_of_after? parted, lastText,
      eq_append_of_after? closed]
    simp only [wording, List.append_assoc]
  · rintro ⟨firstNumeral, lastNumeral, rest, rfl⟩
    obtain ⟨parting, middle_eq, -⟩ := exists_middle_eq
    have firstRead : digits? (first ++ (middle ++ (last ++ (closing ++ rest)))) =
        some (first, middle ++ (last ++ (closing ++ rest))) := by
      rw [middle_eq]
      exact digits?_append firstNumeral rfl _
    have lastRead : digits? (last ++ (closing ++ rest)) = some (last, closing ++ rest) := by
      rw [closing_eq]
      exact digits?_append lastNumeral rfl _
    simp only [wording, List.append_assoc, after?_append, Option.bind_some, firstRead, lastRead]

/-! ## The first hint -/

/-- What ends a hint does not begin another one, unless it is the whole of it. -/
theorem no_overlap {char : Char} {before overlap : List Char} {other another : List Char}
    (firstNumeral : IsNumeral first) (lastNumeral : IsNumeral last)
    (otherNumeral : IsNumeral other) (anotherNumeral : IsNumeral another)
    (ends : wording other another = char :: before ++ overlap)
    (begins : overlap <+: wording first last ++ rest) : overlap = [] := by
  obtain ⟨tail, earlier, noThird⟩ := exists_wording_eq otherNumeral anotherNumeral
  obtain ⟨later, next, -⟩ := exists_wording_eq firstNumeral lastNumeral
  rw [next] at begins
  have lastEnd : ∀ final, overlap.getLast? = some final → final = ']' := by
    intro final isLast
    have closes := congrArg List.getLast? ends
    rw [wording_eq_concat, List.getLast?_concat, List.getLast?_append, isLast] at closes
    exact (Option.some.inj closes).symm
  obtain ⟨remainder, shared⟩ := begins
  match overlap with
  | [] => rfl
  | [one] =>
      simp only [List.cons_append, List.cons.injEq] at shared
      have isClosing := lastEnd one rfl
      rw [shared.1] at isClosing
      cases isClosing
  | [one, two] =>
      simp only [List.cons_append, List.cons.injEq] at shared
      have isClosing := lastEnd two rfl
      rw [shared.2.1] at isClosing
      cases isClosing
  | one :: two :: three :: others =>
      simp only [List.cons_append, List.cons.injEq] at shared
      obtain ⟨-, -, rfl, -⟩ := shared
      -- The third letter would come again.
      have beyond := congrArg (List.drop 3) (earlier.symm.trans ends)
      rw [List.append_cons, List.append_cons, List.drop_append_of_le_length (by simp)] at beyond
      change tail = _ at beyond
      rw [beyond] at noThird
      exact absurd (List.mem_append_right _ List.mem_cons_self) noThird

/-- A hint that begins before another one ends before that too. -/
theorem wording_ends_before {char : Char} {before : List Char} {other another : List Char}
    (firstNumeral : IsNumeral first) (lastNumeral : IsNumeral last)
    (otherNumeral : IsNumeral other) (anotherNumeral : IsNumeral another)
    (begins : wording other another <+: char :: before ++ (wording first last ++ rest)) :
    wording other another <+: char :: before := by
  obtain ⟨later, whole⟩ := begins
  rcases List.append_eq_append_iff.mp whole with ⟨between, within, -⟩ | ⟨overlap, ends, begins⟩
  · exact ⟨between, within.symm⟩
  · have none := no_overlap firstNumeral lastNumeral otherNumeral anotherNumeral ends
      ⟨later, begins.symm⟩
    rw [none, List.append_nil] at ends
    exact ⟨[], (List.append_nil _).trans ends⟩

/-- A hint at the start of a text in lower case is a part of the text. -/
theorem HintFree.not_begins (free : HintFree text) (firstNumeral : IsNumeral first)
    (lastNumeral : IsNumeral last) : ¬ wording first last <+: text.map Text.foldCase := by
  intro begins
  obtain ⟨part, isPart, same⟩ := List.prefix_map_iff.mp begins
  exact free part isPart.isInfix first last ⟨firstNumeral, lastNumeral, same.symm⟩

theorem HintFree.of_suffix {part : List Char} (free : HintFree text) (ends : part <:+ text) :
    HintFree part :=
  fun inner isInner => free inner (isInner.trans ends.isInfix)

/-- What has no hint in it is passed over. -/
theorem find?_append (isHint : IsHint text first last) {before : List Char}
    (free : HintFree before) (rest : List Char) :
    find? (before.map Text.foldCase ++ (wording first last ++ rest)) = some (first, last) := by
  induction before with
  | nil =>
      obtain ⟨tail, begins, -⟩ := exists_wording_eq isHint.firstNumeral isHint.lastNumeral
      have read : atStart? (wording first last ++ rest) = some (first, last) :=
        atStart?_eq_some_iff.mpr
          ⟨isHint.firstNumeral, isHint.lastNumeral, List.prefix_append _ _⟩
      rw [List.map_nil, List.nil_append]
      rw [begins, List.cons_append] at read ⊢
      rw [find?, read]
  | cons char before ih =>
      rw [List.map_cons, List.cons_append, find?]
      cases read : atStart? (Text.foldCase char ::
          (before.map Text.foldCase ++ (wording first last ++ rest))) with
      | none => exact ih (free.of_suffix (List.suffix_cons char before))
      | some hint =>
          obtain ⟨firstNumeral, lastNumeral, begins⟩ := atStart?_eq_some_iff.mp read
          exact absurd
            (wording_ends_before isHint.firstNumeral isHint.lastNumeral firstNumeral
              lastNumeral begins)
            (free.not_begins firstNumeral lastNumeral)

theorem hintFree_nil : HintFree [] := by
  rintro part isPart first last ⟨firstNumeral, lastNumeral, same⟩
  obtain ⟨tail, begins, -⟩ := exists_wording_eq firstNumeral lastNumeral
  rw [List.infix_nil.mp isPart, begins] at same
  cases same

theorem hintFree_cons_iff (char : Char) (text : List Char) :
    HintFree (char :: text) ↔
      atStart? ((char :: text).map Text.foldCase) = none ∧ HintFree text := by
  constructor
  · intro free
    refine ⟨Option.eq_none_iff_forall_ne_some.mpr ?_, free.of_suffix (List.suffix_cons char text)⟩
    rintro ⟨first, last⟩ read
    obtain ⟨firstNumeral, lastNumeral, begins⟩ := atStart?_eq_some_iff.mp read
    exact free.not_begins firstNumeral lastNumeral begins
  · rintro ⟨unread, free⟩ part isPart first last isHint
    rcases List.infix_cons_iff.mp isPart with begins | inner
    · have read := atStart?_eq_some_iff.mpr ⟨isHint.firstNumeral, isHint.lastNumeral,
        isHint.wording_eq ▸ begins.map Text.foldCase⟩
      rw [unread] at read
      cases read
    · exact free part inner first last isHint

/-- No hint is found just if no part is one. -/
theorem find?_eq_none_iff (text : List Char) :
    find? (text.map Text.foldCase) = none ↔ HintFree text := by
  induction text with
  | nil => exact iff_of_true rfl hintFree_nil
  | cons char text ih =>
      rw [hintFree_cons_iff, ← ih, List.map_cons, find?]
      cases atStart? (Text.foldCase char :: text.map Text.foldCase) <;> simp

/-- A text with a hint in it has a first one. -/
theorem hintFree_or_exists_first (text : List Char) :
    HintFree text ∨ ∃ before hint after first last, text = before ++ hint ++ after ∧
      HintFree before ∧ IsHint hint first last := by
  induction text with
  | nil => exact .inl hintFree_nil
  | cons char text ih =>
      cases read : atStart? ((char :: text).map Text.foldCase) with
      | some ends =>
          obtain ⟨firstNumeral, lastNumeral, begins⟩ := atStart?_eq_some_iff.mp read
          obtain ⟨hint, ⟨after, whole⟩, same⟩ := List.prefix_map_iff.mp begins
          exact .inr ⟨[], hint, after, ends.1, ends.2, whole.symm, hintFree_nil,
            firstNumeral, lastNumeral, same.symm⟩
      | none =>
          rcases ih with free | ⟨before, hint, after, first, last, rfl, free, isHint⟩
          · exact .inl ((hintFree_cons_iff char text).mpr ⟨read, free⟩)
          · refine .inr ⟨char :: before, hint, after, first, last, rfl, ?_, isHint⟩
            refine (hintFree_cons_iff char before).mpr ⟨?_, free⟩
            refine Option.eq_none_iff_forall_ne_some.mpr fun ends readBefore => ?_
            obtain ⟨firstNumeral, lastNumeral, begins⟩ := atStart?_eq_some_iff.mp readBefore
            have longer := begins.trans
              ((List.prefix_append (char :: before) (hint ++ after)).map Text.foldCase)
            rw [← List.append_assoc, List.cons_append, List.cons_append] at longer
            rw [atStart?_eq_some_iff.mpr ⟨firstNumeral, lastNumeral, longer⟩] at read
            cases read

/-! ## Heights -/

/-- The digits of a height with zeros before them. -/
def paddedNumeral (zeros : Nat) (height : UInt64) : List Char :=
  List.replicate zeros '0' ++ (digitsOf 16 height.toNat).map Hex.digit

theorem isNumeral_paddedNumeral (zeros : Nat) (height : UInt64) :
    IsNumeral (paddedNumeral zeros height) := by
  constructor
  · obtain ⟨first, rest, written, -⟩ :=
      exists_digitsOf_eq_cons (show 2 ≤ 16 by decide) height.toNat
    simp [paddedNumeral, written]
  · intro char member
    rcases List.mem_append.mp member with padding | isDigit
    · rw [List.eq_of_mem_replicate padding]
      rfl
    · obtain ⟨value, ofHeight, rfl⟩ := List.mem_map.mp isDigit
      rw [Hex.digit?_digit (lt_of_mem_digitsOf (by decide) ofHeight)]
      rfl

theorem number_paddedNumeral (zeros : Nat) (height : UInt64) :
    Hex.number (paddedNumeral zeros height) = height.toNat := by
  have padding : ∀ zeros, Hex.number (List.replicate zeros '0') = 0 := by
    intro zeros
    induction zeros with
    | zero => rfl
    | succ zeros ih => exact ih
  have small : ∀ digit ∈ digitsOf 16 height.toNat, digit < 16 :=
    fun _ member => lt_of_mem_digitsOf (by decide) member
  rw [Hex.number, paddedNumeral, List.foldl_append]
  change List.foldl _ (Hex.number (List.replicate zeros '0')) _ = _
  rw [padding]
  exact (Hex.number_map_digit small).trans (numberOfDigits_digitsOf (by decide) _)

theorem height?_eq (digits : List Char) :
    height? digits =
      if Hex.number digits < UInt64.size then some (UInt64.ofNat (Hex.number digits))
      else none := rfl

theorem height?_paddedNumeral (zeros : Nat) (height : UInt64) :
    height? (paddedNumeral zeros height) = some height := by
  rw [height?_eq, number_paddedNumeral, if_pos height.toNat_lt_size, UInt64.ofNat_toNat]

theorem height?_of_size_le (large : UInt64.size ≤ Hex.number digits) : height? digits = none := by
  rw [height?_eq, if_neg (Nat.not_lt.mpr large)]

/-- Of the characters of one byte only `s` and `k` represent longer ones. -/
theorem utf8Size_of_foldCase {char folded : Char} (same : Text.foldCase char = folded)
    (short : folded.utf8Size = 1) (notS : folded ≠ 's') (notK : folded ≠ 'k') :
    char.utf8Size = 1 := by
  rw [Text.foldCase] at same
  split at same
  · exact absurd same.symm notS
  split at same
  · exact absurd same.symm notK
  by_cases upper : char.val ≥ 'A'.val ∧ char.val ≤ 'Z'.val
  · exact Char.utf8Size_eq_one_iff.mpr (UInt32.le_trans upper.2 (by decide))
  · have kept : char.toLower = char := dif_neg upper
    rw [← kept, same, short]

/-- The mark of a numeral takes two bytes in any case, so its digits begin after these. -/
theorem utf8ByteSize_mark {mark : List Char} (isMark : mark.map Text.foldCase = ['0', 'x']) :
    (String.ofList mark).utf8ByteSize = 2 := by
  obtain ⟨zero, others, rfl, isZero, isMark⟩ := List.map_eq_cons_iff.mp isMark
  obtain ⟨letter, ended, rfl, isLetter, isEnded⟩ := List.map_eq_cons_iff.mp isMark
  obtain rfl := List.map_eq_nil_iff.mp isEnded
  have zeroSize := utf8Size_of_foldCase isZero (by decide) (by decide) (by decide)
  have letterSize := utf8Size_of_foldCase isLetter (by decide) (by decide) (by decide)
  simp [zeroSize, letterSize]

end RangeHint

namespace HeightRange

open RangeHint

theorem suggested?_ordered {message : String} {hint : HeightRange}
    (suggested : suggested? message = some hint) : hint.first ≤ hint.last := by
  rw [suggested?] at suggested
  obtain ⟨_, -, suggested⟩ := Option.bind_eq_some_iff.mp suggested
  obtain ⟨_, -, suggested⟩ := Option.bind_eq_some_iff.mp suggested
  obtain ⟨_, -, suggested⟩ := Option.bind_eq_some_iff.mp suggested
  split at suggested
  · rename_i ordered
    cases suggested
    exact ordered
  · cases suggested

theorem suggested?_of_hintFree {text : List Char} (free : HintFree text) :
    suggested? (String.ofList text) = none := by
  rw [suggested?, String.toList_ofList, (find?_eq_none_iff text).mpr free]
  rfl

/-- What follows a hint does not count. -/
theorem suggested?_append {before hint first last : List Char} (free : HintFree before)
    (isHint : IsHint hint first last) (after : List Char) :
    suggested? (String.ofList (before ++ hint ++ after)) =
      (height? first).bind fun low => (height? last).bind fun high =>
        if low ≤ high then some ⟨low, high⟩ else none := by
  have found := find?_append isHint free (after.map Text.foldCase)
  rw [← isHint.wording_eq, ← List.append_assoc, ← List.map_append, ← List.map_append] at found
  rw [suggested?, String.toList_ofList, found]
  rfl

/-- The ends of a range are in order.  A message has no hint in it and suggests nothing, or it
suggests what its first hint says, whatever stands around that: the range of both heights if they
are in order, and nothing if they are not or one of the numbers is too large.  The mark before the
digits of a height takes two bytes in any case. -/
theorem suggested?_firstHint :
    (∀ message range, suggested? message = some range → range.first ≤ range.last) ∧
    (∀ text, HintFree text → suggested? (String.ofList text) = none) ∧
    (∀ text, HintFree text ∨ ∃ before hint after first last, text = before ++ hint ++ after ∧
      HintFree before ∧ IsHint hint first last) ∧
    (∀ before hint after zeros moreZeros low high, HintFree before →
      hint.map Text.foldCase = wording (paddedNumeral zeros low) (paddedNumeral moreZeros high) →
      suggested? (String.ofList (before ++ hint ++ after)) =
        if low ≤ high then some ⟨low, high⟩ else none) ∧
    (∀ before hint after first last, HintFree before → IsHint hint first last →
      UInt64.size ≤ Hex.number first ∨ UInt64.size ≤ Hex.number last →
      suggested? (String.ofList (before ++ hint ++ after)) = none) ∧
    ∀ mark, mark.map Text.foldCase = ['0', 'x'] → (String.ofList mark).utf8ByteSize = 2 := by
  refine ⟨?ordered, ?hintFree, hintFree_or_exists_first, ?heights, ?tooLarge,
    fun _ => utf8ByteSize_mark⟩
  case ordered => exact fun _ _ => suggested?_ordered
  case hintFree => exact fun _ => suggested?_of_hintFree
  case heights =>
    intro before hint after zeros moreZeros low high free wording_eq
    have isHint : IsHint hint (paddedNumeral zeros low) (paddedNumeral moreZeros high) :=
      ⟨isNumeral_paddedNumeral zeros low, isNumeral_paddedNumeral moreZeros high, wording_eq⟩
    rw [suggested?_append free isHint, height?_paddedNumeral, height?_paddedNumeral]
    rfl
  case tooLarge =>
    intro before hint after first last free isHint large
    rw [suggested?_append free isHint]
    rcases large with large | large
    · rw [height?_of_size_le large]
      rfl
    · rw [height?_of_size_le large]
      exact Option.bind_fun_none _

/-- A hint in mixed case with zeros before the digits of its first height. -/
theorem suggested?_mixedCase :
    suggested?
      "query returned more than 10000 results. Try with this Block range [0x0064, 0X6E]." =
        some ⟨100, 110⟩ := by
  have free : HintFree "query returned more than 10000 results. ".toList :=
    (find?_eq_none_iff _).mp (by decide)
  have wording_eq : "Try with this Block range [0x0064, 0X6E]".toList.map Text.foldCase =
      wording (paddedNumeral 2 100) (paddedNumeral 0 110) := by
    have low : paddedNumeral 2 100 = "0064".toList := by decide +kernel
    have high : paddedNumeral 0 110 = "6e".toList := by decide +kernel
    rw [low, high, wording, opening, middle, closing]
    decide
  have parts : "query returned more than 10000 results. Try with this Block range [0x0064, 0X6E]." =
      String.ofList ("query returned more than 10000 results. ".toList ++
        "Try with this Block range [0x0064, 0X6E]".toList ++ ".".toList) := by
    decide +kernel
  have ordered : (100 : UInt64) ≤ 110 := by decide
  rw [parts, suggested?_firstHint.2.2.2.1 _ _ ".".toList 2 0 100 110 free wording_eq,
    if_pos ordered]

end HeightRange

end ChainFeed
