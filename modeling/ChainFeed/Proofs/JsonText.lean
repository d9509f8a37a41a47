import ChainFeed.Json.Text
import ChainFeed.Proofs.HexText
import Mathlib.Data.List.Basic

/-!
# JSON text read back

A document is read back from the text that it is written as, unless it holds what no text
stands for: an integer beyond 64 bits or a literal that is no text.  The reader is given
two steps for each character, which is enough for any nesting.
-/

namespace ChainFeed.Json

/-! ## String literals -/

/-- The piece that a character is read as: control characters are written by their number. -/
def pieceOf (char : Char) : Piece :=
  if char.toNat < 32 then .unit char.toNat else .char char

theorem escapeUnit?_digits {number : Nat} (small : number < 32) :
    escapeUnit? ['0', '0', Hex.digit (number / 16), Hex.digit (number % 16)] =
      some (number, []) := by
  have each : ∀ number < 32,
      escapeUnit? ['0', '0', Hex.digit (number / 16), Hex.digit (number % 16)] =
        some (number, []) := by decide
  exact each number small

theorem pieces?_literalChar (char : Char) (rest : List Char) :
    pieces? (literalChar char ++ rest) =
      (pieces? rest).map fun (later, remaining) => (pieceOf char :: later, remaining) := by
  unfold literalChar
  split
  case isTrue marked =>
    rcases marked with rfl | rfl <;> cases found : pieces? rest <;>
      simp [pieces?, escapedChar?, pieceOf, found]
  case isFalse unmarked =>
    rw [not_or] at unmarked
    split
    case isTrue small =>
      simp only [List.cons_append, List.nil_append]
      rw [pieces?, escapeUnit?_digits small]
      cases found : pieces? rest <;> simp [pieceOf, small]
    case isFalse large =>
      rw [List.singleton_append, pieces?]
      · cases found : pieces? rest <;> simp [pieceOf, large, unmarked.2]
      · exact unmarked.1
      · intro _ _ _ _ _ isBackslash
        exact absurd isBackslash unmarked.2
      · intro _ _ isBackslash
        exact absurd isBackslash unmarked.2

/-- A literal is read up to its closing quote. -/
theorem pieces?_literal (chars rest : List Char) :
    pieces? (chars.flatMap literalChar ++ '"' :: rest) = some (chars.map pieceOf, rest) := by
  induction chars with
  | nil => simp [pieces?]
  | cons char chars ih =>
      rw [List.flatMap_cons, List.append_assoc, pieces?_literalChar, ih]
      rfl

/-- No two written pieces are half a character each. -/
theorem joinPieces_map_pieceOf (chars : List Char) :
    joinPieces (chars.map pieceOf) = some chars := by
  induction chars with
  | nil => rfl
  | cons char rest ih =>
      rw [List.map_cons, pieceOf]
      split
      case isFalse => rw [joinPieces, ih, Option.map_some]
      case isTrue small =>
        cases rest with
        | nil => simp [joinPieces, show ¬ 0xd800 ≤ char.toNat by omega, Char.ofNat_toNat]
        | cons other later =>
            rw [List.map_cons] at ih ⊢
            cases found : pieceOf other with
            | char value =>
                rw [found] at ih
                rw [joinPieces, if_neg (by omega), ih, Char.ofNat_toNat, Option.map_some]
                simp
            | unit value =>
                rw [found] at ih
                rw [joinPieces, if_neg (by omega), if_neg (by omega), ih, Char.ofNat_toNat,
                  Option.map_some]

/-! ## Numerals -/

theorem naturalOf_toDigits (number : Nat) : naturalOf (Nat.toDigits 10 number) = number :=
  Nat.ofDigitChars_ten_toDigits

theorem isDigit_of_mem_toDigits {number : Nat} {char : Char}
    (member : char ∈ Nat.toDigits 10 number) : char.isDigit = true :=
  Nat.isDigit_of_mem_toDigits (by decide) (by decide) member

/-- A positive number is written without leading zeros. -/
theorem head?_toDigits_ne_zero {number : Nat} (positive : 0 < number) :
    (Nat.toDigits 10 number).head? ≠ some '0' := by
  induction number using Nat.strongRecOn with
  | _ number ih =>
      rcases Nat.lt_or_ge number 10 with small | large
      · have each : ∀ number < 10, 0 < number → [number.digitChar].head? ≠ some '0' := by
          decide
        rw [Nat.toDigits_of_lt_base small]
        exact each number small positive
      · rw [Nat.toDigits_of_base_le (by decide) large, List.head?_append_of_ne_nil _
          Nat.toDigits_ne_nil]
        exact ih (number / 10) (by omega) (by omega)

theorem wholePart_toDigits (number : Nat) : wholePart (Nat.toDigits 10 number) = true := by
  rcases Nat.eq_zero_or_pos number with rfl | positive
  · rfl
  · have headNonzero := head?_toDigits_ne_zero positive
    have nonempty : Nat.toDigits 10 number ≠ [] := Nat.toDigits_ne_nil
    unfold wholePart
    split <;> simp_all

/-- Whether a number cannot go on with the next character. -/
def Stops (rest : List Char) : Prop :=
  ∀ char ∈ rest.head?, char = ',' ∨ char = ']' ∨ char = '\x7d'

/-- Whether digits cannot go on with the next character. -/
def NoDigitFirst (rest : List Char) : Prop :=
  ∀ char ∈ rest.head?, char.isDigit = false

theorem Stops.noDigitFirst {rest : List Char} (stops : Stops rest) : NoDigitFirst rest := by
  intro char first
  rcases stops char first with rfl | rfl | rfl <;> rfl

/-- The digits of a number end where they were written to end. -/
theorem takeWhile_toDigits (number : Nat) {rest : List Char} (noDigit : NoDigitFirst rest) :
    (Nat.toDigits 10 number ++ rest).takeWhile Char.isDigit = Nat.toDigits 10 number ∧
      (Nat.toDigits 10 number ++ rest).dropWhile Char.isDigit = rest := by
  have digits : ∀ char ∈ Nat.toDigits 10 number, char.isDigit = true :=
    fun _ member => isDigit_of_mem_toDigits member
  have stop : rest.takeWhile Char.isDigit = [] ∧ rest.dropWhile Char.isDigit = rest := by
    cases rest with
    | nil => exact ⟨rfl, rfl⟩
    | cons char later =>
        have noDigit := noDigit char rfl
        simp [noDigit]
  rw [List.takeWhile_append_of_pos digits, List.dropWhile_append_of_pos digits, stop.1, stop.2,
    List.append_nil]
  exact ⟨rfl, rfl⟩

/-- The sign of a number, if it has one. -/
def signChars (negative : Bool) : List Char :=
  if negative then ['-'] else []

/-- An integer is written as its sign and the digits of its size. -/
theorem toList_toString_int (value : Int) :
    (toString value).toList = signChars (decide (value < 0)) ++ Nat.toDigits 10 value.natAbs := by
  cases value with
  | ofNat size =>
      have notNegative : decide (Int.ofNat size < 0) = false :=
        decide_eq_false (Int.not_lt.mpr (Int.natCast_nonneg size))
      rw [notNegative]
      exact String.toList_ofList
  | negSucc size =>
      rw [decide_eq_true (by omega)]
      exact String.toList_append.trans (congrArg _ String.toList_ofList)

/-- Digits begin with no sign. -/
theorem toDigits_append_ne_cons {size : Nat} {rest unsigned : List Char} {mark : Char}
    (noDigit : mark.isDigit = false) : Nat.toDigits 10 size ++ rest ≠ mark :: unsigned := by
  intro isMarked
  have first := congrArg List.head? isMarked
  rw [List.head?_append_of_ne_nil _ Nat.toDigits_ne_nil] at first
  have isDigit := isDigit_of_mem_toDigits (List.mem_of_head? first)
  rw [noDigit] at isDigit
  exact Bool.false_ne_true isDigit

/-- A signed number is read up to its last digit, and then its fraction and exponent. -/
theorem number?_toDigits (negative : Bool) (size : Nat) {rest : List Char}
    (noDigit : NoDigitFirst rest) :
    number? (signChars negative ++ Nat.toDigits 10 size ++ rest) =
      (fraction? rest).bind fun (fraction, afterFraction) =>
        (exponent? afterFraction).bind fun (exponent, later) =>
          some (numberOf negative (Nat.toDigits 10 size) fraction exponent, later) := by
  obtain ⟨taken, dropped⟩ := takeWhile_toDigits size noDigit
  have whole := wholePart_toDigits size
  cases negative with
  | true =>
      simp only [signChars, if_true, List.cons_append, List.nil_append, number?, taken, dropped,
        whole]
      rfl
  | false =>
      rw [signChars, if_neg Bool.false_ne_true, List.nil_append, number?]
      · simp only [taken, dropped, whole, if_true]
        rfl
      · exact fun _ => toDigits_append_ne_cons rfl

theorem fraction?_of_stops {rest : List Char} (stops : Stops rest) :
    fraction? rest = some (none, rest) := by
  cases rest with
  | nil => rfl
  | cons char later =>
      rcases stops char rfl with rfl | rfl | rfl <;> rfl

theorem exponent?_of_stops {rest : List Char} (stops : Stops rest) :
    exponent? rest = some (none, rest) := by
  cases rest with
  | nil => rfl
  | cons char later =>
      rcases stops char rfl with rfl | rfl | rfl <;> rfl

/-- Integers of 64 bits are read back. -/
theorem number?_int {value : Int} (atLeast : Int64.minValue.toInt ≤ value)
    (below : value < UInt64.size) {rest : List Char} (stops : Stops rest) :
    number? ((toString value).toList ++ rest) = some (.int value, rest) := by
  have isInteger : numberOf (decide (value < 0)) (Nat.toDigits 10 value.natAbs) none none =
      .int value := by
    have signed : (if decide (value < 0) = true then -(value.natAbs : Int) else value.natAbs) =
        value := by
      by_cases negative : value < 0
      · rw [if_pos (decide_eq_true negative)]
        omega
      · rw [if_neg (by simpa using negative)]
        omega
    simp only [numberOf, naturalOf_toDigits, signed]
    rw [if_neg]
    simp only [decide_eq_true_eq]
    omega
  rw [toList_toString_int, number?_toDigits _ _ stops.noDigitFirst, fraction?_of_stops stops]
  simp only [Option.bind_some, exponent?_of_stops stops, isInteger]

theorem exponent?_int (exponent : Int) {rest : List Char} (stops : Stops rest) :
    exponent? ('e' :: ((toString exponent).toList ++ rest)) = some (some exponent, rest) := by
  obtain ⟨taken, dropped⟩ := takeWhile_toDigits exponent.natAbs stops.noDigitFirst
  have nonempty : (Nat.toDigits 10 exponent.natAbs).isEmpty = false :=
    List.isEmpty_eq_false_iff.mpr Nat.toDigits_ne_nil
  rw [toList_toString_int]
  cases negative : decide (exponent < 0) with
  | true =>
      rw [decide_eq_true_eq] at negative
      have size : -(exponent.natAbs : Int) = exponent := by omega
      generalize exponent.natAbs = digits at taken dropped nonempty size ⊢
      rw [signChars, if_pos rfl, List.singleton_append, List.cons_append, exponent?]
      simp [taken, dropped, nonempty, naturalOf_toDigits, size]
  | false =>
      rw [decide_eq_false_iff_not] at negative
      have size : (exponent.natAbs : Int) = exponent := by omega
      generalize exponent.natAbs = digits at taken dropped nonempty size ⊢
      rw [signChars, if_neg Bool.false_ne_true, List.nil_append, exponent?]
      · simp [taken, dropped, nonempty, naturalOf_toDigits, size]
      · exact fun _ => toDigits_append_ne_cons rfl
      · exact fun _ => toDigits_append_ne_cons rfl

/-- A decimal is written with its exponent, as a whole number is not. -/
theorem chars_decimal (value : Decimal) :
    chars (.decimal value) =
      signChars value.negative ++ Nat.toDigits 10 value.digits ++
        'e' :: (toString value.exponent).toList := by
  have digits : (toString value.digits).toList = Nat.toDigits 10 value.digits :=
    String.toList_ofList
  rw [chars, digits, signChars]

/-- Decimals are read back. -/
theorem number?_decimal (value : Decimal) {rest : List Char} (stops : Stops rest) :
    number? (chars (.decimal value) ++ rest) = some (.decimal value, rest) := by
  have noDigit : NoDigitFirst ('e' :: ((toString value.exponent).toList ++ rest)) := by
    rintro _ ⟨⟩
    rfl
  rw [chars_decimal, List.append_assoc, List.cons_append, number?_toDigits _ _ noDigit]
  rw [fraction?, Option.bind_some]
  · dsimp only
    rw [exponent?_int _ stops]
    simp [numberOf, naturalOf_toDigits]
  · simp

/-! ## Documents -/

/-- Documents that a text stands for. -/
inductive Writable : Json → Prop
  | null : Writable null
  | bool (value : Bool) : Writable (bool value)
  | int {value : Int} : Int64.minValue.toInt ≤ value → value < UInt64.size → Writable (int value)
  | decimal (value : Decimal) : Writable (decimal value)
  | str (text : String) : Writable (str text)
  | arr {items : List Json} : (∀ item ∈ items, Writable item) → Writable (arr items)
  | obj {members : List (String × Json)} :
      (∀ member ∈ members, Writable member.2) → Writable (obj members)

theorem skipBlanks_cons {char : Char} (noBlank : char ∉ [' ', '\t', '\n', '\r'])
    (later : List Char) : skipBlanks (char :: later) = char :: later := by
  simp only [List.mem_cons, List.not_mem_nil, or_false, not_or] at noBlank
  rw [skipBlanks] <;> simp_all

/-- Whether a text begins neither with a blank nor with a closing bracket. -/
def BeginsValue (text : List Char) : Prop :=
  ∃ char later, text = char :: later ∧ char ∉ [' ', '\t', '\n', '\r'] ∧ char ≠ ']'

namespace BeginsValue

variable {text : List Char}

theorem append (begins : BeginsValue text) (rest : List Char) : BeginsValue (text ++ rest) := by
  obtain ⟨char, later, rfl, other⟩ := begins
  exact ⟨char, later ++ rest, rfl, other⟩

theorem skipBlanks_eq (begins : BeginsValue text) : skipBlanks text = text := by
  obtain ⟨char, later, rfl, noBlank, _⟩ := begins
  exact skipBlanks_cons noBlank later

theorem ne_closing (begins : BeginsValue text) (rest : List Char) : text ≠ ']' :: rest := by
  obtain ⟨char, later, rfl, _, other⟩ := begins
  intro same
  exact other (List.cons.inj same).1

end BeginsValue

/-- A document whose text is read back, if something follows that ends a value. -/
structure ReadsBack (document : Json) : Prop where
  begins : BeginsValue document.chars
  reads : ∀ (steps : Nat) (rest : List Char), 2 * document.chars.length ≤ steps → Stops rest →
    value? steps (document.chars ++ rest) = some (document, rest)

/-- No number begins with a mark that is neither a digit nor a sign. -/
theorem not_mem_of_begins_number {char : Char} {marks : List Char}
    (begins : char.isDigit = true ∨ char = '-')
    (other : ∀ mark ∈ marks, mark.isDigit = false ∧ mark ≠ '-') : char ∉ marks := by
  intro member
  rcases begins with digit | sign
  · exact Bool.false_ne_true ((other char member).1.symm.trans digit)
  · exact (other char member).2 sign

/-- What begins like a number is read as one. -/
theorem value?_of_number {steps : Nat} {char : Char} {later : List Char}
    (begins : char.isDigit = true ∨ char = '-') :
    value? (steps + 1) (char :: later) = number? (char :: later) := by
  have other : char ∉ ['n', 't', 'f', '"', '[', '\x7b'] :=
    not_mem_of_begins_number begins (by simp)
  simp only [List.mem_cons, List.not_mem_nil, or_false, not_or] at other
  rw [value?] <;> simp_all

/-- A number begins with its sign or with a digit. -/
theorem signChars_append_toDigits (negative : Bool) (size : Nat) :
    ∃ char later, signChars negative ++ Nat.toDigits 10 size = char :: later ∧
      (char.isDigit = true ∨ char = '-') := by
  cases negative with
  | true => exact ⟨'-', _, rfl, Or.inr rfl⟩
  | false =>
      obtain ⟨char, later, digits⟩ := List.exists_cons_of_ne_nil
        (@Nat.toDigits_ne_nil size 10)
      refine ⟨char, later, digits, Or.inl ?_⟩
      exact isDigit_of_mem_toDigits (digits ▸ List.mem_cons_self)

theorem ReadsBack.of_number {document : Json} {tail : List Char} {negative : Bool} {size : Nat}
    (written : document.chars = signChars negative ++ Nat.toDigits 10 size ++ tail)
    (reads : ∀ rest, Stops rest → number? (document.chars ++ rest) = some (document, rest)) :
    ReadsBack document := by
  obtain ⟨char, later, first, begins⟩ := signChars_append_toDigits negative size
  rw [first, List.cons_append] at written
  constructor
  case begins =>
    have noMark : char ∉ [' ', '\t', '\n', '\r', ']'] :=
      not_mem_of_begins_number begins (by simp)
    refine ⟨char, later ++ tail, written, ?_, ?_⟩
    · exact fun member => noMark (List.mem_append_left [']'] member)
    · exact fun same => noMark (by simp [same])
  case reads =>
    intro steps rest enough stops
    have number := reads rest stops
    rw [written, List.cons_append] at number ⊢
    cases steps with
    | zero => simp [written] at enough
    | succ steps => rw [value?_of_number begins, number]

theorem items?_last {steps : Nat} {text rest : List Char} {item : Json}
    (reads : value? steps text = some (item, ']' :: rest)) :
    items? (steps + 1) text = some ([item], rest) := by
  rw [items?, reads]
  rfl

theorem items?_next {steps : Nat} {text following : List Char} {item : Json}
    (reads : value? steps text = some (item, ',' :: following)) :
    items? (steps + 1) text =
      (items? steps (skipBlanks following)).map fun (items, rest) => (item :: items, rest) := by
  rw [items?, reads]
  change (do
    let (items, remaining) ← items? steps (skipBlanks following)
    pure (item :: items, remaining)) = _
  cases items? steps (skipBlanks following) <;> rfl

/-- The items of an array are read back. -/
theorem items?_charsItems {items : List Json} (nonempty : items ≠ [])
    (each : ∀ item ∈ items, ReadsBack item) {steps : Nat} {rest : List Char}
    (enough : 2 * (charsItems true items).length + 1 ≤ steps) :
    items? steps (charsItems true items ++ ']' :: rest) = some (items, rest) := by
  induction items generalizing steps with
  | nil => exact absurd rfl nonempty
  | cons item items ih =>
      obtain ⟨first, later⟩ := List.forall_mem_cons.mp each
      cases steps with
      | zero => omega
      | succ steps =>
          cases items with
          | nil =>
              have written : charsItems true [item] = item.chars := List.append_nil _
              rw [written] at enough ⊢
              exact items?_last (first.reads steps (']' :: rest) (by omega) (by simp [Stops]))
          | cons other others =>
              have written : charsItems true (item :: other :: others) =
                  item.chars ++ ',' :: charsItems true (other :: others) := rfl
              simp only [written, List.length_append, List.length_cons] at enough
              have begins : BeginsValue (charsItems true (other :: others)) :=
                (List.forall_mem_cons.mp later).1.begins.append _
              have reads := first.reads steps
                (',' :: (charsItems true (other :: others) ++ ']' :: rest)) (by omega)
                (by simp [Stops])
              rw [written, List.append_assoc, List.cons_append, items?_next reads,
                (begins.append _).skipBlanks_eq, ih (by simp) later (by omega)]
              rfl

/-- A member with its name as a text that was read. -/
def readMember (member : String × Json) : Option String × Json :=
  (some member.1, member.2)

theorem mapM_map_readMember {read : Option String × Json → Option (String × Json)}
    (each : ∀ member, read (readMember member) = some member) (members : List (String × Json)) :
    (members.map readMember).mapM read = some members := by
  induction members with
  | nil => rfl
  | cons member members ih =>
      rw [List.map_cons, List.mapM_cons, each, ih]
      rfl

theorem objectOf_map_readMember (members : List (String × Json)) :
    objectOf (members.map readMember) = obj members := by
  rw [objectOf, mapM_map_readMember fun _ => rfl]

theorem literal_append (text : String) (rest : List Char) :
    literal text ++ rest = '"' :: (text.toList.flatMap literalChar ++ '"' :: rest) := by
  simp [literal]

/-- The name of a member is read back, and then its value is read. -/
theorem members?_literal (steps : Nat) (name : String) (text : List Char) :
    members? (steps + 1) (literal name ++ ':' :: text) =
      (do
        let (value, rest) ← value? steps (skipBlanks text)
        match skipBlanks rest with
        | '\x7d' :: remaining => pure ([readMember (name, value)], remaining)
        | ',' :: following => do
            let (members, remaining) ← members? steps (skipBlanks following)
            pure (readMember (name, value) :: members, remaining)
        | _ => none) := by
  have named : (joinPieces (name.toList.map pieceOf)).map String.ofList = some name := by
    rw [joinPieces_map_pieceOf, Option.map_some, String.ofList_toList]
  rw [literal_append, members?, pieces?_literal]
  simp only [Option.bind_eq_bind, Option.bind_some, named]
  rw [skipBlanks_cons (by decide)]
  rfl

theorem members?_last {steps : Nat} {name : String} {text rest : List Char} {value : Json}
    (reads : value? steps (skipBlanks text) = some (value, '\x7d' :: rest)) :
    members? (steps + 1) (literal name ++ ':' :: text) =
      some ([readMember (name, value)], rest) := by
  rw [members?_literal, reads]
  rfl

theorem members?_next {steps : Nat} {name : String} {text following : List Char} {value : Json}
    (reads : value? steps (skipBlanks text) = some (value, ',' :: following)) :
    members? (steps + 1) (literal name ++ ':' :: text) =
      (members? steps (skipBlanks following)).map fun (members, rest) =>
        (readMember (name, value) :: members, rest) := by
  rw [members?_literal, reads]
  change (do
    let (members, remaining) ← members? steps (skipBlanks following)
    pure (readMember (name, value) :: members, remaining)) = _
  cases members? steps (skipBlanks following) <;> rfl

/-- The members of an object are read back. -/
theorem members?_charsMembers {members : List (String × Json)} (nonempty : members ≠ [])
    (each : ∀ member ∈ members, ReadsBack member.2) {steps : Nat} {rest : List Char}
    (enough : 2 * (charsMembers true members).length + 1 ≤ steps) :
    members? steps (charsMembers true members ++ '\x7d' :: rest) =
      some (members.map readMember, rest) := by
  induction members generalizing steps with
  | nil => exact absurd rfl nonempty
  | cons member members ih =>
      obtain ⟨name, value⟩ := member
      obtain ⟨first, later⟩ := List.forall_mem_cons.mp each
      cases steps with
      | zero => omega
      | succ steps =>
          cases members with
          | nil =>
              have written : charsMembers true [(name, value)] =
                  literal name ++ ':' :: value.chars := by simp [charsMembers]
              simp only [written, List.length_append, List.length_cons] at enough
              have reads := first.reads steps ('\x7d' :: rest) (by dsimp only; omega)
                (by simp [Stops])
              rw [written, List.append_assoc, List.cons_append]
              apply members?_last
              rw [(first.begins.append _).skipBlanks_eq]
              exact reads
          | cons other others =>
              have written : charsMembers true ((name, value) :: other :: others) =
                  literal name ++
                    ':' :: (value.chars ++ ',' :: charsMembers true (other :: others)) := by
                simp [charsMembers]
              simp only [written, List.length_append, List.length_cons] at enough
              have reads := first.reads steps
                (',' :: (charsMembers true (other :: others) ++ '\x7d' :: rest))
                (by dsimp only; omega) (by simp [Stops])
              have noBlank : skipBlanks (charsMembers true (other :: others) ++ '\x7d' :: rest) =
                  charsMembers true (other :: others) ++ '\x7d' :: rest :=
                skipBlanks_cons (by decide) _
              rw [written, List.append_assoc, List.cons_append, List.append_assoc,
                List.cons_append, members?_next, noBlank, ih (by simp) later (by omega)]
              · rfl
              · rw [(first.begins.append _).skipBlanks_eq]
                exact reads

/-! ## Values -/

/-- Values without parts are read in one step. -/
theorem ReadsBack.of_step {document : Json} (begins : BeginsValue document.chars)
    (reads : ∀ steps rest, value? (steps + 1) (document.chars ++ rest) = some (document, rest)) :
    ReadsBack document where
  begins := begins
  reads := by
    intro steps rest enough _
    obtain ⟨char, later, written, _⟩ := begins
    cases steps with
    | zero => simp [written] at enough
    | succ steps => exact reads steps rest

theorem ReadsBack.str (text : String) : ReadsBack (str text) := by
  refine .of_step ⟨'"', _, rfl, by decide, by decide⟩ ?_
  intro steps rest
  rw [chars, literal_append, value?, pieces?_literal]
  simp [joinPieces_map_pieceOf, String.ofList_toList]

theorem value?_bracket {steps : Nat} {inner : List Char} (begins : BeginsValue inner) :
    value? (steps + 1) ('[' :: inner) =
      (items? steps inner).map fun (items, rest) => (arr items, rest) := by
  rw [value?, begins.skipBlanks_eq]
  split
  case h_1 => exact absurd rfl (begins.ne_closing _)
  case h_2 => cases items? steps inner <;> rfl

theorem ReadsBack.arr {items : List Json} (each : ∀ item ∈ items, ReadsBack item) :
    ReadsBack (arr items) where
  begins := ⟨'[', _, rfl, by decide, by decide⟩
  reads := by
    intro steps rest enough _
    simp only [chars, List.length_append, List.length_cons, List.length_nil] at enough
    obtain ⟨steps, rfl⟩ : ∃ fewer, steps = fewer + 1 := ⟨steps - 1, by omega⟩
    cases items with
    | nil => rfl
    | cons item items =>
        have written : (Json.arr (item :: items)).chars ++ rest =
            '[' :: (charsItems true (item :: items) ++ ']' :: rest) := by simp [chars]
        have begins : BeginsValue (charsItems true (item :: items)) :=
          (List.forall_mem_cons.mp each).1.begins.append _
        rw [written, value?_bracket (begins.append _), items?_charsItems (by simp) each (by omega)]
        rfl

theorem value?_brace {steps : Nat} {inner : List Char} (quoted : ∃ later, inner = '"' :: later) :
    value? (steps + 1) ('\x7b' :: inner) =
      (members? steps inner).map fun (members, rest) => (objectOf members, rest) := by
  obtain ⟨later, rfl⟩ := quoted
  rw [value?, skipBlanks_cons (by decide)]
  change (do
    let (members, rest) ← members? steps ('"' :: later)
    pure (objectOf members, rest)) = _
  cases members? steps ('"' :: later) <;> rfl

theorem ReadsBack.obj {members : List (String × Json)}
    (each : ∀ member ∈ members, ReadsBack member.2) : ReadsBack (obj members) where
  begins := ⟨'\x7b', _, rfl, by decide, by decide⟩
  reads := by
    intro steps rest enough _
    simp only [chars, List.length_append, List.length_cons, List.length_nil] at enough
    obtain ⟨steps, rfl⟩ : ∃ fewer, steps = fewer + 1 := ⟨steps - 1, by omega⟩
    cases members with
    | nil => rfl
    | cons member members =>
        have written : (Json.obj (member :: members)).chars ++ rest =
            '\x7b' :: (charsMembers true (member :: members) ++ '\x7d' :: rest) := by
          simp [chars]
        have quoted : ∃ later, charsMembers true (member :: members) ++ '\x7d' :: rest =
            '"' :: later := ⟨_, rfl⟩
        rw [written, value?_brace quoted, members?_charsMembers (by simp) each (by omega),
          Option.map_some]
        dsimp only
        rw [objectOf_map_readMember]

/-- What a text stands for is read back. -/
theorem Writable.readsBack {document : Json} (writable : Writable document) :
    ReadsBack document := by
  induction writable with
  | null => exact .of_step ⟨'n', _, rfl, by decide, by decide⟩ fun _ _ => rfl
  | bool value =>
      cases value with
      | false => exact .of_step ⟨'f', _, rfl, by decide, by decide⟩ fun _ _ => rfl
      | true => exact .of_step ⟨'t', _, rfl, by decide, by decide⟩ fun _ _ => rfl
  | @int value atLeast below =>
      have written : (Json.int value).chars =
          signChars (decide (value < 0)) ++ Nat.toDigits 10 value.natAbs ++ [] := by
        rw [chars, toList_toString_int, List.append_nil]
      exact .of_number written fun rest => number?_int atLeast below
  | decimal value => exact .of_number (chars_decimal value) fun rest => number?_decimal value
  | str text => exact .str text
  | arr _ ih => exact .arr ih
  | obj _ ih => exact .obj ih

/-- A document is read back from the text that it is written as. -/
theorem parse?_render {document : Json} (writable : Writable document) :
    parse? document.render = some document := by
  have readsBack := writable.readsBack
  have reads := readsBack.reads (2 * document.chars.length + 2) [] (by omega) (by simp [Stops])
  rw [List.append_nil] at reads
  rw [parse?, render, String.toList_ofList]
  simp only [readsBack.begins.skipBlanks_eq, reads]
  rfl

end ChainFeed.Json
