import ChainFeed.Block.StateDiff
import ChainFeed.Json.Record
import ChainFeed.Json.Writing

/-!
# Hexadecimal text read back

Every byte string is read back from the text that it is written as.  So different byte
strings, words and addresses have different texts.
-/

namespace ChainFeed

namespace Hex

/-- A digit stands for the value that it was written for. -/
theorem digit?_digit {value : Nat} (small : value < 16) : digit? (digit value) = some value := by
  have each : ∀ value < 16, digit? (digit value) = some value := by decide
  exact each value small

theorem decode?_encode (bytes : List UInt8) : decode? (encode bytes) = some bytes := by
  induction bytes with
  | nil => rfl
  | cons byte rest ih =>
      have small : byte.toNat < 256 := byte.toNat_lt
      have whole : 16 * (byte.toNat / 16) + byte.toNat % 16 = byte.toNat := Nat.div_add_mod _ _
      rw [encode, decode?, digit?_digit (by omega), digit?_digit (by omega), ih]
      change some (UInt8.ofNat (16 * (byte.toNat / 16) + byte.toNat % 16) :: rest) = _
      rw [whole, UInt8.ofNat_toNat]

theorem encode_injective : Function.Injective encode := by
  intro left right same
  have read := decode?_encode left
  rw [same, decode?_encode] at read
  exact (Option.some.inj read).symm

theorem length_encode (bytes : List UInt8) : (encode bytes).length = 2 * bytes.length := by
  induction bytes with
  | nil => rfl
  | cons byte rest ih =>
      rw [encode, List.length_cons, List.length_cons, List.length_cons, ih]
      omega

theorem decodeMarked?_encode (bytes : List UInt8) :
    decodeMarked? ('0' :: 'x' :: encode bytes) = some bytes :=
  decode?_encode bytes

end Hex

namespace Bytes

@[simp] theorem toList_text (bytes : Bytes) :
    bytes.text.toList = '0' :: 'x' :: Hex.encode bytes.toList :=
  String.toList_ofList

@[simp] theorem ofText?_text (bytes : Bytes) : ofText? bytes.text = some bytes := by
  rw [ofText?, toList_text, Hex.decodeMarked?_encode]
  rfl

end Bytes

namespace FixedBytes

variable {width : Nat}

@[simp] theorem ofText?_text (word : FixedBytes width) : ofText? word.text = some word := by
  rw [ofText?, text, Bytes.toList_text, Hex.decodeMarked?_encode]
  exact word.ofList?_toList

end FixedBytes

namespace Json

@[simp] theorem bytes?_toJson (bytes : Bytes) : bytes? bytes.toJson = some bytes :=
  bytes.ofText?_text

@[simp] theorem word?_toJson {width : Nat} (word : FixedBytes width) :
    word? word.toJson = some word :=
  word.ofText?_text

end Json

namespace DiffKey

/-- The text of a slot begins like no name of a field. -/
theorem text_storage_ne {slot : Hash} {char : Char} {name : String}
    (begins : name.toList.head? = some char) (other : char ≠ '0') :
    (storage slot).text ≠ name := by
  intro same
  rw [← same, text, FixedBytes.text, Bytes.toList_text, List.head?_cons, Option.some.injEq]
    at begins
  exact other begins.symm

/-- Every key is read back from its text. -/
@[simp] theorem ofText?_text (key : DiffKey) : ofText? key.text = some key := by
  cases key with
  | balance => rfl
  | code => rfl
  | nonce => rfl
  | storage slot =>
      rw [ofText?, if_neg (text_storage_ne rfl (by decide)),
        if_neg (text_storage_ne rfl (by decide)), if_neg (text_storage_ne rfl (by decide)), text,
        FixedBytes.ofText?_text, Option.map_some]

/-- Different keys have different texts. -/
theorem eq_of_text_eq {left right : DiffKey} (same : left.text = right.text) : left = right := by
  have read : ofText? left.text = some right := by rw [same, ofText?_text]
  rw [ofText?_text] at read
  exact Option.some.inj read

end DiffKey

end ChainFeed
