import Mathlib.Algebra.Group.Nat.Defs
import Mathlib.Data.List.Basic

/-!
# Base 64

The encoder walks over the bytes with an `unsigned int` position, three bytes a
round, and the decoder with a `size_t` position, four characters a round.  Both
look at the string through its indices; `std::string` has a zero behind its last
character.

A loop that need not end is given a number of rounds, and its result is `none`
when they do not suffice.  The decoder throws on a character that is not of the
alphabet, and its result is `none` then.
-/

namespace AsyncRuntime.Base64

/-- A `char` of a string. -/
abbrev Byte := UInt8

/-- The end of a line. -/
def newline : Byte := '\n'.toUInt8

/-- `base64_chars`. -/
def base64Chars (url : Bool) : List Byte :=
  ("ABCDEFGHIJKLMNOPQRSTUVWXYZ".toList
    ++ "abcdefghijklmnopqrstuvwxyz".toList
    ++ "0123456789".toList
    ++ (if url then "-_" else "+/").toList).map Char.toUInt8

/-- `trailing_char`. -/
def trailingChar (url : Bool) : Byte :=
  if url then '.'.toUInt8 else '='.toUInt8

/-- `pos_of_char`, which throws on a character of neither alphabet. -/
def posOfChar (chr : Byte) : Option ℕ :=
  if 'A'.toUInt8 ≤ chr ∧ chr ≤ 'Z'.toUInt8 then some (chr.toNat - 'A'.toNat)
  else if 'a'.toUInt8 ≤ chr ∧ chr ≤ 'z'.toUInt8 then
    some (chr.toNat - 'a'.toNat + ('Z'.toNat - 'A'.toNat) + 1)
  else if '0'.toUInt8 ≤ chr ∧ chr ≤ '9'.toUInt8 then
    some (chr.toNat - '0'.toNat + ('Z'.toNat - 'A'.toNat) + ('z'.toNat - 'a'.toNat) + 2)
  else if chr = '+'.toUInt8 ∨ chr = '-'.toUInt8 then some 62
  else if chr = '/'.toUInt8 ∨ chr = '_'.toUInt8 then some 63
  else none

/-! ## Encoding -/

/-- `base64_chars_[index]`; the literal ends with a zero. -/
def charAt (url : Bool) (index : ℕ) : Byte :=
  (base64Chars url).getD index 0

/-- The sum of two `unsigned int`. -/
def advance (pos step : ℕ) : ℕ :=
  (pos + step) % 2 ^ 32

/-- `bytes_to_encode[index]`, as the `int` it is promoted to. -/
def byteAt (bytes : List Byte) (index : ℕ) : ℕ :=
  (bytes.getD index 0).toNat

/-- What one round of the loop of `base64_encode` pushes. -/
def encodeRound (bytes : List Byte) (url : Bool) (pos : ℕ) : List Byte :=
  charAt url ((byteAt bytes pos &&& 0xfc) >>> 2) ::
    if advance pos 1 < bytes.length then
      charAt url (((byteAt bytes pos &&& 0x03) <<< 4)
          + ((byteAt bytes (advance pos 1) &&& 0xf0) >>> 4)) ::
        if advance pos 2 < bytes.length then
          [charAt url (((byteAt bytes (advance pos 1) &&& 0x0f) <<< 2)
              + ((byteAt bytes (advance pos 2) &&& 0xc0) >>> 6)),
            charAt url (byteAt bytes (advance pos 2) &&& 0x3f)]
        else
          [charAt url ((byteAt bytes (advance pos 1) &&& 0x0f) <<< 2), trailingChar url]
    else
      [charAt url ((byteAt bytes pos &&& 0x03) <<< 4), trailingChar url, trailingChar url]

/-- The loop of `base64_encode` from `pos` on. -/
def encodeLoop (bytes : List Byte) (url : Bool) : ℕ → ℕ → Option (List Byte)
  | 0, _ => none
  | rounds + 1, pos =>
      if pos < bytes.length then
        (encodeLoop bytes url rounds (advance pos 3)).map (encodeRound bytes url pos ++ ·)
      else some []

/-- `base64_encode`; a loop that has not ended after so many rounds never does. -/
def base64Encode (bytes : List Byte) (url : Bool) : Option (List Byte) :=
  encodeLoop bytes url (bytes.length + 1) 0

/-! ## Decoding -/

/-- `encoded_string[index] != '=' && encoded_string[index] != '.'`, where it exists. -/
def hasData (text : List Byte) (index : ℕ) : Prop :=
  index < text.length ∧ text.getD index 0 ≠ '='.toUInt8 ∧ text.getD index 0 ≠ '.'.toUInt8

instance (text : List Byte) (index : ℕ) : Decidable (hasData text index) :=
  inferInstanceAs (Decidable (_ ∧ _ ∧ _))

/-- What one round of the loop of `decode` pushes. -/
def decodeRound (text : List Byte) (pos : ℕ) : Option (List Byte) := do
  let posOfChar1 ← posOfChar (text.getD (pos + 1) 0)
  let posOfChar0 ← posOfChar (text.getD pos 0)
  let first := UInt8.ofNat ((posOfChar0 <<< 2) + ((posOfChar1 &&& 0x30) >>> 4))
  if hasData text (pos + 2) then
    let posOfChar2 ← posOfChar (text.getD (pos + 2) 0)
    let second :=
      UInt8.ofNat (((posOfChar1 &&& 0x0f) <<< 4) + ((posOfChar2 &&& 0x3c) >>> 2))
    if hasData text (pos + 3) then
      let posOfChar3 ← posOfChar (text.getD (pos + 3) 0)
      return [first, second, UInt8.ofNat (((posOfChar2 &&& 0x03) <<< 6) + posOfChar3)]
    else return [first, second]
  else return [first]

/-- The loop of `decode` from `pos` on. -/
def decodeLoop (text : List Byte) (pos : ℕ) : Option (List Byte) :=
  if pos < text.length then do
    let bytes ← decodeRound text pos
    let rest ← decodeLoop text (pos + 4)
    return bytes ++ rest
  else some []
termination_by text.length - pos

/-- `base64_decode`. -/
def base64Decode (text : List Byte) (removeLinebreaks : Bool) : Option (List Byte) :=
  if text.isEmpty then some []
  else if removeLinebreaks then
    let copy := text.filter (· != newline)
    if copy.isEmpty then some [] else decodeLoop copy 0
  else decodeLoop text 0

/-! ## Lines -/

/-- The loop of `insert_linebreaks`. -/
def insertLoop (distance : ℕ) : ℕ → ℕ → List Byte → Option (List Byte)
  | 0, _, _ => none
  | rounds + 1, pos, str =>
      if pos < str.length then
        insertLoop distance rounds (pos + (distance + 1))
          (str.take pos ++ newline :: str.drop pos)
      else some str

/-- `insert_linebreaks`; it makes at most one round for each character. -/
def insertLinebreaks (str : List Byte) (distance : ℕ) : Option (List Byte) :=
  if str.isEmpty then some [] else insertLoop distance (str.length + 1) distance str

/-- `encode_with_line_breaks`. -/
def encodeWithLineBreaks (lineLength : ℕ) (bytes : List Byte) : Option (List Byte) := do
  let text ← base64Encode bytes false
  insertLinebreaks text lineLength

/-- `base64_encode_pem`. -/
def base64EncodePem (bytes : List Byte) : Option (List Byte) :=
  encodeWithLineBreaks 64 bytes

/-- `base64_encode_mime`. -/
def base64EncodeMime (bytes : List Byte) : Option (List Byte) :=
  encodeWithLineBreaks 76 bytes

end AsyncRuntime.Base64
