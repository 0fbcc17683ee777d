import Mathlib.Data.Set.Function
import AsyncRuntime.Base64.RoundTrip

/-!
# The texts that the encoder writes

The decoder accepts more than the encoder writes: both alphabets mixed, a last chunk
that is too short, bits that no byte takes up.  A canonical text has none of these.  It
is exactly a text that decoding and encoding in turn give back, as far as the position
of the encoder reaches.
-/

namespace AsyncRuntime.Base64

/--
The texts of an alphabet in which the last chunk is padded and the bits that it does not
use are zero.
-/
inductive Canonical (url : Bool) : List Byte → Prop where
  | empty : Canonical url []
  | one {first second : ℕ} (firstSmall : first < 64) (secondSmall : second < 64)
      (unused : second % 16 = 0) :
      Canonical url
        [charAt url first, charAt url second, trailingChar url, trailingChar url]
  | two {first second third : ℕ} (firstSmall : first < 64) (secondSmall : second < 64)
      (thirdSmall : third < 64) (unused : third % 4 = 0) :
      Canonical url
        [charAt url first, charAt url second, charAt url third, trailingChar url]
  | three {first second third fourth : ℕ} {text : List Byte} (firstSmall : first < 64)
      (secondSmall : second < 64) (thirdSmall : third < 64) (fourthSmall : fourth < 64)
      (later : Canonical url text) :
      Canonical url
        (charAt url first :: charAt url second :: charAt url third :: charAt url fourth :: text)

/-- The longest text of a string whose positions fit the encoder. -/
def longestText : ℕ :=
  4 * ((2 ^ 32 + 1) / 3)

/-- The groups are canonical. -/
theorem canonical_encodeGroups (url : Bool) (bytes : List Byte) :
    Canonical url (encodeGroups url bytes) := by
  induction bytes using encodeGroups.induct with
  | case1 => exact .empty
  | case2 first =>
      have small := first.toNat_lt
      rw [encodeGroups]
      exact .one (by omega) (by omega) (by omega)
  | case3 first second =>
      have firstSmall := first.toNat_lt
      have secondSmall := second.toNat_lt
      rw [encodeGroups]
      exact .two (by omega) (by omega) (by omega) (by omega)
  | case4 first second third rest inductionHypothesis =>
      have firstSmall := first.toNat_lt
      have secondSmall := second.toNat_lt
      have thirdSmall := third.toNat_lt
      rw [encodeGroups]
      exact .three (by omega) (by omega) (by omega) (by omega) inductionHypothesis

/-- A canonical text is that of some string. -/
theorem Canonical.exists_encodeGroups {url : Bool} {text : List Byte}
    (canonical : Canonical url text) : ∃ bytes, encodeGroups url bytes = text := by
  induction canonical with
  | empty => exact ⟨[], rfl⟩
  | @one first second firstSmall secondSmall unused =>
      refine ⟨[UInt8.ofNat (first * 4 + second / 16)], ?_⟩
      have high : (first * 4 + second / 16) / 4 = first := by omega
      have low : (first * 4 + second / 16) % 4 * 16 = second := by omega
      rw [encodeGroups, UInt8.toNat_ofNat_of_lt' (show _ < 256 by omega), high, low]
  | @two first second third firstSmall secondSmall thirdSmall unused =>
      refine ⟨[UInt8.ofNat (first * 4 + second / 16),
        UInt8.ofNat (second % 16 * 16 + third / 4)], ?_⟩
      have high : (first * 4 + second / 16) / 4 = first := by omega
      have middle : (first * 4 + second / 16) % 4 * 16 + (second % 16 * 16 + third / 4) / 16 =
          second := by omega
      have low : (second % 16 * 16 + third / 4) % 16 * 4 = third := by omega
      rw [encodeGroups, UInt8.toNat_ofNat_of_lt' (show _ < 256 by omega),
        UInt8.toNat_ofNat_of_lt' (show _ < 256 by omega), high, middle, low]
  | @three first second third fourth text firstSmall secondSmall thirdSmall fourthSmall later
      inductionHypothesis =>
      obtain ⟨bytes, rfl⟩ := inductionHypothesis
      refine ⟨UInt8.ofNat (first * 4 + second / 16) ::
        UInt8.ofNat (second % 16 * 16 + third / 4) ::
          UInt8.ofNat (third % 4 * 64 + fourth) :: bytes, ?_⟩
      have high : (first * 4 + second / 16) / 4 = first := by omega
      have upper : (first * 4 + second / 16) % 4 * 16 + (second % 16 * 16 + third / 4) / 16 =
          second := by omega
      have lower : (second % 16 * 16 + third / 4) % 16 * 4 + (third % 4 * 64 + fourth) / 64 =
          third := by omega
      have low : (third % 4 * 64 + fourth) % 64 = fourth := by omega
      rw [encodeGroups, UInt8.toNat_ofNat_of_lt' (show _ < 256 by omega),
        UInt8.toNat_ofNat_of_lt' (show _ < 256 by omega),
        UInt8.toNat_ofNat_of_lt' (show _ < 256 by omega), high, upper, lower, low]

/-- The encoder ends exactly on strings whose positions fit, and writes their groups. -/
theorem base64Encode_eq_some_iff (url : Bool) {bytes text : List Byte} :
    base64Encode bytes url = some text ↔
      bytes.length < 2 ^ 32 ∧ encodeGroups url bytes = text := by
  constructor
  · intro encoded
    have short : bytes.length < 2 ^ 32 := by
      by_contra long
      have never := encodeLoop_long url (Nat.le_of_not_lt long) (bytes.length + 1)
        (by omega : 0 < bytes.length)
      rw [base64Encode, never] at encoded
      cases encoded
    refine ⟨short, ?_⟩
    rw [base64Encode_eq url short, Option.some.injEq] at encoded
    exact encoded
  · rintro ⟨short, rfl⟩
    exact base64Encode_eq url short

/-- The decoder gives back what the encoder has been given. -/
theorem base64Decode_of_encoded {url : Bool} {bytes text : List Byte}
    (encoded : base64Encode bytes url = some text) :
    base64Decode text false = some bytes := by
  obtain ⟨-, rfl⟩ := (base64Encode_eq_some_iff url).mp encoded
  rw [base64Decode_eq]
  exact decodeLoop_encodeGroups url bytes []

/-- The encodings are the canonical texts, up to the length of the longest one. -/
theorem exists_base64Encode_iff (url : Bool) (text : List Byte) :
    (∃ bytes, base64Encode bytes url = some text) ↔
      Canonical url text ∧ text.length ≤ longestText := by
  constructor
  · rintro ⟨bytes, encoded⟩
    obtain ⟨short, rfl⟩ := (base64Encode_eq_some_iff url).mp encoded
    refine ⟨canonical_encodeGroups url bytes, ?_⟩
    rw [length_encodeGroups, longestText]
    omega
  · rintro ⟨canonical, bounded⟩
    obtain ⟨bytes, rfl⟩ := canonical.exists_encodeGroups
    rw [length_encodeGroups, longestText] at bounded
    exact ⟨bytes, (base64Encode_eq_some_iff url).mpr ⟨by omega, rfl⟩⟩

/-- The decoder takes the encodings one to one to the strings that can be encoded. -/
theorem bijOn_base64Decode (url : Bool) :
    Set.BijOn (fun text => base64Decode text false)
      {text | ∃ bytes, base64Encode bytes url = some text}
      (some '' {bytes : List Byte | bytes.length < 2 ^ 32}) := by
  refine ⟨?_, ?_, ?_⟩
  · rintro text ⟨bytes, encoded⟩
    have short := ((base64Encode_eq_some_iff url).mp encoded).1
    exact ⟨bytes, short, (base64Decode_of_encoded encoded).symm⟩
  · rintro first ⟨firstBytes, firstEncoded⟩ second ⟨secondBytes, secondEncoded⟩ same
    simp only [base64Decode_of_encoded firstEncoded, base64Decode_of_encoded secondEncoded,
      Option.some.injEq] at same
    rw [same, secondEncoded, Option.some.injEq] at firstEncoded
    exact firstEncoded.symm
  · rintro _ ⟨bytes, short, rfl⟩
    have encoded := base64Encode_eq url short
    exact ⟨encodeGroups url bytes, ⟨bytes, encoded⟩, base64Decode_of_encoded encoded⟩

/--
Decoding and encoding in turn give back exactly the canonical texts, up to the length
that the positions of the encoder reach.  The encodings are exactly these texts, and
the decoder is a bijection between them and the strings shorter than `2 ^ 32`.
-/
theorem canonical_iff_given_back (url : Bool) :
    (∀ text,
      (∃ bytes, base64Decode text false = some bytes ∧ base64Encode bytes url = some text) ↔
        Canonical url text ∧ text.length ≤ longestText) ∧
    (∀ text, (∃ bytes, base64Encode bytes url = some text) ↔
      Canonical url text ∧ text.length ≤ longestText) ∧
    Set.BijOn (fun text => base64Decode text false)
      {text | Canonical url text ∧ text.length ≤ longestText}
      (some '' {bytes : List Byte | bytes.length < 2 ^ 32}) := by
  refine ⟨fun text => ?_, exists_base64Encode_iff url, ?_⟩
  · rw [← exists_base64Encode_iff]
    constructor
    · rintro ⟨bytes, -, encoded⟩
      exact ⟨bytes, encoded⟩
    · rintro ⟨bytes, encoded⟩
      exact ⟨bytes, base64Decode_of_encoded encoded, encoded⟩
  · have bijective := bijOn_base64Decode url
    simp only [exists_base64Encode_iff] at bijective
    exact bijective

end AsyncRuntime.Base64
