import AsyncRuntime.Base64.Model
import Mathlib.Algebra.Order.Floor.Div
import Mathlib.Data.Nat.Bitwise
import Mathlib.GroupTheory.GroupAction.Ring

/-!
# Decoding undoes encoding

Three bytes are one number of 24 bits, and its four sextets are what the encoder
writes.  `encodeGroups` says this in arithmetic, group by group; the loop of the
code computes it as long as its position does not wrap, and the loop of the
decoder undoes it.
-/

namespace AsyncRuntime.Base64

/-! ## Masks and shifts -/

/-- A mask that keeps the bits from `low` to `high` is idle before the shift by `low`. -/
theorem and_shiftRight {value mask low high : ℕ} (small : value < 2 ^ (low + high))
    (upper : mask >>> low = 2 ^ high - 1) :
    (value &&& mask) >>> low = value / 2 ^ low := by
  rw [Nat.shiftRight_and_distrib, upper, Nat.and_two_pow_sub_one_eq_mod,
    Nat.shiftRight_eq_div_pow]
  apply Nat.mod_eq_of_lt
  rw [Nat.div_lt_iff_lt_mul (Nat.two_pow_pos low), ← Nat.pow_add, Nat.add_comm]
  exact small

/-- A mask of the lowest bits is a remainder. -/
theorem and_lowest {value mask bits : ℕ} (lowest : mask = 2 ^ bits - 1) :
    value &&& mask = value % 2 ^ bits := by
  rw [lowest, Nat.and_two_pow_sub_one_eq_mod]

/-! ## The alphabet -/

/-- The decoder finds the place of every character of the alphabet. -/
theorem posOfChar_charAt (url : Bool) {index : ℕ} (small : index < 64) :
    posOfChar (charAt url index) = some index := by
  have table : ∀ url : Bool, ∀ index : Fin 64,
      posOfChar (charAt url index) = some index.val := by
    decide
  exact table url ⟨index, small⟩

/-- No character of the alphabet pads. -/
theorem charAt_ne_padding (url : Bool) {index : ℕ} (small : index < 64) :
    charAt url index ≠ '='.toUInt8 ∧ charAt url index ≠ '.'.toUInt8 := by
  have table : ∀ url : Bool, ∀ index : Fin 64,
      charAt url index ≠ '='.toUInt8 ∧ charAt url index ≠ '.'.toUInt8 := by
    decide
  exact table url ⟨index, small⟩

theorem length_base64Chars (url : Bool) : (base64Chars url).length = 64 := by
  cases url <;> decide

/-- Below 64 the literal is not read past its characters. -/
theorem charAt_mem (url : Bool) {index : ℕ} (small : index < 64) :
    charAt url index ∈ base64Chars url := by
  have inside : index < (base64Chars url).length := by
    rwa [length_base64Chars]
  rw [charAt, List.getD_eq_getElem _ _ inside]
  exact List.getElem_mem inside

/-! ## The sextets of a group -/

/-- The text of a string, by groups of three bytes. -/
def encodeGroups (url : Bool) : List Byte → List Byte
  | [] => []
  | [first] =>
      [charAt url (first.toNat / 4), charAt url (first.toNat % 4 * 16),
        trailingChar url, trailingChar url]
  | [first, second] =>
      [charAt url (first.toNat / 4), charAt url (first.toNat % 4 * 16 + second.toNat / 16),
        charAt url (second.toNat % 16 * 4), trailingChar url]
  | first :: second :: third :: rest =>
      charAt url (first.toNat / 4) ::
        charAt url (first.toNat % 4 * 16 + second.toNat / 16) ::
          charAt url (second.toNat % 16 * 4 + third.toNat / 64) ::
            charAt url (third.toNat % 64) :: encodeGroups url rest

theorem length_encodeGroups (url : Bool) (bytes : List Byte) :
    (encodeGroups url bytes).length = 4 * ((bytes.length + 2) / 3) := by
  induction bytes using encodeGroups.induct with
  | case1 => rfl
  | case2 first => simp [encodeGroups]
  | case3 first second => simp [encodeGroups]
  | case4 first second third rest inductionHypothesis =>
      simp only [encodeGroups, List.length_cons, inductionHypothesis]
      omega

/-- The text is of the alphabet up to a padding of at most two characters. -/
theorem encodeGroups_alphabet (url : Bool) (bytes : List Byte) :
    ∃ body padding, encodeGroups url bytes = body ++ padding ∧ padding.length ≤ 2 ∧
      (∀ chr ∈ body, chr ∈ base64Chars url) ∧ ∀ chr ∈ padding, chr = trailingChar url := by
  induction bytes using encodeGroups.induct with
  | case1 => exact ⟨[], [], rfl, by decide, by simp, by simp⟩
  | case2 first =>
      have small := first.toNat_lt
      refine ⟨[_, _], [trailingChar url, trailingChar url], by rw [encodeGroups]; rfl,
        le_refl 2, ?_, by simp⟩
      simp only [List.forall_mem_cons]
      exact ⟨charAt_mem url (by omega), charAt_mem url (by omega), by simp⟩
  | case3 first second =>
      have firstSmall := first.toNat_lt
      have secondSmall := second.toNat_lt
      refine ⟨[_, _, _], [trailingChar url], by rw [encodeGroups]; rfl,
        by simp, ?_, by simp⟩
      simp only [List.forall_mem_cons]
      exact ⟨charAt_mem url (by omega), charAt_mem url (by omega),
        charAt_mem url (by omega), by simp⟩
  | case4 first second third rest inductionHypothesis =>
      have firstSmall := first.toNat_lt
      have secondSmall := second.toNat_lt
      have thirdSmall := third.toNat_lt
      obtain ⟨body, padding, split, few, letters, pads⟩ := inductionHypothesis
      refine ⟨_ :: _ :: _ :: _ :: body, padding, by rw [encodeGroups, split]; rfl, few, ?_, pads⟩
      simp only [List.forall_mem_cons]
      exact ⟨charAt_mem url (by omega), charAt_mem url (by omega),
        charAt_mem url (by omega), charAt_mem url (by omega), letters⟩

/-! ## The encoding loop -/

/-- A byte is read through what is left of the string. -/
theorem byteAt_drop {bytes rest : List Byte} {pos : ℕ} (left : bytes.drop pos = rest)
    (step : ℕ) : byteAt bytes (pos + step) = (rest.getD step 0).toNat := by
  subst left
  simp [byteAt, List.getD_eq_getElem?_getD, List.getElem?_drop]

theorem advance_of_lt {pos step : ℕ} (small : pos + step < 2 ^ 32) :
    advance pos step = pos + step :=
  Nat.mod_eq_of_lt small

/-- The masks of the encoder take a byte apart. -/
theorem and_byte (byte : Byte) :
    (byte.toNat &&& 0xfc) >>> 2 = byte.toNat / 4 ∧ byte.toNat &&& 0x03 = byte.toNat % 4 ∧
      (byte.toNat &&& 0xf0) >>> 4 = byte.toNat / 16 ∧ byte.toNat &&& 0x0f = byte.toNat % 16 ∧
      (byte.toNat &&& 0xc0) >>> 6 = byte.toNat / 64 ∧ byte.toNat &&& 0x3f = byte.toNat % 64 :=
  ⟨@and_shiftRight _ _ 2 6 byte.toNat_lt rfl, @and_lowest _ _ 2 rfl,
    @and_shiftRight _ _ 4 4 byte.toNat_lt rfl, @and_lowest _ _ 4 rfl,
    @and_shiftRight _ _ 6 2 byte.toNat_lt rfl, @and_lowest _ _ 6 rfl⟩

/-- One round writes one group, and the rest is left for the later rounds. -/
theorem encodeRound_eq (url : Bool) {bytes : List Byte} {pos : ℕ}
    (short : bytes.length < 2 ^ 32) (more : pos < bytes.length) :
    encodeRound bytes url pos ++ encodeGroups url ((bytes.drop pos).drop 3) =
      encodeGroups url (bytes.drop pos) := by
  have stepOne : advance pos 1 = pos + 1 := advance_of_lt (by omega)
  have left : (bytes.drop pos).length = bytes.length - pos := List.length_drop
  rw [encodeRound, stepOne]
  match shape : bytes.drop pos with
  | [] =>
      rw [shape, List.length_nil] at left
      omega
  | [first] =>
      have here : byteAt bytes pos = first.toNat := byteAt_drop shape 0
      have last : ¬ pos + 1 < bytes.length := by
        rw [shape, List.length_singleton] at left
        omega
      obtain ⟨high, low, _⟩ := and_byte first
      rw [if_neg last, here, high, low, Nat.shiftLeft_eq]
      simp [encodeGroups]
  | [first, second] =>
      have here : byteAt bytes pos = first.toNat := byteAt_drop shape 0
      have next : byteAt bytes (pos + 1) = second.toNat := byteAt_drop shape 1
      have size : bytes.length - pos = 2 := by
        rw [← left, shape, List.length_cons, List.length_singleton]
      have stepTwo : advance pos 2 = pos + 2 := advance_of_lt (by omega)
      obtain ⟨high, low, _⟩ := and_byte first
      obtain ⟨_, _, nextHigh, nextLow, _⟩ := and_byte second
      rw [if_pos (by omega), stepTwo, if_neg (by omega), here, next, high, low, nextHigh,
        nextLow, Nat.shiftLeft_eq, Nat.shiftLeft_eq]
      simp [encodeGroups]
  | first :: second :: third :: rest =>
      have here : byteAt bytes pos = first.toNat := byteAt_drop shape 0
      have next : byteAt bytes (pos + 1) = second.toNat := byteAt_drop shape 1
      have last : byteAt bytes (pos + 2) = third.toNat := byteAt_drop shape 2
      have size : bytes.length - pos = rest.length + 3 := by
        rw [← left, shape, List.length_cons, List.length_cons, List.length_cons]
      have stepTwo : advance pos 2 = pos + 2 := advance_of_lt (by omega)
      obtain ⟨high, low, _⟩ := and_byte first
      obtain ⟨_, _, nextHigh, nextLow, _⟩ := and_byte second
      obtain ⟨_, _, _, _, lastHigh, lastLow⟩ := and_byte third
      rw [if_pos (by omega), stepTwo, if_pos (by omega), here, next, last, high, low, nextHigh,
        nextLow, lastHigh, lastLow, Nat.shiftLeft_eq, Nat.shiftLeft_eq]
      simp [encodeGroups]

/--
The loop writes the groups.  Its position is a multiple of three, and so is
`2 ^ 32 - 1`, so that it does not wrap before the end of a string that is shorter
than `2 ^ 32`.
-/
theorem encodeLoop_eq (url : Bool) {bytes : List Byte} (short : bytes.length < 2 ^ 32)
    {rounds pos : ℕ} (aligned : 3 ∣ pos) (enough : bytes.length - pos < rounds) :
    encodeLoop bytes url rounds pos = some (encodeGroups url (bytes.drop pos)) := by
  induction rounds generalizing pos with
  | zero => omega
  | succ rounds inductionHypothesis =>
      by_cases more : pos < bytes.length
      · have step : advance pos 3 = pos + 3 := advance_of_lt (by omega)
        have later := @inductionHypothesis (pos + 3) (by omega) (by omega)
        rw [encodeLoop, if_pos more, step, later, Option.map_some, ← List.drop_drop,
          encodeRound_eq url short more]
      · have ended : bytes.drop pos = [] := List.drop_eq_nil_of_le (by omega)
        rw [encodeLoop, if_neg more, ended, encodeGroups]

/-- The encoder ends, and its text is that of the groups. -/
theorem base64Encode_eq (url : Bool) {bytes : List Byte} (short : bytes.length < 2 ^ 32) :
    base64Encode bytes url = some (encodeGroups url bytes) :=
  encodeLoop_eq url short (Nat.dvd_zero 3) (by omega)

/-- The position of a longer string wraps before the end, and the loop never ends. -/
theorem encodeLoop_long (url : Bool) {bytes : List Byte} (long : 2 ^ 32 ≤ bytes.length)
    (rounds : ℕ) {pos : ℕ} (inside : pos < bytes.length) :
    encodeLoop bytes url rounds pos = none := by
  induction rounds generalizing pos with
  | zero => rfl
  | succ rounds inductionHypothesis =>
      have wrapped : advance pos 3 < bytes.length :=
        (Nat.mod_lt _ (Nat.two_pow_pos 32)).trans_le long
      rw [encodeLoop, if_pos inside, inductionHypothesis wrapped, Option.map_none]

/-- The loop makes so many rounds, and then its condition fails. -/
def EndsAfter (bytes : List Byte) (url : Bool) (rounds : ℕ) : Prop :=
  ∀ tests, (encodeLoop bytes url tests 0).isSome ↔ rounds < tests

/-- A round is made for each three bytes that are left. -/
theorem encodeLoop_isSome_iff (url : Bool) {bytes : List Byte} (short : bytes.length < 2 ^ 32)
    (tests : ℕ) {pos : ℕ} (aligned : 3 ∣ pos) :
    (encodeLoop bytes url tests pos).isSome ↔ (bytes.length - pos + 2) / 3 < tests := by
  induction tests generalizing pos with
  | zero => simp [encodeLoop]
  | succ tests inductionHypothesis =>
      by_cases more : pos < bytes.length
      · have step : advance pos 3 = pos + 3 := advance_of_lt (by omega)
        have later := @inductionHypothesis (pos + 3) (by omega)
        rw [encodeLoop, if_pos more, step, Option.isSome_map, later]
        omega
      · rw [encodeLoop, if_neg more]
        simp only [Option.isSome_some, true_iff]
        omega

/-- The loop ends, after a round for each three bytes begun, if the position cannot wrap. -/
theorem encodeLoop_endsAfter_iff (bytes : List Byte) (url : Bool) :
    EndsAfter bytes url (bytes.length ⌈/⌉ 3) ↔ bytes.length < 2 ^ 32 := by
  constructor
  · intro ends
    by_contra long
    have inside : 0 < bytes.length := by omega
    have never := encodeLoop_long url (Nat.le_of_not_lt long) (bytes.length ⌈/⌉ 3 + 1) inside
    have ended := (ends _).mpr (Nat.lt_succ_self _)
    rw [never] at ended
    cases ended
  · intro short tests
    rw [encodeLoop_isSome_iff url short tests (Nat.dvd_zero 3), Nat.ceilDiv_eq_add_pred_div]
    rfl

/-- For a string of `2 ^ 32` bytes the loop does not end. -/
theorem encodeLoop_never_ends :
    ¬ ∀ (bytes : List Byte) (url : Bool), bytes.length < 2 ^ 64 →
      EndsAfter bytes url (bytes.length ⌈/⌉ 3) := by
  intro claimed
  have length := @List.length_replicate Byte (2 ^ 32) 0
  have ends := claimed (List.replicate (2 ^ 32) 0) false (by rw [length]; omega)
  rw [encodeLoop_endsAfter_iff, length] at ends
  exact lt_irrefl _ ends

/-! ## The decoding loop -/

/-- A character is read through what is left of the text. -/
theorem getD_append (before rest : List Byte) (step : ℕ) :
    (before ++ rest).getD (before.length + step) 0 = rest.getD step 0 := by
  rw [List.getD_append_right _ _ _ _ (Nat.le_add_right _ _), Nat.add_sub_cancel_left]

theorem hasData_append (before rest : List Byte) (step : ℕ) :
    hasData (before ++ rest) (before.length + step) ↔ hasData rest step := by
  simp only [hasData, getD_append, List.length_append, Nat.add_lt_add_iff_left]

/-- A round of the decoder looks at nothing before its position. -/
theorem decodeRound_append (before rest : List Byte) :
    decodeRound (before ++ rest) before.length = decodeRound rest 0 := by
  have start : (before ++ rest).getD before.length 0 = rest.getD 0 0 :=
    getD_append before rest 0
  simp only [decodeRound, getD_append, hasData_append, start, Nat.zero_add]

/-- The masks of the decoder take a sextet apart. -/
theorem and_sextet {sextet : ℕ} (small : sextet < 64) :
    (sextet &&& 0x30) >>> 4 = sextet / 16 ∧ sextet &&& 0x0f = sextet % 16 ∧
      (sextet &&& 0x3c) >>> 2 = sextet / 4 ∧ sextet &&& 0x03 = sextet % 4 :=
  ⟨@and_shiftRight _ _ 4 2 small rfl, @and_lowest _ _ 4 rfl,
    @and_shiftRight _ _ 2 4 small rfl, @and_lowest _ _ 2 rfl⟩

/-- A padding is no data, whichever of the two it is. -/
theorem not_hasData_of_trailing {url : Bool} {text : List Byte} {index : ℕ}
    (trailing : text.getD index 0 = trailingChar url) : ¬ hasData text index := by
  rintro ⟨_, noEqual, noDot⟩
  rw [trailing] at noEqual noDot
  cases url with
  | false => exact noEqual rfl
  | true => exact noDot rfl

/-- A character of the alphabet is data. -/
theorem hasData_of_charAt {url : Bool} {text : List Byte} {index sextet : ℕ}
    (small : sextet < 64) (inside : index < text.length)
    (letter : text.getD index 0 = charAt url sextet) : hasData text index := by
  obtain ⟨noEqual, noDot⟩ := charAt_ne_padding url small
  exact ⟨inside, letter ▸ noEqual, letter ▸ noDot⟩

/-- What the decoder makes of two sextets and a padding. -/
theorem decodeRound_two (url : Bool) {zeroth first : ℕ} (zerothSmall : zeroth < 64)
    (firstSmall : first < 64) (rest : List Byte) :
    decodeRound (charAt url zeroth :: charAt url first :: trailingChar url :: rest) 0 =
      some [UInt8.ofNat (zeroth * 4 + first / 16)] := by
  obtain ⟨firstHigh, _⟩ := and_sextet firstSmall
  have padded : ¬ hasData (charAt url zeroth :: charAt url first :: trailingChar url :: rest)
      2 := not_hasData_of_trailing rfl
  simp only [decodeRound, padded, if_false, List.getD_cons_zero, List.getD_cons_succ,
    Option.bind_eq_bind, Option.bind_some, Option.pure_def, Nat.zero_add, Nat.shiftLeft_eq,
    posOfChar_charAt url zerothSmall, posOfChar_charAt url firstSmall, firstHigh]

/-- What the decoder makes of three sextets and a padding. -/
theorem decodeRound_three (url : Bool) {zeroth first second : ℕ} (zerothSmall : zeroth < 64)
    (firstSmall : first < 64) (secondSmall : second < 64) (rest : List Byte) :
    decodeRound (charAt url zeroth :: charAt url first :: charAt url second ::
        trailingChar url :: rest) 0 =
      some [UInt8.ofNat (zeroth * 4 + first / 16),
        UInt8.ofNat (first % 16 * 16 + second / 4)] := by
  obtain ⟨firstHigh, firstLow, _⟩ := and_sextet firstSmall
  obtain ⟨_, _, secondHigh, _⟩ := and_sextet secondSmall
  have data : hasData (charAt url zeroth :: charAt url first :: charAt url second ::
      trailingChar url :: rest) 2 := hasData_of_charAt secondSmall (by simp) rfl
  have padded : ¬ hasData (charAt url zeroth :: charAt url first :: charAt url second ::
      trailingChar url :: rest) 3 := not_hasData_of_trailing rfl
  simp only [decodeRound, data, padded, if_true, if_false, List.getD_cons_zero, List.getD_cons_succ,
    Option.bind_eq_bind, Option.bind_some, Option.pure_def, Nat.zero_add, Nat.shiftLeft_eq,
    posOfChar_charAt url zerothSmall, posOfChar_charAt url firstSmall,
    posOfChar_charAt url secondSmall, firstHigh, firstLow, secondHigh]

/-- What the decoder makes of four sextets. -/
theorem decodeRound_four (url : Bool) {zeroth first second third : ℕ}
    (zerothSmall : zeroth < 64) (firstSmall : first < 64) (secondSmall : second < 64)
    (thirdSmall : third < 64) (rest : List Byte) :
    decodeRound (charAt url zeroth :: charAt url first :: charAt url second ::
        charAt url third :: rest) 0 =
      some [UInt8.ofNat (zeroth * 4 + first / 16), UInt8.ofNat (first % 16 * 16 + second / 4),
        UInt8.ofNat (second % 4 * 64 + third)] := by
  obtain ⟨firstHigh, firstLow, _⟩ := and_sextet firstSmall
  obtain ⟨_, _, secondHigh, secondLow⟩ := and_sextet secondSmall
  have data : hasData (charAt url zeroth :: charAt url first :: charAt url second ::
      charAt url third :: rest) 2 := hasData_of_charAt secondSmall (by simp) rfl
  have full : hasData (charAt url zeroth :: charAt url first :: charAt url second ::
      charAt url third :: rest) 3 := hasData_of_charAt thirdSmall (by simp) rfl
  simp only [decodeRound, data, full, if_true, List.getD_cons_zero, List.getD_cons_succ,
    Option.bind_eq_bind, Option.bind_some, Option.pure_def, Nat.zero_add, Nat.shiftLeft_eq,
    posOfChar_charAt url zerothSmall, posOfChar_charAt url firstSmall,
    posOfChar_charAt url secondSmall, posOfChar_charAt url thirdSmall, firstHigh, firstLow,
    secondHigh, secondLow]

/-- The number of a byte makes the byte again. -/
theorem ofNat_eq {byte : Byte} {number : ℕ} (same : number = byte.toNat) :
    UInt8.ofNat number = byte := by
  rw [same, UInt8.ofNat_toNat]

/-- The loop of the decoder undoes the groups, wherever they begin. -/
theorem decodeLoop_encodeGroups (url : Bool) (bytes before : List Byte) :
    decodeLoop (before ++ encodeGroups url bytes) before.length = some bytes := by
  induction bytes using encodeGroups.induct generalizing before with
  | case1 =>
      rw [decodeLoop, if_neg (by simp [encodeGroups])]
  | case2 first =>
      have small := first.toNat_lt
      have ended : decodeLoop (before ++ encodeGroups url [first]) (before.length + 4) =
          some [] := by
        rw [decodeLoop, if_neg (by simp [encodeGroups])]
      rw [decodeLoop, if_pos (by simp [encodeGroups]), ended, decodeRound_append, encodeGroups,
        decodeRound_two url (by omega) (by omega), @ofNat_eq first _ (by omega)]
      rfl
  | case3 first second =>
      have firstSmall := first.toNat_lt
      have secondSmall := second.toNat_lt
      have ended : decodeLoop (before ++ encodeGroups url [first, second])
          (before.length + 4) = some [] := by
        rw [decodeLoop, if_neg (by simp [encodeGroups])]
      rw [decodeLoop, if_pos (by simp [encodeGroups]), ended, decodeRound_append, encodeGroups,
        decodeRound_three url (by omega) (by omega) (by omega),
        @ofNat_eq first _ (by omega), @ofNat_eq second _ (by omega)]
      rfl
  | case4 first second third rest inductionHypothesis =>
      have firstSmall := first.toNat_lt
      have secondSmall := second.toNat_lt
      have thirdSmall := third.toNat_lt
      rw [encodeGroups]
      -- the four characters of this round lie before the groups that are left
      have later := inductionHypothesis (before ++
        [charAt url (first.toNat / 4), charAt url (first.toNat % 4 * 16 + second.toNat / 16),
          charAt url (second.toNat % 16 * 4 + third.toNat / 64), charAt url (third.toNat % 64)])
      rw [List.append_assoc, List.length_append] at later
      rw [decodeLoop, if_pos (by simp), decodeRound_append,
        decodeRound_four url (by omega) (by omega) (by omega) (by omega),
        @ofNat_eq first _ (by omega), @ofNat_eq second _ (by omega),
        @ofNat_eq third _ (by omega)]
      simp only [List.cons_append, List.nil_append, List.length_cons, List.length_nil,
        Nat.zero_add, Nat.reduceAdd] at later
      rw [later]
      rfl

/-! ## The round trip -/

/-- Without line breaks the decoder is its loop. -/
theorem base64Decode_eq (text : List Byte) : base64Decode text false = decodeLoop text 0 := by
  cases text with
  | nil => rw [decodeLoop]; rfl
  | cons chr text => rfl

/--
Decoding undoes encoding in both alphabets.  The text has four characters for each
three bytes begun, all of the alphabet but for at most two padding characters at
the end.
-/
theorem base64Decode_base64Encode (bytes : List Byte) (url : Bool)
    (short : bytes.length < 2 ^ 32) :
    ∃ text, base64Encode bytes url = some text ∧
      base64Decode text false = some bytes ∧
      text.length = 4 * (bytes.length ⌈/⌉ 3) ∧
      ∃ body padding, text = body ++ padding ∧ padding.length ≤ 2 ∧
        (∀ chr ∈ body, chr ∈ base64Chars url) ∧
        ∀ chr ∈ padding, chr = trailingChar url := by
  refine ⟨encodeGroups url bytes, base64Encode_eq url short, ?_, ?_,
    encodeGroups_alphabet url bytes⟩
  · rw [base64Decode_eq]
    exact decodeLoop_encodeGroups url bytes []
  · rw [length_encodeGroups, Nat.ceilDiv_eq_add_pred_div]
    rfl

/-- The theorem at two bytes in the alphabet of URLs. -/
theorem base64Decode_base64Encode_two :
    ∃ text, base64Encode [255, 7] true = some text ∧
      base64Decode text false = some [255, 7] ∧
      text.length = 4 * (2 ⌈/⌉ 3) ∧
      ∃ body padding, text = body ++ padding ∧ padding.length ≤ 2 ∧
        (∀ chr ∈ body, chr ∈ base64Chars true) ∧
        ∀ chr ∈ padding, chr = trailingChar true :=
  base64Decode_base64Encode [255, 7] true (by decide)

end AsyncRuntime.Base64
