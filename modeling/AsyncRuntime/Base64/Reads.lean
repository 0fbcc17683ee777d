import AsyncRuntime.Base64.RoundTrip

/-!
# The characters that the decoder reads

`decode` asks for characters of the string by their index, and a `const std::string`
answers up to the index behind its last character, where it has a zero.  Here the
decoder also records the indices it asks for, whether it returns or throws.
-/

namespace AsyncRuntime.Base64

/-- A computation with the indices of the characters it reads; `none` is an exception. -/
structure Reading (Result : Type) where
  indices : List ℕ
  result : Option Result

namespace Reading

variable {Result Next : Type}

instance : Monad Reading where
  pure result := ⟨[], some result⟩
  bind reading next :=
    match reading.result with
    | none => ⟨reading.indices, none⟩
    | some result => ⟨reading.indices ++ (next result).indices, (next result).result⟩

/-- `encoded_string[index]`. -/
def char (text : List Byte) (index : ℕ) : Reading Byte :=
  ⟨[index], some (text.getD index 0)⟩

/-- `pos_of_char(encoded_string[index])`. -/
def pos (text : List Byte) (index : ℕ) : Reading ℕ :=
  ⟨[index], posOfChar (text.getD index 0)⟩

/-- `hasData`, which reads the character again when it is no `=`. -/
def data (text : List Byte) (index : ℕ) : Reading Bool :=
  if index < text.length then do
    let first ← char text index
    if first = '='.toUInt8 then return false
    let second ← char text index
    return second != '.'.toUInt8
  else return false

/-- One round of the loop of `decode`. -/
def round (text : List Byte) (index : ℕ) : Reading (List Byte) := do
  let posOfChar1 ← pos text (index + 1)
  let posOfChar0 ← pos text index
  let first := UInt8.ofNat ((posOfChar0 <<< 2) + ((posOfChar1 &&& 0x30) >>> 4))
  if ← data text (index + 2) then
    let posOfChar2 ← pos text (index + 2)
    let second :=
      UInt8.ofNat (((posOfChar1 &&& 0x0f) <<< 4) + ((posOfChar2 &&& 0x3c) >>> 2))
    if ← data text (index + 3) then
      let posOfChar3 ← pos text (index + 3)
      return [first, second, UInt8.ofNat (((posOfChar2 &&& 0x03) <<< 6) + posOfChar3)]
    else return [first, second]
  else return [first]

/-- The loop of `decode`. -/
def loop (text : List Byte) (index : ℕ) : Reading (List Byte) :=
  if index < text.length then do
    let bytes ← round text index
    let rest ← loop text (index + 4)
    return bytes ++ rest
  else return []
termination_by text.length - index

/-- `base64_decode(w, false)`. -/
def decode (text : List Byte) : Reading (List Byte) :=
  if text.isEmpty then return [] else loop text 0

/-! ## What is read and what comes of it -/

/-- The result is this one, and no index that is read is beyond the bound. -/
structure Reads (bound : ℕ) (reading : Reading Result) (result : Option Result) : Prop where
  result_eq : reading.result = result
  bounded : ∀ index ∈ reading.indices, index ≤ bound

variable {bound : ℕ} {text : List Byte} {index : ℕ}

theorem reads_pure (result : Result) : Reads bound (pure result) (some result) :=
  ⟨rfl, fun _ member => absurd member List.not_mem_nil⟩

/-- One computation after the other. -/
theorem Reads.bind {reading : Reading Result} {result : Option Result}
    {next : Result → Reading Next} {after : Result → Option Next}
    (first : Reads bound reading result)
    (second : ∀ value, result = some value → Reads bound (next value) (after value)) :
    Reads bound (reading >>= next) (result >>= after) := by
  obtain ⟨indices, found⟩ := reading
  obtain ⟨rfl, bounded⟩ := first
  cases found with
  | none => exact ⟨rfl, bounded⟩
  | some value =>
      obtain ⟨result_eq, later⟩ := second value rfl
      refine ⟨result_eq, fun index member => ?_⟩
      rcases List.mem_append.mp member with before | behind
      · exact bounded index before
      · exact later index behind

/-- A computation that returns a value, and the next one with it. -/
theorem Reads.after {reading : Reading Result} {value : Result} {next : Result → Reading Next}
    {result : Option Next} (first : Reads bound reading (some value))
    (second : Reads bound (next value) result) : Reads bound (reading >>= next) result := by
  refine @Reads.bind _ _ _ _ _ _ (fun _ => result) first fun other same => ?_
  cases same
  exact second

theorem reads_pos (inside : index ≤ bound) :
    Reads bound (pos text index) (posOfChar (text.getD index 0)) :=
  ⟨rfl, fun _ member => (List.mem_singleton.mp member).trans_le inside⟩

theorem reads_data : Reads text.length (data text index) (some (decide (hasData text index))) := by
  by_cases inside : index < text.length
  · have read : Reads text.length (char text index) (some (text.getD index 0)) :=
      ⟨rfl, fun _ member => (List.mem_singleton.mp member).trans_le inside.le⟩
    by_cases equal : text.getD index 0 = '='.toUInt8
    · have none : ¬ hasData text index := fun has => has.2.1 equal
      rw [data, if_pos inside, decide_eq_false none]
      refine read.after ?_
      rw [if_pos equal]
      exact reads_pure false
    · have same : decide (hasData text index) = (text.getD index 0 != '.'.toUInt8) := by
        rw [Bool.eq_iff_iff, decide_eq_true_eq, bne_iff_ne]
        exact ⟨fun has => has.2.2, fun dot => ⟨inside, equal, dot⟩⟩
      rw [data, if_pos inside, same]
      refine read.after ?_
      rw [if_neg equal]
      exact read.after (reads_pure _)
  · have none : ¬ hasData text index := fun has => inside has.1
    rw [data, if_neg inside, decide_eq_false none]
    exact reads_pure false

/-- A round asks for no index beyond the zero behind the string. -/
theorem reads_round (inside : index < text.length) :
    Reads text.length (round text index) (decodeRound text index) := by
  refine (reads_pos inside).bind fun posOfChar1 _ => ?_
  refine (reads_pos inside.le).bind fun posOfChar0 _ => ?_
  refine reads_data.after ?_
  by_cases second : hasData text (index + 2)
  · rw [if_pos second, if_pos (decide_eq_true second)]
    refine (reads_pos second.1.le).bind fun posOfChar2 _ => ?_
    refine reads_data.after ?_
    by_cases third : hasData text (index + 3)
    · rw [if_pos third, if_pos (decide_eq_true third)]
      exact (reads_pos third.1.le).bind fun posOfChar3 _ => reads_pure _
    · rw [if_neg third, decide_eq_false third, if_neg Bool.false_ne_true]
      exact reads_pure _
  · rw [if_neg second, decide_eq_false second, if_neg Bool.false_ne_true]
    exact reads_pure _

theorem reads_loop (text : List Byte) (index : ℕ) :
    Reads text.length (loop text index) (decodeLoop text index) := by
  induction index using decodeLoop.induct text with
  | case1 index inside inductionHypothesis =>
      rw [loop, decodeLoop, if_pos inside, if_pos inside]
      refine (reads_round inside).bind fun bytes _ => ?_
      exact inductionHypothesis.bind fun rest _ => reads_pure _
  | case2 index outside =>
      rw [loop, decodeLoop, if_neg outside, if_neg outside]
      exact reads_pure []

/-- The decoder reads up to the zero behind the string, and its result is the one before. -/
theorem reads_decode (text : List Byte) :
    Reads text.length (decode text) (base64Decode text false) := by
  rw [base64Decode_eq]
  cases text with
  | nil =>
      rw [decodeLoop]
      exact reads_pure []
  | cons chr text => exact reads_loop (chr :: text) 0

end Reading

end AsyncRuntime.Base64
