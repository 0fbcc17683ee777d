import AsyncRuntime.Base64.Reads

/-!
# What the decoder accepts

According to its comments the decoder iterates over chunks of four characters, of
which only the last may be shorter or padded; the others produce three bytes each.
The loop does not look whether a chunk is the last one.  It accepts a padding in the
middle of a text, and any character behind a padding in the third place.

`Structured` is what the comments say.  The decoder accepts every sequence of
`Legible` chunks, and what it accepts is structured exactly when no other character
stands behind a padding.
-/

namespace AsyncRuntime.Base64

/-! ## What the comments say -/

/-- A character of one of the two alphabets. -/
def IsLetter (chr : Byte) : Prop :=
  (posOfChar chr).isSome = true

instance (chr : Byte) : Decidable (IsLetter chr) :=
  inferInstanceAs (Decidable (_ = _))

/-- One of the two paddings. -/
def IsPadding (chr : Byte) : Prop :=
  chr = '='.toUInt8 ∨ chr = '.'.toUInt8

instance (chr : Byte) : Decidable (IsPadding chr) :=
  inferInstanceAs (Decidable (_ ∨ _))

/-- Two to four characters: at least two of an alphabet, and paddings behind them. -/
def IsLast (chunk : List Byte) : Prop :=
  ∃ letters padding, chunk = letters ++ padding ∧ 2 ≤ letters.length ∧ chunk.length ≤ 4 ∧
    (∀ chr ∈ letters, IsLetter chr) ∧ ∀ chr ∈ padding, IsPadding chr

/--
A text of chunks with what they produce: four characters of an alphabet produce three
bytes, and at most one last chunk may have paddings.
-/
inductive Structured : List Byte → List Byte → Prop where
  | empty : Structured [] []
  | last {chunk bytes : List Byte} (isLast : IsLast chunk)
      (produced : decodeRound chunk 0 = some bytes) : Structured chunk bytes
  | full {chunk bytes text more : List Byte} (four : chunk.length = 4)
      (letters : ∀ chr ∈ chunk, IsLetter chr)
      (produced : decodeRound chunk 0 = some bytes) (three : bytes.length = 3)
      (later : Structured text more) : Structured (chunk ++ text) (bytes ++ more)

/--
What is accepted is structured; otherwise the decoder throws, and it reads no
character beyond the zero behind the text.
-/
structure AcceptsChunks (text : List Byte) : Prop where
  structured : ∀ bytes, (Reading.decode text).result = some bytes → Structured text bytes
  reads : Reading.Reads text.length (Reading.decode text) (base64Decode text false)

/-! ## What the loop accepts -/

/-- The chunks of the loop. -/
def chunks : List Byte → List (List Byte)
  | first :: second :: third :: fourth :: text =>
      [first, second, third, fourth] :: chunks text
  | [] => []
  | chunk => [chunk]

/-- A round looks at the fourth character only if the third one is no padding. -/
def Legible : List Byte → Prop
  | [first, second] => IsLetter first ∧ IsLetter second
  | [first, second, third] =>
      IsLetter first ∧ IsLetter second ∧ (IsPadding third ∨ IsLetter third)
  | [first, second, third, fourth] =>
      IsLetter first ∧ IsLetter second ∧
        (IsPadding third ∨ IsLetter third ∧ (IsPadding fourth ∨ IsLetter fourth))
  | _ => False

/-- Behind a padding there are paddings only. -/
def PaddingLast (text : List Byte) : Prop :=
  text.Pairwise fun before behind => IsPadding before → IsPadding behind

instance (text : List Byte) : Decidable (PaddingLast text) :=
  inferInstanceAs (Decidable (List.Pairwise _ _))

/-- No letter is a padding. -/
theorem not_isPadding {chr : Byte} (letter : IsLetter chr) : ¬ IsPadding chr := by
  rintro (rfl | rfl)
  · exact absurd letter (by decide)
  · exact absurd letter (by decide)

theorem hasData_iff {text : List Byte} {index : ℕ} :
    hasData text index ↔ ∃ chr, text[index]? = some chr ∧ ¬ IsPadding chr := by
  rw [hasData, List.getD_eq_getElem?_getD]
  cases found : text[index]? with
  | none =>
      have beyond := List.getElem?_eq_none_iff.mp found
      simp [Nat.not_lt.mpr beyond]
  | some chr =>
      obtain ⟨inside, -⟩ := List.getElem?_eq_some_iff.mp found
      simp [inside, IsPadding]

/-! ## One chunk after the other -/

/-- A round looks at no character behind its four. -/
theorem decodeRound_chunk (first second third fourth : Byte) (text : List Byte) :
    decodeRound (first :: second :: third :: fourth :: text) 0 =
      decodeRound [first, second, third, fourth] 0 := by
  have thirdSame : hasData (first :: second :: third :: fourth :: text) 2 ↔
      hasData [first, second, third, fourth] 2 := by
    rw [hasData_iff, hasData_iff]
    rfl
  have fourthSame : hasData (first :: second :: third :: fourth :: text) 3 ↔
      hasData [first, second, third, fourth] 3 := by
    rw [hasData_iff, hasData_iff]
    rfl
  simp only [decodeRound, Nat.zero_add, thirdSame, fourthSame, List.getD_cons_succ,
    List.getD_cons_zero]

/-- A round looks at nothing before its position. -/
theorem decodeRound_drop {text : List Byte} {pos : ℕ} (inside : pos ≤ text.length) :
    decodeRound text pos = decodeRound (text.drop pos) 0 := by
  have split := decodeRound_append (text.take pos) (text.drop pos)
  rwa [List.take_append_drop, List.length_take_of_le inside] at split

/-- The loop looks at nothing before its position. -/
theorem decodeLoop_append (before text : List Byte) (pos : ℕ) :
    decodeLoop (before ++ text) (before.length + pos) = decodeLoop text pos := by
  induction pos using decodeLoop.induct text with
  | case1 pos inside inductionHypothesis =>
      have total : (before ++ text).length = before.length + text.length := List.length_append
      have round : decodeRound (before ++ text) (before.length + pos) = decodeRound text pos := by
        rw [decodeRound_drop (by omega), decodeRound_drop inside.le, List.drop_length_add_append]
      unfold decodeLoop
      rw [if_pos inside, if_pos (by omega), round, Nat.add_assoc, inductionHypothesis]
  | case2 pos outside =>
      have total : (before ++ text).length = before.length + text.length := List.length_append
      unfold decodeLoop
      rw [if_neg outside, if_neg (by omega)]

theorem decodeLoop_nil : decodeLoop [] 0 = some [] := by
  rw [decodeLoop, if_neg (by simp)]

/-- A chunk of four characters, and the text behind it. -/
theorem decodeLoop_chunk (first second third fourth : Byte) (text : List Byte) :
    decodeLoop (first :: second :: third :: fourth :: text) 0 =
      (do
        let bytes ← decodeRound [first, second, third, fourth] 0
        let rest ← decodeLoop text 0
        return bytes ++ rest) := by
  have later : decodeLoop (first :: second :: third :: fourth :: text) (0 + 4) =
      decodeLoop text 0 := decodeLoop_append [first, second, third, fourth] text 0
  rw [decodeLoop, if_pos (by simp), later, decodeRound_chunk]

/-- A last chunk of fewer characters. -/
theorem decodeLoop_short {chunk : List Byte} (some : chunk ≠ []) (few : chunk.length < 4) :
    decodeLoop chunk 0 = decodeRound chunk 0 := by
  have ended : decodeLoop chunk (0 + 4) = Option.some [] := by
    rw [decodeLoop, if_neg (by omega)]
  rw [decodeLoop, if_pos (List.length_pos_iff.mpr some), ended]
  simp

/-! ## Which chunks are decoded -/

theorem isLetter_iff {chr : Byte} : IsLetter chr ↔ ∃ place, posOfChar chr = some place :=
  Option.isSome_iff_exists

/-- Without data in the third place a round needs two letters. -/
theorem decodeRound_isSome_padded {first second : Byte} {rest : List Byte}
    (padded : ¬ hasData (first :: second :: rest) 2) :
    (decodeRound (first :: second :: rest) 0).isSome = true ↔ IsLetter first ∧ IsLetter second := by
  simp only [decodeRound, Nat.zero_add, List.getD_cons_succ, List.getD_cons_zero, if_neg padded,
    isLetter_iff]
  cases posOfChar first <;> cases posOfChar second <;> simp

theorem decodeRound_isSome_three {first second third : Byte} {rest : List Byte}
    (data : hasData (first :: second :: third :: rest) 2)
    (padded : ¬ hasData (first :: second :: third :: rest) 3) :
    (decodeRound (first :: second :: third :: rest) 0).isSome = true ↔
      IsLetter first ∧ IsLetter second ∧ IsLetter third := by
  simp only [decodeRound, Nat.zero_add, List.getD_cons_succ, List.getD_cons_zero, if_neg padded,
    if_pos data, isLetter_iff]
  cases posOfChar first <;> cases posOfChar second <;> cases posOfChar third <;> simp

theorem decodeRound_isSome_four {first second third fourth : Byte} {rest : List Byte}
    (data : hasData (first :: second :: third :: fourth :: rest) 2)
    (full : hasData (first :: second :: third :: fourth :: rest) 3) :
    (decodeRound (first :: second :: third :: fourth :: rest) 0).isSome = true ↔
      IsLetter first ∧ IsLetter second ∧ IsLetter third ∧ IsLetter fourth := by
  simp only [decodeRound, Nat.zero_add, List.getD_cons_succ, List.getD_cons_zero, if_pos full,
    if_pos data, isLetter_iff]
  cases posOfChar first <;> cases posOfChar second <;> cases posOfChar third <;>
    cases posOfChar fourth <;> simp

theorem length_of_letters {first second third fourth : Byte} {bytes : List Byte}
    (letters : ∀ chr ∈ [first, second, third, fourth], IsLetter chr)
    (produced : decodeRound [first, second, third, fourth] 0 = some bytes) :
    bytes.length = 3 := by
  have data : hasData [first, second, third, fourth] 2 :=
    hasData_iff.mpr ⟨third, rfl, not_isPadding (letters third (by simp))⟩
  have full : hasData [first, second, third, fourth] 3 :=
    hasData_iff.mpr ⟨fourth, rfl, not_isPadding (letters fourth (by simp))⟩
  simp only [decodeRound, Nat.zero_add, if_pos data, if_pos full, Option.bind_eq_bind,
    Option.bind_eq_some_iff, Option.pure_def, Option.some.injEq] at produced
  obtain ⟨_, _, _, _, _, _, _, _, rfl⟩ := produced
  rfl

/-- A round returns on the legible chunks. -/
theorem decodeRound_isSome_iff {chunk : List Byte} (some : chunk ≠ [])
    (few : chunk.length ≤ 4) : (decodeRound chunk 0).isSome = true ↔ Legible chunk := by
  match chunk, few with
  | [], _ => exact absurd rfl some
  | [first], _ =>
      have missing : posOfChar 0 = none := by decide
      simp [decodeRound, missing, Legible]
  | [first, second], _ =>
      have padded : ¬ hasData [first, second] 2 := by
        rw [hasData_iff]
        simp
      exact decodeRound_isSome_padded padded
  | [first, second, third], _ =>
      have short : ¬ hasData [first, second, third] 3 := by
        rw [hasData_iff]
        simp
      have thirdData : hasData [first, second, third] 2 ↔ ¬ IsPadding third := by
        rw [hasData_iff]
        simp
      by_cases padding : IsPadding third
      · rw [decodeRound_isSome_padded (mt thirdData.mp (not_not_intro padding)), Legible]
        simp [padding]
      · rw [decodeRound_isSome_three (thirdData.mpr padding) short, Legible]
        simp [padding]
  | [first, second, third, fourth], _ =>
      have thirdData : hasData [first, second, third, fourth] 2 ↔ ¬ IsPadding third := by
        rw [hasData_iff]
        simp
      have fourthData : hasData [first, second, third, fourth] 3 ↔ ¬ IsPadding fourth := by
        rw [hasData_iff]
        simp
      by_cases padding : IsPadding third
      · rw [decodeRound_isSome_padded (mt thirdData.mp (not_not_intro padding)), Legible]
        simp [padding]
      by_cases last : IsPadding fourth
      · rw [decodeRound_isSome_three (thirdData.mpr padding)
          (mt fourthData.mp (not_not_intro last)), Legible]
        simp [padding, last]
      · rw [decodeRound_isSome_four (thirdData.mpr padding) (fourthData.mpr last), Legible]
        simp [padding, last]

/-- A text that is shorter than a chunk. -/
theorem chunks_short {chunk : List Byte} (some : chunk ≠ []) (few : chunk.length < 4) :
    chunks chunk = [chunk] := by
  match chunk, few with
  | [], _ => exact absurd rfl some
  | [_], _ | [_, _], _ | [_, _, _], _ => rfl

theorem length_lt_of_noFour {chunk : List Byte}
    (noFour : ∀ first second third fourth text,
      chunk = first :: second :: third :: fourth :: text → False) : chunk.length < 4 := by
  match chunk, noFour with
  | [], _ | [_], _ | [_, _], _ | [_, _, _], _ => simp
  | _ :: _ :: _ :: _ :: _, noFour => exact (noFour _ _ _ _ _ rfl).elim

/-- The loop returns if it returns on each chunk. -/
theorem decodeLoop_isSome_iff (text : List Byte) :
    (decodeLoop text 0).isSome = true ↔ ∀ chunk ∈ chunks text, Legible chunk := by
  induction text using chunks.induct with
  | case1 first second third fourth text inductionHypothesis =>
      rw [decodeLoop_chunk, chunks, List.forall_mem_cons, ← inductionHypothesis,
        ← decodeRound_isSome_iff (by simp) (by simp)]
      cases decodeRound [first, second, third, fourth] 0 <;> cases decodeLoop text 0 <;> simp
  | case2 => simp [decodeLoop_nil, chunks]
  | case3 chunk noFour some =>
      have few := length_lt_of_noFour noFour
      rw [decodeLoop_short some few, decodeRound_isSome_iff some few.le, chunks_short some few,
        List.forall_mem_singleton]

/-! ## When the structure is kept -/

/-- A legible chunk with paddings behind its paddings only. -/
theorem isLast_of_legible {chunk : List Byte} (legible : Legible chunk)
    (last : PaddingLast chunk) : IsLast chunk := by
  match chunk, legible, last with
  | [first, second], ⟨firstLetter, secondLetter⟩, _ =>
      exact ⟨[first, second], [], rfl, le_refl 2, by simp, by simp [firstLetter, secondLetter],
        by simp⟩
  | [first, second, third], ⟨firstLetter, secondLetter, .inl padding⟩, _ =>
      exact ⟨[first, second], [third], rfl, le_refl 2, by simp,
        by simp [firstLetter, secondLetter], by simp [padding]⟩
  | [first, second, third], ⟨firstLetter, secondLetter, .inr thirdLetter⟩, _ =>
      exact ⟨[first, second, third], [], rfl, by simp, by simp,
        by simp [firstLetter, secondLetter, thirdLetter], by simp⟩
  | [first, second, third, fourth], ⟨firstLetter, secondLetter, .inl padding⟩, last =>
      have behind : IsPadding fourth := by
        simp only [PaddingLast, List.pairwise_cons] at last
        exact last.2.2.1 fourth (by simp) padding
      exact ⟨[first, second], [third, fourth], rfl, le_refl 2, by simp,
        by simp [firstLetter, secondLetter], by simp [padding, behind]⟩
  | [first, second, third, fourth],
      ⟨firstLetter, secondLetter, .inr ⟨thirdLetter, .inl padding⟩⟩, _ =>
      exact ⟨[first, second, third], [fourth], rfl, by simp, by simp,
        by simp [firstLetter, secondLetter, thirdLetter], by simp [padding]⟩
  | [first, second, third, fourth],
      ⟨firstLetter, secondLetter, .inr ⟨thirdLetter, .inr fourthLetter⟩⟩, _ =>
      exact ⟨[first, second, third, fourth], [], rfl, by simp, by simp,
        by simp [firstLetter, secondLetter, thirdLetter, fourthLetter], by simp⟩

/-- Before another chunk, which begins with a letter, there is no padding. -/
theorem letters_of_legible {first second third fourth next : Byte} {text : List Byte}
    (legible : Legible [first, second, third, fourth]) (letter : IsLetter next)
    (last : PaddingLast (first :: second :: third :: fourth :: next :: text)) :
    ∀ chr ∈ [first, second, third, fourth], IsLetter chr := by
  simp only [PaddingLast, List.pairwise_cons] at last
  obtain ⟨-, -, thirdLast, fourthLast, -⟩ := last
  have noThird : ¬ IsPadding third := fun padding =>
    not_isPadding letter (thirdLast next (by simp) padding)
  have noFourth : ¬ IsPadding fourth := fun padding =>
    not_isPadding letter (fourthLast next (by simp) padding)
  obtain ⟨firstLetter, secondLetter, padding | ⟨thirdLetter, padding | fourthLetter⟩⟩ := legible
  · exact absurd padding noThird
  · exact absurd padding noFourth
  · simp [firstLetter, secondLetter, thirdLetter, fourthLetter]

/-- Every legible text begins with a letter. -/
theorem letter_of_legible {next : Byte} {text : List Byte}
    (legible : ∀ chunk ∈ chunks (next :: text), Legible chunk) : IsLetter next := by
  match text, legible with
  | [], legible => exact (legible [next] (by simp [chunks])).elim
  | [second], legible => exact (legible [next, second] (by simp [chunks])).1
  | [second, third], legible => exact (legible [next, second, third] (by simp [chunks])).1
  | second :: third :: fourth :: text, legible =>
      exact (legible [next, second, third, fourth] (by simp [chunks])).1

/-- What is accepted has the structure if there are paddings only behind a padding. -/
theorem structured_of_paddingLast {text bytes : List Byte} (last : PaddingLast text)
    (accepted : decodeLoop text 0 = some bytes) : Structured text bytes := by
  have legible := (decodeLoop_isSome_iff text).mp (Option.isSome_of_eq_some accepted)
  induction text using chunks.induct generalizing bytes with
  | case1 first second third fourth text inductionHypothesis =>
      rw [chunks, List.forall_mem_cons] at legible
      obtain ⟨here, later⟩ := legible
      rw [decodeLoop_chunk] at accepted
      simp only [Option.bind_eq_bind, Option.bind_eq_some_iff, Option.pure_def,
        Option.some.injEq] at accepted
      obtain ⟨chunkBytes, produced, more, rest, rfl⟩ := accepted
      cases text with
      | nil =>
          rw [decodeLoop_nil] at rest
          cases rest
          rw [List.append_nil]
          exact .last (isLast_of_legible here last) produced
      | cons next text =>
          have letters := letters_of_legible here (letter_of_legible later) last
          have lastLater : PaddingLast (next :: text) :=
            last.sublist (List.sublist_append_right [first, second, third, fourth] _)
          exact .full rfl letters produced (length_of_letters letters produced)
            (inductionHypothesis lastLater rest later)
  | case2 =>
      rw [decodeLoop_nil] at accepted
      cases accepted
      exact .empty
  | case3 chunk noFour some =>
      have few := length_lt_of_noFour noFour
      rw [chunks_short some few, List.forall_mem_singleton] at legible
      rw [decodeLoop_short some few] at accepted
      exact .last (isLast_of_legible legible last) accepted

/-- Behind a letter there may be anything. -/
theorem paddingLast_of_letters {letters text : List Byte}
    (letter : ∀ chr ∈ letters, IsLetter chr) (last : PaddingLast text) :
    PaddingLast (letters ++ text) := by
  refine List.pairwise_append.mpr ⟨?_, last, ?_⟩
  · exact List.pairwise_of_forall_mem_list fun before member _ _ padding =>
      absurd padding (not_isPadding (letter before member))
  · exact fun before member _ _ padding => absurd padding (not_isPadding (letter before member))

/-- In a structured text there are paddings only behind a padding. -/
theorem Structured.paddingLast {text bytes : List Byte} (structured : Structured text bytes) :
    PaddingLast text := by
  induction structured with
  | empty => exact .nil
  | last isLast _ =>
      obtain ⟨letters, padding, rfl, -, -, letter, paddings⟩ := isLast
      refine paddingLast_of_letters letter ?_
      exact List.pairwise_of_forall_mem_list fun _ _ behind member _ => paddings behind member
  | full _ letters _ _ _ inductionHypothesis =>
      exact paddingLast_of_letters letters inductionHypothesis

/--
What the decoder accepts of a text has the structure of its comments if and only if it
refuses the text for an illegible chunk, or there are only paddings behind a padding.
-/
theorem acceptsChunks_iff (text : List Byte) :
    AcceptsChunks text ↔
      (∃ chunk ∈ chunks text, ¬ Legible chunk) ∨ PaddingLast text := by
  have reads := Reading.reads_decode text
  have result : (Reading.decode text).result = decodeLoop text 0 := by
    rw [reads.result_eq, base64Decode_eq]
  constructor
  · intro accepts
    by_cases legible : ∀ chunk ∈ chunks text, Legible chunk
    · have returns := (decodeLoop_isSome_iff text).mpr legible
      obtain ⟨bytes, accepted⟩ := Option.isSome_iff_exists.mp returns
      exact .inr (accepts.structured bytes (result.trans accepted)).paddingLast
    · push Not at legible
      exact .inl legible
  · intro condition
    refine ⟨fun bytes accepted => ?_, reads⟩
    rw [result] at accepted
    obtain ⟨chunk, member, illegible⟩ | last := condition
    · have legible := (decodeLoop_isSome_iff text).mp (Option.isSome_of_eq_some accepted)
      exact absurd (legible chunk member) illegible
    · exact structured_of_paddingLast last accepted

/-- A padding in the middle of a text, `AA==AAAA`, is accepted. -/
theorem acceptsChunks_not_middle :
    ¬ AcceptsChunks [65, 65, 61, 61, 65, 65, 65, 65] := by
  intro accepts
  have accepted : decodeLoop [65, 65, 61, 61, 65, 65, 65, 65] 0 = some [0, 0, 0, 0] := by
    rw [decodeLoop_chunk, decodeLoop_chunk, decodeLoop_nil]
    decide
  have reads := Reading.reads_decode [65, 65, 61, 61, 65, 65, 65, 65]
  have last := (accepts.structured _ (reads.result_eq.trans accepted)).paddingLast
  exact absurd last (by decide)

end AsyncRuntime.Base64
