import AsyncRuntime.Base64.RoundTrip
import Mathlib.Tactic.Common

/-!
# Line breaks

`insert_linebreaks` inserts into the string that it measures.  What lies before its
position is finished, up to the line that it is about to end, so that the loop
cuts the rest of the original string into lines: `cutLines` is this cut, and the
text is the lines with a newline between them.
-/

namespace AsyncRuntime.Base64

/-! ## The lines of a text -/

/-- The text in lines of `width` characters, and what is left over. -/
def cutLines (width : ℕ) (text : List Byte) : List (List Byte) :=
  if 0 < width ∧ width < text.length then
    text.take width :: cutLines width (text.drop width)
  else [text]
termination_by text.length
decreasing_by
  rw [List.length_drop]
  omega

theorem cutLines_ne_nil (width : ℕ) (text : List Byte) : cutLines width text ≠ [] := by
  rw [cutLines]
  split <;> exact List.cons_ne_nil _ _

/-- All lines but the last are full, and the last is empty for the empty text only. -/
theorem cutLines_lengths {width : ℕ} (positive : 0 < width) (text : List Byte) :
    ∃ full last, cutLines width text = full ++ [last] ∧
      (∀ line ∈ full, line.length = width) ∧ last.length ≤ width ∧
      (text ≠ [] → 1 ≤ last.length) := by
  induction text using cutLines.induct width with
  | case1 text more inductionHypothesis =>
      obtain ⟨full, last, split, lengths, bounded, nonempty⟩ := inductionHypothesis
      refine ⟨text.take width :: full, last, ?_, ?_, bounded, ?_⟩
      · rw [cutLines, if_pos more, split, List.cons_append]
      · intro line member
        rcases List.mem_cons.mp member with rfl | member
        · rw [List.length_take, Nat.min_eq_left more.2.le]
        · exact lengths line member
      · intro _
        apply nonempty
        exact List.ne_nil_of_length_pos (by rw [List.length_drop]; omega)
  | case2 text fits =>
      refine ⟨[], text, ?_, ?_, by omega, List.length_pos_of_ne_nil⟩
      · rw [cutLines, if_neg fits, List.nil_append]
      · intro line member
        exact absurd member List.not_mem_nil

/-- Nothing is lost and nothing is added. -/
theorem flatten_cutLines (width : ℕ) (text : List Byte) :
    (cutLines width text).flatten = text := by
  induction text using cutLines.induct width with
  | case1 text more inductionHypothesis =>
      rw [cutLines, if_pos more, List.flatten_cons, inductionHypothesis, List.take_append_drop]
  | case2 text fits =>
      rw [cutLines, if_neg fits, List.flatten_singleton]

/-- A line is made of characters of the text. -/
theorem not_mem_of_mem_cutLines {width : ℕ} {text line : List Byte} {chr : Byte}
    (absent : chr ∉ text) (member : line ∈ cutLines width text) : chr ∉ line := by
  intro inside
  apply absent
  rw [← flatten_cutLines width text]
  exact List.mem_flatten_of_mem member inside

/-! ## The inserting loop -/

/-- The lines with a newline between them. -/
def joinLines (lines : List (List Byte)) : List Byte :=
  [newline].intercalate lines

theorem joinLines_singleton (line : List Byte) : joinLines [line] = line :=
  List.intercalate_singleton

theorem joinLines_cons {lines : List (List Byte)} (line : List Byte) (more : lines ≠ []) :
    joinLines (line :: lines) = line ++ newline :: joinLines lines := by
  rw [joinLines, List.intercalate_cons_of_ne_nil more, List.append_assoc]
  rfl

/--
The loop breaks what is left of the string, and leaves what it has passed.  Its
position is one line after the last newline that it has inserted.
-/
theorem insertLoop_eq {distance : ℕ} (positive : 0 < distance) {rounds : ℕ}
    (before rest : List Byte) (enough : rest.length < rounds) :
    insertLoop distance rounds (before.length + distance) (before ++ rest) =
      some (before ++ joinLines (cutLines distance rest)) := by
  induction rounds generalizing before rest with
  | zero => omega
  | succ rounds inductionHypothesis =>
      by_cases more : distance < rest.length
      · have inside : before.length + distance < (before ++ rest).length := by
          rw [List.length_append]
          omega
        have passed : (before ++ rest).take (before.length + distance) =
            before ++ rest.take distance := List.take_length_add_append distance
        have left : (before ++ rest).drop (before.length + distance) = rest.drop distance :=
          List.drop_length_add_append distance
        have later := inductionHypothesis (before ++ (rest.take distance ++ [newline]))
          (rest.drop distance) (by rw [List.length_drop]; omega)
        have position : (before ++ (rest.take distance ++ [newline])).length + distance =
            before.length + distance + (distance + 1) := by
          rw [List.length_append, List.length_append, List.length_take, List.length_singleton,
            Nat.min_eq_left more.le]
          omega
        rw [insertLoop, if_pos inside, passed, left, cutLines, if_pos ⟨positive, more⟩,
          joinLines_cons _ (cutLines_ne_nil distance _)]
        rw [position] at later
        simpa only [List.append_assoc, List.singleton_append] using later
      · have outside : ¬ before.length + distance < (before ++ rest).length := by
          rw [List.length_append]
          omega
        rw [insertLoop, if_neg outside, cutLines, if_neg (fun both => more both.2),
          joinLines_singleton]

/-- `insert_linebreaks` ends, and puts a newline between the lines. -/
theorem insertLinebreaks_eq {distance : ℕ} (positive : 0 < distance) (str : List Byte) :
    insertLinebreaks str distance = some (joinLines (cutLines distance str)) := by
  cases str with
  | nil => rw [cutLines, if_neg (by simp)]; rfl
  | cons chr str =>
      have loop := insertLoop_eq positive [] (chr :: str) (Nat.lt_succ_self _)
      rw [List.length_nil, Nat.zero_add] at loop
      exact loop

/-! ## The text and its lines -/

/-- Removing the newlines joins the lines again. -/
theorem filter_joinLines {lines : List (List Byte)} (clean : ∀ line ∈ lines, newline ∉ line) :
    (joinLines lines).filter (· != newline) = lines.flatten := by
  have kept (line : List Byte) (free : newline ∉ line) :
      line.filter (· != newline) = line := by
    apply List.filter_eq_self.mpr
    intro chr member
    exact bne_iff_ne.mpr fun same => free (same ▸ member)
  induction lines with
  | nil => rfl
  | cons line lines inductionHypothesis =>
      have rest := inductionHypothesis fun other member =>
        clean other (List.mem_cons_of_mem line member)
      have first := kept line (clean line List.mem_cons_self)
      by_cases more : lines = []
      · subst more
        rw [joinLines_singleton, first, List.flatten_singleton]
      · rw [joinLines_cons line more, List.filter_append, first, List.filter_cons_of_neg (by simp),
          rest, List.flatten_cons]

/-- A text that ends with a line that is not empty has no newline at its end. -/
theorem getLast?_joinLines {full : List (List Byte)} {last : List Byte}
    (nonempty : last ≠ []) : (joinLines (full ++ [last])).getLast? = last.getLast? := by
  induction full with
  | nil => rw [List.nil_append, joinLines_singleton]
  | cons line full inductionHypothesis =>
      rw [List.cons_append, joinLines_cons line (by simp), List.getLast?_append,
        List.getLast?_cons, inductionHypothesis]
      cases shape : last.getLast? with
      | none => exact absurd (List.getLast?_eq_none_iff.mp shape) nonempty
      | some chr => rfl

/-- The text of the encoder has no newline. -/
theorem newline_not_mem_encodeGroups (bytes : List Byte) :
    newline ∉ encodeGroups false bytes := by
  obtain ⟨body, padding, split, _, letters, pads⟩ := encodeGroups_alphabet false bytes
  rw [split]
  intro member
  rcases List.mem_append.mp member with member | member
  · exact absurd (letters newline member) (by decide)
  · exact absurd (pads newline member) (by decide)

theorem encodeGroups_ne_nil {url : Bool} {bytes : List Byte} (nonempty : bytes ≠ []) :
    encodeGroups url bytes ≠ [] := by
  apply List.ne_nil_of_length_pos
  have some := List.length_pos_of_ne_nil nonempty
  rw [length_encodeGroups]
  omega

/-! ## PEM and MIME -/

/-- What the encodings with lines of `width` characters promise about their text. -/
structure Wrapped (width : ℕ) (bytes text : List Byte) : Prop where
  empty : bytes = [] → text = []
  lines : bytes ≠ [] → ∃ full last, text.splitOn newline = full ++ [last] ∧
    (∀ line ∈ full, line.length = width) ∧ 1 ≤ last.length ∧ last.length ≤ width
  ended : text.getLast? ≠ some newline
  unwrapped : base64Encode bytes false = some (text.filter (· != newline))
  decoded : base64Decode text true = some bytes

/-- The decoder ignores newlines when it is told to. -/
theorem base64Decode_removeLinebreaks (text : List Byte) :
    base64Decode text true = base64Decode (text.filter (· != newline)) false := by
  cases text with
  | nil => rfl
  | cons chr text =>
      rw [base64Decode_eq, base64Decode, if_neg (by simp), if_pos rfl]
      cases (chr :: text).filter (· != newline) with
      | nil => rw [decodeLoop]; rfl
      | cons first rest => rfl

/-- The promise holds for any width. -/
theorem encodeWithLineBreaks_wrapped {width : ℕ} (positive : 0 < width) {bytes : List Byte}
    (short : bytes.length < 2 ^ 32) :
    ∃ text, encodeWithLineBreaks width bytes = some text ∧ Wrapped width bytes text := by
  have encoded := base64Encode_eq false short
  have clean : ∀ line ∈ cutLines width (encodeGroups false bytes), newline ∉ line :=
    fun line => not_mem_of_mem_cutLines (newline_not_mem_encodeGroups bytes)
  have unwrapped : (joinLines (cutLines width (encodeGroups false bytes))).filter (· != newline) =
      encodeGroups false bytes := by
    rw [filter_joinLines clean, flatten_cutLines]
  obtain ⟨full, last, split, lengths, bounded, nonempty⟩ :=
    cutLines_lengths positive (encodeGroups false bytes)
  refine ⟨joinLines (cutLines width (encodeGroups false bytes)), ?_, ?_, ?_, ?_, ?_, ?_⟩
  · rw [encodeWithLineBreaks, encoded]
    exact insertLinebreaks_eq positive _
  · intro empty
    rw [empty, encodeGroups, cutLines, if_neg (by simp), joinLines_singleton]
  · intro some
    refine ⟨full, last, ?_, lengths, nonempty (encodeGroups_ne_nil some), bounded⟩
    rw [joinLines, List.splitOn_intercalate newline clean (cutLines_ne_nil _ _), split]
  · by_cases empty : bytes = []
    · rw [empty, encodeGroups, cutLines, if_neg (by simp), joinLines_singleton]
      simp
    · have positiveLast := nonempty (encodeGroups_ne_nil empty)
      rw [split] at clean
      rw [split, getLast?_joinLines (List.ne_nil_of_length_pos positiveLast)]
      intro final
      exact clean last (List.mem_append_right _ List.mem_cons_self) (List.mem_of_getLast? final)
  · rw [unwrapped, encoded]
  · rw [base64Decode_removeLinebreaks, unwrapped, base64Decode_eq]
    exact decodeLoop_encodeGroups false bytes []

/--
PEM and MIME texts consist of full lines and a last line that is not empty, and
without their newlines they are the text of the encoder, so that they decode back.
-/
theorem base64EncodePem_base64EncodeMime (bytes : List Byte) (short : bytes.length < 2 ^ 32) :
    (∃ text, base64EncodePem bytes = some text ∧ Wrapped 64 bytes text) ∧
      ∃ text, base64EncodeMime bytes = some text ∧ Wrapped 76 bytes text :=
  ⟨encodeWithLineBreaks_wrapped (by decide) short, encodeWithLineBreaks_wrapped (by decide) short⟩

/-- The theorem at a string whose text fills one line of PEM exactly. -/
theorem base64EncodePem_base64EncodeMime_line :
    (∃ text, base64EncodePem (List.replicate 48 7) = some text ∧
        Wrapped 64 (List.replicate 48 7) text) ∧
      ∃ text, base64EncodeMime (List.replicate 48 7) = some text ∧
        Wrapped 76 (List.replicate 48 7) text :=
  base64EncodePem_base64EncodeMime (List.replicate 48 7) (by decide)

end AsyncRuntime.Base64
