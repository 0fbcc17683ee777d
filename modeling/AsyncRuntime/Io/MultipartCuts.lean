import AsyncRuntime.Io.MultipartReads

/-!
# Which cuts of the stream go unnoticed

Cutting the stream never helps to find the boundary line: a fragment of a line is
tested where the whole line should be.  The scan of the marked stream is compared
here with the scan of the same stream without marks.

The result is an equivalence.  A cutting is read like the whole stream if and only
if, of the fragments of the first boundary line, the last one alone contains the
boundary, and a following line that begins with a return is not cut.
-/

namespace AsyncRuntime.Io.Multipart

universe u v

/-! ## Fragments -/

theorem fragments_ne_nil (line : List (Option Byte)) : fragments line ≠ [] := by
  cases line with
  | nil => exact List.cons_ne_nil _ _
  | cons symbol rest =>
      cases symbol with
      | none => exact List.cons_ne_nil _ _
      | some byte =>
          rw [fragments]
          split <;> exact List.cons_ne_nil _ _

theorem fragments_cut (front back : List (Option Byte)) :
    fragments (front ++ none :: back) = fragments front ++ fragments back := by
  induction front with
  | nil => rfl
  | cons symbol rest inductionHypothesis =>
      cases symbol with
      | none =>
          rw [List.cons_append, fragments, fragments, inductionHypothesis]
          rfl
      | some byte =>
          rw [List.cons_append, fragments, fragments, inductionHypothesis]
          cases nothing : fragments rest with
          | nil => exact absurd nothing (fragments_ne_nil rest)
          | cons first others => rfl

/-- The last fragment of a line grows with the line. -/
theorem fragments_concat {line : List (Option Byte)} {earlier : List (List Byte)}
    {fragment : List Byte} (split_eq : fragments line = earlier ++ [fragment])
    (byte : Byte) :
    fragments (line ++ [some byte]) = earlier ++ [fragment ++ [byte]] := by
  induction line generalizing earlier fragment with
  | nil =>
      rcases List.append_eq_singleton_iff.mp split_eq.symm with
        ⟨rfl, single⟩ | ⟨-, impossible⟩
      · cases single
        rfl
      · exact absurd impossible (List.cons_ne_nil _ _)
  | cons symbol rest inductionHypothesis =>
      cases symbol with
      | none =>
          rw [fragments] at split_eq
          rw [List.cons_append, fragments]
          cases earlier with
          | nil =>
              rw [List.nil_append, List.cons.injEq] at split_eq
              exact absurd split_eq.2 (fragments_ne_nil rest)
          | cons first others =>
              rw [List.cons_append, List.cons.injEq] at split_eq
              rw [inductionHypothesis split_eq.2, split_eq.1]
              rfl
      | some head =>
          rw [fragments] at split_eq
          rw [List.cons_append, fragments]
          cases parts : fragments rest with
          | nil => exact absurd parts (fragments_ne_nil rest)
          | cons first others =>
              rw [parts] at split_eq
              cases earlier with
              | nil =>
                  rw [List.nil_append, List.cons.injEq] at split_eq
                  rcases split_eq with ⟨rfl, rfl⟩
                  rw [@inductionHypothesis [] first parts]
                  rfl
              | cons before between =>
                  rw [List.cons_append, List.cons.injEq] at split_eq
                  rcases split_eq with ⟨rfl, rfl⟩
                  rw [@inductionHypothesis (first :: between) fragment parts]
                  rfl

theorem flatten_fragments (line : List (Option Byte)) :
    (fragments line).flatten = bytes line := by
  induction line with
  | nil => rfl
  | cons symbol rest inductionHypothesis =>
      cases symbol with
      | none =>
          rw [fragments, List.flatten_cons, inductionHypothesis]
          rfl
      | some byte =>
          rw [fragments, bytes_byte, ← inductionHypothesis]
          split
          · rename_i nothing
            exact absurd nothing (fragments_ne_nil rest)
          · rename_i first others parts
            rw [parts]
            rfl

theorem suffix_of_fragments {line : List (Option Byte)}
    {earlier : List (List Byte)} {fragment : List Byte}
    (split_eq : fragments line = earlier ++ [fragment]) :
    fragment <:+ bytes line := by
  rw [← flatten_fragments, split_eq, List.flatten_concat]
  exact List.suffix_append _ _

/-- All but the last fragment of a line are known not to contain the pattern. -/
theorem lastOnly_iff {pattern : List Byte} {line : List (Option Byte)}
    {earlier : List (List Byte)} {fragment : List Byte}
    (split_eq : fragments line = earlier ++ [fragment])
    (missing : ∀ other ∈ earlier, ¬ pattern <:+: other) :
    LastOnly pattern line ↔ pattern <:+: fragment := by
  rw [LastOnly, split_eq, List.dropLast_concat, List.getLast?_concat]
  simp only [Option.mem_def, Option.some.injEq, exists_eq_left', and_iff_right_iff_imp]
  exact fun _ => missing

/-! ## The scan and the boundary line -/

/-- There are bytes after every cut. -/
def WellCut : List (Option Byte) → Prop
  | [] => True
  | none :: rest => bytes rest ≠ [] ∧ WellCut rest
  | some _ :: rest => WellCut rest

section

variable {pattern : List Byte} {line after stream : List (Option Byte)}

/-- A line that contains the pattern is found, as long as it gets. -/
theorem boundaryLine_of_infix (present : pattern <:+: bytes line)
    (stream : List (Option Byte)) :
    ∃ whole rest, boundaryLine pattern line stream = some (line ++ whole, rest) := by
  induction stream generalizing line with
  | nil =>
      rw [boundaryLine, if_pos present]
      exact ⟨[], [], by rw [List.append_nil]⟩
  | cons symbol rest inductionHypothesis =>
      have longer (added : Option Byte) :
          ∃ whole later,
            boundaryLine pattern (line ++ [added]) rest =
              some (line ++ whole, later) := by
        have still : pattern <:+: bytes (line ++ [added]) := by
          rw [bytes_append]
          exact present.trans (List.prefix_append _ _).isInfix
        rcases inductionHypothesis still with ⟨whole, later, found⟩
        refine ⟨added :: whole, later, ?_⟩
        rw [found, List.append_assoc]
        rfl
      cases symbol with
      | none => exact longer none
      | some byte =>
          rw [boundaryLine]
          by_cases ending : byte = newline
          · rw [if_pos ending, if_pos present]
            exact ⟨[], rest, by rw [List.append_nil]⟩
          · rw [if_neg ending]
            exact longer (some byte)

/-- What a boundary line is, and what is known of the rest. -/
theorem boundaryLine_spec {segment : List (Option Byte)}
    (found : boundaryLine pattern line stream = some (segment, after)) :
    pattern <:+: bytes segment ∧
      (bytes after).length ≤ (bytes stream).length - 1 ∧
      (WellCut stream → WellCut after) := by
  induction stream generalizing line with
  | nil =>
      rw [boundaryLine] at found
      split at found
      · rename_i present
        cases found
        exact ⟨present, Nat.le_refl _, id⟩
      · cases found
  | cons symbol rest inductionHypothesis =>
      cases symbol with
      | none =>
          rw [boundaryLine] at found
          rcases inductionHypothesis found with ⟨present, shorter, wellCut⟩
          exact ⟨present, shorter, fun cut => wellCut cut.2⟩
      | some byte =>
          rw [boundaryLine] at found
          rw [bytes_byte, List.length_cons]
          by_cases ending : byte = newline
          · rw [if_pos ending] at found
            by_cases present : pattern <:+: bytes line
            · rw [if_pos present] at found
              cases found
              exact ⟨present, Nat.le_refl _, id⟩
            · rw [if_neg present] at found
              rcases inductionHypothesis found with ⟨present, shorter, wellCut⟩
              exact ⟨present, by omega, wellCut⟩
          · rw [if_neg ending] at found
            rcases inductionHypothesis found with ⟨present, shorter, wellCut⟩
            exact ⟨present, by omega, wellCut⟩

/-- Without its cuts the stream has the same boundary line. -/
theorem boundaryLine_erase (line stream : List (Option Byte)) :
    boundaryLine pattern ((bytes line).map some) ((bytes stream).map some) =
      (boundaryLine pattern line stream).map fun found =>
        ((bytes found.1).map some, (bytes found.2).map some) := by
  induction stream generalizing line with
  | nil =>
      simp only [bytes_nil, List.map_nil, boundaryLine, bytes_map]
      split <;> rfl
  | cons symbol rest inductionHypothesis =>
      cases symbol with
      | none =>
          have same : bytes (line ++ [none]) = bytes line := by simp
          rw [bytes_cut, boundaryLine, ← inductionHypothesis, same]
      | some byte =>
          rw [bytes_byte, List.map_cons, boundaryLine, boundaryLine, bytes_map]
          by_cases ending : byte = newline
          · rw [if_pos ending, if_pos ending]
            split
            · rfl
            · exact inductionHypothesis []
          · have longer :
                (bytes line).map some ++ [some byte] =
                  (bytes (line ++ [some byte])).map some := by simp
            rw [if_neg ending, if_neg ending, longer]
            exact inductionHypothesis (line ++ [some byte])

theorem scan_length_le {fragment : List Byte}
    {result : Bool × List (Option Byte)}
    (found : scan pattern fragment stream = some result) :
    (bytes result.2).length ≤ (bytes stream).length := by
  induction stream generalizing fragment with
  | nil =>
      rw [scan] at found
      split at found
      · cases found
        exact Nat.le_refl _
      · cases found
  | cons symbol rest inductionHypothesis =>
      cases symbol with
      | none =>
          rw [scan] at found
          split at found
          · cases found
            exact Nat.le_refl _
          · exact inductionHypothesis found
      | some byte =>
          rw [scan] at found
          rw [bytes_byte, List.length_cons]
          split at found
          · split at found
            · cases found
              exact Nat.le_succ _
            · exact Nat.le_succ_of_le (inductionHypothesis found)
          · exact Nat.le_succ_of_le (inductionHypothesis found)

/-- A fragment must still grow before it is found. -/
theorem scan_length_lt (nonempty : pattern ≠ []) {fragment : List Byte}
    (absent : ¬ pattern <:+: fragment) {result : Bool × List (Option Byte)}
    (found : scan pattern fragment stream = some result) :
    (bytes result.2).length < (bytes stream).length := by
  induction stream generalizing fragment with
  | nil =>
      rw [scan, if_neg absent] at found
      cases found
  | cons symbol rest inductionHypothesis =>
      cases symbol with
      | none =>
          rw [scan, if_neg absent] at found
          exact inductionHypothesis (not_infix_nil nonempty) found
      | some byte =>
          rw [scan, if_neg absent] at found
          rw [bytes_byte, List.length_cons]
          split at found
          · exact Nat.lt_succ_of_le (scan_length_le found)
          · exact Nat.lt_succ_of_le (scan_length_le found)

theorem not_infix_of_boundaryLine_none {fragment : List Byte}
    (part : fragment <:+ bytes line)
    (missing : boundaryLine pattern line stream = none) :
    ¬ pattern <:+: fragment := by
  intro present
  rcases boundaryLine_of_infix (present.trans part.isInfix) stream with
    ⟨whole, rest, found⟩
  rw [missing] at found
  cases found

/-- Where there is no boundary line, no fragment contains the boundary. -/
theorem scan_of_boundaryLine_none {fragment : List Byte}
    (part : fragment <:+ bytes line)
    (missing : boundaryLine pattern line stream = none) :
    scan pattern fragment stream = none := by
  induction stream generalizing line fragment with
  | nil => rw [scan, if_neg (not_infix_of_boundaryLine_none part missing)]
  | cons symbol rest inductionHypothesis =>
      have absent := not_infix_of_boundaryLine_none part missing
      cases symbol with
      | none =>
          rw [boundaryLine] at missing
          rw [scan, if_neg absent]
          exact inductionHypothesis (List.nil_suffix) missing
      | some byte =>
          rw [boundaryLine] at missing
          rw [scan, if_neg absent]
          by_cases ending : byte = newline
          · rw [if_pos ending] at missing ⊢
            split at missing
            · cases missing
            · exact @inductionHypothesis [] [] List.nil_suffix missing
          · rw [if_neg ending] at missing ⊢
            refine inductionHypothesis ?_ missing
            rcases part with ⟨before, line_eq⟩
            exact ⟨before, by simp [← line_eq]⟩

/-- A fragment that contains the boundary before a cut is not the last one. -/
theorem not_lastOnly_of_early {segment rest : List (Option Byte)}
    {earlier : List (List Byte)} {fragment : List Byte}
    (split_eq : fragments line = earlier ++ [fragment]) (present : pattern <:+: fragment)
    (found : boundaryLine pattern (line ++ [none]) rest = some (segment, after)) :
    ¬ LastOnly pattern segment := by
  intro lastOnly
  have inLine : pattern <:+: bytes (line ++ [none]) := by
    rw [bytes_append]
    exact (present.trans (suffix_of_fragments split_eq).isInfix).trans
      (List.prefix_append _ _).isInfix
  rcases boundaryLine_of_infix inLine rest with ⟨whole, later, found_eq⟩
  rw [found] at found_eq
  cases found_eq
  apply lastOnly.1 fragment _ present
  rw [List.append_assoc, List.singleton_append, fragments_cut, split_eq,
    List.dropLast_append_of_ne_nil (fragments_ne_nil whole)]
  exact List.mem_append_left _
    (List.mem_append_right _ (List.mem_singleton_self fragment))

/--
The scan finds the boundary line if its last fragment alone contains the boundary,
and otherwise stops at another place, if at all.
-/
theorem scan_of_boundaryLine_some (nonempty : pattern ≠ [])
    {segment : List (Option Byte)} {earlier : List (List Byte)}
    {fragment : List Byte} (wellCut : WellCut stream)
    (split_eq : fragments line = earlier ++ [fragment])
    (missing : ∀ other ∈ earlier, ¬ pattern <:+: other)
    (found : boundaryLine pattern line stream = some (segment, after)) :
    (LastOnly pattern segment →
        ∃ finished, scan pattern fragment stream = some (finished, after) ∧
          (finished = true ∨ after = [])) ∧
      (¬ LastOnly pattern segment →
        ∀ result, scan pattern fragment stream = some result →
          (bytes result.2).length ≠ (bytes after).length) := by
  induction stream generalizing line earlier fragment with
  | nil =>
      rw [boundaryLine] at found
      split at found
      · cases found
        rw [lastOnly_iff split_eq missing, scan]
        constructor
        · intro present
          rw [if_pos present]
          exact ⟨false, rfl, .inr rfl⟩
        · intro absent result scanned
          rw [if_neg absent] at scanned
          cases scanned
      · cases found
  | cons symbol rest inductionHypothesis =>
      cases symbol with
      | none =>
          rw [boundaryLine] at found
          have cut_eq : fragments (line ++ [none]) = (earlier ++ [fragment]) ++ [[]] := by
            rw [fragments_cut, split_eq]
            rfl
          rw [scan]
          by_cases present : pattern <:+: fragment
          · -- the fragment before the cut is taken for the line
            have early := not_lastOnly_of_early split_eq present found
            refine ⟨fun lastOnly => absurd lastOnly early, ?_⟩
            intro _ result scanned
            rw [if_pos present] at scanned
            cases scanned
            have shorter := (boundaryLine_spec found).2.1
            have more := List.length_pos_iff.mpr wellCut.1
            rw [bytes_cut]
            omega
          · rw [if_neg present]
            refine inductionHypothesis wellCut.2 cut_eq ?_ found
            intro other member
            rw [List.mem_append, List.mem_singleton] at member
            rcases member with old | rfl
            · exact missing other old
            · exact present
      | some byte =>
          rw [boundaryLine] at found
          rw [scan]
          by_cases ending : byte = newline
          · rw [if_pos ending] at found ⊢
            by_cases inLine : pattern <:+: bytes line
            · rw [if_pos inLine] at found
              cases found
              rw [lastOnly_iff split_eq missing]
              constructor
              · intro present
                rw [if_pos present]
                exact ⟨true, rfl, .inl rfl⟩
              · intro absent result scanned
                rw [if_neg absent] at scanned
                exact (scan_length_lt nonempty (not_infix_nil nonempty) scanned).ne
            · rw [if_neg inLine] at found
              have absent : ¬ pattern <:+: fragment := fun present =>
                inLine (present.trans (suffix_of_fragments split_eq).isInfix)
              rw [if_neg absent]
              exact @inductionHypothesis [] [] [] wellCut rfl
                (fun _ member => absurd member List.not_mem_nil) found
          · rw [if_neg ending] at found ⊢
            exact inductionHypothesis wellCut (fragments_concat split_eq byte)
              missing found

end

/-! ## The line after the boundary line -/

theorem length_dropLine_le (rest : List (Option Byte)) :
    (bytes (dropLine rest)).length ≤ (bytes rest).length := by
  induction rest with
  | nil => exact Nat.le_refl _
  | cons symbol others inductionHypothesis =>
      cases symbol with
      | none => exact Nat.le_refl _
      | some byte =>
          rw [dropLine, bytes_byte, List.length_cons]
          split
          · exact Nat.le_succ _
          · exact Nat.le_succ_of_le inductionHypothesis

theorem length_dropLine_map_lt {piece : List Byte} (nonempty : piece ≠ []) :
    (bytes (dropLine (piece.map some))).length < piece.length := by
  cases piece with
  | nil => exact absurd rfl nonempty
  | cons byte rest =>
      have shorter := length_dropLine_le (rest.map some)
      rw [bytes_map] at shorter
      rw [List.map_cons, dropLine, List.length_cons]
      split
      · rw [bytes_map]
        exact Nat.lt_succ_self _
      · exact Nat.lt_succ_of_le shorter

theorem partBytes_length_le (finished : Bool) (rest : List (Option Byte)) :
    (partBytes finished rest).length ≤ (bytes rest).length := by
  rw [partBytes]
  split
  · exact length_dropLine_le rest
  · exact Nat.le_refl _

section

variable {after : List (Option Byte)}

/-- A line without cuts is dropped whole. -/
theorem bytes_dropLine_erase
    (whole : none ∉ after.takeWhile (· ≠ some newline)) :
    bytes (dropLine ((bytes after).map some)) = bytes (dropLine after) := by
  induction after with
  | nil => rfl
  | cons symbol rest inductionHypothesis =>
      cases symbol with
      | none => exact absurd (by simp) whole
      | some byte =>
          rw [bytes_byte, List.map_cons, dropLine, dropLine]
          by_cases ending : byte = newline
          · rw [if_pos ending, if_pos ending, bytes_map]
          · rw [if_neg ending, if_neg ending]
            apply inductionHypothesis
            rw [List.takeWhile_cons_of_pos (by simpa using ending)] at whole
            exact fun member => whole (List.mem_cons_of_mem _ member)

/-- A line that is cut is only dropped up to the cut. -/
theorem length_dropLine_erase_lt (wellCut : WellCut after)
    (cut : none ∈ after.takeWhile (· ≠ some newline)) :
    (bytes (dropLine ((bytes after).map some))).length <
      (bytes (dropLine after)).length := by
  induction after with
  | nil => exact absurd cut List.not_mem_nil
  | cons symbol rest inductionHypothesis =>
      cases symbol with
      | none => exact length_dropLine_map_lt wellCut.1
      | some byte =>
          rw [bytes_byte, List.map_cons, dropLine, dropLine]
          by_cases ending : byte = newline
          · rw [ending] at cut
            simp at cut
          · rw [if_neg ending, if_neg ending]
            apply inductionHypothesis wellCut
            rw [List.takeWhile_cons_of_pos (by simpa using ending)] at cut
            simpa using cut

/-- The line after the boundary line is skipped as without cuts. -/
theorem partBytes_erase (next : NextLineWhole after) :
    partBytes true ((bytes after).map some) = partBytes true after := by
  rw [partBytes, partBytes, head_map_eq, bytes_map]
  simp only [Bool.true_and, decide_eq_true_eq]
  by_cases returns : (bytes after).head? = some carriageReturn
  · have whole := next returns
    have head_eq : (after.head? == some (some carriageReturn)) = true := by
      cases after with
      | nil => cases returns
      | cons symbol rest =>
          cases symbol with
          | none => exact absurd (by simp) whole
          | some byte => simpa using returns
    rw [if_pos returns, if_pos head_eq]
    exact bytes_dropLine_erase whole
  · have head_ne : ¬ (after.head? == some (some carriageReturn)) = true := by
      intro head_eq
      apply returns
      cases after with
      | nil => cases head_eq
      | cons symbol rest =>
          cases symbol with
          | none => cases head_eq
          | some byte => simpa using head_eq
    rw [if_neg returns, if_neg head_ne]

/-- A cut leaves a piece of the line to the parser. -/
theorem length_partBytes_erase_lt (wellCut : WellCut after)
    (next : ¬ NextLineWhole after) :
    (partBytes true ((bytes after).map some)).length <
      (partBytes true after).length := by
  rw [NextLineWhole, Classical.not_imp, not_not] at next
  rcases next with ⟨returns, cut⟩
  rw [partBytes, partBytes, head_map_eq]
  simp only [Bool.true_and, decide_eq_true_eq, if_pos returns]
  cases after with
  | nil => cases returns
  | cons symbol rest =>
      cases symbol with
      | none => exact length_dropLine_map_lt wellCut.1
      | some byte =>
          have head_eq : ((some byte :: rest).head? == some (some carriageReturn)) = true := by
            simpa using returns
          rw [if_pos head_eq]
          exact length_dropLine_erase_lt wellCut cut

end

/-! ## Cuttings -/

theorem wellCut_map (piece : List Byte) (rest : List (Option Byte))
    (wellCut : WellCut rest) : WellCut (piece.map some ++ rest) := by
  induction piece with
  | nil => exact wellCut
  | cons byte others inductionHypothesis => exact inductionHypothesis

theorem wellCut_marked {reads : List (List Byte)}
    (nonempty : ∀ read ∈ reads, read ≠ []) : WellCut (marked reads) := by
  induction reads with
  | nil => exact trivial
  | cons first rest inductionHypothesis =>
      have later := inductionHypothesis fun read member =>
        nonempty read (List.mem_cons_of_mem first member)
      cases rest with
      | nil =>
          rw [marked, ← List.append_nil (first.map some)]
          exact wellCut_map first [] trivial
      | cons second others =>
          rw [marked]
          · refine wellCut_map first _ ⟨?_, later⟩
            have present := nonempty second
              (List.mem_cons_of_mem first List.mem_cons_self)
            rw [bytes_marked, List.flatten_cons]
            exact fun empty => present (List.append_eq_nil_iff.mp empty).1
          · exact List.cons_ne_nil second others

theorem fragments_map (piece : List Byte) : fragments (piece.map some) = [piece] := by
  induction piece with
  | nil => rfl
  | cons byte rest inductionHypothesis =>
      rw [List.map_cons, fragments, inductionHypothesis]

section

variable {Parsing : Type v} {Response : Type u}

theorem sameReading_iff {parser : Parser Parsing Response} {boundary left : List Byte}
    {first second : List (List Byte)} :
    SameReading parser boundary left first second ↔
      (read parser boundary left first).observe =
        (read parser boundary left second).observe := by
  simp only [Task.observe, Prod.mk.injEq]
  constructor
  · rintro ⟨lineEnd, partStart, handed, outcome⟩
    exact ⟨lineEnd, partStart, handed, outcome⟩
  · rintro ⟨lineEnd, partStart, handed, outcome⟩
    exact ⟨lineEnd, partStart, handed, outcome⟩

/-- The scan of the stream without its cuts. -/
theorem scan_erase {pattern : List Byte} (nonempty : pattern ≠ [])
    {stream segment after : List (Option Byte)}
    (found : boundaryLine pattern [] stream = some (segment, after)) :
    ∃ finished,
      scan pattern [] ((bytes stream).map some) =
          some (finished, (bytes after).map some) ∧
        (finished = true ∨ bytes after = []) := by
  have erased := @boundaryLine_erase pattern [] stream
  rw [found] at erased
  have wellCut : WellCut ((bytes stream).map some) := by
    have cut := wellCut_map (bytes stream) [] trivial
    rwa [List.append_nil] at cut
  have lastOnly : LastOnly pattern ((bytes segment).map some) := by
    rw [@lastOnly_iff pattern _ [] _ (fragments_map (bytes segment))
      (fun _ member => absurd member List.not_mem_nil)]
    exact (boundaryLine_spec found).1
  rcases (@scan_of_boundaryLine_some pattern [] _ _ nonempty _ [] [] wellCut rfl
      (fun _ member => absurd member List.not_mem_nil) erased).1 lastOnly with
    ⟨finished, scanned, ending⟩
  exact ⟨finished, scanned, ending.imp_right (List.map_eq_nil_iff.mp ·)⟩

section

variable {parser : Parser Parsing Response} {pattern : List Byte} {total : ℕ}
  {stream segment after : List (Option Byte)}

theorem finished_of_bytes {finished : Bool} (ending : finished = true ∨ after = [])
    (present : bytes after ≠ []) : finished = true := by
  rcases ending with done | empty
  · exact done
  · rw [empty] at present
    exact absurd rfl present

/-- A cut in the boundary line shows in the place where the line ends. -/
theorem lastOnly_of_expected_eq (nonempty : pattern ≠ []) (wellCut : WellCut stream)
    (enough : (bytes stream).length ≤ total)
    (found : boundaryLine pattern [] stream = some (segment, after))
    (same : expected parser total (scan pattern [] stream) =
      expected parser total (scan pattern [] ((bytes stream).map some))) :
    LastOnly pattern segment := by
  rcases scan_erase nonempty found with ⟨whole, whole_eq, -⟩
  have spec := boundaryLine_spec found
  by_contra other
  rw [whole_eq] at same
  cases scanned : scan pattern [] stream with
  | none =>
      rw [scanned] at same
      simp [expected] at same
  | some result =>
      have apart := (@scan_of_boundaryLine_some pattern [] _ _ nonempty _ [] [] wellCut rfl
        (fun _ member => absurd member List.not_mem_nil) found).2 other result scanned
      have shorter := scan_length_le scanned
      rw [scanned] at same
      simp only [expected, Prod.mk.injEq, Option.some.injEq, bytes_map] at same
      omega

/-- A cut in the line that is skipped shows in the place where the part begins. -/
theorem nextLineWhole_of_expected_eq (nonempty : pattern ≠ []) (wellCut : WellCut stream)
    (enough : (bytes stream).length ≤ total)
    (found : boundaryLine pattern [] stream = some (segment, after))
    (lastOnly : LastOnly pattern segment)
    (same : expected parser total (scan pattern [] stream) =
      expected parser total (scan pattern [] ((bytes stream).map some))) :
    NextLineWhole after := by
  rcases scan_erase nonempty found with ⟨whole, whole_eq, whole_end⟩
  rcases (@scan_of_boundaryLine_some pattern [] _ _ nonempty _ [] [] wellCut rfl
      (fun _ member => absurd member List.not_mem_nil) found).1 lastOnly with
    ⟨finished, scanned, ending⟩
  have spec := boundaryLine_spec found
  by_contra cut
  have returns : (bytes after).head? = some carriageReturn := by
    by_contra other
    exact cut fun head_eq => absurd head_eq other
  have present : bytes after ≠ [] := by
    intro empty
    rw [empty] at returns
    cases returns
  rw [finished_of_bytes ending present] at scanned
  rw [whole_end.resolve_right present] at whole_eq
  have longer := length_partBytes_erase_lt (spec.2.2 wellCut) cut
  have fits := partBytes_length_le true after
  have whole_fits := partBytes_length_le true ((bytes after).map some)
  rw [bytes_map] at whole_fits
  rw [scanned, whole_eq] at same
  simp only [expected, Prod.mk.injEq, Option.some.injEq] at same
  omega

theorem expected_eq_of_clean (nonempty : pattern ≠ []) (wellCut : WellCut stream)
    (found : boundaryLine pattern [] stream = some (segment, after))
    (lastOnly : LastOnly pattern segment) (next : NextLineWhole after) :
    expected parser total (scan pattern [] stream) =
      expected parser total (scan pattern [] ((bytes stream).map some)) := by
  rcases scan_erase nonempty found with ⟨whole, whole_eq, whole_end⟩
  rcases (@scan_of_boundaryLine_some pattern [] _ _ nonempty _ [] [] wellCut rfl
      (fun _ member => absurd member List.not_mem_nil) found).1 lastOnly with
    ⟨finished, scanned, ending⟩
  have part_eq :
      partBytes finished after = partBytes whole ((bytes after).map some) := by
    by_cases empty : bytes after = []
    · have left_empty : partBytes finished after = [] := by
        have short := partBytes_length_le finished after
        rw [empty] at short
        exact List.length_eq_zero_iff.mp (Nat.le_zero.mp short)
      rw [left_empty, empty]
      cases whole <;> rfl
    · rw [finished_of_bytes ending empty, whole_end.resolve_right empty]
      exact (partBytes_erase next).symm
  rw [scanned, whole_eq]
  simp only [expected, part_eq, bytes_map]

/-- With and without the cuts the scan gives the same, if the cuts are clean. -/
theorem expected_scan_iff (nonempty : pattern ≠ []) (wellCut : WellCut stream)
    (enough : (bytes stream).length ≤ total) :
    expected parser total (scan pattern [] stream) =
        expected parser total (scan pattern [] ((bytes stream).map some)) ↔
      ∀ segment after,
        boundaryLine pattern [] stream = some (segment, after) →
          LastOnly pattern segment ∧ NextLineWhole after := by
  cases found : boundaryLine pattern [] stream with
  | none =>
      have erased := @boundaryLine_erase pattern [] stream
      rw [found] at erased
      rw [scan_of_boundaryLine_none List.nil_suffix found,
        @scan_of_boundaryLine_none pattern [] _ _ List.nil_suffix erased]
      refine iff_of_true rfl fun segment after impossible => ?_
      cases impossible
  | some line =>
      constructor
      · intro same segment after again
        cases again
        have lastOnly := lastOnly_of_expected_eq nonempty wellCut enough found same
        exact ⟨lastOnly,
          nextLineWhole_of_expected_eq nonempty wellCut enough found lastOnly same⟩
      · intro clean
        rcases clean line.1 line.2 rfl with ⟨lastOnly, next⟩
        exact expected_eq_of_clean nonempty wellCut found lastOnly next

end

/-- A cutting is read like the whole stream if and only if it is clean. -/
theorem sameReading_whole_iff {parser : Parser Parsing Response}
    (incremental : parser.Incremental) (boundary left : List Byte)
    {reads : List (List Byte)} (some_read : reads ≠ [])
    (nonempty : ∀ read ∈ reads, read ≠ []) :
    SameReading parser boundary left reads [reads.flatten] ↔
      Clean boundary left reads := by
  cases reads with
  | nil => exact absurd rfl some_read
  | cons first rest =>
      have observed (first : List Byte) (rest : List (List Byte)) :
          (read parser boundary left (first :: rest)).observe =
            expected parser (left.length + (first :: rest).flatten.length)
              (scan (marker boundary) [] (marked (pieces left (first :: rest)))) :=
        observe_foldl_searching incremental rfl rfl rfl rfl rfl first rest
      have stream_eq :
          bytes (marked (pieces left (first :: rest))) =
            left ++ (first :: rest).flatten := by
        rw [bytes_marked, pieces, List.flatten_cons, List.flatten_cons,
          List.append_assoc]
      have whole_eq :
          marked (pieces left [(first :: rest).flatten]) =
            (bytes (marked (pieces left (first :: rest)))).map some := by
        rw [stream_eq]
        rfl
      have wellCut : WellCut (marked (pieces left (first :: rest))) := by
        apply wellCut_marked
        intro piece member
        rcases List.mem_cons.mp member with rfl | later
        · intro empty
          exact nonempty first List.mem_cons_self
            (List.append_eq_nil_iff.mp empty).2
        · exact nonempty piece (List.mem_cons_of_mem first later)
      have total : (bytes (marked (pieces left (first :: rest)))).length ≤
          left.length + (first :: rest).flatten.length := by
        rw [stream_eq, List.length_append]
      have whole_length :
          [(first :: rest).flatten].flatten = (first :: rest).flatten := by
        rw [List.flatten_cons, List.flatten_nil, List.append_nil]
      rw [sameReading_iff, observed, observed, whole_eq, whole_length]
      exact expected_scan_iff (List.cons_ne_nil _ _) wellCut total

/--
For every parser that takes its bytes incrementally, every boundary and stream: two
clean cuttings of the stream are read the same way, and a cutting is read like the
whole stream if and only if it is clean.
-/
theorem reading_independent_iff_clean {parser : Parser Parsing Response}
    (incremental : parser.Incremental) (boundary left : List Byte) {first second : List (List Byte)}
    (first_some : first ≠ []) (first_nonempty : ∀ read ∈ first, read ≠ [])
    (second_some : second ≠ []) (second_nonempty : ∀ read ∈ second, read ≠ [])
    (same_stream : first.flatten = second.flatten) :
    (Clean boundary left first → Clean boundary left second →
        SameReading parser boundary left first second) ∧
      (SameReading parser boundary left first [first.flatten] ↔
        Clean boundary left first) := by
  have firstWhole :=
    sameReading_whole_iff incremental boundary left first_some first_nonempty
  have secondWhole :=
    sameReading_whole_iff incremental boundary left second_some second_nonempty
  refine ⟨fun firstClean secondClean => ?_, firstWhole⟩
  have one := sameReading_iff.mp (firstWhole.mpr firstClean)
  have two := sameReading_iff.mp (secondWhole.mpr secondClean)
  rw [← same_stream] at two
  exact sameReading_iff.mpr (one.trans two.symm)

end

/-! ## Two cuttings of one stream -/

/-- The bytes that are still expected are compared one by one. -/
def matchBytes : List Byte → List Byte → Answer (List Byte)
  | [], _ => ⟨[], 0, none⟩
  | wanted, [] => ⟨wanted, 0, none⟩
  | byte :: wanted, head :: rest =>
      if byte = head then (matchBytes wanted rest).after 1
      else ⟨byte :: wanted, 0, some 1⟩

/-- A parser that knows one message behind the status line, and what it stands for. -/
def literalParser {Response : Type u} (message : List Byte) (response : Response) :
    Parser (List Byte) Response where
  initial := statusLine.dropLast ++ message
  put := matchBytes
  response wanted := if wanted.isEmpty then some response else none

section

variable {Response : Type u} {message : List Byte} {response : Response}

theorem taken_matchBytes_le (wanted bytes : List Byte) :
    (matchBytes wanted bytes).taken ≤ bytes.length := by
  induction wanted, bytes using matchBytes.induct with
  | case1 bytes => exact Nat.zero_le _
  | case2 wanted _ =>
      rw [matchBytes]
      · exact Nat.zero_le _
      · assumption
  | case3 wanted head rest inductionHypothesis =>
      rw [matchBytes, if_pos rfl, Answer.taken_after, List.length_cons]
      omega
  | case4 byte wanted head rest differs =>
      rw [matchBytes, if_neg differs]
      exact Nat.zero_le _

/-- A message may come in any number of pieces. -/
theorem literalParser_incremental :
    (literalParser message response).Incremental where
  taken_le := taken_matchBytes_le
  resumes := by
    intro wanted bytes later waiting
    change (literalParser message response).progress (matchBytes wanted bytes) = .more
      at waiting
    change matchBytes wanted (bytes ++ later) =
      (matchBytes (matchBytes wanted bytes).parsing
        (bytes.drop (matchBytes wanted bytes).taken ++ later)).after
          (matchBytes wanted bytes).taken
    induction wanted, bytes using matchBytes.induct with
    | case1 bytes => cases waiting
    | case2 wanted some_wanted =>
        rw [matchBytes, Answer.after]
        · simp
        · exact some_wanted
    | case3 wanted head rest inductionHypothesis =>
        rw [matchBytes, if_pos rfl, Parser.progress_after] at waiting
        have behind :
            (head :: rest).drop (1 + (matchBytes wanted rest).taken) =
              rest.drop (matchBytes wanted rest).taken := by
          rw [Nat.add_comm, List.drop_succ_cons]
        rw [List.cons_append, matchBytes, if_pos rfl, inductionHypothesis waiting,
          matchBytes, if_pos rfl, Answer.after_after]
        simp only [Answer.taken_after, Answer.parsing_after, behind]
    | case4 byte wanted head rest differs =>
        rw [matchBytes, if_neg differs] at waiting
        cases waiting
  settles := by
    intro wanted bytes later finished
    change (literalParser message response).progress (matchBytes wanted bytes) ≠ .more
      at finished
    change matchBytes wanted (bytes ++ later) = matchBytes wanted bytes
    induction wanted, bytes using matchBytes.induct with
    | case1 bytes => rfl
    | case2 wanted some_wanted =>
        exfalso
        apply finished
        rw [matchBytes]
        · cases wanted with
          | nil => exact absurd rfl some_wanted
          | cons byte others => rfl
        · exact some_wanted
    | case3 wanted head rest inductionHypothesis =>
        rw [matchBytes, if_pos rfl, Parser.progress_after] at finished
        rw [List.cons_append, matchBytes, if_pos rfl, inductionHypothesis finished,
          matchBytes, if_pos rfl]
    | case4 byte wanted head rest differs =>
        rw [List.cons_append, matchBytes, if_neg differs, matchBytes, if_neg differs]

end

/-- The bytes of a text. -/
def text (content : String) : List Byte :=
  content.toList.map fun character => UInt8.ofNat character.toNat

/-- The header of a part. -/
def sampleHeader : List Byte :=
  text "Content-Length: 2\r\n\r\n"

/-- The boundary line and the header are cut at their ends only. -/
theorem reading_independent_iff_clean_ends :
    SameReading (literalParser (sampleHeader ++ text "hi") (text "hi")) (text "b") []
      [text "\r\n--b\r\n" ++ sampleHeader, text "hi"]
      [text "\r\n", text "--b\r\n" ++ sampleHeader, text "hi"] :=
  (reading_independent_iff_clean literalParser_incremental (text "b") []
    (by decide) (by decide) (by decide) (by decide) (by decide)).1
    (by decide) (by decide)

/-- A cut between the two dashes hides the boundary line. -/
theorem boundary_lost_in_cut :
    ¬ ∀ (parser : Parser (List Byte) (List Byte)) (boundary left : List Byte)
        (first second : List (List Byte)), parser.Incremental → boundary ≠ [] →
      (∀ read ∈ first, read ≠ [] ∧ read.length ≤ 1024) →
      (∀ read ∈ second, read ≠ [] ∧ read.length ≤ 1024) →
      first.flatten = second.flatten → SameReading parser boundary left first second := by
  intro claim
  have same := claim (literalParser (sampleHeader ++ text "hi") (text "hi")) (text "b") []
    [text "-", text "-b\n" ++ sampleHeader, text "hi"]
    [text "--b\n" ++ sampleHeader, text "hi"] literalParser_incremental
    (by decide) (by decide) (by decide) (by decide)
  have lineEnd := same.lineEnd
  revert lineEnd
  decide

end AsyncRuntime.Io.Multipart
