import Mathlib.Data.List.TakeWhile
import AsyncRuntime.Io.Multipart

/-!
# The reads of a part as one scan

The calls of `handle_read` are followed here on the marked stream: a line ends at a
newline, at a cut and at the end of the stream.  What comes behind the boundary line
is offered to the parser piece by piece, with what the parser has left of the piece
before.  For a parser that does not see the pieces, what is seen of the part in the
end is a function of the scan.
-/

namespace AsyncRuntime.Io.Multipart

universe u v

/-! ## Scanning a marked stream -/

/--
The scan of `handle_read`: a line ends at a newline, at a cut and at the end of
the stream.  It yields whether the line was finished, and what comes after it.
-/
def scan (pattern : List Byte) :
    List Byte → List (Option Byte) → Option (Bool × List (Option Byte))
  | fragment, [] => if pattern <:+: fragment then some (false, []) else none
  | fragment, none :: rest =>
      if pattern <:+: fragment then some (false, none :: rest)
      else scan pattern [] rest
  | fragment, some byte :: rest =>
      if byte = newline then
        if pattern <:+: fragment then some (true, rest) else scan pattern [] rest
      else scan pattern (fragment ++ [byte]) rest

/-- The rest of the current line is dropped, up to the next cut. -/
def dropLine : List (Option Byte) → List (Option Byte)
  | [] => []
  | none :: rest => none :: rest
  | some byte :: rest => if byte = newline then rest else dropLine rest

/-- The bytes for the parser: a line that begins with a return is skipped. -/
def partBytes (finished : Bool) (rest : List (Option Byte)) : List Byte :=
  if finished && rest.head? == some (some carriageReturn) then
    bytes (dropLine rest)
  else bytes rest

@[simp]
theorem bytes_nil : bytes [] = [] := rfl

@[simp]
theorem bytes_cut (rest : List (Option Byte)) : bytes (none :: rest) = bytes rest := rfl

@[simp]
theorem bytes_byte (byte : Byte) (rest : List (Option Byte)) :
    bytes (some byte :: rest) = byte :: bytes rest := rfl

@[simp]
theorem bytes_append (front back : List (Option Byte)) :
    bytes (front ++ back) = bytes front ++ bytes back :=
  List.filterMap_append

@[simp]
theorem bytes_map (whole : List Byte) : bytes (whole.map some) = whole := by
  rw [bytes, List.filterMap_map]
  exact List.filterMap_some

theorem bytes_marked (reads : List (List Byte)) :
    bytes (marked reads) = reads.flatten := by
  induction reads with
  | nil => rfl
  | cons first rest inductionHypothesis =>
      cases rest with
      | nil => simp [marked]
      | cons second others =>
          rw [marked, bytes_append, bytes_cut, inductionHypothesis, bytes_map]
          · rfl
          · exact List.cons_ne_nil second others

theorem not_infix_nil {pattern : List Byte} (nonempty : pattern ≠ []) :
    ¬ pattern <:+: [] := by
  rw [List.infix_nil]
  exact nonempty

section

variable {pattern : List Byte}

/-- The scan of a piece goes on after the cut only if it finds nothing. -/
theorem scan_piece (fragment piece : List Byte) (more : List (Option Byte)) :
    scan pattern fragment (piece.map some ++ none :: more) =
      match scan pattern fragment (piece.map some) with
      | some (finished, rest) => some (finished, rest ++ none :: more)
      | none => scan pattern [] more := by
  induction piece generalizing fragment with
  | nil =>
      simp only [List.map_nil, List.nil_append, scan]
      split <;> rfl
  | cons byte rest inductionHypothesis =>
      simp only [List.map_cons, List.cons_append, scan]
      split
      · split
        · rfl
        · exact inductionHypothesis []
      · exact inductionHypothesis (fragment ++ [byte])

/-- There are no marks behind a line that is found in a piece. -/
theorem scan_map_rest {fragment piece : List Byte} {finished : Bool}
    {rest : List (Option Byte)}
    (found : scan pattern fragment (piece.map some) = some (finished, rest)) :
    rest = (bytes rest).map some := by
  induction piece generalizing fragment with
  | nil =>
      rw [List.map_nil, scan] at found
      split at found
      · cases found
        rfl
      · cases found
  | cons byte others inductionHypothesis =>
      rw [List.map_cons, scan] at found
      split at found
      · split at found
        · cases found
          rw [bytes_map]
        · exact inductionHypothesis found
      · exact inductionHypothesis found

/-- A line without an end. -/
theorem scan_unfinished {line : List Byte} (inside : newline ∉ line)
    (fragment : List Byte) :
    scan pattern fragment (line.map some) =
      if pattern <:+: fragment ++ line then some (false, []) else none := by
  induction line generalizing fragment with
  | nil => rw [List.append_nil]; rfl
  | cons byte rest inductionHypothesis =>
      rw [List.mem_cons, not_or] at inside
      rw [List.map_cons, scan, if_neg (Ne.symm inside.1),
        inductionHypothesis inside.2, List.append_assoc]
      rfl

/-- A line with its end. -/
theorem scan_line {line : List Byte} (inside : newline ∉ line)
    (fragment : List Byte) (rest : List (Option Byte)) :
    scan pattern fragment (line.map some ++ some newline :: rest) =
      if pattern <:+: fragment ++ line then some (true, rest)
      else scan pattern [] rest := by
  induction line generalizing fragment with
  | nil =>
      rw [List.append_nil, List.map_nil, List.nil_append, scan, if_pos rfl]
  | cons byte others inductionHypothesis =>
      rw [List.mem_cons, not_or] at inside
      rw [List.map_cons, List.cons_append, scan, if_neg (Ne.symm inside.1),
        inductionHypothesis inside.2, List.append_assoc]
      rfl

end

/-! ## `handle_read` as a scan -/

/-- The loop over the lines of the buffer. -/
theorem findBoundary_eq_scan (boundary : List Byte) {rounds : ℕ}
    {piece : List Byte} (enough : piece.length < rounds) :
    findBoundary boundary rounds ⟨piece, false⟩ =
      (scan (marker boundary) [] (piece.map some)).map fun found =>
        ⟨bytes found.2, !found.1⟩ := by
  induction rounds generalizing piece with
  | zero => omega
  | succ rounds inductionHypothesis =>
      have atEnd : findBoundary boundary rounds ⟨[], true⟩ = none := by
        cases rounds <;> rfl
      rw [findBoundary, Stream.getline]
      by_cases empty : piece = []
      · subst empty
        have absent := not_infix_nil (List.cons_ne_nil 45 (45 :: boundary))
        simp [scan, marker, absent]
      · have split_eq := List.takeWhile_append_dropWhile
          (p := fun byte : Byte => byte != newline) (l := piece)
        have inside : newline ∉ piece.takeWhile (· != newline) := by
          intro member
          have other := List.mem_takeWhile_imp member
          simp at other
        simp only [Bool.false_or, List.isEmpty_iff, empty, if_false]
        cases behind : piece.dropWhile (· != newline) with
        | nil =>
            rw [behind, List.append_nil] at split_eq
            rw [split_eq] at inside
            rw [scan_unfinished inside]
            simp only [List.nil_append]
            split
            · rfl
            · exact atEnd
        | cons ending rest =>
            have ending_eq : ending = newline := by
              have nonempty : piece.dropWhile (· != newline) ≠ [] := by
                rw [behind]
                exact List.cons_ne_nil ending rest
              have stops := List.head_dropWhile_not _ nonempty
              simpa [behind] using stops
            rw [behind, ending_eq] at split_eq
            have shorter : rest.length < rounds := by
              have length_eq := congrArg List.length split_eq
              rw [List.length_append, List.length_cons] at length_eq
              omega
            have scanned :
                scan (marker boundary) [] (piece.map some) =
                  if marker boundary <:+: piece.takeWhile (· != newline) then
                    some (true, rest.map some)
                  else scan (marker boundary) [] (rest.map some) := by
              rw [← split_eq, List.map_append, List.map_cons, scan_line inside,
                List.nil_append, split_eq]
            rw [scanned]
            simp only
            split
            · simp
            · exact inductionHypothesis shorter

theorem dropLine_map (piece : List Byte) :
    dropLine (piece.map some) =
      ((piece.dropWhile (· != newline)).tail).map some := by
  induction piece with
  | nil => rfl
  | cons byte rest inductionHypothesis =>
      rw [List.map_cons, dropLine, List.dropWhile_cons]
      by_cases ending : byte = newline
      · simp [ending]
      · simp [ending, inductionHypothesis]

theorem head_map_eq (piece : List Byte) :
    ((piece.map some).head? == some (some carriageReturn)) =
      decide (piece.head? = some carriageReturn) := by
  cases piece with
  | nil => rfl
  | cons byte rest => simp [beq_eq_decide]

/-- The line after the boundary line. -/
theorem skipLine_eq_partBytes (finished : Bool) (piece : List Byte) :
    (skipLine ⟨piece, !finished⟩).bytes = partBytes finished (piece.map some) := by
  cases finished with
  | false =>
      rw [skipLine, Stream.peek, partBytes]
      simp
  | true =>
      rw [skipLine, Stream.peek, partBytes, head_map_eq]
      simp only [Bool.not_true, Bool.false_eq_true, if_false, Bool.true_and,
        decide_eq_true_eq]
      by_cases returns : piece.head? = some carriageReturn
      · rw [if_pos returns, if_pos returns, dropLine_map, bytes_map,
          Stream.getline]
        have nonempty : piece ≠ [] := by
          rintro rfl
          cases returns
        simp only [Bool.false_or, List.isEmpty_iff, nonempty, if_false]
        cases piece.dropWhile (· != newline) with
        | nil => rfl
        | cons ending rest => rfl
      · rw [if_neg returns, if_neg returns, bytes_map]

theorem bytes_dropLine_piece (piece : List Byte) (more : List (Option Byte)) :
    bytes (dropLine (piece.map some ++ none :: more)) =
      bytes (dropLine (piece.map some)) ++ bytes more := by
  induction piece with
  | nil => rfl
  | cons byte rest inductionHypothesis =>
      simp only [List.map_cons, List.cons_append, dropLine]
      split
      · simp
      · exact inductionHypothesis

/-- What comes after the cut is for the parser. -/
theorem partBytes_piece (finished : Bool) (piece : List Byte)
    (more : List (Option Byte)) :
    partBytes finished (piece.map some ++ none :: more) =
      partBytes finished (piece.map some) ++ bytes more := by
  rw [partBytes, partBytes]
  have head_eq :
      ((piece.map some ++ none :: more).head? == some (some carriageReturn)) =
        ((piece.map some).head? == some (some carriageReturn)) := by
    cases piece <;> rfl
  rw [head_eq]
  split
  · exact bytes_dropLine_piece piece more
  · rw [bytes_append, bytes_cut]

/-! ## The bytes for the parser -/

section

variable {Parsing : Type v} {Response : Type u} {parser : Parser Parsing Response}
  {boundary : List Byte} {task : Task Parsing Response} {bytes : List Byte}

@[simp]
theorem Answer.parsing_after (earlier : ℕ) (answer : Answer Parsing) :
    (answer.after earlier).parsing = answer.parsing := rfl

@[simp]
theorem Answer.taken_after (earlier : ℕ) (answer : Answer Parsing) :
    (answer.after earlier).taken = earlier + answer.taken := rfl

theorem Answer.after_after (first second : ℕ) (answer : Answer Parsing) :
    (answer.after second).after first = answer.after (first + second) := by
  rw [Answer.after, Answer.after, Answer.after, Nat.add_assoc]

@[simp]
theorem Parser.progress_after (earlier : ℕ) (answer : Answer Parsing) :
    parser.progress (answer.after earlier) = parser.progress answer := rfl

/-- All the bytes of the part at once. -/
def Parser.parse (parser : Parser Parsing Response) (bytes : List Byte) :
    Answer Parsing :=
  parser.put parser.begun bytes

/-- The parser has been offered these bytes so far, one after the other. -/
structure Offered (parser : Parser Parsing Response) (bytes : List Byte)
    (task : Task Parsing Response) : Prop where
  parsing : task.parsing = (parser.parse bytes).parsing
  handed : task.handed = bytes.take (parser.parse bytes).taken
  outcome : task.outcome = parser.progress (parser.parse bytes)
  buffer : task.outcome = .more → task.buffer = bytes.drop (parser.parse bytes).taken

/-- The bytes behind the boundary line are offered first. -/
theorem offered_put (begun : task.parsing = parser.begun) (unhanded : task.handed = []) :
    Offered parser task.buffer (task.put parser) := by
  refine ⟨?_, ?_, ?_, fun _ => ?_⟩ <;>
    simp only [Task.put, Parser.parse, begun, unhanded, List.nil_append]

/-- What the parser has left is offered again, with the next piece behind it. -/
theorem Offered.put (offered : Offered parser bytes task)
    (incremental : parser.Incremental) (unfinished : task.outcome = .more)
    (read received : List Byte) :
    Offered parser (bytes ++ read)
      (Task.put parser
        { task with received := received, buffer := task.buffer ++ read }) := by
  have within : (parser.parse bytes).taken ≤ bytes.length :=
    incremental.taken_le parser.begun bytes
  have waiting : parser.progress (parser.parse bytes) = .more := by
    rw [← offered.outcome]
    exact unfinished
  have resumed :
      parser.parse (bytes ++ read) =
        (parser.put (parser.parse bytes).parsing
          (bytes.drop (parser.parse bytes).taken ++ read)).after
            (parser.parse bytes).taken :=
    incremental.resumes parser.begun bytes read waiting
  have drop_eq :
      (bytes ++ read).drop (parser.parse bytes).taken =
        bytes.drop (parser.parse bytes).taken ++ read :=
    List.drop_append_of_le_length within
  have take_eq :
      (bytes ++ read).take (parser.parse bytes).taken =
        bytes.take (parser.parse bytes).taken :=
    List.take_append_of_le_length within
  refine ⟨?_, ?_, ?_, fun _ => ?_⟩
  · simp only [Task.put, resumed, Answer.parsing_after, offered.parsing,
      offered.buffer unfinished]
  · simp only [Task.put, resumed, Answer.taken_after, offered.parsing, offered.handed,
      offered.buffer unfinished, List.take_add, drop_eq, take_eq]
  · simp only [Task.put, resumed, Parser.progress_after, offered.parsing,
      offered.buffer unfinished]
  · simp only [Task.put, resumed, Answer.taken_after, offered.parsing,
      offered.buffer unfinished, ← List.drop_drop, drop_eq]

/-- A parser that has come to an end takes no notice of later bytes. -/
theorem Offered.settled (offered : Offered parser bytes task)
    (incremental : parser.Incremental) (finished : task.outcome ≠ .more)
    (read : List Byte) : Offered parser (bytes ++ read) task := by
  have within : (parser.parse bytes).taken ≤ bytes.length :=
    incremental.taken_le parser.begun bytes
  have settled : parser.parse (bytes ++ read) = parser.parse bytes := by
    apply incremental.settles parser.begun bytes read
    intro waiting
    exact finished (offered.outcome.trans waiting)
  refine ⟨?_, ?_, ?_, fun unfinished => absurd unfinished finished⟩
  · rw [settled, offered.parsing]
  · rw [settled, List.take_append_of_le_length within, offered.handed]
  · rw [settled, offered.outcome]

/-- One more read of a part that has been found. -/
theorem Offered.handleRead (offered : Offered parser bytes task)
    (incremental : parser.Incremental) {start : ℕ} (found : task.partStart = some start)
    (read : List Byte) :
    Offered parser (bytes ++ read) (task.handleRead parser boundary read) := by
  by_cases unfinished : task.outcome = .more
  · have put_eq :
        task.handleRead parser boundary read =
          Task.put parser
            { task with
              received := task.received ++ read
              buffer := task.buffer ++ read } := by
      simp only [Task.handleRead, unfinished, found]
    rw [put_eq]
    exact offered.put incremental unfinished read _
  · have stays : task.handleRead parser boundary read = task := by
      rw [Task.handleRead]
      split
      · rfl
      · rfl
      · rename_i outcome_eq
        exact absurd outcome_eq unfinished
    rw [stays]
    exact offered.settled incremental unfinished read

/-- The places of the boundary line and of the part do not change any more. -/
theorem handleRead_places {start : ℕ} (found : task.partStart = some start)
    (read : List Byte) :
    (task.handleRead parser boundary read).lineEnd = task.lineEnd ∧
      (task.handleRead parser boundary read).partStart = task.partStart := by
  rw [Task.handleRead]
  split
  · exact ⟨rfl, rfl⟩
  · exact ⟨rfl, rfl⟩
  · simp only [found]
    exact ⟨rfl, rfl⟩

/-- What is seen of a part in the end. -/
def Task.observe (task : Task Parsing Response) :
    Option ℕ × Option ℕ × List Byte × Progress Response :=
  (task.lineEnd, task.partStart, task.handed, task.outcome)

/-- Once the boundary line is found, all bytes are offered to the parser. -/
theorem observe_foldl_found (incremental : parser.Incremental) {start : ℕ}
    (found : task.partStart = some start) (offered : Offered parser bytes task)
    (reads : List (List Byte)) :
    (reads.foldl (Task.handleRead parser boundary) task).observe =
      (task.lineEnd, task.partStart,
        (bytes ++ reads.flatten).take (parser.parse (bytes ++ reads.flatten)).taken,
        parser.progress (parser.parse (bytes ++ reads.flatten))) := by
  induction reads generalizing task bytes with
  | nil =>
      rw [List.flatten_nil, List.append_nil, ← offered.handed, ← offered.outcome]
      rfl
  | cons read rest inductionHypothesis =>
      rcases @handleRead_places _ _ parser boundary task _ found read with
        ⟨lineEnd_eq, partStart_eq⟩
      rw [List.foldl_cons,
        inductionHypothesis (partStart_eq.trans found)
          (offered.handleRead incremental found read),
        lineEnd_eq, partStart_eq, List.append_assoc, List.flatten_cons]

end

/-! ## The reads of a part -/

section

variable {Parsing : Type v} {Response : Type u} {parser : Parser Parsing Response}
  {boundary : List Byte} {task : Task Parsing Response}

/-- What is seen after a scan of a stream of this length. -/
def expected (parser : Parser Parsing Response) (total : ℕ) :
    Option (Bool × List (Option Byte)) →
      Option ℕ × Option ℕ × List Byte × Progress Response
  | none => (none, none, [], .more)
  | some (finished, rest) =>
      let part := partBytes finished rest
      (some (total - (bytes rest).length), some (total - part.length),
        part.take (parser.parse part).taken, parser.progress (parser.parse part))

/-- One read of a part that has not been found yet. -/
theorem handleRead_searching (unfound : task.partStart = none)
    (waiting : task.outcome = .more) (first : List Byte) :
    task.handleRead parser boundary first =
      match scan (marker boundary) [] ((task.buffer ++ first).map some) with
      | none => { task with received := task.received ++ first, buffer := [] }
      | some (finished, rest) =>
          Task.put parser
            (Task.found parser
              { task with
                received := task.received ++ first
                buffer := task.buffer ++ first }
              ⟨bytes rest, !finished⟩) := by
  simp only [Task.handleRead, waiting, unfound]
  rw [findBoundary_eq_scan boundary (Nat.lt_succ_self _)]
  cases scan (marker boundary) [] ((task.buffer ++ first).map some) with
  | none => rfl
  | some found => rfl

/-- The reads of a part scan the marked stream. -/
theorem observe_foldl_searching (incremental : parser.Incremental)
    (unfound : task.partStart = none) (noLine : task.lineEnd = none)
    (fresh : task.parsing = parser.initial) (unhanded : task.handed = [])
    (waiting : task.outcome = .more) (first : List Byte)
    (reads : List (List Byte)) :
    ((first :: reads).foldl (Task.handleRead parser boundary) task).observe =
      expected parser (task.received.length + (first :: reads).flatten.length)
        (scan (marker boundary) [] (marked ((task.buffer ++ first) :: reads))) := by
  have begun : (parser.put task.parsing statusLine).parsing = parser.begun := by
    rw [fresh]
    rfl
  induction reads generalizing task first with
  | nil =>
      rw [List.foldl_cons, List.foldl_nil, handleRead_searching unfound waiting,
        marked]
      cases scanned :
        scan (marker boundary) [] ((task.buffer ++ first).map some) with
      | none => simp [Task.observe, expected, noLine, unfound, unhanded, waiting]
      | some found =>
          rcases found with ⟨finished, rest⟩
          have unmarked := scan_map_rest scanned
          simp [Task.observe, Task.put, Task.found, Parser.parse, expected, unhanded,
            begun, skipLine_eq_partBytes, ← unmarked]
  | cons second others inductionHypothesis =>
      rw [List.foldl_cons, handleRead_searching unfound waiting, marked,
        scan_piece]
      · cases scanned :
          scan (marker boundary) [] ((task.buffer ++ first).map some) with
        | none =>
            have later := @inductionHypothesis
              { task with received := task.received ++ first, buffer := [] }
              unfound noLine fresh unhanded waiting second begun
            simp only [List.nil_append] at later
            simp only [later, List.length_append, List.flatten_cons]
            rw [Nat.add_assoc]
        | some found =>
            rcases found with ⟨finished, rest⟩
            have unmarked := scan_map_rest scanned
            let reached : Task Parsing Response :=
              Task.found parser
                { task with
                  received := task.received ++ first
                  buffer := task.buffer ++ first }
                ⟨bytes rest, !finished⟩
            have offered : Offered parser reached.buffer (reached.put parser) :=
              offered_put begun unhanded
            have later :=
              @observe_foldl_found _ _ parser boundary _ _ incremental _ rfl offered
                (second :: others)
            have part :=
              partBytes_piece finished (bytes rest) (marked (second :: others))
            rw [← unmarked, bytes_marked] at part
            simp only [reached] at later
            simp only [later]
            simp only [expected, part, Task.put, Task.found,
              skipLine_eq_partBytes, ← unmarked, bytes_append, bytes_cut,
              bytes_marked, List.length_append, List.flatten_cons]
            simp only [Prod.mk.injEq, Option.some.injEq, and_true]
            omega
      · exact List.cons_ne_nil second others

end

end AsyncRuntime.Io.Multipart
