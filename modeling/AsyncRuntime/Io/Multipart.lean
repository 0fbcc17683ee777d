import Mathlib.Data.List.Basic
import Mathlib.Data.List.Infix

/-!
# Reading one part of a multipart response

`handle_read` runs for every piece of the stream that the socket delivers.  Until
it has found the boundary line it reads the whole input buffer line by line, and
`getline` also takes the unfinished line at the end of the buffer.  After the
boundary line it passes everything to the parser of the response.

The parser is a parameter: a machine whose `put` takes a part of the bytes offered
to it, and may report an error.  What it has not taken stays in the input buffer
and is offered again with the next piece.  The bytes received so far are kept as a
history, so that places in the stream can be told.
-/

namespace AsyncRuntime.Io.Multipart

universe u v

/-- The bytes of the stream. -/
abbrev Byte := UInt8

/-- The end of a line. -/
def newline : Byte := 10

/-- The character that `peek` is compared with. -/
def carriageReturn : Byte := 13

/-- What a boundary line contains: `"--" + mime_boundary`. -/
def marker (boundary : List Byte) : List Byte :=
  45 :: 45 :: boundary

/-! ## The stream over the input buffer -/

/-- `std::istream` over the buffer; `eof` is its end-of-file flag. -/
structure Stream where
  bytes : List Byte
  eof : Bool

/-- `std::getline`, which fails when it has nothing to read. -/
def Stream.getline (stream : Stream) : Option (List Byte × Stream) :=
  if stream.eof || stream.bytes.isEmpty then none
  else
    match stream.bytes.dropWhile (· != newline) with
    | [] => some (stream.bytes, ⟨[], true⟩)
    | _ :: rest => some (stream.bytes.takeWhile (· != newline), ⟨rest, false⟩)

/-- `std::istream::peek`; `none` is the end of the file. -/
def Stream.peek (stream : Stream) : Option Byte :=
  if stream.eof then none else stream.bytes.head?

/-- The loop that looks for the boundary line, and the stream behind it. -/
def findBoundary (boundary : List Byte) : ℕ → Stream → Option Stream
  | 0, _ => none
  | rounds + 1, stream =>
      match stream.getline with
      | none => none
      | some (line, rest) =>
          if marker boundary <:+: line then some rest
          else findBoundary boundary rounds rest

/-- The line after the boundary line is skipped if it begins with a return. -/
def skipLine (stream : Stream) : Stream :=
  if stream.peek = some carriageReturn then
    match stream.getline with
    | none => stream
    | some (_, rest) => rest
  else stream

/-! ## `handle_read` -/

/-- What `put` reports of the bytes offered to it, and the parser after it. -/
structure Answer (Parsing : Type v) where
  parsing : Parsing
  taken : ℕ
  error : Option ℕ

/-- The same answer, when bytes were taken before it. -/
def Answer.after {Parsing : Type v} (earlier : ℕ) (answer : Answer Parsing) :
    Answer Parsing :=
  { answer with taken := earlier + answer.taken }

/-- What `handle_read` does next: it reads on, or it sets the promise. -/
inductive Progress (Response : Type u) where
  | more
  | done (response : Response)
  | failed (code : ℕ)

/-- The parser of a response; `response` is `get`, and present when `is_done`. -/
structure Parser (Parsing : Type v) (Response : Type u) where
  initial : Parsing
  put : Parsing → List Byte → Answer Parsing
  response : Parsing → Option Response

/-- The status line that parts do not have, with the zero that ends a literal. -/
def statusLine : List Byte :=
  ("HTTP/1.1 200 OK\r\n".toList.map fun character => UInt8.ofNat character.toNat) ++ [0]

section

variable {Parsing : Type v} {Response : Type u}

/-- The tests after `put`: first `parser_ec`, then `is_done`. -/
def Parser.progress (parser : Parser Parsing Response) (answer : Answer Parsing) :
    Progress Response :=
  match answer.error with
  | some code => .failed code
  | none =>
      match parser.response answer.parsing with
      | some response => .done response
      | none => .more

/-- The parser when the boundary line has been found; an error is overwritten. -/
def Parser.begun (parser : Parser Parsing Response) : Parsing :=
  (parser.put parser.initial statusLine).parsing

/--
A parser that does not see how its bytes are split.  If it wants more it goes on
from where it stopped, and otherwise it takes no notice of later bytes.  This sets
aside an error such as `need_more` for a header that is not there completely.
-/
structure Parser.Incremental (parser : Parser Parsing Response) : Prop where
  taken_le :
    ∀ parsing bytes, (parser.put parsing bytes).taken ≤ bytes.length
  resumes :
    ∀ parsing bytes later, parser.progress (parser.put parsing bytes) = .more →
      parser.put parsing (bytes ++ later) =
        (parser.put (parser.put parsing bytes).parsing
          (bytes.drop (parser.put parsing bytes).taken ++ later)).after
            (parser.put parsing bytes).taken
  settles :
    ∀ parsing bytes later, parser.progress (parser.put parsing bytes) ≠ .more →
      parser.put parsing (bytes ++ later) = parser.put parsing bytes

/--
`http_multipart_part_request_task`, with the bytes received so far.  `handed` are
the bytes after the boundary line that the parser has taken.
-/
structure Task (Parsing : Type v) (Response : Type u) where
  received : List Byte
  buffer : List Byte
  parsing : Parsing
  lineEnd : Option ℕ
  partStart : Option ℕ
  handed : List Byte
  outcome : Progress Response

/-- `async_read_part`; a former part may have left bytes in the buffer. -/
def Task.start (parser : Parser Parsing Response) (left : List Byte) :
    Task Parsing Response where
  received := left
  buffer := left
  parsing := parser.initial
  lineEnd := none
  partStart := none
  handed := []
  outcome := .more

/-- The whole buffer is offered, and the bytes that `put` takes are consumed. -/
def Task.put (parser : Parser Parsing Response) (task : Task Parsing Response) :
    Task Parsing Response :=
  let answer := parser.put task.parsing task.buffer
  { task with
    buffer := task.buffer.drop answer.taken
    parsing := answer.parsing
    handed := task.handed ++ task.buffer.take answer.taken
    outcome := parser.progress answer }

/-- The boundary line has been found, and the rest of the stream is behind it. -/
def Task.found (parser : Parser Parsing Response) (task : Task Parsing Response)
    (rest : Stream) : Task Parsing Response :=
  { task with
    buffer := (skipLine rest).bytes
    parsing := (parser.put task.parsing statusLine).parsing
    lineEnd := some (task.received.length - rest.bytes.length)
    partStart := some (task.received.length - (skipLine rest).bytes.length) }

/-- `handle_read`; no further read is started when the promise has been set. -/
def Task.handleRead (parser : Parser Parsing Response) (boundary : List Byte)
    (task : Task Parsing Response) (read : List Byte) : Task Parsing Response :=
  match task.outcome with
  | .done _ => task
  | .failed _ => task
  | .more =>
      let committed :=
        { task with
          received := task.received ++ read
          buffer := task.buffer ++ read }
      match task.partStart with
      | some _ => committed.put parser
      | none =>
          match findBoundary boundary (committed.buffer.length + 1)
              ⟨committed.buffer, false⟩ with
          | none => { committed with buffer := [] }
          | some rest => (committed.found parser rest).put parser

/-- The reads of one part. -/
def read (parser : Parser Parsing Response) (boundary left : List Byte)
    (reads : List (List Byte)) : Task Parsing Response :=
  reads.foldl (Task.handleRead parser boundary) (.start parser left)

/--
Two ways of cutting a stream: the boundary line is found at the same place, the
parser takes the same bytes, from the same place on, and the outcome is the same.
-/
structure SameReading (parser : Parser Parsing Response) (boundary left : List Byte)
    (first second : List (List Byte)) : Prop where
  lineEnd :
    (read parser boundary left first).lineEnd =
      (read parser boundary left second).lineEnd
  partStart :
    (read parser boundary left first).partStart =
      (read parser boundary left second).partStart
  handed :
    (read parser boundary left first).handed =
      (read parser boundary left second).handed
  outcome :
    (read parser boundary left first).outcome =
      (read parser boundary left second).outcome

end

/-! ## Where the stream is cut -/

/-- The stream with `none` at every place where it is cut. -/
def marked : List (List Byte) → List (Option Byte)
  | [] => []
  | [last] => last.map some
  | read :: rest => read.map some ++ none :: marked rest

/-- The pieces that `handle_read` sees; the first begins with what was left. -/
def pieces (left : List Byte) : List (List Byte) → List (List Byte)
  | [] => []
  | first :: rest => (left ++ first) :: rest

/-- The bytes of a marked stream. -/
def bytes (stream : List (Option Byte)) : List Byte :=
  stream.filterMap id

/-- The parts of a marked line between its cuts. -/
def fragments : List (Option Byte) → List (List Byte)
  | [] => [[]]
  | none :: rest => [] :: fragments rest
  | some byte :: rest =>
      match fragments rest with
      | [] => [[byte]]
      | first :: others => (byte :: first) :: others

/-- The first line that contains the pattern, and what comes after the line. -/
def boundaryLine (pattern : List Byte) :
    List (Option Byte) → List (Option Byte) →
      Option (List (Option Byte) × List (Option Byte))
  | line, [] => if pattern <:+: bytes line then some (line, []) else none
  | line, none :: rest => boundaryLine pattern (line ++ [none]) rest
  | line, some byte :: rest =>
      if byte = newline then
        if pattern <:+: bytes line then some (line, rest)
        else boundaryLine pattern [] rest
      else boundaryLine pattern (line ++ [some byte]) rest

/-- Of the fragments of a line, the last one and no other contains the pattern. -/
def LastOnly (pattern : List Byte) (line : List (Option Byte)) : Prop :=
  (∀ fragment ∈ (fragments line).dropLast, ¬ pattern <:+: fragment) ∧
    ∃ last ∈ (fragments line).getLast?, pattern <:+: last

/-- If a return follows, there is no cut before the end of that line. -/
def NextLineWhole (after : List (Option Byte)) : Prop :=
  (bytes after).head? = some carriageReturn →
    none ∉ after.takeWhile (· ≠ some newline)

/-- The cuts spare the boundary line, and a line after it that begins with a return. -/
def Clean (boundary left : List Byte) (reads : List (List Byte)) : Prop :=
  ∀ line after,
    boundaryLine (marker boundary) [] (marked (pieces left reads)) =
        some (line, after) →
      LastOnly (marker boundary) line ∧ NextLineWhole after

instance (pattern : List Byte) (line : List (Option Byte)) :
    Decidable (LastOnly pattern line) :=
  inferInstanceAs (Decidable (_ ∧ ∃ last ∈ (fragments line).getLast?, _))

instance (after : List (Option Byte)) : Decidable (NextLineWhole after) :=
  inferInstanceAs (Decidable (_ → _))

instance (boundary left : List Byte) (reads : List (List Byte)) :
    Decidable (Clean boundary left reads) :=
  match found : boundaryLine (marker boundary) [] (marked (pieces left reads)) with
  | none => isTrue fun line after impossible => by
      rw [found] at impossible
      cases impossible
  | some (line, after) =>
      decidable_of_iff (LastOnly (marker boundary) line ∧ NextLineWhole after) <| by
        constructor
        · intro spared other rest again
          rw [found] at again
          cases again
          exact spared
        · exact fun clean => clean line after found

end AsyncRuntime.Io.Multipart
