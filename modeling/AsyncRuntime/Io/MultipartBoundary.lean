import AsyncRuntime.Io.ResponseHeader

/-!
# Whether the boundary is taken from the header

`async_request_multipart` resolves when the handler of the first read has run; no
other read of the header is made.  The handler looks at what the input buffer still
had and at what has been read.  In the first line with the letters `Content-Type`
before its colon it takes the text behind the first `boundary=`, up to the next
semicolon; without such a text the boundary of the request before stays.
-/

namespace AsyncRuntime.Io.MultipartBoundary

open AsyncRuntime.Foundation.TextSearch
open AsyncRuntime.Io.MultipartHeader
open AsyncRuntime.Io.ResponseHeader

/-- The session of a new request: the boundary and the input buffer are kept. -/
def request (session : Session) : Session :=
  { session with contentType := none }

/-- If the request completes, the boundary is the one of the response. -/
def Correct (session : Session) (response : Response) (received : List Byte) : Prop :=
  (handleReadHeader (request session) none received).escaped = false →
    (handleReadHeader (request session) none received).session.mimeBoundary = response.boundary

/-- The first line with the letters `Content-Type` before its colon. -/
def namedLine (lines : List (List Byte)) : Option (List Byte) :=
  lines.find? fun line => contentTypeName <:+: keyOf line

/--
In the part of the line that is taken for its value, this text stands behind the
first `boundary=`, up to a semicolon or the end.
-/
def Gives (line boundary : List Byte) : Prop :=
  ∃ key before after, keyValue line = some (key, before ++ (boundaryType ++ (boundary ++ after))) ∧
    find boundaryType (before ++ (boundaryType ++ (boundary ++ after))) = some before.length ∧
    semicolon ∉ boundary ∧ (after = [] ∨ after.head? = some semicolon)

/--
What is read gives this boundary, or it gives none and the one of the request before
is the same; or a line cannot be read, and the request does not complete.
-/
def Fits (session : Session) (received boundary : List Byte) : Prop :=
  let lines := pieces newline (session.inputBuffer ++ received)
  (∃ line, namedLine lines = some line ∧ Gives line boundary) ∨
    ((∀ line, namedLine lines = some line → ∀ other, ¬ Gives line other) ∧
      session.mimeBoundary = boundary) ∨
    ∃ line ∈ examined lines, ¬ Readable line

/-! ## The parts of a value -/

section

variable {value line boundary : List Byte} {session : Session}

/-- The text behind the first `boundary=`, up to the next semicolon. -/
def behind (value : List Byte) : Option (List Byte) :=
  (find boundaryType value).map fun place =>
    (value.drop (place + boundaryType.length)).takeWhile (· ≠ semicolon)

/-- A part with `boundary=` has the first one of the value. -/
theorem behind_append {part after : List Byte} {place : ℕ} (clean : semicolon ∉ part)
    (stops : after = [] ∨ after.head? = some semicolon)
    (found : find boundaryType part = some place) :
    behind (part ++ after) = some (part.drop (place + boundaryType.length)) := by
  have rest : semicolon ∉ part.drop (place + boundaryType.length) := fun member =>
    clean (List.mem_of_mem_drop member)
  rw [behind, find_append_of_find found, Option.map_some,
    List.drop_append_of_le_length (add_length_le_of_find found),
    takeWhile_append_of_stops rest stops]

/-- A part without `boundary=` is passed over. -/
theorem behind_skip {part rest : List Byte} (absent : ¬ boundaryType <:+: part) :
    behind (part ++ semicolon :: rest) = behind rest := by
  rw [behind, behind, find_append_cons (by decide) absent, Option.map_map]
  congr 1
  funext place
  simp only [Function.comp_apply]
  rw [show part.length + 1 + place + boundaryType.length =
      part.length + (place + boundaryType.length + 1) by omega,
    List.drop_length_add_append, List.drop_succ_cons]

/-- The loop over the parts finds the first `boundary=` of the value. -/
theorem boundaryLoop_pieces (value : List Byte) :
    boundaryLoop (pieces semicolon value) = some (behind value) := by
  induction length : value.length using Nat.strongRecOn generalizing value with
  | ind size inductionHypothesis =>
      cases done : cut semicolon value with
      | none =>
          have empty : value = [] := by
            by_contra nonempty
            rw [cut, if_neg nonempty] at done
            cases done
          rw [pieces_of_cut_none done, empty]
          rfl
      | some both =>
          obtain ⟨part, rest⟩ := both
          obtain ⟨clean, whole⟩ := text_of_cut done
          have shorter := length_lt_of_cut done
          rw [pieces_of_cut done, boundaryLoop]
          cases found : find boundaryType part with
          | some place =>
              have fits := add_length_le_of_find found
              have taken : substr part (place + boundaryType.length) none =
                  some (part.drop (place + boundaryType.length)) := by
                rw [substr, if_neg (by omega), Option.getD_none,
                  List.take_of_length_le (by rw [List.length_drop]; omega)]
              simp only [taken, Option.map_some]
              rcases whole with rfl | ⟨rfl, -⟩
              · rw [behind_append clean (.inr rfl) found]
              · have alone := @behind_append value [] place clean (.inl rfl) found
                rw [List.append_nil] at alone
                rw [alone]
          | none =>
              simp only [inductionHypothesis rest.length (by omega) rest rfl]
              rcases whole with rfl | ⟨rfl, rfl⟩
              · rw [behind_skip (find_eq_none_iff.mp found)]
              · rw [behind, behind, found]
                rfl

/-- The boundary that a line gives. -/
def boundaryOf (line : List Byte) : Option (List Byte) :=
  (keyValue line).bind fun both => behind both.2

theorem gives_iff : Gives line boundary ↔ boundaryOf line = some boundary := by
  constructor
  · rintro ⟨key, before, after, cut, found, clean, stops⟩
    simp only [boundaryOf, cut, Option.bind_some, behind, found, Option.map_some]
    rw [List.drop_length_add_append, List.drop_left, takeWhile_append_of_stops clean stops]
  · intro given
    obtain ⟨⟨key, value⟩, cut, within⟩ := Option.bind_eq_some_iff.mp given
    obtain ⟨place, found, taken⟩ := Option.map_eq_some_iff.mp within
    obtain ⟨bound, ⟨tail, here⟩, -⟩ := find_eq_some_iff.mp found
    have split : value = value.take place ++ (boundaryType ++ tail) := by
      rw [here, List.take_append_drop]
    have length : (value.take place).length = place := List.length_take_of_le bound
    have rest : value.drop (place + boundaryType.length) = tail := by
      rw [← List.drop_drop, ← here, List.drop_left]
    rw [rest] at taken
    have ends : tail = boundary ++ tail.dropWhile (· ≠ semicolon) := by
      rw [← taken, List.takeWhile_append_dropWhile]
    refine ⟨key, value.take place, tail.dropWhile (· ≠ semicolon), ?_, ?_, ?_, ?_⟩
    · rw [← ends, ← split]
      exact cut
    · rw [← ends, ← split, length]
      exact found
    · rw [← taken]
      exact not_mem_takeWhile
    · cases stops : tail.dropWhile (· ≠ semicolon) with
      | nil => exact .inl rfl
      | cons first rest =>
          have head := List.head?_dropWhile_not (fun byte => decide (byte ≠ semicolon)) tail
          rw [stops] at head
          exact .inr (congrArg some (by simpa using head))

/-! ## The lines -/

/-- The line is one of those that give the boundary. -/
theorem namedLine_cons (line : List Byte) (rest : List (List Byte)) :
    namedLine (line :: rest) =
      if contentTypeName <:+: keyOf line then some line else namedLine rest := by
  rw [namedLine, List.find?_cons]
  split <;> simp_all [namedLine]

/-- What the loop over the lines leaves as the boundary. -/
theorem lineLoop_boundary (session : Session) (returned : (lineLoop session).2 = false) :
    (lineLoop session).1.mimeBoundary =
      ((namedLine (pieces newline session.inputBuffer)).bind boundaryOf).getD
        session.mimeBoundary := by
  induction session using lineLoop.induct with
  | case1 session ended =>
      rw [lineLoop_ended ended, pieces_of_cut_none ended]
      rfl
  | case2 session line rest done unreadable =>
      rw [lineLoop_round done, unreadable] at returned
      cases returned
  | case3 session line rest done key value read named failed =>
      rw [boundaryLoop_pieces] at failed
      cases failed
  | case4 session line rest done key value read named boundary found =>
      have here : contentTypeName <:+: keyOf line := by
        rwa [find_isSome_iff, keyValue_fst read] at named
      rw [boundaryLoop_pieces, Option.some.injEq] at found
      rw [lineLoop_round done, read, pieces_of_cut done, namedLine_cons, if_pos here]
      simp only [named, if_true, boundaryLoop_pieces, found, Option.bind_some, boundaryOf, read]
  | case5 session line rest done key value read unnamed inductionHypothesis =>
      have absent : ¬ contentTypeName <:+: keyOf line := by
        rwa [find_isSome_iff, keyValue_fst read] at unnamed
      rw [lineLoop_round done, read] at returned ⊢
      simp only [unnamed, if_false, Bool.false_eq_true] at returned ⊢
      rw [inductionHypothesis returned, pieces_of_cut done, namedLine_cons, if_neg absent]

/-- The state in which the handler begins with the lines. -/
def filled (session : Session) (received : List Byte) : Session :=
  { request session with inputBuffer := session.inputBuffer ++ received }

/-- Whether the request is correct depends on what the lines give. -/
theorem correct_of_returned {response : Response} {received : List Byte}
    (returned : (lineLoop (filled session received)).2 = false) :
    Correct session response received ↔
      ((namedLine (pieces newline (session.inputBuffer ++ received))).bind boundaryOf).getD
        session.mimeBoundary = response.boundary := by
  rw [Correct]
  refine ⟨fun correct => ?_, fun same _ => ?_⟩
  · rw [← correct returned]
    exact (lineLoop_boundary (filled session received) returned).symm
  · rw [← same]
    exact lineLoop_boundary (filled session received) returned

/-- The request has the boundary exactly when what is read fits. -/
theorem correct_iff_fits (session : Session) (response : Response) (received : List Byte) :
    Correct session response received ↔ Fits session received response.boundary := by
  have readable := lineLoop_returns_iff (filled session received)
  cases returned : (lineLoop (filled session received)).2 with
  | true =>
      have unreadable : ∃ line ∈ examined (pieces newline (session.inputBuffer ++ received)),
          ¬ Readable line := by
        rw [returned] at readable
        by_contra none
        push Not at none
        exact absurd (readable.mpr none) (by decide)
      refine ⟨fun _ => .inr (.inr unreadable), fun _ completes => ?_⟩
      exact absurd (completes.symm.trans returned) (by decide)
  | false =>
      rw [correct_of_returned returned]
      have all := readable.mp returned
      have none : ¬ ∃ line ∈ examined (pieces newline (session.inputBuffer ++ received)),
          ¬ Readable line := by
        rintro ⟨line, member, unreadable⟩
        exact unreadable (all line member)
      cases given : (namedLine (pieces newline (session.inputBuffer ++ received))).bind
          boundaryOf with
      | none =>
          have silent : ∀ line,
              namedLine (pieces newline (session.inputBuffer ++ received)) = some line →
                ∀ other, ¬ Gives line other := by
            intro line found other gives
            rw [found, Option.bind_some, gives_iff.mp gives] at given
            cases given
          refine ⟨fun same => .inr (.inl ⟨silent, same⟩), ?_⟩
          rintro (⟨line, found, gives⟩ | ⟨-, same⟩ | unreadable)
          · exact absurd gives (silent line found _)
          · exact same
          · exact absurd unreadable none
      | some boundary =>
          obtain ⟨line, found, gives⟩ := Option.bind_eq_some_iff.mp given
          constructor
          · rintro rfl
            exact .inl ⟨line, found, gives_iff.mpr gives⟩
          · rintro (⟨other, also, givesOther⟩ | ⟨silent, -⟩ | unreadable)
            · rw [found] at also
              cases also
              rw [gives_iff.mp givesOther] at gives
              cases gives
              rfl
            · exact absurd (gives_iff.mpr gives) (silent line found boundary)
            · exact absurd unreadable none

end

/-! ## Ordinary headers -/

/--
The buffer is empty, the line of the content type has been read up to its end and is
the first with these letters, and the first `boundary=` in it belongs to the
parameter, with this value and no blanks behind it.
-/
inductive Ordinary (session : Session) (response : Response) (received : List Byte)
    (value : Value) : Prop where
  | intro (earlier later : List Field) (field : Field) (mediaType : MediaType)
      (first rest : List Parameter) (parameter : Parameter) (tail : List Byte)
      (empty : session.inputBuffer = [])
      (fields : response.fields = earlier ++ field :: later)
      (read : received = crlf response.status ++
        (earlier.flatMap (fun other => crlf other.render) ++
          (field.render ++ carriageReturn :: tail)))
      (ended : tail = [] ∨ tail.head? = some newline)
      (status : ¬ contentTypeName <:+: keyOf (response.status ++ [carriageReturn]))
      (others : ∀ other ∈ earlier,
        ¬ contentTypeName <:+: other.name ∧ ¬ SameName other.name contentTypeName)
      (name : field.name = contentTypeName)
      (content : field.content = .media mediaType)
      (parameters : mediaType.parameters = first ++ parameter :: rest)
      (unnamed : ∀ other ∈ first, ¬ SameName other.name (text "boundary"))
      (clear : ¬ boundaryType <:+: field.blanks ++ (mediaType.essence ++
        (first.flatMap Parameter.render ++ parameter.lead)))
      (named : parameter.name = text "boundary")
      (given : parameter.value = value)
      (tight : ∀ next ∈ rest.head?, next.before = []) :
      Ordinary session response received value

/--
The buffer is empty, the whole header has been read and nothing behind it, and no
line has these letters before its colon.
-/
structure Unnamed (session : Session) (response : Response) (received : List Byte) : Prop where
  empty : session.inputBuffer = []
  read : received = response.render
  status : ¬ contentTypeName <:+: keyOf (response.status ++ [carriageReturn])
  fields : ∀ field ∈ response.fields, ¬ contentTypeName <:+: field.name

section

variable {field : Field} {mediaType : MediaType} {line rest : List Byte}

/-- The line of a field is split at the colon behind its name. -/
theorem keyOf_name {name after : List Byte} (clean : colon ∉ name) :
    find [colon] (name ++ colon :: after) = some name.length ∧
      keyOf (name ++ colon :: after) = name := by
  have found : find [colon] (name ++ colon :: after) = some name.length := by
    rw [find_singleton (List.mem_append_right _ List.mem_cons_self),
      takeWhile_append_of_stops clean (.inr rfl)]
  refine ⟨found, ?_⟩
  rw [keyOf, found, Option.getD_some, List.take_left]

/-- The value begins two characters behind the name and ends before the last one. -/
theorem keyValue_name {name body : List Byte} (clean : colon ∉ name) (nonempty : body ≠ []) :
    keyValue (name ++ colon :: (body ++ [carriageReturn])) = some (name, body.tail) := by
  obtain ⟨found, key⟩ := @keyOf_name name (body ++ [carriageReturn]) clean
  obtain ⟨byte, body, rfl⟩ := List.exists_cons_of_ne_nil nonempty
  have length : (name ++ colon :: (byte :: body ++ [carriageReturn])).length =
      name.length + (body.length + 3) := by
    simp
  have value : substr (name ++ colon :: (byte :: body ++ [carriageReturn]))
      (valueStart (some name.length))
      (valueLength (name ++ colon :: (byte :: body ++ [carriageReturn])) name) =
        some body := by
    rw [substr, valueStart, valueLength, length, if_neg (by omega), if_pos (by omega),
      Option.getD_some, List.drop_length_add_append,
      show name.length + (body.length + 3) - name.length - 3 = body.length by omega]
    simp
  have named : substr (name ++ colon :: (byte :: body ++ [carriageReturn])) 0
      (some name.length) = some name := by
    rw [← found, substr_key, key]
  simp only [keyValue, found, named, value, Option.bind_eq_bind, Option.bind_some,
    List.tail_cons]
  rfl

theorem newline_not_mem (clean : newline ∉ line) : newline ∉ line ++ [carriageReturn] := by
  rw [List.mem_append, List.mem_singleton]
  exact not_or.mpr ⟨clean, by decide⟩

theorem pieces_crlf (clean : newline ∉ line) :
    pieces newline (crlf line ++ rest) = (line ++ [carriageReturn]) :: pieces newline rest := by
  have split : crlf line ++ rest = (line ++ [carriageReturn]) ++ newline :: rest := by
    simp [crlf]
  rw [split, pieces_append (newline_not_mem clean)]

/-- A line that has been read up to its end is one of the pieces. -/
theorem pieces_ended {tail : List Byte} (clean : newline ∉ line)
    (ended : tail = [] ∨ tail.head? = some newline) :
    ∃ more, pieces newline (line ++ carriageReturn :: tail) =
      (line ++ [carriageReturn]) :: more := by
  have whole := newline_not_mem clean
  rcases ended with rfl | ended
  · exact ⟨_, pieces_of_cut (cut_last (by simp) whole)⟩
  · obtain ⟨more, rfl⟩ := List.head?_eq_some_iff.mp ended
    refine ⟨pieces newline more, ?_⟩
    rw [← pieces_append whole]
    simp

/-- The lines of the fields that have been read. -/
theorem pieces_fields (earlier : List Field) :
    pieces newline (earlier.flatMap (fun field => crlf field.render) ++ rest) =
      earlier.map (fun field => field.render ++ [carriageReturn]) ++ pieces newline rest := by
  induction earlier with
  | nil => rfl
  | cons first earlier inductionHypothesis =>
      rw [List.flatMap_cons, List.append_assoc, pieces_crlf first.no_newline,
        inductionHypothesis, List.map_cons, List.cons_append]

/-- The line of a field has the name of the field before its colon. -/
theorem keyOf_field (field : Field) : keyOf (field.render ++ [carriageReturn]) = field.name := by
  have shape : field.render ++ [carriageReturn] =
      field.name ++ colon :: (field.blanks ++ field.content.render ++ [carriageReturn]) := by
    simp [Field.render]
  rw [shape, (keyOf_name (field.named.not_mem (by decide))).2]

/-- Every line before the one with the name is passed over. -/
theorem namedLine_append {before more : List (List Byte)}
    (unnamed : ∀ other ∈ before, ¬ contentTypeName <:+: keyOf other)
    (here : contentTypeName <:+: keyOf line) :
    namedLine (before ++ line :: more) = some line := by
  induction before with
  | nil => rw [List.nil_append, namedLine_cons, if_pos here]
  | cons first before inductionHypothesis =>
      rw [List.forall_mem_cons] at unnamed
      rw [List.cons_append, namedLine_cons, if_neg unnamed.1, inductionHypothesis unnamed.2]

/-- No line behind the one with the name is examined. -/
theorem examined_append {before more : List (List Byte)} {other : List Byte}
    (here : contentTypeName <:+: keyOf line)
    (member : other ∈ examined (before ++ line :: more)) : other ∈ before ∨ other = line := by
  induction before with
  | nil =>
      rw [List.nil_append, examined, if_pos here, List.mem_singleton] at member
      exact .inr member
  | cons first before inductionHypothesis =>
      rw [List.cons_append, examined, List.mem_cons] at member
      rcases member with rfl | later
      · exact .inl List.mem_cons_self
      · split at later
        · cases later
        · exact (inductionHypothesis later).imp_left (List.mem_cons_of_mem first)

theorem mem_of_mem_examined {lines : List (List Byte)} (member : line ∈ examined lines) :
    line ∈ lines := by
  induction lines with
  | nil => exact member
  | cons first lines inductionHypothesis =>
      rw [examined, List.mem_cons] at member
      rcases member with rfl | later
      · exact List.mem_cons_self
      · split at later
        · cases later
        · exact List.mem_cons_of_mem first (inductionHypothesis later)

/-- A line with its carriage return can be read. -/
theorem readable_of_ended (line : List Byte) : Readable (line ++ [carriageReturn]) := by
  refine ⟨by simp, fun found => ?_⟩
  obtain ⟨-, ⟨rest, here⟩, -⟩ := find_eq_some_iff.mp found
  rw [List.length_append, List.length_singleton, Nat.add_sub_cancel, List.drop_left] at here
  cases rest with
  | nil => exact absurd (List.cons.inj here).1 (by decide)
  | cons byte rest => cases (List.cons.inj here).2

/-- The handler gets through lines that have been read up to their ends. -/
theorem returned_of_ended {session : Session} {received : List Byte}
    (ended : ∀ other ∈ examined (pieces newline (session.inputBuffer ++ received)),
      ∃ content, other = content ++ [carriageReturn]) :
    (lineLoop (filled session received)).2 = false := by
  rw [lineLoop_returns_iff]
  intro other member
  obtain ⟨content, rfl⟩ := ended other member
  exact readable_of_ended content

/-- A semicolon or a blank at the end keeps the pattern apart from what is before. -/
theorem find_lead {before after : List Byte} {parameter : Parameter}
    (clear : ¬ boundaryType <:+: before ++ parameter.lead) :
    find boundaryType (before ++ parameter.lead ++ (boundaryType ++ after)) =
      some (before ++ parameter.lead).length := by
  rcases List.eq_nil_or_concat parameter.lead with none | ⟨init, last, whole⟩
  · simp [Parameter.lead] at none
  · have absent : last ∉ boundaryType := by
      have member : last ∈ parameter.lead := by simp [whole]
      have blank := parameter.blank
      simp only [Parameter.lead, List.mem_append, List.mem_cons] at member
      rcases member with inside | rfl | inside
      · rcases blank last (List.mem_append_left _ inside) with rfl | rfl <;> decide
      · decide
      · rcases blank last (List.mem_append_right _ inside) with rfl | rfl <;> decide
    have clean : ¬ boundaryType <:+: before ++ init := by
      intro inside
      refine clear (inside.trans ?_)
      rw [whole, List.concat_eq_append, ← List.append_assoc]
      exact (List.prefix_append _ _).isInfix
    have split : before ++ parameter.lead ++ (boundaryType ++ after) =
        (before ++ init) ++ last :: (boundaryType ++ after) := by
      simp [whole]
    rw [split, find_append_cons absent clean, find_of_leads (List.prefix_append _ _), whole]
    simp
    omega

/-- The text behind the name is taken when nothing before it looks like it. -/
theorem behind_lead {before after : List Byte} {parameter : Parameter}
    (clear : ¬ boundaryType <:+: before ++ parameter.lead) :
    behind (before ++ parameter.lead ++ (boundaryType ++ after)) =
      some (after.takeWhile (· ≠ semicolon)) := by
  rw [behind, find_lead clear, Option.map_some, List.drop_length_add_append, List.drop_left]

/-- Without blanks before the next semicolon the text behind a value stops it. -/
theorem stops_of_tight {rest : List Parameter} (tight : ∀ next ∈ rest.head?, next.before = []) :
    rest.flatMap Parameter.render = [] ∨
      (rest.flatMap Parameter.render).head? = some semicolon := by
  cases rest with
  | nil => exact .inl rfl
  | cons next rest =>
      right
      rw [List.flatMap_cons, Parameter.render, Parameter.lead, tight next rfl]
      rfl

/-- The boundary of a header with one field that gives it. -/
theorem boundary_eq {response : Response} {earlier later : List Field}
    {first rest : List Parameter} {parameter : Parameter}
    (fields : response.fields = earlier ++ field :: later)
    (others : ∀ other ∈ earlier, ¬ SameName other.name contentTypeName)
    (content : field.content = .media mediaType)
    (parameters : mediaType.parameters = first ++ parameter :: rest)
    (unnamed : ∀ other ∈ first, ¬ SameName other.name (text "boundary"))
    (named : parameter.name = text "boundary") :
    response.boundary = parameter.value.content := by
  have passed : earlier.findSome? (fun field => field.content.mediaType?) = none := by
    rw [List.findSome?_eq_none_iff]
    intro other member
    rw [← Option.not_isSome_iff_eq_none, other.typed]
    exact others other member
  have absent : first.find? (fun parameter => SameName parameter.name (text "boundary")) =
      none := by
    rw [List.find?_eq_none]
    intro other member
    simpa using unnamed other member
  have same : SameName parameter.name (text "boundary") := by
    rw [named]
    rfl
  rw [Response.boundary, fields, List.findSome?_append, passed, List.findSome?_cons, content]
  simp only [Content.mediaType?, Option.none_or]
  rw [MediaType.boundary, parameters, List.find?_append, absent, List.find?_cons]
  simp [same]

/-- The line of the content type gives the written value up to a semicolon. -/
theorem boundaryOf_parameter {first rest : List Parameter} {parameter : Parameter}
    (content : field.content = .media mediaType)
    (parameters : mediaType.parameters = first ++ parameter :: rest)
    (clear : ¬ boundaryType <:+: field.blanks ++ (mediaType.essence ++
      (first.flatMap Parameter.render ++ parameter.lead)))
    (named : parameter.name = text "boundary") :
    boundaryOf (field.render ++ [carriageReturn]) =
      some ((parameter.value.render ++ rest.flatMap Parameter.render).takeWhile
        (· ≠ semicolon)) := by
  have pattern : boundaryType = text "boundary" ++ [equals] := by decide
  obtain ⟨byte, before, begins⟩ : ∃ byte before,
      field.blanks ++ (mediaType.essence ++ first.flatMap Parameter.render) = byte :: before := by
    apply List.exists_cons_of_ne_nil
    simp [MediaType.essence]
  have body : field.blanks ++ field.content.render =
      byte :: (before ++ parameter.lead ++
        (boundaryType ++ (parameter.value.render ++ rest.flatMap Parameter.render))) := by
    calc
      _ = field.blanks ++ (mediaType.essence ++ first.flatMap Parameter.render) ++
            (parameter.lead ++ (boundaryType ++
              (parameter.value.render ++ rest.flatMap Parameter.render))) := by
        simp [content, Content.render, MediaType.render, parameters, Parameter.render, named,
          pattern]
      _ = _ := by
        rw [begins]
        simp
  have line : field.render ++ [carriageReturn] =
      field.name ++ colon :: (field.blanks ++ field.content.render ++ [carriageReturn]) := by
    simp [Field.render]
  have cleared : ¬ boundaryType <:+: before ++ parameter.lead := by
    intro inside
    refine clear (inside.trans ?_)
    rw [← List.append_assoc mediaType.essence, ← List.append_assoc field.blanks, begins]
    exact (List.suffix_cons byte _).isInfix
  rw [boundaryOf, line,
    keyValue_name (field.named.not_mem (by decide)) (by rw [body]; exact List.cons_ne_nil _ _)]
  rw [Option.bind_some, body, List.tail_cons]
  exact behind_lead cleared

/-- A quoted text is longer than what it stands for. -/
theorem length_quoted (content : List Quoted) :
    (content.map Quoted.byte).length ≤ (content.flatMap Quoted.render).length := by
  induction content with
  | nil => exact Nat.le_refl _
  | cons first content inductionHypothesis =>
      have single : 1 ≤ first.render.length := by
        cases first <;> simp [Quoted.render]
      simp only [List.map_cons, List.length_cons, List.flatMap_cons, List.length_append]
      omega

/-- A semicolon in a quoted text stands for itself. -/
theorem semicolon_mem_quoted {quoted : Quoted} (inside : semicolon ∈ quoted.render) :
    semicolon = quoted.byte := by
  cases quoted with
  | plain byte valid => exact List.mem_singleton.mp inside
  | escaped byte valid =>
      rw [Quoted.render, List.mem_cons, List.mem_singleton] at inside
      exact inside.resolve_left (by decide)

/-- The written value is what it stands for exactly if it is a token. -/
theorem takeWhile_render_iff (value : Value) {after : List Byte}
    (stops : after = [] ∨ after.head? = some semicolon) :
    (value.render ++ after).takeWhile (· ≠ semicolon) = value.content ↔
      ∃ word valid, value = .token word valid := by
  cases value with
  | token word valid =>
      refine iff_of_true ?_ ⟨word, valid, rfl⟩
      exact takeWhile_append_of_stops (valid.not_mem (by decide)) stops
  | quoted content =>
      refine iff_of_false (fun same => ?_) (by rintro ⟨word, valid, impossible⟩; cases impossible)
      have clean : semicolon ∉ content.map Quoted.byte := by
        change semicolon ∉ (Value.quoted content).content
        rw [← same]
        exact not_mem_takeWhile
      have written : semicolon ∉ (Value.quoted content).render := by
        rw [Value.render, List.mem_cons, List.mem_append, List.mem_singleton, List.mem_flatMap]
        rintro (impossible | ⟨quoted, member, inside⟩ | impossible)
        · exact absurd impossible (by decide)
        · exact clean (List.mem_map.mpr ⟨quoted, member, (semicolon_mem_quoted inside).symm⟩)
        · exact absurd impossible (by decide)
      have lengths := congrArg List.length same
      have longer := length_quoted content
      rw [takeWhile_append_of_stops written stops] at lengths
      simp only [Value.render, Value.content, List.length_cons, List.length_append,
        List.length_map] at lengths longer
      omega

/-- In an ordinary header the boundary is taken exactly if it is not quoted. -/
theorem correct_iff_of_ordinary {session : Session} {response : Response}
    {received : List Byte} {value : Value}
    (ordinary : Ordinary session response received value) :
    Correct session response received ↔ ∃ word valid, value = .token word valid := by
  cases ordinary with
  | intro earlier later field mediaType first rest parameter tail empty fields read ended status
      others name content parameters unnamed clear named given tight =>
      obtain ⟨more, last⟩ := @pieces_ended field.render tail field.no_newline ended
      have lines : pieces newline (session.inputBuffer ++ received) =
          ((response.status ++ [carriageReturn]) ::
            earlier.map (fun other => other.render ++ [carriageReturn])) ++
              (field.render ++ [carriageReturn]) :: more := by
        rw [empty, read, List.nil_append, pieces_crlf response.valid.2, pieces_fields, last,
          List.cons_append]
      have here : contentTypeName <:+: keyOf (field.render ++ [carriageReturn]) := by
        rw [keyOf_field, name]
      have passed : ∀ other ∈ (response.status ++ [carriageReturn]) ::
          earlier.map (fun other => other.render ++ [carriageReturn]),
            ¬ contentTypeName <:+: keyOf other := by
        intro line member
        rcases List.mem_cons.mp member with rfl | later
        · exact status
        · obtain ⟨other, inside, rfl⟩ := List.mem_map.mp later
          rw [keyOf_field]
          exact (others other inside).1
      have returned : (lineLoop (filled session received)).2 = false := by
        apply returned_of_ended
        rw [lines]
        intro line member
        rcases examined_append here member with before | rfl
        · rcases List.mem_cons.mp before with rfl | later
          · exact ⟨_, rfl⟩
          · obtain ⟨other, -, rfl⟩ := List.mem_map.mp later
            exact ⟨_, rfl⟩
        · exact ⟨_, rfl⟩
      rw [correct_of_returned returned, lines, namedLine_append passed here, Option.bind_some,
        boundaryOf_parameter content parameters clear named, Option.getD_some,
        boundary_eq fields (fun other member => (others other member).2) content parameters
          unnamed named, given]
      exact takeWhile_render_iff value (stops_of_tight tight)

/-- In a header without these letters the boundary of the request before stays. -/
theorem correct_iff_of_unnamed {session : Session} {response : Response}
    {received : List Byte} (unnamed : Unnamed session response received) :
    Correct session response received ↔ session.mimeBoundary = response.boundary := by
  have blank : pieces newline (crlf []) = [[carriageReturn]] := by
    rw [← List.append_nil (crlf []), pieces_crlf List.not_mem_nil, pieces_of_cut_none cut_nil]
    rfl
  have lines : pieces newline (session.inputBuffer ++ received) =
      (response.status ++ [carriageReturn]) ::
        (response.fields.map (fun field => field.render ++ [carriageReturn]) ++
          [[carriageReturn]]) := by
    rw [unnamed.empty, unnamed.read, List.nil_append, Response.render, List.append_assoc,
      pieces_crlf response.valid.2, pieces_fields, blank]
  have shape : ∀ line ∈ pieces newline (session.inputBuffer ++ received),
      (∃ content, line = content ++ [carriageReturn]) ∧ ¬ contentTypeName <:+: keyOf line := by
    rw [lines]
    intro line member
    rcases List.mem_cons.mp member with rfl | later
    · exact ⟨⟨_, rfl⟩, unnamed.status⟩
    · rcases List.mem_append.mp later with inside | last
      · obtain ⟨field, within, rfl⟩ := List.mem_map.mp inside
        rw [keyOf_field]
        exact ⟨⟨_, rfl⟩, unnamed.fields field within⟩
      · rw [List.mem_singleton.mp last]
        exact ⟨⟨[], rfl⟩, by decide⟩
  have none : namedLine (pieces newline (session.inputBuffer ++ received)) = none := by
    rw [namedLine, List.find?_eq_none]
    intro line member
    simpa using (shape line member).2
  have returned : (lineLoop (filled session received)).2 = false :=
    returned_of_ended fun line member => (shape line (mem_of_mem_examined member)).1
  rw [correct_of_returned returned, none]
  rfl

end

/-! ## The boundary -/

/--
The boundary is the one of the response exactly when what is read fits.  Of an
ordinary header that is so exactly when the parameter is not quoted, and of a header
without the letters exactly when the boundary of the request before is the right one.
-/
theorem boundary_correct_iff (session : Session) (response : Response) (received : List Byte) :
    (Correct session response received ↔ Fits session received response.boundary) ∧
      (∀ value, Ordinary session response received value →
        (Correct session response received ↔ ∃ word valid, value = .token word valid)) ∧
      (Unnamed session response received →
        (Correct session response received ↔ session.mimeBoundary = response.boundary)) := by
  refine ⟨correct_iff_fits session response received, ?_, correct_iff_of_unnamed⟩
  intro value ordinary
  exact correct_iff_of_ordinary ordinary

/-- A session on which no request has been made. -/
def newSession : Session :=
  ⟨[], [], none⟩

/-- A response with one field, whose boundary parameter has a value. -/
def sampleResponse (value : Value) : Response where
  status := text "HTTP/1.1 200 OK"
  valid := by decide
  fields :=
    [{ name := contentTypeName
       named := by decide
       blanks := [space]
       blank := by decide
       content := .media
        { type := text "multipart"
          typed := by decide
          subtype := text "mixed"
          subtyped := by decide
          parameters :=
            [{ before := []
               after := [space]
               blank := by decide
               name := text "boundary"
               named := by decide
               value := value }] }
       typed := by simp [Content.mediaType?, SameName] }]

theorem ordinary_sample (value : Value) :
    Ordinary newSession (sampleResponse value) (sampleResponse value).render value := by
  have status : ¬ contentTypeName <:+: keyOf (text "HTTP/1.1 200 OK" ++ [carriageReturn]) := by
    decide
  have clear : ¬ boundaryType <:+:
      [space] ++ (text "multipart" ++ slash :: text "mixed" ++ [semicolon, space]) := by
    decide
  refine .intro [] [] _ _ [] [] _ [newline, carriageReturn, newline] rfl rfl ?_ (.inr rfl)
    status (by simp) rfl rfl rfl (by simp) clear rfl rfl (by simp)
  simp [Response.render, sampleResponse, crlf]

/-- An unquoted boundary, and a response without any field. -/
theorem boundary_correct_sample :
    (∃ value : Value, value.content = text "abc" ∧
      Correct newSession (sampleResponse value) (sampleResponse value).render) ∧
      ∃ response : Response, response.boundary = [] ∧
        Correct newSession response response.render := by
  constructor
  · have valid : IsToken (text "abc") := by decide
    refine ⟨.token (text "abc") valid, rfl, ?_⟩
    rw [(boundary_correct_iff newSession _ _).2.1 _ (ordinary_sample _)]
    exact ⟨_, valid, rfl⟩
  · refine ⟨⟨text "HTTP/1.1 200 OK", by decide, []⟩, rfl, ?_⟩
    rw [(boundary_correct_iff newSession _ _).2.2 ⟨rfl, rfl, by decide, by simp⟩]
    rfl

/-- A quoted boundary keeps its quotes. -/
theorem quoted_boundary_kept :
    ¬ ∀ (session : Session) (response : Response) (body received : List Byte),
      received <+: response.render ++ body → received ≠ [] → received.length ≤ 512 →
        Correct session response received := by
  intro claim
  have correct := claim newSession (sampleResponse (.quoted [.plain 97 (by decide)])) []
    _ (by rw [List.append_nil]) (by decide) (by decide)
  rw [correct_iff_of_ordinary (ordinary_sample _)] at correct
  obtain ⟨word, valid, impossible⟩ := correct
  cases impossible

end AsyncRuntime.Io.MultipartBoundary
