import AsyncRuntime.Foundation.TextSearch
import Mathlib.Algebra.Group.Int.Defs
import Mathlib.Algebra.Group.Nat.Defs

/-!
# The header of a multipart response

`handle_read_header` gets the bytes of one read, behind what the input buffer still has
from before.  It reads line by line up to the first line with `Content-Type` before its
colon and takes the boundary from there.  A name, a value and a part of the value are
cut out with `substr`, which throws when it is to start behind the end of its string.

The positions are of type `size_t`, and the start and the length of a value wrap when a
line has no colon or is too short; `npos` is `none` here.
-/

namespace AsyncRuntime.Io.MultipartHeader

open AsyncRuntime.Foundation.TextSearch

/-- A `char` of a string. -/
abbrev Byte := UInt8

def newline : Byte := '\n'.toUInt8

def colon : Byte := ':'.toUInt8

def semicolon : Byte := ';'.toUInt8

/-- The bytes of a literal. -/
def text (content : String) : List Byte :=
  content.toList.map Char.toUInt8

/-- The name that is searched for. -/
def contentTypeName : List Byte :=
  text "Content-Type"

/-- `boundary_type` -/
def boundaryType : List Byte :=
  text "boundary="

/-! ## One line -/

/-- `substr`; a length of `none` is one that reaches behind the end. -/
def substr (line : List Byte) (start : ℕ) (length : Option ℕ) : Option (List Byte) :=
  if line.length < start then none
  else some ((line.drop start).take (length.getD line.length))

/-- `key_value_separator + 2`, and `npos + 2` is 1. -/
def valueStart : Option ℕ → ℕ
  | none => 1
  | some separator => separator + 2

/-- `line.size() - key.size() - 3`, which is behind the end of any line when it wraps. -/
def valueLength (line key : List Byte) : Option ℕ :=
  if key.length + 3 ≤ line.length then some (line.length - key.length - 3) else none

/-- `key` and `value` of a line, if no `substr` throws. -/
def keyValue (line : List Byte) : Option (List Byte × List Byte) := do
  let separator := find [colon] line
  let key ← substr line 0 separator
  let value ← substr line (valueStart separator) (valueLength line key)
  return (key, value)

/-- The loop over the parts of the value, with the boundary if a part has one. -/
def boundaryLoop : List (List Byte) → Option (Option (List Byte))
  | [] => some none
  | part :: rest =>
      match find boundaryType part with
      | none => boundaryLoop rest
      | some place => (substr part (place + boundaryType.length) none).map some

/-! ## The handler -/

/-- What `http_multipart_session` keeps that the handler uses. -/
structure Session where
  inputBuffer : List Byte
  mimeBoundary : List Byte
  contentType : Option (List Byte)
  deriving DecidableEq

/-- The loop over the lines; the flag says whether an exception leaves it. -/
def lineLoop (session : Session) : Session × Bool :=
  match _done : cut newline session.inputBuffer with
  | none => (session, false)
  | some (line, rest) =>
      match keyValue line with
      | none => ({ session with inputBuffer := rest }, true)
      | some (key, value) =>
          if (find contentTypeName key).isSome then
            match boundaryLoop (pieces semicolon value) with
            | none => ({ session with inputBuffer := rest, contentType := some value }, true)
            | some boundary =>
                ({ inputBuffer := rest
                   mimeBoundary := boundary.getD session.mimeBoundary
                   contentType := some value }, false)
          else lineLoop { session with inputBuffer := rest }
termination_by session.inputBuffer.length
decreasing_by
  exact length_lt_of_cut (by assumption)

/-- What a run of the handler leaves behind: the values that the promise is set to among it. -/
structure Handled where
  session : Session
  resolutions : List (Option ℕ)
  escaped : Bool
  deriving DecidableEq

/-- `handle_read_header`, with the error code of the read if there is one. -/
def handleReadHeader (session : Session) (error : Option ℕ) (received : List Byte) : Handled :=
  match error with
  | some code => ⟨session, [some code], false⟩
  | none =>
      let looped := lineLoop { session with inputBuffer := session.inputBuffer ++ received }
      ⟨looped.1, if looped.2 then [] else [none], looped.2⟩

/-! ## The arithmetic of `size_t` -/

/-- The start of the value is the sum of `size_t`. -/
theorem valueStart_eq {line : List Byte} (fits : line.length + 2 < 2 ^ 64) :
    valueStart (find [colon] line) = ((find [colon] line).getD (2 ^ 64 - 1) + 2) % 2 ^ 64 := by
  cases found : find [colon] line with
  | none => rfl
  | some separator =>
      have bound := (find_eq_some_iff.mp found).1
      rw [valueStart, Option.getD_some, Nat.mod_eq_of_lt (by omega)]

/-- The length of the value is the difference of `size_t`, as far as it matters. -/
theorem substr_valueLength {line key : List Byte} (fits : line.length < 2 ^ 63)
    (short : key.length ≤ line.length) (start : ℕ) :
    substr line start (valueLength line key) =
      substr line start
        (some (((line.length : ℤ) - key.length - 3) % 2 ^ 64).toNat) := by
  by_cases behind : line.length < start
  · rw [substr, substr, if_pos behind, if_pos behind]
  · rw [substr, substr, if_neg behind, if_neg behind, Option.getD_some, valueLength]
    by_cases enough : key.length + 3 ≤ line.length
    · have difference : (((line.length : ℤ) - key.length - 3) % 2 ^ 64).toNat =
          line.length - key.length - 3 := by
        omega
      rw [if_pos enough, Option.getD_some, difference]
    · have wraps : line.length ≤ (((line.length : ℤ) - key.length - 3) % 2 ^ 64).toNat := by
        omega
      have shorter : (line.drop start).length ≤ line.length := by
        rw [List.length_drop]
        omega
      rw [if_neg enough, Option.getD_none, List.take_of_length_le shorter,
        List.take_of_length_le (shorter.trans wraps)]

/-! ## Lines that can be read -/

/-- A line from which `value` can be cut: not empty, and its first colon is not its end. -/
def Readable (line : List Byte) : Prop :=
  line ≠ [] ∧ find [colon] line ≠ some (line.length - 1)

instance (line : List Byte) : Decidable (Readable line) :=
  inferInstanceAs (Decidable (_ ∧ _))

/-- What is before the first colon of a line. -/
def keyOf (line : List Byte) : List Byte :=
  line.take ((find [colon] line).getD line.length)

/-- The lines up to the one that names the content type. -/
def examined : List (List Byte) → List (List Byte)
  | [] => []
  | line :: rest => line :: if contentTypeName <:+: keyOf line then [] else examined rest

/-- The place of a colon is inside the line. -/
theorem find_colon_lt {line : List Byte} {separator : ℕ}
    (found : find [colon] line = some separator) : separator < line.length :=
  Nat.lt_of_succ_le (add_length_le_of_find found)

/-- The name is always cut out. -/
theorem substr_key (line : List Byte) :
    substr line 0 (find [colon] line) = some (keyOf line) := by
  rw [substr, if_neg (Nat.not_lt_zero _), keyOf]
  rw [List.drop_zero]

/-- And the value of the lines that can be read. -/
theorem keyValue_isSome_iff (line : List Byte) : (keyValue line).isSome ↔ Readable line := by
  have start : valueStart (find [colon] line) ≤ line.length ↔ Readable line := by
    rw [Readable]
    cases found : find [colon] line with
    | none =>
        have nonempty : 1 ≤ line.length ↔ line ≠ [] := List.length_pos_iff
        simpa [valueStart] using nonempty
    | some separator =>
        have inside := find_colon_lt found
        have nonempty : line ≠ [] := List.ne_nil_of_length_pos (by omega)
        simp only [valueStart, ne_eq, nonempty, not_false_eq_true, Option.some.injEq, true_and]
        omega
  rw [← start]
  simp only [keyValue, substr_key, Option.bind_eq_bind, Option.bind_some]
  by_cases inside : valueStart (find [colon] line) ≤ line.length
  · rw [substr, if_neg (Nat.not_lt.mpr inside)]
    simp [inside]
  · rw [substr, if_pos (Nat.not_le.mp inside)]
    simp [inside]

theorem keyValue_fst {line key value : List Byte} (cut : keyValue line = some (key, value)) :
    key = keyOf line := by
  simp only [keyValue, substr_key, Option.bind_eq_bind, Option.bind_some,
    Option.bind_eq_some_iff] at cut
  obtain ⟨_, _, same⟩ := cut
  cases same
  rfl

/-- The text behind a place that was found can always be cut out. -/
theorem boundaryLoop_isSome (parts : List (List Byte)) : (boundaryLoop parts).isSome := by
  induction parts with
  | nil => rfl
  | cons part rest inductionHypothesis =>
      rw [boundaryLoop]
      cases found : find boundaryType part with
      | none => exact inductionHypothesis
      | some place =>
          have fits := Nat.not_lt.mpr (add_length_le_of_find found)
          simp [substr, fits]

/-- The loop ends with the input. -/
theorem lineLoop_ended {session : Session} (ended : cut newline session.inputBuffer = none) :
    lineLoop session = (session, false) := by
  rw [lineLoop]
  split
  · rfl
  · rename_i done
    rw [ended] at done
    exact absurd done (by simp)

/-- One round of the loop. -/
theorem lineLoop_round {session : Session} {line rest : List Byte}
    (done : cut newline session.inputBuffer = some (line, rest)) :
    lineLoop session =
      match keyValue line with
      | none => ({ session with inputBuffer := rest }, true)
      | some (key, value) =>
          if (find contentTypeName key).isSome then
            match boundaryLoop (pieces semicolon value) with
            | none => ({ session with inputBuffer := rest, contentType := some value }, true)
            | some boundary =>
                ({ inputBuffer := rest
                   mimeBoundary := boundary.getD session.mimeBoundary
                   contentType := some value }, false)
          else lineLoop { session with inputBuffer := rest } := by
  rw [lineLoop]
  split
  · rename_i ended
    rw [done] at ended
    exact absurd ended (by simp)
  · rename_i other
    rw [done] at other
    cases other
    rfl

/-- No exception leaves the loop exactly when all lines that it examines can be read. -/
theorem lineLoop_returns_iff (session : Session) :
    (lineLoop session).2 = false ↔
      ∀ line ∈ examined (pieces newline session.inputBuffer), Readable line := by
  induction session using lineLoop.induct with
  | case1 session ended =>
      rw [lineLoop_ended ended, pieces_of_cut_none ended]
      simp [examined]
  | case2 session line rest done unreadable =>
      rw [lineLoop_round done, pieces_of_cut done, examined, List.forall_mem_cons,
        ← keyValue_isSome_iff line, unreadable]
      simp
  | case3 session line rest done key value read named failed =>
      have returned := boundaryLoop_isSome (pieces semicolon value)
      rw [failed] at returned
      exact absurd returned (by simp)
  | case4 session line rest done key value read named boundary found =>
      rw [find_isSome_iff, keyValue_fst read] at named
      rw [lineLoop_round done, pieces_of_cut done, examined, List.forall_mem_cons,
        ← keyValue_isSome_iff line, if_pos named, read]
      simp [find_isSome_iff, keyValue_fst read, named, found]
  | case5 session line rest done key value read unnamed inductionHypothesis =>
      rw [find_isSome_iff, keyValue_fst read] at unnamed
      rw [lineLoop_round done, pieces_of_cut done, examined, List.forall_mem_cons,
        ← keyValue_isSome_iff line, if_neg unnamed, read]
      simp only [find_isSome_iff, keyValue_fst read, unnamed, if_false, Option.isSome_some,
        true_and]
      exact inductionHypothesis

/-! ## No exception -/

/-- The promise is set once, and no exception leaves the handler. -/
def Handled.Clean (handled : Handled) : Prop :=
  handled.resolutions.length = 1 ∧ handled.escaped = false

/--
The handler is clean exactly when no line that it examines is empty or ends with its
first colon: the value of such a line would begin behind its end.
-/
theorem handleReadHeader_clean_iff (session : Session) (received : List Byte) :
    (handleReadHeader session none received).Clean ↔
      ∀ line ∈ examined (pieces newline (session.inputBuffer ++ received)), Readable line := by
  rw [← lineLoop_returns_iff { session with inputBuffer := session.inputBuffer ++ received },
    Handled.Clean, handleReadHeader]
  cases (lineLoop { session with inputBuffer := session.inputBuffer ++ received }).2 with
  | false => simp
  | true => simp

/-- The first read of a response may end behind the colon of a field. -/
theorem handleReadHeader_throws :
    ¬ ∀ session received, (handleReadHeader session none received).Clean := by
  intro claimed
  have clean := claimed ⟨[], [], none⟩ (text "HTTP/1.1 200 OK\r\nDate:")
  have status : cut newline (text "HTTP/1.1 200 OK\r\nDate:") =
      some (text "HTTP/1.1 200 OK\r", text "Date:") := by
    decide
  have field : cut newline (text "Date:") = some (text "Date:", []) := by
    decide
  rw [handleReadHeader_clean_iff, List.nil_append, pieces_of_cut status, pieces_of_cut field,
    examined, if_neg (by decide), examined] at clean
  have readable := clean (text "Date:") (by simp)
  revert readable
  decide

end AsyncRuntime.Io.MultipartHeader
