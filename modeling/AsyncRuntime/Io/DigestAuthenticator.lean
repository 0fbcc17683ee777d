import AsyncRuntime.Foundation.TextSearch
import Mathlib.Data.List.Nodup

/-!
# `http_digest_authenticator`

`find_section` searches the value of `WWW-Authenticate` for `key=([^,]+)` and takes a
quote off both ends of what the group has captured.  The search of Boost is a parameter;
of its result the code uses where the group begins and where it ends.  `literalSearch` is
the search for a key that has no characters which are special in a regular expression,
as `nonce` and `realm` are.

The size of the captured text is a `size_t`; a decrement of zero, which wraps, is `none`,
and so is the character before the beginning of the string.
-/

namespace AsyncRuntime.Io.DigestAuthenticator

open AsyncRuntime.Foundation.TextSearch

/-- A `char` of a string. -/
abbrev Byte := UInt8

def comma : Byte := ','.toUInt8

def space : Byte := ' '.toUInt8

def equals : Byte := '='.toUInt8

def quote : Byte := '"'.toUInt8

/-- The bytes of a literal. -/
def text (content : String) : List Byte :=
  content.toList.map Char.toUInt8

/-! ## `find_section` -/

/-- `matches[1]`: where the group begins and ends in the string. -/
structure Capture where
  first : ℕ
  second : ℕ
  deriving DecidableEq

/-- `boost::regex_search` for a key in a string. -/
abbrev Search := List Byte → List Byte → Option Capture

/-- What Boost documents of any group, also of one that took no part in the match. -/
def Documented (search : Search) : Prop :=
  ∀ key authenticate capture, search key authenticate = some capture →
    capture.first ≤ capture.second ∧ capture.second ≤ authenticate.length

/-- `*start`; a zero stands behind the last character. -/
def charAt (authenticate : List Byte) (index : ℕ) : Byte :=
  authenticate.getD index 0

/-- `*(matches[1].second - 1)` -/
def charBefore (authenticate : List Byte) : ℕ → Option Byte
  | 0 => none
  | index + 1 => some (charAt authenticate index)

/-- `--size` -/
def decrement : ℕ → Option ℕ
  | 0 => none
  | size + 1 => some size

/-- `start` and `size` after the two tests for a quote. -/
def cutQuotes (authenticate : List Byte) (capture : Capture) : Option (ℕ × ℕ) := do
  let distance := capture.second - capture.first
  let last ← charBefore authenticate capture.second
  let (start, size) ←
    if charAt authenticate capture.first = quote then
      (decrement distance).map (capture.first + 1, ·)
    else some (capture.first, distance)
  let size ← if last = quote then decrement size else some size
  return (start, size)

/-- What `find_section` does: it returns false, or true with a value, or neither. -/
inductive Outcome where
  | absent
  | value (content : List Byte)
  | wrapped
  deriving DecidableEq

/-- `find_section` -/
def findSection (search : Search) (key authenticate : List Byte) : Outcome :=
  match search key authenticate with
  | none => .absent
  | some capture =>
      match cutQuotes authenticate capture with
      | none => .wrapped
      | some (start, size) => .value ((authenticate.drop start).take size)

/-! ## `generate_authorization` -/

/-- The members of `http_digest_authenticator` that are read or written. -/
structure Authenticator where
  authenticate : List Byte
  username : List Byte
  password : List Byte
  realm : List Byte
  nonce : List Byte
  uri : List Byte
  method : List Byte
  cnonce : List Byte
  nonceCount : List Byte
  ha1 : List Byte
  ha2 : List Byte
  response : List Byte
  authorization : List Byte

/-- `find_nonce`; `none` when an exception leaves it. -/
def Authenticator.findNonce (search : Search) (authenticator : Authenticator) :
    Option (Authenticator × Bool) :=
  match findSection search (text "nonce") authenticator.authenticate with
  | .absent => some (authenticator, false)
  | .value content => some ({ authenticator with nonce := content }, true)
  | .wrapped => none

/-- `find_realm` -/
def Authenticator.findRealm (search : Search) (authenticator : Authenticator) :
    Option (Authenticator × Bool) :=
  match findSection search (text "realm") authenticator.authenticate with
  | .absent => some (authenticator, false)
  | .value content => some ({ authenticator with realm := content }, true)
  | .wrapped => none

/-- What `calculateHA1` hashes. -/
def ha1Text (username realm password : List Byte) : List Byte :=
  username ++ text ":" ++ realm ++ text ":" ++ password

/-- What `calculateHA2` hashes. -/
def ha2Text (method uri : List Byte) : List Byte :=
  method ++ text ":" ++ uri

/-- What `calculate_response` hashes. -/
def responseText (ha1 nonce nonceCount cnonce ha2 : List Byte) : List Byte :=
  ha1 ++ text ":" ++ nonce ++ text ":" ++ nonceCount ++ text ":" ++ cnonce ++ text ":auth:" ++ ha2

/-- The value of `Authorization`. -/
def authorizationText (username realm nonce uri nonceCount cnonce response : List Byte) :
    List Byte :=
  text "Digest username=\"" ++ username ++ text "\", realm=\"" ++ realm ++ text "\", nonce=\"" ++
    nonce ++ text "\", uri=\"" ++ uri ++ text "\", qop=auth, nc=" ++ nonceCount ++
    text ", cnonce=\"" ++ cnonce ++ text "\", response=\"" ++ response ++ text "\""

/-- The hashes and the header, from the members that have been found. -/
def Authenticator.finish (digest : List Byte → List Byte) (authenticator : Authenticator)
    (found : Bool) : Authenticator :=
  let nonceCount := text "1"
  -- the string is assigned a bool, which becomes one character
  let cnonce : List Byte := [if found then 1 else 0]
  let ha1 := digest (ha1Text authenticator.username authenticator.realm authenticator.password)
  let ha2 := digest (ha2Text authenticator.method authenticator.uri)
  let response := digest (responseText ha1 authenticator.nonce nonceCount cnonce ha2)
  { authenticator with
    cnonce := cnonce
    nonceCount := nonceCount
    ha1 := ha1
    ha2 := ha2
    response := response
    authorization := authorizationText authenticator.username authenticator.realm
      authenticator.nonce authenticator.uri nonceCount cnonce response }

/-- `generate_authorization`, with the digest of MD5 as hexadecimal digits. -/
def Authenticator.generateAuthorization (search : Search) (digest : List Byte → List Byte)
    (authenticator : Authenticator) : Option (Authenticator × Bool) := do
  let (first, hasNonce) ← authenticator.findNonce search
  if !hasNonce then return (first, false)
  let (second, hasRealm) ← first.findRealm search
  if !hasRealm then return (second, false)
  let (third, found) ← second.findNonce search
  return (third.finish digest found, true)

/-! ## The search for a literal key -/

/-- What the group captures behind the key: all characters up to a comma. -/
def run (key rest : List Byte) : List Byte :=
  (rest.drop (key.length + 1)).takeWhile (· ≠ comma)

/-- The pattern matches here. -/
def Matches (key rest : List Byte) : Prop :=
  key ++ [equals] <+: rest ∧ run key rest ≠ []

instance (key rest : List Byte) : Decidable (Matches key rest) :=
  inferInstanceAs (Decidable (_ ∧ _))

/-- The leftmost match, with a greedy group. -/
def literalSearch : Search := fun key authenticate =>
  (place (Matches key) authenticate).map fun index =>
    ⟨index + (key.length + 1),
      index + (key.length + 1) + (run key (authenticate.drop index)).length⟩

/-- What the leftmost match captures. -/
def firstRun (key authenticate : List Byte) : Option (List Byte) :=
  (place (Matches key) authenticate).map fun index => run key (authenticate.drop index)

/-! ## Where the quotes are cut -/

/-- A captured text that has a character for every quote that is taken off. -/
structure Capture.Cuttable (authenticate : List Byte) (capture : Capture) : Prop where
  lone : capture.second = capture.first + 1 → charAt authenticate capture.first ≠ quote
  empty : capture.second = capture.first → 0 < capture.second ∧
    charAt authenticate capture.first ≠ quote ∧
    charAt authenticate (capture.second - 1) ≠ quote

/-- The size does not wrap, and the value lies inside the match. -/
def Safe (search : Search) (key authenticate : List Byte) : Prop :=
  ∀ capture, search key authenticate = some capture →
    ∃ start size, cutQuotes authenticate capture = some (start, size) ∧
      capture.first ≤ start ∧ start + size ≤ capture.second

/-- From two characters on there is one for every quote. -/
theorem cutQuotes_of_two {authenticate : List Byte} {first distance : ℕ} {last : Byte}
    (closing : charAt authenticate (first + (distance + 1)) = last) :
    cutQuotes authenticate ⟨first, first + (distance + 2)⟩ =
      some (if charAt authenticate first = quote then first + 1 else first,
        distance + (if charAt authenticate first = quote then 0 else 1) +
          if last = quote then 0 else 1) := by
  have sizes : first + (distance + 2) - first = distance + 2 := Nat.add_sub_cancel_left _ _
  have before : charBefore authenticate (first + (distance + 2)) = some last :=
    congrArg some closing
  rw [cutQuotes, before, sizes]
  by_cases opened : charAt authenticate first = quote
  · by_cases closed : last = quote
    · simp [opened, closed, decrement]
    · simp [opened, closed, decrement]
  · by_cases closed : last = quote
    · simp [opened, closed, decrement]
    · simp [opened, closed]

/-- The quotes can be taken off a captured text exactly when it has a character for each. -/
theorem cutQuotes_iff (authenticate : List Byte) (first distance : ℕ) :
    (∃ start size, cutQuotes authenticate ⟨first, first + distance⟩ = some (start, size) ∧
      first ≤ start ∧ start + size ≤ first + distance) ↔
      Capture.Cuttable authenticate ⟨first, first + distance⟩ := by
  match distance with
  | 0 =>
      -- a group that has captured nothing
      constructor
      · rintro ⟨start, size, cut, -, -⟩
        refine ⟨by simp, fun _ => ?_⟩
        cases first with
        | zero => exact absurd cut (by simp [cutQuotes, charBefore])
        | succ first =>
            refine ⟨Nat.succ_pos first, ?_, ?_⟩
            · intro quoted
              exact absurd cut (by simp [cutQuotes, charBefore, quoted, decrement])
            · intro quoted
              have ended : charAt authenticate first = quote := quoted
              by_cases opened : charAt authenticate (first + 1) = quote
              · exact absurd cut (by simp [cutQuotes, charBefore, opened, decrement])
              · exact absurd cut (by simp [cutQuotes, charBefore, opened, ended, decrement])
      · intro cuttable
        obtain ⟨positive, unopened, unended⟩ := cuttable.empty rfl
        obtain ⟨before, rfl⟩ := Nat.exists_eq_succ_of_ne_zero (Nat.pos_iff_ne_zero.mp positive)
        have ended : charAt authenticate before ≠ quote := unended
        exact ⟨before + 1, 0, by simp [cutQuotes, charBefore, unopened, ended], le_rfl, le_rfl⟩
  | 1 =>
      -- one character, which is its own beginning and end
      constructor
      · rintro ⟨start, size, cut, -, -⟩
        refine ⟨fun _ quoted => ?_, by simp⟩
        exact absurd cut (by simp [cutQuotes, charBefore, quoted, decrement])
      · intro cuttable
        have plain := cuttable.lone rfl
        exact ⟨first, 1, by simp [cutQuotes, charBefore, plain], le_rfl, le_rfl⟩
  | distance + 2 =>
      constructor
      · intro _
        exact ⟨by simp, by simp⟩
      · intro _
        refine ⟨_, _, cutQuotes_of_two rfl, ?_, ?_⟩
        · split <;> omega
        · split <;> split <;> omega

/-! ## The run behind the key -/

section

variable {key authenticate : List Byte} {index : ℕ}

/-- The captured text is cut out of the string behind the key. -/
theorem drop_eq_run (key authenticate : List Byte) (index : ℕ) :
    ∃ after, authenticate.drop (index + (key.length + 1)) =
      run key (authenticate.drop index) ++ after := by
  refine ⟨(authenticate.drop (index + (key.length + 1))).dropWhile (· ≠ comma), ?_⟩
  rw [run, List.drop_drop, List.takeWhile_append_dropWhile]

theorem matches_of_place (found : place (Matches key) authenticate = some index) :
    Matches key (authenticate.drop index) :=
  (place_eq_some_iff.mp found).2.1

/-- A character of a text that stands in the string is read from the string. -/
theorem charAt_of_drop {captured after : List Byte} {first step : ℕ}
    (here : authenticate.drop first = captured ++ after) (inside : step < captured.length) :
    charAt authenticate (first + step) = captured.getD step 0 := by
  rw [charAt, List.getD_eq_getElem?_getD, ← List.getElem?_drop, here,
    List.getElem?_append_left inside, ← List.getD_eq_getElem?_getD]

/-- The captured text begins with the character behind the equals sign. -/
theorem charAt_run (captured : 0 < (run key (authenticate.drop index)).length) :
    charAt authenticate (index + (key.length + 1)) =
      (run key (authenticate.drop index)).getD 0 0 := by
  obtain ⟨after, split⟩ := drop_eq_run key authenticate index
  exact charAt_of_drop split captured

theorem documented_literalSearch : Documented literalSearch := by
  intro key authenticate capture found
  rw [literalSearch, Option.map_eq_some_iff] at found
  obtain ⟨index, placed, rfl⟩ := found
  refine ⟨Nat.le_add_right _ _, ?_⟩
  obtain ⟨after, split⟩ := drop_eq_run key authenticate index
  have sizes := congrArg List.length split
  have captured := List.length_pos_of_ne_nil (matches_of_place placed).2
  rw [List.length_drop, List.length_append] at sizes
  simp only
  omega

/-- A literal key captures at least one character, and one quote alone cannot be cut. -/
theorem cuttable_literal_iff (placed : place (Matches key) authenticate = some index) :
    Capture.Cuttable authenticate ⟨index + (key.length + 1),
        index + (key.length + 1) + (run key (authenticate.drop index)).length⟩ ↔
      run key (authenticate.drop index) ≠ [quote] := by
  have captured := List.length_pos_of_ne_nil (matches_of_place placed).2
  have opening := charAt_run captured
  constructor
  · rintro ⟨lone, -⟩ single
    rw [single] at lone opening
    exact lone rfl opening
  · intro several
    refine ⟨?_, ?_⟩
    · intro one quoted
      have length_eq : (run key (authenticate.drop index)).length = 1 := Nat.add_left_cancel one
      obtain ⟨only, single⟩ := List.length_eq_one_iff.mp length_eq
      rw [single] at opening several
      simp only at quoted
      rw [quoted] at opening
      exact several (by rw [opening]; rfl)
    · intro none
      simp only at none
      omega

end

/-! ## The value -/

/-- A text without a quote at its beginning and a quote at its end. -/
def unquote (captured : List Byte) : List Byte :=
  let opened := if captured.head? = some quote then captured.tail else captured
  if opened.getLast? = some quote then opened.dropLast else opened

theorem unquote_eq (head last : Byte) (middle : List Byte) :
    unquote (head :: (middle ++ [last])) =
      (if head = quote then [] else [head]) ++ middle ++ if last = quote then [] else [last] := by
  have ended : (head :: (middle ++ [last])).getLast? = some last := by
    rw [← List.cons_append, List.getLast?_concat]
  have shortened : (head :: (middle ++ [last])).dropLast = head :: middle := by
    rw [← List.cons_append, List.dropLast_concat]
  by_cases opened : head = quote
  · by_cases closed : last = quote
    · simp [unquote, opened, closed]
    · simp [unquote, opened, closed]
  · by_cases closed : last = quote
    · rw [closed] at ended shortened
      simp [unquote, opened, closed, ended, shortened]
    · simp [unquote, opened, closed, ended]

/-- Where the captured text stands, the quotes are taken off it. -/
theorem cutQuotes_value {authenticate captured after : List Byte} {first : ℕ}
    (nonempty : captured ≠ []) (several : captured ≠ [quote])
    (here : authenticate.drop first = captured ++ after) :
    ∃ start size,
      cutQuotes authenticate ⟨first, first + captured.length⟩ = some (start, size) ∧
        (authenticate.drop start).take size = unquote captured := by
  have next (step : ℕ) : authenticate.drop (first + step) = (captured ++ after).drop step := by
    rw [← here, List.drop_drop]
  have opening := charAt_of_drop here (List.length_pos_of_ne_nil nonempty)
  rw [Nat.add_zero] at opening
  obtain ⟨head, tail, rfl⟩ := List.exists_cons_of_ne_nil nonempty
  rw [List.getD_cons_zero] at opening
  rcases List.eq_nil_or_concat tail with rfl | ⟨middle, last, rfl⟩
  · have plain : head ≠ quote := fun same => several (same ▸ rfl)
    refine ⟨first, 1, by simp [cutQuotes, charBefore, opening, plain], ?_⟩
    rw [here]
    simp [unquote, plain]
  · rw [List.concat_eq_append] at *
    have closing := @charAt_of_drop _ _ _ _ (middle.length + 1) here (by simp)
    have last_eq : (head :: (middle ++ [last])).getD (middle.length + 1) 0 = last := by
      simp [List.getD_eq_getElem?_getD]
    have size : (head :: (middle ++ [last])).length = middle.length + 2 := by simp
    rw [size]
    refine ⟨_, _, cutQuotes_of_two (closing.trans last_eq), ?_⟩
    have whole : (middle ++ last :: after).take (middle.length + 1) = middle ++ [last] := by
      rw [List.take_length_add_append, List.take_succ_cons, List.take_zero]
    rw [unquote_eq, opening]
    by_cases opened : head = quote
    · by_cases closed : last = quote
      · simp [opened, closed, next 1]
      · simp [opened, closed, next 1, whole]
    · by_cases closed : last = quote
      · simp [opened, closed, here]
      · simp [opened, closed, here, whole]

/-- What `find_section` makes of the text that the leftmost match captures. -/
theorem findSection_literal (key authenticate : List Byte) :
    findSection literalSearch key authenticate =
      match firstRun key authenticate with
      | none => .absent
      | some captured =>
          if captured = [quote] then .wrapped else .value (unquote captured) := by
  cases placed : place (Matches key) authenticate with
  | none => simp [findSection, literalSearch, firstRun, placed]
  | some index =>
      obtain ⟨after, split⟩ := drop_eq_run key authenticate index
      have captured := (matches_of_place placed).2
      simp only [findSection, literalSearch, firstRun, placed, Option.map_some]
      by_cases single : run key (authenticate.drop index) = [quote]
      · have quoted := charAt_run (List.length_pos_of_ne_nil captured)
        rw [single, List.getD_cons_zero] at quoted
        have failed : cutQuotes authenticate ⟨index + (key.length + 1),
            index + (key.length + 1) + 1⟩ = none := by
          simp [cutQuotes, charBefore, quoted, decrement]
        rw [if_pos single, single, List.length_singleton, failed]
      · obtain ⟨start, size, cut, value⟩ := cutQuotes_value captured single split
        rw [if_neg single, cut]
        simp only [value]

/-! ## The size does not wrap -/

/--
For every key and every search that Boost may make for it: the size of the value does not
wrap exactly when the group has captured a character for every quote that is cut off.  For
a literal key this is any text but one quote alone.
-/
theorem findSection_safe_iff {search : Search} (documented : Documented search)
    (key authenticate : List Byte) :
    (Safe search key authenticate ↔
      ∀ capture, search key authenticate = some capture → capture.Cuttable authenticate) ∧
    (search key authenticate = literalSearch key authenticate →
      (Safe search key authenticate ↔ firstRun key authenticate ≠ some [quote])) := by
  have safe : Safe search key authenticate ↔
      ∀ capture, search key authenticate = some capture → capture.Cuttable authenticate := by
    apply forall₂_congr
    rintro ⟨first, second⟩ found
    have ordered : first ≤ second := (documented _ _ _ found).1
    obtain ⟨distance, rfl⟩ := Nat.exists_eq_add_of_le ordered
    exact cutQuotes_iff authenticate first distance
  refine ⟨safe, fun literal => ?_⟩
  rw [safe, literal, literalSearch, firstRun]
  cases placed : place (Matches key) authenticate with
  | none => simp
  | some index =>
      simp only [Option.map_some, Option.some.injEq, forall_eq', ne_eq]
      exact cuttable_literal_iff placed

/-- The theorem at a challenge whose realm begins with a comma. -/
theorem findSection_safe_iff_comma :
    (Safe literalSearch (text "realm") (text "Digest realm=\",a\"") ↔
      ∀ capture, literalSearch (text "realm") (text "Digest realm=\",a\"") = some capture →
        capture.Cuttable (text "Digest realm=\",a\"")) ∧
    (Safe literalSearch (text "realm") (text "Digest realm=\",a\"") ↔
      firstRun (text "realm") (text "Digest realm=\",a\"") ≠ some [quote]) :=
  ⟨(findSection_safe_iff documented_literalSearch _ _).1,
    (findSection_safe_iff documented_literalSearch _ _).2 rfl⟩

/-- The group captures the quote before the comma, and the size wraps. -/
theorem findSection_wraps :
    ¬ ∀ search, Documented search → ∀ key authenticate, Safe search key authenticate := by
  intro claimed
  have safe := claimed literalSearch documented_literalSearch (text "realm")
    (text "Digest realm=\",a\"")
  obtain ⟨start, size, cut, -, -⟩ := safe ⟨13, 14⟩ (by decide)
  have none : cutQuotes (text "Digest realm=\",a\"") ⟨13, 14⟩ = none := by decide
  rw [none] at cut
  exact absurd cut (by simp)

end AsyncRuntime.Io.DigestAuthenticator
