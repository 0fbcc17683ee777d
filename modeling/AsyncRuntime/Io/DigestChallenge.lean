import AsyncRuntime.Io.DigestAuthenticator

/-!
# The parameters of a challenge

A challenge is a list of parameters, each with a token or with a quoted text.
`find_section` is meant to find the parameter with a given name.  The search knows
neither where a name begins nor where a quoted text ends: it stops at the first place
where the name and an equals sign stand, and it ends the value at the first comma.
-/

namespace AsyncRuntime.Io.DigestChallenge

open AsyncRuntime.Foundation.TextSearch
open AsyncRuntime.Io.DigestAuthenticator

/-! ## Challenges -/

/-- A token has none of the characters that separate. -/
structure IsToken (word : List Byte) : Prop where
  nonempty : word ≠ []
  no_comma : comma ∉ word
  no_space : space ∉ word
  no_equals : equals ∉ word
  no_quote : quote ∉ word

/-- The value of a parameter. -/
inductive Value where
  | token (word : List Byte) (valid : IsToken word)
  | quoted (content : List Byte) (valid : quote ∉ content)

/-- What the value stands for. -/
def Value.content : Value → List Byte
  | .token word _ => word
  | .quoted content _ => content

/-- How the value is written. -/
def Value.render : Value → List Byte
  | .token word _ => word
  | .quoted content _ => quote :: (content ++ [quote])

/-- `name=value` -/
structure Parameter where
  name : List Byte
  named : IsToken name
  value : Value

def Parameter.render (parameter : Parameter) : List Byte :=
  parameter.name ++ equals :: parameter.value.render

/-- A challenge with parameters of distinct names. -/
structure Challenge where
  parameters : List Parameter
  distinct : (parameters.map Parameter.name).Nodup

/-- The parameters with a comma and a space between them. -/
def joined : List Parameter → List Byte
  | [] => []
  | [last] => last.render
  | parameter :: rest => parameter.render ++ comma :: space :: joined rest

/-- The value of `WWW-Authenticate`. -/
def Challenge.render (challenge : Challenge) : List Byte :=
  text "Digest" ++ space :: joined challenge.parameters

/-- What is asked of `find_section`. -/
def Extracts (challenge : Challenge) (key : List Byte) : Prop :=
  (∃ parameter ∈ challenge.parameters, parameter.name = key ∧
    findSection literalSearch key challenge.render = .value parameter.value.content) ∨
  (∀ parameter ∈ challenge.parameters, parameter.name ≠ key) ∧
    findSection literalSearch key challenge.render = .absent

/-! ## Where the key stands -/

/-- Behind a place inside a quoted text there is a character other than a comma. -/
def HidesIn (key content : List Byte) : Prop :=
  ∃ rest, rest <:+ content ∧ key ++ [equals] <+: rest ∧
    (rest.drop (key.length + 1)).head? ≠ some comma

/-- The key is found in this parameter: at the end of its name or in its quoted text. -/
def Hides (key : List Byte) (parameter : Parameter) : Prop :=
  key <:+ parameter.name ∨
    ∃ content valid, parameter.value = .quoted content valid ∧ HidesIn key content

/-! ## The first place of the key -/

section

variable {key before after rest : List Byte}

theorem firstRun_of_matches (here : Matches key rest) :
    firstRun key rest = some (run key rest) := by
  rw [firstRun, place_of_holds here, Option.map_some, List.drop_zero]

/-- Nothing is captured in a part of a text in which the key does not stand. -/
theorem firstRun_append
    (clean : ∀ rest, rest ≠ [] → rest <:+ before → ¬ Matches key (rest ++ after)) :
    firstRun key (before ++ after) = firstRun key after := by
  rw [firstRun, place_append clean, Option.map_map, firstRun]
  congr 1
  funext index
  simp only [Function.comp_apply]
  rw [List.drop_length_add_append]

theorem firstRun_eq_none_iff :
    firstRun key after = none ↔ ∀ rest, rest <:+ after → ¬ Matches key rest := by
  rw [firstRun, Option.map_eq_none_iff, place_eq_none_iff]

/-- A token and an equals sign behind it have no other separator. -/
theorem not_mem_pattern {symbol : Byte} (absent : symbol ∉ key) (differs : symbol ≠ equals) :
    symbol ∉ key ++ [equals] := by
  rw [List.mem_append, List.mem_singleton]
  exact not_or.mpr ⟨absent, differs⟩

/-- The equals sign of the pattern is in every text that begins with it. -/
theorem equals_mem_of_key (here : key ++ [equals] <+: rest) : equals ∈ rest :=
  here.subset (List.mem_append_right key List.mem_cons_self)

/-- The key stands nowhere in a text without an equals sign before a separator. -/
theorem not_matches_before {symbol : Byte} (absent : symbol ∉ key) (differs : symbol ≠ equals)
    (plain : equals ∉ before) : ¬ Matches key (before ++ symbol :: after) := by
  rintro ⟨here, -⟩
  have inside := prefix_of_prefix_append_cons (not_mem_pattern absent differs) here
  exact plain (equals_mem_of_key inside)

/-- A key that stands before the equals sign of a parameter ends its name. -/
theorem suffix_of_reaches {left name : List Byte} (within : left <:+ name)
    (named : equals ∉ name) (plain : equals ∉ key)
    (here : key ++ [equals] <+: left ++ equals :: after) : key <:+ name := by
  have inside : key <+: left :=
    prefix_of_prefix_append_cons plain ((List.prefix_append key [equals]).trans here)
  obtain ⟨beyond, rfl⟩ := inside
  cases beyond with
  | nil =>
      rw [List.append_nil] at within
      exact within
  | cons first beyond =>
      rw [List.append_assoc, List.prefix_append_right_inj, List.cons_append,
        List.cons_prefix_cons] at here
      have member : equals ∈ name :=
        within.subset (List.mem_append_right key (here.1 ▸ List.mem_cons_self))
      exact absurd member named

/-- What stands behind a parameter: nothing, or a comma and more. -/
def Follows (after : List Byte) : Prop :=
  after = [] ∨ ∃ more, after = comma :: more

/-- In a token value the key does not stand. -/
theorem not_matches_token {word : List Byte} (valid : IsToken word) (keyed : IsToken key)
    (follows : Follows after) (within : rest <:+ word) : ¬ Matches key (rest ++ after) := by
  have plain : equals ∉ rest := fun member => valid.no_equals (within.subset member)
  rcases follows with rfl | ⟨more, rfl⟩
  · rintro ⟨here, -⟩
    rw [List.append_nil] at here
    exact plain (equals_mem_of_key here)
  · exact not_matches_before keyed.no_comma (by decide) plain

/-- In a quoted text the key stands only where the text hides it. -/
theorem not_matches_quoted {content : List Byte} (keyed : IsToken key)
    (clean : ¬ HidesIn key content) (nonempty : rest ≠ [])
    (within : rest <:+ quote :: (content ++ [quote])) : ¬ Matches key (rest ++ after) := by
  rintro ⟨here, captured⟩
  rcases List.suffix_cons_iff.mp within with rfl | inside
  · -- the opening quote is no character of the key
    obtain ⟨head, tail, rfl⟩ := List.exists_cons_of_ne_nil keyed.nonempty
    rw [List.cons_append, List.cons_append, List.cons_prefix_cons] at here
    exact keyed.no_quote (here.1 ▸ List.mem_cons_self)
  · obtain ⟨left, rfl, ended⟩ := (List.suffix_concat_iff.mp inside).resolve_left nonempty
    rw [List.append_assoc] at here captured
    have standing : key ++ [equals] <+: left :=
      prefix_of_prefix_append_cons (not_mem_pattern keyed.no_quote (by decide)) here
    refine clean ⟨left, ended, standing, fun stopped => captured ?_⟩
    have long := standing.length_le
    rw [List.length_append, List.length_singleton] at long
    rw [run, List.drop_append_of_le_length long]
    obtain ⟨more, split⟩ := List.head?_eq_some_iff.mp stopped
    rw [split, List.cons_append, List.takeWhile_cons_of_neg (by simp)]

/-- Nor does it stand in a parameter that does not hide it. -/
theorem not_matches_parameter {parameter : Parameter} (keyed : IsToken key)
    (unhidden : ¬ Hides key parameter) (follows : Follows after) (nonempty : rest ≠ [])
    (within : rest <:+ parameter.render) : ¬ Matches key (rest ++ after) := by
  rw [Hides, not_or] at unhidden
  rcases suffix_append_cases within with inside | ⟨left, ended, rfl⟩
  · rcases List.suffix_cons_iff.mp inside with rfl | inValue
    · -- the key is not empty
      rintro ⟨here, -⟩
      exact unhidden.1 (@suffix_of_reaches _ _ [] _ List.nil_suffix parameter.named.no_equals
        keyed.no_equals here)
    · cases shape : parameter.value with
      | token word valid =>
          rw [shape] at inValue
          exact not_matches_token valid keyed follows inValue
      | quoted content valid =>
          rw [shape] at inValue
          apply not_matches_quoted keyed _ nonempty inValue
          exact fun hidden => unhidden.2 ⟨content, valid, shape, hidden⟩
  · rintro ⟨here, -⟩
    rw [List.append_assoc] at here
    exact unhidden.1 (suffix_of_reaches ended parameter.named.no_equals keyed.no_equals here)

/-- Nor between two parameters. -/
theorem not_matches_between (keyed : IsToken key) (nonempty : rest ≠ [])
    (within : rest <:+ [comma, space]) : ¬ Matches key (rest ++ after) := by
  rcases List.suffix_cons_iff.mp within with rfl | inside
  · exact @not_matches_before _ [] _ _ keyed.no_comma (by decide) List.not_mem_nil
  · rcases List.suffix_cons_iff.mp inside with rfl | empty
    · exact @not_matches_before _ [] _ _ keyed.no_space (by decide) List.not_mem_nil
    · exact absurd (List.suffix_nil.mp empty) nonempty

/-- Nor in the name of the scheme. -/
theorem not_matches_scheme (keyed : IsToken key) (within : rest <:+ text "Digest ")
    (nonempty : rest ≠ []) : ¬ Matches key (rest ++ after) := by
  have split : text "Digest " = text "Digest" ++ [space] := by decide
  rw [split] at within
  obtain ⟨left, rfl, ended⟩ := (List.suffix_concat_iff.mp within).resolve_left nonempty
  rw [List.append_assoc]
  apply not_matches_before keyed.no_space (by decide)
  intro member
  exact absurd (ended.subset member) (by decide)

theorem joined_cons (parameter : Parameter) {rest : List Parameter} (more : rest ≠ []) :
    joined (parameter :: rest) = parameter.render ++ comma :: space :: joined rest := by
  obtain ⟨next, later, rfl⟩ := List.exists_cons_of_ne_nil more
  rfl

/-- Parameters that do not hide the key are passed over. -/
theorem firstRun_joined {earlier later : List Parameter} {parameter : Parameter}
    (keyed : IsToken key) (unhidden : ∀ other ∈ earlier, ¬ Hides key other) :
    firstRun key (joined (earlier ++ parameter :: later)) =
      firstRun key (joined (parameter :: later)) := by
  induction earlier with
  | nil => rfl
  | cons first earlier inductionHypothesis =>
      rw [List.forall_mem_cons] at unhidden
      rw [List.cons_append, joined_cons first (by simp), firstRun_append,
        show comma :: space :: joined (earlier ++ parameter :: later) =
          [comma, space] ++ joined (earlier ++ parameter :: later) from rfl,
        firstRun_append, inductionHypothesis unhidden.2]
      · intro rest nonempty within
        exact not_matches_between keyed nonempty within
      · intro rest nonempty within
        exact not_matches_parameter keyed unhidden.1 (.inr ⟨_, rfl⟩) nonempty within

/-- And so is the name of the scheme. -/
theorem firstRun_render {earlier later : List Parameter} {parameter : Parameter}
    {challenge : Challenge} (keyed : IsToken key)
    (split : challenge.parameters = earlier ++ parameter :: later)
    (unhidden : ∀ other ∈ earlier, ¬ Hides key other) :
    firstRun key challenge.render = firstRun key (joined (parameter :: later)) := by
  have scheme : challenge.render = text "Digest " ++ joined challenge.parameters := by
    rw [Challenge.render, show text "Digest " = text "Digest" ++ [space] by decide,
      List.append_assoc, List.singleton_append]
  rw [scheme, firstRun_append fun rest nonempty within =>
    not_matches_scheme keyed within nonempty, split, firstRun_joined keyed unhidden]

end

/-! ## What is captured there -/

section

variable {content captured after : List Byte}

/-- A text with a quote before it or behind it, or both, or neither. -/
def Spells (captured content : List Byte) : Prop :=
  ∃ opening closing, (opening = [] ∨ opening = [quote]) ∧ (closing = [] ∨ closing = [quote]) ∧
    captured = opening ++ content ++ closing

theorem getLast?_ne_quote (plain : quote ∉ content) : content.getLast? ≠ some quote :=
  fun ended => plain (List.mem_of_getLast? ended)

theorem head?_ne_quote (plain : quote ∉ content) : content.head? ≠ some quote :=
  fun begun => plain (List.mem_of_head? begun)

theorem unquote_plain (plain : quote ∉ content) : unquote content = content := by
  simp only [unquote, if_neg (head?_ne_quote plain), if_neg (getLast?_ne_quote plain)]

theorem unquote_opened (plain : quote ∉ content) : unquote (quote :: content) = content := by
  simp only [unquote, List.head?_cons, if_true, List.tail_cons,
    if_neg (getLast?_ne_quote plain)]

theorem unquote_quoted (content : List Byte) :
    unquote (quote :: (content ++ [quote])) = content := by
  rw [unquote_eq]
  simp

theorem unquote_closed (plain : quote ∉ content) (nonempty : content ≠ []) :
    unquote (content ++ [quote]) = content := by
  have begun : (content ++ [quote]).head? ≠ some quote := by
    rw [List.head?_append_of_ne_nil _ nonempty]
    exact head?_ne_quote plain
  simp only [unquote, if_neg begun, List.getLast?_concat, if_true, List.dropLast_concat]

/-- The value is the content exactly when the captured text spells it. -/
theorem unquote_eq_iff (plain : quote ∉ content) (nonempty : captured ≠ [])
    (several : captured ≠ [quote]) : unquote captured = content ↔ Spells captured content := by
  constructor
  · rintro rfl
    obtain ⟨head, tail, rfl⟩ := List.exists_cons_of_ne_nil nonempty
    rcases List.eq_nil_or_concat tail with rfl | ⟨middle, last, rfl⟩
    · have single : head ≠ quote := fun same => several (same ▸ rfl)
      exact ⟨[], [], .inl rfl, .inl rfl, by simp [unquote, single]⟩
    · rw [List.concat_eq_append, unquote_eq]
      refine ⟨if head = quote then [quote] else [], if last = quote then [quote] else [],
        ?_, ?_, ?_⟩
      · split <;> simp
      · split <;> simp
      · split <;> split <;> simp [*]
  · rintro ⟨opening, closing, rfl | rfl, rfl | rfl, rfl⟩
    · rw [List.nil_append, List.append_nil]
      exact unquote_plain plain
    · rw [List.nil_append] at several ⊢
      apply unquote_closed plain
      rintro rfl
      exact several rfl
    · rw [List.append_nil]
      exact unquote_opened plain
    · exact unquote_quoted content

/-- The content of a value has no quote. -/
theorem Value.quote_not_mem_content (value : Value) : quote ∉ value.content := by
  cases value with
  | token word valid => exact valid.no_quote
  | quoted content valid => exact valid

/-- What follows a parameter does not belong to what is captured in it. -/
theorem takeWhile_append_follows (follows : Follows after) (value : List Byte) :
    (value ++ after).takeWhile (· ≠ comma) = value.takeWhile (· ≠ comma) := by
  rcases follows with rfl | ⟨more, rfl⟩
  · rw [List.append_nil]
  · induction value with
    | nil => simp
    | cons first rest inductionHypothesis =>
        rw [List.cons_append, List.takeWhile_cons, List.takeWhile_cons, inductionHypothesis]

/--
At the parameter with this name the value is extracted exactly when it has no comma.
-/
theorem value_extracted_iff (value : Value) :
    ((value.render.takeWhile (· ≠ comma) ≠ [quote] ∧
        unquote (value.render.takeWhile (· ≠ comma)) = value.content) ↔
      comma ∉ value.content) := by
  cases value with
  | token word valid =>
      have captured := takeWhile_of_absent valid.no_comma
      have single : word ≠ [quote] := by
        rintro rfl
        exact valid.no_quote List.mem_cons_self
      simp only [Value.render, Value.content, captured, ne_eq, single, not_false_eq_true,
        unquote_plain valid.no_quote, and_self, valid.no_comma]
  | quoted content valid =>
      have opened : (quote :: (content ++ [quote])).takeWhile (· ≠ comma) =
          quote :: (content ++ [quote]).takeWhile (· ≠ comma) :=
        List.takeWhile_cons_of_pos (by decide)
      simp only [Value.render, Value.content, opened]
      constructor
      · rintro ⟨-, same⟩ member
        -- the captured text ends before the comma
        have stopped : (content ++ [quote]).takeWhile (· ≠ comma) =
            content.takeWhile (· ≠ comma) := by
          obtain ⟨before, more, rfl⟩ := List.append_of_mem member
          rw [List.append_assoc, List.cons_append,
            takeWhile_append_follows (.inr ⟨_, rfl⟩), takeWhile_append_follows (.inr ⟨_, rfl⟩)]
        have plain : quote ∉ content.takeWhile (· ≠ comma) := fun inside =>
          valid ((List.takeWhile_prefix _).subset inside)
        rw [stopped, unquote_opened plain] at same
        rw [← same] at member
        exact absurd member not_mem_takeWhile
      · intro clean
        have whole : comma ∉ content ++ [quote] := by
          rw [List.mem_append, List.mem_singleton]
          exact not_or.mpr ⟨clean, by decide⟩
        rw [takeWhile_of_absent whole]
        exact ⟨by simp, unquote_quoted content⟩

end

/-! ## When the parameter is extracted -/

/-- The conditions under which `find_section` finds what it is meant to find. -/
inductive Clear (challenge : Challenge) (key : List Byte) : Prop where
  /-- The key stands nowhere with an equals sign and a character other than a comma. -/
  | nowhere (absent : ∀ rest, rest <:+ challenge.render → ¬ Matches key rest)
  /-- No earlier parameter hides the key, and the content of its own has no comma. -/
  | first (earlier : List Parameter) (parameter : Parameter) (later : List Parameter)
      (split : challenge.parameters = earlier ++ parameter :: later)
      (named : parameter.name = key) (unhidden : ∀ other ∈ earlier, ¬ Hides key other)
      (clean : comma ∉ parameter.value.content)
  /-- The key is hidden by an earlier parameter, but the same content stands there. -/
  | coincidence (earlier : List Parameter) (parameter : Parameter) (later : List Parameter)
      (captured : List Byte) (split : challenge.parameters = earlier ++ parameter :: later)
      (named : parameter.name = key) (hidden : ∃ other ∈ earlier, Hides key other)
      (found : firstRun key challenge.render = some captured) (several : captured ≠ [quote])
      (spelled : Spells captured parameter.value.content)

section

variable {challenge : Challenge} {key : List Byte}

theorem captured_ne_nil {captured authenticate : List Byte}
    (found : firstRun key authenticate = some captured) : captured ≠ [] := by
  rw [firstRun, Option.map_eq_some_iff] at found
  obtain ⟨index, placed, rfl⟩ := found
  exact (matches_of_place placed).2

theorem findSection_eq_absent_iff (authenticate : List Byte) :
    findSection literalSearch key authenticate = .absent ↔ firstRun key authenticate = none := by
  rw [findSection_literal]
  cases firstRun key authenticate with
  | none => simp
  | some captured => simp only [reduceCtorEq, iff_false]; split <;> simp

theorem findSection_eq_value_iff {authenticate content : List Byte} :
    findSection literalSearch key authenticate = .value content ↔
      ∃ captured, firstRun key authenticate = some captured ∧ captured ≠ [quote] ∧
        unquote captured = content := by
  rw [findSection_literal]
  cases firstRun key authenticate with
  | none => simp
  | some captured =>
      by_cases single : captured = [quote]
      · simp [single]
      · simp [single]

/-- At the beginning of a parameter with this name its value is captured. -/
theorem firstRun_joined_self {parameter : Parameter} {later : List Parameter}
    (named : parameter.name = key) :
    firstRun key (joined (parameter :: later)) =
      some (parameter.value.render.takeWhile (· ≠ comma)) := by
  obtain ⟨after, follows, split⟩ : ∃ after, Follows after ∧
      joined (parameter :: later) = key ++ [equals] ++ (parameter.value.render ++ after) := by
    cases later with
    | nil =>
        refine ⟨[], .inl rfl, ?_⟩
        rw [joined, Parameter.render, named, List.append_nil, List.append_assoc]
        rfl
    | cons next later =>
        refine ⟨comma :: space :: joined (next :: later), .inr ⟨_, rfl⟩, ?_⟩
        rw [joined_cons parameter (by simp), Parameter.render, named, List.append_assoc,
          List.append_assoc]
        rfl
  have captured : run key (joined (parameter :: later)) =
      parameter.value.render.takeWhile (· ≠ comma) := by
    have long : (key ++ [equals]).length = key.length + 1 := by simp
    rw [run, split, ← long, List.drop_left, takeWhile_append_follows follows]
  have nonempty : parameter.value.render.takeWhile (· ≠ comma) ≠ [] := by
    cases shape : parameter.value with
    | token word valid =>
        rw [Value.render, takeWhile_of_absent valid.no_comma]
        exact valid.nonempty
    | quoted content valid =>
        rw [Value.render, List.takeWhile_cons_of_pos (by decide)]
        exact List.cons_ne_nil _ _
  rw [← captured]
  apply firstRun_of_matches
  refine ⟨?_, captured ▸ nonempty⟩
  rw [split]
  exact List.prefix_append _ _

/-- A parameter with this name makes the key stand somewhere. -/
theorem firstRun_ne_none {parameter : Parameter} (member : parameter ∈ challenge.parameters)
    (named : parameter.name = key) : firstRun key challenge.render ≠ none := by
  obtain ⟨earlier, later, split⟩ := List.append_of_mem member
  have keyed : IsToken key := named ▸ parameter.named
  rw [Ne, firstRun_eq_none_iff]
  intro absent
  have within : joined (parameter :: later) <:+ challenge.render := by
    have inside : joined (parameter :: later) <:+ joined challenge.parameters := by
      rw [split]
      clear split member
      induction earlier with
      | nil => exact List.suffix_rfl
      | cons first earlier inductionHypothesis =>
          rw [List.cons_append, joined_cons first (by simp)]
          exact inductionHypothesis.trans
            ((List.suffix_append [comma, space] _).trans (List.suffix_append _ _))
    exact inside.trans ((List.suffix_cons _ _).trans (List.suffix_append _ _))
  have none := firstRun_eq_none_iff.mpr fun rest inside => absent rest (inside.trans within)
  rw [firstRun_joined_self named] at none
  exact absurd none (by simp)

/--
`find_section` extracts the parameter exactly when the key stands nowhere, or first at a
parameter of this name whose content has no comma, or first in another one that spells
the same content.
-/
theorem extracts_iff_clear (challenge : Challenge) (key : List Byte) :
    Extracts challenge key ↔ Clear challenge key := by
  constructor
  · rintro (⟨parameter, member, named, extracted⟩ | ⟨unnamed, absent⟩)
    · obtain ⟨earlier, later, split⟩ := List.append_of_mem member
      obtain ⟨captured, found, several, value⟩ := findSection_eq_value_iff.mp extracted
      by_cases unhidden : ∀ other ∈ earlier, ¬ Hides key other
      · have keyed : IsToken key := named ▸ parameter.named
        refine .first earlier parameter later split named unhidden ?_
        rw [firstRun_render keyed split unhidden, firstRun_joined_self named] at found
        cases found
        exact (value_extracted_iff parameter.value).mp ⟨several, value⟩
      · push Not at unhidden
        refine .coincidence earlier parameter later captured split named unhidden found several ?_
        exact (unquote_eq_iff parameter.value.quote_not_mem_content (captured_ne_nil found)
          several).mp value
    · exact .nowhere (firstRun_eq_none_iff.mp ((findSection_eq_absent_iff _).mp absent))
  · rintro (absent | ⟨earlier, parameter, later, split, named, unhidden, clean⟩ |
      ⟨earlier, parameter, later, captured, split, named, _, found, several, spelled⟩)
    · have none := firstRun_eq_none_iff.mpr absent
      refine .inr ⟨fun parameter member named => firstRun_ne_none member named none, ?_⟩
      exact (findSection_eq_absent_iff _).mpr none
    · have keyed : IsToken key := named ▸ parameter.named
      have member : parameter ∈ challenge.parameters := by
        rw [split]
        exact List.mem_append_right _ List.mem_cons_self
      obtain ⟨several, value⟩ := (value_extracted_iff parameter.value).mpr clean
      refine .inl ⟨parameter, member, named, findSection_eq_value_iff.mpr ⟨_, ?_, several, value⟩⟩
      rw [firstRun_render keyed split unhidden, firstRun_joined_self named]
    · have member : parameter ∈ challenge.parameters := by
        rw [split]
        exact List.mem_append_right _ List.mem_cons_self
      have value := (unquote_eq_iff parameter.value.quote_not_mem_content
        (captured_ne_nil found) several).mpr spelled
      exact .inl ⟨parameter, member, named,
        findSection_eq_value_iff.mpr ⟨captured, found, several, value⟩⟩

end

/-! ## The header that is produced -/

/-- What is asked of `generate_authorization`: its hashes and its header are the server's. -/
structure Answers (challenge : Challenge) (digest : List Byte → List Byte)
    (authenticator done : Authenticator) : Prop where
  ha1 : ∀ realm ∈ challenge.parameters, realm.name = text "realm" →
    done.ha1 = digest (ha1Text authenticator.username realm.value.content authenticator.password)
  response : ∀ nonce ∈ challenge.parameters, nonce.name = text "nonce" →
    done.response = digest (responseText done.ha1 nonce.value.content done.nonceCount
      done.cnonce done.ha2)
  authorization : ∀ realm ∈ challenge.parameters, realm.name = text "realm" →
    ∀ nonce ∈ challenge.parameters, nonce.name = text "nonce" →
      done.authorization = authorizationText authenticator.username realm.value.content
        nonce.value.content authenticator.uri done.nonceCount done.cnonce done.response

section

variable {challenge : Challenge} {key : List Byte}

/-- Parameters with one name are one parameter. -/
theorem eq_of_name_eq {left right : Parameter} (leftIn : left ∈ challenge.parameters)
    (rightIn : right ∈ challenge.parameters) (same : left.name = right.name) : left = right :=
  List.inj_on_of_nodup_map challenge.distinct leftIn rightIn same

/-- The parameter with the name of the key is the one that is extracted. -/
theorem Extracts.value (extracts : Extracts challenge key) {parameter : Parameter}
    (member : parameter ∈ challenge.parameters) (named : parameter.name = key) :
    findSection literalSearch key challenge.render = .value parameter.value.content := by
  rcases extracts with ⟨other, otherIn, otherNamed, extracted⟩ | ⟨unnamed, -⟩
  · rw [eq_of_name_eq member otherIn (named.trans otherNamed.symm)]
    exact extracted
  · exact absurd named (unnamed parameter member)

/-- With both parameters extracted, the answer is made of them. -/
theorem generateAuthorization_answers {digest : List Byte → List Byte}
    {authenticator : Authenticator} {realm nonce : Parameter}
    (given : authenticator.authenticate = challenge.render)
    (realmIn : realm ∈ challenge.parameters) (realmNamed : realm.name = text "realm")
    (nonceIn : nonce ∈ challenge.parameters) (nonceNamed : nonce.name = text "nonce")
    (realmExtracted : Extracts challenge (text "realm"))
    (nonceExtracted : Extracts challenge (text "nonce")) :
    ∃ done, authenticator.generateAuthorization literalSearch digest = some (done, true) ∧
      Answers challenge digest authenticator done := by
  have realmFound := realmExtracted.value realmIn realmNamed
  have nonceFound := nonceExtracted.value nonceIn nonceNamed
  have generated : authenticator.generateAuthorization literalSearch digest =
      some (({ authenticator with
        nonce := nonce.value.content
        realm := realm.value.content } : Authenticator).finish digest true, true) := by
    simp [Authenticator.generateAuthorization, Authenticator.findNonce, Authenticator.findRealm,
      given, realmFound, nonceFound]
  refine ⟨_, generated, ?_, ?_, ?_⟩
  · intro other otherIn named
    rw [eq_of_name_eq otherIn realmIn (named.trans realmNamed.symm)]
    rfl
  · intro other otherIn named
    rw [eq_of_name_eq otherIn nonceIn (named.trans nonceNamed.symm)]
    rfl
  · intro other otherIn named another anotherIn anotherNamed
    rw [eq_of_name_eq otherIn realmIn (named.trans realmNamed.symm),
      eq_of_name_eq anotherIn nonceIn (anotherNamed.trans nonceNamed.symm)]
    rfl

end

/--
For every challenge and every key `find_section` extracts the parameter with this name
exactly under the stated conditions; and when they hold of the realm and of the nonce, the
hashes and the header are made of the realm and the nonce of the server.
-/
theorem extracts_iff (challenge : Challenge) :
    (∀ key, Extracts challenge key ↔ Clear challenge key) ∧
    ∀ (digest : List Byte → List Byte) (authenticator : Authenticator),
      authenticator.authenticate = challenge.render →
      ∀ realm ∈ challenge.parameters, realm.name = text "realm" →
      ∀ nonce ∈ challenge.parameters, nonce.name = text "nonce" →
      Clear challenge (text "realm") → Clear challenge (text "nonce") →
      ∃ done, authenticator.generateAuthorization literalSearch digest = some (done, true) ∧
        Answers challenge digest authenticator done := by
  refine ⟨extracts_iff_clear challenge, ?_⟩
  intro digest authenticator given realm realmIn realmNamed nonce nonceIn nonceNamed realmClear
    nonceClear
  exact generateAuthorization_answers given realmIn realmNamed nonceIn nonceNamed
    ((extracts_iff_clear challenge _).mpr realmClear)
    ((extracts_iff_clear challenge _).mpr nonceClear)

/-- A parameter with a quoted text. -/
def quotedParameter (name content : List Byte) (named : IsToken name)
    (valid : quote ∉ content) : Parameter :=
  ⟨name, named, .quoted content valid⟩

theorem isToken_realm : IsToken (text "realm") :=
  ⟨by decide, by decide, by decide, by decide, by decide⟩

theorem isToken_nonce : IsToken (text "nonce") :=
  ⟨by decide, by decide, by decide, by decide, by decide⟩

/-- `Digest realm="..", nonce=".."` -/
def sampleChallenge (realm nonce : List Byte) (realmValid : quote ∉ realm)
    (nonceValid : quote ∉ nonce) : Challenge :=
  ⟨[quotedParameter (text "realm") realm isToken_realm realmValid,
    quotedParameter (text "nonce") nonce isToken_nonce nonceValid], by
    simp only [quotedParameter, List.map_cons, List.map_nil]
    decide⟩

/-- The theorem at a challenge with a realm and a nonce. -/
theorem extracts_iff_sample :
    (Extracts (sampleChallenge (text "a") (text "b") (by decide) (by decide)) (text "qop") ↔
      Clear (sampleChallenge (text "a") (text "b") (by decide) (by decide)) (text "qop")) ∧
    ∃ done, (⟨(sampleChallenge (text "a") (text "b") (by decide) (by decide)).render, [], [], [],
        [], [], [], [], [], [], [], [], []⟩ : Authenticator).generateAuthorization
          literalSearch id = some (done, true) ∧
      Answers (sampleChallenge (text "a") (text "b") (by decide) (by decide)) id
        ⟨(sampleChallenge (text "a") (text "b") (by decide) (by decide)).render, [], [], [], [],
          [], [], [], [], [], [], [], []⟩ done := by
  have short : ¬ Hides (text "nonce")
      (quotedParameter (text "realm") (text "a") isToken_realm (by decide)) := by
    rintro (ended | ⟨content, valid, same, rest, within, here, -⟩)
    · revert ended
      decide
    · cases same
      have fits := here.length_le.trans within.length_le
      revert fits
      decide
  refine ⟨(extracts_iff _).1 _, (extracts_iff (sampleChallenge (text "a") (text "b") (by decide)
    (by decide))).2 id _ rfl _ List.mem_cons_self rfl _ (List.mem_cons_of_mem _ List.mem_cons_self)
    rfl (.first [] _ _ rfl rfl (by simp) (by decide)) (.first [_] _ [] rfl rfl ?_ (by decide))⟩
  rw [List.forall_mem_singleton]
  exact short

/-- A realm with a comma is cut at the comma. -/
theorem realm_cut_at_comma : ¬ ∀ challenge key, Extracts challenge key := by
  intro claimed
  rcases claimed (sampleChallenge (text "a,b") (text "c") (by decide) (by decide))
    (text "realm") with ⟨parameter, member, named, extracted⟩ | ⟨unnamed, -⟩
  · have found : findSection literalSearch (text "realm")
        (sampleChallenge (text "a,b") (text "c") (by decide) (by decide)).render =
          .value (text "a") := by
      decide
    rw [found] at extracted
    rcases List.mem_cons.mp member with rfl | later
    · revert extracted
      decide
    · cases List.mem_singleton.mp later
      revert named
      decide
  · exact unnamed _ List.mem_cons_self rfl

end AsyncRuntime.Io.DigestChallenge
