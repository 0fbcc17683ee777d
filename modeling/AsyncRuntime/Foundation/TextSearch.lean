import Mathlib.Data.List.Infix
import Mathlib.Data.List.TakeWhile
import Mathlib.Tactic.Common

/-!
# Searching and cutting texts

`place` is the first place of a text behind which the rest has a property; `find` is the
first place of a pattern.  `cut` takes the piece before the first delimiter off a text,
and `pieces` are all pieces that cutting yields; a delimiter at the end of the text does
not begin another piece.
-/

namespace AsyncRuntime.Foundation.TextSearch

universe u

variable {Symbol : Type u}

/-! ## The first place of something -/

section Place

variable (holds : List Symbol → Prop) [DecidablePred holds]

/-- The first place from which on the rest of the text has a property. -/
def place : List Symbol → Option ℕ
  | [] => if holds [] then some 0 else none
  | symbol :: rest =>
      if holds (symbol :: rest) then some 0 else (place rest).map (· + 1)

variable {holds} {text : List Symbol} {index : ℕ}

theorem place_of_holds (here : holds text) : place holds text = some 0 := by
  cases text with
  | nil => rw [place, if_pos here]
  | cons symbol rest => rw [place, if_pos here]

/-- The rest has the property at the place, and at no place before it. -/
theorem place_eq_some_iff :
    place holds text = some index ↔
      index ≤ text.length ∧ holds (text.drop index) ∧
        ∀ earlier < index, ¬ holds (text.drop earlier) := by
  induction text generalizing index with
  | nil =>
      rw [place]
      split
      · rename_i here
        simp only [Option.some.injEq, List.length_nil, Nat.le_zero, List.drop_nil, here,
          not_true_eq_false, imp_false, true_and]
        constructor
        · rintro rfl
          exact ⟨rfl, fun earlier => Nat.not_lt_zero earlier⟩
        · exact fun both => both.1.symm
      · rename_i absent
        simp [absent]
  | cons symbol rest inductionHypothesis =>
      by_cases here : holds (symbol :: rest)
      · rw [place_of_holds here]
        constructor
        · rintro ⟨rfl⟩
          exact ⟨Nat.zero_le _, here, fun earlier bound => absurd bound (Nat.not_lt_zero _)⟩
        · rintro ⟨_, _, first⟩
          cases index with
          | zero => rfl
          | succ index => exact absurd here (first 0 (Nat.succ_pos index))
      · rw [place, if_neg here, Option.map_eq_some_iff]
        constructor
        · rintro ⟨index, found, rfl⟩
          obtain ⟨bound, there, first⟩ := inductionHypothesis.mp found
          refine ⟨Nat.succ_le_succ bound, there, ?_⟩
          intro earlier before
          cases earlier with
          | zero => exact here
          | succ earlier => exact first earlier (Nat.lt_of_succ_lt_succ before)
        · rintro ⟨bound, there, first⟩
          cases index with
          | zero => exact absurd there here
          | succ index =>
              exact ⟨index, inductionHypothesis.mpr ⟨Nat.le_of_succ_le_succ bound, there,
                fun earlier before => first (earlier + 1) (Nat.succ_lt_succ before)⟩, rfl⟩

/-- Nothing is found in the part of a text in which no rest has the property. -/
theorem place_append {before after : List Symbol}
    (clean : ∀ rest, rest ≠ [] → rest <:+ before → ¬ holds (rest ++ after)) :
    place holds (before ++ after) = (place holds after).map (before.length + ·) := by
  induction before with
  | nil => simp
  | cons symbol before inductionHypothesis =>
      have absent : ¬ holds (symbol :: (before ++ after)) :=
        clean (symbol :: before) (List.cons_ne_nil _ _) List.suffix_rfl
      have later := inductionHypothesis fun rest nonempty within =>
        clean rest nonempty (within.trans (List.suffix_cons symbol before))
      rw [List.cons_append, place, if_neg absent, later, Option.map_map]
      congr 1
      funext index
      simp only [Function.comp_apply, List.length_cons]
      omega

/-- No rest of the text has the property. -/
theorem place_eq_none_iff : place holds text = none ↔ ∀ rest, rest <:+ text → ¬ holds rest := by
  induction text with
  | nil =>
      rw [place]
      split <;> simp [*]
  | cons symbol rest inductionHypothesis =>
      rw [place]
      split
      · rename_i here
        simp only [reduceCtorEq, false_iff]
        exact fun absent => absent _ List.suffix_rfl here
      · rename_i absent
        rw [Option.map_eq_none_iff, inductionHypothesis]
        simp only [List.suffix_cons_iff, forall_eq_or_imp, absent, not_false_eq_true, true_and]

end Place

/-! ## Prefixes and suffixes of a text of two parts -/

/-- A word without a symbol ends before the symbol. -/
theorem prefix_of_prefix_append_cons {word before after : List Symbol} {symbol : Symbol}
    (absent : symbol ∉ word) (here : word <+: before ++ symbol :: after) : word <+: before := by
  rcases List.prefix_or_prefix_of_prefix here (List.prefix_append before (symbol :: after))
    with inside | ⟨beyond, rfl⟩
  · exact inside
  · rw [List.prefix_append_right_inj] at here
    cases beyond with
    | nil => rw [List.append_nil]
    | cons first beyond =>
        rw [List.cons_prefix_cons] at here
        exact absurd (List.mem_append_right before (here.1 ▸ List.mem_cons_self)) absent

/-- A rest of two parts is a rest of the second, or has all of it. -/
theorem suffix_append_cases {rest before after : List Symbol} (within : rest <:+ before ++ after) :
    rest <:+ after ∨ ∃ left, left <:+ before ∧ rest = left ++ after := by
  rcases List.suffix_or_suffix_of_suffix within (List.suffix_append before after)
    with inside | ⟨left, rfl⟩
  · exact .inl inside
  · exact .inr ⟨left, List.suffix_append_self_iff.mp within, rfl⟩

variable [DecidableEq Symbol]

/-! ## The text before a symbol -/

section Before

variable {symbol : Symbol} {before after : List Symbol}

theorem differ_of_absent (absent : symbol ∉ before) :
    ∀ other ∈ before, decide (other ≠ symbol) = true := by
  intro other member
  exact decide_eq_true fun same => absent (same ▸ member)

theorem takeWhile_of_absent (absent : symbol ∉ before) :
    before.takeWhile (· ≠ symbol) = before :=
  List.takeWhile_eq_self_iff.mpr (differ_of_absent absent)

/-- What is taken ends where the text ends or the symbol stands. -/
theorem takeWhile_append_of_stops (absent : symbol ∉ before)
    (stops : after = [] ∨ after.head? = some symbol) :
    (before ++ after).takeWhile (· ≠ symbol) = before := by
  rw [List.takeWhile_append_of_pos (differ_of_absent absent)]
  rcases stops with rfl | stops
  · rw [List.takeWhile_nil, List.append_nil]
  · obtain ⟨rest, rfl⟩ := List.head?_eq_some_iff.mp stops
    rw [List.takeWhile_cons_of_neg (by simp), List.append_nil]

theorem not_mem_takeWhile : symbol ∉ before.takeWhile (· ≠ symbol) := by
  intro member
  simpa using List.mem_takeWhile_imp member

end Before

/-! ## The first place of a pattern -/

/-- The first place at which the pattern stands in the text. -/
def find (pattern text : List Symbol) : Option ℕ :=
  place (pattern <+: ·) text

variable {pattern text rest : List Symbol} {index : ℕ}

theorem find_of_leads (here : pattern <+: text) : find pattern text = some 0 :=
  place_of_holds here

theorem find_cons_of_absent {symbol : Symbol} (absent : ¬ pattern <+: symbol :: rest) :
    find pattern (symbol :: rest) = (find pattern rest).map (· + 1) := by
  rw [find, place, if_neg absent]
  rfl

/-- The place is one of the pattern, and there is none before it. -/
theorem find_eq_some_iff :
    find pattern text = some index ↔
      index ≤ text.length ∧ pattern <+: text.drop index ∧
        ∀ earlier < index, ¬ pattern <+: text.drop earlier :=
  place_eq_some_iff

/-- The pattern ends inside the text. -/
theorem add_length_le_of_find (found : find pattern text = some index) :
    index + pattern.length ≤ text.length := by
  obtain ⟨bound, here, -⟩ := find_eq_some_iff.mp found
  have fits := here.length_le
  rw [List.length_drop] at fits
  omega

/-- A text without the pattern. -/
theorem find_eq_none_iff : find pattern text = none ↔ ¬ pattern <:+: text := by
  rw [find, place_eq_none_iff]
  constructor
  · rintro absent ⟨before, after, split⟩
    apply absent (pattern ++ after) ⟨before, by rw [← List.append_assoc, split]⟩
    exact List.prefix_append pattern after
  · rintro absent rest later here
    exact absent (here.isInfix.trans later.isInfix)

theorem find_isSome_iff : (find pattern text).isSome ↔ pattern <:+: text := by
  rw [← not_iff_not, Option.not_isSome_iff_eq_none]
  exact find_eq_none_iff

/-- The place of a symbol is where the symbols that differ from it end. -/
theorem find_singleton {symbol : Symbol} (member : symbol ∈ text) :
    find [symbol] text = some (text.takeWhile (· ≠ symbol)).length := by
  induction text with
  | nil => exact absurd member List.not_mem_nil
  | cons first rest inductionHypothesis =>
      by_cases here : first = symbol
      · subst here
        have here : [first] <+: first :: rest := ⟨rest, rfl⟩
        rw [find_of_leads here, List.takeWhile_cons_of_neg (by simp)]
        rfl
      · have absent : ¬ [symbol] <+: first :: rest := by
          rw [List.cons_prefix_cons]
          exact fun both => here both.1.symm
        have later : symbol ∈ rest := (List.mem_cons.mp member).resolve_left (Ne.symm here)
        rw [find_cons_of_absent absent, inductionHypothesis later,
          List.takeWhile_cons_of_pos (by simpa using here)]
        rfl

/-- The first place in the first part of a text is the first place in the text. -/
theorem find_append_of_find {before after : List Symbol}
    (found : find pattern before = some index) :
    find pattern (before ++ after) = some index := by
  obtain ⟨bound, here, first⟩ := find_eq_some_iff.mp found
  have fits := add_length_le_of_find found
  refine find_eq_some_iff.mpr ⟨?_, ?_, ?_⟩
  · rw [List.length_append]
    omega
  · rw [List.drop_append_of_le_length bound]
    exact here.trans (List.prefix_append _ _)
  · intro earlier lower standing
    rw [List.drop_append_of_le_length (by omega)] at standing
    refine first earlier lower ?_
    refine List.prefix_of_prefix_length_le standing (List.prefix_append _ _) ?_
    rw [List.length_drop]
    omega

/-- A symbol that is not in the pattern separates the places of the pattern. -/
theorem find_append_cons {symbol : Symbol} {before after : List Symbol} (absent : symbol ∉ pattern)
    (clean : ¬ pattern <:+: before) :
    find pattern (before ++ symbol :: after) =
      (find pattern after).map (before.length + 1 + ·) := by
  have split : before ++ symbol :: after = (before ++ [symbol]) ++ after := by simp
  rw [split, find, place_append, List.length_append, List.length_singleton]
  · rfl
  · intro rest nonempty within standing
    rcases suffix_append_cases within with last | ⟨left, inside, rfl⟩
    · rcases List.suffix_cons_iff.mp last with rfl | empty
      · have inside : pattern <+: [] ++ symbol :: after := standing
        have none := List.prefix_nil.mp (prefix_of_prefix_append_cons absent inside)
        subst none
        exact clean (List.nil_infix)
      · exact nonempty (List.suffix_nil.mp empty)
    · rw [List.append_assoc] at standing
      have here : pattern <+: left := prefix_of_prefix_append_cons absent standing
      exact clean (here.isInfix.trans inside.isInfix)

/-! ## Pieces -/

/-- The piece before the first delimiter, and what is behind the delimiter. -/
def cut (delimiter : Symbol) (text : List Symbol) : Option (List Symbol × List Symbol) :=
  if text = [] then none
  else some (text.takeWhile (· ≠ delimiter), (text.dropWhile (· ≠ delimiter)).drop 1)

variable {delimiter : Symbol} {piece : List Symbol}

theorem cut_nil : cut delimiter ([] : List Symbol) = none := by
  rw [cut, if_pos rfl]

/-- Cutting makes a text shorter. -/
theorem length_lt_of_cut (done : cut delimiter text = some (piece, rest)) :
    rest.length < text.length := by
  rw [cut] at done
  split at done
  · exact absurd done (by simp)
  · rename_i nonempty
    cases Option.some.inj done
    have positive := List.length_pos_of_ne_nil nonempty
    have bound := List.length_dropWhile_le (fun symbol => decide (symbol ≠ delimiter)) text
    rw [List.length_drop]
    omega

theorem cut_append (clean : delimiter ∉ piece) :
    cut delimiter (piece ++ delimiter :: rest) = some (piece, rest) := by
  rw [cut, if_neg (by simp), takeWhile_append_of_stops clean (.inr rfl),
    List.dropWhile_append_of_pos (differ_of_absent clean),
    List.dropWhile_cons_of_neg (by simp), List.drop_one, List.tail_cons]

theorem cut_last (nonempty : piece ≠ []) (clean : delimiter ∉ piece) :
    cut delimiter piece = some (piece, []) := by
  rw [cut, if_neg nonempty, takeWhile_of_absent clean,
    List.dropWhile_eq_nil_iff.mpr (differ_of_absent clean), List.drop_nil]

/-- All pieces of a text. -/
def pieces (delimiter : Symbol) (text : List Symbol) : List (List Symbol) :=
  match _done : cut delimiter text with
  | none => []
  | some (piece, rest) => piece :: pieces delimiter rest
termination_by text.length
decreasing_by
  exact length_lt_of_cut (by assumption)

theorem pieces_of_cut (done : cut delimiter text = some (piece, rest)) :
    pieces delimiter text = piece :: pieces delimiter rest := by
  rw [pieces]
  split
  · rename_i other
    rw [done] at other
    exact absurd other (by simp)
  · rename_i other
    rw [done] at other
    cases other
    rfl

theorem pieces_of_cut_none (done : cut delimiter text = none) : pieces delimiter text = [] := by
  rw [pieces]
  split
  · rfl
  · rename_i other
    rw [done] at other
    exact absurd other (by simp)

/-- A text is the piece that is cut off, and the rest behind a delimiter if there is one. -/
theorem text_of_cut (done : cut delimiter text = some (piece, rest)) :
    delimiter ∉ piece ∧ (text = piece ++ delimiter :: rest ∨ text = piece ∧ rest = []) := by
  rw [cut] at done
  split at done
  · cases done
  · cases Option.some.inj done
    refine ⟨not_mem_takeWhile, ?_⟩
    have whole : text.takeWhile (· ≠ delimiter) ++ text.dropWhile (· ≠ delimiter) = text :=
      List.takeWhile_append_dropWhile
    cases behind : text.dropWhile (· ≠ delimiter) with
    | nil =>
        right
        rw [behind, List.append_nil] at whole
        exact ⟨whole.symm, rfl⟩
    | cons symbol rest =>
        left
        have stops := List.head?_dropWhile_not (fun symbol => decide (symbol ≠ delimiter)) text
        rw [behind] at stops whole
        have same : symbol = delimiter := by simpa using stops
        subst same
        exact whole.symm

/-- Lines that end with the delimiter are its pieces. -/
theorem pieces_append (clean : delimiter ∉ piece) :
    pieces delimiter (piece ++ delimiter :: rest) = piece :: pieces delimiter rest :=
  pieces_of_cut (cut_append clean)

end AsyncRuntime.Foundation.TextSearch
