import AsyncRuntime.Runtime.Setup
import Mathlib.Data.List.TakeWhile

/-!
# The work groups that `SetupWorkGroups` accepts

`SetupWorkGroups` pushes the main group before it tests anything, tests the number
of groups before it pushes the given ones, and tests each name right before it
pushes that group.  So the limit does not count the given groups, and what has been
pushed stays when it throws.

The runtimes considered are those on which every `Setup` so far has thrown.
-/

namespace AsyncRuntime.Runtime.Setup

open AsyncRuntime.Foundation
open AsyncRuntime.WorkGroup

/-- `SetupWorkGroups` throws. -/
def Throws (known options : List WorkGroupOption) : Prop :=
  (setupWorkGroups known options).2 ≠ .ok ()

/-- The main group and the given ones are too many, or one of these is the main one. -/
def Invalid (options : List WorkGroupOption) : Prop :=
  maxGroupsCount < 1 + options.length ∨ ∃ option ∈ options, option.name = mainWorkGroup

/--
The options are validated as a whole: invalid ones are refused and leave nothing
behind, the others become the options of the runtime, after the main group.
-/
structure Validated (known options : List WorkGroupOption) : Prop where
  throws_iff : Throws known options ↔ Invalid options
  unchanged : Throws known options → (setupWorkGroups known options).1 = known
  accepted :
    ¬ Throws known options → (setupWorkGroups known options).1 = mainOption :: options

/-- When `SetupWorkGroups` really throws. -/
theorem throws_iff_full_or_main {known options : List WorkGroupOption} :
    Throws known options ↔
      maxGroupsCount ≤ known.length ∨ ∃ option ∈ options, option.name = mainWorkGroup := by
  let state : State := { State.initial with workGroupsOption := known }
  constructor
  · intro thrown
    cases result : (setupWorkGroups known options).2 with
    | ok value => exact absurd result thrown
    | error message => exact @refused_of_error state options message result
  · intro refused accepted
    exact @not_refused state options accepted refused

theorem takeWhile_of_not_main {options : List WorkGroupOption}
    (others : ∀ option ∈ options, option.name ≠ mainWorkGroup) :
    options.takeWhile (·.name ≠ mainWorkGroup) = options := by
  rw [List.takeWhile_eq_self_iff]
  intro option member
  simpa using others option member

/-- The main group is there whatever happens. -/
theorem setupWorkGroups_ne_known (known options : List WorkGroupOption) :
    (setupWorkGroups known options).1 ≠ known := by
  rw [setupWorkGroups_fst]
  intro same
  have longer := congrArg List.length same
  simp only [List.length_append, List.length_cons] at longer
  omega

theorem validated_iff {known options : List WorkGroupOption} :
    Validated known options ↔
      known = [] ∧ 1 + options.length ≤ maxGroupsCount ∧
        ∀ option ∈ options, option.name ≠ mainWorkGroup := by
  constructor
  · intro validated
    have returns : ¬ Throws known options := by
      intro thrown
      exact setupWorkGroups_ne_known known options (validated.unchanged thrown)
    have valid := mt validated.throws_iff.mpr returns
    simp only [Invalid, not_or, not_lt, not_exists, not_and] at valid
    refine ⟨?_, valid⟩
    have result := validated.accepted returns
    rw [throws_iff_full_or_main] at returns
    simp only [not_or] at returns
    rw [setupWorkGroups_fst, if_neg returns.1, takeWhile_of_not_main valid.2] at result
    have shorter := congrArg List.length result
    simp only [List.length_append, List.length_cons] at shorter
    exact List.eq_nil_of_length_eq_zero (by omega)
  · rintro ⟨rfl, few, others⟩
    have room : ¬ maxGroupsCount ≤ ([] : List WorkGroupOption).length := by decide
    have returns : ¬ Throws [] options := by
      rw [throws_iff_full_or_main]
      rintro (full | ⟨option, member, isMain⟩)
      · exact room full
      · exact others option member isMain
    refine ⟨?_, fun thrown => absurd thrown returns, fun _ => ?_⟩
    · refine iff_of_false returns ?_
      rintro (many | ⟨option, member, isMain⟩)
      · omega
      · exact others option member isMain
    · rw [setupWorkGroups_fst, if_neg room, takeWhile_of_not_main others]
      rfl

/-! ## Runtimes that are not set up -/

/-- Every `Setup` throws, in `SetupWorkGroups` or without a node. -/
def SetupThrows (hardware ioKey : ℕ) (state : State) : Action → Prop
  | .setup options nodes ioAddress =>
      ∀ result, setup hardware ioKey state options nodes ioAddress = some result →
        result.2 ≠ .ok ()
  | .terminate => True

theorem createExecutors_workGroupsOption {hardware index : ℕ} {nodes : List Node}
    {state created : State}
    (looped : createExecutors hardware index nodes state = some created) :
    created.workGroupsOption = state.workGroupsOption := by
  induction nodes generalizing index state with
  | nil =>
      cases looped
      rfl
  | cons node rest inductionHypothesis =>
      rw [createExecutors] at looped
      split at looped
      · cases looped
      · have kept := inductionHypothesis looped
        exact kept

/-- A `Setup` leaves the main group behind, however it ends. -/
theorem workGroupsOption_ne_nil_of_setup {hardware ioKey ioAddress : ℕ}
    {state target : State} {options : List WorkGroupOption} {nodes : List Node}
    (called :
      (setup hardware ioKey state options nodes ioAddress).map Prod.fst = some target) :
    target.workGroupsOption ≠ [] := by
  have appended : (setupWorkGroups state.workGroupsOption options).1 ≠ [] :=
    List.ne_nil_of_mem (mainOption_mem_setupWorkGroups _ _)
  rcases setup_cases called with
    ⟨-, rfl⟩ | ⟨-, -, created, looped, ⟨-, rfl⟩ | ⟨-, rfl⟩⟩
  · exact appended
  · rw [createExecutors_workGroupsOption looped]
    exact appended
  · change created.workGroupsOption ≠ []
    rw [createExecutors_workGroupsOption looped]
    exact appended

/-- Only a runtime that nothing was called on has no options. -/
theorem eq_initial_or_ne_nil {hardware ioKey : ℕ} {permitted : State → Action → Prop}
    {state : State} (reachable : (system hardware ioKey).ReachableUnder permitted state) :
    state = State.initial ∨ state.workGroupsOption ≠ [] := by
  induction reachable with
  | start isInitial => exact .inl isInitial
  | @step source target action earlier _ taken known =>
      cases action with
      | setup options nodes ioAddress =>
          simp only [system, next] at taken
          split at taken
          · exact .inr (workGroupsOption_ne_nil_of_setup taken)
          · cases taken
      | terminate =>
          cases taken
          rcases known with rfl | nonempty
          · exact .inl rfl
          · refine .inr ?_
            unfold terminate
            split
            · exact nonempty
            · exact nonempty

/--
On a runtime on which no `Setup` has succeeded, the given groups are validated as a
whole exactly when none has been called yet, the groups are within the limit, and
none of them is named as the main group.
-/
theorem validated_iff_first_call {hardware ioKey : ℕ} {state : State}
    (reachable :
      (system hardware ioKey).ReachableUnder (SetupThrows hardware ioKey) state)
    (options : List WorkGroupOption) :
    Validated state.workGroupsOption options ↔
      state = State.initial ∧ 1 + options.length ≤ maxGroupsCount ∧
        ∀ option ∈ options, option.name ≠ mainWorkGroup := by
  rw [validated_iff]
  refine and_congr_left fun _ => ?_
  constructor
  · intro empty
    rcases eq_initial_or_ne_nil reachable with same | nonempty
    · exact same
    · exact absurd empty nonempty
  · rintro rfl
    rfl

/-- Nine given groups are accepted by a new runtime. -/
theorem validated_nine_groups :
    Validated State.initial.workGroupsOption
      (List.replicate 9 { mainOption with name := "io" }) := by
  have reachable : (system 1 0).ReachableUnder (SetupThrows 1 0) State.initial :=
    .start rfl
  refine (validated_iff_first_call reachable _).mpr ⟨rfl, by decide, ?_⟩
  intro option member
  rw [List.eq_of_mem_replicate member]
  decide

/-- Ten given groups are accepted too, which makes eleven with the main one. -/
theorem ten_groups_not_validated :
    ¬ ∀ options : List WorkGroupOption,
      Validated State.initial.workGroupsOption options := by
  intro claim
  have few :=
    (validated_iff.mp (claim (List.replicate 10 { mainOption with name := "io" }))).2.1
  rw [List.length_replicate] at few
  exact absurd few (by decide)

end AsyncRuntime.Runtime.Setup
