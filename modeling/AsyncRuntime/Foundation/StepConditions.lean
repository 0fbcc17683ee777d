import Mathlib.Data.List.Infix

/-!
# Conditions on the steps of a run

A run is the list of its actions, and a condition on a step is a condition on the
action and the actions before it.  A property of runs is often kept exactly by the
steps that meet some condition; the two rules here say what that means for a whole run.
-/

namespace AsyncRuntime.Foundation

universe u

variable {Action : Type u} {condition : List Action → Action → Prop}

/-- Every action of the run meets the condition behind the actions before it. -/
def EachStep (condition : List Action → Action → Prop) (run : List Action) : Prop :=
  ∀ earlier action, earlier ++ [action] <+: run → condition earlier action

theorem eachStep_nil : EachStep condition [] := by
  intro earlier action started
  have empty := List.prefix_nil.mp started
  simp at empty

theorem eachStep_concat {run : List Action} {last : Action} :
    EachStep condition (run ++ [last]) ↔ EachStep condition run ∧ condition run last := by
  constructor
  · intro each
    refine ⟨fun earlier action started => ?_, each run last (List.prefix_refl _)⟩
    exact each earlier action (started.trans (List.prefix_append _ _))
  · rintro ⟨each, final⟩ earlier action started
    rcases List.prefix_concat_iff.mp started with same | before
    · obtain ⟨rfl, rfl⟩ := List.append_inj' same rfl |>.imp_right List.singleton_inj.mp
      exact final
    · exact each earlier action before

/-- A property that a step has or loses with its condition. -/
theorem iff_eachStep {good : List Action → Prop} (base : good [])
    (step : ∀ run last, good (run ++ [last]) ↔ good run ∧ condition run last)
    (run : List Action) : good run ↔ EachStep condition run := by
  induction run using List.reverseRecOn with
  | nil => exact iff_of_true base eachStep_nil
  | append_singleton run last inductionHypothesis =>
      rw [step, eachStep_concat, inductionHypothesis]

/--
While the property holds, a step has a result exactly if it meets the condition, and with
that result the property goes on.
-/
theorem eachStep_iff_eachStep {good : List Action → Prop}
    {result : List Action → Action → Prop} (base : good [])
    (step : ∀ run last, good run → (result run last ↔ condition run last))
    (preserved : ∀ run last, good run → result run last → good (run ++ [last]))
    (run : List Action) : EachStep result run ↔ EachStep condition run := by
  have both :
      (EachStep result run ↔ EachStep condition run) ∧ (EachStep result run → good run) := by
    induction run using List.reverseRecOn with
    | nil => exact ⟨iff_of_true eachStep_nil eachStep_nil, fun _ => base⟩
    | append_singleton run last inductionHypothesis =>
        obtain ⟨same, kept⟩ := inductionHypothesis
        rw [eachStep_concat, eachStep_concat, ← same]
        refine ⟨and_congr_right fun each => step run last (kept each), ?_⟩
        rintro ⟨each, final⟩
        exact preserved run last (kept each) final
  exact both.1

end AsyncRuntime.Foundation
