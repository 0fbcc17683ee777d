import Mathlib.Data.List.TakeWhile
import AsyncRuntime.Dataflow.Notifier

/-!
# Watching masks of several flags

`AsyncWatch` takes masks, and a mask may hold several flags.  A watch that finds
a mask completely raised returns it.  A watch that waits puts the flags of all
masks into one byte, and the first notification of any of them resolves it, with
the flags notified since the watch.

So a watch means "one of the masks has been raised" only if it found one, or if
the first flag that it hears is a mask of its own.
-/

namespace AsyncRuntime.Dataflow

/-! ## Masks as sets of flags -/

/-- The flags raised by a sequence of notifications. -/
def raisedBy (flags : List Flag) : Flags :=
  (flags.map Flag.mask).foldl (· ||| ·) 0#8

theorem hasState_raisedBy (flags : List Flag) (flag : Flag) :
    hasState (raisedBy flags) flag.mask = decide (flag ∈ flags) := by
  rw [raisedBy, foldl_or_mask, hasState_zero_mask, Bool.false_or]

/-- A mask is contained in others if each of its flags is. -/
theorem hasState_iff (states mask : Flags) :
    hasState states mask = true ↔
      ∀ flag : Flag,
        hasState mask flag.mask = true → hasState states flag.mask = true := by
  simp only [hasState_mask]
  rw [hasState, beq_iff_eq]
  constructor
  · intro contained flag member
    have bit := congrArg (BitVec.getLsbD · flag) contained
    simp only [BitVec.getLsbD_and, member, Bool.and_true] at bit
    exact bit
  · intro contained
    apply BitVec.eq_of_getLsbD_eq
    intro index bound
    have here := contained ⟨index, bound⟩
    rw [BitVec.getLsbD_and]
    cases member : mask.getLsbD index with
    | false => exact Bool.and_false _
    | true => rw [Bool.and_true, here member]

/-- A mask is not empty if it has a flag. -/
theorem exists_flag_of_ne_zero {mask : Flags} (nonempty : mask ≠ 0#8) :
    ∃ flag : Flag, hasState mask flag.mask = true := by
  by_contra empty
  apply nonempty
  apply BitVec.eq_of_getLsbD_eq
  intro index bound
  have absent : ¬ hasState mask (Flag.mask ⟨index, bound⟩) = true :=
    fun member => empty ⟨⟨index, bound⟩, member⟩
  rw [hasState_mask] at absent
  simpa using absent

/-- A mask whose only flag is given. -/
theorem eq_mask_of_subset {mask : Flags} {flag : Flag} (nonempty : mask ≠ 0#8)
    (only : ∀ other : Flag, hasState mask other.mask = true → other = flag) :
    mask = flag.mask := by
  rcases exists_flag_of_ne_zero nonempty with ⟨member, contained⟩
  cases only member contained
  apply BitVec.eq_of_getLsbD_eq
  intro index bound
  have here := only ⟨index, bound⟩
  rw [hasState_mask] at here contained
  have single := flag.getLsbD_mask ⟨index, bound⟩
  rw [show flag.mask.getLsbD index = _ from single]
  cases raised : mask.getLsbD index with
  | true => exact (decide_eq_true (here raised)).symm
  | false =>
      symm
      apply decide_eq_false
      rintro rfl
      exact absurd (raised.symm.trans contained) (by decide)

theorem hasState_or (left right : Flags) (flag : Flag) :
    hasState (left ||| right) flag.mask =
      (hasState left flag.mask || hasState right flag.mask) := by
  simp only [hasState_mask, BitVec.getLsbD_or]

/-- `watch_state` has the flags of all masks. -/
theorem hasState_foldl_or (masks : List Flags) (start : Flags) (flag : Flag) :
    hasState (masks.foldl (· ||| ·) start) flag.mask =
      (hasState start flag.mask || masks.any (hasState · flag.mask)) := by
  induction masks generalizing start with
  | nil => simp
  | cons first rest inductionHypothesis =>
      rw [List.foldl_cons, inductionHypothesis, hasState_or, List.any_cons,
        Bool.or_assoc]

/-- `CheckNotifications` collects the flags of the masks that were raised. -/
theorem hasState_foldl_check (notifyState start : Flags) (masks : List Flags)
    (flag : Flag) :
    hasState (masks.foldl (Notifier.checkNotifications notifyState) start)
        flag.mask =
      (hasState start flag.mask ||
        masks.any fun mask =>
          hasState notifyState mask && hasState mask flag.mask) := by
  induction masks generalizing start with
  | nil => simp
  | cons first rest inductionHypothesis =>
      rw [List.foldl_cons, inductionHypothesis, Notifier.checkNotifications,
        List.any_cons]
      cases raised : hasState notifyState first with
      | false => simp
      | true =>
          rw [if_pos rfl, hasState_or, Bool.or_assoc, Bool.true_and]

/-! ## One watch among notifications -/

/-- A sequence of `Notify` calls. -/
def Notifier.notifyAll (notifier : Notifier) (flags : List Flag) : Notifier :=
  flags.foldl (fun notifier flag => notifier.notify flag.mask) notifier

/-- The watch is called after the first notifications on a new notifier. -/
def watchAfter (masks : List Flags) (before : List Flag) :
    Notifier × WatchFuture :=
  (Notifier.fresh.notifyAll before).asyncWatch masks

/-- What the future of the watch holds after the other notifications. -/
def outcome (masks : List Flags) (before after : List Flag) : Poll :=
  ((watchAfter masks before).1.notifyAll after).poll (watchAfter masks before).2

/--
The future is resolved if and only if one of the masks has been raised
completely, and then its value contains such a mask.
-/
structure MeansRaised (masks : List Flags) (before after : List Flag) :
    Prop where
  resolved_iff :
    (∃ value, outcome masks before after = .ready value) ↔
      ∃ mask ∈ masks, hasState (raisedBy (before ++ after)) mask = true
  contains :
    ∀ value, outcome masks before after = .ready value →
      ∃ mask ∈ masks,
        hasState (raisedBy (before ++ after)) mask = true ∧
          hasState value mask = true

/-- The first flag notified after the watch that is in one of the masks. -/
def firstHeard (masks : List Flags) (after : List Flag) : Option Flag :=
  after.find? fun flag => masks.any (hasState · flag.mask)

/--
A mask has been raised before the watch, or the first flag heard after it is a
mask of its own, if there is one.
-/
def Decided (masks : List Flags) (before after : List Flag) : Prop :=
  (∃ mask ∈ masks, hasState (raisedBy before) mask = true) ∨
    ∀ flag, firstHeard masks after = some flag → flag.mask ∈ masks

namespace Notifier

variable {notifier : Notifier}

theorem notifyAll_notifyState (flags : List Flag) :
    (notifier.notifyAll flags).notifyState =
      (flags.map Flag.mask).foldl (· ||| ·) notifier.notifyState := by
  induction flags generalizing notifier with
  | nil => rfl
  | cons first rest inductionHypothesis =>
      rw [notifyAll, List.foldl_cons, List.map_cons, List.foldl_cons,
        ← notify_notifyState]
      exact inductionHypothesis

theorem Sound.notifyAll (sound : notifier.Sound) (flags : List Flag) :
    (notifier.notifyAll flags).Sound := by
  induction flags generalizing notifier with
  | nil => exact sound
  | cons first rest inductionHypothesis =>
      exact inductionHypothesis (sound.notify first)

theorem notifyAll_promise (flags : List Flag) :
    (notifier.notifyAll flags).promise = notifier.promise := by
  induction flags generalizing notifier with
  | nil => rfl
  | cons first rest inductionHypothesis =>
      exact inductionHypothesis.trans (notifier.notify_promise first.mask)

/-- A promise that has been set keeps its value. -/
theorem notifyAll_values_of_notified (notified : notifier.notified = true)
    (flags : List Flag) :
    (notifier.notifyAll flags).values = notifier.values := by
  induction flags generalizing notifier with
  | nil => rfl
  | cons first rest inductionHypothesis =>
      have kept : (notifier.notify first.mask).values = notifier.values := by
        funext name
        rw [notify_values, if_neg (by simp [notified])]
      rw [← kept]
      exact inductionHypothesis (by simp [notified])

/--
A promise that has not been set is resolved by the first watched flag, with the
flags notified up to then.
-/
theorem notifyAll_values (unset : notifier.notified = false)
    (unresolved : notifier.values notifier.promise = none) (flags : List Flag) :
    (notifier.notifyAll flags).values notifier.promise =
      (flags.find? fun flag => notifier.watches flag.mask).map fun flag =>
        (flags.takeWhile (fun flag => !notifier.watches flag.mask) ++ [flag]).map
          Flag.mask |>.foldl (· ||| ·) notifier.notifyState := by
  induction flags generalizing notifier with
  | nil => exact unresolved
  | cons first rest inductionHypothesis =>
      rw [notifyAll, List.foldl_cons]
      cases watched : notifier.watches first.mask with
      | true =>
          have notified : (notifier.notify first.mask).notified = true := by
            simp [watched]
          have kept := notifyAll_values_of_notified notified rest
          rw [notifyAll] at kept
          simp [kept, notify_values, unset, watched]
      | false =>
          have hears (flag : Flag) :
              (notifier.notify first.mask).watches flag.mask =
                notifier.watches flag.mask := by
            simp [watches]
          have rest_eq :=
            @inductionHypothesis (notifier.notify first.mask)
              (by simp [unset, watched])
              (by simp [notify_values, unset, watched, unresolved])
          simp only [notify_promise, hears, notify_notifyState] at rest_eq
          rw [notifyAll] at rest_eq
          rw [rest_eq]
          simp [watched]

end Notifier

/-! ## Before and after the watch -/

section

variable {masks : List Flags} {before after : List Flag}

theorem notifyAll_fresh_notifyState (flags : List Flag) :
    (Notifier.fresh.notifyAll flags).notifyState = raisedBy flags :=
  Notifier.notifyAll_notifyState flags

/-- What is raised before is raised in the end. -/
theorem hasState_append_left {mask : Flags}
    (raised : hasState (raisedBy before) mask = true) :
    hasState (raisedBy (before ++ after)) mask = true := by
  rw [hasState_iff] at raised ⊢
  intro flag member
  have notified := raised flag member
  rw [hasState_raisedBy, decide_eq_true_eq] at notified ⊢
  exact List.mem_append_left after notified

/-- A watch that finds a mask returns a value with that mask. -/
theorem outcome_of_raised (nonempty : ∀ mask ∈ masks, mask ≠ 0#8)
    {mask : Flags} (member : mask ∈ masks)
    (raised : hasState (raisedBy before) mask = true) :
    ∃ value, outcome masks before after = .ready value ∧
      hasState value mask = true := by
  have notifications (flag : Flag) :=
    hasState_foldl_check (raisedBy before) 0#8 masks flag
  have contained :
      hasState
          (masks.foldl (Notifier.checkNotifications (raisedBy before)) 0#8)
          mask = true := by
    rw [hasState_iff]
    intro flag inMask
    rw [notifications, Bool.or_eq_true, List.any_eq_true]
    exact .inr ⟨mask, member, by rw [raised, inMask]; rfl⟩
  have found :
      masks.foldl (Notifier.checkNotifications (raisedBy before)) 0#8 ≠ 0#8 := by
    rcases exists_flag_of_ne_zero (nonempty mask member) with ⟨flag, inMask⟩
    intro empty
    have here := (hasState_iff _ _).mp contained flag inMask
    rw [empty, hasState_zero_mask] at here
    cases here
  refine ⟨_, ?_, contained⟩
  rw [outcome, watchAfter, Notifier.asyncWatch, notifyAll_fresh_notifyState]
  simp only [Notifier.futureOf, if_neg found]
  rfl

/-- A watch that finds no mask waits for the first flag of any of them. -/
theorem outcome_of_silent
    (silent : ∀ mask ∈ masks, hasState (raisedBy before) mask = false) :
    outcome masks before after =
      match firstHeard masks after with
      | none => .pending
      | some flag =>
          .ready
            (raisedBy
              (after.takeWhile
                (fun flag => !masks.any (hasState · flag.mask)) ++ [flag])) := by
  have nothing :
      masks.foldl (Notifier.checkNotifications (raisedBy before)) 0#8 = 0#8 := by
    by_contra found
    rcases exists_flag_of_ne_zero found with ⟨flag, collected⟩
    rw [hasState_foldl_check, hasState_zero_mask, Bool.false_or,
      List.any_eq_true] at collected
    rcases collected with ⟨mask, member, raised⟩
    rw [silent mask member, Bool.false_and] at raised
    cases raised
  let rearmed :=
    (Notifier.fresh.notifyAll before).rearm false (masks.foldl (· ||| ·) 0#8)
  have watched : watchAfter masks before = (rearmed, .promise rearmed.promise) := by
    rw [watchAfter, Notifier.asyncWatch, notifyAll_fresh_notifyState, nothing]
    rfl
  have hears (flag : Flag) :
      rearmed.watches flag.mask = masks.any (hasState · flag.mask) := by
    simp [rearmed, Notifier.watches, Notifier.rearm, hasState_foldl_or]
  have sound : rearmed.Sound :=
    (Notifier.sound_fresh.notifyAll before).rearm false _
  have values :=
    @Notifier.notifyAll_values rearmed rfl (sound.unset.mpr rfl) after
  simp only [hears] at values
  rw [outcome, watched, Notifier.poll, values, Notifier.notifyAll_promise,
    if_pos rfl, firstHeard]
  cases after.find? fun flag => masks.any (hasState · flag.mask) with
  | none => rfl
  | some flag => rfl

/-- A flag heard before the first one would be the first one. -/
theorem not_any_of_mem_takeWhile {flag : Flag}
    (member :
      flag ∈ after.takeWhile fun flag => !masks.any (hasState · flag.mask)) :
    masks.any (hasState · flag.mask) = false := by
  simpa using List.mem_takeWhile_imp member

/--
Without a mask raised before the watch, a mask is raised in the end only if one
of its flags is heard.
-/
theorem exists_firstHeard {mask : Flags} (member : mask ∈ masks)
    (silent : hasState (raisedBy before) mask = false)
    (raised : hasState (raisedBy (before ++ after)) mask = true) :
    ∃ flag, firstHeard masks after = some flag := by
  rw [← Option.isSome_iff_exists, firstHeard, List.find?_isSome]
  by_contra unheard
  apply Bool.false_ne_true
  rw [← silent, hasState_iff]
  intro flag inMask
  have notified := (hasState_iff _ _).mp raised flag inMask
  rw [hasState_raisedBy, decide_eq_true_eq, List.mem_append] at notified
  rw [hasState_raisedBy, decide_eq_true_eq]
  rcases notified with early | late
  · exact early
  · exact absurd
      ⟨flag, late, List.any_eq_true.mpr ⟨mask, member, inMask⟩⟩ unheard

theorem meansRaised_of_raised (nonempty : ∀ mask ∈ masks, mask ≠ 0#8)
    {mask : Flags} (member : mask ∈ masks)
    (raised : hasState (raisedBy before) mask = true) :
    MeansRaised masks before after := by
  rcases outcome_of_raised nonempty member raised with ⟨value, outcome_eq, contained⟩
  constructor
  · exact iff_of_true ⟨value, outcome_eq⟩ ⟨mask, member, hasState_append_left raised⟩
  · intro other other_eq
    rw [outcome_eq] at other_eq
    cases other_eq
    exact ⟨mask, member, hasState_append_left raised, contained⟩

section

variable (silent : ∀ mask ∈ masks, hasState (raisedBy before) mask = false)

include silent

theorem meansRaised_of_unheard (heard : firstHeard masks after = none) :
    MeansRaised masks before after := by
  have outcome_eq := @outcome_of_silent masks before after silent
  rw [heard] at outcome_eq
  constructor
  · constructor
    · rintro ⟨value, ready⟩
      rw [outcome_eq] at ready
      cases ready
    · rintro ⟨mask, member, raised⟩
      rcases exists_firstHeard member (silent mask member) raised with ⟨flag, first⟩
      rw [heard] at first
      cases first
  · intro value ready
    rw [outcome_eq] at ready
    cases ready

variable {flag : Flag} (heard : firstHeard masks after = some flag)

include heard

theorem meansRaised_of_own_mask (member : flag.mask ∈ masks) :
    MeansRaised masks before after := by
  have outcome_eq := @outcome_of_silent masks before after silent
  rw [heard] at outcome_eq
  have raised : hasState (raisedBy (before ++ after)) flag.mask = true := by
    rw [hasState_raisedBy, decide_eq_true_eq]
    exact List.mem_append_right before (List.mem_of_find?_eq_some heard)
  constructor
  · exact iff_of_true ⟨_, outcome_eq⟩ ⟨_, member, raised⟩
  · intro value ready
    rw [outcome_eq] at ready
    cases ready
    refine ⟨_, member, raised, ?_⟩
    rw [hasState_raisedBy, decide_eq_true_eq]
    exact List.mem_append_right _ (List.mem_singleton_self flag)

/-- The flags heard earlier are in no mask, so the raised mask is the first flag. -/
theorem own_mask_of_meansRaised (nonempty : ∀ mask ∈ masks, mask ≠ 0#8)
    (means : MeansRaised masks before after) : flag.mask ∈ masks := by
  have outcome_eq := @outcome_of_silent masks before after silent
  rw [heard] at outcome_eq
  rcases means.contains _ outcome_eq with ⟨mask, member, -, contained⟩
  have only (other : Flag) (inMask : hasState mask other.mask = true) :
      other = flag := by
    have inValue := (hasState_iff _ _).mp contained other inMask
    rw [hasState_raisedBy, decide_eq_true_eq, List.mem_append,
      List.mem_singleton] at inValue
    rcases inValue with earlier | same
    · have unheard := not_any_of_mem_takeWhile earlier
      rw [List.any_eq_false] at unheard
      exact absurd inMask (unheard mask member)
    · exact same
  rw [← eq_mask_of_subset (nonempty mask member) only]
  exact member

end

/--
For all masks that are not empty and all notifications: a watch means that one of
its masks has been raised if and only if one was raised before it, or the first
flag that it hears is a mask of its own.
-/
theorem meansRaised_iff_decided (nonempty : ∀ mask ∈ masks, mask ≠ 0#8)
    (before after : List Flag) :
    MeansRaised masks before after ↔ Decided masks before after := by
  by_cases found : ∃ mask ∈ masks, hasState (raisedBy before) mask = true
  · refine iff_of_true ?_ (.inl found)
    rcases found with ⟨mask, member, raised⟩
    exact meansRaised_of_raised nonempty member raised
  · have silent (mask : Flags) (member : mask ∈ masks) :
        hasState (raisedBy before) mask = false := by
      simpa using fun raised => found ⟨mask, member, raised⟩
    cases heard : firstHeard masks after with
    | none =>
        refine iff_of_true (meansRaised_of_unheard silent heard) (.inr ?_)
        intro flag first
        rw [heard] at first
        cases first
    | some flag =>
        constructor
        · intro means
          refine .inr fun first first_eq => ?_
          rw [heard] at first_eq
          cases first_eq
          exact own_mask_of_meansRaised silent heard nonempty means
        · rintro (raised | own)
          · exact absurd raised found
          · exact meansRaised_of_own_mask silent heard (own flag heard)

end

/-- Flag 1 is heard first, and it is one of the masks. -/
theorem meansRaised_iff_decided_single :
    (∀ mask ∈ [0b110#8, 0b010#8], mask ≠ 0#8) ∧
      MeansRaised [0b110#8, 0b010#8] [2] [1] := by
  have nonempty : ∀ mask ∈ [0b110#8, 0b010#8], mask ≠ 0#8 := by decide
  refine ⟨nonempty, (meansRaised_iff_decided nonempty [2] [1]).mpr (.inr ?_)⟩
  intro flag first
  have heard : firstHeard [0b110#8, 0b010#8] [1] = some 1 := by decide
  rw [heard] at first
  cases first
  decide

/-- The watch for flags 1 and 2 together is resolved by flag 1 alone. -/
theorem resolved_by_part :
    ¬ ∀ (masks : List Flags) (before after : List Flag),
      (∀ mask ∈ masks, mask ≠ 0#8) → MeansRaised masks before after := by
  intro claim
  have means := claim [0b110#8] [] [1] (by decide)
  have resolved : outcome [0b110#8] [] [1] = .ready 0b010#8 := by rfl
  rcases means.contains _ resolved with ⟨mask, member, raised, -⟩
  cases List.mem_singleton.mp member
  exact absurd raised (by decide)

end AsyncRuntime.Dataflow
