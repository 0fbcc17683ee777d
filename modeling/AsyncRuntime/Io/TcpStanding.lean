import AsyncRuntime.Io.TcpSession
import Mathlib.Data.List.Nodup

/-!
# How the operations of a session stand

An operation waits once.  As long as the timer is not armed anew, the expiry is the
deadline of the operation that waits.  From this follows what every run keeps: the
session and its operations are as `standing` says of the actions that have been taken.
-/

namespace AsyncRuntime.Io.Tcp

open AsyncRuntime.Foundation

/-! ## Tasks -/

/-- A promise has been set as often as `resolved` tells. -/
def Operation.Counted (operation : Operation) : Prop :=
  operation.promise.length = if operation.resolved then 1 else 0

/-- What a task keeps through its handlers. -/
structure Operation.Continues (before after : Operation) : Prop where
  deadline : after.deadline = before.deadline
  counted : before.Counted → after.Counted
  unresolved : after.resolved = false → before.resolved = false

theorem Operation.Continues.refl (operation : Operation) :
    operation.Continues operation :=
  ⟨rfl, id, id⟩

theorem Operation.continues_resolve (operation : Operation) (outcome : Outcome) :
    operation.Continues (operation.resolve outcome) := by
  unfold Operation.resolve
  split
  · exact .refl operation
  · rename_i unresolved
    refine ⟨rfl, fun counted => ?_, fun impossible => by simp at impossible⟩
    simp only [Operation.Counted, unresolved, Bool.false_eq_true, if_false] at counted
    simp [Operation.Counted, counted]

theorem Operation.continues_handler (operation : Operation) (code : ErrorCode)
    (transferred : ℕ) :
    operation.Continues (operation.handler code transferred) := by
  unfold Operation.handler
  split <;> exact operation.continues_resolve _

theorem Operation.continues_cancel (operation : Operation) :
    operation.Continues operation.cancel := by
  unfold Operation.cancel
  split <;> exact operation.continues_resolve _

theorem Operation.continues_handlerDeadline (operation : Operation) (expiry now : ℤ) :
    operation.Continues (operation.handlerDeadline expiry now) := by
  unfold Operation.handlerDeadline
  split
  · split <;> exact operation.continues_resolve _
  · exact .refl operation

theorem Operation.resolved_resolve (operation : Operation) (outcome : Outcome) :
    (operation.resolve outcome).resolved = true := by
  unfold Operation.resolve
  split
  · assumption
  · rfl

theorem Operation.resolved_handler (operation : Operation) (code : ErrorCode)
    (transferred : ℕ) : (operation.handler code transferred).resolved = true := by
  unfold Operation.handler
  split <;> exact operation.resolved_resolve _

theorem Operation.resolved_cancel (operation : Operation) :
    operation.cancel.resolved = true := by
  unfold Operation.cancel
  split <;> exact operation.resolved_resolve _

/-- A handler that has the timer and finds it expired resolves its task. -/
theorem Operation.resolved_handlerDeadline {operation : Operation} {expiry now : ℤ}
    (knows : operation.knowsTimer = true) (expired : expiry ≤ now) :
    (operation.handlerDeadline expiry now).resolved = true := by
  rw [Operation.handlerDeadline, if_pos ⟨knows, expired⟩]
  split <;> exact operation.resolved_resolve _

/-! ## What every step keeps -/

/--
The bookkeeping of the timer: no handler is listed twice, and a pending wait
belongs to the operation that has armed the timer last.
-/
structure Sound (session : Session) : Prop where
  counted : ∀ operation ∈ session.operations, operation.Counted
  nodup : (session.waits ++ session.ready).Nodup
  inRange : ∀ index ∈ session.waits ++ session.ready, index < session.operations.length
  armed : ∀ index ∈ session.waits, ∀ operation,
    session.operations[index]? = some operation →
      operation.deadline = some session.expiry

section

variable {session : Session}

theorem Sound.cancelWaits (sound : Sound session) : Sound session.cancelWaits where
  counted := sound.counted
  nodup := by
    have swapped : (session.ready ++ session.waits).Nodup :=
      List.nodup_append_comm.mp sound.nodup
    exact swapped
  inRange := by
    intro index member
    refine sound.inRange index ?_
    simpa [Session.cancelWaits, or_comm] using member
  armed := by
    intro index member
    simp [Session.cancelWaits] at member

theorem Sound.expiresFromNow (sound : Sound session) (duration : ℤ) :
    Sound (session.expiresFromNow duration) :=
  { sound.cancelWaits with
    armed := by
      intro index member
      simp [Session.expiresFromNow, Session.cancelWaits] at member }

/-- The operations of an updated session. -/
theorem update_operations_eq {index other : ℕ} {change : Operation → Operation}
    {after : Operation}
    (found : (session.update index change).operations[other]? = some after) :
    ∃ before, session.operations[other]? = some before ∧
      after = if index = other then change before else before := by
  rw [Session.update, List.getElem?_modify] at found
  obtain ⟨before, present, rfl⟩ := Option.map_eq_some_iff.mp found
  refine ⟨before, present, ?_⟩
  split <;> rfl

theorem update_continues {index other : ℕ} {change : Operation → Operation}
    (continues : ∀ operation : Operation, operation.Continues (change operation))
    {after : Operation}
    (found : (session.update index change).operations[other]? = some after) :
    ∃ before, session.operations[other]? = some before ∧ before.Continues after := by
  obtain ⟨before, present, rfl⟩ := update_operations_eq found
  refine ⟨before, present, ?_⟩
  split
  · exact continues before
  · exact .refl before

theorem Sound.update (sound : Sound session) (index : ℕ)
    {change : Operation → Operation}
    (continues : ∀ operation : Operation, operation.Continues (change operation)) :
    Sound (session.update index change) where
  counted := by
    intro after member
    obtain ⟨other, found⟩ := List.getElem?_of_mem member
    obtain ⟨before, present, continued⟩ := update_continues continues found
    exact continued.counted (sound.counted before (List.mem_of_getElem? present))
  nodup := sound.nodup
  inRange := by
    intro other member
    simpa [Session.update] using sound.inRange other member
  armed := by
    intro other member after found
    obtain ⟨before, present, continued⟩ := update_continues continues found
    rw [continued.deadline]
    exact sound.armed other member before present

/-- The operations after a new one has been posted. -/
theorem post_operations_eq {call : Call} {knowsTimer : Bool} {deadline : Option ℤ}
    {atLeast other : ℕ} {operation : Operation}
    (found :
      (session.post call knowsTimer deadline atLeast).operations[other]? =
        some operation) :
    session.operations[other]? = some operation ∨
      other = session.operations.length ∧
        operation = ⟨call, knowsTimer, deadline, atLeast, .posted, false, []⟩ := by
  rw [Session.post, List.getElem?_append] at found
  split at found
  · exact .inl found
  · rename_i beyond
    rw [List.getElem?_singleton] at found
    split at found
    · rename_i zero
      refine .inr ⟨by omega, ?_⟩
      exact (Option.some.inj found).symm
    · cases found

theorem Sound.post (sound : Sound session) (call : Call) (knowsTimer : Bool)
    (deadline : Option ℤ) (atLeast : ℕ) :
    Sound (session.post call knowsTimer deadline atLeast) where
  counted := by
    intro operation member
    rcases List.mem_append.mp member with old | new
    · exact sound.counted operation old
    · rw [List.mem_singleton.mp new]
      rfl
  nodup := sound.nodup
  inRange := by
    intro index member
    have bound := sound.inRange index member
    simp only [Session.post, List.length_append, List.length_singleton]
    omega
  armed := by
    intro index member operation found
    have bound := sound.inRange index (List.mem_append_left _ member)
    rcases post_operations_eq found with old | ⟨last, -⟩
    · exact sound.armed index member operation old
    · omega

theorem Sound.postWithTimeout (sound : Sound session) (call : Call) (knowsTimer : Bool)
    (atLeast : ℕ) :
    Sound (session.postWithTimeout call knowsTimer atLeast) := by
  have posted := ((sound.post call knowsTimer
    (some (session.now + seconds session.readTimeout)) atLeast).expiresFromNow
      (seconds session.readTimeout))
  -- The new operation is the only one that waits on the new expiry.
  have outside : session.operations.length ∉ session.ready ++ session.waits := by
    intro member
    have bound := sound.inRange _ (List.mem_append.mpr (List.mem_append.mp member).symm)
    omega
  refine ⟨posted.counted, ?_, ?_, ?_⟩
  · exact List.nodup_cons.mpr ⟨outside, posted.nodup⟩
  · intro index member
    rcases List.mem_cons.mp member with rfl | old
    · simp [Session.postWithTimeout, Session.asyncWait, Session.expiresFromNow,
        Session.cancelWaits, Session.post]
    · exact posted.inRange index old
  · intro index member operation found
    have last : index = session.operations.length := List.mem_singleton.mp member
    rcases post_operations_eq found with old | ⟨-, rfl⟩
    · rw [last, List.getElem?_eq_none (Nat.le_refl _)] at old
      cases old
    · rfl

/-- The handler of an operation is taken from the queue. -/
theorem Sound.dequeue (sound : Sound session) (index : ℕ) :
    Sound { session with ready := session.ready.erase index } where
  counted := sound.counted
  nodup := sound.nodup.sublist ((List.erase_sublist).append_left _)
  inRange := by
    intro other member
    refine sound.inRange other ?_
    exact ((List.erase_sublist).append_left session.waits).subset member
  armed := sound.armed

/-! ## The steps -/

theorem continues_launch (thrown : Bool) (operation : Operation) :
    operation.Continues
      (if thrown then { operation.cancel with stage := .ended }
        else { operation with stage := .running }) := by
  split
  · have continued := operation.continues_cancel
    exact ⟨continued.deadline, continued.counted, continued.unresolved⟩
  · exact ⟨rfl, id, id⟩

theorem continues_complete (code : ErrorCode) (transferred : ℕ) (operation : Operation) :
    operation.Continues { operation.handler code transferred with stage := .ended } := by
  have continued := operation.continues_handler code transferred
  exact ⟨continued.deadline, continued.counted, continued.unresolved⟩

theorem begin_eq (session : Session) (call : Call) :
    (∃ knowsTimer atLeast, 0 < session.readTimeout ∧
      (∀ deadline, call.standing deadline =
        if knowsTimer = true then .guarded deadline else .exposed deadline) ∧
      session.begin call = session.postWithTimeout call knowsTimer atLeast) ∨
      ∃ atLeast, ¬ 0 < session.readTimeout ∧
        session.begin call = session.post call false none atLeast := by
  by_cases timed : 0 < session.readTimeout
  · refine .inl ?_
    cases call with
    | read => exact ⟨true, 1, timed, fun _ => rfl, if_pos timed⟩
    | readSize size => exact ⟨true, size, timed, fun _ => rfl, if_pos timed⟩
    | write size => exact ⟨false, size, timed, fun _ => rfl, if_pos timed⟩
  · refine .inr ?_
    cases call with
    | read => exact ⟨1, timed, if_neg timed⟩
    | readSize size => exact ⟨1, timed, if_neg timed⟩
    | write size => exact ⟨size, timed, if_neg timed⟩

/-- What a step can do. -/
inductive Step (session : Session) : Action → Session → Prop where
  | sets {amount : ℤ} :
      Step session (.setReadTimeout amount) (session.setReadTimeout amount)
  | closes : Step session .close session.cancelWaits
  | beginsTimed {call : Call} {knowsTimer : Bool} {atLeast : ℕ}
      (timed : 0 < session.readTimeout)
      (stands : ∀ deadline, call.standing deadline =
        if knowsTimer = true then .guarded deadline else .exposed deadline) :
      Step session (.begin call) (session.postWithTimeout call knowsTimer atLeast)
  | begins {call : Call} {atLeast : ℕ} (untimed : ¬ 0 < session.readTimeout) :
      Step session (.begin call) (session.post call false none atLeast)
  | launches {index : ℕ} {thrown : Bool} :
      Step session (.launch index thrown)
        (session.update index fun operation =>
          if thrown then { operation.cancel with stage := .ended }
          else { operation with stage := .running })
  | completes {index : ℕ} {code : ErrorCode} {transferred : ℕ} :
      Step session (.complete index code transferred)
        (session.update index fun operation =>
          { operation.handler code transferred with stage := .ended })
  | advances {amount : ℕ} :
      Step session (.advance amount) { session with now := session.now + amount }
  | expires (due : session.expiry ≤ session.now) :
      Step session .expire session.cancelWaits
  | handles {index : ℕ} (queued : index ∈ session.ready) :
      Step session (.handleDeadline index)
        ({ session with ready := session.ready.erase index }.update index
          fun operation => operation.handlerDeadline session.expiry session.now)

theorem step_of_next {action : Action} {target : Session}
    (taken : next session action = some target) : Step session action target := by
  cases action with
  | setReadTimeout amount =>
      cases taken
      exact .sets
  | close =>
      cases taken
      exact .closes
  | begin call =>
      cases taken
      rcases begin_eq session call with
        ⟨knowsTimer, atLeast, timed, stands, started⟩ | ⟨atLeast, untimed, started⟩
      · rw [started]
        exact .beginsTimed timed stands
      · rw [started]
        exact .begins untimed
  | launch index thrown =>
      simp only [next, Option.ite_none_right_eq_some, Option.some.injEq] at taken
      rw [← taken.2]
      exact .launches
  | complete index code transferred =>
      simp only [next, Option.ite_none_right_eq_some, Option.some.injEq] at taken
      rw [← taken.2]
      exact .completes
  | advance amount =>
      cases taken
      exact .advances
  | expire =>
      simp only [next, Option.ite_none_right_eq_some, Option.some.injEq] at taken
      rw [← taken.2]
      exact .expires taken.1
  | handleDeadline index =>
      simp only [next, Option.ite_none_right_eq_some, Option.some.injEq] at taken
      rw [← taken.2]
      exact .handles taken.1

theorem Sound.step (sound : Sound session) {action : Action} {target : Session}
    (step : Step session action target) : Sound target := by
  cases step with
  | @sets amount =>
      have changed : Sound { session with readTimeout := amount } :=
        ⟨sound.counted, sound.nodup, sound.inRange, sound.armed⟩
      exact changed.expiresFromNow _
  | closes => exact sound.cancelWaits
  | beginsTimed timed stands => exact sound.postWithTimeout _ _ _
  | begins untimed => exact sound.post _ false none _
  | launches => exact sound.update _ (continues_launch _)
  | completes => exact sound.update _ (continues_complete _ _)
  | expires due => exact sound.cancelWaits
  | advances => exact ⟨sound.counted, sound.nodup, sound.inRange, sound.armed⟩
  | handles queued =>
      exact (sound.dequeue _).update _ fun operation =>
        operation.continues_handlerDeadline _ _

theorem sound_of_reachable {permitted : Session → Action → Prop}
    (reachable : system.ReachableUnder permitted session) : Sound session := by
  refine reachable.invariant ?_ ?_
  · rintro fresh ⟨-, waits, ready, operations⟩
    constructor <;> simp [waits, ready, operations]
  · intro source action target _ _ taken sound
    exact sound.step (step_of_next taken)

theorem setOnce_of_sound (sound : Sound session) : session.SetOnce := by
  intro operation member
  have counted := sound.counted operation member
  rw [Operation.Counted] at counted
  rw [counted]
  split <;> omega

/-! ## How the operations of a run stand -/

/-- An operation whose handler ends it when its deadline is reached. -/
structure Guarded (session : Session) (index : ℕ) (operation : Operation)
    (deadline : ℤ) : Prop where
  own : operation.deadline = some deadline
  unresolved : operation.resolved = false
  knows : operation.knowsTimer = true
  armed : session.expiry = deadline
  handler :
    index ∈ session.waits ∨ index ∈ session.ready ∧ session.expiry ≤ session.now

/-- An operation is as the record of the run says, which begins at this time. -/
def Stands (start : ℤ) (session : Session) (index : ℕ) (operation : Operation) :
    Standing → Prop
  | .untimed => operation.deadline = none
  | .guarded deadline => Guarded session index operation (start + deadline)
  | .exposed deadline => operation.deadline = some (start + deadline)
  | .ended => operation.resolved = true

section

variable {start : ℤ} {index : ℕ} {operation : Operation} {current : Standing}

theorem Stands.guarded (stands : Stands start session index operation current)
    {deadline : ℤ} (guarded : deadline ∈ current.guardedUntil) :
    Guarded session index operation (start + deadline) := by
  cases current with
  | guarded other =>
      cases guarded
      exact stands
  | _ => cases guarded

theorem Stands.exposed (stands : Stands start session index operation current)
    {deadline : ℤ} (exposed : deadline ∈ current.exposedUntil) :
    operation.deadline = some (start + deadline) := by
  cases current with
  | exposed other =>
      cases exposed
      exact stands
  | _ => cases exposed

theorem Stands.overtaken (stands : Stands start session index operation current)
    (target : Session) : Stands start target index operation current.overtaken := by
  cases current with
  | untimed => exact stands
  | guarded deadline => exact stands.own
  | exposed deadline => exact stands
  | ended => exact stands

/-- The timer is not armed anew, and the handler of the operation is not run. -/
theorem Stands.keeps (stands : Stands start session index operation current)
    {target : Session} (expiry : target.expiry = session.expiry)
    (handler :
      index ∈ session.waits ∨ index ∈ session.ready ∧ session.expiry ≤ session.now →
        index ∈ target.waits ∨ index ∈ target.ready ∧ session.expiry ≤ target.now) :
    Stands start target index operation current := by
  cases current with
  | untimed => exact stands
  | guarded deadline =>
      refine ⟨stands.own, stands.unresolved, stands.knows, ?_, ?_⟩
      · rw [expiry, stands.armed]
      · rw [expiry]
        exact handler stands.handler
  | exposed deadline => exact stands
  | ended => exact stands

theorem Stands.restaged (stands : Stands start session index operation current)
    (stage : Stage) :
    Stands start session index { operation with stage := stage } current := by
  cases current with
  | untimed => exact stands
  | guarded deadline =>
      exact ⟨stands.own, stands.unresolved, stands.knows, stands.armed, stands.handler⟩
  | exposed deadline => exact stands
  | ended => exact stands

theorem Stands.cancelled (stands : Stands start session index operation current)
    {time : ℤ} (now : session.now = start + time) :
    Stands start session.cancelWaits index operation (current.cancelled time) := by
  cases current with
  | untimed => exact stands
  | guarded deadline =>
      rw [Standing.cancelled]
      split
      · exact stands.own
      · -- The handler is due, so it makes no difference why it is invoked.
        rename_i reached
        refine stands.keeps rfl fun handler => .inr ⟨?_, ?_⟩
        · rw [Session.cancelWaits, List.mem_append]
          exact handler.symm.imp_left And.left
        · have armed := stands.armed
          change session.expiry ≤ session.now
          omega
  | exposed deadline => exact stands
  | ended => exact stands

theorem Stands.handled (stands : Stands start session index operation current)
    (running : index ∉ session.waits) (target : Session) :
    Stands start target index
      (operation.handlerDeadline session.expiry session.now) current.handled := by
  have continued := operation.continues_handlerDeadline session.expiry session.now
  cases current with
  | untimed => exact continued.deadline.trans stands
  | guarded deadline =>
      have due := stands.handler.resolve_left running
      exact Operation.resolved_handlerDeadline stands.knows due.2
  | exposed deadline => exact continued.deadline.trans stands
  | ended =>
      by_contra unresolved
      have before := continued.unresolved (Bool.eq_false_of_not_eq_true unresolved)
      rw [Stands, before] at stands
      cases stands

end

/-- The record of a run says how the session and its operations are. -/
structure Watched (start : ℤ) (session : Session) (past : List Action) : Prop where
  now : session.now = start + elapsed past
  timeout : session.readTimeout = timeoutSet past
  begun : session.operations.length = begun past
  stands :
    ∀ index operation, session.operations[index]? = some operation →
      Stands start session index operation (standing index past)

section

variable {start : ℤ} {past : List Action}

theorem Watched.sets (watched : Watched start session past) (amount : ℤ) :
    Watched start (session.setReadTimeout amount) (.setReadTimeout amount :: past) where
  now := watched.now
  timeout := rfl
  begun := watched.begun
  stands index operation found := (watched.stands index operation found).overtaken _

theorem Watched.closes (watched : Watched start session past) :
    Watched start session.cancelWaits (.close :: past) where
  now := watched.now
  timeout := watched.timeout
  begun := watched.begun
  stands index operation found :=
    (watched.stands index operation found).cancelled watched.now

theorem Watched.beginsTimed (watched : Watched start session past) {call : Call}
    {knowsTimer : Bool} {atLeast : ℕ} (timed : 0 < session.readTimeout)
    (stands : ∀ deadline, call.standing deadline =
      if knowsTimer = true then .guarded deadline else .exposed deadline) :
    Watched start (session.postWithTimeout call knowsTimer atLeast)
      (.begin call :: past) where
  now := watched.now
  timeout := watched.timeout
  begun := by
    have counted := watched.begun
    simp [Session.postWithTimeout, Session.asyncWait, Session.expiresFromNow,
      Session.cancelWaits, Session.post, Tcp.begun, counted]
  stands index operation found := by
    rw [watched.timeout] at timed
    rw [standing, if_pos timed]
    rcases post_operations_eq found with old | ⟨last, rfl⟩
    · obtain ⟨bound, -⟩ := List.getElem?_eq_some_iff.mp old
      have other : index ≠ Tcp.begun past := by
        rw [← watched.begun]
        exact Nat.ne_of_lt bound
      rw [if_neg other]
      exact (watched.stands index operation old).overtaken _
    · have own :
          session.now + seconds session.readTimeout =
            start + (elapsed past + seconds (timeoutSet past)) := by
        rw [watched.now, watched.timeout, add_assoc]
      rw [if_pos (last.trans watched.begun), stands]
      cases knowsTimer with
      | true =>
          refine ⟨congrArg some own, rfl, rfl, own, .inl ?_⟩
          rw [last]
          exact List.mem_singleton_self _
      | false => exact congrArg some own

theorem Watched.begins (watched : Watched start session past) {call : Call}
    {atLeast : ℕ} (untimed : ¬ 0 < session.readTimeout) :
    Watched start (session.post call false none atLeast) (.begin call :: past) where
  now := watched.now
  timeout := watched.timeout
  begun := by
    have counted := watched.begun
    simp [Session.post, Tcp.begun, counted]
  stands index operation found := by
    rw [watched.timeout] at untimed
    rw [standing, if_neg untimed]
    rcases post_operations_eq found with old | ⟨last, rfl⟩
    · obtain ⟨bound, -⟩ := List.getElem?_eq_some_iff.mp old
      have other : index ≠ Tcp.begun past := by
        rw [← watched.begun]
        exact Nat.ne_of_lt bound
      rw [if_neg other]
      exact (watched.stands index operation old).keeps rfl id
    · rw [if_pos (last.trans watched.begun)]
      rfl

theorem Watched.launches (watched : Watched start session past) (index : ℕ)
    (thrown : Bool) :
    Watched start
      (session.update index fun operation =>
        if thrown then { operation.cancel with stage := .ended }
        else { operation with stage := .running })
      (.launch index thrown :: past) where
  now := watched.now
  timeout := watched.timeout
  begun := (List.length_modify _ _ _).trans watched.begun
  stands other after found := by
    obtain ⟨before, present, rfl⟩ := update_operations_eq found
    have stands := watched.stands other before present
    rw [standing]
    by_cases same : index = other
    · cases thrown with
      | true =>
          have ended : index = other ∧ true = true := ⟨same, rfl⟩
          rw [if_pos same, if_pos ended]
          exact before.resolved_cancel
      | false =>
          have unended : ¬ (index = other ∧ false = true) := fun both =>
            Bool.false_ne_true both.2
          rw [if_pos same, if_neg unended, if_neg Bool.false_ne_true]
          refine Stands.restaged ?_ .running
          exact stands.keeps rfl id
    · have unended : ¬ (index = other ∧ thrown = true) := fun both => same both.1
      rw [if_neg same, if_neg unended]
      exact stands.keeps rfl id

theorem Watched.completes (watched : Watched start session past) (index : ℕ)
    (code : ErrorCode) (transferred : ℕ) :
    Watched start
      (session.update index fun operation =>
        { operation.handler code transferred with stage := .ended })
      (.complete index code transferred :: past) where
  now := watched.now
  timeout := watched.timeout
  begun := (List.length_modify _ _ _).trans watched.begun
  stands other after found := by
    obtain ⟨before, present, rfl⟩ := update_operations_eq found
    rw [standing]
    by_cases same : index = other
    · rw [if_pos same, if_pos same]
      exact before.resolved_handler code transferred
    · rw [if_neg same, if_neg same]
      exact (watched.stands other before present).keeps rfl id

theorem Watched.advances (watched : Watched start session past) (amount : ℕ) :
    Watched start { session with now := session.now + amount }
      (.advance amount :: past) where
  now := by
    change session.now + amount = start + (elapsed past + amount)
    rw [watched.now, add_assoc]
  timeout := watched.timeout
  begun := watched.begun
  stands index operation found := by
    refine (watched.stands index operation found).keeps rfl fun handler => ?_
    refine handler.imp_right fun due => ⟨due.1, ?_⟩
    have passed := due.2
    change session.expiry ≤ session.now + amount
    omega

theorem Watched.expires (watched : Watched start session past)
    (due : session.expiry ≤ session.now) :
    Watched start session.cancelWaits (.expire :: past) where
  now := watched.now
  timeout := watched.timeout
  begun := watched.begun
  stands index operation found := by
    refine (watched.stands index operation found).keeps rfl fun handler => .inr ⟨?_, due⟩
    rw [Session.cancelWaits, List.mem_append]
    exact handler.symm.imp_left And.left

theorem Watched.handles (watched : Watched start session past) (sound : Sound session)
    {index : ℕ} (queued : index ∈ session.ready) :
    Watched start
      ({ session with ready := session.ready.erase index }.update index
        fun operation => operation.handlerDeadline session.expiry session.now)
      (.handleDeadline index :: past) where
  now := watched.now
  timeout := watched.timeout
  begun := (List.length_modify _ _ _).trans watched.begun
  stands other after found := by
    obtain ⟨before, present, rfl⟩ := update_operations_eq found
    have stands := watched.stands other before present
    rw [standing]
    by_cases same : index = other
    · have running : other ∉ session.waits := by
        rw [← same]
        exact fun waiting => (List.nodup_append'.mp sound.nodup).2.2 waiting queued
      rw [if_pos same, if_pos same]
      exact stands.handled running _
    · rw [if_neg same, if_neg same]
      refine stands.keeps rfl fun handler => handler.imp_right fun due => ⟨?_, due.2⟩
      exact (List.mem_erase_of_ne (Ne.symm same)).mpr due.1

theorem Watched.step (watched : Watched start session past) (sound : Sound session)
    {action : Action} {target : Session} (step : Step session action target) :
    Watched start target (action :: past) := by
  cases step with
  | sets => exact watched.sets _
  | closes => exact watched.closes
  | beginsTimed timed stands => exact watched.beginsTimed timed stands
  | begins untimed => exact watched.begins untimed
  | launches => exact watched.launches _ _
  | completes => exact watched.completes _ _ _
  | advances => exact watched.advances _
  | expires due => exact watched.expires due
  | handles queued => exact watched.handles sound queued

theorem watched_of_reachable {permitted : Session × List Action → Action → Prop}
    {state : Session × List Action}
    (reachable : system.recorded.ReachableUnder permitted state) :
    ∃ start, Watched start state.1 state.2 := by
  induction reachable with
  | start isInitial =>
      obtain ⟨⟨timeout, -, -, operations⟩, past_eq⟩ := isInitial
      rw [past_eq]
      refine ⟨_, ⟨(add_zero _).symm, timeout, congrArg List.length operations, ?_⟩⟩
      intro index operation found
      simp [operations] at found
  | step earlier allowed taken inductionHypothesis =>
      obtain ⟨start, watched⟩ := inductionHypothesis
      obtain ⟨moved, past_eq⟩ := TransitionSystem.next_of_recorded taken
      rw [past_eq]
      exact ⟨start, watched.step (sound_of_reachable earlier.forget) (step_of_next moved)⟩

end

end

end AsyncRuntime.Io.Tcp
