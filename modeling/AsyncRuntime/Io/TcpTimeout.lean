import AsyncRuntime.Io.TcpStanding

/-!
# Which operations their timeout bounds

The `handler_deadline` of a read ends it, unless a later call has armed the timer anew.
A write, and a read that a later call has overtaken, must be ended by the socket.

So the operations of a run that is in time are bounded.  When the handlers are run
promptly there is nothing else that the socket could rely on: after a step that is
not in time the timer alone leads to an operation that is not bounded.
-/

namespace AsyncRuntime.Io.Tcp

open AsyncRuntime.Foundation

section

variable {session : Session}

section

variable {start : ℤ} {past : List Action}

/-! ## The operations of a run that is in time -/

theorem exposedUntil_overtaken {current : Standing} {deadline : ℤ}
    (exposed : deadline ∈ current.overtaken.exposedUntil) :
    deadline ∈ current.guardedUntil ∨ deadline ∈ current.exposedUntil := by
  cases current with
  | untimed => cases exposed
  | guarded other => exact .inl exposed
  | exposed other => exact .inr exposed
  | ended => cases exposed

theorem exposedUntil_cancelled {current : Standing} {time deadline : ℤ}
    (exposed : deadline ∈ (current.cancelled time).exposedUntil) :
    (deadline ∈ current.guardedUntil ∧ time < deadline) ∨
      deadline ∈ current.exposedUntil := by
  cases current with
  | untimed => cases exposed
  | guarded other =>
      rw [Standing.cancelled] at exposed
      split at exposed
      · rename_i ahead
        cases exposed
        exact .inl ⟨rfl, ahead⟩
      · cases exposed
  | exposed other => exact .inr exposed
  | ended => cases exposed

theorem exposedUntil_handled {current : Standing} {deadline : ℤ}
    (exposed : deadline ∈ current.handled.exposedUntil) :
    deadline ∈ current.exposedUntil := by
  cases current with
  | untimed => cases exposed
  | guarded other => cases exposed
  | exposed other => exact exposed
  | ended => cases exposed

theorem exposedUntil_standing {call : Call} {time deadline : ℤ}
    (exposed : deadline ∈ (call.standing time).exposedUntil) : deadline = time := by
  cases call with
  | read => cases exposed
  | readSize size => cases exposed
  | write size =>
      cases exposed
      rfl

/-- No exposed operation has reached its deadline. -/
def Ahead (past : List Action) : Prop :=
  ∀ index < begun past, ∀ deadline ∈ (standing index past).exposedUntil,
    elapsed past < deadline

theorem Ahead.overtaken (ahead : Ahead past) (noneDue : NoneDue past) {index : ℕ}
    (bound : index < begun past) {deadline : ℤ}
    (exposed : deadline ∈ (standing index past).overtaken.exposedUntil) :
    elapsed past < deadline := by
  rcases exposedUntil_overtaken exposed with guarded | before
  · exact noneDue index bound deadline guarded
  · exact ahead index bound deadline before

theorem Ahead.begins (ahead : Ahead past) {call : Call}
    (inTime : InTime past (.begin call)) : Ahead (.begin call :: past) := by
  intro index bound deadline exposed
  change elapsed past < deadline
  rw [begun] at bound
  rw [standing] at exposed
  by_cases timed : 0 < timeoutSet past
  · rw [if_pos timed] at exposed
    by_cases last : index = begun past
    · rw [if_pos last] at exposed
      rw [exposedUntil_standing exposed, seconds]
      omega
    · rw [if_neg last] at exposed
      exact ahead.overtaken (inTime timed) (by omega) exposed
  · rw [if_neg timed] at exposed
    by_cases last : index = begun past
    · rw [if_pos last] at exposed
      cases exposed
    · rw [if_neg last] at exposed
      exact ahead index (by omega) deadline exposed

theorem Ahead.step (ahead : Ahead past) {action : Action} (inTime : InTime past action) :
    Ahead (action :: past) := by
  cases action with
  | setReadTimeout amount =>
      intro index bound deadline exposed
      exact ahead.overtaken inTime bound exposed
  | close =>
      intro index bound deadline exposed
      rcases exposedUntil_cancelled exposed with ⟨-, later⟩ | before
      · exact later
      · exact ahead index bound deadline before
  | begin call => exact ahead.begins inTime
  | launch other thrown =>
      intro index bound deadline exposed
      rw [standing] at exposed
      split at exposed
      · cases exposed
      · exact ahead index bound deadline exposed
  | complete other code transferred =>
      intro index bound deadline exposed
      rw [standing] at exposed
      split at exposed
      · cases exposed
      · exact ahead index bound deadline exposed
  | advance amount => exact inTime
  | expire => exact ahead
  | handleDeadline other =>
      intro index bound deadline exposed
      rw [standing] at exposed
      split at exposed
      · exact ahead index bound deadline (exposedUntil_handled exposed)
      · exact ahead index bound deadline exposed

theorem ahead_of_reachable {state : Session × List Action}
    (reachable :
      system.recorded.ReachableUnder (fun state action => InTime state.2 action) state) :
    Ahead state.2 := by
  induction reachable with
  | start isInitial =>
      rw [isInitial.2]
      exact fun index bound => absurd bound (Nat.not_lt_zero index)
  | step earlier inTime taken ahead =>
      rw [(TransitionSystem.next_of_recorded taken).2]
      exact ahead.step inTime

theorem bounded_of_ahead (sound : Sound session) (watched : Watched start session past)
    (ahead : Ahead past) : session.Bounded := by
  rintro ⟨queue, timer⟩ operation member deadline own passed unset
  obtain ⟨index, found⟩ := List.getElem?_of_mem member
  obtain ⟨bound, -⟩ := List.getElem?_eq_some_iff.mp found
  rw [watched.begun] at bound
  have counted := sound.counted operation member
  have stands := watched.stands index operation found
  have now := watched.now
  rw [Option.mem_def] at own
  cases current : standing index past with
  | untimed =>
      rw [current, Stands, own] at stands
      cases stands
  | guarded time =>
      rw [current] at stands
      have armed := stands.armed
      have due := stands.own
      rw [own, Option.some.injEq] at due
      rcases stands.handler with waiting | ⟨queued, -⟩
      · rcases timer with empty | early
        · rw [empty] at waiting
          cases waiting
        · omega
      · rw [queue] at queued
        cases queued
  | exposed time =>
      rw [current, Stands, own, Option.some.injEq] at stands
      have later := ahead index bound time (by rw [current]; rfl)
      omega
  | ended =>
      rw [current, Stands] at stands
      simp [Operation.Counted, unset, stands] at counted

end

/-! ## A handler in vain -/

/-- The handler of the operation has been run, or does nothing when it is. -/
def Vain (session : Session) (index : ℕ) (operation : Operation) : Prop :=
  operation.knowsTimer = false ∨
    index ∉ session.waits ∧ (index ∈ session.ready → session.now < session.expiry)

section

variable {index : ℕ} {operation : Operation}

theorem Vain.cancelWaits (vain : Vain session index operation) :
    Vain session.cancelWaits index operation := by
  refine vain.imp_right fun ⟨unlisted, early⟩ => ⟨List.not_mem_nil, fun member => ?_⟩
  rcases List.mem_append.mp member with queued | waiting
  · exact early queued
  · exact absurd waiting unlisted

/-- The operations before are not listed after the timer has been armed anew. -/
theorem vain_of_armed (unlisted : index ∉ session.waits)
    (later : session.now < session.expiry) : Vain session index operation :=
  .inr ⟨unlisted, fun _ => later⟩

/-- Time passes when no handler is queued. -/
theorem Vain.advance (vain : Vain session index operation) (empty : session.ready = [])
    (amount : ℕ) :
    Vain { session with now := session.now + amount } index operation := by
  refine vain.imp_right fun ⟨unlisted, _⟩ => ⟨unlisted, fun queued => ?_⟩
  rw [empty] at queued
  cases queued

theorem Vain.handleDeadline (vain : Vain session index operation) (other : ℕ)
    (change : Operation → Operation) :
    Vain ({ session with ready := session.ready.erase other }.update other change) index
      operation :=
  vain.imp_right fun ⟨unlisted, early⟩ =>
    ⟨unlisted, fun member => early (List.mem_of_mem_erase member)⟩

theorem Vain.handlerDeadline_eq (vain : Vain session index operation)
    (queued : index ∈ session.ready) :
    operation.handlerDeadline session.expiry session.now = operation := by
  refine if_neg fun ⟨knows, expired⟩ => ?_
  rcases vain with ignorant | ⟨-, early⟩
  · rw [ignorant] at knows
    cases knows
  · exact absurd expired (not_le.mpr (early queued))

end

/-- The exposed operations of a run whose handlers are prompt. -/
def Waiting (session : Session) (past : List Action) : Prop :=
  ∀ index operation, session.operations[index]? = some operation →
    ∀ deadline ∈ (standing index past).exposedUntil,
      operation.resolved = false ∧ Vain session index operation

section

variable {start : ℤ} {past : List Action}

theorem Waiting.overtaken (waiting : Waiting session past)
    (watched : Watched start session past) {index : ℕ} {operation : Operation}
    (found : session.operations[index]? = some operation) {deadline : ℤ}
    (exposed : deadline ∈ (standing index past).overtaken.exposedUntil) :
    operation.resolved = false := by
  rcases exposedUntil_overtaken exposed with guarded | before
  · exact ((watched.stands _ _ found).guarded guarded).unresolved
  · exact (waiting index operation found deadline before).1

theorem Waiting.closes (waiting : Waiting session past)
    (watched : Watched start session past) :
    Waiting session.cancelWaits (.close :: past) := by
  intro index operation found deadline exposed
  rcases exposedUntil_cancelled exposed with ⟨guarded, later⟩ | before
  · have before := (watched.stands _ _ found).guarded guarded
    refine ⟨before.unresolved, vain_of_armed List.not_mem_nil ?_⟩
    have armed := before.armed
    have now := watched.now
    change session.now < session.expiry
    omega
  · obtain ⟨unresolved, vain⟩ := waiting index operation found deadline before
    exact ⟨unresolved, vain.cancelWaits⟩

theorem Waiting.beginsTimed (waiting : Waiting session past)
    (watched : Watched start session past) {call : Call} {knowsTimer : Bool}
    {atLeast : ℕ} (timed : 0 < session.readTimeout)
    (stands : ∀ deadline, call.standing deadline =
      if knowsTimer = true then .guarded deadline else .exposed deadline) :
    Waiting (session.postWithTimeout call knowsTimer atLeast) (.begin call :: past) := by
  intro index operation found deadline exposed
  have later : session.now < session.now + seconds session.readTimeout := by
    rw [seconds]
    omega
  rw [watched.timeout] at timed
  rw [standing, if_pos timed] at exposed
  rcases post_operations_eq found with old | ⟨last, rfl⟩
  · obtain ⟨bound, -⟩ := List.getElem?_eq_some_iff.mp old
    have other : index ≠ session.operations.length := Nat.ne_of_lt bound
    rw [if_neg (by rw [← watched.begun]; exact other)] at exposed
    refine ⟨waiting.overtaken watched old exposed, vain_of_armed ?_ later⟩
    exact fun member => other (List.mem_singleton.mp member)
  · rw [if_pos (last.trans watched.begun), stands] at exposed
    refine ⟨rfl, .inl ?_⟩
    cases knowsTimer with
    | true => cases exposed
    | false => rfl

theorem Waiting.begins (waiting : Waiting session past)
    (watched : Watched start session past) {call : Call} {atLeast : ℕ}
    (untimed : ¬ 0 < session.readTimeout) :
    Waiting (session.post call false none atLeast) (.begin call :: past) := by
  intro index operation found deadline exposed
  rw [watched.timeout] at untimed
  rw [standing, if_neg untimed] at exposed
  split at exposed
  · cases exposed
  · rename_i other
    rcases post_operations_eq found with old | ⟨last, -⟩
    · exact waiting index operation old deadline exposed
    · exact absurd (last.trans watched.begun) other

theorem Waiting.launches (waiting : Waiting session past) (index : ℕ) (thrown : Bool) :
    Waiting
      (session.update index fun operation =>
        if thrown then { operation.cancel with stage := .ended }
        else { operation with stage := .running })
      (.launch index thrown :: past) := by
  intro other after found deadline exposed
  obtain ⟨before, present, rfl⟩ := update_operations_eq found
  rw [standing] at exposed
  split at exposed
  · cases exposed
  · rename_i unended
    have kept := waiting other before present deadline exposed
    by_cases same : index = other
    · rw [if_pos same]
      cases thrown with
      | true => exact absurd ⟨same, rfl⟩ unended
      | false => exact kept
    · rw [if_neg same]
      exact kept

theorem Waiting.completes (waiting : Waiting session past) (index : ℕ)
    (code : ErrorCode) (transferred : ℕ) :
    Waiting
      (session.update index fun operation =>
        { operation.handler code transferred with stage := .ended })
      (.complete index code transferred :: past) := by
  intro other after found deadline exposed
  obtain ⟨before, present, rfl⟩ := update_operations_eq found
  rw [standing] at exposed
  split at exposed
  · cases exposed
  · rename_i different
    rw [if_neg different]
    exact waiting other before present deadline exposed

theorem Waiting.handles (waiting : Waiting session past) {index : ℕ}
    (queued : index ∈ session.ready) :
    Waiting
      ({ session with ready := session.ready.erase index }.update index
        fun operation => operation.handlerDeadline session.expiry session.now)
      (.handleDeadline index :: past) := by
  intro other after found deadline exposed
  obtain ⟨before, present, rfl⟩ := update_operations_eq found
  rw [standing] at exposed
  by_cases same : index = other
  · subst same
    rw [if_pos rfl] at exposed ⊢
    obtain ⟨unresolved, vain⟩ :=
      waiting index before present deadline (exposedUntil_handled exposed)
    rw [vain.handlerDeadline_eq queued]
    exact ⟨unresolved, vain.handleDeadline index _⟩
  · rw [if_neg same] at exposed ⊢
    obtain ⟨unresolved, vain⟩ := waiting other before present deadline exposed
    exact ⟨unresolved, vain.handleDeadline index _⟩

theorem Waiting.step (waiting : Waiting session past)
    (watched : Watched start session past) {action : Action} {target : Session}
    (prompt : Prompt session action) (step : Step session action target) :
    Waiting target (action :: past) := by
  cases step with
  | @sets amount =>
      intro index operation found deadline exposed
      refine ⟨waiting.overtaken watched found exposed, vain_of_armed List.not_mem_nil ?_⟩
      have positive : 0 < amount := prompt
      change session.now < session.now + seconds amount
      rw [seconds]
      omega
  | closes => exact waiting.closes watched
  | beginsTimed timed stands => exact waiting.beginsTimed watched timed stands
  | begins untimed => exact waiting.begins watched untimed
  | launches => exact waiting.launches _ _
  | completes => exact waiting.completes _ _ _
  | advances =>
      intro index operation found deadline exposed
      obtain ⟨unresolved, vain⟩ := waiting index operation found deadline exposed
      exact ⟨unresolved, vain.advance prompt _⟩
  | expires due =>
      intro index operation found deadline exposed
      obtain ⟨unresolved, vain⟩ := waiting index operation found deadline exposed
      exact ⟨unresolved, vain.cancelWaits⟩
  | handles queued => exact waiting.handles queued

theorem waiting_of_reachable {state : Session × List Action}
    (reachable :
      system.recorded.ReachableUnder (fun state action => Prompt state.1 action) state) :
    Waiting state.1 state.2 := by
  induction reachable with
  | start isInitial =>
      obtain ⟨⟨-, -, -, operations⟩, -⟩ := isInitial
      intro index operation found
      simp [operations] at found
  | step earlier prompt taken waiting =>
      obtain ⟨moved, past_eq⟩ := TransitionSystem.next_of_recorded taken
      obtain ⟨start, watched⟩ := watched_of_reachable earlier
      rw [past_eq]
      exact waiting.step watched prompt (step_of_next moved)

end

/-- An unresolved operation after its deadline, whose handler does not help. -/
structure Stranded (session : Session) (index : ℕ) (operation : Operation) : Prop where
  found : session.operations[index]? = some operation
  unresolved : operation.resolved = false
  passed : ∃ deadline ∈ operation.deadline, deadline ≤ session.now
  vain : Vain session index operation

/-- The timer and the queue of its handlers move on. -/
def Action.OfTimer : Action → Prop
  | .expire | .handleDeadline _ => True
  | _ => False

/-- The runs that begin at a session. -/
def continuing (source : Session) : TransitionSystem Session Action where
  initial := (· = source)
  next := next

theorem Stranded.cancelWaits {index : ℕ} {operation : Operation}
    (stranded : Stranded session index operation) :
    Stranded session.cancelWaits index operation :=
  ⟨stranded.found, stranded.unresolved, stranded.passed, stranded.vain.cancelWaits⟩

theorem Stranded.handleDeadline {index other : ℕ} {operation : Operation}
    (stranded : Stranded session index operation) (queued : other ∈ session.ready) :
    Stranded ({ session with ready := session.ready.erase other }.update other
      fun before => before.handlerDeadline session.expiry session.now) index operation where
  found := by
    rw [Session.update, List.getElem?_modify, stranded.found]
    by_cases same : other = index
    · rw [same] at queued
      simp [same, stranded.vain.handlerDeadline_eq queued]
    · simp [same]
  unresolved := stranded.unresolved
  passed := stranded.passed
  vain := stranded.vain.handleDeadline other _

/-- The queue is run until it is empty. -/
theorem drained {source : Session} {index : ℕ} {operation : Operation}
    (queue : List ℕ) (queued : session.ready = queue)
    (reached : (continuing source).ReachableUnder (fun _ action => action.OfTimer) session)
    (stranded : Stranded session index operation) :
    ∃ later, (continuing source).ReachableUnder (fun _ action => action.OfTimer) later ∧
      Stranded later index operation ∧ later.ready = [] ∧
      later.waits = session.waits ∧ later.now = session.now ∧
      later.expiry = session.expiry := by
  induction queue generalizing session with
  | nil => exact ⟨session, reached, stranded, queued, rfl, rfl, rfl⟩
  | cons head rest inductionHypothesis =>
      have member : head ∈ session.ready := by simp [queued]
      have remaining : session.ready.erase head = rest := by simp [queued]
      have taken : (continuing source).next session (.handleDeadline head) =
          some ({ session with ready := session.ready.erase head }.update head
            fun before => before.handlerDeadline session.expiry session.now) :=
        if_pos member
      have ofTimer : Action.OfTimer (.handleDeadline head) := trivial
      obtain ⟨later, after, kept, empty, waits, now, expiry⟩ :=
        inductionHypothesis remaining (.step reached ofTimer taken)
          (stranded.handleDeadline member)
      exact ⟨later, after, kept, empty, waits, now, expiry⟩

theorem Stranded.not_bounded {index : ℕ} {operation : Operation} (sound : Sound session)
    (stranded : Stranded session index operation) (quiet : session.Quiet) :
    ¬ session.Bounded := by
  intro bounded
  obtain ⟨deadline, own, passed⟩ := stranded.passed
  have member := List.mem_of_getElem? stranded.found
  have counted := sound.counted operation member
  rw [Operation.Counted, stranded.unresolved] at counted
  exact bounded quiet operation member deadline own passed
    (List.length_eq_zero_iff.mp counted)

/-- With its handlers run, the timer is quiet and the operation still unresolved. -/
theorem Stranded.violates {index : ℕ} {operation : Operation} (sound : Sound session)
    (stranded : Stranded session index operation) :
    ∃ later,
      (continuing session).ReachableUnder (fun _ action => action.OfTimer) later ∧
        ¬ later.Bounded := by
  have soundLater : ∀ later,
      (continuing session).ReachableUnder (fun _ action => action.OfTimer) later →
        Sound later := by
    intro later reached
    refine reached.invariant ?_ ?_
    · rintro source rfl
      exact sound
    · intro source action target _ _ taken earlier
      exact earlier.step (step_of_next taken)
  have here : (continuing session).ReachableUnder (fun _ action => action.OfTimer) session :=
    .start rfl
  by_cases due : session.expiry ≤ session.now
  · -- The waits that are due join the queue first.
    have taken : (continuing session).next session .expire = some session.cancelWaits :=
      if_pos due
    have ofTimer : Action.OfTimer .expire := trivial
    obtain ⟨later, reached, still, empty, waits, -, -⟩ :=
      drained _ rfl (.step here ofTimer taken) stranded.cancelWaits
    exact ⟨later, reached, still.not_bounded (soundLater later reached) ⟨empty, .inl waits⟩⟩
  · obtain ⟨later, reached, still, empty, -, now, expiry⟩ :=
      drained _ rfl here stranded
    refine ⟨later, reached, still.not_bounded (soundLater later reached) ⟨empty, .inr ?_⟩⟩
    omega

section

variable {start : ℤ} {past : List Action}

/-- A call that arms the timer anew leaves a handler behind that is due. -/
theorem Watched.stranded_of_due (watched : Watched start session past)
    (due : ¬ NoneDue past) :
    ∃ (index : ℕ) (operation : Operation),
      session.operations[index]? = some operation ∧ operation.resolved = false ∧
        ∃ deadline ∈ operation.deadline, deadline ≤ session.now := by
  simp only [NoneDue, not_forall, not_lt, exists_prop] at due
  obtain ⟨index, bound, deadline, guarded, reached⟩ := due
  rw [← watched.begun] at bound
  have found := List.getElem?_eq_getElem bound
  have before := (watched.stands _ _ found).guarded guarded
  refine ⟨index, _, found, before.unresolved, start + deadline, before.own, ?_⟩
  have now := watched.now
  omega

/-- A step that is not in time leaves an operation stranded. -/
theorem Watched.stranded_of_not_inTime (watched : Watched start session past)
    (waiting : Waiting session past) {action : Action} {target : Session}
    (prompt : Prompt session action) (late : ¬ InTime past action)
    (step : Step session action target) :
    ∃ index operation, Stranded target index operation := by
  cases step with
  | @sets amount =>
      obtain ⟨index, operation, found, unresolved, passed⟩ := watched.stranded_of_due late
      refine ⟨index, operation, found, unresolved, passed,
        vain_of_armed List.not_mem_nil ?_⟩
      have positive : 0 < amount := prompt
      change session.now < session.now + seconds amount
      rw [seconds]
      omega
  | beginsTimed timed stands =>
      have due : ¬ NoneDue past := fun noneDue => late fun _ => noneDue
      obtain ⟨index, operation, found, unresolved, passed⟩ := watched.stranded_of_due due
      obtain ⟨bound, -⟩ := List.getElem?_eq_some_iff.mp found
      refine ⟨index, operation, ?_, unresolved, passed, vain_of_armed ?_ ?_⟩
      · exact (List.getElem?_append_left bound).trans found
      · exact fun member => Nat.ne_of_lt bound (List.mem_singleton.mp member)
      · change session.now < session.now + seconds session.readTimeout
        rw [seconds]
        omega
  | begins untimed =>
      rw [watched.timeout] at untimed
      exact absurd (fun timed => absurd timed untimed) late
  | @advances amount =>
      simp only [InTime, not_forall, not_lt, exists_prop] at late
      obtain ⟨index, bound, deadline, exposed, reached⟩ := late
      rw [← watched.begun] at bound
      have found := List.getElem?_eq_getElem bound
      obtain ⟨unresolved, vain⟩ := waiting index _ found deadline exposed
      have own := (watched.stands _ _ found).exposed exposed
      have now := watched.now
      refine ⟨index, _, found, unresolved, ⟨start + deadline, own, ?_⟩,
        vain.advance prompt amount⟩
      change start + deadline ≤ session.now + amount
      omega
  | _ => exact absurd trivial late

end

end

/-! ## The bound and its limits -/

/-- A session just after its constructor. -/
def freshSession : Session where
  now := 0
  readTimeout := 0
  expiry := 0
  waits := []
  ready := []
  operations := []

theorem freshSession_fresh : Fresh freshSession :=
  ⟨rfl, rfl, rfl, rfl⟩

/--
No promise is set twice, and as long as the steps are in time every operation with a
timeout is over by its deadline.  If handlers are prompt, a step that is not in time
leads to an operation that is not, and only the timer has to move.
-/
theorem timeout_bounds_iff_inTime (session : Session) (past : List Action) :
    (system.Reachable session → session.SetOnce) ∧
      (system.recorded.ReachableUnder (fun state action => InTime state.2 action)
          (session, past) → session.Bounded) ∧
      (system.recorded.ReachableUnder (fun state action => Prompt state.1 action)
          (session, past) →
        ∀ action target, next session action = some target →
          Prompt session action → ¬ InTime past action →
            ∃ later,
              (continuing target).ReachableUnder (fun _ step => step.OfTimer) later ∧
                ¬ later.Bounded) := by
  refine ⟨?_, ?_, ?_⟩
  · intro reachable
    exact setOnce_of_sound (sound_of_reachable reachable)
  · intro reachable
    obtain ⟨start, watched⟩ := watched_of_reachable reachable
    exact bounded_of_ahead (sound_of_reachable reachable.forget) watched
      (ahead_of_reachable reachable)
  · intro reachable action target taken prompt late
    have sound := sound_of_reachable reachable.forget
    have step := step_of_next taken
    obtain ⟨start, watched⟩ := watched_of_reachable reachable
    obtain ⟨index, operation, stranded⟩ :=
      watched.stranded_of_not_inTime (waiting_of_reachable reachable) prompt late step
    exact stranded.violates (sound.step step)

theorem recorded_freshSession : system.recorded.initial (freshSession, []) :=
  ⟨freshSession_fresh, rfl⟩

/-- Two reads overlap: the socket serves the first, the timer ends the second. -/
def overlappingReads : List Action :=
  [.setReadTimeout 1, .begin .read, .launch 0 false, .begin (.readSize 3),
    .launch 1 false, .handleDeadline 0, .complete 0 .success 1, .advance 1000000,
    .expire, .handleDeadline 1]

/-- The promises of the overlapping reads. -/
def overlappingReadsEnd (session : Session) : Prop :=
  session.operations.map Operation.promise =
    [[.readResult .success 1], [.readResult .timedOut 0]]

instance : DecidablePred overlappingReadsEnd := fun _ =>
  inferInstanceAs (Decidable (_ = _))

theorem timeout_bounds_overlapping :
    ∃ session past,
      system.recorded.ReachableUnder (fun state action => InTime state.2 action)
          (session, past) ∧
        (overlappingReadsEnd session ∧ session.Quiet) ∧ session.Bounded := by
  obtain ⟨⟨session, past⟩, reachable, ends⟩ :=
    TransitionSystem.exists_reachableUnder_of_run system.recorded
      (fun state action => InTime state.2 action) recorded_freshSession
      overlappingReads
      (fun state => decide (overlappingReadsEnd state.1 ∧ state.1.Quiet)) (by decide)
  exact ⟨session, past, reachable, of_decide_eq_true ends,
    (timeout_bounds_iff_inTime session past).2.1 reachable⟩

/-- A write is still unresolved one second after its deadline. -/
theorem write_not_bounded :
    ¬ ∀ session, system.Reachable session → 0 < session.readTimeout →
      session.Bounded ∧ session.SetOnce := by
  intro claim
  obtain ⟨session, reachable, ends⟩ :=
    TransitionSystem.exists_reachableUnder_of_run system (fun _ _ => True)
      freshSession_fresh
      [.setReadTimeout 1, .begin (.write 5), .launch 0 false, .advance 2000000,
        .expire, .handleDeadline 0]
      (fun session => decide (0 < session.readTimeout ∧ ¬ session.Bounded)) (by decide)
  obtain ⟨timed, late⟩ := of_decide_eq_true ends
  exact late (claim session reachable timed).1

end AsyncRuntime.Io.Tcp
