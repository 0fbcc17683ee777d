import AsyncRuntime.Runtime.Resolution
import Mathlib.Data.List.Basic
import Mathlib.Logic.Function.Basic

/-!
# A coroutine as a generator

A coroutine and the thread that resumes it hold each other in two continuation
objects, `coroutine::continuation` and `yield::continuation`.  A switch empties the
object it goes through, and its result is written back when control returns: the
context that switched back, or nothing when that context has ended.  `resume_with`
runs its argument on the other side before the write-back.

A body yields some values and then returns or throws.  It is driven in cycles of
`init_promise`, `get_future` and `resume`.  Every cycle gets a promise of its own,
which a yield, the end of the body or a `resume` that finds the coroutine completed
satisfies.  What is stored for an object thrown by the body is the matter of
`coroutine::call`.
-/

namespace AsyncRuntime.Generator

open AsyncRuntime.Runtime.Resolution

universe u v

variable {Kind : Type u} {Content Value : Type v}

/-- The exception types, Boost's promise and `std::runtime_error`. -/
structure CoroutineLibrary (Kind : Type u) (Content : Type v) extends
    Library Kind Content where
  runtimeError : String → Object Kind Content

/-- What a body does: it yields some values and then returns or throws. -/
structure Body (Kind : Type u) (Content Value : Type v) where
  yields : List Value
  ending : Outcome Kind Content Value

/-- The contexts that switch to each other. -/
inductive Context where
  | thread
  | coroutine
  deriving DecidableEq

/--
Where the stack of the coroutine is suspended: in the function given to `callcc`
before `call`, in a yield with the rest of the body to come, or nowhere.
-/
inductive Stack (Kind : Type u) (Content Value : Type v) where
  | start (fn : Body Kind Content Value)
  | yielding (rest : Body Kind Content Value)
  | gone

/--
A coroutine with all promises it ever had; `promise` is the number of `y.promise`.
`visits` counts how often a part of the body has run.
-/
structure State (Kind : Type u) (Content Value : Type v) where
  stack : Stack Kind Content Value
  continuation : Option Context
  yieldContinuation : Option Context
  ended : Bool
  promises : ℕ → Promise Kind Content Value
  promise : ℕ
  retrieved : Bool
  visits : ℕ

/--
Why a call does not return: an exception leaves it, an exception leaves the function
of a context, a continuation without a context is resumed, or the future of a promise
is taken twice.
-/
inductive Stop (Kind : Type u) (Content : Type v) where
  | thrown (object : Object Kind Content)
  | terminated (object : Object Kind Content)
  | emptyContinuation
  | alreadyRetrieved

namespace State

/-- Run code that uses `y.promise`. -/
def onPromise (state : State Kind Content Value)
    (code : Computation Kind Content Value PUnit) :
    Outcome Kind Content PUnit × State Kind Content Value :=
  let result := code (state.promises state.promise)
  (result.1,
    { state with
      promises := Function.update state.promises state.promise result.2 })

/--
The constructor.  The function given to `callcc` stores the thread in
`y.continuation` and switches back through it, so that `callcc` returns the context
of the coroutine.
-/
def construct (fn : Body Kind Content Value) : State Kind Content Value :=
  let entered : State Kind Content Value :=
    { stack := .start fn
      continuation := none
      yieldContinuation := some .thread
      ended := false
      promises := fun _ => .empty
      promise := 0
      retrieved := false
      visits := 0 }
  { entered with yieldContinuation := none, continuation := some .coroutine }

/-- `is_completed` -/
def isCompleted (state : State Kind Content Value) : Bool :=
  state.ended || state.continuation.isNone

/-- `init_promise` -/
def initPromise (state : State Kind Content Value) : State Kind Content Value :=
  { state with promise := state.promise + 1, retrieved := false }

/-- `get_future` -/
def getFuture (state : State Kind Content Value) :
    Except (Stop Kind Content) (State Kind Content Value × ℕ) :=
  if state.retrieved then
    .error .alreadyRetrieved
  else
    .ok ({ state with retrieved := true }, state.promise)

end State

section Source

variable (library : CoroutineLibrary Kind Content)

/--
`yield::operator()`.  The callback of `resume_with` sets the promise on the stack of
the thread, and the thread gets the context of the coroutine back.
-/
def yieldValue (state : State Kind Content Value) (value : Value)
    (rest : Body Kind Content Value) :
    Except (Stop Kind Content) (State Kind Content Value × Option Context) :=
  match state.yieldContinuation with
  | none => .error .emptyContinuation
  | some _ =>
      match state.onPromise (setValue library.toLibrary value) with
      | (.error object, _) => .error (.thrown object)
      | (.ok _, stored) =>
          .ok ({ stored with yieldContinuation := none, stack := .yielding rest },
            some .coroutine)

/--
The rest of the function given to `callcc`: the body ends, `call` stores its outcome,
`end` is set and `y.continuation` is returned.  The thread gets nothing back.
-/
def finishCall (state : State Kind Content Value)
    (ending : Outcome Kind Content Value) :
    Except (Stop Kind Content) (State Kind Content Value × Option Context) :=
  match state.onPromise (call library.toLibrary ending) with
  | (.error object, _) => .error (.terminated object)
  | (.ok _, stored) =>
      match stored.yieldContinuation with
      | none => .error .emptyContinuation
      | some _ =>
          .ok ({ stored with
            ended := true, yieldContinuation := none, stack := .gone }, none)

/-- The body runs to its next yield or to its end. -/
def runBody (state : State Kind Content Value) (body : Body Kind Content Value) :
    Except (Stop Kind Content) (State Kind Content Value × Option Context) :=
  let visited := { state with visits := state.visits + 1 }
  match body.yields with
  | value :: rest => yieldValue library visited value ⟨rest, body.ending⟩
  | [] => finishCall library visited body.ending

/--
The coroutine is entered from the thread, which is written back to `y.continuation`
wherever the coroutine was suspended.
-/
def enter (state : State Kind Content Value) :
    Except (Stop Kind Content) (State Kind Content Value × Option Context) :=
  let entered := { state with yieldContinuation := some .thread }
  match state.stack with
  | .start fn => runBody library entered fn
  | .yielding rest => runBody library entered rest
  | .gone => .error .emptyContinuation

/-- `coroutine::resume` -/
def resume (state : State Kind Content Value) :
    Except (Stop Kind Content) (State Kind Content Value) :=
  if state.isCompleted then
    match
      state.onPromise (store library.toLibrary
        (.error (library.runtimeError "coroutine is completed"))) with
    | (.error object, _) => .error (.thrown object)
    | (.ok _, stored) => .ok stored
  else
    match enter library { state with continuation := none } with
    | .error stop => .error stop
    | .ok (returned, context) => .ok { returned with continuation := context }

/-- A cycle of `init_promise`, `get_future` and `resume`. -/
def cycle (state : State Kind Content Value) :
    Except (Stop Kind Content) (State Kind Content Value × ℕ) := do
  let (asked, future) ← state.initPromise.getFuture
  let resumed ← resume library asked
  return (resumed, future)

/-- A new coroutine after a number of cycles, with their futures. -/
def cycles (fn : Body Kind Content Value) :
    ℕ → Except (Stop Kind Content) (State Kind Content Value × List ℕ)
  | 0 => .ok (.construct fn, [])
  | count + 1 => do
      let (state, futures) ← cycles fn count
      let (later, future) ← cycle library state
      return (later, futures ++ [future])

end Source

/-! ## What is asked of a generator -/

section Property

variable (library : CoroutineLibrary Kind Content)

/-- What the future of a cycle holds, the first cycle being number zero. -/
def expected (fn : Body Kind Content Value) (index : ℕ) :
    Outcome Kind Content Value :=
  match fn.yields[index]? with
  | some value => .ok value
  | none =>
      if index = fn.yields.length then
        fn.ending
      else
        .error (library.runtimeError "coroutine is completed")

/--
Every future holds what it should, no promise is set twice, the coroutine is
completed once the body has ended, and the body does not run again after that.
-/
structure Generates (fn : Body Kind Content Value) (count : ℕ)
    (state : State Kind Content Value) (futures : List ℕ) : Prop where
  length_eq : futures.length = count
  holds :
    ∀ index < count, ∀ future, futures[index]? = some future →
      (state.promises future).get = some (expected library fn index)
  once : ∀ number, (state.promises number).stored.length ≤ 1
  completed_iff : state.isCompleted = true ↔ fn.yields.length + 1 ≤ count
  visits_eq : state.visits = min count (fn.yields.length + 1)

/-- The cycles all return, and the coroutine generates what it should. -/
def Faithful (fn : Body Kind Content Value) (count : ℕ) : Prop :=
  ∃ state futures,
    cycles library fn count = .ok (state, futures) ∧
      Generates library fn count state futures

/-- The body returns, or Boost hands the object back from an `std::exception_ptr`. -/
def Preserved : Outcome Kind Content Value → Prop
  | .ok _ => True
  | .error object => library.handed object = object

end Property

/-! ## One cycle -/

/-- What a suspended coroutine has still to run. -/
def Stack.body : Stack Kind Content Value → Option (Body Kind Content Value)
  | .start fn => some fn
  | .yielding rest => some rest
  | .gone => none

/-- The promise of this cycle holds an outcome. -/
def State.put (state : State Kind Content Value)
    (outcome : Outcome Kind Content Value) : State Kind Content Value :=
  { state with
    promises := Function.update state.promises state.promise ⟨[outcome]⟩ }

section Cycle

variable (library : CoroutineLibrary Kind Content)

/-- What `call` stores for the end of a body. -/
def kept : Outcome Kind Content Value → Outcome Kind Content Value
  | .ok value => .ok value
  | .error object => .error (library.handed object)

variable {state : State Kind Content Value} {body : Body Kind Content Value}

theorem onPromise_store (empty : state.promises state.promise = .empty)
    (outcome : Outcome Kind Content Value) :
    state.onPromise (store library.toLibrary outcome) =
      (.ok ⟨⟩, state.put outcome) := by
  simp [State.onPromise, State.put, empty]

theorem onPromise_call (empty : state.promises state.promise = .empty)
    (ending : Outcome Kind Content Value) :
    state.onPromise (call library.toLibrary ending) =
      (.ok ⟨⟩, state.put (kept library ending)) := by
  cases ending with
  | ok value => simp [State.onPromise, State.put, empty, call_value, kept]
  | error object => simp [State.onPromise, State.put, empty, call_thrown, kept]

/-- A coroutine that has ended stores its error and nothing else. -/
theorem resume_completed (completed : state.isCompleted = true)
    (empty : state.promises state.promise = .empty) :
    resume library state =
      .ok (state.put (.error (library.runtimeError "coroutine is completed"))) := by
  rw [resume, if_pos completed, onPromise_store library empty]

theorem enter_eq_runBody (suspended : state.stack.body = some body) :
    enter library state =
      runBody library { state with yieldContinuation := some .thread } body := by
  unfold enter
  cases place : state.stack with
  | start fn =>
      rw [place] at suspended
      cases suspended
      rfl
  | yielding rest =>
      rw [place] at suspended
      cases suspended
      rfl
  | gone =>
      rw [place] at suspended
      cases suspended

/-- The two write-backs of a yield put both continuations back. -/
theorem resume_yields (waiting : state.isCompleted = false)
    (suspended : state.stack.body = some body) {value : Value} {rest : List Value}
    (yields_eq : body.yields = value :: rest)
    (empty : state.promises state.promise = .empty) :
    resume library state =
      .ok { state.put (.ok value) with
        stack := .yielding ⟨rest, body.ending⟩
        continuation := some .coroutine
        yieldContinuation := none
        visits := state.visits + 1 } := by
  have entered :
      ({ state with continuation := none } : State Kind Content Value).stack.body =
        some body := suspended
  rw [resume, if_neg (by simp [waiting]), enter_eq_runBody library entered]
  simp only [runBody, yields_eq, yieldValue, setValue]
  rw [onPromise_store]
  · rfl
  · exact empty

/-- The end of the body leaves no continuation behind. -/
theorem resume_finishes (waiting : state.isCompleted = false)
    (suspended : state.stack.body = some body) (yields_eq : body.yields = [])
    (empty : state.promises state.promise = .empty) :
    resume library state =
      .ok { state.put (kept library body.ending) with
        stack := .gone
        continuation := none
        yieldContinuation := none
        ended := true
        visits := state.visits + 1 } := by
  have entered :
      ({ state with continuation := none } : State Kind Content Value).stack.body =
        some body := suspended
  rw [resume, if_neg (by simp [waiting]), enter_eq_runBody library entered]
  simp only [runBody, yields_eq, finishCall]
  rw [onPromise_call]
  · rfl
  · exact empty

end Cycle

/-! ## Any number of cycles -/

section Cycles

variable (library : CoroutineLibrary Kind Content)

/-- What the code stores in the promise of a cycle. -/
def held (fn : Body Kind Content Value) (index : ℕ) : Outcome Kind Content Value :=
  match fn.yields[index]? with
  | some value => .ok value
  | none =>
      if index = fn.yields.length then
        kept library fn.ending
      else
        .error (library.runtimeError "coroutine is completed")

/-- The promises after a number of cycles; number zero is replaced by the first one. -/
def recorded (fn : Body Kind Content Value) (count number : ℕ) :
    Promise Kind Content Value :=
  if 0 < number ∧ number ≤ count then ⟨[held library fn (number - 1)]⟩ else .empty

/-- A coroutine between two cycles. -/
structure Between (fn : Body Kind Content Value) (count : ℕ)
    (state : State Kind Content Value) : Prop where
  promise_eq : state.promise = count
  promises_eq : state.promises = recorded library fn count
  place :
    count ≤ fn.yields.length ∧ state.isCompleted = false ∧
        state.stack.body = some ⟨fn.yields.drop count, fn.ending⟩ ∨
      fn.yields.length < count ∧ state.isCompleted = true
  visits_eq : state.visits = min count (fn.yields.length + 1)

variable {fn : Body Kind Content Value} {count : ℕ}
variable {state : State Kind Content Value}

theorem between_construct : Between library fn 0 (.construct fn) where
  promise_eq := rfl
  promises_eq := by
    funext number
    have past : ¬ (0 < number ∧ number ≤ 0) := by omega
    rw [recorded, if_neg past]
    rfl
  place := .inl ⟨Nat.zero_le _, rfl, rfl⟩
  visits_eq := (Nat.zero_min _).symm

theorem recorded_next : recorded library fn count (count + 1) = .empty := by
  rw [recorded, if_neg (by omega)]

theorem update_recorded :
    Function.update (recorded library fn count) (count + 1)
        ⟨[held library fn count]⟩ =
      recorded library fn (count + 1) := by
  funext number
  by_cases here : number = count + 1
  · subst here
    rw [Function.update_self, recorded, if_pos (by omega), Nat.add_sub_cancel]
  · have same : (0 < number ∧ number ≤ count) ↔ 0 < number ∧ number ≤ count + 1 := by
      omega
    rw [Function.update_of_ne here, recorded, recorded]
    simp only [same]

/-- The coroutine when a cycle calls `resume`. -/
def State.asked (state : State Kind Content Value) : State Kind Content Value :=
  { state with promise := state.promise + 1, retrieved := true }

theorem cycle_eq (state : State Kind Content Value) :
    cycle library state =
      (resume library state.asked).map fun later => (later, state.promise + 1) := by
  have taken : state.initPromise.getFuture = .ok (state.asked, state.promise + 1) := rfl
  simp only [cycle, taken, bind, Except.bind]
  cases resume library state.asked with
  | error stop => rfl
  | ok later => rfl

theorem Between.asked_empty (between : Between library fn count state) :
    state.asked.promises state.asked.promise = .empty := by
  simp only [State.asked, between.promise_eq, between.promises_eq]
  exact recorded_next library

theorem Between.put_promises (between : Between library fn count state) :
    (state.asked.put (held library fn count)).promises =
      recorded library fn (count + 1) := by
  simp only [State.put, State.asked, between.promise_eq, between.promises_eq]
  exact update_recorded library

theorem held_of_yield {value : Value} {rest : List Value}
    (remaining : fn.yields.drop count = value :: rest) :
    held library fn count = .ok value := by
  have found : fn.yields[count]? = some value := by
    rw [← List.head?_drop, remaining]
    rfl
  simp only [held, found]

theorem held_of_end (last : count = fn.yields.length) :
    held library fn count = kept library fn.ending := by
  simp [held, last]

theorem held_of_past (past : fn.yields.length < count) :
    held library fn count =
      .error (library.runtimeError "coroutine is completed") := by
  have none_left : fn.yields[count]? = none := by
    rw [List.getElem?_eq_none_iff]
    omega
  simp only [held, none_left]
  rw [if_neg (by omega)]

variable {library}

/-- The body yields once more. -/
theorem Between.resume_yield (between : Between library fn count state)
    (waiting : state.isCompleted = false)
    (suspended : state.stack.body = some ⟨fn.yields.drop count, fn.ending⟩)
    {value : Value} {rest : List Value}
    (remaining : fn.yields.drop count = value :: rest) :
    ∃ later,
      resume library state.asked = .ok later ∧ Between library fn (count + 1) later := by
  have ended : state.ended = false := (Bool.or_eq_false_iff.mp waiting).1
  have before : count < fn.yields.length := by
    have nonempty : 0 < (fn.yields.drop count).length := by
      rw [remaining]
      exact Nat.succ_pos _
    rw [List.length_drop] at nonempty
    omega
  have rest_eq : rest = fn.yields.drop (count + 1) := by
    rw [← List.tail_drop, remaining]
    rfl
  have asked_waiting : state.asked.isCompleted = false := waiting
  have resumed :=
    resume_yields library asked_waiting suspended remaining between.asked_empty
  refine ⟨_, resumed, ?_⟩
  constructor
  · exact congrArg (· + 1) between.promise_eq
  · rw [← between.put_promises, held_of_yield library remaining]
  · refine .inl ⟨before, ?_, ?_⟩
    · simp [State.isCompleted, State.put, State.asked, ended]
    · rw [← rest_eq]
      rfl
  · simp only [State.asked, between.visits_eq]
    omega

/-- The body ends. -/
theorem Between.resume_end (between : Between library fn count state)
    (waiting : state.isCompleted = false)
    (suspended : state.stack.body = some ⟨fn.yields.drop count, fn.ending⟩)
    (last : count = fn.yields.length) :
    ∃ later,
      resume library state.asked = .ok later ∧ Between library fn (count + 1) later := by
  have remaining : fn.yields.drop count = [] := by
    rw [last, List.drop_length]
  have asked_waiting : state.asked.isCompleted = false := waiting
  have resumed :=
    resume_finishes library asked_waiting suspended remaining between.asked_empty
  refine ⟨_, resumed, ?_⟩
  constructor
  · exact congrArg (· + 1) between.promise_eq
  · rw [← between.put_promises, held_of_end library last]
  · exact .inr ⟨by omega, rfl⟩
  · simp only [State.asked, between.visits_eq]
    omega

/-- The body has ended before. -/
theorem Between.resume_past (between : Between library fn count state)
    (past : fn.yields.length < count) (completed : state.isCompleted = true) :
    ∃ later,
      resume library state.asked = .ok later ∧ Between library fn (count + 1) later := by
  have asked_completed : state.asked.isCompleted = true := completed
  refine ⟨_, resume_completed library asked_completed between.asked_empty, ?_⟩
  constructor
  · exact congrArg (· + 1) between.promise_eq
  · rw [← between.put_promises, held_of_past library past]
  · exact .inr ⟨by omega, completed⟩
  · simp only [State.put, State.asked, between.visits_eq]
    omega

/-- A cycle stores the next outcome, and no other promise changes. -/
theorem Between.cycle (between : Between library fn count state) :
    ∃ later,
      Generator.cycle library state = .ok (later, count + 1) ∧
        Between library fn (count + 1) later := by
  have resumes :
      ∃ later,
        resume library state.asked = .ok later ∧
          Between library fn (count + 1) later := by
    rcases between.place with ⟨inside, waiting, suspended⟩ | ⟨past, completed⟩
    · cases remaining : fn.yields.drop count with
      | cons value rest => exact between.resume_yield waiting suspended remaining
      | nil =>
          have reached := List.drop_eq_nil_iff.mp remaining
          exact between.resume_end waiting suspended (by omega)
    · exact between.resume_past past completed
  obtain ⟨later, resumed, after⟩ := resumes
  refine ⟨later, ?_, after⟩
  rw [cycle_eq, between.promise_eq, resumed]
  rfl

variable (library)

theorem exists_between (fn : Body Kind Content Value) (count : ℕ) :
    ∃ state,
      cycles library fn count = .ok (state, (List.range count).map (· + 1)) ∧
        Between library fn count state := by
  induction count with
  | zero => exact ⟨.construct fn, rfl, between_construct library⟩
  | succ count inductionHypothesis =>
      obtain ⟨state, cycles_eq, between⟩ := inductionHypothesis
      obtain ⟨later, cycled, after⟩ := between.cycle
      refine ⟨later, ?_, after⟩
      rw [cycles, cycles_eq]
      simp only [bind, Except.bind, cycled, List.range_succ, List.map_append]
      rfl

theorem kept_eq_iff (ending : Outcome Kind Content Value) :
    kept library ending = ending ↔ Preserved library ending := by
  cases ending with
  | ok value => exact ⟨fun _ => trivial, fun _ => rfl⟩
  | error object =>
      simp only [kept, Preserved, Except.error.injEq]

/-- Only the end of the body may be stored as something else. -/
theorem held_eq_expected_iff (fn : Body Kind Content Value) (index : ℕ) :
    held library fn index = expected library fn index ↔
      (index = fn.yields.length → Preserved library fn.ending) := by
  rw [← kept_eq_iff]
  unfold held expected
  cases found : fn.yields[index]? with
  | some value =>
      obtain ⟨inside, -⟩ := List.getElem?_eq_some_iff.mp found
      constructor
      · intro _ last
        omega
      · intro _
        rfl
  | none =>
      by_cases last : index = fn.yields.length
      · simp [last]
      · simp [last]

theorem Between.generates_iff (between : Between library fn count state) :
    Generates library fn count state ((List.range count).map (· + 1)) ↔
      ∀ index < count, held library fn index = expected library fn index := by
  have stored (index : ℕ) (inside : index < count) :
      state.promises (index + 1) = ⟨[held library fn index]⟩ := by
    rw [between.promises_eq, recorded, if_pos (by omega), Nat.add_sub_cancel]
  have numbered (index : ℕ) (inside : index < count) :
      ((List.range count).map (· + 1))[index]? = some (index + 1) := by
    simp [inside]
  constructor
  · intro generates index inside
    have holds := generates.holds index inside _ (numbered index inside)
    rw [stored index inside] at holds
    exact Option.some.inj holds
  · intro agrees
    constructor
    · simp
    · intro index inside future found
      rw [numbered index inside] at found
      cases found
      rw [stored index inside, ← agrees index inside]
      rfl
    · intro number
      rw [between.promises_eq, recorded]
      split
      · exact Nat.le_refl 1
      · exact Nat.zero_le 1
    · rcases between.place with ⟨inside, waiting, -⟩ | ⟨past, completed⟩
      · rw [waiting]
        constructor
        · intro impossible
          cases impossible
        · intro reached
          omega
      · exact ⟨fun _ => past, fun _ => completed⟩
    · exact between.visits_eq

/-- A coroutine is faithful when its promises hold what they should. -/
theorem faithful_iff_held (fn : Body Kind Content Value) (count : ℕ) :
    Faithful library fn count ↔
      ∀ index < count, held library fn index = expected library fn index := by
  obtain ⟨state, cycles_eq, between⟩ := exists_between library fn count
  rw [← between.generates_iff]
  constructor
  · rintro ⟨found, futures, found_eq, generates⟩
    rw [cycles_eq] at found_eq
    cases found_eq
    exact generates
  · intro generates
    exact ⟨state, _, cycles_eq, generates⟩

/--
The cycles of a coroutine generate the values of its body, its end and then the error,
exactly when the end of the body is not reached or it is stored as it is: the body
returns, or Boost hands the object that it throws back from an `std::exception_ptr`.
-/
theorem generator_faithful_iff (fn : Body Kind Content Value) (count : ℕ) :
    Faithful library fn count ↔
      count ≤ fn.yields.length ∨ Preserved library fn.ending := by
  rw [faithful_iff_held]
  simp only [held_eq_expected_iff]
  constructor
  · intro agrees
    by_cases reached : fn.yields.length < count
    · exact .inr (agrees _ reached rfl)
    · exact .inl (Nat.le_of_not_lt reached)
  · rintro (early | preserved) index inside last
    · omega
    · exact preserved

end Cycles

/-- Boost as it is, with `what()` as the content. -/
def boostCoroutine : CoroutineLibrary Thrown String where
  toLibrary := boost
  runtimeError := fun text => ⟨.runtimeError, text⟩

/-- A body that yields once and throws has an `std::exception_ptr` in its second future. -/
theorem thrown_object_not_generated :
    ¬ ∀ (fn : Body Thrown String String) (count : ℕ),
      Faithful boostCoroutine fn count := by
  intro claim
  have faithful := claim ⟨["run"], .error ⟨.runtimeError, "overflow"⟩⟩ 2
  rw [faithful_iff_held] at faithful
  exact absurd (faithful 1 (by decide)) (by decide)

end AsyncRuntime.Generator
