import Mathlib.Data.Nat.Notation

/-!
# How tasks and coroutines resolve their futures

`base_task::execute` and `coroutine::call` both run a callable and store its
outcome in a promise.  A task catches `std::exception &` and stores a copy of the
reference, which is a plain `std::exception` whatever was thrown; anything else
leaves `execute` and reaches the worker thread.  A coroutine catches everything
and stores an `std::exception_ptr`.

A piece of code is a computation that reads and sets one promise and may throw.
-/

namespace AsyncRuntime.Runtime.Resolution

universe u v

/-- A thrown object: its dynamic type and its content. -/
structure Object (Kind : Type u) (Content : Type v) where
  kind : Kind
  content : Content
  deriving DecidableEq

/--
The exception types and Boost's promise.  `derives` says that a type is caught by
`catch (std::exception &)`, and `base` is the content of the `std::exception`
inside an object.  `set_exception` is a template that stores a copy of its
argument; `handed` is what `get` throws when the argument was an
`std::exception_ptr` to an object.
-/
structure Library (Kind : Type u) (Content : Type v) where
  exception : Kind
  derives : Kind → Bool
  base : Object Kind Content → Content
  handed : Object Kind Content → Object Kind Content
  alreadySatisfied : Object Kind Content
  exception_derives : derives exception = true
  base_exception : ∀ content, base ⟨exception, content⟩ = content

variable {Kind : Type u} {Content : Type v} {Value : Type v}

/-- What a callable does: it returns a value or throws an object. -/
abbrev Outcome (Kind : Type u) (Content Value : Type v) :=
  Except (Object Kind Content) Value

/-- A promise: the outcomes that were stored in it, the first one first. -/
structure Promise (Kind : Type u) (Content Value : Type v) where
  stored : List (Outcome Kind Content Value)

namespace Promise

/-- `promise_t` is new. -/
def empty : Promise Kind Content Value :=
  ⟨[]⟩

/-- What `get` of the future yields, once there is something to yield. -/
def get (promise : Promise Kind Content Value) :
    Option (Outcome Kind Content Value) :=
  promise.stored.head?

end Promise

/-- Code that uses a promise, and what leaves it. -/
abbrev Computation (Kind : Type u) (Content Value Result : Type v) :=
  Promise Kind Content Value →
    Outcome Kind Content Result × Promise Kind Content Value

namespace Computation

variable {Result Other : Type v}

/-- Go on with a result. -/
def andThen (first : Computation Kind Content Value Result)
    (rest : Result → Computation Kind Content Value Other) :
    Computation Kind Content Value Other :=
  fun promise =>
    match first promise with
    | (.ok result, later) => rest result later
    | (.error object, later) => (.error object, later)

/-- `try { body } catch (...)`, where the handler may throw again. -/
def tryCatch (body : Computation Kind Content Value Result)
    (handler : Object Kind Content → Computation Kind Content Value Result) :
    Computation Kind Content Value Result :=
  fun promise =>
    match body promise with
    | (.ok result, later) => (.ok result, later)
    | (.error object, later) => handler object later

/-- `throw` -/
def rethrow (object : Object Kind Content) :
    Computation Kind Content Value Result :=
  fun promise => (.error object, promise)

/-- Call a callable, which does not know the promise. -/
def invoke (fn : Outcome Kind Content Result) :
    Computation Kind Content Value Result :=
  fun promise => (fn, promise)

end Computation

section Source

variable (library : Library Kind Content)

/-- `set_value` and `set_exception` throw when the promise was set already. -/
def store (outcome : Outcome Kind Content Value) :
    Computation Kind Content Value PUnit :=
  fun promise =>
    if promise.stored.isEmpty then
      (.ok ⟨⟩, ⟨promise.stored ++ [outcome]⟩)
    else
      (.error library.alreadySatisfied, promise)

/-- `promise.set_value` -/
def setValue (value : Value) : Computation Kind Content Value PUnit :=
  store library (.ok value)

/-- `promise.set_exception(ex)` with `std::exception & ex`. -/
def setException (object : Object Kind Content) :
    Computation Kind Content Value PUnit :=
  store library (.error ⟨library.exception, library.base object⟩)

/-- `promise.set_exception(std::current_exception())` -/
def setCurrentException (object : Object Kind Content) :
    Computation Kind Content Value PUnit :=
  store library (.error (library.handed object))

/-- `base_task::invoke_fn` -/
def invokeFn (fn : Outcome Kind Content Value) :
    Computation Kind Content Value PUnit :=
  (Computation.invoke fn).andThen (setValue library)

/-- `base_task::invoke_fn` for `promise_t<void>`. -/
def invokeFnVoid (fn : Outcome Kind Content PUnit) :
    Computation Kind Content PUnit PUnit :=
  (Computation.invoke fn).andThen fun _ => setValue library ⟨⟩

/-- The handler of `execute`: other objects than exceptions are not caught. -/
def catchException (object : Object Kind Content) :
    Computation Kind Content Value PUnit :=
  if library.derives object.kind then
    setException library object
  else
    Computation.rethrow object

/-- `base_task::execute` -/
def execute (fn : Outcome Kind Content Value) :
    Computation Kind Content Value PUnit :=
  (invokeFn library fn).tryCatch (catchException library)

/-- `base_task::execute` of a callable without result. -/
def executeVoid (fn : Outcome Kind Content PUnit) :
    Computation Kind Content PUnit PUnit :=
  (invokeFnVoid library fn).tryCatch (catchException library)

/-- `coroutine<T>::call` -/
def call (fn : Outcome Kind Content Value) :
    Computation Kind Content Value PUnit :=
  ((Computation.invoke fn).andThen (setValue library)).tryCatch
    (setCurrentException library)

/-- `coroutine<void>::call` -/
def callVoid (fn : Outcome Kind Content PUnit) :
    Computation Kind Content PUnit PUnit :=
  ((Computation.invoke fn).andThen fun _ => setValue library ⟨⟩).tryCatch
    (setCurrentException library)

end Source

/-! ## What is stored -/

section Stored

variable (library : Library Kind Content)

@[simp]
theorem store_empty (outcome : Outcome Kind Content Value) :
    store library outcome .empty = (.ok ⟨⟩, ⟨[outcome]⟩) :=
  rfl

theorem execute_value (value : Value) :
    execute library (.ok value) .empty = (.ok ⟨⟩, ⟨[.ok value]⟩) := by
  simp [execute, invokeFn, Computation.tryCatch, Computation.andThen,
    Computation.invoke, setValue]

/-- An exception is stored by its base type. -/
theorem execute_exception {object : Object Kind Content}
    (caught : library.derives object.kind = true) :
    execute library (.error object : Outcome Kind Content Value) .empty =
      (.ok ⟨⟩, ⟨[.error ⟨library.exception, library.base object⟩]⟩) := by
  simp [execute, invokeFn, Computation.tryCatch, Computation.andThen,
    Computation.invoke, catchException, caught, setException]

/-- Any other object reaches the worker, and the promise stays empty. -/
theorem execute_escapes {object : Object Kind Content}
    (foreign : library.derives object.kind = false) :
    execute library (.error object : Outcome Kind Content Value) .empty =
      (.error object, .empty) := by
  simp [execute, invokeFn, Computation.tryCatch, Computation.andThen,
    Computation.invoke, catchException, foreign, Computation.rethrow]

theorem call_value (value : Value) :
    call library (.ok value) .empty = (.ok ⟨⟩, ⟨[.ok value]⟩) := by
  simp [call, Computation.tryCatch, Computation.andThen, Computation.invoke,
    setValue]

theorem call_thrown (object : Object Kind Content) :
    call library (.error object : Outcome Kind Content Value) .empty =
      (.ok ⟨⟩, ⟨[.error (library.handed object)]⟩) := by
  simp [call, Computation.tryCatch, Computation.andThen, Computation.invoke,
    setCurrentException]

/-- The overloads for `void` do the same. -/
theorem executeVoid_eq (fn : Outcome Kind Content PUnit) :
    executeVoid library fn = execute library fn :=
  rfl

theorem callVoid_eq (fn : Outcome Kind Content PUnit) :
    callVoid library fn = call library fn :=
  rfl

end Stored

/-! ## When tasks and coroutines keep the outcome -/

/--
A task returns to its worker and sets its promise once, to the outcome of the
callable, and so does a coroutine.
-/
structure Keeps (fn : Outcome Kind Content Value)
    (task coroutine : Computation Kind Content Value PUnit) : Prop where
  returns : (task .empty).1 = .ok ⟨⟩
  once : (task .empty).2.stored.length = 1
  yields : (task .empty).2.get = some fn
  agrees : (coroutine .empty).2.get = some fn

/--
The callable returns, or it throws a plain `std::exception` and Boost hands that
object back from an `std::exception_ptr`.
-/
def Harmless (library : Library Kind Content) :
    Outcome Kind Content Value → Prop
  | .ok _ => True
  | .error object =>
      object.kind = library.exception ∧ library.handed object = object

section Kept

variable (library : Library Kind Content)

theorem keeps_iff_harmless (fn : Outcome Kind Content Value) :
    Keeps fn (execute library fn) (call library fn) ↔ Harmless library fn := by
  cases fn with
  | ok value =>
      refine ⟨fun _ => trivial, fun _ => ?_⟩
      constructor
      · rw [execute_value]
      · rw [execute_value]
        rfl
      · rw [execute_value]
        rfl
      · rw [call_value]
        rfl
  | error object =>
      constructor
      · intro keeps
        have handed := keeps.agrees
        rw [call_thrown] at handed
        have yielded := keeps.yields
        cases caught : library.derives object.kind with
        | true =>
            rw [execute_exception library caught] at yielded
            simp only [Promise.get, List.head?_cons, Option.some.injEq,
              Except.error.injEq] at yielded handed
            exact ⟨by rw [← yielded], handed⟩
        | false =>
            rw [execute_escapes library caught] at yielded
            cases yielded
      · rintro ⟨kind_eq, handed⟩
        have caught : library.derives object.kind = true := by
          rw [kind_eq, library.exception_derives]
        have copied :
            (⟨library.exception, library.base object⟩ : Object Kind Content) =
              object := by
          cases object with
          | mk kind content =>
              cases kind_eq
              rw [library.base_exception]
        constructor
        · rw [execute_exception library caught]
        · rw [execute_exception library caught]
          rfl
        · rw [execute_exception library caught, copied]
          rfl
        · rw [call_thrown, handed]
          rfl

/--
A task and a coroutine built from a callable keep its outcome exactly when it
returns, or throws a plain `std::exception` that Boost hands back; the same holds
of callables without result.
-/
theorem outcome_kept_iff :
    (∀ fn : Outcome Kind Content Value,
      Keeps fn (execute library fn) (call library fn) ↔ Harmless library fn) ∧
    ∀ fn : Outcome Kind Content PUnit,
      Keeps fn (executeVoid library fn) (callVoid library fn) ↔
        Harmless library fn := by
  constructor
  · intro fn
    exact keeps_iff_harmless library fn
  · intro fn
    rw [executeVoid_eq, callVoid_eq]
    exact keeps_iff_harmless library fn

end Kept

/-! ## The worker -/

section Worker

variable (library : Library Kind Content)

/--
A worker invokes one task after another.  An object that leaves `execute` leaves
the worker thread as well, which ends the process.
-/
def invokeAll :
    List (Outcome Kind Content Value) →
      Option (Object Kind Content) × List (Promise Kind Content Value)
  | [] => (none, [])
  | fn :: rest =>
      match execute library fn .empty with
      | (.ok _, promise) =>
          let (escaped, promises) := invokeAll rest
          (escaped, promise :: promises)
      | (.error object, promise) => (some object, [promise])

/-- The callable throws no object other than an exception. -/
def Contained : Outcome Kind Content Value → Prop
  | .ok _ => True
  | .error object => library.derives object.kind = true

/-- A task comes back to the worker exactly when nothing else is thrown. -/
theorem execute_returns_iff (fn : Outcome Kind Content Value) :
    (execute library fn .empty).1 = .ok ⟨⟩ ↔ Contained library fn := by
  cases fn with
  | ok value => simp [execute_value, Contained]
  | error object =>
      cases caught : library.derives object.kind with
      | true => simp [execute_exception library caught, Contained, caught]
      | false => simp [execute_escapes library caught, Contained, caught]

/-- The worker survives its tasks exactly when each of them is contained. -/
theorem invokeAll_survives_iff (tasks : List (Outcome Kind Content Value)) :
    (invokeAll library tasks).1 = none ↔ ∀ fn ∈ tasks, Contained library fn := by
  induction tasks with
  | nil => simp [invokeAll]
  | cons fn rest inductionHypothesis =>
      have returns_iff := execute_returns_iff library fn
      rw [List.forall_mem_cons, ← returns_iff, ← inductionHypothesis]
      rw [invokeAll]
      split
      · rename_i result promise executed
        simp [executed]
      · rename_i object promise executed
        simp [executed]

end Worker

/-! ## A derived exception -/

/-- Some types of thrown objects. -/
inductive Thrown where
  | exception
  | runtimeError
  | exceptionPtr
  | integer
  deriving DecidableEq

/-- `what()` of an exception, with Boost's template storing any argument as it is. -/
def boost : Library Thrown String where
  exception := .exception
  derives := fun kind =>
    decide (kind = .exception) || decide (kind = .runtimeError)
  base := fun object =>
    if object.kind = .exception then object.content else "std::exception"
  handed := fun _ => ⟨.exceptionPtr, ""⟩
  alreadySatisfied := ⟨.runtimeError, "The promise has already satisfied"⟩
  exception_derives := rfl
  base_exception := fun _ => rfl

/--
A task whose callable throws an `std::runtime_error` yields an `std::exception`,
a coroutine an `std::exception_ptr`, and an integer is not caught at all.
-/
theorem runtimeError_lost :
    ¬ (∀ fn : Outcome Thrown String PUnit,
        Keeps fn (execute boost fn) (call boost fn)) ∧
      ((execute boost (.error ⟨.runtimeError, "overflow"⟩ :
            Outcome Thrown String PUnit) .empty).2.get =
          some (.error ⟨.exception, "std::exception"⟩)) ∧
      (call boost (.error ⟨.runtimeError, "overflow"⟩ :
          Outcome Thrown String PUnit) .empty).2.get =
        some (.error ⟨.exceptionPtr, ""⟩) ∧
      (execute boost (.error ⟨.integer, "42"⟩ :
          Outcome Thrown String PUnit) .empty).1 =
        .error ⟨.integer, "42"⟩ := by
  refine ⟨?_, rfl, rfl, rfl⟩
  intro kept
  have yielded := (kept (.error ⟨.runtimeError, "overflow"⟩)).yields
  cases yielded

end AsyncRuntime.Runtime.Resolution
