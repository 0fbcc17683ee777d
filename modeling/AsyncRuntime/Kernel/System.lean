import AsyncRuntime.Kernel.Model

/-!
# The kernel together with its controller and its clients

The controller runs the bodies of `AsyncInit`, `Run` and `AsyncTerminate`, one
load or store of `state` at a time.  `Async(coroutine)` renews the promise of the
coroutine, takes its future and posts a task that resumes it; the future is a
local of the caller, so taking it needs no step of its own.  A client thread is
inside one call of `SinkPort::Send`, `SourcePort::Write`, `Sink::Subscribe` or
`Sink::Unsubscribe`; the last two hold the sink's mutex around their `Notify`.

History variables record that `AsyncTerminate` has stored `kTERMINATED` and that
its `Notify` is complete since the last `AsyncInit`, the futures it has returned
with the number of the coroutine of that moment, and the result of the last
`Run`.
-/

namespace AsyncRuntime.Kernel

open AsyncRuntime.Foundation
open AsyncRuntime.Dataflow

universe u v w x

variable {Name : Type u} {User : Type v} {Message : Type w} {Client : Type x}

/-- Where the controller is in `AsyncInit`, `Run` or `AsyncTerminate`. -/
inductive ControllerPc where
  | idle
  | initStore
  | initAsync
  | initPost
  | runLoad
  | runCheck
  | runStore
  | runAsync
  | runPost
  | terminateLoad
  | terminateStore
  | terminateNotify
  | terminateLoadAgain
  | terminateStoreInitialized
  | terminateNotifyInitialized
  | terminateAsync
  | terminatePost
  | terminateStoreOtherwise
  deriving DecidableEq

/-- The calls of a client. -/
inductive ClientCall (Name : Type u) (User : Type v) (Message : Type w) where
  | send (name : Name) (message : Message)
  | write (name : Name) (message : Message)
  | subscribe (name : Name) (user : User)
  | unsubscribe (name : Name) (user : User)

/-- Where a client is in its call. -/
inductive ClientPc (Name : Type u) (User : Type v) (Message : Type w) where
  | idle
  | sendTest (name : Name) (message : Message)
  | push (name : Name) (message : Message)
  | writeNotify (name : Name)
  | subscribeNotify (name : Name) (user : User)
  | unsubscribeNotify

/-- A future returned by `AsyncTerminate`; `future_res` may be invalid. -/
inductive TerminateFuture where
  | resolved
  | shared (promise : Option ℕ)
  deriving DecidableEq

/-- The kernel, its coroutines and all its callers. -/
structure State (Name : Type u) (User : Type v) (Message : Type w)
    (Client : Type x) where
  shared : Shared Name User Message Client
  coroutines : ℕ → Coroutine Name
  generation : ℕ
  controller : ControllerPc
  clients : Client → ClientPc Name User Message
  promises : ℕ → Option Outcome
  promiseCount : ℕ
  futureRes : Option ℕ
  requested : Bool
  terminateNotified : Bool
  returned : List (ℕ × TerminateFuture)
  lastRun : Option Bool

/-- The steps of the system. -/
inductive Action (Name : Type u) (User : Type v) (Message : Type w)
    (Client : Type x) where
  | asyncInit
  | run
  | asyncTerminate
  | controller
  | coroutine (index : ℕ) (choice : Choice Name)
  | call (client : Client) (call : ClientCall Name User Message)
  | client (client : Client)

namespace State

variable (state : State Name User Message Client)

/-- The coroutine of the last `AsyncInit`. -/
def current : Coroutine Name :=
  state.coroutines state.generation

@[simps]
def setShared (shared : Shared Name User Message Client) : State Name User Message Client :=
  { state with shared := shared }

@[simps]
def setController (pc : ControllerPc) : State Name User Message Client :=
  { state with controller := pc }

@[simps -fullyApplied]
def setCoroutine (index : ℕ) (coroutine : Coroutine Name) :
    State Name User Message Client :=
  { state with coroutines := Function.update state.coroutines index coroutine }

@[simps -fullyApplied]
def setClient [DecidableEq Client] (client : Client)
    (pc : ClientPc Name User Message) :
    State Name User Message Client :=
  { state with clients := Function.update state.clients client pc }

/-- `set_value` or `set_exception`; on a satisfied promise it only throws. -/
@[simps]
def satisfy (promise : ℕ) (outcome : Outcome) : State Name User Message Client :=
  { state with
    promises := fun name =>
      if name = promise ∧ state.promises name = none then
        some outcome
      else
        state.promises name }

/-- `init_promise` on the coroutine of the last `AsyncInit`. -/
@[simps]
def initPromise : State Name User Message Client :=
  { state with
    coroutines :=
      Function.update state.coroutines state.generation
        { state.current with promise := state.promiseCount }
    promiseCount := state.promiseCount + 1 }

/-- `Post` of a task that resumes the coroutine of the last `AsyncInit`. -/
@[simps]
def post : State Name User Message Client :=
  { state with
    coroutines :=
      Function.update state.coroutines state.generation
        { state.current with tasks := state.current.tasks + 1 } }

/-- `future_res = f.share()`. -/
@[simps]
def setFutureRes : State Name User Message Client :=
  { state with futureRes := some state.current.promise }

/-- `coroutine = make_coroutine(..)`; nothing is requested of it yet. -/
@[simps]
def makeCoroutine : State Name User Message Client :=
  { state with
    coroutines :=
      Function.update state.coroutines (state.generation + 1)
        { pc := .created, promise := state.promiseCount, tasks := 0, log := [] }
    generation := state.generation + 1
    promiseCount := state.promiseCount + 1
    requested := false
    terminateNotified := false
    lastRun := none }

/-- `state.store(kTERMINATED)` in `AsyncTerminate`. -/
@[simps]
def storeRequest : State Name User Message Client :=
  { state with
    shared := state.shared.setState .terminated
    requested := true }

/-- `process_notifier.Notify(TERMINATE)` in `AsyncTerminate`. -/
@[simps]
def notifyTerminate : State Name User Message Client :=
  { state with
    shared := state.shared.notify .terminate
    terminateNotified := true }

/-- `Run` returns. -/
@[simps]
def returnRun (result : Bool) : State Name User Message Client :=
  { state with controller := .idle, lastRun := some result }

/-- `AsyncTerminate` returns. -/
@[simps]
def returnTerminate (future : TerminateFuture) : State Name User Message Client :=
  { state with
    controller := .idle
    returned := (state.generation, future) :: state.returned }

/-- A call of `Run` or `AsyncTerminate` begins. -/
@[simps]
def beginCall (pc : ControllerPc) : State Name User Message Client :=
  { state with controller := pc, lastRun := none }

/-! The coroutine of the last `AsyncInit` after each of these. -/

@[simp]
theorem setController_current (pc : ControllerPc) :
    (state.setController pc).current = state.current := rfl

@[simp]
theorem setShared_current (shared : Shared Name User Message Client) :
    (state.setShared shared).current = state.current := rfl

@[simp]
theorem storeRequest_current : state.storeRequest.current = state.current := rfl

@[simp]
theorem notifyTerminate_current :
    state.notifyTerminate.current = state.current := rfl

@[simp]
theorem setFutureRes_current : state.setFutureRes.current = state.current := rfl

@[simp]
theorem returnRun_current (result : Bool) :
    (state.returnRun result).current = state.current := rfl

@[simp]
theorem returnTerminate_current (future : TerminateFuture) :
    (state.returnTerminate future).current = state.current := rfl

@[simp]
theorem initPromise_current :
    state.initPromise.current =
      { state.current with promise := state.promiseCount } := by
  simp [current]

@[simp]
theorem post_current :
    state.post.current =
      { state.current with tasks := state.current.tasks + 1 } := by
  simp [current]

end State

/-! ## The controller -/

/-- `coroutine::is_completed`: the continuation is stored while suspended. -/
def Coroutine.isCompleted (coroutine : Coroutine Name) : Bool :=
  match coroutine.pc with
  | .created => false
  | .suspendedAtYield => false
  | .suspended _ _ => false
  | _ => true

/-- A step of the controller inside a call. -/
def controllerStep (state : State Name User Message Client) :
    Option (State Name User Message Client) :=
  match state.controller with
  | .idle => none
  | .initStore =>
      some ((state.setShared (state.shared.setState .ready)).setController
        .initAsync)
  | .initAsync => some (state.initPromise.setController .initPost)
  | .initPost => some (state.post.setController .idle)
  | .runLoad =>
      some <|
        if state.shared.state = .initialized then
          state.setController .runCheck
        else
          state.returnRun false
  | .runCheck =>
      some <|
        if state.current.isCompleted then
          state.returnRun false
        else
          state.setController .runStore
  | .runStore =>
      some ((state.setShared (state.shared.setState .running)).setController
        .runAsync)
  | .runAsync => some (state.initPromise.setController .runPost)
  | .runPost => some (state.post.setFutureRes.returnRun true)
  | .terminateLoad =>
      some <| state.setController <|
        if state.shared.state = .running then
          .terminateStore
        else
          .terminateLoadAgain
  | .terminateStore => some (state.storeRequest.setController .terminateNotify)
  | .terminateNotify =>
      some (state.notifyTerminate.returnTerminate (.shared state.futureRes))
  | .terminateLoadAgain =>
      some <| state.setController <|
        if state.shared.state = .initialized then
          .terminateStoreInitialized
        else
          .terminateStoreOtherwise
  | .terminateStoreInitialized =>
      some (state.storeRequest.setController .terminateNotifyInitialized)
  | .terminateNotifyInitialized =>
      some (state.notifyTerminate.setController .terminateAsync)
  | .terminateAsync => some (state.initPromise.setController .terminatePost)
  | .terminatePost =>
      some (state.post.setFutureRes.returnTerminate
        (.shared (some state.current.promise)))
  | .terminateStoreOtherwise =>
      some (state.storeRequest.returnTerminate .resolved)

/-! ## The coroutines -/

/-- The hook that the step from this place completes. -/
def LoopPc.hook : LoopPc Name → List Hook
  | .subscribersEmpty caller => if caller = .update then [.onUpdate] else []
  | .terminateUnsubscribeAll => [.onTerminate]
  | .initFailedDispose _ => [.onDispose]
  | .dispose => [.onDispose]
  | .catchDispose => [.onDispose]
  | _ => []

/-- The coroutine moves on. -/
def Coroutine.goto (coroutine : Coroutine Name) (pc : LoopPc Name) :
    Coroutine Name :=
  { coroutine with
    pc := pc
    log := coroutine.pc.hook ++ coroutine.log }

/-- A task resumes the coroutine, if one was posted. -/
def Coroutine.resume (coroutine : Coroutine Name) (pc : LoopPc Name) :
    Option (Coroutine Name) :=
  if coroutine.tasks = 0 then
    none
  else
    some { coroutine.goto pc with tasks := coroutine.tasks - 1 }

section

variable [DecidableEq Name]

/-- A step of a coroutine. -/
def coroutineStep (config : Config Name) (state : State Name User Message Client)
    (index : ℕ) (choice : Choice Name) : Option (State Name User Message Client) :=
  let coroutine := state.coroutines index
  match coroutine.pc, choice with
  | .created, .proceed =>
      (coroutine.resume .onInit).map (state.setCoroutine index)
  | .yield, .proceed =>
      some ((state.satisfy coroutine.promise (.value 0)).setCoroutine index
        (coroutine.goto .yielded))
  | .yielded, .proceed =>
      some (state.setCoroutine index (coroutine.goto .suspendedAtYield))
  | .suspendedAtYield, .proceed =>
      (coroutine.resume .checkTerminated).map (state.setCoroutine index)
  | .resolve outcome, .proceed =>
      some ((state.satisfy coroutine.promise outcome).setCoroutine index
        (coroutine.goto .finished))
  | .escape, .proceed =>
      some ((state.satisfy coroutine.promise .exception).setCoroutine index
        (coroutine.goto .escaped))
  | pc, choice =>
      (loopStep config state.shared pc choice).map fun moved =>
        (state.setShared moved.1).setCoroutine index (coroutine.goto moved.2)

/-! ## The clients -/

variable [DecidableEq User] [DecidableEq Client]

/-- The first step of a call. -/
def callStep (config : Config Name) (state : State Name User Message Client)
    (client : Client) :
    ClientCall Name User Message → Option (State Name User Message Client)
  | .send name message =>
      if name ∈ config.sourcePorts then
        some (state.setClient client (.sendTest name message))
      else
        none
  | .write name message =>
      if name ∈ config.sourcePorts then
        some (state.setClient client (.push name message))
      else
        none
  | .subscribe name user =>
      if name ∈ config.sinkPorts ∧ state.shared.sinkMutex = none then
        let inserted :=
          state.shared.setSink name ((state.shared.sink name).subscribe user)
        some ((state.setShared (inserted.setSinkMutex (some client))).setClient
          client (.subscribeNotify name user))
      else
        none
  | .unsubscribe name user =>
      if name ∈ config.sinkPorts ∧ state.shared.sinkMutex = none then
        let port := state.shared.sink name
        let erased :=
          (state.shared.setSink name (port.unsubscribe user)).setConfirmed name
            ((state.shared.confirmed name).filter (· ≠ user))
        some <|
          if port.subscribersEmpty then
            state.setShared erased
          else
            (state.setShared (erased.setSinkMutex (some client))).setClient
              client .unsubscribeNotify
      else
        none

/-- The later steps of a call. -/
def clientStep (state : State Name User Message Client) (client : Client) :
    Option (State Name User Message Client) :=
  match state.clients client with
  | .idle => none
  | .sendTest name message =>
      some (state.setClient client
        (if (state.shared.source name).active then
          .push name message
        else
          .idle))
  | .push name message =>
      some ((state.setShared (state.shared.setSource name
        ((state.shared.source name).push message))).setClient client
          (.writeNotify name))
  | .writeNotify _ =>
      some ((state.setShared (state.shared.notify .readSource)).setClient client
        .idle)
  | .subscribeNotify name user =>
      let notified := state.shared.notify .sinkSubscription
      let confirmed :=
        notified.setConfirmed name ((notified.confirmed name).insert user)
      some ((state.setShared (confirmed.setSinkMutex none)).setClient client
        .idle)
  | .unsubscribeNotify =>
      let notified := state.shared.notify .sinkUnsubscription
      some ((state.setShared (notified.setSinkMutex none)).setClient client
        .idle)

/-! ## The system -/

/-- The step function of the system. -/
def next (config : Config Name) (state : State Name User Message Client) :
    Action Name User Message Client → Option (State Name User Message Client)
  | .asyncInit =>
      if state.controller = .idle then
        some (state.makeCoroutine.setController .initStore)
      else
        none
  | .run =>
      if state.controller = .idle then some (state.beginCall .runLoad) else none
  | .asyncTerminate =>
      if state.controller = .idle then
        some (state.beginCall .terminateLoad)
      else
        none
  | .controller => controllerStep state
  | .coroutine index choice => coroutineStep config state index choice
  | .call client call =>
      match state.clients client with
      | .idle => callStep config state client call
      | _ => none
  | .client client => clientStep state client

end

/-- A constructed kernel without a coroutine. -/
def State.create (config : Config Name) : State Name User Message Client where
  shared := {
    state := .ready
    notifier := .fresh
    source := fun name => SourcePort.create (config.capacity name)
    sink := fun _ => Port.create
    sinkMutex := none
    confirmed := fun _ => [] }
  coroutines := fun _ => { pc := .finished, promise := 0, tasks := 0, log := [] }
  generation := 0
  controller := .idle
  clients := fun _ => .idle
  promises := fun _ => none
  promiseCount := 1
  futureRes := none
  requested := false
  terminateNotified := false
  returned := []
  lastRun := none

/-- The kernel, its controller and its clients as a transition system. -/
def system (User : Type v) (Message : Type w) (Client : Type x)
    [DecidableEq Name] [DecidableEq User] [DecidableEq Client] (config : Config Name) :
    TransitionSystem (State Name User Message Client)
      (Action Name User Message Client) where
  initial := fun state => state = State.create config
  next := next config

/-! ## Calls that nobody disturbs -/

/-- `AsyncInit`, and its coroutine up to the yield. -/
def beginInit (index : ℕ) : List (Action Name User Message Client) :=
  [.asyncInit, .controller, .controller, .controller,
    .coroutine index .proceed, .coroutine index (.initReturns 0),
    .coroutine index .proceed, .coroutine index .proceed,
    .coroutine index .proceed]

/-- `AsyncInit`, then `Run`. -/
def beginRun (index : ℕ) : List (Action Name User Message Client) :=
  beginInit index ++ .run :: List.replicate 5 .controller

end AsyncRuntime.Kernel
