import AsyncRuntime.Dataflow.Notifier
import AsyncRuntime.Dataflow.Ports
import AsyncRuntime.Foundation.TransitionSystem
import Mathlib.Data.Int.Notation

/-!
# `Dataflow::Kernel`

A kernel is driven from three sides.  Its coroutine runs `AsyncLoop`, one
controller thread calls `AsyncInit`, `Run` and `AsyncTerminate`, and any number
of client threads write to its source ports and subscribe to its sink ports.
Every load and store of `state`, every method of the notifier and of the sink,
every operation on a queue and every hook of the user is one step.

`AsyncInit` may be called while an earlier coroutine is still alive: a started
coroutine holds a reference to itself on its own stack, so it goes on running.
The coroutines are therefore numbered by the call of `AsyncInit` that made them,
and number zero stands for the null pointer.

`OnInit`, `OnProcess` and `OnDispose` belong to the user: their outcomes are
choices of the action.  The other hooks are the default ones.  `Await` tests its
future, suspends the coroutine if it is not ready, and continues once it is.
-/

namespace AsyncRuntime.Kernel

open AsyncRuntime.Foundation
open AsyncRuntime.Dataflow

universe u v w x

variable {Name : Type u} {User : Type v} {Message : Type w} {Client : Type x}

/-- `KernelState`. -/
inductive KernelState where
  | ready
  | initialized
  | running
  | terminated
  deriving DecidableEq

/-- `KernelProcessResult`. -/
inductive KernelProcessResult where
  | next
  | finish
  | error
  deriving DecidableEq

/-- The ports of the kernel, in the order of the port maps. -/
structure Config (Name : Type u) where
  sourcePorts : List Name
  sinkPorts : List Name
  capacity : Name → ℕ

/-- What a promise of the coroutine is satisfied with. -/
inductive Outcome where
  | value (code : ℤ)
  | exception
  deriving DecidableEq

/-- Who tests `SubscribersEmpty` and calls `OnWaitSinkSubscription`. -/
inductive WaitCaller where
  | update
  | unsubscription
  deriving DecidableEq

/-- The three calls of `source.Flush()`. -/
inductive FlushPlace where
  | beforeWait (caller : WaitCaller)
  | afterSubscription (caller : WaitCaller)
  | onTerminate
  deriving DecidableEq

/-- Which future the coroutine awaits. -/
inductive WatchPoint where
  | any
  | subscription (caller : WaitCaller)
  deriving DecidableEq

/-- Where the coroutine is in `AsyncLoop` and the hooks it calls. -/
inductive LoopPc (Name : Type u) where
  | created
  | onInit
  | initFailedDispose (error : ℤ)
  | initFailedStore (error : ℤ)
  | storeInitialized
  | yield
  | yielded
  | suspendedAtYield
  | checkTerminated
  | storeRunning
  | loopTest
  | subscribersEmpty (caller : WaitCaller)
  | flush (place : FlushPlace) (ports : List Name)
  | asyncWatch (caller : WaitCaller)
  | waitActivate (caller : WaitCaller)
  | asyncWatchAny
  | await (point : WatchPoint) (future : WatchFuture)
  | suspended (point : WatchPoint) (promise : ℕ)
  | onProcess (events : Flags) (drained : List Name)
  | onSinkSubscription (events : Flags)
  | terminateUnsubscribeAll
  | storeTerminated
  | dispose
  | catchStore
  | catchDispose
  | resolve (outcome : Outcome)
  | finished
  | escape
  | escaped
  deriving DecidableEq

/-- The hooks whose execution is recorded. -/
inductive Hook where
  | onUpdate
  | onTerminate
  | onDispose
  deriving DecidableEq

/-- A coroutine made by `AsyncInit`, with the hooks it has executed. -/
structure Coroutine (Name : Type u) where
  pc : LoopPc Name
  promise : ℕ
  tasks : ℕ
  log : List Hook

/--
The fields of `Kernel` that the coroutine and the clients share, and the
subscribers whose `Subscribe` has returned.
-/
structure Shared (Name : Type u) (User : Type v) (Message : Type w)
    (Client : Type x) where
  state : KernelState
  notifier : Notifier
  source : Name → SourcePort Message
  sink : Name → Port User
  sinkMutex : Option Client
  confirmed : Name → List User

/-- The outcomes of the user's hooks. -/
inductive Choice (Name : Type u) where
  | proceed
  | initReturns (error : ℤ)
  | processReads (port : Name)
  | processReturns (result : KernelProcessResult)
  | disposeReturns (errorCode : ℤ)
  | throws (standard : Bool)
  deriving DecidableEq

/-! ## Operations on the shared fields -/

namespace Shared

@[simps]
def setState (kernel : Shared Name User Message Client) (state : KernelState) :
    Shared Name User Message Client :=
  { kernel with state := state }

@[simps]
def setNotifier (kernel : Shared Name User Message Client) (notifier : Notifier) :
    Shared Name User Message Client :=
  { kernel with notifier := notifier }

/-- `process_notifier.Notify(event)`. -/
@[simps!]
def notify (kernel : Shared Name User Message Client) (event : KernelEvent) :
    Shared Name User Message Client :=
  kernel.setNotifier (kernel.notifier.notify event.flag)

@[simps -fullyApplied]
def setSource [DecidableEq Name] (kernel : Shared Name User Message Client)
    (name : Name) (port : SourcePort Message) : Shared Name User Message Client :=
  { kernel with source := Function.update kernel.source name port }

/-- `source.Activate()`. -/
@[simps]
def activate (kernel : Shared Name User Message Client) : Shared Name User Message Client :=
  { kernel with source := fun name => (kernel.source name).activate }

/-- `sink.SubscribersEmpty()`. -/
def subscribersEmpty (config : Config Name) (kernel : Shared Name User Message Client) :
    Bool :=
  config.sinkPorts.all fun name => (kernel.sink name).subscribersEmpty

/-- `sink.UnsubscribeAll()`. -/
@[simps]
def unsubscribeAll (kernel : Shared Name User Message Client) :
    Shared Name User Message Client :=
  { kernel with
    sink := fun name => (kernel.sink name).unsubscribeAll
    confirmed := fun _ => [] }

@[simps]
def setSinkMutex (kernel : Shared Name User Message Client) (holder : Option Client) :
    Shared Name User Message Client :=
  { kernel with sinkMutex := holder }

@[simps -fullyApplied]
def setSink [DecidableEq Name] (kernel : Shared Name User Message Client)
    (name : Name) (port : Port User) : Shared Name User Message Client :=
  { kernel with sink := Function.update kernel.sink name port }

@[simps -fullyApplied]
def setConfirmed [DecidableEq Name] (kernel : Shared Name User Message Client)
    (name : Name) (users : List User) : Shared Name User Message Client :=
  { kernel with confirmed := Function.update kernel.confirmed name users }

end Shared

/-! ## `AsyncLoop` -/

/-- Where an exception thrown inside the `try` block leads. -/
def unwind (standard : Bool) : LoopPc Name :=
  if standard then .catchStore else .escape

/-- Where `OnUpdate` goes on with subscribers present. -/
def afterWait : WaitCaller → LoopPc Name
  | .update => .asyncWatchAny
  | .unsubscription => .loopTest

/-- What follows a flush. -/
def afterFlush : FlushPlace → LoopPc Name
  | .beforeWait caller => .asyncWatch caller
  | .afterSubscription caller => afterWait caller
  | .onTerminate => .terminateUnsubscribeAll

/-- `OnTerminate` begins with its flush. -/
def onTerminate (config : Config Name) : LoopPc Name :=
  .flush .onTerminate config.sourcePorts

/-- The last test of `OnUpdate`, which `OnSinkUnsubscription` begins with. -/
def dispatchUnsubscription (events : Flags) : LoopPc Name :=
  if hasState events KernelEvent.sinkUnsubscription.flag then
    .subscribersEmpty .unsubscription
  else
    .loopTest

/-- The third test of `OnUpdate`. -/
def dispatchSubscription (events : Flags) : LoopPc Name :=
  if hasState events KernelEvent.sinkSubscription.flag then
    .onSinkSubscription events
  else
    dispatchUnsubscription events

/-- The second test of `OnUpdate`. -/
def dispatchTerminate (config : Config Name) (events : Flags) : LoopPc Name :=
  if hasState events KernelEvent.terminate.flag then
    onTerminate config
  else
    dispatchSubscription events

/-- The first test of `OnUpdate` on the events it was woken with. -/
def dispatchProcess (config : Config Name) (events : Flags) : LoopPc Name :=
  if hasState events KernelEvent.readSource.flag then
    .onProcess events []
  else
    dispatchTerminate config events

/-- The tests of `OnWaitSinkSubscription`. -/
def dispatchWait (config : Config Name) (caller : WaitCaller)
    (events : Flags) : LoopPc Name :=
  if hasState events KernelEvent.terminate.flag then
    onTerminate config
  else if hasState events KernelEvent.sinkSubscription.flag then
    .waitActivate caller
  else
    afterWait caller

/-- What follows `Await`. -/
def dispatch (config : Config Name) (events : Flags) :
    WatchPoint → LoopPc Name
  | .any => dispatchProcess config events
  | .subscription caller => dispatchWait config caller events

/-- The flags that `OnWaitSinkSubscription` watches. -/
def waitedEvents : List KernelEvent :=
  [.sinkSubscription, .terminate]

variable [DecidableEq Name]

/-- A future that is ready or broken lets the coroutine go on. -/
def awaitStep (config : Config Name) (kernel : Shared Name User Message Client)
    (point : WatchPoint) (future : WatchFuture) : Option (LoopPc Name) :=
  match kernel.notifier.poll future with
  | .ready value => some (dispatch config value point)
  | .pending => none
  | .broken => some .catchStore

/-- A step of the body of `AsyncLoop`. -/
def loopStep (config : Config Name) (kernel : Shared Name User Message Client) :
    LoopPc Name → Choice Name →
      Option (Shared Name User Message Client × LoopPc Name)
  | .onInit, .initReturns error =>
      some (kernel,
        if error = 0 then .storeInitialized else .initFailedDispose error)
  | .onInit, .throws standard => some (kernel, unwind standard)
  | .initFailedDispose error, .disposeReturns _ =>
      some (kernel, .initFailedStore error)
  | .initFailedDispose _, .throws standard => some (kernel, unwind standard)
  | .initFailedStore error, .proceed =>
      some (kernel.setState .terminated, .resolve (.value error))
  | .storeInitialized, .proceed =>
      some (kernel.setState .initialized, .yield)
  | .checkTerminated, .proceed =>
      some (kernel,
        if kernel.state = .terminated then .storeTerminated else .storeRunning)
  | .storeRunning, .proceed => some (kernel.setState .running, .loopTest)
  | .loopTest, .proceed =>
      some (kernel,
        if kernel.state = .terminated then
          .storeTerminated
        else
          .subscribersEmpty .update)
  | .subscribersEmpty caller, .proceed =>
      if kernel.sinkMutex = none then
        some (kernel,
          if kernel.subscribersEmpty config then
            .flush (.beforeWait caller) config.sourcePorts
          else
            afterWait caller)
      else
        none
  | .flush place [], .proceed => some (kernel, afterFlush place)
  | .flush place (name :: rest), .proceed =>
      some <|
        if (kernel.source name).empty then
          (kernel, .flush place rest)
        else
          (kernel.setSource name (kernel.source name).pop,
            .flush place (name :: rest))
  | .asyncWatch caller, .proceed =>
      let watch :=
        kernel.notifier.asyncWatch (waitedEvents.map KernelEvent.flag)
      some (kernel.setNotifier watch.1, .await (.subscription caller) watch.2)
  | .waitActivate caller, .proceed =>
      some (kernel.activate,
        .flush (.afterSubscription caller) config.sourcePorts)
  | .asyncWatchAny, .proceed =>
      let watch := kernel.notifier.asyncWatchAny
      some (kernel.setNotifier watch.1, .await .any watch.2)
  | .await point future, .proceed =>
      match awaitStep config kernel point future, future with
      | some pc, _ => some (kernel, pc)
      | none, .promise name => some (kernel, .suspended point name)
      | none, .resolved _ => none
  | .suspended point name, .proceed =>
      (awaitStep config kernel point (.promise name)).map (kernel, ·)
  | .onProcess events drained, .processReads name =>
      some <|
        if (kernel.source name).empty then
          (kernel, .onProcess events (name :: drained))
        else
          (kernel.setSource name (kernel.source name).pop,
            .onProcess events drained)
  | .onProcess events _, .processReturns result =>
      some (kernel,
        if result = .next then
          dispatchTerminate config events
        else
          .storeTerminated)
  | .onProcess _ _, .throws standard => some (kernel, unwind standard)
  | .onSinkSubscription events, .proceed =>
      some (kernel.activate, dispatchUnsubscription events)
  | .terminateUnsubscribeAll, .proceed =>
      if kernel.sinkMutex = none then
        some (kernel.unsubscribeAll, .storeTerminated)
      else
        none
  | .storeTerminated, .proceed => some (kernel.setState .terminated, .dispose)
  | .dispose, .disposeReturns errorCode =>
      some (kernel, .resolve (.value errorCode))
  | .dispose, .throws standard => some (kernel, unwind standard)
  | .catchStore, .proceed => some (kernel.setState .terminated, .catchDispose)
  | .catchDispose, .disposeReturns _ => some (kernel, .resolve (.value (-1)))
  | .catchDispose, .throws _ => some (kernel, .escape)
  | _, _ => none

end AsyncRuntime.Kernel
