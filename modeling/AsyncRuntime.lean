import AsyncRuntime.Foundation.BinaryHeap
import AsyncRuntime.Foundation.BinaryRounding
import AsyncRuntime.Foundation.EventCount
import AsyncRuntime.Foundation.Holdings
import AsyncRuntime.Foundation.LeastLoaded
import AsyncRuntime.Foundation.LinkedChain
import AsyncRuntime.Foundation.Mailbox
import AsyncRuntime.Foundation.Potential
import AsyncRuntime.Foundation.Refinement
import AsyncRuntime.Foundation.RingWindow
import AsyncRuntime.Foundation.TextSearch
import AsyncRuntime.Foundation.TicketLine
import AsyncRuntime.Foundation.TransitionSystem
import AsyncRuntime.Foundation.StealingDeque
import AsyncRuntime.Foundation.StepConditions
import AsyncRuntime.TaskQueue.Model
import AsyncRuntime.TaskQueue.Invariant
import AsyncRuntime.TaskQueue.Conservation
import AsyncRuntime.TaskQueue.Linearizability
import AsyncRuntime.TaskQueue.Sequential
import AsyncRuntime.TaskQueue.Shared
import AsyncRuntime.WorkNotifier.StateWord
import AsyncRuntime.WorkNotifier.Model
import AsyncRuntime.WorkNotifier.Step
import AsyncRuntime.WorkNotifier.Tickets
import AsyncRuntime.WorkNotifier.Wakeup
import AsyncRuntime.WorkNotifier.Stack
import AsyncRuntime.WorkNotifier.Consistency
import AsyncRuntime.WorkNotifier.Asleep
import AsyncRuntime.WorkNotifier.Linearizability
import AsyncRuntime.ExecutorSlot.Model
import AsyncRuntime.ExecutorSlot.Step
import AsyncRuntime.ExecutorSlot.WorkerPhase
import AsyncRuntime.ExecutorSlot.Stranding
import AsyncRuntime.ExecutorSlot.Shutdown
import AsyncRuntime.ExecutorSlot.Conservation
import AsyncRuntime.ExecutorSlot.Startup
import AsyncRuntime.Dataflow.Notifier
import AsyncRuntime.Dataflow.Ports
import AsyncRuntime.Dataflow.Delivery
import AsyncRuntime.Dataflow.Masks
import AsyncRuntime.Dataflow.Broadcast
import AsyncRuntime.Dataflow.MoveSend
import AsyncRuntime.Kernel.Model
import AsyncRuntime.Kernel.System
import AsyncRuntime.Kernel.Step
import AsyncRuntime.Kernel.Attention
import AsyncRuntime.Kernel.Wakefulness
import AsyncRuntime.Kernel.Draining
import AsyncRuntime.Kernel.Request
import AsyncRuntime.Kernel.LoopExit
import AsyncRuntime.Kernel.Completion
import AsyncRuntime.Kernel.Restart
import AsyncRuntime.Kernel.Startup
import AsyncRuntime.Kernel.Cleanup
import AsyncRuntime.Kernel.Deactivation
import AsyncRuntime.Kernel.Lifecycle
import AsyncRuntime.Scheduler.Model
import AsyncRuntime.Scheduler.Shutdown
import AsyncRuntime.WorkGroup.Model
import AsyncRuntime.WorkGroup.Calls
import AsyncRuntime.WorkGroup.Affinity
import AsyncRuntime.WorkGroup.Placement
import AsyncRuntime.WorkGroup.Identity
import AsyncRuntime.WorkGroup.Workers
import AsyncRuntime.Scheduler.Clocked
import AsyncRuntime.Scheduler.Order
import AsyncRuntime.Scheduler.Reentry
import AsyncRuntime.Scheduler.Ticker
import AsyncRuntime.Scheduler.Pace
import AsyncRuntime.Scheduler.Conservation
import AsyncRuntime.Runtime.Posting
import AsyncRuntime.Runtime.Resolution
import AsyncRuntime.Runtime.Setup
import AsyncRuntime.Runtime.Configuration
import AsyncRuntime.Runtime.EntityTags
import AsyncRuntime.Runtime.Teardown
import AsyncRuntime.Runtime.TeardownSafety
import AsyncRuntime.Coroutine.Model
import AsyncRuntime.Coroutine.Stage
import AsyncRuntime.Coroutine.Await
import AsyncRuntime.Coroutine.Generator
import AsyncRuntime.Channel.Model
import AsyncRuntime.Channel.Broadcast
import AsyncRuntime.Channel.Waiting
import AsyncRuntime.TripleBuffer.Model
import AsyncRuntime.TripleBuffer.Freshness
import AsyncRuntime.TripleBuffer.LatestValue
import AsyncRuntime.Dataflow.BufferType
import AsyncRuntime.Memory.ResourcePool
import AsyncRuntime.Runtime.NumaNodes
import AsyncRuntime.Io.Multipart
import AsyncRuntime.Io.MultipartReads
import AsyncRuntime.Io.MultipartCuts
import AsyncRuntime.Io.MultipartHeader
import AsyncRuntime.Io.ResponseHeader
import AsyncRuntime.Io.MultipartBoundary
import AsyncRuntime.Io.TcpSession
import AsyncRuntime.Io.TcpStanding
import AsyncRuntime.Io.TcpTimeout
import AsyncRuntime.Io.SessionReads
import AsyncRuntime.Io.ReadDelivery
import AsyncRuntime.Io.DigestAuthenticator
import AsyncRuntime.Io.DigestChallenge
import AsyncRuntime.Base64.Model
import AsyncRuntime.Base64.RoundTrip
import AsyncRuntime.Base64.Canonical
import AsyncRuntime.Base64.Lines
import AsyncRuntime.Base64.Reads
import AsyncRuntime.Base64.Chunks
import AsyncRuntime.WorkStealQueue.AtomicArray
import AsyncRuntime.WorkStealQueue.Queue
import AsyncRuntime.WorkStealQueue.Concurrent
import AsyncRuntime.WorkStealQueue.Linearizability
import AsyncRuntime.Profiling.Model
import AsyncRuntime.Profiling.Batches
import AsyncRuntime.Profiling.WorkSteps
import AsyncRuntime.Profiling.WorkHistory
import AsyncRuntime.TripleBuffer.LockFreedom
