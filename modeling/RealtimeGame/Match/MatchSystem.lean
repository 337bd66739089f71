import RealtimeGame.Match.PairingLaws

/-!
# Match/MatchSystem — concurrent calls on one queue, at the granularity of its locks

A call that leaves the lock is a thread: a program counter that holds what the code has in its local
variables.  One action runs one critical section, one `Allocate` or one `Save` of one thread;
everything between two actions may be any other thread's.  Allocator, id generator, store and clock
answer as they like.
-/

open Library

namespace RealtimeGame.Match

/-- What the world outside answers to the next step of a thread. -/
structure Answer where
  /-- What the id generator returns, call by call. -/
  ids : List String := []
  /-- What `Allocate` returns; empty if it failed. -/
  roomId : String := ""
  /-- What `Save` returns. -/
  saved : Bool := true
  nowMs : Int := 0
  deriving DecidableEq, Repr

/-! ## Threads

A program counter for each point at which the lock is left. -/

/-- Where a call stands between two of its sections; `changed` is what it noted for the snapshot. -/
inductive Pc
  /-- `Enqueue`, after the check for a shutdown. -/
  | enqueue (playerId requestId : String) (nowMs : Int)
  /-- `RetryPairingIfNeeded`. -/
  | retry (nowMs : Int) (changed : Bool)
  /-- `RunPairingRound`, before the check of the capacity. -/
  | round (nowMs : Int) (changed : Bool)
  /-- Before the groups are taken. -/
  | take (nowMs : Int) (changed : Bool)
  /-- Before the look at the worker. -/
  | choose (nowMs : Int) (groups : List PendingGroup)
  | handOff (nowMs : Int) (groups : List PendingGroup)
  /-- Before `Allocate` for the first of the groups. -/
  | allocate (nowMs : Int) (groups : List PendingGroup)
  | commit (nowMs : Int) (group : PendingGroup) (roomId : String) (groups : List PendingGroup)
  /-- Before `MarkSnapshotDirty`. -/
  | mark (nowMs : Int)
  /-- `AllocationWorkerLoop`, waiting for a group. -/
  | worker
  | workerAllocate (group : PendingGroup) (queuedMs : Int)
  | workerCommit (group : PendingGroup) (roomId : String) (queuedMs : Int)
  | workerMark
  /-- `StopAllocationWorker`, waiting for the worker to end. -/
  | join
  /-- `FlushSnapshotNow`. -/
  | flush (nowMs : Int)
  | save (nowMs : Int) (snapshot : MatchQueueSnapshot)
  | saved (nowMs : Int)
  | done
  deriving DecidableEq, Repr

namespace Pc

/-- The groups a thread has taken and not committed. -/
def groups : Pc → List PendingGroup
  | choose _ groups | handOff _ groups | allocate _ groups => groups
  | commit _ group _ groups => group :: groups
  | workerAllocate group _ | workerCommit group _ _ => [group]
  | _ => []

/-- The end of a call that may have changed something. -/
def finish (nowMs : Int) (changed : Bool) : Pc := if changed then mark nowMs else done

/-- One section of a thread; `workerEnded` says whether the worker has returned. -/
def resume (c : MatchConfig) (workerEnded : Bool) (answer : Answer) (q : MatchQueue) :
    Pc → Pc × MatchQueue
  | enqueue playerId requestId nowMs =>
    (round nowMs (q.enqueueLocked c nowMs playerId requestId).2.1,
      (q.enqueueLocked c nowMs playerId requestId).2.2)
  | retry nowMs changed =>
    (if q.retryLocked.1 then round nowMs changed else finish nowMs changed, q.retryLocked.2)
  | round nowMs changed =>
    if c.maxPendingAllocations ≤ q.allocationQueue.length then (finish nowMs changed, q)
    else (take nowMs changed, q)
  | take nowMs changed =>
    (if (q.takePairGroupsLocked answer.ids).1 = [] then finish nowMs changed
      else choose nowMs (q.takePairGroupsLocked answer.ids).1,
      (q.takePairGroupsLocked answer.ids).2)
  | choose nowMs groups =>
    (if q.workerBusy then handOff nowMs groups else allocate nowMs groups, q)
  | handOff nowMs groups => (mark nowMs, q.handOff nowMs groups)
  | allocate nowMs [] => (mark nowMs, q)
  | allocate nowMs (group :: groups) =>
    (commit nowMs group (if c.hasAllocator then answer.roomId else "") groups, q)
  | commit nowMs group roomId groups =>
    (allocate nowMs groups, q.commitGroup nowMs group roomId)
  | mark nowMs => (done, q.markSnapshotDirty c nowMs)
  | worker =>
    match q.popAllocation with
    | (some (group, queuedMs), q) => (workerAllocate group queuedMs, q)
    | (none, q) => (if q.allocationStop then done else worker, q)
  | workerAllocate group queuedMs =>
    (workerCommit group (if c.hasAllocator then answer.roomId else "") queuedMs, q)
  | workerCommit group roomId queuedMs => (workerMark, q.commitGroup queuedMs group roomId)
  | workerMark => (worker, q.markSnapshotDirty c answer.nowMs)
  | join => if workerEnded then (done, q.workerJoined) else (join, q)
  | flush nowMs =>
    match q.flushLocked with
    | (some snapshot, q) => (save nowMs snapshot, q)
    | (none, q) => (done, q)
  | save nowMs _ => (saved nowMs, q)
  | saved nowMs => (done, q.snapshotSaved nowMs)
  | done => (done, q)

/-- Is this the allocation worker? -/
def isWorker : Pc → Bool
  | worker | workerAllocate .. | workerCommit .. | workerMark => true
  | _ => false

end Pc

/-! ## The system

The queue, the threads, and what is dirty. -/

structure MatchSystem where
  queue : MatchQueue := {}
  threads : List Pc := []

/-- The calls of the clients and of the main loop, and the steps of the threads they leave behind. -/
inductive Action
  | enqueue (playerId requestId : String) (nowMs : Int)
  | cancel (playerId : String) (nowMs : Int)
  | getStatus (playerId : String) (nowMs : Int)
  /-- `rows` is what the store returned, if it could be read. -/
  | restore (rows : Option (List MatchQueueSnapshotRow)) (nowMs : Int)
  | beginShutdown
  | startAllocationWorker
  | stopAllocationWorker
  | tick (nowMs : Int)
  | flushSnapshotNow (nowMs : Int)
  | setSnapshotMergeIntervalMs (ms : Int)
  | resume (thread : Nat) (answer : Answer)
  deriving DecidableEq, Repr

namespace MatchSystem

variable (c : MatchConfig) (s : MatchSystem)

/-- Start a thread, with what its first section did to the queue. -/
def spawn (q : MatchQueue) (pc : Pc) : MatchSystem := ⟨q, s.threads ++ [pc]⟩

def workerEnded : Bool := s.threads.all fun pc => !pc.isWorker

/-- **One action.** -/
def next : Action → MatchSystem
  | .enqueue playerId requestId nowMs =>
    if !MatchQueue.enqueueArgsOk playerId requestId then s
    else if s.queue.shuttingDown then s
    else s.spawn s.queue (.enqueue playerId requestId nowMs)
  | .cancel playerId nowMs =>
    s.spawn (s.queue.cancelLocked c nowMs playerId).2.2
      (.finish nowMs (s.queue.cancelLocked c nowMs playerId).2.1)
  | .getStatus playerId nowMs =>
    s.spawn (s.queue.getStatusLocked c nowMs playerId).2.2
      (.retry nowMs (s.queue.getStatusLocked c nowMs playerId).2.1)
  | .restore none _ => s
  | .restore (some rows) nowMs =>
    if c.hasStore then { s with queue := (s.queue.restoreLocked c nowMs rows).2 } else s
  | .beginShutdown => { s with queue := s.queue.beginShutdown }
  | .startAllocationWorker =>
    if s.queue.startWorkerLocked.1 then s.spawn s.queue.startWorkerLocked.2 .worker else s
  | .stopAllocationWorker =>
    if s.queue.stopWorkerLocked.1 then s.spawn s.queue.stopWorkerLocked.2 .join else s
  | .tick nowMs =>
    if c.hasStore && s.queue.snapshotDue nowMs then s.spawn s.queue (.flush nowMs) else s
  | .flushSnapshotNow nowMs => if c.hasStore then s.spawn s.queue (.flush nowMs) else s
  | .setSnapshotMergeIntervalMs ms => { s with queue := s.queue.setSnapshotMergeIntervalMs ms }
  | .resume thread answer =>
    match s.threads[thread]? with
    | none => s
    | some pc =>
      ⟨(pc.resume c s.workerEnded answer s.queue).2,
        s.threads.set thread (pc.resume c s.workerEnded answer s.queue).1⟩

/-- One step of a run. -/
def Step (s : MatchSystem) (a : Action) (s' : MatchSystem) : Prop := s' = s.next c a

/-- The groups that were taken and not committed. -/
def inFlight : List PendingGroup :=
  s.threads.flatMap Pc.groups ++ s.queue.allocationQueue.map (·.1)

end MatchSystem

end RealtimeGame.Match
