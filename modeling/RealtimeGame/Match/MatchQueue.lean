import Mathlib.Data.List.Sort
import RealtimeGame.Library.Table
import RealtimeGame.Match.Types

/-!
# Match/MatchQueue — the queue, one critical section at a time

Each definition is one section of code under `mutex_` or under `allocation_mutex_`.  The calls that
leave the lock to allocate a room or to save a snapshot are put together from their sections in
`Match/MatchSystem`.
-/

open Library

namespace RealtimeGame.Match

/-- What a queue is constructed with. -/
structure MatchConfig where
  matchTimeoutMs : Int := kDefaultMatchTimeoutMs
  resultTtlMs : Int := kDefaultResultTtlMs
  maxQueueSize : Nat := kDefaultMaxQueueSize
  maxPendingAllocations : Nat := 256
  hasAllocator : Bool := true
  hasStore : Bool := true
  deriving DecidableEq, Repr

structure MatchQueue where
  /-- By player id. -/
  entries : Table String Entry := ∅
  /-- The players who wait for a partner, first come first served. -/
  queue : List String := []
  /-- A failed allocation is to be tried again. -/
  retryPairing : Bool := false
  shuttingDown : Bool := false
  snapshotDirty : Bool := false
  snapshotDirtySinceMs : Int := 0
  snapshotMergeIntervalMs : Int := 100
  lastSnapshotWriteMs : Int := 0
  allocationQueue : List (PendingGroup × Int) := []
  allocationWorkerRunning : Bool := false
  allocationStop : Bool := false

namespace Entry

/-- A result that is kept no longer. -/
def isStale (c : MatchConfig) (nowMs : Int) (e : Entry) : Bool :=
  (e.state = .matched || e.state = .timeout) && c.resultTtlMs ≤ nowMs - e.stampMs

/-- A player who waits longer than the limit. -/
def isOverdue (c : MatchConfig) (nowMs : Int) (e : Entry) : Bool :=
  c.matchTimeoutMs ≤ nowMs - e.queuedAtMs

def expire (nowMs : Int) (e : Entry) : Entry := { e with state := .timeout, stampMs := nowMs }

/-- Enter the queue, again or for the first time. -/
def enqueue (requestId : String) (nowMs : Int) (e : Entry) : Entry :=
  { e with state := .queued, requestId := requestId, queuedAtMs := nowMs, stampMs := nowMs,
           allocating := false, cancelRequested := false }

def allocate (matchId : String) (group : List String) (e : Entry) : Entry :=
  { e with allocating := true, matchId := matchId, playerIds := group }

def settle (roomId : String) (group : List String) (nowMs : Int) (e : Entry) : Entry :=
  { e with state := .matched, allocating := false, roomId := roomId, playerIds := group,
           stampMs := nowMs }

/-- Back into the queue; the id of the match is forgotten. -/
def release (e : Entry) : Entry := { e with allocating := false, matchId := "", playerIds := [] }

def requestCancel (e : Entry) : Entry := { e with cancelRequested := true }

end Entry

namespace MatchQueue

variable (c : MatchConfig) (q : MatchQueue) (nowMs : Int)

/-! ## Settling what is due

Every section begins with this. -/

/-- The players to be thrown out of the queue. -/
def timedOut : List String :=
  q.queue.filter fun p =>
    match q.entries.lookup p with
    | none => true
    | some e => e.state ≠ .queued || e.isOverdue c nowMs

def expire (q : MatchQueue) (p : String) : MatchQueue :=
  { q with entries := q.entries.adjust p (Entry.expire nowMs), queue := q.queue.erase p }

/-- `SweepLocked`; the first component says whether anything changed. -/
def sweep : Bool × MatchQueue :=
  let timedOut := q.timedOut c nowMs
  let q := timedOut.foldl (expire nowMs) q
  (timedOut ≠ [] || q.entries.toPairs.any fun e => e.2.isStale c nowMs,
    { q with entries := q.entries.filter fun _ e => !e.isStale c nowMs })

/-! ## Entering, leaving, asking

The calls of the players. -/

def enqueueArgsOk (playerId requestId : String) : Bool :=
  playerId ≠ "" && playerId.utf8ByteSize ≤ kMaxPlayerIdLength && requestId ≠ "" &&
    requestId.utf8ByteSize ≤ kMaxRequestIdLength

/-- The second section of `Enqueue`; the flag says whether anything changed. -/
def enqueueLocked (playerId requestId : String) : EnqueueOutcome × Bool × MatchQueue :=
  let (changed, q) := q.sweep c nowMs
  match q.entries.lookup playerId with
  | some e =>
    if e.state = .queued ∨ e.state = .matched then (.alreadyQueued, changed, q)
    else if c.maxQueueSize ≤ q.queue.length then (.queueFull, changed, q)
    else (.queued, true, { q with
      entries := q.entries.insert playerId (e.enqueue requestId nowMs)
      queue := q.queue ++ [playerId] })
  | none =>
    if c.maxQueueSize ≤ q.queue.length then (.queueFull, changed, q)
    else (.queued, true, { q with
      entries := q.entries.insert playerId (Entry.enqueue requestId nowMs {})
      queue := q.queue ++ [playerId] })

/-- The section of `Cancel`: was the player taken out, and did anything change? -/
def cancelLocked (playerId : String) : Bool × Bool × MatchQueue :=
  let (changed, q) := q.sweep c nowMs
  match q.entries.lookup playerId with
  | none => (false, changed, q)
  | some e =>
    if e.allocating then
      (true, true, { q with entries := q.entries.adjust playerId Entry.requestCancel })
    else if e.state ≠ .queued then (false, changed, q)
    else (true, true, { q with
      entries := q.entries.erase playerId
      queue := q.queue.erase playerId })

/-- `SnapshotLocked`. -/
def statusSnapshot (playerId : String) : MatchStatusSnapshot :=
  match q.entries.lookup playerId with
  | none => { queueSize := q.queue.length }
  | some e => ⟨e.state, e.requestId, e.matchId, e.roomId, e.playerIds, e.queuedAtMs, q.queue.length⟩

/-- The first section of `GetStatus`. -/
def getStatusLocked (playerId : String) : MatchStatusSnapshot × Bool × MatchQueue :=
  let (changed, q) := q.sweep c nowMs
  (q.statusSnapshot playerId, changed, q)

/-- The section of `RetryPairingIfNeeded`: is there something to try again? -/
def retryLocked : Bool × MatchQueue := (q.retryPairing, { q with retryPairing := false })

def beginShutdown : MatchQueue := { q with shuttingDown := true }

/-! ## Pairing

Groups are taken under the lock, and committed under it; what is between is outside. -/

/-- Take players from the front until the group is full; one who is not queued is dropped. -/
def takeGroup (entries : Table String Entry) (group : List String) :
    List String → List String × List String
  | [] => (group, [])
  | p :: rest =>
    if kPlayersPerMatch ≤ group.length then (group, p :: rest)
    else if (entries.lookup p).map (·.state) = some .queued then
      takeGroup entries (group ++ [p]) rest
    else takeGroup entries group rest

/-- The loop of `TakePairGroupsLocked`, for at most `fuel` rounds; `ids` is what the generator
returns, call by call, and a call beyond it fails. -/
def takePairGroups : Nat → List String → MatchQueue → List PendingGroup × MatchQueue
  | 0, _, q => ([], q)
  | fuel + 1, ids, q =>
    if q.queue.length < kPlayersPerMatch then ([], q)
    else
      let (group, rest) := takeGroup q.entries [] q.queue
      if group.length < kPlayersPerMatch then ([], { q with queue := group ++ rest })
      else if ids.headD "" = "" then ([], { q with queue := group ++ rest })
      else
        let pending : PendingGroup := ⟨ids.headD "", group,
          ((group.head?.bind q.entries.lookup).map (·.requestId)).getD ""⟩
        let (groups, q) := takePairGroups fuel ids.tail { q with
          entries := group.foldl (fun t p => t.adjust p (Entry.allocate (ids.headD "") group))
            q.entries
          queue := rest }
        (pending :: groups, q)

/-- `TakePairGroupsLocked`: each round shortens the queue, so there is fuel enough. -/
def takePairGroupsLocked (ids : List String) : List PendingGroup × MatchQueue :=
  takePairGroups q.queue.length ids q

/-- The members of a group who are known, and have or have not asked to leave. -/
def members (group : PendingGroup) (cancelled : Bool) : List String :=
  group.playerIds.filter fun p =>
    (q.entries.lookup p).map (·.cancelRequested) = some cancelled

/-- `group_viable`: there is a room, and everybody still wants it. -/
def groupViable (group : PendingGroup) (roomId : String) : Bool :=
  roomId ≠ "" && q.members group true = []

/-- One player back to the front of the queue. -/
def putBack (p : String) (q : MatchQueue) : MatchQueue :=
  match q.entries.lookup p with
  | none => q
  | some _ => { q with entries := q.entries.adjust p Entry.release, queue := p :: q.queue }

/-- **`CommitGroupLocked`** — the empty room id says that the allocation failed. -/
def commitGroup (group : PendingGroup) (roomId : String) : MatchQueue :=
  let cancelled := q.members group true
  let requeue := q.members group false
  if q.groupViable group roomId then
    { q with
      entries := requeue.foldl
        (fun t p => t.adjust p (Entry.settle roomId group.playerIds nowMs)) q.entries }
  else
    requeue.foldr putBack { q with
      retryPairing := if roomId = "" then true else q.retryPairing
      entries := cancelled.foldl (fun t p => t.erase p) q.entries }

/-! ## The allocation worker

Groups are handed over behind those that it already has. -/

/-- `HandOffToWorker`. -/
def handOff (groups : List PendingGroup) : MatchQueue :=
  { q with allocationQueue := q.allocationQueue ++ groups.map fun g => (g, nowMs) }

def workerBusy : Bool := q.allocationWorkerRunning && !q.allocationQueue.isEmpty

/-- The worker takes its next group. -/
def popAllocation : Option (PendingGroup × Int) × MatchQueue :=
  match q.allocationQueue with
  | [] => (none, q)
  | g :: rest => (some g, { q with allocationQueue := rest })

/-- The section of `StartAllocationWorker`: is there a thread to start? -/
def startWorkerLocked : Bool × MatchQueue :=
  if q.allocationWorkerRunning then (false, q)
  else (true, { q with allocationStop := false, allocationWorkerRunning := true })

/-- The first section of `StopAllocationWorker`: is there a thread to wait for? -/
def stopWorkerLocked : Bool × MatchQueue :=
  if q.allocationWorkerRunning then (true, { q with allocationStop := true }) else (false, q)

/-- Its second section. -/
def workerJoined : MatchQueue := { q with allocationWorkerRunning := false }

/-! ## Snapshots

What is saved: who waits, and each match once. -/

/-- `MarkSnapshotDirty`. -/
def markSnapshotDirty : MatchQueue :=
  if !c.hasStore then q
  else if q.snapshotDirty then q
  else { q with snapshotDirty := true, snapshotDirtySinceMs := nowMs }

def setSnapshotMergeIntervalMs (ms : Int) : MatchQueue :=
  { q with snapshotMergeIntervalMs := if 0 < ms then ms else 0 }

/-- `MakeSnapshotLocked`: the queue in its order, then who is being allocated and wants to stay, then
every match once. -/
def makeSnapshot : MatchQueueSnapshot where
  queued :=
    (q.queue.filterMap fun p =>
      (q.entries.lookup p).bind fun e =>
        if e.state = .queued then some (.queued p e.queuedAtMs) else none) ++
    q.entries.toPairs.filterMap fun e =>
      if e.2.state = .queued ∧ e.2.allocating ∧ !e.2.cancelRequested then
        some (.queued e.1 e.2.queuedAtMs)
      else none
  matched :=
    ((q.entries.toPairs.map (·.2)).foldl (fun (acc : List MatchQueueEntry × List String) e =>
      if e.state = .matched ∧ e.matchId ∉ acc.2 then
        (acc.1 ++ [.matched e.matchId e.roomId e.playerIds e.stampMs], acc.2 ++ [e.matchId])
      else acc) ([], [])).1

/-- The section of `Tick`: is a snapshot due? -/
def snapshotDue : Bool :=
  q.snapshotDirty &&
    !(0 < q.snapshotMergeIntervalMs && 0 < q.lastSnapshotWriteMs &&
      nowMs - q.lastSnapshotWriteMs < q.snapshotMergeIntervalMs)

/-- The section of `FlushSnapshotNow`: the copy to be saved, if there is anything new. -/
def flushLocked : Option MatchQueueSnapshot × MatchQueue :=
  if q.snapshotDirty then
    (some q.makeSnapshot, { q with snapshotDirty := false, snapshotDirtySinceMs := 0 })
  else (none, q)

/-- After `Save`. -/
def snapshotSaved : MatchQueue := { q with lastSnapshotWriteMs := nowMs }

/-! ## Restart

Rows that are valid and in time come back. -/

/-- One waiting player of the snapshot. -/
def restoreQueued (acc : MatchRestoreReport × MatchQueue) (row : String × Int) :
    MatchRestoreReport × MatchQueue :=
  if (acc.2.entries.lookup row.1).isSome then
    ({ acc.1 with dropped := acc.1.dropped + 1 }, acc.2)
  else if c.matchTimeoutMs ≤ nowMs - row.2 then
    ({ acc.1 with timedOut := acc.1.timedOut + 1 }, acc.2)
  else
    ({ acc.1 with queued := acc.1.queued + 1 },
      { acc.2 with
        entries := acc.2.entries.insert row.1
          { state := .queued, queuedAtMs := row.2, stampMs := row.2 }
        queue := acc.2.queue ++ [row.1] })

/-- Everybody of one match gets an entry, who has none. -/
def restorePlayer (entry : Entry) (entries : Table String Entry) (p : String) :
    Table String Entry :=
  if (entries.lookup p).isSome then entries else entries.insert p entry

/-- One match of the snapshot. -/
def restoreMatched (acc : MatchRestoreReport × MatchQueue)
    (row : String × String × List String × Int) : MatchRestoreReport × MatchQueue :=
  if c.resultTtlMs ≤ nowMs - row.2.2.2 then
    ({ acc.1 with expiredResults := acc.1.expiredResults + row.2.2.1.length }, acc.2)
  else if row.2.2.1.any fun p => (acc.2.entries.lookup p).isSome then
    ({ acc.1 with dropped := acc.1.dropped + 1 }, acc.2)
  else
    ({ acc.1 with matched := acc.1.matched + row.2.2.1.length },
      { acc.2 with
        entries := row.2.2.1.foldl
          (restorePlayer { state := .matched, matchId := row.1, roomId := row.2.1,
                           playerIds := row.2.2.1, stampMs := row.2.2.2 }) acc.2.entries })

/-- The usable rows of players who were waiting, by the time they entered. -/
def queuedRows (rows : List MatchQueueSnapshotRow) : List (String × Int) :=
  (rows.filterMap fun row =>
    match row.entry with
    | .queued p queuedAtMs => if row.problem = "" then some (p, queuedAtMs) else none
    | .matched .. => none).insertionSort fun a b => a.2 ≤ b.2

/-- The usable rows of matches. -/
def matchedRows (rows : List MatchQueueSnapshotRow) : List (String × String × List String × Int) :=
  rows.filterMap fun row =>
    match row.entry with
    | .queued .. => none
    | .matched matchId roomId playerIds stampMs =>
      if row.problem = "" then some (matchId, roomId, playerIds, stampMs) else none

/-- **`Restore`** with the rows that were read. -/
def restoreLocked (rows : List MatchQueueSnapshotRow) : MatchRestoreReport × MatchQueue :=
  let report : MatchRestoreReport :=
    { scanned := rows.length, dropped := (rows.filter (·.problem ≠ "")).length }
  let acc := (queuedRows rows).foldl (restoreQueued c nowMs) (report, q)
  let acc := (matchedRows rows).foldl (restoreMatched c nowMs) acc
  (acc.1, (acc.2.sweep c nowMs).2)

end MatchQueue

end RealtimeGame.Match
