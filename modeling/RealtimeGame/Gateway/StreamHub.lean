import RealtimeGame.Library.Table

/-!
# Gateway/StreamHub — subscriptions, and what each lock section of the hub does

The hub keeps one record a subscription and pushes events to its sink.  Here are the sections that run
under the lock; the calls to Room and to the sinks, all made outside of it, are in
`Gateway/StreamSystem`.  Times are Unix milliseconds.
-/

open Library

namespace RealtimeGame.Gateway

/-! ## What Room answers

The snapshots as the hub gets them. -/

inductive RoomState
  | created
  | waiting
  | playing
  | finishing
  | finished
  | aborted
  deriving DecidableEq, Repr

/-- `static_cast<int>`. -/
def RoomState.toInt : RoomState → Int
  | .created => 0
  | .waiting => 1
  | .playing => 2
  | .finishing => 3
  | .finished => 4
  | .aborted => 5

structure RoomPlayerSnapshot where
  playerId : String
  hp : Int := 0
  connected : Bool := false
  online : Bool := true
  deriving DecidableEq, Repr

structure RoomSnapshot where
  roomId : String := ""
  matchId : String := ""
  state : RoomState := .created
  frame : Int := 0
  players : List RoomPlayerSnapshot := []
  finishReason : String := ""
  winnerId : String := ""
  startedAtMs : Int := 0
  finishedAtMs : Int := 0
  deriving DecidableEq, Repr

/-- After this snapshot the stream has no more content. -/
def RoomSnapshot.terminal (snapshot : RoomSnapshot) : Bool :=
  snapshot.state = .finished || snapshot.state = .aborted

/-- Is the missing part of the history still there? -/
inductive SnapshotWindowStatus
  | ready
  | incomplete
  | ahead
  deriving DecidableEq, Repr

structure SnapshotRange where
  status : SnapshotWindowStatus := .ready
  snapshots : List RoomSnapshot := []
  deriving DecidableEq, Repr

/-! ## What is written to a sink

An event has what its text shows; the text itself is in `Gateway/SseText`. -/

inductive ResetReason
  | idMalformed
  | idOutOfWindow
  | idAhead
  | idCurrent
  deriving DecidableEq, Repr

/-- One piece of text for a sink: the heartbeat comment, or an event with what its payload shows. -/
inductive SinkEvent
  | heartbeat
  | sessionReady (playerId roomId : String) (nowMs : Int)
  | roomState (snapshot : RoomSnapshot) (nowMs : Int)
  | roomFinished (snapshot : RoomSnapshot) (nowMs : Int)
  | streamReset (reason : ResetReason) (snapshot : RoomSnapshot) (nowMs : Int)
  | streamClosed (reason : String) (nowMs : Int)
  deriving DecidableEq, Repr

/-- The event for one snapshot. -/
def frameEvent (snapshot : RoomSnapshot) (nowMs : Int) : SinkEvent :=
  if snapshot.terminal then .roomFinished snapshot nowMs else .roomState snapshot nowMs

/-- Two snapshots with one signature need one push only. -/
def stateSignature (snapshot : RoomSnapshot) : String :=
  snapshot.players.foldl
    (fun signature player => signature ++ "|" ++ player.playerId ++ ":" ++ toString player.hp ++
      if player.online then "1" else "0")
    (toString snapshot.frame ++ "|" ++ toString snapshot.state.toInt)

/-- The request id of a poll. -/
def pollRequestId (subscriptionRequestId roomId : String) : String :=
  if subscriptionRequestId = "" then "room:" ++ roomId else subscriptionRequestId ++ ":poll"

/-! ## Subscriptions

What the hub keeps of each. -/

structure SubscribeOptions where
  lastEventId : Option Int := none
  lastEventIdMalformed : Bool := false
  requestId : String := ""
  deriving DecidableEq, Repr

/-- One subscription.  Its sink is known by the subscription's id. -/
structure Subscription where
  playerId : String
  roomId : String
  requestId : String := ""
  lastHeartbeatMs : Int := 0
  /-- When it first took part in a `Tick`. -/
  createdMs : Int := 0
  readySent : Bool := false
  backfillPending : Bool := true
  backfillFrom : Option Int := none
  backfillMalformed : Bool := false
  backfillDone : Bool := false
  /-- Was a `stream.reset` sent, and why? -/
  resetSent : Option ResetReason := none
  backfilledFrames : Nat := 0
  deriving DecidableEq, Repr

namespace Subscription

/-- The first `Tick` fills in when the subscription was made. -/
def seen (nowMs : Int) (s : Subscription) : Subscription :=
  if s.createdMs = 0 then { s with createdMs := nowMs, lastHeartbeatMs := nowMs } else s

/-- A subscription without a `Last-Event-ID` has nothing to be backfilled. -/
def shouldBackfill (s : Subscription) : Bool :=
  s.backfillPending && (s.backfillFrom.isSome || s.backfillMalformed)

def heartbeatDue (heartbeatIntervalMs nowMs : Int) (s : Subscription) : Bool :=
  heartbeatIntervalMs ≤ nowMs - s.lastHeartbeatMs

/-- The backfill is done. -/
def backfilled (nowMs : Int) (frames : Nat) (s : Subscription) : Subscription :=
  { s with
    backfillPending := false, backfillFrom := none, backfillDone := true
    backfilledFrames := frames, lastHeartbeatMs := nowMs }

def reset (reason : ResetReason) (s : Subscription) : Subscription :=
  { s with resetSent := some reason }

def ready (nowMs : Int) (s : Subscription) : Subscription :=
  { s with readySent := true, lastHeartbeatMs := nowMs }

def beat (nowMs : Int) (s : Subscription) : Subscription := { s with lastHeartbeatMs := nowMs }

end Subscription

/-! ## The hub

The table of the subscriptions, the table of what was pushed, and the counters. -/

/-- What a hub is made with: a room client or none, and the interval of the heartbeats. -/
structure StreamConfig where
  hasRoom : Bool := true
  heartbeatIntervalMs : Int := 15 * 1000
  deriving DecidableEq, Repr

structure StreamHub where
  subscriptions : Table Nat Subscription := ∅
  nextId : Nat := 1
  roomPollCount : Nat := 0
  backfilledFrameCount : Nat := 0
  resetCounts : Table ResetReason Nat := ∅
  /-- The signature that was pushed last, by room. -/
  lastPushedState : Table String String := ∅
  draining : Bool := false
  createdTotal : Nat := 0
  closedWriteFailedTotal : Nat := 0
  closedOtherTotal : Nat := 0
  skippedNoWriteTotal : Nat := 0

/-- A backfill to be done in this `Tick`. -/
structure BackfillTarget where
  id : Nat
  roomId : String
  requestId : String
  sinceFrame : Option Int
  malformed : Bool
  deriving DecidableEq, Repr

/-- A `session.ready` to be written in this `Tick`. -/
structure ReadyTarget where
  id : Nat
  playerId : String
  roomId : String
  deriving DecidableEq, Repr

/-- What came of one backfill. -/
structure BackfillOutcome where
  attempted : Bool := false
  frames : Nat := 0
  writeFailed : Bool := false
  resetSent : Option ResetReason := none
  deriving DecidableEq, Repr

/-- The local variables of `Tick`. -/
structure TickState where
  nowMs : Int
  needReady : List ReadyTarget := []
  needHeartbeat : List Nat := []
  failed : List Nat := []
  backfilled : List (Nat × Nat) := []
  backfillPendingKept : List Nat := []
  backfilledFrames : Nat := 0
  resetDone : List (Nat × ResetReason) := []
  deriving DecidableEq, Repr

/-- A room that `Tick` polls, with the sinks that hear of it. -/
structure RoomPoll where
  roomId : String
  sinks : List Nat
  requestId : String
  deriving DecidableEq, Repr

namespace TickState

/-- Note the outcome of the backfill of one subscription. -/
def note (t : TickState) (id : Nat) (outcome : BackfillOutcome) : TickState :=
  if outcome.writeFailed then { t with failed := t.failed ++ [id] }
  else
    let t := if outcome.attempted then
        { t with
          backfilled := t.backfilled ++ [(id, outcome.frames)]
          backfilledFrames := t.backfilledFrames + outcome.frames }
      else { t with backfillPendingKept := t.backfillPendingKept ++ [id] }
    match outcome.resetSent with
    | some reason => { t with resetDone := t.resetDone ++ [(id, reason)] }
    | none => t

end TickState

namespace StreamHub

variable (c : StreamConfig) (nowMs : Int) (hub : StreamHub)

/-! ## `Subscribe`, `Unsubscribe` and the ends

Each takes the lock once. -/

/-- The lock section of `Subscribe`; the new id is `nextId`. -/
def subscribeLocked (playerId roomId : String) (options : SubscribeOptions) : StreamHub :=
  { hub with
    subscriptions := hub.subscriptions.insert hub.nextId
      { playerId, roomId, requestId := options.requestId, backfillFrom := options.lastEventId
        backfillMalformed := options.lastEventIdMalformed }
    nextId := hub.nextId + 1
    createdTotal := hub.createdTotal + 1
    -- The next `Tick` pushes the state of the room to the new subscriber.
    lastPushedState := hub.lastPushedState.erase roomId }

def unsubscribeLocked (id : Nat) : StreamHub :=
  { hub with
    subscriptions := hub.subscriptions.erase id
    closedOtherTotal := hub.closedOtherTotal + 1 }

/-- The lock section of `CloseAll` and `CloseAllWithEvent`. -/
def closeAllLocked : StreamHub := { hub with subscriptions := ∅, lastPushedState := ∅ }

def beginShutdown : StreamHub := { hub with draining := true }

/-! ## The first section of `Tick`

It collects what is due, and nothing is called yet. -/

/-- The subscriptions as this `Tick` finds them. -/
def seen : Table Nat Subscription := hub.subscriptions.mapVals fun _ s => s.seen nowMs

def needBackfill : List BackfillTarget :=
  ((hub.seen nowMs).toPairs.filter fun e => e.2.shouldBackfill).map fun e =>
    ⟨e.1, e.2.roomId, e.2.requestId, e.2.backfillFrom, e.2.backfillMalformed⟩

/-- The subscriptions that take part in the live pushes. -/
def live : List (Nat × Subscription) :=
  (hub.seen nowMs).toPairs.filter fun e => !e.2.shouldBackfill

/-- The live subscriptions by room.  The polls of a room go by the last one's request id. -/
def byRoom : List RoomPoll :=
  ((hub.live nowMs).map fun e => e.2.roomId).dedup.map fun roomId =>
    { roomId
      sinks := ((hub.live nowMs).filter fun e => e.2.roomId = roomId).map (·.1)
      requestId := pollRequestId
        ((((hub.live nowMs).filter fun e => e.2.roomId = roomId).getLast?.map
          (·.2.requestId)).getD "") roomId }

def needReady : List ReadyTarget :=
  ((hub.live nowMs).filter fun e => !e.2.readySent).map fun e => ⟨e.1, e.2.playerId, e.2.roomId⟩

/-- Heartbeats are due also where a backfill is pending. -/
def needHeartbeat : List Nat :=
  ((hub.seen nowMs).toPairs.filter fun e =>
    (e.2.shouldBackfill || e.2.readySent) && e.2.heartbeatDue c.heartbeatIntervalMs nowMs).map (·.1)

/-- The section itself: what `Tick` takes with it is `needBackfill`, `byRoom`, and this. -/
def collect : StreamHub × TickState :=
  ({ hub with
      subscriptions := hub.seen nowMs
      skippedNoWriteTotal := hub.skippedNoWriteTotal +
        ((hub.seen nowMs).toPairs.filter fun e =>
          e.2.shouldBackfill && !e.2.heartbeatDue c.heartbeatIntervalMs nowMs).length },
    { nowMs, needReady := hub.needReady nowMs, needHeartbeat := hub.needHeartbeat c nowMs })

/-! ## Sections between the calls

They look up or note one thing each. -/

/-- A state that ends the stream is not kept, so that its event is sent in any case. -/
def setLastPushedState (roomId : String) (snapshot : RoomSnapshot) (terminal : Bool) : StreamHub :=
  { hub with lastPushedState :=
      if terminal then hub.lastPushedState.erase roomId
      else hub.lastPushedState.insert roomId (stateSignature snapshot) }

def countPoll : StreamHub := { hub with roomPollCount := hub.roomPollCount + 1 }

/-- Is there something to push to the room's sinks? -/
def roomChanged (roomId : String) (snapshot : RoomSnapshot) : Bool :=
  stateSignature snapshot ≠ (hub.lastPushedState.lookup roomId).getD "" || snapshot.terminal

def comparePushed (roomId : String) (snapshot : RoomSnapshot) : StreamHub :=
  if hub.roomChanged roomId snapshot then hub.setLastPushedState roomId snapshot snapshot.terminal
  else hub

/-! ## The last section of `Tick`

What was noted between is carried out here. -/

def commitBackfilled (t : TickState) : StreamHub :=
  { hub with
    subscriptions := t.backfilled.foldl
      (fun subs e => subs.adjust e.1 (·.backfilled t.nowMs e.2)) hub.subscriptions
    backfilledFrameCount := hub.backfilledFrameCount + t.backfilledFrames }

def commitResets (t : TickState) : StreamHub :=
  { hub with
    resetCounts := t.resetDone.foldl
      (fun counts e => counts.insert e.2 ((counts.lookup e.2).getD 0 + 1)) hub.resetCounts
    subscriptions := t.resetDone.foldl (fun subs e => subs.adjust e.1 (·.reset e.2))
      hub.subscriptions }

/-- A backfill that could not be done stays pending; only its heartbeat is put off. -/
def commitKept (t : TickState) : StreamHub :=
  { hub with
    subscriptions := t.backfillPendingKept.foldl
      (fun subs id => subs.adjust id (·.beat t.nowMs)) hub.subscriptions }

def commitReady (t : TickState) : StreamHub :=
  { hub with
    subscriptions := t.needReady.foldl
      (fun subs target => subs.adjust target.id (·.ready t.nowMs)) hub.subscriptions }

def commitHeartbeats (t : TickState) : StreamHub :=
  { hub with
    subscriptions := t.needHeartbeat.foldl
      (fun subs id => subs.adjust id (·.beat t.nowMs)) hub.subscriptions }

/-- Remove a subscription whose connection is gone, if it is still there. -/
def dropFailed (acc : StreamHub × List (Nat × Subscription)) (id : Nat) :
    StreamHub × List (Nat × Subscription) :=
  match acc.1.subscriptions.lookup id with
  | none => acc
  | some s =>
    ({ acc.1 with
        subscriptions := acc.1.subscriptions.erase id
        closedWriteFailedTotal := acc.1.closedWriteFailedTotal + 1 },
      acc.2 ++ [(id, s)])

/-- The section itself, with the subscriptions it removes. -/
def commit (t : TickState) : StreamHub × List (Nat × Subscription) :=
  t.failed.foldl dropFailed
    (((((hub.commitBackfilled t).commitResets t).commitKept t).commitReady t).commitHeartbeats t, [])

end StreamHub

end RealtimeGame.Gateway
