import RealtimeGame.Gateway.StreamHub

/-!
# Gateway/StreamSystem — the hub's calls, one lock section or one outside call at a time

`Tick` runs on one thread; clients subscribe and unsubscribe on others.  What a `Tick` still has to do
is a list of jobs, and any other call may run between two of them.  Room and the sinks answer anything.
-/

open Library

namespace RealtimeGame.Gateway

/-- What Room, a sink and the clock answer in one step; each call takes what it asked for. -/
structure Answer where
  /-- `GetSnapshotsSince`, if it returned `kOk`. -/
  range : Option SnapshotRange := none
  /-- `GetState`, if it returned `kOk`. -/
  state : Option RoomSnapshot := none
  /-- What `Write` returned. -/
  wrote : Bool := true
  systemNowMs : Int := 0
  deriving DecidableEq, Repr

/-- The calls that leave the hub, oldest first. -/
inductive StreamEvent
  | setPresence (roomId playerId : String) (online : Bool) (requestId : String)
  | getState (roomId requestId : String) (answer : Option RoomSnapshot)
  /-- With the subscription that it was made for. -/
  | getSnapshotsSince (id : Nat) (roomId : String) (sinceFrame : Int) (requestId : String)
      (answer : Option SnapshotRange)
  | write (id : Nat) (event : SinkEvent) (ok : Bool)
  | close (id : Nat)
  deriving DecidableEq, Repr

/-! ## `Tick`

Jobs stand in the order of the source, and a job may put others before the rest. -/

/-- What a `Tick` does next.  A backfill starts with `backfill`, a room with `countPoll`. -/
inductive Job
  | backfill (target : BackfillTarget)
  /-- Ask for the state that a reset shows. -/
  | current (target : BackfillTarget) (reason : ResetReason)
  | reset (target : BackfillTarget) (reason : ResetReason) (payload : RoomSnapshot)
  /-- Note what was pushed by the reset, and return. -/
  | resetPushed (target : BackfillTarget) (reason : ResetReason) (payload : RoomSnapshot)
      (ok : Bool)
  /-- Write the next missing frame, after this many. -/
  | frame (target : BackfillTarget) (written : Nat) (snapshot : RoomSnapshot)
      (rest : List RoomSnapshot)
  | framePushed (target : BackfillTarget) (written : Nat) (snapshot : RoomSnapshot)
      (rest : List RoomSnapshot)
  | countPoll (room : RoomPoll)
  | poll (room : RoomPoll)
  | compare (room : RoomPoll) (snapshot : RoomSnapshot)
  /-- Push an event, and end the stream after it if it `closes`. -/
  | push (id : Nat) (event : SinkEvent) (closes : Bool)
  | ready (target : ReadyTarget)
  | heartbeat (id : Nat)
  deriving DecidableEq, Repr

/-- What one job does: to the hub, to the variables of `Tick`, the jobs it leads to, and its call. -/
structure JobResult where
  hub : StreamHub
  vars : TickState
  more : List Job := []
  events : List StreamEvent := []

namespace Job

variable (c : StreamConfig) (answer : Answer) (hub : StreamHub) (t : TickState)

/-- After `GetSnapshotsSince`: frame by frame, unless there is none or some are gone. -/
def afterRange (target : BackfillTarget) : Option SnapshotRange → TickState × List Job
  | none => (t.note target.id {}, [])
  | some range =>
    match range.status, range.snapshots with
    | .ahead, _ => (t, [current target .idAhead])
    | .incomplete, _ => (t, [current target .idOutOfWindow])
    | .ready, [] => (t, [current target .idCurrent])
    | .ready, snapshot :: rest => (t, [frame target 0 snapshot rest])

/-- **One job.** -/
def run : Job → JobResult
  | backfill target =>
    if !c.hasRoom then { hub, vars := t.note target.id {} }
    else if target.malformed then { hub, vars := t, more := [current target .idMalformed] }
    else
      match target.sinceFrame with
      | none => { hub, vars := t.note target.id {} }
      | some sinceFrame =>
        { hub
          vars := (afterRange t target answer.range).1
          more := (afterRange t target answer.range).2
          events := [.getSnapshotsSince target.id target.roomId sinceFrame
            (pollRequestId target.requestId target.roomId) answer.range] }
  | current target reason =>
    { hub
      vars := if answer.state.isSome then t else t.note target.id {}
      more := answer.state.toList.map (reset target reason)
      events := [.getState target.roomId (pollRequestId target.requestId target.roomId)
        answer.state] }
  | reset target reason payload =>
    { hub, vars := t
      more := [resetPushed target reason payload answer.wrote]
      events := [.write target.id (.streamReset reason payload answer.systemNowMs) answer.wrote] }
  | resetPushed target reason payload ok =>
    { hub := hub.setLastPushedState target.roomId payload false
      -- `attempted` is set on the path of a malformed `Last-Event-ID` only.
      vars := t.note target.id
        { attempted := target.malformed, writeFailed := !ok
          resetSent := if ok then some reason else none } }
  | frame target written snapshot rest =>
    { hub
      vars := if answer.wrote then t else t.note target.id { writeFailed := true }
      more := if answer.wrote then [framePushed target written snapshot rest] else []
      events := [.write target.id (frameEvent snapshot answer.systemNowMs) answer.wrote] }
  | framePushed target written snapshot rest =>
    { hub := hub.setLastPushedState target.roomId snapshot snapshot.terminal
      vars := match rest with
        | [] => t.note target.id { attempted := true, frames := written + 1 }
        | _ :: _ => t
      more := match rest with
        | [] => []
        | snapshot :: rest => [frame target (written + 1) snapshot rest] }
  | countPoll room =>
    { hub := hub.countPoll, vars := t
      more := if c.hasRoom && room.sinks ≠ [] then [poll room] else [] }
  | poll room =>
    { hub, vars := t
      more := answer.state.toList.map (compare room)
      events := [.getState room.roomId room.requestId answer.state] }
  | compare room snapshot =>
    { hub := hub.comparePushed room.roomId snapshot, vars := t
      more := if hub.roomChanged room.roomId snapshot then
          room.sinks.map (push · (frameEvent snapshot t.nowMs) snapshot.terminal)
        else [] }
  | push id event closes =>
    { hub
      vars := if closes || !answer.wrote then { t with failed := t.failed ++ [id] } else t
      events := [.write id event answer.wrote] }
  | ready target =>
    { hub
      vars := if answer.wrote then t else { t with failed := t.failed ++ [target.id] }
      events := [.write target.id (.sessionReady target.playerId target.roomId t.nowMs)
        answer.wrote] }
  | heartbeat id =>
    { hub
      vars := if answer.wrote then t else { t with failed := t.failed ++ [id] }
      events := [.write id .heartbeat answer.wrote] }

end Job

/-- A `Tick` on its way: its jobs, then its last section, then the reports for those it removed. -/
inductive TickPc
  | running (vars : TickState) (jobs : List Job)
  | reporting (gone : List Subscription)
  deriving DecidableEq, Repr

/-- The jobs of a new `Tick`, in their order. -/
def StreamHub.jobs (c : StreamConfig) (nowMs : Int) (hub : StreamHub) : List Job :=
  (hub.needBackfill nowMs).map .backfill ++ (hub.byRoom nowMs).map .countPoll ++
    (hub.needReady nowMs).map .ready ++ (hub.needHeartbeat c nowMs).map .heartbeat

/-! ## The other calls

Each is a list of what it has yet to do, outside of the lock or under it. -/

/-- What a call other than `Tick` does next. -/
inductive Call
  /-- The lock section of `Subscribe`. -/
  | register (playerId roomId : String) (options : SubscribeOptions)
  | report (roomId playerId : String) (online : Bool) (requestId : String)
  | writeClosed (id : Nat) (reason : String)
  | close (id : Nat)
  deriving DecidableEq, Repr

/-- `ReportPresence`. -/
def reportPresence (c : StreamConfig) (roomId playerId : String) (online : Bool)
    (requestId : String) : List StreamEvent :=
  if c.hasRoom then [.setPresence roomId playerId online requestId] else []

/-- A subscription's end, as Room is told of it. -/
def Subscription.reportOffline (c : StreamConfig) (s : Subscription) : List StreamEvent :=
  reportPresence c s.roomId s.playerId false s.requestId

/-- One step of a call: the hub, what the call does after it, and its outside call. -/
def Call.run (c : StreamConfig) (answer : Answer) (hub : StreamHub) :
    Call → StreamHub × List Call × List StreamEvent
  | .register playerId roomId options =>
    (hub.subscribeLocked playerId roomId options,
      [.report roomId playerId true options.requestId], [])
  | .report roomId playerId online requestId =>
    (hub, [], reportPresence c roomId playerId online requestId)
  | .writeClosed id reason =>
    (hub, [], [.write id (.streamClosed reason answer.systemNowMs) answer.wrote])
  | .close id => (hub, [], [.close id])

/-- The end of a subscription outside the lock: report, then close. -/
def endCalls (e : Nat × Subscription) : List Call :=
  [.report e.2.roomId e.2.playerId false e.2.requestId, .close e.1]

/-! ## The system

One `Tick`, any number of other calls, and the log of what was called. -/

/-- The hub, its `Tick`, the other calls on their way, and two histories that no code reads: the calls
that left the hub, and the clock of the last `Tick`. -/
structure StreamSystem where
  hub : StreamHub := {}
  tick : TickPc := .reporting []
  calls : List (List Call) := []
  log : List StreamEvent := []
  lastTickMs : Option Int := none

/-- The calls of the clients, of the timer and of the shutdown, and the steps they leave behind. -/
inductive StreamOp
  | subscribe (playerId roomId : String) (hasSink : Bool) (options : SubscribeOptions)
  | unsubscribe (id : Nat)
  | tick (nowMs : Int)
  | closeAll
  | beginShutdown
  | closeAllWithEvent (reason : String)
  | resumeTick (answer : Answer)
  | resumeCall (call : Nat) (answer : Answer)
  deriving DecidableEq, Repr

namespace StreamSystem

variable (c : StreamConfig) (s : StreamSystem)

/-- Start a call, with what its first section did to the hub. -/
def start (hub : StreamHub) (calls : List Call) : StreamSystem :=
  { s with hub, calls := s.calls ++ [calls] }

/-- One step of `Tick`. -/
def resumeTick (answer : Answer) : StreamSystem :=
  match s.tick with
  | .running vars (job :: jobs) =>
    { s with
      hub := (job.run c answer s.hub vars).hub
      tick := .running (job.run c answer s.hub vars).vars ((job.run c answer s.hub vars).more ++ jobs)
      log := s.log ++ (job.run c answer s.hub vars).events }
  | .running vars [] =>
    { s with
      hub := (s.hub.commit vars).1
      tick := .reporting ((s.hub.commit vars).2.map (·.2))
      log := s.log ++ (s.hub.commit vars).2.map (.close ·.1) }
  | .reporting (gone :: rest) =>
    { s with tick := .reporting rest, log := s.log ++ gone.reportOffline c }
  | .reporting [] => s

/-- One step of another call. -/
def resumeCall (call : Nat) (answer : Answer) : StreamSystem :=
  match s.calls[call]? with
  | some (next :: rest) =>
    { s with
      hub := (next.run c answer s.hub).1
      calls := s.calls.set call ((next.run c answer s.hub).2.1 ++ rest)
      log := s.log ++ (next.run c answer s.hub).2.2 }
  | _ => s

/-- **One step.** -/
def next : StreamOp → StreamSystem
  | .subscribe playerId roomId hasSink options =>
    if !hasSink || s.hub.draining then s else s.start s.hub [.register playerId roomId options]
  | .unsubscribe id =>
    match s.hub.subscriptions.lookup id with
    | none => s
    | some sub => s.start (s.hub.unsubscribeLocked id) (endCalls (id, sub))
  | .tick nowMs =>
    { s with
      hub := (s.hub.collect c nowMs).1
      tick := .running (s.hub.collect c nowMs).2 (s.hub.jobs c nowMs)
      lastTickMs := some nowMs }
  | .closeAll => s.start s.hub.closeAllLocked (s.hub.subscriptions.toPairs.flatMap endCalls)
  | .beginShutdown => { s with hub := s.hub.beginShutdown }
  | .closeAllWithEvent reason =>
    s.start s.hub.closeAllLocked
      (s.hub.subscriptions.toPairs.map (.writeClosed ·.1 reason) ++
        s.hub.subscriptions.toPairs.flatMap endCalls)
  | .resumeTick answer => s.resumeTick c answer
  | .resumeCall call answer => s.resumeCall c call answer

/-- No `Tick` is on its way. -/
def Idle : Prop := s.tick = .reporting []

/-- There is one thread for `Tick`. -/
def Sequential : StreamOp → Prop
  | .tick _ => s.Idle
  | _ => True

instance : DecidablePred s.Sequential
  | .tick _ => inferInstanceAs (Decidable (s.tick = .reporting []))
  | .subscribe .. | .unsubscribe _ | .closeAll | .beginShutdown | .closeAllWithEvent _
  | .resumeTick _ | .resumeCall .. => .isTrue trivial

/-- One step of a run. -/
def Step (s : StreamSystem) (op : StreamOp) (s' : StreamSystem) : Prop :=
  s.Sequential op ∧ s' = s.next c op

/-! ## One call at a time

The runs in which a call ends before the next begins. -/

/-- Every call is complete. -/
def Settled : Prop := s.Idle ∧ ∀ call ∈ s.calls, call = []

instance : Decidable s.Settled :=
  inferInstanceAs (Decidable (s.tick = .reporting [] ∧ ∀ call ∈ s.calls, call = []))

/-- A call starts when the one before it is complete. -/
def OneAtATime : StreamOp → Prop
  | .resumeTick _ | .resumeCall .. => True
  | _ => s.Settled

instance : DecidablePred s.OneAtATime
  | .resumeTick _ | .resumeCall .. => .isTrue trivial
  | .subscribe .. | .unsubscribe _ | .tick _ | .closeAll | .beginShutdown | .closeAllWithEvent _ =>
    inferInstanceAs (Decidable s.Settled)

/-- One step of a run in which no two calls overlap. -/
def SoloStep (s : StreamSystem) (op : StreamOp) (s' : StreamSystem) : Prop :=
  s.OneAtATime op ∧ s' = s.next c op

end StreamSystem

end RealtimeGame.Gateway
