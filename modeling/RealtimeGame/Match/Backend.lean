import RealtimeGame.Match.Entries
import RealtimeGame.Room.ResultSafety

/-!
# Match/Backend — Match and Room, with `Allocate` calling `CreateRoom`

`Allocate` of a thread of Match is `Create` of the registry of Room, and its answer may be lost on
the way back.  Match may stop at any time and be restored from the last snapshot that was saved; Room
goes on.  A history that no code reads keeps what a retry is about.
-/

open Library

namespace RealtimeGame.Match

/-- What becomes of one call of `CreateRoom`: done and answered, done and not answered, not done. -/
inductive CallReply
  | done
  | lost
  | refused
  deriving DecidableEq, Repr

/-- One call of `CreateRoom`: the clock of Room, the next id of its generator, and the reply. -/
structure Call where
  nowMs : Int := 0
  roomId : String := ""
  reply : CallReply := .refused
  deriving DecidableEq, Repr

/-- What happens to groups, oldest first. -/
inductive Event
  /-- A group was taken, while these rooms were alive. -/
  | taken (group : PendingGroup) (alive : List String)
  /-- A `Create` for the group took effect. -/
  | made (group : PendingGroup) (roomId : String)
  /-- The group was put back: without a room, without a member, or by a restart. -/
  | putBack (group : PendingGroup)
  /-- A player waits no longer: cancelled, timed out, settled, or lost by a restart. -/
  | left (playerId : String)
  deriving DecidableEq, Repr

/-! ## What a step of Match is about

The group that is taken, put back or settled, for the history. -/

namespace Action

def withRoomId (roomId : String) : Action → Action
  | .resume thread answer => .resume thread { answer with roomId := roomId }
  | a => a

end Action

namespace MatchSystem

variable (c : MatchConfig) (s : MatchSystem)

/-- The group that an action calls `Allocate` for. -/
def allocating (a : Action) : Option PendingGroup :=
  match s.resumed a with
  | some (.allocate _ (group :: _)) => if c.hasAllocator then some group else none
  | some (.workerAllocate group _) => if c.hasAllocator then some group else none
  | _ => none

/-- The group that an action puts back. -/
def putBack (a : Action) : List PendingGroup :=
  match s.resumed a with
  | some (.commit _ group roomId _) | some (.workerCommit group roomId _) =>
    if s.queue.groupViable group roomId then [] else [group]
  | _ => []

/-- The rows that an action saves. -/
def savedRows : Action → Option (List MatchQueueSnapshotRow)
  | .resume thread answer =>
    match s.threads[thread]? with
    | some (.save _ snapshot) =>
      if answer.saved then
        some ((snapshot.queued ++ snapshot.matched).map fun entry => ⟨entry, ""⟩)
      else none
    | _ => none
  | _ => none

/-- The players who wait for a game and want to go on waiting. -/
def waiting : List String :=
  (s.queue.entries.toPairs.filter fun e => e.2.state = .queued && !e.2.cancelRequested).map (·.1)

/-- Who waits in `s` but not in `s'`. -/
def departures (s s' : MatchSystem) : List Event :=
  (s.waiting.filter fun p => p ∉ s'.waiting).map .left

end MatchSystem

/-! ## Both services

A step of either, or a restart of Match.  A thread that allocates takes a step of both. -/

structure Backend where
  matching : MatchSystem := {}
  rooms : Room.RoomSystem := {}
  /-- The snapshot in the store. -/
  store : List MatchQueueSnapshotRow := []
  history : List Event := []

namespace Backend

/-- An action of Match, with the call it makes if it is an `Allocate`; an action of Room; Match stops
and is restored, if the store can be read. -/
inductive Op
  | matching (action : Action) (call : Call)
  | room (action : Room.Action)
  | restart (nowMs : Int) (loads : Bool)

variable (c : MatchConfig) (stores : Room.RoomStores) (w : Backend)

/-- The rooms in which a game can still be played. -/
def alive : List String := w.rooms.manager.unfinishedRooms.map (·.roomId)

/-- `Create` for a group. -/
def createAction (call : Call) (group : PendingGroup) : Room.Action :=
  .create group.matchId group.playerIds call.nowMs call.roomId

/-- The room that `Create` tells its caller, if any. -/
def told (call : Call) (group : PendingGroup) : Option String :=
  (w.rooms.manager.create call.nowMs group.matchId group.playerIds call.roomId).2.1.map (·.1)

/-- **One step.** -/
def next : Op → Backend
  | .matching a call =>
    match w.matching.allocating c a with
    | some group =>
      match call.reply with
      | .done =>
        { w with
          matching := w.matching.next c (a.withRoomId ((w.told call group).getD ""))
          rooms := w.rooms.next stores (createAction call group)
          history := w.history ++ (w.told call group).toList.map (.made group) }
      | .lost =>
        { w with
          matching := w.matching.next c (a.withRoomId "")
          rooms := w.rooms.next stores (createAction call group)
          history := w.history ++ (w.told call group).toList.map (.made group) }
      | .refused => { w with matching := w.matching.next c (a.withRoomId "") }
    | none =>
      { w with
        matching := w.matching.next c a
        store := (w.matching.savedRows a).getD w.store
        history := w.history ++ ((w.matching.taken a).map (.taken · w.alive) ++
          ((w.matching.putBack a).map .putBack ++
            w.matching.departures (w.matching.next c a))) }
  | .room a => { w with rooms := w.rooms.next stores a }
  | .restart nowMs loads =>
    { w with
      matching := MatchSystem.next c {} (.restore (if loads then some w.store else none) nowMs)
      history := w.history ++ (w.matching.inFlight.map .putBack ++
        w.matching.departures
          (MatchSystem.next c {} (.restore (if loads then some w.store else none) nowMs))) }

/-- The match ids of the groups that were taken. -/
def matchIds (history : List Event) : List String :=
  history.filterMap fun
    | .taken group _ => some group.matchId
    | _ => none

def isCreate : Room.Action → Bool
  | .create .. => true
  | _ => false

/-- The generators return ids they never returned before, and only Match creates rooms. -/
def Fresh : Op → Prop
  | .matching a call =>
    (∀ id ∈ a.ids, id ∉ matchIds w.history) ∧ call.roomId ∉ w.rooms.created
  | .room a => isCreate a = false
  | .restart _ _ => True

instance : DecidablePred w.Fresh
  | .matching _ call => inferInstanceAs (Decidable (_ ∧ call.roomId ∉ w.rooms.created))
  | .room a => inferInstanceAs (Decidable (isCreate a = false))
  | .restart _ _ => .isTrue trivial

/-- One step of a run. -/
def Step (w : Backend) (op : Op) (w' : Backend) : Prop := w.Fresh op ∧ w' = w.next c stores op

/-! ## What a retry is

Two calls of `Create` for one group of players, with the group put back between them. -/

/-- **A retry of room `x`** — a `Create` made `x` for a group; the group was put back; and the same
players, who waited all the time, were taken together again while `x` was alive. -/
def RetryOf (history : List Event) (x : String) (group' : PendingGroup) : Prop :=
  ∃ group alive before first second third,
    history = before ++ .made group x :: first ++ .putBack group :: second ++
      .taken group' alive :: third ∧
    group'.playerIds.Perm group.playerIds ∧ x ∈ alive ∧
    ∀ p ∈ group.playerIds, .left p ∉ first ++ second

/-- A retry of room `x` was given room `y`. -/
def Retried (history : List Event) (x y : String) : Prop :=
  ∃ group' before after, history = before ++ .made group' y :: after ∧ RetryOf before x group'

/-- Room has a room for the group, or makes one. -/
def accepts (call : Call) (group : PendingGroup) : Bool :=
  Room.BattleRoom.createArgsOk group.matchId group.playerIds &&
    (((w.rooms.manager.matchIndex.lookup group.matchId).bind w.rooms.manager.rooms.lookup).isSome ||
      (!w.rooms.manager.shuttingDown && call.roomId ≠ ""))

/-- The step is no `Create` that takes effect for a retry. -/
def SafeStep (op : Op) : Prop :=
  ∀ a call group x, op = .matching a call → w.matching.allocating c a = some group →
    call.reply ≠ .refused → w.accepts call group = true → ¬RetryOf w.history x group

/-- A retry is given the same room, so that nobody is in two unfinished rooms made for retries. -/
def SameRoom : Prop :=
  (∀ x y, Retried w.history x y → x = y) ∧
  ∀ x y, Retried w.history x y → x ∈ w.alive → y ∈ w.alive → x = y

end Backend

end RealtimeGame.Match
