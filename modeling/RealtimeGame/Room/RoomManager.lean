import RealtimeGame.Library.Table
import RealtimeGame.Room.RoomSnapshot

/-!
# Room/RoomManager — the registry of rooms, one critical section at a time

Each definition is one section of code under `mutex_`: what it does to the registry, and what it
hands to the code after it.  The calls that leave the lock to talk to MySQL (`Tick`, `GetResult`,
`AbortUnfinishedGames`, `Restore`) are put together from their sections in `Room/RoomSystem`.
-/

open Library

namespace RealtimeGame.Room

inductive CreateOutcome
  | ok
  | invalidArgument
  /-- The room id generator failed. -/
  | internal
  | shuttingDown
  deriving DecidableEq, Repr

/-- The outcome of `GetResult`; `kOk` comes with the record that was read. -/
inductive ResultOutcome
  | ok (record : MatchResultRecord)
  | notFound
  | pending
  | unavailable
  deriving DecidableEq, Repr

inductive SnapshotRangeOutcome
  | ok
  | notFound
  | incomplete
  | ahead
  deriving DecidableEq, Repr

structure SnapshotRange where
  outcome : SnapshotRangeOutcome := .notFound
  snapshots : List RoomSnapshot := []
  oldestFrame : Int := 0
  latestFrame : Int := 0
  deriving DecidableEq, Repr

/-- When and in which phase a room was last written to its row. -/
structure SnapshotState where
  lastWriteMs : Int := 0
  lastPhase : RoomPhase := .created
  written : Bool := false
  deriving DecidableEq, Repr

structure RoomManager where
  rooms : Table String BattleRoom := ∅
  /-- From match id to room id. -/
  matchIndex : Table String String := ∅
  /-- By match id. -/
  snapshotState : Table String SnapshotState := ∅
  snapshotWriteCount : Nat := 0
  snapshotFailureCount : Nat := 0
  shuttingDown : Bool := false

/-- The stores a manager was given; a missing one is a null pointer. -/
structure RoomStores where
  hasWriter : Bool
  hasSnapshotWriter : Bool
  hasSnapshotReader : Bool
  /-- How the columns of text compare. -/
  collation : Common.Collation

namespace RoomManager

variable (m : RoomManager) (nowMs : Int)

/-! ## Creation

Once for each match. -/

/-- **`Create`** — idempotent by match id; `roomId` is what the generator would return.  The second
component is the room the caller is told about. -/
def create (matchId : String) (playerIds : List String) (roomId : String) :
    CreateOutcome × Option (String × RoomSnapshot) × RoomManager :=
  if !BattleRoom.createArgsOk matchId playerIds then (.invalidArgument, none, m)
  else
    match (m.matchIndex.lookup matchId).bind m.rooms.lookup with
    | some room => (.ok, some (room.roomId, room.snapshot), m)
    | none =>
      -- An index entry without its room is dropped, then the match counts as new.
      let m := { m with matchIndex := m.matchIndex.erase matchId }
      if m.shuttingDown then (.shuttingDown, none, m)
      else if roomId = "" then (.internal, none, m)
      else
        let room := BattleRoom.new roomId matchId playerIds nowMs
        -- `emplace` keeps what is there already.
        let rooms := if (m.rooms.lookup roomId).isSome then m.rooms else m.rooms.insert roomId room
        (.ok, some (roomId, room.snapshot),
          { m with rooms := rooms, matchIndex := m.matchIndex.insert matchId roomId })

/-! ## The calls of the players

Each finds the room and hands the call on. -/

/-- Replace a room by what an operation made of it. -/
def putRoom (roomId : String) (room : BattleRoom) : RoomManager :=
  { m with rooms := m.rooms.adjust roomId fun _ => room }

def join (roomId playerId : String) : Option (JoinOutcome × RoomSnapshot) × RoomManager :=
  match m.rooms.lookup roomId with
  | none => (none, m)
  | some room =>
    let (outcome, room) := room.join nowMs playerId
    (some (outcome, room.snapshot), m.putRoom roomId room)

def submitInput (roomId playerId : String) (kind : InputKind) :
    Option (SubmitOutcome × RoomSnapshot) × RoomManager :=
  match m.rooms.lookup roomId with
  | none => (none, m)
  | some room =>
    let (outcome, room) := room.submitInput playerId kind
    (some (outcome, room.snapshot), m.putRoom roomId room)

def setPresence (roomId playerId : String) (online : Bool) :
    Option (PresenceOutcome × RoomSnapshot) × RoomManager :=
  match m.rooms.lookup roomId with
  | none => (none, m)
  | some room =>
    let (outcome, room) := room.setPresence nowMs playerId online
    (some (outcome, room.snapshot), m.putRoom roomId room)

/-! ## Recycling and queries

Rooms are recycled before something is looked up. -/

/-- The match ids of the rooms that are due to be recycled. -/
def expiredMatches : List String :=
  (m.rooms.toPairs.filter fun e => e.2.isExpired nowMs).map fun e => e.2.matchId

/-- `ReapExpiredLocked`. -/
def reapExpired : RoomManager :=
  { m with
    rooms := m.rooms.filter fun _ room => !room.isExpired nowMs
    matchIndex := (m.expiredMatches nowMs).foldl (fun t k => t.erase k) m.matchIndex
    snapshotState := (m.expiredMatches nowMs).foldl (fun t k => t.erase k) m.snapshotState }

def getState (roomId : String) : Option RoomSnapshot × RoomManager :=
  let m := m.reapExpired nowMs
  ((m.rooms.lookup roomId).map (·.snapshot), m)

/-- `GetSnapshotsSince`. -/
def getSnapshotsSince (roomId : String) (sinceFrame : Int) : SnapshotRange × RoomManager :=
  let m := m.reapExpired nowMs
  match m.rooms.lookup roomId with
  | none => ({}, m)
  | some room =>
    let oldest := room.snapshotFrameRange.1
    let outcome := if room.frame < sinceFrame then .ahead
      else if sinceFrame + 1 < oldest then .incomplete
      else .ok
    (⟨outcome, room.snapshotsAfter sinceFrame, oldest, room.frame⟩, m)

/-- What `GetResult` decides under the lock. -/
inductive ResultLookup
  | answered (outcome : ResultOutcome)
  /-- The database has the last word. -/
  | readStore
  deriving DecidableEq, Repr

def getResultLocked (matchId : String) : ResultLookup × RoomManager :=
  let m := m.reapExpired nowMs
  match (m.matchIndex.lookup matchId).bind m.rooms.lookup with
  | none => (.readStore, m)
  | some room =>
    match room.phase with
    | .finishing => (.answered .pending, m)
    | .aborted => (.answered .notFound, m)
    | .finished => (.readStore, m)
    | .created | .waiting | .playing => (.answered .notFound, m)

/-! ## Snapshots

When one is due. -/

/-- `ShouldSnapshot`: at once on a first sight or on entering a final phase, then once a second. -/
def shouldSnapshot (state : SnapshotState) (phase : RoomPhase) (nowMs : Int) : Bool :=
  if (phase = .finished ∨ phase = .aborted) ∧ (!state.written ∨ state.lastPhase ≠ phase) then true
  else if !state.written then true
  else kSnapshotIntervalMs ≤ nowMs - state.lastWriteMs

/-- Collect the record of one room if it is due, and remember that it was. -/
def collectSnapshot (nowMs : Int) (acc : List RoomSnapshotRecord × Table String SnapshotState)
    (room : BattleRoom) : List RoomSnapshotRecord × Table String SnapshotState :=
  let state := (acc.2.lookup room.matchId).getD {}
  if shouldSnapshot state room.phase nowMs then
    (acc.1 ++ [room.makeSnapshotRecord nowMs],
      acc.2.insert room.matchId ⟨nowMs, room.phase, true⟩)
  else (acc.1, acc.2.insert room.matchId state)

/-- What a critical section hands to the code that does the I/O. -/
structure Pending where
  snapshots : List RoomSnapshotRecord
  /-- The rooms whose result is to be written. -/
  toPersist : List String
  deriving DecidableEq, Repr

/-! ## Time

All rooms are advanced under one lock. -/

/-- The first critical section of `Tick`. -/
def tickLocked (stores : RoomStores) : Pending × RoomManager :=
  let m := { m with rooms := m.rooms.mapVals fun _ room => (room.tick nowMs).2 }
  let toPersist := (m.rooms.toPairs.filter fun e =>
    e.2.phase = .finishing && e.2.shouldRetryPersist nowMs).map (·.1)
  let (snapshots, snapshotState) :=
    if stores.hasSnapshotWriter then
      (m.rooms.toPairs.map (·.2)).foldl (collectSnapshot nowMs) ([], m.snapshotState)
    else ([], m.snapshotState)
  (⟨snapshots, toPersist⟩, { m with snapshotState := snapshotState }.reapExpired nowMs)

/-- `Tick` on the way to one write: the record of a room that still has one to write. -/
def pendingRecord (roomId : String) : Option MatchResultRecord :=
  match m.rooms.lookup roomId with
  | some room => if room.phase = .finishing then room.result else none
  | none => none

/-- `Tick` after one write. -/
def commitResult (roomId : String) (ok : Bool) : RoomManager :=
  { m with rooms := m.rooms.adjust roomId fun room =>
      if ok then room.markResultPersisted else room.markResultFailed nowMs }

/-- The counters at the end of `FlushSnapshots`. -/
def countSnapshots (succeeded failed : Nat) : RoomManager :=
  { m with snapshotWriteCount := m.snapshotWriteCount + succeeded
           snapshotFailureCount := m.snapshotFailureCount + failed }

/-! ## Shutdown

Games that are not over are aborted. -/

def beginShutdown : RoomManager := { m with shuttingDown := true }

/-- The unfinished rooms. -/
def unfinishedRooms : List BattleRoom := (m.rooms.toPairs.map (·.2)).filter (·.phase.unfinished)

/-- The critical section of `AbortUnfinishedGames`. -/
def abortUnfinishedLocked : Pending × RoomManager :=
  let aborted := m.unfinishedRooms.map fun room => room.abort nowMs
  (⟨aborted.map fun room => room.makeSnapshotRecord nowMs, []⟩,
    { m with
      rooms := m.rooms.mapVals fun _ room => if room.phase.unfinished then room.abort nowMs else room
      snapshotState := aborted.foldl
        (fun t room => t.insert room.matchId ⟨nowMs, room.phase, true⟩) m.snapshotState })

/-! ## Restart

Rows become rooms, or are rejected. -/

/-- One row on restart: a room, or a record to be written back as aborted. -/
def restoreRow (nowMs : Int) (acc : List RoomSnapshotRecord × RoomManager) (row : RoomSnapshotRow) :
    List RoomSnapshotRecord × RoomManager :=
  if row.problem ≠ "" then (acc.1 ++ [row.record], acc.2)
  else
    match BattleRoom.restoreFrom row.record nowMs with
    | none => (acc.1 ++ [row.record], acc.2)
    | some room =>
      if (acc.2.rooms.lookup room.roomId).isSome ∨ (acc.2.matchIndex.lookup room.matchId).isSome
      then acc
      else
        (acc.1, { acc.2 with
          rooms := acc.2.rooms.insert room.roomId room
          matchIndex := acc.2.matchIndex.insert room.matchId room.roomId })

/-- The critical section of `Restore`: the rejected records, and the registry. -/
def restoreLocked (rows : List RoomSnapshotRow) : List RoomSnapshotRecord × RoomManager :=
  rows.foldl (restoreRow nowMs) ([], m)

/-- What `RejectSnapshots` writes back for a rejected record. -/
def rejectedRecord (record : RoomSnapshotRecord) (nowMs : Int) : RoomSnapshotRecord :=
  { record with phase := .aborted, finishReason := .aborted, winnerId := "", snapshotAtMs := nowMs }

end RoomManager

end RealtimeGame.Room
