import RealtimeGame.Room.BattleRoom

/-!
# Room/RoomProto — the messages of `room.proto`, and what Room fills in

An enumeration of proto3 is open: a peer of another version may send a number that is not in it.
-/

namespace RealtimeGame.Room

namespace Proto

inductive RoomState
  | unspecified
  | created
  | waiting
  | playing
  | finishing
  | finished
  | aborted
  | other (number : Int)
  deriving DecidableEq, Repr

inductive FinishReason
  | unspecified
  | hpZero
  | timeout
  | aborted
  | disconnect
  | other (number : Int)
  deriving DecidableEq, Repr

inductive RoomErrorCode
  | unspecified
  | invalidArgument
  | notFound
  | alreadyFinished
  | resultPending
  | storeUnavailable
  | internal
  | notAMember
  | notPlaying
  | shuttingDown
  | other (number : Int)
  deriving DecidableEq, Repr

inductive SnapshotWindowStatus
  | unspecified
  | ready
  | incomplete
  | ahead
  | other (number : Int)
  deriving DecidableEq, Repr

structure PlayerState where
  playerId : String := ""
  hp : Int := 0
  connected : Bool := false
  online : Bool := false
  deriving DecidableEq, Repr

structure RoomSnapshot where
  roomId : String := ""
  matchId : String := ""
  state : RoomState := .unspecified
  frame : Int := 0
  players : List PlayerState := []
  finishReason : FinishReason := .unspecified
  winnerId : String := ""
  startedAtMs : Int := 0
  finishedAtMs : Int := 0
  deriving DecidableEq, Repr

structure MatchResult where
  matchId : String := ""
  roomId : String := ""
  winnerId : String := ""
  playerCount : Int := 0
  startedAtMs : Int := 0
  finishedAtMs : Int := 0
  deriving DecidableEq, Repr

/-- The answer to `JoinRoom`, `SubmitInput`, `SetPlayerPresence` and `GetRoomState`. -/
structure RoomResponse where
  code : RoomErrorCode := .unspecified
  room : RoomSnapshot := {}
  deriving DecidableEq, Repr

structure GetMatchResultResponse where
  code : RoomErrorCode := .unspecified
  result : Option MatchResult := none
  room : Option RoomSnapshot := none
  deriving DecidableEq, Repr

structure GetRoomSnapshotsSinceResponse where
  code : RoomErrorCode := .unspecified
  status : SnapshotWindowStatus := .unspecified
  snapshots : List RoomSnapshot := []
  oldestFrame : Int := 0
  latestFrame : Int := 0
  deriving DecidableEq, Repr

end Proto

/-! ## What Room fills in -/

def toProtoState : RoomPhase → Proto.RoomState
  | .created => .created
  | .waiting => .waiting
  | .playing => .playing
  | .finishing => .finishing
  | .finished => .finished
  | .aborted => .aborted

def toProtoFinishReason : FinishReason → Proto.FinishReason
  | .hpZero => .hpZero
  | .timeout => .timeout
  | .aborted => .aborted
  | .disconnect => .disconnect
  | .none => .unspecified

def fillSnapshot (source : RoomSnapshot) : Proto.RoomSnapshot where
  roomId := source.roomId
  matchId := source.matchId
  state := toProtoState source.phase
  frame := source.frame
  players := source.players.map fun player => ⟨player.playerId, player.hp, player.connected, player.online⟩
  finishReason := toProtoFinishReason source.finishReason
  winnerId := source.winnerId
  startedAtMs := source.startedAtMs
  finishedAtMs := source.finishedAtMs

end RealtimeGame.Room
