import Mathlib.Data.List.Basic

/-!
# Room/Types — rules, phases, snapshots and results of a battle

The constants and records of the Room service.  Times are Unix milliseconds; the size of a string is
its number of bytes.
-/

namespace RealtimeGame.Room

/-! ## Rules -/

def kPlayersPerRoom : Nat := 2
def kInitialHp : Int := 100
def kAttackDamage : Int := 10
def kFrameIntervalMs : Int := 100
def kMaxFrames : Int := 600
def kMaxCatchUpFrames : Int := 10
def kResultRetryIntervalMs : Int := 1000
def kWaitingTimeoutMs : Int := 30 * 1000
def kFinishedRetentionMs : Int := 5 * 60 * 1000
def kMaxSnapshotHistory : Nat := 128
def kReconnectGraceMs : Int := 30 * 1000
def kMaxIdLength : Nat := 64
def kSnapshotIntervalMs : Int := 1000

/-- An identifier is acceptable: neither empty nor too long. -/
def validId (id : String) : Bool := id ≠ "" && id.utf8ByteSize ≤ kMaxIdLength

/-! ## Phases and reasons -/

inductive RoomPhase
  | created
  | waiting
  | playing
  /-- Decided; the result is not in MySQL yet. -/
  | finishing
  /-- The result is in MySQL. -/
  | finished
  /-- Ended without a result. -/
  | aborted
  deriving DecidableEq, Repr

inductive FinishReason
  | none
  | hpZero
  | timeout
  | aborted
  /-- One player did not come back within the grace period. -/
  | disconnect
  deriving DecidableEq, Repr

inductive InputKind
  | attack
  deriving DecidableEq, Repr

/-- `ToString(RoomPhase)`, also the text of the `state` column. -/
def RoomPhase.toText : RoomPhase → String
  | created => "created"
  | waiting => "waiting"
  | playing => "playing"
  | finishing => "finishing"
  | finished => "finished"
  | aborted => "aborted"

/-- `ToString(FinishReason)`, also the text of the `finish_reason` column. -/
def FinishReason.toText : FinishReason → String
  | none => "none"
  | hpZero => "hp_zero"
  | timeout => "timeout"
  | aborted => "aborted"
  | disconnect => "disconnect"

namespace RoomPhase

/-- The three phases a game can still be joined, played or reported in. -/
def unfinished : RoomPhase → Bool
  | created | waiting | playing => true
  | finishing | finished | aborted => false

end RoomPhase

/-! ## Snapshots and results -/

structure PlayerSnapshot where
  playerId : String
  hp : Int
  /-- In the room; says nothing about the network. -/
  connected : Bool
  /-- The push connection is up. -/
  online : Bool
  deriving DecidableEq, Repr

structure RoomSnapshot where
  roomId : String
  matchId : String
  phase : RoomPhase
  frame : Int
  players : List PlayerSnapshot
  finishReason : FinishReason
  winnerId : String
  startedAtMs : Int
  finishedAtMs : Int
  deriving DecidableEq, Repr

/-- One row of `match_results`; an empty winner is a draw. -/
structure MatchResultRecord where
  matchId : String
  roomId : String
  winnerId : String
  playerCount : Int
  startedAtMs : Int
  finishedAtMs : Int
  deriving DecidableEq, Repr

structure RoomPlayerRecord where
  playerId : String
  hp : Int
  joined : Bool
  deriving DecidableEq, Repr

/-- `RoomPlayerRecord{}`. -/
def RoomPlayerRecord.empty : RoomPlayerRecord := ⟨"", kInitialHp, false⟩

/-- One row of `rooms`: the array of exactly two players is two fields. -/
structure RoomSnapshotRecord where
  matchId : String
  roomId : String
  phase : RoomPhase
  frame : Int
  player0 : RoomPlayerRecord
  player1 : RoomPlayerRecord
  winnerId : String
  finishReason : FinishReason
  startedAtMs : Int
  finishedAtMs : Int
  snapshotAtMs : Int
  deriving DecidableEq, Repr

end RealtimeGame.Room
