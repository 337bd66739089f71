import Mathlib.Data.List.Basic

/-!
# Match/Types — players waiting for a game, and what is kept of them

The constants and records of the Match service.  Times are Unix milliseconds; the size of a string is
its number of bytes.
-/

namespace RealtimeGame.Match

/-! ## Constants -/

def kPlayersPerMatch : Nat := 2
def kDefaultMatchTimeoutMs : Int := 30 * 1000
def kDefaultResultTtlMs : Int := 120 * 1000
def kDefaultMaxQueueSize : Nat := 1000
def kMaxRequestIdLength : Nat := 64
def kMaxPlayerIdLength : Nat := 64

/-! ## Players -/

/-- `MatchStatusSnapshot::State`. -/
inductive MatchState
  | idle
  | queued
  | matched
  | timeout
  deriving DecidableEq, Repr

/-- What the queue knows of one player. -/
structure Entry where
  state : MatchState := .idle
  requestId : String := ""
  matchId : String := ""
  roomId : String := ""
  playerIds : List String := []
  queuedAtMs : Int := 0
  /-- When the state last changed. -/
  stampMs : Int := 0
  /-- A room is being allocated: out of the queue, but reported as queued. -/
  allocating : Bool := false
  /-- A cancellation arrived during the allocation. -/
  cancelRequested : Bool := false
  deriving DecidableEq, Repr

/-- A request for a room. -/
structure PendingGroup where
  matchId : String
  playerIds : List String
  /-- The request id of the first of the players. -/
  requestId : String
  deriving DecidableEq, Repr

structure MatchStatusSnapshot where
  state : MatchState := .idle
  requestId : String := ""
  matchId : String := ""
  roomId : String := ""
  playerIds : List String := []
  queuedAtMs : Int := 0
  queueSize : Nat := 0
  deriving DecidableEq, Repr

inductive EnqueueOutcome
  | shuttingDown
  | queued
  | alreadyQueued
  | queueFull
  | invalidArgument
  deriving DecidableEq, Repr

/-! ## Snapshots -/

/-- One entry of a snapshot; the kind says which fields there are. -/
inductive MatchQueueEntry
  | queued (playerId : String) (queuedAtMs : Int)
  | matched (matchId roomId : String) (playerIds : List String) (stampMs : Int)
  deriving DecidableEq, Repr

/-- An entry that was read back, and why it cannot be used. -/
structure MatchQueueSnapshotRow where
  entry : MatchQueueEntry
  problem : String
  deriving DecidableEq, Repr

structure MatchQueueSnapshot where
  queued : List MatchQueueEntry
  matched : List MatchQueueEntry
  deriving DecidableEq, Repr

structure MatchRestoreReport where
  scanned : Nat := 0
  queued : Nat := 0
  matched : Nat := 0
  dropped : Nat := 0
  timedOut : Nat := 0
  expiredResults : Nat := 0
  loadFailed : Bool := false
  deriving DecidableEq, Repr

end RealtimeGame.Match
