import RealtimeGame.Gateway.BrpcRoomClient
import RealtimeGame.Gateway.GatewayProto
import RealtimeGame.Match.MatchService

/-!
# Gateway/BrpcMatchClient — the calls to Match, and how they are counted

That a player is queued already is no failure.  A Match that shuts down is not counted, as a Room is not
(`conclude_accounts`).
-/

namespace RealtimeGame.Gateway

namespace BrpcMatchClient

def toSnapshot (status : Match.Proto.MatchStatus) : MatchSnapshot where
  state :=
    match status.state with
    | .queued => .queued
    | .matched => .matched
    | .timeout => .timeout
    | .idle | .unspecified | .other _ => .idle
  matchId := status.matchId
  roomId := status.roomId
  playerIds := status.playerIds
  queuedAtMs := status.queuedAtMs
  queueSize := status.queueSize

/-- `ToCallStatus`, with what it counts. -/
def toCallStatus (code : Match.Proto.MatchErrorCode) (m : RpcCounters) : MatchCallStatus × RpcCounters :=
  match code with
  | .unspecified | .alreadyQueued => (.ok, recordRpcCall true m)
  | .invalidArgument => (.invalidArgument, recordRpcCall false m)
  | .queueFull => (.queueFull, recordRpcCall false m)
  | .shuttingDown => (.shuttingDown, m)
  | .internal | .other _ => (.internal, recordRpcCall false m)

/-- What a method returns, what it writes to its out parameter if there is one, and the counters then. -/
structure Outcome where
  status : MatchCallStatus
  out : Option MatchSnapshot
  counters : RpcCounters
  deriving DecidableEq

/-- The end of every method; there is no `response` if the controller has failed. -/
def conclude (response : Option Match.MatchService.Response) (m : RpcCounters) : Outcome :=
  match response with
  | none => ⟨.unavailable, none, recordRpcCall false m⟩
  | some response =>
    ⟨(toCallStatus response.error.code m).1, some (toSnapshot (response.status.getD {})),
      (toCallStatus response.error.code m).2⟩

/-- What the caller has then; it had nothing before. -/
def told (response : Option Match.MatchService.Response) : MatchCallStatus × MatchSnapshot :=
  ((conclude response {}).status, (conclude response {}).out.getD {})

/-- The requests that the methods send; `GetStatus` sends no request id. -/
def enqueue (playerId requestId : String) : Match.MatchService.Request := ⟨.enqueueMatch, requestId, playerId⟩
def getStatus (playerId : String) : Match.MatchService.Request := ⟨.getMatchStatus, "", playerId⟩
def cancel (playerId requestId : String) : Match.MatchService.Request := ⟨.cancelMatch, requestId, playerId⟩

variable {m : RpcCounters}

/-- **One call** is counted once, by its status, exactly if Match does not shut down. -/
theorem conclude_accounts (response : Option Match.MatchService.Response) :
    (conclude response m).counters = recordRpcCall (decide ((conclude response m).status = .ok)) m ↔
      response.map (·.error.code) ≠ some .shuttingDown := by
  cases response with
  | none => exact iff_of_true rfl (by rintro ⟨⟩)
  | some response =>
    obtain ⟨⟨code, reason, message, requestId⟩, status⟩ := response
    cases code with
    | shuttingDown => exact iff_of_false (BrpcRoomClient.recordRpcCall_ne_self _).symm (not_not.mpr rfl)
    | _ => exact iff_of_true rfl (by rintro ⟨⟩)

/-- A match that is told is one that Match showed. -/
theorem matched_of_told {response : Option Match.MatchService.Response} {snapshot : MatchSnapshot}
    (htold : told response = (.ok, snapshot)) (hmatched : snapshot.state = .matched) :
    ∃ response' status, response = some response' ∧ response'.status = some status ∧ status.state = .matched ∧
      snapshot.matchId = status.matchId ∧ snapshot.roomId = status.roomId ∧
      snapshot.playerIds = status.playerIds := by
  obtain ⟨-, rfl⟩ := Prod.mk.inj htold
  cases response with
  | none => cases hmatched
  | some response =>
    obtain ⟨error, _ | status⟩ := response
    · cases hmatched
    · refine ⟨_, status, rfl, rfl, ?_, rfl, rfl, rfl⟩
      obtain ⟨state, requestId, matchId, roomId, playerIds, queuedAtMs, queueSize⟩ := status
      cases state with
      | matched => rfl
      | _ => cases hmatched

end BrpcMatchClient

end RealtimeGame.Gateway
