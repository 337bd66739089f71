import RealtimeGame.Gateway.StreamHub

/-!
# Gateway/GatewayProto — the messages of `gateway.proto`, and the calls to Match

The messages of the methods have their fields in common, so there is one request and one response; each method
reads and fills in its own.
-/

namespace RealtimeGame.Gateway

namespace Proto

inductive ErrorCode
  | unspecified
  | invalidArgument
  | unauthenticated
  | notFound
  | unavailable
  | internal
  | resourceExhausted
  | conflict
  | other (number : Int)
  deriving DecidableEq, Repr

/-- `static_cast<int>`. -/
def ErrorCode.toInt : ErrorCode → Int
  | .unspecified => 0
  | .invalidArgument => 1
  | .unauthenticated => 2
  | .notFound => 3
  | .unavailable => 4
  | .internal => 5
  | .resourceExhausted => 6
  | .conflict => 7
  | .other number => number

structure Error where
  code : ErrorCode := .unspecified
  reason : String := ""
  message : String := ""
  requestId : String := ""
  deriving DecidableEq, Repr

structure PlayerInfo where
  playerId : String := ""
  displayName : String := ""
  status : String := ""
  deriving DecidableEq, Repr

structure MatchStatusInfo where
  state : String := ""
  matchId : String := ""
  roomId : String := ""
  playerIds : List String := []
  queuedAtMs : Int := 0
  queueSize : Int := 0
  deriving DecidableEq, Repr

structure RoomPlayerInfo where
  playerId : String := ""
  hp : Int := 0
  connected : Bool := false
  online : Bool := false
  deriving DecidableEq, Repr

structure RoomStateInfo where
  roomId : String := ""
  matchId : String := ""
  state : String := ""
  frame : Int := 0
  players : List RoomPlayerInfo := []
  finishReason : String := ""
  winnerId : String := ""
  startedAtMs : Int := 0
  finishedAtMs : Int := 0
  deriving DecidableEq, Repr

structure MatchResultInfo where
  matchId : String := ""
  roomId : String := ""
  winnerId : String := ""
  playerCount : Int := 0
  startedAtMs : Int := 0
  finishedAtMs : Int := 0
  deriving DecidableEq, Repr

end Proto

/-- `HttpStatusOf`. -/
def httpStatusOf : Proto.ErrorCode → Int
  | .invalidArgument => 400
  | .unauthenticated => 401
  | .notFound => 404
  | .resourceExhausted => 429
  | .conflict => 409
  | .unavailable => 503
  | .internal | .unspecified | .other _ => 500

/-! ## Requests and responses

An empty field is one that was not set. -/

/-- The methods of `GatewayService`. -/
inductive Method
  | login
  | getCurrentPlayer
  | logout
  | enqueueMatch
  | getMatchStatus
  | cancelMatch
  | joinRoom
  | submitInput
  | getRoomState
  | getMatchResult
  | streamEvents
  deriving DecidableEq, Repr

/-- What a method reads of an HTTP request: its path, two headers, and the query. -/
structure HttpRequest where
  path : String := ""
  authorization : Option String := none
  lastEventId : Option String := none
  query : String → Option String := fun _ => none

/-- A request, with its HTTP request if it came as one. -/
structure Request where
  method : Method
  http : Option HttpRequest := none
  token : String := ""
  requestId : String := ""
  account : String := ""
  password : String := ""
  clientType : String := ""
  roomId : String := ""
  matchId : String := ""

/-- A response, with the status of the HTTP response if there is one. -/
structure Response where
  statusCode : Int := 0
  error : Option Proto.Error := none
  token : String := ""
  expiresInSeconds : Int := 0
  player : Option Proto.PlayerInfo := none
  matchInfo : Option Proto.MatchStatusInfo := none
  room : Option Proto.RoomStateInfo := none
  result : Option Proto.MatchResultInfo := none
  httpStatus : Option Int := none
  deriving DecidableEq, Repr

/-! ## What Match answers

The client of Match has its own statuses. -/

inductive MatchState
  | idle
  | queued
  | matched
  | timeout
  deriving DecidableEq, Repr

structure MatchSnapshot where
  state : MatchState := .idle
  matchId : String := ""
  roomId : String := ""
  playerIds : List String := []
  queuedAtMs : Int := 0
  queueSize : Int := 0
  deriving DecidableEq, Repr

inductive MatchCallStatus
  | ok
  | unavailable
  | invalidArgument
  | queueFull
  | internal
  | shuttingDown
  deriving DecidableEq, Repr

end RealtimeGame.Gateway
