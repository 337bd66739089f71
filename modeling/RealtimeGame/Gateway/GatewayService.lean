import RealtimeGame.Common.Logging
import RealtimeGame.Common.Token
import RealtimeGame.Gateway.BrpcRoomClient
import RealtimeGame.Gateway.PlayerDirectory
import RealtimeGame.Gateway.SessionStore
import RealtimeGame.Gateway.SseText
import RealtimeGame.Library.Script

/-!
# Gateway/GatewayService — the methods of the Gateway

A method is a program that calls the stores and the other services, the log and the counters among them.  Who a
player is comes from the session alone.
-/

open Library RealtimeGame.Common

namespace RealtimeGame.Gateway

/-! ## Limits

Constants of the source, and the checks that use them. -/

def kDefaultSessionTtlSeconds : Int := 7 * 24 * 60 * 60
def kMaxAccountLength : Nat := 64
def kMaxPasswordLength : Nat := 128
def kMaxRequestIdLength : Nat := 64
def kMaxTokenLength : Nat := 256

/-- What the service was given; a missing client is a null pointer. -/
structure GatewayService where
  hasRoom : Bool
  hasStream : Bool
  sessionTtlSeconds : Int
  ttl_pos : 0 < sessionTtlSeconds

/-- The constructor: a TTL that is not positive is replaced by the default. -/
def GatewayService.new (hasRoom hasStream : Bool) (sessionTtlSeconds : Int) : GatewayService where
  hasRoom := hasRoom
  hasStream := hasStream
  sessionTtlSeconds := if 0 < sessionTtlSeconds then sessionTtlSeconds else kDefaultSessionTtlSeconds
  ttl_pos := by
    split
    · assumption
    · decide

/-! ## What is read of a request

The token, the ids and the stream options come from headers, from the path or from the message. -/

def kBearer : List Char := "bearer ".toList

/-- The token in the header `Authorization`: all of it, but for a prefix `Bearer`. -/
def tokenOfHeader (auth : String) : String :=
  if kBearer.length < auth.utf8ByteSize ∧ (auth.toList.take kBearer.length).map Char.toLower = kBearer then
    String.ofList (auth.toList.drop kBearer.length)
  else auth

/-- **`ExtractToken`** — from the body, then the header, then the query. -/
def extractToken (http : Option HttpRequest) (bodyToken : String) : String :=
  if bodyToken ≠ "" then bodyToken
  else
    match http with
    | none => ""
    | some http =>
      match http.authorization with
      | some auth => tokenOfHeader auth
      | none => (http.query "token").getD ""

def extractQueryParam (http : Option HttpRequest) (name bodyValue : String) : String :=
  if bodyValue ≠ "" then bodyValue
  else
    match http with
    | none => ""
    | some http => (http.query name).getD ""

/-- `value` means nothing if it is malformed. -/
structure LastEventIdHeader where
  value : Int := 0
  malformed : Bool := false
  present : Bool := false
  deriving DecidableEq, Repr

/-- The loop over the digits. -/
def readDigits (value : Int) : List Char → Option Int
  | [] => some value
  | ch :: raw => if ch < '0' ∨ '9' < ch then none else readDigits (value * 10 + (ch.toNat - '0'.toNat)) raw

/-- **`ParseLastEventId`**. -/
def parseLastEventId (http : Option HttpRequest) : LastEventIdHeader :=
  match http.bind HttpRequest.lastEventId with
  | none => {}
  | some raw =>
    if raw = "" ∨ 18 < raw.utf8ByteSize then { malformed := true, present := true }
    else
      match readDigits 0 raw.toList with
      | some value => { value, present := true }
      | none => { malformed := true, present := true }

/-- `ValidateLoginRequest`; an empty reason is none. -/
def validateLoginRequest (request : Request) : String :=
  if request.account = "" then "account_required"
  else if kMaxAccountLength < request.account.utf8ByteSize then "account_too_long"
  else if request.password = "" then "password_required"
  else if kMaxPasswordLength < request.password.utf8ByteSize then "password_too_long"
  else if kMaxRequestIdLength < request.requestId.utf8ByteSize then "request_id_too_long"
  else if request.clientType ≠ "" ∧ request.clientType ≠ "web" ∧ request.clientType ≠ "bot" then
    "unsupported_client_type"
  else ""

def validateToken (token : String) : String :=
  if token = "" then "token_required"
  else if kMaxTokenLength < token.utf8ByteSize then "token_too_long"
  else if !isValidTokenFormat token then "token_malformed"
  else ""

/-! ## Names

What the client reads for a state. -/

def matchStateName : MatchState → String
  | .idle => "idle"
  | .queued => "queued"
  | .matched => "matched"
  | .timeout => "timeout"

def logLevelForStatus (statusCode : Int) : LogLevel :=
  if 500 ≤ statusCode then .error else if 400 ≤ statusCode then .warn else .info

def kMappings : List (String × String) :=
  [("/api/v1/login", "login"), ("/api/v1/players/me", "get_current_player"), ("/api/v1/logout", "logout"),
    ("/api/v1/matches", "enqueue_match"), ("/api/v1/matches/current", "get_match_status"),
    ("/api/v1/matches/current/cancel", "cancel_match"), ("/api/v1/rooms/join", "join_room"),
    ("/api/v1/rooms/input", "submit_input"), ("/api/v1/rooms/state", "get_room_state"),
    ("/api/v1/results", "get_match_result"), ("/api/v1/stream", "stream_events")]

def operationForPath (path : String) : String :=
  ((kMappings.find? (·.1 = path)).map (·.2)).getD "unknown"

/-! ## Calls

What a method may ask of the outside, and what it is answered. -/

/-- What a method calls. -/
inductive GatewayCall
  | isShuttingDown
  | authenticate (account password : String)
  | findByPlayerId (playerId : String)
  | createSession (requestId playerId clientType : String) (ttlSeconds : Int)
  | getSession (token : String)
  | deleteSession (token : String)
  | enqueue (playerId requestId : String)
  | getStatus (playerId : String)
  | cancel (playerId requestId : String)
  | join (roomId playerId requestId : String)
  | submitAttack (roomId playerId requestId : String)
  | getState (roomId requestId : String)
  | getResult (matchId requestId : String)
  | createProgressiveAttachment
  | subscribe (playerId roomId : String) (options : SubscribeOptions)
  | log (record : LogRecord)
  | count (path : String) (statusCode : Int)
  deriving DecidableEq

/-- What it gets; the id `0` is no subscription. -/
abbrev GatewayAnswer : GatewayCall → Type
  | .isShuttingDown => Bool
  | .authenticate .. => Except CredentialStatus Proto.PlayerInfo
  | .findByPlayerId _ => Option Proto.PlayerInfo
  | .createSession .. => Except StoreStatus String
  | .getSession _ => Except StoreStatus SessionRecord
  | .deleteSession _ => Except StoreStatus Unit
  | .enqueue .. | .getStatus _ | .cancel .. => MatchCallStatus × MatchSnapshot
  | .join .. | .submitAttack .. | .getState .. => RoomCallStatus × RoomSnapshot
  | .getResult .. => RoomCallStatus × MatchResultView
  | .createProgressiveAttachment => Bool
  | .subscribe .. => Nat
  | .log _ | .count .. => Unit

/-- A part of a method. -/
abbrev Handler (ρ : Type) : Type := Script GatewayAnswer ρ

def ask (c : GatewayCall) : Handler (GatewayAnswer c) := Script.call c

def eventRecord (level : LogLevel) (event requestId : String) (fields : List (String × String)) : LogRecord where
  traceId := bytesOf requestId
  level := level
  event := bytesOf event
  fields := fields.map fun field => ⟨bytesOf field.1, bytesOf field.2⟩

def logWarn (event requestId : String) (fields : List (String × String)) : Handler Unit :=
  ask (.log (eventRecord .warn event requestId fields))

def logInfo (event requestId : String) (fields : List (String × String)) : Handler Unit :=
  ask (.log (eventRecord .info event requestId fields))

/-! ## Errors

An error is filled in and logged, and then the request is ended. -/

/-- An error that was filled in, and its status. -/
structure Refusal where
  status : Int
  error : Proto.Error
  deriving DecidableEq, Repr

/-- `FillError`. -/
def fillError (code : Proto.ErrorCode) (reason message requestId : String) : Handler Refusal := do
  logWarn "request_failed" requestId
    [("http_status", toString (httpStatusOf code)), ("error_code", toString code.toInt), ("reason", reason),
      ("message", message), ("policy", "错误路径必须可见；与 request_done 用 request_id 关联")]
  pure ⟨httpStatusOf code, { code, reason, message, requestId }⟩

/-- The paths of the service. -/
def isApiPath (path : String) : Bool := "/api/v1/".toList.isPrefixOf path.toList

/-- `RecordHttpRequest`: only the paths of the service are counted. -/
def recordHttpRequest (http : Option HttpRequest) (statusCode : Int) : Handler Unit :=
  match http with
  | none => pure ()
  | some http => if isApiPath http.path then ask (.count http.path statusCode) else pure ()

def operationOf : Option HttpRequest → String
  | some http => operationForPath http.path
  | none => "unknown"

def requestDone (http : Option HttpRequest) (statusCode : Int) (requestId : String) : LogRecord :=
  eventRecord (logLevelForStatus statusCode) "request_done" requestId
    [("op", operationOf http), ("status", toString statusCode)]

def recordRequestDone (http : Option HttpRequest) (statusCode : Int) (requestId : String) : Handler Unit :=
  ask (.log (requestDone http statusCode requestId))

/-- `ApplyHttpStatusAndRecord`, for the status that the HTTP response then has. -/
def applyHttpStatusAndRecord (http : Option HttpRequest) (statusCode : Int) (requestId : String) :
    Handler (Option Int) := do
  recordHttpRequest http statusCode
  recordRequestDone http statusCode requestId
  pure (http.map fun _ => statusCode)

/-- The end of a request that is refused. -/
def refuse (http : Option HttpRequest) (requestId : String) (refusal : Refusal) : Handler Response := do
  let httpStatus ← applyHttpStatusAndRecord http refusal.status requestId
  pure { statusCode := refusal.status, error := some refusal.error, httpStatus }

/-- The end of a request that succeeds. -/
def succeed (http : Option HttpRequest) (requestId : String) (response : Response) : Handler Response := do
  let httpStatus ← applyHttpStatusAndRecord http 200 requestId
  pure { response with statusCode := 200, httpStatus }

/-- The end with an error of the method itself. -/
def fail (http : Option HttpRequest) (code : Proto.ErrorCode) (reason message requestId : String) :
    Handler Response := do
  refuse http requestId (← fillError code reason message requestId)

/-- `RejectIfShuttingDown`, and else the rest. -/
def unlessShuttingDown (http : Option HttpRequest) (requestId : String) (rest : Handler Response) :
    Handler Response := do
  if ← ask .isShuttingDown then
    fail http .unavailable "shutting_down" "服务正在排空，暂不接受新请求" requestId
  else rest

/-! ## Sessions

Most methods begin by finding the session of the token. -/

/-- **`ResolvePlayerId`**. -/
def resolvePlayerId (token requestId : String) : Handler (Except Refusal String) := do
  if validateToken token ≠ "" then
    pure (.error (← fillError .invalidArgument (validateToken token) "Token 缺失或格式不合法" requestId))
  else
    match ← ask (.getSession token) with
    | .error .unavailable =>
      pure (.error (← fillError .unavailable "session_store_unavailable" "会话存储暂时不可用，请稍后重试" requestId))
    | .error .notFound =>
      pure (.error (← fillError .unauthenticated "session_not_found" "会话不存在或已过期" requestId))
    | .ok session => pure (.ok session.playerId)

/-- Whoever the session says, or a refusal. -/
def asPlayer (http : Option HttpRequest) (token requestId : String) (rest : String → Handler Response) :
    Handler Response := do
  match ← resolvePlayerId token requestId with
  | .error refusal => refuse http requestId refusal
  | .ok playerId => rest playerId

/-! ## Failures of the other services

Each status but the good one is an error of the Gateway. -/

/-- The error for what Match answered, if it is one. -/
def matchFailure : MatchCallStatus → Option (Proto.ErrorCode × String × String)
  | .ok => none
  | .unavailable => some (.unavailable, "match_unavailable", "匹配服务暂时不可用，请稍后重试")
  | .shuttingDown => some (.unavailable, "shutting_down", "匹配服务正在排空，暂不接受新请求")
  | .invalidArgument => some (.invalidArgument, "match_invalid_argument", "匹配请求参数不合法")
  | .queueFull => some (.resourceExhausted, "match_queue_full", "匹配队列已满，请稍后重试")
  | .internal => some (.internal, "match_internal", "匹配服务返回未分类错误")

/-- The error for what Room answered, if it is one. -/
def roomFailure (notFoundReason : String) : RoomCallStatus → Option (Proto.ErrorCode × String × String)
  | .ok => none
  | .unavailable => some (.unavailable, "room_unavailable", "房间服务暂时不可用，请稍后重试")
  | .storeUnavailable => some (.unavailable, "result_store_unavailable", "对局结果存储暂时不可用，请稍后重试")
  | .resultPending => some (.unavailable, "result_pending", "对局已结束，结果仍在写入，请稍后重试")
  | .shuttingDown => some (.unavailable, "shutting_down", "房间服务正在排空，暂不接受新请求")
  | .notFound => some (.notFound, notFoundReason, "房间或对局结果不存在")
  | .alreadyFinished => some (.conflict, "room_already_finished", "对局已结束，不再接受该操作")
  | .invalidArgument => some (.invalidArgument, "room_invalid_argument", "房间请求参数不合法")
  | .notAMember => some (.invalidArgument, "not_a_member", "该玩家不是这一局的成员")
  | .notPlaying => some (.invalidArgument, "room_not_playing", "对局尚未开始，此时不能提交输入")
  | .internal => some (.internal, "room_internal", "房间服务返回未分类错误")

/-- Fill in the error, if it is one. -/
def handleFailure (requestId : String) : Option (Proto.ErrorCode × String × String) → Handler (Option Refusal)
  | none => pure none
  | some (code, reason, message) => do pure (some (← fillError code reason message requestId))

def handleMatchFailure (status : MatchCallStatus) (requestId : String) : Handler (Option Refusal) :=
  handleFailure requestId (matchFailure status)

def handleRoomFailure (status : RoomCallStatus) (requestId : String)
    (notFoundReason : String) : Handler (Option Refusal) :=
  handleFailure requestId (roomFailure notFoundReason status)

/-! ## What is filled in

From the answers of the services to the messages of the Gateway. -/

def fillMatchStatus (snapshot : MatchSnapshot) : Proto.MatchStatusInfo where
  state := matchStateName snapshot.state
  matchId := snapshot.matchId
  roomId := snapshot.roomId
  playerIds := snapshot.playerIds
  queuedAtMs := snapshot.queuedAtMs
  queueSize := snapshot.queueSize

def fillRoomState (snapshot : RoomSnapshot) : Proto.RoomStateInfo where
  roomId := snapshot.roomId
  matchId := snapshot.matchId
  state := roomStateName snapshot.state
  frame := snapshot.frame
  players := snapshot.players.map fun player => ⟨player.playerId, player.hp, player.connected, player.online⟩
  finishReason := snapshot.finishReason
  winnerId := snapshot.winnerId
  startedAtMs := snapshot.startedAtMs
  finishedAtMs := snapshot.finishedAtMs

def fillMatchResult (result : MatchResultSnapshot) : Proto.MatchResultInfo where
  matchId := result.matchId
  roomId := result.roomId
  winnerId := result.winnerId
  playerCount := result.playerCount
  startedAtMs := result.startedAtMs
  finishedAtMs := result.finishedAtMs

/-! ## The methods

Each as in the source, call after call. -/

namespace GatewayService

variable (g : GatewayService) (request : Request)

def login : Handler Response :=
  unlessShuttingDown request.http request.requestId do
    if validateLoginRequest request ≠ "" then
      fail request.http .invalidArgument (validateLoginRequest request) "登录请求参数不合法" request.requestId
    else
      match ← ask (.authenticate request.account request.password) with
      | .error .invalidCredential =>
        fail request.http .unauthenticated "invalid_credential" "账号或密码不正确" request.requestId
      | .error .accountDisabled =>
        fail request.http .unauthenticated "account_disabled" "账号已被禁用" request.requestId
      | .error .unavailable =>
        fail request.http .unavailable "player_store_unavailable" "玩家档案暂时不可用，请稍后重试" request.requestId
      | .ok player =>
        let clientType := if request.clientType = "" then "web" else request.clientType
        match ← ask (.createSession request.requestId player.playerId clientType g.sessionTtlSeconds) with
        | .error _ =>
          fail request.http .unavailable "session_store_unavailable" "会话存储暂时不可用，请稍后重试"
            request.requestId
        | .ok token =>
          succeed request.http request.requestId
            { token, expiresInSeconds := g.sessionTtlSeconds, player := some player }

def getCurrentPlayer : Handler Response :=
  asPlayer request.http (extractToken request.http request.token) request.requestId fun playerId => do
    match ← ask (.findByPlayerId playerId) with
    | none => fail request.http .notFound "player_not_found" "会话对应的玩家不存在" request.requestId
    | some player => succeed request.http request.requestId { player := some player }

def logout : Handler Response := do
  let token := extractToken request.http request.token
  if validateToken token ≠ "" then
    fail request.http .invalidArgument (validateToken token) "Token 缺失或格式不合法" request.requestId
  else
    match ← ask (.deleteSession token) with
    | .error .unavailable =>
      fail request.http .unavailable "session_store_unavailable" "会话存储暂时不可用，请稍后重试" request.requestId
    -- A session that was not there is gone just as well.
    | .error .notFound | .ok _ => succeed request.http request.requestId {}

def enqueueMatch : Handler Response :=
  unlessShuttingDown request.http request.requestId <|
    asPlayer request.http (extractToken request.http request.token) request.requestId fun playerId => do
      let (status, snapshot) ← ask (.enqueue playerId request.requestId)
      match ← handleMatchFailure status request.requestId with
      | some refusal =>
        logWarn "match_enqueue_failed" request.requestId
          [("player", playerId), ("reason", refusal.error.reason), ("http_status", toString refusal.status)]
        refuse request.http request.requestId refusal
      | none =>
        logInfo "match_enqueue_ok" request.requestId
          [("player", playerId), ("match_state", matchStateName snapshot.state), ("match_id", snapshot.matchId),
            ("room_id", snapshot.roomId)]
        succeed request.http request.requestId { matchInfo := some (fillMatchStatus snapshot) }

/-- What `GetMatchStatus` and `CancelMatch` have in common. -/
def matchCall (call : String → Handler (MatchCallStatus × MatchSnapshot)) : Handler Response :=
  asPlayer request.http (extractToken request.http request.token) request.requestId fun playerId => do
    let (status, snapshot) ← call playerId
    match ← handleMatchFailure status request.requestId with
    | some refusal => refuse request.http request.requestId refusal
    | none => succeed request.http request.requestId { matchInfo := some (fillMatchStatus snapshot) }

def getMatchStatus : Handler Response := matchCall request fun playerId => ask (.getStatus playerId)

def cancelMatch : Handler Response :=
  unlessShuttingDown request.http request.requestId <|
    matchCall request fun playerId => ask (.cancel playerId request.requestId)

/-- The room that a request is about. -/
def roomIdOf : String := extractQueryParam request.http "room_id" request.roomId

/-- A refusal without a room id or without Room, and else the rest. -/
def withRoom (roomId requestId : String) (rest : Handler Response) : Handler Response :=
  if roomId = "" then fail request.http .invalidArgument "room_id_required" "缺少 room_id" requestId
  else if !g.hasRoom then fail request.http .unavailable "room_unavailable" "房间服务未配置" requestId
  else rest

/-- What `JoinRoom`, `SubmitInput` and `GetRoomState` have in common. -/
def roomCall (call : String → Handler (RoomCallStatus × RoomSnapshot)) : Handler Response :=
  asPlayer request.http (extractToken request.http request.token) request.requestId fun playerId =>
    g.withRoom request (roomIdOf request) request.requestId do
      let (status, snapshot) ← call playerId
      match ← handleRoomFailure status request.requestId "room_not_found" with
      | some refusal => refuse request.http request.requestId refusal
      | none => succeed request.http request.requestId { room := some (fillRoomState snapshot) }

def joinRoom : Handler Response :=
  unlessShuttingDown request.http request.requestId <|
    g.roomCall request fun playerId => ask (.join (roomIdOf request) playerId request.requestId)

def submitInput : Handler Response :=
  unlessShuttingDown request.http request.requestId <|
    g.roomCall request fun playerId => ask (.submitAttack (roomIdOf request) playerId request.requestId)

/-- The player is not looked at. -/
def getRoomState : Handler Response :=
  g.roomCall request fun _ => ask (.getState (roomIdOf request) request.requestId)

def matchIdOf : String := extractQueryParam request.http "match_id" request.matchId

/-- The room is shown also where the result is refused. -/
def getMatchResult : Handler Response :=
  asPlayer request.http (extractToken request.http request.token) request.requestId fun _ => do
    if matchIdOf request = "" then
      fail request.http .invalidArgument "match_id_required" "缺少 match_id" request.requestId
    else if !g.hasRoom then
      fail request.http .unavailable "room_unavailable" "房间服务未配置" request.requestId
    else
      let (status, view) ← ask (.getResult (matchIdOf request) request.requestId)
      match ← handleRoomFailure status request.requestId "result_not_found" with
      | some refusal =>
        let response ← refuse request.http request.requestId refusal
        pure { response with room := view.room.map fillRoomState }
      | none =>
        succeed request.http request.requestId
          { room := view.room.map fillRoomState, result := view.result.map fillMatchResult }

/-- Here the request id may come from the query. -/
def requestIdOf : String := extractQueryParam request.http "request_id" request.requestId

def subscribeOptions : SubscribeOptions where
  lastEventId := if (parseLastEventId request.http).present then some (parseLastEventId request.http).value else none
  lastEventIdMalformed := (parseLastEventId request.http).malformed
  requestId := requestIdOf request

/-- The end of `StreamEvents`, for a member of the room. -/
def openStream (playerId : String) : Handler Response := do
  if !g.hasStream then
    fail request.http .unavailable "stream_unavailable" "推送服务未配置" (requestIdOf request)
  else if request.http.isNone then
    fail request.http .internal "stream_requires_http" "推送接口只能通过 HTTP 访问" (requestIdOf request)
  else if !(← ask .createProgressiveAttachment) then
    fail request.http .internal "stream_unavailable" "无法创建推送通道" (requestIdOf request)
  else
    let id ← ask (.subscribe playerId (roomIdOf request) (subscribeOptions request))
    if id = 0 then fail request.http .internal "stream_unavailable" "订阅注册失败" (requestIdOf request)
    else
      logInfo "subscribe_ready" (requestIdOf request)
        [("sub", toString id), ("room", roomIdOf request), ("player", playerId),
          ("last_event_id", if (parseLastEventId request.http).malformed then "malformed"
            else toString (parseLastEventId request.http).value)]
      succeed request.http (requestIdOf request) {}

def streamEvents : Handler Response :=
  unlessShuttingDown request.http request.requestId <|
    asPlayer request.http (extractToken request.http request.token) (requestIdOf request) fun playerId =>
      g.withRoom request (roomIdOf request) (requestIdOf request) do
        let (lookup, snapshot) ← ask (.getState (roomIdOf request) (requestIdOf request))
        match roomFailure "room_not_found" lookup with
        | some (code, reason, message) =>
          logWarn "subscribe_rejected" (requestIdOf request)
            [("reason", "room_lookup_failed"), ("room", roomIdOf request), ("player", playerId)]
          fail request.http code reason message (requestIdOf request)
        | none =>
          if snapshot.players.any (·.playerId = playerId) then g.openStream request playerId
          else
            logWarn "subscribe_rejected" (requestIdOf request)
              [("reason", "not_a_member"), ("room", roomIdOf request), ("player", playerId)]
            fail request.http .invalidArgument "not_a_member" "该玩家不是这一局的成员" (requestIdOf request)

/-- **The service** — the method of a request. -/
def handle : Handler Response :=
  match request.method with
  | .login => g.login request
  | .getCurrentPlayer => getCurrentPlayer request
  | .logout => logout request
  | .enqueueMatch => enqueueMatch request
  | .getMatchStatus => getMatchStatus request
  | .cancelMatch => cancelMatch request
  | .joinRoom => g.joinRoom request
  | .submitInput => g.submitInput request
  | .getRoomState => g.getRoomState request
  | .getMatchResult => g.getMatchResult request
  | .streamEvents => g.streamEvents request

end GatewayService

end RealtimeGame.Gateway
