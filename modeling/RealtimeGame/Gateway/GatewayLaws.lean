import RealtimeGame.Gateway.GatewayService

/-!
# Gateway/GatewayLaws — what a method keeps to, whatever it is answered

Two things hold of every method.  It makes a call only when it has what the call needs (`May`): a player of its
session, an open service, a room that the player is in.  And it ends as it says (`Closed`): with one status, one
record and one count, and with an error exactly if it fails.  Neither needs anything of the stores and the other
services (`handle_meets`).
-/

open Library RealtimeGame.Common

namespace RealtimeGame.Gateway

/-- A call that was made, with its answer. -/
abbrev Made : Type := Sigma GatewayAnswer

/-! ## What a call needs

Each need is stated over the calls made so far, with their answers: a session that was found, a player that
the directory knew, a room that showed the player.  So a method that skips a check cannot meet it. -/

/-- The methods that are refused while the service drains. -/
def Method.drains : Method → Bool
  | .login | .enqueueMatch | .cancelMatch | .joinRoom | .submitInput | .streamEvents => true
  | .getCurrentPlayer | .logout | .getMatchStatus | .getRoomState | .getMatchResult => false

namespace Request

variable (request : Request)

def tokenOf : String := extractToken request.http request.token

/-- The id under which a request is logged, and which the other services get. -/
def idOf : String :=
  if request.method = .streamEvents then GatewayService.requestIdOf request else request.requestId

/-- The service was found open. -/
def Serving (past : List Made) : Prop := ⟨.isShuttingDown, false⟩ ∈ past

/-- The session of the request's token is the player's. -/
def Authorized (past : List Made) (playerId : String) : Prop :=
  validateToken request.tokenOf = "" ∧
    ∃ session : SessionRecord, ⟨.getSession request.tokenOf, .ok session⟩ ∈ past ∧ session.playerId = playerId

/-- The directory knows the player by the request's password. -/
def Authenticated (past : List Made) (player : Proto.PlayerInfo) : Prop :=
  ⟨.authenticate request.account request.password, .ok player⟩ ∈ past

/-- Room showed the player in the room. -/
def IsMember (past : List Made) (playerId roomId : String) : Prop :=
  ∃ snapshot : RoomSnapshot, ⟨.getState roomId request.idOf, (.ok, snapshot)⟩ ∈ past ∧
    ∃ player ∈ snapshot.players, player.playerId = playerId

/-- **What a call needs.** -/
def May (request : Request) (past : List Made) : GatewayCall → Prop
  | .isShuttingDown => request.method.drains = true ∧ past = []
  | .authenticate account password =>
    request.method = .login ∧ Serving past ∧ validateLoginRequest request = "" ∧ account = request.account ∧
      password = request.password
  | .createSession requestId playerId _ ttlSeconds =>
    request.method = .login ∧ Serving past ∧ requestId = request.requestId ∧ 0 < ttlSeconds ∧
      ∃ player, request.Authenticated past player ∧ player.playerId = playerId
  | .getSession token => token = request.tokenOf ∧ validateToken token = ""
  | .deleteSession token => request.method = .logout ∧ token = request.tokenOf ∧ validateToken token = ""
  | .findByPlayerId playerId | .getStatus playerId => request.Authorized past playerId
  | .enqueue playerId requestId | .cancel playerId requestId =>
    Serving past ∧ request.Authorized past playerId ∧ requestId = request.requestId
  | .join roomId playerId requestId | .submitAttack roomId playerId requestId =>
    Serving past ∧ request.Authorized past playerId ∧ requestId = request.requestId ∧
      roomId = GatewayService.roomIdOf request ∧ roomId ≠ ""
  | .getState roomId requestId =>
    (∃ playerId, request.Authorized past playerId) ∧ requestId = request.idOf ∧
      roomId = GatewayService.roomIdOf request ∧ roomId ≠ ""
  | .getResult matchId requestId =>
    (∃ playerId, request.Authorized past playerId) ∧ requestId = request.requestId ∧
      matchId = GatewayService.matchIdOf request ∧ matchId ≠ ""
  | .createProgressiveAttachment => request.method = .streamEvents ∧ Serving past
  | .subscribe playerId roomId options =>
    request.method = .streamEvents ∧ Serving past ∧ request.Authorized past playerId ∧
      request.IsMember past playerId roomId ∧ options = GatewayService.subscribeOptions request
  | .log record => record.traceId = bytesOf request.idOf ∨ record.traceId = bytesOf request.requestId
  | .count path _ => ∃ http, request.http = some http ∧ path = http.path ∧ isApiPath path = true

end Request

/-! ## How a request ends

Before the end a request is `Pending`; an error that is filled in makes it `Refused`; the last calls make it
`Closed`.  Each says how often the two records and the count stand in what was made. -/

/-- Is it the writing of a record of this event? -/
def records (event : String) (made : Made) : Bool :=
  match made.1 with
  | .log record => record.event = bytesOf event
  | _ => false

/-- Is it a count of a request? -/
def counts (made : Made) : Bool :=
  match made.1 with
  | .count .. => true
  | _ => false

/-- Nothing has been said of the end yet. -/
structure Pending (past : List Made) : Prop where
  failed : past.countP (records "request_failed") = 0
  done : past.countP (records "request_done") = 0
  counted : past.countP counts = 0

/-- An error is filled in, and written down once. -/
structure Refused (requestId : String) (refusal : Refusal) (past : List Made) : Prop where
  status : refusal.status = httpStatusOf refusal.error.code
  requestId : refusal.error.requestId = requestId
  failed : past.countP (records "request_failed") = 1
  done : past.countP (records "request_done") = 0
  counted : past.countP counts = 0

/-- What Match told of a player. -/
def tells : Made → Option (String × MatchSnapshot)
  | ⟨.enqueue playerId _, (.ok, snapshot)⟩ | ⟨.getStatus playerId, (.ok, snapshot)⟩
  | ⟨.cancel playerId _, (.ok, snapshot)⟩ => some (playerId, snapshot)
  | _ => none

/-- Match tells of a player in three of its answers, and only if it answers well. -/
theorem tells_eq_some {made : Made} {playerId : String} {snapshot : MatchSnapshot}
    (h : tells made = some (playerId, snapshot)) :
    (∃ requestId, made = ⟨.enqueue playerId requestId, (.ok, snapshot)⟩) ∨
      made = ⟨.getStatus playerId, (.ok, snapshot)⟩ ∨
      ∃ requestId, made = ⟨.cancel playerId requestId, (.ok, snapshot)⟩ := by
  unfold tells at h
  split at h
  case h_1 requestId _ =>
    obtain ⟨rfl, rfl⟩ := Prod.mk.inj (Option.some.inj h)
    exact .inl ⟨requestId, rfl⟩
  case h_2 =>
    obtain ⟨rfl, rfl⟩ := Prod.mk.inj (Option.some.inj h)
    exact .inr (.inl rfl)
  case h_3 requestId _ =>
    obtain ⟨rfl, rfl⟩ := Prod.mk.inj (Option.some.inj h)
    exact .inr (.inr ⟨requestId, rfl⟩)
  case h_4 => cases h

/-- The room that Room showed. -/
def portrays : Made → Option RoomSnapshot
  | ⟨.join .., (.ok, snapshot)⟩ | ⟨.submitAttack .., (.ok, snapshot)⟩ | ⟨.getState .., (.ok, snapshot)⟩ => some snapshot
  | ⟨.getResult .., (_, view)⟩ => view.room
  | _ => none

/-- The result that Room gave. -/
def reports : Made → Option MatchResultSnapshot
  | ⟨.getResult .., (.ok, view)⟩ => view.result
  | _ => none

/-- **Whatever a response tells** was answered to this request. -/
structure Sourced (past : List Made) (response : Response) : Prop where
  token : response.token ≠ "" → ∃ requestId playerId clientType ttlSeconds,
    ⟨.createSession requestId playerId clientType ttlSeconds, .ok response.token⟩ ∈ past
  player : ∀ player, response.player = some player →
    (∃ account password, ⟨.authenticate account password, .ok player⟩ ∈ past) ∨
      ∃ playerId, ⟨.findByPlayerId playerId, some player⟩ ∈ past
  matchInfo : ∀ info, response.matchInfo = some info →
    ∃ made ∈ past, ∃ playerId snapshot, tells made = some (playerId, snapshot) ∧ info = fillMatchStatus snapshot
  room : ∀ info, response.room = some info →
    ∃ made ∈ past, ∃ snapshot, portrays made = some snapshot ∧ info = fillRoomState snapshot
  result : ∀ info, response.result = some info →
    ∃ made ∈ past, ∃ result, reports made = some result ∧ info = fillMatchResult result

/-- What an answer was taken from stays a source of it. -/
theorem Sourced.mono {past past' : List Made} {response : Response} (h : Sourced past response)
    (hsubset : past ⊆ past') : Sourced past' response where
  token hne := by
    obtain ⟨requestId, playerId, clientType, ttlSeconds, hmem⟩ := h.token hne
    exact ⟨requestId, playerId, clientType, ttlSeconds, hsubset hmem⟩
  player player heq := by
    refine (h.player player heq).imp ?_ ?_
    · rintro ⟨account, password, hmem⟩
      exact ⟨account, password, hsubset hmem⟩
    · rintro ⟨playerId, hmem⟩
      exact ⟨playerId, hsubset hmem⟩
  matchInfo info heq := by
    obtain ⟨made, hmem, htells⟩ := h.matchInfo info heq
    exact ⟨made, hsubset hmem, htells⟩
  room info heq := by
    obtain ⟨made, hmem, hportrays⟩ := h.room info heq
    exact ⟨made, hsubset hmem, hportrays⟩
  result info heq := by
    obtain ⟨made, hmem, hreports⟩ := h.result info heq
    exact ⟨made, hsubset hmem, hreports⟩

/-- A response that tells nothing. -/
theorem Sourced.blank {past : List Made} {response : Response} (htoken : response.token = "")
    (hplayer : response.player = none) (hmatchInfo : response.matchInfo = none) (hroom : response.room = none)
    (hresult : response.result = none) : Sourced past response where
  token hne := absurd htoken hne
  player player heq := by cases hplayer.symm.trans heq
  matchInfo info heq := by cases hmatchInfo.symm.trans heq
  room info heq := by cases hroom.symm.trans heq
  result info heq := by cases hresult.symm.trans heq

/-- What Match told is a source of the match part, -/
theorem Sourced.of_match {past : List Made} {made : Made} {playerId : String} {snapshot : MatchSnapshot}
    (hmem : made ∈ past) (htells : tells made = some (playerId, snapshot)) :
    Sourced past { matchInfo := some (fillMatchStatus snapshot) } where
  token hne := absurd rfl hne
  player player heq := by cases heq
  matchInfo info heq := ⟨made, hmem, playerId, snapshot, htells, (Option.some.inj heq).symm⟩
  room info heq := by cases heq
  result info heq := by cases heq

/-- …and what Room showed is a source of the room part. -/
theorem Sourced.of_room {past : List Made} {made : Made} {snapshot : RoomSnapshot} (hmem : made ∈ past)
    (hportrays : portrays made = some snapshot) : Sourced past { room := some (fillRoomState snapshot) } where
  token hne := absurd rfl hne
  player player heq := by cases heq
  matchInfo info heq := by cases heq
  room info heq := ⟨made, hmem, snapshot, hportrays, (Option.some.inj heq).symm⟩
  result info heq := by cases heq

/-- **How a request ends.** -/
structure Closed (http : Option HttpRequest) (requestId : String) (past : List Made) (response : Response) : Prop where
  /-- The status is `200`, or the one of the error. -/
  status : response.statusCode = (response.error.map fun error => httpStatusOf error.code).getD 200
  /-- So is that of the HTTP response. -/
  httpStatus : response.httpStatus = http.map fun _ => response.statusCode
  echoed : ∀ error, response.error = some error → error.requestId = requestId
  /-- The record of an error is written once, if there is one. -/
  failed : past.countP (records "request_failed") = if response.error = none then 0 else 1
  /-- The record of the end is written once, as the last call. -/
  done : past.countP (records "request_done") = 1
  last : past.getLast? = some ⟨.log (requestDone http response.statusCode requestId), ()⟩
  /-- A request with a path of the service is counted once, by its path and status. -/
  counted : past.countP counts = if http.any (isApiPath ·.path) then 1 else 0
  count_mem : ∀ path statusCode, ⟨.count path statusCode, ()⟩ ∈ past →
    statusCode = response.statusCode ∧ ∃ http', http = some http' ∧ path = http'.path
  /-- An error comes without what was asked for. -/
  bare : response.error ≠ none → response.token = "" ∧ response.player = none ∧ response.matchInfo = none ∧
    response.result = none
  sourced : Sourced past response

/-! ## The calls at the end

Every method ends in the same two calls, the count and the record of the end.  They are all that `Closed`
adds to `Pending` and `Refused`. -/

/-- The count of a request, if it is counted. -/
def countCalls (http : Option HttpRequest) (statusCode : Int) : List Made :=
  match http with
  | none => []
  | some http => if isApiPath http.path then [⟨.count http.path statusCode, ()⟩] else []

/-- The last calls of a request. -/
def trail (http : Option HttpRequest) (statusCode : Int) (requestId : String) : List Made :=
  countCalls http statusCode ++ [⟨.log (requestDone http statusCode requestId), ()⟩]

variable {request : Request} {past : List Made} {requestId : String} {http : Option HttpRequest} {statusCode : Int}
  {ρ : Type} {post : List Made → ρ → Prop}

theorem records_eventRecord (level : LogLevel) (event event' requestId : String) (fields : List (String × String)) :
    records event' ⟨.log (eventRecord level event requestId fields), ()⟩ = decide (bytesOf event = bytesOf event') :=
  rfl

/-- Only the paths of the API are counted, each with the status that was answered. -/
theorem mem_countCalls {made : Made} :
    made ∈ countCalls http statusCode ↔
      ∃ http', http = some http' ∧ isApiPath http'.path = true ∧ made = ⟨.count http'.path statusCode, ()⟩ := by
  cases http with
  | none => simp [countCalls]
  | some http => by_cases h : isApiPath http.path = true <;> simp [countCalls, h]

/-- A request is counted once, or not at all. -/
theorem countP_counts_countCalls :
    (countCalls http statusCode).countP counts = if http.any (isApiPath ·.path) then 1 else 0 := by
  cases http with
  | none => rfl
  | some http =>
    by_cases h : isApiPath http.path = true
    · simp [countCalls, h, counts]
    · simp [countCalls, h]

/-- A count is not a record. -/
theorem countP_records_countCalls (event : String) : (countCalls http statusCode).countP (records event) = 0 := by
  rw [List.countP_eq_zero]
  intro made hmade
  obtain ⟨http', -, -, rfl⟩ := mem_countCalls.mp hmade
  exact Bool.false_ne_true

/-- The last calls write one record, of the end. -/
theorem countP_records_trail (event : String) :
    (trail http statusCode requestId).countP (records event) =
      if bytesOf "request_done" = bytesOf event then 1 else 0 := by
  rw [trail, List.countP_append, countP_records_countCalls, List.countP_singleton, requestDone, records_eventRecord]
  simp

/-- …and count what is to be counted. -/
theorem countP_counts_trail :
    (trail http statusCode requestId).countP counts = if http.any (isApiPath ·.path) then 1 else 0 := by
  rw [trail, List.countP_append, countP_counts_countCalls]
  rfl

/-- **A request that ends** with its last calls is closed. -/
theorem closed_trail {response : Response} (hcode : response.statusCode = statusCode)
    (hdone : past.countP (records "request_done") = 0) (hcounted : past.countP counts = 0)
    (hfailed : past.countP (records "request_failed") = if response.error = none then 0 else 1)
    (hstatus : response.statusCode = (response.error.map fun error => httpStatusOf error.code).getD 200)
    (hhttp : response.httpStatus = http.map fun _ => response.statusCode)
    (hechoed : ∀ error, response.error = some error → error.requestId = requestId)
    (hbare : response.error ≠ none → response.token = "" ∧ response.player = none ∧ response.matchInfo = none ∧
      response.result = none) (hsourced : Sourced past response) :
    Closed http requestId (past ++ trail http statusCode requestId) response where
  status := hstatus
  httpStatus := hhttp
  echoed := hechoed
  failed := by
    have hdiffer : bytesOf "request_done" ≠ bytesOf "request_failed" := by decide
    rw [List.countP_append, hfailed, countP_records_trail, if_neg hdiffer, Nat.add_zero]
  done := by rw [List.countP_append, hdone, countP_records_trail, if_pos rfl]
  last := by rw [hcode, trail, ← List.append_assoc, List.getLast?_append, List.getLast?_singleton, Option.some_or]
  counted := by rw [List.countP_append, hcounted, countP_counts_trail, Nat.zero_add]
  count_mem path statusCode hmem := by
    rcases List.mem_append.mp hmem with hmem | hmem
    · exact absurd rfl (List.countP_eq_zero.mp hcounted _ hmem)
    · rcases List.mem_append.mp hmem with hmem | hmem
      · obtain ⟨http', hsome, -, heq⟩ := mem_countCalls.mp hmem
        cases heq
        exact ⟨hcode.symm, http', hsome, rfl⟩
      · cases List.mem_singleton.mp hmem
  bare := hbare
  sourced := hsourced.mono (List.subset_append_left ..)

/-! ## What was known is still known

Each need speaks of calls that were made, and calls are only added. -/

/-- A session that was found stays found, -/
theorem Request.Authorized.mono {past' : List Made} {playerId : String} (h : request.Authorized past playerId)
    (hsubset : past ⊆ past') : request.Authorized past' playerId := by
  obtain ⟨hvalid, session, hmem, heq⟩ := h
  exact ⟨hvalid, session, hsubset hmem, heq⟩

/-- …and so does a player that Room showed. -/
theorem Request.IsMember.mono {past' : List Made} {playerId roomId : String}
    (h : request.IsMember past playerId roomId) (hsubset : past ⊆ past') : request.IsMember past' playerId roomId := by
  obtain ⟨snapshot, hmem, hplayer⟩ := h
  exact ⟨snapshot, hsubset hmem, hplayer⟩

/-- Every status of Room but `ok` is a failure of the request, -/
theorem roomFailure_eq_none {notFoundReason : String} {status : RoomCallStatus} :
    roomFailure notFoundReason status = none ↔ status = .ok := by
  cases status <;> simp [roomFailure]

/-- …and every status of Match. -/
theorem matchFailure_eq_none {status : MatchCallStatus} : matchFailure status = none ↔ status = .ok := by
  cases status <;> simp [matchFailure]

/-! ## The parts of a method

One lemma for each part, in the order in which a method goes through them.  The methods are then put
together from these, and none of them looks into a part again. -/

@[simp] theorem ask_bind (c : GatewayCall) (next : GatewayAnswer c → Handler ρ) :
    ask c >>= next = Script.ask c next := rfl

/-- An id under which a request may be logged. -/
def Request.IsTrace (request : Request) (requestId : String) : Prop :=
  requestId = request.idOf ∨ requestId = request.requestId

/-- A record may be written at any time, under the id of the request. -/
theorem may_log (htrace : request.IsTrace requestId) (level : LogLevel) (event : String)
    (fields : List (String × String)) : request.May past (.log (eventRecord level event requestId fields)) :=
  htrace.imp (congrArg bytesOf) (congrArg bytesOf)

/-- A call that says nothing of the end. -/
def quiet (made : Made) : Bool :=
  !records "request_failed" made && !records "request_done" made && !counts made

theorem Pending.nil : Pending [] := ⟨rfl, rfl, rfl⟩

/-- A count of calls grows only with a call of the kind. -/
theorem countP_snoc {told : Made → Bool} {made : Made} (h : told made = false) :
    (past ++ [made]).countP told = past.countP told := by simp [List.countP_append, h]

/-- A quiet call is neither of the two records, and no count. -/
theorem quiet_iff {made : Made} :
    quiet made = true ↔
      records "request_failed" made = false ∧ records "request_done" made = false ∧ counts made = false := by
  simp [quiet, and_assoc]

/-- **Quiet calls leave the end open**, -/
theorem Pending.snoc (h : Pending past) {made : Made} (hquiet : quiet made = true) : Pending (past ++ [made]) := by
  obtain ⟨hfailed, hdone, hcounted⟩ := quiet_iff.mp hquiet
  exact ⟨(countP_snoc hfailed).trans h.failed, (countP_snoc hdone).trans h.done,
    (countP_snoc hcounted).trans h.counted⟩

/-- …before the error is filled in and after. -/
theorem Refused.snoc {refusal : Refusal} (h : Refused requestId refusal past) {made : Made}
    (hquiet : quiet made = true) : Refused requestId refusal (past ++ [made]) := by
  obtain ⟨hfailed, hdone, hcounted⟩ := quiet_iff.mp hquiet
  exact ⟨h.status, h.requestId, (countP_snoc hfailed).trans h.failed, (countP_snoc hdone).trans h.done,
    (countP_snoc hcounted).trans h.counted⟩

theorem bytesOf_injective : Function.Injective bytesOf := fun _ _ h => String.toList_injective (utf8_injective h)

/-- A record of another event says nothing of the end. -/
theorem quiet_eventRecord {event : String} (hfailed : event ≠ "request_failed") (hdone : event ≠ "request_done")
    (level : LogLevel) (fields : List (String × String)) :
    quiet ⟨.log (eventRecord level event requestId fields), ()⟩ = true := by
  simp [quiet, records_eventRecord, bytesOf_injective.eq_iff, hfailed, hdone, counts]

/-- The part at the end of every method makes the last calls and gives the status, over HTTP only. -/
theorem applyHttpStatusAndRecord_meets {post : List Made → Option Int → Prop} (htrace : request.IsTrace requestId)
    (hpost : post (past ++ trail request.http statusCode requestId) (request.http.map fun _ => statusCode)) :
    (applyHttpStatusAndRecord request.http statusCode requestId).Meets request.May post past := by
  have hdone : ∀ past, request.May past (.log (requestDone request.http statusCode requestId)) := fun _ =>
    may_log htrace _ _ _
  rw [trail, ← List.append_assoc] at hpost
  rw [applyHttpStatusAndRecord, Script.meets_bind]
  cases hhttp : request.http with
  | none =>
    rw [hhttp, countCalls, List.append_nil] at hpost
    exact ⟨hhttp ▸ hdone past, fun _ => hpost⟩
  | some http =>
    rw [hhttp] at hpost hdone
    by_cases hpath : isApiPath http.path = true
    · rw [countCalls, if_pos hpath] at hpost
      rw [recordHttpRequest, if_pos hpath]
      exact ⟨⟨http, hhttp, rfl, hpath⟩, fun _ => ⟨hdone _, fun _ => hpost⟩⟩
    · rw [countCalls, if_neg hpath, List.append_nil] at hpost
      rw [recordHttpRequest, if_neg hpath]
      exact ⟨hdone past, fun _ => hpost⟩

/-- An error is filled in with one record, under the id of the request. -/
theorem fillError_meets {post : List Made → Refusal → Prop} {code : Proto.ErrorCode} {reason message : String}
    (htrace : request.IsTrace requestId) (hpending : Pending past)
    (hpost : ∀ past', Refused requestId ⟨httpStatusOf code, ⟨code, reason, message, requestId⟩⟩ past' →
      post past' ⟨httpStatusOf code, ⟨code, reason, message, requestId⟩⟩) :
    (fillError code reason message requestId).Meets request.May post past := by
  refine ⟨may_log htrace _ _ _, fun _ => hpost _ ⟨rfl, rfl, ?_, ?_, ?_⟩⟩
  · rw [List.countP_append, hpending.failed]
    rfl
  · rw [List.countP_append, hpending.done]
    rfl
  · rw [List.countP_append, hpending.counted]
    rfl

/-- **A refusal closes the request** with the error that was filled in, -/
theorem refuse_meets {refusal : Refusal} (htrace : request.IsTrace requestId)
    (h : Refused requestId refusal past) :
    (refuse request.http requestId refusal).Meets request.May
      (fun past response => Closed request.http requestId past response ∧ response.error = some refusal.error)
      past := by
  rw [refuse, Script.meets_bind]
  refine applyHttpStatusAndRecord_meets htrace
    ⟨closed_trail rfl h.done h.counted ?_ ?_ rfl ?_ ?_ (.blank rfl rfl rfl rfl rfl), rfl⟩
  · rw [h.failed]
    rfl
  · exact h.status
  · rintro error ⟨⟩
    exact h.requestId
  · exact fun _ => ⟨rfl, rfl, rfl, rfl⟩

/-- **…and a success closes it** without one, if what it answers has a source. -/
theorem succeed_meets {response : Response} (htrace : request.IsTrace requestId) (h : Pending past)
    (hplain : response.error = none) (hsourced : Sourced past response) :
    (succeed request.http requestId response).Meets request.May (Closed request.http requestId) past := by
  rw [succeed, Script.meets_bind]
  refine applyHttpStatusAndRecord_meets htrace ((Script.meets_ret ..).mpr ?_)
  refine closed_trail rfl h.done h.counted ?_ ?_ rfl ?_ ?_
    ⟨hsourced.token, hsourced.player, hsourced.matchInfo, hsourced.room, hsourced.result⟩
  · rw [h.failed, hplain]
    rfl
  · rw [hplain]
    rfl
  · rw [hplain]
    rintro error ⟨⟩
  · exact fun hne => absurd hplain hne

/-- An error that is filled in and answered at once closes the request. -/
theorem fail_meets {code : Proto.ErrorCode} {reason message : String} (htrace : request.IsTrace requestId)
    (hpending : Pending past) :
    (fail request.http code reason message requestId).Meets request.May
      (fun past response => Closed request.http requestId past response ∧
        response.error = some ⟨code, reason, message, requestId⟩) past := by
  rw [fail, Script.meets_bind]
  exact fillError_meets htrace hpending fun past' h => refuse_meets htrace h

/-- A method that fails is closed. -/
theorem fail_closes {code : Proto.ErrorCode} {reason message : String} (htrace : request.IsTrace requestId)
    (hpending : Pending past) :
    (fail request.http code reason message requestId).Meets request.May (Closed request.http requestId) past :=
  (fail_meets htrace hpending).imp (fun _ _ => id) fun _ _ h => h.1

/-- The same, where nobody asks which error it was. -/
theorem refuse_closes {refusal : Refusal} (htrace : request.IsTrace requestId) (h : Refused requestId refusal past) :
    (refuse request.http requestId refusal).Meets request.May (Closed request.http requestId) past :=
  (refuse_meets htrace h).imp (fun _ _ => id) fun _ _ h => h.1

/-- What needs a player is reached with the session of the token; else the request ends here. -/
theorem asPlayer_meets {rest : String → Handler Response} (htrace : request.IsTrace requestId)
    (hpending : Pending past)
    (hrest : ∀ playerId past', past ⊆ past' → Pending past' → request.Authorized past' playerId →
      (rest playerId).Meets request.May (Closed request.http requestId) past') :
    (asPlayer request.http request.tokenOf requestId rest).Meets request.May (Closed request.http requestId) past := by
  rw [asPlayer, Script.meets_bind, resolvePlayerId]
  split
  case isTrue hinvalid =>
    rw [Script.meets_bind]
    exact fillError_meets htrace hpending fun past' h => refuse_closes htrace h
  case isFalse hvalid =>
    rw [not_not] at hvalid
    rw [ask_bind, Script.meets_ask]
    refine ⟨⟨rfl, hvalid⟩, fun answer => ?_⟩
    have hpending' : Pending (past ++ [⟨.getSession request.tokenOf, answer⟩]) := hpending.snoc rfl
    rcases answer with (_ | _) | session
    · dsimp only
      rw [Script.meets_bind]
      exact fillError_meets htrace hpending' fun past' h => refuse_closes htrace h
    · dsimp only
      rw [Script.meets_bind]
      exact fillError_meets htrace hpending' fun past' h => refuse_closes htrace h
    · exact hrest session.playerId _ (List.subset_append_left ..) hpending'
        ⟨hvalid, session, List.mem_append_right _ List.mem_cons_self, rfl⟩

/-- A failure of another service is filled in, or there is none. -/
theorem handleFailure_meets {failure : Option (Proto.ErrorCode × String × String)}
    {rest : Option Refusal → Handler Response} (htrace : request.IsTrace requestId) (hpending : Pending past)
    (hrefused : ∀ refusal past', past <+: past' → Refused requestId refusal past' →
      (rest (some refusal)).Meets request.May (Closed request.http requestId) past')
    (hnone : failure = none → (rest none).Meets request.May (Closed request.http requestId) past) :
    (handleFailure requestId failure >>= rest).Meets request.May (Closed request.http requestId) past := by
  rcases failure with - | ⟨code, reason, message⟩
  · exact hnone rfl
  · have hfilled : (fillError code reason message requestId).Meets request.May
        (fun past' refusal => Refused requestId refusal past') past := fillError_meets htrace hpending fun _ h => h
    rw [Script.meets_bind, handleFailure, Script.meets_bind]
    exact hfilled.remember.imp (fun _ _ => id) fun past' refusal h => hrefused refusal past' h.1 h.2

/-! ## The methods

One lemma for each method.  What differs is the call in the middle and what is made of its answer. -/

/-- The error of a service that drains. -/
def drainingError (requestId : String) : Proto.Error :=
  ⟨.unavailable, "shutting_down", "服务正在排空，暂不接受新请求", requestId⟩

/-- **How a method is finished** — refused, where the service drains and the method is one that is refused then;
or served. -/
inductive Request.Finished (request : Request) (past : List Made) (response : Response) : Prop
  | drained (drains : request.method.drains = true) (asked : past.head? = some ⟨.isShuttingDown, true⟩)
      (closed : Closed request.http request.requestId past response)
      (error : response.error = some (drainingError request.requestId))
  | served (asked : request.method.drains = true → past.head? = some ⟨.isShuttingDown, false⟩)
      (closed : Closed request.http request.idOf past response)

/-- Whether it was refused while draining or not, what a request answers has a source. -/
theorem Request.Finished.sourced {response : Response} (h : request.Finished past response) :
    Sourced past response := by
  cases h with
  | drained _ _ closed _ => exact closed.sourced
  | served _ closed => exact closed.sourced

/-- A method that drains asks first whether the service is open. -/
theorem unlessShuttingDown_meets {rest : Handler Response} (hdrains : request.method.drains = true)
    (hrest : rest.Meets request.May (Closed request.http request.idOf) [⟨.isShuttingDown, false⟩]) :
    (unlessShuttingDown request.http request.requestId rest).Meets request.May request.Finished [] := by
  rw [unlessShuttingDown, ask_bind, Script.meets_ask]
  refine ⟨⟨hdrains, rfl⟩, fun answer => ?_⟩
  have hpending : Pending ([] ++ [⟨.isShuttingDown, answer⟩]) := Pending.nil.snoc rfl
  cases answer with
  | true =>
    refine (fail_meets (.inr rfl) hpending).remember.imp (fun _ _ => id) fun past' response h => ?_
    obtain ⟨⟨rest', rfl⟩, hclosed, herror⟩ := h
    exact .drained hdrains rfl hclosed herror
  | false =>
    refine hrest.remember.imp (fun _ _ => id) fun past' response h => ?_
    obtain ⟨⟨rest', rfl⟩, hclosed⟩ := h
    exact .served (fun _ => rfl) hclosed

/-- A method that is not refused is served. -/
theorem serves_meets {script : Handler Response} (hdrains : request.method.drains = false)
    (h : script.Meets request.May (Closed request.http request.idOf) []) :
    script.Meets request.May request.Finished [] :=
  h.imp (fun _ _ => id) fun _ _ hclosed => .served (fun hne => by rw [hdrains] at hne; cases hne) hclosed

/-- Only a stream makes up an id where none is given. -/
theorem idOf_eq (h : request.method ≠ .streamEvents) : request.idOf = request.requestId := if_neg h

theorem pending_open : Pending [⟨.isShuttingDown, false⟩] := Pending.nil.snoc rfl

variable {g : GatewayService}

/-- A login calls for a session when the directory knows the player, and not before. -/
theorem login_meets (hmethod : request.method = .login) :
    (g.login request).Meets request.May request.Finished [] := by
  have htrace : request.IsTrace request.idOf := .inl rfl
  refine unlessShuttingDown_meets (by rw [hmethod]; rfl) ?_
  rw [← idOf_eq (by rw [hmethod]; decide)]
  split
  case isTrue => exact fail_closes htrace pending_open
  case isFalse hvalid =>
    rw [not_not] at hvalid
    rw [ask_bind, Script.meets_ask]
    refine ⟨⟨hmethod, List.mem_cons_self, hvalid, rfl, rfl⟩, fun answer => ?_⟩
    have hpending : Pending ([⟨.isShuttingDown, false⟩] ++
        [⟨.authenticate request.account request.password, answer⟩]) := pending_open.snoc rfl
    rcases answer with (_ | _ | _) | player
    · exact fail_closes htrace hpending
    · exact fail_closes htrace hpending
    · exact fail_closes htrace hpending
    · refine ⟨⟨hmethod, List.mem_cons_self, idOf_eq (by rw [hmethod]; decide), g.ttl_pos, player, ?_, rfl⟩,
        fun created => ?_⟩
      · exact List.mem_append_right _ List.mem_cons_self
      · rcases created with _ | token
        · exact fail_closes htrace (hpending.snoc rfl)
        · refine succeed_meets htrace (hpending.snoc rfl) rfl ⟨fun _ => ?_, ?_, ?_, ?_, ?_⟩
          · exact ⟨_, _, _, _, List.mem_append_right _ List.mem_cons_self⟩
          · rintro player' ⟨⟩
            exact .inl ⟨_, _, List.mem_append_left _ (List.mem_append_right _ List.mem_cons_self)⟩
          · rintro info ⟨⟩
          · rintro info ⟨⟩
          · rintro info ⟨⟩

theorem getCurrentPlayer_meets (hmethod : request.method = .getCurrentPlayer) :
    (GatewayService.getCurrentPlayer request).Meets request.May request.Finished [] := by
  have htrace : request.IsTrace request.idOf := .inl rfl
  refine serves_meets (by rw [hmethod]; rfl) ?_
  rw [GatewayService.getCurrentPlayer, ← idOf_eq (by rw [hmethod]; decide)]
  refine asPlayer_meets htrace .nil fun playerId past' _ hpending hauthorized => ?_
  rw [ask_bind, Script.meets_ask]
  refine ⟨hauthorized, fun answer => ?_⟩
  rcases answer with _ | player
  · exact fail_closes htrace (hpending.snoc rfl)
  · refine succeed_meets htrace (hpending.snoc rfl) rfl ⟨fun hne => absurd rfl hne, ?_, ?_, ?_, ?_⟩
    · rintro player' ⟨⟩
      exact .inr ⟨_, List.mem_append_right _ List.mem_cons_self⟩
    · rintro info ⟨⟩
    · rintro info ⟨⟩
    · rintro info ⟨⟩

/-- A logout deletes the session of its own token, whoever it is of. -/
theorem logout_meets (hmethod : request.method = .logout) :
    (GatewayService.logout request).Meets request.May request.Finished [] := by
  have htrace : request.IsTrace request.idOf := .inl rfl
  refine serves_meets (by rw [hmethod]; rfl) ?_
  rw [GatewayService.logout, ← idOf_eq (by rw [hmethod]; decide)]
  split
  case isTrue => exact fail_closes htrace .nil
  case isFalse hvalid =>
    rw [not_not] at hvalid
    rw [ask_bind, Script.meets_ask]
    refine ⟨⟨hmethod, rfl, hvalid⟩, fun answer => ?_⟩
    rcases answer with (_ | _) | _
    · exact succeed_meets htrace (Pending.nil.snoc rfl) rfl (.blank rfl rfl rfl rfl rfl)
    · exact fail_closes htrace (Pending.nil.snoc rfl)
    · exact succeed_meets htrace (Pending.nil.snoc rfl) rfl (.blank rfl rfl rfl rfl rfl)

/-- Match is asked for the player of the session. -/
theorem enqueueMatch_meets (hmethod : request.method = .enqueueMatch) :
    (GatewayService.enqueueMatch request).Meets request.May request.Finished [] := by
  have htrace : request.IsTrace request.idOf := .inl rfl
  have hid : request.idOf = request.requestId := idOf_eq (by rw [hmethod]; decide)
  refine unlessShuttingDown_meets (by rw [hmethod]; rfl) ?_
  rw [← hid]
  refine asPlayer_meets htrace pending_open fun playerId past' hsubset hpending hauthorized => ?_
  rw [ask_bind, Script.meets_ask]
  refine ⟨⟨hsubset List.mem_cons_self, hauthorized, hid⟩, fun answer => ?_⟩
  have hpending' : Pending (past' ++ [⟨.enqueue playerId request.idOf, answer⟩]) := hpending.snoc rfl
  obtain ⟨status, snapshot⟩ := answer
  refine handleFailure_meets htrace hpending' (fun refusal past'' _ h => ?_) ?_
  · refine ⟨may_log htrace _ _ _, fun _ => refuse_closes htrace (h.snoc ?_)⟩
    exact quiet_eventRecord (by decide) (by decide) _ _
  · intro hok
    obtain rfl := matchFailure_eq_none.mp hok
    refine ⟨may_log htrace _ _ _, fun _ => succeed_meets htrace (hpending'.snoc ?_) rfl ?_⟩
    · exact quiet_eventRecord (by decide) (by decide) _ _
    · exact .of_match (List.mem_append_left _ (List.mem_append_right _ List.mem_cons_self)) rfl

/-- One call, allowed and quiet. -/
theorem ask_meets {c : GatewayCall} (hmay : request.May past c) (hpending : Pending past)
    (hquiet : ∀ answer, quiet ⟨c, answer⟩ = true) :
    (ask c).Meets request.May (fun past answer => Pending past ∧ ⟨c, answer⟩ ∈ past) past :=
  ⟨hmay, fun answer => ⟨hpending.snoc (hquiet answer), List.mem_append_right _ List.mem_cons_self⟩⟩

/-- What the two other calls to Match share: the player, the call, and its answer. -/
theorem matchCall_meets {call : String → Handler (MatchCallStatus × MatchSnapshot)}
    (hid : request.idOf = request.requestId) (hpending : Pending past)
    (hcall : ∀ playerId past', past ⊆ past' → Pending past' → request.Authorized past' playerId →
      (call playerId).Meets request.May (fun past answer => Pending past ∧
        (answer.1 = .ok → ∃ made ∈ past, ∃ playerId, tells made = some (playerId, answer.2))) past') :
    (GatewayService.matchCall request call).Meets request.May (Closed request.http request.idOf) past := by
  have htrace : request.IsTrace request.idOf := .inl rfl
  rw [GatewayService.matchCall, ← hid]
  refine asPlayer_meets htrace hpending fun playerId past' hsubset hpending' hauthorized => ?_
  rw [Script.meets_bind]
  refine (hcall playerId past' hsubset hpending' hauthorized).imp (fun _ _ => id) fun past'' answer h => ?_
  obtain ⟨status, snapshot⟩ := answer
  refine handleFailure_meets htrace h.1 (fun _ _ _ hrefused => refuse_closes htrace hrefused) fun hok => ?_
  obtain ⟨made, hmem, playerId, htells⟩ := h.2 (matchFailure_eq_none.mp hok)
  exact succeed_meets htrace h.1 rfl (.of_match hmem htells)

theorem getMatchStatus_meets (hmethod : request.method = .getMatchStatus) :
    (GatewayService.getMatchStatus request).Meets request.May request.Finished [] := by
  refine serves_meets (by rw [hmethod]; rfl) (matchCall_meets (idOf_eq (by rw [hmethod]; decide)) .nil ?_)
  intro playerId past' _ hpending hauthorized
  refine (ask_meets (c := .getStatus playerId) hauthorized hpending fun _ => rfl).imp (fun _ _ => id)
    fun past answer h => ⟨h.1, fun hok => ?_⟩
  obtain ⟨status, snapshot⟩ := answer
  obtain rfl : status = .ok := hok
  exact ⟨_, h.2, playerId, rfl⟩

theorem cancelMatch_meets (hmethod : request.method = .cancelMatch) :
    (GatewayService.cancelMatch request).Meets request.May request.Finished [] := by
  have hid : request.idOf = request.requestId := idOf_eq (by rw [hmethod]; decide)
  refine unlessShuttingDown_meets (by rw [hmethod]; rfl) (matchCall_meets hid pending_open ?_)
  intro playerId past' hsubset hpending hauthorized
  have hmay : request.May past' (.cancel playerId request.requestId) :=
    ⟨hsubset List.mem_cons_self, hauthorized, rfl⟩
  refine (ask_meets hmay hpending fun _ => rfl).imp (fun _ _ => id) fun past answer h => ⟨h.1, fun hok => ?_⟩
  obtain ⟨status, snapshot⟩ := answer
  obtain rfl : status = .ok := hok
  exact ⟨_, h.2, playerId, rfl⟩

/-- A room that is not named ends the request, with nothing asked of Room. -/
theorem withRoom_meets {roomId : String} {rest : Handler Response} (htrace : request.IsTrace requestId)
    (hpending : Pending past)
    (hrest : roomId ≠ "" → rest.Meets request.May (Closed request.http requestId) past) :
    (g.withRoom request roomId requestId rest).Meets request.May (Closed request.http requestId) past := by
  rw [GatewayService.withRoom]
  split_ifs with hempty hroom
  · exact fail_closes htrace hpending
  · exact fail_closes htrace hpending
  · exact hrest hempty

/-- What the calls to Room share, in the same way. -/
theorem roomCall_meets {call : String → Handler (RoomCallStatus × RoomSnapshot)}
    (hid : request.idOf = request.requestId) (hpending : Pending past)
    (hcall : ∀ playerId past', past ⊆ past' → Pending past' → request.Authorized past' playerId →
      GatewayService.roomIdOf request ≠ "" →
      (call playerId).Meets request.May (fun past answer => Pending past ∧
        (answer.1 = .ok → ∃ made ∈ past, portrays made = some answer.2)) past') :
    (g.roomCall request call).Meets request.May (Closed request.http request.idOf) past := by
  have htrace : request.IsTrace request.idOf := .inl rfl
  rw [GatewayService.roomCall, ← hid]
  refine asPlayer_meets htrace hpending fun playerId past' hsubset hpending' hauthorized => ?_
  refine withRoom_meets htrace hpending' fun hne => ?_
  rw [Script.meets_bind]
  refine (hcall playerId past' hsubset hpending' hauthorized hne).imp (fun _ _ => id) fun past'' answer h => ?_
  obtain ⟨status, snapshot⟩ := answer
  refine handleFailure_meets htrace h.1 (fun _ _ _ hrefused => refuse_closes htrace hrefused) fun hok => ?_
  obtain ⟨made, hmem, hportrays⟩ := h.2 (roomFailure_eq_none.mp hok)
  exact succeed_meets htrace h.1 rfl (.of_room hmem hportrays)

theorem joinRoom_meets (hmethod : request.method = .joinRoom) :
    (g.joinRoom request).Meets request.May request.Finished [] := by
  have hid : request.idOf = request.requestId := idOf_eq (by rw [hmethod]; decide)
  refine unlessShuttingDown_meets (by rw [hmethod]; rfl) (roomCall_meets hid pending_open ?_)
  intro playerId past' hsubset hpending hauthorized hne
  refine (ask_meets (c := .join (GatewayService.roomIdOf request) playerId request.requestId)
    ⟨hsubset List.mem_cons_self, hauthorized, rfl, rfl, hne⟩ hpending fun _ => rfl).imp
    (fun _ _ => id) fun past answer h => ⟨h.1, fun hok => ?_⟩
  obtain ⟨status, snapshot⟩ := answer
  obtain rfl : status = .ok := hok
  exact ⟨_, h.2, rfl⟩

theorem submitInput_meets (hmethod : request.method = .submitInput) :
    (g.submitInput request).Meets request.May request.Finished [] := by
  have hid : request.idOf = request.requestId := idOf_eq (by rw [hmethod]; decide)
  refine unlessShuttingDown_meets (by rw [hmethod]; rfl) (roomCall_meets hid pending_open ?_)
  intro playerId past' hsubset hpending hauthorized hne
  refine (ask_meets (c := .submitAttack (GatewayService.roomIdOf request) playerId request.requestId)
    ⟨hsubset List.mem_cons_self, hauthorized, rfl, rfl, hne⟩ hpending fun _ => rfl).imp
    (fun _ _ => id) fun past answer h => ⟨h.1, fun hok => ?_⟩
  obtain ⟨status, snapshot⟩ := answer
  obtain rfl : status = .ok := hok
  exact ⟨_, h.2, rfl⟩

/-- Any player may ask for a room that he names, -/
theorem getRoomState_meets (hmethod : request.method = .getRoomState) :
    (g.getRoomState request).Meets request.May request.Finished [] := by
  have hid : request.idOf = request.requestId := idOf_eq (by rw [hmethod]; decide)
  refine serves_meets (by rw [hmethod]; rfl) (roomCall_meets hid .nil ?_)
  intro playerId past' _ hpending hauthorized hne
  refine (ask_meets (c := .getState (GatewayService.roomIdOf request) request.requestId)
    ⟨⟨playerId, hauthorized⟩, hid.symm, rfl, hne⟩ hpending fun _ => rfl).imp
    (fun _ _ => id) fun past answer h => ⟨h.1, fun hok => ?_⟩
  obtain ⟨status, snapshot⟩ := answer
  obtain rfl : status = .ok := hok
  exact ⟨_, h.2, rfl⟩

/-- The room has no other part in how a request ends. -/
theorem Closed.withRoom {response : Response} (h : Closed http requestId past response)
    {room : Option Proto.RoomStateInfo} (hroom : ∀ info, room = some info →
      ∃ made ∈ past, ∃ snapshot, portrays made = some snapshot ∧ info = fillRoomState snapshot) :
    Closed http requestId past { response with room } :=
  ⟨h.status, h.httpStatus, h.echoed, h.failed, h.done, h.last, h.counted, h.count_mem, h.bare,
    h.sourced.token, h.sourced.player, h.sourced.matchInfo, hroom, h.sourced.result⟩

/-- The room beside a result. -/
theorem portrays_getResult {matchId : String} {status : RoomCallStatus} {view : MatchResultView}
    (hasked : ⟨.getResult matchId requestId, (status, view)⟩ ∈ past) :
    ∀ info, view.room.map fillRoomState = some info →
      ∃ made ∈ past, ∃ snapshot, portrays made = some snapshot ∧ info = fillRoomState snapshot := by
  intro info hinfo
  obtain ⟨snapshot, hsnapshot, rfl⟩ := Option.map_eq_some_iff.mp hinfo
  exact ⟨_, hasked, snapshot, hsnapshot, rfl⟩

/-- …and for the result of a match; the room beside it is shown with an error too. -/
theorem getMatchResult_meets (hmethod : request.method = .getMatchResult) :
    (g.getMatchResult request).Meets request.May request.Finished [] := by
  have htrace : request.IsTrace request.idOf := .inl rfl
  have hid : request.idOf = request.requestId := idOf_eq (by rw [hmethod]; decide)
  refine serves_meets (by rw [hmethod]; rfl) ?_
  rw [GatewayService.getMatchResult, ← hid]
  refine asPlayer_meets htrace .nil fun playerId past' _ hpending hauthorized => ?_
  split_ifs with hempty hroom
  · exact fail_closes htrace hpending
  · exact fail_closes htrace hpending
  · rw [ask_bind, Script.meets_ask]
    refine ⟨⟨⟨playerId, hauthorized⟩, hid, rfl, hempty⟩, fun answer => ?_⟩
    obtain ⟨status, view⟩ := answer
    have hpending' : Pending (past' ++
        [⟨.getResult (GatewayService.matchIdOf request) request.idOf, (status, view)⟩]) := hpending.snoc rfl
    have hasked : (⟨.getResult (GatewayService.matchIdOf request) request.idOf, (status, view)⟩ : Made) ∈
        past' ++ [⟨.getResult (GatewayService.matchIdOf request) request.idOf, (status, view)⟩] :=
      List.mem_append_right _ List.mem_cons_self
    -- The room is shown beside an error too.
    refine handleFailure_meets htrace hpending' (fun refusal past'' hlater hrefused => ?_) fun hok => ?_
    · rw [Script.meets_bind]
      refine (refuse_closes htrace hrefused).remember.imp (fun _ _ => id) fun past3 response h => ?_
      exact h.2.withRoom (portrays_getResult (h.1.subset (hlater.subset hasked)))
    · obtain rfl := roomFailure_eq_none.mp hok
      refine succeed_meets htrace hpending' rfl ⟨fun hne => absurd rfl hne, ?_, ?_, portrays_getResult hasked, ?_⟩
      · rintro player ⟨⟩
      · rintro info ⟨⟩
      · intro info hinfo
        obtain ⟨result, hresult, rfl⟩ := Option.map_eq_some_iff.mp hinfo
        exact ⟨_, hasked, result, hresult, rfl⟩

/-- A member is subscribed once the response can be streamed. -/
theorem openStream_meets {playerId : String} (hmethod : request.method = .streamEvents)
    (hserving : Request.Serving past) (hpending : Pending past) (hauthorized : request.Authorized past playerId)
    (hmember : request.IsMember past playerId (GatewayService.roomIdOf request)) :
    (g.openStream request playerId).Meets request.May (Closed request.http request.idOf) past := by
  have htrace : request.IsTrace request.idOf := .inl rfl
  have hid : GatewayService.requestIdOf request = request.idOf := (if_pos hmethod).symm
  rw [GatewayService.openStream, hid]
  split
  case isTrue => exact fail_closes htrace hpending
  case isFalse =>
    split
    case isTrue => exact fail_closes htrace hpending
    case isFalse =>
      rw [ask_bind, Script.meets_ask]
      refine ⟨⟨hmethod, hserving⟩, fun answer => ?_⟩
      have hpending' : Pending (past ++ [⟨.createProgressiveAttachment, answer⟩]) := hpending.snoc rfl
      cases answer with
      | false => exact fail_closes htrace hpending'
      | true =>
        rw [if_neg (by decide), ask_bind, Script.meets_ask]
        refine ⟨⟨hmethod, List.mem_append_left _ hserving, ?_, ?_, rfl⟩, fun id => ?_⟩
        · exact hauthorized.mono (List.subset_append_left ..)
        · exact hmember.mono (List.subset_append_left ..)
        · have hpending'' : Pending (past ++ [⟨.createProgressiveAttachment, true⟩] ++
              [⟨.subscribe playerId (GatewayService.roomIdOf request) (GatewayService.subscribeOptions request),
                id⟩]) := hpending'.snoc rfl
          split
          case isTrue => exact fail_closes htrace hpending''
          case isFalse =>
            refine ⟨may_log htrace _ _ _, fun _ => succeed_meets htrace (hpending''.snoc ?_) rfl ?_⟩
            · exact quiet_eventRecord (by decide) (by decide) _ _
            · exact .blank rfl rfl rfl rfl rfl

/-- Room is asked first, and only who is in the room gets a stream. -/
theorem streamEvents_meets (hmethod : request.method = .streamEvents) :
    (g.streamEvents request).Meets request.May request.Finished [] := by
  have htrace : request.IsTrace request.idOf := .inl rfl
  have hid : GatewayService.requestIdOf request = request.idOf := (if_pos hmethod).symm
  refine unlessShuttingDown_meets (by rw [hmethod]; rfl) ?_
  rw [hid]
  refine asPlayer_meets htrace pending_open fun playerId past' hsubset hpending hauthorized => ?_
  refine withRoom_meets htrace hpending fun hne => ?_
  rw [ask_bind, Script.meets_ask]
  refine ⟨⟨⟨playerId, hauthorized⟩, rfl, rfl, hne⟩, fun answer => ?_⟩
  obtain ⟨lookup, snapshot⟩ := answer
  have hpending' : Pending (past' ++ [⟨.getState (GatewayService.roomIdOf request) request.idOf,
    (lookup, snapshot)⟩]) := hpending.snoc rfl
  dsimp only
  split
  case h_1 code reason message hfailure =>
    refine ⟨may_log htrace _ _ _, fun _ => fail_closes htrace (hpending'.snoc ?_)⟩
    exact quiet_eventRecord (by decide) (by decide) _ _
  case h_2 hok =>
    split
    case isTrue hmember =>
      obtain ⟨player, hplayer, heq⟩ := List.any_eq_true.mp hmember
      obtain rfl := roomFailure_eq_none.mp hok
      refine openStream_meets hmethod (List.mem_append_left _ (hsubset List.mem_cons_self)) hpending'
        (hauthorized.mono (List.subset_append_left ..)) ⟨snapshot, ?_, player, hplayer, by simpa using heq⟩
      exact List.mem_append_right _ List.mem_cons_self
    case isFalse =>
      refine ⟨may_log htrace _ _ _, fun _ => fail_closes htrace (hpending'.snoc ?_)⟩
      exact quiet_eventRecord (by decide) (by decide) _ _

/-- **What every method keeps to**, whatever it is answered. -/
theorem handle_meets (g : GatewayService) (request : Request) :
    (g.handle request).Meets request.May request.Finished [] := by
  rw [GatewayService.handle]
  split
  case h_1 h => exact login_meets h
  case h_2 h => exact getCurrentPlayer_meets h
  case h_3 h => exact logout_meets h
  case h_4 h => exact enqueueMatch_meets h
  case h_5 h => exact getMatchStatus_meets h
  case h_6 h => exact cancelMatch_meets h
  case h_7 h => exact joinRoom_meets h
  case h_8 h => exact submitInput_meets h
  case h_9 h => exact getRoomState_meets h
  case h_10 h => exact getMatchResult_meets h
  case h_11 h => exact streamEvents_meets h

end RealtimeGame.Gateway
