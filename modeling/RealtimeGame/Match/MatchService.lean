import RealtimeGame.Common.Logging
import RealtimeGame.Library.Script
import RealtimeGame.Match.MatchQueue

/-!
# Match/MatchService — the methods of the Match service

A method makes its calls of the queue one after the other, and fills in what they come to.  A call of the queue
leaves a thread behind, and the method goes on when the thread has ended.  What a method does it does for the player
of its request (`May`), and `Answered` is how it ends.
-/

open Library RealtimeGame.Common

namespace RealtimeGame.Match

namespace Proto

inductive MatchState
  | unspecified
  | idle
  | queued
  | matched
  | timeout
  | other (number : Int)
  deriving DecidableEq, Repr

inductive MatchErrorCode
  | unspecified
  | invalidArgument
  | alreadyQueued
  | queueFull
  | internal
  | shuttingDown
  | other (number : Int)
  deriving DecidableEq, Repr

structure MatchError where
  code : MatchErrorCode := .unspecified
  reason : String := ""
  message : String := ""
  requestId : String := ""
  deriving DecidableEq, Repr

structure MatchStatus where
  state : MatchState := .unspecified
  requestId : String := ""
  matchId : String := ""
  roomId : String := ""
  playerIds : List String := []
  queuedAtMs : Int := 0
  queueSize : Int := 0
  deriving DecidableEq, Repr

end Proto

def toProtoState : MatchState → Proto.MatchState
  | .idle => .idle
  | .queued => .queued
  | .matched => .matched
  | .timeout => .timeout

def matchStateLabel : MatchState → String
  | .idle => "idle"
  | .queued => "queued"
  | .matched => "matched"
  | .timeout => "timeout"

/-- The size of the queue is cast to 32 bits. -/
def fillStatus (snapshot : MatchStatusSnapshot) : Proto.MatchStatus where
  state := toProtoState snapshot.state
  requestId := snapshot.requestId
  matchId := snapshot.matchId
  roomId := snapshot.roomId
  playerIds := snapshot.playerIds
  queuedAtMs := snapshot.queuedAtMs
  queueSize := (snapshot.queueSize : Int).bmod (2 ^ 32)

/-- Only a match is shown as one. -/
theorem toProtoState_eq_matched {state : MatchState} : toProtoState state = .matched ↔ state = .matched := by
  cases state <;> simp [toProtoState]

namespace MatchService

inductive Method
  | enqueueMatch
  | getMatchStatus
  | cancelMatch
  deriving DecidableEq, Repr

structure Request where
  method : Method
  requestId : String := ""
  playerId : String := ""
  deriving DecidableEq, Repr

/-- The response of every method; a message that is not filled in is missing. -/
structure Response where
  error : Proto.MatchError := {}
  status : Option Proto.MatchStatus := none
  deriving DecidableEq, Repr

/-! ## Calls

The critical sections of the queue, and the clock.  A thread of the queue that is waited for is one call. -/

/-- What a method calls: the clock, the sections of the queue, the end of a thread of it, the log, a counter. -/
inductive QueueCall
  | clock
  | enqueue (playerId requestId : String) (nowMs : Int)
  | enqueued (thread : Nat)
  | getStatus (playerId : String) (nowMs : Int)
  | cancel (playerId : String) (nowMs : Int)
  | ended (thread : Nat)
  | log (level : LogLevel) (event requestId : String) (fields : List (String × String))
  | count (event : String)

/-- What it gets; an `Enqueue` may be refused before it has a thread. -/
abbrev QueueAnswer : QueueCall → Type
  | .clock => Int
  | .enqueue .. => Except EnqueueOutcome Nat
  | .enqueued _ => EnqueueOutcome
  | .getStatus .. => MatchStatusSnapshot × Nat
  | .cancel .. => Bool × Nat
  | .ended _ | .log .. | .count _ => Unit

abbrev Handler (ρ : Type) : Type := Script QueueAnswer ρ

def ask (c : QueueCall) : Handler (QueueAnswer c) := Script.call c

/-- `MatchQueue::Enqueue`. -/
def enqueue (playerId requestId : String) (nowMs : Int) : Handler EnqueueOutcome := do
  match ← ask (.enqueue playerId requestId nowMs) with
  | .error outcome => pure outcome
  | .ok thread => ask (.enqueued thread)

/-- `MatchQueue::GetStatus`. -/
def getStatus (playerId : String) (nowMs : Int) : Handler MatchStatusSnapshot := do
  let (snapshot, thread) ← ask (.getStatus playerId nowMs)
  ask (.ended thread)
  pure snapshot

/-- `MatchQueue::Cancel`. -/
def cancel (playerId : String) (nowMs : Int) : Handler Bool := do
  let (removed, thread) ← ask (.cancel playerId nowMs)
  ask (.ended thread)
  pure removed

/-! ## The methods

What each method makes of the answers. -/

/-- The counters of an `EnqueueMatch`: who is matched at once counts as paired. -/
def countOutcome (outcome : EnqueueOutcome) (playerId : String) (nowMs : Int) : Handler Unit := do
  ask (.count "enqueued")
  match outcome with
  | .queued =>
    let snapshot ← getStatus playerId nowMs
    if snapshot.state = .matched then ask (.count "paired") else pure ()
  | .alreadyQueued | .queueFull | .shuttingDown | .invalidArgument => ask (.count "rejected")

/-- The error of an outcome, if it is one. -/
def fillError (requestId : String) : EnqueueOutcome → Proto.MatchError
  | .queued => {}
  | .alreadyQueued => ⟨.alreadyQueued, "already_queued", "玩家已在匹配队列或已有匹配结果", requestId⟩
  | .queueFull => ⟨.queueFull, "queue_full", "匹配队列已满，请稍后重试", requestId⟩
  | .shuttingDown => ⟨.shuttingDown, "shutting_down", "服务正在排空，不再接受新的匹配请求", requestId⟩
  | .invalidArgument => ⟨.invalidArgument, "invalid_argument", "玩家标识或幂等键不合法", requestId⟩

/-- The response to an outcome. -/
def answerOutcome (request : Request) (nowMs : Int) (outcome : EnqueueOutcome) : Handler Response :=
  match outcome with
  | .queued => do
    -- Read again: another player may have come meanwhile.
    let snapshot ← getStatus request.playerId nowMs
    ask (.log .info "match_enqueued" request.requestId
      [("player", request.playerId), ("state", matchStateLabel snapshot.state),
        ("queue_size", toString snapshot.queueSize), ("match_id", snapshot.matchId)])
    pure { status := some (fillStatus snapshot) }
  | .alreadyQueued => do
    let snapshot ← getStatus request.playerId nowMs
    pure { error := fillError request.requestId .alreadyQueued, status := some (fillStatus snapshot) }
  | .shuttingDown => do
    ask (.log .warn "match_enqueue_rejected" request.requestId
      [("player", request.playerId), ("reason", "shutting_down")])
    pure { error := fillError request.requestId .shuttingDown }
  | .queueFull => pure { error := fillError request.requestId .queueFull }
  | .invalidArgument => pure { error := fillError request.requestId .invalidArgument }

def enqueueMatch (request : Request) : Handler Response := do
  let nowMs ← ask .clock
  let outcome ← enqueue request.playerId request.requestId nowMs
  countOutcome outcome request.playerId nowMs
  answerOutcome request nowMs outcome

def getMatchStatus (request : Request) : Handler Response := do
  let nowMs ← ask .clock
  let snapshot ← getStatus request.playerId nowMs
  pure { status := some (fillStatus snapshot) }

/-- That nothing was cancelled is no error. -/
def cancelMatch (request : Request) : Handler Response := do
  let nowMs ← ask .clock
  let canceled ← cancel request.playerId nowMs
  if canceled then ask (.count "canceled") else pure ()
  let snapshot ← getStatus request.playerId nowMs
  pure { status := some (fillStatus snapshot) }

/-- **The service** — the method of a request. -/
def handle (request : Request) : Handler Response :=
  match request.method with
  | .enqueueMatch => enqueueMatch request
  | .getMatchStatus => getMatchStatus request
  | .cancelMatch => cancelMatch request

/-! ## What the methods keep to

A call is made for the player of the request, and the response is filled in from what the queue told. -/

/-- A call that was made, with its answer. -/
abbrev Made : Type := Sigma QueueAnswer

/-- How an `Enqueue` came out. -/
def outcome? : Made → Option EnqueueOutcome
  | ⟨.enqueue .., .error outcome⟩ | ⟨.enqueued _, outcome⟩ => some outcome
  | _ => none

/-- What the queue told of a player. -/
def shown? : Made → Option (String × MatchStatusSnapshot)
  | ⟨.getStatus playerId _, (snapshot, _)⟩ => some (playerId, snapshot)
  | _ => none

/-- Whether a `Cancel` took the player out. -/
def removed? : Made → Option Bool
  | ⟨.cancel .., (removed, _)⟩ => some removed
  | _ => none

/-- Is it a count of this event? -/
def counts (event : String) (made : Made) : Bool :=
  match made.1 with
  | .count event' => event' = event
  | _ => false

/-- The thread that a call left behind. -/
def thread? : Made → Option Nat
  | ⟨.enqueue .., .ok thread⟩ | ⟨.getStatus .., (_, thread)⟩ | ⟨.cancel .., (_, thread)⟩ => some thread
  | _ => none

/-- **What a call needs** — it is for the player of the request, and at the time that the method read. -/
def Request.May (request : Request) (past : List Made) : QueueCall → Prop
  | .clock => past = []
  | .enqueue playerId requestId nowMs =>
    request.method = .enqueueMatch ∧ playerId = request.playerId ∧ requestId = request.requestId ∧
      past = [⟨.clock, nowMs⟩]
  | .cancel playerId nowMs => request.method = .cancelMatch ∧ playerId = request.playerId ∧ past = [⟨.clock, nowMs⟩]
  | .getStatus playerId nowMs => playerId = request.playerId ∧ past.head? = some ⟨.clock, nowMs⟩
  | .enqueued thread | .ended thread => past.getLast?.bind thread? = some thread
  | .log _ _ requestId _ => requestId = request.requestId
  | .count _ => True

/-- **How a method ends** — it shows what the queue told last, its error is the one of the outcome, and every event
is counted once. -/
structure Request.Answered (request : Request) (past : List Made) (response : Response) : Prop where
  status : response.status = (past.filterMap shown?).getLast?.map fun shown => fillStatus shown.2
  outcomes : (past.filterMap outcome?).length = if request.method = .enqueueMatch then 1 else 0
  error : response.error = ((past.filterMap outcome?).head?.map (fillError request.requestId)).getD {}
  enqueued : past.countP (counts "enqueued") = (past.filterMap outcome?).length
  rejected : past.countP (counts "rejected") = (past.filterMap outcome?).countP (· ≠ .queued)
  paired : past.countP (counts "paired") =
    if past.filterMap outcome? = [.queued] ∧ ((past.filterMap shown?).head?.any (·.2.state = .matched)) then 1 else 0
  canceled : past.countP (counts "canceled") = (past.filterMap removed?).countP id

theorem ask_bind {ρ : Type} (c : QueueCall) (next : QueueAnswer c → Handler ρ) :
    ask c >>= next = Script.ask c next := rfl

/-- A look at the queue. -/
theorem getStatus_meets {ρ : Type} {request : Request} {past : List Made} {nowMs : Int}
    (hclock : past.head? = some ⟨.clock, nowMs⟩) {next : MatchStatusSnapshot → Handler ρ}
    {post : List Made → ρ → Prop}
    (hnext : ∀ snapshot thread, (next snapshot).Meets request.May post
      (past ++ [⟨.getStatus request.playerId nowMs, (snapshot, thread)⟩, ⟨.ended thread, ()⟩])) :
    (getStatus request.playerId nowMs >>= next).Meets request.May post past := by
  refine ⟨⟨rfl, hclock⟩, fun answer => ⟨?_, fun _ => ?_⟩⟩
  · show (past ++ [_]).getLast?.bind thread? = _
    rw [List.getLast?_append]
    rfl
  · rw [List.append_assoc]
    exact hnext answer.1 answer.2

/-- A status is what the queue shows at that time, -/
theorem getMatchStatus_meets {request : Request} (hmethod : request.method = .getMatchStatus) :
    (getMatchStatus request).Meets request.May request.Answered [] := by
  rw [getMatchStatus, ask_bind, Script.meets_ask]
  refine ⟨rfl, fun nowMs => getStatus_meets rfl fun snapshot thread => ?_⟩
  exact ⟨rfl, by rw [hmethod]; rfl, rfl, rfl, rfl, rfl, rfl⟩

/-- …and a cancellation says whether there was something to cancel. -/
theorem cancelMatch_meets {request : Request} (hmethod : request.method = .cancelMatch) :
    (cancelMatch request).Meets request.May request.Answered [] := by
  refine ⟨rfl, fun nowMs => ⟨⟨hmethod, rfl, rfl⟩, fun answer => ⟨rfl, fun _ => ?_⟩⟩⟩
  obtain ⟨removed, thread⟩ := answer
  show Script.Meets _ _ (if removed = true then _ else _) _
  cases removed with
  | true =>
    rw [if_pos rfl, ask_bind, Script.meets_ask]
    refine ⟨trivial, fun _ => getStatus_meets rfl fun snapshot thread => ?_⟩
    exact ⟨rfl, by rw [hmethod]; rfl, rfl, rfl, rfl, rfl, rfl⟩
  | false =>
    rw [if_neg Bool.false_ne_true]
    refine getStatus_meets rfl fun snapshot thread => ?_
    exact ⟨rfl, by rw [hmethod]; rfl, rfl, rfl, rfl, rfl, rfl⟩

/-- The outcome has just come. -/
structure Came (past : List Made) (outcome : EnqueueOutcome) (nowMs : Int) : Prop where
  clock : past.head? = some ⟨.clock, nowMs⟩
  outcomes : past.filterMap outcome? = [outcome]
  shown : past.filterMap shown? = []
  removed : past.filterMap removed? = []
  counted : ∀ event, past.countP (counts event) = 0

theorem Came.head? {past : List Made} {outcome : EnqueueOutcome} {nowMs : Int} (h : Came past outcome nowMs)
    (later : List Made) : (past ++ later).head? = some ⟨.clock, nowMs⟩ := by rw [List.head?_append, h.clock]; rfl

/-- The calls behind the outcome decide the end. -/
theorem Came.answered {request : Request} (hmethod : request.method = .enqueueMatch) {past later : List Made}
    {outcome : EnqueueOutcome} {nowMs : Int} (h : Came past outcome nowMs) {response : Response}
    (houtcomes : later.filterMap outcome? = []) (hremoved : later.filterMap removed? = [])
    (hstatus : response.status = (later.filterMap shown?).getLast?.map fun shown => fillStatus shown.2)
    (herror : response.error = fillError request.requestId outcome)
    (henqueued : later.countP (counts "enqueued") = 1)
    (hrejected : later.countP (counts "rejected") = if outcome = .queued then 0 else 1)
    (hpaired : later.countP (counts "paired") =
      if outcome = .queued ∧ ((later.filterMap shown?).head?.any (·.2.state = .matched)) then 1 else 0)
    (hcanceled : later.countP (counts "canceled") = 0) : request.Answered (past ++ later) response where
  status := by rw [List.filterMap_append, h.shown, hstatus]; rfl
  outcomes := by rw [List.filterMap_append, h.outcomes, houtcomes, hmethod]; rfl
  error := by rw [List.filterMap_append, h.outcomes, houtcomes, herror]; rfl
  enqueued := by rw [List.countP_append, h.counted, henqueued, List.filterMap_append, h.outcomes, houtcomes]; rfl
  rejected := by
    rw [List.countP_append, h.counted, hrejected, List.filterMap_append, h.outcomes, houtcomes]
    cases outcome <;> rfl
  paired := by
    rw [List.countP_append, h.counted, hpaired, List.filterMap_append, h.outcomes, houtcomes, List.filterMap_append,
      h.shown, Nat.zero_add]
    simp only [List.append_nil, List.nil_append, List.cons.injEq, and_true]
  canceled := by rw [List.countP_append, h.counted, hcanceled, List.filterMap_append, h.removed, hremoved]; rfl

/-- The outcome is counted, and then answered. -/
theorem Came.meets {request : Request} (hmethod : request.method = .enqueueMatch) {past : List Made}
    {outcome : EnqueueOutcome} {nowMs : Int} (h : Came past outcome nowMs) :
    (countOutcome outcome request.playerId nowMs >>= fun _ => answerOutcome request nowMs outcome).Meets
      request.May request.Answered past := by
  unfold countOutcome
  rw [Script.meets_bind, ask_bind, Script.meets_ask]
  refine ⟨trivial, fun _ => ?_⟩
  cases outcome with
  | queued =>
    refine getStatus_meets (h.head? _) fun first thread => ?_
    by_cases hmatched : first.state = .matched
    · rw [if_pos hmatched]
      refine ⟨trivial, fun _ => getStatus_meets ?_ fun snapshot thread => ⟨rfl, fun _ => ?_⟩⟩
      · simp only [List.append_assoc, h.head?]
      · simp only [List.append_assoc, List.cons_append, List.nil_append]
        exact h.answered hmethod rfl rfl rfl rfl rfl rfl (if_pos ⟨rfl, decide_eq_true hmatched⟩).symm rfl
    · rw [if_neg hmatched]
      refine getStatus_meets ?_ fun snapshot thread => ⟨rfl, fun _ => ?_⟩
      · simp only [List.append_assoc, h.head?]
      · simp only [List.append_assoc, List.cons_append, List.nil_append]
        have hnot : ∀ p : Prop, ¬(p ∧ decide (first.state = .matched) = true) :=
          fun _ h => hmatched (of_decide_eq_true h.2)
        exact h.answered hmethod rfl rfl rfl rfl rfl rfl (if_neg (hnot _)).symm rfl
  | alreadyQueued =>
    refine ⟨trivial, fun _ => getStatus_meets ?_ fun snapshot thread => ?_⟩
    · simp only [List.append_assoc, h.head?]
    · simp only [List.append_assoc, List.cons_append, List.nil_append]
      exact h.answered hmethod rfl rfl rfl rfl rfl rfl rfl rfl
  | shuttingDown =>
    refine ⟨trivial, fun _ => ⟨rfl, fun _ => ?_⟩⟩
    simp only [List.append_assoc, List.cons_append, List.nil_append]
    exact h.answered hmethod rfl rfl rfl rfl rfl rfl rfl rfl
  | queueFull | invalidArgument =>
    refine ⟨trivial, fun _ => ?_⟩
    simp only [List.append_assoc, List.cons_append, List.nil_append]
    exact h.answered hmethod rfl rfl rfl rfl rfl rfl rfl rfl

/-- **An enqueue ends as its outcome says.** -/
theorem enqueueMatch_meets {request : Request} (hmethod : request.method = .enqueueMatch) :
    (enqueueMatch request).Meets request.May request.Answered [] := by
  refine ⟨rfl, fun nowMs => ⟨⟨hmethod, rfl, rfl, rfl⟩, fun answer => ?_⟩⟩
  cases answer with
  | error outcome => exact Came.meets hmethod ⟨rfl, rfl, rfl, rfl, fun _ => rfl⟩
  | ok thread => exact ⟨rfl, fun outcome => Came.meets hmethod ⟨rfl, rfl, rfl, rfl, fun _ => rfl⟩⟩

/-- **What every method keeps to**, whatever the queue answers. -/
theorem handle_meets (request : Request) : (handle request).Meets request.May request.Answered [] := by
  rw [handle]
  split
  case h_1 h => exact enqueueMatch_meets h
  case h_2 h => exact getMatchStatus_meets h
  case h_3 h => exact cancelMatch_meets h

end MatchService

end RealtimeGame.Match
