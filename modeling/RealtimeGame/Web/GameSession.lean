import RealtimeGame.Gateway.SseRoundTrip

/-!
# Web/GameSession — what the page makes of the events of its stream

The handler that `startStream` subscribes with takes `session.ready` for a sign of life and the room out of a
`stream.reset`; every other event it takes for a state of the room, whatever its name.  So what it shows is the
last state of the room, unless a `stream.closed` came after it (`room_onEvents_iff`).
-/

open Library RealtimeGame.Gateway

namespace RealtimeGame.Web

/-- A property of a value.  Of members with one name the last counts. -/
def member? (name : String) : Json → Option Json
  | .object members => (members.filter (·.1 = name)).getLast?.map (·.2)
  | _ => none

/-- What the handler asks for besides. -/
inductive Command
  | resetBudget
  | stop
  | finishBattle
  deriving DecidableEq, Repr

/-- The values of `useGameSession` that the handler sets; a room that is not known is `null`. -/
structure GameSession where
  room : Json
  lastSequence : Int
  streamStatus : PushStatus

namespace GameSession

/-- At the subscription; the room is that of the answer to `joinRoom`. -/
def startStream (room : Json) : GameSession := ⟨room, -1, .connecting⟩

variable (session : GameSession)

/-- **The handler of `startStream`.** -/
def onEvent (frame : Frame) : GameSession × List Command :=
  if frame.event = "session.ready".toList then ({ session with streamStatus := .connected }, [])
  else
    let payload :=
      if frame.event = "stream.reset".toList then
        (frame.envelope.bind (member? "payload")).bind (member? "room")
      else frame.envelope.bind (member? "payload")
    match payload with
    | none => (session, [])
    | some payload =>
      ({ room := payload
         lastSequence :=
          match frame.envelope.bind (member? "sequence") with
          | some (.number sequence) => sequence
          | _ => session.lastSequence
         streamStatus := .connected },
        .resetBudget :: if frame.event = "room.finished".toList then [.stop, .finishBattle] else [])

/-- The events of a stream, one after the other. -/
def onEvents (frames : List Frame) : GameSession := frames.foldl (fun s frame => (s.onEvent frame).1) session

theorem onEvents_append (frames more : List Frame) :
    session.onEvents (frames ++ more) = (session.onEvents frames).onEvents more := List.foldl_append

/-- What is known of the room. -/
def known : Json × Int := (session.room, session.lastSequence)

end GameSession

end RealtimeGame.Web

namespace RealtimeGame.Gateway.SinkEvent

open RealtimeGame.Web

/-! ## The events of the hub

Frames as the client gets them. -/

/-- The state of the room in an event, and its sequence; control events have none. -/
def state? : SinkEvent → Option (Json × Int)
  | roomState snapshot _ | roomFinished snapshot _ | streamReset _ snapshot _ =>
    some (snapshot.value, snapshot.frame)
  | heartbeat | sessionReady .. | streamClosed .. => none

/-- What the handler takes for it. -/
def taken? : SinkEvent → Option (Json × Int)
  | event@(streamClosed ..) => some (event.payload, 0)
  | event => event.state?

/-- **One event** of the hub. -/
theorem known_onEvent (session : GameSession) (event : SinkEvent) :
    (session.onEvents event.frame?.toList).known = event.taken?.getD session.known := by
  cases event <;> rfl

/-- **A run** ends with what was taken last. -/
theorem known_onEvents (session : GameSession) (events : List SinkEvent) :
    (session.onEvents (events.filterMap frame?)).known =
      (events.filterMap taken?).getLast?.getD session.known := by
  induction events using List.reverseRecOn with
  | nil => rfl
  | append_singleton events event ih =>
    have hevents : (events ++ [event]).filterMap frame? = events.filterMap frame? ++ event.frame?.toList := by
      rw [List.filterMap_append]
      cases event <;> rfl
    rw [hevents, GameSession.onEvents_append, known_onEvent, ih, List.filterMap_append]
    cases event <;> simp [taken?, state?]

/-! ## Where the last state of the room stays

Every state replaces the one before, and `stream.closed` replaces it as well. -/

/-- The last event that is not a `session.ready` is a `stream.closed`. -/
def ClosedLast (events : List SinkEvent) : Prop :=
  ∃ reason nowMs, (events.filter fun event => event.name?.any (· ≠ "session.ready")).getLast? =
    some (.streamClosed reason nowMs)

/-- A state of the room is not the payload of a `stream.closed`. -/
theorem state?_ne (event : SinkEvent) (reason : String) (nowMs n : Int) :
    event.state? ≠ some ((streamClosed reason nowMs).payload, n) := by
  intro h
  cases event <;> simp [state?, payload, RoomSnapshot.value] at h

/-- **The room is the last state of the room** that the hub sent, with its sequence, exactly if no
`stream.closed` came after that. -/
theorem room_onEvents_iff (room : Json) (events : List SinkEvent) :
    ((GameSession.startStream room).onEvents (events.filterMap frame?)).known =
      (events.filterMap state?).getLast?.getD (room, -1) ↔ ¬ClosedLast events := by
  rw [known_onEvents]
  induction events using List.reverseRecOn with
  | nil =>
    refine iff_of_true rfl ?_
    rintro ⟨reason, nowMs, h⟩
    cases h
  | append_singleton events event ih =>
    cases event with
    | heartbeat | sessionReady => simpa [ClosedLast, taken?, state?, name?] using ih
    | roomState | roomFinished | streamReset => simp [ClosedLast, taken?, state?, name?]
    | streamClosed reason nowMs =>
      refine iff_of_false ?_ (not_not.mpr ⟨reason, nowMs, by simp [name?]⟩)
      simp only [List.filterMap_append, List.filterMap_cons, List.filterMap_nil, taken?, state?,
        List.getLast?_concat, Option.getD_some, List.append_nil]
      rcases hlast : (events.filterMap state?).getLast? with - | ⟨value, n⟩
      · exact fun h => by cases (Prod.mk.inj h).2
      · obtain ⟨event, -, hevent⟩ := List.mem_filterMap.mp (List.mem_of_getLast? hlast)
        intro h
        rw [Option.getD_some] at h
        exact state?_ne event reason nowMs 0 (hevent.trans (congrArg some h.symm))

/-- A drain closes the stream. -/
def drainedStream : List SinkEvent :=
  [.sessionReady "alice" "r-1" 1000, .roomState { roomId := "r-1", frame := 5 } 1500,
    .streamClosed "server_shutdown" 2000]

/-- The room is replaced by the reason, and the next subscription asks for what comes after frame 0. -/
theorem not_room_onEvents :
    ((GameSession.startStream .null).onEvents (drainedStream.filterMap frame?)).known =
        (.object [("reason", .string "server_shutdown"), ("server_time_ms", .number 2000)], 0) ∧
      ((GameSession.startStream .null).onEvents (drainedStream.filterMap frame?)).known ≠
        (drainedStream.filterMap state?).getLast?.getD (.null, -1) := by
  refine ⟨rfl, fun h => ?_⟩
  cases (Prod.mk.inj h).2

end RealtimeGame.Gateway.SinkEvent
