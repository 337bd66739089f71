import Mathlib.Data.Fintype.EquivFin
import RealtimeGame.Library.Server
import RealtimeGame.Match.MatchService
import RealtimeGame.Match.OneRoom

/-!
# Match/MatchServer — the Match service on its queue, and Room

Every request is a thread, and every call it makes is a step of both services; between two of them the threads of
the queue go on, Match is restarted, and Room does what it likes.  A method that was running when Match stopped may
go on here, which adds runs and takes none away.  What a response tells of a match is so: its player is one of a
pair, and Room made the room for them (`answered_of_run`).
-/

open Library RealtimeGame.Common

namespace RealtimeGame.Match

variable {c : MatchConfig} {stores : Room.RoomStores} {p : String}

/-! ## What stays true of a pairing

Its two players, and its room in Room. -/

namespace Backend

variable {w w' : Backend} {y : Pairing}

/-- **A step is one of Room**, or leaves Room alone. -/
theorem rooms_next (c : MatchConfig) (stores : Room.RoomStores) (op : Op) (hfresh : w.Fresh op) :
    (w.next c stores op).rooms = w.rooms ∨ ∃ a, w.rooms.Fresh a ∧ (op = .room a ∨ isCreate a = true) ∧
      (w.next c stores op).rooms = w.rooms.next stores a := by
  cases op with
  | matching a call =>
    simp only [next]
    split
    case h_1 group _ =>
      split
      · exact .inr ⟨createAction call group, hfresh.2, .inr rfl, rfl⟩
      · exact .inr ⟨createAction call group, hfresh.2, .inr rfl, rfl⟩
      · exact .inl rfl
    case h_2 => exact .inl rfl
  | restart => exact .inl rfl
  | room a => exact .inr ⟨a, fresh_of_isCreate hfresh, .inl rfl, rfl⟩

theorem Hosts.step (hosts : w.Hosts y) (h : Sound w) {op : Op} (hstep : Step c stores w op w') : w'.Hosts y := by
  obtain ⟨hfresh, rfl⟩ := hstep
  obtain ⟨events, hevents, -⟩ := history_next c stores w op
  refine hosts.mono (hevents ▸ List.subset_append_left ..) fun x k hmade => ?_
  rcases rooms_next c stores op hfresh with hsame | ⟨a, ha, -, hnext⟩
  · exact hsame ▸ hmade
  · exact hnext ▸ (Room.RoomSystem.Effect.of_step h.rooms ⟨ha, rfl⟩).created x k hmade

/-- **Seated** — the player is one of a pair, and Room made the room for it. -/
structure Seated (w : Backend) (p : String) (y : Pairing) : Prop where
  member : p ∈ y.playerIds
  pair : IsPair y.playerIds
  hosts : w.Hosts y

/-- **A match is one room and one pair**, whoever is told of it. -/
theorem Seated.agree (h : Orderly w) {p' : String} {y' : Pairing} (hy : w.Seated p y) (hy' : w.Seated p' y') :
    (y.matchId = y'.matchId ↔ y.roomId = y'.roomId) ∧ (y.matchId = y'.matchId → y.playerIds = y'.playerIds) := by
  obtain ⟨group, hknown, heq, hmade⟩ := hy.hosts
  obtain ⟨group', hknown', heq', hmade'⟩ := hy'.hosts
  obtain ⟨hid, -, hplayers⟩ := Pairing.mk.inj heq
  obtain ⟨hid', -, hplayers'⟩ := Pairing.mk.inj heq'
  refine ⟨⟨fun hsame => ?_, fun hsame => ?_⟩, fun hsame => ?_⟩
  · rw [← hid] at hmade
    rw [← hid', ← hsame] at hmade'
    exact h.single.one _ _ _ hmade hmade'
  · rw [hsame, hmade'] at hmade
    rw [hid, hid']
    exact (Option.some.inj hmade).symm
  · have hgroup : group = group' := h.cast.unique group group' hknown hknown' (hid.symm.trans (hsame.trans hid'))
    rw [hplayers, hplayers', hgroup]

/-- What a look at the queue shows. -/
theorem Orderly.seated (h : Orderly w) {nowMs : Int} (hmatched : (w.matching.status c p nowMs).state = .matched) :
    w.Seated p ⟨(w.matching.status c p nowMs).matchId, (w.matching.status c p nowMs).roomId,
      (w.matching.status c p nowMs).playerIds⟩ := by
  obtain ⟨hp, hosts⟩ := h.cast.hosts_of_status h.agreeing.agreed hmatched
  obtain ⟨e, he, hs, hrecord⟩ := MatchSystem.entry_of_status hmatched
  obtain ⟨-, -, hplayers, -⟩ := MatchQueueEntry.matched.inj hrecord
  exact ⟨hp, hplayers ▸ (h.agreeing.agreed.result_next rfl he hs).2.1, hosts⟩

end Backend

/-! ## The server

A call of the queue is made by a thread; a thread that is waited for runs in between. -/

open MatchService

/-- Both services, and how the `Enqueue` of each thread came out. -/
structure MatchWorld where
  backend : Backend := {}
  outcomes : List (Nat × EnqueueOutcome) := []

/-- What the rest of the world adds to a call: the clock, and the outcome that the thread came to. -/
structure MatchOracle where
  nowMs : Int := 0
  outcome : EnqueueOutcome := .queued

/-- The thread whose `Enqueue` an action decides, and the outcome. -/
def MatchSystem.decides (c : MatchConfig) (s : MatchSystem) : Action → Option (Nat × EnqueueOutcome)
  | .resume thread _ =>
    match s.threads[thread]? with
    | some (.enqueue playerId requestId nowMs) =>
      some (thread, (s.queue.enqueueLocked c nowMs playerId requestId).1)
    | _ => none
  | _ => none

/-- A call of the queue that a method makes. -/
def Action.isCall : Action → Bool
  | .enqueue .. | .cancel .. | .getStatus .. => true
  | _ => false

def Backend.isCall : Backend.Op → Bool
  | .matching a _ => a.isCall
  | .room _ | .restart .. => false

namespace MatchWorld

variable (c : MatchConfig) (stores : Room.RoomStores) (w : MatchWorld)

/-- A call of the queue. -/
def act (a : Action) : MatchWorld := { w with backend := w.backend.next c stores (.matching a {}) }

/-- The thread that the next call of the queue leaves behind. -/
def thread : Nat := w.backend.matching.threads.length

def perform : (call : QueueCall) → MatchOracle → MatchWorld → QueueAnswer call × MatchWorld
  | .clock, o, w => (o.nowMs, w)
  | .enqueue playerId requestId nowMs, _, w =>
    (if !MatchQueue.enqueueArgsOk playerId requestId then .error .invalidArgument
      else if w.backend.matching.queue.shuttingDown then .error .shuttingDown
      else .ok w.thread,
      w.act c stores (.enqueue playerId requestId nowMs))
  | .enqueued _, o, w => (o.outcome, w)
  | .getStatus playerId nowMs, _, w =>
    ((w.backend.matching.status c playerId nowMs, w.thread), w.act c stores (.getStatus playerId nowMs))
  | .cancel playerId nowMs, _, w =>
    (((w.backend.matching.queue.cancelLocked c nowMs playerId).1, w.thread),
      w.act c stores (.cancel playerId nowMs))
  | .ended _, _, w => ((), w)
  | .log .., _, w => ((), w)
  | .count _, _, w => ((), w)

/-- A call of the queue returns when its thread has ended. -/
def admits : QueueCall → MatchOracle → MatchWorld → Prop
  | .enqueued thread, o, w =>
    w.backend.matching.threads[thread]? = some .done ∧ w.outcomes.lookup thread = some o.outcome
  | .ended thread, _, w => w.backend.matching.threads[thread]? = some .done
  | _, _, _ => True

def happen (op : Backend.Op) (w : MatchWorld) : MatchWorld where
  backend := w.backend.next c stores op
  outcomes :=
    match op with
    | .matching a _ => (w.backend.matching.decides c a).toList ++ w.outcomes
    | .room _ => w.outcomes
    | .restart .. => []

instance : ∀ (call : QueueCall) (o : MatchOracle) (w : MatchWorld), Decidable (admits call o w)
  | .enqueued _, _, _ => inferInstanceAs (Decidable (_ ∧ _))
  | .ended _, _, _ => inferInstanceAs (Decidable (_ = _))
  | .clock, _, _ | .enqueue .., _, _ | .getStatus .., _, _ | .cancel .., _, _ | .log .., _, _ | .count _, _, _ =>
    .isTrue trivial

/-- The methods alone call the queue. -/
def occurs (op : Backend.Op) (w : MatchWorld) : Prop :=
  w.backend.Fresh op ∧ Backend.Serving op ∧ Backend.isCall op = false

instance (op : Backend.Op) (w : MatchWorld) : Decidable (occurs op w) := inferInstanceAs (Decidable (_ ∧ _))

end MatchWorld

/-- **The Match service.** -/
def matchServer (c : MatchConfig) (stores : Room.RoomStores) :
    Server QueueAnswer Request Response MatchOracle Backend.Op MatchWorld where
  program := handle
  perform := MatchWorld.perform c stores
  admits := MatchWorld.admits
  happen := MatchWorld.happen c stores
  occurs := MatchWorld.occurs

instance (c : MatchConfig) (stores : Room.RoomStores) (call : QueueCall) (o : MatchOracle) (w : MatchWorld) :
    Decidable ((matchServer c stores).admits call o w) := inferInstanceAs (Decidable (MatchWorld.admits call o w))

instance (c : MatchConfig) (stores : Room.RoomStores) (op : Backend.Op) (w : MatchWorld) :
    Decidable ((matchServer c stores).occurs op w) := inferInstanceAs (Decidable (MatchWorld.occurs op w))

/-! ## Every run

What a response tells was in the queue when it was read. -/

namespace MatchWorld

variable {w : MatchWorld} {log : List (Server.Entry QueueAnswer MatchOracle)}

/-- A step of both services in which Match serves. -/
def Steps (c : MatchConfig) (stores : Room.RoomStores) (w : Backend) (op : Backend.Op) (w' : Backend) : Prop :=
  Backend.Serving op ∧ Backend.Step c stores w op w'

/-- A call of the queue is a step of both services. -/
theorem steps_act (c : MatchConfig) (stores : Room.RoomStores) (w : MatchWorld) {a : Action} (hcall : a.isCall = true) :
    ∃ op, Steps c stores w.backend op (w.act c stores a).backend := by
  obtain ⟨x, hx⟩ := Infinite.exists_notMem_finset w.backend.rooms.created.keys.toFinset
  have hfresh : x ∉ w.backend.rooms.created := fun h => hx (List.mem_toFinset.mpr h)
  refine ⟨.matching a { roomId := x }, ?_⟩
  cases a with
  | enqueue | cancel | getStatus => exact ⟨⟨rfl, List.nodup_nil⟩, ⟨by rintro id ⟨⟩, hfresh⟩, rfl⟩
  | _ => cases hcall

theorem steps_perform (c : MatchConfig) (stores : Room.RoomStores) (call : QueueCall) (o : MatchOracle)
    (w : MatchWorld) :
    (perform c stores call o w).2.backend = w.backend ∨
      ∃ op, Steps c stores w.backend op (perform c stores call o w).2.backend := by
  cases call with
  | enqueue | cancel | getStatus => exact .inr (steps_act c stores w rfl)
  | _ => exact .inl rfl

/-- No call of the queue reaches Room by itself. -/
theorem rooms_perform (call : QueueCall) (o : MatchOracle) (w : MatchWorld) :
    (perform c stores call o w).2.backend.rooms = w.backend.rooms := by
  cases call with
  | _ => rfl

/-- **Honest** — what was told of a match is so. -/
structure Honest (w : MatchWorld) (log : List (Server.Entry QueueAnswer MatchOracle)) : Prop where
  orderly : Backend.Orderly w.backend
  told : ∀ e ∈ log, ∀ p snapshot, shown? e.made = some (p, snapshot) → snapshot.state = .matched →
    w.backend.Seated p ⟨snapshot.matchId, snapshot.roomId, snapshot.playerIds⟩

theorem Honest.start : Honest {} [] := ⟨.start, by rintro e ⟨⟩⟩

/-- A step of both services keeps it. -/
theorem Honest.steps (h : Honest w log) {w' : MatchWorld} {op : Backend.Op}
    (hsteps : Steps c stores w.backend op w'.backend) : Honest w' log where
  orderly := h.orderly.step hsteps.1 hsteps.2
  told e he p snapshot hshown hmatched := by
    have hold := h.told e he p snapshot hshown hmatched
    exact ⟨hold.member, hold.pair, hold.hosts.step h.orderly.cast.sound hsteps.2⟩

theorem Honest.perform (h : Honest w log) (i : Nat) (call : QueueCall) (o : MatchOracle) :
    Honest (perform c stores call o w).2 (log ++ [⟨i, o, call, (perform c stores call o w).1⟩]) := by
  have hkept : Honest (MatchWorld.perform c stores call o w).2 log := by
    rcases steps_perform c stores call o w with hsame | ⟨op, hsteps⟩
    · exact ⟨hsame ▸ h.orderly, hsame ▸ h.told⟩
    · exact h.steps hsteps
  refine ⟨hkept.orderly, fun e he p snapshot hshown hmatched => ?_⟩
  rcases List.mem_append.mp he with he | he
  · exact hkept.told e he p snapshot hshown hmatched
  · obtain rfl := List.mem_singleton.mp he
    cases call with
    | getStatus playerId nowMs =>
      obtain ⟨rfl, rfl⟩ := Prod.mk.inj (Option.some.inj hshown)
      have hseated := h.orderly.seated (c := c) hmatched
      obtain ⟨op, hsteps⟩ := steps_act c stores w (a := .getStatus playerId nowMs) rfl
      exact ⟨hseated.member, hseated.pair, hseated.hosts.step h.orderly.cast.sound hsteps.2⟩
    | _ => cases hshown

/-- A method looks for its own player. -/
theorem player_of_shown {made : Made} {request : Request} {past : List Made} {playerId : String}
    {snapshot : MatchStatusSnapshot} (hshown : shown? made = some (playerId, snapshot))
    (hmay : request.May past made.1) : playerId = request.playerId := by
  obtain ⟨call, answer⟩ := made
  cases call with
  | getStatus => exact (Prod.mk.inj (Option.some.inj hshown)).1 ▸ hmay.1
  | _ => cases hshown

variable {ops : List (Server.Op Request MatchOracle Backend.Op)}
  {s t : Server.State QueueAnswer Request Response MatchOracle MatchWorld}

/-- A step of the server is a step of both services, or leaves them alone. -/
theorem steps_of_step {op : Server.Op Request MatchOracle Backend.Op} (hstep : (matchServer c stores).Step s op t) :
    t.world.backend = s.world.backend ∨ ∃ op, Steps c stores s.world.backend op t.world.backend := by
  rcases hstep.cases with ⟨request, rfl⟩ | ⟨i, o, request, call, rest, -, -, rfl⟩ | ⟨op, hoccurs, rfl⟩ | rfl
  · exact .inl rfl
  · exact steps_perform c stores call o s.world
  · exact .inr ⟨op, hoccurs.2.1, hoccurs.1, rfl⟩
  · exact .inl rfl

theorem admitting_of_run (hrun : Run (matchServer c stores).Step { world := {} } ops t) :
    Backend.Admitting t.world.backend := by
  refine hrun.invariant (I := fun s => Backend.Admitting s.world.backend) (fun s op t h hstep => ?_)
    fun x r hr => by cases hr
  rcases steps_of_step hstep with hsame | ⟨op, -, -, hnext⟩
  · exact hsame ▸ h
  · exact hnext ▸ h.next op

theorem honest_of_run (hrun : Run (matchServer c stores).Step { world := {} } ops t) : Honest t.world t.log :=
  Server.invariant MatchService.handle_meets (I := Honest) (fun _ _ i _ call o h _ _ => h.perform i call o)
    (fun w _ _ h (hoccurs : w.occurs _) => h.steps ⟨hoccurs.2.1, hoccurs.1, rfl⟩) hrun (.nil _) .start

/-- Whoever is told of a match is seated. -/
theorem seated_of_run (hrun : Run (matchServer c stores).Step { world := {} } ops t) {i : Nat} {request : Request}
    {response : Response} (hthread : t.threads[i]? = some ⟨request, .ret response⟩) {status : Proto.MatchStatus}
    (hstatus : response.status = some status) (hmatched : status.state = .matched) :
    t.world.backend.Seated request.playerId ⟨status.matchId, status.roomId, status.playerIds⟩ := by
  have hkeeps := Server.contract MatchService.handle_meets hrun (.nil _)
  have hanswered : request.Answered (Server.past t.log i) response := hkeeps.thread i _ hthread
  rw [hanswered.status] at hstatus
  obtain ⟨⟨playerId, snapshot⟩, hlast, rfl⟩ := Option.map_eq_some_iff.mp hstatus
  obtain ⟨made, hmade, hshown⟩ := List.mem_filterMap.mp (List.mem_of_getLast? hlast)
  obtain ⟨e, he, hi, rfl⟩ := Server.mem_past.mp hmade
  have hseated := (honest_of_run hrun).told e he playerId snapshot hshown (toProtoState_eq_matched.mp hmatched)
  obtain rfl : playerId = request.playerId := by
    obtain ⟨pre, post, hlog⟩ := List.append_of_mem he
    obtain ⟨request', hrequest, hmay⟩ := hkeeps.log pre e post hlog
    rw [Server.State.request?, hi, hthread] at hrequest
    obtain rfl := Option.some.inj hrequest
    exact player_of_shown hshown hmay
  exact hseated

/-- **Every request is answered as its method says**, in every run — and whoever is told of a match is one of a
pair, for which Room made the room. -/
theorem answered_of_run (hrun : Run (matchServer c stores).Step { world := {} } ops t) {i : Nat} {request : Request}
    {response : Response} (hthread : t.threads[i]? = some ⟨request, .ret response⟩) :
    request.Answered (Server.past t.log i) response ∧
      ∀ status, response.status = some status → status.state = .matched →
        t.world.backend.Seated request.playerId ⟨status.matchId, status.roomId, status.playerIds⟩ :=
  ⟨(Server.contract MatchService.handle_meets hrun (.nil _)).thread i _ hthread,
    fun _ hstatus hmatched => seated_of_run hrun hthread hstatus hmatched⟩

/-- A step of a thread of the queue. -/
abbrev pc (thread : Nat) (answer : Answer) (call : Call) : Server.Op Request MatchOracle Backend.Op :=
  .happen (.matching (.resume thread answer) call)

/-- A player comes, and waits. -/
def firstComes : List (Server.Op Request MatchOracle Backend.Op) :=
  [.start ⟨.enqueueMatch, "q-1", "p-0001"⟩, .resume 0 ⟨100, .queued⟩, .resume 0 {}, pc 0 {} {}, pc 0 {} {}, pc 0 {} {},
    pc 0 {} {}, .resume 0 {}, .resume 0 {}, .resume 0 {}, pc 1 {} {}, .resume 0 {}, .resume 0 {}, pc 2 {} {},
    .resume 0 {}, .resume 0 {}]

/-- Another comes, and is matched at once. -/
def secondComes : List (Server.Op Request MatchOracle Backend.Op) :=
  [.start ⟨.enqueueMatch, "q-2", "p-0002"⟩, .resume 1 ⟨200, .queued⟩, .resume 1 {}, pc 3 {} {}, pc 3 {} {},
    pc 3 { ids := ["m-1"] } {}, pc 3 {} {}, pc 3 {} ⟨200, "r-1", .done⟩, pc 3 {} {}, pc 3 {} {}, pc 3 {} {},
    .resume 1 {}, .resume 1 {}, .resume 1 {}, pc 4 {} {}, .resume 1 {}, .resume 1 {}, .resume 1 {}, pc 5 {} {},
    .resume 1 {}, .resume 1 {}]

theorem answered_of_run_secondComes :
    let t := (matchServer {} Room.RoomSystem.mysqlStores).after { world := {} } (firstComes ++ secondComes)
    let request : Request := ⟨.enqueueMatch, "q-2", "p-0002"⟩
    let response : Response := { status := some ⟨.matched, "q-2", "m-1", "r-1", ["p-0001", "p-0002"], 200, 0⟩ }
    request.Answered (Server.past t.log 1) response ∧
      ∀ status, response.status = some status → status.state = .matched →
        t.world.backend.Seated request.playerId ⟨status.matchId, status.roomId, status.playerIds⟩ :=
  answered_of_run (Server.Admitted.run (by decide +kernel)) (Server.State.thread_of_ended? (by decide +kernel))

end MatchWorld

end RealtimeGame.Match
