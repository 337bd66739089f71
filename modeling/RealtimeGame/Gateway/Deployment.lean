import RealtimeGame.Gateway.BrpcMatchClient
import RealtimeGame.Gateway.Seats
import RealtimeGame.Match.MatchServer

/-!
# Gateway/Deployment — the Gateway on its stores, on Match and on Room

The Gateway calls Match, Match calls Room, and Room is the one that the Gateway calls.  A call to Match is answered
by a method of Match that has ended, of the same request, or by nobody; the method may have begun earlier, which
adds runs and takes none away.  Seen from the Gateway this is the Gateway on any Match (`refines_gateway`), and seen
from Match it is Match with some Gateway (`matching_of_run`); so what holds of either in every run holds here, and
with both, what a player is told of a match is so (`told_match`, `told_agree`).
-/

open Library RealtimeGame.Common

namespace RealtimeGame.Gateway

/-! ## The world

Match with all its threads, the sessions, and Room, which both services call. -/

/-- Match with its requests. -/
abbrev Matching : Type :=
  Server.State Match.MatchService.QueueAnswer Match.MatchService.Request Match.MatchService.Response
    Match.MatchOracle Match.MatchWorld

structure DeploymentWorld where
  draining : Bool := false
  sessions : World := .start
  matching : Matching := { world := {} }

/-- What happens without a request to the Gateway; the requests to Match come by the network. -/
inductive DeploymentEvent
  | beginShutdown
  | elapse (ms : Nat)
  | matching (op : Server.Op Match.MatchService.Request Match.MatchOracle Match.Backend.Op)

/-- What the deployment is configured with. -/
structure DeploymentConfig extends GatewayConfig where
  queue : Match.MatchConfig

namespace DeploymentWorld

variable (w : DeploymentWorld)

/-- What the Gateway sees. -/
def gateway : GatewayWorld := ⟨w.draining, w.sessions, w.matching.world.backend.rooms⟩

def withRooms (rooms : Room.RoomSystem) : Matching :=
  { w.matching with world := { w.matching.world with backend := { w.matching.world.backend with rooms } } }

def withGateway (g : GatewayWorld) : DeploymentWorld := ⟨g.draining, g.sessions, w.withRooms g.rooms⟩

/-- The responses of the methods of Match that have ended, to this request. -/
def replies (request : Match.MatchService.Request) : List Match.MatchService.Response :=
  ((List.range w.matching.threads.length).filterMap w.matching.ended?).filterMap fun ended =>
    if ended.1 = request then some ended.2 else none

/-- The call is answered by one of them, or by nobody. -/
def Replied (request : Match.MatchService.Request) (answer : MatchCallStatus × MatchSnapshot) : Prop :=
  answer ∈ (none :: (w.replies request).map some).map BrpcMatchClient.told

instance (request : Match.MatchService.Request) (answer : MatchCallStatus × MatchSnapshot) :
    Decidable (w.Replied request answer) := inferInstanceAs (Decidable (_ ∈ _))

/-- What can be replied is the response of a method that has ended. -/
theorem mem_replies {w : DeploymentWorld} {request : Match.MatchService.Request}
    {response : Match.MatchService.Response} (h : response ∈ w.replies request) :
    ∃ j : Nat, w.matching.threads[j]? = some ⟨request, .ret response⟩ := by
  obtain ⟨⟨request', response'⟩, hended, hsome⟩ := List.mem_filterMap.mp h
  obtain ⟨j, -, hj⟩ := List.mem_filterMap.mp hended
  obtain ⟨heq, hresponse⟩ := Option.ite_none_right_eq_some.mp hsome
  obtain rfl : request' = request := heq
  obtain rfl : response' = response := Option.some.inj hresponse
  exact ⟨j, Server.State.thread_of_ended? hj⟩

end DeploymentWorld

/-! ## The server

A call of the Gateway to Match is a thread of Match that has ended; the calls to Room are as before. -/

/-- The request that a call to Match sends. -/
def sends : GatewayCall → Option Match.MatchService.Request
  | .enqueue playerId requestId => some (BrpcMatchClient.enqueue playerId requestId)
  | .getStatus playerId => some (BrpcMatchClient.getStatus playerId)
  | .cancel playerId requestId => some (BrpcMatchClient.cancel playerId requestId)
  | _ => none

namespace DeploymentConfig

variable (d : DeploymentConfig)

def matchServer : Server Match.MatchService.QueueAnswer Match.MatchService.Request Match.MatchService.Response
    Match.MatchOracle Match.Backend.Op Match.MatchWorld := Match.matchServer d.queue d.stores

/-- **One call**, as the Gateway makes it. -/
def perform (call : GatewayCall) (o : Oracle) (w : DeploymentWorld) : GatewayAnswer call × DeploymentWorld :=
  ((d.toGatewayConfig.perform call o w.gateway).1, w.withGateway (d.toGatewayConfig.perform call o w.gateway).2)

def admits (call : GatewayCall) (o : Oracle) (w : DeploymentWorld) : Prop :=
  GatewayConfig.admits call o w.gateway ∧ ∀ request ∈ sends call, w.Replied request o.matching

def happen : DeploymentEvent → DeploymentWorld → DeploymentWorld
  | .beginShutdown, w => { w with draining := true }
  | .elapse ms, w => { w with sessions := w.sessions.next d.sessions (.elapse ms) }
  | .matching op, w => { w with matching := d.matchServer.next w.matching op }

/-- A call of Room that only the Gateway makes. -/
def played : Server.Op Match.MatchService.Request Match.MatchOracle Match.Backend.Op → Bool
  | .happen (.room a) => GatewayConfig.played a
  | _ => false

def occurs : DeploymentEvent → DeploymentWorld → Prop
  | .matching op, w => d.matchServer.Admits w.matching op ∧ played op = false
  | _, _ => True

/-- **The deployment.** -/
def server : Server GatewayAnswer Request Response Oracle DeploymentEvent DeploymentWorld where
  program := d.service.handle
  perform := d.perform
  admits := admits
  happen := d.happen
  occurs := d.occurs

instance (call : GatewayCall) (o : Oracle) (w : DeploymentWorld) : Decidable (d.server.admits call o w) :=
  inferInstanceAs (Decidable (_ ∧ ∀ request ∈ sends call, w.Replied request o.matching))

instance (call : Match.MatchService.QueueCall) (o : Match.MatchOracle) (w : Match.MatchWorld) :
    Decidable (d.matchServer.admits call o w) := inferInstanceAs (Decidable (Match.MatchWorld.admits call o w))

instance (op : Match.Backend.Op) (w : Match.MatchWorld) : Decidable (d.matchServer.occurs op w) :=
  inferInstanceAs (Decidable (Match.MatchWorld.occurs op w))

instance (event : DeploymentEvent) (w : DeploymentWorld) : Decidable (d.server.occurs event w) :=
  match event with
  | .matching op => inferInstanceAs (Decidable (d.matchServer.Admits w.matching op ∧ played op = false))
  | .beginShutdown | .elapse _ => .isTrue trivial

/-! ## Seen from the Gateway

What the Gateway sees of a step of Match is an event of its world: something happens to Room. -/

variable {d}

/-- What a step of Match does to Room: nothing, or something that no player asks for. -/
theorem rooms_matching {s t : Matching} {op : Server.Op Match.MatchService.Request Match.MatchOracle Match.Backend.Op}
    (hstep : d.matchServer.Step s op t) (hplayed : played op = false) :
    t.world.backend.rooms = s.world.backend.rooms ∨ ∃ a, GatewayConfig.played a = false ∧
      s.world.backend.rooms.Fresh a ∧
      t.world.backend.rooms = s.world.backend.rooms.next d.stores a := by
  obtain ⟨hadmits, rfl⟩ := hstep
  cases op with
  | start => exact .inl rfl
  | resume i o =>
    refine .inl ?_
    simp only [Server.next]
    split
    · exact Match.MatchWorld.rooms_perform _ o s.world
    · rfl
  | happen op =>
    rcases Match.Backend.rooms_next d.queue d.stores op hadmits.1 with hsame | ⟨a, ha, hop, hnext⟩
    · exact .inl hsame
    · refine .inr ⟨a, ?_, ha, hnext⟩
      rcases hop with rfl | hcreate
      · exact hplayed
      · cases a with
        | create => rfl
        | _ => cases hcreate

/-- **Seen from the Gateway**, the deployment is a Gateway with some Match. -/
theorem refines_gateway (d : DeploymentConfig) :
    Server.Refines d.server d.toGatewayConfig.server DeploymentWorld.gateway where
  program := rfl
  perform _ _ _ := rfl
  admits _ _ _ h := h.1
  happen event w hoccurs := by
    cases event with
    | beginShutdown => exact ⟨[.beginShutdown], .single ⟨trivial, rfl⟩⟩
    | elapse ms => exact ⟨[.elapse ms], .single ⟨trivial, rfl⟩⟩
    | matching op =>
      obtain ⟨hadmits, hplayed⟩ := hoccurs
      rcases rooms_matching ⟨hadmits, rfl⟩ hplayed with hsame | ⟨a, ha, hfresh, hnext⟩
      · refine ⟨[], Run.nil_iff.mpr ?_⟩
        simp only [server, happen, DeploymentWorld.gateway, hsame]
      · refine ⟨[.room a], .single ⟨⟨ha, hfresh⟩, ?_⟩⟩
        simp only [server, happen, DeploymentWorld.gateway, hnext]
        rfl

/-! ## Seen from Match

What Match sees of a step of the Gateway is an operation of its backend. -/

/-- What a call of the Gateway does to Room: nothing, or something that makes no room. -/
theorem rooms_perform (call : GatewayCall) (o : Oracle) (g : GatewayWorld) :
    (d.toGatewayConfig.perform call o g).2.rooms = g.rooms ∨ ∃ a, Match.Backend.isCreate a = false ∧
      (d.toGatewayConfig.perform call o g).2.rooms = g.rooms.next d.stores a := by
  cases call with
  | join | submitAttack | getState => exact (GatewayConfig.callRoom_rooms ..).imp_right fun h => ⟨_, rfl, h⟩
  | _ => exact .inl rfl

variable {ops : List (Server.Op Request Oracle DeploymentEvent)}
  {s t : Server.State GatewayAnswer Request Response Oracle DeploymentWorld}

/-- A step of the deployment is a step of Match, or leaves Match alone. -/
theorem matching_step {op : Server.Op Request Oracle DeploymentEvent} (hstep : d.server.Step s op t) :
    ∃ ops, Run d.matchServer.Step s.world.matching ops t.world.matching := by
  rcases hstep.cases with ⟨request, rfl⟩ | ⟨i, o, request, call, rest, -, -, rfl⟩ | ⟨event, hoccurs, rfl⟩ | rfl
  · exact ⟨[], .nil _⟩
  · have hmatching : (d.server.perform call o s.world).2.matching =
        s.world.withRooms (d.toGatewayConfig.perform call o s.world.gateway).2.rooms := rfl
    dsimp only
    rw [hmatching]
    rcases rooms_perform (d := d) call o s.world.gateway with hsame | ⟨a, ha, hnext⟩
    · rw [hsame]
      exact ⟨[], .nil _⟩
    · rw [hnext]
      exact ⟨[.happen (.room a)], .single ⟨⟨ha, trivial, rfl⟩, rfl⟩⟩
  · cases event with
    | beginShutdown => exact ⟨[], .nil _⟩
    | elapse ms => exact ⟨[], .nil _⟩
    | matching op => exact ⟨[op], .single ⟨hoccurs.1, rfl⟩⟩
  · exact ⟨[], .nil _⟩

/-- **Seen from Match**, it is Match with some Gateway. -/
theorem matching_of_run (hrun : Run d.server.Step { world := {} } ops t) :
    ∃ ops', Run d.matchServer.Step { world := {} } ops' t.world.matching :=
  hrun.simulation (f := fun s => s.world.matching) fun _ _ _ hstep => matching_step hstep

/-! ## What players are told

Both views of one run together: what was told was replied, and what was replied is so. -/

/-- **Replied** — whatever the Gateway was told of a match, a method of Match ended with it. -/
def Replied (w : DeploymentWorld) (log : Log) : Prop :=
  ∀ e ∈ log, ∀ p snapshot, tells e.made = some (p, snapshot) → ∃ (j : Nat) (request : Match.MatchService.Request)
    (response : Match.MatchService.Response), w.matching.threads[j]? = some ⟨request, .ret response⟩ ∧
      request.playerId = p ∧ BrpcMatchClient.told (some response) = (.ok, snapshot)

/-- A call to Match that is answered. -/
theorem replied_of_tells {call : GatewayCall} {o : Oracle} {w : DeploymentWorld} (hadmits : admits call o w)
    {p : String} {snapshot : MatchSnapshot} (htells : tells ⟨call, (d.perform call o w).1⟩ = some (p, snapshot)) :
    ∃ (j : Nat) (request : Match.MatchService.Request) (response : Match.MatchService.Response),
      w.matching.threads[j]? = some ⟨request, .ret response⟩ ∧ request.playerId = p ∧
        BrpcMatchClient.told (some response) = (.ok, snapshot) := by
  obtain ⟨request, hsends, hplayer, hanswer⟩ : ∃ request, sends call = some request ∧ request.playerId = p ∧
      o.matching = (.ok, snapshot) := by
    rcases tells_eq_some htells with ⟨requestId, hmade⟩ | hmade | ⟨requestId, hmade⟩
    all_goals
      obtain ⟨rfl, hanswer⟩ := Sigma.mk.inj hmade
      exact ⟨_, rfl, rfl, eq_of_heq hanswer⟩
  obtain ⟨reply, hreply, htold⟩ := List.mem_map.mp (hadmits.2 request hsends)
  rw [hanswer] at htold
  rcases List.mem_cons.mp hreply with rfl | hreply
  · cases htold
  · obtain ⟨response, hresponse, rfl⟩ := List.mem_map.mp hreply
    obtain ⟨j, hj⟩ := DeploymentWorld.mem_replies hresponse
    exact ⟨j, request, response, hj, hplayer, htold⟩

/-- **In every run** what Match tells was replied by it. -/
theorem replied_of_run (hrun : Run d.server.Step { world := {} } ops t) : Replied t.world t.log := by
  refine Server.invariant (handle_meets d.service) (I := Replied) (fun w log i request call o h _ hadmits => ?_)
    (fun w log event h hoccurs => ?_) hrun (.nil _) (by rintro e ⟨⟩)
  · intro e he p snapshot htells
    rcases List.mem_append.mp he with he | he
    · exact h e he p snapshot htells
    · obtain rfl := List.mem_singleton.mp he
      exact replied_of_tells hadmits htells
  · intro e he p snapshot htells
    obtain ⟨j, request, response, hj, hrest⟩ := h e he p snapshot htells
    refine ⟨j, request, response, ?_, hrest⟩
    cases event with
    | beginShutdown => exact hj
    | elapse ms => exact hj
    | matching op => exact Server.Step.finished ⟨hoccurs.1, rfl⟩ hj

theorem matchStateName_eq_matched {state : MatchState} : matchStateName state = "matched" ↔ state = .matched := by
  cases state <;> decide

/-- **Whoever is told of a match** has logged in, and is seated. -/
theorem seated_of_told (hrun : Run d.server.Step { world := {} } ops t) {i : Nat} {request : Request}
    {response : Response} (hthread : t.threads[i]? = some ⟨request, .ret response⟩) {info : Proto.MatchStatusInfo}
    (hinfo : response.matchInfo = some info) (hmatched : info.state = "matched") :
    ∃ playerId,
      GatewayConfig.LoggedIn d.toGatewayConfig (t.map DeploymentWorld.gateway) t.log request.tokenOf playerId ∧
      t.world.matching.world.backend.Seated playerId ⟨info.matchId, info.roomId, info.playerIds⟩ := by
  have hkeeps := Server.contract (handle_meets d.service) hrun (.nil _)
  have hfinished : request.Finished (Server.past t.log i) response := hkeeps.thread i _ hthread
  obtain ⟨made, hmade, playerId, snapshot, htells, rfl⟩ := hfinished.sourced.matchInfo info hinfo
  obtain ⟨e, he, rfl, rfl⟩ := Server.mem_past.mp hmade
  refine ⟨playerId, ?_, ?_⟩
  · obtain ⟨pre, rest, hlog⟩ := List.append_of_mem he
    obtain ⟨request', hrequest, hmay⟩ := hkeeps.log pre e rest hlog
    rw [Server.State.request?, hthread] at hrequest
    obtain rfl := Option.some.inj hrequest
    obtain ⟨ops', hrun'⟩ := (refines_gateway d).run hrun
    have hacts : GatewayConfig.actsFor e.made.1 = some playerId := by
      rcases tells_eq_some htells with ⟨requestId, heq⟩ | heq | ⟨requestId, heq⟩ <;> rw [heq] <;> rfl
    have hauthorized := GatewayConfig.authorized_of_actsFor hacts hmay
    refine (GatewayConfig.loggedIn_of_authorized hrun' hlog hauthorized).mono ?_
    rw [hlog]
    exact List.subset_append_left ..
  · obtain ⟨j, mrequest, mresponse, hj, rfl, htold⟩ := replied_of_run hrun e he playerId snapshot htells
    obtain ⟨response', status, heq, hstatus, hstate, hid, hroom, hplayers⟩ :=
      BrpcMatchClient.matched_of_told htold (matchStateName_eq_matched.mp hmatched)
    obtain rfl := Option.some.inj heq
    obtain ⟨ops', hrun'⟩ := matching_of_run hrun
    have hseated := Match.MatchWorld.seated_of_run hrun' hj hstatus hstate
    rw [← hid, ← hroom, ← hplayers] at hseated
    exact hseated

/-- **What a player is told of a match is so** — in every run of the three services, whatever replies are lost and
however often Match is restarted, a response that tells of a match is to somebody who has logged in as one of its
two players; Room made the room for this match, and while it is there the players in it are the two of the
response; as long as the game is not over, `Join` accepts exactly these. -/
theorem told_match (hrun : Run d.server.Step { world := {} } ops t) {i : Nat} {request : Request}
    {response : Response} (hthread : t.threads[i]? = some ⟨request, .ret response⟩) {info : Proto.MatchStatusInfo}
    (hinfo : response.matchInfo = some info) (hmatched : info.state = "matched") :
    (∃ playerId ∈ info.playerIds,
      GatewayConfig.LoggedIn d.toGatewayConfig (t.map DeploymentWorld.gateway) t.log request.tokenOf playerId) ∧
    Match.IsPair info.playerIds ∧
    t.world.gateway.rooms.created.lookup info.roomId = some info.matchId ∧
    ∀ r, t.world.gateway.rooms.room? info.roomId = some r → r.playerIds = info.playerIds ∧
      (r.phase.unfinished = true → ∀ nowMs q, (r.join nowMs q).1 = .ok ↔ q ∈ info.playerIds) := by
  obtain ⟨playerId, hlogin, hmember, hpair, hosts⟩ := seated_of_told hrun hthread hinfo hmatched
  obtain ⟨ops', hrun'⟩ := matching_of_run hrun
  have hcast := (Match.MatchWorld.honest_of_run hrun').orderly.cast
  refine ⟨⟨playerId, hmember, hlogin⟩, hpair, ?_, fun r hr => ?_⟩
  · obtain ⟨group, -, heq, hmade⟩ := hosts
    rw [(Match.Pairing.mk.inj heq).1]
    exact hmade
  · have hsame : r.playerIds = info.playerIds := hcast.of_hosts hosts hr
    refine ⟨hsame, fun hphase nowMs q => ?_⟩
    rw [← hsame]
    exact Match.Backend.join_ok_iff hphase (Match.MatchWorld.admitting_of_run hrun' _ r hr) nowMs q

/-- **Whoever is told of a match is told the same** — in every run of the three services, two responses tell of one
match exactly if they tell of one room, and then of the same two players. -/
theorem told_agree (hrun : Run d.server.Step { world := {} } ops t) {i j : Nat} {request request' : Request}
    {response response' : Response} (hthread : t.threads[i]? = some ⟨request, .ret response⟩)
    (hthread' : t.threads[j]? = some ⟨request', .ret response'⟩) {info info' : Proto.MatchStatusInfo}
    (hinfo : response.matchInfo = some info) (hinfo' : response'.matchInfo = some info')
    (hmatched : info.state = "matched") (hmatched' : info'.state = "matched") :
    (info.matchId = info'.matchId ↔ info.roomId = info'.roomId) ∧
      (info.matchId = info'.matchId → info.playerIds = info'.playerIds) := by
  obtain ⟨playerId, -, hseated⟩ := seated_of_told hrun hthread hinfo hmatched
  obtain ⟨playerId', -, hseated'⟩ := seated_of_told hrun hthread' hinfo' hmatched'
  obtain ⟨ops', hrun'⟩ := matching_of_run hrun
  exact hseated.agree (Match.MatchWorld.honest_of_run hrun').orderly hseated'

/-! Alice and Bob log in and ask for a match; Bob is told of it at once, and Alice when she asks again. -/

def devDeployment : DeploymentConfig := { GatewayConfig.devGateway with queue := {} }

/-- What the two are told. -/
def meetingSnapshot : MatchSnapshot := ⟨.matched, "m-1", "r-1", ["p-0001", "p-0002"], 200, 0⟩

def logins : List (Server.Op Request Oracle DeploymentEvent) :=
  .start GatewayConfig.aliceLogin :: List.replicate 4 (.resume 0 GatewayConfig.aliceOracle) ++
    .start GatewayConfig.bobLogin :: List.replicate 4 (.resume 1 GatewayConfig.bobOracle)

def meeting : List (Server.Op Request Oracle DeploymentEvent) :=
  logins ++
  [.start { method := .enqueueMatch, token := "t1", requestId := "q-1" }, .resume 2 {}, .resume 2 {}] ++
  Match.MatchWorld.firstComes.map (fun op => .happen (.matching op)) ++
  [.resume 2 { matching := (.ok, { state := .queued, queuedAtMs := 100, queueSize := 1 }) }, .resume 2 {}, .resume 2 {},
    .start { method := .enqueueMatch, token := "t2", requestId := "q-2" }, .resume 3 {}, .resume 3 {}] ++
  Match.MatchWorld.secondComes.map (fun op => .happen (.matching op)) ++
  [.resume 3 { matching := (.ok, meetingSnapshot) }, .resume 3 {}, .resume 3 {},
    .start { method := .getMatchStatus, token := "t1" }, .resume 4 {},
    .happen (.matching (.start ⟨.getMatchStatus, "", "p-0001"⟩)), .happen (.matching (.resume 2 ⟨300, .queued⟩)),
    .happen (.matching (.resume 2 {})), .happen (.matching (Match.MatchWorld.pc 6 {} {})),
    .happen (.matching (.resume 2 {})),
    .resume 4 { matching := (.ok, { meetingSnapshot with queuedAtMs := 100 }) }, .resume 4 {}]

theorem run_meeting : Run devDeployment.server.Step { world := {} } meeting
    (devDeployment.server.after { world := {} } meeting) := Server.Admitted.run (by decide +kernel)

/-- What the response of a thread that has ended tells of a match. -/
def matchInfo? (t : Server.State GatewayAnswer Request Response Oracle DeploymentWorld) (i : Nat) :
    Option Proto.MatchStatusInfo := (t.ended? i).bind (·.2.matchInfo)

theorem exists_of_matchInfo? {i : Nat} {info : Proto.MatchStatusInfo} (h : matchInfo? t i = some info) :
    ∃ request response, t.threads[i]? = some ⟨request, .ret response⟩ ∧ response.matchInfo = some info := by
  obtain ⟨⟨request, response⟩, hended, hinfo⟩ := Option.bind_eq_some_iff.mp h
  exact ⟨request, response, Server.State.thread_of_ended? hended, hinfo⟩

theorem told_match_meeting :
    let t := devDeployment.server.after { world := {} } meeting
    let info := fillMatchStatus meetingSnapshot
    ∃ request : Request, ((∃ playerId ∈ info.playerIds, GatewayConfig.LoggedIn devDeployment.toGatewayConfig
        (t.map DeploymentWorld.gateway) t.log request.tokenOf playerId) ∧ Match.IsPair info.playerIds ∧
      t.world.gateway.rooms.created.lookup info.roomId = some info.matchId ∧
      ∀ r, t.world.gateway.rooms.room? info.roomId = some r → r.playerIds = info.playerIds ∧
        (r.phase.unfinished = true → ∀ nowMs q, (r.join nowMs q).1 = .ok ↔ q ∈ info.playerIds)) := by
  have hbob : matchInfo? (devDeployment.server.after { world := {} } meeting) 3 =
      some (fillMatchStatus meetingSnapshot) := by decide +kernel
  obtain ⟨request, response, hthread, hinfo⟩ := exists_of_matchInfo? hbob
  exact ⟨request, told_match run_meeting hthread hinfo rfl⟩

theorem told_agree_meeting :
    let t := devDeployment.server.after { world := {} } meeting
    ∃ info info', matchInfo? t 3 = some info ∧ matchInfo? t 4 = some info' ∧ info ≠ info' ∧
      (info.matchId = info'.matchId ↔ info.roomId = info'.roomId) ∧
      (info.matchId = info'.matchId → info.playerIds = info'.playerIds) := by
  have hbob : matchInfo? (devDeployment.server.after { world := {} } meeting) 3 =
      some (fillMatchStatus meetingSnapshot) := by decide +kernel
  have halice : matchInfo? (devDeployment.server.after { world := {} } meeting) 4 =
      some (fillMatchStatus { meetingSnapshot with queuedAtMs := 100 }) := by decide +kernel
  obtain ⟨request, response, hthread, hinfo⟩ := exists_of_matchInfo? hbob
  obtain ⟨request', response', hthread', hinfo'⟩ := exists_of_matchInfo? halice
  exact ⟨_, _, hbob, halice, by decide, told_agree run_meeting hthread hthread' hinfo hinfo' rfl rfl⟩

end DeploymentConfig

end RealtimeGame.Gateway
