import RealtimeGame.Gateway.Identity
import RealtimeGame.Room.Earned

/-!
# Gateway/Seats — whose room it is

What the Gateway asks of Room for a player it asks for a request whose token was made for a login of his.  So the
places that are taken and the hit points that are lost go back to such requests (`played_by_login`), and the one
for whom the pushes of a room are let in is one of its players for as long as the room is there
(`watched_by_players`).  Who holds the token is another matter: a login hands it out to everybody who repeats its
request id.
-/

open Library RealtimeGame.Common

namespace RealtimeGame.Gateway

namespace GatewayConfig

variable {c : GatewayConfig} {w : GatewayWorld} {log : Log} {call : GatewayCall} {o : Oracle} {x id : String}

/-! ## What was asked of Room

Only two calls seat a player or strike for him, and every other call leaves the seats as they are. -/

/-- The joining of a room for a player. -/
def joins (x id : String) (e : Server.Entry GatewayAnswer Oracle) : Bool :=
  match e.made.1 with
  | .join roomId playerId _ => roomId = x && playerId = id
  | _ => false

/-- An attack in a room for a player. -/
def attacksAs (x id : String) (e : Server.Entry GatewayAnswer Oracle) : Bool :=
  match e.made.1 with
  | .submitAttack roomId playerId _ => roomId = x && playerId = id
  | _ => false

/-- The players of a room, as Room showed them. -/
def shows (e : Server.Entry GatewayAnswer Oracle) : Option (String × List String) :=
  match e.made with
  | ⟨.getState roomId _, (.ok, snapshot)⟩ => some (roomId, snapshot.players.map (·.playerId))
  | _ => none

/-- A join is asked for one player and one room, -/
theorem joins_iff {e : Server.Entry GatewayAnswer Oracle} :
    joins x id e = true ↔ ∃ requestId, e.made.1 = .join x id requestId := by
  rw [joins]
  split
  case h_1 roomId playerId requestId h => simp [h]
  case h_2 h => exact iff_of_false Bool.false_ne_true fun hex => h _ _ _ hex.choose_spec

/-- …and so is an attack. -/
theorem attacksAs_iff {e : Server.Entry GatewayAnswer Oracle} :
    attacksAs x id e = true ↔ ∃ requestId, e.made.1 = .submitAttack x id requestId := by
  rw [attacksAs]
  split
  case h_1 roomId playerId requestId h => simp [h]
  case h_2 h => exact iff_of_false Bool.false_ne_true fun hex => h _ _ _ hex.choose_spec

/-- Room shows its players in one answer only. -/
theorem shows_eq_some {made : Made} {i : Nat} {ids : List String} (h : shows ⟨i, o, made⟩ = some (x, ids)) :
    ∃ requestId snapshot, made = ⟨.getState x requestId, (.ok, snapshot)⟩ ∧
      ids = snapshot.players.map (·.playerId) := by
  unfold shows at h
  split at h
  case h_1 roomId requestId snapshot heq =>
    cases h
    exact ⟨requestId, snapshot, heq, rfl⟩
  case h_2 => cases h

/-- A request to Room takes its effect once, or is lost on the way. -/
theorem callRoom_rooms (c : GatewayConfig)
    (client : Option Room.Proto.RoomResponse → BrpcRoomClient.Outcome RoomSnapshot) (fate : Fate)
    (response : Room.RoomService.Response) (action : Room.Action) (w : GatewayWorld) :
    (c.callRoom client fate response action w).2.rooms = w.rooms ∨
      (c.callRoom client fate response action w).2.rooms = w.rooms.next c.stores action := by
  cases fate with
  | requestLost => exact .inl rfl
  | answered | replyLost => exact .inr rfl

/-- What a call does to Room: nothing, or what it asks for. -/
theorem rooms_perform (c : GatewayConfig) (call : GatewayCall) (o : Oracle) (w : GatewayWorld) :
    (c.perform call o w).2.rooms = w.rooms ∨
      ∃ a, (c.perform call o w).2.rooms = w.rooms.next c.stores a ∧ w.rooms.Fresh a ∧
        (∀ x id nowMs, a = .join x id nowMs → ∃ requestId, call = .join x id requestId) ∧
        ∀ x id kind, a = .submitInput x id kind → ∃ requestId, call = .submitAttack x id requestId := by
  cases call with
  | join roomId playerId requestId =>
    refine (c.callRoom_rooms ..).imp_right fun h => ⟨.join roomId playerId o.nowMs, h, trivial, ?_, ?_⟩
    · rintro x id nowMs ⟨⟩
      exact ⟨requestId, rfl⟩
    · rintro x id kind ⟨⟩
  | submitAttack roomId playerId requestId =>
    refine (c.callRoom_rooms ..).imp_right fun h => ⟨.submitInput roomId playerId .attack, h, trivial, ?_, ?_⟩
    · rintro x id nowMs ⟨⟩
    · rintro x id kind ⟨⟩
      exact ⟨requestId, rfl⟩
  | getState roomId requestId =>
    refine (c.callRoom_rooms ..).imp_right fun h => ⟨.getState roomId o.nowMs, h, trivial, ?_, ?_⟩
    · rintro x id nowMs ⟨⟩
    · rintro x id kind ⟨⟩
  | _ => exact .inl rfl

/-- The answer of `GetRoomState` to a client that gets it. -/
theorem read_getRoomState {m : Room.RoomManager} {nowMs : Int} {requestId : String} {snapshot : RoomSnapshot}
    (hcode : (Room.RoomService.getRoomState m nowMs x requestId).1.read.code = .unspecified)
    (hroom : snapshot = toSnapshot (Room.RoomService.getRoomState m nowMs x requestId).1.read.room) :
    ∃ r, (m.reapExpired nowMs).rooms.lookup x = some r ∧ snapshot = toSnapshot (Room.fillSnapshot r.snapshot) := by
  unfold Room.RoomService.getRoomState Room.RoomManager.getState at hcode hroom
  dsimp only at hcode hroom
  rcases hlookup : (m.reapExpired nowMs).rooms.lookup x with - | r
  · rw [hlookup] at hcode
    cases hcode
  · rw [hlookup] at hroom
    exact ⟨r, rfl, hroom⟩

/-- What Room shows is what it has. -/
theorem shown_perform {requestId : String} {snapshot : RoomSnapshot}
    (h : (c.perform (.getState x requestId) o w).1 = (.ok, snapshot)) :
    ∃ r, (c.perform (.getState x requestId) o w).2.rooms.room? x = some r ∧
      r.playerIds = snapshot.players.map (·.playerId) := by
  rw [perform] at h ⊢
  cases hfate : o.fates 0 with
  | requestLost | replyLost =>
    rw [hfate] at h
    cases h
  | answered =>
    rw [hfate, callRoom] at h
    obtain ⟨hstatus, hout⟩ := Prod.mk.inj h
    obtain ⟨r, hr, hsnapshot⟩ := read_getRoomState (BrpcRoomClient.toCallStatus_eq_ok.mp hstatus) hout.symm
    refine ⟨r, hr, ?_⟩
    rw [hsnapshot, Room.BattleRoom.playerIds]
    simp [toSnapshot, Room.fillSnapshot, Room.BattleRoom.snapshot]

/-! ## Room, and the calls that reached it

A reply may be lost, or the request; so Room has at most what was asked for. -/

/-- A player's joining of a room. -/
def Joined (log : Log) (x id : String) : Prop := ∃ e ∈ log, joins x id e = true

def attacks (log : Log) (x id : String) : Nat := log.countP (attacksAs x id)

/-- **Seated** — the rooms owe everything that happened to their places to the calls of their players, and the
rooms that were shown have the players that they were shown with. -/
structure Seated (w : GatewayWorld) (log : Log) : Prop where
  registered : w.rooms.Registered
  earned : ∀ x r, w.rooms.room? x = some r → r.Earned (Joined log x) (attacks log x)
  shown : ∀ e ∈ log, ∀ x ids, shows e = some (x, ids) →
    x ∈ w.rooms.created ∧ ∀ r, w.rooms.room? x = some r → r.playerIds = ids

variable {e : Server.Entry GatewayAnswer Oracle}

theorem Joined.mono {log' : Log} (h : Joined log x id) (hsubset : log ⊆ log') : Joined log' x id := by
  obtain ⟨e, he, hjoins⟩ := h
  exact ⟨e, hsubset he, hjoins⟩

/-- An attack is counted when it is asked for. -/
theorem attacks_snoc (log : Log) (e : Server.Entry GatewayAnswer Oracle) (x id : String) :
    attacks (log ++ [e]) x id = attacks log x id + if attacksAs x id e then 1 else 0 := by
  rw [attacks, List.countP_append, List.countP_singleton]
  rfl

theorem Seated.start : Seated {} [] where
  registered := .start
  earned x r hr := by cases hr
  shown e he := by cases he

/-- One action of Room, with the call that asked for it if a player has to. -/
theorem Seated.rooms_next (h : Seated w log) {a : Room.Action} (hfresh : w.rooms.Fresh a)
    {log' : Log} (hmono : ∀ x id, attacks log x id ≤ attacks log' x id) (hsubset : log ⊆ log')
    (hjoin : ∀ x id nowMs, a = .join x id nowMs → Joined log' x id)
    (hsubmit : ∀ x id kind, a = .submitInput x id kind → attacks log x id + 1 ≤ attacks log' x id)
    {w' : GatewayWorld} (hrooms : w'.rooms = w.rooms.next c.stores a) :
    w'.rooms.Registered ∧ (∀ x r, w'.rooms.room? x = some r → r.Earned (Joined log' x) (attacks log' x)) ∧
      ∀ e ∈ log, ∀ x ids, shows e = some (x, ids) →
        x ∈ w'.rooms.created ∧ ∀ r, w'.rooms.room? x = some r → r.playerIds = ids := by
  rw [hrooms]
  refine ⟨h.registered.act hfresh, fun x r hr => ?_, fun e he x ids hshows => ?_⟩
  · exact Room.RoomSystem.earned_next (h.earned x) (fun id hid => hid.mono hsubset) (hmono x) (hjoin x) (hsubmit x) hr
  · obtain ⟨hcreated, hids⟩ := h.shown e he x ids hshows
    refine ⟨Room.RoomSystem.Registered.created_next hcreated a, fun r' hr' => ?_⟩
    rcases hr : w.rooms.room? x with - | r
    · obtain ⟨matchId, playerIds, nowMs, rfl, -, -⟩ := Room.RoomSystem.room?_next_new hr hr'
      exact absurd hcreated hfresh
    · exact (Room.RoomSystem.playerIds_next hr hr').trans (hids r hr)

/-- The entry of a call that shows a room. -/
theorem Seated.shown_new (hregistered : (c.perform call o w).2.rooms.Registered) {i : Nat} {ids : List String}
    (hshows : shows ⟨i, o, call, (c.perform call o w).1⟩ = some (x, ids)) :
    x ∈ (c.perform call o w).2.rooms.created ∧
      ∀ r, (c.perform call o w).2.rooms.room? x = some r → r.playerIds = ids := by
  obtain ⟨requestId, snapshot, hmade, rfl⟩ := shows_eq_some hshows
  obtain ⟨rfl, hanswer⟩ := Sigma.mk.inj hmade
  obtain ⟨r, hr, hids⟩ := shown_perform (eq_of_heq hanswer)
  refine ⟨hregistered.noted x r hr, fun r' hr' => ?_⟩
  obtain rfl := Option.some.inj (hr.symm.trans hr')
  exact hids

/-- **One call.** -/
theorem Seated.perform (h : Seated w log) (i : Nat) :
    Seated (c.perform call o w).2 (log ++ [⟨i, o, call, (c.perform call o w).1⟩]) := by
  have hsubset : log ⊆ log ++ [⟨i, o, call, (c.perform call o w).1⟩] := List.subset_append_left ..
  have hmono : ∀ x id, attacks log x id ≤ attacks (log ++ [⟨i, o, call, (c.perform call o w).1⟩]) x id :=
    fun x id => by rw [attacks_snoc]; omega
  have hnext : (c.perform call o w).2.rooms.Registered ∧
      (∀ x r, (c.perform call o w).2.rooms.room? x = some r →
        r.Earned (Joined (log ++ [⟨i, o, call, (c.perform call o w).1⟩]) x)
          (attacks (log ++ [⟨i, o, call, (c.perform call o w).1⟩]) x)) ∧
      ∀ e ∈ log, ∀ x ids, shows e = some (x, ids) → x ∈ (c.perform call o w).2.rooms.created ∧
        ∀ r, (c.perform call o w).2.rooms.room? x = some r → r.playerIds = ids := by
    rcases c.rooms_perform call o w with hsame | ⟨a, hnext, hfresh, hjoin, hsubmit⟩
    · rw [hsame]
      exact ⟨h.registered, fun x r hr => (h.earned x r hr).mono (fun id hid => hid.mono hsubset) (hmono x), h.shown⟩
    · refine h.rooms_next hfresh hmono hsubset (fun x id nowMs heq => ?_) (fun x id kind heq => ?_) hnext
      · exact ⟨_, List.mem_append_right _ List.mem_cons_self, joins_iff.mpr (hjoin x id nowMs heq)⟩
      · rw [attacks_snoc, if_pos (attacksAs_iff.mpr (hsubmit x id kind heq))]
  refine ⟨hnext.1, hnext.2.1, fun e he x ids hshows => ?_⟩
  rcases List.mem_append.mp he with he | he
  · exact hnext.2.2 e he x ids hshows
  · obtain rfl := List.mem_singleton.mp he
    exact shown_new hnext.1 hshows

/-- **One event.** -/
theorem Seated.happen (h : Seated w log) {event : GatewayEvent} (hoccurs : occurs event w) :
    Seated (c.happen event w) log := by
  cases event with
  | beginShutdown | elapse => exact ⟨h.registered, h.earned, h.shown⟩
  | room action =>
    obtain ⟨hplayed, hfresh⟩ := hoccurs
    obtain ⟨hregistered, hearned, hshown⟩ := h.rooms_next hfresh
      (fun _ _ => Nat.le_refl _) (List.Subset.refl _) (by rintro x id nowMs rfl; cases hplayed)
      (by rintro x id kind rfl; cases hplayed)
      (show (c.happen (.room action) w).rooms = w.rooms.next c.stores action from rfl)
    exact ⟨hregistered, hearned, hshown⟩

variable {ops : List (Server.Op Request Oracle GatewayEvent)} {t : State}

/-- **In every run** what is played was asked for. -/
theorem seated_of_run (hrun : Run c.server.Step { world := {} } ops t) : Seated t.world t.log :=
  Server.invariant (handle_meets c.service) (I := Seated) (fun _ _ i _ _ _ h _ _ => h.perform i)
    (fun _ _ _ h hoccurs => h.happen hoccurs) hrun (.nil _) .start

/-- A call for a request whose token was made for a login of the player. -/
def ByLogin (c : GatewayConfig) (t : State) (e : Server.Entry GatewayAnswer Oracle) (id : String) : Prop :=
  ∃ request, t.request? e.thread = some request ∧ LoggedIn c t t.log request.tokenOf id

/-- A call for a player is made for a request with a token that was made for a login of his. -/
theorem byLogin_of_actsFor (hrun : Run c.server.Step { world := {} } ops t) (he : e ∈ t.log)
    (hacts : actsFor e.made.1 = some id) : ByLogin c t e id := by
  obtain ⟨pre, rest, hlog⟩ := List.append_of_mem he
  obtain ⟨request, hrequest, hmay⟩ := (keeps_of_run hrun).log pre e rest hlog
  have hlogin := loggedIn_of_authorized hrun hlog (authorized_of_actsFor hacts hmay)
  exact ⟨request, hrequest, hlogin.mono (hlog ▸ List.subset_append_left ..)⟩

/-! Alice logs in, takes her place in a room, and follows it.  Bob takes the other place, and is hit by her. -/

def aliceGame : List (Server.Op Request Oracle GatewayEvent) :=
  [.happen (.room (.create "m1" ["p-0001", "p-0002"] 1000 "r1")),
    .start aliceLogin, .resume 0 aliceOracle, .resume 0 aliceOracle, .resume 0 aliceOracle,
    .start { method := .joinRoom, token := "t1", roomId := "r1" },
    .resume 1 laterOracle, .resume 1 laterOracle, .resume 1 laterOracle,
    .start { method := .streamEvents, token := "t1", roomId := "r1", http := some { path := "/api/v1/stream" } },
    .resume 2 laterOracle, .resume 2 laterOracle, .resume 2 laterOracle,
    .resume 2 { laterOracle with attached := true }, .resume 2 { laterOracle with subscription := 1 }]

theorem run_aliceGame : Run devGateway.server.Step { world := {} } aliceGame
    (devGateway.server.after { world := {} } aliceGame) := Server.Admitted.run (by decide +kernel)

def bobLogin : Request := { method := .login, account := "bob", password := "bob_dev_pw", requestId := "r2" }

def bobOracle : Oracle := { rows := some [[some "p-0002", some "bob", some "Bob", some "active"]], token := "t2" }

def aliceFight : List (Server.Op Request Oracle GatewayEvent) := aliceGame ++
  .start bobLogin :: List.replicate 3 (.resume 3 bobOracle) ++
  .start { method := .joinRoom, token := "t2", roomId := "r1" } :: List.replicate 3 (.resume 4 { nowMs := 1010 }) ++
  .start { method := .submitInput, token := "t1", roomId := "r1" } :: List.replicate 3 (.resume 5 { nowMs := 1020 }) ++
  [.happen (.room (.tick 1100)), .happen (.room (.tick 1200))]

theorem run_aliceFight : Run devGateway.server.Step { world := {} } aliceFight
    (devGateway.server.after { world := {} } aliceFight) := Server.Admitted.run (by decide +kernel)

/-- **What is played goes back to logins** — in every run, for whoever is in a room a request asked for his place
whose token was made for a login of his; and ten hit points that a player has lost are one attack at least, of a
request whose token was made for a login of the player before him. -/
theorem played_by_login (hrun : Run c.server.Step { world := {} } ops t) {r : Room.BattleRoom}
    (hroom : t.world.rooms.room? x = some r) :
    (∀ s ∈ r.seats, s.player.connected = true → ∃ e ∈ t.log,
      (∃ requestId, e.made.1 = .join x s.player.playerId requestId) ∧ ByLogin c t e s.player.playerId) ∧
    ∀ (i : Nat) (attacker victim : Room.Seat), r.seats[i]? = some attacker →
      r.seats[(i + 1) % r.seats.length]? = some victim →
      ∃ es : Log, es.Sublist t.log ∧ Room.kInitialHp - victim.player.hp ≤ Room.kAttackDamage * es.length ∧
        ∀ e ∈ es, (∃ requestId, e.made.1 = .submitAttack x attacker.player.playerId requestId) ∧
          ByLogin c t e attacker.player.playerId := by
  have hearned := (seated_of_run hrun).earned x r hroom
  refine ⟨fun s hs hconnected => ?_, fun i attacker victim hattacker hvictim => ?_⟩
  · obtain ⟨e, he, hjoins⟩ := hearned.joined s hs hconnected
    obtain ⟨requestId, hcall⟩ := joins_iff.mp hjoins
    exact ⟨e, he, ⟨requestId, hcall⟩, byLogin_of_actsFor hrun he (by rw [hcall]; rfl)⟩
  · refine ⟨t.log.filter (attacksAs x attacker.player.playerId), List.filter_sublist, ?_, fun e he => ?_⟩
    · rw [← List.countP_eq_length_filter]
      exact Room.BattleRoom.lost_le (hearned.paid i attacker victim hattacker hvictim)
    · obtain ⟨he, hattacks⟩ := List.mem_filter.mp he
      obtain ⟨requestId, hcall⟩ := attacksAs_iff.mp hattacks
      exact ⟨⟨requestId, hcall⟩, byLogin_of_actsFor hrun he (by rw [hcall]; rfl)⟩

theorem played_by_login_aliceFight :
    ∃ r, (devGateway.server.after { world := {} } aliceFight).world.rooms.room? "r1" = some r ∧
      (r.seats.map fun s => (s.player.playerId, s.player.connected, s.player.hp)) =
        [("p-0001", true, 100), ("p-0002", true, 90)] ∧
      ((∀ s ∈ r.seats, s.player.connected = true → ∃ e ∈ (devGateway.server.after { world := {} } aliceFight).log,
        (∃ requestId, e.made.1 = .join "r1" s.player.playerId requestId) ∧
          ByLogin devGateway (devGateway.server.after { world := {} } aliceFight) e s.player.playerId) ∧
      ∀ (i : Nat) (attacker victim : Room.Seat), r.seats[i]? = some attacker →
        r.seats[(i + 1) % r.seats.length]? = some victim →
        ∃ es : Log, es.Sublist (devGateway.server.after { world := {} } aliceFight).log ∧
          Room.kInitialHp - victim.player.hp ≤ Room.kAttackDamage * es.length ∧
          ∀ e ∈ es, (∃ requestId, e.made.1 = .submitAttack "r1" attacker.player.playerId requestId) ∧
            ByLogin devGateway (devGateway.server.after { world := {} } aliceFight) e attacker.player.playerId) := by
  obtain ⟨r, hroom, hseats⟩ := Option.map_eq_some_iff.mp
    (by decide +kernel : ((devGateway.server.after { world := {} } aliceFight).world.rooms.room? "r1").map
      (fun r => r.seats.map fun s => (s.player.playerId, s.player.connected, s.player.hp)) =
        some [("p-0001", true, 100), ("p-0002", true, 90)])
  exact ⟨r, hroom, hseats, played_by_login run_aliceFight hroom⟩

/-- **Only players watch** — in every run, the pushes of a room are let in for a player by a request whose token was
made for a login of his, and the room has him among its players for as long as it is there. -/
theorem watched_by_players (hrun : Run c.server.Step { world := {} } ops t) (he : e ∈ t.log)
    {options : SubscribeOptions} (hsubscribe : e.made.1 = .subscribe id x options) :
    ByLogin c t e id ∧ x ∈ t.world.rooms.created ∧ ∀ r, t.world.rooms.room? x = some r → id ∈ r.playerIds := by
  refine ⟨byLogin_of_actsFor hrun he (by rw [hsubscribe]; rfl), ?_⟩
  obtain ⟨pre, rest, hlog⟩ := List.append_of_mem he
  obtain ⟨request, -, hmay⟩ := (keeps_of_run hrun).log pre e rest hlog
  rw [hsubscribe] at hmay
  obtain ⟨-, -, -, ⟨snapshot, hshown, player, hplayer, rfl⟩, -⟩ := hmay
  obtain ⟨showing, hshowing, -, hmade⟩ := Server.mem_past.mp hshown
  have hmem : showing ∈ t.log := hlog ▸ List.mem_append_left _ hshowing
  obtain ⟨hcreated, hids⟩ := (seated_of_run hrun).shown showing hmem x (snapshot.players.map (·.playerId)) (by
    rw [shows, hmade])
  refine ⟨hcreated, fun r hr => ?_⟩
  rw [hids r hr]
  exact List.mem_map_of_mem hplayer

theorem watched_by_players_aliceGame :
    ∃ e ∈ (devGateway.server.after { world := {} } aliceGame).log,
      e.made.1 = .subscribe "p-0001" "r1" {} ∧
      (ByLogin devGateway (devGateway.server.after { world := {} } aliceGame) e "p-0001" ∧
        "r1" ∈ (devGateway.server.after { world := {} } aliceGame).world.rooms.created ∧
        ∀ r, (devGateway.server.after { world := {} } aliceGame).world.rooms.room? "r1" = some r →
          "p-0001" ∈ r.playerIds) := by
  obtain ⟨e, hcall, hlog⟩ := exists_split (i := 10) (f := fun e => e.made.1)
    (l := (devGateway.server.after { world := {} } aliceGame).log) (b := .subscribe "p-0001" "r1" {})
    (by decide +kernel)
  have he : e ∈ (devGateway.server.after { world := {} } aliceGame).log :=
    hlog ▸ List.mem_append_right _ List.mem_cons_self
  exact ⟨e, he, hcall, watched_by_players run_aliceGame he hcall⟩

end GatewayConfig

end RealtimeGame.Gateway
