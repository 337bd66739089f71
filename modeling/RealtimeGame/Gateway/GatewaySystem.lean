import RealtimeGame.Gateway.GatewayLaws
import RealtimeGame.Gateway.LoginLaws
import RealtimeGame.Library.Server
import RealtimeGame.Room.Registry
import RealtimeGame.Room.RoomService

/-!
# Gateway/GatewaySystem — the Gateway on its stores, and on Room

Every request is a thread, and every call it makes is a step of a world: the sessions in Redis, the registry of
Room, and whether the service drains.  MySQL, Match and the push channels answer as they like.  Any commands and
messages may be lost; only the Gateway joins rooms and submits input, and Room does what else it likes.
-/

open Library RealtimeGame.Common

namespace RealtimeGame.Gateway

/-- What the Gateway is built from. -/
structure GatewayConfig where
  service : GatewayService
  sessions : RedisSessionStore
  sha256 : String → Option Bytes
  benchAccounts : Bool
  stores : Room.RoomStores

structure GatewayWorld where
  draining : Bool := false
  sessions : World := .start
  rooms : Room.RoomSystem := {}

/-- What the rest of the world adds to a call: the rows of MySQL, the token and the clock of a new session, the
fates of the commands and of the message, the time before each command, the clock of Room, and the answers that are
left open. -/
structure Oracle where
  rows : SqlAnswer := none
  token : String := ""
  nowUnixSeconds : Int := 0
  fates : Nat → Fate := fun _ => .answered
  waits : Nat → Nat := fun _ => 0
  nowMs : Int := 0
  matching : MatchCallStatus × MatchSnapshot := (.unavailable, {})
  result : RoomCallStatus × MatchResultView := (.unavailable, {})
  attached : Bool := false
  subscription : Nat := 0

def Oracle.createArgs (o : Oracle) (requestId playerId clientType : String) (ttlSeconds : Int) : CreateArgs :=
  ⟨requestId, playerId, clientType, ttlSeconds, o.token, o.nowUnixSeconds, o.fates, o.waits⟩

/-- What happens without a request. -/
inductive GatewayEvent
  | beginShutdown
  | elapse (ms : Nat)
  | room (action : Room.Action)

namespace GatewayConfig

variable (c : GatewayConfig)

/-- One call to Room, and what the client makes of the response: the message may be lost, or the response. -/
def callRoom (client : Option Room.Proto.RoomResponse → BrpcRoomClient.Outcome RoomSnapshot) (fate : Fate)
    (response : Room.RoomService.Response) (action : Room.Action) (w : GatewayWorld) :
    (RoomCallStatus × RoomSnapshot) × GatewayWorld :=
  match fate with
  | .answered =>
    (((client (some response.read)).status, (client (some response.read)).out.getD {}),
      { w with rooms := w.rooms.next c.stores action })
  | .replyLost => (((client none).status, (client none).out.getD {}), { w with rooms := w.rooms.next c.stores action })
  | .requestLost => (((client none).status, (client none).out.getD {}), w)

/-- **One call.** -/
def perform : (call : GatewayCall) → Oracle → GatewayWorld → GatewayAnswer call × GatewayWorld
  | .isShuttingDown, _, w => (w.draining, w)
  | .authenticate account password, o, w =>
    (DatabasePlayerDirectory.authenticate c.sha256 c.benchAccounts (queryOne o.rows) account password, w)
  | .findByPlayerId _, o, w => (DatabasePlayerDirectory.findByPlayerId (queryOne o.rows), w)
  | .createSession requestId playerId clientType ttlSeconds, o, w =>
    ((c.sessions.createSession (o.createArgs requestId playerId clientType ttlSeconds)
        w.sessions.toRedisServer).1,
      { w with sessions :=
          w.sessions.next c.sessions (.create (o.createArgs requestId playerId clientType ttlSeconds)) })
  | .getSession token, o, w => (c.sessions.getSession (o.fates 0) token w.sessions.toRedisServer, w)
  | .deleteSession token, o, w =>
    ((c.sessions.deleteSession o.fates o.waits token w.sessions.toRedisServer).1,
      { w with sessions := w.sessions.next c.sessions (.delete token o.fates o.waits) })
  | .enqueue _ _, o, w | .getStatus _, o, w | .cancel _ _, o, w => (o.matching, w)
  | .join roomId playerId requestId, o, w =>
    c.callRoom (BrpcRoomClient.join {}) (o.fates 0)
      (Room.RoomService.joinRoom w.rooms.manager o.nowMs roomId playerId requestId).1
      (.join roomId playerId o.nowMs) w
  | .submitAttack roomId playerId requestId, o, w =>
    c.callRoom (BrpcRoomClient.submitAttack {}) (o.fates 0)
      (Room.RoomService.submitInput w.rooms.manager roomId playerId requestId .attack).1
      (.submitInput roomId playerId .attack) w
  | .getState roomId requestId, o, w =>
    c.callRoom (BrpcRoomClient.getState {}) (o.fates 0)
      (Room.RoomService.getRoomState w.rooms.manager o.nowMs roomId requestId).1 (.getState roomId o.nowMs) w
  | .getResult _ _, o, w => (o.result, w)
  | .createProgressiveAttachment, o, w => (o.attached, w)
  | .subscribe _ _ _, o, w => (o.subscription, w)
  | .log _, _, w => ((), w)
  | .count _ _, _, w => ((), w)

/-- The generator returns tokens that are new and not empty, without a NUL. -/
def admits : GatewayCall → Oracle → GatewayWorld → Prop
  | .createSession .., o, w => o.token ∉ w.sessions.issued ∧ o.token ≠ "" ∧ cString o.token = o.token
  | _, _, _ => True

def happen : GatewayEvent → GatewayWorld → GatewayWorld
  | .beginShutdown, w => { w with draining := true }
  | .elapse ms, w => { w with sessions := w.sessions.next c.sessions (.elapse ms) }
  | .room action, w => { w with rooms := w.rooms.next c.stores action }

/-- A call that a player has to ask for. -/
def played : Room.Action → Bool
  | .join .. | .submitInput .. => true
  | _ => false

def occurs : GatewayEvent → GatewayWorld → Prop
  | .room action, w => played action = false ∧ w.rooms.Fresh action
  | _, _ => True

/-- **The Gateway.** -/
def server : Server GatewayAnswer Request Response Oracle GatewayEvent GatewayWorld where
  program := c.service.handle
  perform := c.perform
  admits := admits
  happen := c.happen
  occurs := occurs

instance (call : GatewayCall) (o : Oracle) (w : GatewayWorld) : Decidable (admits call o w) :=
  match call with
  | .createSession .. => inferInstanceAs (Decidable (_ ∧ _ ∧ _))
  | .isShuttingDown | .authenticate .. | .findByPlayerId _ | .getSession _ | .deleteSession _ | .enqueue .. |
    .getStatus _ | .cancel .. | .join .. | .submitAttack .. | .getState .. | .getResult .. |
    .createProgressiveAttachment | .subscribe .. | .log _ | .count .. => .isTrue trivial

instance (call : GatewayCall) (o : Oracle) (w : GatewayWorld) : Decidable (c.server.admits call o w) :=
  inferInstanceAs (Decidable (admits call o w))

instance (event : GatewayEvent) (w : GatewayWorld) : Decidable (c.server.occurs event w) :=
  match event with
  | .room action => inferInstanceAs (Decidable (played action = false ∧ w.rooms.Fresh action))
  | .beginShutdown | .elapse _ => .isTrue trivial

end GatewayConfig

end RealtimeGame.Gateway
