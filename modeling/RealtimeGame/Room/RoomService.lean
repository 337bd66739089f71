import RealtimeGame.Room.RoomManager
import RealtimeGame.Room.RoomProto

/-!
# Room/RoomService — the methods of the Room service

Each makes one call of the registry and fills in what it comes to: an error, or what was asked for, or both.
-/

namespace RealtimeGame.Room

namespace Proto

structure RoomError where
  code : RoomErrorCode := .unspecified
  reason : String := ""
  message : String := ""
  requestId : String := ""
  deriving DecidableEq, Repr

/-- `PlayerInput.Kind`. -/
inductive PlayerInputKind
  | unspecified
  | attack
  | other (number : Int)
  deriving DecidableEq, Repr

end Proto

def toInputKind : Proto.PlayerInputKind → Option InputKind
  | .attack => some .attack
  | .unspecified | .other _ => none

namespace RoomService

/-- The response of the methods about one room; a message that is not filled in is missing. -/
structure Response where
  error : Proto.RoomError := {}
  room : Option Proto.RoomSnapshot := none
  roomId : String := ""
  accepted : Bool := false
  deriving DecidableEq, Repr

/-- What a client reads of it that does not look at the rest. -/
def Response.read (response : Response) : Proto.RoomResponse := ⟨response.error.code, response.room.getD {}⟩

variable (m : RoomManager) (nowMs : Int)

/-- `generated` is what the generator of room ids would return. -/
def createRoom (matchId : String) (playerIds : List String) (requestId generated : String) :
    Response × RoomManager :=
  match m.create nowMs matchId playerIds generated with
  | (.ok, told, m) => ({ roomId := (told.map (·.1)).getD "", room := told.map fun told => fillSnapshot told.2 }, m)
  | (.invalidArgument, _, m) =>
    ({ error := ⟨.invalidArgument, "invalid_argument", "match_id 或玩家列表不合法", requestId⟩ }, m)
  | (.shuttingDown, _, m) =>
    ({ error := ⟨.shuttingDown, "shutting_down", "服务正在排空，不再接受新房间", requestId⟩ }, m)
  | (.internal, _, m) => ({ error := ⟨.internal, "room_internal", "房间号生成失败", requestId⟩ }, m)

/-- The error for a room that is not there. -/
def roomNotFound (requestId : String) : Proto.RoomError :=
  ⟨.notFound, "room_not_found", "房间不存在或已回收", requestId⟩

def notAMember (requestId : String) : Proto.RoomError :=
  ⟨.notAMember, "not_a_member", "该玩家不是这一局的成员", requestId⟩

def fillJoin (outcome : JoinOutcome) (snapshot : RoomSnapshot) (requestId : String) : Response :=
  match outcome with
  | .ok => { room := some (fillSnapshot snapshot) }
  | .notAMember => { error := notAMember requestId }
  | .alreadyFinished =>
    { error := ⟨.alreadyFinished, "room_already_finished", "对局已结束，不再接受加入", requestId⟩ }
  | .invalidArgument => { error := ⟨.invalidArgument, "invalid_argument", "player_id 不合法", requestId⟩ }

def joinRoom (roomId playerId requestId : String) : Response × RoomManager :=
  match m.join nowMs roomId playerId with
  | (none, m) => ({ error := roomNotFound requestId }, m)
  | (some (outcome, snapshot), m) => (fillJoin outcome snapshot requestId, m)

/-- The room is shown also where the input is not accepted. -/
def fillSubmit (outcome : SubmitOutcome) (snapshot : RoomSnapshot) (requestId : String) : Response :=
  match outcome with
  | .accepted => { room := some (fillSnapshot snapshot), accepted := true }
  | .notPlaying =>
    { room := some (fillSnapshot snapshot), error := ⟨.notPlaying, "room_not_playing", "对局尚未开始", requestId⟩ }
  | .notInRoom => { room := some (fillSnapshot snapshot), error := notAMember requestId }
  | .alreadyFinished =>
    { room := some (fillSnapshot snapshot)
      error := ⟨.alreadyFinished, "room_already_finished", "对局已结束，不再接受输入", requestId⟩ }
  | .invalidArgument =>
    { room := some (fillSnapshot snapshot), error := ⟨.invalidArgument, "invalid_argument", "输入不合法", requestId⟩ }

def submitInput (roomId playerId requestId : String) (kind : Proto.PlayerInputKind) : Response × RoomManager :=
  match toInputKind kind with
  | none => ({ error := ⟨.invalidArgument, "invalid_input", "不支持的输入类型", requestId⟩ }, m)
  | some kind =>
    match m.submitInput roomId playerId kind with
    | (none, m) => ({ error := roomNotFound requestId }, m)
    | (some (outcome, snapshot), m) => (fillSubmit outcome snapshot requestId, m)

def getRoomState (roomId requestId : String) : Response × RoomManager :=
  match m.getState nowMs roomId with
  | (none, m) => ({ error := roomNotFound requestId }, m)
  | (some snapshot, m) => ({ room := some (fillSnapshot snapshot) }, m)

/-! ## What becomes of the registry

A method does to the registry what its one call does. -/

variable {m nowMs} {roomId playerId requestId : String}

@[simp] theorem joinRoom_snd : (joinRoom m nowMs roomId playerId requestId).2 = (m.join nowMs roomId playerId).2 := by
  rw [joinRoom]
  rcases m.join nowMs roomId playerId with ⟨_ | ⟨outcome, snapshot⟩, m'⟩ <;> rfl

@[simp] theorem submitInput_snd :
    (submitInput m roomId playerId requestId .attack).2 = (m.submitInput roomId playerId .attack).2 := by
  rw [submitInput]
  dsimp only [toInputKind]
  rcases m.submitInput roomId playerId .attack with ⟨_ | ⟨outcome, snapshot⟩, m'⟩ <;> rfl

@[simp] theorem getRoomState_snd : (getRoomState m nowMs roomId requestId).2 = (m.getState nowMs roomId).2 := by
  rw [getRoomState]
  rcases m.getState nowMs roomId with ⟨_ | snapshot, m'⟩ <;> rfl

end RoomService

end RealtimeGame.Room
