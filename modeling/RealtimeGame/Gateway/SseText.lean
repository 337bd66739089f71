import RealtimeGame.Gateway.EventIds
import RealtimeGame.Library.Numeral
import RealtimeGame.Library.Utf8

/-!
# Gateway/SseText — the bytes that the hub writes for an event

A string of the source is the list of its bytes, and JSON is put together by appending; `jsonEscape` is all
that stands between a player's name and the structure of the stream.  (`\x7b` and `\x7d` are the braces.)
-/

open Library

namespace RealtimeGame.Gateway

/-- `std::to_string`. -/
def decimal (n : Int) : List UInt8 := utf8 (Numeral.numeral n)

def kHeartbeat : List UInt8 := bytesOf ": ping\n\n"

def kEnvelopeVersion : Int := 1

/-- The conversion `%04x`, of a number below 2^16. -/
def hex4 (n : Nat) : List UInt8 :=
  utf8 ([n / 4096 % 16, n / 256 % 16, n / 16 % 16, n % 16].map Nat.digitChar)

/-- One byte of `JsonEscape`. -/
def escapeByte (ch : UInt8) : List UInt8 :=
  if ch = '"'.toUInt8 then bytesOf "\\\""
  else if ch = '\\'.toUInt8 then bytesOf "\\\\"
  else if ch = '\n'.toUInt8 then bytesOf "\\n"
  else if ch = '\r'.toUInt8 then bytesOf "\\r"
  else if ch = '\t'.toUInt8 then bytesOf "\\t"
  else if ch < 0x20 then bytesOf "\\u" ++ hex4 ch.toNat
  else [ch]

def jsonEscape (value : List UInt8) : List UInt8 := value.flatMap escapeByte

def roomStateName : RoomState → String
  | .waiting => "waiting"
  | .playing => "playing"
  | .finishing => "finishing"
  | .finished => "finished"
  | .aborted => "aborted"
  | .created => "created"

/-- The reasons of a `stream.reset`. -/
def ResetReason.name : ResetReason → String
  | idMalformed => "id_malformed"
  | idOutOfWindow => "id_out_of_window"
  | idAhead => "id_ahead"
  | idCurrent => "id_current"

/-- **`SseEvent`** — one event of the stream, with an id or without. -/
def sseEvent (event : String) (data : List UInt8) (id : Option Int) : List UInt8 :=
  (match id with
    | some id => bytesOf "id: " ++ decimal id ++ bytesOf "\n"
    | none => []) ++
  bytesOf "event: " ++ bytesOf event ++ bytesOf "\ndata: " ++ data ++ bytesOf "\n\n"

def envelope (type : String) (sequence nowMs : Int) (payload : List UInt8) : List UInt8 :=
  bytesOf "\x7b\"version\":" ++ decimal kEnvelopeVersion ++ bytesOf ",\"type\":\"" ++ bytesOf type ++
    bytesOf "\",\"sequence\":" ++ decimal sequence ++ bytesOf ",\"timestamp_ms\":" ++ decimal nowMs ++
    bytesOf ",\"payload\":" ++ payload ++ bytesOf "\x7d"

/-- A `bool`, as `? "true" : "false"` writes it. -/
def boolText (b : Bool) : String := if b then "true" else "false"

/-- One player of `PlayersJson`. -/
def playerJson (player : RoomPlayerSnapshot) : List UInt8 :=
  bytesOf "\x7b\"player_id\":\"" ++ jsonEscape (bytesOf player.playerId) ++ bytesOf "\",\"hp\":" ++
    decimal player.hp ++ bytesOf ",\"connected\":" ++ bytesOf (boolText player.connected) ++
    bytesOf ",\"online\":" ++ bytesOf (boolText player.online) ++ bytesOf "\x7d"

def playersJson (players : List RoomPlayerSnapshot) : List UInt8 :=
  bytesOf "[" ++ List.intercalate (bytesOf ",") (players.map playerJson) ++ bytesOf "]"

def roomPayload (snapshot : RoomSnapshot) : List UInt8 :=
  bytesOf "\x7b\"room_id\":\"" ++ jsonEscape (bytesOf snapshot.roomId) ++ bytesOf "\",\"match_id\":\"" ++
    jsonEscape (bytesOf snapshot.matchId) ++ bytesOf "\",\"state\":\"" ++
    bytesOf (roomStateName snapshot.state) ++ bytesOf "\",\"frame\":" ++ decimal snapshot.frame ++
    bytesOf ",\"players\":" ++ playersJson snapshot.players ++ bytesOf ",\"finish_reason\":\"" ++
    jsonEscape (bytesOf snapshot.finishReason) ++ bytesOf "\",\"winner_id\":\"" ++
    jsonEscape (bytesOf snapshot.winnerId) ++ bytesOf "\",\"started_at_ms\":" ++
    decimal snapshot.startedAtMs ++ bytesOf ",\"finished_at_ms\":" ++ decimal snapshot.finishedAtMs ++
    bytesOf "\x7d"

def sessionReadyJson (playerId roomId : String) (nowMs : Int) : List UInt8 :=
  envelope "session.ready" 0 nowMs <|
    bytesOf "\x7b\"player_id\":\"" ++ jsonEscape (bytesOf playerId) ++ bytesOf "\",\"room_id\":\"" ++
      jsonEscape (bytesOf roomId) ++ bytesOf "\",\"server_time_ms\":" ++ decimal nowMs ++ bytesOf "\x7d"

def roomStateJson (snapshot : RoomSnapshot) (nowMs : Int) : List UInt8 :=
  envelope "room.state" snapshot.frame nowMs (roomPayload snapshot)

def roomFinishedJson (snapshot : RoomSnapshot) (nowMs : Int) : List UInt8 :=
  envelope "room.finished" snapshot.frame nowMs (roomPayload snapshot)

def streamClosedJson (reason : String) (nowMs : Int) : List UInt8 :=
  envelope "stream.closed" 0 nowMs <|
    bytesOf "\x7b\"reason\":\"" ++ jsonEscape (bytesOf reason) ++ bytesOf "\",\"server_time_ms\":" ++
      decimal nowMs ++ bytesOf "\x7d"

def streamResetJson (reason : String) (snapshot : RoomSnapshot) (nowMs : Int) : List UInt8 :=
  envelope "stream.reset" snapshot.frame nowMs <|
    bytesOf "\x7b\"reason\":\"" ++ jsonEscape (bytesOf reason) ++ bytesOf "\",\"room\":" ++
      roomPayload snapshot ++ bytesOf "\x7d"

namespace SinkEvent

/-- The name of an event; the heartbeat is none. -/
def name? : SinkEvent → Option String
  | heartbeat => none
  | sessionReady .. => some "session.ready"
  | roomState .. => some "room.state"
  | roomFinished .. => some "room.finished"
  | streamReset .. => some "stream.reset"
  | streamClosed .. => some "stream.closed"

/-- The data of an event. -/
def data : SinkEvent → List UInt8
  | heartbeat => []
  | sessionReady playerId roomId nowMs => sessionReadyJson playerId roomId nowMs
  | roomState snapshot nowMs => roomStateJson snapshot nowMs
  | roomFinished snapshot nowMs => roomFinishedJson snapshot nowMs
  | streamReset reason snapshot nowMs => streamResetJson reason.name snapshot nowMs
  | streamClosed reason nowMs => streamClosedJson reason nowMs

/-- **What is written to the sink.** -/
def bytes (event : SinkEvent) : List UInt8 :=
  match event.name? with
  | none => kHeartbeat
  | some name => sseEvent name event.data event.sseId

end SinkEvent

end RealtimeGame.Gateway
