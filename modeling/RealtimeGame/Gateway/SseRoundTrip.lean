import RealtimeGame.Gateway.SseText
import RealtimeGame.Library.JsonBytes
import RealtimeGame.Web.Stream

/-!
# Gateway/SseRoundTrip — what the hub writes is what the web client reads

The hub escapes strings byte by byte and puts JSON together by appending; the client cuts the text at ends of
lines, wherever the network has split the bytes.  The two agree (`round_trip`) because no text that denotes a
JSON value holds an end of a line.
-/

open Library Library.Json RealtimeGame.Web

namespace RealtimeGame.Gateway

/-! ## Strings

The hub escapes bytes, JSON speaks of characters.  Every byte of a character above `0x7f` is above it as
well, so both leave it alone. -/

/-- One character, escaped. -/
def escapeChar (c : Char) : List Char :=
  if c = '"' then ['\\', '"']
  else if c = '\\' then ['\\', '\\']
  else if c = '\n' then ['\\', 'n']
  else if c = '\r' then ['\\', 'r']
  else if c = '\t' then ['\\', 't']
  else if c.toNat < 0x20 then '\\' :: 'u' :: [c.toNat / 4096 % 16, c.toNat / 256 % 16, c.toNat / 16 % 16,
    c.toNat % 16].map Nat.digitChar
  else [c]

/-- What holds of the first characters, one by one. -/
theorem forall_low {k : Nat} {P : Char → Prop} (h : ∀ n : Fin k, P (Char.ofNat n)) {c : Char} (hc : c.toNat < k) :
    P c := by
  have hone := h ⟨c.toNat, hc⟩
  rwa [Char.ofNat_toNat] at hone

/-- A byte below `0x80` is escaped as its character, -/
theorem escapeByte_ascii {c : Char} (hc : c.toNat < 128) :
    escapeByte (UInt8.ofNat c.toNat) = utf8 (escapeChar c) := by
  refine forall_low (P := fun c => escapeByte (UInt8.ofNat c.toNat) = utf8 (escapeChar c)) ?_ hc
  decide +kernel

/-- …and any other byte is left as it is. -/
theorem escapeByte_of_le {b : UInt8} (h : 128 ≤ b.toNat) : escapeByte b = [b] := by
  have hne : ∀ b' : UInt8, b'.toNat < 128 → b ≠ b' := by
    rintro b' hb' rfl
    omega
  have hlow : ¬b < 0x20 := fun hlt => Nat.not_lt.mpr h ((UInt8.lt_iff_toNat_lt.mp hlt).trans (by decide))
  rw [escapeByte, if_neg (hne _ (by decide)), if_neg (hne _ (by decide)), if_neg (hne _ (by decide)),
    if_neg (hne _ (by decide)), if_neg (hne _ (by decide)), if_neg hlow]

/-- So is any other character. -/
theorem escapeChar_of_le {c : Char} (h : 128 ≤ c.toNat) : escapeChar c = [c] := by
  have hne : ∀ c' : Char, c'.toNat < 128 → c ≠ c' := by
    rintro c' hc' rfl
    omega
  rw [escapeChar, if_neg (hne _ (by decide)), if_neg (hne _ (by decide)), if_neg (hne _ (by decide)),
    if_neg (hne _ (by decide)), if_neg (hne _ (by decide)), if_neg (by omega)]

/-- **Byte by byte is character by character.** -/
theorem jsonEscape_bytesOf (s : String) : jsonEscape (bytesOf s) = utf8 (s.toList.flatMap escapeChar) :=
  utf8_rewrite (fun _ => escapeByte_ascii) (fun _ => escapeByte_of_le) (fun _ => escapeChar_of_le) s.toList

/-- The four digits of a control character stand for it. -/
theorem unicode_of_lt {c : Char} (hc : c.toNat < 0x20) :
    Json.unicode (Nat.digitChar (c.toNat / 4096 % 16)) (Nat.digitChar (c.toNat / 256 % 16))
      (Nat.digitChar (c.toNat / 16 % 16)) (Nat.digitChar (c.toNat % 16)) = some c := by
  refine forall_low (P := fun c => Json.unicode (Nat.digitChar (c.toNat / 4096 % 16))
    (Nat.digitChar (c.toNat / 256 % 16)) (Nat.digitChar (c.toNat / 16 % 16))
    (Nat.digitChar (c.toNat % 16)) = some c) ?_ hc
  decide +kernel

/-- What is escaped is read as it was. -/
theorem spells_escapeChar (c : Char) : Spells (escapeChar c) c := by
  unfold escapeChar
  split
  case isTrue h =>
    subst h
    exact .short rfl
  case isFalse hquote =>
    split
    case isTrue h =>
      subst h
      exact .short rfl
    case isFalse hbackslash =>
      split
      case isTrue h => exact h ▸ .short rfl
      split
      case isTrue h => exact h ▸ .short rfl
      split
      case isTrue h => exact h ▸ .short rfl
      split
      case isTrue h => exact .unicode (unicode_of_lt h)
      case isFalse h => exact .raw (Nat.le_of_not_lt h) hquote hbackslash

/-- **What is escaped can stand in quotes**, and means what it was. -/
theorem body_flatMap_escapeChar (s : List Char) : Body (s.flatMap escapeChar) s := by
  induction s with
  | nil => exact .nil
  | cons c s ih => exact .cons (spells_escapeChar c) ih

/-- Strings, numbers and truth values encode what they should. -/
theorem encodes_escaped (s : String) : Encodes (quoted (jsonEscape (bytesOf s))) (.string s) := by
  rw [jsonEscape_bytesOf]
  exact encodes_string (body_flatMap_escapeChar s.toList)

theorem encodes_decimal {n : Int} (h : n.natAbs < 2 ^ 53) : Encodes (decimal n) (.number n) :=
  ⟨_, rfl, .number h⟩

theorem encodes_boolText (b : Bool) : Encodes (bytesOf (boolText b)) (.bool b) := by
  cases b
  · exact ⟨_, rfl, .false⟩
  · exact ⟨_, rfl, .true⟩

/-! ## What the hub puts in

The values that are meant, and the bounds under which a number is a number for the client. -/

/-- The fields of a player, as a value. -/
def RoomPlayerSnapshot.value (player : RoomPlayerSnapshot) : Json :=
  .object [("player_id", .string player.playerId), ("hp", .number player.hp),
    ("connected", .bool player.connected), ("online", .bool player.online)]

/-- The fields of a snapshot. -/
def RoomSnapshot.value (snapshot : RoomSnapshot) : Json :=
  .object [("room_id", .string snapshot.roomId), ("match_id", .string snapshot.matchId),
    ("state", .string (roomStateName snapshot.state)), ("frame", .number snapshot.frame),
    ("players", .array (snapshot.players.map RoomPlayerSnapshot.value)),
    ("finish_reason", .string snapshot.finishReason), ("winner_id", .string snapshot.winnerId),
    ("started_at_ms", .number snapshot.startedAtMs), ("finished_at_ms", .number snapshot.finishedAtMs)]

/-- An envelope around a payload. -/
def envelopeValue (type : String) (sequence nowMs : Int) (payload : Json) : Json :=
  .object [("version", .number kEnvelopeVersion), ("type", .string type), ("sequence", .number sequence),
    ("timestamp_ms", .number nowMs), ("payload", payload)]

/-- The numbers of a snapshot are such as every reader of JSON keeps. -/
structure RoomSnapshot.Safe (snapshot : RoomSnapshot) : Prop where
  frame : 0 ≤ snapshot.frame ∧ snapshot.frame < 2 ^ 53
  startedAtMs : 0 ≤ snapshot.startedAtMs ∧ snapshot.startedAtMs < 2 ^ 53
  finishedAtMs : 0 ≤ snapshot.finishedAtMs ∧ snapshot.finishedAtMs < 2 ^ 53
  hp : ∀ player ∈ snapshot.players, -2 ^ 31 ≤ player.hp ∧ player.hp < 2 ^ 31

/-- So are those of an event. -/
def SinkEvent.Safe : SinkEvent → Prop
  | heartbeat => True
  | sessionReady _ _ nowMs | streamClosed _ nowMs => 0 ≤ nowMs ∧ nowMs < 2 ^ 53
  | roomState snapshot nowMs | roomFinished snapshot nowMs | streamReset _ snapshot nowMs =>
    snapshot.Safe ∧ 0 ≤ nowMs ∧ nowMs < 2 ^ 53

/-- The payload of an event. -/
def SinkEvent.payload : SinkEvent → Json
  | heartbeat => .null
  | sessionReady playerId roomId nowMs =>
    .object [("player_id", .string playerId), ("room_id", .string roomId), ("server_time_ms", .number nowMs)]
  | roomState snapshot _ | roomFinished snapshot _ => snapshot.value
  | streamReset reason snapshot _ => .object [("reason", .string reason.name), ("room", snapshot.value)]
  | streamClosed reason nowMs => .object [("reason", .string reason), ("server_time_ms", .number nowMs)]

/-- **What an event is about**: its name, its id, and its envelope; a heartbeat is about nothing. -/
def SinkEvent.frame? : SinkEvent → Option Frame
  | heartbeat => none
  | event@(sessionReady _ _ nowMs) =>
    some ⟨"session.ready".toList, none, some (envelopeValue "session.ready" 0 nowMs event.payload)⟩
  | event@(roomState snapshot nowMs) =>
    some ⟨"room.state".toList, some snapshot.frame,
      some (envelopeValue "room.state" snapshot.frame nowMs event.payload)⟩
  | event@(roomFinished snapshot nowMs) =>
    some ⟨"room.finished".toList, some snapshot.frame,
      some (envelopeValue "room.finished" snapshot.frame nowMs event.payload)⟩
  | event@(streamReset _ snapshot nowMs) =>
    some ⟨"stream.reset".toList, some snapshot.frame,
      some (envelopeValue "stream.reset" snapshot.frame nowMs event.payload)⟩
  | event@(streamClosed _ nowMs) =>
    some ⟨"stream.closed".toList, some 0, some (envelopeValue "stream.closed" 0 nowMs event.payload)⟩

/-! ## What the hub writes encodes it

The texts are appended field by field; each is an object with those fields. -/

theorem natAbs_lt {n : Int} (h : 0 ≤ n ∧ n < 2 ^ 53) : n.natAbs < 2 ^ 53 := by omega

/-- A player, field by field. -/
theorem playerJson_eq (player : RoomPlayerSnapshot) : playerJson player = objectBytes [
    ⟨"player_id", quoted (jsonEscape (bytesOf player.playerId)), .string player.playerId⟩,
    ⟨"hp", decimal player.hp, .number player.hp⟩,
    ⟨"connected", bytesOf (boolText player.connected), .bool player.connected⟩,
    ⟨"online", bytesOf (boolText player.online), .bool player.online⟩] := by
  simp only [playerJson, objectBytes_eq, quoted, bytesOf, List.map_cons, List.map_nil, List.intercalate_cons_cons,
    List.intercalate_singleton, List.append_assoc, ← utf8_append, utf8_append_assoc, String.reduceToList,
    List.cons_append, List.nil_append]

/-- The text of a player encodes the player, -/
theorem encodes_playerJson {player : RoomPlayerSnapshot} (h : -2 ^ 31 ≤ player.hp ∧ player.hp < 2 ^ 31) :
    Encodes (playerJson player) player.value := by
  rw [playerJson_eq]
  refine encodes_object ["player_id", "hp", "connected", "online"] rfl (by decide) (by decide) ?_
  simp only [List.forall_mem_cons, List.not_mem_nil, false_imp_iff, implies_true, and_true]
  exact ⟨encodes_escaped _, encodes_decimal (by omega), encodes_boolText _, encodes_boolText _⟩

/-- A room, field by field. -/
theorem roomPayload_eq (snapshot : RoomSnapshot) : roomPayload snapshot = objectBytes [
    ⟨"room_id", quoted (jsonEscape (bytesOf snapshot.roomId)), .string snapshot.roomId⟩,
    ⟨"match_id", quoted (jsonEscape (bytesOf snapshot.matchId)), .string snapshot.matchId⟩,
    ⟨"state", quoted (bytesOf (roomStateName snapshot.state)), .string (roomStateName snapshot.state)⟩,
    ⟨"frame", decimal snapshot.frame, .number snapshot.frame⟩,
    ⟨"players", playersJson snapshot.players, .array (snapshot.players.map RoomPlayerSnapshot.value)⟩,
    ⟨"finish_reason", quoted (jsonEscape (bytesOf snapshot.finishReason)), .string snapshot.finishReason⟩,
    ⟨"winner_id", quoted (jsonEscape (bytesOf snapshot.winnerId)), .string snapshot.winnerId⟩,
    ⟨"started_at_ms", decimal snapshot.startedAtMs, .number snapshot.startedAtMs⟩,
    ⟨"finished_at_ms", decimal snapshot.finishedAtMs, .number snapshot.finishedAtMs⟩] := by
  unfold roomPayload
  simp only [objectBytes_eq, quoted, bytesOf, List.map_cons, List.map_nil, List.intercalate_cons_cons,
    List.intercalate_singleton, List.append_assoc, ← utf8_append, utf8_append_assoc, String.reduceToList,
    List.cons_append, List.nil_append]

/-- …that of the players all of them, -/
theorem encodes_playersJson {players : List RoomPlayerSnapshot}
    (h : ∀ player ∈ players, -2 ^ 31 ≤ player.hp ∧ player.hp < 2 ^ 31) :
    Encodes (playersJson players) (.array (players.map RoomPlayerSnapshot.value)) :=
  encodes_array fun player hplayer => encodes_playerJson (h player hplayer)

/-- …and that of a room the room. -/
theorem encodes_roomPayload {snapshot : RoomSnapshot} (h : snapshot.Safe) :
    Encodes (roomPayload snapshot) snapshot.value := by
  rw [roomPayload_eq]
  refine encodes_object ["room_id", "match_id", "state", "frame", "players", "finish_reason", "winner_id",
    "started_at_ms", "finished_at_ms"] rfl (by decide) (by decide) ?_
  simp only [List.forall_mem_cons, List.not_mem_nil, false_imp_iff, implies_true, and_true]
  have hstate : Plain (roomStateName snapshot.state).toList := by cases snapshot.state <;> decide
  exact ⟨encodes_escaped _, encodes_escaped _, encodes_plain hstate, encodes_decimal (natAbs_lt h.frame),
    encodes_playersJson h.hp, encodes_escaped _, encodes_escaped _,
    encodes_decimal (natAbs_lt h.startedAtMs), encodes_decimal (natAbs_lt h.finishedAtMs)⟩

/-- What is put around a payload, field by field. -/
theorem envelope_eq (type : String) (sequence nowMs : Int) (payload : List UInt8) (value : Json) :
    envelope type sequence nowMs payload = objectBytes [
      ⟨"version", decimal kEnvelopeVersion, .number kEnvelopeVersion⟩,
      ⟨"type", quoted (bytesOf type), .string type⟩,
      ⟨"sequence", decimal sequence, .number sequence⟩,
      ⟨"timestamp_ms", decimal nowMs, .number nowMs⟩,
      ⟨"payload", payload, value⟩] := by
  simp only [envelope, objectBytes_eq, quoted, bytesOf, List.map_cons, List.map_nil, List.intercalate_cons_cons,
    List.intercalate_singleton, List.append_assoc, ← utf8_append, utf8_append_assoc, String.reduceToList,
    List.cons_append, List.nil_append]

/-- **An envelope encodes its payload**, with the type, the number and the time. -/
theorem encodes_envelope {type : String} {sequence nowMs : Int} {payload : List UInt8} {value : Json}
    (htype : Plain type.toList) (hsequence : 0 ≤ sequence ∧ sequence < 2 ^ 53)
    (hnow : 0 ≤ nowMs ∧ nowMs < 2 ^ 53) (h : Encodes payload value) :
    Encodes (envelope type sequence nowMs payload) (envelopeValue type sequence nowMs value) := by
  rw [envelope_eq _ _ _ _ value]
  refine encodes_object ["version", "type", "sequence", "timestamp_ms", "payload"] rfl (by decide) (by decide) ?_
  simp only [List.forall_mem_cons, List.not_mem_nil, false_imp_iff, implies_true, and_true]
  exact ⟨encodes_decimal (by decide), encodes_plain htype, encodes_decimal (natAbs_lt hsequence),
    encodes_decimal (natAbs_lt hnow), h⟩

/-- The first event of a stream, -/
theorem encodes_sessionReadyJson {playerId roomId : String} {nowMs : Int} (h : 0 ≤ nowMs ∧ nowMs < 2 ^ 53) :
    Encodes (sessionReadyJson playerId roomId nowMs)
      (envelopeValue "session.ready" 0 nowMs (SinkEvent.sessionReady playerId roomId nowMs).payload) := by
  refine encodes_envelope (by decide) (by decide) h ?_
  have hobject : Encodes (objectBytes [
      ⟨"player_id", quoted (jsonEscape (bytesOf playerId)), .string playerId⟩,
      ⟨"room_id", quoted (jsonEscape (bytesOf roomId)), .string roomId⟩,
      ⟨"server_time_ms", decimal nowMs, .number nowMs⟩])
      (SinkEvent.sessionReady playerId roomId nowMs).payload := by
    refine encodes_object ["player_id", "room_id", "server_time_ms"] rfl (by decide) (by decide) ?_
    simp only [List.forall_mem_cons, List.not_mem_nil, false_imp_iff, implies_true, and_true]
    exact ⟨encodes_escaped _, encodes_escaped _, encodes_decimal (natAbs_lt h)⟩
  convert hobject using 1
  simp only [objectBytes_eq, quoted, bytesOf, List.map_cons, List.map_nil, List.intercalate_cons_cons,
    List.intercalate_singleton, List.append_assoc, ← utf8_append, utf8_append_assoc, String.reduceToList,
    List.cons_append, List.nil_append]

/-- …its last one, -/
theorem encodes_streamClosedJson (reason : String) {nowMs : Int} (h : 0 ≤ nowMs ∧ nowMs < 2 ^ 53) :
    Encodes (streamClosedJson reason nowMs)
      (envelopeValue "stream.closed" 0 nowMs (SinkEvent.streamClosed reason nowMs).payload) := by
  refine encodes_envelope (by decide) (by decide) h ?_
  have hobject : Encodes (objectBytes [
      ⟨"reason", quoted (jsonEscape (bytesOf reason)), .string reason⟩,
      ⟨"server_time_ms", decimal nowMs, .number nowMs⟩]) (SinkEvent.streamClosed reason nowMs).payload := by
    refine encodes_object ["reason", "server_time_ms"] rfl (by decide) (by decide) ?_
    simp only [List.forall_mem_cons, List.not_mem_nil, false_imp_iff, implies_true, and_true]
    exact ⟨encodes_escaped _, encodes_decimal (natAbs_lt h)⟩
  convert hobject using 1
  simp only [objectBytes_eq, quoted, bytesOf, List.map_cons, List.map_nil, List.intercalate_cons_cons,
    List.intercalate_singleton, List.append_assoc, ← utf8_append, utf8_append_assoc, String.reduceToList,
    List.cons_append, List.nil_append]

/-- …and the one that starts it over. -/
theorem encodes_streamResetJson (reason : ResetReason) {snapshot : RoomSnapshot} {nowMs : Int}
    (hsnapshot : snapshot.Safe) (h : 0 ≤ nowMs ∧ nowMs < 2 ^ 53) :
    Encodes (streamResetJson reason.name snapshot nowMs) (envelopeValue "stream.reset" snapshot.frame nowMs
      (SinkEvent.streamReset reason snapshot nowMs).payload) := by
  refine encodes_envelope (by decide) hsnapshot.frame h ?_
  have hobject : Encodes (objectBytes [
      ⟨"reason", quoted (jsonEscape (bytesOf reason.name)), .string reason.name⟩,
      ⟨"room", roomPayload snapshot, snapshot.value⟩]) (SinkEvent.streamReset reason snapshot nowMs).payload := by
    refine encodes_object ["reason", "room"] rfl (by decide) (by decide) ?_
    simp only [List.forall_mem_cons, List.not_mem_nil, false_imp_iff, implies_true, and_true]
    exact ⟨encodes_escaped _, encodes_roomPayload hsnapshot⟩
  convert hobject using 1
  simp only [objectBytes_eq, quoted, bytesOf, List.map_cons, List.map_nil, List.intercalate_cons_cons,
    List.intercalate_singleton, List.append_assoc, ← utf8_append, utf8_append_assoc, String.reduceToList,
    List.cons_append, List.nil_append]

/-! ## One block

What ends a block are two ends of a line, and an event has none inside. -/

/-- The lines of an event. -/
def eventLines (name : String) (data : List Char) (id : Option Int) : List (List Char) :=
  (match id with
    | some id => ["id".toList ++ ':' :: ' ' :: Numeral.numeral id]
    | none => []) ++
  ["event".toList ++ ':' :: ' ' :: name.toList, "data".toList ++ ':' :: ' ' :: data]

/-- An event is its lines, with an end of a line behind each and one more. -/
theorem sseEvent_eq (name : String) (data : List Char) (id : Option Int) :
    sseEvent name (utf8 data) id =
      utf8 (List.intercalate ['\n'] (eventLines name data id) ++ ['\n', '\n']) := by
  rcases id with - | id <;> simp [sseEvent, eventLines, decimal, bytesOf, utf8, List.intercalate]

/-- Neither end of a line. -/
def Unbroken (text : List Char) : Prop := '\n' ∉ text ∧ '\r' ∉ text

instance (text : List Char) : Decidable (Unbroken text) := inferInstanceAs (Decidable (_ ∧ _))

/-- What can be printed does not end a line. -/
theorem unbroken_of_printable {text : List Char} (h : ∀ c ∈ text, 0x20 ≤ c.toNat) : Unbroken text :=
  ⟨fun hmem => absurd (h _ hmem) (by decide), fun hmem => absurd (h _ hmem) (by decide)⟩

theorem Unbroken.field {field value : List Char} (hfield : Unbroken field) (hvalue : Unbroken value) :
    Unbroken (field ++ ':' :: ' ' :: value) := by
  have hnot : ∀ c : Char, c ∉ field → c ∉ value → c ≠ ':' → c ≠ ' ' → c ∉ field ++ ':' :: ' ' :: value := by
    intro c hf hv hcolon hblank hmem
    rcases List.mem_append.mp hmem with hmem | hmem
    · exact hf hmem
    rcases List.mem_cons.mp hmem with rfl | hmem
    · exact hcolon rfl
    rcases List.mem_cons.mp hmem with rfl | hmem
    · exact hblank rfl
    · exact hv hmem
  exact ⟨hnot _ hfield.1 hvalue.1 (by decide) (by decide), hnot _ hfield.2 hvalue.2 (by decide) (by decide)⟩

/-- Neither does a number. -/
theorem unbroken_numeral (n : Int) : Unbroken (Numeral.numeral n) := by
  refine unbroken_of_printable fun c hc => ?_
  rcases Numeral.of_mem_numeral hc with rfl | hdigit
  · decide
  · exact le_trans (by decide) (Char.isDigit_iff_toNat.mp hdigit).1

/-- **No line of an event is broken**, and none is empty. -/
theorem unbroken_eventLines {name : String} {data : List Char} (id : Option Int) (hname : Unbroken name.toList)
    (hdata : Unbroken data) : ∀ line ∈ eventLines name data id, line ≠ [] ∧ Unbroken line := by
  have hevent : Unbroken ("event".toList ++ ':' :: ' ' :: name.toList) := .field (by decide) hname
  have hline : Unbroken ("data".toList ++ ':' :: ' ' :: data) := .field (by decide) hdata
  have hnil : ∀ field value : List Char, field ++ ':' :: ' ' :: value ≠ [] := fun field value =>
    List.append_ne_nil_of_right_ne_nil field (List.cons_ne_nil _ _)
  intro line hmem
  rcases List.mem_append.mp hmem with hmem | hmem
  · rcases id with - | id
    · cases hmem
    · rw [List.mem_singleton.mp hmem]
      exact ⟨hnil _ _, .field (by decide) (unbroken_numeral id)⟩
  · rcases List.mem_cons.mp hmem with rfl | hmem
    · exact ⟨hnil _ _, hevent⟩
    · rw [List.mem_singleton.mp hmem]
      exact ⟨hnil _ _, hline⟩

theorem eventLines_ne_nil (name : String) (data : List Char) (id : Option Int) : eventLines name data id ≠ [] :=
  List.append_ne_nil_of_right_ne_nil _ (List.cons_ne_nil _ _)

/-- **What the client reads in the lines of an event.** -/
theorem parseSseBlock_eventLines {name : String} {data : List Char} {id : Option Int}
    (hname : Unbroken name.toList) (hdata : Unbroken data) (hid : ∀ n ∈ id, 0 ≤ n ∧ n < 2 ^ 53) :
    parseSseBlock (List.intercalate ['\n'] (eventLines name data id)) = some ⟨name.toList, data, id⟩ := by
  have hlines := unbroken_eventLines id hname hdata
  have hread : ∀ (fields : Fields) (field value : List Char), field ≠ [] → ':' ∉ field →
      field ++ ':' :: ' ' :: value ∈ eventLines name data id →
      fields.readLine (field ++ ':' :: ' ' :: value) = fields.set field value :=
    fun fields field value hne hcolon hmem => readLine_field hne hcolon (hlines _ hmem).2.2
  have hevent : ∀ fields : Fields, fields.readLine ("event".toList ++ ':' :: ' ' :: name.toList) =
      { fields with event := name.toList } := fun fields =>
    hread fields _ _ (by decide) (by decide) (List.mem_append_right _ List.mem_cons_self)
  have hdata : ∀ fields : Fields, fields.readLine ("data".toList ++ ':' :: ' ' :: data) =
      { fields with data := fields.data ++ [data] } := fun fields =>
    hread fields _ _ (by decide) (by decide)
      (List.mem_append_right _ (List.mem_cons_of_mem _ List.mem_cons_self))
  have hsplit : (List.intercalate ['\n'] (eventLines name data id)).splitOn '\n' = eventLines name data id :=
    List.splitOn_intercalate '\n' (fun line hline => (hlines line hline).2.1) (eventLines_ne_nil name data id)
  rw [parseSseBlock, hsplit]
  rcases id with - | id
  · simp only [eventLines, List.nil_append, List.foldl_cons, List.foldl_nil, hevent, hdata]
    rw [if_neg (List.cons_ne_nil _ _), List.intercalate_singleton]
  · have hid' : ∀ fields : Fields, fields.readLine ("id".toList ++ ':' :: ' ' :: Numeral.numeral id) =
        { fields with id := some id } := by
      intro fields
      rw [hread fields _ _ (by decide) (by decide) (List.mem_append_left _ List.mem_cons_self), Fields.set,
        if_neg (by decide), if_neg (by decide), if_pos rfl, parseInt_numeral (hid id rfl)]
      exact if_pos (hid id rfl).1
    simp only [eventLines, List.singleton_append, List.foldl_cons, List.foldl_nil, hevent, hdata, hid',
      List.nil_append]
    rw [if_neg (List.cons_ne_nil _ _), List.intercalate_singleton]

/-- The bytes are one block of the stream, and this is what the client makes of it. -/
structure Delivers (parse : List Char → Option Json) (block : List Char) (bytes : List UInt8)
    (frame : Option Frame) : Prop where
  bytes : bytes = utf8 (block ++ ['\n', '\n'])
  cut : ∀ more, cutBlock (block ++ '\n' :: '\n' :: more) = some (block, more)
  unreturned : '\r' ∉ block
  unmarked : block ≠ [] ∧ block.head? ≠ some '\uFEFF'
  frame : (parseSseBlock block).map (·.frame parse) = frame

section

variable {parse : List Char → Option Json}

/-- A heartbeat is delivered as nothing, -/
theorem delivers_heartbeat : Delivers parse ": ping".toList kHeartbeat none where
  bytes := by simp [kHeartbeat, bytesOf, utf8]
  cut more := by
    have hplain : ∀ line ∈ [": ping".toList], '\n' ∉ line := by decide
    exact cutBlock_lines (List.cons_ne_nil _ _) hplain (by decide) more
  unreturned := by decide
  unmarked := by decide
  frame := rfl

/-- …and an event as one frame. -/
theorem delivers_sseEvent (hparse : ∀ text v, Denotes text v → parse text = some v) {name : String}
    {data : List UInt8} {id : Option Int} {v : Json} (hname : Unbroken name.toList) (hdata : Encodes data v)
    (hid : ∀ n ∈ id, 0 ≤ n ∧ n < 2 ^ 53) :
    ∃ block, Delivers parse block (sseEvent name data id) (some ⟨name.toList, id, some v⟩) := by
  obtain ⟨text, rfl, hdenotes⟩ := hdata
  have htext : Unbroken text := unbroken_of_printable (printable_of_denotes hdenotes)
  have hlines := unbroken_eventLines id hname htext
  refine ⟨List.intercalate ['\n'] (eventLines name text id), ?_, ?_, ?_, ?_, ?_⟩
  · exact sseEvent_eq name text id
  · exact cutBlock_lines (eventLines_ne_nil name text id) (fun line hline => (hlines line hline).2.1)
      fun line hline => (hlines line (List.mem_of_mem_tail hline)).1
  · intro hmem
    rcases mem_intercalate hmem with hbreak | ⟨line, hline, hmem⟩
    · exact absurd hbreak (by decide)
    · exact (hlines line hline).2.2 hmem
  · rcases id with - | id
    · exact ⟨by simp [eventLines, List.intercalate], by simp [eventLines, List.intercalate]⟩
    · exact ⟨by simp [eventLines, List.intercalate], by simp [eventLines, List.intercalate]⟩
  · rw [parseSseBlock_eventLines hname htext hid, Option.map_some, StreamEvent.frame, decodeEnvelope,
      hparse text v hdenotes]

/-- **Every event is delivered.** -/
theorem delivers_bytes (hparse : ∀ text v, Denotes text v → parse text = some v) {event : SinkEvent}
    (h : event.Safe) : ∃ block, Delivers parse block event.bytes event.frame? := by
  have hnone : ∀ n ∈ (none : Option Int), 0 ≤ n ∧ n < 2 ^ 53 := fun n hn => by cases hn
  have hsome : ∀ {m : Int}, 0 ≤ m ∧ m < 2 ^ 53 → ∀ n ∈ some m, 0 ≤ n ∧ n < 2 ^ 53 := by
    rintro m hm n hn
    rwa [← Option.some.inj hn]
  cases event with
  | heartbeat => exact ⟨_, delivers_heartbeat⟩
  | sessionReady playerId roomId nowMs =>
    exact delivers_sseEvent hparse (by decide) (encodes_sessionReadyJson h) hnone
  | roomState snapshot nowMs =>
    exact delivers_sseEvent hparse (by decide)
      (encodes_envelope (by decide) h.1.frame h.2 (encodes_roomPayload h.1)) (hsome h.1.frame)
  | roomFinished snapshot nowMs =>
    exact delivers_sseEvent hparse (by decide)
      (encodes_envelope (by decide) h.1.frame h.2 (encodes_roomPayload h.1)) (hsome h.1.frame)
  | streamReset reason snapshot nowMs =>
    exact delivers_sseEvent hparse (by decide) (encodes_streamResetJson reason h.1 h.2) (hsome h.1.frame)
  | streamClosed reason nowMs =>
    exact delivers_sseEvent hparse (by decide) (encodes_streamClosedJson reason h) (hsome (by decide))

/-- **Round trip.**  Whatever the chunks, the client gets one frame for each event, in their order, with the
name, the id and the envelope that the hub put in; it gets nothing for a heartbeat. -/
theorem round_trip {σ : Type} (decoder : TextDecoder σ) (hdecoder : decoder.Incremental)
    (parse : List Char → Option Json) (hparse : ∀ text v, Denotes text v → parse text = some v)
    (events : List SinkEvent) (hsafe : ∀ event ∈ events, event.Safe) (chunks : List (List UInt8))
    (hchunks : chunks.flatten = events.flatMap SinkEvent.bytes) :
    (streamRoom decoder chunks).map (·.frame parse) = events.filterMap SinkEvent.frame? := by
  have hdelivers : ∀ event ∈ events, ∃ block, Delivers parse block event.bytes event.frame? :=
    fun event hevent => delivers_bytes hparse (hsafe event hevent)
  choose! block hblock using hdelivers
  have htext : chunks.flatten = utf8 ((events.map block).flatMap (· ++ ['\n', '\n'])) := by
    rw [hchunks, List.flatMap_map, utf8_flatMap]
    exact List.flatMap_congr fun event hevent => (hblock event hevent).bytes
  have hmark : ((events.map block).flatMap (· ++ ['\n', '\n'])).head? ≠ some '\uFEFF' := by
    rcases events with - | ⟨event, events⟩
    · exact fun h => by cases h
    · obtain ⟨hne, hhead⟩ := (hblock event List.mem_cons_self).unmarked
      rw [List.map_cons, List.flatMap_cons, List.append_assoc, List.head?_append_of_ne_nil _ hne]
      exact hhead
  have hreturn : '\r' ∉ (events.map block).flatMap (· ++ ['\n', '\n']) := by
    intro hmem
    obtain ⟨text, htext, hmem⟩ := List.mem_flatMap.mp hmem
    obtain ⟨event, hevent, rfl⟩ := List.mem_map.mp htext
    rcases List.mem_append.mp hmem with hmem | hmem
    · exact (hblock event hevent).unreturned hmem
    · exact absurd hmem (by decide)
  have hcut : ∀ text ∈ events.map block, ∀ more,
      sseBlocks.cut (text ++ ['\n', '\n'] ++ more) = some (text, more) := by
    intro text htext more
    obtain ⟨event, hevent, rfl⟩ := List.mem_map.mp htext
    rw [List.append_assoc]
    exact (hblock event hevent).cut more
  rw [streamRoom_eq (hdecoder _ chunks hmark htext) hreturn, Framing.drain_flatMap hcut, List.filterMap_map,
    List.map_filterMap]
  exact List.filterMap_congr fun event hevent => (hblock event hevent).frame

end

/-- A player has a quote, a backslash and an end of a line in the name. -/
def oddNames : List SinkEvent :=
  [.heartbeat, .sessionReady "a\"\\\n" "r-1" 1000,
    .roomState { roomId := "r-1", frame := 5, players := [⟨"a\"\\\n", 100, true, true⟩] } 1005,
    .streamClosed "drain" 1010]

theorem safe_oddNames : ∀ event ∈ oddNames, event.Safe := by
  simp only [oddNames, List.forall_mem_cons, List.not_mem_nil, false_imp_iff, implies_true, and_true]
  refine ⟨trivial, ⟨by decide, by decide⟩, ⟨⟨by decide, by decide, by decide, ?_⟩, by decide⟩, ⟨by decide, by decide⟩⟩
  intro player hplayer
  rw [List.mem_singleton.mp hplayer]
  decide

/-- Each byte comes alone. -/
theorem round_trip_oddNames :
    (streamRoom .streaming ((oddNames.flatMap SinkEvent.bytes).map fun b => [b])).map (·.frame Json.parse) =
      oddNames.filterMap SinkEvent.frame? :=
  round_trip .streaming TextDecoder.incremental_streaming Json.parse (fun _ _ => Json.parse_of_denotes) oddNames
    safe_oddNames _ (by rw [← List.flatMap_def, List.flatMap_singleton'])

end RealtimeGame.Gateway
