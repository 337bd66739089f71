import RealtimeGame.Library.Decimal
import RealtimeGame.Match.Types

/-!
# Match/MatchQueueStore — the lines of a saved queue

    queued  := "1Q" str(player_id) int(queued_at_ms)
    matched := "1M" str(match_id) str(room_id) int(stamp_ms) int(players) str(player_id)...
    str(s)  := length ':' bytes          int(v) := digits ';'

A line is a list of bytes.  What is written can be read back (`decode_encode`): both directions check an
entry in the same way, and the lengths say where a string ends, whatever is in it.
-/

open Library Library.Decimal

namespace RealtimeGame.Match

def kSnapshotFormatVersion : UInt8 := '1'.toUInt8
def kMaxPlayersPerSnapshotGroup : Nat := 8
def kMaxFieldLength : Nat := 64

namespace MatchQueueStore

/-! ## Fields

A length says how long a string is, so nothing needs to be escaped. -/

def bytes (s : String) : List UInt8 := s.toByteArray.data.toList

/-- Bytes that are no text are read as the empty text. -/
def text (b : List UInt8) : String := (String.fromUTF8? ⟨b.toArray⟩).getD ""

def str (value : String) : List UInt8 := numeral value.utf8ByteSize ++ ':'.toUInt8 :: bytes value

def int (value : Int) : List UInt8 := signed value ++ [';'.toUInt8]

def appendString (line : List UInt8) (value : String) : List UInt8 := line ++ str value

def appendInt (line : List UInt8) (value : Int) : List UInt8 := line ++ int value

/-- `ReadString`, with what is left of the line; the length is a `size_t`. -/
def readString (line : List UInt8) : Option (String × List UInt8) :=
  match readNat line with
  | some (length, b :: rest) =>
    if length < 2 ^ 64 ∧ b = ':'.toUInt8 ∧ length ≤ rest.length then
      some (text (rest.take length), rest.drop length)
    else none
  | _ => none

/-- The values of an `int64_t`. -/
def fits (v : Int) : Bool := -2 ^ 63 ≤ v && v < 2 ^ 63

/-- `ReadInt`. -/
def readInt (line : List UInt8) : Option (Int × List UInt8) :=
  match Decimal.readInt line with
  | some (value, b :: rest) => if fits value ∧ b = ';'.toUInt8 then some (value, rest) else none
  | _ => none

/-! ## Entries

An entry is checked before it is written and after it is read. -/

def validIdentifier (value : String) : Bool := value ≠ "" && value.utf8ByteSize ≤ kMaxFieldLength

/-- `ValidateEntry`: what is wrong with an entry. -/
def validateEntry : MatchQueueEntry → Option String
  | .queued playerId queuedAtMs =>
    if !validIdentifier playerId then some "player_id 缺失或超长"
    else if queuedAtMs ≤ 0 then some "queued_at_ms 非正"
    else none
  | .matched matchId roomId playerIds stampMs =>
    if !validIdentifier matchId then some "match_id 缺失或超长"
    else if !validIdentifier roomId then some "room_id 缺失或超长"
    else if stampMs ≤ 0 then some "stamp_ms 非正"
    else if playerIds = [] ∨ kMaxPlayersPerSnapshotGroup < playerIds.length then
      some ("玩家数不在 [1, " ++ toString kMaxPlayersPerSnapshotGroup ++ "]")
    else if playerIds.any fun playerId => !validIdentifier playerId then some "玩家标识缺失或超长"
    else none

/-- **`EncodeMatchQueueEntry`** — nothing for an entry that is not valid. -/
def encodeMatchQueueEntry (entry : MatchQueueEntry) : Option (List UInt8) :=
  if (validateEntry entry).isSome then none
  else some <|
    match entry with
    | .queued playerId queuedAtMs =>
      appendInt (appendString [kSnapshotFormatVersion, 'Q'.toUInt8] playerId) queuedAtMs
    | .matched matchId roomId playerIds stampMs =>
      playerIds.foldl appendString
        (appendInt (appendInt (appendString (appendString [kSnapshotFormatVersion, 'M'.toUInt8]
          matchId) roomId) stampMs) playerIds.length)

/-- The end of the line, and the check of the whole entry. -/
def finish (entry : MatchQueueEntry) (line : List UInt8) : MatchQueueSnapshotRow :=
  if line ≠ [] then ⟨entry, "行尾有多余字节"⟩ else ⟨entry, (validateEntry entry).getD ""⟩

def decodeQueued (line : List UInt8) : MatchQueueSnapshotRow :=
  match readString line with
  | none => ⟨.queued "" 0, "player_id 字段截断"⟩
  | some (playerId, line) =>
    match readInt line with
    | none => ⟨.queued playerId 0, "queued_at_ms 字段截断"⟩
    | some (queuedAtMs, line) => finish (.queued playerId queuedAtMs) line

/-- The players of a match, and the rest of the line if all could be read. -/
def readPlayers : Nat → List UInt8 → List String × Option (List UInt8)
  | 0, line => ([], some line)
  | n + 1, line =>
    match readString line with
    | none => ([], none)
    | some (playerId, line) => (playerId :: (readPlayers n line).1, (readPlayers n line).2)

def decodeMatched (line : List UInt8) : MatchQueueSnapshotRow :=
  match readString line with
  | none => ⟨.matched "" "" [] 0, "match_id 字段截断"⟩
  | some (matchId, line) =>
    match readString line with
    | none => ⟨.matched matchId "" [] 0, "room_id 字段截断"⟩
    | some (roomId, line) =>
      match readInt line with
      | none => ⟨.matched matchId roomId [] 0, "stamp_ms 字段截断"⟩
      | some (stampMs, line) =>
        match readInt line with
        | none => ⟨.matched matchId roomId [] stampMs, "玩家数字段截断"⟩
        | some (count, line) =>
          if count ≤ 0 ∨ (kMaxPlayersPerSnapshotGroup : Int) < count then
            ⟨.matched matchId roomId [] stampMs, "玩家数越界：" ++ toString count⟩
          else
            match readPlayers count.toNat line with
            | (playerIds, none) => ⟨.matched matchId roomId playerIds stampMs, "玩家标识字段截断"⟩
            | (playerIds, some line) => finish (.matched matchId roomId playerIds stampMs) line

/-- **`DecodeMatchQueueEntry`** — where the kind cannot be told, the entry is the empty one. -/
def decodeMatchQueueEntry : List UInt8 → MatchQueueSnapshotRow
  | [] => ⟨.queued "" 0, "空行"⟩
  | version :: line =>
    if version ≠ kSnapshotFormatVersion then
      ⟨.queued "" 0, "未知的快照格式版本：" ++ text [version]⟩
    else
      match line with
      | [] => ⟨.queued "" 0, "缺少条目类型"⟩
      | kind :: line =>
        if kind = 'Q'.toUInt8 then decodeQueued line
        else if kind = 'M'.toUInt8 then decodeMatched line
        else ⟨.queued "" 0, "未知的条目类型：" ++ text [kind]⟩

/-! ## What is written can be read back

First the fields, then the players, then a line. -/

/-- A string is told by its bytes. -/
theorem text_bytes (s : String) : text (bytes s) = s := by
  simp [text, bytes, String.fromUTF8?, s.isValidUTF8, String.fromUTF8]

theorem length_bytes (s : String) : (bytes s).length = s.utf8ByteSize := rfl

/-- A string is read back, whatever follows it, -/
theorem readString_str {value : String} (h : value.utf8ByteSize < 2 ^ 64) (rest : List UInt8) :
    readString (str value ++ rest) = some (value, rest) := by
  have hcolon : ∀ b ∈ ((':'.toUInt8 :: bytes value) ++ rest).head?, isDigit b = false := by
    intro b hb
    obtain rfl := Option.some.inj hb
    rfl
  rw [readString, str, List.append_assoc, readNat_numeral _ hcolon, List.cons_append]
  dsimp only
  rw [if_pos ⟨h, rfl, by rw [List.length_append, length_bytes]; omega⟩, ← length_bytes,
    List.take_left, List.drop_left, text_bytes]

/-- …and so is a number. -/
theorem readInt_int {value : Int} (h : fits value = true) (rest : List UInt8) :
    readInt (int value ++ rest) = some (value, rest) := by
  have hsemicolon : ∀ b ∈ ([';'.toUInt8] ++ rest).head?, isDigit b = false := by
    intro b hb
    obtain rfl := Option.some.inj hb
    rfl
  rw [readInt, int, List.append_assoc, readInt_signed _ hsemicolon, List.singleton_append]
  dsimp only
  rw [if_pos ⟨h, rfl⟩]

/-- A valid id is short, so that its length can be written. -/
theorem length_of_validIdentifier {value : String} (h : validIdentifier value = true) :
    value.utf8ByteSize < 2 ^ 64 := by
  rw [validIdentifier, Bool.and_eq_true, decide_eq_true_eq, decide_eq_true_eq, kMaxFieldLength] at h
  omega

/-- The players are read back one by one. -/
theorem readPlayers_flatMap {playerIds : List String}
    (h : ∀ playerId ∈ playerIds, validIdentifier playerId = true) (rest : List UInt8) :
    readPlayers playerIds.length (playerIds.flatMap str ++ rest) = (playerIds, some rest) := by
  induction playerIds with
  | nil => rfl
  | cons playerId playerIds ih =>
    have hsize := length_of_validIdentifier (h playerId List.mem_cons_self)
    rw [List.length_cons, List.flatMap_cons, List.append_assoc, readPlayers, readString_str hsize]
    dsimp only
    rw [ih fun p hp => h p (List.mem_cons_of_mem _ hp)]

/-- Strings are appended one after another. -/
theorem foldl_appendString (line : List UInt8) (values : List String) :
    values.foldl appendString line = line ++ values.flatMap str := by
  induction values generalizing line with
  | nil => rw [List.foldl_nil, List.flatMap_nil, List.append_nil]
  | cons value values ih => rw [List.foldl_cons, ih, appendString, List.flatMap_cons, List.append_assoc]

/-- What is asked of a player who waits, -/
theorem validateEntry_queued {playerId : String} {queuedAtMs : Int} :
    validateEntry (.queued playerId queuedAtMs) = none ↔
      validIdentifier playerId = true ∧ 0 < queuedAtMs := by
  rw [validateEntry]
  split_ifs <;> simp_all

/-- …and of a match. -/
theorem validateEntry_matched {matchId roomId : String} {playerIds : List String} {stampMs : Int} :
    validateEntry (.matched matchId roomId playerIds stampMs) = none ↔
      validIdentifier matchId = true ∧ validIdentifier roomId = true ∧ 0 < stampMs ∧
      playerIds ≠ [] ∧ playerIds.length ≤ kMaxPlayersPerSnapshotGroup ∧
      ∀ playerId ∈ playerIds, validIdentifier playerId = true := by
  unfold validateEntry
  grind

/-- The times of an entry are values of their type. -/
def Fits : MatchQueueEntry → Prop
  | .queued _ queuedAtMs => fits queuedAtMs = true
  | .matched _ _ _ stampMs => fits stampMs = true

/-- A valid entry is written. -/
theorem exists_line {entry : MatchQueueEntry} (h : validateEntry entry = none) :
    ∃ line, encodeMatchQueueEntry entry = some line := by
  unfold encodeMatchQueueEntry
  rw [h]
  exact ⟨_, rfl⟩

/-- **What is written can be read back.** -/
theorem decode_encode {entry : MatchQueueEntry} {line : List UInt8} (hfits : Fits entry)
    (h : encodeMatchQueueEntry entry = some line) : decodeMatchQueueEntry line = ⟨entry, ""⟩ := by
  unfold encodeMatchQueueEntry at h
  split at h
  case isTrue => cases h
  case isFalse hvalid =>
    rw [Option.not_isSome_iff_eq_none] at hvalid
    have hfinish : finish entry [] = ⟨entry, ""⟩ := by
      rw [finish, hvalid]
      rfl
    obtain rfl := Option.some.inj h
    cases entry with
    | queued playerId queuedAtMs =>
      have hsize := length_of_validIdentifier (validateEntry_queued.mp hvalid).1
      change decodeQueued (str playerId ++ int queuedAtMs) = _
      rw [decodeQueued, readString_str hsize]
      dsimp only
      rw [← List.append_nil (int queuedAtMs), readInt_int hfits]
      exact hfinish
    | matched matchId roomId playerIds stampMs =>
      obtain ⟨hmatch, hroom, -, hne, hlen, hplayers⟩ := validateEntry_matched.mp hvalid
      have hpos := List.length_pos_of_ne_nil hne
      rw [kMaxPlayersPerSnapshotGroup] at hlen
      have hcount : fits playerIds.length = true := by
        rw [fits, Bool.and_eq_true, decide_eq_true_eq, decide_eq_true_eq]
        omega
      dsimp only
      rw [foldl_appendString]
      simp only [appendInt, appendString, List.append_assoc]
      change decodeMatched (str matchId ++ (str roomId ++ (int stampMs ++ (int playerIds.length ++
        playerIds.flatMap str)))) = _
      rw [decodeMatched, readString_str (length_of_validIdentifier hmatch)]
      dsimp only
      rw [readString_str (length_of_validIdentifier hroom)]
      dsimp only
      rw [readInt_int hfits]
      dsimp only
      rw [readInt_int hcount]
      dsimp only
      rw [if_neg (by rw [kMaxPlayersPerSnapshotGroup]; omega), Int.toNat_natCast,
        ← List.append_nil (playerIds.flatMap str), readPlayers_flatMap hplayers]
      exact hfinish

end MatchQueueStore

end RealtimeGame.Match
