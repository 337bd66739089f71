import RealtimeGame.Library.Reading
import RealtimeGame.Match.MatchQueueStore
import RealtimeGame.Library.Utf8

/-!
# Match/SnapshotLine — the lines of a saved queue, byte by byte

`MatchQueueStore` has the ids of an entry as texts.  Here they are any bytes, an entry has the fields of both
kinds, and the reader goes over the line by positions: a read outside of the line is `Outcome.outside`.
What the positions come to is a `Reading` of what is left of the line (`settles_decode`).
-/

open Library

namespace RealtimeGame.Match

namespace SnapshotLine

/-- A `std::string`, or what a `std::string_view` shows of one. -/
abbrev Bytes : Type := List UInt8

inductive SnapshotEntryKind
  | queued
  | matched
  deriving DecidableEq, Repr

/-- `MatchQueueEntry`, with the fields of both kinds. -/
structure RawEntry where
  kind : SnapshotEntryKind := .queued
  playerId : Bytes := []
  queuedAtMs : Int64 := 0
  matchId : Bytes := []
  roomId : Bytes := []
  playerIds : List Bytes := []
  stampMs : Int64 := 0
  deriving DecidableEq

/-- `MatchQueueSnapshotRow`. -/
structure RawRow where
  entry : RawEntry := {}
  problem : Bytes := []
  deriving DecidableEq

/-! ## Writing

As in the source, by appending. -/

def str (value : Bytes) : Bytes := Decimal.numeral value.length ++ ':'.toUInt8 :: value

def int (value : Int64) : Bytes := Decimal.signed value.toInt ++ [';'.toUInt8]

def appendString (out value : Bytes) : Bytes := out ++ str value

def appendInt (out : Bytes) (value : Int64) : Bytes := out ++ int value

def validIdentifier (value : Bytes) : Bool := value ≠ [] && value.length ≤ kMaxFieldLength

/-- `ValidateEntry`: what is wrong with an entry. -/
def validateEntry (entry : RawEntry) : Option Bytes :=
  match entry.kind with
  | .queued =>
    if !validIdentifier entry.playerId then some (bytesOf "player_id 缺失或超长")
    else if entry.queuedAtMs ≤ 0 then some (bytesOf "queued_at_ms 非正")
    else none
  | .matched =>
    if !validIdentifier entry.matchId then some (bytesOf "match_id 缺失或超长")
    else if !validIdentifier entry.roomId then some (bytesOf "room_id 缺失或超长")
    else if entry.stampMs ≤ 0 then some (bytesOf "stamp_ms 非正")
    else if entry.playerIds = [] ∨ kMaxPlayersPerSnapshotGroup < entry.playerIds.length then
      some (bytesOf ("玩家数不在 [1, " ++ toString kMaxPlayersPerSnapshotGroup ++ "]"))
    else if entry.playerIds.any fun playerId => !validIdentifier playerId then
      some (bytesOf "玩家标识缺失或超长")
    else none

/-- **`EncodeMatchQueueEntry`** — nothing for an entry that is not valid. -/
def encodeMatchQueueEntry (entry : RawEntry) : Option Bytes :=
  if (validateEntry entry).isSome then none
  else some <|
    match entry.kind with
    | .queued =>
      appendInt (appendString [kSnapshotFormatVersion, 'Q'.toUInt8] entry.playerId) entry.queuedAtMs
    | .matched =>
      entry.playerIds.foldl appendString
        (appendInt (appendInt (appendString (appendString [kSnapshotFormatVersion, 'M'.toUInt8]
          entry.matchId) entry.roomId) entry.stampMs) (Int64.ofNat entry.playerIds.length))

/-! ## Reading by positions

The reader holds the line and a position.  What it may not do, to look behind the end, has an outcome of its
own. -/

/-- `Reader`. -/
structure Reader where
  text : Bytes
  pos : Nat

/-- What a read comes to: a byte outside of the text is read, the read fails, or it gives a value. -/
inductive Outcome (β : Type)
  | outside
  | refused
  | read (value : β) (reader : Reader)

namespace Reader

variable (r : Reader)

def readChar : Outcome UInt8 :=
  if r.text.length ≤ r.pos then .refused
  else
    match r.text[r.pos]? with
    | none => .outside
    | some b => .read b ⟨r.text, r.pos + 1⟩

/-- `std::from_chars` of a `size_t`, up to the end of the text: the number, and where its digits end. -/
def fromChars : Option (Nat × Nat) :=
  match Decimal.readNat (r.text.drop r.pos) with
  | some (value, rest) => if value < 2 ^ 64 then some (value, r.text.length - rest.length) else none
  | none => none

/-- `std::from_chars` of an `int64_t`. -/
def fromCharsSigned : Option (Int64 × Nat) :=
  match Decimal.readInt (r.text.drop r.pos) with
  | some (value, rest) =>
    if MatchQueueStore.fits value then some (Int64.ofInt value, r.text.length - rest.length) else none
  | none => none

/-- `ReadString`.  Neither a range that starts behind the end nor a difference below zero is within bounds. -/
def readString : Outcome Bytes :=
  if r.text.length < r.pos then .outside
  else
    match r.fromChars with
    | none => .refused
    | some (length, ptr) =>
      if ptr = r.pos ∨ r.text.length ≤ ptr then .refused
      else
        match r.text[ptr]? with
        | none => .outside
        | some b =>
          if b ≠ ':'.toUInt8 then .refused
          else
            let pos := ptr + 1
            if r.text.length < pos then .outside
            else if r.text.length - pos < length then .refused
            else if r.text.length < pos + length then .outside
            else .read ((r.text.drop pos).take length) ⟨r.text, pos + length⟩

/-- `ReadInt`. -/
def readInt : Outcome Int64 :=
  if r.text.length < r.pos then .outside
  else
    match r.fromCharsSigned with
    | none => .refused
    | some (value, ptr) =>
      if ptr = r.pos ∨ r.text.length ≤ ptr then .refused
      else
        match r.text[ptr]? with
        | none => .outside
        | some b => if b ≠ ';'.toUInt8 then .refused else .read value ⟨r.text, ptr + 1⟩

def atEnd : Bool := r.pos = r.text.length

end Reader

/-- Go on with what was read, or report the row.  There is no row if a byte outside was read. -/
def Outcome.row {β : Type} (bad : RawRow) (next : β → Reader → Option RawRow) : Outcome β → Option RawRow
  | .outside => none
  | .refused => some bad
  | .read value reader => next value reader

/-- The end of the line, and the check of the whole entry. -/
def finish (entry : RawEntry) (r : Reader) : Option RawRow :=
  if !r.atEnd then some ⟨entry, bytesOf "行尾有多余字节"⟩ else some ⟨entry, (validateEntry entry).getD []⟩

def decodeQueued (r : Reader) : Option RawRow :=
  r.readString.row ⟨{}, bytesOf "player_id 字段截断"⟩ fun playerId r =>
    r.readInt.row ⟨{ playerId := playerId }, bytesOf "queued_at_ms 字段截断"⟩ fun queuedAtMs r =>
      finish { playerId := playerId, queuedAtMs := queuedAtMs } r

/-- The loop over the players of a match. -/
def decodePlayers (entry : RawEntry) : Nat → Reader → Option RawRow
  | 0, r => finish entry r
  | n + 1, r =>
    r.readString.row ⟨entry, bytesOf "玩家标识字段截断"⟩ fun playerId r =>
      decodePlayers { entry with playerIds := entry.playerIds ++ [playerId] } n r

/-- A number of players that is out of bounds. -/
def countOut (count : Int64) : Prop := count ≤ 0 ∨ (kMaxPlayersPerSnapshotGroup : Int) < count.toInt

instance (count : Int64) : Decidable (countOut count) := inferInstanceAs (Decidable (_ ∨ _))

def decodeMatched (r : Reader) : Option RawRow :=
  r.readString.row ⟨{ kind := .matched }, bytesOf "match_id 字段截断"⟩ fun matchId r =>
    r.readString.row ⟨{ kind := .matched, matchId := matchId }, bytesOf "room_id 字段截断"⟩ fun roomId r =>
      r.readInt.row ⟨{ kind := .matched, matchId := matchId, roomId := roomId }, bytesOf "stamp_ms 字段截断"⟩
        fun stampMs r =>
          let entry : RawEntry := { kind := .matched, matchId := matchId, roomId := roomId, stampMs := stampMs }
          r.readInt.row ⟨entry, bytesOf "玩家数字段截断"⟩ fun count r =>
            if countOut count then some ⟨entry, bytesOf ("玩家数越界：" ++ toString count.toInt)⟩
            else decodePlayers entry count.toInt.toNat r

/-- **`DecodeMatchQueueEntry`**. -/
def decodeMatchQueueEntry (line : Bytes) : Option RawRow :=
  (Reader.mk line 0).readChar.row ⟨{}, bytesOf "空行"⟩ fun version r =>
    if version ≠ kSnapshotFormatVersion then some ⟨{}, bytesOf "未知的快照格式版本：" ++ [version]⟩
    else
      r.readChar.row ⟨{}, bytesOf "缺少条目类型"⟩ fun kind r =>
        if kind = 'Q'.toUInt8 then decodeQueued r
        else if kind = 'M'.toUInt8 then decodeMatched r
        else some ⟨{}, bytesOf "未知的条目类型：" ++ [kind]⟩

/-! ## Reading off what is left

The same grammar over lists: a reading takes a value off the front of a text. -/

/-- A number of bytes, and the bytes. -/
def string : Reading UInt8 Bytes := fun text =>
  match Decimal.readNat text with
  | some (length, b :: rest) =>
    if length < 2 ^ 64 ∧ b = ':'.toUInt8 ∧ length ≤ rest.length then
      some (rest.take length, rest.drop length)
    else none
  | _ => none

def integer : Reading UInt8 Int64 := fun text =>
  match Decimal.readInt text with
  | some (value, b :: rest) =>
    if MatchQueueStore.fits value ∧ b = ';'.toUInt8 then some (Int64.ofInt value, rest) else none
  | _ => none

def queued : Reading UInt8 RawEntry :=
  string.andThen fun playerId => integer.andThen fun queuedAtMs =>
    Reading.pure { playerId := playerId, queuedAtMs := queuedAtMs }

def players (entry : RawEntry) : Nat → Reading UInt8 RawEntry
  | 0 => Reading.pure entry
  | n + 1 => string.andThen fun playerId => players { entry with playerIds := entry.playerIds ++ [playerId] } n

def matched : Reading UInt8 RawEntry :=
  string.andThen fun matchId => string.andThen fun roomId => integer.andThen fun stampMs =>
    integer.andThen fun count => (Reading.guard (¬countOut count) ()).andThen fun _ =>
      players { kind := .matched, matchId := matchId, roomId := roomId, stampMs := stampMs } count.toInt.toNat

/-- **The grammar of a line.** -/
def line : Reading UInt8 RawEntry :=
  Reading.one.andThen fun version => (Reading.guard (version = kSnapshotFormatVersion) ()).andThen fun _ =>
    Reading.one.andThen fun kind =>
      if kind = 'Q'.toUInt8 then queued else if kind = 'M'.toUInt8 then matched else .fail

namespace Reader

variable {r : Reader}

/-- What is left of the text. -/
def rest (r : Reader) : Bytes := r.text.drop r.pos

/-- The position is in the text, or at its end. -/
def Within (r : Reader) : Prop := r.pos ≤ r.text.length

theorem atEnd_iff (h : r.Within) : r.atEnd = true ↔ r.rest = [] := by
  rw [atEnd, decide_eq_true_iff, rest, List.drop_eq_nil_iff]
  exact ⟨fun heq => heq.ge, h.antisymm⟩

/-- A suffix of what is left stands where its length says. -/
theorem drop_of_suffix {rest : Bytes} (h : rest <:+ r.rest) : r.text.drop (r.text.length - rest.length) = rest :=
  (List.suffix_iff_eq_drop.mp (h.trans (List.drop_suffix _ _))).symm

end Reader

/-- What is read at a position is what is read off the rest of the text. -/
def Agrees {β : Type} (o : Outcome β) (a : Option (β × Bytes)) : Prop :=
  match a with
  | none => o = .refused
  | some (value, rest) => ∃ r : Reader, o = .read value r ∧ r.Within ∧ r.rest = rest

section

variable {r : Reader}

/-- One byte is read where the text begins, -/
theorem agrees_readChar : Agrees r.readChar (Reading.one r.rest) := by
  rw [Reader.readChar]
  split
  case isTrue hend =>
    rw [Reader.rest, List.drop_eq_nil_of_le hend]
    rfl
  case isFalse hin =>
    have hlt : r.pos < r.text.length := Nat.not_le.mp hin
    rw [List.getElem?_eq_getElem hlt, Reader.rest, List.drop_eq_getElem_cons hlt]
    exact ⟨⟨r.text, r.pos + 1⟩, rfl, hlt, rfl⟩

/-- What `std::from_chars` leaves, as a position. -/
theorem ptr_of_rest {b : UInt8} {more written : Bytes} (hne : written ≠ []) (hrest : r.rest = written ++ b :: more) :
    let ptr := r.text.length - (b :: more).length
    ptr ≠ r.pos ∧ ptr < r.text.length ∧ r.text[ptr]? = some b ∧ r.text.drop (ptr + 1) = more := by
  have hsuffix : b :: more <:+ r.rest := ⟨written, hrest.symm⟩
  have hdrop := Reader.drop_of_suffix hsuffix
  have hlength : r.text.length - r.pos = written.length + (b :: more).length := by
    rw [← List.length_drop, ← List.length_append, ← hrest, Reader.rest]
  have hpos := List.length_pos_of_ne_nil hne
  rw [List.length_cons] at hlength
  dsimp only
  rw [List.length_cons] at hdrop ⊢
  refine ⟨by omega, by omega, ?_, ?_⟩
  · rw [← List.head?_drop, hdrop, List.head?_cons]
  · rw [← List.drop_drop, hdrop, List.drop_one, List.tail_cons]

/-- …a string up to its length, -/
theorem agrees_readString (h : r.Within) : Agrees r.readString (string r.rest) := by
  rw [Reader.readString, if_neg (Nat.not_lt.mpr h), string, Reader.fromChars, ← Reader.rest]
  cases hread : Decimal.readNat r.rest with
  | none => rfl
  | some read =>
    obtain ⟨length, rest⟩ := read
    obtain ⟨digits, hne, hrest, -⟩ := Decimal.readNat_eq_some hread
    dsimp only
    by_cases hlength : length < 2 ^ 64
    · rw [if_pos hlength]
      dsimp only
      rcases rest with - | ⟨b, more⟩
      · rw [if_pos (.inr (Nat.le_refl _))]
        rfl
      · obtain ⟨hptr, hlt, hget, hmore⟩ := ptr_of_rest hne hrest
        have hleft : more.length = r.text.length - (r.text.length - (b :: more).length + 1) := by
          rw [← hmore, List.length_drop, hmore]
        rw [if_neg (not_or.mpr ⟨hptr, Nat.not_le.mpr hlt⟩), hget]
        dsimp only
        by_cases hcolon : b = ':'.toUInt8
        · rw [if_neg (not_not.mpr hcolon), if_neg (by omega)]
          by_cases hfew : length ≤ more.length
          · rw [if_neg (by omega), if_neg (by omega), if_pos ⟨hlength, hcolon, hfew⟩, hmore]
            refine ⟨_, rfl, ?_, ?_⟩
            · change _ + length ≤ r.text.length
              omega
            · change r.text.drop (_ + length) = _
              rw [← List.drop_drop, hmore]
          · rw [if_pos (by omega), if_neg fun hall => hfew hall.2.2]
            rfl
        · rw [if_pos hcolon, if_neg fun hall => hcolon hall.2.1]
          rfl
    · rw [if_neg hlength]
      rcases rest with - | ⟨b, more⟩
      · rfl
      · change Agrees _ (if _ then _ else _)
        rw [if_neg fun hall => hlength hall.1]
        rfl

/-- …and a number up to its semicolon. -/
theorem agrees_readInt (h : r.Within) : Agrees r.readInt (integer r.rest) := by
  rw [Reader.readInt, if_neg (Nat.not_lt.mpr h), integer, Reader.fromCharsSigned, ← Reader.rest]
  cases hread : Decimal.readInt r.rest with
  | none => rfl
  | some read =>
    obtain ⟨value, rest⟩ := read
    obtain ⟨written, hne, hrest, -⟩ := Decimal.readInt_eq_some hread
    dsimp only
    by_cases hfits : MatchQueueStore.fits value = true
    · rw [if_pos hfits]
      dsimp only
      rcases rest with - | ⟨b, more⟩
      · rw [if_pos (.inr (Nat.le_refl _))]
        rfl
      · obtain ⟨hptr, hlt, hget, hmore⟩ := ptr_of_rest hne hrest
        rw [if_neg (not_or.mpr ⟨hptr, Nat.not_le.mpr hlt⟩), hget]
        dsimp only
        by_cases hsemicolon : b = ';'.toUInt8
        · rw [if_neg (not_not.mpr hsemicolon), if_pos ⟨hfits, hsemicolon⟩]
          exact ⟨_, rfl, hlt, hmore⟩
        · rw [if_pos hsemicolon, if_neg fun hall => hsemicolon hall.2]
          rfl
    · rw [if_neg hfits]
      rcases rest with - | ⟨b, more⟩
      · rfl
      · change Agrees _ (if _ then _ else _)
        rw [if_neg fun hall => hfits hall.1]
        rfl

end

/-! ## What a line comes to

The two are compared field by field, and what is left after a field is what is left for the next. -/

/-- The row is accepted, with this entry, if the grammar gives it at the end of the line and it is valid. -/
def Settles (out : Option RawRow) (read : Option (RawEntry × Bytes)) : Prop :=
  ∃ row, out = some row ∧ ∀ entry, row = ⟨entry, []⟩ ↔ read = some (entry, []) ∧ validateEntry entry = none

/-- A row that is refused has its problem. -/
theorem settles_refuse {entry : RawEntry} {problem : Bytes} (h : problem ≠ []) :
    Settles (some ⟨entry, problem⟩) none := by
  refine ⟨_, rfl, fun entry' => iff_of_false (fun heq => h ?_) fun hread => by cases hread.1⟩
  exact (RawRow.mk.inj heq).2

/-- Where a field reads, the row goes on behind it; else it is refused. -/
theorem Settles.row {β : Type} {o : Outcome β} {first : Reading UInt8 β} {text : Bytes} {bad : RawRow}
    {next : β → Reader → Option RawRow} {reading : β → Reading UInt8 RawEntry} (ho : Agrees o (first text))
    (hbad : bad.problem ≠ []) (hnext : ∀ value r, r.Within → Settles (next value r) (reading value r.rest)) :
    Settles (o.row bad next) (first.andThen reading text) := by
  rw [Reading.andThen]
  cases hread : first text with
  | none =>
    rw [hread] at ho
    rw [show o = .refused from ho]
    exact settles_refuse hbad
  | some read =>
    rw [hread] at ho
    obtain ⟨r, rfl, hr, hrest⟩ := ho
    rw [Option.bind_some, ← hrest]
    exact hnext read.1 r hr

/-- A check is passed, or the row is refused. -/
theorem Settles.guard {p : Prop} [Decidable p] {out : Option RawRow} {entry : RawEntry} {problem : Bytes}
    {reading : Unit → Reading UInt8 RawEntry} {text : Bytes} (hproblem : problem ≠ [])
    (h : p → Settles out (reading () text)) :
    Settles (if ¬p then some ⟨entry, problem⟩ else out) ((Reading.guard p ()).andThen reading text) := by
  by_cases hp : p
  · rw [if_neg (not_not.mpr hp), Reading.andThen_of_some (Reading.guard_eq_some.mpr ⟨hp, rfl, rfl⟩)]
    exact h hp
  · rw [if_pos hp, Reading.andThen, Reading.guard, if_neg hp]
    exact settles_refuse hproblem

/-- What `ValidateEntry` reports is not empty. -/
theorem ne_nil_of_validateEntry {entry : RawEntry} {problem : Bytes} (h : validateEntry entry = some problem) :
    problem ≠ [] := by
  have hne : bytesOf "player_id 缺失或超长" ≠ [] ∧ bytesOf "queued_at_ms 非正" ≠ [] ∧
      bytesOf "match_id 缺失或超长" ≠ [] ∧ bytesOf "room_id 缺失或超长" ≠ [] ∧ bytesOf "stamp_ms 非正" ≠ [] ∧
      bytesOf ("玩家数不在 [1, " ++ toString kMaxPlayersPerSnapshotGroup ++ "]") ≠ [] ∧
      bytesOf "玩家标识缺失或超长" ≠ [] := by decide
  unfold validateEntry at h
  split at h
  · split at h
    · exact Option.some.inj h ▸ hne.1
    split at h
    · exact Option.some.inj h ▸ hne.2.1
    · cases h
  · split at h
    · exact Option.some.inj h ▸ hne.2.2.1
    split at h
    · exact Option.some.inj h ▸ hne.2.2.2.1
    split at h
    · exact Option.some.inj h ▸ hne.2.2.2.2.1
    split at h
    · exact Option.some.inj h ▸ hne.2.2.2.2.2.1
    split at h
    · exact Option.some.inj h ▸ hne.2.2.2.2.2.2
    · cases h

/-- At the end nothing is left of the line, and the entry is checked. -/
theorem settles_finish {r : Reader} (h : r.Within) (entry : RawEntry) :
    Settles (finish entry r) (some (entry, r.rest)) := by
  rw [finish]
  by_cases hend : r.atEnd = true
  · rw [hend, (Reader.atEnd_iff h).mp hend, Bool.not_true, if_neg Bool.false_ne_true]
    refine ⟨_, rfl, fun entry' => ?_⟩
    cases hvalid : validateEntry entry with
    | none =>
      rw [Option.getD_none, RawRow.mk.injEq, Option.some.injEq, Prod.mk.injEq]
      exact ⟨fun heq => ⟨⟨heq.1, rfl⟩, heq.1 ▸ hvalid⟩, fun heq => ⟨heq.1.1, rfl⟩⟩
    | some problem =>
      refine iff_of_false (fun heq => ne_nil_of_validateEntry hvalid (RawRow.mk.inj heq).2) fun heq => ?_
      obtain ⟨rfl, -⟩ := Prod.mk.inj (Option.some.inj heq.1)
      cases hvalid.symm.trans heq.2
  · rw [Bool.eq_false_of_not_eq_true hend, Bool.not_false, if_pos rfl]
    refine ⟨_, rfl, fun entry' => iff_of_false (fun heq => ?_) fun heq => hend ?_⟩
    · exact absurd (RawRow.mk.inj heq).2 (by decide)
    · exact (Reader.atEnd_iff h).mpr (Prod.mk.inj (Option.some.inj heq.1)).2

/-- A player who waits, -/
theorem settles_decodeQueued {r : Reader} (h : r.Within) : Settles (decodeQueued r) (queued r.rest) := by
  unfold decodeQueued queued
  refine .row (agrees_readString h) ?_ fun playerId r h => .row (agrees_readInt h) ?_ fun queuedAtMs r h => ?_
  · decide
  · exact (by decide : bytesOf "queued_at_ms 字段截断" ≠ [])
  · exact settles_finish h _

/-- …the players of a match, as many as it says, -/
theorem settles_decodePlayers {r : Reader} (h : r.Within) (entry : RawEntry) (n : Nat) :
    Settles (decodePlayers entry n r) (players entry n r.rest) := by
  induction n generalizing r entry with
  | zero => exact settles_finish h entry
  | succ n ih =>
    unfold decodePlayers players
    refine .row (agrees_readString h) ?_ fun playerId r h => ih h _
    exact (by decide : bytesOf "玩家标识字段截断" ≠ [])

/-- …and the match. -/
theorem settles_decodeMatched {r : Reader} (h : r.Within) : Settles (decodeMatched r) (matched r.rest) := by
  unfold decodeMatched matched
  refine .row (agrees_readString h) ?_ fun matchId r h => .row (agrees_readString h) ?_ fun roomId r h =>
    .row (agrees_readInt h) ?_ fun stampMs r h => .row (agrees_readInt h) ?_ fun count r h => ?_
  · decide
  · exact (by decide : bytesOf "room_id 字段截断" ≠ [])
  · exact (by decide : bytesOf "stamp_ms 字段截断" ≠ [])
  · exact (by decide : bytesOf "玩家数字段截断" ≠ [])
  · have hproblem : bytesOf ("玩家数越界：" ++ toString count.toInt) ≠ [] := by
      rw [bytesOf, String.toList_append, utf8_append]
      exact List.append_ne_nil_of_left_ne_nil (by decide) _
    by_cases hout : countOut count
    · rw [if_pos hout, Reading.andThen, Reading.guard, if_neg (not_not.mpr hout)]
      exact settles_refuse hproblem
    · rw [if_neg hout, Reading.andThen_of_some (Reading.guard_eq_some.mpr ⟨hout, rfl, rfl⟩)]
      exact settles_decodePlayers h _ _

/-- **The reader does what the grammar says**, and never reads outside of the line. -/
theorem settles_decode (text : Bytes) : Settles (decodeMatchQueueEntry text) (line text) := by
  have hstart : (Reader.mk text 0).Within := Nat.zero_le _
  unfold decodeMatchQueueEntry line
  have hversion : Agrees (Reader.mk text 0).readChar (Reading.one text) := agrees_readChar
  refine .row hversion ?_ fun version r h => .guard ?_ fun _ => .row agrees_readChar ?_ fun kind r h => ?_
  · decide
  · exact List.append_ne_nil_of_left_ne_nil (by decide) _
  · decide
  · have hproblem : bytesOf "未知的条目类型：" ++ [kind] ≠ [] := List.append_ne_nil_of_left_ne_nil (by decide) _
    by_cases hqueued : kind = 'Q'.toUInt8
    · rw [if_pos hqueued, if_pos hqueued]
      exact settles_decodeQueued h
    · rw [if_neg hqueued, if_neg hqueued]
      by_cases hmatched : kind = 'M'.toUInt8
      · rw [if_pos hmatched, if_pos hmatched]
        exact settles_decodeMatched h
      · rw [if_neg hmatched, if_neg hmatched]
        exact settles_refuse hproblem

end SnapshotLine

end RealtimeGame.Match
