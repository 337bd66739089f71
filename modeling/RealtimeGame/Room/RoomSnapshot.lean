import Mathlib.Data.List.Sort
import RealtimeGame.Common.Mysql
import RealtimeGame.Room.RoomLaws

/-!
# Room/RoomSnapshot — a room written to its row of `rooms`, and read back

`makeSnapshotRecord` and `RoomsRow.ofRecord` write the row, `RoomsRow.decode` parses and checks it,
and `BattleRoom.restoreFrom` rebuilds the room.  The round trip restores every unfinished room of two
players but those that ended by a disconnect (`roundTrip_iff`): `parseFinishReason` does not know the
text that `FinishReason.toText` writes for that reason.
-/

open Library RealtimeGame.Common

namespace RealtimeGame.Room

/-! ## Reading the two text columns

A text that is not known is an error. -/

/-- `ParseRoomPhase`. -/
def parseRoomPhase (text : String) : Option RoomPhase :=
  if text = "created" then some .created
  else if text = "waiting" then some .waiting
  else if text = "playing" then some .playing
  else if text = "finishing" then some .finishing
  else if text = "finished" then some .finished
  else if text = "aborted" then some .aborted
  else none

/-- `ParseFinishReason`: four of the five reasons. -/
def parseFinishReason (text : String) : Option FinishReason :=
  if text = "none" then some .none
  else if text = "hp_zero" then some .hpZero
  else if text = "timeout" then some .timeout
  else if text = "aborted" then some .aborted
  else none

theorem parseRoomPhase_toText (phase : RoomPhase) : parseRoomPhase phase.toText = some phase := by
  cases phase <;> decide

theorem parseFinishReason_toText (reason : FinishReason) :
    parseFinishReason reason.toText = if reason = .disconnect then none else some reason := by
  cases reason <;> decide

/-! ## Checking a record

Field by field, in the order of the source. -/

/-- The checks on the player at place `i`. -/
def validatePlayer (i : Nat) (player : RoomPlayerRecord) : String :=
  if !validId player.playerId then "第 " ++ toString (i + 1) ++ " 位玩家标识缺失或超长"
  else if player.hp < 0 ∨ kInitialHp < player.hp then
    "第 " ++ toString (i + 1) ++ " 位玩家血量超出 [0, " ++ toString kInitialHp ++ "]"
  else ""

/-- `ValidateRoomSnapshot`: the empty string, or why the record cannot be used. -/
def validateRoomSnapshot (record : RoomSnapshotRecord) : String :=
  if !validId record.matchId then "match_id 缺失或超长"
  else if !validId record.roomId then "room_id 缺失或超长"
  else if record.frame < 0 ∨ kMaxFrames < record.frame then
    "frame 超出 [0, " ++ toString kMaxFrames ++ "]"
  else if record.startedAtMs < 0 ∨ record.finishedAtMs < 0 then "时间戳为负"
  else if validatePlayer 0 record.player0 ≠ "" then validatePlayer 0 record.player0
  else if validatePlayer 1 record.player1 ≠ "" then validatePlayer 1 record.player1
  else if record.player0.playerId = record.player1.playerId then
    "两位玩家的标识相同，同一人占了两个位置"
  else if (record.phase = .playing ∨ record.phase = .finishing) ∧ !record.player0.joined ∧
      !record.player1.joined then
    "对局状态为已开打，但双方都不在房间内"
  else if record.winnerId ≠ "" ∧ record.winnerId ≠ record.player0.playerId ∧
      record.winnerId ≠ record.player1.playerId then
    "winner_id 不在场上玩家之中"
  else if (record.phase = .finished ∨ record.phase = .aborted) ∧ record.finishReason = .none then
    "已处于终态但 finish_reason 为 none"
  else ""

/-! ## The row

One column for each field, and the columns that are derived. -/

/-- A row of the table `rooms`: the two enumerations are text, a missing winner is NULL. -/
structure RoomsRow where
  matchId : String
  roomId : String
  state : String
  frame : Int
  player0 : RoomPlayerRecord
  player1 : RoomPlayerRecord
  winnerId : Option String
  finishReason : String
  startedAtMs : Int
  finishedAtMs : Int
  snapshotAtMs : Int
  deriving DecidableEq, Repr

/-- `RoomSnapshotRow`: a record, and why it cannot be used. -/
structure RoomSnapshotRow where
  record : RoomSnapshotRecord
  problem : String
  deriving DecidableEq, Repr

namespace RoomsRow

/-- The parameters of the upsert statement. -/
def ofRecord (record : RoomSnapshotRecord) : RoomsRow where
  matchId := record.matchId
  roomId := record.roomId
  state := record.phase.toText
  frame := record.frame
  player0 := record.player0
  player1 := record.player1
  winnerId := if record.winnerId = "" then none else some record.winnerId
  finishReason := record.finishReason.toText
  startedAtMs := record.startedAtMs
  finishedAtMs := record.finishedAtMs
  snapshotAtMs := record.snapshotAtMs

/-- The columns that need no parsing. -/
def columns (row : RoomsRow) : RoomSnapshotRecord where
  matchId := row.matchId
  roomId := row.roomId
  phase := .created
  frame := row.frame
  player0 := row.player0
  player1 := row.player1
  winnerId := row.winnerId.getD ""
  finishReason := .none
  startedAtMs := row.startedAtMs
  finishedAtMs := row.finishedAtMs
  snapshotAtMs := row.snapshotAtMs

/-- The row decoding of `LoadUnfinished`: an unknown text is a problem, never a default. -/
def decode (row : RoomsRow) : RoomSnapshotRow :=
  match parseRoomPhase row.state with
  | none => ⟨row.columns, "state 是未知取值：" ++ row.state⟩
  | some phase =>
    match parseFinishReason row.finishReason with
    | none =>
      ⟨{ row.columns with phase := phase }, "finish_reason 是未知取值：" ++ row.finishReason⟩
    | some reason =>
      let record := { row.columns with phase := phase, finishReason := reason }
      ⟨record, validateRoomSnapshot record⟩

/-- Only a row that the database takes for unfinished is loaded on restart. -/
def loaded (collation : Collation) (row : RoomsRow) : Bool :=
  collation row.state ≠ collation "finished" && collation row.state ≠ collation "aborted"

/-- The columns of text. -/
def texts (row : RoomsRow) : List String :=
  [row.matchId, row.roomId, row.state, row.player0.playerId, row.player1.playerId, row.finishReason] ++
    row.winnerId.toList

/-- No column of the row is too long to be read. -/
def Fits (row : RoomsRow) : Prop := ∀ text ∈ row.texts, fitsBuffer text

instance (row : RoomsRow) : Decidable row.Fits := inferInstanceAs (Decidable (∀ _ ∈ _, _))

/-- The rows of `kSelectSql`: those that are not over, by the time of their snapshot. -/
def selected (collation : Collation) (rows : List RoomsRow) : List RoomsRow :=
  (rows.filter (loaded collation)).insertionSort fun a b => a.snapshotAtMs ≤ b.snapshotAtMs

/-- **`LoadUnfinished`** on a connection that is up, over the rows of the table; one row that cannot be read
fails it. -/
def loadUnfinished (collation : Collation) (rows : List RoomsRow) : Option (List RoomSnapshotRow) :=
  if ∀ row ∈ selected collation rows, row.Fits then some ((selected collation rows).map decode) else none

theorem selected_perm (collation : Collation) (rows : List RoomsRow) :
    (selected collation rows).Perm (rows.filter (loaded collation)) := List.perm_insertionSort _ _

theorem mem_selected {collation : Collation} {rows : List RoomsRow} {row : RoomsRow} :
    row ∈ selected collation rows ↔ row ∈ rows ∧ row.loaded collation = true := by
  rw [(selected_perm collation rows).mem_iff, List.mem_filter]

/-- What is loaded is a row that is not over, decoded. -/
theorem mem_loadUnfinished {collation : Collation} {rows : List RoomsRow} {read : RoomSnapshotRow}
    (h : read ∈ (loadUnfinished collation rows).getD []) :
    ∃ row ∈ rows, row.loaded collation = true ∧ read = row.decode := by
  unfold loadUnfinished at h
  split at h
  · obtain ⟨row, hrow, rfl⟩ := List.mem_map.mp h
    exact ⟨row, (mem_selected.mp hrow).1, (mem_selected.mp hrow).2, rfl⟩
  · cases h

/-- A row with the text of a final phase is not loaded. -/
theorem loaded_of_final {collation : Collation} {row : RoomsRow}
    (h : row.state = "finished" ∨ row.state = "aborted") : row.loaded collation = false := by
  rcases h with h | h <;> simp [loaded, h]

theorem columns_ofRecord (record : RoomSnapshotRecord) :
    (ofRecord record).columns = { record with phase := .created, finishReason := .none } := by
  have hwinner : (if record.winnerId = "" then none else some record.winnerId).getD ""
      = record.winnerId := by
    split
    case isTrue h => rw [h]; rfl
    case isFalse => rfl
  simp only [columns, ofRecord, hwinner]

/-- A written record is read back as itself, and checked, unless its reason is a disconnect. -/
theorem decode_ofRecord (record : RoomSnapshotRecord) :
    (ofRecord record).decode =
      if record.finishReason = .disconnect then
        ⟨{ record with finishReason := .none }, "finish_reason 是未知取值：disconnect"⟩
      else ⟨record, validateRoomSnapshot record⟩ := by
  rw [decode, columns_ofRecord]
  simp only [ofRecord, parseRoomPhase_toText, parseFinishReason_toText]
  by_cases hreason : record.finishReason = .disconnect
  · simp only [if_pos hreason]
    rw [hreason]
    rfl
  · simp only [if_neg hreason]

end RoomsRow

/-! ## Writing a room

What is kept of a room, and what is not. -/

namespace BattleRoom

/-- What the record keeps of a player. -/
def playerRecord (p : PlayerSnapshot) : RoomPlayerRecord :=
  ⟨p.playerId, p.hp, p.connected⟩

/-- `MakeSnapshotRecord`: a place that is not there is written as the default player. -/
def makeSnapshotRecord (r : BattleRoom) (nowMs : Int) : RoomSnapshotRecord where
  matchId := r.matchId
  roomId := r.roomId
  phase := r.phase
  frame := r.frame
  player0 := ((r.snapshot.players[0]?).map playerRecord).getD .empty
  player1 := ((r.snapshot.players[1]?).map playerRecord).getD .empty
  winnerId := r.winnerId
  finishReason := r.finishReason
  startedAtMs := r.startedAtMs
  finishedAtMs := r.finishedAtMs
  snapshotAtMs := nowMs

/-- **The round trip of a restart** — the room is written at `writtenAtMs`, its row read back, and
the room rebuilt at `restartAtMs`; `none` when the row is rejected. -/
def roundTrip (r : BattleRoom) (writtenAtMs restartAtMs : Int) : Option BattleRoom :=
  let row := (RoomsRow.ofRecord (r.makeSnapshotRecord writtenAtMs)).decode
  if row.problem = "" then restoreFrom row.record restartAtMs else none

/-- The fields of a room that a restart keeps. -/
structure Restores (r r' : BattleRoom) : Prop where
  roomId : r'.roomId = r.roomId
  matchId : r'.matchId = r.matchId
  phase : r'.phase = r.phase
  frame : r'.frame = r.frame
  players : r'.seats.map (fun s => (s.player.playerId, s.player.hp, s.player.connected))
    = r.seats.map fun s => (s.player.playerId, s.player.hp, s.player.connected)
  winnerId : r'.winnerId = r.winnerId
  finishReason : r'.finishReason = r.finishReason
  startedAtMs : r'.startedAtMs = r.startedAtMs
  finishedAtMs : r'.finishedAtMs = r.finishedAtMs
  result : r'.result = r.result

variable {p q : String} {r : BattleRoom}

/-- A room of two players has two places. -/
theorem WellFormed.seats_eq (h : WellFormed p q r) :
    ∃ a b, r.seats = [a, b] ∧ a.player.playerId = p ∧ b.player.playerId = q := by
  obtain ⟨a, rest, hseats, rfl, hrest⟩ := List.map_eq_cons_iff.mp h.playerIds
  obtain ⟨b, tail, rfl, rfl, hnil⟩ := List.map_eq_cons_iff.mp hrest
  obtain rfl := List.map_eq_nil_iff.mp hnil
  exact ⟨a, b, hseats, rfl, rfl⟩

/-- A player's record passes its check. -/
theorem WellFormed.validatePlayer (h : WellFormed p q r) (hp : validId p = true)
    (hq : validId q = true) {s : Seat} (hs : s ∈ r.seats) (i : Nat) :
    validatePlayer i (playerRecord s.player) = "" := by
  have hid : (!validId (playerRecord s.player).playerId) = false := by
    rcases h.mem_playerId hs with hs' | hs' <;> simp only [playerRecord, hs', hp, hq, Bool.not_true]
  have hhp : ¬((playerRecord s.player).hp < 0 ∨ kInitialHp < (playerRecord s.player).hp) := by
    have := h.hp s hs
    simp only [playerRecord]
    omega
  rw [Room.validatePlayer, hid, if_neg Bool.false_ne_true, if_neg hhp]

/-- **Every unfinished room passes the check of a restart.** -/
theorem WellFormed.validateRoomSnapshot (h : WellFormed p q r) (hp : validId p = true)
    (hq : validId q = true) (hpq : p ≠ q)
    (hphase : r.phase ≠ .finished ∧ r.phase ≠ .aborted) (nowMs : Int) :
    validateRoomSnapshot (r.makeSnapshotRecord nowMs) = "" := by
  obtain ⟨a, b, hseats, rfl, rfl⟩ := h.seats_eq
  have ha : a ∈ r.seats := by rw [hseats]; exact List.mem_cons_self
  have hb : b ∈ r.seats := by rw [hseats]; exact List.mem_cons_of_mem _ List.mem_cons_self
  generalize hrecord : r.makeSnapshotRecord nowMs = record
  have hplayer0 : record.player0 = playerRecord a.player := by
    rw [← hrecord, makeSnapshotRecord, snapshot, hseats]; rfl
  have hplayer1 : record.player1 = playerRecord b.player := by
    rw [← hrecord, makeSnapshotRecord, snapshot, hseats]; rfl
  have hids : (!validId record.matchId) = false ∧ (!validId record.roomId) = false := by
    rw [← hrecord]
    exact ⟨by rw [makeSnapshotRecord, h.matchId]; rfl, by rw [makeSnapshotRecord, h.roomId]; rfl⟩
  have hframe : ¬(record.frame < 0 ∨ kMaxFrames < record.frame) := by
    have := h.frame
    simp only [← hrecord, makeSnapshotRecord]
    omega
  have htimes : ¬(record.startedAtMs < 0 ∨ record.finishedAtMs < 0) := by
    have := h.times
    simp only [← hrecord, makeSnapshotRecord]
    omega
  have hjoined : ¬((record.phase = .playing ∨ record.phase = .finishing) ∧
      !(playerRecord a.player).joined ∧ !(playerRecord b.player).joined) := by
    rintro ⟨hplayed, hnot, -⟩
    rw [← hrecord] at hplayed
    rw [playerRecord, h.joined hplayed a ha] at hnot
    cases hnot
  have hwinner : ¬(record.winnerId ≠ "" ∧ record.winnerId ≠ (playerRecord a.player).playerId ∧
      record.winnerId ≠ (playerRecord b.player).playerId) := by
    rintro ⟨hne, hnea, hneb⟩
    rw [← hrecord] at hne hnea hneb
    rcases h.winnerId with hw | hw | hw
    · exact hne hw
    · exact hnea hw
    · exact hneb hw
  have hterminal :
      ¬((record.phase = .finished ∨ record.phase = .aborted) ∧ record.finishReason = .none) := by
    rintro ⟨hterm, -⟩
    rw [← hrecord] at hterm
    exact hterm.elim hphase.1 hphase.2
  rw [Room.validateRoomSnapshot, hplayer0, hplayer1, hids.1, hids.2, h.validatePlayer hp hq ha,
    h.validatePlayer hp hq hb, if_neg Bool.false_ne_true, if_neg Bool.false_ne_true,
    if_neg hframe, if_neg htimes, if_neg (not_not.mpr rfl), if_neg (not_not.mpr rfl),
    if_neg (show (playerRecord a.player).playerId ≠ (playerRecord b.player).playerId from hpq),
    if_neg hjoined, if_neg hwinner, if_neg hterminal]

/-- A room of two players is rebuilt from its own record with every field it keeps. -/
theorem WellFormed.restores (h : WellFormed p q r) (hp : validId p = true) (hq : validId q = true)
    (hpq : p ≠ q) (writtenAtMs restartAtMs : Int) :
    ∃ r', restoreFrom (r.makeSnapshotRecord writtenAtMs) restartAtMs = some r' ∧
      Restores r r' := by
  obtain ⟨a, b, hseats, rfl, rfl⟩ := h.seats_eq
  have hplayer0 : (r.makeSnapshotRecord writtenAtMs).player0 = playerRecord a.player := by
    rw [makeSnapshotRecord, snapshot, hseats]; rfl
  have hplayer1 : (r.makeSnapshotRecord writtenAtMs).player1 = playerRecord b.player := by
    rw [makeSnapshotRecord, snapshot, hseats]; rfl
  have hne : ∀ id, validId id = true → id ≠ "" := by
    rintro id hid rfl
    cases hid
  refine ⟨restored (r.makeSnapshotRecord writtenAtMs) restartAtMs, ?_, ?_⟩
  · rw [restoreFrom, hplayer0, hplayer1,
      if_neg (show (playerRecord a.player).playerId ≠ "" from hne _ hp),
      if_neg (show (playerRecord a.player).playerId ≠ (playerRecord b.player).playerId from hpq),
      if_neg (show (playerRecord b.player).playerId ≠ "" from hne _ hq)]
  · have hcount := h.playerCount
    exact
      { roomId := rfl
        matchId := rfl
        phase := rfl
        frame := rfl
        players := by
          rw [restored, pushSnapshot_seats, hplayer0, hplayer1, hseats]
          rfl
        winnerId := rfl
        finishReason := rfl
        startedAtMs := rfl
        finishedAtMs := rfl
        result := by
          simp only [result, restored, makeSnapshotRecord, pushSnapshot_phase, pushSnapshot_matchId,
            pushSnapshot_roomId, pushSnapshot_winnerId, pushSnapshot_playerCount,
            pushSnapshot_startedAtMs, pushSnapshot_finishedAtMs, hcount]
          rfl }

/-! ## The round trip

Written, read, checked and rebuilt. -/

/-- The checks `RoomManager::Create` makes on its arguments. -/
def createArgsOk (matchId : String) (playerIds : List String) : Bool :=
  validId matchId && playerIds ≠ [] && playerIds.all validId

/-- **The round trip restores a room exactly when it did not end by a disconnect** — for every run
of a room of two players that is not over. -/
theorem roundTrip_iff {roomId matchId : String} {createdAtMs : Int} {ops : List Op}
    (hroom : validId roomId = true) (hargs : createArgsOk matchId [p, q] = true) (hpq : p ≠ q)
    (hrun : Run Step (new roomId matchId [p, q] createdAtMs) ops r)
    (hphase : r.phase ≠ .finished ∧ r.phase ≠ .aborted) (writtenAtMs restartAtMs : Int) :
    (∃ r', r.roundTrip writtenAtMs restartAtMs = some r' ∧ Restores r r') ↔
      r.finishReason ≠ .disconnect := by
  simp only [createArgsOk, List.all_cons, List.all_nil, Bool.and_true, Bool.and_eq_true] at hargs
  obtain ⟨⟨hmatch, -⟩, hp, hq⟩ := hargs
  have hwf := (WellFormed.new (p := p) (q := q) hroom hmatch createdAtMs).of_run hrun
  have hreason : (r.makeSnapshotRecord writtenAtMs).finishReason = r.finishReason := rfl
  rw [roundTrip, RoomsRow.decode_ofRecord, hreason]
  by_cases hd : r.finishReason = .disconnect
  · simp [hd]
  · have hvalid := hwf.validateRoomSnapshot hp hq hpq hphase writtenAtMs
    rw [if_neg hd, if_pos hvalid, iff_true_right hd]
    exact hwf.restores hp hq hpq writtenAtMs restartAtMs

/-- Both players join, alice hits bob, and bob's connection fails. -/
def playedGame : List Op :=
  [.join "alice" 1000, .join "bob" 1000, .submitInput "alice" .attack, .tick 1100, .setPresence "bob" false 1200]

/-- …for good. -/
def disconnectedGame : List Op := playedGame ++ [.tick 31200]

theorem roundTrip_iff_played :
    (playedGame.foldl apply (new "r-1" "m-1" ["alice", "bob"] 1000)).phase = .playing ∧
      ((∃ r', (playedGame.foldl apply (new "r-1" "m-1" ["alice", "bob"] 1000)).roundTrip 2000 3000 = some r' ∧
        Restores (playedGame.foldl apply (new "r-1" "m-1" ["alice", "bob"] 1000)) r') ↔
      (playedGame.foldl apply (new "r-1" "m-1" ["alice", "bob"] 1000)).finishReason ≠ .disconnect) :=
  ⟨by decide, roundTrip_iff (by decide) (by decide) (by decide) (Run.of_guarded (by decide)) (by decide) 2000 3000⟩

/-- A game won by disconnect is rejected on restart: its reason is written as a text that the reader
does not know. -/
theorem roundTrip_disconnect :
    ¬ ∀ (roomId matchId p q : String) (createdAtMs : Int) (ops : List Op) (r : BattleRoom)
        (writtenAtMs restartAtMs : Int),
      validId roomId = true → createArgsOk matchId [p, q] = true → p ≠ q → 0 ≤ createdAtMs →
      Run Step (new roomId matchId [p, q] createdAtMs) ops r →
      r.phase ≠ .finished ∧ r.phase ≠ .aborted →
      ∃ r', r.roundTrip writtenAtMs restartAtMs = some r' ∧ Restores r r' := by
  intro hclaim
  obtain ⟨r', hr', -⟩ := hclaim "r-1" "m-1" "alice" "bob" 1000 disconnectedGame
    (disconnectedGame.foldl apply (new "r-1" "m-1" ["alice", "bob"] 1000)) 31300 32000
    (by decide) (by decide) (by decide) (by decide)
    (.cons ⟨by decide, rfl⟩ (.cons ⟨by decide, rfl⟩ (.cons ⟨by decide, rfl⟩
      (.cons ⟨by decide, rfl⟩ (.cons ⟨by decide, rfl⟩ (.single ⟨by decide, rfl⟩))))))
    (by decide)
  have hnone : (disconnectedGame.foldl apply
      (new "r-1" "m-1" ["alice", "bob"] 1000)).roundTrip 31300 32000 = none := by decide
  rw [hnone] at hr'
  cases hr'

end BattleRoom

end RealtimeGame.Room
