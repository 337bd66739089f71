import RealtimeGame.Room.Types

/-!
# Room/BattleRoom — one battle, from its creation to its result

The room is advanced from outside: every operation gets the time as an argument.  A seat holds what
the source keeps in three arrays with one index (the player's snapshot, his connection, his pending
attack), so that the arrays cannot fall out of step.
-/

namespace RealtimeGame.Room

inductive JoinOutcome
  | ok
  | notAMember
  | alreadyFinished
  | invalidArgument
  deriving DecidableEq, Repr

inductive SubmitOutcome
  | accepted
  | notInRoom
  | notPlaying
  | alreadyFinished
  | invalidArgument
  deriving DecidableEq, Repr

inductive PresenceOutcome
  | ok
  | notAMember
  | alreadyFinished
  | invalidArgument
  deriving DecidableEq, Repr

/-- `PlayerRuntime`: the connection of a player; `offlineSinceMs` is 0 while he is online. -/
structure PlayerRuntime where
  online : Bool := true
  offlineSinceMs : Int := 0
  deriving DecidableEq, Repr

/-- One place of the room. -/
structure Seat where
  player : PlayerSnapshot
  runtime : PlayerRuntime
  pendingAttack : Bool
  deriving DecidableEq, Repr

namespace Seat

/-- A place of a new room: not joined yet, taken to be online. -/
def vacant (playerId : String) : Seat :=
  ⟨⟨playerId, kInitialHp, false, true⟩, {}, false⟩

/-- A place of a restored room. -/
def restored (p : RoomPlayerRecord) : Seat :=
  ⟨⟨p.playerId, p.hp, p.joined, true⟩, {}, false⟩

def join (s : Seat) : Seat := { s with player := { s.player with connected := true } }

def attack (s : Seat) : Seat := { s with pendingAttack := true }

def goOnline (s : Seat) : Seat :=
  { s with player := { s.player with online := true }, runtime := ⟨true, 0⟩ }

def goOffline (nowMs : Int) (s : Seat) : Seat :=
  { s with player := { s.player with online := false }, runtime := ⟨false, nowMs⟩ }

/-- The damage of one attack; hit points stop at zero. -/
def hit (s : Seat) : Seat :=
  { s with player := { s.player with hp := max 0 (s.player.hp - kAttackDamage) } }

end Seat

structure BattleRoom where
  roomId : String
  matchId : String
  phase : RoomPhase
  finishReason : FinishReason
  frame : Int
  seats : List Seat
  createdAtMs : Int
  startedAtMs : Int
  finishedAtMs : Int
  /-- The time frames have been advanced to. -/
  lastTickMs : Int
  lastPersistAttemptMs : Int
  winnerId : String
  playerCount : Int
  /-- The ring buffer of snapshots, oldest first. -/
  history : List RoomSnapshot
  deriving DecidableEq, Repr

namespace BattleRoom

variable (r : BattleRoom) (nowMs : Int)

/-! ## Snapshots

What is shown of a room, and the last of these that are kept. -/

def snapshot : RoomSnapshot where
  roomId := r.roomId
  matchId := r.matchId
  phase := r.phase
  frame := r.frame
  players := r.seats.map (·.player)
  finishReason := r.finishReason
  winnerId := r.winnerId
  startedAtMs := r.startedAtMs
  finishedAtMs := r.finishedAtMs

/-- Drop snapshots from the front down to the capacity of the buffer.  Irreducible, so that comparing
two rooms never counts to the capacity. -/
@[irreducible] def trimHistory (history : List RoomSnapshot) : List RoomSnapshot :=
  history.drop (history.length - kMaxSnapshotHistory)

def pushSnapshot : BattleRoom := { r with history := trimHistory (r.history ++ [r.snapshot]) }

@[simp] theorem pushSnapshot_roomId : r.pushSnapshot.roomId = r.roomId := rfl
@[simp] theorem pushSnapshot_matchId : r.pushSnapshot.matchId = r.matchId := rfl
@[simp] theorem pushSnapshot_phase : r.pushSnapshot.phase = r.phase := rfl
@[simp] theorem pushSnapshot_finishReason : r.pushSnapshot.finishReason = r.finishReason := rfl
@[simp] theorem pushSnapshot_frame : r.pushSnapshot.frame = r.frame := rfl
@[simp] theorem pushSnapshot_seats : r.pushSnapshot.seats = r.seats := rfl
@[simp] theorem pushSnapshot_startedAtMs : r.pushSnapshot.startedAtMs = r.startedAtMs := rfl
@[simp] theorem pushSnapshot_finishedAtMs : r.pushSnapshot.finishedAtMs = r.finishedAtMs := rfl
@[simp] theorem pushSnapshot_winnerId : r.pushSnapshot.winnerId = r.winnerId := rfl
@[simp] theorem pushSnapshot_playerCount : r.pushSnapshot.playerCount = r.playerCount := rfl
@[simp] theorem pushSnapshot_snapshot : r.pushSnapshot.snapshot = r.snapshot := rfl

/-- `SnapshotFrameRange`: the oldest and newest frame in the buffer, `(0, 0)` when it is empty. -/
def snapshotFrameRange : Int × Int :=
  match r.history with
  | [] => (0, 0)
  | s :: rest => rest.foldl (fun range s => (min range.1 s.frame, max range.2 s.frame))
      (s.frame, s.frame)

/-- `SnapshotsAfter`: the later frames, of each run of equal frames the last snapshot. -/
def snapshotsAfter (sinceFrame : Int) : List RoomSnapshot :=
  r.history.foldl (fun result s =>
    if s.frame ≤ sinceFrame then result
    else if result.getLast?.map (·.frame) = some s.frame then result.dropLast ++ [s]
    else result ++ [s]) []

/-! ## Creation and restoration

A room is made for its players, or from a record that passes the same checks. -/

/-- The constructor. -/
def new (roomId matchId : String) (playerIds : List String) (nowMs : Int) : BattleRoom :=
  pushSnapshot
    { roomId := roomId, matchId := matchId, phase := .created, finishReason := .none, frame := 0
      seats := playerIds.map Seat.vacant, createdAtMs := nowMs, startedAtMs := 0
      finishedAtMs := 0, lastTickMs := 0, lastPersistAttemptMs := 0, winnerId := ""
      playerCount := playerIds.length, history := [] }

/-- The room that a record is rebuilt to: the frames of the downtime are dropped, both players count
as online, and a decided room retries its result at once. -/
def restored (record : RoomSnapshotRecord) (nowMs : Int) : BattleRoom :=
  pushSnapshot
    { roomId := record.roomId, matchId := record.matchId, phase := record.phase
      finishReason := record.finishReason, frame := record.frame
      seats := [Seat.restored record.player0, Seat.restored record.player1]
      createdAtMs := if 0 < record.snapshotAtMs then record.snapshotAtMs else nowMs
      startedAtMs := record.startedAtMs, finishedAtMs := record.finishedAtMs
      lastTickMs := nowMs, lastPersistAttemptMs := nowMs - kResultRetryIntervalMs
      winnerId := record.winnerId, playerCount := kPlayersPerRoom, history := [] }

/-- `RestoreFrom`: a missing or repeated player is refused. -/
def restoreFrom (record : RoomSnapshotRecord) (nowMs : Int) : Option BattleRoom :=
  if record.player0.playerId = "" then none
  else if record.player0.playerId = record.player1.playerId then none
  else if record.player1.playerId = "" then none
  else some (restored record nowMs)

/-! ## Players

What a player may do, and what is answered. -/

def hasPlayer (playerId : String) : Bool := r.seats.any (·.player.playerId = playerId)

/-- Is this player's place taken up by him? -/
def isConnected (playerId : String) : Bool :=
  match r.seats.find? (·.player.playerId = playerId) with
  | some seat => seat.player.connected
  | none => false

/-- Change the first place of a player. -/
def updateSeat (playerId : String) (f : Seat → Seat) : List Seat → List Seat
  | [] => []
  | seat :: rest =>
    if seat.player.playerId = playerId then f seat :: rest
    else seat :: updateSeat playerId f rest

def join (playerId : String) : JoinOutcome × BattleRoom :=
  if !validId playerId then (.invalidArgument, r)
  else if !r.phase.unfinished then (.alreadyFinished, r)
  else if !r.hasPlayer playerId then (.notAMember, r)
  else if r.isConnected playerId then (.ok, r)
  else
    let seats := updateSeat playerId Seat.join r.seats
    if seats.all (·.player.connected) then
      (.ok, pushSnapshot { r with seats := seats, phase := .playing, startedAtMs := nowMs,
                                  lastTickMs := nowMs, frame := 0 })
    else
      (.ok, pushSnapshot { r with seats := seats,
                                  phase := if r.phase = .created then .waiting else r.phase })

def submitInput (playerId : String) (_kind : InputKind) : SubmitOutcome × BattleRoom :=
  if !validId playerId then (.invalidArgument, r)
  else if !(r.phase.unfinished) then (.alreadyFinished, r)
  else if r.phase ≠ .playing then (.notPlaying, r)
  else if !r.hasPlayer playerId then (.notInRoom, r)
  else (.accepted, { r with seats := updateSeat playerId Seat.attack r.seats })

/-- Is the connection of this player up? -/
def isOnline (playerId : String) : Bool :=
  match r.seats.find? (·.player.playerId = playerId) with
  | some seat => seat.runtime.online
  | none => false

def setPresence (playerId : String) (online : Bool) : PresenceOutcome × BattleRoom :=
  if !validId playerId then (.invalidArgument, r)
  else if !r.phase.unfinished then (.alreadyFinished, r)
  else if !r.hasPlayer playerId then (.notAMember, r)
  else if online then (.ok, { r with seats := updateSeat playerId Seat.goOnline r.seats })
  else if r.isOnline playerId then
    (.ok, pushSnapshot { r with seats := updateSeat playerId (Seat.goOffline nowMs) r.seats })
  else (.ok, r)

/-! ## The end of a game

A result is written after the end, and its write may fail; then it is tried again after a while. -/

def finish (reason : FinishReason) (winnerId : String) : BattleRoom :=
  pushSnapshot { r with phase := .finishing, finishReason := reason, winnerId := winnerId,
                        finishedAtMs := nowMs, lastPersistAttemptMs := 0 }

def abort : BattleRoom :=
  pushSnapshot { r with phase := .aborted, finishReason := .aborted, winnerId := "",
                        finishedAtMs := nowMs }

def markResultPersisted : BattleRoom :=
  if r.phase = .finishing then { r with phase := .finished } else r

def markResultFailed : BattleRoom :=
  if r.phase = .finishing then { r with lastPersistAttemptMs := nowMs } else r

def shouldRetryPersist : Bool :=
  r.phase = .finishing && kResultRetryIntervalMs ≤ nowMs - r.lastPersistAttemptMs

def result : Option MatchResultRecord :=
  if r.phase = .finishing ∨ r.phase = .finished then
    some ⟨r.matchId, r.roomId, r.winnerId, r.playerCount, r.startedAtMs, r.finishedAtMs⟩
  else none

def isExpired : Bool :=
  (r.phase = .finished || r.phase = .aborted) && kFinishedRetentionMs ≤ nowMs - r.finishedAtMs

/-! ## Time

A frame settles the attacks of both players together.  While somebody is away the frames stand still. -/

def isWaitingForReconnect : Bool := r.seats.any (!·.runtime.online)

/-- The latest time at which somebody who is offline went offline. -/
def latestOfflineAt : Int :=
  r.seats.foldl (fun latest s => if s.runtime.online then latest
    else max latest s.runtime.offlineSinceMs) 0

/-- `ResolveReconnectGrace`: `none` while the game goes on or is held. -/
def resolveReconnectGrace : Option BattleRoom :=
  if r.phase ≠ .playing then none
  else if r.seats.all (·.runtime.online) then none
  else if nowMs - r.latestOfflineAt < kReconnectGraceMs then none
  else
    match (r.seats.filter (·.runtime.online)).getLast? with
    | some seat => some (r.finish nowMs .disconnect seat.player.playerId)
    | none => some (r.abort nowMs)

/-- Settle the pending attack of place `i` on the next place. -/
def strike (seats : List Seat) (i : Nat) : List Seat :=
  if (seats[i]?.map (·.pendingAttack)).getD false then
    let seats := seats.modify i fun s => { s with pendingAttack := false }
    if seats.length < 2 then seats else seats.modify ((i + 1) % seats.length) Seat.hit
  else seats

def settleAttacks (seats : List Seat) : List Seat :=
  (List.range seats.length).foldl strike seats

/-- The winner by hit points when time is up. -/
def winnerByHp : List Seat → String
  | [a, b] =>
    if b.player.hp < a.player.hp then a.player.playerId
    else if a.player.hp < b.player.hp then b.player.playerId
    else ""
  | _ => ""

def advanceOneFrame : BattleRoom :=
  let r : BattleRoom := { r with frame := r.frame + 1, seats := settleAttacks r.seats }
  let alive := r.seats.filter fun s => 0 < s.player.hp
  if alive.length ≤ 1 then
    r.finish nowMs .hpZero ((alive.head?.map (·.player.playerId)).getD "")
  else if kMaxFrames ≤ r.frame then
    r.finish nowMs .timeout (winnerByHp r.seats)
  else r.pushSnapshot

/-- The loop of `Tick`: up to `frames` frames, for as long as the game goes on. -/
def advanceFrames (nowMs : Int) : Nat → BattleRoom → BattleRoom
  | 0, r => r
  | frames + 1, r =>
    if r.phase = .playing then
      advanceFrames nowMs frames
        ({ r with lastTickMs := r.lastTickMs + kFrameIntervalMs }.advanceOneFrame nowMs)
    else r

/-- **`Tick`** — advance the room to `nowMs`; the first component says whether it changed. -/
def tick : Bool × BattleRoom :=
  if r.phase = .created ∨ r.phase = .waiting then
    if kWaitingTimeoutMs ≤ nowMs - r.createdAtMs then (true, r.abort nowMs) else (false, r)
  else if r.phase ≠ .playing then (false, r)
  else if r.isWaitingForReconnect then
    match r.resolveReconnectGrace nowMs with
    | some r => (true, r)
    | none => (false, { r with lastTickMs := nowMs })
  else if nowMs < r.lastTickMs then (false, r)
  else
    let frames := (nowMs - r.lastTickMs) / kFrameIntervalMs
    if frames ≤ 0 then (false, r)
    else if kMaxCatchUpFrames < frames then
      let dropped := (frames - kMaxCatchUpFrames) * kFrameIntervalMs
      (true, advanceFrames nowMs kMaxCatchUpFrames.toNat
        { r with lastTickMs := r.lastTickMs + dropped })
    else (true, advanceFrames nowMs frames.toNat r)

end BattleRoom

end RealtimeGame.Room
