import RealtimeGame.Library.Gapless
import RealtimeGame.Room.Registry
import RealtimeGame.Room.ResultAgreement

/-!
# Room/History — the window of snapshots that a room can send again

The buffer of a room holds several snapshots of one frame and loses its front.  It has no gaps all the
same, and it ends with the frame of the room (`Windowed`): so what `GetSnapshotsSince` answers is read
off the first frame that is left and the frame of the room (`backfill_window`).
-/

open Library

namespace RealtimeGame.Room

/-! ## Places, whatever their number

What every frame keeps of the places. -/

namespace BattleRoom

variable {P : Seat → Prop} {l : List Seat}

theorem forall_modify {f : Seat → Seat} (h : ∀ s ∈ l, P s) (hf : ∀ s, P s → P (f s)) (i : Nat) :
    ∀ s ∈ l.modify i f, P s := by
  induction l generalizing i with
  | nil => simp
  | cons s l ih =>
    rw [List.forall_mem_cons] at h
    cases i with
    | zero => exact List.forall_mem_cons.mpr ⟨hf s h.1, h.2⟩
    | succ i => exact List.forall_mem_cons.mpr ⟨h.1, ih h.2 i⟩

/-- What spent attacks and hits keep, a frame keeps. -/
theorem forall_settleAttacks (h : ∀ s ∈ l, P s) (hspent : ∀ s, P s → P { s with pendingAttack := false })
    (hhit : ∀ s, P s → P s.hit) : ∀ s ∈ settleAttacks l, P s := by
  have hstrike : ∀ (l : List Seat) (i : Nat), (∀ s ∈ l, P s) → ∀ s ∈ strike l i, P s := by
    intro l i hl
    unfold strike
    split
    · have hone := forall_modify hl hspent i
      dsimp only
      split
      · exact hone
      · exact forall_modify hone hhit _
    · exact hl
  have hfold : ∀ (is : List Nat) (l : List Seat), (∀ s ∈ l, P s) → ∀ s ∈ is.foldl strike l, P s := by
    intro is
    induction is with
    | nil => exact fun _ hl => hl
    | cons i is ih => exact fun l hl => ih _ (hstrike l i hl)
  exact hfold _ l h

/-! ## The buffer

It is filled at the end and trimmed at the front, so it stays gapless. -/

variable {r : BattleRoom} {nowMs : Int}

/-- **The law of the buffer**, and of what its upkeep rests on. -/
structure Windowed (r : BattleRoom) : Prop where
  gapless : Gapless RoomSnapshot.frame r.history
  last : ∃ front s, r.history = front ++ [s] ∧ s.frame = r.frame
  /-- `Join` sets the frame back only to where it is. -/
  waiting : r.phase = .created ∨ r.phase = .waiting → r.frame = 0
  playing : r.phase = .playing → ∀ s ∈ r.seats, s.player.connected = true
  presence : ∀ s ∈ r.seats, s.player.online = s.runtime.online

/-- The last snapshot stays. -/
theorem trimHistory_snoc (history : List RoomSnapshot) (s : RoomSnapshot) :
    ∃ front, trimHistory (history ++ [s]) = front ++ [s] := by
  refine ⟨history.drop (history.length + 1 - kMaxSnapshotHistory), ?_⟩
  unfold trimHistory
  rw [List.length_append, List.length_singleton, List.drop_append_of_le_length]
  have : 0 < kMaxSnapshotHistory := by decide
  omega

theorem map_trimHistory (f : RoomSnapshot → RoomSnapshot) (history : List RoomSnapshot) :
    (trimHistory history).map f = trimHistory (history.map f) := by
  unfold trimHistory
  rw [List.map_drop, List.length_map]

/-- The snapshot that is pushed is the last one. -/
theorem history_pushSnapshot (r : BattleRoom) :
    ∃ front, r.pushSnapshot.history = front ++ [r.snapshot] := trimHistory_snoc r.history r.snapshot

theorem gapless_trimHistory {history : List RoomSnapshot} (h : Gapless RoomSnapshot.frame history) :
    Gapless RoomSnapshot.frame (trimHistory history) := by
  unfold trimHistory
  exact h.drop _

namespace Windowed

/-- **A snapshot is pushed**, of the frame where the room was or of the next one. -/
theorem push (h : Windowed r) {r' : BattleRoom} (hhistory : r'.history = r.history)
    (hframe : r'.frame = r.frame ∨ r'.frame = r.frame + 1)
    (hwaiting : r'.phase = .created ∨ r'.phase = .waiting → r'.frame = 0)
    (hplaying : r'.phase = .playing → ∀ s ∈ r'.seats, s.player.connected = true)
    (hpresence : ∀ s ∈ r'.seats, s.player.online = s.runtime.online) : Windowed r'.pushSnapshot where
  gapless := by
    obtain ⟨front, last, hlast, heq⟩ := h.last
    have hgrown : Gapless RoomSnapshot.frame (r.history ++ [r'.snapshot]) := by
      have hgapless := h.gapless
      rw [hlast] at hgapless ⊢
      rw [List.append_assoc]
      exact hgapless.snoc (by rw [heq]; exact hframe)
    rw [pushSnapshot, hhistory]
    exact gapless_trimHistory hgrown
  last := by
    obtain ⟨front, hfront⟩ := r'.history_pushSnapshot
    exact ⟨front, r'.snapshot, hfront, rfl⟩
  waiting := hwaiting
  playing := hplaying
  presence := hpresence

theorem new (roomId matchId : String) (playerIds : List String) (nowMs : Int) :
    Windowed (BattleRoom.new roomId matchId playerIds nowMs) where
  gapless := gapless_trimHistory (.singleton _ _)
  last := by
    obtain ⟨front, hfront⟩ := history_pushSnapshot
      { roomId := roomId, matchId := matchId, phase := .created, finishReason := .none, frame := 0
        seats := playerIds.map Seat.vacant, createdAtMs := nowMs, startedAtMs := 0
        finishedAtMs := 0, lastTickMs := 0, lastPersistAttemptMs := 0, winnerId := ""
        playerCount := playerIds.length, history := [] }
    exact ⟨front, _, hfront, rfl⟩
  waiting _ := rfl
  playing h := by cases h
  presence s hs := by
    obtain ⟨playerId, -, rfl⟩ := List.mem_map.mp hs
    rfl

/-- The places change in a room whose frame and phase stay. -/
theorem reseat (h : Windowed r) (playerId : String) {f : Seat → Seat}
    (hconnected : ∀ s, s.player.connected = true → (f s).player.connected = true)
    (hpresence : ∀ s, s.player.online = s.runtime.online →
      (f s).player.online = (f s).runtime.online) :
    Windowed { r with seats := updateSeat playerId f r.seats } where
  gapless := h.gapless
  last := h.last
  waiting := h.waiting
  playing hphase := forall_updateSeat (h.playing hphase) (fun _ hs => hs) hconnected
  presence := forall_updateSeat h.presence (fun _ hs => hs) hpresence

/-- A game that is over has its last snapshot pushed. -/
theorem ended (h : Windowed r) {r' : BattleRoom} (hhistory : r'.history = r.history)
    (hframe : r'.frame = r.frame) (hseats : r'.seats = r.seats)
    (hphase : r'.phase = .finishing ∨ r'.phase = .aborted) : Windowed r'.pushSnapshot := by
  refine h.push hhistory (.inl hframe) (fun hp => ?_) (fun hp => ?_) (hseats ▸ h.presence)
  · rcases hphase with h' | h' <;> rw [h'] at hp <;> rcases hp with hp | hp <;> cases hp
  · rcases hphase with h' | h' <;> rw [h'] at hp <;> cases hp

theorem nextFrame (h : Windowed r) (hphase : r.phase = .playing) : Windowed (r.nextFrame nowMs) := by
  have hpresence : ∀ s ∈ settleAttacks r.seats, s.player.online = s.runtime.online :=
    forall_settleAttacks h.presence (fun _ hs => hs) (fun _ hs => hs)
  have hconnected : ∀ s ∈ settleAttacks r.seats, s.player.connected = true :=
    forall_settleAttacks (h.playing hphase) (fun _ hs => hs) (fun _ hs => hs)
  unfold BattleRoom.nextFrame advanceOneFrame
  dsimp only
  split
  · exact h.push rfl (.inr rfl) (by rintro (hp | hp) <;> cases hp) (fun hp => by cases hp) hpresence
  split
  · exact h.push rfl (.inr rfl) (by rintro (hp | hp) <;> cases hp) (fun hp => by cases hp) hpresence
  · refine h.push rfl (.inr rfl) (fun hp => ?_) (fun _ => hconnected) hpresence
    rcases hp with hp | hp <;> cases hphase.symm.trans hp

/-- Nobody joins a game that is being played. -/
theorem phase_of_vacant (h : Windowed r) (hphase : r.phase.unfinished = true) {playerId : String}
    (hnew : ∃ s ∈ r.seats, s.player.playerId = playerId ∧ s.player.connected = false) :
    r.phase = .created ∨ r.phase = .waiting := by
  refine RoomPhase.open_of_unfinished hphase fun hp => ?_
  obtain ⟨s, hs, -, hvacant⟩ := hnew
  rw [h.playing hp s hs] at hvacant
  cases hvacant

/-- **Every call keeps the law of the buffer.** -/
theorem call (h : Windowed r) (c : Call) : Windowed (r.call c) := by
  have hjoined : ∀ playerId, ∀ s ∈ updateSeat playerId Seat.join r.seats,
      s.player.online = s.runtime.online := fun playerId =>
    forall_updateSeat h.presence (fun _ hs => hs) (fun _ hs => hs)
  generalize hcall : r.call c = r'
  have heffect := r.effect_call c
  rw [hcall] at heffect
  clear hcall
  cases heffect with
  | idle hquiet lastTickMs lastPersistAttemptMs => exact { h with }
  | @started playerId nowMs hphase hnew hall =>
    have hframe : r.frame = 0 := h.waiting (h.phase_of_vacant hphase hnew)
    exact h.push rfl (.inl hframe.symm) (fun _ => rfl) (fun _ => hall) (hjoined playerId)
  | @joined playerId nowMs hphase hnew hmissing =>
    have hopen := h.phase_of_vacant hphase hnew
    refine h.push rfl (.inl rfl) (fun _ => h.waiting hopen) (fun hp => ?_) (hjoined playerId)
    dsimp only at hp
    split at hp
    · cases hp
    case isFalse hcreated =>
      rw [hopen.resolve_left hcreated] at hp
      cases hp
  | @attacked playerId kind hphase haccepted => exact h.reseat playerId (fun _ hs => hs) (fun _ hs => hs)
  | @wentOnline playerId nowMs hphase => exact h.reseat playerId (fun _ hs => hs) (fun _ _ => rfl)
  | @wentOffline playerId nowMs hphase hid honline =>
    have hseats := h.reseat playerId (f := Seat.goOffline nowMs) (fun _ hs => hs) (fun _ _ => rfl)
    exact hseats.push rfl (.inl rfl) hseats.waiting hseats.playing hseats.presence
  | expired hphase => exact h.ended rfl rfl rfl (.inr rfl)
  | disconnected hphase hoffline hgrace hmem hwinner => exact h.ended rfl rfl rfl (.inl rfl)
  | deserted hphase hoffline hgrace => exact h.ended rfl rfl rfl (.inr rfl)
  | advanced hphase honline frames lastTickMs =>
    have hmoved : Windowed { r with lastTickMs := lastTickMs } := { h with }
    exact advanceFrames_invariant (fun r hr hplaying => hr.nextFrame hplaying) hmoved frames
  | persisted hphase =>
    exact
      { h with
        waiting := by rintro (hp | hp) <;> cases hp
        playing := fun hp => by cases hp }
  | aborted hphase => exact h.ended rfl rfl rfl (.inr rfl)

end Windowed

/-! ## What is read off the buffer

The frames after a number, each with its latest snapshot. -/

theorem snapshotsAfter_eq (r : BattleRoom) (sinceFrame : Int) :
    r.snapshotsAfter sinceFrame = latest RoomSnapshot.frame sinceFrame r.history := rfl

namespace Windowed

/-- The buffer as its first snapshot and the others. -/
theorem history_eq (h : Windowed r) : ∃ first rest, r.history = first :: rest := by
  obtain ⟨front, last, hlast, -⟩ := h.last
  rcases front with - | ⟨first, front⟩
  · exact ⟨last, [], hlast⟩
  · exact ⟨first, front ++ [last], hlast⟩

/-- The oldest frame is that of the first snapshot. -/
theorem snapshotFrameRange_fst (h : Windowed r) {first : RoomSnapshot} {rest : List RoomSnapshot}
    (hhistory : r.history = first :: rest) : r.snapshotFrameRange.1 = first.frame := by
  have hle : ∀ s ∈ rest, first.frame ≤ s.frame := fun s hs => by
    have hgapless := h.gapless
    rw [hhistory] at hgapless
    exact hgapless.bounds s (List.mem_cons_of_mem _ hs)
  have hfold : ∀ (rest : List RoomSnapshot) (newest : Int), (∀ s ∈ rest, first.frame ≤ s.frame) →
      (rest.foldl (fun range s => (min range.1 s.frame, max range.2 s.frame))
        (first.frame, newest)).1 = first.frame := by
    intro rest
    induction rest with
    | nil => exact fun _ _ => rfl
    | cons s rest ih =>
      intro newest hall
      rw [List.forall_mem_cons] at hall
      rw [List.foldl_cons]
      simp only [min_eq_left hall.1]
      exact ih _ hall.2
  unfold snapshotFrameRange
  rw [hhistory]
  exact hfold rest first.frame hle

/-- **The frames after `sinceFrame`**, from the first that is left on. -/
theorem map_snapshotsAfter (h : Windowed r) (sinceFrame : Int) :
    (r.snapshotsAfter sinceFrame).map (·.frame) =
      Int.range (max (sinceFrame + 1) r.snapshotFrameRange.1) (r.frame + 1) := by
  obtain ⟨first, rest, hhistory⟩ := h.history_eq
  obtain ⟨front, last, hlast, hframe⟩ := h.last
  have hgapless := h.gapless
  rw [hhistory] at hgapless
  have hnewest : (first :: rest).getLast (List.cons_ne_nil _ _) = last := by
    simp only [← hhistory, hlast, List.getLast_concat]
  rw [h.snapshotFrameRange_fst hhistory, snapshotsAfter_eq, hhistory, map_latest hgapless, hnewest,
    hframe]

end Windowed

end BattleRoom

/-! ## The answer

Ready, too old, or ahead. -/

/-- **What `GetSnapshotsSince` is to answer** about a room. -/
structure BackfillWindow (room : BattleRoom) (sinceFrame : Int) (answer : SnapshotRange) : Prop where
  /-- There is a smallest frame in the buffer. -/
  nonempty : room.history ≠ []
  ahead : answer.outcome = .ahead ↔ room.frame < sinceFrame
  incomplete : answer.outcome = .incomplete ↔
    sinceFrame ≤ room.frame ∧ ∀ s ∈ room.history, sinceFrame + 1 < s.frame
  ok : answer.outcome = .ok ↔
    sinceFrame ≤ room.frame ∧ ∃ s ∈ room.history, s.frame ≤ sinceFrame + 1
  frames : answer.outcome = .ok →
    answer.snapshots.map (·.frame) = Int.range (sinceFrame + 1) (room.frame + 1)

theorem RoomManager.snapshots_getSnapshotsSince {room : BattleRoom} {m : RoomManager} {nowMs : Int}
    {roomId : String} (hroom : (m.reapExpired nowMs).rooms.lookup roomId = some room) (sinceFrame : Int) :
    (m.getSnapshotsSince nowMs roomId sinceFrame).1.snapshots = room.snapshotsAfter sinceFrame := by
  unfold getSnapshotsSince
  simp only [hroom]

theorem BattleRoom.Windowed.answer {room : BattleRoom} (h : room.Windowed) {m : RoomManager}
    {nowMs : Int} {roomId : String}
    (hroom : (m.reapExpired nowMs).rooms.lookup roomId = some room) (sinceFrame : Int) :
    BackfillWindow room sinceFrame (m.getSnapshotsSince nowMs roomId sinceFrame).1 := by
  obtain ⟨first, rest, hhistory⟩ := h.history_eq
  have holdest := h.snapshotFrameRange_fst hhistory
  have hmem : first ∈ room.history := by rw [hhistory]; exact List.mem_cons_self
  have hle : ∀ s ∈ room.history, first.frame ≤ s.frame := fun s hs => by
    have hgapless := h.gapless
    rw [hhistory] at hgapless hs
    exact hgapless.bounds s hs
  have hall : (∀ s ∈ room.history, sinceFrame + 1 < s.frame) ↔ sinceFrame + 1 < first.frame :=
    ⟨fun hs => hs first hmem, fun hlt s hs => Int.lt_of_lt_of_le hlt (hle s hs)⟩
  have hsome : (∃ s ∈ room.history, s.frame ≤ sinceFrame + 1) ↔ first.frame ≤ sinceFrame + 1 := by
    constructor
    · rintro ⟨s, hs, hbound⟩
      exact Int.le_trans (hle s hs) hbound
    · exact fun hbound => ⟨first, hmem, hbound⟩
  have houtcome : (m.getSnapshotsSince nowMs roomId sinceFrame).1.outcome =
      if room.frame < sinceFrame then .ahead
      else if sinceFrame + 1 < first.frame then .incomplete else .ok := by
    unfold RoomManager.getSnapshotsSince
    simp only [hroom, holdest]
  constructor
  · rw [hhistory]
    exact List.cons_ne_nil _ _
  · rw [houtcome]
    split
    · simp [*]
    · split <;> simp [*]
  · rw [houtcome, hall]
    split
    · simp; omega
    · split <;> simp <;> omega
  · rw [houtcome, hsome]
    split
    · simp; omega
    · split <;> simp <;> omega
  · intro hok
    rw [houtcome] at hok
    rw [RoomManager.snapshots_getSnapshotsSince hroom, h.map_snapshotsAfter, holdest]
    split at hok
    · cases hok
    split at hok
    · cases hok
    · rw [max_eq_left (by omega)]

/-! ## Over a restart -/

/-- **A record that a game can go on from**: its frame and its players are as `Join` leaves them. -/
structure RoomSnapshotRecord.Resumable (record : RoomSnapshotRecord) : Prop where
  waiting : record.phase = .created ∨ record.phase = .waiting → record.frame = 0
  playing : record.phase = .playing → ∀ player ∈ [record.player0, record.player1],
    player.playerId ≠ "" → player.joined = true

namespace BattleRoom.Windowed

variable {r : BattleRoom} {nowMs : Int}

theorem resumable (h : Windowed r) (nowMs : Int) : (r.makeSnapshotRecord nowMs).Resumable where
  waiting := h.waiting
  playing hphase := by
    have hplayer : ∀ i : Nat, ((r.snapshot.players[i]?.map playerRecord).getD .empty).playerId ≠ "" →
        ((r.snapshot.players[i]?.map playerRecord).getD .empty).joined = true := by
      intro i hid
      rcases hi : r.snapshot.players[i]? with - | player
      · rw [hi] at hid
        exact absurd rfl hid
      · obtain ⟨s, hs, rfl⟩ := List.mem_map.mp (List.mem_of_getElem? hi)
        exact h.playing hphase s hs
    intro player hmem
    rcases List.mem_pair.mp hmem with rfl | rfl
    · exact hplayer 0
    · exact hplayer 1

theorem restored {record : RoomSnapshotRecord} (h : record.Resumable)
    (hrestored : restoreFrom record nowMs = some r) : Windowed r := by
  unfold restoreFrom at hrestored
  split at hrestored; · cases hrestored
  split at hrestored; · cases hrestored
  split at hrestored; · cases hrestored
  case isFalse hfirst _ hsecond =>
    obtain rfl := Option.some.inj hrestored
    exact
      { gapless := gapless_trimHistory (.singleton _ _)
        last := by
          unfold BattleRoom.restored
          obtain ⟨front, hfront⟩ := history_pushSnapshot _
          exact ⟨front, _, hfront, rfl⟩
        waiting := h.waiting
        playing := fun hphase => forall_mem_pair.mpr
          ⟨h.playing hphase record.player0 List.mem_cons_self hfirst,
            h.playing hphase record.player1 (List.mem_cons_of_mem _ List.mem_cons_self) hsecond⟩
        presence := forall_mem_pair.mpr ⟨rfl, rfl⟩ }

end BattleRoom.Windowed

namespace RoomWorld

variable {stores : RoomStores} {w w' : RoomWorld} {ops : List Op}

/-- **The law of every buffer of the service**, and of every record that one may be rebuilt from. -/
structure Windowed (w : RoomWorld) : Prop where
  room : ∀ x r, w.system.room? x = some r → r.Windowed
  saves : ∀ row, w.system.InFlight row → row.Resumable
  row : ∀ k row, w.rows.lookup k = some row → row.Resumable

namespace Windowed

theorem start : Windowed {} where
  room _ _ h := by cases h
  saves row h := by
    obtain ⟨pc, hpc, -⟩ := h
    cases hpc
  row _ _ h := by cases h

theorem act (h : w.Windowed) (a : Action) : (w.next stores (.act a)).Windowed where
  room x r' hr' := by
    rw [system_act] at hr'
    rcases hr : w.system.room? x with - | r
    · obtain ⟨matchId, playerIds, nowMs, -, -, rfl⟩ := RoomSystem.room?_next_new hr hr'
      exact .new x matchId playerIds nowMs
    · rw [RoomSystem.room?_next hr] at hr'
      split at hr'
      · cases hr'
      · cases hr'
        exact BattleRoom.calls_invariant (fun r c hr => hr.call c) (h.room x r hr) _
  saves row hrow := by
    rw [system_act] at hrow
    rcases hrow.of_next with hold | hnew
    · exact h.saves row hold
    · obtain ⟨x, r, nowMs, hr, rfl, -⟩ := RoomSystem.mem_taken hnew
      have hcalls := BattleRoom.calls_invariant (fun r c hr => hr.call c) (h.room x r hr)
        (w.system.roomCalls x a)
      exact hcalls.resumable nowMs
  row k row hrow := (row_act hrow).elim (h.row k row) (h.saves row)

theorem restart (h : w.Windowed) (nowMs : Int) (loads : Bool) :
    (w.next stores (.restart nowMs loads)).Windowed where
  room x r hr := by
    obtain ⟨row, hmem, hproblem, hrestored⟩ :=
      (RoomManager.Restored.of_rows nowMs (w.restartRows stores loads)).room x r hr
    obtain ⟨k, record, hk, -, -, rfl⟩ := mem_restartRows hmem
    rw [((decode_ids record).2.2 hproblem).1] at hrestored
    exact .restored (h.row k record hk) hrestored
  saves row hrow := by
    obtain ⟨pc, hpc, hrow⟩ := hrow
    simp only [next] at hpc
    split at hpc
    · obtain rfl := List.mem_singleton.mp hpc
      obtain ⟨record, -, rfl⟩ := List.mem_map.mp hrow
      exact
        { waiting := by rintro (hp | hp) <;> cases hp
          playing := fun hp => by cases hp }
    · cases hpc
  row := h.row

theorem step {op : Op} (h : w.Windowed) (hstep : Step stores w op w') : w'.Windowed := by
  obtain ⟨-, rfl⟩ := hstep
  cases op with
  | act a => exact h.act a
  | restart nowMs loads => exact h.restart nowMs loads

end Windowed

/-- **Backfill is exact** — in every run of the service, over crashes and restarts, and for every room:
what `GetSnapshotsSince` answers is told by the window of its buffer, and the snapshots of a complete
answer are of the missing frames, each once and in order. -/
theorem backfill_window (hrun : Run (Step stores) {} ops w) (nowMs sinceFrame : Int) {roomId : String}
    {room : BattleRoom} (hroom : (w.system.manager.reapExpired nowMs).rooms.lookup roomId = some room) :
    BackfillWindow room sinceFrame (w.system.manager.getSnapshotsSince nowMs roomId sinceFrame).1 := by
  have hwindowed : w.Windowed := hrun.invariant (fun _ _ _ h => h.step) .start
  refine BattleRoom.Windowed.answer ?_ hroom sinceFrame
  rw [RoomManager.lookup_reapExpired, Option.filter_eq_some_iff] at hroom
  exact hwindowed.room roomId room hroom.1

/-- A game in which bob is away for a moment: the frames 0 and 1 have snapshots besides their own. -/
def fightingRoom : List Op :=
  [.act (.create "m-1" ["alice", "bob"] 1000 "r-1"), .act (.join "r-1" "alice" 1000), .act (.join "r-1" "bob" 1010),
    .act (.tick 1100), .act (.submitInput "r-1" "alice" .attack), .act (.tick 1200),
    .act (.setPresence "r-1" "bob" false 1250), .act (.tick 1300), .act (.setPresence "r-1" "bob" true 1350),
    .act (.tick 1400), .act (.tick 1500)]

theorem backfill_window_fighting :
    ∃ room, ((fightingRoom.foldl (next RoomSystem.mysqlStores) {}).system.manager.reapExpired 1550).rooms.lookup
        "r-1" = some room ∧ room.history.map (·.frame) = [0, 0, 0, 1, 1, 2, 3] ∧
      BackfillWindow room 0
        ((fightingRoom.foldl (next RoomSystem.mysqlStores) {}).system.manager.getSnapshotsSince 1550 "r-1" 0).1 := by
  have hframes : (((fightingRoom.foldl (next RoomSystem.mysqlStores) {}).system.manager.reapExpired 1550).rooms.lookup
      "r-1").map (fun room => room.history.map (·.frame)) = some [0, 0, 0, 1, 1, 2, 3] := by decide +kernel
  obtain ⟨room, hroom, hframes⟩ := Option.map_eq_some_iff.mp hframes
  exact ⟨room, hroom, hframes, backfill_window (Run.of_guarded (by decide)) 1550 0 hroom⟩

end RoomWorld

end RealtimeGame.Room
