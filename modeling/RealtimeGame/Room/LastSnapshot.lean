import RealtimeGame.Room.Reaping
import RealtimeGame.Room.Validator

/-!
# Room/LastSnapshot — a room and the last snapshot that was saved of it

`Tick` saves a snapshot of a room when the last one is a second old.  Until then the game has counted the
frames of less than a second and of what the frame clock had left over (`Near`), whatever the spacing of
the Ticks.  Which snapshot was saved last is read off the log of the calls to the stores (`lastSaved`).
-/

open Library

namespace RealtimeGame.Room

namespace BattleRoom

variable {r r' : BattleRoom} {clockMs clockMs' nowMs writtenMs frame : Int}

/-! ## One room

The frames since the last snapshot, against the time since then. -/

theorem unfinished_of_call {c : Call} (h : (r.call c).phase.unfinished = true) :
    r.phase.unfinished = true := by
  rcases hu : r.phase.unfinished with - | -
  · suffices hover : (r.call c).phase.unfinished = false from by cases h.symm.trans hover
    have hnot : ∀ phase : RoomPhase, phase.unfinished = true → r.phase ≠ phase := by
      rintro phase hphase rfl
      cases hu.symm.trans hphase
    generalize hcall : r.call c = r'
    have heffect := r.effect_call c
    rw [hcall] at heffect
    clear hcall
    cases heffect with
    | idle => exact hu
    | started hphase => cases hu.symm.trans hphase
    | joined hphase => cases hu.symm.trans hphase
    | attacked hphase => exact hu
    | wentOnline => exact hu
    | wentOffline => exact hu
    | expired => rfl
    | disconnected => rfl
    | deserted => rfl
    | advanced hphase => exact absurd hphase (hnot .playing rfl)
    | persisted => rfl
    | aborted => rfl
  · rfl

/-- No Tick begins a game. -/
theorem playing_of_tick (h : (r.tick nowMs).2.phase = .playing) : r.phase = .playing := by
  generalize hcall : (r.tick nowMs).2 = r' at h
  have heffect : r.Effect (.op (.tick nowMs)) (r.tick nowMs).2 := effect_tick
  rw [hcall] at heffect
  clear hcall
  cases heffect with
  | idle => exact h
  | expired => cases h
  | disconnected hphase => exact hphase
  | deserted hphase => exact hphase
  | advanced hphase => exact hphase

/-- **A room whose last snapshot is not far back**: it was taken at `writtenMs` and shows `frame`, and no
Tick had a later clock value than `clockMs`. -/
structure Near (clockMs writtenMs frame : Int) (r : BattleRoom) : Prop where
  base : 0 ≤ frame
  bound : r.frame - frame ≤ kSnapshotIntervalMs / kFrameIntervalMs
  written : r.phase.unfinished = true → writtenMs ≤ clockMs
  /-- The frame clock was less than a frame behind when the snapshot was taken; it has not yet counted since
  then, or it has counted no more than it moved on. -/
  pace : r.phase = .playing → writtenMs < r.lastTickMs + kFrameIntervalMs ∧
    (r.frame ≤ frame ∨ r.lastTickMs ≤ clockMs ∧
      (r.frame - frame) * kFrameIntervalMs < r.lastTickMs + kFrameIntervalMs - writtenMs)

namespace Near

theorem mono (h : r.Near clockMs writtenMs frame) (hclock : clockMs ≤ clockMs') :
    r.Near clockMs' writtenMs frame where
  base := h.base
  bound := h.bound
  written hphase := Int.le_trans (h.written hphase) hclock
  pace hphase := (h.pace hphase).imp_right
    (Or.imp_right fun hpace => ⟨Int.le_trans hpace.1 hclock, hpace.2⟩)

/-- **A call that is no Tick** moves no frame, or begins the game at frame 0. -/
theorem call (h : r.Near clockMs writtenMs frame) {c : Call} (hc : ∀ nowMs, c ≠ .op (.tick nowMs))
    (hjoin : ∀ playerId nowMs, c = .op (.join playerId nowMs) → nowMs = clockMs) :
    (r.call c).Near clockMs writtenMs frame := by
  have hbase := h.base
  have hbound := h.bound
  obtain ⟨hsame, hphase⟩ | ⟨playerId, nowMs, rfl, hphase, -, -, hclock⟩ := clock_call_cases (r := r) hc
  · simp only [BattleRoom.clock, FrameClock.mk.injEq] at hsame
    obtain ⟨hframe, -, hlast⟩ := hsame
    refine ⟨hbase, by rw [hframe]; exact hbound, fun hu => h.written (unfinished_of_call hu), fun hp => ?_⟩
    rw [hframe, hlast]
    exact h.pace (hphase hp)
  · simp only [BattleRoom.clock, FrameClock.mk.injEq] at hclock
    obtain ⟨hframe, -, hlast⟩ := hclock
    obtain rfl := hjoin playerId nowMs rfl
    have hwritten := h.written hphase
    refine ⟨hbase, ?_, fun _ => hwritten, fun _ => ?_⟩
    · rw [hframe]
      simp only [kSnapshotIntervalMs, kFrameIntervalMs]
      omega
    · rw [hframe, hlast]
      simp only [kFrameIntervalMs]
      omega

/-- **A Tick that takes no snapshot** comes less than a second after the last one. -/
theorem tick (h : r.Near clockMs writtenMs frame) (hclock : clockMs ≤ nowMs)
    (hrecent : nowMs - writtenMs < kSnapshotIntervalMs) :
    (r.tick nowMs).2.Near nowMs writtenMs frame := by
  have hbase := h.base
  have hbound := h.bound
  have hwritten : (r.tick nowMs).2.phase.unfinished = true → writtenMs ≤ nowMs := fun hu =>
    Int.le_trans (h.written (unfinished_of_call (c := .op (.tick nowMs)) hu)) hclock
  cases r.paced_tick nowMs with
  | stood hsame hlag =>
    simp only [BattleRoom.clock, FrameClock.mk.injEq] at hsame
    obtain ⟨hframe, -, hlast⟩ := hsame
    refine ⟨hbase, by rw [hframe]; exact hbound, hwritten, fun hp => ?_⟩
    have hpace := h.pace (playing_of_tick hp)
    rw [hframe, hlast]
    exact ⟨hpace.1, hpace.2.imp_right fun hpace => ⟨Int.le_trans hpace.1 hclock, hpace.2⟩⟩
  | held hphase hoffline hgrace heq =>
    have hpace := h.pace hphase
    have hbefore : writtenMs ≤ clockMs := h.written (by rw [hphase]; rfl)
    rw [heq] at hwritten ⊢
    refine ⟨hbase, hbound, hwritten, fun _ => ?_⟩
    simp only [kFrameIntervalMs] at hpace ⊢
    omega
  | advanced hphase frames k lastTickMs hcap hlast hdue hnext hpos hk hall hmoved =>
    have hpace := h.pace hphase
    simp only [BattleRoom.clock, FrameClock.mk.injEq] at hmoved
    obtain ⟨hframe, -, hlastTick⟩ := hmoved
    refine ⟨hbase, ?_, hwritten, fun hp => ?_⟩
    · rw [hframe]
      simp only [kFrameIntervalMs, kSnapshotIntervalMs, kMaxCatchUpFrames] at *
      omega
    · rw [hframe, hlastTick]
      simp only [kFrameIntervalMs] at *
      omega

/-- **A snapshot just taken** by a Tick. -/
theorem taken (hframe : 0 ≤ (r.tick nowMs).2.frame) :
    (r.tick nowMs).2.Near nowMs nowMs (r.tick nowMs).2.frame := by
  refine ⟨hframe, ?_, fun _ => Int.le_refl _, fun hp => ⟨?_, .inl (Int.le_refl _)⟩⟩
  · rw [Int.sub_self]
    decide
  · cases r.paced_tick nowMs with
    | stood hsame hlag =>
      simp only [BattleRoom.clock, FrameClock.mk.injEq] at hsame
      have hlag := hlag hp
      rw [hsame.2.2]
      omega
    | held hphase hoffline hgrace heq =>
      rw [heq]
      simp only [kFrameIntervalMs]
      omega
    | advanced hphase frames k lastTickMs hcap hlast hdue hnext hpos hk hall hmoved =>
      simp only [BattleRoom.clock, FrameClock.mk.injEq] at hmoved
      obtain ⟨rfl, -⟩ := hall hp
      rw [hmoved.2.2]
      simp only [kFrameIntervalMs] at *
      omega

/-- A room that is over needs its bound only. -/
theorem passed (hphase : r.phase.unfinished = false) (hbase : 0 ≤ frame)
    (hbound : r.frame - frame ≤ kSnapshotIntervalMs / kFrameIntervalMs) :
    r.Near clockMs writtenMs frame where
  base := hbase
  bound := hbound
  written hu := by cases hphase.symm.trans hu
  pace hp := by
    rw [hp] at hphase
    cases hphase

end Near

/-- A frame is never negative. -/
theorem frame_call (h : 0 ≤ r.frame) (c : Call) : 0 ≤ (r.call c).frame := by
  obtain hle | ⟨_, _, -, hzero⟩ := frame_call_cases r c
  · exact h.trans hle
  · rw [hzero]

theorem frame_calls (h : 0 ≤ r.frame) (cs : List Call) : 0 ≤ (r.calls cs).frame :=
  calls_invariant (P := fun r => 0 ≤ r.frame) (fun _ c hr => frame_call hr c) h cs

end BattleRoom

/-! ## What is remembered of a room that stays

The registry keeps the time of the last snapshot beside the room. -/

namespace RoomManager

variable {m : RoomManager} {nowMs : Int} {stores : RoomStores} {x : String} {r : BattleRoom}

/-- Only the room of a match can have it forgotten. -/
theorem lookup_state_reapExpired {k : String}
    (hkept : ∀ y t, m.rooms.lookup y = some t → t.matchId = k → t.isExpired nowMs = false) :
    (m.reapExpired nowMs).snapshotState.lookup k = m.snapshotState.lookup k := by
  rw [reapExpired, Table.lookup_foldl_erase, if_neg]
  intro hmem
  obtain ⟨y, t, ht, hexpired, hmatch⟩ := Consistent.mem_expiredMatches.mp hmem
  cases (hkept y t ht hmatch).symm.trans hexpired

theorem Consistent.lookup_state_reapExpired (h : m.Consistent) (hr : m.rooms.lookup x = some r)
    (hkept : r.isExpired nowMs = false) :
    (m.reapExpired nowMs).snapshotState.lookup r.matchId = m.snapshotState.lookup r.matchId :=
  RoomManager.lookup_state_reapExpired fun y t ht hmatch => by
    obtain ⟨-, rfl⟩ := h.oneRoom ht hr hmatch
    exact hkept

/-- A room that `Tick` leaves is remembered as it was collected. -/
theorem Consistent.lookup_state_tickLocked (h : m.Consistent) (hwriter : stores.hasSnapshotWriter = true)
    (hr : m.rooms.lookup x = some r) (hkept : (r.tick nowMs).2.isExpired nowMs = false) :
    (m.tickLocked nowMs stores).2.snapshotState.lookup r.matchId =
      some ((r.tick nowMs).2.collected nowMs ((m.snapshotState.lookup r.matchId).getD {})) := by
  rw [tickLocked_snd, RoomManager.lookup_state_reapExpired, (h.collected_room hwriter hr nowMs).1]
  intro y t ht hmatch
  have ht : (m.rooms.mapVals fun _ r => (r.tick nowMs).2).lookup y = some t := ht
  rw [Table.lookup_mapVals, Option.map_eq_some_iff] at ht
  obtain ⟨t₀, ht₀, rfl⟩ := ht
  obtain ⟨-, rfl⟩ := h.oneRoom ht₀ hr (BattleRoom.Becomes.tick.matchId.symm.trans hmatch)
  exact hkept

/-- **Only what is due is collected.** -/
theorem due_of_mem_foldl_collectSnapshot {rooms : List BattleRoom} {row : RoomSnapshotRecord}
    (hnodup : (rooms.map (·.matchId)).Nodup) (acc : List RoomSnapshotRecord × Table String SnapshotState)
    (hrow : row ∈ (rooms.foldl (collectSnapshot nowMs) acc).1) : row ∈ acc.1 ∨
      ∃ r ∈ rooms, row = r.makeSnapshotRecord nowMs ∧
        shouldSnapshot ((acc.2.lookup r.matchId).getD {}) r.phase nowMs = true := by
  induction rooms generalizing acc with
  | nil => exact .inl hrow
  | cons s rooms ih =>
    rw [List.map_cons, List.nodup_cons, List.mem_map] at hnodup
    rcases ih hnodup.2 _ hrow with hold | ⟨r, hr, heq, hdue⟩
    · rcases mem_collectSnapshot.mp hold with hold | ⟨hdue, heq⟩
      · exact .inl hold
      · exact .inr ⟨s, List.mem_cons_self, heq, hdue⟩
    · rw [lookup_collectSnapshot, if_neg fun hmatch => hnodup.1 ⟨r, hr, hmatch⟩] at hdue
      exact .inr ⟨r, List.mem_cons_of_mem s hr, heq, hdue⟩

theorem Consistent.due_of_mem_snapshots (h : m.Consistent) {row : RoomSnapshotRecord}
    (hrow : row ∈ (m.tickLocked nowMs stores).1.snapshots) :
    ∃ x r, m.rooms.lookup x = some r ∧ row = (r.tick nowMs).2.makeSnapshotRecord nowMs ∧
      shouldSnapshot ((m.snapshotState.lookup r.matchId).getD {}) (r.tick nowMs).2.phase nowMs = true := by
  have hticked : (m.ticked nowMs).Consistent := h.map (f := fun _ r => (r.tick nowMs).2)
    (fun _ r => ⟨(BattleRoom.Becomes.tick (r := r)).roomId, (BattleRoom.Becomes.tick (r := r)).matchId⟩)
    (fun x => Table.lookup_mapVals _ _ _) rfl fun k hk => .inl hk
  rw [tickLocked_snapshots, collected] at hrow
  split at hrow
  case isFalse => cases hrow
  case isTrue =>
    rcases due_of_mem_foldl_collectSnapshot hticked.nodup_matchIds _ hrow with hnil | ⟨r', hr', heq, hdue⟩
    · cases hnil
    · obtain ⟨x, r, hr, rfl⟩ := m.mem_ticked nowMs |>.mp hr'
      rw [BattleRoom.Becomes.tick.matchId] at hdue
      exact ⟨x, r, hr, heq, hdue⟩

end RoomManager

/-- The snapshot that a call to a store has saved. -/
def Event.saved? : Event → Option RoomSnapshotRecord
  | save record reply => if reply.ok then some record else none
  | write .. | read .. | result .. => none

/-- The clock values of Ticks, Joins and presence reports. -/
def Action.clock? : Action → Option Int
  | tick nowMs | join _ _ nowMs | setPresence _ _ _ nowMs => some nowMs
  | create .. | submitInput .. | getState .. | getSnapshotsSince .. | getResult .. |
    abortUnfinishedGames .. | beginShutdown | resume .. => none

namespace RoomSystem

variable {stores : RoomStores} {s s' : RoomSystem} {x : String} {r r' : BattleRoom} {a : Action}
  {clockMs frame : Int} {row : RoomSnapshotRecord}

/-! ## What was saved last

Read off the log of the calls to the stores. -/

/-- The snapshots that were saved, oldest first. -/
def saved (s : RoomSystem) : List RoomSnapshotRecord := s.log.filterMap Event.saved?

/-- **The last snapshot saved for a room.** -/
def lastSaved (s : RoomSystem) (roomId : String) : Option RoomSnapshotRecord :=
  (s.saved.filter fun row => row.roomId = roomId).getLast?

/-- The saves of this action succeed. -/
def Saves (s : RoomSystem) (a : Action) : Prop := ∀ p ∈ s.saving a, p.2 = .done

theorem saved_resume (pc : Pc) (answer : Answer) (m : RoomManager) :
    (pc.resume stores answer m).2.2.filterMap Event.saved? =
      if answer.reply.ok then pc.records.head?.toList else [] := by
  have hnone : (if answer.reply.ok then ([] : List RoomSnapshotRecord) else []) = [] := ite_self _
  rcases pc with ⟨nowMs, - | ⟨record, records⟩, succeeded, failed, toPersist⟩ |
    ⟨nowMs, - | ⟨roomId, toPersist⟩⟩ | ⟨nowMs, roomId, record, toPersist⟩ |
    ⟨nowMs, roomId, record, ok, toPersist⟩ | matchId | (- | ⟨record, records⟩) | -
  case flush.cons =>
    simp only [Pc.resume, Pc.records, List.filterMap_cons, List.filterMap_nil, Event.saved?]
    cases answer.reply.ok <;> rfl
  case reject.cons =>
    simp only [Pc.resume, Pc.records, List.filterMap_cons, List.filterMap_nil, Event.saved?]
    cases answer.reply.ok <;> rfl
  case persist.cons =>
    simp only [Pc.resume]
    split <;> exact hnone.symm
  case write =>
    simp only [Pc.resume]
    split <;> exact hnone.symm
  case read =>
    simp only [Pc.resume]
    split <;> exact hnone.symm
  all_goals exact hnone.symm

/-- **One action** saves the snapshot that it saves. -/
theorem saved_next (hsaves : s.Saves a) :
    (s.next stores a).saved = s.saved ++ ((s.saving a).map Prod.fst).toList := by
  have hsame : s.saved = s.saved ++ [] := (List.append_nil _).symm
  cases a with
  | getResult matchId nowMs =>
    simp only [next, saved, saving]
    split
    · simp [Event.saved?]
    · split
      · simp [Event.saved?]
      · exact hsame
  | resume thread answer =>
    simp only [next, saved, saving, Saves] at hsaves ⊢
    rcases hpc : s.threads[thread]? with - | pc
    · exact hsame
    · rw [hpc] at hsaves
      simp only [Option.bind_some] at hsaves ⊢
      rw [List.filterMap_append, saved_resume]
      rcases hrecords : pc.records.head? with - | row
      · simp
      · have hdone : answer.reply = .done := hsaves (row, answer.reply) (by rw [hrecords]; rfl)
        rw [hdone]
        rfl
  | _ => exact hsame

theorem lastSaved_next_of_saving (stores : RoomStores) {reply : StoreReply} (hsaves : s.Saves a)
    (h : s.saving a = some (row, reply)) (x : String) :
    (s.next stores a).lastSaved x = if row.roomId = x then some row else s.lastSaved x := by
  rw [lastSaved, saved_next hsaves, h, List.filter_append]
  split
  case isTrue heq => simp [heq]
  case isFalse hne => simp [hne, lastSaved]

theorem lastSaved_next_of_quiet (hsaves : s.Saves a) (h : s.saving a = none) (x : String) :
    (s.next stores a).lastSaved x = s.lastSaved x := by
  rw [lastSaved, saved_next hsaves, h]
  simp [lastSaved]

/-- **What will be the last snapshot of a room shows frame `frame` at least**: it was saved, or a call holds
it still. -/
structure Kept (s : RoomSystem) (x : String) (frame : Int) : Prop where
  flight : ∀ row, s.InFlight row → row.roomId = x → frame ≤ row.frame
  last : (∃ row, s.InFlight row ∧ row.roomId = x) ∨ ∃ row, s.lastSaved x = some row ∧ frame ≤ row.frame

/-- **One action** keeps it so, unless it takes a snapshot of an earlier frame. -/
theorem Kept.next (h : s.Kept x frame) (hsaves : s.Saves a)
    (htaken : ∀ row ∈ s.taken stores a, row.roomId = x → frame ≤ row.frame) :
    (s.next stores a).Kept x frame where
  flight row hrow hroom := by
    rcases InFlight.of_next hrow with hold | hnew
    · exact h.flight row hold hroom
    · exact htaken row hnew hroom
  last := by
    rcases h.last with ⟨row, hrow, hroom⟩ | ⟨row, hlast, hframe⟩
    · rcases hrow.next_or_saving a with hflight | ⟨reply, hsaving⟩
      · exact .inl ⟨row, hflight, hroom⟩
      · refine .inr ⟨row, ?_, h.flight row hrow hroom⟩
        rw [lastSaved_next_of_saving stores hsaves hsaving, if_pos hroom]
    · rcases hsaving : s.saving a with - | ⟨row', reply⟩
      · exact .inr ⟨row, (lastSaved_next_of_quiet hsaves hsaving x).trans hlast, hframe⟩
      · have hstep := lastSaved_next_of_saving stores hsaves hsaving x
        split at hstep
        case isTrue hroom =>
          exact .inr ⟨row', hstep, h.flight row' (RoomWorld.inFlight_of_saving hsaving) hroom⟩
        case isFalse => exact .inr ⟨row, hstep.trans hlast, hframe⟩

end RoomSystem

end RealtimeGame.Room
