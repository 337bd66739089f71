import RealtimeGame.Room.Index

/-!
# Room/Reaping — the last snapshot of a room comes before it is recycled

`Tick` takes a snapshot of every room that has entered a final phase, and only then recycles.  A room
whose result is persisted late enters its final phase after that, when its retention is over already,
and the next call recycles it unseen (`Overlooks`).  Whoever is recycled otherwise had his last
snapshot taken (`Filed.taken`), and saved once no call holds it (`saved_of_recycled`).
-/

open Library

namespace RealtimeGame.Room

/-- `terminal` — no call changes the room any more. -/
def RoomPhase.terminal : RoomPhase → Bool
  | finished | aborted => true
  | created | waiting | playing | finishing => false

def Action.isTick : Action → Bool
  | tick _ => true
  | create .. | join .. | submitInput .. | setPresence .. | getState .. | getSnapshotsSince .. |
    getResult .. | abortUnfinishedGames .. | beginShutdown | resume .. => false

namespace BattleRoom

variable {r : BattleRoom} {nowMs : Int}

theorem phase_of_terminal (h : r.phase.terminal = true) : r.phase = .finished ∨ r.phase = .aborted := by
  cases hp : r.phase <;> rw [hp] at h <;> first | exact .inl rfl | exact .inr rfl | cases h

theorem unfinished_of_terminal (h : r.phase.terminal = true) : r.phase.unfinished = false := by
  cases hp : r.phase <;> rw [hp] at h <;> first | rfl | cases h

/-- **A room in a final phase is frozen.** -/
theorem call_of_terminal (h : r.phase.terminal = true) (c : Call) : r.call c = r := by
  have hover := unfinished_of_terminal h
  have hfinishing : r.phase ≠ .finishing := by
    intro hp
    rw [hp] at h
    cases h
  cases c with
  | op op =>
    cases op with
    | join playerId nowMs => exact join_of_decided hover playerId
    | submitInput playerId kind => exact submitInput_of_decided hover playerId kind
    | setPresence playerId online nowMs => exact setPresence_of_decided hover playerId online
    | tick nowMs => exact tick_of_decided hover
    | markResultFailed nowMs => exact if_neg hfinishing
  | markResultPersisted => exact if_neg hfinishing
  | abortUnfinishedGames nowMs =>
    unfold call
    dsimp only
    rw [if_neg (by rw [hover]; decide)]

theorem calls_of_terminal (h : r.phase.terminal = true) (cs : List Call) : r.calls cs = r := by
  induction cs with
  | nil => rfl
  | cons c cs ih =>
    rw [calls, List.foldl_cons, call_of_terminal h c]
    exact ih

/-- Only the timer and a drain abort a room. -/
theorem aborted_of_call {c : Call} (htick : ∀ nowMs, c ≠ .op (.tick nowMs))
    (hdrain : ∀ nowMs, c ≠ .abortUnfinishedGames nowMs) (h : (r.call c).phase = .aborted) :
    r.phase = .aborted := by
  generalize hcall : r.call c = r' at h
  have heffect := r.effect_call c
  rw [hcall] at heffect
  clear hcall
  cases heffect with
  | idle hquiet lastTickMs lastPersistAttemptMs => exact h
  | started hphase hnew hall => cases h
  | joined hphase hnew hmissing =>
    change (if r.phase = .created then RoomPhase.waiting else r.phase) = .aborted at h
    split at h
    · cases h
    · exact h
  | attacked hphase haccepted => exact h
  | wentOnline hphase => exact h
  | wentOffline hphase hid honline => exact h
  | expired hphase => exact absurd rfl (htick _)
  | disconnected hphase hoffline hgrace hmem hwinner => exact absurd rfl (htick _)
  | deserted hphase hoffline hgrace => exact absurd rfl (htick _)
  | advanced hphase honline frames lastTickMs => exact absurd rfl (htick _)
  | persisted hphase => cases h
  | aborted hphase => exact absurd rfl (hdrain _)

theorem terminal_of_isExpired (h : r.isExpired nowMs = true) : r.phase.terminal = true := by
  simp only [isExpired, Bool.and_eq_true, Bool.or_eq_true, decide_eq_true_eq] at h
  rcases h.1 with hp | hp <;> rw [hp] <;> rfl

/-- What is remembered of a room after it was collected. -/
def collected (nowMs : Int) (state : SnapshotState) (r : BattleRoom) : SnapshotState :=
  if RoomManager.shouldSnapshot state r.phase nowMs then ⟨nowMs, r.phase, true⟩ else state

/-- A room that `Tick` recycles was in its final phase before. -/
theorem terminal_of_tick (h : (r.tick nowMs).2.isExpired nowMs = true) : r.phase.terminal = true := by
  have hterminal := terminal_of_isExpired h
  -- A room that ends by this tick has its retention before it.
  have hnow : ∀ r' : BattleRoom, r'.finishedAtMs = nowMs → r'.isExpired nowMs = true → False := by
    intro r' hfinished hexpired
    rw [isExpired, hfinished, Int.sub_self, kFinishedRetentionMs] at hexpired
    simp at hexpired
  generalize hcall : (r.tick nowMs).2 = r' at h hterminal
  have heffect : r.Effect (.op (.tick nowMs)) (r.tick nowMs).2 := effect_tick
  rw [hcall] at heffect
  clear hcall
  cases heffect with
  | idle hquiet lastTickMs lastPersistAttemptMs => exact hterminal
  | expired hphase => exact (hnow _ rfl h).elim
  | disconnected hphase hoffline hgrace hmem hwinner => cases hterminal
  | deserted hphase hoffline hgrace => exact (hnow _ rfl h).elim
  | advanced hphase honline frames lastTickMs =>
    rcases advanceFrames_phase (r := { r with lastTickMs := lastTickMs }) nowMs hphase frames with
      hp | ⟨hp, -⟩ <;> rw [hp] at hterminal <;> cases hterminal

end BattleRoom

/-- A row that is loaded and not rejected is not of a game in a final phase. -/
theorem RoomsRow.terminal_of_decode (row : RoomsRow) {collation : Common.Collation}
    (hloaded : row.loaded collation = true) (h : row.decode.problem = "") :
    row.decode.record.phase.terminal = false := by
  have hphase := (row.decode_eq h).1
  have hopen : row.state ≠ "finished" ∧ row.state ≠ "aborted" := by
    refine ⟨fun hstate => ?_, fun hstate => ?_⟩
    · cases (loaded_of_final (.inl hstate)).symm.trans hloaded
    · cases (loaded_of_final (.inr hstate)).symm.trans hloaded
  unfold parseRoomPhase at hphase
  split at hphase; · rw [← Option.some.inj hphase]; rfl
  split at hphase; · rw [← Option.some.inj hphase]; rfl
  split at hphase; · rw [← Option.some.inj hphase]; rfl
  split at hphase; · rw [← Option.some.inj hphase]; rfl
  rw [if_neg hopen.1, if_neg hopen.2] at hphase
  cases hphase

namespace RoomManager

variable {m : RoomManager} {nowMs : Int} {stores : RoomStores} {x : String} {r : BattleRoom}

/-! ## What `Tick` collects

Rooms that have entered a final phase, and those whose last snapshot is old. -/

theorem lookup_collectSnapshot (acc : List RoomSnapshotRecord × Table String SnapshotState)
    (r : BattleRoom) (k : String) :
    (collectSnapshot nowMs acc r).2.lookup k =
      if k = r.matchId then some (r.collected nowMs ((acc.2.lookup r.matchId).getD {}))
      else acc.2.lookup k := by
  unfold collectSnapshot BattleRoom.collected
  dsimp only
  split <;> exact Table.lookup_insert' _ _ _ _

theorem mem_collectSnapshot {acc : List RoomSnapshotRecord × Table String SnapshotState}
    {row : RoomSnapshotRecord} : row ∈ (collectSnapshot nowMs acc r).1 ↔ row ∈ acc.1 ∨
      shouldSnapshot ((acc.2.lookup r.matchId).getD {}) r.phase nowMs = true ∧
        row = r.makeSnapshotRecord nowMs := by
  unfold collectSnapshot
  dsimp only
  split
  case isTrue hdue => simp [hdue]
  case isFalse hdue => simp [hdue]

theorem lookup_foldl_collectSnapshot_of_ne {rooms : List BattleRoom} {k : String}
    (hk : ∀ r ∈ rooms, r.matchId ≠ k) (acc : List RoomSnapshotRecord × Table String SnapshotState) :
    (rooms.foldl (collectSnapshot nowMs) acc).2.lookup k = acc.2.lookup k := by
  induction rooms generalizing acc with
  | nil => rfl
  | cons r rooms ih =>
    rw [List.forall_mem_cons] at hk
    rw [List.foldl_cons, ih hk.2, lookup_collectSnapshot, if_neg hk.1.symm]

theorem mem_foldl_collectSnapshot_of_mem {rooms : List BattleRoom} {row : RoomSnapshotRecord}
    {acc : List RoomSnapshotRecord × Table String SnapshotState} (h : row ∈ acc.1) :
    row ∈ (rooms.foldl (collectSnapshot nowMs) acc).1 := by
  induction rooms generalizing acc with
  | nil => exact h
  | cons r rooms ih => exact ih (mem_collectSnapshot.mpr (.inl h))

/-- **Each room is collected by itself**, when no two are of one match. -/
theorem foldl_collectSnapshot_room {rooms : List BattleRoom} (hnodup : (rooms.map (·.matchId)).Nodup)
    (hr : r ∈ rooms) (acc : List RoomSnapshotRecord × Table String SnapshotState) :
    (rooms.foldl (collectSnapshot nowMs) acc).2.lookup r.matchId =
        some (r.collected nowMs ((acc.2.lookup r.matchId).getD {})) ∧
      (shouldSnapshot ((acc.2.lookup r.matchId).getD {}) r.phase nowMs = true →
        r.makeSnapshotRecord nowMs ∈ (rooms.foldl (collectSnapshot nowMs) acc).1) := by
  induction rooms generalizing acc with
  | nil => cases hr
  | cons s rooms ih =>
    rw [List.map_cons, List.nodup_cons, List.mem_map] at hnodup
    rw [List.foldl_cons]
    rcases List.mem_cons.mp hr with rfl | hr
    · have hne : ∀ s ∈ rooms, s.matchId ≠ r.matchId := fun s hs heq => hnodup.1 ⟨s, hs, heq⟩
      rw [lookup_foldl_collectSnapshot_of_ne hne, lookup_collectSnapshot, if_pos rfl]
      exact ⟨rfl, fun hdue => mem_foldl_collectSnapshot_of_mem (mem_collectSnapshot.mpr (.inr ⟨hdue, rfl⟩))⟩
    · have hne : r.matchId ≠ s.matchId := fun heq => hnodup.1 ⟨r, hr, heq⟩
      have hsame : (collectSnapshot nowMs acc s).2.lookup r.matchId = acc.2.lookup r.matchId := by
        rw [lookup_collectSnapshot, if_neg hne]
      rw [← hsame]
      exact ih hnodup.2 hr _

/-- No two rooms of a consistent registry are of one match. -/
theorem Consistent.nodup_matchIds (h : m.Consistent) :
    ((m.rooms.toPairs.map (·.2)).map (·.matchId)).Nodup := by
  rw [List.map_map]
  refine List.Nodup.map_on ?_ (List.Nodup.of_map _ (Table.nodup_toPairs _))
  rintro ⟨x, r⟩ hx ⟨y, s⟩ hy heq
  rw [Table.mem_toPairs] at hx hy
  obtain ⟨rfl, rfl⟩ := h.oneRoom hx hy heq
  rfl

/-- **`Tick` collects each room** as the tick leaves it. -/
theorem Consistent.collected_room (h : m.Consistent) (hwriter : stores.hasSnapshotWriter = true)
    (hr : m.rooms.lookup x = some r) (nowMs : Int) :
    (m.collected nowMs stores).2.lookup r.matchId =
        some ((r.tick nowMs).2.collected nowMs ((m.snapshotState.lookup r.matchId).getD {})) ∧
      (shouldSnapshot ((m.snapshotState.lookup r.matchId).getD {}) (r.tick nowMs).2.phase nowMs = true →
        (r.tick nowMs).2.makeSnapshotRecord nowMs ∈ (m.collected nowMs stores).1) := by
  have hticked : (m.ticked nowMs).Consistent := h.map (f := fun _ r => (r.tick nowMs).2)
    (fun _ r => ⟨(BattleRoom.Becomes.tick (r := r)).roomId, (BattleRoom.Becomes.tick (r := r)).matchId⟩)
    (fun x => Table.lookup_mapVals _ _ _) rfl fun k hk => .inl hk
  have hmatch : (r.tick nowMs).2.matchId = r.matchId := BattleRoom.Becomes.tick.matchId
  rw [collected, if_pos hwriter, ← hmatch]
  exact foldl_collectSnapshot_room hticked.nodup_matchIds (m.mem_ticked nowMs |>.mpr ⟨x, r, hr, rfl⟩) _

theorem lookup_state_of_reapExpired {k : String} {state : SnapshotState}
    (hk : (m.reapExpired nowMs).snapshotState.lookup k = some state) :
    m.snapshotState.lookup k = some state := by
  rw [reapExpired, Table.lookup_foldl_erase] at hk
  split at hk
  · cases hk
  · exact hk

/-- **A drain notes every room that it aborts**, and nothing of another match. -/
theorem lookup_state_abortUnfinishedLocked (k : String) :
    (m.abortUnfinishedLocked nowMs).2.snapshotState.lookup k =
      if ∃ r ∈ m.unfinishedRooms, r.matchId = k then some ⟨nowMs, .aborted, true⟩
      else m.snapshotState.lookup k := by
  have hfold : ∀ (rooms : List BattleRoom) (t : Table String SnapshotState),
      ((rooms.map fun r => r.abort nowMs).foldl
        (fun t room => t.insert room.matchId ⟨nowMs, room.phase, true⟩) t).lookup k =
        if ∃ r ∈ rooms, r.matchId = k then some ⟨nowMs, .aborted, true⟩ else t.lookup k := by
    intro rooms
    induction rooms with
    | nil => simp
    | cons r rooms ih =>
      intro t
      rw [List.map_cons, List.foldl_cons, ih, Table.lookup_insert']
      by_cases hrooms : ∃ r ∈ rooms, r.matchId = k
      · rw [if_pos hrooms, if_pos (List.exists_mem_cons_iff .. |>.mpr (.inr hrooms))]
      · simp only [if_neg hrooms, List.exists_mem_cons_iff, or_iff_left hrooms, @eq_comm _ k]
        rfl
  exact hfold _ _

theorem mem_unfinishedRooms : r ∈ m.unfinishedRooms ↔
    (∃ x, m.rooms.lookup x = some r) ∧ r.phase.unfinished = true := by
  simp only [unfinishedRooms, List.mem_filter, List.mem_map, Prod.exists, exists_eq_right,
    Table.mem_toPairs]

/-- A room that must not wait for its snapshot has had it. -/
theorem shouldSnapshot_of_terminal {state : SnapshotState} {phase : RoomPhase}
    (hterminal : phase.terminal = true) (h : shouldSnapshot state phase nowMs = false) :
    state.lastPhase = phase := by
  have hphase : phase = .finished ∨ phase = .aborted := by
    cases phase <;> first | exact .inl rfl | exact .inr rfl | cases hterminal
  unfold shouldSnapshot at h
  split at h
  · cases h
  case isFalse hnow =>
    have hstate : ¬(!state.written ∨ state.lastPhase ≠ phase) := fun hstate => hnow ⟨hphase, hstate⟩
    exact not_not.mp (not_or.mp hstate).2

/-- A restored room was there, or is of a row that is not rejected; nothing is remembered of it. -/
theorem room_restoreLocked (m : RoomManager) (nowMs : Int) (rows : List RoomSnapshotRow) :
    (m.restoreLocked nowMs rows).2.snapshotState = m.snapshotState ∧
      ∀ x r, (m.restoreLocked nowMs rows).2.rooms.lookup x = some r → m.rooms.lookup x = some r ∨
        ∃ row ∈ rows, row.problem = "" ∧ r = .restored row.record nowMs := by
  suffices hall : ∀ (rows : List RoomSnapshotRow) (acc : List RoomSnapshotRecord × RoomManager),
      (rows.foldl (RoomManager.restoreRow nowMs) acc).2.snapshotState = acc.2.snapshotState ∧
        ∀ x r, (rows.foldl (RoomManager.restoreRow nowMs) acc).2.rooms.lookup x = some r →
          acc.2.rooms.lookup x = some r ∨
            ∃ row ∈ rows, row.problem = "" ∧ r = .restored row.record nowMs from hall rows ([], m)
  intro rows
  induction rows with
  | nil => exact fun acc => ⟨rfl, fun _ _ hr => .inl hr⟩
  | cons row rows ih =>
    intro acc
    obtain ⟨hstate, hrooms⟩ := ih (RoomManager.restoreRow nowMs acc row)
    have hone : (RoomManager.restoreRow nowMs acc row).2.snapshotState = acc.2.snapshotState ∧
        ∀ x r, (RoomManager.restoreRow nowMs acc row).2.rooms.lookup x = some r →
          acc.2.rooms.lookup x = some r ∨ row.problem = "" ∧ r = .restored row.record nowMs := by
      cases rowResult nowMs row acc with
      | rejected _ heq | known heq =>
        rw [heq]
        exact ⟨rfl, fun _ _ hr => .inl hr⟩
      | made room hgood hroom hnewRoom hnewMatch heq =>
        rw [heq]
        refine ⟨rfl, fun x r hr => ?_⟩
        rw [Table.lookup_insert'] at hr
        split at hr
        · obtain rfl := Option.some.inj hr
          exact .inr ⟨hgood, RoomWorld.restoreFrom_eq_some hroom⟩
        · exact .inl hr
    refine ⟨hstate.trans hone.1, fun x r hr => ?_⟩
    rcases hrooms x r hr with hr | ⟨row', hmem, hrow'⟩
    · exact (hone.2 x r hr).imp_right fun hrow => ⟨row, List.mem_cons_self, hrow⟩
    · exact .inr ⟨row', List.mem_cons_of_mem _ hmem, hrow'⟩

end RoomManager

namespace RoomSystem

variable {stores : RoomStores} {s s' : RoomSystem} {x : String} {r : BattleRoom} {a : Action}
  {op : ServiceOp} {ops : List ServiceOp}

/-! ## What is remembered of a match

Whether its last snapshot was taken. -/

/-- Only the timer and a drain note anything; what others do not recycle stays. -/
theorem lookup_state_next {k : String} {state : SnapshotState} (htick : ∀ nowMs, a ≠ .tick nowMs)
    (hdrain : ∀ nowMs, a ≠ .abortUnfinishedGames nowMs)
    (hk : (s.next stores a).manager.snapshotState.lookup k = some state) :
    s.manager.snapshotState.lookup k = some state := by
  cases a with
  | create matchId playerIds nowMs roomId =>
    have hsame : (s.manager.create nowMs matchId playerIds roomId).2.2.snapshotState =
        s.manager.snapshotState := by
      unfold RoomManager.create
      split; · rfl
      split; · rfl
      dsimp only
      split; · rfl
      split <;> rfl
    exact hsame ▸ hk
  | join roomId playerId nowMs =>
    simp only [next, RoomManager.join] at hk
    split at hk <;> exact hk
  | submitInput roomId playerId kind =>
    simp only [next, RoomManager.submitInput] at hk
    split at hk <;> exact hk
  | setPresence roomId playerId online nowMs =>
    simp only [next, RoomManager.setPresence] at hk
    split at hk <;> exact hk
  | getState roomId nowMs => exact RoomManager.lookup_state_of_reapExpired hk
  | getSnapshotsSince roomId sinceFrame nowMs =>
    rw [next, RoomManager.getSnapshotsSince_snd] at hk
    exact RoomManager.lookup_state_of_reapExpired hk
  | getResult matchId nowMs =>
    rw [manager_getResult] at hk
    split at hk
    · exact RoomManager.lookup_state_of_reapExpired hk
    · exact hk
  | tick nowMs => exact absurd rfl (htick nowMs)
  | abortUnfinishedGames nowMs => exact absurd rfl (hdrain nowMs)
  | beginShutdown => exact hk
  | resume thread answer =>
    simp only [next] at hk
    split at hk
    · exact hk
    · rw [(tables_resume _ _ _).2] at hk
      exact hk

/-- The other actions neither tick a room nor drain it. -/
theorem ne_of_mem_roomCalls {c : BattleRoom.Call} (htick : ∀ nowMs, a ≠ .tick nowMs)
    (hdrain : ∀ nowMs, a ≠ .abortUnfinishedGames nowMs) (hc : c ∈ s.roomCalls x a) :
    (∀ nowMs, c ≠ .op (.tick nowMs)) ∧ ∀ nowMs, c ≠ .abortUnfinishedGames nowMs := by
  cases a with
  | tick nowMs => exact absurd rfl (htick nowMs)
  | abortUnfinishedGames nowMs => exact absurd rfl (hdrain nowMs)
  | join | submitInput | setPresence =>
    simp only [roomCalls] at hc
    split at hc
    · obtain rfl := List.mem_singleton.mp hc
      exact ⟨fun _ heq => (by cases heq), fun _ heq => (by cases heq)⟩
    · cases hc
  | resume thread answer =>
    simp only [roomCalls] at hc
    split at hc
    · split at hc
      · obtain rfl := List.mem_singleton.mp hc
        split <;> exact ⟨fun _ heq => (by cases heq), fun _ heq => (by cases heq)⟩
      · cases hc
    · cases hc
  | create | getState | getSnapshotsSince | getResult | beginShutdown => cases hc

theorem aborted_of_calls (htick : ∀ nowMs, a ≠ .tick nowMs)
    (hdrain : ∀ nowMs, a ≠ .abortUnfinishedGames nowMs)
    (h : (r.calls (s.roomCalls x a)).phase = .aborted) : r.phase = .aborted := by
  rcases s.roomCalls_cases x a with hnil | ⟨c, hc⟩
  · rw [hnil] at h
    exact h
  · obtain ⟨hnotick, hnodrain⟩ := ne_of_mem_roomCalls (c := c) htick hdrain (s := s) (x := x)
      (by rw [hc]; exact List.mem_singleton_self c)
    rw [hc] at h
    exact BattleRoom.aborted_of_call hnotick hnodrain h

/-! ## Every room in a final phase is accounted for

Its last snapshot is still to be taken, held by a call, or saved. -/

/-- **A snapshot of the room as it is was saved**, or a call that took one has it still to save. -/
def Taken (s : RoomSystem) (r : BattleRoom) : Prop :=
  ∃ nowMs, (∃ reply, .save (r.makeSnapshotRecord nowMs) reply ∈ s.log) ∨
    s.InFlight (r.makeSnapshotRecord nowMs)

/-- Once the calls have nothing left to save, it was saved. -/
theorem Taken.saved (h : s.Taken r) (hidle : ∀ nowMs, ¬s.InFlight (r.makeSnapshotRecord nowMs)) :
    ∃ nowMs reply, .save (r.makeSnapshotRecord nowMs) reply ∈ s.log := by
  obtain ⟨nowMs, ⟨reply, hsaved⟩ | hflight⟩ := h
  · exact ⟨nowMs, reply, hsaved⟩
  · exact absurd hflight (hidle nowMs)

theorem Taken.next (h : s.Taken r) (a : Action) : (s.next stores a).Taken r := by
  obtain ⟨nowMs, ⟨reply, hsaved⟩ | hflight⟩ := h
  · exact ⟨nowMs, .inl ⟨reply, mem_log_next hsaved a⟩⟩
  · exact ⟨nowMs, (hflight.next a).symm⟩

theorem Taken.serve (h : s.Taken r) (op : ServiceOp) : (s.serve stores op).Taken r := by
  cases op with
  | act a => exact h.next a
  | restore nowMs rows =>
    simp only [RoomSystem.serve]
    split
    · obtain ⟨takenMs, hsaved | ⟨pc, hpc, hrow⟩⟩ := h
      · exact ⟨takenMs, .inl hsaved⟩
      · exact ⟨takenMs, .inr ⟨pc, List.mem_append_left _ hpc, hrow⟩⟩
    · exact h

theorem taken_of_mem_taken (nowMs : Int) (h : r.makeSnapshotRecord nowMs ∈ s.taken stores a) :
    (s.next stores a).Taken r :=
  ⟨nowMs, .inr (inFlight_of_mem_taken h)⟩

/-- **A new room has a new match**, of which nothing is remembered. -/
theorem Registered.lookup_state_new {r' : BattleRoom} (h : s.Registered) (hfresh : s.Fresh a)
    (hr : s.room? x = none) (hr' : (s.next stores a).room? x = some r') :
    s.manager.snapshotState.lookup r'.matchId = none := by
  rcases hstate : s.manager.snapshotState.lookup r'.matchId with - | state
  · rfl
  · obtain ⟨y, t, ht, hmatch⟩ := h.consistent.room_of_state hstate
    have hregistered : (s.next stores a).Registered := h.act hfresh
    obtain ⟨matchId, playerIds, nowMs, rfl, -, rfl⟩ := room?_next_new hr hr'
    have hkept : (s.next stores (.create matchId playerIds nowMs x)).room? y = some t :=
      (room?_next ht _).trans (if_neg Bool.false_ne_true)
    obtain ⟨rfl, -⟩ := hregistered.consistent.oneRoom hkept hr' hmatch
    cases hr.symm.trans ht

/-- **What is taken of the rooms in a final phase.** -/
structure Filed (s : RoomSystem) : Prop extends s.Registered where
  aborted : ∀ x r, s.room? x = some r → r.phase = .aborted → s.Taken r
  /-- What is remembered of a final phase is true, and was taken. -/
  remembered : ∀ x r state, s.room? x = some r → s.manager.snapshotState.lookup r.matchId = some state →
    state.lastPhase.terminal = true → r.phase = state.lastPhase ∧ s.Taken r

namespace Filed

theorem start : Filed {} where
  toRegistered := .start
  aborted _ _ h := by cases h
  remembered _ _ _ h := by cases h

/-- The timer and a drain apart, an action takes no room into a final phase but by the mark of its
result. -/
theorem quiet (h : s.Filed) (hfresh : s.Fresh a) (htick : ∀ nowMs, a ≠ .tick nowMs)
    (hdrain : ∀ nowMs, a ≠ .abortUnfinishedGames nowMs) : (s.next stores a).Filed where
  toRegistered := h.act hfresh
  aborted x r' hr' hphase := by
    rcases hr : s.room? x with - | r
    · obtain ⟨matchId, playerIds, nowMs, -, -, rfl⟩ := room?_next_new hr hr'
      cases hphase
    · rw [room?_next hr] at hr'
      split at hr'
      · cases hr'
      obtain rfl := Option.some.inj hr'
      have haborted := aborted_of_calls htick hdrain hphase
      rw [BattleRoom.calls_of_terminal (by rw [haborted]; rfl)]
      exact (h.aborted x r hr haborted).next a
  remembered x r' state hr' hstate hterminal := by
    have hbefore := lookup_state_next htick hdrain hstate
    rcases hr : s.room? x with - | r
    · cases (h.lookup_state_new hfresh hr hr').symm.trans hbefore
    · rw [room?_next hr] at hr'
      split at hr'
      · cases hr'
      obtain rfl := Option.some.inj hr'
      rw [(calls_ids r _).2] at hbefore
      obtain ⟨hphase, htaken⟩ := h.remembered x r state hr hbefore hterminal
      rw [BattleRoom.calls_of_terminal (by rw [hphase]; exact hterminal)]
      exact ⟨hphase, htaken.next a⟩

/-- **A room that `Tick` leaves in a final phase** has had its snapshot taken, in this call or before. -/
theorem taken_tick (h : s.Filed) (hwriter : stores.hasSnapshotWriter = true) (hr : s.room? x = some r)
    {nowMs : Int} (hterminal : (r.tick nowMs).2.phase.terminal = true) :
    (s.next stores (.tick nowMs)).Taken (r.tick nowMs).2 := by
  obtain ⟨-, hdue⟩ := h.consistent.collected_room hwriter hr nowMs
  rcases hshould : RoomManager.shouldSnapshot ((s.manager.snapshotState.lookup r.matchId).getD {})
      (r.tick nowMs).2.phase nowMs with - | -
  · have hlast := RoomManager.shouldSnapshot_of_terminal hterminal hshould
    rcases hstate : s.manager.snapshotState.lookup r.matchId with - | state
    · rw [hstate] at hlast
      rw [← hlast] at hterminal
      cases hterminal
    · rw [hstate, Option.getD_some] at hlast
      obtain ⟨hphase, htaken⟩ := h.remembered x r state hr hstate (by rw [hlast]; exact hterminal)
      rw [BattleRoom.tick_of_decided
        (BattleRoom.unfinished_of_terminal (by rw [hphase, hlast]; exact hterminal))]
      exact htaken.next _
  · exact taken_of_mem_taken nowMs (hdue hshould)

theorem tick (h : s.Filed) (hwriter : stores.hasSnapshotWriter = true) (nowMs : Int) :
    (s.next stores (.tick nowMs)).Filed where
  toRegistered := h.act trivial
  aborted x r' hr' hphase := by
    rcases hr : s.room? x with - | r
    · obtain ⟨_, _, _, heq, -⟩ := room?_next_new hr hr'
      cases heq
    · rw [room?_next hr] at hr'
      split at hr'
      · cases hr'
      obtain rfl := Option.some.inj hr'
      exact h.taken_tick hwriter hr (congrArg RoomPhase.terminal hphase)
  remembered x r' state hr' hstate hterminal := by
    rcases hr : s.room? x with - | r
    · obtain ⟨_, _, _, heq, -⟩ := room?_next_new hr hr'
      cases heq
    · rw [room?_next hr] at hr'
      split at hr'
      · cases hr'
      obtain rfl := Option.some.inj hr'
      rw [(calls_ids r _).2] at hstate
      have hcollected := RoomManager.lookup_state_of_reapExpired hstate
      obtain rfl := Option.some.inj
        ((h.consistent.collected_room hwriter hr nowMs).1.symm.trans hcollected)
      suffices hphase : (r.tick nowMs).2.phase = ((r.tick nowMs).2.collected nowMs
          ((s.manager.snapshotState.lookup r.matchId).getD {})).lastPhase from
        ⟨hphase, h.taken_tick hwriter hr (by rw [hphase]; exact hterminal)⟩
      unfold BattleRoom.collected at hterminal ⊢
      split at hterminal
      case isTrue hdue => rw [if_pos hdue]
      case isFalse hdue =>
        rw [if_neg hdue]
        rcases hbefore : s.manager.snapshotState.lookup r.matchId with - | state
        · rw [hbefore] at hterminal
          cases hterminal
        · rw [hbefore, Option.getD_some] at hterminal
          have hphase := (h.remembered x r state hr hbefore hterminal).1
          rw [BattleRoom.tick_of_decided
            (BattleRoom.unfinished_of_terminal (by rw [hphase]; exact hterminal))]
          exact hphase

/-- A room that a drain aborts has its snapshot taken. -/
theorem taken_drain (hwriter : stores.hasSnapshotWriter = true) (hr : s.room? x = some r)
    (hunfinished : r.phase.unfinished = true) (nowMs : Int) :
    (s.next stores (.abortUnfinishedGames nowMs)).Taken (r.abort nowMs) := by
  refine taken_of_mem_taken nowMs ?_
  rw [taken, if_pos hwriter]
  exact RoomManager.mem_snapshots_abortUnfinishedLocked.mpr ⟨x, r, hr, hunfinished, rfl⟩

theorem drain (h : s.Filed) (hwriter : stores.hasSnapshotWriter = true) (nowMs : Int) :
    (s.next stores (.abortUnfinishedGames nowMs)).Filed := by
  refine
    { toRegistered := h.act trivial
      aborted := fun x r' hr' hphase => ?_
      remembered := fun x r' state hr' hstate hterminal => ?_ }
  · obtain ⟨r, hr, ⟨hunfinished, rfl⟩ | ⟨-, rfl⟩⟩ := room?_drain hr'
    · exact taken_drain hwriter hr hunfinished nowMs
    · exact (h.aborted x r' hr hphase).next _
  · simp only [next, RoomManager.lookup_state_abortUnfinishedLocked] at hstate
    obtain ⟨r, hr, ⟨hunfinished, rfl⟩ | ⟨hover, rfl⟩⟩ := room?_drain hr'
    · rw [if_pos ⟨r, RoomManager.mem_unfinishedRooms.mpr ⟨⟨x, hr⟩, hunfinished⟩, rfl⟩] at hstate
      obtain rfl := Option.some.inj hstate
      exact ⟨rfl, taken_drain hwriter hr hunfinished nowMs⟩
    · rw [if_neg] at hstate
      · exact (h.remembered x r' state hr hstate hterminal).imp_right (·.next _)
      · -- An unfinished room of the match would be this room.
        rintro ⟨t, ht, hmatch⟩
        obtain ⟨⟨y, hy⟩, hunfinished⟩ := RoomManager.mem_unfinishedRooms.mp ht
        obtain ⟨-, rfl⟩ := h.consistent.oneRoom hy hr hmatch
        cases hover.symm.trans hunfinished

theorem restored (h : s.Filed) (nowMs : Int) (rows : List RoomsRow) :
    (s.serve stores (.restore nowMs rows)).Filed := by
  have hregistered := h.toRegistered.restore stores nowMs rows
  have htaken : ∀ r, s.Taken r → (s.serve stores (.restore nowMs rows)).Taken r :=
    fun r hr => hr.serve _
  have hrooms : (s.serve stores (.restore nowMs rows)).manager.snapshotState = s.manager.snapshotState ∧
      ∀ x r, (s.serve stores (.restore nowMs rows)).room? x = some r → s.room? x = some r ∨
        r.phase.terminal = false := by
    simp only [RoomSystem.serve]
    split
    · obtain ⟨hstate, hrooms⟩ := s.manager.room_restoreLocked nowMs
        ((RoomsRow.loadUnfinished stores.collation rows).getD [])
      refine ⟨hstate, fun x r hr => (hrooms x r hr).imp_right ?_⟩
      rintro ⟨row, hmem, hgood, rfl⟩
      obtain ⟨row, -, hloaded, rfl⟩ := RoomsRow.mem_loadUnfinished hmem
      exact row.terminal_of_decode hloaded hgood
    · exact ⟨rfl, fun _ _ hr => .inl hr⟩
  exact
    { toRegistered := hregistered
      aborted := fun x r hr hphase => by
        rcases hrooms.2 x r hr with hold | hnew
        · exact htaken r (h.aborted x r hold hphase)
        · rw [hphase] at hnew
          cases hnew
      remembered := fun x r state hr hstate hterminal => by
        rw [hrooms.1] at hstate
        obtain ⟨y, t, ht, hmatch⟩ := h.consistent.room_of_state hstate
        obtain ⟨rfl, rfl⟩ := hregistered.consistent.oneRoom (room?_restore ht stores nowMs rows) hr hmatch
        exact (h.remembered y t state ht hstate hterminal).imp_right (htaken t) }

theorem serve (h : s.Filed) (hwriter : stores.hasSnapshotWriter = true)
    (hstep : Serve stores s op s') : s'.Filed := by
  obtain ⟨hfresh, rfl⟩ := hstep
  cases op with
  | restore nowMs rows => exact h.restored nowMs rows
  | act a =>
    by_cases htick : ∃ nowMs, a = .tick nowMs
    · obtain ⟨nowMs, rfl⟩ := htick
      exact h.tick hwriter nowMs
    by_cases hdrain : ∃ nowMs, a = .abortUnfinishedGames nowMs
    · obtain ⟨nowMs, rfl⟩ := hdrain
      exact h.drain hwriter nowMs
    exact h.quiet hfresh (fun nowMs heq => htick ⟨nowMs, heq⟩) fun nowMs heq => hdrain ⟨nowMs, heq⟩

end Filed

/-! ## The law

`Tick` recycles under the lock under which it collects, and saves after it; so a room it recycles must
have been saved by an earlier call, as with the queries. -/

/-- **A room is recycled before its last snapshot is saved**: the result came too late for a `Tick` to
take a snapshot of the finished room, or the call that took its last snapshot holds it still. -/
def Overlooks (s : RoomSystem) : ServiceOp → Prop
  | .act a => ∃ e ∈ s.manager.rooms.toPairs, e.2.phase.terminal = true ∧ e.2.reapedBy a = true ∧
      (e.2.phase = .finished ∧
          (s.manager.snapshotState.lookup e.2.matchId).map (·.lastPhase) ≠ some .finished ∨
        ∃ pc ∈ s.threads, ∃ row ∈ pc.records, row = e.2.makeSnapshotRecord row.snapshotAtMs)
  | .restore _ _ => False

instance (s : RoomSystem) : DecidablePred s.Overlooks
  | .act _ => inferInstanceAs (Decidable (∃ _ ∈ _, _ ∧ _ ∧ _))
  | .restore _ _ => .isFalse id

/-- A step that overlooks nothing. -/
def Attentive (stores : RoomStores) (s : RoomSystem) (op : ServiceOp) (s' : RoomSystem) : Prop :=
  (s.FreshOp op ∧ ¬s.Overlooks op) ∧ s' = s.serve stores op

/-- A room that is recycled has been in its final phase before. -/
theorem terminal_of_recycled (hr : s.room? x = some r) (hgone : (s.next stores a).room? x = none) :
    r.phase.terminal = true ∧ r.reapedBy a = true := by
  rw [room?_next hr] at hgone
  split at hgone
  case isFalse => cases hgone
  case isTrue hreaped =>
    have hterminal : r.phase.terminal = true := by
      cases a with
      | tick nowMs => exact BattleRoom.terminal_of_tick hreaped
      | getState | getSnapshotsSince => exact BattleRoom.terminal_of_isExpired hreaped
      | getResult matchId nowMs =>
        simp only [BattleRoom.reapedBy, Action.reapsAt] at hreaped
        split at hreaped
        · exact BattleRoom.terminal_of_isExpired hreaped
        · cases hreaped
      | _ => cases hreaped
    rw [BattleRoom.calls_of_terminal hterminal] at hreaped
    exact ⟨hterminal, hreaped⟩

/-- What was taken of a room in a final phase: everything, if `Tick` noted that it is finished. -/
theorem Filed.taken (h : s.Filed) (hr : s.room? x = some r) (hterminal : r.phase.terminal = true)
    (hnoted : r.phase = .finished →
      (s.manager.snapshotState.lookup r.matchId).map (·.lastPhase) = some .finished) : s.Taken r := by
  rcases BattleRoom.phase_of_terminal hterminal with hfinished | haborted
  · obtain ⟨state, hstate, hlast⟩ := Option.map_eq_some_iff.mp (hnoted hfinished)
    exact (h.remembered x r state hr hstate (by rw [hlast]; rfl)).2
  · exact h.aborted x r hr haborted

/-- **A room that is recycled** was saved in its final phase before, unless it is overlooked. -/
theorem Filed.saved_of_recycled (h : s.Filed) (hseen : ¬s.Overlooks op) (hr : s.room? x = some r)
    (hgone : (s.serve stores op).room? x = none) :
    r.phase.terminal = true ∧ ∃ nowMs reply, .save (r.makeSnapshotRecord nowMs) reply ∈ s.log := by
  cases op with
  | restore nowMs rows => cases (room?_restore hr stores nowMs rows).symm.trans hgone
  | act a =>
    obtain ⟨hterminal, hreaped⟩ := terminal_of_recycled hr hgone
    have hmem : (x, r) ∈ s.manager.rooms.toPairs := Table.mem_toPairs.mpr hr
    have htaken : s.Taken r := by
      refine h.taken hr hterminal fun hfinished => ?_
      by_contra hnoted
      exact hseen ⟨(x, r), hmem, hterminal, hreaped, .inl ⟨hfinished, hnoted⟩⟩
    refine ⟨hterminal, htaken.saved ?_⟩
    rintro nowMs ⟨pc, hpc, hrow⟩
    exact hseen ⟨(x, r), hmem, hterminal, hreaped, .inr ⟨pc, hpc, _, hrow, rfl⟩⟩

/-- **The last snapshot of a room is saved before the room is recycled** — in every run that overlooks
none, whatever the stores answer. -/
theorem recycled_saved (hwriter : stores.hasSnapshotWriter = true)
    (hrun : Run (Attentive stores) {} ops s) :
    ∀ pre op post m x r, ops = pre ++ op :: post → Run (Serve stores) {} pre m → m.room? x = some r →
      (m.serve stores op).room? x = none →
      r.phase.terminal = true ∧ ∃ nowMs reply, .save (r.makeSnapshotRecord nowMs) reply ∈ m.log := by
  rintro pre op post m x r rfl hpre hr hgone
  obtain ⟨m', hpre', hrest⟩ := Run.append_iff.mp hrun
  have hserve : Run (Serve stores) {} pre m' := hpre'.mono (I := fun _ => True)
    (fun _ _ _ _ _ => trivial) (fun _ _ _ _ h => ⟨h.1.1, h.2⟩) trivial
  obtain rfl : m = m' := hpre.unique (fun _ _ _ _ h h' => h.2.trans h'.2.symm) hserve
  obtain ⟨-, ⟨⟨-, hseen⟩, -⟩, -⟩ := Run.cons_iff.mp hrest
  have hfiled : m.Filed := hpre.invariant (fun _ _ _ h hstep => h.serve hwriter hstep) .start
  exact hfiled.saved_of_recycled hseen hr hgone

/-- A game ends because a player is away and its result is written; the next game is aborted. -/
def endedRooms : List ServiceOp :=
  [.act (.create "m-1" ["alice", "bob"] 1000 "r-1"), .act (.join "r-1" "alice" 1000),
    .act (.join "r-1" "bob" 1000), .act (.setPresence "r-1" "bob" false 1000), .act (.tick 40000),
    .act (.resume 0 {}), .act (.resume 0 {}), .act (.resume 0 {}), .act (.resume 0 {}),
    .act (.resume 0 {}),
    .act (.create "m-2" ["carol", "dave"] 41000 "r-2"), .act (.tick 42000), .act (.resume 1 {}),
    .act (.resume 1 {}), .act (.abortUnfinishedGames 43000), .act (.resume 2 {})]

/-- A `Tick` recycles the finished room… -/
def oneRecycled : List ServiceOp := endedRooms ++ [.act (.tick 340000), .act (.resume 3 {})]

/-- …and a query the aborted one. -/
def recycledRooms : List ServiceOp := oneRecycled ++ [.act (.getState "r-2" 400000)]

theorem recycled_saved_recycledRooms :
    (∃ r : BattleRoom, r.phase = .finished ∧
      ∃ nowMs reply, .save (r.makeSnapshotRecord nowMs) reply ∈
        (endedRooms.foldl (serve mysqlStores) {}).log) ∧
    ∃ r : BattleRoom, r.phase = .aborted ∧
      ∃ nowMs reply, .save (r.makeSnapshotRecord nowMs) reply ∈
        (oneRecycled.foldl (serve mysqlStores) {}).log := by
  have hrun : Run (Attentive mysqlStores) {} recycledRooms
      (recycledRooms.foldl (serve mysqlStores) {}) := Run.of_guarded (by decide +kernel)
  constructor
  · have hphase : ((endedRooms.foldl (serve mysqlStores) {}).room? "r-1").map (·.phase)
        = some .finished := by decide +kernel
    obtain ⟨r, hr, hfinished⟩ := Option.map_eq_some_iff.mp hphase
    exact ⟨r, hfinished, (recycled_saved rfl hrun endedRooms (.act (.tick 340000)) _ _ "r-1" r rfl
      (Run.of_guarded (by decide +kernel)) hr (by decide +kernel)).2⟩
  · have hphase : ((oneRecycled.foldl (serve mysqlStores) {}).room? "r-2").map (·.phase)
        = some .aborted := by decide +kernel
    obtain ⟨r, hr, haborted⟩ := Option.map_eq_some_iff.mp hphase
    exact ⟨r, haborted, (recycled_saved rfl hrun oneRecycled (.act (.getState "r-2" 400000)) [] _ "r-2" r
      rfl (Run.of_guarded (by decide +kernel)) hr (by decide +kernel)).2⟩

/-- A game that is over in its row but for its result, which the database takes only now. -/
def overlookedRoom : List ServiceOp :=
  [.restore 400000 [⟨"m-1", "r-1", "finishing", 30, ⟨"alice", 40, true⟩, ⟨"bob", 0, true⟩, some "alice",
      "hp_zero", 1000, 4000, 4000⟩],
    .act (.tick 400000), .act (.resume 1 {}), .act (.resume 1 {}), .act (.resume 1 {}),
    .act (.resume 1 {}), .act (.resume 1 {})]

/-- It is finished, the next query recycles it, and no snapshot says that it is finished. -/
theorem not_recycled_saved :
    ¬ ∀ (stores : RoomStores) (ops : List ServiceOp) (op : ServiceOp) (m : RoomSystem) (x : String)
      (r : BattleRoom), stores.hasSnapshotWriter = true → Run (Serve stores) {} ops m → m.FreshOp op →
      m.room? x = some r → (m.serve stores op).room? x = none →
      ∃ row reply, .save row reply ∈ m.log ∧ row.roomId = x ∧ row.phase = r.phase := by
  intro hclaim
  have hphase : ((overlookedRoom.foldl (serve mysqlStores) {}).room? "r-1").map (·.phase)
      = some .finished := by decide
  obtain ⟨r, hr, hfinished⟩ := Option.map_eq_some_iff.mp hphase
  obtain ⟨row, reply, hsaved, -, hrow⟩ := hclaim mysqlStores overlookedRoom
    (.act (.getState "r-1" 400100)) _ "r-1" r rfl (Run.of_guarded (by decide)) trivial hr (by decide)
  have hlog : ∃ row record, (overlookedRoom.foldl (serve mysqlStores) {}).log =
      [.save row .done, .write record .done] ∧ row.phase = .finishing := ⟨_, _, rfl, rfl⟩
  obtain ⟨_, record, heq, hfinishing⟩ := hlog
  rw [heq] at hsaved
  simp only [List.mem_cons, Event.save.injEq, List.not_mem_nil, or_false, reduceCtorEq] at hsaved
  rw [← hsaved.1, hrow, hfinished] at hfinishing
  cases hfinishing

end RoomSystem

end RealtimeGame.Room
