import RealtimeGame.Room.Effect
import RealtimeGame.Room.TableWrites

/-!
# Room/Registry — what one action of the service is to one room, and to one row

An action makes a few calls to a room (`roomCalls`), may recycle it (`reapsAt`), takes some snapshots
(`taken`) and saves at most one (`saving`).  The equations here say that this is all it does, so that the
laws of a service over its runs are read off the laws of a room over its calls.
-/

open Library

namespace RealtimeGame.Room

/-- When an action recycles the rooms that are due. -/
def Action.reapsAt : Action → Option Int
  | .getState _ nowMs | .getSnapshotsSince _ _ nowMs | .tick nowMs => some nowMs
  | .getResult matchId nowMs => if validId matchId then some nowMs else none
  | .create .. | .join .. | .submitInput .. | .setPresence .. | .abortUnfinishedGames .. |
    .beginShutdown | .resume .. => none

/-- The room is recycled by this action. -/
def BattleRoom.reapedBy (r : BattleRoom) (a : Action) : Bool := a.reapsAt.any r.isExpired

namespace RoomManager

variable (m : RoomManager) (nowMs : Int) (x : String)

/-! ## The sections under the lock

What each of them does to one room. -/

theorem lookup_putRoom {roomId : String} {room : BattleRoom} (hroom : m.rooms.lookup roomId = some room)
    (f : BattleRoom → BattleRoom) :
    (m.putRoom roomId (f room)).rooms.lookup x =
      (m.rooms.lookup x).map fun r => if x = roomId then f r else r := by
  rw [putRoom, Table.lookup_adjust]
  by_cases hx : x = roomId
  · subst hx
    simp [hroom]
  · simp [hx]

/-- A call to a room that is not there changes nothing. -/
theorem lookup_absent {roomId : String} (hroom : m.rooms.lookup roomId = none)
    (f : BattleRoom → BattleRoom) :
    m.rooms.lookup x = (m.rooms.lookup x).map fun r => if x = roomId then f r else r := by
  by_cases hx : x = roomId
  · rw [hx, hroom]
    rfl
  · simp [hx]

theorem lookup_join (roomId playerId : String) :
    (m.join nowMs roomId playerId).2.rooms.lookup x =
      (m.rooms.lookup x).map fun r => if x = roomId then (r.join nowMs playerId).2 else r := by
  unfold join
  split
  case h_1 hnone => exact m.lookup_absent x hnone _
  case h_2 hroom => exact m.lookup_putRoom x hroom fun r => (r.join nowMs playerId).2

theorem lookup_submitInput (roomId playerId : String) (kind : InputKind) :
    (m.submitInput roomId playerId kind).2.rooms.lookup x =
      (m.rooms.lookup x).map fun r => if x = roomId then (r.submitInput playerId kind).2 else r := by
  unfold submitInput
  split
  case h_1 hnone => exact m.lookup_absent x hnone _
  case h_2 hroom => exact m.lookup_putRoom x hroom fun r => (r.submitInput playerId kind).2

theorem lookup_setPresence (roomId playerId : String) (online : Bool) :
    (m.setPresence nowMs roomId playerId online).2.rooms.lookup x =
      (m.rooms.lookup x).map fun r =>
        if x = roomId then (r.setPresence nowMs playerId online).2 else r := by
  unfold setPresence
  split
  case h_1 hnone => exact m.lookup_absent x hnone _
  case h_2 hroom => exact m.lookup_putRoom x hroom fun r => (r.setPresence nowMs playerId online).2

theorem lookup_reapExpired :
    (m.reapExpired nowMs).rooms.lookup x = (m.rooms.lookup x).filter (!·.isExpired nowMs) :=
  Table.lookup_filter _ _ _

theorem getSnapshotsSince_snd (roomId : String) (sinceFrame : Int) :
    (m.getSnapshotsSince nowMs roomId sinceFrame).2 = m.reapExpired nowMs := by
  unfold getSnapshotsSince
  dsimp only
  split <;> rfl

theorem getResultLocked_snd (matchId : String) :
    (m.getResultLocked nowMs matchId).2 = m.reapExpired nowMs := by
  unfold getResultLocked
  dsimp only
  split
  · rfl
  · split <;> rfl

/-- The rooms after the first loop of `Tick`. -/
def ticked : RoomManager := { m with rooms := m.rooms.mapVals fun _ room => (room.tick nowMs).2 }

/-- The snapshots that `Tick` takes, and what it remembers of them. -/
def collected (stores : RoomStores) : List RoomSnapshotRecord × Table String SnapshotState :=
  if stores.hasSnapshotWriter then
    ((m.ticked nowMs).rooms.toPairs.map (·.2)).foldl (collectSnapshot nowMs) ([], m.snapshotState)
  else ([], m.snapshotState)

theorem tickLocked_snapshots (stores : RoomStores) :
    (m.tickLocked nowMs stores).1.snapshots = (m.collected nowMs stores).1 := rfl

theorem tickLocked_snd (stores : RoomStores) : (m.tickLocked nowMs stores).2 =
    { m.ticked nowMs with snapshotState := (m.collected nowMs stores).2 }.reapExpired nowMs := rfl

theorem mem_ticked {r : BattleRoom} : r ∈ (m.ticked nowMs).rooms.toPairs.map (·.2) ↔
    ∃ x r₀, m.rooms.lookup x = some r₀ ∧ r = (r₀.tick nowMs).2 := by
  simp only [ticked, List.mem_map, Prod.exists, Table.mem_toPairs, Table.lookup_mapVals,
    Option.map_eq_some_iff]
  constructor
  · rintro ⟨x, r, ⟨r₀, hr₀, rfl⟩, rfl⟩
    exact ⟨x, r₀, hr₀, rfl⟩
  · rintro ⟨x, r₀, hr₀, rfl⟩
    exact ⟨x, _, ⟨r₀, hr₀, rfl⟩, rfl⟩

theorem lookup_tickLocked (stores : RoomStores) :
    (m.tickLocked nowMs stores).2.rooms.lookup x =
      ((m.rooms.lookup x).map fun r => (r.tick nowMs).2).filter (!·.isExpired nowMs) := by
  rw [tickLocked_snd, lookup_reapExpired]
  exact congrArg _ (Table.lookup_mapVals _ _ _)

theorem lookup_commitResult_map (roomId : String) (ok : Bool) :
    (m.commitResult nowMs roomId ok).rooms.lookup x = (m.rooms.lookup x).map fun r =>
      if x = roomId then if ok then r.markResultPersisted else r.markResultFailed nowMs else r :=
  Table.lookup_adjust _ _ _ _

/-- When `Create` makes a room. -/
theorem makesRoom_iff {m : RoomManager} {nowMs : Int} {matchId roomId : String} {playerIds : List String} :
    RoomSystem.makesRoom m matchId playerIds nowMs roomId = true ↔
      BattleRoom.createArgsOk matchId playerIds = true ∧
        (m.matchIndex.lookup matchId).bind m.rooms.lookup = none ∧ m.shuttingDown = false ∧ roomId ≠ "" := by
  unfold RoomSystem.makesRoom create
  rcases hargs : BattleRoom.createArgsOk matchId playerIds with - | -
  · simp
  rcases hexisting : (m.matchIndex.lookup matchId).bind m.rooms.lookup with - | room
  · by_cases hdown : m.shuttingDown = true
    · simp [hdown]
    by_cases hempty : roomId = ""
    · simp [hdown, hempty]
    · simp [hdown, hempty]
  · simp

/-- `Create` adds one room at most, and only where there was none. -/
theorem create_rooms (matchId : String) (playerIds : List String) (roomId : String) :
    (m.create nowMs matchId playerIds roomId).2.2.rooms =
      if RoomSystem.makesRoom m matchId playerIds nowMs roomId ∧ m.rooms.lookup roomId = none then
        m.rooms.insert roomId (.new roomId matchId playerIds nowMs)
      else m.rooms := by
  by_cases hmakes : RoomSystem.makesRoom m matchId playerIds nowMs roomId = true
  · obtain ⟨hargs, hnew, hup, hid⟩ := makesRoom_iff.mp hmakes
    rcases hroom : m.rooms.lookup roomId with - | room <;> simp [create, hmakes, hargs, hnew, hup, hid, hroom]
  · rw [if_neg fun hall => hmakes hall.1]
    rw [makesRoom_iff] at hmakes
    unfold create
    split
    · rfl
    split
    · rfl
    dsimp only
    split
    · rfl
    split
    · rfl
    · simp_all

end RoomManager

namespace RoomSystem

variable {stores : RoomStores} {s : RoomSystem} {a : Action} {x : String} {r r' : BattleRoom}

/-! ## One room

What an action does to one room is a list of calls. -/

/-- The calls that an action makes to room `x`. -/
def roomCalls (s : RoomSystem) (x : String) : Action → List BattleRoom.Call
  | .join roomId playerId nowMs => if x = roomId then [.op (.join playerId nowMs)] else []
  | .submitInput roomId playerId kind => if x = roomId then [.op (.submitInput playerId kind)] else []
  | .setPresence roomId playerId online nowMs =>
    if x = roomId then [.op (.setPresence playerId online nowMs)] else []
  | .tick nowMs => [.op (.tick nowMs)]
  | .abortUnfinishedGames nowMs => [.abortUnfinishedGames nowMs]
  | .resume thread _ =>
    match s.threads[thread]? with
    | some (.commit nowMs roomId _ ok _) =>
      if x = roomId then [if ok then .markResultPersisted else .op (.markResultFailed nowMs)] else []
    | _ => []
  | .create .. | .getState .. | .getSnapshotsSince .. | .getResult .. | .beginShutdown => []

/-- An action makes one call to a room at most. -/
theorem roomCalls_cases (s : RoomSystem) (x : String) (a : Action) :
    s.roomCalls x a = [] ∨ ∃ c, s.roomCalls x a = [c] := by
  cases a with
  | join | submitInput | setPresence =>
    simp only [roomCalls]
    split
    · exact .inr ⟨_, rfl⟩
    · exact .inl rfl
  | tick | abortUnfinishedGames => exact .inr ⟨_, rfl⟩
  | resume thread answer =>
    simp only [roomCalls]
    split
    · split
      · exact .inr ⟨_, rfl⟩
      · exact .inl rfl
    · exact .inl rfl
  | create | getState | getSnapshotsSince | getResult | beginShutdown => exact .inl rfl

theorem manager_getResult (s : RoomSystem) (matchId : String) (nowMs : Int) :
    (s.next stores (.getResult matchId nowMs)).manager =
      if validId matchId then s.manager.reapExpired nowMs else s.manager := by
  have hsnd := s.manager.getResultLocked_snd nowMs matchId
  simp only [next]
  cases validId matchId with
  | false => rfl
  | true =>
    simp only [Bool.not_true, Bool.false_eq_true, if_false, if_true]
    split
    case h_1 heq => exact (congrArg Prod.snd heq).symm.trans hsnd
    case h_2 heq => exact (congrArg Prod.snd heq).symm.trans hsnd

/-- A thread changes a room only by the mark of its result. -/
theorem rooms_resume (pc : Pc) (answer : Answer) (m : RoomManager) :
    (pc.resume stores answer m).2.1.rooms =
      match pc with
      | .commit nowMs roomId _ ok _ => (m.commitResult nowMs roomId ok).rooms
      | _ => m.rooms := by
  rcases pc with ⟨nowMs, - | ⟨record, records⟩, succeeded, failed, toPersist⟩ |
    ⟨nowMs, - | ⟨roomId, toPersist⟩⟩ | ⟨nowMs, roomId, record, toPersist⟩ |
    ⟨nowMs, roomId, record, ok, toPersist⟩ | matchId | (- | ⟨record, records⟩) | -
  case persist.cons => simp only [Pc.resume]; split <;> rfl
  case write => simp only [Pc.resume]; split <;> rfl
  case read => simp only [Pc.resume]; split <;> rfl
  all_goals rfl

/-- Every action but a creation makes its calls to a room, and recycles what is due. -/
theorem room?_next_of_not_create (stores : RoomStores) (s : RoomSystem) (x : String)
    (ha : ∀ matchId playerIds nowMs roomId, a ≠ .create matchId playerIds nowMs roomId) :
    (s.next stores a).room? x =
      ((s.room? x).map (·.calls (s.roomCalls x a))).filter (!·.reapedBy a) := by
  cases a with
  | create matchId playerIds nowMs roomId => exact absurd rfl (ha matchId playerIds nowMs roomId)
  | join roomId playerId nowMs =>
    simp only [room?, next, RoomManager.lookup_join, roomCalls]
    rcases s.manager.rooms.lookup x with - | r
    · rfl
    · dsimp only [Option.map_some]
      split <;> rfl
  | submitInput roomId playerId kind =>
    simp only [room?, next, RoomManager.lookup_submitInput, roomCalls]
    rcases s.manager.rooms.lookup x with - | r
    · rfl
    · dsimp only [Option.map_some]
      split <;> rfl
  | setPresence roomId playerId online nowMs =>
    simp only [room?, next, RoomManager.lookup_setPresence, roomCalls]
    rcases s.manager.rooms.lookup x with - | r
    · rfl
    · dsimp only [Option.map_some]
      split <;> rfl
  | getState roomId nowMs =>
    simp only [room?, next, RoomManager.getState, RoomManager.lookup_reapExpired]
    rcases s.manager.rooms.lookup x with - | r <;> rfl
  | getSnapshotsSince roomId sinceFrame nowMs =>
    simp only [room?, next, RoomManager.getSnapshotsSince_snd, RoomManager.lookup_reapExpired]
    rcases s.manager.rooms.lookup x with - | r <;> rfl
  | getResult matchId nowMs =>
    simp only [room?, manager_getResult, BattleRoom.reapedBy, Action.reapsAt]
    split
    · rw [RoomManager.lookup_reapExpired]
      rcases s.manager.rooms.lookup x with - | r <;> rfl
    · rcases s.manager.rooms.lookup x with - | r <;> rfl
  | tick nowMs =>
    simp only [room?, next, RoomManager.lookup_tickLocked]
    rcases s.manager.rooms.lookup x with - | r <;> rfl
  | abortUnfinishedGames nowMs =>
    simp only [room?, next, RoomManager.lookup_abortUnfinishedLocked]
    rcases s.manager.rooms.lookup x with - | r <;> rfl
  | beginShutdown =>
    simp only [room?, next, RoomManager.beginShutdown]
    rcases s.manager.rooms.lookup x with - | r <;> rfl
  | resume thread answer =>
    simp only [room?, next, roomCalls]
    rcases s.threads[thread]? with - | pc
    · rcases s.manager.rooms.lookup x with - | r <;> rfl
    dsimp only
    rw [rooms_resume]
    cases pc with
    | commit nowMs roomId record ok toPersist =>
      dsimp only
      rw [RoomManager.lookup_commitResult_map]
      rcases s.manager.rooms.lookup x with - | r
      · rfl
      · dsimp only [Option.map_some]
        split <;> cases ok <;> rfl
    | _ => rcases s.manager.rooms.lookup x with - | r <;> rfl

/-- **A room that is there** is what the calls make of it, unless it is recycled. -/
theorem room?_next (hr : s.room? x = some r) (a : Action) :
    (s.next stores a).room? x =
      if (r.calls (s.roomCalls x a)).reapedBy a then none else some (r.calls (s.roomCalls x a)) := by
  by_cases ha : ∃ matchId playerIds nowMs roomId, a = .create matchId playerIds nowMs roomId
  · obtain ⟨matchId, playerIds, nowMs, roomId, rfl⟩ := ha
    have hsame : (s.next stores (.create matchId playerIds nowMs roomId)).room? x = some r := by
      simp only [room?, next, RoomManager.create_rooms]
      split
      case isTrue hmakes =>
        rw [AList.lookup_insert_ne]
        · exact hr
        · rintro rfl
          cases hr.symm.trans hmakes.2
      case isFalse => exact hr
    exact hsame
  · rw [room?_next_of_not_create stores s x fun m p n i heq => ha ⟨m, p, n, i, heq⟩, hr, Option.map_some,
      Option.filter_some]
    cases (r.calls (s.roomCalls x a)).reapedBy a <;> rfl

/-- **A room that was not there** is a new one. -/
theorem room?_next_new (hr : s.room? x = none) (h : (s.next stores a).room? x = some r') :
    ∃ matchId playerIds nowMs, a = .create matchId playerIds nowMs x ∧
      makesRoom s.manager matchId playerIds nowMs x = true ∧
      r' = .new x matchId playerIds nowMs := by
  by_cases ha : ∃ matchId playerIds nowMs roomId, a = .create matchId playerIds nowMs roomId
  · obtain ⟨matchId, playerIds, nowMs, roomId, rfl⟩ := ha
    simp only [room?, next, RoomManager.create_rooms] at h hr
    split at h
    case isTrue hmakes =>
      rw [Table.lookup_insert'] at h
      split at h
      case isTrue heq =>
        subst heq
        exact ⟨matchId, playerIds, nowMs, rfl, hmakes.1, (Option.some.inj h).symm⟩
      case isFalse =>
        rw [hr] at h
        cases h
    case isFalse =>
      rw [hr] at h
      cases h
  · rw [room?_next_of_not_create stores s x fun m p n i heq => ha ⟨m, p, n, i, heq⟩, hr] at h
    cases h

/-- A drain aborts what is unfinished, and nothing else. -/
theorem room?_drain {nowMs : Int} (h : (s.next stores (.abortUnfinishedGames nowMs)).room? x = some r') :
    ∃ r, s.room? x = some r ∧ (r.phase.unfinished = true ∧ r' = r.abort nowMs ∨
      r.phase.unfinished = false ∧ r' = r) := by
  rcases hr : s.room? x with - | r
  · obtain ⟨_, _, _, heq, -⟩ := room?_next_new hr h
    cases heq
  · rw [room?_next hr] at h
    split at h
    · cases h
    obtain rfl := Option.some.inj h
    refine ⟨r, rfl, ?_⟩
    change r.phase.unfinished = true ∧ (if r.phase.unfinished then r.abort nowMs else r) = _ ∨
      r.phase.unfinished = false ∧ (if r.phase.unfinished then r.abort nowMs else r) = _
    cases r.phase.unfinished with
    | true => exact .inl ⟨rfl, rfl⟩
    | false => exact .inr ⟨rfl, rfl⟩

/-! ## Snapshots

Which are taken, and of what. -/

/-- Some thread still has this snapshot to save. -/
def InFlight (s : RoomSystem) (row : RoomSnapshotRecord) : Prop := ∃ pc ∈ s.threads, row ∈ pc.records

theorem idle_of_records (h : s.threads.flatMap (·.records) = []) (row : RoomSnapshotRecord) :
    ¬s.InFlight row := by
  rintro ⟨pc, hpc, hrow⟩
  have hmem := List.mem_flatMap.mpr ⟨pc, hpc, hrow⟩
  rw [h] at hmem
  cases hmem

/-- The snapshots that an action takes under the lock. -/
def taken (stores : RoomStores) (s : RoomSystem) : Action → List RoomSnapshotRecord
  | .tick nowMs => (s.manager.tickLocked nowMs stores).1.snapshots
  | .abortUnfinishedGames nowMs =>
    if stores.hasSnapshotWriter then (s.manager.abortUnfinishedLocked nowMs).1.snapshots else []
  | .create .. | .join .. | .submitInput .. | .setPresence .. | .getState .. | .getSnapshotsSince .. |
    .getResult .. | .beginShutdown | .resume .. => []

/-- A snapshot is of a room as the calls of the action left it. -/
theorem mem_taken {row : RoomSnapshotRecord} (h : row ∈ s.taken stores a) :
    ∃ x r nowMs, s.room? x = some r ∧ row = (r.calls (s.roomCalls x a)).makeSnapshotRecord nowMs ∧
      (a = .tick nowMs ∨ a = .abortUnfinishedGames nowMs ∧ r.phase.unfinished = true) := by
  cases a with
  | tick nowMs =>
    obtain ⟨x, r, hr, heq⟩ := RoomManager.mem_snapshots_tickLocked h
    exact ⟨x, r, nowMs, hr, heq, .inl rfl⟩
  | abortUnfinishedGames nowMs =>
    simp only [taken] at h
    split at h
    · obtain ⟨x, r, hr, hu, heq⟩ := RoomManager.mem_snapshots_abortUnfinishedLocked.mp h
      refine ⟨x, r, nowMs, hr, ?_, .inr ⟨rfl, hu⟩⟩
      rw [heq, roomCalls, BattleRoom.calls, List.foldl_cons, List.foldl_nil, BattleRoom.call, if_pos hu]
    · cases h
  | _ => cases h

/-- The snapshot that an action saves, and what becomes of it. -/
def saving (s : RoomSystem) : Action → Option (RoomSnapshotRecord × StoreReply)
  | .resume thread answer =>
    (s.threads[thread]?.bind (·.records.head?)).map fun row => (row, answer.reply)
  | .create .. | .join .. | .submitInput .. | .setPresence .. | .getState .. | .getSnapshotsSince .. |
    .getResult .. | .tick .. | .abortUnfinishedGames .. | .beginShutdown => none

/-- What a thread has saved is in the log. -/
theorem save_mem_resume {pc : Pc} {row : RoomSnapshotRecord} (answer : Answer) (m : RoomManager)
    (h : pc.records.head? = some row) :
    .save row answer.reply ∈ (pc.resume stores answer m).2.2 := by
  unfold Pc.records at h
  split at h
  case h_1 nowMs records succeeded failed toPersist =>
    obtain ⟨rest, rfl⟩ := List.head?_eq_some_iff.mp h
    exact List.mem_cons_self
  case h_2 records =>
    obtain ⟨rest, rfl⟩ := List.head?_eq_some_iff.mp h
    exact List.mem_cons_self
  case h_3 => cases h

/-- An action of a client or of the timer starts one thread at most, with the snapshots it takes. -/
theorem threads_next (stores : RoomStores) (s : RoomSystem) (ha : ∀ thread answer, a ≠ .resume thread answer) :
    ∃ started, (s.next stores a).threads = s.threads ++ started ∧
      started.flatMap (·.records) = s.taken stores a := by
  cases a with
  | resume thread answer => exact absurd rfl (ha thread answer)
  | getResult matchId nowMs =>
    simp only [next]
    split
    · exact ⟨[], (List.append_nil _).symm, rfl⟩
    · split
      · exact ⟨[], (List.append_nil _).symm, rfl⟩
      · exact ⟨[_], rfl, rfl⟩
  | tick nowMs =>
    refine ⟨[_], rfl, ?_⟩
    rw [List.flatMap_singleton, Pc.records_afterLock]
    rfl
  | abortUnfinishedGames nowMs =>
    refine ⟨[_], rfl, ?_⟩
    simp only [List.flatMap_singleton, taken]
    split
    · exact Pc.records_afterLock _ _
    · rfl
  | _ => exact ⟨[], (List.append_nil _).symm, rfl⟩

/-- **A snapshot in flight** was so before, or has just been taken. -/
theorem InFlight.of_next {row : RoomSnapshotRecord} (h : (s.next stores a).InFlight row) :
    s.InFlight row ∨ row ∈ s.taken stores a := by
  obtain ⟨pc, hpc, hrow⟩ := h
  by_cases ha : ∃ thread answer, a = .resume thread answer
  · obtain ⟨thread, answer, rfl⟩ := ha
    simp only [next] at hpc
    split at hpc
    · exact .inl ⟨pc, hpc, hrow⟩
    case h_2 pc₀ hpc₀ =>
      rcases List.mem_or_eq_of_mem_set hpc with hold | rfl
      · exact .inl ⟨pc, hold, hrow⟩
      · rw [Pc.records_resume] at hrow
        exact .inl ⟨pc₀, List.mem_of_getElem? hpc₀, List.mem_of_mem_tail hrow⟩
  · obtain ⟨started, hthreads, htaken⟩ := threads_next stores s fun t n heq => ha ⟨t, n, heq⟩
    rw [hthreads] at hpc
    rcases List.mem_append.mp hpc with hold | hnew
    · exact .inl ⟨pc, hold, hrow⟩
    · exact .inr (htaken ▸ List.mem_flatMap.mpr ⟨pc, hnew, hrow⟩)

/-- **A snapshot in flight** stays so, or is what the action saves. -/
theorem InFlight.next_or_saving {row : RoomSnapshotRecord} (h : s.InFlight row) (a : Action) :
    (s.next stores a).InFlight row ∨ ∃ reply, s.saving a = some (row, reply) := by
  obtain ⟨pc, hpc, hrow⟩ := h
  by_cases ha : ∃ thread answer, a = .resume thread answer
  · obtain ⟨thread, answer, rfl⟩ := ha
    simp only [InFlight, RoomSystem.next, saving]
    split
    · exact .inl ⟨pc, hpc, hrow⟩
    case h_2 pc₀ hpc₀ =>
      obtain ⟨i, hi, rfl⟩ := List.mem_iff_getElem.mp hpc
      by_cases hthread : thread = i
      · subst hthread
        rw [List.getElem?_eq_getElem hi] at hpc₀
        obtain rfl := Option.some.inj hpc₀
        rcases hrecords : (s.threads[thread]).records with - | ⟨first, rest⟩
        · rw [hrecords] at hrow
          cases hrow
        rw [hrecords] at hrow
        rcases List.mem_cons.mp hrow with rfl | hrest
        · refine .inr ⟨answer.reply, ?_⟩
          rw [List.getElem?_eq_getElem hi, Option.bind_some, hrecords]
          rfl
        · refine .inl ⟨_, List.mem_set hi _, ?_⟩
          rw [Pc.records_resume, hrecords]
          exact hrest
      · refine .inl ⟨s.threads[i], List.mem_iff_getElem.mpr ⟨i, by simpa using hi, ?_⟩, hrow⟩
        exact List.getElem_set_ne hthread _
  · obtain ⟨started, hthreads, -⟩ := threads_next stores s fun t n heq => ha ⟨t, n, heq⟩
    exact .inl ⟨pc, hthreads ▸ List.mem_append_left _ hpc, hrow⟩

/-- What an action saves is in the log after it. -/
theorem mem_log_of_saving {row : RoomSnapshotRecord} {reply : StoreReply}
    (h : s.saving a = some (row, reply)) : .save row reply ∈ (s.next stores a).log := by
  cases a with
  | resume thread answer =>
    simp only [saving, Option.map_eq_some_iff, Option.bind_eq_some_iff, Prod.mk.injEq] at h
    obtain ⟨row', ⟨pc, hpc, hhead⟩, rfl, rfl⟩ := h
    simp only [next, hpc]
    exact List.mem_append_right _ (save_mem_resume answer _ hhead)
  | _ => cases h

/-- **A snapshot in flight** stays so, or is saved. -/
theorem InFlight.next {row : RoomSnapshotRecord} (h : s.InFlight row) (a : Action) :
    (s.next stores a).InFlight row ∨ ∃ reply, .save row reply ∈ (s.next stores a).log :=
  (h.next_or_saving a).imp_right fun hsaving => by
    obtain ⟨reply, hreply⟩ := hsaving
    exact ⟨reply, mem_log_of_saving hreply⟩

theorem inFlight_of_mem_taken {row : RoomSnapshotRecord} (h : row ∈ s.taken stores a) :
    (s.next stores a).InFlight row := by
  have ha : ∀ thread answer, a ≠ .resume thread answer := by
    rintro thread answer rfl
    cases h
  obtain ⟨started, hthreads, htaken⟩ := threads_next stores s ha
  obtain ⟨pc, hpc, hrow⟩ := List.mem_flatMap.mp (htaken ▸ h)
  exact ⟨pc, hthreads ▸ List.mem_append_right _ hpc, hrow⟩

/-- The log only grows. -/
theorem mem_log_next {e : Event} (h : e ∈ s.log) (a : Action) : e ∈ (s.next stores a).log := by
  cases a with
  | getResult matchId nowMs =>
    simp only [next]
    split
    · exact List.mem_append_left _ h
    · split
      · exact List.mem_append_left _ h
      · exact h
  | resume thread answer =>
    simp only [next]
    split
    · exact h
    · exact List.mem_append_left _ h
  | _ => exact h

end RoomSystem

namespace RoomWorld

variable {stores : RoomStores}

/-! ## Rows

What the table has after a save. -/

theorem system_act (stores : RoomStores) (w : RoomWorld) (a : Action) :
    (w.next stores (.act a)).system = w.system.next stores a := system_foldl_record _ _

/-- **The rows after an action**: the snapshot that it saves goes to its row. -/
theorem rows_act (w : RoomWorld) (a : Action) :
    (w.next stores (.act a)).rows =
      match w.system.saving a with
      | some (row, reply) => if reply.stored then storeRow w.rows row else w.rows
      | none => w.rows := by
  cases a with
  | resume thread answer =>
    simp only [next, RoomSystem.storeCalls, RoomSystem.saving]
    rcases w.system.threads[thread]? with - | pc
    · rfl
    rcases pc with ⟨nowMs, - | ⟨record, records⟩, succeeded, failed, toPersist⟩ |
      ⟨nowMs, - | ⟨roomId, toPersist⟩⟩ | ⟨nowMs, roomId, record, toPersist⟩ |
      ⟨nowMs, roomId, record, ok, toPersist⟩ | matchId | (- | ⟨record, records⟩) | -
    case flush.cons | reject.cons =>
      simp only [Pc.resume, List.foldl_cons, List.foldl_nil, RoomWorld.record, Pc.records, Option.bind_some,
        List.head?_cons, Option.map_some]
      split <;> rfl
    case persist.cons => simp only [Pc.resume]; split <;> rfl
    case write =>
      simp only [Pc.resume]
      split
      · simp only [List.foldl_cons, List.foldl_nil, RoomWorld.record]
        split <;> rfl
      · rfl
    case read => simp only [Pc.resume]; split <;> rfl
    all_goals rfl
  | _ => rfl

/-- A snapshot is in flight until it is saved. -/
theorem inFlight_of_saving {s : RoomSystem} {a : Action} {row : RoomSnapshotRecord} {reply : StoreReply}
    (h : s.saving a = some (row, reply)) : s.InFlight row := by
  cases a with
  | resume thread answer =>
    simp only [RoomSystem.saving, Option.map_eq_some_iff, Option.bind_eq_some_iff, Prod.mk.injEq] at h
    obtain ⟨row', ⟨pc, hpc, hhead⟩, rfl, -⟩ := h
    exact ⟨pc, List.mem_of_getElem? hpc, List.mem_of_mem_head? hhead⟩
  | _ => cases h

/-- **A row after an action** was there before, or was in flight. -/
theorem row_act {w : RoomWorld} {a : Action} {k : String} {row : RoomSnapshotRecord}
    (hrow : (w.next stores (.act a)).rows.lookup k = some row) :
    w.rows.lookup k = some row ∨ w.system.InFlight row := by
  rw [rows_act] at hrow
  split at hrow
  case h_1 saved reply hsaving =>
    split at hrow
    · rcases lookup_storeRow hrow with hold | ⟨rfl, -⟩
      · exact .inl hold
      · exact .inr (inFlight_of_saving hsaving)
    · exact .inl hrow
  case h_2 => exact .inl hrow

end RoomWorld

end RealtimeGame.Room
