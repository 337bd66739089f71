import RealtimeGame.Room.RoomWorld

/-!
# Room/TableWrites — what a step of the service writes to its tables

A thread saves the snapshots it was given, and each of them is of a room as the critical section that
took it left it (`SnapshotOf`); a new result is a record that some thread took up before.
-/

open Library

namespace RealtimeGame.Room

/-- The snapshots a thread still has to save. -/
def Pc.records : Pc → List RoomSnapshotRecord
  | .flush _ records _ _ _ => records
  | .reject records => records
  | _ => []

theorem Pc.records_afterLock (nowMs : Int) (pending : RoomManager.Pending) :
    (Pc.afterLock nowMs pending).records = pending.snapshots := by
  unfold Pc.afterLock
  split
  case isTrue h => exact h.symm
  case isFalse => rfl

/-- A thread saves its snapshots one by one. -/
theorem Pc.records_resume {stores : RoomStores} (pc : Pc) (answer : Answer) (m : RoomManager) :
    (pc.resume stores answer m).1.records = pc.records.tail := by
  rcases pc with ⟨nowMs, - | ⟨record, records⟩, succeeded, failed, toPersist⟩ |
    ⟨nowMs, - | ⟨roomId, toPersist⟩⟩ | ⟨nowMs, roomId, record, toPersist⟩ |
    ⟨nowMs, roomId, record, ok, toPersist⟩ | matchId | (- | ⟨record, records⟩) | -
  case flush.cons => simp only [Pc.resume]; split <;> rfl
  case persist.cons => simp only [Pc.resume]; split <;> rfl
  case write => simp only [Pc.resume]; split <;> rfl
  case read => simp only [Pc.resume]; split <;> rfl
  all_goals rfl

namespace RoomManager

variable {m : RoomManager} {nowMs : Int} {row : RoomSnapshotRecord}

/-- A snapshot is of a room of the registry, as the critical section leaves it. -/
def SnapshotOf (m m' : RoomManager) (row : RoomSnapshotRecord) : Prop :=
  ∃ x r r' nowMs, m.rooms.lookup x = some r ∧ r.Becomes r' ∧ row = r'.makeSnapshotRecord nowMs ∧
    ∀ r'', m'.rooms.lookup x = some r'' → r'' = r'

theorem mem_foldl_collectSnapshot {rooms : List BattleRoom}
    {acc : List RoomSnapshotRecord × Table String SnapshotState}
    (h : row ∈ (rooms.foldl (collectSnapshot nowMs) acc).1) :
    row ∈ acc.1 ∨ ∃ r ∈ rooms, row = r.makeSnapshotRecord nowMs := by
  induction rooms generalizing acc with
  | nil => exact .inl h
  | cons r rooms ih =>
    rcases ih h with hmem | ⟨r', hr', heq⟩
    · unfold collectSnapshot at hmem
      dsimp only at hmem
      split at hmem
      · rcases List.mem_append.mp hmem with hmem | hmem
        · exact .inl hmem
        · exact .inr ⟨r, List.mem_cons_self, List.mem_singleton.mp hmem⟩
      · exact .inl hmem
    · exact .inr ⟨r', List.mem_cons_of_mem _ hr', heq⟩

theorem mem_snapshots_tickLocked {stores : RoomStores}
    (h : row ∈ (m.tickLocked nowMs stores).1.snapshots) :
    ∃ x r, m.rooms.lookup x = some r ∧ row = (r.tick nowMs).2.makeSnapshotRecord nowMs := by
  have hmem : ∃ r ∈ (m.rooms.mapVals fun _ r => (r.tick nowMs).2).toPairs.map (·.2),
      row = r.makeSnapshotRecord nowMs := by
    unfold tickLocked at h
    dsimp only at h
    split at h
    · exact (mem_foldl_collectSnapshot h).resolve_left (fun hnil => by cases hnil)
    · cases h
  obtain ⟨r', hr', heq⟩ := hmem
  obtain ⟨⟨x, r''⟩, hpair, rfl⟩ := List.mem_map.mp hr'
  rw [Table.mem_toPairs, Table.lookup_mapVals, Option.map_eq_some_iff] at hpair
  obtain ⟨r, hr, rfl⟩ := hpair
  exact ⟨x, r, hr, heq⟩

theorem mem_snapshots_abortUnfinishedLocked :
    row ∈ (m.abortUnfinishedLocked nowMs).1.snapshots ↔ ∃ x r, m.rooms.lookup x = some r ∧
      r.phase.unfinished = true ∧ row = (r.abort nowMs).makeSnapshotRecord nowMs := by
  simp only [abortUnfinishedLocked, unfinishedRooms, List.mem_map, List.mem_filter, Prod.exists,
    exists_eq_right, Table.mem_toPairs]
  constructor
  · rintro ⟨-, ⟨r, ⟨⟨x, hr⟩, hu⟩, rfl⟩, rfl⟩
    exact ⟨x, r, hr, hu, rfl⟩
  · rintro ⟨x, r, hr, hu, rfl⟩
    exact ⟨_, ⟨r, ⟨⟨x, hr⟩, hu⟩, rfl⟩, rfl⟩

theorem snapshotOf_tickLocked {stores : RoomStores}
    (h : row ∈ (m.tickLocked nowMs stores).1.snapshots) :
    SnapshotOf m (m.tickLocked nowMs stores).2 row := by
  obtain ⟨x, r, hr, heq⟩ := mem_snapshots_tickLocked h
  refine ⟨x, r, (r.tick nowMs).2, nowMs, hr, .tick, heq, fun r'' hr'' => ?_⟩
  simp only [tickLocked, reapExpired, Table.lookup_filter, Table.lookup_mapVals, hr,
    Option.map_some, Option.filter_eq_some_iff, Option.some.injEq] at hr''
  exact hr''.1.symm

theorem snapshotOf_abortUnfinishedLocked
    (h : row ∈ (m.abortUnfinishedLocked nowMs).1.snapshots) :
    SnapshotOf m (m.abortUnfinishedLocked nowMs).2 row := by
  obtain ⟨x, r, hr, hu, heq⟩ := mem_snapshots_abortUnfinishedLocked.mp h
  refine ⟨x, r, r.abort nowMs, nowMs, hr, .abort hu, heq, fun r'' hr'' => ?_⟩
  simp only [abortUnfinishedLocked, Table.lookup_mapVals, hr, Option.map_some, hu, if_true,
    Option.some.injEq] at hr''
  exact hr''.symm

end RoomManager

namespace RoomWorld

variable {stores : RoomStores} {w w' : RoomWorld} {nowMs : Int} {row : RoomSnapshotRecord}

theorem system_foldl_record (events : List Event) (w : RoomWorld) :
    (events.foldl record w).system = w.system := by
  induction events generalizing w with
  | nil => rfl
  | cons e events ih =>
    rw [List.foldl_cons, ih]
    unfold record
    split
    · split <;> rfl
    · split <;> rfl
    · rfl
    · rfl

/-! ## What an action does to the tables -/

/-- **What one action can do**, as far as the tables are concerned. -/
structure Writes (w w' : RoomWorld) : Prop where
  /-- A new result is a record that some thread took up before, for a match without a result. -/
  result : ∀ k result, w'.results.lookup k = some result → w.results.lookup k = some result ∨
    (w.results.lookup k = none ∧ result.matchId = k ∧ w.system.Attempts result.roomId result ∧
      w'.system.manager = w.system.manager)
  kept : ∀ k result, w.results.lookup k = some result → w'.results.lookup k = some result
  row : ∀ k row, w'.rows.lookup k = some row → w.rows.lookup k = some row ∨
    (row.matchId = k ∧ ∃ pc ∈ w.system.threads, row ∈ pc.records)
  written : ∀ record reply, .write record reply ∈ w'.system.log → reply.stored = true →
    .write record reply ∈ w.system.log ∨ (w'.results.lookup record.matchId).isSome
  /-- A thread saves what it saved before, or snapshots of the rooms it has just seen. -/
  saves : ∀ pc ∈ w'.system.threads, ∀ row ∈ pc.records,
    (∃ pc₀ ∈ w.system.threads, row ∈ pc₀.records) ∨
      RoomManager.SnapshotOf w.system.manager w'.system.manager row

/-- An action that calls no store and starts no thread but ones without snapshots of old rooms. -/
theorem Writes.quiet {s' : RoomSystem}
    (hlog : ∀ record reply, .write record reply ∈ s'.log → .write record reply ∈ w.system.log)
    (hsaves : ∀ pc ∈ s'.threads, ∀ row ∈ pc.records,
      (∃ pc₀ ∈ w.system.threads, row ∈ pc₀.records) ∨
        RoomManager.SnapshotOf w.system.manager s'.manager row) :
    Writes w { w with system := s' } where
  result _ _ h := .inl h
  kept _ _ h := h
  row _ _ h := .inl h
  written record reply h _ := .inl (hlog record reply h)
  saves := hsaves

/-- An action that starts one thread. -/
theorem Writes.spawn {s' : RoomSystem} {pc : Pc} (hlog : s'.log = w.system.log)
    (hthreads : s'.threads = w.system.threads ++ [pc])
    (hpc : ∀ row ∈ pc.records, RoomManager.SnapshotOf w.system.manager s'.manager row) :
    Writes w { w with system := s' } := by
  refine .quiet (fun record reply h => hlog ▸ h) fun pc' hmem row hrow => ?_
  rw [hthreads] at hmem
  rcases List.mem_append.mp hmem with hold | hnew
  · exact .inl ⟨pc', hold, hrow⟩
  · obtain rfl := List.mem_singleton.mp hnew
    exact .inr (hpc row hrow)

/-- One snapshot of a thread is saved, or refused. -/
theorem Writes.save {s' : RoomSystem} {record : RoomSnapshotRecord} {reply : StoreReply} {pc : Pc}
    (hw : Writes w { w with system := s' }) (hpc : pc ∈ w.system.threads)
    (hrecord : record ∈ pc.records) :
    Writes w (RoomWorld.record { w with system := s' } (.save record reply)) := by
  unfold RoomWorld.record
  dsimp only
  split
  case isTrue =>
    exact { hw with
      row := fun k row h => by
        rcases lookup_storeRow h with hold | ⟨rfl, hk⟩
        · exact .inl hold
        · exact .inr ⟨hk, pc, hpc, hrecord⟩ }
  case isFalse => exact hw

/-- A result of a record that was taken up before is stored, or refused. -/
theorem Writes.write {threads : List Pc} {record : MatchResultRecord} {reply : StoreReply}
    (hattempt : w.system.Attempts record.roomId record)
    (hsaves : ∀ pc ∈ threads, ∀ row ∈ pc.records, ∃ pc₀ ∈ w.system.threads, row ∈ pc₀.records) :
    Writes w (RoomWorld.record { w with
      system := { w.system with
        threads := threads
        log := w.system.log ++ [.write record reply] } } (.write record reply)) := by
  unfold RoomWorld.record
  dsimp only
  split
  case isTrue =>
    exact
      { result := fun k result h => by
          rcases lookup_storeResult h with hold | ⟨hnone, rfl, hk⟩
          · exact .inl hold
          · exact .inr ⟨hnone, hk, hattempt, rfl⟩
        kept := fun k result h => storeResult_kept h record
        row := fun _ _ h => .inl h
        written := fun record' reply' h _ => by
          rcases List.mem_append.mp h with h | h
          · exact .inl h
          · cases List.mem_singleton.mp h
            exact .inr (storeResult_isSome _ _)
        saves := fun pc hmem row hrow => .inl (hsaves pc hmem row hrow) }
  case isFalse hrefused =>
    exact
      { result := fun _ _ h => .inl h
        kept := fun _ _ h => h
        row := fun _ _ h => .inl h
        written := fun record' reply' h hstored => by
          rcases List.mem_append.mp h with h | h
          · exact .inl h
          · cases List.mem_singleton.mp h
            exact absurd hstored hrefused
        saves := fun pc hmem row hrow => .inl (hsaves pc hmem row hrow) }

/-- What a thread has left to save after a step, it had to save before. -/
theorem records_resume {answer : Answer} {m : RoomManager} {pc : Pc}
    (h : row ∈ (pc.resume stores answer m).1.records) : row ∈ pc.records :=
  List.mem_of_mem_tail (pc.records_resume answer m ▸ h)

/-- One step of one thread. -/
theorem Writes.resume (hs : w.system.Sound) (thread : Nat) (answer : Answer) :
    Writes w (w.next stores (.act (.resume thread answer))) := by
  simp only [next, RoomSystem.storeCalls, RoomSystem.next]
  rcases hpc : w.system.threads[thread]? with - | pc
  · exact .quiet (fun _ _ h => h) fun pc hmem row hrow => .inl ⟨pc, hmem, hrow⟩
  have hmem : pc ∈ w.system.threads := List.mem_of_getElem? hpc
  have hsaves : ∀ pc' ∈ w.system.threads.set thread (pc.resume stores answer w.system.manager).1,
      ∀ row ∈ pc'.records, ∃ pc₀ ∈ w.system.threads, row ∈ pc₀.records := by
    intro pc' hpc' row hrow
    rcases List.mem_or_eq_of_mem_set hpc' with hold | rfl
    · exact ⟨pc', hold, hrow⟩
    · exact ⟨pc, hmem, records_resume hrow⟩
  -- Whatever is logged without being a write leaves the results alone.
  have hquiet : ∀ m' : RoomManager, ∀ events : List Event,
      (∀ record reply, .write record reply ∉ events) →
      Writes w { w with system := { w.system with
        manager := m'
        threads := w.system.threads.set thread (pc.resume stores answer w.system.manager).1
        log := w.system.log ++ events } } := fun m' events hno =>
    .quiet (fun record reply h => (List.mem_append.mp h).resolve_right (hno record reply))
      fun pc' hpc' row hrow => .inl (hsaves pc' hpc' row hrow)
  have hnil : ∀ record reply, Event.write record reply ∉ ([] : List Event) :=
    fun _ _ h => by cases h
  rcases pc with ⟨nowMs, records, ok, ko, tp⟩ | ⟨nowMs, tp⟩ | ⟨nowMs, x, record, tp⟩ |
    ⟨nowMs, x, record, ok, tp⟩ | matchId | records | -
  · rcases records with - | ⟨record, records⟩
    · exact hquiet _ [] hnil
    · exact (hquiet _ [.save record answer.reply] (by simp)).save hmem List.mem_cons_self
  · rcases tp with - | ⟨x, tp⟩
    · exact hquiet _ [] hnil
    · simp only [Pc.resume] at hquiet ⊢
      rcases hrecord : w.system.manager.pendingRecord x with - | record
      · simp only [hrecord] at hquiet
        exact hquiet _ [] hnil
      · simp only [hrecord] at hquiet
        exact hquiet _ [] hnil
  · simp only [Pc.resume] at hquiet hsaves ⊢
    split
    case isTrue hwriter =>
      rw [if_pos hwriter] at hsaves
      have hattempt : w.system.Attempts x record := .inl ⟨_, hmem, rfl⟩
      refine .write ?_ hsaves
      rw [(hs.attempt x record hattempt).1]
      exact hattempt
    case isFalse hwriter =>
      rw [if_neg hwriter] at hquiet
      exact hquiet _ [] hnil
  · exact hquiet _ [] hnil
  · simp only [Pc.resume] at hquiet ⊢
    split
    case isTrue hwriter =>
      rw [if_pos hwriter] at hquiet
      exact hquiet _ [.read matchId answer.read, .result matchId answer.read.toOutcome] (by simp)
    case isFalse hwriter =>
      rw [if_neg hwriter] at hquiet
      exact hquiet _ [.result matchId .unavailable] (by simp)
  · rcases records with - | ⟨record, records⟩
    · exact hquiet _ [] hnil
    · exact (hquiet _ [.save record answer.reply] (by simp)).save hmem List.mem_cons_self
  · exact hquiet _ [] hnil

/-- **Every action writes only what it may.** -/
theorem Writes.of_act (hs : w.system.Sound) (a : Action) :
    Writes w (w.next stores (.act a)) := by
  have hsame : ∀ pc ∈ w.system.threads, ∀ row ∈ pc.records,
      ∃ pc₀ ∈ w.system.threads, row ∈ pc₀.records := fun pc hmem row hrow => ⟨pc, hmem, hrow⟩
  -- An action that only changes the registry.
  have hquiet : ∀ s' : RoomSystem, s'.log = w.system.log → s'.threads = w.system.threads →
      Writes w { w with system := s' } := fun s' hlog hthreads =>
    .quiet (fun record reply h => hlog ▸ h)
      fun pc hmem row hrow => .inl (hsame pc (hthreads ▸ hmem) row hrow)
  rcases a with ⟨matchId, playerIds, nowMs, roomId⟩ | ⟨x, player, nowMs⟩ | ⟨x, player, kind⟩ |
    ⟨x, player, online, nowMs⟩ | ⟨x, nowMs⟩ | ⟨x, sinceFrame, nowMs⟩ | ⟨matchId, nowMs⟩ | nowMs |
    nowMs | - | ⟨thread, answer⟩
  · exact hquiet _ rfl rfl
  · exact hquiet _ rfl rfl
  · exact hquiet _ rfl rfl
  · exact hquiet _ rfl rfl
  · exact hquiet _ rfl rfl
  · exact hquiet _ rfl rfl
  · simp only [next, RoomSystem.storeCalls, RoomSystem.next, List.foldl_nil]
    split
    · exact .quiet (by simp) fun pc hmem row hrow => .inl (hsame pc hmem row hrow)
    · split
      · exact .quiet (by simp) fun pc hmem row hrow => .inl (hsame pc hmem row hrow)
      · exact .spawn rfl rfl fun row hrow => by cases hrow
  · refine .spawn rfl rfl fun row hrow => ?_
    rw [Pc.records_afterLock] at hrow
    exact RoomManager.snapshotOf_tickLocked hrow
  · refine .spawn rfl rfl fun row hrow => ?_
    split at hrow
    · rw [Pc.records_afterLock] at hrow
      exact RoomManager.snapshotOf_abortUnfinishedLocked hrow
    · cases hrow
  · exact hquiet _ rfl rfl
  · exact .resume hs thread answer

end RoomWorld

end RealtimeGame.Room
