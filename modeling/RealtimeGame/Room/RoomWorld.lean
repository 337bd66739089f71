import RealtimeGame.Room.ResultSafety

/-!
# Room/RoomWorld — the Room service over two durable tables, with crashes

`match_results` keeps the first record of a match and reports later ones as written; `rooms` keeps
the latest snapshot of a match.  A crash loses the registry and every thread; the restart that
follows rebuilds the registry from the unfinished rows of `rooms`.
-/

open Library

namespace RealtimeGame.Room

/-! ## The tables

Both keep one row for each match: the first result, and the latest snapshot. -/

/-- `INSERT … ON DUPLICATE KEY UPDATE match_id = match_id`: the first record of a match stays. -/
def storeResult (results : Table String MatchResultRecord) (record : MatchResultRecord) :
    Table String MatchResultRecord :=
  if (results.lookup record.matchId).isSome then results
  else results.insert record.matchId record

/-- The upsert of a snapshot: an older one does not overwrite a newer one. -/
def storeRow (rows : Table String RoomSnapshotRecord) (record : RoomSnapshotRecord) :
    Table String RoomSnapshotRecord :=
  match rows.lookup record.matchId with
  | none => rows.insert record.matchId record
  | some old =>
    if old.snapshotAtMs ≤ record.snapshotAtMs then rows.insert record.matchId record else rows

/-- A result in the table was there, or is the first of its match. -/
theorem lookup_storeResult {results : Table String MatchResultRecord}
    {record result : MatchResultRecord} {k : String}
    (h : (storeResult results record).lookup k = some result) :
    results.lookup k = some result ∨
      (results.lookup k = none ∧ result = record ∧ record.matchId = k) := by
  unfold storeResult at h
  split at h
  case isTrue => exact .inl h
  case isFalse hnew =>
    rw [Table.lookup_insert'] at h
    split at h
    case isTrue heq =>
      rw [heq]
      exact .inr ⟨Option.not_isSome_iff_eq_none.mp hnew, (Option.some.inj h).symm, rfl⟩
    case isFalse => exact .inl h

/-- The first result of a match stays. -/
theorem storeResult_kept {results : Table String MatchResultRecord} {result : MatchResultRecord}
    {k : String} (h : results.lookup k = some result) (record : MatchResultRecord) :
    (storeResult results record).lookup k = some result := by
  unfold storeResult
  split
  case isTrue => exact h
  case isFalse hnew => exact Table.lookup_insert_of_new (Option.not_isSome_iff_eq_none.mp hnew) h

/-- A match whose result was stored has one. -/
theorem storeResult_isSome (results : Table String MatchResultRecord)
    (record : MatchResultRecord) :
    ((storeResult results record).lookup record.matchId).isSome := by
  unfold storeResult
  split
  case isTrue h => exact h
  case isFalse => rw [AList.lookup_insert]; rfl

/-- A row in the table was there, or is the one that was stored. -/
theorem lookup_storeRow {rows : Table String RoomSnapshotRecord} {record row : RoomSnapshotRecord}
    {k : String} (h : (storeRow rows record).lookup k = some row) :
    rows.lookup k = some row ∨ (row = record ∧ record.matchId = k) := by
  have hinsert : (rows.insert record.matchId record).lookup k = some row →
      rows.lookup k = some row ∨ (row = record ∧ record.matchId = k) := by
    intro h
    rw [Table.lookup_insert'] at h
    split at h
    case isTrue heq => exact .inr ⟨(Option.some.inj h).symm, heq.symm⟩
    case isFalse => exact .inl h
  unfold storeRow at h
  split at h
  · exact hinsert h
  · split at h
    · exact hinsert h
    · exact .inl h

/-- The system, and the two tables it writes. -/
structure RoomWorld where
  system : RoomSystem := {}
  results : Table String MatchResultRecord := ∅
  rows : Table String RoomSnapshotRecord := ∅

namespace RoomSystem

/-- The calls to the stores that an action makes. -/
def storeCalls (stores : RoomStores) (s : RoomSystem) : Action → List Event
  | .resume thread answer =>
    match s.threads[thread]? with
    | some pc => (pc.resume stores answer s.manager).2.2
    | none => []
  | _ => []

end RoomSystem

namespace RoomWorld

/-- What a call to a store leaves in the tables. -/
def record (w : RoomWorld) : Event → RoomWorld
  | .write result reply =>
    if reply.stored then { w with results := storeResult w.results result } else w
  | .save row reply => if reply.stored then { w with rows := storeRow w.rows row } else w
  | .read _ _ | .result _ _ => w

/-- `LoadUnfinished`. -/
def loadUnfinished (stores : RoomStores) (w : RoomWorld) : Option (List RoomSnapshotRow) :=
  RoomsRow.loadUnfinished stores.collation (w.rows.toPairs.map fun e => .ofRecord e.2)

/-- A step of the service, or a crash with the restart that follows it. -/
inductive Op
  | act (action : Action)
  /-- `loads` says whether the rows could be read. -/
  | restart (nowMs : Int) (loads : Bool)

/-- The rows a restart has to work with. -/
def restartRows (stores : RoomStores) (w : RoomWorld) (loads : Bool) : List RoomSnapshotRow :=
  if stores.hasSnapshotReader ∧ loads then (w.loadUnfinished stores).getD [] else []

/-- **One step.**  The calls of a process that crashed are of no further interest. -/
def next (stores : RoomStores) (w : RoomWorld) : Op → RoomWorld
  | .act a =>
    (w.system.storeCalls stores a).foldl record { w with system := w.system.next stores a }
  | .restart nowMs loads =>
    let restored := RoomManager.restoreLocked {} nowMs (w.restartRows stores loads)
    let rejected := restored.1.map fun row => RoomManager.rejectedRecord row nowMs
    { w with system :=
        { manager := restored.2
          threads := if stores.hasSnapshotWriter then [.reject rejected] else []
          created := w.system.created
          log := [] } }

def Fresh (w : RoomWorld) : Op → Prop
  | .act a => w.system.Fresh a
  | .restart _ _ => True

instance (w : RoomWorld) : DecidablePred w.Fresh
  | .act a => inferInstanceAs (Decidable (w.system.Fresh a))
  | .restart _ _ => .isTrue trivial

/-- One step of a run. -/
def Step (stores : RoomStores) (w : RoomWorld) (op : Op) (w' : RoomWorld) : Prop :=
  w.Fresh op ∧ w' = w.next stores op

end RoomWorld

/-! ## What a restart restores

Rows are restored one after another, over what the rows before have left. -/

namespace RoomManager

/-- **What becomes of one row**: it is rejected, or its room or its match is there already, or it becomes a
room. -/
inductive RowResult (nowMs : Int) (row : RoomSnapshotRow) (acc acc' : List RoomSnapshotRecord × RoomManager) :
    Prop
  | rejected (hbad : row.problem ≠ "" ∨ BattleRoom.restoreFrom row.record nowMs = none)
      (heq : acc' = (acc.1 ++ [row.record], acc.2))
  | known (heq : acc' = acc)
  | made (room : BattleRoom) (hgood : row.problem = "")
      (hroom : BattleRoom.restoreFrom row.record nowMs = some room)
      (hnewRoom : acc.2.rooms.lookup room.roomId = none)
      (hnewMatch : acc.2.matchIndex.lookup room.matchId = none)
      (heq : acc' = (acc.1, { acc.2 with
        rooms := acc.2.rooms.insert room.roomId room
        matchIndex := acc.2.matchIndex.insert room.matchId room.roomId }))

/-- Every row comes to one of the three. -/
theorem rowResult (nowMs : Int) (row : RoomSnapshotRow) (acc : List RoomSnapshotRecord × RoomManager) :
    RowResult nowMs row acc (restoreRow nowMs acc row) := by
  unfold restoreRow
  split
  case isTrue hbad => exact .rejected (.inl hbad) rfl
  case isFalse hgood =>
    split
    case h_1 hnone => exact .rejected (.inr hnone) rfl
    case h_2 room hroom =>
      split
      case isTrue => exact .known rfl
      case isFalse hnew =>
        rw [not_or, Option.not_isSome_iff_eq_none, Option.not_isSome_iff_eq_none] at hnew
        exact .made room (not_not.mp hgood) hroom hnew.1 hnew.2 rfl

/-- A row does not touch the rooms that are there. -/
theorem lookup_restoreRow {acc : List RoomSnapshotRecord × RoomManager} {x : String} {r : BattleRoom}
    (hr : acc.2.rooms.lookup x = some r) (nowMs : Int) (row : RoomSnapshotRow) :
    (restoreRow nowMs acc row).2.rooms.lookup x = some r := by
  cases rowResult nowMs row acc with
  | rejected _ heq | known heq => rwa [heq]
  | made room hgood hroom hnewRoom hnewMatch heq =>
    rw [heq]
    exact Table.lookup_insert_of_new hnewRoom hr

/-- Rows do not touch the rooms that are there. -/
theorem lookup_restoreLocked {m : RoomManager} {x : String} {r : BattleRoom}
    (hr : m.rooms.lookup x = some r) (nowMs : Int) (rows : List RoomSnapshotRow) :
    (m.restoreLocked nowMs rows).2.rooms.lookup x = some r :=
  List.foldlRecOn (motive := fun acc : _ × RoomManager => acc.2.rooms.lookup x = some r) rows
    (restoreRow nowMs) hr fun _ hacc row _ => lookup_restoreRow hacc nowMs row

/-- **What a restart makes of its rows**: each room was rebuilt from an acceptable row, and each
rejected record is of a row that was not acceptable. -/
structure Restored (nowMs : Int) (rows : List RoomSnapshotRow)
    (acc : List RoomSnapshotRecord × RoomManager) : Prop where
  indexed : acc.2.Indexed
  entry : ∀ k x, acc.2.matchIndex.lookup k = some x →
    ∃ r, acc.2.rooms.lookup x = some r ∧ r.matchId = k
  room : ∀ x r, acc.2.rooms.lookup x = some r → ∃ row ∈ rows, row.problem = "" ∧
    BattleRoom.restoreFrom row.record nowMs = some r
  rejected : ∀ record ∈ acc.1, ∃ row ∈ rows, row.record = record ∧
    (row.problem ≠ "" ∨ BattleRoom.restoreFrom row.record nowMs = none)

variable {nowMs : Int} {done : List RoomSnapshotRow} {row : RoomSnapshotRow}
  {acc : List RoomSnapshotRecord × RoomManager}

theorem Restored.start (nowMs : Int) : Restored nowMs [] ([], {}) where
  indexed := ⟨fun _ _ h => (by cases h), fun _ _ h => (by cases h)⟩
  entry _ _ h := by cases h
  room _ _ h := by cases h
  rejected _ h := by cases h

/-- More rows to account for. -/
theorem Restored.mono (h : Restored nowMs done acc) {rows : List RoomSnapshotRow}
    (hsub : ∀ row ∈ done, row ∈ rows) : Restored nowMs rows acc where
  indexed := h.indexed
  entry := h.entry
  room x r hr := by
    obtain ⟨row, hmem, hrow⟩ := h.room x r hr
    exact ⟨row, hsub row hmem, hrow⟩
  rejected record hrec := by
    obtain ⟨row, hmem, hrow⟩ := h.rejected record hrec
    exact ⟨row, hsub row hmem, hrow⟩

/-- One row more. -/
theorem Restored.restoreRow (h : Restored nowMs done acc) (row : RoomSnapshotRow) :
    Restored nowMs (done ++ [row]) (restoreRow nowMs acc row) := by
  have hold : Restored nowMs (done ++ [row]) acc := h.mono fun _ => List.mem_append_left _
  have hrow : row ∈ done ++ [row] := List.mem_append_right _ List.mem_cons_self
  cases rowResult nowMs row acc with
  | known heq => rwa [heq]
  | rejected hbad heq =>
    rw [heq]
    exact { hold with
      rejected := fun record hmem => by
        rcases List.mem_append.mp hmem with hmem | hmem
        · exact hold.rejected record hmem
        · exact ⟨row, hrow, (List.mem_singleton.mp hmem).symm, hbad⟩ }
  | made room hgood hroom hnewRoom hnewMatch heq =>
    rw [heq]
    refine ⟨⟨fun x r hr => ?_, fun x r hr => ?_⟩, fun k x hk => ?_, fun x r hr => ?_, hold.rejected⟩
    · rw [Table.lookup_insert'] at hr
      split at hr
      case isTrue heq =>
        obtain rfl := Option.some.inj hr
        exact heq.symm
      case isFalse => exact h.indexed.key x r hr
    · rw [Table.lookup_insert'] at hr
      split at hr
      case isTrue heq =>
        obtain rfl := Option.some.inj hr
        rw [heq]
        exact AList.lookup_insert _
      case isFalse => exact Table.lookup_insert_of_new hnewMatch (h.indexed.index x r hr)
    · rw [Table.lookup_insert'] at hk
      split at hk
      case isTrue heq =>
        obtain rfl := Option.some.inj hk
        exact ⟨room, AList.lookup_insert _, heq.symm⟩
      case isFalse =>
        obtain ⟨r, hr, hmatch⟩ := h.entry k x hk
        exact ⟨r, Table.lookup_insert_of_new hnewRoom hr, hmatch⟩
    · rw [Table.lookup_insert'] at hr
      split at hr
      case isTrue heq =>
        obtain rfl := Option.some.inj hr
        exact ⟨row, hrow, hgood, hroom⟩
      case isFalse => exact hold.room x r hr

/-- **What a restart restores** goes back to its rows. -/
theorem Restored.of_rows (nowMs : Int) (rows : List RoomSnapshotRow) :
    Restored nowMs rows (restoreLocked {} nowMs rows) := by
  suffices hall : ∀ (todo done : List RoomSnapshotRow) acc, Restored nowMs done acc →
      Restored nowMs (done ++ todo) (todo.foldl (RoomManager.restoreRow nowMs) acc) from
    hall rows [] _ (.start nowMs)
  intro todo
  induction todo with
  | nil => intro done acc h; simpa using h
  | cons row todo ih =>
    intro done acc h
    have hnext := ih (done ++ [row]) _ (h.restoreRow row)
    rwa [List.append_assoc] at hnext

end RoomManager

end RealtimeGame.Room
