import RealtimeGame.Room.Index
import RealtimeGame.Room.RoomsTable
import RealtimeGame.Room.Validator

/-!
# Room/Disposal — what becomes of every row on a restart

`Restore` makes a room of each row that it reads, or rejects it and writes it back as aborted.  The write
is an upsert like any other: where the row has a later `snapshot_at_ms` than the clock of the restart, it
changes nothing, and the next restart reads the row again.  And one row that is too long for the connection
fails the query, so that no row is read at all (`disposed_iff`).
-/

open Library RealtimeGame.Common

namespace RealtimeGame.Room

/-- `RestoreReport`. -/
structure RestoreReport where
  scanned : Nat := 0
  restored : Nat := 0
  rejected : Nat := 0
  loadFailed : Bool := false
  deriving DecidableEq, Repr

namespace RoomManager

variable {m : RoomManager} {nowMs : Int} {row : RoomSnapshotRow} {rows : List RoomSnapshotRow}

/-- The loop of `Restore` makes a room of this row. -/
def restores (m : RoomManager) (nowMs : Int) (row : RoomSnapshotRow) : Bool :=
  if row.problem ≠ "" then false
  else
    match BattleRoom.restoreFrom row.record nowMs with
    | none => false
    | some room =>
      (m.rooms.lookup room.roomId).isNone && (m.matchIndex.lookup room.matchId).isNone

/-- `report.restored`: the loop counts the rooms that it makes. -/
def countRestored (nowMs : Int) : RoomManager → List RoomSnapshotRow → Nat
  | _, [] => 0
  | m, row :: rows =>
    (if m.restores nowMs row then 1 else 0) + countRestored nowMs (restoreRow nowMs ([], m) row).2 rows

end RoomManager

namespace RoomsTable

variable {collation : Collation}

/-- `LoadUnfinished`. -/
def loadUnfinished (t : RoomsTable collation) : Option (List RoomSnapshotRow) :=
  RoomsRow.loadUnfinished collation t.rows

/-- The records that `Restore` rejects, on an empty manager. -/
def rejected (t : RoomsTable collation) (nowMs : Int) : List RoomSnapshotRecord :=
  (RoomManager.restoreLocked {} nowMs (t.loadUnfinished.getD [])).1

/-- **`Restore`** on an empty manager, with the saves of `RejectSnapshots`. -/
def restore (t : RoomsTable collation) (nowMs : Int) : RestoreReport × RoomManager × RoomsTable collation :=
  match t.loadUnfinished with
  | none => ({ loadFailed := true }, {}, t)
  | some rows =>
    ({ scanned := rows.length
       restored := RoomManager.countRestored nowMs {} rows
       rejected := (t.rejected nowMs).length },
      (RoomManager.restoreLocked {} nowMs rows).2,
      t.saves ((t.rejected nowMs).map fun record => RoomManager.rejectedRecord record nowMs))

end RoomsTable

/-! ## The loop

Rows are handled one by one; ids that differ in the table do not collide in memory. -/

theorem RoomsRow.decode_ids (row : RoomsRow) :
    row.decode.record.matchId = row.matchId ∧ row.decode.record.roomId = row.roomId := by
  unfold decode
  split
  · exact ⟨rfl, rfl⟩
  · split <;> exact ⟨rfl, rfl⟩

theorem RoomsRow.decode_players (row : RoomsRow) :
    row.decode.record.player0 = row.player0 ∧ row.decode.record.player1 = row.player1 := by
  unfold decode
  split
  · exact ⟨rfl, rfl⟩
  · split <;> exact ⟨rfl, rfl⟩

/-- What was read passed the check, or has a problem. -/
theorem RoomsRow.restoreFrom_decode (row : RoomsRow) (h : row.decode.problem = "") (nowMs : Int) :
    BattleRoom.restoreFrom row.decode.record nowMs = some (.restored row.decode.record nowMs) := by
  obtain ⟨r, hr, -⟩ := sound_of_accepted row.decode.record (row.decode_eq h).2.2 nowMs
  rw [hr, RoomWorld.restoreFrom_eq_some hr]

namespace RoomManager

variable {m : RoomManager} {nowMs : Int}

/-- **The rows do not get in each other's way**, nor does a room that is there already. -/
structure Apart (m : RoomManager) (rows : List RoomsRow) : Prop where
  matchIds : (rows.map (·.matchId)).Nodup
  roomIds : (rows.map (·.roomId)).Nodup
  newMatch : ∀ row ∈ rows, m.matchIndex.lookup row.matchId = none
  newRoom : ∀ row ∈ rows, m.rooms.lookup row.roomId = none

/-- A row with a problem is rejected. -/
theorem restoreRow_rejected {acc : List RoomSnapshotRecord × RoomManager} {row : RoomSnapshotRow}
    (h : row.problem ≠ "") : restoreRow nowMs acc row = (acc.1 ++ [row.record], acc.2) := by
  rw [restoreRow, if_pos h]

/-- A row without one becomes a room. -/
theorem restoreRow_restored (acc : List RoomSnapshotRecord × RoomManager) {row : RoomsRow}
    (h : row.decode.problem = "") (hmatch : acc.2.matchIndex.lookup row.matchId = none)
    (hroom : acc.2.rooms.lookup row.roomId = none) :
    restoreRow nowMs acc row.decode = (acc.1, { acc.2 with
      rooms := acc.2.rooms.insert row.roomId (.restored row.decode.record nowMs)
      matchIndex := acc.2.matchIndex.insert row.matchId row.roomId }) := by
  obtain ⟨hmatchId, hroomId⟩ := row.decode_ids
  rw [restoreRow, if_neg (not_not.mpr h), row.restoreFrom_decode h]
  change (if (acc.2.rooms.lookup row.decode.record.roomId).isSome ∨
    (acc.2.matchIndex.lookup row.decode.record.matchId).isSome then acc else _) = _
  rw [hmatchId, hroomId, hmatch, hroom, if_neg (by decide)]
  change (acc.1, { acc.2 with
      rooms := acc.2.rooms.insert row.decode.record.roomId (.restored row.decode.record nowMs)
      matchIndex := acc.2.matchIndex.insert row.decode.record.matchId row.decode.record.roomId }) = _
  rw [hmatchId, hroomId]

/-- …and is counted. -/
theorem restores_of_new {row : RoomsRow} (h : row.decode.problem = "")
    (hmatch : m.matchIndex.lookup row.matchId = none) (hroom : m.rooms.lookup row.roomId = none) :
    m.restores nowMs row.decode = true := by
  rw [restores, if_neg (not_not.mpr h), row.restoreFrom_decode h]
  change ((m.rooms.lookup row.decode.record.roomId).isNone &&
    (m.matchIndex.lookup row.decode.record.matchId).isNone) = true
  rw [row.decode_ids.1, row.decode_ids.2, hmatch, hroom]
  rfl

/-- The rows behind one that became a room do not get in its way. -/
theorem Apart.insert {row : RoomsRow} {rows : List RoomsRow} (h : m.Apart (row :: rows)) (room : BattleRoom) :
    ({ m with
      rooms := m.rooms.insert row.roomId room
      matchIndex := m.matchIndex.insert row.matchId row.roomId } : RoomManager).Apart rows := by
  obtain ⟨hmatchIds, hroomIds, hnewMatch, hnewRoom⟩ := h
  rw [List.map_cons, List.nodup_cons, List.mem_map] at hmatchIds hroomIds
  refine ⟨hmatchIds.2, hroomIds.2, fun row' hrow' => ?_, fun row' hrow' => ?_⟩
  · rw [Table.lookup_insert', if_neg fun heq => hmatchIds.1 ⟨row', hrow', heq⟩]
    exact hnewMatch row' (List.mem_cons_of_mem _ hrow')
  · rw [Table.lookup_insert', if_neg fun heq => hroomIds.1 ⟨row', hrow', heq⟩]
    exact hnewRoom row' (List.mem_cons_of_mem _ hrow')

/-- Nor do they if it became none. -/
theorem Apart.tail {row : RoomsRow} {rows : List RoomsRow} (h : m.Apart (row :: rows)) : m.Apart rows :=
  ⟨(List.nodup_cons.mp h.matchIds).2, (List.nodup_cons.mp h.roomIds).2,
    (List.forall_mem_cons.mp h.newMatch).2, (List.forall_mem_cons.mp h.newRoom).2⟩

/-- **The loop of `Restore`** rejects every row with a problem, makes a room of every other, and counts
both. -/
theorem restoreLocked_apart {rows : List RoomsRow} (h : m.Apart rows) (nowMs : Int)
    (rejected : List RoomSnapshotRecord) :
    ((rows.map RoomsRow.decode).foldl (restoreRow nowMs) (rejected, m)).1 =
        rejected ++ ((rows.map RoomsRow.decode).filter (·.problem ≠ "")).map (·.record) ∧
      (∀ row ∈ rows, row.decode.problem = "" →
        ((rows.map RoomsRow.decode).foldl (restoreRow nowMs) (rejected, m)).2.rooms.lookup row.roomId =
          some (.restored row.decode.record nowMs)) ∧
      (∀ x, (∀ row ∈ rows, row.roomId ≠ x) →
        ((rows.map RoomsRow.decode).foldl (restoreRow nowMs) (rejected, m)).2.rooms.lookup x =
          m.rooms.lookup x) ∧
      countRestored nowMs m (rows.map RoomsRow.decode) =
        ((rows.map RoomsRow.decode).filter (·.problem = "")).length := by
  induction rows generalizing m rejected with
  | nil => exact ⟨(List.append_nil _).symm, (fun _ h => by cases h), fun _ _ => rfl, rfl⟩
  | cons row rows ih =>
    rw [List.map_cons, List.foldl_cons]
    have hroomId : ∀ row' ∈ rows, row'.roomId ≠ row.roomId := fun row' hrow' heq =>
      (List.nodup_cons.mp h.roomIds).1 (List.mem_map.mpr ⟨row', hrow', heq⟩)
    by_cases hgood : row.decode.problem = ""
    · have hnewMatch := h.newMatch row List.mem_cons_self
      have hnewRoom := h.newRoom row List.mem_cons_self
      have hstep : ∀ rejected : List RoomSnapshotRecord, restoreRow nowMs (rejected, m) row.decode = _ :=
        fun rejected => restoreRow_restored (rejected, m) hgood hnewMatch hnewRoom
      obtain ⟨hrejected, hmade, hother, hcount⟩ := ih (h.insert (.restored row.decode.record nowMs)) rejected
      rw [hstep]
      refine ⟨?_, List.forall_mem_cons.mpr ⟨fun _ => ?_, hmade⟩, fun x hx => ?_, ?_⟩
      · rw [hrejected, List.filter_cons_of_neg (by simpa using hgood)]
      · rw [hother row.roomId hroomId]
        exact AList.lookup_insert _
      · rw [List.forall_mem_cons] at hx
        rw [hother x hx.2, Table.lookup_insert', if_neg hx.1.symm]
      · rw [countRestored, if_pos (restores_of_new hgood hnewMatch hnewRoom), hstep, hcount,
          List.filter_cons_of_pos (by simpa using hgood), List.length_cons, Nat.add_comm]
    · obtain ⟨hrejected, hmade, hother, hcount⟩ := ih h.tail (rejected ++ [row.decode.record])
      have hcounted : m.restores nowMs row.decode = false := by rw [restores, if_pos hgood]
      rw [restoreRow_rejected hgood]
      refine ⟨?_, List.forall_mem_cons.mpr ⟨fun h => absurd h hgood, hmade⟩, fun x hx => ?_, ?_⟩
      · rw [hrejected, List.filter_cons_of_pos (by simpa using hgood), List.map_cons, List.append_assoc]
        rfl
      · exact hother x (List.forall_mem_cons.mp hx).2
      · rw [countRestored, hcounted, restoreRow_rejected hgood, hcount,
          List.filter_cons_of_neg (by simpa using hgood)]
        simp

end RoomManager

/-! ## The table

What is read of it, and what the writes make of it. -/

namespace RoomsTable

variable {collation : Collation} {t : RoomsTable collation} {nowMs : Int} {row : RoomsRow}

/-- A record with the room id of its match's row is in no other row's way. -/
theorem free_of_row {record : RoomSnapshotRecord} (hrow : t.row? record.matchId = some row)
    (hroom : row.roomId = record.roomId) : t.Free record := by
  intro row' hrow' hne heq
  have hsame := List.inj_on_of_nodup_map t.roomIds hrow' (List.mem_of_find?_eq_some hrow)
    (heq.trans (congrArg collation hroom.symm))
  exact hne (hsame ▸ row?_matchId hrow)

theorem spelled_of_row {record : RoomSnapshotRecord} (hrow : t.row? record.matchId = some row)
    (hmatch : row.matchId = record.matchId) : t.Spelled record := by
  intro row' hrow' hsame
  have heq := List.inj_on_of_nodup_map t.matchIds hrow' (List.mem_of_find?_eq_some hrow)
    (hsame.trans (congrArg collation hmatch.symm))
  exact heq ▸ hmatch

/-- **Saves for different matches**, each for a row that is there: each writes to the register of its own. -/
theorem row?_saves_rows (records : List RoomSnapshotRecord)
    (hstorable : ∀ record ∈ records, Storable collation record)
    (hrows : ∀ record ∈ records, ∃ row, t.row? record.matchId = some row ∧ row.matchId = record.matchId ∧
      row.roomId = record.roomId)
    (hdistinct : (records.map fun record => collation record.matchId).Nodup) :
    ∀ record ∈ records, (t.saves records).row? record.matchId =
        register (·.snapshotAtMs) (t.row? record.matchId) (.ofRecord record) := by
  suffices hall : (∀ record ∈ records, (t.saves records).row? record.matchId =
        register (·.snapshotAtMs) (t.row? record.matchId) (.ofRecord record)) ∧
      ∀ k, (∀ record ∈ records, collation record.matchId ≠ collation k) →
        (t.saves records).row? k = t.row? k from hall.1
  induction records generalizing t with
  | nil => exact ⟨(fun _ h => by cases h), fun _ _ => rfl⟩
  | cons record records ih =>
    rw [List.forall_mem_cons] at hstorable hrows
    rw [List.map_cons, List.nodup_cons, List.mem_map] at hdistinct
    obtain ⟨row, hrow, hmatch, hroom⟩ := hrows.1
    obtain ⟨-, hone⟩ := save_free hstorable.1 (free_of_row hrow hroom) (spelled_of_row hrow hmatch)
    have hne : ∀ record' ∈ records, collation record'.matchId ≠ collation record.matchId :=
      fun record' h heq => hdistinct.1 ⟨record', h, heq⟩
    have hsame : ∀ record' ∈ records, (t.save record).2.row? record'.matchId = t.row? record'.matchId :=
      fun record' h => (hone _).trans (if_neg (hne record' h))
    obtain ⟨hsaved, hother⟩ := ih (t := (t.save record).2) hstorable.2
      (fun record' h => by rw [hsame record' h]; exact hrows.2 record' h) hdistinct.2
    change (∀ record' ∈ record :: records, ((t.save record).2.saves records).row? record'.matchId = _) ∧
      ∀ k, _ → ((t.save record).2.saves records).row? k = _
    refine ⟨List.forall_mem_cons.mpr ⟨?_, fun record' h => ?_⟩, fun k hk => ?_⟩
    · rw [hother _ hne, hone, if_pos rfl]
    · rw [hsaved record' h, hsame record' h]
    · rw [List.forall_mem_cons] at hk
      rw [hother k hk.2, hone, if_neg hk.1.symm]

/-- **Every row that is to be loaded can be read.** -/
def Readable (t : RoomsTable collation) : Prop := ∀ row ∈ t.rows, row.loaded collation = true → row.Fits

theorem loadUnfinished_of_readable (h : t.Readable) :
    t.loadUnfinished = some ((RoomsRow.selected collation t.rows).map RoomsRow.decode) := by
  refine if_pos fun row hrow => ?_
  exact h row (RoomsRow.mem_selected.mp hrow).1 (RoomsRow.mem_selected.mp hrow).2

/-- Otherwise nothing is. -/
theorem loadUnfinished_of_not_readable (h : ¬t.Readable) : t.loadUnfinished = none := by
  refine if_neg fun hfits => h fun row hrow hloaded => ?_
  exact hfits row (RoomsRow.mem_selected.mpr ⟨hrow, hloaded⟩)

theorem nodup_selected {κ : Type} {key : RoomsRow → κ} (h : (t.rows.map key).Nodup) :
    ((RoomsRow.selected collation t.rows).map key).Nodup :=
  (((RoomsRow.selected_perm collation t.rows).map _).nodup_iff).mpr (h.sublist (List.filter_sublist.map _))

theorem apart (t : RoomsTable collation) :
    ({} : RoomManager).Apart (RoomsRow.selected collation t.rows) where
  matchIds := by
    have hkeys := nodup_selected t.matchIds
    rw [← Function.comp_def, ← List.map_map] at hkeys
    exact hkeys.of_map _
  roomIds := by
    have hkeys := nodup_selected t.roomIds
    rw [← Function.comp_def, ← List.map_map] at hkeys
    exact hkeys.of_map _
  newMatch _ _ := rfl
  newRoom _ _ := rfl

/-- What `Restore` rejects are the rows with a problem. -/
theorem rejected_eq (h : t.Readable) : t.rejected nowMs =
    ((RoomsRow.selected collation t.rows).filter (·.decode.problem ≠ "")).map (·.decode.record) := by
  have hloop := (RoomManager.restoreLocked_apart t.apart nowMs []).1
  unfold rejected RoomManager.restoreLocked
  rw [loadUnfinished_of_readable h, Option.getD_some, hloop, List.nil_append, List.filter_map, List.map_map]
  rfl

theorem mem_rejected (h : t.Readable) {record : RoomSnapshotRecord} : record ∈ t.rejected nowMs ↔
    ∃ row ∈ t.rows, row.loaded collation = true ∧ row.decode.problem ≠ "" ∧ record = row.decode.record := by
  rw [rejected_eq h]
  simp only [List.mem_map, List.mem_filter, RoomsRow.mem_selected, decide_eq_true_eq]
  constructor
  · rintro ⟨row, ⟨⟨hrow, hloaded⟩, hbad⟩, rfl⟩
    exact ⟨row, hrow, hloaded, hbad, rfl⟩
  · rintro ⟨row, hrow, hloaded, hbad, rfl⟩
    exact ⟨row, ⟨⟨hrow, hloaded⟩, hbad⟩, rfl⟩

theorem nodup_rejected (h : t.Readable) (nowMs : Int) :
    ((t.rejected nowMs).map fun record => collation record.matchId).Nodup := by
  rw [rejected_eq h, List.map_map]
  have hkeys : (fun record : RoomSnapshotRecord => collation record.matchId) ∘
      (fun row : RoomsRow => row.decode.record) = fun row => collation row.matchId :=
    funext fun row => congrArg collation row.decode_ids.1
  rw [hkeys]
  exact (nodup_selected t.matchIds).sublist (List.filter_sublist.map _)

/-- A rejected row can be written back. -/
theorem storable_rejected (hids : ∀ row ∈ t.rows, row.matchId ≠ "" ∧ row.roomId ≠ "") (hrow : row ∈ t.rows)
    (nowMs : Int) : Storable collation (RoomManager.rejectedRecord row.decode.record nowMs) := by
  obtain ⟨hmatch, hroom⟩ := row.decode_ids
  obtain ⟨hplayer0, hplayer1⟩ := row.decode_players
  have hwidth := (t.widths row hrow).ids
  simp only [List.forall_mem_append, List.forall_mem_cons, List.not_mem_nil, false_imp_iff, implies_true,
    and_true] at hwidth
  obtain ⟨⟨hmatchLength, hroomLength, h0, h1⟩, -⟩ := hwidth
  refine ⟨?_, ?_, fun hwinner => absurd rfl hwinner⟩
  · change row.decode.record.matchId ≠ "" ∧ row.decode.record.roomId ≠ ""
    rw [hmatch, hroom]
    exact hids row hrow
  · change ∀ id ∈ [row.decode.record.matchId, row.decode.record.roomId, row.decode.record.player0.playerId,
      row.decode.record.player1.playerId, ""], id.length ≤ kIdWidth
    rw [hmatch, hroom, hplayer0, hplayer1]
    simp only [List.forall_mem_cons, List.not_mem_nil, false_imp_iff, implies_true, and_true]
    exact ⟨hmatchLength, hroomLength, h0, h1, Nat.zero_le _⟩

theorem restore_of_readable (h : t.Readable) : t.restore nowMs =
    ({ scanned := (RoomsRow.selected collation t.rows).length
       restored := RoomManager.countRestored nowMs {} ((RoomsRow.selected collation t.rows).map RoomsRow.decode)
       rejected := (t.rejected nowMs).length },
      (RoomManager.restoreLocked {} nowMs ((RoomsRow.selected collation t.rows).map RoomsRow.decode)).2,
      t.saves ((t.rejected nowMs).map fun record => RoomManager.rejectedRecord record nowMs)) := by
  rw [restore, loadUnfinished_of_readable h]
  dsimp only
  rw [List.length_map]

/-- A query that fails leaves everything as it was. -/
theorem restore_of_not_readable (h : ¬t.Readable) : t.restore nowMs = ({ loadFailed := true }, {}, t) := by
  rw [restore, loadUnfinished_of_not_readable h]

/-- **A rejected row** is written back, unless it has a later time than the restart. -/
theorem row?_restore (hreadable : t.Readable) (hids : ∀ row ∈ t.rows, row.matchId ≠ "" ∧ row.roomId ≠ "")
    (hrow : row ∈ t.rows) (hloaded : row.loaded collation = true) (hbad : row.decode.problem ≠ "") :
    (t.restore nowMs).2.2.row? row.matchId = some (newer (·.snapshotAtMs) row
      (.ofRecord (RoomManager.rejectedRecord row.decode.record nowMs))) := by
  have hwritten : ∀ record ∈ (t.rejected nowMs).map fun record => RoomManager.rejectedRecord record nowMs,
      ∃ row ∈ t.rows, record = RoomManager.rejectedRecord row.decode.record nowMs := by
    intro record h
    obtain ⟨record, hrecord, rfl⟩ := List.mem_map.mp h
    obtain ⟨row, hrow, -, -, rfl⟩ := (mem_rejected hreadable).mp hrecord
    exact ⟨row, hrow, rfl⟩
  have hsaved := row?_saves_rows (t := t)
    ((t.rejected nowMs).map fun record => RoomManager.rejectedRecord record nowMs)
    (fun record h => by
      obtain ⟨row, hrow, rfl⟩ := hwritten record h
      exact storable_rejected hids hrow nowMs)
    (fun record h => by
      obtain ⟨row, hrow, rfl⟩ := hwritten record h
      refine ⟨row, ?_, row.decode_ids.1.symm, row.decode_ids.2.symm⟩
      exact (congrArg t.row? row.decode_ids.1).trans (mem_iff_row?.mp hrow))
    (by
      rw [List.map_map]
      exact nodup_rejected hreadable nowMs)
  have hone := hsaved _ (List.mem_map_of_mem ((mem_rejected hreadable).mpr ⟨row, hrow, hloaded, hbad, rfl⟩))
  have hmatch : (RoomManager.rejectedRecord row.decode.record nowMs).matchId = row.matchId :=
    row.decode_ids.1
  rw [hmatch, mem_iff_row?.mp hrow] at hone
  rw [restore_of_readable hreadable]
  exact hone

/-- So it is aborted, if its time is not later. -/
theorem aborted_of_rejected (hreadable : t.Readable) (hids : ∀ row ∈ t.rows, row.matchId ≠ "" ∧ row.roomId ≠ "")
    (hrow : row ∈ t.rows) (hloaded : row.loaded collation = true) (hbad : row.decode.problem ≠ "")
    (hclock : row.snapshotAtMs ≤ nowMs) :
    ∃ row', (t.restore nowMs).2.2.row? row.matchId = some row' ∧ row'.state = "aborted" := by
  refine ⟨_, row?_restore hreadable hids hrow hloaded hbad, ?_⟩
  rw [newer]
  change (if row.snapshotAtMs ≤ nowMs then RoomsRow.ofRecord _ else row).state = _
  rw [if_pos hclock]
  rfl

/-- **Every stored row is disposed of**: it is a room now, or over in the table; no row that was rejected is
read again; and the report adds up. -/
structure Disposed (t : RoomsTable collation) (nowMs : Int) : Prop where
  each : ∀ row ∈ t.rows, row.loaded collation = true →
    (∃ x r, (t.restore nowMs).2.1.rooms.lookup x = some r ∧ r.matchId = row.matchId) ∨
      ∃ row', (t.restore nowMs).2.2.row? row.matchId = some row' ∧ row'.state = "aborted"
  gone : ∀ record ∈ t.rejected nowMs, ∀ rows, (t.restore nowMs).2.2.loadUnfinished = some rows →
    ∀ row ∈ rows, row.record.matchId ≠ record.matchId
  report : (t.restore nowMs).1.restored + (t.restore nowMs).1.rejected = (t.restore nowMs).1.scanned

/-- A row with a problem has no room. -/
theorem no_room_of_rejected (hreadable : t.Readable) (hrow : row ∈ t.rows) (hbad : row.decode.problem ≠ "")
    {x : String} {r : BattleRoom} (hr : (t.restore nowMs).2.1.rooms.lookup x = some r) :
    r.matchId ≠ row.matchId := by
  intro hmatch
  rw [restore_of_readable hreadable] at hr
  obtain ⟨read, hread, hgood, hrestored⟩ := (RoomManager.Restored.of_rows nowMs
    ((RoomsRow.selected collation t.rows).map RoomsRow.decode)).room x r hr
  obtain ⟨row', hrow', rfl⟩ := List.mem_map.mp hread
  obtain rfl := RoomWorld.restoreFrom_eq_some hrestored
  have hsame : row' = row := List.inj_on_of_nodup_map t.matchIds (RoomsRow.mem_selected.mp hrow').1 hrow
    (congrArg collation (row'.decode_ids.1.symm.trans hmatch))
  exact hbad (hsame ▸ hgood)

/-- A row that is disposed of could be read. -/
theorem Disposed.readable (h : t.Disposed nowMs) : t.Readable := by
  by_contra hunreadable
  refine hunreadable fun row hrow hloaded => ?_
  have hrestore : t.restore nowMs = _ := restore_of_not_readable hunreadable
  rcases h.each row hrow hloaded with ⟨x, r, hr, -⟩ | ⟨row', hrow', hstate⟩
  · rw [hrestore] at hr
    cases hr
  · rw [hrestore, mem_iff_row?.mp hrow] at hrow'
    obtain rfl := Option.some.inj hrow'
    cases (RoomsRow.loaded_of_final (.inr hstate)).symm.trans hloaded

/-- **A restart disposes of every row exactly when each can be read, and none that it rejects is ahead of its
clock.** -/
theorem disposed_iff (hids : ∀ row ∈ t.rows, row.matchId ≠ "" ∧ row.roomId ≠ "") (nowMs : Int) :
    t.Disposed nowMs ↔ ∀ row ∈ t.rows, row.loaded collation = true →
      row.Fits ∧ (row.decode.problem ≠ "" → row.snapshotAtMs ≤ nowMs) := by
  constructor
  · intro h row hrow hloaded
    refine ⟨h.readable row hrow hloaded, fun hbad => ?_⟩
    rcases h.each row hrow hloaded with ⟨x, r, hr, hmatch⟩ | ⟨row', hrow', hstate⟩
    · exact absurd hmatch (no_room_of_rejected h.readable hrow hbad hr)
    · by_contra hahead
      rw [row?_restore h.readable hids hrow hloaded hbad, newer] at hrow'
      change some (if row.snapshotAtMs ≤ nowMs then _ else row) = _ at hrow'
      rw [if_neg hahead] at hrow'
      obtain rfl := Option.some.inj hrow'
      cases (RoomsRow.loaded_of_final (.inr hstate)).symm.trans hloaded
  · intro h
    have hreadable : t.Readable := fun row hrow hloaded => (h row hrow hloaded).1
    have haborted : ∀ row ∈ t.rows, row.loaded collation = true → row.decode.problem ≠ "" →
        ∃ row', (t.restore nowMs).2.2.row? row.matchId = some row' ∧ row'.state = "aborted" :=
      fun row hrow hloaded hbad => aborted_of_rejected hreadable hids hrow hloaded hbad ((h row hrow hloaded).2 hbad)
    refine ⟨fun row hrow hloaded => ?_, fun record hrecord rows hrows read hread hmatch => ?_, ?_⟩
    · by_cases hgood : row.decode.problem = ""
      · refine .inl ⟨row.roomId, .restored row.decode.record nowMs, ?_, row.decode_ids.1⟩
        rw [restore_of_readable hreadable]
        exact (RoomManager.restoreLocked_apart t.apart nowMs []).2.1 row
          (RoomsRow.mem_selected.mpr ⟨hrow, hloaded⟩) hgood
      · exact .inr (haborted row hrow hloaded hgood)
    · obtain ⟨row, hrow, hloaded, hbad, rfl⟩ := (mem_rejected hreadable).mp hrecord
      rw [loadUnfinished] at hrows
      obtain ⟨row', hrow', hloaded', rfl⟩ := RoomsRow.mem_loadUnfinished (by rw [hrows]; exact hread)
      have hkey : row'.matchId = row.matchId :=
        row'.decode_ids.1.symm.trans (hmatch.trans row.decode_ids.1)
      obtain ⟨row'', hrow'', hstate⟩ := haborted row hrow hloaded hbad
      have hsame := mem_iff_row?.mp hrow'
      rw [hkey, hrow''] at hsame
      obtain rfl := Option.some.inj hsame
      cases (RoomsRow.loaded_of_final (.inr hstate)).symm.trans hloaded'
    · obtain ⟨-, -, -, hcount⟩ := RoomManager.restoreLocked_apart t.apart nowMs []
      have hsplit := List.length_eq_length_filter_add (l := RoomsRow.selected collation t.rows)
        (·.decode.problem = "")
      rw [restore_of_readable hreadable, rejected_eq hreadable]
      dsimp only
      rw [hcount, List.filter_map, List.length_map, List.length_map, hsplit]
      simp [Function.comp_def]

/-- A row that cannot be read, and one of a game that goes on. -/
def damagedTable : RoomsTable caseFolded :=
  ⟨[⟨"m-1", "r-1", "paused", 30, ⟨"alice", 80, true⟩, ⟨"bob", 50, true⟩, none, "none", 1000, 0, 4000⟩,
    ⟨"m-2", "r-2", "playing", 10, ⟨"carol", 90, true⟩, ⟨"dave", 70, true⟩, none, "none", 2000, 0, 3000⟩],
    by decide, by decide, by decide⟩

theorem disposed_iff_damaged :
    damagedTable.Disposed 5000 ↔ ∀ row ∈ damagedTable.rows, row.loaded caseFolded = true →
      row.Fits ∧ (row.decode.problem ≠ "" → row.snapshotAtMs ≤ 5000) :=
  disposed_iff (by decide) 5000

/-- On a restart at 3500 the row that cannot be read stays as it is, and is read again. -/
theorem not_disposed :
    (∀ row ∈ damagedTable.rows, row.matchId ≠ "" ∧ row.roomId ≠ "") ∧
      ((damagedTable.restore 3500).2.2.row? "m-1").map (·.state) = some "paused" ∧
      (damagedTable.restore 3500).2.1.matchIndex.lookup "m-1" = none ∧ ¬damagedTable.Disposed 3500 := by
  refine ⟨by decide, by decide +kernel, by decide +kernel, fun h => ?_⟩
  obtain ⟨record, hrecord, rows, hrows, hread⟩ : ∃ record ∈ damagedTable.rejected 3500,
      ∃ rows ∈ (damagedTable.restore 3500).2.2.loadUnfinished,
        ∃ row ∈ rows, row.record.matchId = record.matchId := by
    decide +kernel
  obtain ⟨row, hrow, heq⟩ := hread
  exact h.gone record hrecord rows hrows row hrow heq

end RoomsTable

end RealtimeGame.Room
