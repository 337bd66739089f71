import RealtimeGame.Library.Register
import RealtimeGame.Room.RoomWorld

/-!
# Room/RoomsTable — the table `rooms`, and the upsert that writes it

The statement assigns its columns one after the other, each under a guard that reads the stored
`snapshot_at_ms`, and the last one assigns that column: so a row is replaced as a whole or not at all
(`update_eq`).  The saves of one match are writes to a register that keeps the newest snapshot
(`save_newest`), as long as no other match has a row with the same room id: the table has a second unique
key, and MySQL then updates that other row.  Both keys compare as the collation does, and the columns of text
have a width.
-/

open Library RealtimeGame.Common

namespace RealtimeGame.Room

/-! ## The statement

Column after column, with the values that the columns before have left. -/

namespace RoomsRow

/-- The assignments of the statement, in its order: each takes one column from the new row. -/
def assignments : List (RoomsRow → RoomsRow → RoomsRow) :=
  [fun new row => { row with roomId := new.roomId },
    fun new row => { row with state := new.state },
    fun new row => { row with frame := new.frame },
    fun new row => { row with player0 := { row.player0 with playerId := new.player0.playerId } },
    fun new row => { row with player0 := { row.player0 with hp := new.player0.hp } },
    fun new row => { row with player0 := { row.player0 with joined := new.player0.joined } },
    fun new row => { row with player1 := { row.player1 with playerId := new.player1.playerId } },
    fun new row => { row with player1 := { row.player1 with hp := new.player1.hp } },
    fun new row => { row with player1 := { row.player1 with joined := new.player1.joined } },
    fun new row => { row with winnerId := new.winnerId },
    fun new row => { row with finishReason := new.finishReason },
    fun new row => { row with startedAtMs := new.startedAtMs },
    fun new row => { row with finishedAtMs := new.finishedAtMs },
    fun new row => { row with snapshotAtMs := new.snapshotAtMs }]

/-- `IF(VALUES(snapshot_at_ms) >= snapshot_at_ms, VALUES(column), column)`, on the row as the assignments
before it have left it. -/
def assign (new row : RoomsRow) (column : RoomsRow → RoomsRow → RoomsRow) : RoomsRow :=
  if row.snapshotAtMs ≤ new.snapshotAtMs then column new row else row

/-- `ON DUPLICATE KEY UPDATE`, from left to right. -/
def update (new row : RoomsRow) : RoomsRow := assignments.foldl (assign new) row

/-- **All columns or none**: the guard reads a column that only the last assignment changes. -/
theorem update_eq (new row : RoomsRow) : new.update row =
    if row.snapshotAtMs ≤ new.snapshotAtMs then { new with matchId := row.matchId } else row := by
  by_cases hnewer : row.snapshotAtMs ≤ new.snapshotAtMs
  · simp only [update, assignments, List.foldl_cons, List.foldl_nil, assign, if_pos hnewer]
  · simp only [update, assignments, List.foldl_cons, List.foldl_nil, assign, if_neg hnewer]

@[simp] theorem update_matchId (new row : RoomsRow) : (new.update row).matchId = row.matchId := by
  rw [update_eq]
  split <;> rfl

/-- On a row of its own match the statement keeps the newer of the two. -/
theorem update_eq_newer {new row : RoomsRow} (h : row.matchId = new.matchId) :
    new.update row = newer (·.snapshotAtMs) row new := by
  rw [update_eq, h, newer]

end RoomsRow

/-! ## The columns

Strict mode: a text that is too long for its column is an error, and no row is written. -/

/-- `VARCHAR(64)`, of every id. -/
def kIdWidth : Nat := 64

/-- `VARCHAR(16)`. -/
def kStateWidth : Nat := 16

/-- `VARCHAR(24)`. -/
def kFinishReasonWidth : Nat := 24

namespace RoomsRow

/-- A row that the columns are wide enough for. -/
structure InWidth (row : RoomsRow) : Prop where
  ids : ∀ id ∈ [row.matchId, row.roomId, row.player0.playerId, row.player1.playerId] ++ row.winnerId.toList,
    id.length ≤ kIdWidth
  state : row.state.length ≤ kStateWidth
  finishReason : row.finishReason.length ≤ kFinishReasonWidth

instance (row : RoomsRow) : Decidable row.InWidth :=
  decidable_of_iff ((∀ id ∈ [row.matchId, row.roomId, row.player0.playerId, row.player1.playerId] ++
      row.winnerId.toList, id.length ≤ kIdWidth) ∧ row.state.length ≤ kStateWidth ∧
      row.finishReason.length ≤ kFinishReasonWidth)
    ⟨fun h => ⟨h.1, h.2.1, h.2.2⟩, fun h => ⟨h.ids, h.state, h.finishReason⟩⟩

/-- `NULLIF(?, '')`, in its column. -/
def winnerText (collation : Collation) : Option String → Option (Option String)
  | none => some none
  | some winnerId =>
    if collation winnerId = collation "" then some none else (columnText kIdWidth winnerId).map some

/-- **The `VALUES` of the statement**, as the columns hold them. -/
def stored (collation : Collation) (row : RoomsRow) : Option RoomsRow := do
  let matchId ← columnText kIdWidth row.matchId
  let roomId ← columnText kIdWidth row.roomId
  let state ← columnText kStateWidth row.state
  let id0 ← columnText kIdWidth row.player0.playerId
  let id1 ← columnText kIdWidth row.player1.playerId
  let winnerId ← winnerText collation row.winnerId
  let finishReason ← columnText kFinishReasonWidth row.finishReason
  return { row with
    matchId := matchId, roomId := roomId, state := state, player0 := { row.player0 with playerId := id0 },
    player1 := { row.player1 with playerId := id1 }, winnerId := winnerId, finishReason := finishReason }

theorem inWidth_of_stored {collation : Collation} {row new : RoomsRow} (h : row.stored collation = some new) :
    new.InWidth := by
  simp only [stored, Option.bind_eq_bind, Option.bind_eq_some_iff, Option.pure_def, Option.some.injEq] at h
  obtain ⟨matchId, hmatch, roomId, hroom, state, hstate, id0, h0, id1, h1, winnerId, hwinner, finishReason,
    hfinish, rfl⟩ := h
  refine ⟨?_, length_of_columnText hstate, length_of_columnText hfinish⟩
  have hlength : ∀ id ∈ winnerId, id.length ≤ kIdWidth := by
    rintro id rfl
    unfold winnerText at hwinner
    split at hwinner
    · cases hwinner
    · split at hwinner
      · cases hwinner
      · obtain ⟨text, htext, heq⟩ := Option.map_eq_some_iff.mp hwinner
        obtain rfl := Option.some.inj heq
        exact length_of_columnText htext
  simp only [List.forall_mem_append, List.forall_mem_cons, List.not_mem_nil, false_imp_iff, implies_true,
    and_true, Option.mem_toList]
  exact ⟨⟨length_of_columnText hmatch, length_of_columnText hroom, length_of_columnText h0,
    length_of_columnText h1⟩, hlength⟩

/-- **What the columns are wide enough for is stored as it is**, if its winner does not pass for nobody. -/
theorem stored_eq {collation : Collation} {row : RoomsRow} (h : row.InWidth)
    (hwinner : ∀ id ∈ row.winnerId, collation id ≠ collation "") : row.stored collation = some row := by
  obtain ⟨hids, hstate, hfinish⟩ := h
  simp only [List.forall_mem_append, List.forall_mem_cons, List.not_mem_nil, false_imp_iff, implies_true,
    and_true, Option.mem_toList] at hids
  obtain ⟨⟨hmatch, hroom, h0, h1⟩, hlength⟩ := hids
  have hwinnerText : winnerText collation row.winnerId = some row.winnerId := by
    rcases hid : row.winnerId with - | id
    · rfl
    · rw [winnerText, if_neg (hwinner id hid), columnText_of_le (hlength id hid), Option.map_some]
  simp only [stored, columnText_of_le hmatch, columnText_of_le hroom, columnText_of_le hstate,
    columnText_of_le h0, columnText_of_le h1, hwinnerText, columnText_of_le hfinish, Option.bind_eq_bind,
    Option.bind_some, Option.pure_def]

theorem inWidth_update {new row : RoomsRow} (hnew : new.InWidth) (hrow : row.InWidth) :
    (new.update row).InWidth := by
  rw [update_eq]
  split
  · refine ⟨?_, hnew.state, hnew.finishReason⟩
    have hold := hrow.ids row.matchId (List.mem_append_left _ List.mem_cons_self)
    exact List.forall_mem_cons.mpr ⟨hold, (List.forall_mem_cons.mp hnew.ids).2⟩
  · exact hrow

end RoomsRow

/-! ## The table

Two unique keys, and what happens where one of them is taken. -/

/-- **The table `rooms`**, with its primary key and its second unique key. -/
structure RoomsTable (collation : Collation) where
  rows : List RoomsRow
  /-- `PRIMARY KEY (match_id)`. -/
  matchIds : (rows.map fun row => collation row.matchId).Nodup
  /-- `UNIQUE KEY uk_rooms_room_id (room_id)`. -/
  roomIds : (rows.map fun row => collation row.roomId).Nodup
  widths : ∀ row ∈ rows, row.InWidth

inductive SnapshotWriteStatus
  | ok
  | unavailable
  deriving DecidableEq, Repr

namespace RoomsTable

variable {collation : Collation} {t : RoomsTable collation} {new row : RoomsRow}
  {record : RoomSnapshotRecord} {k : String}

/-- The row of a match. -/
def row? (t : RoomsTable collation) (matchId : String) : Option RoomsRow :=
  t.rows.find? fun row => collation row.matchId = collation matchId

/-- The row that a new one collides with: by the primary key, or else by the second key. -/
def duplicate (t : RoomsTable collation) (new : RoomsRow) : Option RoomsRow :=
  (t.row? new.matchId).or (t.rows.find? fun row => collation row.roomId = collation new.roomId)

/-- What the statement makes of the rows. -/
def upserted (t : RoomsTable collation) (new : RoomsRow) : List RoomsRow :=
  match t.duplicate new with
  | none => t.rows ++ [new]
  | some old => t.rows.map fun row =>
    if collation row.matchId = collation old.matchId then new.update row else row

theorem inWidth_upserted (t : RoomsTable collation) (hnew : new.InWidth) :
    ∀ row ∈ t.upserted new, row.InWidth := by
  unfold upserted
  split
  · exact List.forall_mem_append.mpr ⟨t.widths, List.forall_mem_singleton.mpr hnew⟩
  · rw [List.forall_mem_map]
    intro row hrow
    split
    · exact RoomsRow.inWidth_update hnew (t.widths row hrow)
    · exact t.widths row hrow

/-- The statement fails where its rows would break a key, or a column is too narrow. -/
def upsert (t : RoomsTable collation) (row : RoomsRow) : Option (RoomsTable collation) :=
  match hnew : row.stored collation with
  | none => none
  | some new =>
    if h : ((t.upserted new).map fun row => collation row.matchId).Nodup ∧
        ((t.upserted new).map fun row => collation row.roomId).Nodup then
      some ⟨t.upserted new, h.1, h.2, t.inWidth_upserted (RoomsRow.inWidth_of_stored hnew)⟩
    else none

/-- **`Save`**, on a connection that is up. -/
def save (t : RoomsTable collation) (record : RoomSnapshotRecord) :
    SnapshotWriteStatus × RoomsTable collation :=
  if record.matchId = "" ∨ record.roomId = "" then (.unavailable, t)
  else
    match t.upsert (.ofRecord record) with
    | some t => (.ok, t)
    | none => (.unavailable, t)

/-! ## One save

The keys compare by their weights; so a row is found by any spelling of its match id, and what is said of two
keys is said of their weights. -/

theorem mem_iff_row? : row ∈ t.rows ↔ t.row? row.matchId = some row := by
  constructor
  · intro hrow
    obtain ⟨found, hfound⟩ : ∃ found, t.row? row.matchId = some found := by
      rw [← Option.isSome_iff_exists, row?, List.find?_isSome]
      exact ⟨row, hrow, decide_eq_true rfl⟩
    have hkey : collation found.matchId = collation row.matchId := by simpa using List.find?_some hfound
    rw [hfound, List.inj_on_of_nodup_map t.matchIds (List.mem_of_find?_eq_some hfound) hrow hkey]
  · exact List.mem_of_find?_eq_some

theorem row?_matchId (h : t.row? k = some row) : collation row.matchId = collation k := by
  simpa using List.find?_some h

theorem row?_eq_none : t.row? k = none ↔ ∀ row ∈ t.rows, collation row.matchId ≠ collation k := by
  simp [row?, List.find?_eq_none]

theorem row?_congr {k' : String} (h : collation k = collation k') : t.row? k = t.row? k' := by
  rw [row?, row?, h]

/-- **`Save` takes the record as it is**: it has its ids, they fit their columns, and its winner is not taken
for nobody. -/
structure Storable (collation : Collation) (record : RoomSnapshotRecord) : Prop where
  named : record.matchId ≠ "" ∧ record.roomId ≠ ""
  ids : ∀ id ∈ [record.matchId, record.roomId, record.player0.playerId, record.player1.playerId,
    record.winnerId], id.length ≤ kIdWidth
  winner : record.winnerId ≠ "" → collation record.winnerId ≠ collation ""

instance (collation : Collation) (record : RoomSnapshotRecord) : Decidable (Storable collation record) :=
  decidable_of_iff ((record.matchId ≠ "" ∧ record.roomId ≠ "") ∧
      (∀ id ∈ [record.matchId, record.roomId, record.player0.playerId, record.player1.playerId,
        record.winnerId], id.length ≤ kIdWidth) ∧
      (record.winnerId ≠ "" → collation record.winnerId ≠ collation ""))
    ⟨fun h => ⟨h.1, h.2.1, h.2.2⟩, fun h => ⟨h.named, h.ids, h.winner⟩⟩

/-- It is stored with every column. -/
theorem Storable.stored (h : Storable collation record) :
    (RoomsRow.ofRecord record).stored collation = some (.ofRecord record) := by
  have hids := h.ids
  simp only [List.forall_mem_cons, List.not_mem_nil, false_imp_iff, implies_true, and_true] at hids
  obtain ⟨hmatch, hroom, h0, h1, hwinner⟩ := hids
  have hwinnerId : ∀ id ∈ (RoomsRow.ofRecord record).winnerId, id = record.winnerId ∧ record.winnerId ≠ "" := by
    intro id hid
    change (if record.winnerId = "" then none else some record.winnerId) = some id at hid
    split at hid
    · cases hid
    case isFalse hne => exact ⟨(Option.some.inj hid).symm, hne⟩
  refine RoomsRow.stored_eq ⟨?_, ?_, ?_⟩ fun id hid => ?_
  · simp only [List.forall_mem_append, List.forall_mem_cons, List.not_mem_nil, false_imp_iff, implies_true,
      and_true, Option.mem_toList]
    refine ⟨⟨hmatch, hroom, h0, h1⟩, fun id hid => ?_⟩
    rw [(hwinnerId id hid).1]
    exact hwinner
  · change record.phase.toText.length ≤ kStateWidth
    cases record.phase <;> decide
  · change record.finishReason.toText.length ≤ kFinishReasonWidth
    cases record.finishReason <;> decide
  · rw [(hwinnerId id hid).1]
    exact h.winner (hwinnerId id hid).2

/-- **No other match has a row with the room id of this record.** -/
def Free (t : RoomsTable collation) (record : RoomSnapshotRecord) : Prop :=
  ∀ row ∈ t.rows, collation row.matchId ≠ collation record.matchId →
    collation row.roomId ≠ collation record.roomId

/-- **The row of the record's match spells its id as the record does.** -/
def Spelled (t : RoomsTable collation) (record : RoomSnapshotRecord) : Prop :=
  ∀ row ∈ t.rows, collation row.matchId = collation record.matchId → row.matchId = record.matchId

/-- The row of the record's own match is the one that the statement finds, if any. -/
theorem duplicate_of_free (h : t.Free record) :
    t.duplicate (.ofRecord record) = t.row? record.matchId := by
  unfold duplicate
  change (t.row? record.matchId).or
    (t.rows.find? fun row => collation row.roomId = collation record.roomId) = t.row? record.matchId
  rcases hrow : t.row? record.matchId with - | row
  · rw [Option.none_or, List.find?_eq_none]
    intro row hmem
    simpa using h row hmem (row?_eq_none.mp hrow row hmem)
  · rfl

/-- **A row of the record's match**, after the statement; every other row is as it was. -/
def updated (collation : Collation) (record : RoomSnapshotRecord) (row : RoomsRow) : RoomsRow :=
  if collation row.matchId = collation record.matchId then (RoomsRow.ofRecord record).update row else row

/-- A match without a row gets one at the end, -/
theorem upserted_of_none (h : t.Free record) (hrow : t.row? record.matchId = none) :
    t.upserted (.ofRecord record) = t.rows ++ [.ofRecord record] := by
  rw [upserted, duplicate_of_free h, hrow]

/-- …and where there is a row, only that one is touched. -/
theorem upserted_of_some {old : RoomsRow} (h : t.Free record) (hrow : t.row? record.matchId = some old) :
    t.upserted (.ofRecord record) = t.rows.map (updated collation record) := by
  rw [upserted, duplicate_of_free h, hrow]
  dsimp only
  rw [row?_matchId hrow]
  rfl

theorem updated_of_ne (h : collation row.matchId ≠ collation record.matchId) :
    updated collation record row = row := if_neg h

/-- The statement does not change the match of a row. -/
theorem updated_matchId (record : RoomSnapshotRecord) (row : RoomsRow) :
    (updated collation record row).matchId = row.matchId := by
  rw [updated]
  split
  · exact RoomsRow.update_matchId _ _
  · rfl

/-- The row of the match keeps its room id, or takes that of the record. -/
theorem updated_roomId (collation : Collation) (record : RoomSnapshotRecord) (row : RoomsRow) :
    (updated collation record row).roomId = row.roomId ∨
      collation row.matchId = collation record.matchId ∧
        (updated collation record row).roomId = record.roomId := by
  rw [updated]
  split
  case isTrue hown =>
    rw [RoomsRow.update_eq]
    split
    · exact .inr ⟨hown, rfl⟩
    · exact .inl rfl
  case isFalse => exact .inl rfl

/-- **Of two rows that get one room id**, the one of this match would have taken it from the other. -/
theorem eq_of_updated_roomId {row' : RoomsRow} (h : t.Free record) (hrow : row ∈ t.rows) (hrow' : row' ∈ t.rows)
    (heq : collation (updated collation record row).roomId = collation (updated collation record row').roomId) :
    row = row' := by
  have hmatch : collation row.matchId = collation record.matchId →
      collation row'.matchId = collation record.matchId → row = row' := fun hown hown' =>
    List.inj_on_of_nodup_map t.matchIds hrow hrow' (hown.trans hown'.symm)
  rcases updated_roomId collation record row with hold | ⟨hown, hnew⟩ <;>
    rcases updated_roomId collation record row' with hold' | ⟨hown', hnew'⟩
  · rw [hold, hold'] at heq
    exact List.inj_on_of_nodup_map t.roomIds hrow hrow' heq
  · rw [hold, hnew'] at heq
    exact hmatch (not_not.mp fun hother => h row hrow hother heq) hown'
  · rw [hnew, hold'] at heq
    exact hmatch hown (not_not.mp fun hother => h row' hrow' hother heq.symm)
  · exact hmatch hown hown'

/-- The rows stay within both keys. -/
theorem upserted_nodup (h : t.Free record) :
    ((t.upserted (.ofRecord record)).map fun row => collation row.matchId).Nodup ∧
      ((t.upserted (.ofRecord record)).map fun row => collation row.roomId).Nodup := by
  rcases hrow : t.row? record.matchId with - | old
  · have hmatch := row?_eq_none.mp hrow
    simp only [upserted_of_none h hrow, List.map_append, List.map_cons, List.map_nil, List.nodup_append,
      List.nodup_singleton, List.mem_map, List.mem_singleton]
    refine ⟨⟨t.matchIds, trivial, ?_⟩, t.roomIds, trivial, ?_⟩
    · rintro - ⟨row, hmem, rfl⟩ - rfl
      exact hmatch row hmem
    · rintro - ⟨row, hmem, rfl⟩ - rfl
      exact h row hmem (hmatch row hmem)
  · rw [upserted_of_some h hrow, List.map_map, List.map_map]
    constructor
    · simp only [Function.comp_def, updated_matchId]
      exact t.matchIds
    · exact List.Nodup.map_on (fun row hrow row' hrow' heq => eq_of_updated_roomId h hrow hrow' heq)
        (List.Nodup.of_map _ t.matchIds)

/-- A record that can be stored, and has its room id to itself, is stored. -/
theorem save_eq (hstorable : Storable collation record) (h : t.Free record) :
    ∃ t', t.save record = (.ok, t') ∧ t'.rows = t.upserted (.ofRecord record) := by
  rw [save, if_neg (not_or.mpr hstorable.named), upsert]
  split
  case h_1 t' hupsert =>
    split at hupsert
    case h_1 hnone => cases hstorable.stored.symm.trans hnone
    case h_2 new hnew =>
      obtain rfl := Option.some.inj (hstorable.stored.symm.trans hnew)
      rw [dif_pos (upserted_nodup h)] at hupsert
      exact ⟨t', rfl, by rw [← Option.some.inj hupsert]⟩
  case h_2 hupsert =>
    split at hupsert
    case h_1 hnone => cases hstorable.stored.symm.trans hnone
    case h_2 new hnew =>
      obtain rfl := Option.some.inj (hstorable.stored.symm.trans hnew)
      rw [dif_pos (upserted_nodup h)] at hupsert
      cases hupsert

/-- Which row of the new ones a match finds. -/
theorem find?_upserted (h : t.Free record) (hspelled : t.Spelled record) (k : String) :
    (t.upserted (.ofRecord record)).find? (fun row => collation row.matchId = collation k) =
      if collation k = collation record.matchId then register (·.snapshotAtMs) (t.row? k) (.ofRecord record)
      else t.row? k := by
  rcases hrow : t.row? record.matchId with - | old
  · rw [upserted_of_none h hrow, List.find?_append]
    change (t.row? k).or _ = _
    split
    case isTrue hk =>
      rw [row?_congr hk, hrow, Option.none_or]
      exact List.find?_cons_of_pos (decide_eq_true hk.symm)
    case isFalse hk =>
      rw [List.find?_cons_of_neg fun heq => hk (of_decide_eq_true heq).symm, List.find?_nil, Option.or_none]
  · rw [upserted_of_some h hrow, List.find?_map]
    simp only [Function.comp_def, updated_matchId]
    change (t.row? k).map _ = _
    split
    case isTrue hk =>
      have hmatch := row?_matchId hrow
      have hspell := hspelled old (List.mem_of_find?_eq_some hrow) hmatch
      rw [row?_congr hk, hrow, Option.map_some, updated, if_pos hmatch, RoomsRow.update_eq_newer hspell]
      rfl
    case isFalse hk =>
      rcases hother : t.row? k with - | row
      · rfl
      · rw [Option.map_some, updated_of_ne ((row?_matchId hother).trans_ne hk)]

/-- **One save** writes the record to the register of its match, and touches no other row. -/
theorem save_free (hstorable : Storable collation record) (h : t.Free record) (hspelled : t.Spelled record) :
    (t.save record).1 = .ok ∧ ∀ k, (t.save record).2.row? k =
      if collation k = collation record.matchId then register (·.snapshotAtMs) (t.row? k) (.ofRecord record)
      else t.row? k := by
  obtain ⟨t', hsaved, hrows⟩ := save_eq hstorable h
  rw [hsaved]
  refine ⟨rfl, fun k => ?_⟩
  rw [← find?_upserted h hspelled k, ← hrows]
  rfl

/-- **The table that `RoomWorld` keeps** goes with this one, over match ids of which no two compare equal and
for as long as no two matches share a room id. -/
theorem row?_save_storeRow {rows : Table String RoomSnapshotRecord} {keys : Set String}
    (hkeys : Set.InjOn collation keys) (hrows : ∀ k ∈ keys, t.row? k = (rows.lookup k).map RoomsRow.ofRecord)
    (hkey : record.matchId ∈ keys) (hstorable : Storable collation record) (h : t.Free record)
    (hspelled : t.Spelled record) (hk : k ∈ keys) :
    (t.save record).2.row? k = ((storeRow rows record).lookup k).map RoomsRow.ofRecord := by
  have hsame : collation k = collation record.matchId ↔ k = record.matchId :=
    ⟨fun heq => hkeys hk hkey heq, fun heq => heq ▸ rfl⟩
  rw [(save_free hstorable h hspelled).2, hrows k hk, storeRow]
  simp only [hsame]
  rcases hold : rows.lookup record.matchId with - | old
  · dsimp only
    rw [Table.lookup_insert']
    split
    case isTrue hk =>
      rw [hk, hold]
      rfl
    case isFalse => rfl
  · dsimp only
    split
    case isTrue hk =>
      rw [hk, hold, Option.map_some, register, newer]
      change some (if old.snapshotAtMs ≤ record.snapshotAtMs then _ else _) = _
      split
      · rw [Table.lookup_insert', if_pos rfl]
        rfl
      · rw [hold]
        rfl
    case isFalse hk =>
      split
      · rw [Table.lookup_insert', if_neg hk]
      · rfl

/-! ## Many saves

The saves of one match, in any order, end with the newest. -/

/-- The table after saving some records, in their order. -/
def saves (t : RoomsTable collation) (records : List RoomSnapshotRecord) : RoomsTable collation :=
  records.foldl (fun t record => (t.save record).2) t

/-- A save is in no other record's way, if both are of one match. -/
theorem free_save {record' : RoomSnapshotRecord} (hstorable : Storable collation record) (h : t.Free record)
    (hspelled : t.Spelled record) (hmatch : record'.matchId = record.matchId) (h' : t.Free record') :
    (t.save record).2.Free record' ∧ (t.save record).2.Spelled record' := by
  obtain ⟨-, hone⟩ := save_free hstorable h hspelled
  refine ⟨fun row hrow hne => ?_, fun row hrow hsame => ?_⟩
  · have hkept := hone row.matchId
    rw [if_neg (hmatch ▸ hne), mem_iff_row?.mp hrow] at hkept
    exact h' row (mem_iff_row?.mpr hkept.symm) hne
  · have hwritten := hone row.matchId
    rw [if_pos (hmatch ▸ hsame), mem_iff_row?.mp hrow] at hwritten
    rcases hold : t.row? row.matchId with - | old
    · rw [hold] at hwritten
      rw [Option.some.inj hwritten]
      exact hmatch.symm
    · rw [hold, register, newer] at hwritten
      have hspell := hspelled old (List.mem_of_find?_eq_some hold)
        ((row?_matchId hold).trans (hmatch ▸ hsame))
      rw [Option.some.inj hwritten, hmatch]
      split
      · rfl
      · exact hspell

/-- Saves for one match are writes to one register. -/
theorem row?_saves {matchId : String} {records : List RoomSnapshotRecord}
    (hmatch : ∀ record ∈ records, record.matchId = matchId)
    (hstorable : ∀ record ∈ records, Storable collation record)
    (hfree : ∀ record ∈ records, t.Free record ∧ t.Spelled record) (k : String) :
    (t.saves records).row? k = if collation k = collation matchId then
      (records.map RoomsRow.ofRecord).foldl (register (·.snapshotAtMs)) (t.row? k) else t.row? k := by
  induction records generalizing t with
  | nil => exact (ite_self _).symm
  | cons record records ih =>
    rw [List.forall_mem_cons] at hmatch hstorable hfree
    obtain ⟨-, hone⟩ := save_free hstorable.1 hfree.1.1 hfree.1.2
    have hother : ∀ record' ∈ records, (t.save record).2.Free record' ∧ (t.save record).2.Spelled record' :=
      fun record' hrecord' => free_save hstorable.1 hfree.1.1 hfree.1.2
        ((hmatch.2 record' hrecord').trans hmatch.1.symm) (hfree.2 record' hrecord').1
    change ((t.save record).2.saves records).row? k = _
    rw [ih hmatch.2 hstorable.2 hother, hone, hmatch.1]
    split
    case isTrue hk => rfl
    case isFalse => rfl

/-- **The newest snapshot stays** — in whatever order the records of a match are saved, its row is the
newest record, with every column; no other row changes.  The columns take the records as they are, and no
other match has a row with one of their room ids. -/
theorem save_newest {matchId : String} (records order : List RoomSnapshotRecord)
    {newest : RoomSnapshotRecord} (hnew : t.row? matchId = none)
    (hmatch : ∀ record ∈ records, record.matchId = matchId)
    (hstorable : ∀ record ∈ records, Storable collation record)
    (hfree : ∀ record ∈ records, t.Free record)
    (hdistinct : (records.map (·.snapshotAtMs)).Nodup) (horder : order.Perm records)
    (hnewest : newest ∈ records) (hmax : ∀ record ∈ records, record.snapshotAtMs ≤ newest.snapshotAtMs) :
    (t.saves order).row? matchId = some (.ofRecord newest) ∧
      ∀ k, collation k ≠ collation matchId → (t.saves order).row? k = t.row? k := by
  have hspelled : ∀ record ∈ records, t.Spelled record := fun record hrecord row hrow hsame =>
    absurd ((hmatch record hrecord) ▸ hsame) (row?_eq_none.mp hnew row hrow)
  have hrow := row?_saves (t := t) (fun record h => hmatch record (horder.mem_iff.mp h))
    (fun record h => hstorable record (horder.mem_iff.mp h)) fun record h =>
      ⟨hfree record (horder.mem_iff.mp h), hspelled record (horder.mem_iff.mp h)⟩
  refine ⟨?_, fun k hk => (hrow k).trans (if_neg hk)⟩
  rw [hrow, if_pos rfl, hnew]
  have hmem : ∀ {row}, row ∈ order.map RoomsRow.ofRecord → ∃ record ∈ records, RoomsRow.ofRecord record = row := by
    intro row h
    obtain ⟨record, hrecord, rfl⟩ := List.mem_map.mp h
    exact ⟨record, horder.mem_iff.mp hrecord, rfl⟩
  refine foldl_register (List.mem_map_of_mem (horder.mem_iff.mpr hnewest)) (fun row h => ?_) fun row h heq => ?_
  · obtain ⟨record, hrecord, rfl⟩ := hmem h
    exact hmax record hrecord
  · obtain ⟨record, hrecord, rfl⟩ := hmem h
    rw [List.inj_on_of_nodup_map hdistinct hrecord hnewest heq]

/-- A snapshot of a game, by its time. -/
def snapshotOf (matchId roomId : String) (frame snapshotAtMs : Int) : RoomSnapshotRecord :=
  ⟨matchId, roomId, .playing, frame, ⟨"alice", 80, true⟩, ⟨"bob", 50, true⟩, "", .none, 1000, 0, snapshotAtMs⟩

/-- A table with a row of another match. -/
def otherMatch : RoomsTable caseFolded :=
  ⟨[.ofRecord (snapshotOf "m-0" "r-0" 7 900)], by decide, by decide, by decide⟩

theorem save_newest_late :
    (otherMatch.saves [snapshotOf "m-1" "r-1" 20 3000, snapshotOf "m-1" "r-1" 0 1000,
      snapshotOf "m-1" "r-1" 10 2000]).row? "m-1" = some (.ofRecord (snapshotOf "m-1" "r-1" 20 3000)) :=
  (save_newest (t := otherMatch) [snapshotOf "m-1" "r-1" 0 1000, snapshotOf "m-1" "r-1" 10 2000,
      snapshotOf "m-1" "r-1" 20 3000] _ (by decide) (by decide) (by decide) (by unfold Free; decide) (by decide)
    (by decide) (by decide) (by decide)).1

/-- The newest record is refused where it has no room id, or one that is too long for its column; and where
another match has a row with its room id, in whatever case, that row is overwritten, but for its match. -/
theorem not_save_newest :
    (otherMatch.saves [snapshotOf "m-1" "r-1" 10 1000, snapshotOf "m-1" "" 20 2000]).row? "m-1" =
        some (.ofRecord (snapshotOf "m-1" "r-1" 10 1000)) ∧
      (otherMatch.saves [snapshotOf "m-1" "r-1" 10 1000,
          snapshotOf "m-1" (String.ofList (List.replicate 65 'r')) 20 2000]).row? "m-1" =
        some (.ofRecord (snapshotOf "m-1" "r-1" 10 1000)) ∧
      (otherMatch.saves [snapshotOf "m-1" "R-0" 10 1000]).row? "m-1" = none ∧
      (otherMatch.saves [snapshotOf "m-1" "R-0" 10 1000]).row? "m-0" =
        some (.ofRecord (snapshotOf "m-0" "R-0" 10 1000)) := by
  decide +kernel

end RoomsTable

end RealtimeGame.Room
