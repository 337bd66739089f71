import RealtimeGame.Room.Registry
import RealtimeGame.Room.ResultAgreement

/-!
# Room/Index — three tables about the same rooms

The registry keeps the rooms, an index from matches to rooms, and what was saved of a match.  Every
critical section keeps them consistent (`RoomManager.Consistent`), and so a retried `Create` finds the
room that the first one made, for as long as that is not recycled (`index_law`).
-/

open Library

namespace RealtimeGame.Room

/-! ## One registry

Rooms and index point to each other, and the sections keep it so. -/

namespace RoomManager

variable {m m' : RoomManager} {nowMs : Int}

/-- **The three tables agree.** -/
structure Consistent (m : RoomManager) : Prop where
  key : ∀ x r, m.rooms.lookup x = some r → r.roomId = x
  validMatch : ∀ x r, m.rooms.lookup x = some r → validId r.matchId = true
  index : ∀ k x, m.matchIndex.lookup k = some x ↔ ∃ r, m.rooms.lookup x = some r ∧ r.matchId = k
  state : ∀ k, k ∈ m.snapshotState → k ∈ m.matchIndex

namespace Consistent

theorem start : Consistent {} where
  key _ _ h := by cases h
  validMatch _ _ h := by cases h
  index k x := by
    constructor
    · intro h
      cases h
    · rintro ⟨r, h, -⟩
      cases h
  state _ h := by cases h

/-- A match that has a room is in the index. -/
theorem mem_index (h : m.Consistent) {x : String} {r : BattleRoom} (hr : m.rooms.lookup x = some r) :
    r.matchId ∈ m.matchIndex :=
  AList.lookup_isSome.mp (Option.isSome_iff_exists.mpr ⟨x, (h.index _ x).mpr ⟨r, hr, rfl⟩⟩)

/-- A match has one room. -/
theorem oneRoom (h : m.Consistent) {x y : String} {r s : BattleRoom} (hr : m.rooms.lookup x = some r)
    (hs : m.rooms.lookup y = some s) (hmatch : r.matchId = s.matchId) : x = y ∧ r = s := by
  obtain rfl : x = y := Option.some.inj
    (((h.index _ x).mpr ⟨r, hr, hmatch⟩).symm.trans ((h.index _ y).mpr ⟨s, hs, rfl⟩))
  exact ⟨rfl, Option.some.inj (hr.symm.trans hs)⟩

/-- What is remembered is remembered of a match that has a room. -/
theorem room_of_state (h : m.Consistent) {k : String} {state : SnapshotState}
    (hstate : m.snapshotState.lookup k = some state) : ∃ x r, m.rooms.lookup x = some r ∧ r.matchId = k := by
  have hmem : k ∈ m.snapshotState := AList.lookup_isSome.mp (Option.isSome_iff_exists.mpr ⟨state, hstate⟩)
  obtain ⟨x, hx⟩ := Option.isSome_iff_exists.mp (AList.lookup_isSome.mpr (h.state k hmem))
  exact ⟨x, (h.index k x).mp hx⟩

/-- The rooms change, each for itself, and keep their ids. -/
theorem map (h : m.Consistent) {f : String → BattleRoom → BattleRoom}
    (hf : ∀ x r, (f x r).roomId = r.roomId ∧ (f x r).matchId = r.matchId)
    (hrooms : ∀ x, m'.rooms.lookup x = (m.rooms.lookup x).map (f x))
    (hindex : m'.matchIndex = m.matchIndex)
    (hstate : ∀ k, k ∈ m'.snapshotState → k ∈ m.snapshotState ∨
      ∃ x r, m.rooms.lookup x = some r ∧ r.matchId = k) : m'.Consistent where
  key x r hr := by
    rw [hrooms, Option.map_eq_some_iff] at hr
    obtain ⟨r₀, hr₀, rfl⟩ := hr
    exact (hf x r₀).1.trans (h.key x r₀ hr₀)
  validMatch x r hr := by
    rw [hrooms, Option.map_eq_some_iff] at hr
    obtain ⟨r₀, hr₀, rfl⟩ := hr
    rw [(hf x r₀).2]
    exact h.validMatch x r₀ hr₀
  index k x := by
    rw [hindex, h.index, hrooms]
    simp only [Option.map_eq_some_iff]
    constructor
    · rintro ⟨r, hr, rfl⟩
      exact ⟨f x r, ⟨r, hr, rfl⟩, (hf x r).2⟩
    · rintro ⟨-, ⟨r, hr, rfl⟩, rfl⟩
      exact ⟨r, hr, (hf x r).2.symm⟩
  state k hk := by
    rw [hindex]
    rcases hstate k hk with hold | ⟨x, r, hr, rfl⟩
    · exact h.state k hold
    · exact h.mem_index hr

/-- A match is recycled with its room, and with no other. -/
theorem mem_expiredMatches {k : String} : k ∈ m.expiredMatches nowMs ↔
    ∃ x r, m.rooms.lookup x = some r ∧ r.isExpired nowMs = true ∧ r.matchId = k := by
  simp only [expiredMatches, List.mem_map, List.mem_filter, Prod.exists, Table.mem_toPairs, and_assoc]

theorem reapExpired (h : m.Consistent) : (m.reapExpired nowMs).Consistent where
  key x r hr := by
    rw [lookup_reapExpired, Option.filter_eq_some_iff] at hr
    exact h.key x r hr.1
  validMatch x r hr := by
    rw [lookup_reapExpired, Option.filter_eq_some_iff] at hr
    exact h.validMatch x r hr.1
  index k x := by
    rw [lookup_reapExpired, RoomManager.reapExpired, Table.lookup_foldl_erase]
    constructor
    · intro hk
      split at hk
      · cases hk
      case isFalse halive =>
        obtain ⟨r, hr, rfl⟩ := (h.index k x).mp hk
        refine ⟨r, Option.filter_eq_some_iff.mpr ⟨hr, ?_⟩, rfl⟩
        rw [Bool.not_eq_true']
        exact Bool.eq_false_iff.mpr fun hexpired =>
          halive (mem_expiredMatches.mpr ⟨x, r, hr, hexpired, rfl⟩)
    · rintro ⟨r, hr, rfl⟩
      obtain ⟨hr, halive⟩ := Option.filter_eq_some_iff.mp hr
      have hindex := (h.index r.matchId x).mpr ⟨r, hr, rfl⟩
      rw [if_neg]
      · exact hindex
      · -- A recycled room of the same match would be this room.
        rintro hmem
        obtain ⟨y, s, hs, hexpired, hmatch⟩ := mem_expiredMatches.mp hmem
        obtain ⟨-, rfl⟩ := h.oneRoom hs hr hmatch
        rw [hexpired] at halive
        cases halive
  state k hk := by
    obtain ⟨halive, hk⟩ := Table.mem_foldl_erase.mp hk
    exact Table.mem_foldl_erase.mpr ⟨halive, h.state k hk⟩

/-- A room is registered where there was none, for a match without one. -/
theorem insert (h : m.Consistent) {r : BattleRoom} (hvalid : validId r.matchId = true)
    (hroom : m.rooms.lookup r.roomId = none) (hmatch : m.matchIndex.lookup r.matchId = none)
    (hrooms : m'.rooms = m.rooms.insert r.roomId r)
    (hindex : ∀ k, m'.matchIndex.lookup k = if k = r.matchId then some r.roomId else m.matchIndex.lookup k)
    (hstate : m'.snapshotState = m.snapshotState) : m'.Consistent where
  key x s hs := by
    rw [hrooms, Table.lookup_insert'] at hs
    split at hs
    case isTrue heq =>
      obtain rfl := Option.some.inj hs
      exact heq.symm
    case isFalse => exact h.key x s hs
  validMatch x s hs := by
    rw [hrooms, Table.lookup_insert'] at hs
    split at hs
    case isTrue heq =>
      obtain rfl := Option.some.inj hs
      exact hvalid
    case isFalse => exact h.validMatch x s hs
  index k x := by
    rw [hindex, hrooms, Table.lookup_insert']
    constructor
    · intro hk
      split at hk
      case isTrue heq =>
        obtain rfl := Option.some.inj hk
        rw [if_pos rfl]
        exact ⟨r, rfl, heq.symm⟩
      case isFalse =>
        obtain ⟨s, hs, hsk⟩ := (h.index k x).mp hk
        refine ⟨s, ?_, hsk⟩
        rw [if_neg]
        · exact hs
        · rintro rfl
          cases hroom.symm.trans hs
    · rintro ⟨s, hs, rfl⟩
      split at hs
      case isTrue heq =>
        obtain rfl := Option.some.inj hs
        rw [if_pos rfl, heq]
      case isFalse =>
        have hold := (h.index s.matchId x).mpr ⟨s, hs, rfl⟩
        rw [if_neg]
        · exact hold
        · intro heq
          rw [heq] at hold
          cases hmatch.symm.trans hold
  state k hk := by
    rw [hstate] at hk
    have hold := AList.lookup_isSome.mpr (h.state k hk)
    rw [← AList.lookup_isSome, hindex]
    split
    · rfl
    · exact hold

/-- An index entry leads to a room. -/
theorem lookup_index (h : m.Consistent) {k : String}
    (hnone : (m.matchIndex.lookup k).bind m.rooms.lookup = none) : m.matchIndex.lookup k = none := by
  rcases hk : m.matchIndex.lookup k with - | x
  · rfl
  · obtain ⟨r, hr, -⟩ := (h.index k x).mp hk
    rw [hk, Option.bind_some, hr] at hnone
    cases hnone

/-- There is no entry to be dropped. -/
theorem eraseIndex (h : m.Consistent) {k : String} (hnone : m.matchIndex.lookup k = none) :
    Consistent { m with matchIndex := m.matchIndex.erase k } := by
  have hsame : ∀ k', (m.matchIndex.erase k).lookup k' = m.matchIndex.lookup k' := by
    intro k'
    rw [Table.lookup_erase']
    split
    case isTrue heq => rw [heq, hnone]
    case isFalse => rfl
  exact
    { key := h.key
      validMatch := h.validMatch
      index := fun k' x => (hsame k').symm ▸ h.index k' x
      state := fun k' hk' => by
        rw [← AList.lookup_isSome, hsame, AList.lookup_isSome]
        exact h.state k' hk' }

/-- **`Create` keeps the tables consistent.** -/
theorem create (h : m.Consistent) {matchId : String} {playerIds : List String} {roomId : String}
    (hfresh : m.rooms.lookup roomId = none) :
    (m.create nowMs matchId playerIds roomId).2.2.Consistent := by
  unfold RoomManager.create
  split; · exact h
  case isFalse hargs =>
    simp only [BattleRoom.createArgsOk, Bool.not_eq_true', Bool.not_eq_false, Bool.and_eq_true] at hargs
    split; · exact h
    case h_2 hnone =>
      have hindex := h.lookup_index hnone
      dsimp only
      split; · exact h.eraseIndex hindex
      split; · exact h.eraseIndex hindex
      rw [if_neg (by rw [hfresh]; decide)]
      refine h.insert (r := .new roomId matchId playerIds nowMs) hargs.1.1 hfresh hindex rfl
        (fun k => ?_) rfl
      rw [Table.lookup_insert', Table.lookup_erase']
      split
      case isTrue heq => exact (if_pos heq).symm
      case isFalse hne => exact (if_neg hne).symm

/-- Snapshots are noted under the matches of the rooms they are of. -/
theorem mem_foldl_collectSnapshot {rooms : List BattleRoom}
    {acc : List RoomSnapshotRecord × Table String SnapshotState} {k : String}
    (hk : k ∈ (rooms.foldl (collectSnapshot nowMs) acc).2) :
    k ∈ acc.2 ∨ ∃ r ∈ rooms, r.matchId = k := by
  induction rooms generalizing acc with
  | nil => exact .inl hk
  | cons r rooms ih =>
    rcases ih hk with hk | ⟨s, hs, rfl⟩
    · unfold collectSnapshot at hk
      dsimp only at hk
      split at hk <;> rcases AList.mem_insert _ |>.mp hk with rfl | hk
      · exact .inr ⟨r, List.mem_cons_self, rfl⟩
      · exact .inl hk
      · exact .inr ⟨r, List.mem_cons_self, rfl⟩
      · exact .inl hk
    · exact .inr ⟨s, List.mem_cons_of_mem _ hs, rfl⟩

theorem tickLocked (h : m.Consistent) (stores : RoomStores) :
    (m.tickLocked nowMs stores).2.Consistent := by
  rw [tickLocked_snd]
  refine reapExpired (h.map (f := fun _ r => (r.tick nowMs).2)
    (fun _ r => ⟨(BattleRoom.Becomes.tick (r := r)).roomId, (BattleRoom.Becomes.tick (r := r)).matchId⟩)
    (fun x => Table.lookup_mapVals _ _ _) rfl fun k hk => ?_)
  simp only [collected] at hk
  split at hk
  · refine (mem_foldl_collectSnapshot hk).imp_right ?_
    rintro ⟨r', hmem, rfl⟩
    obtain ⟨x, r, hr, rfl⟩ := m.mem_ticked nowMs |>.mp hmem
    exact ⟨x, r, hr, (BattleRoom.Becomes.tick (r := r)).matchId.symm⟩
  · exact .inl hk

theorem abortUnfinishedLocked (h : m.Consistent) : (m.abortUnfinishedLocked nowMs).2.Consistent := by
  refine h.map (f := fun _ r => if r.phase.unfinished then r.abort nowMs else r) (fun _ r => ?_)
    (fun x => Table.lookup_mapVals _ _ _) rfl fun k hk => ?_
  · split <;> exact ⟨rfl, rfl⟩
  · have hfold : ∀ (rooms : List BattleRoom) (t : Table String SnapshotState),
        k ∈ rooms.foldl (fun t room => t.insert room.matchId ⟨nowMs, room.phase, true⟩) t →
        k ∈ t ∨ ∃ r ∈ rooms, r.matchId = k := by
      intro rooms
      induction rooms with
      | nil => exact fun t hk => .inl hk
      | cons r rooms ih =>
        intro t hk
        rcases ih _ hk with hk | ⟨s, hs, rfl⟩
        · rcases (AList.mem_insert _).mp hk with rfl | hk
          · exact .inr ⟨r, List.mem_cons_self, rfl⟩
          · exact .inl hk
        · exact .inr ⟨s, List.mem_cons_of_mem _ hs, rfl⟩
    refine (hfold _ _ hk).imp_right ?_
    rintro ⟨r', hmem, rfl⟩
    obtain ⟨r, hr, rfl⟩ := List.mem_map.mp hmem
    obtain ⟨e, hpair, rfl⟩ := List.mem_map.mp (List.mem_filter.mp hr).1
    exact ⟨e.1, e.2, Table.mem_toPairs.mp hpair, rfl⟩

/-- One row keeps the tables consistent. -/
theorem restoreRow {acc : List RoomSnapshotRecord × RoomManager} (h : acc.2.Consistent)
    {row : RoomSnapshotRow} (hrow : row.problem = "" → validId row.record.matchId = true) (nowMs : Int) :
    (RoomManager.restoreRow nowMs acc row).2.Consistent := by
  cases rowResult nowMs row acc with
  | rejected _ heq | known heq => rwa [heq]
  | made room hgood hroom hnewRoom hnewMatch heq =>
    rw [heq]
    have hvalid : validId room.matchId = true := by
      rw [RoomWorld.restoreFrom_eq_some hroom]
      exact hrow hgood
    exact h.insert hvalid hnewRoom hnewMatch rfl (fun k => Table.lookup_insert' _ _ _ _) rfl

/-- **`Restore` keeps the tables consistent**. -/
theorem restoreLocked (h : m.Consistent) (nowMs : Int) (rows : List RoomSnapshotRow)
    (hrows : ∀ row ∈ rows, row.problem = "" → validId row.record.matchId = true) :
    (m.restoreLocked nowMs rows).2.Consistent :=
  List.foldlRecOn (motive := fun acc : _ × RoomManager => acc.2.Consistent) rows
    (RoomManager.restoreRow nowMs) h fun _ hacc row hrow => hacc.restoreRow (hrows row hrow) nowMs

end Consistent

end RoomManager

/-! ## A service

The sections of all threads, one after another. -/

/-- A row that is not rejected has a known phase, and passes the check. -/
theorem RoomsRow.decode_eq (row : RoomsRow) (h : row.decode.problem = "") :
    parseRoomPhase row.state = some row.decode.record.phase ∧
      row.decode.record.matchId = row.matchId ∧ validateRoomSnapshot row.decode.record = "" := by
  have happend : ∀ a b : String, a ≠ "" → a ++ b ≠ "" := fun a b ha heq => by
    simp_all
  unfold decode at h ⊢
  split at h
  case h_1 => exact absurd h (happend _ _ (by decide))
  case h_2 phase hphase =>
    split at h
    case h_1 => exact absurd h (happend _ _ (by decide))
    case h_2 reason hreason =>
      exact ⟨hphase, rfl, h⟩

/-- It is of a match with an acceptable id. -/
theorem RoomsRow.validMatch_of_decode (row : RoomsRow) (h : row.decode.problem = "") :
    validId row.decode.record.matchId = true := by
  have hmissing : "match_id 缺失或超长" ≠ "" := by decide
  have hcheck := (row.decode_eq h).2.2
  rcases hvalid : validId row.decode.record.matchId with - | -
  · rw [validateRoomSnapshot, if_pos (by rw [hvalid]; rfl)] at hcheck
    exact absurd hcheck hmissing
  · rfl

/-- A step of a service whose `Restore` may be called at any time, on the rows of any table. -/
inductive ServiceOp
  | act (a : Action)
  | restore (nowMs : Int) (rows : List RoomsRow)
  deriving DecidableEq

namespace RoomSystem

variable {stores : RoomStores} {s s' : RoomSystem} {x : String} {r : BattleRoom} {op : ServiceOp}
  {ops : List ServiceOp}

/-- **One step.**  The id of a restored room is noted with those handed out. -/
def serve (stores : RoomStores) (s : RoomSystem) : ServiceOp → RoomSystem
  | .act a => s.next stores a
  | .restore nowMs rows =>
    if stores.hasSnapshotReader then
      let loaded := (RoomsRow.loadUnfinished stores.collation rows).getD []
      let restored := s.manager.restoreLocked nowMs loaded
      { manager := restored.2
        threads := s.threads ++ if stores.hasSnapshotWriter then
          [.reject (restored.1.map fun row => RoomManager.rejectedRecord row nowMs)] else []
        created := restored.2.rooms.toPairs.foldl (fun t e => t.insert e.1 e.2.matchId) s.created
        log := s.log }
    else s

/-- The generator returns neither an id that it returned before, nor that of a restored room. -/
def FreshOp (s : RoomSystem) : ServiceOp → Prop
  | .act a => s.Fresh a
  | .restore _ _ => True

instance (s : RoomSystem) : DecidablePred s.FreshOp
  | .act a => inferInstanceAs (Decidable (s.Fresh a))
  | .restore _ _ => .isTrue trivial

def Serve (stores : RoomStores) (s : RoomSystem) (op : ServiceOp) (s' : RoomSystem) : Prop :=
  s.FreshOp op ∧ s' = s.serve stores op

/-- `Restore` does not touch the rooms that are there. -/
theorem room?_restore (hr : s.room? x = some r) (stores : RoomStores) (nowMs : Int) (rows : List RoomsRow) :
    (s.serve stores (.restore nowMs rows)).room? x = some r := by
  simp only [serve]
  split
  · exact RoomManager.lookup_restoreLocked hr nowMs _
  · exact hr

/-- **Room `x` is recycled by this step**: it is due, and the step recycles what is due. -/
def Reaps (s : RoomSystem) (x : String) : ServiceOp → Prop
  | .act a => ∃ r, s.room? x = some r ∧ (r.calls (s.roomCalls x a)).reapedBy a = true
  | .restore _ _ => False

/-- **The tables agree, and every room has its id noted.** -/
structure Registered (s : RoomSystem) : Prop where
  consistent : s.manager.Consistent
  noted : ∀ x r, s.room? x = some r → x ∈ s.created

theorem call_ids (r : BattleRoom) (c : BattleRoom.Call) :
    (r.call c).roomId = r.roomId ∧ (r.call c).matchId = r.matchId := by
  have hbecomes : ∀ r', r.Becomes r' → r'.roomId = r.roomId ∧ r'.matchId = r.matchId :=
    fun r' h => ⟨h.roomId, h.matchId⟩
  cases c with
  | op op =>
    cases op with
    | join playerId nowMs => exact hbecomes _ (.join playerId)
    | submitInput playerId kind => exact hbecomes _ (.submitInput playerId kind)
    | setPresence playerId online nowMs => exact hbecomes _ (.setPresence playerId online)
    | tick nowMs => exact hbecomes _ .tick
    | markResultFailed nowMs => exact hbecomes _ .markResultFailed
  | markResultPersisted =>
    unfold BattleRoom.call BattleRoom.markResultPersisted
    dsimp only
    split <;> exact ⟨rfl, rfl⟩
  | abortUnfinishedGames nowMs =>
    unfold BattleRoom.call
    dsimp only
    split <;> exact ⟨rfl, rfl⟩

theorem calls_ids (r : BattleRoom) (cs : List BattleRoom.Call) :
    (r.calls cs).roomId = r.roomId ∧ (r.calls cs).matchId = r.matchId :=
  BattleRoom.calls_invariant (P := fun r' => r'.roomId = r.roomId ∧ r'.matchId = r.matchId)
    (fun r' c h => ⟨(call_ids r' c).1.trans h.1, (call_ids r' c).2.trans h.2⟩) ⟨rfl, rfl⟩ cs

/-- Calls to the rooms, each for itself, keep the tables consistent. -/
theorem consistent_calls {m m' : RoomManager} (cs : String → List BattleRoom.Call) (h : m.Consistent)
    (hrooms : ∀ x, m'.rooms.lookup x = (m.rooms.lookup x).map (·.calls (cs x)))
    (hindex : m'.matchIndex = m.matchIndex) (hstate : m'.snapshotState = m.snapshotState) :
    m'.Consistent :=
  h.map (f := fun x r => r.calls (cs x)) (fun x r => calls_ids r (cs x)) hrooms hindex
    fun _ hk => .inl (hstate ▸ hk)

/-- A thread does not touch the index, nor what was saved of a match. -/
theorem tables_resume (pc : Pc) (answer : Answer) (m : RoomManager) :
    (pc.resume stores answer m).2.1.matchIndex = m.matchIndex ∧
      (pc.resume stores answer m).2.1.snapshotState = m.snapshotState := by
  rcases pc with ⟨nowMs, - | ⟨record, records⟩, succeeded, failed, toPersist⟩ |
    ⟨nowMs, - | ⟨roomId, toPersist⟩⟩ | ⟨nowMs, roomId, record, toPersist⟩ |
    ⟨nowMs, roomId, record, ok, toPersist⟩ | matchId | (- | ⟨record, records⟩) | -
  case persist.cons => simp only [Pc.resume]; split <;> exact ⟨rfl, rfl⟩
  case write => simp only [Pc.resume]; split <;> exact ⟨rfl, rfl⟩
  case read => simp only [Pc.resume]; split <;> exact ⟨rfl, rfl⟩
  all_goals exact ⟨rfl, rfl⟩

/-- **A room stays**, for its match, until it is recycled. -/
theorem room?_kept (hstep : Serve stores s op s') (hquiet : ¬s.Reaps x op) (hr : s.room? x = some r) :
    ∃ r', s'.room? x = some r' ∧ r'.matchId = r.matchId := by
  obtain ⟨-, rfl⟩ := hstep
  cases op with
  | act a =>
    refine ⟨_, (room?_next hr a).trans (if_neg fun hreaped => hquiet ⟨r, hr, hreaped⟩), ?_⟩
    exact (calls_ids r _).2
  | restore nowMs rows => exact ⟨r, room?_restore hr stores nowMs rows, rfl⟩

theorem room?_kept_run (hrun : Run (Serve stores) s ops s')
    (hquiet : ∀ pre op post m, ops = pre ++ op :: post → Run (Serve stores) s pre m → ¬m.Reaps x op)
    (hr : s.room? x = some r) : ∃ r', s'.room? x = some r' ∧ r'.matchId = r.matchId :=
  hrun.invariant_of_guard (I := fun m => ∃ r', m.room? x = some r' ∧ r'.matchId = r.matchId)
    (G := fun m op => ¬m.Reaps x op)
    (fun m op m' hm hquiet hstep => by
      obtain ⟨r', hr', hmatch⟩ := hm
      obtain ⟨r'', hr'', hmatch'⟩ := room?_kept hstep hquiet hr'
      exact ⟨r'', hr'', hmatch'.trans hmatch⟩)
    hquiet ⟨r, hr, rfl⟩

namespace Registered

theorem start : Registered {} where
  consistent := .start
  noted _ _ h := by cases h

/-- Every action keeps the tables consistent. -/
theorem consistent_next (h : s.Registered) {a : Action} (hfresh : s.Fresh a) :
    (s.next stores a).manager.Consistent := by
  have hroom : ∀ x, a.reapsAt = none →
      (∀ matchId playerIds nowMs roomId, a ≠ .create matchId playerIds nowMs roomId) →
      (s.next stores a).manager.rooms.lookup x =
        (s.manager.rooms.lookup x).map (·.calls (s.roomCalls x a)) := by
    intro x hnone hcreate
    have heq := room?_next_of_not_create stores s x hcreate
    simp only [BattleRoom.reapedBy, hnone, Option.any_none, Bool.not_false] at heq
    refine heq.trans ?_
    rcases hr : s.room? x with - | r <;> rw [room?] at hr <;> rw [hr] <;> rfl
  cases a with
  | create matchId playerIds nowMs roomId =>
    refine h.consistent.create ?_
    rcases hr : s.manager.rooms.lookup roomId with - | r
    · rfl
    · exact absurd (h.noted roomId r hr) hfresh
  | join roomId playerId nowMs =>
    refine consistent_calls (s.roomCalls · _) h.consistent
      (fun x => hroom x rfl fun _ _ _ _ heq => by cases heq) ?_ ?_ <;>
      simp only [next, RoomManager.join] <;> split <;> rfl
  | submitInput roomId playerId kind =>
    refine consistent_calls (s.roomCalls · _) h.consistent
      (fun x => hroom x rfl fun _ _ _ _ heq => by cases heq) ?_ ?_ <;>
      simp only [next, RoomManager.submitInput] <;> split <;> rfl
  | setPresence roomId playerId online nowMs =>
    refine consistent_calls (s.roomCalls · _) h.consistent
      (fun x => hroom x rfl fun _ _ _ _ heq => by cases heq) ?_ ?_ <;>
      simp only [next, RoomManager.setPresence] <;> split <;> rfl
  | getState roomId nowMs => exact h.consistent.reapExpired
  | getSnapshotsSince roomId sinceFrame nowMs =>
    rw [next, RoomManager.getSnapshotsSince_snd]
    exact h.consistent.reapExpired
  | getResult matchId nowMs =>
    rw [manager_getResult]
    split
    · exact h.consistent.reapExpired
    · exact h.consistent
  | tick nowMs => exact h.consistent.tickLocked stores
  | abortUnfinishedGames nowMs => exact h.consistent.abortUnfinishedLocked
  | beginShutdown =>
    exact consistent_calls (fun _ => []) h.consistent
      (fun x => hroom x rfl fun _ _ _ _ heq => by cases heq) rfl rfl
  | resume thread answer =>
    refine consistent_calls (s.roomCalls · _) h.consistent
      (fun x => hroom x rfl fun _ _ _ _ heq => by cases heq) ?_ ?_ <;>
      simp only [next] <;> split
    · rfl
    · exact (tables_resume _ _ _).1
    · rfl
    · exact (tables_resume _ _ _).2

/-- An id stays noted. -/
theorem created_next (hx : x ∈ s.created) (a : Action) : x ∈ (s.next stores a).created := by
  cases a with
  | create matchId playerIds nowMs roomId =>
    simp only [next]
    split
    · exact (AList.mem_insert _).mpr (.inr hx)
    · exact hx
  | getResult matchId nowMs =>
    simp only [next]
    split
    · exact hx
    · split <;> exact hx
  | resume thread answer =>
    simp only [next]
    split <;> exact hx
  | _ => exact hx

theorem act (h : s.Registered) {a : Action} (hfresh : s.Fresh a) : (s.next stores a).Registered where
  consistent := h.consistent_next hfresh
  noted x r' hr' := by
    rcases hr : s.room? x with - | r
    · obtain ⟨matchId, playerIds, nowMs, rfl, hmakes, -⟩ := room?_next_new hr hr'
      simp only [next, hmakes, if_true]
      exact (AList.mem_insert _).mpr (.inl rfl)
    · exact created_next (h.noted x r hr) a

theorem restore (h : s.Registered) (stores : RoomStores) (nowMs : Int) (rows : List RoomsRow) :
    (s.serve stores (.restore nowMs rows)).Registered := by
  simp only [serve]
  split
  · refine ⟨h.consistent.restoreLocked nowMs _ fun row hrow hgood => ?_, fun x r hr => ?_⟩
    · obtain ⟨row, -, -, rfl⟩ := RoomsRow.mem_loadUnfinished hrow
      exact row.validMatch_of_decode hgood
    · exact Table.mem_foldl_insert.mpr (.inr ⟨(x, r), Table.mem_toPairs.mpr hr, rfl⟩)
  · exact h

theorem serve (h : s.Registered) (hstep : Serve stores s op s') : s'.Registered := by
  obtain ⟨hfresh, rfl⟩ := hstep
  cases op with
  | act a => exact h.act hfresh
  | restore nowMs rows => exact h.restore stores nowMs rows

/-- What `Create` answers is there, for the match it was asked for. -/
theorem create_answer (h : s.Registered) {matchId roomId : String} {playerIds : List String} {nowMs : Int}
    {snapshot : RoomSnapshot} (hfresh : s.Fresh (.create matchId playerIds nowMs roomId)) :
    (s.manager.create nowMs matchId playerIds roomId).2.1 = some (x, snapshot) →
      ∃ r, (s.next stores (.create matchId playerIds nowMs roomId)).room? x = some r ∧
        r.matchId = matchId ∧ r.snapshot = snapshot := by
  simp only [room?, next]
  unfold RoomManager.create
  split
  · intro hans
    cases hans
  split
  case h_1 room hroom =>
    intro hans
    obtain ⟨rfl, rfl⟩ := Prod.mk.inj (Option.some.inj hans)
    obtain ⟨y, hy, hlookup⟩ := Option.bind_eq_some_iff.mp hroom
    obtain ⟨r, hr, hmatch⟩ := (h.consistent.index matchId y).mp hy
    obtain rfl : r = room := Option.some.inj (hr.symm.trans hlookup)
    rw [h.consistent.key y r hr]
    exact ⟨r, hr, hmatch, rfl⟩
  case h_2 hnone =>
    dsimp only
    split
    · intro hans
      cases hans
    split
    · intro hans
      cases hans
    intro hans
    obtain ⟨rfl, rfl⟩ := Prod.mk.inj (Option.some.inj hans)
    have hnew : s.manager.rooms.lookup roomId = none := by
      rcases hr : s.manager.rooms.lookup roomId with - | r
      · rfl
      · exact absurd (h.noted roomId r hr) hfresh
    rw [hnew]
    exact ⟨_, AList.lookup_insert _, rfl, rfl⟩

/-- A retried `Create` finds the room of its match, and changes nothing. -/
theorem create_again (h : s.Registered) (hr : s.room? x = some r) {playerIds : List String}
    (hplayers : playerIds ≠ []) (hvalid : ∀ p ∈ playerIds, validId p = true) (nowMs : Int)
    (roomId : String) :
    s.manager.create nowMs r.matchId playerIds roomId = (.ok, some (x, r.snapshot), s.manager) := by
  have hargs : BattleRoom.createArgsOk r.matchId playerIds = true := by
    rw [BattleRoom.createArgsOk, h.consistent.validMatch x r hr]
    simpa using ⟨hplayers, hvalid⟩
  unfold RoomManager.create
  rw [hargs, (h.consistent.index r.matchId x).mpr ⟨r, hr, rfl⟩, Option.bind_some]
  rw [room?] at hr
  rw [hr, if_neg (by decide)]
  dsimp only
  rw [h.consistent.key x r hr]

end Registered

/-! ## The law

A retry finds the room, as long as it is there. -/

/-- **What the tables say of each other, and what `Create` answers.** -/
structure IndexLaw (stores : RoomStores) (s : RoomSystem) : Prop where
  /-- The index leads from a match to its room, and to nothing else. -/
  index : ∀ k x, s.manager.matchIndex.lookup k = some x ↔ ∃ r, s.room? x = some r ∧ r.matchId = k
  oneRoom : ∀ x y r r', s.room? x = some r → s.room? y = some r' → r.matchId = r'.matchId → x = y
  state : ∀ k, k ∈ s.manager.snapshotState → k ∈ s.manager.matchIndex
  /-- The room that a `Create` answers with is there after it. -/
  created : ∀ matchId playerIds nowMs roomId x snapshot,
    s.Fresh (.create matchId playerIds nowMs roomId) →
    (s.manager.create nowMs matchId playerIds roomId).2.1 = some (x, snapshot) →
    ∃ r, (s.next stores (.create matchId playerIds nowMs roomId)).room? x = some r ∧
      r.matchId = matchId ∧ r.snapshot = snapshot
  /-- For as long as a room is not recycled, a `Create` for its match answers with it, and changes
  nothing. -/
  again : ∀ ops s' x r, Run (Serve stores) s ops s' →
    (∀ pre op post m, ops = pre ++ op :: post → Run (Serve stores) s pre m → ¬m.Reaps x op) →
    s.room? x = some r →
    ∃ r', s'.room? x = some r' ∧ ∀ playerIds nowMs roomId, playerIds ≠ [] →
      (∀ p ∈ playerIds, validId p = true) →
      s'.manager.create nowMs r.matchId playerIds roomId = (.ok, some (x, r'.snapshot), s'.manager)

/-- **The tables agree and `Create` may be retried** — in every run, with `Restore` at any time. -/
theorem index_law (hrun : Run (Serve stores) {} ops s) : IndexLaw stores s where
  index := (hrun.invariant (fun _ _ _ h hstep => h.serve hstep) Registered.start).consistent.index
  oneRoom x y r r' hr hr' hmatch :=
    ((hrun.invariant (fun _ _ _ h hstep => h.serve hstep) Registered.start).consistent.oneRoom hr hr' hmatch).1
  state := (hrun.invariant (fun _ _ _ h hstep => h.serve hstep) Registered.start).consistent.state
  created _ _ _ _ _ _ hfresh hans :=
    (hrun.invariant (fun _ _ _ h hstep => h.serve hstep) Registered.start).create_answer hfresh hans
  again ops s' x r hlater hquiet hr := by
    have h := hrun.invariant (fun _ _ _ h hstep => h.serve hstep) Registered.start
    have h' := hlater.invariant (fun _ _ _ h hstep => h.serve hstep) h
    obtain ⟨r', hr', hmatch⟩ := room?_kept_run hlater hquiet hr
    refine ⟨r', hr', fun playerIds nowMs roomId hplayers hvalid => ?_⟩
    rw [← hmatch]
    exact h'.create_again hr' hplayers hvalid nowMs roomId

/-- A game that is played, another one that is restored beside it, and a drain. -/
def retriedCreate : List ServiceOp :=
  [.act (.create "m-1" ["alice", "bob"] 1000 "r-1"), .act (.join "r-1" "alice" 1000),
    .act (.join "r-1" "bob" 1000), .act (.tick 1100),
    .restore 1200 [⟨"m-2", "r-2", "playing", 3, ⟨"carol", 80, true⟩, ⟨"dave", 60, true⟩, none,
      "none", 900, 0, 1000⟩],
    .act .beginShutdown, .act (.create "m-1" ["alice"] 1300 "r-3")]

theorem index_law_retried :
    IndexLaw RoomSystem.mysqlStores (retriedCreate.foldl (serve RoomSystem.mysqlStores) {}) :=
  index_law (Run.of_guarded (by decide))

end RoomSystem

end RealtimeGame.Room
