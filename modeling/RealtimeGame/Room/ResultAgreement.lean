import RealtimeGame.Room.TableWrites

/-!
# Room/ResultAgreement — the winner in memory and the winner in the table

The two tables are written independently, so a crash between a result and the snapshot that shows it
leaves a row that replays the game.  `Sound` is the law that holds as long as no restart works with
such a row and no match with a result is created again (`Safe`): whoever is finished, in memory or in
a row, has the winner that `match_results` has (`winnersAgree`).
-/

open Library

namespace RealtimeGame.Room

namespace RoomWorld

variable {stores : RoomStores} {w w' : RoomWorld} {nowMs : Int} {row : RoomSnapshotRecord}

/-! ## The law

Results, rows and rooms of one match, compared by their winner. -/

/-- A snapshot, saved or still to be saved, fits the room it is of: it names the match the room was
made for, and when it says that the room is over, the room is. -/
structure RowOk (w : RoomWorld) (row : RoomSnapshotRecord) : Prop where
  created : w.system.created.lookup row.roomId = some row.matchId
  finished : row.phase = .finished → ∀ r, w.system.room? row.roomId = some r →
    r.phase = .finished ∧ r.winnerId = row.winnerId
  aborted : row.phase = .aborted → ∀ r, w.system.room? row.roomId = some r → r.phase = .aborted

/-- **What holds after any run whose steps are safe.** -/
structure Sound (w : RoomWorld) : Prop where
  system : w.system.Sound
  written : ∀ record reply, .write record reply ∈ w.system.log → reply.stored = true →
    (w.results.lookup record.matchId).isSome
  /-- A room of a match with a result is decided, and decided as the result says. -/
  agree : ∀ x r result, w.system.room? x = some r → w.results.lookup r.matchId = some result →
    (r.phase = .finishing ∨ r.phase = .finished) ∧ r.winnerId = result.winnerId
  /-- A record that may still be written is of a room that exists, or it comes too late. -/
  attempted : ∀ x record, w.system.Attempts x record →
    (w.system.room? x).isSome ∨ (w.results.lookup record.matchId).isSome
  row : ∀ k row, w.rows.lookup k = some row → row.matchId = k ∧ w.RowOk row
  saves : ∀ pc ∈ w.system.threads, ∀ row ∈ pc.records, w.RowOk row

/-- **The condition on a step**: no restart rebuilds, from a row that is not decided as the stored
result says, a room of a match with a stored result, and no `Create` makes a room for such a
match. -/
def Safe (stores : RoomStores) (w : RoomWorld) : Op → Prop
  | .act (.create matchId playerIds nowMs roomId) =>
    RoomSystem.makesRoom w.system.manager matchId playerIds nowMs roomId = true →
      w.results.lookup matchId = none
  | .act _ => True
  | .restart _ loads => ∀ row ∈ w.restartRows stores loads, row.problem = "" →
      ∀ result ∈ w.results.lookup row.record.matchId,
        row.record.phase = .finishing ∧ row.record.winnerId = result.winnerId

instance (stores : RoomStores) (w : RoomWorld) : DecidablePred (w.Safe stores)
  | .act (.create ..) => inferInstanceAs (Decidable (_ → _))
  | .act (.join ..) | .act (.submitInput ..) | .act (.setPresence ..) | .act (.getState ..)
  | .act (.getSnapshotsSince ..) | .act (.getResult ..) | .act (.tick ..)
  | .act (.abortUnfinishedGames ..) | .act .beginShutdown | .act (.resume ..) => .isTrue trivial
  | .restart _ loads =>
    inferInstanceAs (Decidable (∀ row ∈ w.restartRows stores loads, row.problem = "" → _))

/-- A step that meets the condition. -/
def SafeStep (stores : RoomStores) (w : RoomWorld) (op : Op) (w' : RoomWorld) : Prop :=
  (w.Safe stores op ∧ w.Fresh op) ∧ w' = w.next stores op

theorem Sound.start : Sound {} where
  system := .start
  written record reply h := by simp at h
  agree _ _ _ h := by cases h
  attempted x record h := by simp [RoomSystem.Attempts] at h
  row _ _ h := by cases h
  saves pc h := by simp at h

/-! ## An action keeps the law

A winner is decided once, and written by whoever decided it. -/

/-- A room that is new after an action was made by a `Create` for its match. -/
theorem create_of_created {s : RoomSystem} {a : Action} {x k : String} (hnew : x ∉ s.created)
    (hk : (s.next stores a).created.lookup x = some k) :
    ∃ playerIds nowMs, a = .create k playerIds nowMs x ∧
      RoomSystem.makesRoom s.manager k playerIds nowMs x = true := by
  have hold : s.created.lookup x ≠ some k := fun h =>
    hnew (AList.lookup_isSome.mp (by rw [h]; rfl))
  rcases a with ⟨matchId, playerIds, nowMs, roomId⟩ | ⟨x, player, nowMs⟩ | ⟨x, player, kind⟩ |
    ⟨x, player, online, nowMs⟩ | ⟨x, nowMs⟩ | ⟨x, sinceFrame, nowMs⟩ | ⟨matchId, nowMs⟩ | nowMs |
    nowMs | - | ⟨thread, answer⟩
  case create =>
    simp only [RoomSystem.next] at hk
    split at hk
    case isTrue hmakes =>
      rw [Table.lookup_insert'] at hk
      split at hk
      case isTrue heq =>
        obtain rfl := Option.some.inj hk
        exact ⟨playerIds, nowMs, by rw [heq], by rw [heq]; exact hmakes⟩
      case isFalse => exact absurd hk hold
    case isFalse => exact absurd hk hold
  case getResult =>
    simp only [RoomSystem.next] at hk
    split at hk
    · exact absurd hk hold
    · split at hk <;> exact absurd hk hold
  case resume =>
    simp only [RoomSystem.next] at hk
    split at hk <;> exact absurd hk hold
  all_goals exact absurd hk hold

/-- A decided room is not changed by the mark of a persisted result, but for its phase. -/
theorem decided_markResultPersisted {r : BattleRoom}
    (h : r.phase = .finishing ∨ r.phase = .finished) :
    r.markResultPersisted.phase = .finished ∧ r.markResultPersisted.winnerId = r.winnerId := by
  unfold BattleRoom.markResultPersisted
  rcases h with h | h
  · rw [if_pos h]
    exact ⟨rfl, rfl⟩
  · rw [if_neg (by rw [h]; decide)]
    exact ⟨h, rfl⟩

/-- What fits a room fits it after an action. -/
theorem RowOk.effect (h : RowOk w row) (he : w.system.Effect w'.system) : RowOk w' row where
  created := he.created _ _ h.created
  finished hphase r' hr' := by
    rcases he.room _ r' hr' with ⟨r, hr, hb | ⟨rfl, -⟩⟩ | ⟨hnew, -⟩
    · obtain ⟨hfinished, hwinner⟩ := h.finished hphase r hr
      obtain ⟨hphase', hwinner', -⟩ := hb.decided (by rw [hfinished]; rfl)
      exact ⟨hphase'.trans hfinished, hwinner'.trans hwinner⟩
    · obtain ⟨hfinished, hwinner⟩ := h.finished hphase r hr
      obtain ⟨hphase', hwinner'⟩ := decided_markResultPersisted (.inr hfinished)
      exact ⟨hphase', hwinner'.trans hwinner⟩
    · exact absurd (AList.lookup_isSome.mp (by rw [h.created]; rfl)) hnew
  aborted hphase r' hr' := by
    rcases he.room _ r' hr' with ⟨r, hr, hb | ⟨rfl, -⟩⟩ | ⟨hnew, -⟩
    · have haborted := h.aborted hphase r hr
      exact (hb.decided (by rw [haborted]; rfl)).1.trans haborted
    · have haborted := h.aborted hphase r hr
      rw [BattleRoom.markResultPersisted, if_neg (by rw [haborted]; decide)]
      exact haborted
    · exact absurd (AList.lookup_isSome.mp (by rw [h.created]; rfl)) hnew

/-- A snapshot that was just taken fits its room. -/
theorem RowOk.of_snapshot (hs : w.system.Sound) (he : w.system.Effect w'.system)
    (h : RoomManager.SnapshotOf w.system.manager w'.system.manager row) : RowOk w' row := by
  obtain ⟨x, r, r', nowMs, hr, hb, rfl, hsame⟩ := h
  have hid : (r'.makeSnapshotRecord nowMs).roomId = x :=
    hb.roomId.trans (hs.indexed.key x r hr)
  refine ⟨?_, fun hphase r'' hr'' => ?_, fun hphase r'' hr'' => ?_⟩
  · rw [hid]
    refine (he.created _ _ (hs.created x r hr).1).trans ?_
    exact congrArg some hb.matchId.symm
  · rw [hid] at hr''
    obtain rfl := hsame r'' hr''
    exact ⟨hphase, rfl⟩
  · rw [hid] at hr''
    obtain rfl := hsame r'' hr''
    exact hphase

/-- The room of a record that has just become the result of its match. -/
theorem Sound.room_of_result (h : Sound w) {x : String} {r : BattleRoom}
    {result : MatchResultRecord} (hr : w.system.room? x = some r)
    (hnone : w.results.lookup r.matchId = none) (hmatch : result.matchId = r.matchId)
    (hattempt : w.system.Attempts result.roomId result) : r.result = some result := by
  rcases h.attempted _ _ hattempt with hroom | hlate
  · obtain ⟨r₀, hr₀⟩ := Option.isSome_iff_exists.mp hroom
    have hres := (h.system.attempt _ _ hattempt).2.2 r₀ hr₀
    -- Both rooms are indexed under this match.
    have hindex := h.system.indexed.index _ r₀ hr₀
    rw [← (BattleRoom.result_eq_some hres).2.1, hmatch, h.system.indexed.index x r hr] at hindex
    obtain rfl := Option.some.inj hindex
    obtain rfl := Option.some.inj (hr.symm.trans hr₀)
    exact hres
  · rw [hmatch, hnone] at hlate
    cases hlate

/-- An action that is safe keeps the law. -/
theorem Sound.act (h : Sound w) {a : Action} (hfresh : w.system.Fresh a)
    (hsafe : w.Safe stores (.act a)) : Sound (w.next stores (.act a)) := by
  have hsys : (w.next stores (.act a)).system = w.system.next stores a :=
    system_foldl_record _ _
  have hstep : RoomSystem.Step stores w.system a (w.next stores (.act a)).system :=
    ⟨hfresh, hsys⟩
  have he : w.system.Effect (w.next stores (.act a)).system := .of_step h.system hstep
  have hw : Writes w (w.next stores (.act a)) := .of_act h.system a
  have hrow : ∀ row, RowOk w row → RowOk (w.next stores (.act a)) row := fun _ hok => hok.effect he
  -- A record whose room is gone has been stored.
  have hgone : ∀ x r record, w.system.room? x = some r → r.result = some record →
      (w.next stores (.act a)).system.room? x = none →
      (w.results.lookup record.matchId).isSome := by
    intro x r record hr hres hnone
    obtain ⟨r', hb, hover⟩ := he.gone x r hr hnone
    have hphase := (hb.decided (BattleRoom.unfinished_of_result hres)).1
    have hfinished : r.phase = .finished := by
      rcases (BattleRoom.result_eq_some hres).1 with hp | hp
      · rw [hp] at hphase
        rcases hover with ho | ho <;> rw [ho] at hphase <;> cases hphase
      · exact hp
    obtain ⟨record', hres', hmem⟩ := h.system.finished x r hr hfinished
    obtain rfl := Option.some.inj (hres.symm.trans hres')
    exact h.written record .done hmem rfl
  have hkept : ∀ k, (w.results.lookup k).isSome →
      ((w.next stores (.act a)).results.lookup k).isSome := by
    intro k hk
    obtain ⟨result, hresult⟩ := Option.isSome_iff_exists.mp hk
    rw [hw.kept k result hresult]
    rfl
  constructor
  · exact h.system.step hstep
  · intro record reply hmem hstored
    rcases hw.written record reply hmem hstored with hold | hnew
    · exact hkept _ (h.written record reply hold hstored)
    · exact hnew
  · intro x r' result hr' hresult
    rcases hw.result _ _ hresult with hold | ⟨hnone, hmatch, hattempt, hsame⟩
    · rcases he.room x r' hr' with ⟨r, hr, hb | ⟨rfl, -⟩⟩ | ⟨hnew, hcreated, -, -⟩
      · rw [hb.matchId] at hold
        obtain ⟨hphase, hwinner⟩ := h.agree x r result hr hold
        have hd : r.phase.unfinished = false := by
          rcases hphase with hp | hp <;> rw [hp] <;> rfl
        obtain ⟨hphase', hwinner', -⟩ := hb.decided hd
        exact ⟨by rw [hphase']; exact hphase, hwinner'.trans hwinner⟩
      · rw [BattleRoom.matchId_markResultPersisted] at hold
        obtain ⟨hphase, hwinner⟩ := h.agree x r result hr hold
        obtain ⟨hphase', hwinner'⟩ := decided_markResultPersisted hphase
        exact ⟨.inr hphase', hwinner'.trans hwinner⟩
      · rw [hsys] at hcreated
        obtain ⟨playerIds, nowMs, rfl, hmakes⟩ := create_of_created hnew hcreated
        cases hold.symm.trans (hsafe hmakes)
    · -- The step that stores a result leaves the rooms alone.
      have hr : w.system.room? x = some r' := by
        rw [RoomSystem.room?, hsame] at hr'
        exact hr'
      obtain ⟨hphase, -, -, hwinner⟩ :=
        BattleRoom.result_eq_some (h.room_of_result hr hnone hmatch hattempt)
      exact ⟨hphase, hwinner.symm⟩
  · intro x record hattempt
    rcases hroom : (w.next stores (.act a)).system.room? x with - | r'
    · right
      rcases he.attempt x record hattempt with hold | ⟨r, hr, -, hres⟩
      · rcases h.attempted x record hold with hx | hlate
        · obtain ⟨r, hr⟩ := Option.isSome_iff_exists.mp hx
          exact hkept _ (hgone x r record hr ((h.system.attempt x record hold).2.2 r hr) hroom)
        · exact hkept _ hlate
      · exact hkept _ (hgone x r record hr hres hroom)
    · exact .inl rfl
  · intro k row hk
    rcases hw.row k row hk with hold | ⟨hmatch, pc, hpc, hmem⟩
    · exact (h.row k row hold).imp_right (hrow row)
    · exact ⟨hmatch, hrow row (h.saves pc hpc row hmem)⟩
  · intro pc hpc row hmem
    rcases hw.saves pc hpc row hmem with ⟨pc₀, hpc₀, hold⟩ | hnew
    · exact hrow row (h.saves pc₀ hpc₀ row hold)
    · exact .of_snapshot h.system he hnew

/-! ## A restart keeps the law

Rooms are rebuilt from rows; so the rows have to be right. -/

/-- A row that is loaded on restart is one of the table, and not of a room that is over. -/
theorem mem_restartRows {loads : Bool} {loaded : RoomSnapshotRow}
    (h : loaded ∈ w.restartRows stores loads) :
    ∃ k row, w.rows.lookup k = some row ∧ row.phase ≠ .finished ∧ row.phase ≠ .aborted ∧
      loaded = (RoomsRow.ofRecord row).decode := by
  unfold restartRows at h
  split at h
  case isTrue =>
    obtain ⟨row, hrow, hloaded, rfl⟩ := RoomsRow.mem_loadUnfinished h
    obtain ⟨⟨k, row⟩, hpair, rfl⟩ := List.mem_map.mp hrow
    refine ⟨k, row, Table.mem_toPairs.mp hpair, fun hphase => ?_, fun hphase => ?_, rfl⟩
    · cases (RoomsRow.loaded_of_final (.inl (congrArg RoomPhase.toText hphase))).symm.trans hloaded
    · cases (RoomsRow.loaded_of_final (.inr (congrArg RoomPhase.toText hphase))).symm.trans hloaded
  case isFalse => cases h

/-- Decoding changes neither the match nor the room, and nothing at all in an acceptable row. -/
theorem decode_ids (row : RoomSnapshotRecord) :
    (RoomsRow.ofRecord row).decode.record.matchId = row.matchId ∧
      (RoomsRow.ofRecord row).decode.record.roomId = row.roomId ∧
      ((RoomsRow.ofRecord row).decode.problem = "" →
        (RoomsRow.ofRecord row).decode.record = row ∧ validId row.matchId = true) := by
  rw [RoomsRow.decode_ofRecord]
  have hunknown : "finish_reason 是未知取值：disconnect" ≠ "" := by decide
  have hmissing : "match_id 缺失或超长" ≠ "" := by decide
  split
  case isTrue => exact ⟨rfl, rfl, fun h => absurd h hunknown⟩
  case isFalse =>
    refine ⟨rfl, rfl, fun h => ⟨rfl, ?_⟩⟩
    rcases hvalid : validId row.matchId with - | -
    · rw [validateRoomSnapshot, hvalid, if_pos (by rfl)] at h
      exact absurd h hmissing
    · rfl

theorem restoreFrom_eq_some {r : BattleRoom} (h : BattleRoom.restoreFrom row nowMs = some r) :
    r = .restored row nowMs := by
  unfold BattleRoom.restoreFrom at h
  split at h; · cases h
  split at h; · cases h
  split at h; · cases h
  exact (Option.some.inj h).symm

/-- A row that a restart rebuilds room `x` from, as `r`. -/
structure Rebuilds (stores : RoomStores) (w : RoomWorld) (nowMs : Int) (loads : Bool) (x : String)
    (r : BattleRoom) (row : RoomSnapshotRecord) : Prop where
  stored : w.rows.lookup row.matchId = some row
  roomId : row.roomId = x
  phase : row.phase ≠ .finished ∧ row.phase ≠ .aborted
  validMatch : validId row.matchId = true
  loaded : (RoomsRow.ofRecord row).decode ∈ w.restartRows stores loads
  problem : (RoomsRow.ofRecord row).decode.problem = ""
  record : (RoomsRow.ofRecord row).decode.record = row
  restored : BattleRoom.restoreFrom row nowMs = some r

/-- **A room after a restart** was rebuilt from an acceptable row of its own. -/
theorem Sound.rebuilds (h : Sound w) {loads : Bool} {x : String} {r : BattleRoom}
    (hr : (w.next stores (.restart nowMs loads)).system.room? x = some r) :
    ∃ row, Rebuilds stores w nowMs loads x r row := by
  have hrestored := RoomManager.Restored.of_rows nowMs (w.restartRows stores loads)
  obtain ⟨loaded, hmem, hproblem, hfrom⟩ := hrestored.room x r hr
  obtain ⟨k, row, hk, hfinished, haborted, rfl⟩ := mem_restartRows hmem
  obtain ⟨hsame, hvalid⟩ := (decode_ids row).2.2 hproblem
  rw [hsame] at hfrom
  have hkey : row.matchId = k := (h.row k row hk).1
  have hid := hrestored.indexed.key x _ hr
  rw [restoreFrom_eq_some hfrom] at hid
  exact ⟨row, hkey ▸ hk, hid, ⟨hfinished, haborted⟩, hvalid, hmem, hproblem, hsame, hfrom⟩

/-- Two rows of one room are one row. -/
theorem Sound.row_unique (h : Sound w) {row' : RoomSnapshotRecord} {k k' : String}
    (hk : w.rows.lookup k = some row) (hk' : w.rows.lookup k' = some row')
    (hid : row.roomId = row'.roomId) : row = row' := by
  obtain ⟨rfl, hok⟩ := h.row k row hk
  obtain ⟨rfl, hok'⟩ := h.row k' row' hk'
  have hmatch := hok.created
  rw [hid, hok'.created] at hmatch
  rw [← Option.some.inj hmatch, hk'] at hk
  exact (Option.some.inj hk).symm

/-- The threads of a restart save what was rejected. -/
theorem mem_records_restart {loads : Bool} {pc : Pc}
    (hpc : pc ∈ (w.next stores (.restart nowMs loads)).system.threads) :
    pc.attempt? = none ∧ ∀ saved ∈ pc.records, ∃ loaded ∈ w.restartRows stores loads,
      saved = RoomManager.rejectedRecord loaded.record nowMs ∧
        (loaded.problem ≠ "" ∨ BattleRoom.restoreFrom loaded.record nowMs = none) := by
  simp only [next] at hpc
  split at hpc
  case isTrue =>
    obtain rfl := List.mem_singleton.mp hpc
    refine ⟨rfl, fun saved hsaved => ?_⟩
    obtain ⟨record, hrecord, rfl⟩ := List.mem_map.mp hsaved
    obtain ⟨loaded, hmem, rfl, hbad⟩ :=
      (RoomManager.Restored.of_rows nowMs (w.restartRows stores loads)).rejected record hrecord
    exact ⟨loaded, hmem, rfl, hbad⟩
  case isFalse => cases hpc

/-- After a restart nobody has taken up a record. -/
theorem not_attempts_restart {loads : Bool} {x : String} {record : MatchResultRecord} :
    ¬(w.next stores (.restart nowMs loads)).system.Attempts x record := by
  rintro (⟨pc, hpc, hattempt⟩ | ⟨-, reply, hmem⟩)
  · rw [(mem_records_restart hpc).1] at hattempt
    cases hattempt
  · cases hmem

/-- A restart that is safe keeps the law. -/
theorem Sound.restart (h : Sound w) {loads : Bool} (hsafe : w.Safe stores (.restart nowMs loads)) :
    Sound (w.next stores (.restart nowMs loads)) := by
  have hrestored := RoomManager.Restored.of_rows nowMs (w.restartRows stores loads)
  have hcreated : ∀ x r, (w.next stores (.restart nowMs loads)).system.room? x = some r →
      w.system.created.lookup x = some r.matchId ∧ validId r.matchId = true := by
    intro x r hr
    obtain ⟨row, hrow⟩ := h.rebuilds hr
    rw [restoreFrom_eq_some hrow.restored, ← hrow.roomId]
    exact ⟨(h.row _ row hrow.stored).2.created, hrow.validMatch⟩
  constructor
  · constructor
    · exact hrestored.indexed
    · exact hcreated
    · intro k x hk
      obtain ⟨r, hr, rfl⟩ := hrestored.entry k x hk
      exact (hcreated x r hr).1
    · exact fun _ _ hattempt => absurd hattempt not_attempts_restart
    · exact fun _ _ _ hattempt => absurd hattempt not_attempts_restart
    · intro pc hpc x record hconf
      have hnone := (mem_records_restart hpc).1
      rw [Pc.attempt?_of_confirmed? hconf] at hnone
      cases hnone
    · intro x r hr hphase
      obtain ⟨row, hrow⟩ := h.rebuilds hr
      rw [restoreFrom_eq_some hrow.restored] at hphase
      exact absurd hphase hrow.phase.1
    · exact fun _ _ hmem => by cases hmem
  · exact fun _ _ hmem => by cases hmem
  · intro x r result hr hresult
    obtain ⟨row, hrow⟩ := h.rebuilds hr
    have hdecided := hsafe _ hrow.loaded hrow.problem result
    rw [hrow.record] at hdecided
    rw [restoreFrom_eq_some hrow.restored] at hresult ⊢
    exact (hdecided hresult).imp_left .inl
  · exact fun _ _ hattempt => absurd hattempt not_attempts_restart
  · intro k row hk
    obtain ⟨hkey, hok⟩ := h.row k row hk
    refine ⟨hkey, hok.created, fun hphase r hr => ?_, fun hphase r hr => ?_⟩
    · obtain ⟨row', hrow'⟩ := h.rebuilds hr
      obtain rfl := h.row_unique hrow'.stored hk hrow'.roomId
      exact absurd hphase hrow'.phase.1
    · obtain ⟨row', hrow'⟩ := h.rebuilds hr
      obtain rfl := h.row_unique hrow'.stored hk hrow'.roomId
      exact absurd hphase hrow'.phase.2
  · intro pc hpc saved hsaved
    obtain ⟨loaded, hmem, rfl, hbad⟩ := (mem_records_restart hpc).2 saved hsaved
    obtain ⟨k, row, hk, -, -, rfl⟩ := mem_restartRows hmem
    obtain ⟨hmatch, hroom, -⟩ := decode_ids row
    refine ⟨?_, fun hphase => (by cases hphase), fun _ r hr => ?_⟩
    · refine (congrArg w.system.created.lookup hroom).trans ?_
      exact ((h.row k row hk).2.created).trans (congrArg some hmatch.symm)
    · -- A rejected room is not there.
      obtain ⟨row', hrow'⟩ := h.rebuilds hr
      obtain rfl := h.row_unique hrow'.stored hk (hrow'.roomId.trans hroom)
      rcases hbad with hbad | hbad
      · exact absurd hrow'.problem hbad
      · rw [hrow'.record, hrow'.restored] at hbad
        cases hbad

theorem Sound.step {op : Op} (h : Sound w) (hstep : SafeStep stores w op w') : Sound w' := by
  obtain ⟨⟨hsafe, hfresh⟩, rfl⟩ := hstep
  rcases op with a | ⟨nowMs, loads⟩
  · exact h.act hfresh hsafe
  · exact h.restart hsafe

/-! ## Results agree

In every run that is safe. -/

/-- Every room that is finished, and every row that shows it as over, has the winner that is stored
for its match. -/
def WinnersAgree (w : RoomWorld) : Prop :=
  ∀ x r, w.system.room? x = some r → r.phase = .finished →
    ∃ result, w.results.lookup r.matchId = some result ∧
      r.snapshot.winnerId = result.winnerId ∧
      ∀ k row, w.rows.lookup k = some row → row.roomId = x →
        row.phase = .finished ∨ row.phase = .aborted → row.winnerId = result.winnerId

/-- **Winners agree** after every run whose steps are all safe. -/
theorem winnersAgree {ops : List Op} (hrun : Run (SafeStep stores) {} ops w) :
    w.WinnersAgree := by
  have hsound : Sound w := hrun.invariant (fun _ _ _ h hstep => h.step hstep) .start
  intro x r hr hphase
  obtain ⟨record, hres, hmem⟩ := hsound.system.finished x r hr hphase
  obtain ⟨result, hresult⟩ := Option.isSome_iff_exists.mp (hsound.written record .done hmem rfl)
  rw [(BattleRoom.result_eq_some hres).2.1] at hresult
  have hwinner := (hsound.agree x r result hr hresult).2
  refine ⟨result, hresult, hwinner, ?_⟩
  rintro k row hk rfl hterminal
  obtain ⟨-, hok⟩ := hsound.row k row hk
  rcases hterminal with hfinished | haborted
  · exact (hok.finished hfinished r hr).2.symm.trans hwinner
  · rw [hok.aborted haborted r hr] at hphase
    cases hphase

/-- A game of alice and bob is decided by a disconnect of bob; its first snapshot was saved, and its
result is written. -/
def decidedGame : List Op :=
  [.act (.create "m-1" ["alice", "bob"] 1000 "r-1"),
    .act (.join "r-1" "alice" 1000), .act (.join "r-1" "bob" 1000),
    .act (.tick 1000), .act (.resume 0 {}),
    .act (.setPresence "r-1" "bob" false 1200), .act (.tick 31200),
    .act (.resume 1 ⟨.refused, .notFound⟩), .act (.resume 1 {}), .act (.resume 1 {}),
    .act (.resume 1 {})]

/-- …and marked. -/
def finishedGame : List Op := decidedGame ++ [Op.act (.resume 1 {})]

theorem winnersAgree_finishedGame :
    WinnersAgree (finishedGame.foldl (next RoomSystem.mysqlStores) {}) :=
  winnersAgree (Run.of_guarded (by decide))

/-- The process crashes before the mark of the result; the first snapshot is played on, and now it is
alice who disconnects. -/
def replayedGame : List Op :=
  decidedGame ++
  [.restart 40000 true,
    .act (.setPresence "r-1" "alice" false 40100), .act (.tick 70100),
    .act (.resume 1 {}), .act (.resume 1 {}), .act (.resume 1 {}), .act (.resume 1 {}),
    .act (.resume 1 {})]

/-- The replay finishes with another winner than the stored one. -/
theorem not_winnersAgree :
    ¬ ∀ (stores : RoomStores) (ops : List Op) (w : RoomWorld),
      Run (Step stores) {} ops w → w.WinnersAgree := by
  intro hclaim
  have hagree := hclaim RoomSystem.mysqlStores replayedGame _ (Run.of_guarded (by decide))
  have hroom : ((replayedGame.foldl (next RoomSystem.mysqlStores) {}).system.room? "r-1").map
      (fun r => (r.matchId, r.phase, r.winnerId)) = some ("m-1", .finished, "bob") := by decide
  obtain ⟨r, hr, heq⟩ := Option.map_eq_some_iff.mp hroom
  obtain ⟨hmatch, hphase, hwinner⟩ : r.matchId = "m-1" ∧ r.phase = .finished ∧
      r.winnerId = "bob" := by simpa using heq
  obtain ⟨result, hresult, hsame, -⟩ := hagree "r-1" r hr hphase
  have hstored : ((replayedGame.foldl (next RoomSystem.mysqlStores) {}).results.lookup "m-1").map
      (·.winnerId) = some "alice" := by decide
  rw [← hmatch, hresult] at hstored
  have hne : "alice" ≠ "bob" := by decide
  exact hne ((Option.some.inj hstored).symm.trans (hsame.symm.trans hwinner))

end RoomWorld

end RealtimeGame.Room
