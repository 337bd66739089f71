import RealtimeGame.Room.Reaping

/-!
# Room/Drain — a drain is durable

Calls copy their snapshots under the lock and save them without it, and the table keeps the one with
the latest time, the last of several.  So the row of a game that a drain aborts says so in the end, if
no snapshot of the game that is as late was taken before (`AbortsLast`); what is taken after it is of an
aborted game.
-/

open Library

namespace RealtimeGame.Room

/-! ## One row

A later snapshot replaces it, an earlier one does not. -/

section Rows

variable {rows : Table String RoomSnapshotRecord} {row record old : RoomSnapshotRecord} {k : String}

theorem lookup_storeRow_of_ne (h : record.matchId ≠ k) :
    (storeRow rows record).lookup k = rows.lookup k := by
  unfold storeRow
  split
  · exact AList.lookup_insert_ne h.symm
  · split
    · exact AList.lookup_insert_ne h.symm
    · rfl

/-- A snapshot that is not earlier is stored. -/
theorem lookup_storeRow_of_le
    (h : ∀ old, rows.lookup record.matchId = some old → old.snapshotAtMs ≤ record.snapshotAtMs) :
    (storeRow rows record).lookup record.matchId = some record := by
  unfold storeRow
  split
  · exact AList.lookup_insert _
  case h_2 old hold => rw [if_pos (h old hold), AList.lookup_insert]

/-- An earlier one is not. -/
theorem lookup_storeRow_of_lt (hold : rows.lookup record.matchId = some old)
    (h : record.snapshotAtMs < old.snapshotAtMs) :
    (storeRow rows record).lookup record.matchId = some old := by
  unfold storeRow
  rw [hold]
  dsimp only
  rw [if_neg (by omega)]
  exact hold

end Rows

/-! ## After the drain

Every snapshot that is taken from then on says aborted. -/

/-- Does this action make a new room? -/
def RoomSystem.makes (s : RoomSystem) : Action → Bool
  | .create matchId playerIds nowMs roomId => makesRoom s.manager matchId playerIds nowMs roomId
  | .join .. | .submitInput .. | .setPresence .. | .getState .. | .getSnapshotsSince .. | .getResult .. |
    .tick .. | .abortUnfinishedGames .. | .beginShutdown | .resume .. => false

namespace RoomWorld

variable {stores : RoomStores} {w w' : RoomWorld} {nowMs : Int} {k x : String} {r : BattleRoom} {a : Action}
  {ops : List ServiceOp} {later : List Action}

/-- A step of a service that makes no new room, over a table that takes every snapshot. -/
def Drain (stores : RoomStores) (w : RoomWorld) (a : Action) (w' : RoomWorld) : Prop :=
  (w.system.makes a = false ∧ ∀ save ∈ w.system.saving a, save.2.stored = true) ∧
    w' = w.next stores (.act a)

/-- **The condition on a drain at `nowMs`**: of every game that it aborts, the row is not of a later time,
and the snapshots that calls still have to save are of an earlier time. -/
def AbortsLast (w : RoomWorld) (nowMs : Int) : Prop :=
  ∀ r ∈ w.system.manager.unfinishedRooms,
    (∀ row ∈ w.rows.lookup r.matchId, row.snapshotAtMs ≤ nowMs) ∧
    ∀ pc ∈ w.system.threads, ∀ row ∈ pc.records, row.matchId = r.matchId →
      row.phase = .aborted ∨ row.snapshotAtMs < nowMs

instance (w : RoomWorld) (nowMs : Int) : Decidable (w.AbortsLast nowMs) :=
  inferInstanceAs (Decidable (∀ r ∈ w.system.manager.unfinishedRooms, _))

/-- **What holds of match `k` once a drain at `nowMs` has aborted its game.** -/
structure Drained (w : RoomWorld) (nowMs : Int) (k : String) : Prop where
  room : ∀ x r, w.system.room? x = some r → r.matchId = k → r.phase = .aborted
  flight : ∀ row, w.system.InFlight row → row.matchId = k →
    row.phase = .aborted ∨ row.snapshotAtMs < nowMs
  /-- The row says so, or will. -/
  row : (∃ row, w.rows.lookup k = some row ∧ row.phase = .aborted ∧ nowMs ≤ row.snapshotAtMs) ∨
    (∃ row, w.system.InFlight row ∧ row.matchId = k ∧ row.phase = .aborted ∧ row.snapshotAtMs = nowMs) ∧
      ∀ row, w.rows.lookup k = some row → row.snapshotAtMs ≤ nowMs

namespace Drained

theorem start (h : w.system.Registered) (hwriter : stores.hasSnapshotWriter = true)
    (hlast : w.AbortsLast nowMs) (hr : w.system.room? x = some r) (hu : r.phase.unfinished = true) :
    (w.next stores (.act (.abortUnfinishedGames nowMs))).Drained nowMs r.matchId := by
  have hmem : r ∈ w.system.manager.unfinishedRooms :=
    RoomManager.mem_unfinishedRooms.mpr ⟨⟨x, hr⟩, hu⟩
  obtain ⟨hrow, hflight⟩ := hlast r hmem
  have htaken : (r.abort nowMs).makeSnapshotRecord nowMs ∈
      w.system.taken stores (.abortUnfinishedGames nowMs) := by
    rw [RoomSystem.taken, if_pos hwriter]
    exact RoomManager.mem_snapshots_abortUnfinishedLocked.mpr ⟨x, r, hr, hu, rfl⟩
  refine
    { room := fun y t ht hmatch => ?_
      flight := fun row hrow hmatch => ?_
      row := .inr ⟨⟨(r.abort nowMs).makeSnapshotRecord nowMs, ?_, rfl, rfl, rfl⟩, fun row hlookup => ?_⟩ }
  · rw [system_act] at ht
    obtain ⟨t₀, ht₀, ⟨-, rfl⟩ | ⟨hover, rfl⟩⟩ := RoomSystem.room?_drain ht
    · rfl
    · obtain ⟨-, rfl⟩ := h.consistent.oneRoom hr ht₀ hmatch.symm
      cases hover.symm.trans hu
  · rw [system_act] at hrow
    rcases hrow.of_next with ⟨pc, hpc, hold⟩ | hnew
    · exact hflight pc hpc row hold hmatch
    · obtain ⟨y, t, takenMs, ht, rfl, htick | ⟨heq, hu'⟩⟩ := RoomSystem.mem_taken hnew
      · cases htick
      · refine .inl ?_
        change (if t.phase.unfinished then t.abort nowMs else t).phase = .aborted
        rw [if_pos hu']
        rfl
  · rw [system_act]
    exact RoomSystem.inFlight_of_mem_taken htaken
  · rw [rows_act] at hlookup
    exact hrow row hlookup

/-- A room of the match stays aborted, and its snapshots say so. -/
theorem room_next (h : w.Drained nowMs k) (hstep : Drain stores w a w') :
    (∀ x r, w'.system.room? x = some r → r.matchId = k → r.phase = .aborted) ∧
      ∀ row, w'.system.InFlight row → row.matchId = k →
        row.phase = .aborted ∨ row.snapshotAtMs < nowMs := by
  obtain ⟨⟨hcreate, -⟩, rfl⟩ := hstep
  have hfrozen : ∀ x r, w.system.room? x = some r → r.matchId = k →
      r.calls (w.system.roomCalls x a) = r := fun x r hr hmatch =>
    BattleRoom.calls_of_terminal (by rw [h.room x r hr hmatch]; rfl) _
  rw [system_act]
  constructor
  · intro x r' hr' hmatch
    rcases hr : w.system.room? x with - | r
    · obtain ⟨matchId, playerIds, createMs, rfl, hmakes, -⟩ := RoomSystem.room?_next_new hr hr'
      cases hmakes.symm.trans hcreate
    · rw [RoomSystem.room?_next hr] at hr'
      split at hr'
      · cases hr'
      obtain rfl := Option.some.inj hr'
      rw [(RoomSystem.calls_ids r _).2] at hmatch
      rw [hfrozen x r hr hmatch]
      exact h.room x r hr hmatch
  · intro row hrow hmatch
    rcases hrow.of_next with hold | hnew
    · exact h.flight row hold hmatch
    · obtain ⟨x, r, takenMs, hr, rfl, -⟩ := RoomSystem.mem_taken hnew
      have hk : r.matchId = k := (RoomSystem.calls_ids r _).2.symm.trans hmatch
      rw [hfrozen x r hr hk]
      exact .inl (h.room x r hr hk)

theorem next (h : w.Drained nowMs k) (hstep : Drain stores w a w') : w'.Drained nowMs k where
  room := (h.room_next hstep).1
  flight := (h.room_next hstep).2
  row := by
    obtain ⟨⟨-, hstored⟩, rfl⟩ := hstep
    rw [rows_act, system_act]
    rcases hsaving : w.system.saving a with - | ⟨saved, reply⟩
    · -- Nothing is saved.
      refine h.row.imp_right ?_
      rintro ⟨⟨row, hflight, hrow⟩, hrows⟩
      refine ⟨⟨row, ?_, hrow⟩, hrows⟩
      rcases hflight.next_or_saving a with hnext | ⟨reply, hsaved⟩
      · exact hnext
      · cases hsaving.symm.trans hsaved
    · dsimp only
      rw [if_pos (hstored (saved, reply) hsaving)]
      have hsaved := h.flight saved (inFlight_of_saving hsaving)
      -- The snapshot of the drain is in flight until it is saved.
      have hflight : ∀ row, w.system.InFlight row → row ≠ saved →
          (w.system.next stores a).InFlight row := fun row hrow hne => by
        rcases hrow.next_or_saving a with hnext | ⟨reply', hother⟩
        · exact hnext
        · rw [hsaving] at hother
          exact absurd (Prod.mk.inj (Option.some.inj hother)).1.symm hne
      by_cases hmatch : saved.matchId = k
      · subst hmatch
        rcases h.row with ⟨row, hrow, haborted, hlate⟩ | ⟨⟨row, hrow, hmatch, haborted, htime⟩, hrows⟩
        · refine .inl ?_
          by_cases hearlier : saved.snapshotAtMs < row.snapshotAtMs
          · exact ⟨row, lookup_storeRow_of_lt hrow hearlier, haborted, hlate⟩
          · refine ⟨saved, lookup_storeRow_of_le fun old hold => ?_, ?_, by omega⟩
            · rw [Option.some.inj (hold.symm.trans hrow)]
              omega
            · exact (hsaved rfl).resolve_right (by omega)
        · by_cases hlate : nowMs ≤ saved.snapshotAtMs
          · refine .inl ⟨saved, lookup_storeRow_of_le fun old hold => ?_, ?_, hlate⟩
            · exact (hrows old hold).trans hlate
            · exact (hsaved rfl).resolve_right (by omega)
          · refine .inr ⟨⟨row, hflight row hrow ?_, hmatch, haborted, htime⟩, fun old hold => ?_⟩
            · rintro rfl
              omega
            · rcases lookup_storeRow hold with hold | ⟨rfl, -⟩
              · exact hrows old hold
              · omega
      · rw [lookup_storeRow_of_ne hmatch]
        refine h.row.imp_right ?_
        rintro ⟨⟨row, hrow, hk, htail⟩, hrows⟩
        refine ⟨⟨row, hflight row hrow ?_, hk, htail⟩, hrows⟩
        rintro rfl
        exact hmatch hk

end Drained

/-- **A drain is durable** — whatever the calls and the steps that are taken after it, in any order: once
no call has anything left to save, the row of every game that it aborted says so, and a restart does not
load it. -/
theorem abort_durable (hwriter : stores.hasSnapshotWriter = true)
    (hrun : Run (RoomSystem.Serve stores) {} ops w.system) (hlast : w.AbortsLast nowMs)
    (hdrain : Run (Drain stores) (w.next stores (.act (.abortUnfinishedGames nowMs))) later w')
    (hidle : ∀ row, ¬w'.system.InFlight row) (hr : w.system.room? x = some r)
    (hu : r.phase.unfinished = true) :
    ∃ row, w'.rows.lookup r.matchId = some row ∧ row.phase = .aborted ∧
      (RoomsRow.ofRecord row).loaded stores.collation = false := by
  have hregistered : w.system.Registered := hrun.invariant (fun _ _ _ h hstep => h.serve hstep) .start
  have hdrained : w'.Drained nowMs r.matchId := hdrain.invariant
    (I := fun w => w.Drained nowMs r.matchId) (fun _ _ _ h hstep => h.next hstep)
    (.start hregistered hwriter hlast hr hu)
  rcases hdrained.row with ⟨row, hrow, haborted, -⟩ | ⟨⟨row, hflight, -⟩, -⟩
  · exact ⟨row, hrow, haborted, RoomsRow.loaded_of_final (.inr (congrArg RoomPhase.toText haborted))⟩
  · exact absurd hflight (hidle row)

/-- The service after some calls and steps. -/
def serve (w : RoomWorld) (as : List Action) : RoomWorld :=
  as.foldl (fun (w : RoomWorld) a => w.next RoomSystem.mysqlStores (.act a)) w

/-- A game that is being played, and a `Tick` that has just taken a snapshot of it. -/
def playedGame : List Action :=
  [.create "m-1" ["alice", "bob"] 1000 "r-1", .join "r-1" "alice" 1000, .join "r-1" "bob" 1000, .tick 1100]

/-- The game is drained, and both calls save what they took, the drain first. -/
def drainedGame (nowMs : Int) : RoomWorld :=
  (((({} : RoomWorld).serve playedGame).next RoomSystem.mysqlStores
    (.act (.abortUnfinishedGames nowMs))).serve [.resume 1 {}, .resume 0 {}])

theorem abort_durable_played :
    ∃ row, (drainedGame 1200).rows.lookup "m-1" = some row ∧ row.phase = .aborted ∧
      (RoomsRow.ofRecord row).loaded RoomSystem.mysqlStores.collation = false := by
  obtain ⟨r, hr, hu, hmatch⟩ : ∃ r, (({} : RoomWorld).serve playedGame).system.room? "r-1" = some r ∧
      r.phase.unfinished = true ∧ r.matchId = "m-1" := ⟨_, rfl, rfl, rfl⟩
  have hrun : Run (RoomSystem.Serve RoomSystem.mysqlStores) {} (playedGame.map .act)
      (({} : RoomWorld).serve playedGame).system := Run.of_guarded (by decide)
  rw [← hmatch]
  exact abort_durable rfl hrun (by decide) (Run.of_guarded (by decide)) (RoomSystem.idle_of_records (by decide)) hr hu

/-- Where the two snapshots are of one millisecond, the drain is undone: the game is loaded again. -/
theorem not_abort_durable :
    ¬ ∀ (stores : RoomStores) (ops : List Op) (w w' : RoomWorld) (nowMs : Int) (later : List Action)
      (x : String) (r : BattleRoom), stores.hasSnapshotWriter = true → Run (Step stores) {} ops w →
      Run (Drain stores) (w.next stores (.act (.abortUnfinishedGames nowMs))) later w' →
      (∀ row, ¬w'.system.InFlight row) → w.system.room? x = some r → r.phase.unfinished = true →
      ∃ row, w'.rows.lookup r.matchId = some row ∧ row.phase = .aborted := by
  intro hclaim
  obtain ⟨r, hr, hu, hmatch⟩ : ∃ r, (({} : RoomWorld).serve playedGame).system.room? "r-1" = some r ∧
      r.phase.unfinished = true ∧ r.matchId = "m-1" := ⟨_, rfl, rfl, rfl⟩
  obtain ⟨row, hrow, haborted⟩ := hclaim RoomSystem.mysqlStores (playedGame.map .act) _ (drainedGame 1100)
    1100 _ "r-1" r rfl (Run.of_guarded (by decide)) (Run.of_guarded (by decide))
    (RoomSystem.idle_of_records (by decide)) hr hu
  have hplaying : ((drainedGame 1100).rows.lookup "m-1").map (·.phase) = some .playing := by decide
  rw [hmatch] at hrow
  rw [hrow, Option.map_some, haborted] at hplaying
  cases hplaying

end RoomWorld

end RealtimeGame.Room
