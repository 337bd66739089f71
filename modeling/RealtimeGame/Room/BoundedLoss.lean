import RealtimeGame.Room.LastSnapshot

/-!
# Room/BoundedLoss — how many frames a restart can lose

Every Tick begins when the last one has saved its snapshots.  Then the last snapshot that was saved of a
room is at most ten frames behind the room, after every Tick, in every run (`bounded_loss`).
-/

open Library

namespace RealtimeGame.Room

namespace RoomSystem

variable {stores : RoomStores} {s s' : RoomSystem} {x : String} {r r' : BattleRoom} {a : Action}
  {clockMs clockMs' nowMs : Int} {row : RoomSnapshotRecord}

/-! ## The rooms and their snapshots

For each room: the frame it is at, and the time and frame of its last snapshot. -/

/-- When the last snapshot of a match was taken. -/
def writtenAt (s : RoomSystem) (matchId : String) : Option Int :=
  ((s.manager.snapshotState.lookup matchId).filter (·.written)).map (·.lastWriteMs)

theorem writtenAt_eq_some {k : String} {writtenMs : Int} : s.writtenAt k = some writtenMs ↔
    ∃ state, s.manager.snapshotState.lookup k = some state ∧ state.written = true ∧
      state.lastWriteMs = writtenMs := by
  simp only [writtenAt, Option.map_eq_some_iff, Option.filter_eq_some_iff, and_assoc]

/-- **Every room is near its last snapshot**, once it has one. -/
structure Tracked (clockMs : Int) (s : RoomSystem) : Prop extends s.Registered where
  ids : ∀ row, s.InFlight row → row.roomId ∈ s.created
  frame : ∀ x r, s.room? x = some r → 0 ≤ r.frame
  /-- A snapshot that is still to be saved is not far behind, whether or not it is the last one. -/
  flight : ∀ x r row, s.room? x = some r → s.InFlight row → row.roomId = x →
    0 ≤ row.frame ∧ r.frame - row.frame ≤ kSnapshotIntervalMs / kFrameIntervalMs
  near : ∀ x r writtenMs, s.room? x = some r → s.writtenAt r.matchId = some writtenMs →
    ∃ frame, r.Near clockMs writtenMs frame ∧ s.Kept x frame

/-- A step of an orderly run: the generated id is new, the save of a snapshot succeeds, and a Tick begins
when nothing is left to be saved. -/
def Orderly (stores : RoomStores) (s : RoomSystem) (a : Action) (s' : RoomSystem) : Prop :=
  (s.Fresh a ∧ s.Saves a ∧ (a.isTick = true → s.threads.flatMap (·.records) = [])) ∧
    s' = s.next stores a

/-- The call that an action makes to a room has the clock value of the action. -/
theorem join_of_mem_roomCalls {playerId : String}
    (h : .op (.join playerId nowMs) ∈ s.roomCalls x a) : a.clock? = some nowMs := by
  cases a with
  | join roomId player nowMs' =>
    simp only [roomCalls] at h
    split at h
    · cases List.mem_singleton.mp h
      rfl
    · cases h
  | submitInput | setPresence =>
    simp only [roomCalls] at h
    split at h
    · cases List.mem_singleton.mp h
    · cases h
  | tick | abortUnfinishedGames => cases List.mem_singleton.mp h
  | resume thread answer =>
    simp only [roomCalls] at h
    split at h
    · split at h
      · have heq := List.mem_singleton.mp h
        split at heq <;> cases heq
      · cases h
    · cases h
  | create | getState | getSnapshotsSince | getResult | beginShutdown => cases h

namespace Tracked

/-- A room that is there after an action was there before it, or is a new one. -/
theorem frame_next (h : ∀ x r, s.room? x = some r → 0 ≤ r.frame)
    (hr' : (s.next stores a).room? x = some r') : 0 ≤ r'.frame := by
  rcases hr : s.room? x with - | r
  · obtain ⟨_, _, _, -, -, rfl⟩ := room?_next_new hr hr'
    exact Int.le_refl 0
  · rw [room?_next hr] at hr'
    split at hr'
    · cases hr'
    obtain rfl := Option.some.inj hr'
    exact BattleRoom.frame_calls (h x r hr) _

/-- Nothing but Ticks and drains takes snapshots. -/
theorem taken_of_quiet (htick : ∀ nowMs, a ≠ .tick nowMs)
    (hdrain : ∀ nowMs, a ≠ .abortUnfinishedGames nowMs) : s.taken stores a = [] := by
  cases a with
  | tick nowMs => exact absurd rfl (htick nowMs)
  | abortUnfinishedGames nowMs => exact absurd rfl (hdrain nowMs)
  | _ => rfl

/-- A quiet action moves no frame of a room, or begins its game. -/
theorem frame_roomCalls (htick : ∀ nowMs, a ≠ .tick nowMs)
    (hdrain : ∀ nowMs, a ≠ .abortUnfinishedGames nowMs) :
    (r.calls (s.roomCalls x a)).frame = r.frame ∨ (r.calls (s.roomCalls x a)).frame = 0 := by
  rcases s.roomCalls_cases x a with hnil | ⟨c, hc⟩
  · rw [hnil]
    exact .inl rfl
  · have hnotick := (ne_of_mem_roomCalls (s := s) (x := x) (c := c) htick hdrain
      (by rw [hc]; exact List.mem_singleton_self c)).1
    rw [hc]
    obtain ⟨hsame, -⟩ | ⟨_, _, -, -, -, -, hclock⟩ := BattleRoom.clock_call_cases (r := r) hnotick
    · exact .inl (congrArg BattleRoom.FrameClock.frame hsame)
    · exact .inr (congrArg BattleRoom.FrameClock.frame hclock)

theorem near_roomCalls {writtenMs frame : Int} (h : r.Near clockMs writtenMs frame)
    (htick : ∀ nowMs, a ≠ .tick nowMs) (hdrain : ∀ nowMs, a ≠ .abortUnfinishedGames nowMs)
    (hclock : ∀ t ∈ a.clock?, t = clockMs) :
    (r.calls (s.roomCalls x a)).Near clockMs writtenMs frame := by
  rcases s.roomCalls_cases x a with hnil | ⟨c, hc⟩
  · rw [hnil]
    exact h
  · have hmem : c ∈ s.roomCalls x a := by
      rw [hc]
      exact List.mem_singleton_self c
    rw [hc]
    refine h.call (ne_of_mem_roomCalls htick hdrain hmem).1 fun playerId nowMs heq => ?_
    exact hclock nowMs (join_of_mem_roomCalls (heq ▸ hmem))

/-- **A quiet action**: a call to one room, a save, a query. -/
theorem quiet (h : s.Tracked clockMs) (hfresh : s.Fresh a) (hsaves : s.Saves a)
    (htick : ∀ nowMs, a ≠ .tick nowMs) (hdrain : ∀ nowMs, a ≠ .abortUnfinishedGames nowMs)
    (hle : clockMs ≤ clockMs') (hclock : ∀ t ∈ a.clock?, t = clockMs') :
    (s.next stores a).Tracked clockMs' := by
  have hflight : ∀ row, (s.next stores a).InFlight row → s.InFlight row := fun row hrow =>
    (InFlight.of_next hrow).resolve_right (by rw [taken_of_quiet htick hdrain]; exact List.not_mem_nil)
  refine
    { toRegistered := h.act hfresh
      ids := fun row hrow => Registered.created_next (h.ids row (hflight row hrow)) a
      frame := fun x r' => frame_next h.frame
      flight := fun x r' row hr' hrow hroom => ?_
      near := fun x r' writtenMs hr' hwritten => ?_ }
  · rcases hr : s.room? x with - | r
    · -- The id of a new room is new.
      obtain ⟨matchId, playerIds, nowMs, rfl, -, -⟩ := room?_next_new hr hr'
      exact absurd (hroom ▸ h.ids row (hflight row hrow)) hfresh
    · obtain ⟨hbase, hbound⟩ := h.flight x r row hr (hflight row hrow) hroom
      rw [room?_next hr] at hr'
      split at hr'
      · cases hr'
      obtain rfl := Option.some.inj hr'
      refine ⟨hbase, ?_⟩
      rcases frame_roomCalls (s := s) (x := x) (r := r) htick hdrain with hframe | hframe
      · rw [hframe]
        exact hbound
      · rw [hframe]
        simp only [kSnapshotIntervalMs, kFrameIntervalMs]
        omega
  · obtain ⟨state, hstate, hdone, rfl⟩ := writtenAt_eq_some.mp hwritten
    have hbefore := lookup_state_next htick hdrain hstate
    rcases hr : s.room? x with - | r
    · cases (h.toRegistered.lookup_state_new hfresh hr hr').symm.trans hbefore
    · rw [room?_next hr] at hr'
      split at hr'
      · cases hr'
      obtain rfl := Option.some.inj hr'
      rw [(calls_ids r _).2] at hbefore
      obtain ⟨frame, hnear, hkept⟩ := h.near x r _ hr (writtenAt_eq_some.mpr ⟨state, hbefore, hdone, rfl⟩)
      refine ⟨frame, near_roomCalls (hnear.mono hle) htick hdrain hclock, hkept.next hsaves ?_⟩
      rw [taken_of_quiet htick hdrain]
      exact fun row hrow => absurd hrow List.not_mem_nil

/-- A snapshot that a Tick takes is of the room whose id it has. -/
theorem of_mem_taken_tick (h : s.Registered) (hrow : row ∈ s.taken stores (.tick nowMs)) :
    ∃ r, s.room? row.roomId = some r ∧ row = (r.tick nowMs).2.makeSnapshotRecord nowMs ∧
      RoomManager.shouldSnapshot ((s.manager.snapshotState.lookup r.matchId).getD {})
        (r.tick nowMs).2.phase nowMs = true := by
  obtain ⟨x, r, hr, rfl, hdue⟩ := h.consistent.due_of_mem_snapshots hrow
  refine ⟨r, ?_, rfl, hdue⟩
  have hid : ((r.tick nowMs).2.makeSnapshotRecord nowMs).roomId = x :=
    BattleRoom.Becomes.tick.roomId.trans (h.consistent.key x r hr)
  rw [hid]
  exact hr

/-- **A Tick** that begins when nothing is left to be saved. -/
theorem tick (h : s.Tracked clockMs) (hwriter : stores.hasSnapshotWriter = true)
    (hidle : s.threads.flatMap (·.records) = []) (hle : clockMs ≤ nowMs) :
    (s.next stores (.tick nowMs)).Tracked nowMs := by
  have hsaves : s.Saves (.tick nowMs) := fun p hp => by cases hp
  have hflight : ∀ row, (s.next stores (.tick nowMs)).InFlight row → row ∈ s.taken stores (.tick nowMs) :=
    fun row hrow => (InFlight.of_next hrow).resolve_left (idle_of_records hidle row)
  refine
    { toRegistered := h.act trivial
      ids := fun row hrow => ?_
      frame := fun x r' => frame_next h.frame
      flight := fun x r' row hr' hrow hroom => ?_
      near := fun x r' writtenMs hr' hwritten => ?_ }
  · obtain ⟨r, hr, -, -⟩ := of_mem_taken_tick h.toRegistered (hflight row hrow)
    exact Registered.created_next (h.noted _ r hr) _
  · obtain ⟨r, hr, hrowEq, -⟩ := of_mem_taken_tick h.toRegistered (hflight row hrow)
    have hframe := frame_next h.frame hr'
    rw [hroom] at hr
    rw [room?_next hr] at hr'
    split at hr'
    · cases hr'
    obtain rfl := Option.some.inj hr'
    have hsame : row.frame = (r.calls (s.roomCalls x (.tick nowMs))).frame := by
      rw [hrowEq]
      rfl
    rw [hsame, Int.sub_self]
    exact ⟨hframe, by decide⟩
  · rcases hr : s.room? x with - | r
    · obtain ⟨_, _, _, heq, -⟩ := room?_next_new hr hr'
      cases heq
    have hframe := frame_next h.frame hr'
    rw [room?_next hr] at hr'
    split at hr'
    · cases hr'
    case isFalse hkept =>
      have hkept : (r.tick nowMs).2.isExpired nowMs = false := Bool.eq_false_iff.mpr hkept
      obtain rfl := Option.some.inj hr'
      change 0 ≤ (r.tick nowMs).2.frame at hframe
      change ∃ frame, (r.tick nowMs).2.Near nowMs writtenMs frame ∧ _
      rw [(calls_ids r _).2] at hwritten
      obtain ⟨state, hstate, hdone, rfl⟩ := writtenAt_eq_some.mp hwritten
      have hcollected := h.consistent.lookup_state_tickLocked hwriter hr hkept
      obtain rfl := Option.some.inj (hcollected.symm.trans hstate)
      unfold BattleRoom.collected at hdone ⊢
      split
      case isTrue hdue =>
        refine ⟨_, .taken hframe, fun row hrow hroom => ?_, .inl ⟨_, inFlight_of_mem_taken
          ((h.consistent.collected_room hwriter hr nowMs).2 hdue), ?_⟩⟩
        · obtain ⟨r₀, hr₀, rfl, -⟩ := of_mem_taken_tick h.toRegistered (hflight row hrow)
          rw [hroom] at hr₀
          obtain rfl := Option.some.inj (hr.symm.trans hr₀)
          exact Int.le_refl _
        · exact BattleRoom.Becomes.tick.roomId.trans (h.consistent.key x r hr)
      case isFalse hdue =>
        -- No snapshot of this room was taken, and the last one is less than a second old.
        rw [if_neg hdue] at hdone
        rcases hbefore : s.manager.snapshotState.lookup r.matchId with - | state
        · rw [hbefore] at hdone
          cases hdone
        rw [hbefore, Option.getD_some] at hdone
        have hrecent : nowMs - state.lastWriteMs < kSnapshotIntervalMs := by
          rw [hbefore, Option.getD_some, RoomManager.shouldSnapshot] at hdue
          split at hdue
          · exact absurd rfl hdue
          rw [hdone, if_neg (by decide)] at hdue
          simpa using hdue
        obtain ⟨frame, hnear, hkept⟩ :=
          h.near x r _ hr (writtenAt_eq_some.mpr ⟨state, hbefore, hdone, rfl⟩)
        refine ⟨frame, hnear.tick hle hrecent, hkept.next hsaves fun row hrow hroom => ?_⟩
        obtain ⟨r₀, hr₀, -, hdue₀⟩ := of_mem_taken_tick h.toRegistered hrow
        rw [hroom] at hr₀
        obtain rfl := Option.some.inj (hr.symm.trans hr₀)
        exact absurd hdue₀ hdue

/-- A snapshot that a drain takes is of the unfinished room whose id it has. -/
theorem of_mem_taken_drain (h : s.Registered)
    (hrow : row ∈ s.taken stores (.abortUnfinishedGames nowMs)) :
    ∃ r, s.room? row.roomId = some r ∧ r.phase.unfinished = true ∧ row.frame = r.frame := by
  simp only [taken] at hrow
  split at hrow
  · obtain ⟨x, r, hr, hu, rfl⟩ := RoomManager.mem_snapshots_abortUnfinishedLocked.mp hrow
    refine ⟨r, ?_, hu, rfl⟩
    change s.room? r.roomId = some r
    rw [h.consistent.key x r hr]
    exact hr
  · cases hrow

/-- **A drain**: what it aborts is over. -/
theorem drain (h : s.Tracked clockMs) (hwriter : stores.hasSnapshotWriter = true) (nowMs : Int) :
    (s.next stores (.abortUnfinishedGames nowMs)).Tracked clockMs := by
  have hsaves : s.Saves (.abortUnfinishedGames nowMs) := fun p hp => by cases hp
  have hflight : ∀ x r' row, (s.next stores (.abortUnfinishedGames nowMs)).room? x = some r' →
      (s.next stores (.abortUnfinishedGames nowMs)).InFlight row → row.roomId = x →
        0 ≤ row.frame ∧ r'.frame - row.frame ≤ kSnapshotIntervalMs / kFrameIntervalMs := by
    intro x r' row hr' hrow hroom
    obtain ⟨r, hr, hsame⟩ := room?_drain hr'
    have hframe : r'.frame = r.frame := by
      rcases hsame with ⟨-, rfl⟩ | ⟨-, rfl⟩ <;> rfl
    rw [hframe]
    rcases InFlight.of_next hrow with hold | hnew
    · exact h.flight x r row hr hold hroom
    · obtain ⟨r₀, hr₀, -, heq⟩ := of_mem_taken_drain h.toRegistered hnew
      rw [hroom] at hr₀
      obtain rfl := Option.some.inj (hr.symm.trans hr₀)
      rw [heq, Int.sub_self]
      exact ⟨h.frame x r hr, by decide⟩
  refine
    { toRegistered := h.act trivial
      ids := fun row hrow => ?_
      frame := fun x r' => frame_next h.frame
      flight := hflight
      near := fun x r' writtenMs hr' hwritten => ?_ }
  · rcases InFlight.of_next hrow with hold | hnew
    · exact Registered.created_next (h.ids row hold) _
    · obtain ⟨r, hr, -, -⟩ := of_mem_taken_drain h.toRegistered hnew
      exact Registered.created_next (h.noted _ r hr) _
  · have hframe := frame_next h.frame hr'
    obtain ⟨r, hr, ⟨hu, rfl⟩ | ⟨hover, rfl⟩⟩ := room?_drain hr'
    · -- Whatever is still to be saved of it is near enough, and nothing will move any more.
      have hlimit : kSnapshotIntervalMs / kFrameIntervalMs = 10 := by decide
      refine ⟨max 0 ((r.abort nowMs).frame - kSnapshotIntervalMs / kFrameIntervalMs),
        .passed rfl (Int.le_max_left _ _) ?_, fun row hrow hroom => ?_, .inl ?_⟩
      · omega
      · obtain ⟨hbase, hbound⟩ := hflight x _ row hr' hrow hroom
        omega
      · refine ⟨(r.abort nowMs).makeSnapshotRecord nowMs, inFlight_of_mem_taken ?_,
          h.consistent.key x r hr⟩
        rw [taken, if_pos hwriter]
        exact RoomManager.mem_snapshots_abortUnfinishedLocked.mpr ⟨x, r, hr, hu, rfl⟩
    · obtain ⟨state, hstate, hdone, rfl⟩ := writtenAt_eq_some.mp hwritten
      simp only [next, RoomManager.lookup_state_abortUnfinishedLocked] at hstate
      rw [if_neg] at hstate
      · obtain ⟨frame, hnear, hkept⟩ :=
          h.near x r' _ hr (writtenAt_eq_some.mpr ⟨state, hstate, hdone, rfl⟩)
        refine ⟨frame, hnear, hkept.next hsaves fun row hrow hroom => ?_⟩
        obtain ⟨r₀, hr₀, hu, -⟩ := of_mem_taken_drain h.toRegistered hrow
        rw [hroom] at hr₀
        obtain rfl := Option.some.inj (hr.symm.trans hr₀)
        cases hover.symm.trans hu
      · rintro ⟨t, ht, hmatch⟩
        obtain ⟨⟨y, hy⟩, hu⟩ := RoomManager.mem_unfinishedRooms.mp ht
        obtain ⟨-, rfl⟩ := h.consistent.oneRoom hy hr hmatch
        cases hover.symm.trans hu

/-- **One step of an orderly run**, at a clock value that is not below those before. -/
theorem step (h : s.Tracked clockMs) (hwriter : stores.hasSnapshotWriter = true)
    (hstep : Orderly stores s a s') (hle : ∀ t ∈ a.clock?, clockMs ≤ t) :
    s'.Tracked (a.clock?.getD clockMs) := by
  obtain ⟨⟨hfresh, hsaves, hserial⟩, rfl⟩ := hstep
  by_cases htick : ∃ nowMs, a = .tick nowMs
  · obtain ⟨nowMs, rfl⟩ := htick
    exact h.tick hwriter (hserial rfl) (hle nowMs rfl)
  by_cases hdrain : ∃ nowMs, a = .abortUnfinishedGames nowMs
  · obtain ⟨nowMs, rfl⟩ := hdrain
    exact h.drain hwriter nowMs
  refine h.quiet hfresh hsaves (fun nowMs heq => htick ⟨nowMs, heq⟩)
    (fun nowMs heq => hdrain ⟨nowMs, heq⟩) ?_ fun t ht => ?_
  · rcases hclock : a.clock? with - | t
    · exact Int.le_refl _
    · exact hle t hclock
  · rw [Option.mem_def.mp ht]
    rfl

/-- **A whole run**, whose clock values never go back. -/
theorem run {as : List Action} (hwriter : stores.hasSnapshotWriter = true)
    (hrun : Run (Orderly stores) s as s') (h : s.Tracked clockMs)
    (hclock : (clockMs :: as.filterMap Action.clock?).Pairwise (· ≤ ·)) :
    ∃ clockMs', s'.Tracked clockMs' := by
  induction hrun generalizing clockMs with
  | nil s => exact ⟨clockMs, h⟩
  | @cons s m t a as hstep hrest ih =>
    rw [List.filterMap_cons] at hclock
    rcases ha : a.clock? with - | t
    · rw [ha] at hclock
      refine ih (h.step hwriter hstep fun t ht => ?_) (by rw [ha]; exact hclock)
      rw [ha] at ht
      cases ht
    · rw [ha] at hclock
      rw [List.pairwise_cons] at hclock
      refine ih (h.step hwriter hstep fun t' ht' => ?_) (by rw [ha]; exact hclock.2)
      rw [ha] at ht'
      obtain rfl := Option.some.inj ht'
      exact hclock.1 t List.mem_cons_self

end Tracked

/-! ## The start

A restart takes the frames from the rows. -/

/-- **A service that has restarted**: `Restore` has run on the rows of a table, and saved what it rejected. -/
def Restarted (stores : RoomStores) (s : RoomSystem) : Prop :=
  ∃ startMs rows saves, Run (Serve stores) {} (.restore startMs rows :: saves) s ∧
    (∀ op ∈ saves, ∃ thread answer, op = .act (.resume thread answer)) ∧
    s.threads.flatMap (·.records) = []

/-- Nothing is remembered of a restored room, and its frame was checked. -/
theorem restored_start (stores : RoomStores) (startMs : Int) (rows : List RoomsRow) :
    (({} : RoomSystem).serve stores (.restore startMs rows)).manager.snapshotState = ∅ ∧
      ∀ x r, (({} : RoomSystem).serve stores (.restore startMs rows)).room? x = some r → 0 ≤ r.frame := by
  simp only [serve]
  split
  · obtain ⟨hstate, hrooms⟩ := RoomManager.room_restoreLocked {} startMs
      ((RoomsRow.loadUnfinished stores.collation rows).getD [])
    refine ⟨hstate, fun x r hr => ?_⟩
    obtain hnone | ⟨row, hrow, hgood, rfl⟩ := hrooms x r hr
    · cases hnone
    · obtain ⟨row, -, -, rfl⟩ := RoomsRow.mem_loadUnfinished hrow
      exact (validateRoomSnapshot_eq_empty.mp (row.decode_eq hgood).2.2).frame.1
  · exact ⟨rfl, fun x r hr => by cases hr⟩

theorem Restarted.tracked (h : Restarted stores s) (clockMs : Int) : s.Tracked clockMs := by
  obtain ⟨startMs, rows, saves, hrun, hsaves, hidle⟩ := h
  obtain ⟨m, hfirst, hrest⟩ := Run.cons_iff.mp hrun
  have hregistered := hrun.invariant (fun _ _ _ h hstep => h.serve hstep) Registered.start
  have hquiet : s.manager.snapshotState = ∅ ∧ ∀ x r, s.room? x = some r → 0 ≤ r.frame := by
    refine hrest.invariant_of_guard (G := fun _ op => ∃ thread answer, op = .act (.resume thread answer))
      (I := fun s => s.manager.snapshotState = ∅ ∧ ∀ x r, s.room? x = some r → 0 ≤ r.frame) ?_ ?_ ?_
    · rintro s op s' ⟨hstate, hframe⟩ ⟨thread, answer, rfl⟩ ⟨-, rfl⟩
      refine ⟨?_, fun x r' => Tracked.frame_next hframe⟩
      simp only [serve, next]
      split
      · exact hstate
      · rw [(tables_resume _ _ _).2]
        exact hstate
    · rintro pre op post m rfl -
      exact hsaves op (by simp)
    · rw [hfirst.2]
      exact restored_start stores startMs rows
  exact
    { toRegistered := hregistered
      ids := fun row hrow => absurd hrow (idle_of_records hidle row)
      frame := hquiet.2
      flight := fun x r row _ hrow => absurd hrow (idle_of_records hidle row)
      near := fun x r writtenMs _ hwritten => by
        obtain ⟨state, hstate, -⟩ := writtenAt_eq_some.mp hwritten
        rw [hquiet.1] at hstate
        cases hstate }

/-! ## A room that was there at a Tick

From then on its snapshots are on schedule. -/

/-- This action makes room `x`. -/
def Makes (x : String) : Action → Prop
  | .create _ _ _ roomId => roomId = x
  | _ => False

instance (x : String) : DecidablePred (Makes x)
  | .create _ _ _ roomId => inferInstanceAs (Decidable (roomId = x))
  | .join .. | .submitInput .. | .setPresence .. | .getState .. | .getSnapshotsSince .. | .getResult ..
  | .tick .. | .abortUnfinishedGames .. | .beginShutdown | .resume .. => .isFalse id

/-- There is a snapshot of room `x`, if there is a room `x`. -/
def Noted (s : RoomSystem) (x : String) : Prop :=
  ∀ r, s.room? x = some r → (s.writtenAt r.matchId).isSome = true

/-- What is remembered of a room stays for as long as the room does. -/
theorem lookup_state_of_quiet (h : s.Registered) (hr : s.room? x = some r)
    (hr' : (s.next stores a).room? x = some r') (htick : ∀ nowMs, a ≠ .tick nowMs)
    (hdrain : ∀ nowMs, a ≠ .abortUnfinishedGames nowMs) :
    (s.next stores a).manager.snapshotState.lookup r.matchId =
      s.manager.snapshotState.lookup r.matchId := by
  have hkept : (r.calls (s.roomCalls x a)).reapedBy a = false := by
    rw [room?_next hr] at hr'
    split at hr'
    · cases hr'
    case isFalse hkept => exact Bool.eq_false_iff.mpr hkept
  cases a with
  | create matchId playerIds nowMs roomId =>
    simp only [next, RoomManager.create]
    split; · rfl
    split; · rfl
    split; · rfl
    split <;> rfl
  | join roomId playerId nowMs =>
    simp only [next, RoomManager.join]
    split <;> rfl
  | submitInput roomId playerId kind =>
    simp only [next, RoomManager.submitInput]
    split <;> rfl
  | setPresence roomId playerId online nowMs =>
    simp only [next, RoomManager.setPresence]
    split <;> rfl
  | getState roomId nowMs => exact h.consistent.lookup_state_reapExpired hr hkept
  | getSnapshotsSince roomId sinceFrame nowMs =>
    rw [next, RoomManager.getSnapshotsSince_snd]
    exact h.consistent.lookup_state_reapExpired hr hkept
  | getResult matchId nowMs =>
    rw [manager_getResult]
    split
    case isTrue hvalid =>
      simp only [BattleRoom.reapedBy, Action.reapsAt, hvalid, if_true] at hkept
      exact h.consistent.lookup_state_reapExpired hr hkept
    case isFalse => rfl
  | tick nowMs => exact absurd rfl (htick nowMs)
  | abortUnfinishedGames nowMs => exact absurd rfl (hdrain nowMs)
  | beginShutdown => rfl
  | resume thread answer =>
    simp only [next]
    split
    · rfl
    · rw [(tables_resume _ _ _).2]

/-- A Tick sees to it that every room has a snapshot. -/
theorem noted_tick (h : s.Registered) (hwriter : stores.hasSnapshotWriter = true) (nowMs : Int) :
    (s.next stores (.tick nowMs)).Noted x := by
  intro r' hr'
  rcases hr : s.room? x with - | r
  · obtain ⟨_, _, _, heq, -⟩ := room?_next_new hr hr'
    cases heq
  rw [room?_next hr] at hr'
  split at hr'
  · cases hr'
  case isFalse hkept =>
    obtain rfl := Option.some.inj hr'
    rw [(calls_ids r _).2]
    have hcollected := h.consistent.lookup_state_tickLocked hwriter hr (Bool.eq_false_iff.mpr hkept)
    refine Option.isSome_iff_exists.mpr ⟨_, writtenAt_eq_some.mpr ⟨_, hcollected, ?_, rfl⟩⟩
    unfold BattleRoom.collected
    split
    case isTrue => rfl
    case isFalse hdue =>
      rcases hwritten : ((s.manager.snapshotState.lookup r.matchId).getD {}).written with - | -
      · -- What was never written is due.
        rw [RoomManager.shouldSnapshot, hwritten] at hdue
        split at hdue <;> exact absurd rfl hdue
      · rfl

theorem noted_next (h : s.Registered) (hwriter : stores.hasSnapshotWriter = true) (hnoted : s.Noted x)
    (hnew : ¬Makes x a) : (s.next stores a).Noted x := by
  by_cases htick : ∃ nowMs, a = .tick nowMs
  · obtain ⟨nowMs, rfl⟩ := htick
    exact noted_tick h hwriter nowMs
  intro r' hr'
  rcases hr : s.room? x with - | r
  · obtain ⟨_, _, _, rfl, -⟩ := room?_next_new hr hr'
    exact absurd rfl hnew
  have hmatch : r'.matchId = r.matchId := by
    rw [room?_next hr] at hr'
    split at hr'
    · cases hr'
    · rw [← Option.some.inj hr']
      exact (calls_ids r _).2
  obtain ⟨writtenMs, hwritten⟩ := Option.isSome_iff_exists.mp (hnoted r hr)
  obtain ⟨state, hstate, hdone, -⟩ := writtenAt_eq_some.mp hwritten
  rw [hmatch]
  by_cases hdrain : ∃ nowMs, a = .abortUnfinishedGames nowMs
  · obtain ⟨nowMs, rfl⟩ := hdrain
    simp only [writtenAt, next, RoomManager.lookup_state_abortUnfinishedLocked]
    split
    · rfl
    · rw [hstate]
      simp [hdone]
  · refine Option.isSome_iff_exists.mpr ⟨_, writtenAt_eq_some.mpr ⟨state, ?_, hdone, rfl⟩⟩
    rw [lookup_state_of_quiet h hr hr' (fun nowMs heq => htick ⟨nowMs, heq⟩)
      fun nowMs heq => hdrain ⟨nowMs, heq⟩]
    exact hstate

/-! ## The law

Ten frames are what fits between two snapshots. -/

/-- **A restart loses ten frames at most** — after every Tick, whatever the spacing of the Ticks and
whatever happens in between, the last snapshot saved for a room is at most ten frames behind it.  `post` is
what happens from the critical section of the Tick until nothing is left to be saved, or any time later; a
room that is only made meanwhile waits for the next Tick. -/
theorem bounded_loss {s₀ : RoomSystem} {pre post : List Action} (hwriter : stores.hasSnapshotWriter = true)
    (hstart : Restarted stores s₀) (hrun : Run (Orderly stores) s₀ (pre ++ .tick nowMs :: post) s)
    (hclock : ((pre ++ .tick nowMs :: post).filterMap Action.clock?).Pairwise (· ≤ ·))
    (hidle : s.threads.flatMap (·.records) = []) (hr : s.room? x = some r)
    (hnew : ∀ a ∈ post, ¬Makes x a) :
    ∃ row, s.lastSaved x = some row ∧ r.frame - row.frame ≤ kSnapshotIntervalMs / kFrameIntervalMs := by
  -- Any clock value below the first one will do to begin with.
  obtain ⟨first, hfirst⟩ : ∃ first : Int,
      (first :: (pre ++ .tick nowMs :: post).filterMap Action.clock?).Pairwise (· ≤ ·) := by
    rcases hvalues : (pre ++ .tick nowMs :: post).filterMap Action.clock? with - | ⟨t, ts⟩
    · exact ⟨0, List.pairwise_singleton _ _⟩
    · rw [hvalues] at hclock
      refine ⟨t, List.pairwise_cons.mpr ⟨fun t' ht' => ?_, hclock⟩⟩
      rcases List.mem_cons.mp ht' with rfl | ht'
      · exact Int.le_refl _
      · exact List.rel_of_pairwise_cons hclock ht'
  obtain ⟨clockMs, htracked⟩ := (hstart.tracked first).run hwriter hrun hfirst
  have hnoted : s.Registered ∧ s.Noted x := by
    obtain ⟨m, hpre, hrest⟩ := Run.append_iff.mp hrun
    obtain ⟨m', hstep, hpost⟩ := Run.cons_iff.mp hrest
    have hregistered : m.Registered := hpre.invariant (I := Registered)
      (fun s a s' h hstep => by
        obtain ⟨⟨hfresh, -⟩, rfl⟩ := hstep
        exact h.act hfresh) (hstart.tracked 0).toRegistered
    refine hpost.invariant_of_guard (I := fun s => s.Registered ∧ s.Noted x) (G := fun _ a => ¬Makes x a)
      ?_ ?_ ?_
    · rintro s a s' ⟨hregistered, hnoted⟩ hmakes ⟨⟨hfresh, -⟩, rfl⟩
      exact ⟨hregistered.act hfresh, noted_next hregistered hwriter hnoted hmakes⟩
    · rintro pre a post m rfl -
      exact hnew a (by simp)
    · obtain ⟨⟨hfresh, -⟩, rfl⟩ := hstep
      exact ⟨hregistered.act hfresh, noted_tick hregistered hwriter nowMs⟩
  obtain ⟨writtenMs, hwritten⟩ := Option.isSome_iff_exists.mp (hnoted.2 r hr)
  obtain ⟨frame, hnear, hkept⟩ := htracked.near x r writtenMs hr hwritten
  obtain ⟨row, hrow, -⟩ | ⟨row, hlast, hframe⟩ := hkept.last
  · exact absurd hrow (idle_of_records hidle row)
  · have hbound := hnear.bound
    exact ⟨row, hlast, by omega⟩

instance : Decidable (s.Saves a) := inferInstanceAs (Decidable (∀ p ∈ s.saving a, p.2 = .done))

/-- A service without rooms to restore. -/
def emptyStart : RoomSystem := ({} : RoomSystem).serve mysqlStores (.restore 500 [])

/-- A game whose Ticks come late, and whose last one takes no snapshot. -/
def lateTicks : List Action :=
  [.create "m-1" ["alice", "bob"] 900 "r-1", .join "r-1" "alice" 1000, .join "r-1" "bob" 1000,
    .tick 1090, .resume 1 {}, .tick 1900] ++ .tick 2080 :: [.resume 2 {}, .resume 3 {}]

theorem bounded_loss_late :
    ∃ r row, (lateTicks.foldl (next mysqlStores) emptyStart).room? "r-1" = some r ∧
      (lateTicks.foldl (next mysqlStores) emptyStart).lastSaved "r-1" = some row ∧
      r.frame - row.frame ≤ kSnapshotIntervalMs / kFrameIntervalMs := by
  have hstart : Restarted mysqlStores emptyStart :=
    ⟨500, [], [], .single ⟨trivial, rfl⟩, (fun op hop => by cases hop), by decide⟩
  have hrun : Run (Orderly mysqlStores) emptyStart lateTicks (lateTicks.foldl (next mysqlStores) emptyStart) :=
    Run.of_guarded (G := fun (s : RoomSystem) (a : Action) => s.Fresh a ∧ s.Saves a ∧
      (a.isTick = true → s.threads.flatMap (·.records) = [])) (by decide +kernel)
  obtain ⟨r, hr⟩ : ∃ r, (lateTicks.foldl (next mysqlStores) emptyStart).room? "r-1" = some r :=
    Option.isSome_iff_exists.mp (by decide +kernel)
  obtain ⟨row, hrow, hbound⟩ := bounded_loss rfl hstart hrun (by decide)
    (by decide +kernel) hr (by decide)
  exact ⟨r, row, hr, hrow, hbound⟩

end RoomSystem

end RealtimeGame.Room
