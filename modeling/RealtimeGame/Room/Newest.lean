import RealtimeGame.Room.History

/-!
# Room/Newest — when the newest snapshot that is sent again is the state of the room

Every change that a snapshot shows is pushed to the buffer, but for two: a player who comes back online,
and the mark of a persisted result (`silent`).  From then on, and up to the next push, a client that
fetches what it missed ends with a state that is no longer true (`newest_shown_iff`).
-/

open Library

namespace RealtimeGame.Room

namespace BattleRoom

variable {r : BattleRoom} {nowMs : Int} {playerId : String}

/-- The newest snapshot of the buffer is up to date. -/
def Current (r : BattleRoom) : Prop := r.history.getLast? = some r.snapshot

/-- **A call that changes what a snapshot shows, and pushes none**. -/
def silent (r : BattleRoom) : Call → Bool
  | .op (.setPresence playerId true _) =>
    validId playerId && r.phase.unfinished && r.hasPlayer playerId && !r.isOnline playerId
  | .markResultPersisted => r.phase = .finishing
  | .op (.setPresence _ false _) | .op (.join ..) | .op (.submitInput ..) | .op (.tick ..) |
    .op (.markResultFailed ..) | .abortUnfinishedGames .. => false

theorem current_pushSnapshot (r : BattleRoom) : r.pushSnapshot.Current := by
  obtain ⟨front, hfront⟩ := r.history_pushSnapshot
  rw [Current, hfront, List.getLast?_concat]
  rfl

theorem Current.of_eq (h : r.Current) {r' : BattleRoom} (hhistory : r'.history = r.history)
    (hsnapshot : r'.snapshot = r.snapshot) : r'.Current := by
  rw [Current, hhistory, hsnapshot]
  exact h

/-- Without a push, the room is up to date if it shows what it showed. -/
theorem Current.iff (h : r.Current) (r' : BattleRoom) (hhistory : r'.history = r.history) :
    r'.Current ↔ r'.snapshot = r.snapshot := by
  rw [Current, hhistory, h, Option.some.injEq, eq_comm]

/-! ## A player comes back

One change that is not pushed. -/

/-- Going online shows exactly where the player was offline. -/
theorem map_goOnline {l : List Seat} (hpresence : ∀ s ∈ l, s.player.online = s.runtime.online)
    {seat : Seat} (hseat : l.find? (·.player.playerId = playerId) = some seat) :
    (updateSeat playerId Seat.goOnline l).map (·.player) = l.map (·.player) ↔
      seat.runtime.online = true := by
  induction l with
  | nil => cases hseat
  | cons s l ih =>
    rw [List.forall_mem_cons] at hpresence
    rw [updateSeat]
    by_cases hid : s.player.playerId = playerId
    · rw [List.find?_cons_of_pos (by simpa using hid)] at hseat
      obtain rfl := Option.some.inj hseat
      rw [if_pos hid, List.map_cons, List.map_cons, ← hpresence.1]
      simp only [List.cons.injEq, and_true, Seat.goOnline]
      constructor
      · intro heq
        rw [← heq]
      · intro honline
        rw [← honline]
    · rw [List.find?_cons_of_neg (by simpa using hid)] at hseat
      rw [if_neg hid, List.map_cons, List.map_cons, List.cons.injEq, ih hpresence.2 hseat]
      simp

theorem find?_of_hasPlayer (h : r.hasPlayer playerId = true) :
    ∃ seat, r.seats.find? (·.player.playerId = playerId) = some seat := by
  rw [hasPlayer, List.any_eq_true] at h
  exact Option.isSome_iff_exists.mp (List.find?_isSome.mpr h)

/-- **A player who is reported online** leaves the buffer behind exactly where he was offline. -/
theorem current_setPresence_online (hw : r.Windowed) (h : r.Current) :
    (r.setPresence nowMs playerId true).2.Current ↔
      r.silent (.op (.setPresence playerId true nowMs)) = false := by
  unfold setPresence silent
  split
  case isTrue hid => simp_all
  case isFalse hid =>
    split
    case isTrue hphase => simp_all
    case isFalse hphase =>
      split
      case isTrue hmember => simp_all
      case isFalse hmember =>
        simp only [Bool.not_eq_true', Bool.not_eq_false] at hid hphase hmember
        obtain ⟨seat, hseat⟩ := find?_of_hasPlayer hmember
        have hshown : ({ r with seats := updateSeat playerId Seat.goOnline r.seats } : BattleRoom).snapshot
            = r.snapshot ↔ seat.runtime.online = true := by
          rw [← map_goOnline hw.presence hseat]
          simp [snapshot]
        simp only [if_true]
        refine (h.iff { r with seats := updateSeat playerId Seat.goOnline r.seats } rfl).trans ?_
        rw [hshown, hid, hphase, hmember, isOnline, hseat]
        simp

/-- A frame is pushed. -/
theorem current_nextFrame (r : BattleRoom) (nowMs : Int) : (r.nextFrame nowMs).Current := by
  unfold nextFrame advanceOneFrame
  dsimp only
  split; · exact current_pushSnapshot _
  split <;> exact current_pushSnapshot _

/-- The mark of a persisted result shows, and is not pushed. -/
theorem current_markResultPersisted (h : r.Current) :
    r.markResultPersisted.Current ↔ r.silent .markResultPersisted = false := by
  unfold markResultPersisted
  split
  case isTrue hphase =>
    refine (h.iff { r with phase := .finished } rfl).trans ?_
    simp [silent, snapshot, hphase]
  case isFalse hphase => simp [silent, h, hphase]

/-- **A call leaves the buffer behind exactly if it is silent.** -/
theorem current_call (hw : r.Windowed) (h : r.Current) (c : Call) :
    (r.call c).Current ↔ r.silent c = false := by
  by_cases honline : ∃ playerId nowMs, c = .op (.setPresence playerId true nowMs)
  · obtain ⟨playerId, nowMs, rfl⟩ := honline
    exact current_setPresence_online hw h
  by_cases hmark : c = .markResultPersisted
  · subst hmark
    exact current_markResultPersisted h
  have hquiet : r.silent c = false := by
    unfold silent
    split
    case h_1 playerId nowMs => exact absurd ⟨playerId, nowMs, rfl⟩ honline
    case h_2 => exact absurd rfl hmark
    all_goals rfl
  rw [iff_true_right hquiet]
  generalize hcall : r.call c = r'
  have heffect := r.effect_call c
  rw [hcall] at heffect
  clear hcall
  cases heffect with
  | idle hquiet lastTickMs lastPersistAttemptMs => exact h.of_eq rfl rfl
  | started hphase hnew hall => exact current_pushSnapshot _
  | joined hphase hnew hmissing => exact current_pushSnapshot _
  | @attacked playerId kind hphase haccepted =>
    refine h.of_eq rfl ?_
    have hplayers := map_updateSeat (g := Seat.player) (f := Seat.attack) (fun _ => rfl) playerId r.seats
    simp only [snapshot, hplayers]
  | @wentOnline playerId nowMs hphase => exact absurd ⟨playerId, nowMs, rfl⟩ honline
  | wentOffline hphase hid honline => exact current_pushSnapshot _
  | expired hphase => exact current_pushSnapshot _
  | disconnected hphase hoffline hgrace hmem hwinner => exact current_pushSnapshot _
  | deserted hphase hoffline hgrace => exact current_pushSnapshot _
  | advanced hphase honline frames lastTickMs =>
    have hmoved : Current { r with lastTickMs := lastTickMs } := h.of_eq rfl rfl
    exact advanceFrames_invariant (fun r _ _ => r.current_nextFrame _) hmoved frames
  | persisted hphase => exact absurd rfl hmark
  | aborted hphase => exact current_pushSnapshot _

end BattleRoom

namespace RoomSystem

variable {s : RoomSystem} {a : Action} {x : String} {r : BattleRoom}

/-- A silent call recycles nothing. -/
theorem not_reapedBy_of_silent {c : BattleRoom.Call} (hc : s.roomCalls x a = [c])
    (hsilent : r.silent c = true) (r' : BattleRoom) : r'.reapedBy a = false := by
  cases a with
  | tick nowMs =>
    obtain rfl := List.singleton_injective hc
    cases hsilent
  | getState | getSnapshotsSince | getResult => cases hc
  | create | join | submitInput | setPresence | abortUnfinishedGames | beginShutdown | resume => rfl

end RoomSystem

namespace RoomWorld

variable {stores : RoomStores} {w w' : RoomWorld} {ops : List Op}

/-- **The newest snapshot that is sent again is the state of the room.** -/
def NewestShown (w : RoomWorld) : Prop :=
  ∀ nowMs sinceFrame roomId room,
    (w.system.manager.reapExpired nowMs).rooms.lookup roomId = some room →
    (w.system.manager.getSnapshotsSince nowMs roomId sinceFrame).1.outcome = .ok →
    (w.system.manager.getSnapshotsSince nowMs roomId sinceFrame).1.snapshots ≠ [] →
    (w.system.manager.getSnapshotsSince nowMs roomId sinceFrame).1.snapshots.getLast? =
      some room.snapshot

/-- **A step that changes what a room shows, and pushes no snapshot**: a player who was offline is reported
online, or a result is marked as persisted. -/
def Silent (w : RoomWorld) : Op → Prop
  | .act a => ∃ x r c, w.system.room? x = some r ∧ c ∈ w.system.roomCalls x a ∧ r.silent c = true
  | .restart _ _ => False

/-- The buffer of every room is up to date. -/
def Current (w : RoomWorld) : Prop := ∀ x r, w.system.room? x = some r → r.Current

/-! ## What is sent again

The end of the buffer, which is the last push. -/

/-- What is sent again ends as the buffer does. -/
theorem getLast?_snapshotsAfter {r : BattleRoom} (h : r.Windowed) (sinceFrame : Int)
    (hlate : sinceFrame < r.frame) : (r.snapshotsAfter sinceFrame).getLast? = r.history.getLast? := by
  obtain ⟨front, last, hlast, hframe⟩ := h.last
  rw [BattleRoom.snapshotsAfter_eq, hlast, List.getLast?_concat]
  exact getLast?_latest front (by rw [hframe]; exact hlate)

/-- There is a time at which a room is not due to be recycled. -/
theorem exists_not_expired (r : BattleRoom) : ∃ nowMs, r.isExpired nowMs = false := by
  have hfresh : ¬kFinishedRetentionMs ≤ r.finishedAtMs - r.finishedAtMs := by
    rw [sub_self]
    decide
  exact ⟨r.finishedAtMs, by rw [BattleRoom.isExpired, decide_eq_false hfresh, Bool.and_false]⟩

theorem newestShown_iff (h : w.Windowed) : w.NewestShown ↔ w.Current := by
  constructor
  · intro hshown x r hr
    obtain ⟨nowMs, halive⟩ := exists_not_expired r
    have hroom : (w.system.manager.reapExpired nowMs).rooms.lookup x = some r := by
      rw [RoomManager.lookup_reapExpired, show w.system.manager.rooms.lookup x = some r from hr,
        Option.filter_some, halive]
      rfl
    have hwr := h.room x r hr
    have hanswer := hwr.answer hroom (r.frame - 1)
    obtain ⟨front, last, hlast, hframe⟩ := hwr.last
    have hok := hanswer.ok.mpr ⟨by omega, last, by rw [hlast]; simp, by omega⟩
    have hsnapshots := RoomManager.snapshots_getSnapshotsSince hroom (r.frame - 1)
    have hend := getLast?_snapshotsAfter hwr (r.frame - 1) (by omega)
    have hne : r.snapshotsAfter (r.frame - 1) ≠ [] := by
      intro hnil
      rw [hnil, hlast, List.getLast?_concat] at hend
      cases hend
    have hnewest := hshown nowMs (r.frame - 1) x r hroom hok (by rw [hsnapshots]; exact hne)
    rw [hsnapshots, hend] at hnewest
    exact hnewest
  · intro hcurrent nowMs sinceFrame x r hroom hok hne
    have hr : w.system.room? x = some r := by
      rw [RoomManager.lookup_reapExpired, Option.filter_eq_some_iff] at hroom
      exact hroom.1
    have hwr := h.room x r hr
    have hlate : sinceFrame < r.frame := by
      by_contra hnot
      have hframes := (hwr.answer hroom sinceFrame).frames hok
      rw [range_eq_nil (by omega), List.map_eq_nil_iff] at hframes
      exact hne hframes
    rw [RoomManager.snapshots_getSnapshotsSince hroom, getLast?_snapshotsAfter hwr sinceFrame hlate]
    exact hcurrent x r hr

/-! ## Over runs

Between a silent change and the next push the buffer is behind. -/

/-- **The buffers stay up to date exactly where a step is not silent.** -/
theorem Current.next (hw : w.Windowed) (h : w.Current) (op : Op) :
    (w.next stores op).Current ↔ ¬w.Silent op := by
  cases op with
  | restart nowMs loads =>
    refine iff_of_true (fun x r hr => ?_) (fun hsilent => hsilent)
    obtain ⟨row, -, -, hrestored⟩ :=
      (RoomManager.Restored.of_rows nowMs (w.restartRows stores loads)).room x r hr
    rw [restoreFrom_eq_some hrestored]
    exact BattleRoom.current_pushSnapshot _
  | act a =>
    simp only [RoomWorld.Current, system_act]
    constructor
    · rintro hcurrent ⟨x, r, c, hr, hc, hsilent⟩
      have hone : w.system.roomCalls x a = [c] := by
        rcases w.system.roomCalls_cases x a with hnil | ⟨c', hc'⟩
        · rw [hnil] at hc
          cases hc
        · rw [hc'] at hc ⊢
          rw [List.mem_singleton.mp hc]
      have hnext : (w.system.next stores a).room? x = some (r.call c) := by
        rw [RoomSystem.room?_next hr, hone, if_neg]
        · rfl
        · rw [RoomSystem.not_reapedBy_of_silent hone hsilent]
          decide
      have hquiet := (BattleRoom.current_call (hw.room x r hr) (h x r hr) c).mp (hcurrent x _ hnext)
      cases hsilent.symm.trans hquiet
    · intro hquiet x r' hr'
      rcases hr : w.system.room? x with - | r
      · obtain ⟨matchId, playerIds, nowMs, -, -, rfl⟩ := RoomSystem.room?_next_new hr hr'
        exact BattleRoom.current_pushSnapshot _
      · rw [RoomSystem.room?_next hr] at hr'
        split at hr'
        · cases hr'
        obtain rfl := Option.some.inj hr'
        rcases w.system.roomCalls_cases x a with hnil | ⟨c, hone⟩
        · rw [hnil]
          exact h x r hr
        · rw [hone]
          refine (BattleRoom.current_call (hw.room x r hr) (h x r hr) c).mpr ?_
          refine Bool.eq_false_iff.mpr fun hsilent => hquiet ⟨x, r, c, hr, ?_, hsilent⟩
          rw [hone]
          exact List.mem_cons_self

theorem Current.start : Current {} := fun _ _ h => by cases h

/-- **What is sent again is up to date in every state of a run exactly if no step of it is silent.** -/
theorem newest_shown_iff (hrun : Run (Step stores) {} ops w) :
    (∀ pre m, pre <+: ops → Run (Step stores) {} pre m → m.NewestShown) ↔
      ∀ pre op post m, ops = pre ++ op :: post → Run (Step stores) {} pre m → ¬m.Silent op := by
  have hwindowed : ∀ {pre m}, Run (Step stores) {} pre m → m.Windowed := fun hpre =>
    hpre.invariant (fun _ _ _ h => h.step) .start
  constructor
  · rintro hall pre op post m rfl hpre
    obtain ⟨m', hpre', hrest⟩ := Run.append_iff.mp hrun
    obtain ⟨n, hstep, -⟩ := Run.cons_iff.mp hrest
    obtain rfl : m = m' := hpre.unique (fun _ _ _ _ h h' => h.2.trans h'.2.symm) hpre'
    have hm := hwindowed hpre
    have hnow := (newestShown_iff hm).mp (hall pre m ⟨op :: post, rfl⟩ hpre)
    have hlater : n.NewestShown := hall (pre ++ [op]) n ⟨post, by simp⟩ (hpre.snoc hstep)
    have hcurrent := (newestShown_iff (hm.step hstep)).mp hlater
    rw [hstep.2] at hcurrent
    exact (hnow.next hm op).mp hcurrent
  · rintro hquiet pre m ⟨post, rfl⟩ hpre
    refine (newestShown_iff (hwindowed hpre)).mpr ?_
    have hboth : m.Windowed ∧ m.Current :=
      hpre.invariant_of_guard (I := fun w => w.Windowed ∧ w.Current) (G := fun w op => ¬w.Silent op)
        (fun w op w' h hguard hstep => ⟨h.1.step hstep, by
          rw [hstep.2]
          exact (h.2.next h.1 op).mpr hguard⟩)
        (fun pre' op post' m' heq hpre' =>
          hquiet pre' op (post' ++ post) m' (by rw [heq, List.append_assoc, List.cons_append]) hpre')
        ⟨.start, .start⟩
    exact hboth.2

/-- A game is being played, bob's connection is lost, and he comes back. -/
def returningPlayer : List Op :=
  [.act (.create "m-1" ["alice", "bob"] 1000 "r-1"), .act (.join "r-1" "alice" 1000),
    .act (.join "r-1" "bob" 1000), .act (.setPresence "r-1" "bob" false 1050),
    .act (.setPresence "r-1" "bob" true 1080)]

theorem newest_shown_iff_returning :
    (∀ pre m, pre <+: returningPlayer → Run (Step RoomSystem.mysqlStores) {} pre m → m.NewestShown) ↔
      ∀ pre op post m, returningPlayer = pre ++ op :: post →
        Run (Step RoomSystem.mysqlStores) {} pre m → ¬m.Silent op :=
  newest_shown_iff (Run.of_guarded (by decide))

/-- A client that fetches what it missed is told last that bob is offline, while he is online. -/
theorem not_newest_shown :
    ¬ ∀ (stores : RoomStores) (ops : List Op) (w : RoomWorld),
      Run (Step stores) {} ops w → w.NewestShown := by
  intro hclaim
  have hshown := hclaim RoomSystem.mysqlStores returningPlayer _ (Run.of_guarded (by decide))
  have hnow : (((returningPlayer.foldl (next RoomSystem.mysqlStores) {}).system.manager.reapExpired
      1100).rooms.lookup "r-1").map (fun r => r.snapshot.players.map (·.online)) = some [true, true] := by
    decide
  have hsent : ((returningPlayer.foldl (next RoomSystem.mysqlStores)
      {}).system.manager.getSnapshotsSince 1100 "r-1" (-1)).1.snapshots.getLast?.map
        (fun s => s.players.map (·.online)) = some [true, false] := by
    decide +kernel
  obtain ⟨room, hroom, honline⟩ := Option.map_eq_some_iff.mp hnow
  rw [hshown 1100 (-1) "r-1" room hroom (by decide +kernel) (by decide +kernel), Option.map_some,
    honline] at hsent
  exact absurd hsent (by decide)

end RoomWorld

end RealtimeGame.Room
