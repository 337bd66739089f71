import RealtimeGame.Library.Total
import RealtimeGame.Room.FrameClock
import RealtimeGame.Room.Reaping

/-!
# Room/TotalFrames — the counter of the frames advanced

`TotalFramesAdvanced` adds up the frames of the rooms that are in memory at the time.  A room counts up,
and a new room adds to the sum, so that the sum falls in two ways only: a room is recycled, and takes its
frames out of the sum; or a room that was restored with somebody missing is started again from frame 0.
-/

open Library

namespace RealtimeGame.Room

/-- `TotalFramesAdvanced`, which the frame counter of the metrics is derived from. -/
def RoomManager.totalFramesAdvanced (m : RoomManager) : Nat :=
  m.rooms.toPairs.foldl
    (fun total entry => if 0 < entry.2.frame then total + entry.2.frame.toNat else total) 0

theorem RoomManager.totalFramesAdvanced_eq (m : RoomManager) :
    m.totalFramesAdvanced = m.rooms.total (·.frame.toNat) := by
  have hcount : (fun (total : Nat) (entry : String × BattleRoom) =>
      if 0 < entry.2.frame then total + entry.2.frame.toNat else total) =
      fun total entry => total + entry.2.frame.toNat := by
    funext total entry
    split
    · rfl
    · omega
  rw [totalFramesAdvanced, hcount, Table.total]

namespace BattleRoom

variable {r : BattleRoom} {nowMs : Int}

/-- This player takes up the last place of the room that is free. -/
def completedBy (r : BattleRoom) (playerId : String) : Bool :=
  validId playerId && r.phase.unfinished && r.hasPlayer playerId && !r.isConnected playerId &&
    (updateSeat playerId Seat.join r.seats).all (·.player.connected)

theorem frame_join (h : r.completedBy playerId = false) : (r.join nowMs playerId).2.frame = r.frame := by
  unfold join
  split; · rfl
  case isFalse hid =>
    split; · rfl
    case isFalse hphase =>
      split; · rfl
      case isFalse hmember =>
        split; · rfl
        case isFalse hnew =>
          dsimp only
          rw [if_neg]
          · rfl
          · intro hall
            simp_all [completedBy]

theorem frame_join_of_completedBy (h : r.completedBy playerId = true) :
    (r.join nowMs playerId).2.frame = 0 := by
  simp only [completedBy, Bool.and_eq_true, Bool.not_eq_true'] at h
  obtain ⟨⟨⟨⟨hid, hphase⟩, hmember⟩, hnew⟩, hall⟩ := h
  simp [join, hid, hphase, hmember, hnew, hall]

/-- **One call** leaves the frames, or counts more, unless it is the last player's joining. -/
theorem frame_le_call {c : Call} (h : ∀ playerId nowMs, c = .op (.join playerId nowMs) →
    r.completedBy playerId = false) : r.frame ≤ (r.call c).frame := by
  obtain hle | ⟨playerId, nowMs, rfl, -⟩ := frame_call_cases r c
  · exact hle
  · exact (frame_join (h playerId nowMs rfl)).ge

/-- A room that `Tick` recycles was due before. -/
theorem isExpired_tick : (r.tick nowMs).2.isExpired nowMs = r.isExpired nowMs := by
  have hdecided : r.phase.terminal = true → (r.tick nowMs).2 = r := fun hterminal =>
    tick_of_decided (unfinished_of_terminal hterminal)
  rw [Bool.eq_iff_iff]
  constructor
  · intro h
    rwa [hdecided (terminal_of_tick h)] at h
  · intro h
    rwa [hdecided (terminal_of_isExpired h)]

/-- **This step takes the frames of the room `x` out of the sum.** -/
def losesFrames (r : BattleRoom) (x : String) : ServiceOp → Bool
  | .act (.join roomId playerId _) => roomId = x && r.completedBy playerId
  | .act a => r.reapedBy a
  | .restore _ _ => false

end BattleRoom

namespace RoomSystem

variable {stores : RoomStores} {s : RoomSystem} {op : ServiceOp} {ops : List ServiceOp} {x : String}
  {r : BattleRoom}

/-- No room loses frames that it has. -/
def KeepsFrames (s : RoomSystem) (op : ServiceOp) : Prop :=
  ∀ x r, s.manager.rooms.lookup x = some r → 0 < r.frame → r.losesFrames x op = false

instance (s : RoomSystem) : DecidablePred s.KeepsFrames :=
  fun _ => inferInstanceAs (Decidable (∀ x r, s.manager.rooms.lookup x = some r → _))

/-- A room is joined by the call that names it. -/
theorem join_of_roomCalls {a : Action} {playerId : String} {nowMs : Int}
    (hc : s.roomCalls x a = [.op (.join playerId nowMs)]) : a = .join x playerId nowMs := by
  cases a with
  | join | submitInput | setPresence =>
    simp only [roomCalls] at hc
    split at hc <;> simp_all
  | resume thread answer =>
    simp only [roomCalls] at hc
    split at hc
    · split at hc
      · split at hc <;> cases hc
      · cases hc
    · cases hc
  | create | getState | getSnapshotsSince | getResult | beginShutdown | tick | abortUnfinishedGames =>
    cases hc

/-- **One room over one step**: it stays and counts on, unless the step loses its frames. -/
theorem frame_serve (stores : RoomStores) (hr : s.room? x = some r) (hkeeps : r.losesFrames x op = false) :
    ∃ r', (s.serve stores op).room? x = some r' ∧ r.frame ≤ r'.frame := by
  cases op with
  | restore nowMs rows => exact ⟨r, room?_restore hr stores nowMs rows, Int.le_refl _⟩
  | act a =>
    refine ⟨r.calls (s.roomCalls x a), (room?_next hr a).trans (if_neg ?_), ?_⟩
    · intro hreaped
      cases a with
      | tick nowMs => exact Bool.eq_false_iff.mp hkeeps (BattleRoom.isExpired_tick.symm.trans hreaped)
      | join | submitInput | setPresence | create | abortUnfinishedGames | beginShutdown | resume =>
        cases hreaped
      | getState | getSnapshotsSince | getResult => exact Bool.eq_false_iff.mp hkeeps hreaped
    · rcases s.roomCalls_cases x a with hnil | ⟨c, hc⟩
      · rw [hnil]
        exact Int.le_refl _
      · rw [hc]
        refine BattleRoom.frame_le_call fun playerId nowMs heq => ?_
        obtain rfl := join_of_roomCalls (hc.trans (by rw [heq]))
        simpa [BattleRoom.losesFrames] using hkeeps

/-- The step loses the frames of a room exactly if the room does not keep the frames that it has. -/
theorem losesFrames_iff (hr : s.room? x = some r) (hpos : 0 < r.frame) :
    r.losesFrames x op = true ↔ ¬∃ r', (s.serve stores op).room? x = some r' ∧ r.frame ≤ r'.frame := by
  refine ⟨fun hloses => ?_, fun hlost =>
    Bool.of_not_eq_false fun hkeeps => hlost (frame_serve stores hr hkeeps)⟩
  rintro ⟨r', hr', hle⟩
  cases op with
  | restore nowMs rows => cases hloses
  | act a =>
    replace hr' : (s.next stores a).room? x = some r' := hr'
    rw [room?_next hr] at hr'
    cases a with
    | join roomId playerId nowMs =>
      simp only [BattleRoom.losesFrames, Bool.and_eq_true, decide_eq_true_eq] at hloses
      obtain ⟨rfl, hcompleted⟩ := hloses
      simp only [roomCalls, if_true] at hr'
      obtain rfl := Option.some.inj hr'
      change r.frame ≤ (r.join nowMs playerId).2.frame at hle
      have hzero : (r.join nowMs playerId).2.frame = 0 := BattleRoom.frame_join_of_completedBy hcompleted
      omega
    | tick nowMs =>
      rw [if_pos] at hr'
      · cases hr'
      · exact BattleRoom.isExpired_tick.trans hloses
    | getState | getSnapshotsSince | getResult =>
      rw [if_pos] at hr'
      · cases hr'
      · exact hloses
    | submitInput | setPresence | create | abortUnfinishedGames | beginShutdown | resume => cases hloses

/-- **One step** does not lower the sum. -/
theorem totalFramesAdvanced_le (stores : RoomStores) (hkeeps : s.KeepsFrames op) :
    s.manager.totalFramesAdvanced ≤ (s.serve stores op).manager.totalFramesAdvanced := by
  rw [RoomManager.totalFramesAdvanced_eq, RoomManager.totalFramesAdvanced_eq]
  refine Table.total_le fun x r hr hpos => ?_
  obtain ⟨r', hr', hle⟩ := frame_serve stores hr (hkeeps x r hr (by omega))
  exact ⟨r', hr', by omega⟩

/-- **The counter never falls** in a run whose steps all keep the frames: of two values that
`TotalFramesAdvanced` returns, the later one is not the smaller. -/
theorem totalFramesAdvanced_mono (h : Run.Guarded KeepsFrames (serve stores) s ops)
    {pre pre' : List ServiceOp} (hpre : pre <+: pre') (hpre' : pre' <+: ops) :
    (pre.foldl (serve stores) s).manager.totalFramesAdvanced ≤
      (pre'.foldl (serve stores) s).manager.totalFramesAdvanced := by
  obtain ⟨mid, rfl⟩ := hpre
  obtain ⟨post, rfl⟩ := hpre'
  rw [List.append_assoc, Run.guarded_append, Run.guarded_append] at h
  rw [List.foldl_append]
  exact (Run.of_guarded h.2.1).related (P := fun s s' => s.manager.totalFramesAdvanced ≤
    s'.manager.totalFramesAdvanced) (fun _ => Nat.le_refl _) (fun _ _ _ => Nat.le_trans)
    fun s op s' hstep => by
      obtain ⟨hkeeps, rfl⟩ := hstep
      exact totalFramesAdvanced_le stores hkeeps

/-- A game that is played for ten frames, and aborted. -/
def tenFrames : List ServiceOp :=
  [.act (.create "m-1" ["alice", "bob"] 1000 "r-1"), .act (.join "r-1" "alice" 1000),
    .act (.join "r-1" "bob" 1000), .act (.tick 2000), .act (.abortUnfinishedGames 2000)]

theorem totalFramesAdvanced_mono_ten :
    (tenFrames.dropLast.foldl (serve mysqlStores) {}).manager.totalFramesAdvanced ≤
      (tenFrames.foldl (serve mysqlStores) {}).manager.totalFramesAdvanced :=
  totalFramesAdvanced_mono (by decide +kernel) (by decide) (List.prefix_refl _)

/-- The room is recycled by a read, and the counter falls from 10 to 0. -/
theorem not_totalFramesAdvanced_mono :
    (tenFrames.foldl (serve mysqlStores) {}).manager.totalFramesAdvanced = 10 ∧
      ((tenFrames ++ [ServiceOp.act (.getState "r-1" 302000)]).foldl (serve mysqlStores)
        {}).manager.totalFramesAdvanced = 0 := by
  decide +kernel

end RoomSystem

end RealtimeGame.Room
