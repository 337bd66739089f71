import RealtimeGame.Room.FrameClock

/-!
# Room/Batching — how often a game is ticked does not matter

A Tick of a game that is on advances all frames that are due, and leaves the rest of the time for the next one.
So frames that are due at two Ticks are the frames that are due at the later one, as long as no Tick is
so late that time is dropped.  Only the time that the end of the game is recorded with tells the two apart
(`timeless`).
-/

namespace RealtimeGame.Room

/-- A snapshot, but for the time that the game ended at. -/
def RoomSnapshot.timeless (s : RoomSnapshot) : RoomSnapshot := { s with finishedAtMs := 0 }

namespace BattleRoom

variable {r r' : BattleRoom} {nowMs t₁ t₂ : Int}

/-- A room, but for the time that the game ended at. -/
def timeless (r : BattleRoom) : BattleRoom :=
  { r with finishedAtMs := 0, history := r.history.map RoomSnapshot.timeless }

/-- **Two rooms show the same game**; only the time that it ended at may be another one. -/
structure SameGame (r r' : BattleRoom) : Prop where
  frame : r.frame = r'.frame
  hp : r.seats.map (·.player.hp) = r'.seats.map (·.player.hp)
  pendingAttack : r.seats.map (·.pendingAttack) = r'.seats.map (·.pendingAttack)
  phase : r.phase = r'.phase
  finishReason : r.finishReason = r'.finishReason
  winnerId : r.winnerId = r'.winnerId
  lastTickMs : r.lastTickMs = r'.lastTickMs
  /-- The buffers hold the same frames, each as often. -/
  history : r.history.map RoomSnapshot.timeless = r'.history.map RoomSnapshot.timeless

theorem sameGame_of_timeless (h : r.timeless = r'.timeless) : r.SameGame r' := by
  simp only [timeless, BattleRoom.mk.injEq] at h
  obtain ⟨-, -, hphase, hreason, hframe, hseats, -, -, -, hlast, -, hwinner, -, hhistory⟩ := h
  exact ⟨hframe, by rw [hseats], by rw [hseats], hphase, hreason, hwinner, hlast, hhistory⟩

/-! ## Frames, but for the time

A frame does not look at the clock, but records it when the game ends. -/

theorem timeless_pushSnapshot (r : BattleRoom) : r.pushSnapshot.timeless = r.timeless.pushSnapshot := by
  simp only [pushSnapshot, timeless, map_trimHistory, List.map_append, List.map_singleton]
  rfl

theorem timeless_finish (r : BattleRoom) (nowMs : Int) (reason : FinishReason) (winnerId : String) :
    (r.finish nowMs reason winnerId).timeless = r.timeless.finish 0 reason winnerId :=
  timeless_pushSnapshot _

theorem timeless_nextFrame (r : BattleRoom) (nowMs : Int) :
    (r.nextFrame nowMs).timeless = r.timeless.nextFrame 0 := by
  unfold nextFrame advanceOneFrame
  dsimp only
  rw [apply_ite timeless, apply_ite timeless, timeless_finish, timeless_finish, timeless_pushSnapshot]
  rfl

/-- **Frames are the same whenever they are advanced.** -/
theorem timeless_advanceFrames (nowMs : Int) (frames : Nat) (r : BattleRoom) :
    (advanceFrames nowMs frames r).timeless = advanceFrames 0 frames r.timeless := by
  induction frames generalizing r with
  | zero => rfl
  | succ frames ih =>
    rw [advanceFrames, advanceFrames]
    by_cases hphase : r.phase = .playing
    · rw [if_pos hphase, if_pos (show r.timeless.phase = .playing from hphase)]
      exact (ih _).trans (congrArg _ (timeless_nextFrame r nowMs))
    · rw [if_neg hphase, if_neg (show r.timeless.phase ≠ .playing from hphase)]

theorem advanceFrames_of_over (hphase : r.phase ≠ .playing) (nowMs : Int) (frames : Nat) :
    advanceFrames nowMs frames r = r := by
  cases frames with
  | zero => rfl
  | succ frames => rw [advanceFrames, if_neg hphase]

/-- Frames one after the other; where the game ends, no more are advanced. -/
theorem advanceFrames_add (nowMs : Int) (frames more : Nat) (r : BattleRoom) :
    advanceFrames nowMs (frames + more) r = advanceFrames nowMs more (advanceFrames nowMs frames r) := by
  induction frames generalizing r with
  | zero => rw [Nat.zero_add, advanceFrames]
  | succ frames ih =>
    rw [Nat.add_right_comm, advanceFrames, advanceFrames]
    split
    · exact ih _
    case isFalse hphase => rw [advanceFrames_of_over hphase]

/-! ## Ticks

What is due at the first Tick and at the second is due at the second. -/

/-- The frames that are due. -/
def due (r : BattleRoom) (nowMs : Int) : Nat := ((nowMs - r.lastTickMs) / kFrameIntervalMs).toNat

/-- No Tick is so late that time is dropped. -/
def InTime (r : BattleRoom) (nowMs : Int) : Prop :=
  nowMs - r.lastTickMs < (kMaxCatchUpFrames + 1) * kFrameIntervalMs

/-- **A Tick in time** advances the frames that are due. -/
theorem tick_of_inTime (hphase : r.phase = .playing) (honline : r.isWaitingForReconnect = false)
    (htime : r.InTime nowMs) : (r.tick nowMs).2 = advanceFrames nowMs (r.due nowMs) r := by
  have hzero : r.due nowMs = 0 → r = advanceFrames nowMs (r.due nowMs) r := fun h => by
    rw [h, advanceFrames]
  simp only [InTime, kMaxCatchUpFrames, kFrameIntervalMs] at htime
  simp only [due, kFrameIntervalMs] at hzero ⊢
  simp only [tick, hphase, honline, kMaxCatchUpFrames, kFrameIntervalMs, reduceCtorEq, or_self, if_false,
    ne_eq, not_true_eq_false, Bool.false_eq_true]
  split
  case isTrue hback => exact hzero (by omega)
  case isFalse =>
    split
    case isTrue hnone => exact hzero (by omega)
    case isFalse => rw [if_neg (by omega)]

theorem isWaitingForReconnect_advanceFrames (h : r.isWaitingForReconnect = false) (nowMs : Int) (frames : Nat) :
    (advanceFrames nowMs frames r).isWaitingForReconnect = false := by
  refine advanceFrames_invariant (P := fun r => r.isWaitingForReconnect = false) (fun r hr _ => ?_) h frames
  have honline : ∀ s ∈ r.seats, s.runtime.online = true := by
    simpa [isWaitingForReconnect] using hr
  have hafter := forall_settleAttacks honline (fun _ hs => hs) fun _ hs => hs
  simpa [isWaitingForReconnect] using hafter

/-- The clock of a game only goes forward. -/
theorem inTime_advanceFrames (hphase : r.phase = .playing) (htime : r.InTime t₂) (frames : Nat) :
    (advanceFrames t₁ frames r).InTime t₂ := by
  obtain ⟨k, -, -, hclock⟩ := clock_advanceFrames hphase t₁ frames
  simp only [clock, FrameClock.mk.injEq] at hclock
  obtain ⟨-, -, hlast⟩ := hclock
  simp only [InTime, hlast, kFrameIntervalMs] at htime ⊢
  omega

/-- What is due after the first frames is the rest. -/
theorem due_advanceFrames (hphase : r.phase = .playing) {frames : Nat}
    (hafter : (advanceFrames t₁ frames r).phase = .playing) (hfew : frames ≤ r.due t₂) :
    (advanceFrames t₁ frames r).due t₂ = r.due t₂ - frames := by
  obtain ⟨k, -, hall, hclock⟩ := clock_advanceFrames hphase t₁ frames
  obtain rfl := hall hafter
  simp only [clock, FrameClock.mk.injEq] at hclock
  obtain ⟨-, -, hlast⟩ := hclock
  simp only [due, hlast, kFrameIntervalMs] at hfew ⊢
  omega

/-- **Two Ticks are one**, but for the time. -/
theorem timeless_tick_tick (hphase : r.phase = .playing) (honline : r.isWaitingForReconnect = false)
    (hle : t₁ ≤ t₂) (htime : r.InTime t₂) : ((r.tick t₁).2.tick t₂).2.timeless = (r.tick t₂).2.timeless := by
  have htime₁ : r.InTime t₁ := by
    simp only [InTime] at htime ⊢
    omega
  have hfew : r.due t₁ ≤ r.due t₂ :=
    Int.toNat_le_toNat (Int.ediv_le_ediv (by decide) (Int.sub_le_sub_right hle _))
  rw [tick_of_inTime hphase honline htime₁, tick_of_inTime hphase honline htime]
  have hsum : (advanceFrames t₂ (r.due t₂) r).timeless =
      advanceFrames 0 (r.due t₂ - r.due t₁) (advanceFrames t₁ (r.due t₁) r).timeless := by
    rw [timeless_advanceFrames, timeless_advanceFrames, ← advanceFrames_add, Nat.add_sub_cancel' hfew]
  rw [hsum]
  by_cases hafter : (advanceFrames t₁ (r.due t₁) r).phase = .playing
  · have hdue := due_advanceFrames hphase hafter hfew
    rw [tick_of_inTime hafter (isWaitingForReconnect_advanceFrames honline _ _)
      (inTime_advanceFrames hphase htime _), hdue, timeless_advanceFrames]
  · -- The game is decided at `t₁`: the later Tick does nothing, and there are no more frames either.
    have hover : (advanceFrames t₁ (r.due t₁) r).phase.unfinished = false := by
      rcases advanceFrames_phase t₁ hphase (r.due t₁) with h | ⟨h, -⟩
      · exact absurd h hafter
      · rw [h]
        rfl
    rw [tick_of_decided hover]
    exact (advanceFrames_of_over (r := (advanceFrames t₁ (r.due t₁) r).timeless) hafter 0 _).symm

/-- **Batching**: a Tick before another one changes nothing in what the later one makes of a game. -/
theorem tick_batching (r : BattleRoom) (t₁ t₂ : Int) (hphase : r.phase = .playing)
    (honline : ∀ s ∈ r.seats, s.runtime.online = true) (hle : t₁ ≤ t₂)
    (htime : t₂ - r.lastTickMs < (kMaxCatchUpFrames + 1) * kFrameIntervalMs) :
    ((r.tick t₁).2.tick t₂).2.SameGame (r.tick t₂).2 :=
  sameGame_of_timeless (timeless_tick_tick hphase (by simpa [isWaitingForReconnect] using honline) hle htime)

/-- A game of two that has just begun, with an attack to be settled. -/
def begunGame : BattleRoom :=
  (new "room" "match" ["a", "b"] 0).calls
    [.op (.join "a" 0), .op (.join "b" 0), .op (.submitInput "a" .attack)]

/-- The time between frames is split in the middle. -/
theorem tick_batching_begun : ((begunGame.tick 250).2.tick 470).2.SameGame (begunGame.tick 470).2 :=
  tick_batching begunGame 250 470 (by decide +kernel) (by decide +kernel) (by decide) (by decide +kernel)

/-! ## Any schedule

The same for any number of Ticks in between. -/

/-- **The schedule does not matter**: however often, and at whatever times before, a game has been ticked,
the last Tick makes the same of it as if it were the only one. -/
theorem sameGame_ticks (hphase : r.phase = .playing) (honline : r.isWaitingForReconnect = false)
    (htime : r.InTime nowMs) (times : List Int) (hle : ∀ t ∈ times, t ≤ nowMs) :
    ((r.ticks times).tick nowMs).2.SameGame (r.tick nowMs).2 := by
  refine sameGame_of_timeless ?_
  induction times generalizing r with
  | nil => rfl
  | cons t times ih =>
    rw [List.forall_mem_cons] at hle
    have htwo := timeless_tick_tick hphase honline hle.1 htime
    have hin : r.InTime t := by
      simp only [InTime] at htime ⊢
      omega
    have hone := tick_of_inTime hphase honline hin
    change (((r.tick t).2.ticks times).tick nowMs).2.timeless = _
    rw [← htwo]
    rcases advanceFrames_phase t hphase (r.due t) with hgoes | ⟨hover, -⟩
    · refine ih (by rw [hone, hgoes]) ?_ ?_ hle.2
      · rw [hone]
        exact isWaitingForReconnect_advanceFrames honline _ _
      · rw [hone]
        exact inTime_advanceFrames hphase htime _
    · rw [ticks_of_decided (by rw [hone, hover]; rfl)]

end BattleRoom

end RealtimeGame.Room
