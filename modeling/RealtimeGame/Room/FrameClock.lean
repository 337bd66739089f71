import RealtimeGame.Room.History

/-!
# Room/FrameClock — the frames of a game against the clock that drives it

A game counts its frames from `startedAtMs` and remembers in `lastTickMs` up to which time it has
counted.  `Paced` lists what a Tick does to the three numbers.  Every Tick but one moves `lastTickMs`
forward, together with the frames it counts, so that there are never more frames than the largest clock
value allows.  The exception is the Tick that holds a game for somebody who is offline: it takes the
clock as it is, also when the clock went back, and the time between is counted a second time.
-/

open Library

namespace RealtimeGame.Room

namespace BattleRoom

variable {r r' : BattleRoom} {nowMs : Int}

/-! ## The clock of a room

Three numbers, and everything else has no part in them. -/

/-- The numbers that the frame clock of a room consists of. -/
structure FrameClock where
  frame : Int
  startedAtMs : Int
  lastTickMs : Int

def clock (r : BattleRoom) : FrameClock := ⟨r.frame, r.startedAtMs, r.lastTickMs⟩

@[simp] theorem clock_pushSnapshot (r : BattleRoom) : r.pushSnapshot.clock = r.clock := rfl

@[simp] theorem clock_abort (r : BattleRoom) : (r.abort nowMs).clock = r.clock := rfl

@[simp] theorem clock_finish (r : BattleRoom) (reason : FinishReason) (winnerId : String) :
    (r.finish nowMs reason winnerId).clock = r.clock := rfl

@[simp] theorem clock_nextFrame (r : BattleRoom) (nowMs : Int) : (r.nextFrame nowMs).clock =
    ⟨r.frame + 1, r.startedAtMs, r.lastTickMs + kFrameIntervalMs⟩ := by
  unfold nextFrame advanceOneFrame
  dsimp only
  split; · rfl
  split <;> rfl

/-- The frame loop stops early only where the game ends. -/
theorem clock_advanceFrames (hphase : r.phase = .playing) (nowMs : Int) (frames : Nat) :
    ∃ k : Nat, k ≤ frames ∧ ((advanceFrames nowMs frames r).phase = .playing → k = frames) ∧
      (advanceFrames nowMs frames r).clock =
        ⟨r.frame + k, r.startedAtMs, r.lastTickMs + k * kFrameIntervalMs⟩ := by
  induction frames generalizing r with
  | zero => exact ⟨0, Nat.le_refl 0, fun _ => rfl, by simp [advanceFrames, clock]⟩
  | succ frames ih =>
    rw [advanceFrames, if_pos hphase]
    change ∃ k : Nat, _ ∧ ((advanceFrames nowMs frames (r.nextFrame nowMs)).phase = .playing → _) ∧
      (advanceFrames nowMs frames (r.nextFrame nowMs)).clock = _
    have hnext := clock_nextFrame r nowMs
    rcases Decidable.em ((r.nextFrame nowMs).phase = .playing) with hgoes | hends
    · obtain ⟨k, hk, hall, hclock⟩ := ih hgoes
      refine ⟨k + 1, Nat.succ_le_succ hk, fun h => congrArg Nat.succ (hall h), ?_⟩
      simp only [clock, FrameClock.mk.injEq] at hnext
      obtain ⟨hframe, hstarted, hlast⟩ := hnext
      rw [hclock, hframe, hstarted, hlast, FrameClock.mk.injEq]
      refine ⟨by omega, rfl, ?_⟩
      simp only [kFrameIntervalMs]
      omega
    · have hstop : advanceFrames nowMs frames (r.nextFrame nowMs) = r.nextFrame nowMs := by
        cases frames with
        | zero => rfl
        | succ frames => rw [advanceFrames, if_neg hends]
      refine ⟨1, Nat.succ_le_succ (Nat.zero_le frames), fun h => ?_, ?_⟩
      · rw [hstop] at h
        exact absurd h hends
      · rw [hstop, hnext, FrameClock.mk.injEq]
        exact ⟨rfl, rfl, by simp only [kFrameIntervalMs]; omega⟩

/-- A game that goes on after a frame has frames left. -/
theorem frame_nextFrame_lt (hphase : (r.nextFrame nowMs).phase = .playing) :
    (r.nextFrame nowMs).frame < kMaxFrames := by
  unfold nextFrame advanceOneFrame at hphase ⊢
  dsimp only at hphase ⊢
  split at hphase; · cases hphase
  case isFalse hmany =>
    rw [if_neg hmany]
    split at hphase; · cases hphase
    case isFalse hleft =>
      rw [if_neg hleft]
      exact Int.not_le.mp hleft

theorem frame_advanceFrames_lt (hphase : r.phase = .playing) {frames : Nat} (hpos : 0 < frames)
    (hafter : (advanceFrames nowMs frames r).phase = .playing) :
    (advanceFrames nowMs frames r).frame < kMaxFrames := by
  obtain ⟨frames, rfl⟩ := Nat.exists_eq_succ_of_ne_zero hpos.ne'
  rw [advanceFrames, if_pos hphase] at hafter ⊢
  exact advanceFrames_invariant (P := fun r => r.phase = .playing → r.frame < kMaxFrames)
    (fun _ _ _ => frame_nextFrame_lt) frame_nextFrame_lt frames hafter

/-! ## What a Tick does to it

It holds the game, drops time, or counts frames. -/

/-- **What a Tick makes of the frame clock.** -/
inductive Paced (r : BattleRoom) (nowMs : Int) (r' : BattleRoom) : Prop
  /-- No frame is due, or no game is on. -/
  | stood (hclock : r'.clock = r.clock)
      (hlag : r'.phase = .playing → nowMs - r.lastTickMs < kFrameIntervalMs)
  /-- The game waits for somebody who is offline. -/
  | held (hphase : r.phase = .playing) (hoffline : r.isWaitingForReconnect = true)
      (hgrace : r.resolveReconnectGrace nowMs = none) (heq : r' = { r with lastTickMs := nowMs })
  /-- Of `frames` frames up to `nowMs`, all that the game lasted; time that is too long ago is dropped. -/
  | advanced (hphase : r.phase = .playing) (frames k : Nat) (lastTickMs : Int)
      (hcap : (frames : Int) ≤ kMaxCatchUpFrames) (hbase : r.lastTickMs ≤ lastTickMs)
      (hdue : lastTickMs + frames * kFrameIntervalMs ≤ nowMs)
      (hnext : nowMs < lastTickMs + (frames + 1) * kFrameIntervalMs) (hpos : 0 < frames)
      (hk : k ≤ frames) (hall : r'.phase = .playing → k = frames ∧ r'.frame < kMaxFrames)
      (hclock : r'.clock =
        ⟨r.frame + k, r.startedAtMs, lastTickMs + k * kFrameIntervalMs⟩)

/-- The end of a grace period ends the game and counts no frame. -/
theorem clock_resolveReconnectGrace (h : r.resolveReconnectGrace nowMs = some r') :
    r'.clock = r.clock ∧ r'.phase ≠ .playing := by
  unfold resolveReconnectGrace at h
  split at h; · cases h
  split at h; · cases h
  split at h; · cases h
  split at h
  · cases h
    exact ⟨rfl, fun h => by cases h⟩
  · cases h
    exact ⟨rfl, fun h => by cases h⟩

theorem paced_tick (r : BattleRoom) (nowMs : Int) : r.Paced nowMs (r.tick nowMs).2 := by
  unfold tick
  split
  case isTrue hphase =>
    split
    · exact .stood rfl fun h => by cases h
    · exact .stood rfl fun h => by
        rw [h] at hphase
        rcases hphase with hphase | hphase <;> cases hphase
  case isFalse =>
    split
    case isTrue hphase => exact .stood rfl fun h => absurd h hphase
    case isFalse hphase =>
      have hphase := not_not.mp hphase
      split
      case isTrue hoffline =>
        split
        case h_1 r' hr =>
          obtain ⟨hclock, hover⟩ := clock_resolveReconnectGrace hr
          exact .stood hclock fun h => absurd h hover
        case h_2 hgrace => exact .held hphase hoffline hgrace rfl
      case isFalse =>
        split
        case isTrue hback => exact .stood rfl fun _ => by simp only [kFrameIntervalMs]; omega
        case isFalse hback =>
          dsimp only
          split
          case isTrue hnone =>
            refine .stood rfl fun _ => ?_
            simp only [kFrameIntervalMs] at hnone ⊢
            omega
          case isFalse hdue =>
            split
            case isTrue hmany =>
              -- The time beyond the cap is dropped, and exactly as many frames as allowed are due.
              obtain ⟨k, hk, hall, hclock⟩ := clock_advanceFrames
                (r := { r with lastTickMs := r.lastTickMs +
                  ((nowMs - r.lastTickMs) / kFrameIntervalMs - kMaxCatchUpFrames) * kFrameIntervalMs })
                hphase nowMs kMaxCatchUpFrames.toNat
              refine .advanced hphase kMaxCatchUpFrames.toNat k _ ?_ ?_ ?_ ?_ (by decide) hk
                (fun h => ⟨hall h, frame_advanceFrames_lt (by exact hphase) (by decide) h⟩) hclock
              all_goals
                simp only [kFrameIntervalMs, kMaxCatchUpFrames] at hmany ⊢
                omega
            case isFalse hfew =>
              obtain ⟨k, hk, hall, hclock⟩ := clock_advanceFrames hphase nowMs
                ((nowMs - r.lastTickMs) / kFrameIntervalMs).toNat
              refine .advanced hphase ((nowMs - r.lastTickMs) / kFrameIntervalMs).toNat k r.lastTickMs
                ?_ (Int.le_refl _) ?_ ?_ (by omega) hk
                (fun h => ⟨hall h, frame_advanceFrames_lt hphase (by omega) h⟩) hclock
              all_goals
                simp only [kFrameIntervalMs, kMaxCatchUpFrames] at hback hdue hfew ⊢
                omega

/-! ## The law

Frames are time: as many as fit between the start and the last Tick. -/

/-- The clock value that a call is made with. -/
def Call.time? : Call → Option Int
  | .op (.join _ nowMs) | .op (.setPresence _ _ nowMs) | .op (.tick nowMs)
  | .op (.markResultFailed nowMs) | .abortUnfinishedGames nowMs => some nowMs
  | .op (.submitInput _ _) | .markResultPersisted => none

/-- A Tick that holds the game at an earlier time than frames have been counted up to. -/
def SetsBack (r : BattleRoom) : Call → Prop
  | .op (.tick nowMs) => r.phase = .playing ∧ r.isWaitingForReconnect = true ∧
      r.resolveReconnectGrace nowMs = none ∧ nowMs < r.lastTickMs
  | _ => False

instance (r : BattleRoom) : DecidablePred r.SetsBack
  | .op (.tick _) => inferInstanceAs (Decidable (_ ∧ _ ∧ _ ∧ _))
  | .op (.join _ _) | .op (.submitInput _ _) | .op (.setPresence _ _ _) | .op (.markResultFailed _)
  | .markResultPersisted | .abortUnfinishedGames _ => .isFalse id

/-- Somebody has begun the game. -/
def Begun (r : BattleRoom) : Prop := r.phase ≠ .created ∧ r.phase ≠ .waiting

theorem begun_call (h : r.Begun) (c : Call) : (r.call c).Begun := by
  generalize hcall : r.call c = r'
  have heffect := r.effect_call c
  rw [hcall] at heffect
  clear hcall
  cases heffect with
  | idle | attacked | wentOnline | wentOffline => exact h
  | started => constructor <;> intro hp <;> cases hp
  | joined =>
    change (if r.phase = .created then .waiting else r.phase) ≠ _ ∧
      (if r.phase = .created then .waiting else r.phase) ≠ _
    rw [if_neg h.1]
    exact h
  | expired hphase => exact absurd hphase (not_or.mpr h)
  | disconnected | deserted | persisted | aborted => constructor <;> intro hp <;> cases hp
  | @advanced nowMs hphase honline frames lastTickMs =>
    have hafter := advanceFrames_phase (r := { r with lastTickMs := lastTickMs }) nowMs hphase frames
    rcases hafter with hp | ⟨hp, -⟩ <;> constructor <;> intro h <;> cases hp.symm.trans h

/-- Besides a Tick, only the last player's joining touches the clock: it sets it to frame 0. -/
theorem clock_call_cases {c : Call} (hc : ∀ nowMs, c ≠ .op (.tick nowMs)) :
    (r.call c).clock = r.clock ∧ ((r.call c).phase = .playing → r.phase = .playing) ∨
      ∃ playerId nowMs, c = .op (.join playerId nowMs) ∧ r.phase.unfinished = true ∧
        (∃ s ∈ r.seats, s.player.playerId = playerId ∧ s.player.connected = false) ∧
        (r.call c).phase = .playing ∧ (r.call c).clock = ⟨0, nowMs, nowMs⟩ := by
  have hsame : r.clock = r.clock ∧ (r.phase = .playing → r.phase = .playing) := ⟨rfl, id⟩
  cases c with
  | op op =>
    cases op with
    | join playerId nowMs =>
      simp only [call, apply]
      unfold join
      split; · exact .inl hsame
      split; · exact .inl hsame
      split; · exact .inl hsame
      case isFalse hphase hmember =>
        split; · exact .inl hsame
        case isFalse hnew =>
          simp only [Bool.not_eq_true, Bool.not_eq_false'] at hphase hmember hnew
          dsimp only
          split
          case isTrue =>
            exact .inr ⟨playerId, nowMs, rfl, hphase, vacant_of_not_connected hmember hnew, rfl, rfl⟩
          case isFalse =>
            refine .inl ⟨rfl, fun hplaying => ?_⟩
            change (if r.phase = .created then .waiting else r.phase) = .playing at hplaying
            split at hplaying
            · cases hplaying
            · exact hplaying
    | submitInput playerId kind =>
      simp only [call, apply]
      obtain ⟨-, heq⟩ | ⟨hphase, heq⟩ := submitInput_cases r playerId kind
      · rw [heq]
        exact .inl hsame
      · rw [heq]
        exact .inl hsame
    | setPresence playerId online nowMs =>
      simp only [call, apply]
      unfold setPresence
      split; · exact .inl hsame
      split; · exact .inl hsame
      split; · exact .inl hsame
      split; · exact .inl hsame
      split <;> exact .inl hsame
    | tick nowMs => exact absurd rfl (hc nowMs)
    | markResultFailed nowMs =>
      simp only [call, apply, markResultFailed]
      split <;> exact .inl hsame
  | markResultPersisted =>
    simp only [call, markResultPersisted]
    split
    · exact .inl ⟨rfl, fun hplaying => by cases hplaying⟩
    · exact .inl hsame
  | abortUnfinishedGames nowMs =>
    simp only [call]
    split
    · exact .inl ⟨rfl, fun hplaying => by cases hplaying⟩
    · exact .inl hsame

/-- **No call takes a frame back**, unless it is the last player's joining. -/
theorem frame_call_cases (r : BattleRoom) (c : Call) : r.frame ≤ (r.call c).frame ∨
    ∃ playerId nowMs, c = .op (.join playerId nowMs) ∧ (r.call c).frame = 0 := by
  rcases Classical.em (∃ nowMs, c = .op (.tick nowMs)) with ⟨nowMs, rfl⟩ | hother
  · change r.frame ≤ (r.tick nowMs).2.frame ∨ _
    cases r.paced_tick nowMs with
    | stood hsame => exact .inl (congrArg FrameClock.frame hsame).ge
    | held hphase hoffline hgrace heq => exact .inl (congrArg BattleRoom.frame heq).ge
    | advanced hphase frames k lastTickMs hcap hbase hdue hnext hpos hk hall hclock =>
      have hframe : (r.tick nowMs).2.frame = r.frame + k := congrArg FrameClock.frame hclock
      exact .inl (by omega)
  · obtain ⟨hsame, -⟩ | ⟨playerId, nowMs, hjoin, -, -, -, hclock⟩ := clock_call_cases (r := r) (c := c)
      fun nowMs heq => hother ⟨nowMs, heq⟩
    · exact .inl (congrArg FrameClock.frame hsame).ge
    · exact .inr ⟨playerId, nowMs, hjoin, congrArg FrameClock.frame hclock⟩

/-- Nobody is left to join, so that no call but a Tick touches the clock. -/
theorem clock_call (hw : r.Windowed) (h : r.Begun) {c : Call} (hc : ∀ nowMs, c ≠ .op (.tick nowMs)) :
    (r.call c).clock = r.clock := by
  obtain ⟨hsame, -⟩ | ⟨playerId, nowMs, -, hphase, hvacant, -⟩ := clock_call_cases (r := r) hc
  · exact hsame
  · exact absurd (hw.phase_of_vacant hphase hvacant) (not_or.mpr h)

/-- A game begins with the last player's joining, at frame 0 of the clock value of that call. -/
theorem clock_of_start {c : Call} (hbefore : r.phase ≠ .playing) (hafter : (r.call c).phase = .playing) :
    ∃ nowMs, c.time? = some nowMs ∧ (r.call c).clock = ⟨0, nowMs, nowMs⟩ := by
  generalize hcall : r.call c = r' at hafter
  have heffect := r.effect_call c
  rw [hcall] at heffect
  clear hcall
  cases heffect with
  | idle | wentOnline | wentOffline => exact absurd hafter hbefore
  | started => exact ⟨_, rfl, rfl⟩
  | joined =>
    change (if r.phase = .created then .waiting else r.phase) = .playing at hafter
    split at hafter
    · cases hafter
    · exact absurd hafter hbefore
  | attacked hphase => exact absurd hphase hbefore
  | expired | disconnected | deserted | persisted | aborted => cases hafter
  | advanced hphase => exact absurd hphase hbefore

/-- **A game on time**: since its start it has counted no frame before the clock allowed it, and no clock
value was larger than `M`. -/
structure OnTime (M : Int) (r : BattleRoom) : Prop where
  windowed : r.Windowed
  begun : r.Begun
  frames : r.frame * kFrameIntervalMs ≤ r.lastTickMs - r.startedAtMs
  clock : r.lastTickMs ≤ M

/-- **One call** keeps a game on time, unless it sets the clock back. -/
theorem OnTime.call {M : Int} (h : r.OnTime M) {c : Call} (hM : ∀ nowMs ∈ c.time?, nowMs ≤ M)
    (hback : ¬r.SetsBack c) : (r.call c).OnTime M := by
  have hframes := h.frames
  have hclock := h.clock
  suffices htimes : (r.call c).frame * kFrameIntervalMs ≤ (r.call c).lastTickMs - (r.call c).startedAtMs ∧
      (r.call c).lastTickMs ≤ M from
    ⟨h.windowed.call c, begun_call h.begun c, htimes.1, htimes.2⟩
  rcases Classical.em (∃ nowMs, c = .op (.tick nowMs)) with ⟨nowMs, rfl⟩ | hother
  · have hnow := hM nowMs rfl
    cases r.paced_tick nowMs with
    | stood hsame _ =>
      simp only [BattleRoom.clock, FrameClock.mk.injEq] at hsame
      obtain ⟨hframe, hstarted, hlast⟩ := hsame
      simp only [BattleRoom.call, apply, hframe, hstarted, hlast]
      exact ⟨hframes, hclock⟩
    | held hphase hoffline hgrace heq =>
      have hforward : r.lastTickMs ≤ nowMs := Int.not_lt.mp fun hlt =>
        hback ⟨hphase, hoffline, hgrace, hlt⟩
      simp only [BattleRoom.call, apply, heq]
      exact ⟨by omega, hnow⟩
    | advanced hphase frames k lastTickMs hcap hbase hdue hnext hpos hk hall hmoved =>
      simp only [BattleRoom.clock, FrameClock.mk.injEq] at hmoved
      obtain ⟨hframe, hstarted, hlast⟩ := hmoved
      simp only [BattleRoom.call, apply, hframe, hstarted, hlast]
      simp only [kFrameIntervalMs] at hframes hdue ⊢
      exact ⟨by omega, by omega⟩
  · have hsame := clock_call h.windowed h.begun (c := c) fun nowMs heq => hother ⟨nowMs, heq⟩
    simp only [BattleRoom.clock, FrameClock.mk.injEq] at hsame
    obtain ⟨hframe, hstarted, hlast⟩ := hsame
    rw [hframe, hstarted, hlast]
    exact ⟨hframes, hclock⟩

/-- **The law of the frame clock** — whatever the clock values, at every point after a game has begun it
has counted no more frames than lie between its start and the largest clock value since, provided that no
Tick has set its clock back. -/
theorem frame_clock_law (roomId matchId : String) (playerIds : List String) (createdAtMs : Int)
    (pre post : List Call) (start : Call) (M : Int)
    (hbefore : ((new roomId matchId playerIds createdAtMs).calls pre).phase ≠ .playing)
    (hstart : ((new roomId matchId playerIds createdAtMs).calls (pre ++ [start])).phase = .playing)
    (hM : ∀ c ∈ start :: post, ∀ nowMs ∈ c.time?, nowMs ≤ M)
    (hguard : Run.Guarded (fun r c => ¬r.SetsBack c) call
      ((new roomId matchId playerIds createdAtMs).calls (pre ++ [start])) post) :
    ((new roomId matchId playerIds createdAtMs).calls (pre ++ start :: post)).frame * kFrameIntervalMs ≤
      M - ((new roomId matchId playerIds createdAtMs).calls (pre ++ start :: post)).startedAtMs := by
  set r₀ := new roomId matchId playerIds createdAtMs
  have hwindowed : (r₀.calls (pre ++ [start])).Windowed :=
    calls_invariant (fun r c h => h.call c) (.new roomId matchId playerIds createdAtMs) _
  have hbegin : (r₀.calls (pre ++ [start])).OnTime M := by
    have hplaying := hstart
    rw [calls_snoc] at hplaying
    obtain ⟨nowMs, htime, hclock⟩ := clock_of_start hbefore hplaying
    rw [← calls_snoc] at hclock
    simp only [BattleRoom.clock, FrameClock.mk.injEq] at hclock
    obtain ⟨hframe, hstarted, hlast⟩ := hclock
    refine ⟨hwindowed, ?_, ?_, ?_⟩
    · constructor <;> intro hp <;> cases hstart.symm.trans hp
    · rw [hframe, hstarted, hlast]
      omega
    · rw [hlast]
      exact hM start List.mem_cons_self nowMs htime
  have hend : (r₀.calls (pre ++ start :: post)).OnTime M := by
    rw [List.append_cons, calls_append]
    refine (Run.of_guarded hguard).invariant_of_guard (G := fun _ c => ∀ nowMs ∈ c.time?, nowMs ≤ M)
      (fun r c r' hr hc hstep => ?_) (fun done c todo r hsplit _ => ?_) hbegin
    · rw [hstep.2]
      exact hr.call hc hstep.1
    · exact hM c (List.mem_cons_of_mem _ (by rw [hsplit]; simp))
  have hframes := hend.frames
  have hclock := hend.clock
  omega

/-- A game that catches up after a hiccup, and is held once. -/
theorem frame_clock_law_held :
    ((new "room" "match" ["a", "b"] 0).calls [.op (.join "a" 0), .op (.join "b" 50),
        .op (.tick 5000), .op (.setPresence "a" false 5050), .op (.tick 5060),
        .op (.setPresence "a" true 5100), .op (.tick 5300)]).frame * kFrameIntervalMs ≤
      5300 - ((new "room" "match" ["a", "b"] 0).calls [.op (.join "a" 0), .op (.join "b" 50),
        .op (.tick 5000), .op (.setPresence "a" false 5050), .op (.tick 5060),
        .op (.setPresence "a" true 5100), .op (.tick 5300)]).startedAtMs :=
  frame_clock_law "room" "match" ["a", "b"] 0 [.op (.join "a" 0)]
    [.op (.tick 5000), .op (.setPresence "a" false 5050), .op (.tick 5060),
      .op (.setPresence "a" true 5100), .op (.tick 5300)]
    (.op (.join "b" 50)) 5300
    (by decide +kernel) (by decide +kernel) (by decide +kernel) (by decide +kernel)

/-- The Tick at 0 sets the clock of a held game back: its first second is counted twice. -/
theorem not_frame_clock_law :
    let pre : List Call := [.op (.join "a" 0)]
    let start : Call := .op (.join "b" 0)
    let post : List Call := [.op (.tick 1000), .op (.setPresence "b" false 1000), .op (.tick 0),
      .op (.setPresence "b" true 0), .op (.tick 1000)]
    let r := (new "room" "match" ["a", "b"] 0).calls (pre ++ start :: post)
    ((new "room" "match" ["a", "b"] 0).calls pre).phase ≠ .playing ∧
      ((new "room" "match" ["a", "b"] 0).calls (pre ++ [start])).phase = .playing ∧
      (∀ c ∈ start :: post, ∀ nowMs ∈ c.time?, nowMs ≤ 1000) ∧
      ¬r.frame * kFrameIntervalMs ≤ 1000 - r.startedAtMs := by
  decide +kernel

end BattleRoom

end RealtimeGame.Room
