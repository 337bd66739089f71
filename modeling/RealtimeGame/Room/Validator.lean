import RealtimeGame.Room.FrameClock

/-!
# Room/Validator — what a record is good for that passes the check of a restart

`ValidateRoomSnapshot` looks at the fields one by one (`Accepted`), and at few of them together.  What it
accepts is rebuilt to a room of two different players, with values in their ranges, that comes to an end
(`Sound`).  It does not make sure that the fields fit the phase: `unfit` lists records that it accepts.
-/

open Library

namespace RealtimeGame.Room

/-! ## What is checked

One condition for each check of the source. -/

/-- What is checked of a player. -/
structure RoomPlayerRecord.Accepted (p : RoomPlayerRecord) : Prop where
  playerId : validId p.playerId = true
  hp : 0 ≤ p.hp ∧ p.hp ≤ kInitialHp

/-- **What is checked of a record.** -/
structure RoomSnapshotRecord.Accepted (record : RoomSnapshotRecord) : Prop where
  matchId : validId record.matchId = true
  roomId : validId record.roomId = true
  frame : 0 ≤ record.frame ∧ record.frame ≤ kMaxFrames
  times : 0 ≤ record.startedAtMs ∧ 0 ≤ record.finishedAtMs
  player0 : record.player0.Accepted
  player1 : record.player1.Accepted
  distinct : record.player0.playerId ≠ record.player1.playerId
  played : record.phase = .playing ∨ record.phase = .finishing →
    record.player0.joined = true ∨ record.player1.joined = true
  winnerId : record.winnerId = "" ∨ record.winnerId = record.player0.playerId ∨
    record.winnerId = record.player1.playerId
  reason : record.phase = .finished ∨ record.phase = .aborted → record.finishReason ≠ .none

theorem append_ne_empty {a : String} (ha : a ≠ "") (b : String) : a ++ b ≠ "" := by
  rintro h
  rw [String.append_eq_empty_iff] at h
  exact ha h.1

/-- A check that looks for `c` passes without it, and goes on. -/
theorem ite_eq_empty {c : Prop} [Decidable c] {a b : String} (ha : c → a ≠ "") :
    (if c then a else b) = "" ↔ ¬c ∧ b = "" := by
  by_cases h : c
  · rw [if_pos h]
    exact ⟨fun heq => absurd heq (ha h), fun hb => absurd h hb.1⟩
  · rw [if_neg h]
    exact ⟨fun hb => ⟨h, hb⟩, And.right⟩

theorem validatePlayer_eq_empty {i : Nat} {p : RoomPlayerRecord} :
    validatePlayer i p = "" ↔ p.Accepted := by
  have hplace : ∀ rest, "第 " ++ toString (i + 1) ++ rest ≠ "" := fun rest =>
    append_ne_empty (append_ne_empty (by decide) _) rest
  unfold validatePlayer
  rw [ite_eq_empty, ite_eq_empty]
  · constructor
    · rintro ⟨hid, hhp, -⟩
      exact ⟨by simpa using hid, by omega⟩
    · rintro ⟨hid, hhp⟩
      exact ⟨by rw [hid]; decide, by omega, rfl⟩
  · exact fun _ => append_ne_empty (append_ne_empty (hplace _) _) _
  · exact fun _ => hplace _

/-- **The check passes exactly what it looks for.** -/
theorem validateRoomSnapshot_eq_empty {record : RoomSnapshotRecord} :
    validateRoomSnapshot record = "" ↔ record.Accepted := by
  unfold validateRoomSnapshot
  rw [ite_eq_empty, ite_eq_empty, ite_eq_empty, ite_eq_empty, ite_eq_empty, ite_eq_empty, ite_eq_empty,
    ite_eq_empty, ite_eq_empty, ite_eq_empty, not_not, not_not, validatePlayer_eq_empty, validatePlayer_eq_empty]
  · constructor
    · rintro ⟨hmatch, hroom, hframe, htimes, hplayer0, hplayer1, hdistinct, hplayed, hwinner, hreason, -⟩
      exact
        { matchId := by simpa using hmatch
          roomId := by simpa using hroom
          frame := by omega
          times := by omega
          player0 := hplayer0
          player1 := hplayer1
          distinct := hdistinct
          played := fun hphase => by
            rcases h0 : record.player0.joined with - | - <;> rcases h1 : record.player1.joined with - | -
            · exact absurd ⟨hphase, by rw [h0]; rfl, by rw [h1]; rfl⟩ hplayed
            · exact .inr rfl
            · exact .inl rfl
            · exact .inl rfl
          winnerId := by
            rcases Decidable.em (record.winnerId = "") with hw | hw
            · exact .inl hw
            rcases Decidable.em (record.winnerId = record.player0.playerId) with hw0 | hw0
            · exact .inr (.inl hw0)
            rcases Decidable.em (record.winnerId = record.player1.playerId) with hw1 | hw1
            · exact .inr (.inr hw1)
            exact absurd ⟨hw, hw0, hw1⟩ hwinner
          reason := fun hphase hnone => hreason ⟨hphase, hnone⟩ }
    · intro h
      have hframe := h.frame
      have htimes := h.times
      refine ⟨by rw [h.matchId]; decide, by rw [h.roomId]; decide, by omega, by omega, h.player0, h.player1,
        h.distinct, ?_, ?_, fun hbad => h.reason hbad.1 hbad.2, rfl⟩
      · rintro ⟨hphase, h0, h1⟩
        rcases h.played hphase with hjoined | hjoined
        · rw [hjoined] at h0
          cases h0
        · rw [hjoined] at h1
          cases h1
      · rintro ⟨hw, hw0, hw1⟩
        rcases h.winnerId with hw' | hw' | hw'
        · exact hw hw'
        · exact hw0 hw'
        · exact hw1 hw'
  -- every answer says something
  · exact fun _ => by decide
  · exact fun _ => by decide
  · exact fun _ => by decide
  · exact fun _ => by decide
  · exact id
  · exact id
  · exact fun _ => by decide
  · exact fun _ => append_ne_empty (append_ne_empty (by decide) _) _
  · exact fun _ => by decide
  · exact fun _ => by decide

namespace BattleRoom

variable {r : BattleRoom} {t t' : Int}

/-! ## A game comes to an end

A playing room whose players are there is over when its frames have run out. -/

/-- A game that nobody is missing from, ticked up to time `t`. -/
structure Running (t : Int) (r : BattleRoom) : Prop where
  phase : r.phase = .playing
  online : ∀ s ∈ r.seats, s.runtime.online = true
  frame : r.frame ≤ kMaxFrames
  lastTickMs : r.lastTickMs ≤ t

theorem not_waitingForReconnect (h : ∀ s ∈ r.seats, s.runtime.online = true) :
    r.isWaitingForReconnect = false := by
  simpa [isWaitingForReconnect] using h

/-- Without anybody missing a Tick ends a game by its rules or not at all, and nobody goes missing. -/
theorem tick_of_online (hphase : r.phase = .playing) (honline : ∀ s ∈ r.seats, s.runtime.online = true) :
    ((r.tick t).2.phase = .playing ∨ (r.tick t).2.phase = .finishing) ∧
      ∀ s ∈ (r.tick t).2.seats, s.runtime.online = true := by
  have hframes : ∀ (frames : Nat) (r : BattleRoom), r.phase = .playing →
      (∀ s ∈ r.seats, s.runtime.online = true) →
      ((advanceFrames t frames r).phase = .playing ∨ (advanceFrames t frames r).phase = .finishing) ∧
        ∀ s ∈ (advanceFrames t frames r).seats, s.runtime.online = true := by
    intro frames r hphase honline
    refine ⟨(advanceFrames_phase t hphase frames).imp_right And.left, ?_⟩
    refine advanceFrames_invariant (P := fun r => ∀ s ∈ r.seats, s.runtime.online = true)
      (fun r hr _ => ?_) honline frames
    rw [nextFrame_seats]
    exact forall_settleAttacks hr (fun _ hs => hs) fun _ hs => hs
  have hopen : ¬(r.phase = .created ∨ r.phase = .waiting) := by
    rw [hphase]
    decide
  unfold tick
  rw [if_neg hopen, if_neg (not_not.mpr hphase), not_waitingForReconnect honline,
    if_neg Bool.false_ne_true]
  split; · exact ⟨.inl hphase, honline⟩
  dsimp only
  split; · exact ⟨.inl hphase, honline⟩
  split
  · exact hframes _ _ hphase honline
  · exact hframes _ _ hphase honline

/-- **One Tick**, a frame later at least: the game is decided, or some of its frames are used up. -/
theorem Running.tick (h : r.Running t) (hlater : t + kFrameIntervalMs ≤ t') :
    (r.tick t').2.phase = .finishing ∨ (r.tick t').2.Running t' ∧ r.frame < (r.tick t').2.frame := by
  obtain ⟨hphase, honline⟩ := tick_of_online (t := t') h.phase h.online
  refine hphase.symm.imp_right fun hplaying => ?_
  have hlast := h.lastTickMs
  cases r.paced_tick t' with
  | stood hclock hlag =>
    have hlag := hlag hplaying
    omega
  | held _ hoffline _ _ =>
    rw [not_waitingForReconnect h.online] at hoffline
    cases hoffline
  | advanced _ frames k lastTickMs _ _ hdue _ hpos _ hall hclock =>
    obtain ⟨rfl, hmax⟩ := hall hplaying
    simp only [clock, FrameClock.mk.injEq] at hclock
    obtain ⟨hframe, -, hlastTick⟩ := hclock
    refine ⟨⟨hplaying, honline, Int.le_of_lt hmax, ?_⟩, ?_⟩
    · rw [hlastTick]
      exact hdue
    · rw [hframe]
      omega

/-- **A game that nobody is missing from is decided** after as many Ticks as it has frames left. -/
theorem Running.ends {times : List Int} (h : r.Running t)
    (hspaced : (t :: times).IsChain fun a b => a + kFrameIntervalMs ≤ b)
    (hmany : kMaxFrames - r.frame < times.length) : (r.ticks times).phase = .finishing := by
  induction times generalizing r t with
  | nil =>
    have hframe := h.frame
    simp only [List.length_nil] at hmany
    omega
  | cons t' times ih =>
    rw [List.isChain_cons_cons] at hspaced
    rw [ticks, List.foldl_cons]
    change ((r.tick t').2.ticks times).phase = .finishing
    rcases h.tick hspaced.1 with hdone | ⟨hnext, hframe⟩
    · rw [ticks_of_decided (by rw [hdone]; rfl)]
      exact hdone
    · refine ih hnext hspaced.2 ?_
      simp only [List.length_cons] at hmany
      omega

/-! ## What is rebuilt

The room that comes out, and its ranges. -/

/-- **A sound room**, rebuilt from a record at `nowMs`. -/
structure Sound (record : RoomSnapshotRecord) (nowMs : Int) (r : BattleRoom) : Prop where
  ids : r.matchId = record.matchId ∧ r.roomId = record.roomId
  playerIds : r.seats.map (·.player.playerId) = [record.player0.playerId, record.player1.playerId]
  distinct : record.player0.playerId ≠ record.player1.playerId
  valid : ∀ s ∈ r.seats, s.player.playerId ≠ ""
  hp : ∀ s ∈ r.seats, 0 ≤ s.player.hp ∧ s.player.hp ≤ kInitialHp
  frame : 0 ≤ r.frame ∧ r.frame ≤ kMaxFrames
  winnerId : r.winnerId = "" ∨ ∃ s ∈ r.seats, r.winnerId = s.player.playerId
  kept : r.phase = record.phase ∧ r.frame = record.frame ∧ r.finishReason = record.finishReason ∧
    r.winnerId = record.winnerId ∧ r.startedAtMs = record.startedAtMs ∧
    r.finishedAtMs = record.finishedAtMs
  /-- A room that nobody comes to is given up. -/
  expires : r.phase = .created ∨ r.phase = .waiting → ∀ t,
    kWaitingTimeoutMs ≤ t - (if 0 < record.snapshotAtMs then record.snapshotAtMs else nowMs) →
      (r.tick t).2.phase = .aborted
  /-- A game is decided when its frames are used up. -/
  ends : r.phase = .playing → ∀ times : List Int,
    (nowMs :: times).IsChain (fun a b => a + kFrameIntervalMs ≤ b) →
      kMaxFrames - r.frame < times.length → (r.ticks times).phase = .finishing
  /-- A decided room offers its result at once, and is finished when it is stored. -/
  reports : r.phase = .finishing → r.result.isSome = true ∧
    (∀ t, nowMs ≤ t → r.shouldRetryPersist t = true) ∧ r.markResultPersisted.phase = .finished

end BattleRoom

/-- **Every record that passes the check is rebuilt to a sound room.** -/
theorem sound_of_accepted (record : RoomSnapshotRecord) (h : validateRoomSnapshot record = "")
    (nowMs : Int) : ∃ r, BattleRoom.restoreFrom record nowMs = some r ∧ r.Sound record nowMs := by
  have haccepted := validateRoomSnapshot_eq_empty.mp h
  have hne : ∀ {id}, validId id = true → id ≠ "" := by
    rintro id hid rfl
    cases hid
  have hid0 := hne haccepted.player0.playerId
  have hid1 := hne haccepted.player1.playerId
  have hplaces : ∀ {P : Seat → Prop}, P (.restored record.player0) → P (.restored record.player1) →
      ∀ s ∈ (BattleRoom.restored record nowMs).seats, P s := by
    intro P h0 h1 s hs
    rcases List.mem_pair.mp hs with rfl | rfl
    · exact h0
    · exact h1
  refine ⟨.restored record nowMs, ?_, ?_⟩
  · rw [BattleRoom.restoreFrom, if_neg hid0, if_neg haccepted.distinct, if_neg hid1]
  · exact
      { ids := ⟨rfl, rfl⟩
        playerIds := rfl
        distinct := haccepted.distinct
        valid := hplaces hid0 hid1
        hp := hplaces haccepted.player0.hp haccepted.player1.hp
        frame := haccepted.frame
        winnerId := by
          rcases haccepted.winnerId with hw | hw | hw
          · exact .inl hw
          · exact .inr ⟨.restored record.player0, List.mem_cons_self, hw⟩
          · exact .inr ⟨.restored record.player1, List.mem_cons_of_mem _ List.mem_cons_self, hw⟩
        kept := ⟨rfl, rfl, rfl, rfl, rfl, rfl⟩
        expires := fun hphase t hlate => by
          have hlate : kWaitingTimeoutMs ≤ t - (BattleRoom.restored record nowMs).createdAtMs := hlate
          rw [BattleRoom.tick, if_pos hphase, if_pos hlate]
          rfl
        ends := fun hphase times hspaced hmany =>
          BattleRoom.Running.ends
            ⟨hphase, hplaces rfl rfl, haccepted.frame.2, Int.le_refl nowMs⟩ hspaced hmany
        reports := fun hphase => by
          refine ⟨?_, fun t ht => ?_, ?_⟩
          · rw [BattleRoom.result, if_pos (.inl hphase)]
            rfl
          · have hlate : kResultRetryIntervalMs ≤ t - (nowMs - kResultRetryIntervalMs) := by
              simp only [kResultRetryIntervalMs]
              omega
            simp only [BattleRoom.shouldRetryPersist, Bool.and_eq_true, decide_eq_true_eq]
            exact ⟨hphase, hlate⟩
          · rw [BattleRoom.markResultPersisted, if_pos hphase] }

/-- A game in progress. -/
def playedRecord : RoomSnapshotRecord :=
  ⟨"m-1", "r-1", .playing, 30, ⟨"alice", 80, true⟩, ⟨"bob", 50, true⟩, "", .none, 1000, 0, 4000⟩

theorem sound_of_accepted_played :
    ∃ r, BattleRoom.restoreFrom playedRecord 5000 = some r ∧ r.Sound playedRecord 5000 :=
  sound_of_accepted playedRecord (by decide) 5000

/-- A record passes the check, and is rebuilt to a room with property `P`. -/
def RebuiltTo (record : RoomSnapshotRecord) (P : BattleRoom → Prop) : Prop :=
  validateRoomSnapshot record = "" ∧ ∃ r, BattleRoom.restoreFrom record 5000 = some r ∧ P r

/-- **What is not checked**: games with a player missing or beaten, without frames left, never started, or
with an outcome; waiting rooms with a frame, an outcome, or nobody to wait for; decided rooms with a player
missing, without a real reason, or won by whoever was beaten. -/
theorem unfit :
    RebuiltTo { playedRecord with player1 := ⟨"bob", 50, false⟩ }
        (fun r => r.phase = .playing ∧ ∃ s ∈ r.seats, s.player.connected = false) ∧
      RebuiltTo { playedRecord with player1 := ⟨"bob", 0, true⟩ }
        (fun r => r.phase = .playing ∧ ∃ s ∈ r.seats, s.player.hp = 0) ∧
      RebuiltTo { playedRecord with frame := kMaxFrames }
        (fun r => r.phase = .playing ∧ r.frame = kMaxFrames) ∧
      RebuiltTo { playedRecord with startedAtMs := 0 }
        (fun r => r.phase = .playing ∧ r.startedAtMs = 0) ∧
      RebuiltTo { playedRecord with winnerId := "alice" }
        (fun r => r.phase = .playing ∧ r.winnerId = "alice") ∧
      RebuiltTo { playedRecord with finishReason := .timeout }
        (fun r => r.phase = .playing ∧ r.finishReason = .timeout) ∧
      RebuiltTo { playedRecord with phase := .waiting }
        (fun r => r.phase = .waiting ∧ r.frame = 30 ∧ ∀ s ∈ r.seats, s.player.connected = true) ∧
      RebuiltTo { playedRecord with phase := .created, winnerId := "bob" }
        (fun r => r.phase = .created ∧ r.winnerId = "bob") ∧
      RebuiltTo { playedRecord with phase := .finishing, player0 := ⟨"alice", 80, false⟩ }
        (fun r => r.phase = .finishing ∧ ∃ s ∈ r.seats, s.player.connected = false) ∧
      RebuiltTo { playedRecord with phase := .finishing }
        (fun r => r.phase = .finishing ∧ r.finishReason = .none) ∧
      RebuiltTo { playedRecord with phase := .finishing, finishReason := .aborted }
        (fun r => r.phase = .finishing ∧ r.finishReason = .aborted) ∧
      RebuiltTo { playedRecord with
            phase := .finishing, finishReason := .hpZero, player1 := ⟨"bob", 0, true⟩, winnerId := "bob" }
        (fun r => r.phase = .finishing ∧ r.finishReason = .hpZero ∧ r.winnerId = "bob" ∧
          ∃ s ∈ r.seats, s.player.playerId = "bob" ∧ s.player.hp = 0) := by
  refine ⟨?_, ?_, ?_, ?_, ?_, ?_, ?_, ?_, ?_, ?_, ?_, ?_⟩ <;> exact ⟨by decide, _, rfl, by decide⟩

end RealtimeGame.Room
