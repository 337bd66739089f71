import RealtimeGame.Room.Effect

/-!
# Room/Outcome — how a battle of two ends

A room goes through its phases in one direction only (`RoomPhase.Moves`).  While it is played, both
players are there and alive; once it is decided, its reason, its winner and what the two places hold
agree (`Verdict`).  `Lawful` says all of this of one room, every call keeps it, and so it holds after
every run of calls, whatever clock values they carry (`outcome`).
-/

namespace RealtimeGame.Room

/-- **The moves of a room** from phase to phase. -/
inductive RoomPhase.Moves : RoomPhase → RoomPhase → Prop
  | joined : Moves .created .waiting
  | started : Moves .waiting .playing
  | decided : Moves .playing .finishing
  | persisted : Moves .finishing .finished
  | aborted {phase : RoomPhase} (h : phase.unfinished = true) : Moves phase .aborted

theorem RoomPhase.ne_of_unfinished {phase phase' : RoomPhase} (h : phase.unfinished = true)
    (h' : phase'.unfinished = false) : phase ≠ phase' := by
  rintro rfl
  rw [h] at h'
  cases h'

namespace BattleRoom

variable {r : BattleRoom} {nowMs : Int} {p q playerId : String}

/-- **What a decided room says**, by the reason it gives: what the hit points, the frame and the
connections of its two places are, and who has won. -/
def Verdict (r : BattleRoom) : Prop :=
  ∃ a b, r.seats = [a, b] ∧
    match r.finishReason with
    | .hpZero =>
      0 < a.player.hp ∧ b.player.hp = 0 ∧ r.winnerId = a.player.playerId ∨
      a.player.hp = 0 ∧ 0 < b.player.hp ∧ r.winnerId = b.player.playerId ∨
      a.player.hp = 0 ∧ b.player.hp = 0 ∧ r.winnerId = ""
    | .timeout =>
      r.frame = kMaxFrames ∧ 0 < a.player.hp ∧ 0 < b.player.hp ∧
        (b.player.hp < a.player.hp ∧ r.winnerId = a.player.playerId ∨
         a.player.hp < b.player.hp ∧ r.winnerId = b.player.playerId ∨
         a.player.hp = b.player.hp ∧ r.winnerId = "")
    | .disconnect =>
      a.runtime.online = true ∧ b.runtime.online = false ∧ r.winnerId = a.player.playerId ∨
      a.runtime.online = false ∧ b.runtime.online = true ∧ r.winnerId = b.player.playerId
    | .none | .aborted => False

end BattleRoom

/-! ## Places

What a frame does to two places. -/

/-- What holds of a place of a room in `phase`. -/
structure Seat.Fits (phase : RoomPhase) (s : Seat) : Prop where
  hp : 0 ≤ s.player.hp ∧ s.player.hp ≤ kInitialHp
  /-- What a snapshot shows of a connection is what the room knows of it. -/
  presence : s.player.online = s.runtime.online
  created : phase = .created → s.player.connected = false
  unharmed : phase = .created ∨ phase = .waiting → s.player.hp = kInitialHp
  playing : phase = .playing → s.player.connected = true ∧ 0 < s.player.hp

namespace Seat.Fits

variable {phase phase' : RoomPhase} {s : Seat}

theorem vacant (playerId : String) : (Seat.vacant playerId).Fits .created where
  hp := by simp [Seat.vacant, kInitialHp]
  presence := rfl
  created _ := rfl
  unharmed _ := rfl
  playing := nofun

theorem attack (h : s.Fits phase) : s.attack.Fits phase := { h with }

theorem goOnline (h : s.Fits phase) : s.goOnline.Fits phase := { h with presence := rfl }

theorem goOffline (h : s.Fits phase) (nowMs : Int) : (s.goOffline nowMs).Fits phase :=
  { h with presence := rfl }

/-- The phase after a join asks for nothing that a join takes away. -/
theorem waiting (h : s.Fits phase) (hphase : phase = .created ∨ phase = .waiting) :
    s.Fits .waiting where
  hp := h.hp
  presence := h.presence
  created := nofun
  unharmed _ := h.unharmed hphase
  playing := nofun

theorem join (h : s.Fits .waiting) : s.join.Fits .waiting :=
  { h with created := nofun, playing := nofun }

/-- Once everybody is there, a place nobody has been hurt at is fit to play from. -/
theorem start (h : s.Fits .waiting) (hconnected : s.player.connected = true) :
    s.Fits .playing where
  hp := h.hp
  presence := h.presence
  created := nofun
  unharmed := by rintro (h | h) <;> cases h
  playing _ := ⟨hconnected, by rw [h.unharmed (.inr rfl)]; decide⟩

/-- A game that is over asks for no more than the ranges. -/
theorem ended (h : s.Fits phase) (hover : phase'.unfinished = false) : s.Fits phase' where
  hp := h.hp
  presence := h.presence
  created hp := by rw [hp] at hover; cases hover
  unharmed hp := by rcases hp with hp | hp <;> rw [hp] at hover <;> cases hover
  playing hp := by rw [hp] at hover; cases hover

theorem settled (h : s.Fits phase) (struck : Bool) : (s.settled struck).Fits .finishing where
  hp := by
    have hhp := h.hp
    rw [Seat.settled_hp]
    simp only [kAttackDamage]
    split <;> omega
  presence := by rw [Seat.settled_online, Seat.settled_runtime, h.presence]
  created := nofun
  unharmed := by rintro (h | h) <;> cases h
  playing := nofun

/-- Whoever survives a frame plays on. -/
theorem survive (h : s.Fits phase) (hconnected : s.player.connected = true)
    (halive : 0 < s.player.hp) : s.Fits .playing where
  hp := h.hp
  presence := h.presence
  created := nofun
  unharmed := by rintro (h | h) <;> cases h
  playing _ := ⟨hconnected, halive⟩

end Seat.Fits

namespace BattleRoom

variable {r : BattleRoom} {nowMs : Int} {p q playerId : String}

/-! ## The law of a room

For each phase, what holds of the room in it. -/

/-- **What holds of a room of the players `p` and `q`**, whatever has been called. -/
structure Lawful (p q : String) (r : BattleRoom) : Prop where
  playerIds : r.seats.map (·.player.playerId) = [p, q]
  seats : ∀ s ∈ r.seats, s.Fits r.phase
  frame : r.phase = .playing → r.frame < kMaxFrames
  verdict : r.phase = .finishing ∨ r.phase = .finished → r.Verdict
  aborted : r.phase = .aborted → r.winnerId = "" ∧ r.result = none

namespace Lawful

theorem new (roomId matchId : String) (nowMs : Int) :
    Lawful p q (BattleRoom.new roomId matchId [p, q] nowMs) where
  playerIds := rfl
  seats := by
    intro s hs
    obtain ⟨player, -, rfl⟩ := List.mem_map.mp hs
    exact .vacant player
  frame := nofun
  verdict := by rintro (h | h) <;> cases h
  aborted := nofun

/-- The places of a game that is not over change, each to one that fits. -/
theorem reseat (h : Lawful p q r) (hphase : r.phase.unfinished = true) (playerId : String)
    (f : Seat → Seat) (hids : ∀ s, (f s).player.playerId = s.player.playerId)
    (hfits : ∀ s, s.Fits r.phase → (f s).Fits r.phase) :
    Lawful p q { r with seats := updateSeat playerId f r.seats } where
  playerIds := (updateSeat_playerIds hids r.seats).trans h.playerIds
  seats := forall_updateSeat h.seats (fun _ hs => hs) hfits
  frame := h.frame
  verdict hover := hover.elim (absurd · (RoomPhase.ne_of_unfinished hphase rfl))
    (absurd · (RoomPhase.ne_of_unfinished hphase rfl))
  aborted hover := absurd hover (RoomPhase.ne_of_unfinished hphase rfl)

theorem pushSnapshot (h : Lawful p q r) : Lawful p q r.pushSnapshot := { h with }

/-- A room that is aborted has nothing left to say. -/
theorem abort (h : Lawful p q r) : Lawful p q (r.abort nowMs) where
  playerIds := h.playerIds
  seats s hs := (h.seats s hs).ended rfl
  frame := nofun
  verdict := by rintro (h | h) <;> cases h
  aborted _ := ⟨rfl, rfl⟩

/-- A room that finishes says what its reason asks for. -/
theorem finish {reason : FinishReason} {winnerId : String}
    (hids : r.seats.map (·.player.playerId) = [p, q]) (hfits : ∀ s ∈ r.seats, s.Fits .finishing)
    (hverdict : (r.finish nowMs reason winnerId).Verdict) :
    Lawful p q (r.finish nowMs reason winnerId) where
  playerIds := hids
  seats := hfits
  frame := nofun
  verdict _ := hverdict
  aborted := nofun

/-! ## What keeps it

One lemma for each operation. -/

/-- A join in a room where everybody is comes from somebody who is not in it: the room is not being
played yet. -/
theorem not_playing (h : Lawful p q r) (hphase : r.phase.unfinished = true)
    (hnew : ∃ s ∈ r.seats, s.player.playerId = playerId ∧ s.player.connected = false) :
    r.phase = .created ∨ r.phase = .waiting := by
  refine RoomPhase.open_of_unfinished hphase fun hp => ?_
  obtain ⟨s, hs, -, hvacant⟩ := hnew
  rw [((h.seats s hs).playing hp).1] at hvacant
  cases hvacant

/-- The places after a join of a room that is not being played yet. -/
theorem seats_join (h : Lawful p q r) (hphase : r.phase = .created ∨ r.phase = .waiting) :
    ∀ s ∈ updateSeat playerId Seat.join r.seats, s.Fits .waiting :=
  forall_updateSeat h.seats (fun _ hs => hs.waiting hphase) fun _ hs => (hs.waiting hphase).join

/-- Of two places one is offline, and the winner's is not: the winner is the other one. -/
theorem disconnected (h : Lawful p q r) {winner : Seat}
    (hoffline : ∃ s ∈ r.seats, s.runtime.online = false) (hmem : winner ∈ r.seats)
    (hwinner : winner.runtime.online = true) :
    Lawful p q (r.finish nowMs .disconnect winner.player.playerId) := by
  refine .finish h.playerIds (fun s hs => (h.seats s hs).ended rfl) ?_
  obtain ⟨loser, hloser, hoff⟩ := hoffline
  rcases pair_of_presence h.playerIds hmem hloser hwinner hoff with hseats | hseats
  · exact ⟨winner, loser, hseats, .inl ⟨hwinner, hoff, rfl⟩⟩
  · exact ⟨loser, winner, hseats, .inr ⟨hoff, hwinner, rfl⟩⟩

/-- At most one player is alive: he has won, or nobody has. -/
theorem verdict_hpZero {a b : Seat} (hseats : r.seats = [a, b]) (ha : 0 ≤ a.player.hp)
    (hb : 0 ≤ b.player.hp) (halive : (r.seats.filter fun s => 0 < s.player.hp).length ≤ 1) :
    (r.finish nowMs .hpZero (((r.seats.filter fun s => 0 < s.player.hp).head?.map
      (·.player.playerId)).getD "")).Verdict := by
  refine ⟨a, b, hseats, ?_⟩
  simp only [BattleRoom.finish, pushSnapshot_finishReason, pushSnapshot_winnerId, hseats] at halive ⊢
  by_cases hlefta : 0 < a.player.hp
  · by_cases hleftb : 0 < b.player.hp
    · simp [hlefta, hleftb] at halive
    · refine .inl ⟨hlefta, by omega, ?_⟩
      simp [hlefta]
  · by_cases hleftb : 0 < b.player.hp
    · refine .inr (.inl ⟨by omega, hleftb, ?_⟩)
      simp [hlefta, hleftb]
    · refine .inr (.inr ⟨by omega, by omega, ?_⟩)
      simp [hlefta, hleftb]

/-- More than one place is alive, and there are two. -/
theorem alive_of_not_hpZero {a b : Seat}
    (halive : ¬([a, b].filter fun s => 0 < s.player.hp).length ≤ 1) :
    0 < a.player.hp ∧ 0 < b.player.hp := by
  by_contra hdead
  refine halive ?_
  simp only [List.filter_cons, List.filter_nil, decide_eq_true_eq]
  split <;> split
  · exact absurd ⟨‹_›, ‹_›⟩ hdead
  all_goals simp

/-- Time is up: the higher hit points have won, or nobody has. -/
theorem verdict_timeout {a b : Seat} (hseats : r.seats = [a, b]) (hframe : r.frame = kMaxFrames)
    (halive : 0 < a.player.hp ∧ 0 < b.player.hp) :
    (r.finish nowMs .timeout (winnerByHp r.seats)).Verdict := by
  refine ⟨a, b, hseats, ?_⟩
  simp only [BattleRoom.finish, pushSnapshot_finishReason, pushSnapshot_winnerId,
    pushSnapshot_frame, hseats, winnerByHp]
  refine ⟨hframe, halive.1, halive.2, ?_⟩
  split
  case isTrue hlt => exact .inl ⟨hlt, rfl⟩
  case isFalse =>
    split
    case isTrue hlt => exact .inr (.inl ⟨hlt, rfl⟩)
    case isFalse => exact .inr (.inr ⟨by omega, rfl⟩)

/-- **One frame** of a game that is being played. -/
theorem nextFrame (h : Lawful p q r) (hphase : r.phase = .playing) :
    Lawful p q (r.nextFrame nowMs) := by
  obtain ⟨a, b, hseats, hp, hq⟩ := pair_of_playerIds h.playerIds
  have hframe := h.frame hphase
  have hfit : a.Fits r.phase ∧ b.Fits r.phase := by
    simpa only [hseats, forall_mem_pair] using h.seats
  -- The places after the frame, of which all that follows is said.
  obtain ⟨a', ha'⟩ : ∃ a', a.settled b.pendingAttack = a' := ⟨_, rfl⟩
  obtain ⟨b', hb'⟩ : ∃ b', b.settled a.pendingAttack = b' := ⟨_, rfl⟩
  have hids : [a', b'].map (·.player.playerId) = [p, q] := by
    simp only [← ha', ← hb', List.map_cons, List.map_nil, Seat.settled_playerId, hp, hq]
  have hfita : a'.Fits .finishing := ha' ▸ hfit.1.settled b.pendingAttack
  have hfitb : b'.Fits .finishing := hb' ▸ hfit.2.settled a.pendingAttack
  have hfits : ∀ s ∈ [a', b'], s.Fits .finishing := forall_mem_pair.mpr ⟨hfita, hfitb⟩
  have hjoined : a'.player.connected = true ∧ b'.player.connected = true := by
    rw [← ha', ← hb', Seat.settled_connected, Seat.settled_connected]
    exact ⟨(hfit.1.playing hphase).1, (hfit.2.playing hphase).1⟩
  unfold BattleRoom.nextFrame advanceOneFrame
  dsimp only
  rw [hseats, settleAttacks_pair, ha', hb']
  split
  case isTrue halive => exact .finish hids hfits (verdict_hpZero rfl hfita.hp.1 hfitb.hp.1 halive)
  case isFalse halive =>
    have hleft := alive_of_not_hpZero halive
    split
    case isTrue hlast =>
      have hlast : r.frame + 1 = kMaxFrames := by omega
      exact .finish hids hfits (verdict_timeout rfl hlast hleft)
    case isFalse hlast =>
      refine .pushSnapshot ⟨hids, ?_, fun _ => ?_, ?_, ?_⟩
      · rw [hphase, forall_mem_pair]
        exact ⟨hfita.survive hjoined.1 hleft.1, hfitb.survive hjoined.2 hleft.2⟩
      · exact Int.not_le.mp hlast
      · rw [hphase]
        rintro (hover | hover) <;> cases hover
      · rw [hphase]
        nofun

theorem started (h : Lawful p q r) (hphase : r.phase.unfinished = true)
    (hnew : ∃ s ∈ r.seats, s.player.playerId = playerId ∧ s.player.connected = false)
    (hall : ∀ s ∈ updateSeat playerId Seat.join r.seats, s.player.connected = true) :
    Lawful p q (BattleRoom.pushSnapshot
      { r with seats := updateSeat playerId Seat.join r.seats, phase := .playing,
               startedAtMs := nowMs, lastTickMs := nowMs, frame := 0 }) where
  playerIds := (updateSeat_playerIds (f := Seat.join) (fun _ => rfl) r.seats).trans h.playerIds
  seats s hs := (h.seats_join (h.not_playing hphase hnew) s hs).start (hall s hs)
  frame _ := WellFormed.kMaxFrames_pos
  verdict := by rintro (hover | hover) <;> cases hover
  aborted := nofun

theorem joined (h : Lawful p q r) (hphase : r.phase.unfinished = true)
    (hnew : ∃ s ∈ r.seats, s.player.playerId = playerId ∧ s.player.connected = false) :
    Lawful p q (BattleRoom.pushSnapshot
      { r with seats := updateSeat playerId Seat.join r.seats,
               phase := if r.phase = .created then .waiting else r.phase }) := by
  have hearly := h.not_playing hphase hnew
  have hwaiting : (if r.phase = .created then .waiting else r.phase) = RoomPhase.waiting := by
    rcases hearly with hp | hp <;> simp [hp]
  refine .pushSnapshot ⟨?_, ?_, ?_, ?_, ?_⟩
  · exact (updateSeat_playerIds (f := Seat.join) (fun _ => rfl) r.seats).trans h.playerIds
  · rw [hwaiting]
    exact h.seats_join hearly
  · rw [hwaiting]
    nofun
  · rw [hwaiting]
    rintro (hover | hover) <;> cases hover
  · rw [hwaiting]
    nofun

theorem persisted (h : Lawful p q r) (hphase : r.phase = .finishing) :
    Lawful p q { r with phase := .finished } where
  playerIds := h.playerIds
  seats s hs := (h.seats s hs).ended rfl
  frame := nofun
  verdict _ := h.verdict (.inl hphase)
  aborted := nofun

/-- **Every call keeps the law.** -/
theorem call (h : Lawful p q r) (c : Call) : Lawful p q (r.call c) := by
  generalize hcall : r.call c = r'
  have heffect := effect_call r c
  rw [hcall] at heffect
  clear hcall
  cases heffect with
  | idle => exact { h with }
  | started hphase hnew hall => exact h.started hphase hnew hall
  | joined hphase hnew => exact h.joined hphase hnew
  | attacked hphase =>
    exact h.reseat (by rw [hphase]; rfl) _ Seat.attack (fun _ => rfl) fun _ hs => hs.attack
  | wentOnline hphase => exact h.reseat hphase _ Seat.goOnline (fun _ => rfl) fun _ hs => hs.goOnline
  | @wentOffline _ nowMs hphase =>
    exact (h.reseat hphase _ (Seat.goOffline nowMs) (fun _ => rfl)
      fun _ hs => hs.goOffline nowMs).pushSnapshot
  | expired => exact h.abort
  | disconnected hphase hoffline hgrace hmem hwinner =>
    exact h.disconnected hoffline hmem hwinner
  | deserted => exact h.abort
  | advanced hphase honline frames lastTickMs =>
    have hstart : Lawful p q { r with lastTickMs := lastTickMs } := { h with }
    exact advanceFrames_invariant (fun r hr hplaying => hr.nextFrame hplaying) hstart frames
  | persisted hphase => exact h.persisted hphase
  | aborted => exact h.abort

/-! ## Forward only

Every change of phase is one of a few. -/

/-- **A call keeps the phase or moves it on.** -/
theorem moves (h : Lawful p q r) (c : Call) :
    (r.call c).phase = r.phase ∨ r.phase.Moves (r.call c).phase := by
  generalize hcall : r.call c = r'
  have heffect := effect_call r c
  rw [hcall] at heffect
  clear hcall
  cases heffect with
  | idle => exact .inl rfl
  | started hphase hnew hall =>
    rcases h.not_playing hphase hnew with hp | hp
    · -- The first to join is alone: nobody of a created room is there.
      obtain ⟨a, b, hseats, -⟩ := pair_of_playerIds h.playerIds
      have hvacant : ∀ s ∈ r.seats, s.player.connected = false := fun s hs =>
        (h.seats s hs).created hp
      simp only [hseats, forall_mem_pair] at hvacant
      rw [hseats, updateSeat] at hall
      split at hall
      · rw [(forall_mem_pair.mp hall).2] at hvacant
        exact absurd hvacant.2 (fun h => by cases h)
      · rw [List.forall_mem_cons, hvacant.1] at hall
        exact absurd hall.1 (fun h => by cases h)
    · rw [hp]
      exact .inr .started
  | joined hphase hnew =>
    rcases h.not_playing hphase hnew with hp | hp
    · rw [hp]
      exact .inr .joined
    · exact .inl (if_neg (by rw [hp]; simp))
  | attacked => exact .inl rfl
  | wentOnline => exact .inl rfl
  | wentOffline => exact .inl rfl
  | expired hphase => exact .inr (.aborted (by rcases hphase with hp | hp <;> rw [hp] <;> rfl))
  | disconnected hphase => exact .inr (hphase ▸ .decided)
  | deserted hphase => exact .inr (.aborted (by rw [hphase]; rfl))
  | @advanced nowMs hphase honline frames lastTickMs =>
    have hplaying : BattleRoom.phase { r with lastTickMs := lastTickMs } = .playing := hphase
    rcases advanceFrames_phase nowMs hplaying frames with hp | ⟨hp, -⟩ <;> rw [hp, hphase]
    · exact .inl rfl
    · exact .inr .decided
  | persisted hphase => exact .inr (hphase ▸ .persisted)
  | aborted hphase => exact .inr (.aborted hphase)

end Lawful

/-! ## Whole runs

From a new room, over any calls. -/

/-- **How far a battle of `p` and `q` has come**, and that it can only go on from there. -/
structure Outcome (p q : String) (r : BattleRoom) : Prop where
  playerIds : r.seats.map (·.player.playerId) = [p, q]
  hp : ∀ s ∈ r.seats, 0 ≤ s.player.hp ∧ s.player.hp ≤ kInitialHp
  playing : r.phase = .playing →
    (∀ s ∈ r.seats, s.player.connected = true ∧ 0 < s.player.hp) ∧ r.frame < kMaxFrames
  verdict : r.phase = .finishing ∨ r.phase = .finished → r.Verdict
  aborted : r.phase = .aborted → r.winnerId = "" ∧ r.result = none
  moves : ∀ c, (r.call c).phase = r.phase ∨ r.phase.Moves (r.call c).phase

theorem Lawful.toOutcome (h : Lawful p q r) : Outcome p q r where
  playerIds := h.playerIds
  hp s hs := (h.seats s hs).hp
  playing hp := ⟨fun s hs => (h.seats s hs).playing hp, h.frame hp⟩
  verdict := h.verdict
  aborted := h.aborted
  moves := h.moves

/-- **The outcome of a battle** — after any calls, in any order and at any times, a room of two
players is in order, and decided as its rules say. -/
theorem outcome (p q roomId matchId : String) (createdAtMs : Int) (cs : List Call) :
    Outcome p q ((BattleRoom.new roomId matchId [p, q] createdAtMs).calls cs) :=
  (calls_invariant (P := Lawful p q) (fun _ c hr => hr.call c) (.new roomId matchId createdAtMs)
    cs).toOutcome

end BattleRoom

end RealtimeGame.Room
