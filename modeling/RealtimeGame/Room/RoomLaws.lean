import RealtimeGame.Library.Run
import Mathlib.Data.List.Forall2
import RealtimeGame.Room.BattleRoom

/-!
# Room/RoomLaws — what a battle keeps, operation by operation

Two kinds of facts.  A decided room is frozen: no operation but the two marks of its persistence
touches it (`tick_of_decided` and its siblings).  And a room of two players stays well formed over
every run of its operations (`WellFormed.of_run`): hit points and frames stay in range, nobody
leaves, and a winner is one of the two.
-/

open Library

namespace RealtimeGame.Room

/-! ## How a place changes

A place belongs to one player, loses hit points but gains none, and is not left once it is taken.  Every
operation moves every place in this way. -/

/-- What every operation does to a place: the player stays, his hit points only fall and never below
zero, and once joined he stays joined. -/
structure Seat.Evolves (s s' : Seat) : Prop where
  playerId : s'.player.playerId = s.player.playerId
  hp_le : s'.player.hp ≤ s.player.hp
  hp_nonneg : 0 ≤ s.player.hp → 0 ≤ s'.player.hp
  connected : s.player.connected = true → s'.player.connected = true

namespace Seat.Evolves

variable {s s' s'' : Seat}

theorem refl (s : Seat) : s.Evolves s := ⟨rfl, Int.le_refl _, id, id⟩

theorem trans (h : s.Evolves s') (h' : s'.Evolves s'') : s.Evolves s'' :=
  ⟨h'.playerId.trans h.playerId, Int.le_trans h'.hp_le h.hp_le, h'.hp_nonneg ∘ h.hp_nonneg,
    h'.connected ∘ h.connected⟩

/-- Joining, the last one to join starts the game. -/
theorem join (s : Seat) : s.Evolves s.join := ⟨rfl, Int.le_refl _, id, fun _ => rfl⟩

theorem attack (s : Seat) : s.Evolves s.attack := ⟨rfl, Int.le_refl _, id, id⟩

theorem goOnline (s : Seat) : s.Evolves s.goOnline := ⟨rfl, Int.le_refl _, id, id⟩

theorem goOffline (nowMs : Int) (s : Seat) : s.Evolves (s.goOffline nowMs) :=
  ⟨rfl, Int.le_refl _, id, id⟩

theorem settled (s : Seat) : s.Evolves { s with pendingAttack := false } :=
  ⟨rfl, Int.le_refl _, id, id⟩

/-- A hit takes hit points away, so it needs some to start from. -/
theorem hit {s : Seat} (h : 0 ≤ s.player.hp) : s.Evolves s.hit where
  playerId := rfl
  hp_le := by simp only [Seat.hit, kAttackDamage]; omega
  hp_nonneg _ := by simp only [Seat.hit]; omega
  connected := id

end Seat.Evolves

/-- Place by place. -/
def Evolve (seats seats' : List Seat) : Prop := List.Forall₂ Seat.Evolves seats seats'

namespace Evolve

variable {l l' l'' : List Seat}

theorem refl (l : List Seat) : Evolve l l := List.forall₂_same.mpr fun s _ => Seat.Evolves.refl s

theorem trans (h : Evolve l l') (h' : Evolve l' l'') : Evolve l l'' := by
  induction h generalizing l'' with
  | nil => exact h'
  | cons hs _ ih =>
    cases h' with
    | cons hs' hl' => exact .cons (hs.trans hs') (ih hl')

/-- The same players have the same places. -/
theorem playerIds (h : Evolve l l') :
    l'.map (·.player.playerId) = l.map (·.player.playerId) := by
  induction h with
  | nil => rfl
  | cons hs _ ih => rw [List.map_cons, List.map_cons, hs.playerId, ih]

/-- Hit points stay in range, -/
theorem hp_mem (h : Evolve l l') (hl : ∀ s ∈ l, 0 ≤ s.player.hp ∧ s.player.hp ≤ kInitialHp) :
    ∀ s ∈ l', 0 ≤ s.player.hp ∧ s.player.hp ≤ kInitialHp := by
  induction h with
  | nil => exact hl
  | cons hs _ ih =>
    rw [List.forall_mem_cons] at hl ⊢
    exact ⟨⟨hs.hp_nonneg hl.1.1, Int.le_trans hs.hp_le hl.1.2⟩, ih hl.2⟩

/-- …and who is there stays there. -/
theorem connected (h : Evolve l l') (hl : ∀ s ∈ l, s.player.connected = true) :
    ∀ s ∈ l', s.player.connected = true := by
  induction h with
  | nil => exact hl
  | cons hs _ ih =>
    rw [List.forall_mem_cons] at hl ⊢
    exact ⟨hs.connected hl.1, ih hl.2⟩

/-- A call for one player changes his place alone. -/
theorem updateSeat {f : Seat → Seat} (hf : ∀ s, Seat.Evolves s (f s)) (playerId : String)
    (l : List Seat) : Evolve l (BattleRoom.updateSeat playerId f l) := by
  induction l with
  | nil => exact .nil
  | cons s l ih =>
    rw [BattleRoom.updateSeat]
    split
    · exact .cons (hf s) (Evolve.refl l)
    · exact .cons (.refl s) ih

theorem modify {f : Seat → Seat} (i : Nat) (hf : ∀ s ∈ l, Seat.Evolves s (f s)) :
    Evolve l (l.modify i f) := by
  induction l generalizing i with
  | nil => rw [List.modify_nil]; exact .nil
  | cons s l ih =>
    rw [List.forall_mem_cons] at hf
    cases i with
    | zero => exact .cons hf.1 (Evolve.refl l)
    | succ i => exact .cons (.refl s) (ih i hf.2)

/-- Hit points are at least zero at every place. -/
theorem hp_nonneg (h : Evolve l l') (hl : ∀ s ∈ l, 0 ≤ s.player.hp) :
    ∀ s ∈ l', 0 ≤ s.player.hp := by
  induction h with
  | nil => exact hl
  | cons hs _ ih =>
    rw [List.forall_mem_cons] at hl ⊢
    exact ⟨hs.hp_nonneg hl.1, ih hl.2⟩

/-- One attack hits the other place, -/
theorem strike (hl : ∀ s ∈ l, 0 ≤ s.player.hp) (i : Nat) : Evolve l (BattleRoom.strike l i) := by
  unfold BattleRoom.strike
  have hclear : Evolve l (l.modify i fun s => { s with pendingAttack := false }) :=
    .modify i fun s _ => .settled s
  dsimp only
  split
  · split
    · exact hclear
    · exact hclear.trans (.modify _ fun s hs => .hit (hclear.hp_nonneg hl s hs))
  · exact Evolve.refl l

/-- …and all of them are settled, place by place. -/
theorem settleAttacks (hl : ∀ s ∈ l, 0 ≤ s.player.hp) : Evolve l (BattleRoom.settleAttacks l) := by
  unfold BattleRoom.settleAttacks
  generalize List.range l.length = is
  induction is generalizing l with
  | nil => exact Evolve.refl l
  | cons i is ih =>
    have hstrike := Evolve.strike hl i
    exact hstrike.trans (ih (hstrike.hp_nonneg hl))

end Evolve

/-- A game that is not over, and not being played, has not begun. -/
theorem RoomPhase.open_of_unfinished {phase : RoomPhase} (h : phase.unfinished = true)
    (hplaying : phase ≠ .playing) : phase = .created ∨ phase = .waiting := by
  cases phase with
  | created => exact .inl rfl
  | waiting => exact .inr rfl
  | playing => exact absurd rfl hplaying
  | finishing | finished | aborted => cases h

namespace BattleRoom

variable {r : BattleRoom} {nowMs : Int}

/-! ## A decided room is frozen

Each operation asks first whether the game is still undecided. -/

/-- Nobody joins a decided room, -/
theorem join_of_decided (h : r.phase.unfinished = false) (player : String) :
    (r.join nowMs player).2 = r := by
  simp only [join, h, Bool.not_false, if_true]
  split <;> rfl

/-- …its input is refused, -/
theorem submitInput_of_decided (h : r.phase.unfinished = false) (player : String)
    (kind : InputKind) : (r.submitInput player kind).2 = r := by
  simp only [submitInput, h, Bool.not_false, if_true]
  split <;> rfl

/-- …it does not mind who is online, -/
theorem setPresence_of_decided (h : r.phase.unfinished = false) (player : String) (online : Bool) :
    (r.setPresence nowMs player online).2 = r := by
  simp only [setPresence, h, Bool.not_false, if_true]
  split <;> rfl

/-- …and it does not advance. -/
theorem tick_of_decided (h : r.phase.unfinished = false) : (r.tick nowMs).2 = r := by
  have hphase : ¬(r.phase = .created ∨ r.phase = .waiting) ∧ r.phase ≠ .playing := by
    cases hp : r.phase <;> simp_all [RoomPhase.unfinished]
  simp only [tick, if_neg hphase.1, if_pos hphase.2]

/-- One Tick after the other. -/
def ticks (r : BattleRoom) (times : List Int) : BattleRoom := times.foldl (fun r t => (r.tick t).2) r

/-- However often it is asked to. -/
theorem ticks_of_decided (h : r.phase.unfinished = false) (times : List Int) : r.ticks times = r := by
  induction times with
  | nil => rfl
  | cons t times ih =>
    rw [ticks, List.foldl_cons, tick_of_decided h]
    exact ih

/-! ## Runs of one room

The operations as data, with the clock that the manager guarantees: it is never before zero. -/

/-- The operations of one room, `MarkResultPersisted` and `Abort` apart. -/
inductive Op
  | join (playerId : String) (nowMs : Int)
  | submitInput (playerId : String) (kind : InputKind)
  | setPresence (playerId : String) (online : Bool) (nowMs : Int)
  | tick (nowMs : Int)
  | markResultFailed (nowMs : Int)
  deriving DecidableEq, Repr

def apply (r : BattleRoom) : Op → BattleRoom
  | .join playerId nowMs => (r.join nowMs playerId).2
  | .submitInput playerId kind => (r.submitInput playerId kind).2
  | .setPresence playerId online nowMs => (r.setPresence nowMs playerId online).2
  | .tick nowMs => (r.tick nowMs).2
  | .markResultFailed nowMs => r.markResultFailed nowMs

/-- The clock value an operation is called with is not negative. -/
def Op.ClockOk : Op → Prop
  | .join _ nowMs | .setPresence _ _ nowMs | .tick nowMs | .markResultFailed nowMs => 0 ≤ nowMs
  | .submitInput _ _ => True

instance : DecidablePred Op.ClockOk
  | .join _ nowMs | .setPresence _ _ nowMs | .tick nowMs | .markResultFailed nowMs =>
    inferInstanceAs (Decidable (0 ≤ nowMs))
  | .submitInput _ _ => .isTrue trivial

/-- One step of a room's life. -/
def Step (r : BattleRoom) (op : Op) (r' : BattleRoom) : Prop := op.ClockOk ∧ r' = r.apply op

/-! ## A room of two players

The invariant, and one lemma for each operation. -/

/-- **What holds of a room of the players `p` and `q` after any run.** -/
structure WellFormed (p q : String) (r : BattleRoom) : Prop where
  roomId : validId r.roomId = true
  matchId : validId r.matchId = true
  playerCount : r.playerCount = kPlayersPerRoom
  playerIds : r.seats.map (·.player.playerId) = [p, q]
  hp : ∀ s ∈ r.seats, 0 ≤ s.player.hp ∧ s.player.hp ≤ kInitialHp
  frame : 0 ≤ r.frame ∧ r.frame ≤ kMaxFrames
  frame_lt : r.phase = .playing → r.frame < kMaxFrames
  joined : r.phase = .playing ∨ r.phase = .finishing → ∀ s ∈ r.seats, s.player.connected = true
  winnerId : r.winnerId = "" ∨ r.winnerId = p ∨ r.winnerId = q
  times : 0 ≤ r.startedAtMs ∧ 0 ≤ r.finishedAtMs

variable {p q : String}

/-- A new room is well formed. -/
theorem WellFormed.new {roomId matchId : String} (hroom : validId roomId = true)
    (hmatch : validId matchId = true) (nowMs : Int) :
    WellFormed p q (BattleRoom.new roomId matchId [p, q] nowMs) where
  roomId := hroom
  matchId := hmatch
  playerCount := rfl
  playerIds := rfl
  hp := by simp [BattleRoom.new, Seat.vacant, kInitialHp]
  frame := by simp [BattleRoom.new, kMaxFrames]
  frame_lt h := by cases h
  joined h := by rcases h with h | h <;> cases h
  winnerId := .inl rfl
  times := ⟨Int.le_refl 0, Int.le_refl 0⟩

namespace WellFormed

/-- Only the places change, and each of them as a place may. -/
theorem evolve (h : WellFormed p q r) {seats : List Seat} (hs : Evolve r.seats seats) :
    WellFormed p q { r with seats := seats } where
  roomId := h.roomId
  matchId := h.matchId
  playerCount := h.playerCount
  playerIds := hs.playerIds.trans h.playerIds
  hp := hs.hp_mem h.hp
  frame := h.frame
  frame_lt := h.frame_lt
  joined hphase := hs.connected (h.joined hphase)
  winnerId := h.winnerId
  times := h.times

/-- A snapshot more changes nothing of it. -/
theorem pushSnapshot (h : WellFormed p q r) : WellFormed p q r.pushSnapshot := { h with }

/-- A place is one of the two players'. -/
theorem mem_playerId (h : WellFormed p q r) {s : Seat} (hs : s ∈ r.seats) :
    s.player.playerId = p ∨ s.player.playerId = q := by
  have hmem : s.player.playerId ∈ r.seats.map (·.player.playerId) := List.mem_map_of_mem hs
  simpa [h.playerIds] using hmem

/-- A room ends well formed if a winner is one of its players. -/
theorem finish (h : WellFormed p q r) (hjoined : ∀ s ∈ r.seats, s.player.connected = true)
    (hnow : 0 ≤ nowMs) (reason : FinishReason) {winner : String}
    (hwinner : winner = "" ∨ winner = p ∨ winner = q) :
    WellFormed p q (r.finish nowMs reason winner) :=
  { h with
    frame_lt := fun hphase => by cases hphase
    joined := fun _ => hjoined
    winnerId := hwinner
    times := ⟨h.times.1, hnow⟩ }

theorem abort (h : WellFormed p q r) (hnow : 0 ≤ nowMs) : WellFormed p q (r.abort nowMs) :=
  { h with
    frame_lt := fun hphase => by cases hphase
    joined := fun hphase => by rcases hphase with hphase | hphase <;> cases hphase
    winnerId := .inl rfl
    times := ⟨h.times.1, hnow⟩ }

theorem kMaxFrames_pos : 0 < kMaxFrames := by decide

theorem join (h : WellFormed p q r) (hnow : 0 ≤ nowMs) (player : String) :
    WellFormed p q (r.join nowMs player).2 := by
  unfold BattleRoom.join
  split; · exact h
  split; · exact h
  split; · exact h
  split; · exact h
  have hseats := h.evolve (.updateSeat Seat.Evolves.join player r.seats)
  dsimp only
  split
  case isTrue hall =>
    exact
      { hseats with
        frame := ⟨Int.le_refl 0, Int.le_of_lt kMaxFrames_pos⟩
        frame_lt := fun _ => kMaxFrames_pos
        joined := fun _ => List.all_eq_true.mp hall
        times := ⟨hnow, h.times.2⟩ }
  case isFalse =>
    -- A room that is not complete is waiting, or what it was.
    refine { hseats with frame_lt := fun hphase => ?_, joined := fun hphase => ?_ }
    · simp only [pushSnapshot_phase] at hphase
      split at hphase
      · cases hphase
      · exact h.frame_lt hphase
    · simp only [pushSnapshot_phase] at hphase
      split at hphase
      · rcases hphase with hphase | hphase <;> cases hphase
      · exact hseats.joined hphase

/-- An attack is kept for the next frame. -/
theorem submitInput (h : WellFormed p q r) (player : String) (kind : InputKind) :
    WellFormed p q (r.submitInput player kind).2 := by
  unfold BattleRoom.submitInput
  split; · exact h
  split; · exact h
  split; · exact h
  split; · exact h
  exact h.evolve (.updateSeat Seat.Evolves.attack player r.seats)

/-- A player goes, or comes back. -/
theorem setPresence (h : WellFormed p q r) (player : String) (online : Bool) :
    WellFormed p q (r.setPresence nowMs player online).2 := by
  unfold BattleRoom.setPresence
  split; · exact h
  split; · exact h
  split; · exact h
  split; · exact h.evolve (.updateSeat Seat.Evolves.goOnline player r.seats)
  split
  · exact (h.evolve (.updateSeat (Seat.Evolves.goOffline nowMs) player r.seats)).pushSnapshot
  · exact h

/-- By hit points one of the two wins, or nobody. -/
theorem winnerByHp (h : WellFormed p q r) :
    winnerByHp r.seats = "" ∨ winnerByHp r.seats = p ∨ winnerByHp r.seats = q := by
  unfold BattleRoom.winnerByHp
  split
  case h_1 a b hseats =>
    have ha := h.mem_playerId (s := a) (by rw [hseats]; exact List.mem_cons_self)
    have hb := h.mem_playerId (s := b) (by rw [hseats]; simp)
    split
    · exact .inr ha
    · split
      · exact .inr hb
      · exact .inl rfl
  case h_2 => exact .inl rfl

/-- One frame of a game that is being played. -/
theorem advanceOneFrame (h : WellFormed p q r) (hphase : r.phase = .playing) (hnow : 0 ≤ nowMs) :
    WellFormed p q (r.advanceOneFrame nowMs) := by
  have hevolve : Evolve r.seats (settleAttacks r.seats) :=
    .settleAttacks fun s hs => (h.hp s hs).1
  have hjoined := hevolve.connected (h.joined (.inl hphase))
  have hframe : 0 ≤ r.frame + 1 ∧ r.frame + 1 ≤ kMaxFrames := by
    have hlt := h.frame_lt hphase
    have hle := h.frame.1
    omega
  have hnext : kMaxFrames ≤ r.frame + 1 ∨ r.frame + 1 < kMaxFrames := by omega
  unfold BattleRoom.advanceOneFrame
  dsimp only
  split
  · -- At most one player is left alive.
    generalize halive : (List.filter (fun s => 0 < s.player.hp) (settleAttacks r.seats)).head? = alive
    have hwinner : (alive.map (·.player.playerId)).getD "" = "" ∨
        (alive.map (·.player.playerId)).getD "" = p ∨
        (alive.map (·.player.playerId)).getD "" = q := by
      rcases alive with - | s
      · exact .inl rfl
      · exact .inr ((h.evolve hevolve).mem_playerId
          (List.mem_of_mem_filter (List.mem_of_head? halive)))
    have hover := (h.evolve hevolve).finish hjoined hnow .hpZero hwinner
    exact { hover with frame := hframe, frame_lt := fun hp => by cases hp }
  · split
    · have hover := (h.evolve hevolve).finish hjoined hnow .timeout (h.evolve hevolve).winnerByHp
      exact { hover with frame := hframe, frame_lt := fun hp => by cases hp }
    case isFalse hlast =>
      exact { (h.evolve hevolve).pushSnapshot with
        frame := hframe
        frame_lt := fun _ => hnext.resolve_left hlast }

/-- **The loop over the frames**, as long as there are frames to advance. -/
theorem advanceFrames (h : WellFormed p q r) (hnow : 0 ≤ nowMs) (frames : Nat) :
    WellFormed p q (advanceFrames nowMs frames r) := by
  induction frames generalizing r with
  | zero => exact h
  | succ frames ih =>
    rw [BattleRoom.advanceFrames]
    split
    case isTrue hphase =>
      have hmoved : WellFormed p q { r with lastTickMs := r.lastTickMs + kFrameIntervalMs } :=
        { h with }
      exact ih (hmoved.advanceOneFrame hphase hnow)
    case isFalse => exact h

/-- The time of somebody who is away runs out. -/
theorem resolveReconnectGrace (h : WellFormed p q r) (hnow : 0 ≤ nowMs) {r' : BattleRoom}
    (hr : r.resolveReconnectGrace nowMs = some r') : WellFormed p q r' := by
  unfold BattleRoom.resolveReconnectGrace at hr
  split at hr; · cases hr
  case isFalse hphase =>
    split at hr; · cases hr
    split at hr; · cases hr
    split at hr
    case h_1 s hs =>
      cases hr
      have hmem : s ∈ r.seats := List.mem_of_mem_filter (List.mem_of_getLast? hs)
      exact h.finish (h.joined (.inl (not_not.mp hphase))) hnow _ (.inr (h.mem_playerId hmem))
    case h_2 =>
      cases hr
      exact h.abort hnow

/-- **One tick**: the players who are away, then the frames. -/
theorem tick (h : WellFormed p q r) (hnow : 0 ≤ nowMs) : WellFormed p q (r.tick nowMs).2 := by
  unfold BattleRoom.tick
  split
  · split
    · exact h.abort hnow
    · exact h
  split; · exact h
  split
  · split
    case h_1 r' hr => exact h.resolveReconnectGrace hnow hr
    case h_2 => exact { h with }
  split; · exact h
  dsimp only
  split; · exact h
  split
  · have hmoved : ∀ ms, WellFormed p q { r with lastTickMs := ms } := fun ms => { h with }
    exact (hmoved _).advanceFrames hnow _
  · exact h.advanceFrames hnow _

/-- A write that failed is tried again later. -/
theorem markResultFailed (h : WellFormed p q r) : WellFormed p q (r.markResultFailed nowMs) := by
  unfold BattleRoom.markResultFailed
  split
  · exact { h with }
  · exact h

/-- **One operation.** -/
theorem step (h : WellFormed p q r) {op : Op} {r' : BattleRoom} (hstep : Step r op r') :
    WellFormed p q r' := by
  obtain ⟨hclock, rfl⟩ := hstep
  cases op with
  | join player nowMs => exact h.join hclock player
  | submitInput player kind => exact h.submitInput player kind
  | setPresence player online nowMs => exact h.setPresence player online
  | tick nowMs => exact h.tick hclock
  | markResultFailed nowMs => exact h.markResultFailed

/-- **A run of operations.** -/
theorem of_run {ops : List Op} {r' : BattleRoom} (h : WellFormed p q r) (hrun : Run Step r ops r') :
    WellFormed p q r' :=
  hrun.invariant (fun _ _ _ hs hstep => hs.step hstep) h

end WellFormed

end BattleRoom

end RealtimeGame.Room
