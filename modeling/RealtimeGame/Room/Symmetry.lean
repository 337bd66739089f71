import RealtimeGame.Room.TwoPlayers

/-!
# Room/Symmetry — the order of the players does not matter

A room settles attacks place by place, and picks winners and opponents by their places.  Exchanging the two
places (`mirror`) commutes with every call all the same (`Paired.mirror_call`), and no call returns anything
else: so a room of `a` and `b` cannot be told from a room of `b` and `a`.
-/

namespace RealtimeGame.Room

/-- A snapshot with its players the other way round. -/
def RoomSnapshot.mirror (s : RoomSnapshot) : RoomSnapshot := { s with players := s.players.reverse }

namespace BattleRoom

variable {r : BattleRoom} {nowMs : Int} {p q id : String}

/-! ## What is seen of a room

A player is looked up by his id; the order of the list is not shown. -/

/-- What a call returns. -/
inductive Answer
  | joined (outcome : JoinOutcome)
  | submitted (outcome : SubmitOutcome)
  | reported (outcome : PresenceOutcome)
  | ticked (changed : Bool)
  | nothing
  deriving DecidableEq, Repr

def answer (r : BattleRoom) : Call → Answer
  | .op (.join playerId nowMs) => .joined (r.join nowMs playerId).1
  | .op (.submitInput playerId kind) => .submitted (r.submitInput playerId kind).1
  | .op (.setPresence playerId online nowMs) => .reported (r.setPresence nowMs playerId online).1
  | .op (.tick nowMs) => .ticked (r.tick nowMs).1
  | .op (.markResultFailed _) | .markResultPersisted | .abortUnfinishedGames _ => .nothing

/-- What the calls of a run return. -/
def answers : BattleRoom → List Call → List Answer
  | _, [] => []
  | r, c :: cs => r.answer c :: (r.call c).answers cs

/-- How a player is doing: his hit points, and whether he has joined and is online. -/
def player? (r : BattleRoom) (id : String) : Option PlayerSnapshot :=
  (r.seats.find? (·.player.playerId = id)).map (·.player)

/-- **Two rooms that look the same**, whatever their places. -/
structure LooksLike (r r' : BattleRoom) : Prop where
  phase : r.phase = r'.phase
  frame : r.frame = r'.frame
  finishReason : r.finishReason = r'.finishReason
  winnerId : r.winnerId = r'.winnerId
  player? : ∀ id, r.player? id = r'.player? id

/-! ## The mirror

Whatever does not look at the places commutes with the mirror by definition. -/

/-- **The room with its places exchanged**, in its buffer too. -/
def mirror (r : BattleRoom) : BattleRoom :=
  { r with seats := r.seats.reverse, history := r.history.map RoomSnapshot.mirror }

@[simp] theorem mirror_phase (r : BattleRoom) : r.mirror.phase = r.phase := rfl

@[simp] theorem mirror_frame (r : BattleRoom) : r.mirror.frame = r.frame := rfl
@[simp] theorem mirror_createdAtMs (r : BattleRoom) : r.mirror.createdAtMs = r.createdAtMs := rfl
@[simp] theorem mirror_lastTickMs (r : BattleRoom) : r.mirror.lastTickMs = r.lastTickMs := rfl

/-- The mirror of a snapshot is taken with the room. -/
theorem mirror_pushSnapshot (r : BattleRoom) : r.pushSnapshot.mirror = r.mirror.pushSnapshot := by
  simp only [pushSnapshot, mirror, map_trimHistory, List.map_append, List.map_singleton, snapshot,
    RoomSnapshot.mirror, List.map_reverse]

theorem pushSnapshot_of_mirror {r r' : BattleRoom} (h : r' = r.mirror) :
    r'.pushSnapshot = r.pushSnapshot.mirror := by
  rw [h, mirror_pushSnapshot]

/-- A room ends in the mirror as it does outside, -/
theorem mirror_finish (r : BattleRoom) (nowMs : Int) (reason : FinishReason) (winnerId : String) :
    (r.finish nowMs reason winnerId).mirror = r.mirror.finish nowMs reason winnerId :=
  mirror_pushSnapshot _

/-- …with a winner or without. -/
theorem mirror_abort (r : BattleRoom) (nowMs : Int) : (r.abort nowMs).mirror = r.mirror.abort nowMs :=
  mirror_pushSnapshot _

/-- **A new room, seen in the mirror**, is the one of the other order. -/
theorem mirror_new (roomId matchId : String) (p q : String) (nowMs : Int) :
    (new roomId matchId [p, q] nowMs).mirror = new roomId matchId [q, p] nowMs := mirror_pushSnapshot _

@[simp] theorem hasPlayer_mirror (r : BattleRoom) (id : String) : r.mirror.hasPlayer id = r.hasPlayer id :=
  List.any_reverse

@[simp] theorem isWaitingForReconnect_mirror (r : BattleRoom) :
    r.mirror.isWaitingForReconnect = r.isWaitingForReconnect := List.any_reverse

/-- Who has more hit points has them in either order. -/
theorem winnerByHp_comm (a b : Seat) : winnerByHp [b, a] = winnerByHp [a, b] := by
  simp only [winnerByHp]
  by_cases hless : a.player.hp < b.player.hp
  · rw [if_pos hless, if_neg (Int.lt_asymm hless), if_pos hless]
  · rw [if_neg hless, if_neg hless]

/-! ## Two different players

With two places, and a player in each, to look up a player is to pick a place. -/

namespace Paired

variable (h : Paired p q r) (hpq : p ≠ q)

include h

/-- The mirrored room has the two players as well. -/
theorem mirror : Paired q p r.mirror where
  playerIds := by
    change r.seats.reverse.map _ = _
    rw [List.map_reverse, show r.seats.map _ = [p, q] from h.playerIds]
    rfl
  hp s hs := h.hp s (List.mem_reverse.mp hs)
  missing hearly := by
    obtain ⟨s, hs, hvacant⟩ := h.missing hearly
    exact ⟨s, List.mem_reverse.mpr hs, hvacant⟩
  winnerId := h.winnerId.imp_right fun hw => by
    change r.winnerId ∈ r.seats.reverse.map _
    rwa [List.map_reverse, List.mem_reverse]
  playerCount := h.playerCount

include hpq

/-- Each player has one place, wherever it is. -/
theorem find?_mirror (id : String) :
    r.mirror.seats.find? (·.player.playerId = id) = r.seats.find? (·.player.playerId = id) := by
  obtain ⟨a, b, hseats, rfl, rfl, -⟩ := h.places
  change r.seats.reverse.find? _ = _
  rw [hseats]
  by_cases ha : a.player.playerId = id
  · have hb : b.player.playerId ≠ id := fun hb => hpq (ha.trans hb.symm)
    simp [ha, hb]
  · by_cases hb : b.player.playerId = id
    · simp [ha, hb]
    · simp [ha, hb]

/-- A player is shown as he is, -/
theorem player?_mirror (id : String) : r.mirror.player? id = r.player? id := by
  rw [player?, player?, h.find?_mirror hpq]

/-- …has joined or not, -/
theorem isConnected_mirror (id : String) : r.mirror.isConnected id = r.isConnected id := by
  rw [isConnected, isConnected, h.find?_mirror hpq]

/-- …is online or not, -/
theorem isOnline_mirror (id : String) : r.mirror.isOnline id = r.isOnline id := by
  rw [isOnline, isOnline, h.find?_mirror hpq]

/-- …and has one place to be changed. -/
theorem updateSeat_mirror (id : String) (f : Seat → Seat) :
    updateSeat id f r.mirror.seats = (updateSeat id f r.seats).reverse := by
  rw [h.updateSeat_eq_map hpq, h.mirror.updateSeat_eq_map hpq.symm, ← List.map_reverse]
  rfl

/-- **So a room looks like its mirror.** -/
theorem looksLike_mirror : r.LooksLike r.mirror :=
  ⟨rfl, rfl, rfl, rfl, fun id => (h.player?_mirror hpq id).symm⟩

/-! ## What the calls do

One lemma for each call.  Only two of them look at both places: a frame, and the end of a time to reconnect. -/

/-- Joining, -/
theorem mirror_join (nowMs : Int) (id : String) :
    (r.mirror.join nowMs id).1 = (r.join nowMs id).1 ∧
      (r.mirror.join nowMs id).2 = (r.join nowMs id).2.mirror := by
  have hall : ∀ l : List Seat, l.reverse.all (·.player.connected) = l.all (·.player.connected) := fun l =>
    List.all_reverse
  unfold join
  rw [mirror_phase, hasPlayer_mirror, h.isConnected_mirror hpq, h.updateSeat_mirror hpq]
  dsimp only
  rw [hall]
  split; · exact ⟨rfl, rfl⟩
  split; · exact ⟨rfl, rfl⟩
  split; · exact ⟨rfl, rfl⟩
  split; · exact ⟨rfl, rfl⟩
  split
  · exact ⟨rfl, pushSnapshot_of_mirror rfl⟩
  · exact ⟨rfl, pushSnapshot_of_mirror rfl⟩

/-- …attacking, -/
theorem mirror_submitInput (id : String) (kind : InputKind) :
    (r.mirror.submitInput id kind).1 = (r.submitInput id kind).1 ∧
      (r.mirror.submitInput id kind).2 = (r.submitInput id kind).2.mirror := by
  unfold submitInput
  rw [mirror_phase, hasPlayer_mirror, h.updateSeat_mirror hpq]
  split; · exact ⟨rfl, rfl⟩
  split; · exact ⟨rfl, rfl⟩
  split; · exact ⟨rfl, rfl⟩
  split <;> exact ⟨rfl, rfl⟩

/-- …going and coming back do not ask for the order. -/
theorem mirror_setPresence (nowMs : Int) (id : String) (online : Bool) :
    (r.mirror.setPresence nowMs id online).1 = (r.setPresence nowMs id online).1 ∧
      (r.mirror.setPresence nowMs id online).2 = (r.setPresence nowMs id online).2.mirror := by
  unfold setPresence
  rw [mirror_phase, hasPlayer_mirror, h.isOnline_mirror hpq, h.updateSeat_mirror hpq, h.updateSeat_mirror hpq]
  split; · exact ⟨rfl, rfl⟩
  split; · exact ⟨rfl, rfl⟩
  split; · exact ⟨rfl, rfl⟩
  split; · exact ⟨rfl, rfl⟩
  split
  · exact ⟨rfl, pushSnapshot_of_mirror rfl⟩
  · exact ⟨rfl, rfl⟩

omit hpq in
/-- Both players are asked for their time, and the one who is there wins. -/
theorem mirror_resolveReconnectGrace (nowMs : Int) :
    r.mirror.resolveReconnectGrace nowMs = (r.resolveReconnectGrace nowMs).map BattleRoom.mirror := by
  obtain ⟨a, b, hseats, -⟩ := h.places
  have hmirror : r.mirror.seats = [b, a] := congrArg List.reverse hseats
  have hlatest : r.mirror.latestOfflineAt = r.latestOfflineAt := by
    simp only [latestOfflineAt, hmirror, hseats, List.foldl_cons, List.foldl_nil]
    rcases a.runtime.online.eq_false_or_eq_true with ha | ha <;>
      rcases b.runtime.online.eq_false_or_eq_true with hb | hb <;> simp [ha, hb, max_left_comm, max_comm]
  have hall : r.mirror.seats.all (·.runtime.online) = r.seats.all (·.runtime.online) := List.all_reverse
  unfold resolveReconnectGrace
  rw [mirror_phase, hlatest, hall]
  split; · rfl
  split; · rfl
  case isFalse hsome =>
    split; · rfl
    -- Somebody is offline, so that one player is online at most.
    have hone : (r.mirror.seats.filter (·.runtime.online)).getLast? =
        (r.seats.filter (·.runtime.online)).getLast? := by
      rw [hseats] at hsome ⊢
      rw [hmirror]
      rcases a.runtime.online.eq_false_or_eq_true with ha | ha <;>
        rcases b.runtime.online.eq_false_or_eq_true with hb | hb <;> simp_all
    rw [hone]
    split
    · exact congrArg some (mirror_finish r nowMs _ _).symm
    · exact congrArg some (mirror_abort r nowMs).symm

omit hpq in
/-- **One frame**: attacks are settled at once, and the winner is picked by hit points. -/
theorem mirror_nextFrame (hphase : r.phase = .playing) (nowMs : Int) :
    r.mirror.nextFrame nowMs = (r.nextFrame nowMs).mirror := by
  obtain ⟨a, b, hseats, -, -, -, -, hsettled⟩ := h.places
  have hmirror : r.mirror.seats = [b, a] := congrArg List.reverse hseats
  have hreverse : settleAttacks r.mirror.seats = (settleAttacks r.seats).reverse := by
    rw [hmirror, settleAttacks_pair, hsettled]
    rfl
  have hwinner : winnerByHp (settleAttacks r.seats).reverse = winnerByHp (settleAttacks r.seats) := by
    rw [hsettled]
    exact winnerByHp_comm _ _
  have hlength : ((settleAttacks r.seats).reverse.filter fun s => 0 < s.player.hp).length =
      ((settleAttacks r.seats).filter fun s => 0 < s.player.hp).length := by
    rw [List.filter_reverse, List.length_reverse]
  unfold nextFrame BattleRoom.advanceOneFrame
  dsimp only
  rw [hreverse, hlength, hwinner, mirror_frame]
  split
  case isTrue halive =>
    have hfirst : (((settleAttacks r.seats).filter fun s => 0 < s.player.hp).head?.map
        (·.player.playerId)).getD "" = winnerByHp (settleAttacks r.seats) := (h.settle hphase).survivor halive
    have hlast : (((settleAttacks r.seats).reverse.filter fun s => 0 < s.player.hp).head?.map
        (·.player.playerId)).getD "" = winnerByHp (settleAttacks r.seats).reverse :=
      (h.settle hphase).mirror.survivor (hlength.trans_le halive)
    rw [hfirst, hlast, hwinner]
    exact pushSnapshot_of_mirror rfl
  case isFalse =>
    split
    · exact pushSnapshot_of_mirror rfl
    · exact pushSnapshot_of_mirror rfl

omit hpq in
/-- Frame after frame. -/
theorem mirror_advanceFrames (nowMs : Int) (frames : Nat) :
    advanceFrames nowMs frames r.mirror = (advanceFrames nowMs frames r).mirror := by
  induction frames generalizing r with
  | zero => rfl
  | succ frames ih =>
    rw [advanceFrames, advanceFrames, mirror_phase]
    split
    case isTrue hphase =>
      have hstart : Paired p q { r with lastTickMs := r.lastTickMs + kFrameIntervalMs } := { h with }
      have hnext := h.mirror_nextFrame hphase nowMs
      exact (congrArg _ hnext).trans (ih (hstart.advanceOneFrame hphase))
    case isFalse => rfl

omit hpq in
/-- A tick asks for the time of the two, and advances them together. -/
theorem mirror_tick (nowMs : Int) :
    (r.mirror.tick nowMs).1 = (r.tick nowMs).1 ∧ (r.mirror.tick nowMs).2 = (r.tick nowMs).2.mirror := by
  unfold BattleRoom.tick
  rw [mirror_phase, mirror_createdAtMs, mirror_lastTickMs, isWaitingForReconnect_mirror,
    h.mirror_resolveReconnectGrace]
  split
  · split
    · exact ⟨rfl, (mirror_abort r nowMs).symm⟩
    · exact ⟨rfl, rfl⟩
  split; · exact ⟨rfl, rfl⟩
  split
  · cases r.resolveReconnectGrace nowMs with
    | none => exact ⟨rfl, rfl⟩
    | some => exact ⟨rfl, rfl⟩
  split; · exact ⟨rfl, rfl⟩
  dsimp only
  split; · exact ⟨rfl, rfl⟩
  split
  · have hlate : ∀ lastTickMs, Paired p q { r with lastTickMs := lastTickMs } := fun _ => { h with }
    exact ⟨rfl, (hlate (r.lastTickMs +
      ((nowMs - r.lastTickMs) / kFrameIntervalMs - kMaxCatchUpFrames) * kFrameIntervalMs)).mirror_advanceFrames
        nowMs _⟩
  · exact ⟨rfl, h.mirror_advanceFrames nowMs _⟩

/-- **One call**: it returns the same, and leaves the mirrored room. -/
theorem mirror_call (c : Call) : r.mirror.answer c = r.answer c ∧ r.mirror.call c = (r.call c).mirror := by
  cases c with
  | op op =>
    cases op with
    | join playerId nowMs =>
      obtain ⟨hanswer, hroom⟩ := h.mirror_join hpq nowMs playerId
      exact ⟨congrArg Answer.joined hanswer, hroom⟩
    | submitInput playerId kind =>
      obtain ⟨hanswer, hroom⟩ := h.mirror_submitInput hpq playerId kind
      exact ⟨congrArg Answer.submitted hanswer, hroom⟩
    | setPresence playerId online nowMs =>
      obtain ⟨hanswer, hroom⟩ := h.mirror_setPresence hpq nowMs playerId online
      exact ⟨congrArg Answer.reported hanswer, hroom⟩
    | tick nowMs =>
      obtain ⟨hanswer, hroom⟩ := h.mirror_tick nowMs
      exact ⟨congrArg Answer.ticked hanswer, hroom⟩
    | markResultFailed nowMs =>
      refine ⟨rfl, ?_⟩
      change _ = (r.markResultFailed nowMs).mirror
      rw [markResultFailed, apply_ite BattleRoom.mirror]
      rfl
  | markResultPersisted =>
    refine ⟨rfl, ?_⟩
    change _ = r.markResultPersisted.mirror
    rw [markResultPersisted, apply_ite BattleRoom.mirror]
    rfl
  | abortUnfinishedGames nowMs =>
    refine ⟨rfl, ?_⟩
    change _ = (if r.phase.unfinished then r.abort nowMs else r).mirror
    rw [apply_ite BattleRoom.mirror, mirror_abort]
    rfl

/-- **A run of calls.** -/
theorem mirror_calls (cs : List Call) :
    r.mirror.answers cs = r.answers cs ∧ r.mirror.calls cs = (r.calls cs).mirror := by
  induction cs generalizing r with
  | nil => exact ⟨rfl, rfl⟩
  | cons c cs ih =>
    obtain ⟨hanswer, hroom⟩ := h.mirror_call hpq c
    obtain ⟨hanswers, hrooms⟩ := ih (h.call c)
    rw [answers, answers, hanswer, hroom, hanswers]
    refine ⟨rfl, ?_⟩
    change (r.mirror.call c).calls cs = _
    rw [hroom, hrooms]
    rfl

end Paired

/-- **The order of the players does not matter**: whatever is called, the two rooms return the same, and
look the same after every call. -/
theorem player_order (roomId matchId a b : String) (nowMs : Int) (hab : a ≠ b) (cs : List Call) :
    (new roomId matchId [b, a] nowMs).answers cs = (new roomId matchId [a, b] nowMs).answers cs ∧
      ∀ pre, pre <+: cs →
        ((new roomId matchId [a, b] nowMs).calls pre).LooksLike ((new roomId matchId [b, a] nowMs).calls pre) := by
  have hpair : Paired a b (new roomId matchId [a, b] nowMs) := .new roomId matchId nowMs
  rw [← mirror_new]
  refine ⟨(hpair.mirror_calls hab cs).1, fun pre _ => ?_⟩
  rw [(hpair.mirror_calls hab pre).2]
  exact (hpair.calls pre).looksLike_mirror hab

/-- A game in which one player strikes. -/
theorem player_order_struck :
    let cs : List Call := [.op (.join "a" 0), .op (.join "b" 0), .op (.submitInput "a" .attack), .op (.tick 100)]
    (new "room" "match" ["b", "a"] 0).answers cs = (new "room" "match" ["a", "b"] 0).answers cs ∧
      ∀ pre, pre <+: cs →
        ((new "room" "match" ["a", "b"] 0).calls pre).LooksLike ((new "room" "match" ["b", "a"] 0).calls pre) :=
  player_order "room" "match" "a" "b" 0 (by decide) _

end BattleRoom

end RealtimeGame.Room
