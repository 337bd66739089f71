import RealtimeGame.Room.Outcome

/-!
# Room/Inputs — every accepted attack, once

The log of a room is what its calls answered and did: the inputs they accepted and the frames they
advanced, in order.  `Tally` reads off a log how many frames were advanced with an input of one
player before them, and `input_accounting` says that this is what the other player's hit points
are short of.  A place has an attack pending exactly while the log has one that no frame has settled:
nothing is lost on the way, and nothing is counted twice.
-/

namespace RealtimeGame.Room

/-! ## The log

What was accepted and advanced, in order. -/

inductive LogEntry
  /-- An input of this player was accepted. -/
  | accepted (playerId : String)
  | frame
  deriving DecidableEq, Repr

namespace BattleRoom

variable {r : BattleRoom} {nowMs : Int} {p q playerId : String} {es : List LogEntry}

/-- What one call adds to the log. -/
def events (r : BattleRoom) (c : Call) : List LogEntry :=
  (r.accepted c).toList.map .accepted ++
    List.replicate ((r.call c).frame - r.frame).toNat .frame

/-- The log of a run of calls. -/
def log (r : BattleRoom) : List Call → List LogEntry
  | [] => []
  | c :: cs => r.events c ++ log (r.call c) cs

theorem log_snoc (r : BattleRoom) (cs : List Call) (c : Call) :
    r.log (cs ++ [c]) = r.log cs ++ (r.calls cs).events c := by
  induction cs generalizing r with
  | nil => exact (List.append_nil _).trans (List.nil_append _).symm
  | cons d cs ih =>
    rw [List.cons_append, log, log, ih, List.append_assoc]
    rfl

end BattleRoom

/-! ## The tally

Read off the log alone: several inputs before one frame count once. -/

/-- What a log says of the attacks of one player. -/
structure Tally where
  /-- He has attacked since the last frame. -/
  armed : Bool := false
  /-- The frames that were advanced with an attack of his since the frame before. -/
  hits : Nat := 0
  deriving DecidableEq, Repr

def Tally.next (playerId : String) (t : Tally) : LogEntry → Tally
  | .accepted player => if player = playerId then { t with armed := true } else t
  | .frame => ⟨false, if t.armed then t.hits + 1 else t.hits⟩

/-- **The tally of a player** over a log. -/
def tally (playerId : String) (es : List LogEntry) : Tally := es.foldl (Tally.next playerId) {}

theorem tally_snoc (playerId : String) (es : List LogEntry) (e : LogEntry) :
    tally playerId (es ++ [e]) = (tally playerId es).next playerId e :=
  List.foldl_concat (Tally.next playerId) {} e es

/-- Once an attack is accepted, nothing but a frame changes the tally. -/
theorem foldl_next_of_armed {playerId : String} {t : Tally} (harmed : t.armed = true)
    {es : List LogEntry} (hes : .frame ∉ es) : es.foldl (Tally.next playerId) t = t := by
  induction es with
  | nil => rfl
  | cons e es ih =>
    rw [List.mem_cons, not_or] at hes
    cases e with
    | frame => exact absurd rfl hes.1
    | accepted player =>
      have hsame : t.next playerId (.accepted player) = t := by
        rw [Tally.next, ← harmed]
        split <;> rfl
      rw [List.foldl_cons, hsame]
      exact ih hes.2

/-- **An accepted attack counts in the next frame**, and there once, however often it is repeated. -/
theorem tally_attack (playerId : String) (es : List LogEntry) {rest : List LogEntry}
    (hrest : .frame ∉ rest) :
    tally playerId (es ++ .accepted playerId :: (rest ++ [.frame])) =
      ⟨false, (tally playerId es).hits + 1⟩ := by
  have harmed : (tally playerId es).next playerId (.accepted playerId) =
      { tally playerId es with armed := true } := if_pos rfl
  rw [← List.cons_append, ← List.append_assoc, tally_snoc, tally, List.foldl_append,
    List.foldl_cons]
  change ((rest.foldl _ ((tally playerId es).next playerId (.accepted playerId))).next playerId _) = _
  rw [harmed, foldl_next_of_armed rfl hrest]
  rfl

/-- **Nothing else counts**: from a frame on, further frames without an attack of the player, and
whatever the other one does, leave his tally alone. -/
theorem tally_quiet (playerId : String) (es : List LogEntry) {rest : List LogEntry}
    (hrest : .accepted playerId ∉ rest) :
    tally playerId (es ++ .frame :: rest) = tally playerId (es ++ [.frame]) := by
  rw [← List.singleton_append, ← List.append_assoc]
  induction rest using List.reverseRecOn with
  | nil => rw [List.append_nil]
  | append_singleton rest e ih =>
    rw [List.mem_append, List.mem_singleton, not_or] at hrest
    rw [← List.append_assoc, tally_snoc, ih hrest.1]
    cases e with
    | accepted player => exact if_neg fun heq => hrest.2 (by rw [heq])
    | frame => rw [tally_snoc]; rfl

/-- **A place agrees with a log**: its hit points are short of what the opponent's attacks took, and
until the game is over its own attack is pending when the log has one that is not settled. -/
structure Seat.Agrees (player opponent : String) (es : List LogEntry) (phase : RoomPhase) (s : Seat) :
    Prop where
  playerId : s.player.playerId = player
  hp : s.player.hp = max 0 (kInitialHp - kAttackDamage * (tally opponent es).hits)
  pending : phase.unfinished = true → s.pendingAttack = (tally player es).armed

namespace Seat.Agrees

variable {player opponent : String} {es : List LogEntry} {phase phase' : RoomPhase} {s : Seat}

theorem vacant (player opponent : String) : (Seat.vacant player).Agrees player opponent [] .created :=
  ⟨rfl, rfl, fun _ => rfl⟩

theorem join (h : s.Agrees player opponent es phase) : s.join.Agrees player opponent es phase :=
  ⟨h.playerId, h.hp, h.pending⟩

theorem goOnline (h : s.Agrees player opponent es phase) : s.goOnline.Agrees player opponent es phase :=
  ⟨h.playerId, h.hp, h.pending⟩

theorem goOffline (h : s.Agrees player opponent es phase) (nowMs : Int) :
    (s.goOffline nowMs).Agrees player opponent es phase :=
  ⟨h.playerId, h.hp, h.pending⟩

/-- Before the game is over the phase does not matter; afterwards nothing is pending. -/
theorem rephase (h : s.Agrees player opponent es phase)
    (hphase : phase'.unfinished = true → phase.unfinished = true) :
    s.Agrees player opponent es phase' :=
  ⟨h.playerId, h.hp, fun hp => h.pending (hphase hp)⟩

/-- An input is accepted: the place of its player has an attack pending, the other place is as it
was. -/
theorem accepted (h : s.Agrees player opponent es phase) (attacker : String) :
    (if s.player.playerId = attacker then s.attack else s).Agrees player opponent
      (es ++ [.accepted attacker]) phase := by
  have hhits : (tally opponent (es ++ [.accepted attacker])).hits = (tally opponent es).hits := by
    rw [tally_snoc, Tally.next]
    split <;> rfl
  rw [h.playerId]
  split
  case isTrue heq =>
    refine ⟨h.playerId, h.hp.trans (by rw [hhits]), fun _ => ?_⟩
    rw [tally_snoc, Tally.next, if_pos heq.symm]
    rfl
  case isFalse hne =>
    refine ⟨h.playerId, h.hp.trans (by rw [hhits]), fun hphase => ?_⟩
    rw [tally_snoc, Tally.next, if_neg fun heq => hne heq.symm]
    exact h.pending hphase

/-- **A frame**: what is pending at the opponent's place takes its damage here, and is settled. -/
theorem settled {t : Seat} (h : s.Agrees player opponent es phase)
    (h' : t.Agrees opponent player es phase) (hphase : phase.unfinished = true) :
    (s.settled t.pendingAttack).Agrees player opponent (es ++ [.frame]) phase' where
  playerId := by rw [Seat.settled_playerId, h.playerId]
  hp := by
    rw [Seat.settled_hp, h'.pending hphase, h.hp, tally_snoc, Tally.next]
    simp only [kInitialHp, kAttackDamage]
    split <;> omega
  pending _ := by rw [Seat.settled_pendingAttack, tally_snoc, Tally.next]

end Seat.Agrees

namespace BattleRoom

variable {r : BattleRoom} {nowMs : Int} {p q playerId : String} {es : List LogEntry}

/-! ## The account

Ten hit points for each frame of the tally, down to zero. -/

/-- **A room agrees with its log.** -/
structure Accounts (p q : String) (es : List LogEntry) (r : BattleRoom) : Prop where
  /-- The frames of the log are the frames of the game. -/
  frame : r.frame = es.count .frame
  early : r.phase = .created ∨ r.phase = .waiting → r.frame = 0
  seats : ∃ a b, r.seats = [a, b] ∧ a.Agrees p q es r.phase ∧ b.Agrees q p es r.phase

namespace Accounts

theorem new (roomId matchId : String) (nowMs : Int) :
    Accounts p q [] (BattleRoom.new roomId matchId [p, q] nowMs) where
  frame := rfl
  early _ := rfl
  seats := ⟨_, _, rfl, .vacant p q, .vacant q p⟩

/-- A call that accepts nothing and advances nothing leaves the log alone. -/
theorem events_eq_nil {c : Call} {r' : BattleRoom} (hquiet : r.accepted c = none)
    (hframe : r'.frame = r.frame) :
    (r.accepted c).toList.map LogEntry.accepted ++
      List.replicate (r'.frame - r.frame).toNat LogEntry.frame = [] := by
  rw [hquiet, hframe, Int.sub_self]
  rfl

/-- One place changes, and not in what the log says of it. -/
theorem reseat (h : Accounts p q es r) (hpq : p ≠ q) (playerId : String) (f : Seat → Seat)
    (hf : ∀ s player opponent, s.Agrees player opponent es r.phase →
      (f s).Agrees player opponent es r.phase) :
    ∃ a b, updateSeat playerId f r.seats = [a, b] ∧ a.Agrees p q es r.phase ∧
      b.Agrees q p es r.phase := by
  obtain ⟨a, b, hseats, ha, hb⟩ := h.seats
  have hne : a.player.playerId ≠ b.player.playerId := by rwa [ha.playerId, hb.playerId]
  refine ⟨_, _, by rw [hseats, updateSeat_pair hne], ?_, ?_⟩
  · split
    · exact hf a p q ha
    · exact ha
  · split
    · exact hf b q p hb
    · exact hb

/-- A game that is over keeps its account. -/
theorem ended (h : Accounts p q es r) {r' : BattleRoom} (hphase : r'.phase.unfinished = false)
    (hframe : r'.frame = r.frame) (hseats : r'.seats = r.seats) : Accounts p q es r' where
  frame := hframe.trans h.frame
  early hp := by rcases hp with hp | hp <;> rw [hp] at hphase <;> cases hphase
  seats := by
    obtain ⟨a, b, hab, ha, hb⟩ := h.seats
    have hover : r'.phase.unfinished = true → r.phase.unfinished = true := fun hp => by
      rw [hphase] at hp
      cases hp
    exact ⟨a, b, hseats.trans hab, ha.rephase hover, hb.rephase hover⟩

/-- **One frame more**, in the game and in the log. -/
theorem nextFrame (h : Accounts p q es r) (hphase : r.phase = .playing) :
    Accounts p q (es ++ [.frame]) (r.nextFrame nowMs) where
  frame := by rw [nextFrame_frame, h.frame, List.count_append]; rfl
  early hp := by
    rcases nextFrame_phase r nowMs hphase with hp' | ⟨hp', -⟩ <;> rw [hp'] at hp <;>
      rcases hp with hp | hp <;> cases hp
  seats := by
    obtain ⟨a, b, hseats, ha, hb⟩ := h.seats
    have hunfinished : r.phase.unfinished = true := by rw [hphase]; rfl
    refine ⟨_, _, by rw [nextFrame_seats, hseats, settleAttacks_pair], ?_, ?_⟩
    · exact ha.settled hb hunfinished
    · exact hb.settled ha hunfinished

/-- The loop of a tick: as many frames in the log as the game has advanced. -/
theorem advanceFrames (h : Accounts p q es r) (frames : Nat) :
    Accounts p q
      (es ++ List.replicate ((BattleRoom.advanceFrames nowMs frames r).frame - r.frame).toNat .frame)
      (BattleRoom.advanceFrames nowMs frames r) := by
  obtain ⟨k, hk, haccounts⟩ : ∃ k : Nat, (BattleRoom.advanceFrames nowMs frames r).frame = r.frame + k ∧
      Accounts p q (es ++ List.replicate k .frame) (BattleRoom.advanceFrames nowMs frames r) := by
    refine advanceFrames_invariant (P := fun m => ∃ k : Nat, m.frame = r.frame + k ∧
      Accounts p q (es ++ List.replicate k .frame) m) ?_ ?_ frames
    · rintro m ⟨k, hframe, hm⟩ hplaying
      refine ⟨k + 1, ?_, ?_⟩
      · rw [nextFrame_frame, hframe]
        omega
      · rw [List.replicate_succ', ← List.append_assoc]
        exact hm.nextFrame hplaying
    · exact ⟨0, by omega, by rwa [List.replicate_zero, List.append_nil]⟩
  have hcount : ((BattleRoom.advanceFrames nowMs frames r).frame - r.frame).toNat = k := by omega
  rw [hcount]
  exact haccounts

/-- **Every call adds to the log what it does to the room.** -/
theorem call (h : Accounts p q es r) (hpq : p ≠ q) (hlawful : Lawful p q r) (c : Call) :
    Accounts p q (es ++ r.events c) (r.call c) := by
  unfold events
  generalize hcall : r.call c = r'
  have heffect := effect_call r c
  rw [hcall] at heffect
  clear hcall
  cases heffect with
  | idle hquiet =>
    rw [events_eq_nil hquiet (by rfl), List.append_nil]
    exact ⟨h.frame, h.early, h.seats⟩
  | started hphase hnew =>
    have hzero := h.early (hlawful.not_playing hphase hnew)
    obtain ⟨a, b, hseats, ha, hb⟩ := h.reseat hpq _ Seat.join fun _ _ _ hs => hs.join
    rw [events_eq_nil rfl (by exact hzero.symm), List.append_nil]
    refine ⟨hzero.symm.trans h.frame, fun _ => rfl, a, b, hseats, ?_, ?_⟩
    · exact ha.rephase fun _ => hphase
    · exact hb.rephase fun _ => hphase
  | joined hphase hnew =>
    have hearly := hlawful.not_playing hphase hnew
    obtain ⟨a, b, hseats, ha, hb⟩ := h.reseat hpq _ Seat.join fun _ _ _ hs => hs.join
    rw [events_eq_nil rfl (by rfl), List.append_nil]
    refine ⟨h.frame, fun _ => h.early hearly, a, b, hseats, ?_, ?_⟩
    · exact ha.rephase fun _ => hphase
    · exact hb.rephase fun _ => hphase
  | attacked hphase haccepted =>
    obtain ⟨a, b, hseats, ha, hb⟩ := h.seats
    have hne : a.player.playerId ≠ b.player.playerId := by rwa [ha.playerId, hb.playerId]
    rw [haccepted, Int.sub_self]
    refine ⟨?_, fun hearly => h.early hearly, _, _, by rw [hseats, updateSeat_pair hne], ?_, ?_⟩
    · simpa using h.frame
    · exact ha.accepted _
    · exact hb.accepted _
  | wentOnline =>
    rw [events_eq_nil rfl (by rfl), List.append_nil]
    exact ⟨h.frame, h.early, h.reseat hpq _ Seat.goOnline fun _ _ _ hs => hs.goOnline⟩
  | @wentOffline _ nowMs =>
    rw [events_eq_nil rfl (by rfl), List.append_nil]
    exact ⟨h.frame, h.early,
      h.reseat hpq _ (Seat.goOffline nowMs) fun _ _ _ hs => hs.goOffline nowMs⟩
  | expired =>
    rw [events_eq_nil rfl (by rfl), List.append_nil]
    exact h.ended rfl rfl rfl
  | disconnected =>
    rw [events_eq_nil rfl (by rfl), List.append_nil]
    exact h.ended rfl rfl rfl
  | deserted =>
    rw [events_eq_nil rfl (by rfl), List.append_nil]
    exact h.ended rfl rfl rfl
  | advanced hphase honline frames lastTickMs =>
    have hstart : Accounts p q es { r with lastTickMs := lastTickMs } := ⟨h.frame, h.early, h.seats⟩
    exact hstart.advanceFrames frames
  | persisted hphase =>
    rw [events_eq_nil rfl (by rfl), List.append_nil]
    exact h.ended rfl rfl rfl
  | aborted =>
    rw [events_eq_nil rfl (by rfl), List.append_nil]
    exact h.ended rfl rfl rfl

/-- The account of a run from the creation of the room. -/
theorem of_calls (hpq : p ≠ q) (roomId matchId : String) (createdAtMs : Int) (cs : List Call) :
    Accounts p q ((BattleRoom.new roomId matchId [p, q] createdAtMs).log cs)
        ((BattleRoom.new roomId matchId [p, q] createdAtMs).calls cs) ∧
      Lawful p q ((BattleRoom.new roomId matchId [p, q] createdAtMs).calls cs) := by
  induction cs using List.reverseRecOn with
  | nil => exact ⟨.new roomId matchId createdAtMs, .new roomId matchId createdAtMs⟩
  | append_singleton cs c ih =>
    rw [log_snoc, calls_snoc]
    exact ⟨ih.1.call hpq ih.2 c, ih.2.call c⟩

end Accounts

/-- **Input accounting** — after any calls, each player's hit points are short of exactly the frames
that were advanced with an attack of the other since the frame before. -/
theorem input_accounting (hpq : p ≠ q) (roomId matchId : String) (createdAtMs : Int)
    (cs : List Call) :
    let r := BattleRoom.new roomId matchId [p, q] createdAtMs
    ∃ a b, (r.calls cs).seats = [a, b] ∧ a.player.playerId = p ∧ b.player.playerId = q ∧
      a.player.hp = max 0 (kInitialHp - kAttackDamage * (tally q (r.log cs)).hits) ∧
      b.player.hp = max 0 (kInitialHp - kAttackDamage * (tally p (r.log cs)).hits) ∧
      (r.calls cs).frame = (r.log cs).count .frame := by
  intro r
  obtain ⟨⟨hframe, -, a, b, hseats, ha, hb⟩, -⟩ :=
    Accounts.of_calls hpq roomId matchId createdAtMs cs
  exact ⟨a, b, hseats, ha.playerId, hb.playerId, ha.hp, hb.hp, hframe⟩

/-- Two attacks in one frame strike once; one that no frame has followed has not struck yet. -/
theorem input_accounting_merged :
    let r := BattleRoom.new "r" "m" ["p", "q"] 1
    let cs : List Call :=
      [.op (.join "p" 2), .op (.join "q" 3), .op (.submitInput "p" .attack),
        .op (.submitInput "p" .attack), .op (.tick 303), .op (.submitInput "q" .attack)]
    (∃ a b, (r.calls cs).seats = [a, b] ∧ a.player.playerId = "p" ∧ b.player.playerId = "q" ∧
      a.player.hp = max 0 (kInitialHp - kAttackDamage * (tally "q" (r.log cs)).hits) ∧
      b.player.hp = max 0 (kInitialHp - kAttackDamage * (tally "p" (r.log cs)).hits) ∧
      (r.calls cs).frame = (r.log cs).count .frame) ∧
    r.log cs = [.accepted "p", .accepted "p", .frame, .frame, .frame, .accepted "q"] :=
  ⟨input_accounting (by decide) "r" "m" 1 _, by decide⟩


end BattleRoom

end RealtimeGame.Room
