import RealtimeGame.Room.Effect

/-!
# Room/Reconnect — the grace period of a player who is away

A room holds a game while somebody is offline, and ends it when everybody who is has been away for
`kReconnectGraceMs`.  What the room knows is one time per place; what it stands for is a stretch of
the run of calls (`OfflineSince`): a report took the player offline, and after no call since has he
been online.  `Timed` keeps the two together, and `grace_law` reads the end of a game off it.  No
clock value is asked for to be positive, or later than another.
-/

open Library

namespace RealtimeGame.Room

namespace BattleRoom

variable {r r₀ : BattleRoom} {nowMs sinceMs : Int} {p q playerId : String} {cs : List Call} {c : Call}

/-! ## Where a game begins

With a new room, or with one that is rebuilt. -/

/-- **A room of `p` and `q` that is only now called**: a new one, or one rebuilt from its record. -/
inductive Opens (p q : String) : BattleRoom → Prop
  | new (hpq : p ≠ q) (roomId matchId : String) (nowMs : Int) :
      Opens p q (BattleRoom.new roomId matchId [p, q] nowMs)
  | restored {record : RoomSnapshotRecord} {nowMs : Int} {r : BattleRoom}
      (hp : record.player0.playerId = p) (hq : record.player1.playerId = q)
      (h : restoreFrom record nowMs = some r) : Opens p q r

namespace Opens

theorem ne (h : Opens p q r) : p ≠ q := by
  cases h with
  | new hpq => exact hpq
  | restored hp hq h =>
    subst hp hq
    unfold restoreFrom at h
    split at h; · cases h
    split at h; · cases h
    assumption

theorem playerIds (h : Opens p q r) : r.seats.map (·.player.playerId) = [p, q] := by
  cases h with
  | new => rfl
  | restored hp hq h =>
    subst hp hq
    unfold restoreFrom at h
    split at h; · cases h
    split at h; · cases h
    split at h
    · cases h
    · cases h
      rfl

/-- Everybody counts as online. -/
theorem runtime (h : Opens p q r) : ∀ s ∈ r.seats, s.runtime = ⟨true, 0⟩ := by
  cases h with
  | new => exact forall_mem_pair.mpr ⟨rfl, rfl⟩
  | restored hp hq h =>
    unfold restoreFrom at h
    split at h; · cases h
    split at h; · cases h
    split at h
    · cases h
    · cases h
      exact forall_mem_pair.mpr ⟨rfl, rfl⟩

end Opens

/-! ## Away without interruption

A stretch of the run of calls, from the report that took the player offline. -/

/-- **The player has been offline since `sinceMs`**: a report of that time said so, and he has not been
online after it or after any call that followed. -/
def OfflineSince (r₀ : BattleRoom) (cs : List Call) (playerId : String) (sinceMs : Int) : Prop :=
  Run.Since call r₀ cs (.op (.setPresence playerId false sinceMs)) fun r => r.isOnline playerId = false

/-- He has been offline for the grace period at the time `nowMs`. -/
def OutOfGrace (r₀ : BattleRoom) (cs : List Call) (playerId : String) (nowMs : Int) : Prop :=
  ∃ sinceMs, OfflineSince r₀ cs playerId sinceMs ∧ kReconnectGraceMs ≤ nowMs - sinceMs

/-- In a room of two different players everybody is found at his own place. -/
theorem isOnline_of_mem (hpq : p ≠ q) (hids : r.seats.map (·.player.playerId) = [p, q]) {s : Seat}
    (hs : s ∈ r.seats) : r.isOnline s.player.playerId = s.runtime.online := by
  obtain ⟨a, b, hseats, hp, hq⟩ := pair_of_playerIds hids
  have hne : a.player.playerId ≠ b.player.playerId := by rwa [hp, hq]
  rw [hseats, List.mem_pair] at hs
  simp only [isOnline, hseats]
  rcases hs with rfl | rfl
  · simp
  · simp [hne]

/-! ## What a call does to the connections

A connection is kept, comes back, or is lost by a report. -/

/-- **Where the connection at the place `s'` comes from**, after a call of a room with `seats`. -/
inductive Came (seats : List Seat) : Call → Seat → Prop
  | kept {c : Call} {s s' : Seat} (hs : s ∈ seats) (hid : s'.player.playerId = s.player.playerId)
      (hruntime : s'.runtime = s.runtime) : Came seats c s'
  | back {c : Call} {s' : Seat} (hruntime : s'.runtime = ⟨true, 0⟩) : Came seats c s'
  | left {nowMs : Int} {s' : Seat} (hid : validId s'.player.playerId = true)
      (hruntime : s'.runtime = ⟨false, nowMs⟩) :
      Came seats (.op (.setPresence s'.player.playerId false nowMs)) s'

/-- The places after some frames: the same players, with the same connections. -/
theorem advanceFrames_places (hids : r.seats.map (·.player.playerId) = [p, q]) (frames : Nat) :
    (advanceFrames nowMs frames r).seats.map (·.player.playerId) = [p, q] ∧
      ∀ s' ∈ (advanceFrames nowMs frames r).seats, Came r.seats c s' := by
  refine advanceFrames_invariant
    (P := fun m => m.seats.map (·.player.playerId) = [p, q] ∧ ∀ s' ∈ m.seats, ∃ s ∈ r.seats,
      s'.player.playerId = s.player.playerId ∧ s'.runtime = s.runtime) ?_ ?_ frames |>.imp_right ?_
  · rintro m ⟨hm, hplaces⟩ -
    obtain ⟨a, b, hseats, hp, hq⟩ := pair_of_playerIds hm
    rw [hseats, forall_mem_pair] at hplaces
    rw [nextFrame_seats, hseats, settleAttacks_pair, forall_mem_pair]
    simpa [hp, hq] using hplaces
  · exact ⟨hids, fun s hs => ⟨s, hs, rfl, rfl⟩⟩
  · rintro h s' hs'
    obtain ⟨s, hs, hid, hruntime⟩ := h s' hs'
    exact .kept hs hid hruntime

/-- A change of one place, which keeps its player and his connection. -/
theorem updateSeat_places (hids : r.seats.map (·.player.playerId) = [p, q]) (player : String)
    (f : Seat → Seat) (hid : ∀ s, (f s).player.playerId = s.player.playerId)
    (hruntime : ∀ s, (f s).runtime = s.runtime) :
    (updateSeat player f r.seats).map (·.player.playerId) = [p, q] ∧
      ∀ s' ∈ updateSeat player f r.seats, Came r.seats c s' := by
  refine ⟨(updateSeat_playerIds hid r.seats).trans hids, fun s' hs' => ?_⟩
  obtain hs' | ⟨s, hs, -, rfl⟩ := mem_updateSeat hs'
  · exact .kept hs' rfl rfl
  · exact .kept hs (hid s) (hruntime s)

theorem call_places (hids : r.seats.map (·.player.playerId) = [p, q]) (c : Call) :
    (r.call c).seats.map (·.player.playerId) = [p, q] ∧ ∀ s' ∈ (r.call c).seats, Came r.seats c s' := by
  have hsame : r.seats.map (·.player.playerId) = [p, q] ∧ ∀ s' ∈ r.seats, Came r.seats c s' :=
    ⟨hids, fun _ hs => .kept hs rfl rfl⟩
  generalize hcall : r.call c = r'
  have heffect := effect_call r c
  rw [hcall] at heffect
  clear hcall
  cases heffect with
  | idle => exact hsame
  | started => exact updateSeat_places hids _ Seat.join (fun _ => rfl) fun _ => rfl
  | joined => exact updateSeat_places hids _ Seat.join (fun _ => rfl) fun _ => rfl
  | attacked => exact updateSeat_places hids _ Seat.attack (fun _ => rfl) fun _ => rfl
  | wentOnline =>
    refine ⟨(updateSeat_playerIds (f := Seat.goOnline) (fun _ => rfl) r.seats).trans hids,
      fun s' hs' => ?_⟩
    obtain hs' | ⟨s, -, -, rfl⟩ := mem_updateSeat hs'
    · exact .kept hs' rfl rfl
    · exact .back rfl
  | @wentOffline player nowMs hphase hid =>
    refine ⟨(updateSeat_playerIds (f := Seat.goOffline nowMs) (fun _ => rfl) r.seats).trans hids,
      fun s' hs' => ?_⟩
    obtain hs' | ⟨s, -, rfl, rfl⟩ := mem_updateSeat hs'
    · exact .kept hs' rfl rfl
    · exact @Came.left r.seats nowMs (s.goOffline nowMs) hid rfl
  | expired => exact hsame
  | disconnected => exact hsame
  | deserted => exact hsame
  | advanced hphase honline frames lastTickMs =>
    exact advanceFrames_places (r := { r with lastTickMs := lastTickMs }) hids frames
  | persisted => exact hsame
  | aborted => exact hsame

/-! ## The timers

The time of a place is the time of that report. -/

/-- **What the times at the places stand for**, after the calls `cs` of a room that was `r₀`. -/
structure Timed (p q : String) (r₀ : BattleRoom) (cs : List Call) (r : BattleRoom) : Prop where
  playerIds : r.seats.map (·.player.playerId) = [p, q]
  offline : ∀ s ∈ r.seats, s.runtime.online = false →
    validId s.player.playerId = true ∧
      OfflineSince r₀ cs s.player.playerId s.runtime.offlineSinceMs
  /-- Whoever is online has no time noted. -/
  online : ∀ s ∈ r.seats, s.runtime.online = true → s.runtime = ⟨true, 0⟩

namespace Timed

theorem opens (h : Opens p q r) : Timed p q r [] r where
  playerIds := h.playerIds
  offline s hs hoff := by rw [h.runtime s hs] at hoff; cases hoff
  online s hs _ := h.runtime s hs

theorem call (hpq : p ≠ q) (h : Timed p q r₀ cs (r₀.calls cs)) (c : Call) :
    Timed p q r₀ (cs ++ [c]) (r₀.calls (cs ++ [c])) := by
  rw [calls_snoc]
  obtain ⟨hids, hplaces⟩ := call_places h.playerIds c
  refine ⟨hids, fun s' hs' hoff => ?_, fun s' hs' hon => ?_⟩
  · -- Offline now, he is found so by name, after this call too.
    have hnow : (r₀.calls (cs ++ [c])).isOnline s'.player.playerId = false := by
      rw [calls_snoc, isOnline_of_mem hpq hids hs', hoff]
    cases hplaces s' hs' with
    | kept hs hid hruntime =>
      rw [hruntime] at hoff ⊢
      obtain ⟨hvalid, hsince⟩ := h.offline _ hs hoff
      rw [← hid] at hvalid hsince
      exact ⟨hvalid, hsince.snoc hnow⟩
    | back hruntime =>
      rw [hruntime] at hoff
      cases hoff
    | left hid hruntime =>
      rw [hruntime]
      exact ⟨hid, Run.Since.start hnow⟩
  · cases hplaces s' hs' with
    | kept hs hid hruntime =>
      rw [hruntime] at hon ⊢
      exact h.online _ hs hon
    | back hruntime => exact hruntime
    | left hid hruntime =>
      rw [hruntime] at hon
      cases hon

theorem of_calls (h : Opens p q r₀) (cs : List Call) : Timed p q r₀ cs (r₀.calls cs) := by
  induction cs using List.reverseRecOn with
  | nil => exact .opens h
  | append_singleton cs c ih => exact ih.call h.ne c

/-- A place whose time has run out is of a player who has been away for as long. -/
theorem outOfGrace (h : Timed p q r₀ cs r) {s : Seat} (hs : s ∈ r.seats)
    (hoff : s.runtime.online = false) (hgrace : kReconnectGraceMs ≤ nowMs - s.runtime.offlineSinceMs) :
    OutOfGrace r₀ cs s.player.playerId nowMs :=
  ⟨_, (h.offline s hs hoff).2, hgrace⟩

end Timed

/-! ## The law

The end of a game is read off the times of the players who are away. -/

/-- **What the grace period promises**, of a room that was `r₀` and after the calls `cs` is `r`. -/
structure GraceLaw (p q : String) (r₀ : BattleRoom) (cs : List Call) (r : BattleRoom) : Prop where
  /-- Only a tick ends a game for somebody's absence: the loser has been away for the grace period, and
  the winner is there. -/
  disconnect : ∀ c, r.phase.unfinished = true → (r.call c).phase = .finishing →
    (r.call c).finishReason = .disconnect →
    ∃ nowMs winner loser, c = .op (.tick nowMs) ∧ (r.call c).finishedAtMs = nowMs ∧
      (winner = p ∧ loser = q ∨ winner = q ∧ loser = p) ∧ (r.call c).winnerId = winner ∧
      (r.call c).isOnline winner = true ∧ OutOfGrace r₀ cs loser nowMs
  /-- A tick gives a game up only when both have been away for the grace period. -/
  abort : ∀ nowMs, r.phase = .playing → (r.call (.op (.tick nowMs))).phase = .aborted →
    OutOfGrace r₀ cs p nowMs ∧ OutOfGrace r₀ cs q nowMs
  /-- To be reported offline again changes nothing. -/
  repeated : ∀ playerId nowMs, r.isOnline playerId = false →
    r.call (.op (.setPresence playerId false nowMs)) = r
  /-- One report that a player is online stops his timer, in every game that is not over. -/
  back : ∀ playerId nowMs, r.phase.unfinished = true →
    ∀ s ∈ (r.call (.op (.setPresence playerId true nowMs))).seats, s.player.playerId = playerId →
      s.runtime = ⟨true, 0⟩
  /-- While somebody is away, no tick moves the game on or hurts anybody. -/
  held : ∀ nowMs, (∃ s ∈ r.seats, s.runtime.online = false) →
    (r.call (.op (.tick nowMs))).frame = r.frame ∧ (r.call (.op (.tick nowMs))).seats = r.seats

theorem setPresence_again (r : BattleRoom) (nowMs : Int) (h : r.isOnline playerId = false) :
    (r.setPresence nowMs playerId false).2 = r := by
  unfold setPresence
  split; · rfl
  split; · rfl
  split; · rfl
  simp [h]

/-- A tick that finds somebody away leaves the frame and the places as they are. -/
theorem tick_held (r : BattleRoom) (nowMs : Int) (h : ∃ s ∈ r.seats, s.runtime.online = false) :
    (r.call (.op (.tick nowMs))).frame = r.frame ∧ (r.call (.op (.tick nowMs))).seats = r.seats := by
  generalize hcall : r.call (.op (.tick nowMs)) = r'
  have heffect := effect_call r (.op (.tick nowMs))
  rw [hcall] at heffect
  clear hcall
  cases heffect with
  | idle => exact ⟨rfl, rfl⟩
  | expired => exact ⟨rfl, rfl⟩
  | disconnected => exact ⟨rfl, rfl⟩
  | deserted => exact ⟨rfl, rfl⟩
  | advanced hphase honline =>
    obtain ⟨s, hs, hoff⟩ := h
    rw [honline s hs] at hoff
    cases hoff

namespace Timed

/-- After a report of a player online, the place of that player is online, whether or not it was. -/
theorem setPresence_online (h : Timed p q r₀ cs r) (hpq : p ≠ q) (hphase : r.phase.unfinished = true)
    {s : Seat} (hs : s ∈ (r.setPresence nowMs playerId true).2.seats)
    (hid : s.player.playerId = playerId) : s.runtime = ⟨true, 0⟩ := by
  unfold setPresence at hs
  split at hs
  case isTrue hinvalid =>
    -- Nobody of such a name is ever offline.
    refine h.online s hs ?_
    by_contra hoff
    have hvalid := (h.offline s hs (Bool.eq_false_iff.mpr hoff)).1
    rw [hid] at hvalid
    simp [hvalid] at hinvalid
  case isFalse =>
    rw [hphase] at hs
    split at hs
    case isTrue hover => cases hover
    case isFalse =>
      split at hs
      case isTrue hstranger =>
        have hmember : r.hasPlayer playerId = true := by
          simpa [hasPlayer] using ⟨s, hs, hid⟩
        simp [hmember] at hstranger
      case isFalse =>
        obtain ⟨a, b, hseats, ha, hb⟩ := pair_of_playerIds h.playerIds
        have hne : a.player.playerId ≠ b.player.playerId := by rwa [ha, hb]
        simp only [if_true, hseats, updateSeat_pair hne, List.mem_pair] at hs
        rcases hs with hs | hs <;> split at hs
        · rw [hs]
          rfl
        · exact absurd (hs ▸ hid) ‹_›
        · rw [hs]
          rfl
        · exact absurd (hs ▸ hid) ‹_›

/-- **Who loses by his absence.** -/
theorem disconnect (h : Timed p q r₀ cs r) (hpq : p ≠ q) (c : Call)
    (hphase : r.phase.unfinished = true) (hover : (r.call c).phase = .finishing)
    (hreason : (r.call c).finishReason = .disconnect) :
    ∃ nowMs winner loser, c = .op (.tick nowMs) ∧ (r.call c).finishedAtMs = nowMs ∧
      (winner = p ∧ loser = q ∨ winner = q ∧ loser = p) ∧ (r.call c).winnerId = winner ∧
      (r.call c).isOnline winner = true ∧ OutOfGrace r₀ cs loser nowMs := by
  generalize hcall : r.call c = r' at hover hreason ⊢
  have heffect := effect_call r c
  rw [hcall] at heffect
  clear hcall
  have hundecided : r.phase ≠ .finishing := fun hp => by rw [hp] at hphase; cases hphase
  cases heffect with
  | idle => exact absurd hover hundecided
  | started => cases hover
  | joined =>
    simp only [pushSnapshot_phase] at hover
    split at hover
    · cases hover
    · exact absurd hover hundecided
  | attacked => exact absurd hover hundecided
  | wentOnline => exact absurd hover hundecided
  | wentOffline => exact absurd hover hundecided
  | expired => cases hover
  | @disconnected nowMs winner hplaying hoffline hgrace hmem hwinner =>
    obtain ⟨loser, hloser, hoff⟩ := hoffline
    refine ⟨nowMs, winner.player.playerId, loser.player.playerId, rfl, rfl, ?_, rfl, ?_,
      h.outOfGrace hloser hoff (hgrace loser hloser hoff)⟩
    · have hids := h.playerIds
      rcases pair_of_presence hids hmem hloser hwinner hoff with hseats | hseats <;>
        rw [hseats] at hids <;> cases hids
      · exact .inl ⟨rfl, rfl⟩
      · exact .inr ⟨rfl, rfl⟩
    · exact (isOnline_of_mem (r := r) hpq h.playerIds hmem).trans hwinner
  | deserted => cases hover
  | @advanced nowMs hplaying honline frames lastTickMs =>
    have hplaying : BattleRoom.phase { r with lastTickMs := lastTickMs } = .playing := hplaying
    rcases advanceFrames_phase nowMs hplaying frames with hp | ⟨-, hr⟩
    · rw [hp] at hover
      cases hover
    · exact absurd hreason hr
  | persisted => cases hover
  | aborted => cases hover

/-- **When a tick gives a game up.** -/
theorem abort (h : Timed p q r₀ cs r) (nowMs : Int) (hphase : r.phase = .playing)
    (hover : (r.call (.op (.tick nowMs))).phase = .aborted) :
    OutOfGrace r₀ cs p nowMs ∧ OutOfGrace r₀ cs q nowMs := by
  generalize hcall : r.call (.op (.tick nowMs)) = r' at hover
  have heffect := effect_call r (.op (.tick nowMs))
  rw [hcall] at heffect
  clear hcall
  cases heffect with
  | idle =>
    rw [hphase] at hover
    cases hover
  | expired hearly => rcases hearly with hp | hp <;> rw [hphase] at hp <;> cases hp
  | disconnected => cases hover
  | deserted hplaying hoffline hgrace =>
    obtain ⟨a, b, hseats, rfl, rfl⟩ := pair_of_playerIds h.playerIds
    have ha : a ∈ r.seats := by rw [hseats]; exact List.mem_cons_self
    have hb : b ∈ r.seats := by rw [hseats]; simp
    exact ⟨h.outOfGrace ha (hoffline a ha) (hgrace a ha (hoffline a ha)),
      h.outOfGrace hb (hoffline b hb) (hgrace b hb (hoffline b hb))⟩
  | @advanced _ hplaying honline frames lastTickMs =>
    have hplaying : BattleRoom.phase { r with lastTickMs := lastTickMs } = .playing := hplaying
    rcases advanceFrames_phase nowMs hplaying frames with hp | ⟨hp, -⟩ <;> rw [hp] at hover <;>
      cases hover

end Timed

/-- **The reconnect grace law** — at every point of every run, whatever its clock says. -/
theorem grace_law (h : Opens p q r₀) (cs : List Call) : GraceLaw p q r₀ cs (r₀.calls cs) where
  disconnect := (Timed.of_calls h cs).disconnect h.ne
  abort := (Timed.of_calls h cs).abort
  repeated _ nowMs hoff := setPresence_again _ nowMs hoff
  back _ _ hphase _ hs hid := (Timed.of_calls h cs).setPresence_online h.ne hphase hs hid
  held nowMs haway := tick_held _ nowMs haway

/-- A game that is lost by absence, thirty seconds after the report. -/
theorem grace_law_disconnect :
    GraceLaw "p" "q" (BattleRoom.new "r" "m" ["p", "q"] 1)
        [.op (.join "p" 2), .op (.join "q" 3), .op (.setPresence "q" false 4)]
        ((BattleRoom.new "r" "m" ["p", "q"] 1).calls
          [.op (.join "p" 2), .op (.join "q" 3), .op (.setPresence "q" false 4)]) ∧
      ((BattleRoom.new "r" "m" ["p", "q"] 1).calls
        [.op (.join "p" 2), .op (.join "q" 3), .op (.setPresence "q" false 4),
          .op (.tick 30004)]).winnerId = "p" :=
  ⟨grace_law (.new (by decide) "r" "m" 1) _, by decide⟩

end BattleRoom

end RealtimeGame.Room
