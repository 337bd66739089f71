import RealtimeGame.Room.Index
import RealtimeGame.Room.Validator

/-!
# Room/TwoPlayers — what a room does for its two players

The frames, the winner rule, the record of a snapshot and the start of a game are written for two different
players (`TwoPlayers`).  A restart checks this of every record; `Create` checks of its list of players only
that it is not empty and that its ids are acceptable.  So every room is one of two players exactly as long
as `Create` is asked for such rooms (`two_players_iff`).
-/

open Library

namespace RealtimeGame.Room

namespace BattleRoom

variable {r r' : BattleRoom} {nowMs : Int} {p q id : String}

/-- The players, place by place. -/
def playerIds (r : BattleRoom) : List String := r.seats.map (·.player.playerId)

/-- **A room of two players**, and what it does for them. -/
structure TwoPlayers (r : BattleRoom) : Prop where
  count : r.playerIds.length = kPlayersPerRoom
  distinct : r.playerIds.Nodup
  named : ∀ id ∈ r.playerIds, id ≠ ""
  /-- All of them can join. -/
  joins : r.phase.unfinished = true → ∀ id ∈ r.playerIds, ∀ nowMs, (r.join nowMs id).1 = .ok
  /-- The game starts as soon as all have joined, in any order, and whoever else tries to. -/
  starts : r.phase = .created ∨ r.phase = .waiting → ∀ joins : List (String × Int),
    (∀ id ∈ r.playerIds, id ∈ joins.map (·.1)) →
      (r.calls (joins.map fun e => .op (.join e.1 e.2))).phase = .playing
  /-- The record of a snapshot has these players, and no others. -/
  recorded : ∀ nowMs, [(r.makeSnapshotRecord nowMs).player0, (r.makeSnapshotRecord nowMs).player1] =
    r.snapshot.players.map playerRecord
  /-- A player is hurt in a frame by the attack of his opponent, and by nothing else. -/
  opponent : ∀ nowMs, ∀ s ∈ r.seats, ∃ s' ∈ (r.advanceOneFrame nowMs).seats,
    s'.player.playerId = s.player.playerId ∧ s'.player.hp =
      if ∃ t ∈ r.seats, t.player.playerId ≠ s.player.playerId ∧ t.pendingAttack = true then
        max 0 (s.player.hp - kAttackDamage) else s.player.hp
  /-- A frame that decides the game is won by whoever has more hit points than his opponent. -/
  winner : r.phase = .playing → ∀ nowMs, (r.advanceOneFrame nowMs).phase = .finishing →
    ∀ s ∈ (r.advanceOneFrame nowMs).seats,
      ((r.advanceOneFrame nowMs).winnerId = s.player.playerId ↔
        ∀ t ∈ (r.advanceOneFrame nowMs).seats, t.player.playerId ≠ s.player.playerId →
          t.player.hp < s.player.hp)
  /-- The result is of two players, and won by one of them or by nobody. -/
  reported : ∀ record, r.result = some record →
    record.playerCount = kPlayersPerRoom ∧ (record.winnerId = "" ∨ record.winnerId ∈ r.playerIds)

/-- Is this player in the room? -/
def Here (r : BattleRoom) (id : String) : Prop :=
  ∃ s ∈ r.seats, s.player.playerId = id ∧ s.player.connected = true

theorem here_of_isConnected (h : r.isConnected id = true) : r.Here id := by
  unfold isConnected at h
  split at h
  case h_1 s hs => exact ⟨s, List.mem_of_find?_eq_some hs, by simpa using List.find?_some hs, h⟩
  case h_2 => cases h

/-! ## What every call keeps

The two places, and who has them. -/

/-- **A room of `p` and `q`.** -/
structure Paired (p q : String) (r : BattleRoom) : Prop where
  playerIds : r.playerIds = [p, q]
  hp : ∀ s ∈ r.seats, 0 ≤ s.player.hp
  /-- Until the game starts somebody is missing. -/
  missing : r.phase = .created ∨ r.phase = .waiting → ∃ s ∈ r.seats, s.player.connected = false
  winnerId : r.winnerId = "" ∨ r.winnerId ∈ r.playerIds
  playerCount : r.playerCount = kPlayersPerRoom

namespace Paired

theorem new (roomId matchId : String) (nowMs : Int) :
    Paired p q (.new roomId matchId [p, q] nowMs) where
  playerIds := rfl
  hp := by
    intro s hs
    obtain ⟨player, -, rfl⟩ := List.mem_map.mp hs
    simp [Seat.vacant, kInitialHp]
  missing _ := ⟨.vacant p, List.mem_cons_self, rfl⟩
  winnerId := .inl rfl
  playerCount := rfl

theorem pushSnapshot (h : Paired p q r) : Paired p q r.pushSnapshot := { h with }

/-- A room that is past its start. -/
theorem ended (h : Paired p q r) {reason : FinishReason} {phase : RoomPhase} {winnerId : String}
    {finishedAtMs lastPersistAttemptMs : Int} (hphase : ¬(phase = .created ∨ phase = .waiting))
    (hwinner : winnerId = "" ∨ winnerId ∈ r.playerIds) :
    Paired p q { r with phase := phase, finishReason := reason, winnerId := winnerId,
                        finishedAtMs := finishedAtMs, lastPersistAttemptMs := lastPersistAttemptMs } :=
  { h with missing := fun hearly => absurd hearly hphase, winnerId := hwinner }

theorem abort (h : Paired p q r) : Paired p q (r.abort nowMs) :=
  (h.ended (by simp) (.inl rfl)).pushSnapshot

theorem finish (h : Paired p q r) {reason : FinishReason} {winnerId : String}
    (hwinner : winnerId = "" ∨ winnerId ∈ r.playerIds) : Paired p q (r.finish nowMs reason winnerId) :=
  (h.ended (by simp) hwinner).pushSnapshot

/-- A place changes, and stays the place of the same player. -/
theorem reseat (h : Paired p q r) (id : String) (f : Seat → Seat)
    (hf : ∀ s, (f s).player.playerId = s.player.playerId ∧ (f s).player.hp = s.player.hp)
    {phase : RoomPhase} (hmissing : phase = .created ∨ phase = .waiting →
      ∃ s ∈ updateSeat id f r.seats, s.player.connected = false) :
    Paired p q { r with seats := updateSeat id f r.seats, phase := phase } := by
  have hids : (updateSeat id f r.seats).map (·.player.playerId) = r.playerIds :=
    updateSeat_playerIds (fun s => (hf s).1) r.seats
  exact
    { playerIds := hids.trans h.playerIds
      hp := forall_updateSeat h.hp (fun _ hs => hs) fun s hs => (hf s).2.symm ▸ hs
      missing := hmissing
      winnerId := h.winnerId.imp_right fun hw => by
        change r.winnerId ∈ (updateSeat id f r.seats).map _
        rw [hids]
        exact hw
      playerCount := h.playerCount }

/-- The places change, and nobody comes or goes. -/
theorem touch (h : Paired p q r) (id : String) (f : Seat → Seat)
    (hf : ∀ s, (f s).player.playerId = s.player.playerId ∧ (f s).player.hp = s.player.hp ∧
      (f s).player.connected = s.player.connected) :
    Paired p q { r with seats := updateSeat id f r.seats } := by
  refine h.reseat id f (fun s => ⟨(hf s).1, (hf s).2.1⟩) fun hphase => ?_
  have hconnected := map_updateSeat (g := (·.player.connected)) (fun s => (hf s).2.2) id r.seats
  obtain ⟨s, hs, hvacant⟩ := h.missing hphase
  have hmem : false ∈ (updateSeat id f r.seats).map (·.player.connected) := by
    rw [hconnected]
    exact List.mem_map.mpr ⟨s, hs, hvacant⟩
  exact List.mem_map.mp hmem

/-! ## Frames

The attacks of two places, and the winner rule. -/

theorem seats_advanceOneFrame (r : BattleRoom) (nowMs : Int) :
    (r.advanceOneFrame nowMs).seats = settleAttacks r.seats := by
  unfold advanceOneFrame
  dsimp only
  split; · rfl
  split <;> rfl

/-- The two places, before and after a frame. -/
theorem places (h : Paired p q r) : ∃ a b, r.seats = [a, b] ∧ a.player.playerId = p ∧
    b.player.playerId = q ∧ 0 ≤ a.player.hp ∧ 0 ≤ b.player.hp ∧
    settleAttacks r.seats = [a.settled b.pendingAttack, b.settled a.pendingAttack] := by
  obtain ⟨a, b, hseats, hp, hq⟩ := pair_of_playerIds h.playerIds
  have hhp := h.hp
  simp only [hseats, forall_mem_pair] at hhp
  exact ⟨a, b, hseats, hp, hq, hhp.1, hhp.2, by rw [hseats, settleAttacks_pair]⟩

theorem hp_settled {s : Seat} (h : 0 ≤ s.player.hp) (struck : Bool) : 0 ≤ (s.settled struck).player.hp := by
  rw [Seat.settled_hp]
  split <;> omega

/-- Attacks are settled. -/
theorem settle (h : Paired p q r) (hphase : r.phase = .playing) :
    Paired p q { r with frame := r.frame + 1, seats := settleAttacks r.seats } := by
  obtain ⟨a, b, hseats, rfl, rfl, ha, hb, hsettled⟩ := h.places
  have hids : (settleAttacks r.seats).map (·.player.playerId) = r.playerIds := by
    rw [hsettled, h.playerIds]
    simp only [List.map_cons, List.map_nil, Seat.settled_playerId]
  exact
    { playerIds := hids.trans h.playerIds
      hp := by
        change ∀ s ∈ settleAttacks r.seats, 0 ≤ s.player.hp
        rw [hsettled, forall_mem_pair]
        exact ⟨hp_settled ha _, hp_settled hb _⟩
      missing := fun hearly => by
        change r.phase = .created ∨ r.phase = .waiting at hearly
        simp [hphase] at hearly
      winnerId := h.winnerId.imp_right fun hw => by
        change r.winnerId ∈ (settleAttacks r.seats).map _
        rw [hids]
        exact hw
      playerCount := h.playerCount }

/-- Whoever has more hit points is one of the players. -/
theorem winnerByHp_mem (h : Paired p q r) : winnerByHp r.seats = "" ∨ winnerByHp r.seats ∈ r.playerIds := by
  obtain ⟨a, b, hseats, hp, hq, -⟩ := h.places
  rw [h.playerIds, hseats, winnerByHp, hp, hq]
  split
  · exact .inr List.mem_cons_self
  split
  · exact .inr (List.mem_cons_of_mem _ List.mem_cons_self)
  · exact .inl rfl

/-- Where one player is alive at most, he has won, or nobody has. -/
theorem survivor (h : Paired p q r) (halive : (r.seats.filter fun s => 0 < s.player.hp).length ≤ 1) :
    (((r.seats.filter fun s => 0 < s.player.hp).head?.map (·.player.playerId)).getD "") =
      winnerByHp r.seats := by
  obtain ⟨a, b, hseats, -, -, ha, hb, -⟩ := h.places
  rw [hseats] at halive ⊢
  by_cases hlefta : 0 < a.player.hp
  · by_cases hleftb : 0 < b.player.hp
    · simp [hlefta, hleftb] at halive
    · have hless : b.player.hp < a.player.hp := by omega
      simp [hlefta, winnerByHp, hless]
  · by_cases hleftb : 0 < b.player.hp
    · have hless : a.player.hp < b.player.hp := by omega
      have hnot : ¬b.player.hp < a.player.hp := by omega
      simp [hlefta, hleftb, winnerByHp, hless, hnot]
    · have hless : ¬a.player.hp < b.player.hp := by omega
      have hnot : ¬b.player.hp < a.player.hp := by omega
      simp [hlefta, hleftb, winnerByHp, hless, hnot]

/-- **One frame**: the game is won by whoever has more hit points, or goes on. -/
theorem advanceOneFrame_cases (h : Paired p q r) (hphase : r.phase = .playing) (nowMs : Int) :
    (∃ reason, r.advanceOneFrame nowMs =
      { r with frame := r.frame + 1, seats := settleAttacks r.seats }.finish nowMs reason
        (winnerByHp (settleAttacks r.seats))) ∨
    r.advanceOneFrame nowMs =
      BattleRoom.pushSnapshot { r with frame := r.frame + 1, seats := settleAttacks r.seats } := by
  unfold advanceOneFrame
  dsimp only
  split
  case isTrue halive => exact .inl ⟨.hpZero, by rw [(h.settle hphase).survivor halive]⟩
  case isFalse =>
    split
    · exact .inl ⟨.timeout, rfl⟩
    · exact .inr rfl

theorem advanceOneFrame (h : Paired p q r) (hphase : r.phase = .playing) :
    Paired p q (r.advanceOneFrame nowMs) := by
  have hsettled := h.settle hphase
  rcases h.advanceOneFrame_cases hphase nowMs with ⟨reason, heq⟩ | heq <;> rw [heq]
  · exact hsettled.finish hsettled.winnerByHp_mem
  · exact hsettled.pushSnapshot

/-- **Every call keeps it.** -/
theorem call (h : Paired p q r) (c : Call) : Paired p q (r.call c) := by
  generalize hcall : r.call c = r'
  have heffect := effect_call r c
  rw [hcall] at heffect
  clear hcall
  cases heffect with
  | idle => exact { h with }
  | @started playerId nowMs =>
    have hseated : Paired p q
        { r with seats := updateSeat playerId Seat.join r.seats, phase := .playing } :=
      h.reseat playerId Seat.join (fun _ => ⟨rfl, rfl⟩) (by simp)
    exact { hseated with }
  | joined hphase hnew hmissing =>
    exact (h.reseat _ Seat.join (fun _ => ⟨rfl, rfl⟩) fun _ => hmissing).pushSnapshot
  | attacked => exact h.touch _ Seat.attack fun _ => ⟨rfl, rfl, rfl⟩
  | wentOnline => exact h.touch _ Seat.goOnline fun _ => ⟨rfl, rfl, rfl⟩
  | @wentOffline _ nowMs => exact (h.touch _ (Seat.goOffline nowMs) fun _ => ⟨rfl, rfl, rfl⟩).pushSnapshot
  | expired => exact h.abort
  | disconnected hphase hoffline hgrace hmem hwinner =>
    exact h.finish (.inr (List.mem_map.mpr ⟨_, hmem, rfl⟩))
  | deserted => exact h.abort
  | advanced hphase honline frames lastTickMs =>
    have hstart : Paired p q { r with lastTickMs := lastTickMs } := { h with }
    exact advanceFrames_invariant (fun r hr hplaying =>
      advanceOneFrame (r := { r with lastTickMs := _ }) { hr with } hplaying) hstart frames
  | persisted => exact { h with missing := by simp }
  | aborted => exact h.abort

theorem calls (h : Paired p q r) (cs : List Call) : Paired p q (r.calls cs) :=
  calls_invariant (fun _ c hr => hr.call c) h cs

/-! ## What it is good for

Of two different players each has a place of his own, and a call for one of them leaves the other alone. -/

/-- Of different players each has a place of his own. -/
theorem updateSeat_eq_map (h : Paired p q r) (hpq : p ≠ q) (f : Seat → Seat) :
    updateSeat id f r.seats = r.seats.map fun s => if s.player.playerId = id then f s else s := by
  obtain ⟨a, b, hseats, rfl, rfl, -⟩ := h.places
  rw [hseats, updateSeat_pair hpq]
  rfl

/-- **One join** before the game starts: it starts, or the player is in the room too. -/
theorem join_cases (h : Paired p q r) (hpq : p ≠ q) (hvalid : ∀ id ∈ r.playerIds, validId id = true)
    (nowMs : Int) (id : String) (hearly : r.phase = .created ∨ r.phase = .waiting) :
    (r.join nowMs id).2.phase = .playing ∨
      ((r.join nowMs id).2.phase = .created ∨ (r.join nowMs id).2.phase = .waiting) ∧
      (∀ x, r.Here x → (r.join nowMs id).2.Here x) ∧
      (id ∈ r.playerIds → (r.join nowMs id).2.Here id) := by
  unfold join
  split
  case isTrue hid =>
    refine .inr ⟨hearly, fun _ hx => hx, fun hmem => ?_⟩
    rw [hvalid id hmem] at hid
    cases hid
  split
  case isTrue hover => rcases hearly with hp | hp <;> simp [hp, RoomPhase.unfinished] at hover
  split
  case isTrue hmember =>
    refine .inr ⟨hearly, fun _ hx => hx, fun hmem => ?_⟩
    obtain ⟨s, hs, hid⟩ := List.mem_map.mp hmem
    simp only [hasPlayer, Bool.not_eq_true', List.any_eq_false, decide_eq_true_eq] at hmember
    exact absurd hid (hmember s hs)
  split
  case isTrue hconnected => exact .inr ⟨hearly, fun _ hx => hx, fun _ => here_of_isConnected hconnected⟩
  dsimp only
  split
  case isTrue => exact .inl rfl
  case isFalse =>
    refine .inr ⟨.inr ?_, ?_, fun hmem => ?_⟩
    · rcases hearly with hp | hp <;> simp [hp]
    · rintro x ⟨s, hs, hid, hthere⟩
      refine ⟨if s.player.playerId = id then s.join else s, ?_, ?_, ?_⟩
      · rw [pushSnapshot_seats, h.updateSeat_eq_map hpq]
        exact List.mem_map_of_mem hs
      · split <;> exact hid
      · split
        · rfl
        · exact hthere
    · obtain ⟨s, hs, hid⟩ := List.mem_map.mp hmem
      refine ⟨s.join, ?_, hid, rfl⟩
      rw [pushSnapshot_seats, h.updateSeat_eq_map hpq]
      exact List.mem_map.mpr ⟨s, hs, if_pos hid⟩

/-- A game that is being played goes on whoever joins. -/
theorem phase_join (hphase : r.phase = .playing) : (r.join nowMs id).2.phase = .playing := by
  unfold join
  split; · exact hphase
  split; · exact hphase
  split; · exact hphase
  split; · exact hphase
  dsimp only
  split
  · rfl
  · simp [hphase]

/-- **The game starts** when those who are not in the room yet have joined. -/
theorem starts (h : Paired p q r) (hpq : p ≠ q) (hvalid : ∀ id ∈ r.playerIds, validId id = true)
    (joins : List (String × Int)) (hjoins : r.phase = .playing ∨
      (r.phase = .created ∨ r.phase = .waiting) ∧ ∀ id ∈ r.playerIds, r.Here id ∨ id ∈ joins.map (·.1)) :
    (r.calls (joins.map fun e => .op (.join e.1 e.2))).phase = .playing := by
  induction joins generalizing r with
  | nil =>
    rcases hjoins with hphase | ⟨hearly, hall⟩
    · exact hphase
    obtain ⟨s, hs, hvacant⟩ := h.missing hearly
    rcases hall _ (List.mem_map_of_mem hs) with ⟨t, ht, hid, hthere⟩ | hmem
    · have hnodup : (r.seats.map (·.player.playerId)).Nodup := by
        have hids := h.playerIds
        rw [BattleRoom.playerIds] at hids
        simpa [hids] using hpq
      obtain rfl := List.inj_on_of_nodup_map hnodup ht hs hid
      cases hvacant.symm.trans hthere
    · cases hmem
  | cons e joins ih =>
    rw [List.map_cons, BattleRoom.calls, List.foldl_cons]
    have hcall := h.call (.op (.join e.1 e.2))
    have hids : (r.call (.op (.join e.1 e.2))).playerIds = r.playerIds := hcall.playerIds.trans h.playerIds.symm
    refine ih hcall (hids ▸ hvalid) ?_
    rcases hjoins with hphase | ⟨hearly, hall⟩
    · exact .inl (phase_join hphase)
    rcases h.join_cases hpq hvalid e.2 e.1 hearly with hphase | ⟨hstill, hkept, hnew⟩
    · exact .inl hphase
    · refine .inr ⟨hstill, fun id hid => ?_⟩
      rw [hids] at hid
      rcases hall id hid with hthere | hmem
      · exact .inl (hkept id hthere)
      rcases List.mem_cons.mp hmem with rfl | hmem
      · exact .inl (hnew hid)
      · exact .inr hmem

/-- A frame that decides the game. -/
theorem winnerId_advanceOneFrame (h : Paired p q r) (hphase : r.phase = .playing)
    (hdecided : (r.advanceOneFrame nowMs).phase = .finishing) :
    (r.advanceOneFrame nowMs).winnerId = winnerByHp (r.advanceOneFrame nowMs).seats := by
  rw [seats_advanceOneFrame]
  rcases h.advanceOneFrame_cases hphase nowMs with ⟨reason, heq⟩ | heq
  · rw [heq]
    rfl
  · rw [heq] at hdecided
    cases hphase.symm.trans hdecided

/-- Of two players, one has won exactly if he has more hit points. -/
theorem winnerByHp_iff (h : Paired p q r) (hpq : p ≠ q) (hvalid : ∀ id ∈ r.playerIds, validId id = true) :
    ∀ s ∈ r.seats, (winnerByHp r.seats = s.player.playerId ↔
      ∀ t ∈ r.seats, t.player.playerId ≠ s.player.playerId → t.player.hp < s.player.hp) := by
  have hids := h.playerIds
  obtain ⟨a, b, hseats, rfl, rfl, -⟩ := h.places
  have hne : ∀ id, validId id = true → "" ≠ id := by
    rintro id hid rfl
    cases hid
  rw [hids, List.forall_mem_cons, List.forall_mem_singleton] at hvalid
  simp only [hseats, forall_mem_pair, winnerByHp, ne_eq, not_true_eq_false, false_imp_iff, true_and, and_true]
  have hba : ¬b.player.playerId = a.player.playerId := fun heq => hpq heq.symm
  constructor
  · simp only [hba, not_false_eq_true, true_imp_iff]
    split
    case isTrue hless => exact iff_of_true rfl hless
    case isFalse hless =>
      refine iff_of_false ?_ hless
      split
      · exact hba
      · exact hne _ hvalid.1
  · simp only [show ¬a.player.playerId = b.player.playerId from hpq, not_false_eq_true, true_imp_iff]
    split
    case isTrue hless => exact iff_of_false hpq (by omega)
    case isFalse hless =>
      split
      case isTrue hmore => exact iff_of_true rfl hmore
      case isFalse hmore => exact iff_of_false (hne _ hvalid.2) hmore

/-- **A room of two different players**, and what it does for them. -/
theorem twoPlayers (h : Paired p q r) (hpq : p ≠ q) (hvalid : ∀ id ∈ r.playerIds, validId id = true) :
    r.TwoPlayers where
  count := by rw [h.playerIds]; rfl
  distinct := by rw [h.playerIds]; simpa using hpq
  named := by
    rintro id hid rfl
    cases hvalid "" hid
  joins hphase id hid nowMs := by
    have hmember : r.hasPlayer id = true := by
      obtain ⟨s, hs, hid⟩ := List.mem_map.mp hid
      exact List.any_eq_true.mpr ⟨s, hs, by simpa using hid⟩
    rw [BattleRoom.join, hvalid id hid, hphase, hmember]
    simp only [Bool.not_true, Bool.false_eq_true, if_false]
    split; · rfl
    split <;> rfl
  starts hearly joins hall := h.starts hpq hvalid joins (.inr ⟨hearly, fun id hid => .inr (hall id hid)⟩)
  recorded nowMs := by
    obtain ⟨a, b, hseats, -⟩ := h.places
    rw [makeSnapshotRecord, snapshot, hseats]
    rfl
  opponent nowMs := by
    obtain ⟨a, b, hseats, rfl, rfl, -, -, hsettled⟩ := h.places
    have hba : b.player.playerId ≠ a.player.playerId := fun heq => hpq heq.symm
    rw [seats_advanceOneFrame, hsettled, hseats, forall_mem_pair]
    refine ⟨⟨_, List.mem_cons_self, Seat.settled_playerId _ _, ?_⟩,
      ⟨_, List.mem_cons_of_mem _ List.mem_cons_self, Seat.settled_playerId _ _, ?_⟩⟩
    · rw [Seat.settled_hp]
      simp [hba]
    · rw [Seat.settled_hp]
      simp [hpq]
  winner hphase nowMs hdecided := by
    have hnext : Paired p q (r.advanceOneFrame nowMs) := h.advanceOneFrame hphase
    rw [h.winnerId_advanceOneFrame hphase hdecided]
    exact hnext.winnerByHp_iff hpq (by rw [hnext.playerIds, ← h.playerIds]; exact hvalid)
  reported record hrecord := by
    unfold result at hrecord
    split at hrecord
    · obtain rfl := Option.some.inj hrecord
      exact ⟨h.playerCount, h.winnerId⟩
    · cases hrecord

end Paired

/-- A room of two different players. -/
def IsPair (r : BattleRoom) : Prop :=
  ∃ p q, p ≠ q ∧ (∀ id ∈ r.playerIds, validId id = true) ∧ Paired p q r

theorem IsPair.twoPlayers (h : r.IsPair) : r.TwoPlayers := by
  obtain ⟨p, q, hpq, hvalid, hpaired⟩ := h
  exact hpaired.twoPlayers hpq hvalid

theorem IsPair.calls (h : r.IsPair) (cs : List Call) : (r.calls cs).IsPair := by
  obtain ⟨p, q, hpq, hvalid, hpaired⟩ := h
  have hcalls := hpaired.calls cs
  exact ⟨p, q, hpq, by rw [hcalls.playerIds, ← hpaired.playerIds]; exact hvalid, hcalls⟩

/-- A new room of two different players. -/
theorem isPair_new {matchId roomId : String} {ids : List String} (hargs : createArgsOk matchId ids = true)
    (hcount : ids.length = kPlayersPerRoom) (hdistinct : ids.Nodup) (nowMs : Int) :
    (BattleRoom.new roomId matchId ids nowMs).IsPair := by
  obtain ⟨p, q, rfl⟩ := List.length_eq_two.mp hcount
  simp only [createArgsOk, Bool.and_eq_true, List.all_eq_true] at hargs
  have hpaired : Paired p q (.new roomId matchId [p, q] nowMs) := .new roomId matchId nowMs
  exact ⟨p, q, by simpa using hdistinct, by rw [hpaired.playerIds]; exact hargs.2, hpaired⟩

/-- The players of a new room are those that were asked for. -/
theorem playerIds_new (roomId matchId : String) (ids : List String) (nowMs : Int) :
    (BattleRoom.new roomId matchId ids nowMs).playerIds = ids := by
  simp only [playerIds, new, pushSnapshot_seats, List.map_map]
  exact List.map_id ids

end BattleRoom

/-! ## Records

Until the game starts somebody is missing, in the room and in its record. -/

/-- Until the game starts somebody is missing. -/
def RoomSnapshotRecord.Missing (record : RoomSnapshotRecord) : Prop :=
  record.phase = .created ∨ record.phase = .waiting →
    record.player0.joined = false ∨ record.player1.joined = false

theorem BattleRoom.IsPair.missing {r : BattleRoom} (h : r.IsPair) (nowMs : Int) :
    (r.makeSnapshotRecord nowMs).Missing := by
  obtain ⟨p, q, -, -, hpaired⟩ := h
  obtain ⟨a, b, hseats, -⟩ := hpaired.places
  intro hearly
  obtain ⟨s, hs, hvacant⟩ := hpaired.missing hearly
  rw [makeSnapshotRecord, snapshot, hseats]
  rw [hseats] at hs
  rcases List.mem_pair.mp hs with rfl | rfl
  · exact .inl hvacant
  · exact .inr hvacant

/-- A record that passes the check is rebuilt to a room of two different players. -/
theorem RoomSnapshotRecord.Accepted.isPair {record : RoomSnapshotRecord} (h : record.Accepted)
    (hmissing : record.Missing) (nowMs : Int) : (BattleRoom.restored record nowMs).IsPair := by
  refine ⟨record.player0.playerId, record.player1.playerId, h.distinct, ?_, ?_⟩
  · intro id hid
    rcases List.mem_pair.mp hid with rfl | rfl
    · exact h.player0.playerId
    · exact h.player1.playerId
  · exact
      { playerIds := rfl
        hp := BattleRoom.forall_mem_pair.mpr ⟨h.player0.hp.1, h.player1.hp.1⟩
        missing := fun hearly => by
          rcases hmissing hearly with hvacant | hvacant
          · exact ⟨.restored record.player0, List.mem_cons_self, hvacant⟩
          · exact ⟨.restored record.player1, List.mem_cons_of_mem _ List.mem_cons_self, hvacant⟩
        winnerId := h.winnerId.imp_right fun hw => List.mem_pair.mpr hw
        playerCount := rfl }

/-! ## The service

Every way in which a room comes to be. -/

namespace RoomWorld

variable {stores : RoomStores} {w : RoomWorld}

/-- Every room is one of two players. -/
def TwoPlayers (w : RoomWorld) : Prop := ∀ x r, w.system.room? x = some r → r.TwoPlayers

/-- **A `Create` that makes a room is asked for two different players.**  It makes none where it refuses its
arguments or the match has a room, after the shutdown has begun, and without a fresh id. -/
def AskedForTwo (w : RoomWorld) : Op → Prop
  | .act (.create matchId playerIds _ roomId) =>
    BattleRoom.createArgsOk matchId playerIds = true →
      (w.system.manager.matchIndex.lookup matchId).bind w.system.manager.rooms.lookup = none →
      w.system.manager.shuttingDown = false → roomId ≠ "" → w.system.manager.rooms.lookup roomId = none →
      playerIds.length = kPlayersPerRoom ∧ playerIds.Nodup
  | _ => True

/-- **All rooms are of two players**, and what a restart finds of them will be. -/
structure AllPairs (w : RoomWorld) : Prop where
  room : ∀ x r, w.system.room? x = some r → r.IsPair
  row : ∀ k row, w.rows.lookup k = some row → row.Missing
  flight : ∀ row, w.system.InFlight row → row.Missing

namespace AllPairs

theorem start : AllPairs {} where
  room _ _ h := by cases h
  row _ _ h := by cases h
  flight row h := by
    obtain ⟨pc, hpc, -⟩ := h
    cases hpc

theorem act (h : w.AllPairs) {a : Action} (hasked : w.AskedForTwo (.act a)) :
    (w.next stores (.act a)).AllPairs where
  room x r' hr' := by
    rw [system_act] at hr'
    rcases hr : w.system.room? x with - | r
    · obtain ⟨matchId, playerIds, nowMs, rfl, hmakes, rfl⟩ := RoomSystem.room?_next_new hr hr'
      obtain ⟨hargs, hnew, hup, hid⟩ := RoomManager.makesRoom_iff.mp hmakes
      obtain ⟨hcount, hdistinct⟩ := hasked hargs hnew hup hid hr
      exact BattleRoom.isPair_new hargs hcount hdistinct nowMs
    · rw [RoomSystem.room?_next hr] at hr'
      split at hr'
      · cases hr'
      obtain rfl := Option.some.inj hr'
      exact (h.room x r hr).calls _
  row k row hrow := (row_act hrow).elim (h.row k row) (h.flight row)
  flight row hrow := by
    rw [system_act] at hrow
    rcases hrow.of_next with hold | hnew
    · exact h.flight row hold
    · obtain ⟨x, r, nowMs, hr, rfl, -⟩ := RoomSystem.mem_taken hnew
      exact ((h.room x r hr).calls _).missing nowMs

theorem restart (h : w.AllPairs) (nowMs : Int) (loads : Bool) :
    (w.next stores (.restart nowMs loads)).AllPairs where
  room x r hr := by
    obtain ⟨loaded, hmem, hproblem, hfrom⟩ :=
      (RoomManager.Restored.of_rows nowMs (w.restartRows stores loads)).room x r hr
    obtain ⟨k, row, hk, -, -, rfl⟩ := mem_restartRows hmem
    obtain ⟨-, -, hcheck⟩ := (RoomsRow.ofRecord row).decode_eq hproblem
    have hsame := ((decode_ids row).2.2 hproblem).1
    rw [hsame] at hfrom hcheck
    rw [restoreFrom_eq_some hfrom]
    exact (validateRoomSnapshot_eq_empty.mp hcheck).isPair (h.row k row hk) nowMs
  row := h.row
  flight row hrow := by
    obtain ⟨pc, hpc, hrow⟩ := hrow
    obtain ⟨loaded, -, rfl, -⟩ := (mem_records_restart hpc).2 row hrow
    rintro (hphase | hphase) <;> cases hphase

theorem next (h : w.AllPairs) {op : Op} (hasked : w.AskedForTwo op) : (w.next stores op).AllPairs := by
  cases op with
  | act a => exact h.act hasked
  | restart nowMs loads => exact h.restart nowMs loads

end AllPairs

/-- A `Create` for anything but two different players leaves a room that is not one of two players. -/
theorem askedForTwo_of_next {op : Op} (h : (w.next stores op).TwoPlayers) : w.AskedForTwo op := by
  unfold AskedForTwo
  split
  case h_2 => trivial
  case h_1 matchId playerIds nowMs roomId =>
    intro hargs hnew hup hid hfree
    have hroom : (w.next stores (.act (.create matchId playerIds nowMs roomId))).system.room? roomId =
        some (.new roomId matchId playerIds nowMs) := by
      have hmakes : RoomSystem.makesRoom w.system.manager matchId playerIds nowMs roomId = true :=
        RoomManager.makesRoom_iff.mpr ⟨hargs, hnew, hup, hid⟩
      rw [system_act, RoomSystem.room?, RoomSystem.next, RoomManager.create_rooms, if_pos ⟨hmakes, hfree⟩]
      exact AList.lookup_insert _
    have htwo := h roomId _ hroom
    have hcount := htwo.count
    have hdistinct := htwo.distinct
    rw [BattleRoom.playerIds_new] at hcount hdistinct
    exact ⟨hcount, hdistinct⟩

/-- **Every room of every state is one of two players exactly if every `Create` that makes one is asked for
two different players** — over any calls of clients, timers and threads, any answers of the stores, and
restarts at any time. -/
theorem two_players_iff (stores : RoomStores) (ops : List Op) :
    (∀ pre, pre <+: ops → (pre.foldl (next stores) {}).TwoPlayers) ↔
      ∀ pre op post, ops = pre ++ op :: post → (pre.foldl (next stores) {}).AskedForTwo op :=
  Run.always_iff (I := AllPairs) (G := AskedForTwo) .start (fun _ h x r hr => (h.room x r hr).twoPlayers) ops
    (fun _ _ _ h hasked => h.next hasked) (fun _ _ _ h => askedForTwo_of_next h)

/-- `Create` makes a room for one player. -/
theorem not_two_players :
    ¬ ∀ (stores : RoomStores) (ops : List Op), (ops.foldl (next stores) {}).TwoPlayers := by
  intro hclaim
  have htwo := hclaim RoomSystem.mysqlStores [.act (.create "m-1" ["p-0001"] 1000 "r-1")] "r-1"
    (.new "r-1" "m-1" ["p-0001"] 1000) rfl
  exact absurd htwo.count (by decide)

end RoomWorld

end RealtimeGame.Room
