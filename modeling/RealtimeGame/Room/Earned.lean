import RealtimeGame.Room.TwoPlayers

/-!
# Room/Earned — nothing happens to a place but by a player

A place is taken by its player's `Join`, and loses hit points by the attacks of the player before it, ten for
each; its player stays.  Stated of any number of places, and of any account of who has joined and attacked.
-/

open Library

namespace RealtimeGame.Room

namespace BattleRoom

variable {r r' : BattleRoom} {l : List Seat} {nowMs : Int} {playerId : String}

/-! ## Who sits where

No call exchanges places or players. -/

theorem getElem?_updateSeat {f : Seat → Seat} {i : Nat} {s' : Seat}
    (h : (updateSeat playerId f l)[i]? = some s') :
    ∃ s, l[i]? = some s ∧ (s' = s ∨ s.player.playerId = playerId ∧ s' = f s) := by
  induction l generalizing i with
  | nil => cases h
  | cons s l ih =>
    rw [updateSeat] at h
    split at h
    case isTrue hs =>
      cases i with
      | zero => exact ⟨s, rfl, .inr ⟨hs, (Option.some.inj h).symm⟩⟩
      | succ i => exact ⟨s', h, .inl rfl⟩
    case isFalse =>
      cases i with
      | zero => exact ⟨s', h, .inl rfl⟩
      | succ i => exact ih h

theorem length_updateSeat (f : Seat → Seat) (l : List Seat) : (updateSeat playerId f l).length = l.length := by
  have h := congrArg List.length (map_updateSeat (g := fun _ => ()) (f := f) (fun _ => rfl) playerId l)
  simpa using h

theorem map_modify {β : Type} {g : Seat → β} {f : Seat → Seat} (hf : ∀ s, g (f s) = g s) (i : Nat)
    (l : List Seat) : (l.modify i f).map g = l.map g := by
  induction l generalizing i with
  | nil => rw [List.modify_nil]
  | cons s l ih =>
    cases i with
    | zero => rw [List.modify_zero_cons, List.map_cons, hf, List.map_cons]
    | succ i => rw [List.modify_succ_cons, List.map_cons, ih, List.map_cons]

/-- What neither a spent attack nor a hit changes, a frame does not. -/
theorem map_strike {β : Type} {g : Seat → β} (hspent : ∀ s : Seat, g { s with pendingAttack := false } = g s)
    (hhit : ∀ s : Seat, g s.hit = g s) (l : List Seat) (i : Nat) : (strike l i).map g = l.map g := by
  unfold strike
  split
  · dsimp only
    split
    · exact map_modify hspent i l
    · rw [map_modify hhit, map_modify hspent]
  · rfl

theorem map_settleAttacks {β : Type} {g : Seat → β}
    (hspent : ∀ s : Seat, g { s with pendingAttack := false } = g s) (hhit : ∀ s : Seat, g s.hit = g s)
    (l : List Seat) : (settleAttacks l).map g = l.map g := by
  rw [settleAttacks]
  generalize List.range l.length = is
  induction is generalizing l with
  | nil => rfl
  | cons i is ih => rw [List.foldl_cons, ih, map_strike hspent hhit]

/-- **The players of a room stay.** -/
theorem playerIds_call (r : BattleRoom) (c : Call) : (r.call c).playerIds = r.playerIds := by
  generalize hcall : r.call c = r'
  have heffect := effect_call r c
  rw [hcall] at heffect
  clear hcall
  cases heffect with
  | idle | expired | disconnected | deserted | persisted | aborted => rfl
  | started | joined => exact updateSeat_playerIds (f := Seat.join) (fun _ => rfl) r.seats
  | attacked => exact updateSeat_playerIds (f := Seat.attack) (fun _ => rfl) r.seats
  | wentOnline => exact updateSeat_playerIds (f := Seat.goOnline) (fun _ => rfl) r.seats
  | @wentOffline _ nowMs => exact updateSeat_playerIds (f := Seat.goOffline nowMs) (fun _ => rfl) r.seats
  | advanced hphase honline frames lastTickMs =>
    have hstart : ({ r with lastTickMs := lastTickMs } : BattleRoom).playerIds = r.playerIds := rfl
    refine advanceFrames_invariant (P := fun r' => r'.playerIds = r.playerIds) (fun r' hr' _ => ?_) hstart frames
    rw [playerIds, nextFrame_seats, map_settleAttacks (fun _ => rfl) fun _ => rfl]
    exact hr'

theorem playerIds_calls (r : BattleRoom) (cs : List Call) : (r.calls cs).playerIds = r.playerIds :=
  calls_invariant (P := fun r' => r'.playerIds = r.playerIds) (fun r' c hr' => (playerIds_call r' c).trans hr') rfl cs

/-! ## What attacks pay for

The hit points that a place is short of, and the attack that is still pending, against the attacks that were
made. -/

/-- What a place has lost, with the attack that is on its way to it. -/
def owed (attacker victim : Seat) : Int :=
  kInitialHp - victim.player.hp + if attacker.pendingAttack then kAttackDamage else 0

/-- **Every place has paid** for what the next one lost. -/
def Paid (attacks : String → Nat) (l : List Seat) : Prop :=
  ∀ (i : Nat) (attacker victim : Seat), l[i]? = some attacker → l[(i + 1) % l.length]? = some victim →
    owed attacker victim ≤ kAttackDamage * attacks attacker.player.playerId

variable {attacks attacks' : String → Nat}

theorem lost_le {attacker victim : Seat} {n : Nat} (h : owed attacker victim ≤ kAttackDamage * n) :
    kInitialHp - victim.player.hp ≤ kAttackDamage * n := by
  simp only [owed, kAttackDamage] at h ⊢
  split at h <;> omega

/-- The next place is another one's next place only if they are the same. -/
theorem next_inj {n i j : Nat} (hi : i < n) (hj : j < n) (h : (i + 1) % n = (j + 1) % n) : i = j := by
  rcases Nat.lt_or_ge (i + 1) n with hi' | hi' <;> rcases Nat.lt_or_ge (j + 1) n with hj' | hj'
  · rw [Nat.mod_eq_of_lt hi', Nat.mod_eq_of_lt hj'] at h
    omega
  · rw [Nat.mod_eq_of_lt hi', show j + 1 = n by omega, Nat.mod_self] at h
    cases h
  · rw [Nat.mod_eq_of_lt hj', show i + 1 = n by omega, Nat.mod_self] at h
    cases h
  · omega

/-- Place `i` of `n`, after the attack of place `j` is settled. -/
def struck (n j i : Nat) (s : Seat) : Seat :=
  let spent := if j = i then { s with pendingAttack := false } else s
  if 2 ≤ n ∧ (j + 1) % n = i then spent.hit else spent

section struck

variable {n i j : Nat} (s : Seat)

@[simp] theorem struck_playerId : (struck n j i s).player.playerId = s.player.playerId := by
  simp only [struck]
  split <;> split <;> rfl

theorem struck_pendingAttack : (struck n j i s).pendingAttack = if j = i then false else s.pendingAttack := by
  simp only [struck]
  split <;> split <;> rfl

theorem struck_hp : s.player.hp - kAttackDamage ≤ (struck n j i s).player.hp := by
  simp only [struck]
  split <;> split <;> simp only [Seat.hit, kAttackDamage] <;> omega

theorem struck_hp_of_ne (h : (j + 1) % n ≠ i) : (struck n j i s).player.hp = s.player.hp := by
  simp only [struck]
  rw [if_neg fun hand => h hand.2]
  split <;> rfl

end struck

theorem getElem?_strike {i j : Nat} (hpending : (l[j]?.map (·.pendingAttack)).getD false = true) :
    (strike l j)[i]? = l[i]?.map (struck l.length j i) := by
  rw [strike, if_pos hpending]
  dsimp only
  rw [List.length_modify]
  split
  case isTrue hlt =>
    rw [List.getElem?_modify]
    refine congrArg (Option.map · l[i]?) (funext fun s => ?_)
    have hno : ¬(2 ≤ l.length ∧ (j + 1) % l.length = i) := fun hand => absurd hand.1 (by omega)
    simp only [struck, if_neg hno]
  case isFalse hge =>
    rw [List.getElem?_modify, List.getElem?_modify, Option.map_eq_map, Option.map_eq_map, Option.map_map]
    refine congrArg (Option.map · l[i]?) (funext fun s => ?_)
    simp only [Function.comp_apply, struck, show 2 ≤ l.length by omega, true_and]

theorem length_strike (l : List Seat) (j : Nat) : (strike l j).length = l.length := by
  have h := congrArg List.length (map_strike (g := fun _ => ()) (fun _ => rfl) (fun _ => rfl) l j)
  simpa using h

/-- An attack that is settled is paid for: it was on its way, and now it has arrived. -/
theorem owed_struck {n i j : Nat} (hi : i < n) (hj : j < n) {attacker victim : Seat}
    (hpending : i = j → attacker.pendingAttack = true) :
    owed (struck n j i attacker) (struck n j ((i + 1) % n) victim) ≤ owed attacker victim := by
  rw [owed, owed, struck_pendingAttack]
  by_cases hij : i = j
  · have hhp := struck_hp (n := n) (i := (i + 1) % n) (j := j) victim
    rw [hpending hij, if_pos hij.symm]
    simp only [Bool.false_eq_true, if_false, if_true]
    omega
  · have hhp := struck_hp_of_ne (j := j) victim fun heq => hij (next_inj hi hj heq.symm)
    rw [hhp, if_neg (Ne.symm hij)]

theorem Paid.strike (h : Paid attacks l) (j : Nat) : Paid attacks (BattleRoom.strike l j) := by
  intro i attacker victim hattacker hvictim
  by_cases hpending : (l[j]?.map (·.pendingAttack)).getD false = true
  · rw [length_strike] at hvictim
    rw [getElem?_strike hpending] at hattacker hvictim
    obtain ⟨a, ha, rfl⟩ := Option.map_eq_some_iff.mp hattacker
    obtain ⟨v, hv, rfl⟩ := Option.map_eq_some_iff.mp hvictim
    have hi := (List.getElem?_eq_some_iff.mp ha).1
    have hj : j < l.length := by
      by_contra hge
      rw [List.getElem?_eq_none (by omega)] at hpending
      cases hpending
    rw [struck_playerId]
    refine (owed_struck hi hj fun hij => ?_).trans (h i a v ha hv)
    rw [← hij, ha] at hpending
    exact hpending
  · rw [BattleRoom.strike, if_neg hpending] at hattacker hvictim
    exact h i attacker victim hattacker hvictim

theorem Paid.settleAttacks (h : Paid attacks l) : Paid attacks (BattleRoom.settleAttacks l) := by
  rw [BattleRoom.settleAttacks]
  generalize List.range l.length = is
  induction is generalizing l with
  | nil => exact h
  | cons i is ih => exact ih (h.strike i)

/-- A place changes for its player, and what he starts he pays for. -/
theorem Paid.updateSeat (h : Paid attacks l) (hmono : ∀ id, attacks id ≤ attacks' id) {f : Seat → Seat}
    (hid : ∀ s, (f s).player.playerId = s.player.playerId) (hhp : ∀ s, (f s).player.hp = s.player.hp)
    (hpending : ∀ s, (f s).pendingAttack = s.pendingAttack ∨ attacks playerId + 1 ≤ attacks' playerId) :
    Paid attacks' (BattleRoom.updateSeat playerId f l) := by
  intro i attacker victim hattacker hvictim
  rw [length_updateSeat] at hvictim
  obtain ⟨a, ha, hattacker⟩ := getElem?_updateSeat hattacker
  obtain ⟨v, hv, hvictim⟩ := getElem?_updateSeat hvictim
  have hold := h i a v ha hv
  have hmore := hmono a.player.playerId
  have hvhp : victim.player.hp = v.player.hp := by
    rcases hvictim with rfl | ⟨-, rfl⟩
    · rfl
    · exact hhp v
  simp only [owed, kAttackDamage, hvhp] at hold ⊢
  rcases hattacker with rfl | ⟨rfl, rfl⟩
  · omega
  · rw [hid]
    rcases hpending a with hsame | hpaid
    · rw [hsame]
      omega
    · split_ifs at hold ⊢ <;> omega

/-! ## A room and its players

A call accounts for what it does. -/

/-- **Earned** — whoever is in the room has joined it, and whatever a place lost the player before it attacked for. -/
structure Earned (joined : String → Prop) (attacks : String → Nat) (r : BattleRoom) : Prop where
  joined : ∀ s ∈ r.seats, s.player.connected = true → joined s.player.playerId
  paid : Paid attacks r.seats

namespace Earned

variable {joined joined' : String → Prop}

theorem new (roomId matchId : String) (playerIds : List String) (nowMs : Int) :
    Earned joined attacks (.new roomId matchId playerIds nowMs) where
  joined s hs hconnected := by
    obtain ⟨id, -, rfl⟩ := List.mem_map.mp hs
    cases hconnected
  paid i attacker victim hattacker hvictim := by
    obtain ⟨a, -, rfl⟩ := List.mem_map.mp (List.mem_of_getElem? hattacker)
    obtain ⟨v, -, rfl⟩ := List.mem_map.mp (List.mem_of_getElem? hvictim)
    simp only [owed, Seat.vacant, kAttackDamage, Bool.false_eq_true, if_false]
    omega

/-- More is known of who joined and attacked. -/
theorem mono (h : Earned joined attacks r) (hjoined : ∀ id, joined id → joined' id)
    (hattacks : ∀ id, attacks id ≤ attacks' id) : Earned joined' attacks' r where
  joined s hs hconnected := hjoined _ (h.joined s hs hconnected)
  paid i attacker victim hattacker hvictim := by
    have hold := h.paid i attacker victim hattacker hvictim
    have hmore := hattacks attacker.player.playerId
    simp only [kAttackDamage] at hold ⊢
    omega

/-- A place changes for its player, who has joined if he is in the room then. -/
theorem reseat (h : Earned joined attacks r) (hmono : ∀ id, attacks id ≤ attacks' id)
    (hjoined : ∀ id, joined id → joined' id) {f : Seat → Seat}
    (hid : ∀ s, (f s).player.playerId = s.player.playerId) (hhp : ∀ s, (f s).player.hp = s.player.hp)
    (hpending : ∀ s, (f s).pendingAttack = s.pendingAttack ∨ attacks playerId + 1 ≤ attacks' playerId)
    (hconnected : ∀ s, (f s).player.connected = s.player.connected ∨ joined' playerId)
    (hseats : r'.seats = updateSeat playerId f r.seats) : Earned joined' attacks' r' where
  joined s hs hin := by
    rw [hseats] at hs
    obtain hs | ⟨s', hs', rfl, rfl⟩ := mem_updateSeat hs
    · exact hjoined _ (h.joined s hs hin)
    · rw [hid]
      rcases hconnected s' with hsame | hnew
      · exact hjoined _ (h.joined s' hs' (hsame ▸ hin))
      · exact hnew
  paid := hseats ▸ h.paid.updateSeat hmono hid hhp hpending

theorem frame (h : Earned joined attacks r) (nowMs : Int) : Earned joined attacks (r.nextFrame nowMs) where
  joined := by
    rw [nextFrame_seats]
    exact forall_settleAttacks h.joined (fun _ hs => hs) fun _ hs => hs
  paid := by
    rw [nextFrame_seats]
    exact h.paid.settleAttacks

/-- **One call**: who is let in has joined, and who strikes has attacked. -/
theorem call (h : Earned joined attacks r) {c : Call} (hjoined : ∀ id, joined id → joined' id)
    (hattacks : ∀ id, attacks id ≤ attacks' id) (hjoin : ∀ id nowMs, c = .op (.join id nowMs) → joined' id)
    (hsubmit : ∀ id kind, c = .op (.submitInput id kind) → attacks id + 1 ≤ attacks' id) :
    Earned joined' attacks' (r.call c) := by
  generalize hcall : r.call c = r'
  have heffect := effect_call r c
  rw [hcall] at heffect
  clear hcall
  have hmore := h.mono hjoined hattacks
  cases heffect with
  | idle | expired | disconnected | deserted | persisted | aborted => exact ⟨hmore.joined, hmore.paid⟩
  | started | joined =>
    exact h.reseat (f := Seat.join) hattacks hjoined (fun _ => rfl) (fun _ => rfl) (fun _ => .inl rfl)
      (fun _ => .inr (hjoin _ _ rfl)) rfl
  | attacked =>
    exact h.reseat (f := Seat.attack) hattacks hjoined (fun _ => rfl) (fun _ => rfl)
      (fun _ => .inr (hsubmit _ _ rfl)) (fun _ => .inl rfl) rfl
  | wentOnline =>
    exact h.reseat (f := Seat.goOnline) hattacks hjoined (fun _ => rfl) (fun _ => rfl) (fun _ => .inl rfl)
      (fun _ => .inl rfl) rfl
  | @wentOffline _ nowMs =>
    exact h.reseat (f := Seat.goOffline nowMs) hattacks hjoined (fun _ => rfl) (fun _ => rfl) (fun _ => .inl rfl)
      (fun _ => .inl rfl) rfl
  | advanced hphase honline frames lastTickMs =>
    have hstart : Earned joined' attacks' { r with lastTickMs := lastTickMs } := ⟨hmore.joined, hmore.paid⟩
    exact advanceFrames_invariant (fun r' hr' _ => hr'.frame _) hstart frames

end Earned

end BattleRoom

/-! ## The rooms of a service

One account for each room, over the run. -/

namespace RoomSystem

variable {stores : RoomStores} {s : RoomSystem} {a : Action} {x : String} {r r' : BattleRoom}

/-- A call of a player reaches the room it names. -/
theorem action_of_roomCalls {c : BattleRoom.Call} (hc : c ∈ s.roomCalls x a) :
    (∀ id nowMs, c = .op (.join id nowMs) → a = .join x id nowMs) ∧
      ∀ id kind, c = .op (.submitInput id kind) → a = .submitInput x id kind := by
  cases a with
  | join roomId playerId nowMs =>
    simp only [roomCalls] at hc
    split_ifs at hc with heq
    · subst heq
      cases List.mem_singleton.mp hc
      exact ⟨by rintro id nowMs ⟨⟩; rfl, by rintro id kind ⟨⟩⟩
    · cases hc
  | submitInput roomId playerId kind =>
    simp only [roomCalls] at hc
    split_ifs at hc with heq
    · subst heq
      cases List.mem_singleton.mp hc
      exact ⟨by rintro id nowMs ⟨⟩, by rintro id kind ⟨⟩; rfl⟩
    · cases hc
  | setPresence roomId playerId online nowMs =>
    simp only [roomCalls] at hc
    split_ifs at hc
    · cases List.mem_singleton.mp hc
      exact ⟨by rintro id nowMs ⟨⟩, by rintro id kind ⟨⟩⟩
    · cases hc
  | tick | abortUnfinishedGames =>
    cases List.mem_singleton.mp hc
    exact ⟨by rintro id nowMs ⟨⟩, by rintro id kind ⟨⟩⟩
  | resume thread answer =>
    simp only [roomCalls] at hc
    split at hc
    · split at hc
      · obtain rfl := List.mem_singleton.mp hc
        split <;> exact ⟨by rintro id nowMs ⟨⟩, by rintro id kind ⟨⟩⟩
      · cases hc
    · cases hc
  | create | getState | getSnapshotsSince | getResult | beginShutdown => cases hc

/-- **One action**: what it does to a room, its player asked for. -/
theorem earned_next {joined joined' : String → Prop} {attacks attacks' : String → Nat}
    (h : ∀ r, s.room? x = some r → r.Earned joined attacks) (hjoined : ∀ id, joined id → joined' id)
    (hattacks : ∀ id, attacks id ≤ attacks' id) (hjoin : ∀ id nowMs, a = .join x id nowMs → joined' id)
    (hsubmit : ∀ id kind, a = .submitInput x id kind → attacks id + 1 ≤ attacks' id)
    (hr' : (s.next stores a).room? x = some r') : r'.Earned joined' attacks' := by
  rcases hr : s.room? x with - | r
  · obtain ⟨matchId, playerIds, nowMs, -, -, rfl⟩ := room?_next_new hr hr'
    exact .new ..
  · rw [room?_next hr] at hr'
    split_ifs at hr'
    obtain rfl := Option.some.inj hr'
    rcases s.roomCalls_cases x a with hnone | ⟨c, hc⟩
    · rw [hnone]
      exact (h r hr).mono hjoined hattacks
    · have hnamed := action_of_roomCalls (hc.symm ▸ List.mem_singleton_self c)
      rw [hc]
      exact (h r hr).call hjoined hattacks (fun id nowMs heq => hjoin id nowMs (hnamed.1 id nowMs heq))
        fun id kind heq => hsubmit id kind (hnamed.2 id kind heq)

/-- A room that is there, and was there, has the players that it had. -/
theorem playerIds_next (hr : s.room? x = some r) (hr' : (s.next stores a).room? x = some r') :
    r'.playerIds = r.playerIds := by
  rw [room?_next hr] at hr'
  split_ifs at hr'
  obtain rfl := Option.some.inj hr'
  exact r.playerIds_calls _

end RoomSystem

end RealtimeGame.Room
