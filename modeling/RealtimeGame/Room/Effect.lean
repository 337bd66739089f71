import RealtimeGame.Room.RoomLaws
import RealtimeGame.Room.RoomManager

/-!
# Room/Effect — what one call of a room does

The calls of a room are its operations, the mark that its result is in MySQL, and the abort of
whatever is unfinished.  `Effect` lists once what a call can do and what held before it did;
`effect_call` is the only place where the branches of the operations are taken apart.
-/

open Library

namespace RealtimeGame.Room

namespace BattleRoom

/-! ## Calls

The operations of a room, as one type. -/

/-- Every call that reaches a room of a running service. -/
inductive Call
  | op (op : Op)
  | markResultPersisted
  | abortUnfinishedGames (nowMs : Int)
  deriving DecidableEq, Repr

def call (r : BattleRoom) : Call → BattleRoom
  | .op op => r.apply op
  | .markResultPersisted => r.markResultPersisted
  | .abortUnfinishedGames nowMs => if r.phase.unfinished then r.abort nowMs else r

/-- One call after the other. -/
def calls (r : BattleRoom) (cs : List Call) : BattleRoom := cs.foldl call r

theorem calls_append (r : BattleRoom) (cs cs' : List Call) :
    r.calls (cs ++ cs') = (r.calls cs).calls cs' := List.foldl_append

theorem calls_snoc (r : BattleRoom) (cs : List Call) (c : Call) :
    r.calls (cs ++ [c]) = (r.calls cs).call c := calls_append r cs [c]

/-- **The invariant rule of a room** — what every call keeps, every run of calls keeps. -/
theorem calls_invariant {P : BattleRoom → Prop} (hcall : ∀ r c, P r → P (r.call c))
    {r : BattleRoom} (h : P r) (cs : List Call) : P (r.calls cs) := by
  refine (Run.of_fun call r cs).invariant (fun r c r' hr hstep => ?_) h
  rw [hstep]
  exact hcall r c hr

/-- The player whose input a call accepts. -/
def accepted (r : BattleRoom) : Call → Option String
  | .op (.submitInput playerId kind) =>
    if (r.submitInput playerId kind).1 = .accepted then some playerId else none
  | _ => none

end BattleRoom

/-- `AbortUnfinishedGames` makes the same call to every room of the registry. -/
theorem RoomManager.lookup_abortUnfinishedLocked (m : RoomManager) (nowMs : Int) (roomId : String) :
    (m.abortUnfinishedLocked nowMs).2.rooms.lookup roomId =
      (m.rooms.lookup roomId).map (·.call (.abortUnfinishedGames nowMs)) :=
  Table.lookup_mapVals _ _ _

namespace BattleRoom

variable {r : BattleRoom} {nowMs : Int} {playerId : String}

/-! ## The effects

What a call has changed, and what it found. -/

/-- **What a call can do to a room**, and what held before. -/
inductive Effect (r : BattleRoom) : Call → BattleRoom → Prop
  /-- Nothing but to note the time. -/
  | idle {c : Call} (hquiet : r.accepted c = none) (lastTickMs lastPersistAttemptMs : Int) :
      Effect r c
        { r with lastTickMs := lastTickMs, lastPersistAttemptMs := lastPersistAttemptMs }
  /-- The last player joins. -/
  | started {playerId : String} {nowMs : Int} (hphase : r.phase.unfinished = true)
      (hnew : ∃ s ∈ r.seats, s.player.playerId = playerId ∧ s.player.connected = false)
      (hall : ∀ s ∈ updateSeat playerId Seat.join r.seats, s.player.connected = true) :
      Effect r (.op (.join playerId nowMs))
        (pushSnapshot { r with seats := updateSeat playerId Seat.join r.seats, phase := .playing,
                               startedAtMs := nowMs, lastTickMs := nowMs, frame := 0 })
  /-- A player joins, and somebody is still missing. -/
  | joined {playerId : String} {nowMs : Int} (hphase : r.phase.unfinished = true)
      (hnew : ∃ s ∈ r.seats, s.player.playerId = playerId ∧ s.player.connected = false)
      (hmissing : ∃ s ∈ updateSeat playerId Seat.join r.seats, s.player.connected = false) :
      Effect r (.op (.join playerId nowMs))
        (pushSnapshot { r with seats := updateSeat playerId Seat.join r.seats,
                               phase := if r.phase = .created then .waiting else r.phase })
  | attacked {playerId : String} {kind : InputKind} (hphase : r.phase = .playing)
      (haccepted : r.accepted (.op (.submitInput playerId kind)) = some playerId) :
      Effect r (.op (.submitInput playerId kind))
        { r with seats := updateSeat playerId Seat.attack r.seats }
  | wentOnline {playerId : String} {nowMs : Int} (hphase : r.phase.unfinished = true) :
      Effect r (.op (.setPresence playerId true nowMs))
        { r with seats := updateSeat playerId Seat.goOnline r.seats }
  | wentOffline {playerId : String} {nowMs : Int} (hphase : r.phase.unfinished = true)
      (hid : validId playerId = true) (honline : r.isOnline playerId = true) :
      Effect r (.op (.setPresence playerId false nowMs))
        (pushSnapshot { r with seats := updateSeat playerId (Seat.goOffline nowMs) r.seats })
  /-- Nobody came in time. -/
  | expired {nowMs : Int} (hphase : r.phase = .created ∨ r.phase = .waiting) :
      Effect r (.op (.tick nowMs)) (r.abort nowMs)
  /-- Whoever is offline has been away too long, and the seat `winner` is not. -/
  | disconnected {nowMs : Int} {winner : Seat} (hphase : r.phase = .playing)
      (hoffline : ∃ s ∈ r.seats, s.runtime.online = false)
      (hgrace : ∀ s ∈ r.seats, s.runtime.online = false →
        kReconnectGraceMs ≤ nowMs - s.runtime.offlineSinceMs)
      (hmem : winner ∈ r.seats) (hwinner : winner.runtime.online = true) :
      Effect r (.op (.tick nowMs)) (r.finish nowMs .disconnect winner.player.playerId)
  /-- Everybody has been away too long. -/
  | deserted {nowMs : Int} (hphase : r.phase = .playing)
      (hoffline : ∀ s ∈ r.seats, s.runtime.online = false)
      (hgrace : ∀ s ∈ r.seats, s.runtime.online = false →
        kReconnectGraceMs ≤ nowMs - s.runtime.offlineSinceMs) :
      Effect r (.op (.tick nowMs)) (r.abort nowMs)
  /-- Some frames pass, after those that are too many have been dropped. -/
  | advanced {nowMs : Int} (hphase : r.phase = .playing)
      (honline : ∀ s ∈ r.seats, s.runtime.online = true) (frames : Nat) (lastTickMs : Int) :
      Effect r (.op (.tick nowMs)) (advanceFrames nowMs frames { r with lastTickMs := lastTickMs })
  | persisted (hphase : r.phase = .finishing) :
      Effect r .markResultPersisted { r with phase := .finished }
  | aborted {nowMs : Int} (hphase : r.phase.unfinished = true) :
      Effect r (.abortUnfinishedGames nowMs) (r.abort nowMs)

/-- A call that leaves the room as it is. -/
theorem Effect.refl {c : Call} (hquiet : r.accepted c = none) : r.Effect c r :=
  .idle hquiet r.lastTickMs r.lastPersistAttemptMs

/-- A player of the room who is not in it yet has his place kept. -/
theorem vacant_of_not_connected (hmember : r.hasPlayer playerId = true)
    (hnew : r.isConnected playerId = false) :
    ∃ s ∈ r.seats, s.player.playerId = playerId ∧ s.player.connected = false := by
  unfold isConnected at hnew
  split at hnew
  case h_1 s hs =>
    exact ⟨s, List.mem_of_find?_eq_some hs, by simpa using List.find?_some hs, hnew⟩
  case h_2 hnone =>
    rw [List.find?_eq_none] at hnone
    obtain ⟨s, hs, hid⟩ := List.any_eq_true.mp hmember
    exact absurd hid (hnone s hs)

theorem effect_join : r.Effect (.op (.join playerId nowMs)) (r.join nowMs playerId).2 := by
  unfold join
  split; · exact .refl rfl
  split; · exact .refl rfl
  case isFalse hphase =>
    split; · exact .refl rfl
    split; · exact .refl rfl
    case isFalse hmember hnew =>
      simp only [Bool.not_eq_true, Bool.not_eq_false'] at hphase hmember hnew
      have hnew := vacant_of_not_connected hmember hnew
      dsimp only
      split
      case isTrue hall => exact .started hphase hnew (List.all_eq_true.mp hall)
      case isFalse hall =>
        refine .joined hphase hnew ?_
        simpa only [Bool.not_eq_true, List.all_eq_false, exists_prop] using hall

theorem submitInput_cases (r : BattleRoom) (playerId : String) (kind : InputKind) :
    (r.submitInput playerId kind).1 ≠ .accepted ∧ (r.submitInput playerId kind).2 = r ∨
      r.phase = .playing ∧ r.submitInput playerId kind =
        (.accepted, { r with seats := updateSeat playerId Seat.attack r.seats }) := by
  unfold submitInput
  split; · exact .inl ⟨nofun, rfl⟩
  split; · exact .inl ⟨nofun, rfl⟩
  split; · exact .inl ⟨nofun, rfl⟩
  case isFalse hphase =>
    split; · exact .inl ⟨nofun, rfl⟩
    exact .inr ⟨not_not.mp hphase, rfl⟩

theorem effect_submitInput (kind : InputKind) :
    r.Effect (.op (.submitInput playerId kind)) (r.submitInput playerId kind).2 := by
  obtain ⟨hrefused, hsame⟩ | ⟨hphase, haccepted⟩ := submitInput_cases r playerId kind
  · rw [hsame]
    exact .refl (if_neg hrefused)
  · rw [haccepted]
    exact .attacked hphase (if_pos (congrArg Prod.fst haccepted))

theorem effect_setPresence (online : Bool) :
    r.Effect (.op (.setPresence playerId online nowMs)) (r.setPresence nowMs playerId online).2 := by
  unfold setPresence
  split; · exact .refl rfl
  case isFalse hid =>
    split; · exact .refl rfl
    case isFalse hphase =>
      simp only [Bool.not_eq_true, Bool.not_eq_false'] at hid hphase
      split; · exact .refl rfl
      cases online with
      | true => exact .wentOnline hphase
      | false =>
        simp only [Bool.false_eq_true, if_false]
        split
        case isTrue honline => exact .wentOffline hphase hid honline
        case isFalse => exact .refl rfl

/-! ## Time

A Tick is the end of a time to reconnect, or frames. -/

/-- Nobody who is offline went so after `latestOfflineAt`. -/
theorem offlineSinceMs_le_latest {s : Seat} (hs : s ∈ r.seats) (hoffline : s.runtime.online = false) :
    s.runtime.offlineSinceMs ≤ r.latestOfflineAt := by
  let later (latest : Int) (s : Seat) : Int :=
    if s.runtime.online then latest else max latest s.runtime.offlineSinceMs
  have hfold : ∀ (l : List Seat) (latest : Int), latest ≤ l.foldl later latest ∧
      ∀ s ∈ l, s.runtime.online = false → s.runtime.offlineSinceMs ≤ l.foldl later latest := by
    intro l
    induction l with
    | nil => exact fun latest => ⟨Int.le_refl latest, fun s hs => by cases hs⟩
    | cons t l ih =>
      intro latest
      obtain ⟨hrest, hmem⟩ := ih (later latest t)
      have hlater : latest ≤ later latest t := by
        simp only [later]
        split <;> omega
      refine ⟨Int.le_trans hlater hrest, fun s hs hoff => ?_⟩
      rcases List.mem_cons.mp hs with rfl | hs
      · refine Int.le_trans ?_ hrest
        simp only [later, hoff, Bool.false_eq_true, if_false]
        omega
      · exact hmem s hs hoff
  exact (hfold r.seats 0).2 s hs hoffline

theorem effect_resolveReconnectGrace {r' : BattleRoom} (h : r.resolveReconnectGrace nowMs = some r') :
    r.Effect (.op (.tick nowMs)) r' := by
  unfold resolveReconnectGrace at h
  split at h; · cases h
  case isFalse hphase =>
    split at h; · cases h
    case isFalse hall =>
      split at h; · cases h
      case isFalse hgrace =>
        have hgrace : ∀ s ∈ r.seats, s.runtime.online = false →
            kReconnectGraceMs ≤ nowMs - s.runtime.offlineSinceMs := fun s hs hoff => by
          have hle := offlineSinceMs_le_latest hs hoff
          omega
        have hoffline : ∃ s ∈ r.seats, s.runtime.online = false := by
          simpa only [Bool.not_eq_true, List.all_eq_false, exists_prop] using hall
        split at h
        case h_1 winner hwinner =>
          cases h
          have hmem := List.mem_filter.mp (List.mem_of_getLast? hwinner)
          exact .disconnected (not_not.mp hphase) hoffline hgrace hmem.1 hmem.2
        case h_2 hnone =>
          cases h
          rw [List.getLast?_eq_none_iff, List.filter_eq_nil_iff] at hnone
          exact .deserted (not_not.mp hphase)
            (fun s hs => Bool.eq_false_iff.mpr (hnone s hs)) hgrace

theorem effect_tick : r.Effect (.op (.tick nowMs)) (r.tick nowMs).2 := by
  unfold tick
  split
  case isTrue hphase =>
    split
    · exact .expired hphase
    · exact .refl rfl
  case isFalse =>
    split; · exact .refl rfl
    case isFalse hphase =>
      split
      case isTrue =>
        split
        case h_1 r' hr => exact effect_resolveReconnectGrace hr
        case h_2 => exact .idle rfl nowMs r.lastPersistAttemptMs
      case isFalse honline =>
        have honline : ∀ s ∈ r.seats, s.runtime.online = true := by
          simpa [isWaitingForReconnect] using honline
        split; · exact .refl rfl
        dsimp only
        split; · exact .refl rfl
        split
        · exact .advanced (not_not.mp hphase) honline _ _
        · exact .advanced (not_not.mp hphase) honline _ r.lastTickMs

theorem effect_call (r : BattleRoom) (c : Call) : r.Effect c (r.call c) := by
  cases c with
  | op op =>
    cases op with
    | join playerId nowMs => exact effect_join
    | submitInput playerId kind => exact effect_submitInput kind
    | setPresence playerId online nowMs => exact effect_setPresence online
    | tick nowMs => exact effect_tick
    | markResultFailed nowMs =>
      simp only [call, apply, markResultFailed]
      split
      · exact .idle rfl r.lastTickMs nowMs
      · exact .refl rfl
  | markResultPersisted =>
    simp only [call, markResultPersisted]
    split
    case isTrue hphase => exact .persisted hphase
    case isFalse => exact .refl rfl
  | abortUnfinishedGames nowMs =>
    simp only [call]
    split
    case isTrue hphase => exact .aborted hphase
    case isFalse => exact .refl rfl

/-! ## Frames

One frame without the end of the game, and then the end. -/

/-- The body of the loop of `Tick`. -/
def nextFrame (nowMs : Int) (r : BattleRoom) : BattleRoom :=
  { r with lastTickMs := r.lastTickMs + kFrameIntervalMs }.advanceOneFrame nowMs

/-- **The rule of the frame loop** — what every frame of a game that is being played keeps. -/
theorem advanceFrames_invariant {P : BattleRoom → Prop}
    (hframe : ∀ r, P r → r.phase = .playing → P (r.nextFrame nowMs)) (h : P r) (frames : Nat) :
    P (advanceFrames nowMs frames r) := by
  induction frames generalizing r with
  | zero => exact h
  | succ frames ih =>
    rw [advanceFrames]
    split
    case isTrue hphase => exact ih (hframe r h hphase)
    case isFalse => exact h

variable (r nowMs)

@[simp] theorem nextFrame_frame : (r.nextFrame nowMs).frame = r.frame + 1 := by
  unfold nextFrame advanceOneFrame
  dsimp only
  split; · rfl
  split <;> rfl

@[simp] theorem nextFrame_seats : (r.nextFrame nowMs).seats = settleAttacks r.seats := by
  unfold nextFrame advanceOneFrame
  dsimp only
  split; · rfl
  split <;> rfl

/-- A frame either leaves the game going on or ends it, and never for somebody's absence. -/
theorem nextFrame_phase (hphase : r.phase = .playing) :
    (r.nextFrame nowMs).phase = .playing ∨
      (r.nextFrame nowMs).phase = .finishing ∧ (r.nextFrame nowMs).finishReason ≠ .disconnect := by
  unfold nextFrame advanceOneFrame
  dsimp only
  split; · exact .inr ⟨rfl, nofun⟩
  split
  · exact .inr ⟨rfl, nofun⟩
  · exact .inl hphase

variable {r}

theorem advanceFrames_phase (hphase : r.phase = .playing) (frames : Nat) :
    (advanceFrames nowMs frames r).phase = .playing ∨
      (advanceFrames nowMs frames r).phase = .finishing ∧
        (advanceFrames nowMs frames r).finishReason ≠ .disconnect :=
  advanceFrames_invariant
    (P := fun r => r.phase = .playing ∨ r.phase = .finishing ∧ r.finishReason ≠ .disconnect)
    (fun r _ hplaying => nextFrame_phase r nowMs hplaying) (.inl hphase) frames

end BattleRoom

/-! ## The places of a game of two

Which attack hits which place. -/

/-- A place after a frame: its own attack is spent, and the one of the other place strikes it. -/
def Seat.settled (struck : Bool) (s : Seat) : Seat :=
  if struck then { s with pendingAttack := false }.hit else { s with pendingAttack := false }

namespace Seat

variable (struck : Bool) (s : Seat)

@[simp] theorem settled_playerId : (s.settled struck).player.playerId = s.player.playerId := by
  cases struck <;> rfl

@[simp] theorem settled_connected : (s.settled struck).player.connected = s.player.connected := by
  cases struck <;> rfl

@[simp] theorem settled_online : (s.settled struck).player.online = s.player.online := by
  cases struck <;> rfl

@[simp] theorem settled_runtime : (s.settled struck).runtime = s.runtime := by
  cases struck <;> rfl

@[simp] theorem settled_pendingAttack : (s.settled struck).pendingAttack = false := by
  cases struck <;> rfl

theorem settled_hp : (s.settled struck).player.hp =
    if struck then max 0 (s.player.hp - kAttackDamage) else s.player.hp := by
  cases struck <;> rfl

end Seat

namespace BattleRoom

variable {r : BattleRoom} {playerId p q : String}

/-- Both attacks of a frame are settled at once: neither sees what the other does. -/
theorem settleAttacks_pair (a b : Seat) :
    settleAttacks [a, b] = [a.settled b.pendingAttack, b.settled a.pendingAttack] := by
  obtain ⟨pa, ra, attackA⟩ := a
  obtain ⟨pb, rb, attackB⟩ := b
  cases attackA <;> cases attackB <;>
    simp [settleAttacks, strike, List.range_succ, Seat.settled, Seat.hit]

theorem pair_of_playerIds {l : List Seat} (h : l.map (·.player.playerId) = [p, q]) :
    ∃ a b, l = [a, b] ∧ a.player.playerId = p ∧ b.player.playerId = q := by
  match l, h with
  | [a, b], h =>
    simp only [List.map_cons, List.map_nil, List.cons.injEq, and_true] at h
    exact ⟨a, b, rfl, h⟩

theorem forall_mem_pair {P : Seat → Prop} {a b : Seat} : (∀ s ∈ [a, b], P s) ↔ P a ∧ P b := by
  simp

/-- What an update keeps of a place, it keeps of all. -/
theorem map_updateSeat {β : Type*} {g : Seat → β} {f : Seat → Seat} (hf : ∀ s, g (f s) = g s)
    (playerId : String) (l : List Seat) : (updateSeat playerId f l).map g = l.map g := by
  induction l with
  | nil => rfl
  | cons s l ih =>
    rw [updateSeat]
    split
    · rw [List.map_cons, List.map_cons, hf]
    · rw [List.map_cons, List.map_cons, ih]

theorem updateSeat_playerIds {f : Seat → Seat} (hf : ∀ s, (f s).player.playerId = s.player.playerId)
    (l : List Seat) :
    (updateSeat playerId f l).map (·.player.playerId) = l.map (·.player.playerId) :=
  map_updateSeat hf playerId l

/-- Two places of different players: the update reaches the one it names. -/
theorem updateSeat_pair {a b : Seat} (h : a.player.playerId ≠ b.player.playerId) (f : Seat → Seat) :
    updateSeat playerId f [a, b] =
      [if a.player.playerId = playerId then f a else a,
        if b.player.playerId = playerId then f b else b] := by
  simp only [updateSeat]
  split
  case isTrue ha =>
    rw [if_neg fun hb => h (ha.trans hb.symm)]
  case isFalse => split <;> rfl

/-- Of two places, one of a player who is online and one of a player who is not: there are no others. -/
theorem pair_of_presence {l : List Seat} (h : l.map (·.player.playerId) = [p, q]) {s t : Seat}
    (hs : s ∈ l) (ht : t ∈ l) (honline : s.runtime.online = true) (hoffline : t.runtime.online = false) :
    l = [s, t] ∨ l = [t, s] := by
  obtain ⟨a, b, rfl, -⟩ := pair_of_playerIds h
  have hne : s ≠ t := fun heq => by
    rw [heq, hoffline] at honline
    cases honline
  rw [List.mem_pair] at hs ht
  rcases hs with rfl | rfl <;> rcases ht with rfl | rfl
  · exact absurd rfl hne
  · exact .inl rfl
  · exact .inr rfl
  · exact absurd rfl hne

theorem mem_updateSeat {f : Seat → Seat} {l : List Seat} {s' : Seat}
    (h : s' ∈ updateSeat playerId f l) :
    s' ∈ l ∨ ∃ s ∈ l, s.player.playerId = playerId ∧ s' = f s := by
  induction l with
  | nil => exact absurd h List.not_mem_nil
  | cons s l ih =>
    rw [updateSeat] at h
    split at h
    case isTrue hs =>
      rcases List.mem_cons.mp h with rfl | h
      · exact .inr ⟨s, List.mem_cons_self, hs, rfl⟩
      · exact .inl (List.mem_cons_of_mem s h)
    case isFalse =>
      rcases List.mem_cons.mp h with rfl | h
      · exact .inl List.mem_cons_self
      · rcases ih h with h | ⟨t, ht, hupdated⟩
        · exact .inl (List.mem_cons_of_mem s h)
        · exact .inr ⟨t, List.mem_cons_of_mem s ht, hupdated⟩

/-- What every place has, it has after an update that keeps it. -/
theorem forall_updateSeat {P Q : Seat → Prop} {f : Seat → Seat} {l : List Seat} (h : ∀ s ∈ l, P s)
    (hkeep : ∀ s, P s → Q s) (hf : ∀ s, P s → Q (f s)) : ∀ s ∈ updateSeat playerId f l, Q s := by
  intro s' hs'
  obtain hs | ⟨s, hs, -, rfl⟩ := mem_updateSeat hs'
  · exact hkeep s' (h s' hs)
  · exact hf s (h s hs)

end BattleRoom

end RealtimeGame.Room
