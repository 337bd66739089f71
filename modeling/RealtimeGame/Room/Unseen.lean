import RealtimeGame.Room.Index
import RealtimeGame.Room.Outcome

/-!
# Room/Unseen — what a room changes with its phase only

Who has joined, why and for whom a game ended, and its times do not change while the phase of the room stays:
each phase is entered once, and these are what entering it sets (`unseen_operations`).  The exception is a
room that is aborted once more, which `Abort` asks its callers not to do.
-/

open Library

namespace RealtimeGame.Room

/-- How far a room has come. -/
def RoomPhase.rank : RoomPhase → Nat
  | created => 0
  | waiting => 1
  | playing => 2
  | finishing => 3
  | finished => 4
  | aborted => 5

theorem RoomPhase.rank_lt_aborted {phase : RoomPhase} (h : phase ≠ .aborted) : phase.rank < aborted.rank := by
  cases phase <;> first | decide | exact absurd rfl h

theorem RoomPhase.Moves.rank_lt {phase phase' : RoomPhase} (h : phase.Moves phase') :
    phase.rank < phase'.rank := by
  cases h with
  | aborted hphase => exact rank_lt_aborted (RoomPhase.ne_of_unfinished hphase rfl)
  | _ => decide

namespace BattleRoom

variable {r r' r'' : BattleRoom} {nowMs : Int} {p q playerId : String}

/-- Who has joined, the reason and the winner, and the times of the game. -/
def unseen (r : BattleRoom) : List Bool × FinishReason × String × Int × Int :=
  (r.seats.map (·.player.connected), r.finishReason, r.winnerId, r.startedAtMs, r.finishedAtMs)

/-- **The room has moved on**, or it shows no more than its frame, hit points and connections. -/
def Onward (r r' : BattleRoom) : Prop :=
  r.phase.rank < r'.phase.rank ∨ r'.phase = r.phase ∧ r'.unseen = r.unseen

theorem Onward.refl (r : BattleRoom) : r.Onward r := .inr ⟨rfl, rfl⟩

theorem Onward.trans (h : r.Onward r') (h' : r'.Onward r'') : r.Onward r'' := by
  rcases h with hlt | ⟨hphase, hunseen⟩
  · rcases h' with hlt' | ⟨hphase', -⟩
    · exact .inl (lt_trans hlt hlt')
    · exact .inl (hphase' ▸ hlt)
  · rcases h' with hlt' | ⟨hphase', hunseen'⟩
    · exact .inl (hphase ▸ hlt')
    · exact .inr ⟨hphase'.trans hphase, hunseen'.trans hunseen⟩

/-! ## Calls

A call changes the phase, or none of these. -/

/-- **A room of `p` and `q`** where somebody has come once it waits. -/
structure Attended (p q : String) (r : BattleRoom) : Prop where
  lawful : Lawful p q r
  waiting : r.phase = .waiting → ∃ s ∈ r.seats, s.player.connected = true

theorem Attended.new (roomId matchId : String) (nowMs : Int) :
    Attended p q (.new roomId matchId [p, q] nowMs) where
  lawful := .new roomId matchId nowMs
  waiting := by rintro ⟨⟩

/-- Two places: whoever joins when the other is there is not missed any more. -/
theorem Attended.all_join (h : Attended p q r) (hpq : p ≠ q) (hphase : r.phase = .waiting)
    (hnew : ∃ s ∈ r.seats, s.player.playerId = playerId ∧ s.player.connected = false) :
    ∀ s ∈ updateSeat playerId Seat.join r.seats, s.player.connected = true := by
  obtain ⟨a, b, hseats, rfl, rfl⟩ := pair_of_playerIds h.lawful.playerIds
  obtain ⟨there, hthere, hconnected⟩ := h.waiting hphase
  obtain ⟨s, hs, rfl, hvacant⟩ := hnew
  have hne : s ≠ there := by
    rintro rfl
    cases hvacant.symm.trans hconnected
  rw [hseats, List.mem_pair] at hs hthere
  rw [hseats, updateSeat_pair hpq, forall_mem_pair]
  rcases hs with rfl | rfl <;> rcases hthere with rfl | rfl
  · exact absurd rfl hne
  · rw [if_pos rfl, if_neg hpq.symm]
    exact ⟨rfl, hconnected⟩
  · rw [if_neg hpq, if_pos rfl]
    exact ⟨hconnected, rfl⟩
  · exact absurd rfl hne

/-- The place of a player who has one is changed. -/
theorem exists_mem_updateSeat (f : Seat → Seat) {l : List Seat} {s : Seat} (hs : s ∈ l)
    (hid : s.player.playerId = playerId) : ∃ s', f s' ∈ updateSeat playerId f l := by
  induction l with
  | nil => cases hs
  | cons a l ih =>
    rw [updateSeat]
    split
    case isTrue => exact ⟨a, List.mem_cons_self⟩
    case isFalse hne =>
      obtain ⟨s', hs'⟩ := ih ((List.mem_cons.mp hs).resolve_left fun heq => hne (heq ▸ hid))
      exact ⟨s', List.mem_cons_of_mem a hs'⟩

/-- A place that changes and stays as taken as it was. -/
theorem unseen_updateSeat {f : Seat → Seat} (hf : ∀ s, (f s).player.connected = s.player.connected)
    (playerId : String) : { r with seats := updateSeat playerId f r.seats }.unseen = r.unseen :=
  Prod.ext (map_updateSeat hf playerId r.seats) rfl

/-- **A frame** that does not end the game. -/
theorem unseen_nextFrame (h : Lawful p q r) (hphase : (r.nextFrame nowMs).phase = .playing) :
    (r.nextFrame nowMs).unseen = r.unseen := by
  obtain ⟨a, b, hseats, -⟩ := pair_of_playerIds h.playerIds
  have hconnected : (settleAttacks r.seats).map (·.player.connected) = r.seats.map (·.player.connected) := by
    rw [hseats, settleAttacks_pair]
    simp only [List.map_cons, Seat.settled_connected]
  unfold nextFrame advanceOneFrame at hphase ⊢
  dsimp only at hphase ⊢
  split at hphase
  · cases hphase
  · rw [if_neg ‹_›]
    split at hphase
    · cases hphase
    · rw [if_neg ‹_›]
      exact Prod.ext hconnected rfl

theorem unseen_advanceFrames (h : Lawful p q r) (frames : Nat)
    (hphase : (advanceFrames nowMs frames r).phase = .playing) :
    (advanceFrames nowMs frames r).unseen = r.unseen := by
  refine (advanceFrames_invariant (P := fun r' => Lawful p q r' ∧ (r'.phase = .playing → r'.unseen = r.unseen))
    (fun r' hr' hplaying => ?_) ⟨h, fun _ => rfl⟩ frames).2 hphase
  refine ⟨hr'.1.nextFrame hplaying, fun hnext => ?_⟩
  rw [unseen_nextFrame hr'.1 hnext, hr'.2 hplaying]

/-- **A call that keeps the phase.** -/
theorem Attended.unseen_call (h : Attended p q r) (hpq : p ≠ q) (c : Call)
    (hphase : (r.call c).phase = r.phase) : (r.call c).unseen = r.unseen := by
  generalize hcall : r.call c = r' at hphase
  have heffect := effect_call r c
  rw [hcall] at heffect
  clear hcall
  cases heffect with
  | idle => rfl
  | started hunfinished hnew =>
    rcases h.lawful.not_playing hunfinished hnew with hp | hp <;> cases hphase.trans hp
  | joined hunfinished hnew hmissing =>
    rcases h.lawful.not_playing hunfinished hnew with hp | hp
    · rw [pushSnapshot_phase, if_pos hp, hp] at hphase
      cases hphase
    · obtain ⟨s, hs, hvacant⟩ := hmissing
      cases hvacant.symm.trans (h.all_join hpq hp hnew s hs)
  | @attacked playerId => exact unseen_updateSeat (f := Seat.attack) (fun _ => rfl) playerId
  | @wentOnline playerId => exact unseen_updateSeat (f := Seat.goOnline) (fun _ => rfl) playerId
  | @wentOffline playerId nowMs =>
    exact unseen_updateSeat (f := Seat.goOffline nowMs) (fun _ => rfl) playerId
  | expired hearly =>
    rcases hearly with hp | hp <;> cases hphase.trans hp
  | disconnected hplaying => cases hphase.trans hplaying
  | deserted hplaying => cases hphase.trans hplaying
  | advanced hplaying honline frames lastTickMs =>
    have hstart : Lawful p q { r with lastTickMs := lastTickMs } := { h.lawful with }
    exact unseen_advanceFrames hstart frames (hphase.trans hplaying)
  | persisted hfinishing => cases hphase.trans hfinishing
  | aborted hunfinished => exact absurd hphase.symm (RoomPhase.ne_of_unfinished hunfinished rfl)

theorem Attended.onward_call (h : Attended p q r) (hpq : p ≠ q) (c : Call) : r.Onward (r.call c) := by
  rcases h.lawful.moves c with hphase | hmoves
  · exact .inr ⟨hphase, h.unseen_call hpq c hphase⟩
  · exact .inl hmoves.rank_lt

theorem Attended.call (h : Attended p q r) (c : Call) : Attended p q (r.call c) where
  lawful := h.lawful.call c
  waiting := by
    have hthere : ∀ {f : Seat → Seat} {playerId : String},
        (∀ s, (f s).player.connected = s.player.connected) → r.phase = .waiting →
          ∃ s ∈ updateSeat playerId f r.seats, s.player.connected = true := by
      intro f playerId hf hphase
      obtain ⟨s, hs, hconnected⟩ := h.waiting hphase
      have hmem : true ∈ (updateSeat playerId f r.seats).map (·.player.connected) := by
        rw [map_updateSeat hf]
        exact List.mem_map.mpr ⟨s, hs, hconnected⟩
      exact List.mem_map.mp hmem
    generalize hcall : r.call c = r'
    have heffect := effect_call r c
    rw [hcall] at heffect
    clear hcall
    cases heffect with
    | idle => exact h.waiting
    | @joined playerId nowMs hunfinished hnew =>
      obtain ⟨s, hs, hid, -⟩ := hnew
      obtain ⟨s', hjoined⟩ := exists_mem_updateSeat Seat.join hs hid
      exact fun _ => ⟨s'.join, hjoined, rfl⟩
    | attacked => exact hthere fun _ => rfl
    | wentOnline => exact hthere fun _ => rfl
    | wentOffline => exact hthere fun _ => rfl
    | advanced hplaying honline frames lastTickMs =>
      intro hphase
      have hplaying' : BattleRoom.phase { r with lastTickMs := lastTickMs } = .playing := hplaying
      rcases advanceFrames_phase _ hplaying' frames with hp | ⟨hp, -⟩ <;> cases hp.symm.trans hphase
    | started | expired | disconnected | deserted | persisted | aborted => rintro ⟨⟩

/-! ## Runs

The phase only goes on, so between two states of one phase there is no change of it. -/

/-- An operation of the room; unlike the calls of `RoomManager`, `Abort` comes at any time. -/
inductive Operation
  | op (op : Op)
  | markResultPersisted
  | abort (nowMs : Int)
  deriving DecidableEq, Repr

def operate (r : BattleRoom) : Operation → BattleRoom
  | .op op => r.apply op
  | .markResultPersisted => r.markResultPersisted
  | .abort nowMs => r.abort nowMs

/-- One operation after the other. -/
def operations (r : BattleRoom) (ops : List Operation) : BattleRoom := ops.foldl operate r

/-- A room that is aborted is not aborted again. -/
def AbortsOnce (r : BattleRoom) : Operation → Prop
  | .abort _ => r.phase ≠ .aborted
  | _ => True

instance : ∀ (r : BattleRoom) (o : Operation), Decidable (AbortsOnce r o)
  | r, .abort _ => inferInstanceAs (Decidable (r.phase ≠ .aborted))
  | _, .op _ | _, .markResultPersisted => .isTrue trivial

theorem Attended.abort (h : Attended p q r) : Attended p q (r.abort nowMs) where
  lawful := h.lawful.abort
  waiting := by rintro ⟨⟩

theorem Attended.operate (h : Attended p q r) (o : Operation) : Attended p q (r.operate o) := by
  cases o with
  | op op => exact h.call (.op op)
  | markResultPersisted => exact h.call .markResultPersisted
  | abort nowMs => exact h.abort

theorem Attended.onward_operate (h : Attended p q r) (hpq : p ≠ q) {o : Operation} (ho : r.AbortsOnce o) :
    r.Onward (r.operate o) := by
  cases o with
  | op op => exact h.onward_call hpq (.op op)
  | markResultPersisted => exact h.onward_call hpq .markResultPersisted
  | abort nowMs => exact .inl (RoomPhase.rank_lt_aborted ho)

/-- **A run of operations.** -/
theorem Attended.onward_operations (h : Attended p q r) (hpq : p ≠ q) {ops : List Operation}
    (hops : Run.Guarded AbortsOnce BattleRoom.operate r ops) : r.Onward (r.operations ops) := by
  induction ops generalizing r with
  | nil => exact .refl r
  | cons o ops ih => exact (h.onward_operate hpq hops.1).trans (ih (h.operate o) hops.2)

theorem Attended.operations (h : Attended p q r) (ops : List Operation) : Attended p q (r.operations ops) := by
  induction ops generalizing r with
  | nil => exact h
  | cons o ops ih => exact ih (h.operate o)

theorem operations_ids (r : BattleRoom) (ops : List Operation) :
    (r.operations ops).roomId = r.roomId ∧ (r.operations ops).matchId = r.matchId := by
  induction ops generalizing r with
  | nil => exact ⟨rfl, rfl⟩
  | cons o ops ih =>
    have hone : (r.operate o).roomId = r.roomId ∧ (r.operate o).matchId = r.matchId := by
      cases o with
      | op op => exact RoomSystem.call_ids r (.op op)
      | markResultPersisted => exact RoomSystem.call_ids r .markResultPersisted
      | abort nowMs => exact ⟨rfl, rfl⟩
    exact ⟨(ih (r.operate o)).1.trans hone.1, (ih (r.operate o)).2.trans hone.2⟩

/-- Two moments of a run in one phase show the same, but for the frame, the hit points and the
connections. -/
theorem unseen_operations (roomId matchId : String) (hpq : p ≠ q) (createdAtMs : Int) {ops : List Operation}
    (hops : Run.Guarded AbortsOnce operate (.new roomId matchId [p, q] createdAtMs) ops)
    {pre pre' : List Operation} (hpre : pre <+: pre') (hpre' : pre' <+: ops)
    (hphase : ((new roomId matchId [p, q] createdAtMs).operations pre).phase =
      ((new roomId matchId [p, q] createdAtMs).operations pre').phase) :
    ((new roomId matchId [p, q] createdAtMs).operations pre).unseen =
      ((new roomId matchId [p, q] createdAtMs).operations pre').unseen := by
  obtain ⟨mid, rfl⟩ := hpre
  obtain ⟨post, rfl⟩ := hpre'
  have hmid := (Run.guarded_append.mp (Run.guarded_append.mp hops).1).2
  have hattended := (Attended.new (p := p) (q := q) roomId matchId createdAtMs).operations pre
  have honward := hattended.onward_operations hpq hmid
  have hrun : (new roomId matchId [p, q] createdAtMs).operations (pre ++ mid) =
      ((new roomId matchId [p, q] createdAtMs).operations pre).operations mid := List.foldl_append
  rw [hrun] at hphase ⊢
  rcases honward with hlt | ⟨-, hunseen⟩
  · exact absurd (congrArg RoomPhase.rank hphase) (Nat.ne_of_lt hlt)
  · exact hunseen.symm

end BattleRoom

end RealtimeGame.Room
