import RealtimeGame.Match.CancelLaws

/-!
# Match/Reentry — whoever has entered is listed until his time is over

An `Enqueue` that is accepted lists its player, as waiting or with a result, and no other call takes him
off the list in time (`listed_of_accepted`).  Two things can: a result may be kept for a shorter time
than a player may wait, and a cancellation that is pending when its player enters again is not taken
back (`not_notLost`).
-/

open Library

namespace RealtimeGame.Match

variable {c : MatchConfig} {p : String}

/-- The player whom an action cancels. -/
def Action.cancels : Action → Option String
  | .cancel playerId _ => some playerId
  | _ => none

namespace MatchSystem

variable {s t : MatchSystem} {a : Action} {nowMs : Int}

/-- A step without a call of the player, whose sweep is in time. -/
def Quiet (c : MatchConfig) (p : String) (inTime : MatchSystem → Int → Prop) (s : MatchSystem)
    (a : Action) : Prop :=
  a.serves = true ∧ s.enters a ≠ some p ∧ a.cancels ≠ some p ∧ ∀ nowMs ∈ s.sweeps c a, inTime s nowMs

instance {inTime : MatchSystem → Int → Prop} [∀ s nowMs, Decidable (inTime s nowMs)] :
    Decidable (Quiet c p inTime s a) :=
  inferInstanceAs (Decidable (_ ∧ _ ∧ _ ∧ ∀ nowMs ∈ s.sweeps c a, inTime s nowMs))

/-- The `Enqueue` of the player that an action runs has this outcome. -/
def Answers (c : MatchConfig) (s : MatchSystem) (a : Action) (p : String) (outcome : EnqueueOutcome) :
    Prop :=
  ∃ requestId nowMs, s.resumed a = some (.enqueue p requestId nowMs) ∧
    (s.queue.enqueueLocked c nowMs p requestId).1 = outcome

/-- `GetStatus` finds the player waiting, or with a result. -/
def Listed (c : MatchConfig) (s : MatchSystem) (p : String) (nowMs : Int) : Prop :=
  (s.status c p nowMs).state = .queued ∨ (s.status c p nowMs).state = .matched

instance : Decidable (Listed c s p nowMs) := inferInstanceAs (Decidable (_ ∨ _))

/-! ## The promise, and two ways in which it is broken

Listed until the time to wait is over, counted from the call that was accepted. -/

/-- Whoever was accepted, and calls no more, is listed for as long as a player may wait. -/
def NotLost (c : MatchConfig) : Prop :=
  ∀ as s a p e bs t nowMs, Run (Serving c) {} as s →
    Answers c s a p .queued ∨ Answers c s a p .alreadyQueued →
    (s.next c a).queue.entries.lookup p = some e →
    Run (fun s a s' => Quiet c p (fun _ nowMs => nowMs - e.queuedAtMs < c.matchTimeoutMs) s a ∧
      s' = s.next c a) (s.next c a) bs t →
    nowMs - e.queuedAtMs < c.matchTimeoutMs → Listed c t p nowMs

/-- Results are kept for three seconds only. -/
def shortTtl : MatchConfig := { matchTimeoutMs := 30000, resultTtlMs := 3000 }

/-- Alice leaves while her room is being allocated, and enters again. -/
def reentered : List Action :=
  takenPair ++ [.cancel "alice" 1200, .enqueue "alice" "q-3" 1300]

/-- **The promise is broken** — with a result that is kept for a shorter time than its player may wait; and,
in the default configuration, by a cancellation that the commit carries out although its player has
entered again. -/
theorem not_notLost : ¬NotLost shortTtl ∧ ¬NotLost {} := by
  constructor
  · intro h
    have hbefore : Run.Guarded (fun _ a => a.serves = true) (next shortTtl) {}
        (matchedPair.take 1) := by decide
    have hafter : Run.Guarded (Quiet shortTtl "alice"
        fun _ nowMs => nowMs - (1000 : Int) < shortTtl.matchTimeoutMs) (next shortTtl)
        ((matchedPair.take 2).foldl (next shortTtl) {}) (matchedPair.drop 2) := by decide
    have hlisted := h (matchedPair.take 1) _ (.resume 0 {}) "alice"
      { state := .queued, requestId := "q-1", queuedAtMs := 1000, stampMs := 1000 }
      (matchedPair.drop 2) _ 5000 (Run.of_guarded hbefore) (.inl ⟨"q-1", 1000, rfl, rfl⟩) rfl
      (Run.of_guarded hafter) (by decide)
    exact absurd hlisted (by decide)
  · intro h
    have hbefore : Run.Guarded (fun _ a => a.serves = true) (next {}) {} reentered := by decide
    have hafter : Run.Guarded (Quiet {} "alice"
        fun _ nowMs => nowMs - (1000 : Int) < ({} : MatchConfig).matchTimeoutMs) (next {})
        ((reentered ++ [Action.resume 3 {}]).foldl (next {}) {})
        [.resume 1 ⟨[], "r-1", true, 0⟩, .resume 1 {}] := by decide
    have hlisted := h reentered _ (.resume 3 {}) "alice"
      { state := .queued, requestId := "q-1", matchId := "m-1", playerIds := ["alice", "bob"],
        queuedAtMs := 1000, stampMs := 1000, allocating := true, cancelRequested := true }
      [.resume 1 ⟨[], "r-1", true, 0⟩, .resume 1 {}] _ 1400 (Run.of_guarded hbefore)
      (.inr ⟨"q-3", 1300, rfl, rfl⟩) rfl (Run.of_guarded hafter) (by decide)
    exact absurd hlisted (by decide)

/-! ## What is kept

As long as neither of the two happens, the entry stays or is replaced by one that is listed. -/

/-- The entry of the player is there, and no commit is going to remove it. -/
def Stays (s : MatchSystem) (p : String) : Prop :=
  ∃ e, s.queue.entries.lookup p = some e ∧
    (e.state = .queued ∧ e.cancelRequested = false ∨ e.state = .matched)

/-- The limit that counts for the player has not passed: for the result if there is one, else for
waiting. -/
def InTime (c : MatchConfig) (p : String) (s : MatchSystem) (nowMs : Int) : Prop :=
  ∀ e, s.queue.entries.lookup p = some e →
    (e.state = .queued → nowMs - e.queuedAtMs < c.matchTimeoutMs) ∧
    (e.state = .matched → nowMs - e.stampMs < c.resultTtlMs)

instance : Decidable (InTime c p s nowMs) :=
  match h : s.queue.entries.lookup p with
  | none => .isTrue fun _ he => by cases h.symm.trans he
  | some e => decidable_of_iff ((e.state = .queued → nowMs - e.queuedAtMs < c.matchTimeoutMs) ∧
      (e.state = .matched → nowMs - e.stampMs < c.resultTtlMs))
      ⟨fun hin _ he => Option.some.inj (h.symm.trans he) ▸ hin, fun hin => hin e h⟩

/-- A sweep in time spares the player. -/
theorem Stays.swept (h : s.Stays p) (hin : InTime c p s nowMs) :
    ∃ e, (s.queue.entries.lookup p).bind (Entry.swept c nowMs) = some e ∧
      (e.state = .queued ∧ e.cancelRequested = false ∨ e.state = .matched) := by
  obtain ⟨e, he, hs⟩ := h
  obtain ⟨hwait, hkept⟩ := hin e he
  refine ⟨e, ?_, hs⟩
  rw [he, Option.bind_some]
  rcases hs with ⟨hq, -⟩ | hm
  · exact Entry.swept_of_queued hq (not_le.mpr (hwait hq))
  · rw [Entry.swept_of_matched hm, if_neg (not_le.mpr (hkept hm))]

/-- **Whoever stays is not lost** in a step that is no call of his and in time. -/
theorem Stays.next (h : s.Stays p) (hsound : Sound s) (hquiet : Quiet c p (InTime c p) s a) :
    (s.next c a).Stays p := by
  obtain ⟨hserves, henters, hcancels, hsweeps⟩ := hquiet
  obtain ⟨e, he, hs⟩ := h
  have hstep := entry_next (c := c) hsound a p
  rw [Stays]
  generalize (s.next c a).queue.entries.lookup p = after at hstep
  cases hstep with
  | same => exact ⟨e, he, hs⟩
  | swept nowMs hnow => exact Stays.swept ⟨e, he, hs⟩ (hsweeps nowMs hnow)
  | entered requestId nowMs henters' => exact absurd henters' henters
  | cancelled nowMs ha =>
    subst ha
    exact absurd rfl hcancels
  | taken _ g hg hp x hx hq =>
    obtain rfl := Option.some.inj (he.symm.trans hx)
    exact ⟨_, rfl, hs⟩
  | committed _ g roomId nowMs hcommits hp x hx hq =>
    obtain rfl := Option.some.inj (he.symm.trans hx)
    have hstays : e.cancelRequested = false :=
      (hs.resolve_right fun hm => by cases hq.symm.trans hm).2
    rcases s.queue.groupViable g roomId with - | -
    · exact ⟨e.release, by simp [hstays], .inl ⟨hq, hstays⟩⟩
    · exact ⟨e.settle roomId g.playerIds nowMs, rfl, .inr rfl⟩
  | restored rows nowMs ha hnone => cases hnone.symm.trans he

theorem Stays.listed (h : s.Stays p) (hsound : Sound s) (hin : InTime c p s nowMs) :
    Listed c s p nowMs := by
  obtain ⟨e, he, hs⟩ := h.swept hin
  have hstatus : s.status c p nowMs = (s.queue.sweep c nowMs).2.statusSnapshot p := rfl
  rw [Listed, hstatus, MatchQueue.statusSnapshot, hsound.placed.lookup_sweep, he]
  exact hs.imp And.left id

/-- **Entering** lists the player, unless a cancellation is pending. -/
theorem stays_of_answers (hsound : Sound s) (hanswers : Answers c s a p .queued ∨
      Answers c s a p .alreadyQueued ∧
        ∀ e, s.queue.entries.lookup p = some e → e.cancelRequested = false) :
    (s.next c a).Stays p := by
  rcases hanswers with ⟨requestId, nowMs, hresumed, hout⟩ |
    ⟨⟨requestId, nowMs, hresumed, hout⟩, hpending⟩
  all_goals
    obtain ⟨answer, hnext⟩ := queue_next_of_resumed (c := c) hresumed
    rw [Stays, hnext, Pc.resume]
    rcases hsound.placed.enqueueLocked_cases c nowMs p requestId with
      ⟨hq, e, he⟩ | ⟨ha, e, hswept, hs, he⟩ | ⟨hfull, -⟩
  case inr.inr.inl =>
    -- The player is there already, as before.
    refine ⟨e, he, hs.imp_left fun hq => ⟨hq, ?_⟩⟩
    obtain ⟨x, hx, hswept⟩ := Option.bind_eq_some_iff.mp hswept
    rcases Entry.of_swept hswept with rfl | ⟨rfl, -⟩
    · exact hpending _ hx
    · cases hq
  case inl.inl => exact ⟨_, he, .inl ⟨rfl, rfl⟩⟩
  case inl.inr.inl => cases hout.symm.trans ha
  case inr.inl => cases hout.symm.trans hq
  all_goals cases hout.symm.trans hfull

/-- **Nobody is lost** — whoever was accepted without a cancellation pending, and calls no more, is waiting
or has a result until the limit that counts for him has passed. -/
theorem listed_of_answers {G : MatchSystem → Action → Prop} (h : Reached G c s)
    (hanswers : Answers c s a p .queued ∨ Answers c s a p .alreadyQueued ∧
      ∀ e, s.queue.entries.lookup p = some e → e.cancelRequested = false)
    {bs : List Action} (hrun : Run (fun s a s' => Quiet c p (InTime c p) s a ∧ s' = s.next c a)
      (s.next c a) bs t) (hin : InTime c p t nowMs) : Listed c t p nowMs := by
  have hstep : ∀ m b m', Sound m ∧ m.Stays p → Quiet c p (InTime c p) m b ∧ m' = m.next c b →
      Sound m' ∧ m'.Stays p := by
    rintro m b m' ⟨hsound, hstays⟩ ⟨hquiet, rfl⟩
    exact ⟨hsound.next b, hstays.next hsound hquiet⟩
  obtain ⟨hsound, hstays⟩ :=
    hrun.invariant hstep ⟨h.sound.next a, stays_of_answers h.sound hanswers⟩
  exact hstays.listed hsound hin

/-- Alice is matched with Bob, and asks for the result. -/
theorem listed_of_answers_matchedPair : Listed {} pairMatched "alice" 2000 :=
  have hbefore : Run.Guarded (fun s a => a.serves = true ∧ Fresh s a) (next {}) {}
      (matchedPair.take 1) := by decide
  have hafter : Run.Guarded (Quiet {} "alice" (InTime {} "alice")) (next {})
      ((matchedPair.take 2).foldl (next {}) {}) (matchedPair.drop 2) := by decide
  have hin : InTime {} "alice" pairMatched 2000 := by decide
  listed_of_answers (.of_guarded (.start {}) hbefore) (.inl ⟨"q-1", 1000, rfl, rfl⟩)
    (Run.of_guarded hafter) hin

end MatchSystem

end RealtimeGame.Match
