import RealtimeGame.Match.Agreement

/-!
# Match/CancelLaws — a cancellation that was answered is final

While a room is being allocated, `Cancel` only notes that the player wants to leave.  Until the player
enters again he is away (`Away`): without an entry, or with one that the commit is going to remove.  The
groups that he was in never get a result, even after he has entered again (`cancel_sound`).
-/

open Library

namespace RealtimeGame.Match

open MatchQueue (record)

variable {c : MatchConfig} {p : String}

namespace MatchSystem

variable {s t : MatchSystem} {a : Action} {g : PendingGroup} {nowMs : Int}

/-- One step in service. -/
def Serving (c : MatchConfig) (s : MatchSystem) (a : Action) (s' : MatchSystem) : Prop :=
  a.serves = true ∧ s' = s.next c a

/-! ## Where a cancellation is noted

A note is made only in an entry whose player is in flight. -/

/-- A cancellation is noted during an allocation only. -/
def NotedOnly (s : MatchSystem) : Prop :=
  ∀ p e, s.queue.entries.lookup p = some e → e.cancelRequested = true → e.allocating = true

theorem NotedOnly.next (hnoted : s.NotedOnly) (h : Sound s) (hserves : a.serves = true) :
    (s.next c a).NotedOnly := by
  intro p e' he' hcancel
  have hstep := entry_next (c := c) h a p
  rw [he'] at hstep
  obtain ⟨after, hafter⟩ : ∃ after, some e' = after := ⟨_, rfl⟩
  rw [hafter] at hstep
  generalize hbefore : s.queue.entries.lookup p = before at hstep
  cases hstep with
  | same => exact hnoted p e' (hbefore.trans hafter.symm) hcancel
  | swept nowMs =>
    obtain ⟨x, hx, hswept⟩ := Option.bind_eq_some_iff.mp hafter.symm
    rcases Entry.of_swept hswept with rfl | ⟨rfl, -⟩
    · exact hnoted p _ (hbefore.trans hx) hcancel
    · exact hnoted p x (hbefore.trans hx) hcancel
  | entered =>
    cases hafter
    cases hcancel
  | cancelled nowMs ha x =>
    split at hafter
    case isTrue hallocating =>
      cases hafter
      exact hallocating
    case isFalse => cases hafter
  | taken =>
    cases hafter
    rfl
  | committed hsweeps g roomId nowMs hcommits hp x hx =>
    split at hafter
    case isTrue hviable =>
      cases hafter
      have hmem : p ∈ s.queue.members g true :=
        MatchQueue.mem_members.mpr ⟨hp, x, hbefore.trans hx, hcancel⟩
      exact absurd hmem (MatchQueue.not_mem_of_groupViable hviable)
    case isFalse =>
      split at hafter
      · cases hafter
      case isFalse hstays =>
        cases hafter
        exact absurd hcancel hstays
  | restored rows nowMs ha =>
    subst ha
    cases hserves

/-- What holds of the entries that a restart makes, and after they time out, holds of all entries then. -/
theorem of_restored {P : Entry → Prop}
    (hqueued : ∀ queuedAtMs, P { state := .queued, queuedAtMs := queuedAtMs, stampMs := queuedAtMs })
    (hmatched : ∀ matchId roomId playerIds stampMs, P
      { state := .matched, matchId := matchId, roomId := roomId, playerIds := playerIds, stampMs := stampMs })
    (hexpire : ∀ e nowMs, P e → e.state = .queued → P (e.expire nowMs)) (c : MatchConfig) (nowMs : Int)
    (rows : List MatchQueueSnapshotRow) : ∀ p e,
      (MatchSystem.next c {} (.restore (some rows) nowMs)).queue.entries.lookup p = some e → P e := by
  intro p e he
  rw [MatchSystem.next] at he
  split at he
  case isFalse => cases he
  have hrows : ∀ report, ∀ p e, (({} : MatchQueue).restoreRows c nowMs rows report).2.entries.lookup p =
      some e → P e := by
    intro report
    refine List.foldlRecOn (motive := fun acc : MatchRestoreReport × MatchQueue =>
      ∀ p e, acc.2.entries.lookup p = some e → P e) _ _
      (List.foldlRecOn (motive := fun acc : MatchRestoreReport × MatchQueue =>
        ∀ p e, acc.2.entries.lookup p = some e → P e) _ _ (fun _ _ h => by cases h)
        fun acc hacc row _ => ?_) fun acc hacc row _ => ?_
    · unfold MatchQueue.restoreQueued
      split
      · exact hacc
      · split
        · exact hacc
        · intro p e he
          dsimp only at he
          rw [Table.lookup_insert'] at he
          split at he
          · cases he
            exact hqueued _
          · exact hacc p e he
    · unfold MatchQueue.restoreMatched
      split
      · exact hacc
      · split
        · exact hacc
        · intro p e he
          dsimp only at he
          rw [MatchQueue.lookup_foldl_restorePlayer, Option.or_eq_some_iff] at he
          rcases he with hold | ⟨-, hnew⟩
          · exact hacc p e hold
          · split at hnew
            · cases hnew
              exact hmatched _ _ _ _
            · cases hnew
  rw [Placed.start.lookup_restoreLocked] at he
  obtain ⟨x, hx, hswept⟩ := Option.bind_eq_some_iff.mp he
  rcases Entry.of_swept hswept with rfl | ⟨rfl, hs, -⟩
  · exact hrows _ p _ hx
  · exact hexpire x nowMs (hrows _ p x hx) hs

theorem NotedOnly.restored (c : MatchConfig) (nowMs : Int) (rows : List MatchQueueSnapshotRow) :
    (MatchSystem.next c {} (.restore (some rows) nowMs)).NotedOnly := by
  intro p e he hcancel
  have hnever : e.cancelRequested = false :=
    of_restored (P := fun e => e.cancelRequested = false) (fun _ => rfl) (fun _ _ _ _ => rfl)
      (fun _ _ h _ => h) c nowMs rows p e he
  cases hcancel.symm.trans hnever

theorem Reached.notedOnly {G : MatchSystem → Action → Prop} (h : Reached G c s) : s.NotedOnly := by
  induction h with
  | start c => exact fun _ _ he => by cases he
  | restored h c nowMs hrows ih => exact .restored c nowMs _
  | step h hserves hG ih => exact ih.next h.sound hserves

/-! ## Whoever has left

As long as a player does not enter again, no action brings him back. -/

/-- The player has no entry, or one that the next commit removes. -/
def Away (s : MatchSystem) (p : String) : Prop :=
  ∀ e, s.queue.entries.lookup p = some e →
    e.state = .queued ∧ e.allocating = true ∧ e.cancelRequested = true

/-- **Whoever is away stays away** until he enters. -/
theorem Away.next (haway : s.Away p) (h : Sound s) (hserves : a.serves = true)
    (henters : s.enters a ≠ some p) : (s.next c a).Away p := by
  intro e' he'
  have hstep := entry_next (c := c) h a p
  rw [he'] at hstep
  obtain ⟨after, hafter⟩ : ∃ after, some e' = after := ⟨_, rfl⟩
  rw [hafter] at hstep
  have hswept : ∀ nowMs x, (s.queue.entries.lookup p).bind (Entry.swept c nowMs) = some x →
      s.queue.entries.lookup p = some x := by
    intro nowMs x hx
    obtain ⟨y, hy, hyx⟩ := Option.bind_eq_some_iff.mp hx
    rw [Entry.swept_of_allocating (haway y hy).1 (haway y hy).2.1] at hyx
    rw [hy, hyx]
  generalize hbefore : s.queue.entries.lookup p = before at hstep
  cases hstep with
  | same => exact haway e' (hbefore.trans hafter.symm)
  | swept nowMs =>
    rw [← hbefore] at hafter
    exact haway e' (hswept nowMs e' hafter.symm)
  | entered requestId nowMs henters' => exact absurd henters' henters
  | cancelled nowMs ha x hx =>
    rw [← hbefore] at hx
    obtain ⟨hs, hallocating, -⟩ := haway x (hswept nowMs x hx)
    rw [if_pos hallocating] at hafter
    cases hafter
    exact ⟨hs, hallocating, rfl⟩
  | taken hsweeps g hg hp x hx hs ha => cases ha.symm.trans (haway x (hbefore.trans hx)).2.1
  | committed hsweeps g roomId nowMs hcommits hp x hx =>
    -- With a member who wants to leave, the group gets no room.
    have hcancel := (haway x (hbefore.trans hx)).2.2
    have hviable : s.queue.groupViable g roomId ≠ true := fun hviable =>
      MatchQueue.not_mem_of_groupViable hviable
        (MatchQueue.mem_members.mpr ⟨hp, x, hbefore.trans hx, hcancel⟩)
    rw [if_neg hviable, if_pos hcancel] at hafter
    cases hafter
  | restored rows nowMs ha =>
    subst ha
    cases hserves

theorem Away.not_queued (haway : s.Away p) (h : Sound s) (queuedAtMs : Int) :
    MatchQueueEntry.queued p queuedAtMs ∉ s.queue.makeSnapshot.queued := by
  intro hmem
  obtain ⟨p', e, heq, he, -, hin⟩ := MatchQueue.mem_queued_makeSnapshot.mp hmem
  cases heq
  obtain ⟨-, ha, hc⟩ := haway e he
  rcases hin with hqueue | ⟨-, hstays⟩
  · obtain ⟨e', he', -, ha', -⟩ := h.placed.of_mem hqueue
    obtain rfl := Option.some.inj (he.symm.trans he')
    cases ha.symm.trans ha'
  · cases hc.symm.trans hstays

/-- Whoever is away is in no result. -/
theorem Away.not_matched (haway : s.Away p) (h : Agreed s) {p' : String} {e : Entry}
    (he : s.queue.entries.lookup p' = some e) (hs : e.state = .matched) : p ∉ e.playerIds := by
  intro hp
  obtain ⟨e', he', hs', -⟩ := (h.result p' e he hs).2.2 p hp
  cases hs'.symm.trans (haway e' he').1

/-! ## Groups that are formed later

Groups that get a result after a cancellation either do not have the player, or were taken after he came
back. -/

/-- A step of the run forms the group. -/
def FormedIn (c : MatchConfig) (s : MatchSystem) (as : List Action) (g : PendingGroup) : Prop :=
  ∃ pre a post m, as = pre ++ a :: post ∧ Run (Serving c) s pre m ∧ g ∈ m.taken a

theorem FormedIn.snoc {as : List Action} (h : FormedIn c s as g) (a : Action) :
    FormedIn c s (as ++ [a]) g := by
  obtain ⟨pre, b, post, m, rfl, hpre, hg⟩ := h
  exact ⟨pre, b, post ++ [a], m, by simp, hpre, hg⟩

/-- The groups with the player were formed in the run, or are going to fail. -/
structure Formed (c : MatchConfig) (s : MatchSystem) (p : String) (as : List Action) (t : MatchSystem) :
    Prop where
  agreed : Agreed t
  flight : ∀ g ∈ t.inFlight, p ∈ g.playerIds → FormedIn c s as g ∨
    ∀ e, t.queue.entries.lookup p = some e → e.cancelRequested = true
  result : ∀ p' e, t.queue.entries.lookup p' = some e → e.state = .matched → p ∈ e.playerIds →
    ∃ g, FormedIn c s as g ∧ g.matchId = e.matchId ∧ g.playerIds = e.playerIds

theorem Formed.start (h : Agreed s) (haway : s.Away p) : Formed c s p [] s where
  agreed := h
  flight _ _ _ := .inr fun e he => (haway e he).2.2
  result _ _ he hs hp := absurd hp (haway.not_matched h he hs)

theorem Formed.step {as : List Action} (h : Formed c s p as t) (hrun : Run (Serving c) s as t)
    (hserves : a.serves = true) : Formed c s p (as ++ [a]) (t.next c a) where
  agreed := h.agreed.next hserves
  flight g hg hp := by
    rcases mem_inFlight_next hg with hold | htaken
    · refine (h.flight g hold hp).imp (·.snoc a) fun hcancel e he => ?_
      obtain ⟨x, hx, hsame | hnoted⟩ := entry_inFlight_next (c := c) h.agreed.sound hold hp hg hp
      · obtain rfl := Option.some.inj (he.symm.trans hsame)
        exact hcancel _ hx
      · obtain rfl := Option.some.inj (he.symm.trans hnoted)
        rfl
    · exact .inl ⟨as, a, [], t, rfl, hrun, htaken⟩
  result p' e he hs hp := by
    rcases matched_of_next h.agreed.sound he hs with ⟨hold, -⟩ |
      ⟨g, roomId, nowMs, x, hcommits, hviable, hp', hx, rfl⟩ | ⟨rows, nowMs, rfl⟩
    · obtain ⟨g, hformed, hgroup⟩ := h.result p' e hold hs hp
      exact ⟨g, hformed.snoc a, hgroup⟩
    · have hg := mem_inFlight_of_commits hcommits
      rcases h.flight g hg hp with hformed | hcancel
      · exact ⟨g, hformed.snoc a, (h.agreed.noted g hg p' hp' x hx).symm, rfl⟩
      · obtain ⟨y, hy, -⟩ := h.agreed.sound.of_mem_inFlight hg hp
        have hmem : p ∈ t.queue.members g true := MatchQueue.mem_members.mpr ⟨hp, y, hy, hcancel y hy⟩
        exact absurd hmem (MatchQueue.not_mem_of_groupViable hviable)
    · cases hserves

/-! ## The answer of `Cancel`

An accepted cancellation leaves the player away. -/

theorem away_of_cancel (h : Sound s) (htrue : (s.queue.cancelLocked c nowMs p).1 = true) :
    (s.next c (.cancel p nowMs)).Away p := by
  have hnext : (s.next c (.cancel p nowMs)).queue = (s.queue.cancelLocked c nowMs p).2.2 := rfl
  rcases h.placed.cancelLocked_cases c nowMs p with ⟨-, e, -, hs, heq⟩ | ⟨hfalse, -⟩
  · intro e' he'
    rw [hnext, heq] at he'
    split at he'
    case isTrue ha =>
      cases he'
      exact ⟨hs, ha, rfl⟩
    case isFalse => cases he'
  · cases htrue.symm.trans hfalse

/-- Who is not to be cancelled waits nowhere. -/
theorem free_of_cancel (h : Sound s) (hfalse : (s.queue.cancelLocked c nowMs p).1 = false) :
    p ∉ (s.queue.sweep c nowMs).2.queue ∧ ∀ g ∈ s.inFlight, p ∉ g.playerIds := by
  rcases h.placed.cancelLocked_cases c nowMs p with ⟨htrue, -⟩ | ⟨-, hfree⟩
  · cases htrue.symm.trans hfalse
  rw [← h.placed.lookup_sweep] at hfree
  refine ⟨fun hmem => ?_, fun g hg hp => ?_⟩
  · obtain ⟨e, he, hs, -⟩ := h.placed.sweep.of_mem hmem
    exact hfree e he hs
  · obtain ⟨e, he, hs, ha, -⟩ := h.of_mem_inFlight hg hp
    refine hfree e ?_ hs
    rw [h.placed.lookup_sweep, he]
    exact Entry.swept_of_allocating hs ha

/-- A result that is reported was there before. -/
theorem matched_of_status (h : Sound s) (hmatched : (s.status c p nowMs).state = .matched) :
    ∃ e, s.queue.entries.lookup p = some e ∧ e.state = .matched ∧
      e.matchId = (s.status c p nowMs).matchId ∧ e.playerIds = (s.status c p nowMs).playerIds := by
  obtain ⟨e, he, hs, hrecord⟩ := entry_of_status hmatched
  obtain ⟨hid, -, hplayers, -⟩ := MatchQueueEntry.matched.inj hrecord
  rcases matched_of_next h he hs with ⟨hold, -⟩ | ⟨g, roomId, at', x, hcommits, -⟩ | ⟨rows, at', heq⟩
  · exact ⟨e, hold, hs, hid, hplayers⟩
  · cases hcommits
  · cases heq

/-- **The player stays out** — from here on, a result with the player is of a group that is formed later;
and until the player enters again there is none at all, and no snapshot has him. -/
def StaysOut (c : MatchConfig) (s : MatchSystem) (p : String) : Prop :=
  ∀ as t, Run (Serving c) s as t →
    (∀ p' nowMs, (t.status c p' nowMs).state = .matched → p ∈ (t.status c p' nowMs).playerIds →
      ∃ g, FormedIn c s as g ∧ g.matchId = (t.status c p' nowMs).matchId ∧
        g.playerIds = (t.status c p' nowMs).playerIds) ∧
    ((∀ pre a post m, as = pre ++ a :: post → Run (Serving c) s pre m → m.enters a ≠ some p) →
      (∀ nowMs, (t.status c p nowMs).state ≠ .matched) ∧
      (∀ p' nowMs, (t.status c p' nowMs).state = .matched →
        p ∉ (t.status c p' nowMs).playerIds) ∧
      ∀ queuedAtMs, .queued p queuedAtMs ∉ t.queue.makeSnapshot.queued)

theorem staysOut (h : Agreed s) (haway : s.Away p) : StaysOut c s p := by
  intro as t hrun
  have hformed : Formed c s p as t := by
    refine hrun.invariant_of_history (fun as m a t hpre hm hstep => ?_) (.start h haway)
    obtain ⟨hserves, rfl⟩ := hstep
    exact hm.step hpre hserves
  have hsound := hformed.agreed.sound
  refine ⟨fun p' nowMs hmatched hp => ?_, fun hout => ?_⟩
  · obtain ⟨e, he, hs, hid, hplayers⟩ := matched_of_status hsound hmatched
    rw [← hid, ← hplayers]
    exact hformed.result p' e he hs (hplayers ▸ hp)
  · have hstep : ∀ m a t, Sound m ∧ m.Away p → m.enters a ≠ some p → Serving c m a t →
        Sound t ∧ t.Away p := by
      intro m a t hm henters hstep
      obtain ⟨hserves, rfl⟩ := hstep
      exact ⟨hm.1.next a, hm.2.next hm.1 hserves henters⟩
    have haway' := (hrun.invariant_of_guard hstep hout ⟨h.sound, haway⟩).2
    refine ⟨fun nowMs hmatched => ?_, fun p' nowMs hmatched hp => ?_, haway'.not_queued hsound⟩
    · obtain ⟨e, he, hs, -⟩ := matched_of_status hsound hmatched
      cases hs.symm.trans (haway' e he).1
    · obtain ⟨e, he, hs, -, hplayers⟩ := matched_of_status hsound hmatched
      exact haway'.not_matched hformed.agreed he hs (hplayers ▸ hp)

/-- **`Cancel` is sound** — whoever is told `true` stays out; `false` is told only to who waits neither in
the queue nor for a room. -/
theorem cancel_sound {G : MatchSystem → Action → Prop} (h : Reached G c s) (p : String) (nowMs : Int) :
    ((s.queue.cancelLocked c nowMs p).1 = true → StaysOut c (s.next c (.cancel p nowMs)) p) ∧
    ((s.queue.cancelLocked c nowMs p).1 = false →
      p ∉ (s.queue.sweep c nowMs).2.queue ∧ ∀ g ∈ s.inFlight, p ∉ g.playerIds) :=
  ⟨fun htrue => staysOut (h.agreed.next rfl) (away_of_cancel h.sound htrue), free_of_cancel h.sound⟩

/-- Alice leaves while her room is being allocated; nobody has heard of Carol. -/
theorem cancel_sound_pairInFlight :
    StaysOut {} (pairInFlight.next {} (.cancel "alice" 2000)) "alice" ∧
    "carol" ∉ (pairInFlight.queue.sweep {} 2000).2.queue ∧
      ∀ g ∈ pairInFlight.inFlight, "carol" ∉ g.playerIds :=
  have hrun : Run.Guarded (fun s a => a.serves = true ∧ Fresh s a) (next {}) {} takenPair := by decide
  have hreached : Reached Fresh {} pairInFlight := .of_guarded (.start {}) hrun
  ⟨(cancel_sound hreached "alice" 2000).1 (by decide),
    (cancel_sound hreached "carol" 2000).2 (by decide)⟩

end MatchSystem

end RealtimeGame.Match
