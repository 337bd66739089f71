import RealtimeGame.Match.Restart

/-!
# Match/Agreement — a result is the same for all its players

A commit copies the match, its room and its players into the entry of each player, and so does a
restart.  `Agreed` ties these copies together, and ties everybody in a group in flight to the match id
of the group; it holds whatever the generator returns.  Where the ids are new, an id also names one
group only (`Distinct`).
-/

open Library

namespace RealtimeGame.Match

open MatchQueue (record)

variable {c : MatchConfig} {p : String}

/-- Two different players. -/
def IsPair (players : List String) : Prop := ∃ p p', p ≠ p' ∧ players = [p, p']

theorem IsPair.length {players : List String} (h : IsPair players) :
    players.length = kPlayersPerMatch := by
  obtain ⟨p, p', -, rfl⟩ := h
  rfl

theorem IsPair.nodup {players : List String} (h : IsPair players) : players.Nodup := by
  obtain ⟨p, p', hne, rfl⟩ := h
  simpa using hne

/-- Everybody of the match has this result. -/
def MatchQueue.AllHave (q : MatchQueue) (e : Entry) : Prop :=
  ∀ p ∈ e.playerIds, ∃ e', q.entries.lookup p = some e' ∧ e'.state = .matched ∧ record e' = record e

namespace MatchSystem

variable {s : MatchSystem} {a : Action}

/-- **The copies of a group agree.** -/
structure Agreed (s : MatchSystem) : Prop where
  sound : Sound s
  pair : ∀ g ∈ s.inFlight, IsPair g.playerIds
  noted : ∀ g ∈ s.inFlight, ∀ p ∈ g.playerIds, ∀ e, s.queue.entries.lookup p = some e →
    e.matchId = g.matchId
  result : ∀ p e, s.queue.entries.lookup p = some e → e.state = .matched →
    p ∈ e.playerIds ∧ IsPair e.playerIds ∧ s.queue.AllHave e

theorem Agreed.start : Agreed {} where
  sound := .start
  pair _ hg := by cases hg
  noted _ hg := by cases hg
  result _ _ he := by cases he

/-! ## One action

Only a commit makes results, and it copies one group. -/

/-- The match id of a group stays with its players. -/
theorem Agreed.noted_next (h : Agreed s) (a : Action) {g : PendingGroup}
    (hg : g ∈ (s.next c a).inFlight) (hp : p ∈ g.playerIds) {e : Entry}
    (he : (s.next c a).queue.entries.lookup p = some e) : e.matchId = g.matchId := by
  rcases mem_inFlight_next hg with hold | htaken
  case inr =>
    obtain ⟨x, -, hx⟩ := lookup_taken (c := c) h.sound htaken hp
    obtain rfl := Option.some.inj (he.symm.trans hx)
    rfl
  obtain ⟨x, hx, hsame | hcancel⟩ := entry_inFlight_next (c := c) h.sound hold hp hg hp
  · obtain rfl := Option.some.inj (he.symm.trans hsame)
    exact h.noted g hold p hp _ hx
  · obtain rfl := Option.some.inj (he.symm.trans hcancel)
    exact h.noted g hold p hp x hx

/-- A result that is there after an action is there for all its players. -/
theorem Agreed.result_next (h : Agreed s) {a : Action} (hserves : a.serves = true) {e : Entry}
    (he : (s.next c a).queue.entries.lookup p = some e) (hs : e.state = .matched) :
    p ∈ e.playerIds ∧ IsPair e.playerIds ∧ (s.next c a).queue.AllHave e := by
  rcases matched_of_next h.sound he hs with ⟨hold, hkept⟩ |
    ⟨g, roomId, nowMs, x, hcommits, hviable, hp, hx, rfl⟩ | ⟨rows, nowMs, rfl⟩
  · obtain ⟨hp, hpair, hall⟩ := h.result p e hold hs
    refine ⟨hp, hpair, fun p' hp' => ?_⟩
    obtain ⟨e', he', hs', hrecord⟩ := hall p' hp'
    -- All the copies have one stamp, so the action spares all of them.
    have hstamp : e'.stampMs = e.stampMs := (MatchQueueEntry.matched.inj hrecord).2.2.2
    rw [← hstamp] at hkept
    exact ⟨e', (matched_next h.sound he' hs' a).1 hkept, hs', hrecord⟩
  · have hg := mem_inFlight_of_commits hcommits
    refine ⟨hp, h.pair g hg, fun p' hp' => ?_⟩
    obtain ⟨x', hx', -⟩ := h.sound.of_mem_inFlight hg hp'
    refine ⟨x'.settle roomId g.playerIds nowMs, ?_, rfl, ?_⟩
    · rw [entries_of_commits hcommits, MatchQueue.lookup_commitGroup hp' hx', if_pos hviable]
    · simp only [record, Entry.settle, h.noted g hg p hp x hx, h.noted g hg p' hp' x' hx']
  · cases hserves

theorem Agreed.next (h : Agreed s) {a : Action} (hserves : a.serves = true) :
    Agreed (s.next c a) where
  sound := h.sound.next a
  pair g hg := (mem_inFlight_next hg).elim (h.pair g) (pair_of_taken h.sound)
  noted _ hg _ hp _ he := h.noted_next a hg hp he
  result _ _ he hs := h.result_next hserves he hs

/-! ## A restart

A restart copies the rows of a snapshot, and a snapshot has each match once. -/

/-- The matches of a snapshot are results of the queue it was made of. -/
theorem mem_matchedRows {q : MatchQueue} {rows : List MatchQueueSnapshotRow}
    (hrows : q.makeSnapshot.holds rows) {row : String × String × List String × Int}
    (hrow : row ∈ MatchQueue.matchedRows rows) :
    record (MatchQueue.ofMatched row) ∈ q.makeSnapshot.matched := by
  obtain ⟨⟨entry, problem⟩, hin, hsome⟩ := List.mem_filterMap.mp hrow
  cases entry
  case queued => cases hsome
  obtain ⟨hok, hsome⟩ := Option.ite_none_right_eq_some.mp hsome
  cases hsome
  refine (List.mem_append.mp (hrows _ hin hok)).resolve_left fun hqueued => ?_
  obtain ⟨p, e, heq, -⟩ := MatchQueue.mem_queued_makeSnapshot.mp hqueued
  cases heq

/-- A restart leaves nothing in flight. -/
theorem inFlight_restored (c : MatchConfig) (nowMs : Int) (rows : List MatchQueueSnapshotRow) :
    (MatchSystem.next c {} (.restore (some rows) nowMs)).inFlight = [] := by
  rw [MatchSystem.next]
  split
  · exact (Placed.restoreLocked_frame rows).handedOver
  · rfl

/-- A result after a restart is one of the snapshot, and all its players have it. -/
theorem matched_restored {q : MatchQueue} {nowMs : Int} {rows : List MatchQueueSnapshotRow}
    (hrows : q.makeSnapshot.holds rows) {e : Entry}
    (he : (MatchSystem.next c {} (.restore (some rows) nowMs)).queue.entries.lookup p = some e)
    (hs : e.state = .matched) : record e ∈ q.makeSnapshot.matched ∧ p ∈ e.playerIds ∧
      (MatchSystem.next c {} (.restore (some rows) nowMs)).queue.AllHave e := by
  rw [MatchSystem.next] at he ⊢
  split at he
  case isFalse => cases he
  case isTrue hstore =>
    rw [if_pos hstore]
    obtain ⟨row, hrow, rfl, hp, hall⟩ := MatchQueue.whole_restoreLocked c nowMs rows p e he hs
    exact ⟨mem_matchedRows hrows hrow, hp, fun p' hp' => ⟨_, hall p' hp', hs, rfl⟩⟩

theorem Agreed.restored (h : Agreed s) (c : MatchConfig) (nowMs : Int)
    {rows : List MatchQueueSnapshotRow} (hrows : s.queue.makeSnapshot.holds rows) :
    Agreed (MatchSystem.next c {} (.restore (some rows) nowMs)) where
  sound := Sound.start.next _
  pair g hg := by
    rw [inFlight_restored] at hg
    cases hg
  noted g hg := by
    rw [inFlight_restored] at hg
    cases hg
  result p e he hs := by
    obtain ⟨hsaved, hp, hall⟩ := matched_restored hrows he hs
    obtain ⟨es, heq, -, hes, -⟩ := MatchQueue.matched_makeSnapshot s.queue
    rw [heq] at hsaved
    obtain ⟨x, hx, hrecord⟩ := List.mem_map.mp hsaved
    obtain ⟨p', hp', hs'⟩ := hes x hx
    have hplayers : x.playerIds = e.playerIds := (MatchQueueEntry.matched.inj hrecord).2.2.1
    exact ⟨hp, hplayers ▸ (h.result p' x hp' hs').2.1, hall⟩

theorem Reached.agreed {G : MatchSystem → Action → Prop} (h : Reached G c s) : Agreed s := by
  induction h with
  | start c => exact .start
  | restored h c nowMs hrows ih => exact ih.restored c nowMs hrows
  | step h hserves hG ih => exact ih.next hserves

/-! ## Ids that are new

What the generator returns is in use nowhere; then an id names one group. -/

/-- The ids of the groups that are known. -/
def usedIds (s : MatchSystem) : List String :=
  s.inFlight.map (·.matchId) ++
    (s.queue.entries.toPairs.filter fun e => e.2.state = .matched).map (·.2.matchId)

/-- The generator repeats no id of a group that is known. -/
def Fresh (s : MatchSystem) (a : Action) : Prop := a.ids.Nodup ∧ ∀ id ∈ a.ids, id ∉ s.usedIds

instance : Decidable (Fresh s a) := inferInstanceAs (Decidable (a.ids.Nodup ∧ ∀ id ∈ a.ids, _))

theorem mem_usedIds_of_inFlight {g : PendingGroup} (hg : g ∈ s.inFlight) : g.matchId ∈ s.usedIds :=
  List.mem_append_left _ (List.mem_map_of_mem hg)

theorem mem_usedIds_of_matched {e : Entry} (he : s.queue.entries.lookup p = some e)
    (hs : e.state = .matched) : e.matchId ∈ s.usedIds := by
  refine List.mem_append_right _ (List.mem_map.mpr ⟨(p, e), ?_, rfl⟩)
  rw [List.mem_filter, Table.mem_toPairs, decide_eq_true_eq]
  exact ⟨he, hs⟩

/-- **An id names one group.** -/
structure Distinct (s : MatchSystem) : Prop where
  agreed : Agreed s
  flight : ∀ g ∈ s.inFlight, ∀ g' ∈ s.inFlight, g.matchId = g'.matchId → g = g'
  apart : ∀ g ∈ s.inFlight, ∀ p e, s.queue.entries.lookup p = some e → e.state = .matched →
    e.matchId ≠ g.matchId
  result : ∀ p e, s.queue.entries.lookup p = some e → e.state = .matched →
    ∀ p' e', s.queue.entries.lookup p' = some e' → e'.state = .matched →
      e.matchId = e'.matchId → record e = record e'

/-- Groups in flight after an action with one id are one group. -/
theorem Distinct.flight_next (h : Distinct s) {a : Action} (hfresh : s.Fresh a) {g g' : PendingGroup}
    (hg : g ∈ (s.next c a).inFlight) (hg' : g' ∈ (s.next c a).inFlight)
    (hid : g.matchId = g'.matchId) : g = g' := by
  have hnew : ∀ x ∈ s.inFlight, ∀ y ∈ s.taken a, x.matchId ≠ y.matchId := fun x hx y hy heq =>
    hfresh.2 _ (matchId_of_taken h.agreed.sound hy) (heq ▸ mem_usedIds_of_inFlight hx)
  rcases mem_inFlight_next hg with hg | hg <;> rcases mem_inFlight_next hg' with hg' | hg'
  · exact h.flight g hg g' hg' hid
  · exact absurd hid (hnew g hg g' hg')
  · exact absurd hid.symm (hnew g' hg' g hg)
  · have hnodup := hfresh.1.sublist (ids_of_taken h.agreed.sound a).sublist
    exact List.inj_on_of_nodup_map hnodup hg hg' hid

/-- A group in flight after an action has no result. -/
theorem Distinct.apart_next (h : Distinct s) {a : Action} (hserves : a.serves = true)
    (hfresh : s.Fresh a) {g : PendingGroup} (hg : g ∈ (s.next c a).inFlight) {e : Entry}
    (he : (s.next c a).queue.entries.lookup p = some e) (hs : e.state = .matched) :
    e.matchId ≠ g.matchId := by
  intro hid
  have hnew : g ∈ s.taken a → e.matchId ∉ s.usedIds := fun htaken =>
    hid ▸ hfresh.2 _ (matchId_of_taken h.agreed.sound htaken)
  rcases matched_of_next h.agreed.sound he hs with ⟨hold, -⟩ |
    ⟨g', roomId, nowMs, x, hcommits, -, hp, hx, rfl⟩ | ⟨rows, nowMs, rfl⟩
  · rcases mem_inFlight_next hg with hflight | htaken
    · exact h.apart g hflight p e hold hs hid
    · exact hnew htaken (mem_usedIds_of_matched hold hs)
  · -- The group that is committed had this id.
    have hg' := mem_inFlight_of_commits hcommits
    have hid' : (x.settle roomId g'.playerIds nowMs).matchId = g'.matchId :=
      h.agreed.noted g' hg' p hp x hx
    rcases mem_inFlight_next hg with hflight | htaken
    · obtain rfl := h.flight g hflight g' hg' (hid.symm.trans hid')
      exact not_mem_inFlight_of_commits h.agreed.sound hcommits hp hg hp
    · exact hnew htaken (hid' ▸ mem_usedIds_of_inFlight hg')
  · cases hserves

/-- Results with one id after an action are one result. -/
theorem Distinct.result_next (h : Distinct s) {a : Action} (hserves : a.serves = true)
    {p' : String} {e e' : Entry} (he : (s.next c a).queue.entries.lookup p = some e)
    (hs : e.state = .matched) (he' : (s.next c a).queue.entries.lookup p' = some e')
    (hs' : e'.state = .matched) (hid : e.matchId = e'.matchId) : record e = record e' := by
  rcases matched_of_next h.agreed.sound he hs with ⟨hold, -⟩ |
    ⟨g, roomId, nowMs, x, hcommits, -, hp, hx, rfl⟩ | ⟨rows, nowMs, rfl⟩
  case inr.inr => cases hserves
  all_goals
    rcases matched_of_next h.agreed.sound he' hs' with ⟨hold', -⟩ |
      ⟨g', roomId', nowMs', x', hcommits', -, hp', hx', rfl⟩ | ⟨rows, nowMs, rfl⟩
  case inl.inr.inr | inr.inl.inr.inr => cases hserves
  · exact h.result p e hold hs p' e' hold' hs' hid
  · have hg' := mem_inFlight_of_commits hcommits'
    exact absurd (hid.trans (h.agreed.noted g' hg' p' hp' x' hx')) (h.apart g' hg' p e hold hs)
  · have hg := mem_inFlight_of_commits hcommits
    exact absurd (hid.symm.trans (h.agreed.noted g hg p hp x hx)) (h.apart g hg p' e' hold' hs')
  · cases hcommits.symm.trans hcommits'
    simp only [Entry.settle] at hid
    simp only [record, Entry.settle, hid]

theorem Distinct.next (h : Distinct s) {a : Action} (hserves : a.serves = true) (hfresh : s.Fresh a) :
    Distinct (s.next c a) where
  agreed := h.agreed.next hserves
  flight _ hg _ hg' hid := h.flight_next hfresh hg hg' hid
  apart _ hg _ _ he hs := h.apart_next hserves hfresh hg he hs
  result _ _ he hs _ _ he' hs' hid := h.result_next hserves he hs he' hs' hid

theorem Distinct.start : Distinct {} where
  agreed := .start
  flight _ hg := by cases hg
  apart _ hg := by cases hg
  result _ _ he := by cases he

theorem Distinct.restored (h : Agreed s) (c : MatchConfig) (nowMs : Int)
    {rows : List MatchQueueSnapshotRow} (hrows : s.queue.makeSnapshot.holds rows) :
    Distinct (MatchSystem.next c {} (.restore (some rows) nowMs)) where
  agreed := h.restored c nowMs hrows
  flight g hg := by
    rw [inFlight_restored] at hg
    cases hg
  apart g hg := by
    rw [inFlight_restored] at hg
    cases hg
  result p e he hs p' e' he' hs' hid := by
    -- A snapshot has each id once.
    have hsaved := (matched_restored hrows he hs).1
    have hsaved' := (matched_restored hrows he' hs').1
    obtain ⟨es, heq, hnodup, -⟩ := MatchQueue.matched_makeSnapshot s.queue
    rw [heq] at hsaved hsaved'
    obtain ⟨x, hx, hrecord⟩ := List.mem_map.mp hsaved
    obtain ⟨x', hx', hrecord'⟩ := List.mem_map.mp hsaved'
    have hid' : x.matchId = x'.matchId := by
      rw [(MatchQueueEntry.matched.inj hrecord).1, hid, (MatchQueueEntry.matched.inj hrecord').1]
    rw [← hrecord, ← hrecord', List.inj_on_of_nodup_map hnodup hx hx' hid']

theorem Reached.distinct (h : Reached Fresh c s) : Distinct s := by
  induction h with
  | start c => exact .start
  | restored h c nowMs hrows ih => exact .restored ih.agreed c nowMs hrows
  | step h hserves hfresh ih => exact ih.next hserves hfresh

/-! ## Agreement and stability

A result stays as it is until its time is over. -/

/-- No two groups, in flight or with a result, share a match id. -/
def GroupsApart (s : MatchSystem) : Prop :=
  (∀ g ∈ s.inFlight, ∀ g' ∈ s.inFlight, g.matchId = g'.matchId → g = g') ∧
  (∀ g ∈ s.inFlight, ∀ p e, s.queue.entries.lookup p = some e → e.state = .matched →
    e.matchId ≠ g.matchId) ∧
  ∀ p e, s.queue.entries.lookup p = some e → e.state = .matched →
    ∀ p' e', s.queue.entries.lookup p' = some e' → e'.state = .matched →
      e.matchId = e'.matchId → e.playerIds = e'.playerIds

/-- What `GetStatus` answers. -/
def status (c : MatchConfig) (s : MatchSystem) (p : String) (nowMs : Int) : MatchStatusSnapshot :=
  (s.queue.getStatusLocked c nowMs p).1

/-- A player has the result that is reported, with this stamp. -/
def Has (s : MatchSystem) (report : MatchStatusSnapshot) (stampMs : Int) (p : String) : Prop :=
  ∃ e, s.queue.entries.lookup p = some e ∧ e.state = .matched ∧
    record e = .matched report.matchId report.roomId report.playerIds stampMs

/-- **Everybody of the match has the result** as long as no sweep finds it too old; and a sweep that does
takes it from all of them. -/
def KeptTogether (c : MatchConfig) (s : MatchSystem) (report : MatchStatusSnapshot) (stampMs : Int) :
    Prop :=
  ∀ as t, Run (Step c) s as t →
    (∀ pre a post m, as = pre ++ a :: post → Run (Step c) s pre m → m.expires c a stampMs = false) →
    (∀ p ∈ report.playerIds, t.Has report stampMs p) ∧
    (∀ nowMs, c.resultTtlMs ≤ nowMs - stampMs →
      ∀ p ∈ report.playerIds, (t.queue.sweep c nowMs).2.entries.lookup p = none) ∧
    ∀ a, t.expires c a stampMs = true → ∀ p ∈ report.playerIds, ∀ e,
      (t.next c a).queue.entries.lookup p = some e → t.enters a = some p ∧ e.state = .queued

/-- What `GetStatus` reports is the entry that the sweep leaves. -/
theorem entry_of_status {nowMs : Int} (hmatched : (s.status c p nowMs).state = .matched) :
    ∃ e, (s.next c (.getStatus p nowMs)).queue.entries.lookup p = some e ∧ e.state = .matched ∧
      record e = .matched (s.status c p nowMs).matchId (s.status c p nowMs).roomId
        (s.status c p nowMs).playerIds e.stampMs := by
  have hnext : (s.next c (.getStatus p nowMs)).queue = (s.queue.sweep c nowMs).2 := rfl
  have hstatus : s.status c p nowMs = (s.queue.sweep c nowMs).2.statusSnapshot p := rfl
  rw [hstatus, MatchQueue.statusSnapshot] at hmatched ⊢
  rw [hnext]
  rcases he : (s.queue.sweep c nowMs).2.entries.lookup p with - | e
  · rw [he] at hmatched
    cases hmatched
  · rw [he] at hmatched
    exact ⟨e, rfl, hmatched, rfl⟩

theorem Has.next {report : MatchStatusSnapshot} {stampMs : Int} (hsound : Sound s)
    (h : s.Has report stampMs p) (hkept : s.expires c a stampMs = false) :
    (s.next c a).Has report stampMs p := by
  obtain ⟨e, he, hs, hrecord⟩ := h
  have hstamp : e.stampMs = stampMs := (MatchQueueEntry.matched.inj hrecord).2.2.2
  exact ⟨e, (matched_next hsound he hs a).1 (hstamp ▸ hkept), hs, hrecord⟩

/-- A result that everybody has is kept together. -/
theorem keptTogether (hsound : Sound s) {report : MatchStatusSnapshot} {stampMs : Int}
    (hall : ∀ p ∈ report.playerIds, s.Has report stampMs p) : KeptTogether c s report stampMs := by
  intro as t hrun hkept
  obtain ⟨hsound', hall'⟩ := hrun.invariant_of_guard
    (I := fun s => Sound s ∧ ∀ p ∈ report.playerIds, s.Has report stampMs p)
    (G := fun s a => s.expires c a stampMs = false)
    (fun s a t hs hG hstep => by
      obtain rfl := hstep
      exact ⟨hs.1.next a, fun p hp => (hs.2 p hp).next hs.1 hG⟩) hkept ⟨hsound, hall⟩
  refine ⟨hall', fun nowMs hstale p hp => ?_, fun a hstale p hp e he => ?_⟩
  · obtain ⟨e, he, hs, hrecord⟩ := hall' p hp
    have hstamp : e.stampMs = stampMs := (MatchQueueEntry.matched.inj hrecord).2.2.2
    rw [hsound'.placed.lookup_sweep, he, Option.bind_some, Entry.swept_of_matched hs,
      if_pos (hstamp ▸ hstale)]
  · obtain ⟨x, hx, hs, hrecord⟩ := hall' p hp
    have hstamp : x.stampMs = stampMs := (MatchQueueEntry.matched.inj hrecord).2.2.2
    exact (matched_next hsound' hx hs a).2 (hstamp ▸ hstale) e he

/-- **Agreement and stability** — after any run, across restarts, with ids that are new: no two groups
share an id, and a result that is reported is the result of two different players, of whom one has
asked, who keep it together. -/
theorem agreement (h : Reached Fresh c s) : s.GroupsApart ∧
    ∀ p nowMs, (s.status c p nowMs).state = .matched →
      p ∈ (s.status c p nowMs).playerIds ∧
      (s.status c p nowMs).playerIds.length = kPlayersPerMatch ∧
      (s.status c p nowMs).playerIds.Nodup ∧
      ∃ stampMs, KeptTogether c (s.next c (.getStatus p nowMs)) (s.status c p nowMs) stampMs := by
  have hdistinct := h.distinct
  refine ⟨⟨hdistinct.flight, hdistinct.apart, fun p e he hs p' e' he' hs' hid => ?_⟩,
    fun p nowMs hmatched => ?_⟩
  · exact (MatchQueueEntry.matched.inj (hdistinct.result p e he hs p' e' he' hs' hid)).2.2.1
  · have hagreed : Agreed (s.next c (.getStatus p nowMs)) := hdistinct.agreed.next rfl
    obtain ⟨e, he, hs, hrecord⟩ := entry_of_status hmatched
    obtain ⟨hp, hpair, hall⟩ := hagreed.result p e he hs
    have hplayers := (MatchQueueEntry.matched.inj hrecord).2.2.1
    rw [hplayers] at hp hpair
    refine ⟨hp, hpair.length, hpair.nodup, e.stampMs, keptTogether hagreed.sound fun p' hp' => ?_⟩
    obtain ⟨e', he', hs', hrecord'⟩ := hall p' (hplayers ▸ hp')
    exact ⟨e', he', hs', hrecord'.trans hrecord⟩

/-- The pair is given its room, and asks for it. -/
def matchedPair : List Action :=
  takenPair ++ [.resume 1 ⟨[], "r-1", true, 0⟩, .resume 1 {}, .resume 1 {}, .resume 1 {}]

/-- The system with a result. -/
def pairMatched : MatchSystem := matchedPair.foldl (next {}) {}

theorem agreement_pairMatched : pairMatched.GroupsApart ∧
    ∀ p nowMs, (pairMatched.status {} p nowMs).state = .matched →
      p ∈ (pairMatched.status {} p nowMs).playerIds ∧
      (pairMatched.status {} p nowMs).playerIds.length = kPlayersPerMatch ∧
      (pairMatched.status {} p nowMs).playerIds.Nodup ∧
      ∃ stampMs, KeptTogether {} (pairMatched.next {} (.getStatus p nowMs))
        (pairMatched.status {} p nowMs) stampMs :=
  have hrun : Run.Guarded (fun s a => a.serves = true ∧ Fresh s a) (next {}) {} matchedPair := by
    decide
  agreement (Reached.of_guarded (.start {}) hrun)

example : pairMatched.status {} "alice" 2000 =
    ⟨.matched, "q-1", "m-1", "r-1", ["alice", "bob"], 1000, 0⟩ := by decide

end MatchSystem

end RealtimeGame.Match
