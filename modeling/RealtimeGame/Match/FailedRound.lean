import RealtimeGame.Match.CancelLaws

/-!
# Match/FailedRound — what a round of pairing leaves that pairs nobody

`RunPairingRound` takes groups from the front of the queue and commits them in the order in which it took
them; a group without a room goes back to the front.  One group comes back to where it was.  Of several
groups the last one comes back first, and the order of the queue is another one (`failed_round_iff`).
-/

open Library

namespace RealtimeGame.Match

variable {c : MatchConfig} {q : MatchQueue} {held : String → Nat} {nowMs : Int} {p : String}

namespace MatchQueue

/-- Stages two and three of a round; `rooms` is what `Allocate` returns, call by call, and a call beyond it
fails. -/
def commitGroups (c : MatchConfig) (nowMs : Int) : List PendingGroup → List String → MatchQueue → MatchQueue
  | [], _, q => q
  | group :: groups, rooms, q =>
    commitGroups c nowMs groups rooms.tail
      (q.commitGroup nowMs group (if c.hasAllocator then rooms.headD "" else ""))

/-- **`RunPairingRound`**, with nothing in between; the first component is what it returns. -/
def runPairingRound (c : MatchConfig) (nowMs : Int) (ids rooms : List String) (q : MatchQueue) :
    Bool × MatchQueue :=
  if c.maxPendingAllocations ≤ q.allocationQueue.length then (false, q)
  else
    let (groups, q) := q.takePairGroupsLocked ids
    if groups = [] then (false, q)
    else if q.workerBusy then (true, q.handOff nowMs groups)
    else (true, q.commitGroups c nowMs groups rooms)

/-- The same players wait in the same order, and every entry is the same. -/
def SameLine (q q' : MatchQueue) : Prop :=
  q'.queue = q.queue ∧ ∀ p, q'.entries.lookup p = q.entries.lookup p

/-- **At most one group is taken**, and it gets no room. -/
def TakesOne (c : MatchConfig) (ids rooms : List String) (q : MatchQueue) : Prop :=
  c.maxPendingAllocations ≤ q.allocationQueue.length ∨ q.queue.length < 2 ∨ ids.headD "" = "" ∨
    (c.hasAllocator = true → rooms.headD "" = "") ∧ (q.queue.length < 4 ∨ ids.tail.headD "" = "")

/-! ## Taking

A group is the first two players of the queue. -/

theorem takePairGroupsLocked_cases (h : Placed q held) (ids : List String) :
    ((q.queue.length < 2 ∨ ids.headD "" = "") ∧ q.takePairGroupsLocked ids = ([], q)) ∨
    ∃ a b rest requestId, q.queue = a :: b :: rest ∧ ids.headD "" ≠ "" ∧
      q.takePairGroupsLocked ids =
        (⟨ids.headD "", [a, b], requestId⟩ ::
            ((q.afterTake (ids.headD "") [a, b] rest).takePairGroupsLocked ids.tail).1,
          ((q.afterTake (ids.headD "") [a, b] rest).takePairGroupsLocked ids.tail).2) := by
  unfold takePairGroupsLocked
  rcases hlength : q.queue.length with - | fuel
  · exact .inl ⟨.inl (by omega), rfl⟩
  rcases takePairGroups_cases h fuel ids with ⟨hend, heq⟩ | ⟨a, b, rest, requestId, hqueue, hid, heq⟩
  · exact .inl ⟨hlength ▸ hend, heq⟩
  · refine .inr ⟨a, b, rest, requestId, hqueue, hid, heq.trans ?_⟩
    rw [takePairGroups_fuel (n := fuel) (m := (q.afterTake (ids.headD "") [a, b] rest).queue.length)]
    · rw [hqueue, List.length_cons, List.length_cons] at hlength
      change rest.length ≤ fuel
      omega
    · exact le_rfl

/-! ## Committing

A group without a room goes back in front of those that wait. -/

/-- A group without a room comes back to the front, and its players are as they were taken. -/
theorem commitGroup_failed {group : PendingGroup} (hstay : q.members group false = group.playerIds) :
    (q.commitGroup nowMs group "").queue = group.playerIds ++ q.queue := by
  rw [queue_commitGroup (by rfl), hstay]

/-- Nobody of a group has asked to leave. -/
theorem members_of_staying {group : PendingGroup}
    (h : ∀ p ∈ group.playerIds, ∃ e, q.entries.lookup p = some e ∧ e.cancelRequested = false) :
    q.members group false = group.playerIds ∧ q.members group true = [] := by
  constructor
  · rw [members, List.filter_eq_self]
    intro p hp
    obtain ⟨e, he, hc⟩ := h p hp
    simp [he, hc]
  · rw [members, List.filter_eq_nil_iff]
    intro p hp
    obtain ⟨e, he, hc⟩ := h p hp
    simp [he, hc]

/-- **The last group of a round** gets its room, or comes back before all the others. -/
theorem commitGroups_last (c : MatchConfig) (nowMs : Int) {groups : List PendingGroup} {last : PendingGroup}
    (hlast : groups.getLast? = some last) (hnodup : (groups.flatMap (·.playerIds)).Nodup)
    (hstay : ∀ g ∈ groups, ∀ p ∈ g.playerIds, ∃ e, q.entries.lookup p = some e ∧ e.cancelRequested = false)
    (rooms : List String) :
    last.playerIds <+: (q.commitGroups c nowMs groups rooms).queue ∨
      ∀ p ∈ last.playerIds, ∃ e, (q.commitGroups c nowMs groups rooms).entries.lookup p = some e ∧
        e.state = .matched := by
  induction groups generalizing rooms q with
  | nil => cases hlast
  | cons g groups ih =>
    rw [List.forall_mem_cons] at hstay
    rw [List.flatMap_cons, List.nodup_append] at hnodup
    rw [commitGroups]
    generalize (if c.hasAllocator then rooms.headD "" else "") = roomId
    rcases groups with - | ⟨g', groups⟩
    · obtain rfl : g = last := Option.some.inj hlast
      obtain ⟨hstays, hgone⟩ := members_of_staying hstay.1
      by_cases hroom : roomId = ""
      · refine .inl ?_
        rw [hroom, commitGroups, commitGroup_failed hstays]
        exact List.prefix_append _ _
      · refine .inr fun p hp => ?_
        obtain ⟨e, he, -⟩ := hstay.1 p hp
        have hviable : q.groupViable g roomId = true := by simp [groupViable, hroom, hgone]
        exact ⟨_, by rw [commitGroups, lookup_commitGroup hp he, if_pos hviable], rfl⟩
    · rw [List.getLast?_cons_cons] at hlast
      refine ih hlast hnodup.2.1 (fun g'' hg'' p hp => ?_) rooms.tail
      have hother : p ∉ g.playerIds := fun hmem =>
        hnodup.2.2 p hmem p (List.mem_flatMap.mpr ⟨g'', hg'', hp⟩) rfl
      rw [lookup_commitGroup_of_not_mem hother]
      exact hstay.2 g'' hg'' p hp

end MatchQueue

namespace MatchSystem

variable {s : MatchSystem} {thread : Nat} {pc : Pc}

/-! ## The thread of a round

The loop of the source, as the steps of one thread. -/

/-- One section of a thread. -/
theorem next_resume (hpc : s.threads[thread]? = some pc) (answer : Answer) :
    s.next c (.resume thread answer) =
      ⟨(pc.resume c s.workerEnded answer s.queue).2,
        s.threads.set thread (pc.resume c s.workerEnded answer s.queue).1⟩ := by
  simp only [next, hpc]

theorem getElem?_set_of_some (hpc : s.threads[thread]? = some pc) (pc' : Pc) :
    (s.threads.set thread pc')[thread]? = some pc' := by
  obtain ⟨hlt, -⟩ := List.getElem?_eq_some_iff.mp hpc
  exact List.getElem?_set_self hlt

/-- The loop over the groups, with no other thread in between. -/
theorem commitGroups_alone (groups : List PendingGroup) (rooms : List String)
    (hpc : s.threads[thread]? = some (.allocate nowMs groups)) : ∃ answers : List Answer,
      (answers.map (Action.resume thread)).foldl (next c) s =
        ⟨s.queue.commitGroups c nowMs groups rooms, s.threads.set thread (.mark nowMs)⟩ := by
  induction groups generalizing rooms s with
  | nil => exact ⟨[{}], next_resume hpc {}⟩
  | cons g groups ih =>
    -- `Allocate`, and the commit.
    have hallocate := next_resume (c := c) hpc { roomId := rooms.headD "" }
    simp only [Pc.resume] at hallocate
    generalize hroom : (if c.hasAllocator = true then rooms.headD "" else "") = roomId at hallocate
    have hpc' := getElem?_set_of_some hpc (.commit nowMs g roomId groups)
    have hcommit := next_resume (c := c)
      (s := ⟨s.queue, s.threads.set thread (.commit nowMs g roomId groups)⟩) hpc' {}
    simp only [Pc.resume, List.set_set] at hcommit
    obtain ⟨answers, hrest⟩ := ih (s := ⟨s.queue.commitGroup nowMs g roomId,
      s.threads.set thread (.allocate nowMs groups)⟩) rooms.tail (getElem?_set_of_some hpc _)
    refine ⟨{ roomId := rooms.headD "" } :: {} :: answers, ?_⟩
    rw [List.map_cons, List.map_cons, List.foldl_cons, List.foldl_cons, hallocate, hcommit, hrest,
      List.set_set, MatchQueue.commitGroups, hroom]

/-- **A round is what its thread does** when no other thread comes in between. -/
theorem round_alone {changed : Bool} (hpc : s.threads[thread]? = some (.round nowMs changed))
    (ids rooms : List String) : ∃ answers : List Answer,
      (answers.map (Action.resume thread)).foldl (next c) s =
        ⟨(s.queue.runPairingRound c nowMs ids rooms).2, s.threads.set thread
          (if (s.queue.runPairingRound c nowMs ids rooms).1 then .mark nowMs else .finish nowMs changed)⟩ := by
  have hround := next_resume (c := c) hpc {}
  simp only [Pc.resume] at hround
  obtain ⟨out, hout⟩ : ∃ out, s.queue.runPairingRound c nowMs ids rooms = out := ⟨_, rfl⟩
  rw [hout]
  unfold MatchQueue.runPairingRound at hout
  by_cases hfull : c.maxPendingAllocations ≤ s.queue.allocationQueue.length
  · rw [if_pos hfull] at hout hround
    obtain rfl := hout
    exact ⟨[{}], hround⟩
  rw [if_neg hfull] at hout hround
  have htake := next_resume (c := c) (s := ⟨s.queue, s.threads.set thread (.take nowMs changed)⟩)
    (getElem?_set_of_some hpc _) { ids := ids }
  simp only [Pc.resume, List.set_set] at htake
  dsimp only at hout
  generalize s.queue.takePairGroupsLocked ids = taken at htake hout
  by_cases hnone : taken.1 = []
  · rw [if_pos hnone] at hout htake
    obtain rfl := hout
    refine ⟨[{}, { ids := ids }], ?_⟩
    rw [List.map_cons, List.map_cons, List.foldl_cons, List.foldl_cons, hround, htake]
    rfl
  rw [if_neg hnone] at hout htake
  have hchoose := next_resume (c := c) (s := ⟨taken.2, s.threads.set thread (.choose nowMs taken.1)⟩)
    (getElem?_set_of_some hpc _) {}
  simp only [Pc.resume, List.set_set] at hchoose
  by_cases hbusy : taken.2.workerBusy = true
  · rw [if_pos hbusy] at hout hchoose
    obtain rfl := hout
    have hhand := next_resume (c := c) (s := ⟨taken.2, s.threads.set thread (.handOff nowMs taken.1)⟩)
      (getElem?_set_of_some hpc _) {}
    simp only [Pc.resume, List.set_set] at hhand
    refine ⟨[{}, { ids := ids }, {}, {}], ?_⟩
    rw [List.map_cons, List.map_cons, List.map_cons, List.foldl_cons, List.foldl_cons, List.foldl_cons,
      hround, htake, hchoose]
    exact hhand
  · rw [if_neg hbusy] at hout hchoose
    obtain rfl := hout
    obtain ⟨answers, hrest⟩ := commitGroups_alone (c := c)
      (s := ⟨taken.2, s.threads.set thread (.allocate nowMs taken.1)⟩) taken.1 rooms
      (getElem?_set_of_some hpc _)
    refine ⟨{} :: { ids := ids } :: {} :: answers, ?_⟩
    rw [List.map_cons, List.map_cons, List.map_cons, List.foldl_cons, List.foldl_cons, List.foldl_cons,
      hround, htake, hchoose, hrest, List.set_set]
    rfl

end MatchSystem

/-! ## Entries of players in no group

They wait with nothing noted. -/

/-- Whoever has no match, and is in no group, has the id of none. -/
def Entry.Plain (e : Entry) : Prop :=
  e.state ≠ .matched → e.allocating = false → e.matchId = "" ∧ e.playerIds = []

namespace MatchSystem

variable {s : MatchSystem} {a : Action} {G : MatchSystem → Action → Prop}

def Plain (s : MatchSystem) : Prop := ∀ p e, s.queue.entries.lookup p = some e → e.Plain

theorem Plain.next (hplain : s.Plain) (h : Sound s) (hserves : a.serves = true) : (s.next c a).Plain := by
  intro p e' he'
  have hstep := entry_next (c := c) h a p
  rw [he'] at hstep
  obtain ⟨after, hafter⟩ : ∃ after, some e' = after := ⟨_, rfl⟩
  rw [hafter] at hstep
  generalize hbefore : s.queue.entries.lookup p = before at hstep
  have hswept : ∀ nowMs x, before.bind (Entry.swept c nowMs) = some x → x.Plain := by
    intro nowMs x hx
    obtain ⟨y, hy, hswept⟩ := Option.bind_eq_some_iff.mp hx
    have hy' := hplain p y (hbefore.trans hy)
    rcases Entry.of_swept hswept with rfl | ⟨rfl, hs, ha⟩
    · exact hy'
    · exact fun _ _ => hy' (by rw [hs]; decide) ha
  cases hstep with
  | same => exact hplain p e' (hbefore.trans hafter.symm)
  | swept nowMs => exact hswept nowMs e' hafter.symm
  | entered requestId nowMs henters hsweeps hfree =>
    cases hafter
    intro _ _
    rcases hx : before.bind (Entry.swept c nowMs) with - | x
    · exact ⟨rfl, rfl⟩
    · refine hswept nowMs x hx (hfree x hx).2 ?_
      -- Whoever is being allocated is queued, and cannot enter.
      by_contra hallocating
      obtain ⟨y, hy, hof⟩ := Option.bind_eq_some_iff.mp hx
      rcases Entry.of_swept hof with rfl | ⟨rfl, -, ha⟩
      · exact (hfree _ hx).1 ((h p).of_allocating (hbefore.trans hy) (by simpa using hallocating)).1
      · exact hallocating ha
  | cancelled nowMs ha x =>
    split at hafter
    case isTrue hallocating =>
      cases hafter
      exact fun _ hnot => by cases hallocating.symm.trans hnot
    case isFalse => cases hafter
  | taken =>
    cases hafter
    exact fun _ hnot => by cases hnot
  | committed hsweeps g roomId nowMs hcommits hp x hx =>
    split at hafter
    · cases hafter
      exact fun hnot => absurd rfl hnot
    · split at hafter
      · cases hafter
      · cases hafter
        exact fun _ _ => ⟨rfl, rfl⟩
  | restored rows nowMs ha =>
    subst ha
    cases hserves

theorem Reached.plain (h : Reached G c s) : s.Plain := by
  induction h with
  | start c => exact fun _ _ he => by cases he
  | restored h c nowMs hrows ih =>
    exact of_restored (fun _ _ _ => ⟨rfl, rfl⟩) (fun _ _ _ _ hnot => absurd rfl hnot)
      (fun e _ hplain hs _ ha => hplain (by rw [hs]; decide) ha) c nowMs _
  | step h hserves hG ih => exact ih.next h.sound hserves

/-- A player of the queue, and in no group: his entry is what it was before he was taken. -/
theorem Plain.release_allocate (h : s.Plain) {e : Entry} (he : s.queue.entries.lookup p = some e)
    (hs : e.state = .queued) (ha : e.allocating = false) (matchId : String) (group : List String) :
    (e.allocate matchId group).release = e := by
  obtain ⟨hmatch, hplayers⟩ := h p e he (by rw [hs]; decide) ha
  obtain ⟨state, requestId, matchId', roomId, playerIds, queuedAtMs, stampMs, allocating, cancelRequested⟩ := e
  cases ha
  cases hmatch
  cases hplayers
  rfl

/-! ## One group

What was taken from the front comes back to the front. -/

/-- A player who got a room does not wait any more. -/
theorem not_sameLine_of_matched {q' : MatchQueue} {e e' : Entry} (he : s.queue.entries.lookup p = some e)
    (hs : e.state = .queued) (he' : q'.entries.lookup p = some e') (hs' : e'.state = .matched) :
    ¬s.queue.SameLine q' := by
  rintro ⟨-, hsame⟩
  rw [hsame, he] at he'
  obtain rfl := Option.some.inj he'
  cases hs.symm.trans hs'

/-- **One group comes back to where it was**, unless it gets a room. -/
theorem sameLine_one_iff (h : Reached G c s) {a b : String} {rest : List String}
    (hqueue : s.queue.queue = a :: b :: rest) (matchId : String) {g : PendingGroup}
    (hg : g.playerIds = [a, b]) (roomId : String) :
    s.queue.SameLine ((s.queue.afterTake matchId [a, b] rest).commitGroup nowMs g roomId) ↔
      roomId = "" := by
  have hmember : ∀ p ∈ [a, b], ∃ e, s.queue.entries.lookup p = some e ∧ e.state = .queued ∧
      e.allocating = false ∧ e.cancelRequested = false := by
    intro p hp
    obtain ⟨e, he, hs, ha, -⟩ := h.sound.placed.of_mem (show p ∈ s.queue.queue by
      rw [hqueue]
      exact List.mem_append_left rest hp)
    refine ⟨e, he, hs, ha, Bool.eq_false_iff.mpr fun hcancel => ?_⟩
    cases ha.symm.trans (h.notedOnly p e he hcancel)
  have htaken : ∀ p ∈ [a, b], ∀ e, s.queue.entries.lookup p = some e →
      (s.queue.afterTake matchId [a, b] rest).entries.lookup p = some (e.allocate matchId [a, b]) := by
    intro p hp e he
    rw [MatchQueue.lookup_afterTake, he, Option.map_some, if_pos hp]
  have hstaying : ∀ p ∈ g.playerIds, ∃ e,
      (s.queue.afterTake matchId [a, b] rest).entries.lookup p = some e ∧ e.cancelRequested = false := by
    intro p hp
    rw [hg] at hp
    obtain ⟨e, he, -, -, hc⟩ := hmember p hp
    exact ⟨_, htaken p hp e he, hc⟩
  obtain ⟨hstays, hgone⟩ := MatchQueue.members_of_staying hstaying
  constructor
  · intro hsame
    by_contra hroom
    obtain ⟨e, he, hs, -⟩ := hmember a List.mem_cons_self
    have hviable : (s.queue.afterTake matchId [a, b] rest).groupViable g roomId = true := by
      simp [MatchQueue.groupViable, hroom, hgone]
    have hsettled : ((s.queue.afterTake matchId [a, b] rest).commitGroup nowMs g roomId).entries.lookup a =
        some ((e.allocate matchId [a, b]).settle roomId g.playerIds nowMs) := by
      rw [MatchQueue.lookup_commitGroup (by rw [hg]; exact List.mem_cons_self)
        (htaken a List.mem_cons_self e he), if_pos hviable]
    exact not_sameLine_of_matched he hs hsettled rfl hsame
  · rintro rfl
    refine ⟨?_, fun p => ?_⟩
    · rw [MatchQueue.commitGroup_failed hstays, hg, hqueue]
      rfl
    by_cases hp : p ∈ [a, b]
    · obtain ⟨e, he, hs, ha, hc⟩ := hmember p hp
      have hstay : (e.allocate matchId [a, b]).cancelRequested = false := hc
      rw [MatchQueue.lookup_commitGroup (by rw [hg]; exact hp) (htaken p hp e he),
        if_neg (by simp [MatchQueue.groupViable]), hstay, if_neg Bool.false_ne_true,
        h.plain.release_allocate he hs ha, he]
    · rw [MatchQueue.lookup_commitGroup_of_not_mem (by rw [hg]; exact hp), MatchQueue.lookup_afterTake]
      simp only [if_neg hp, Option.map_id']

/-! ## Several groups

They come back in the order in which they were taken, each in front of the one before. -/

/-- **Of several groups the last one comes back first**, or has got its room. -/
theorem not_sameLine_of_several (h : Reached G c s) {ids : List String} {g g' : PendingGroup}
    {groups : List PendingGroup} {a b : String} {rest : List String}
    (htake : (s.queue.takePairGroupsLocked ids).1 = g :: g' :: groups) (hg : g.playerIds = [a, b])
    (hqueue : s.queue.queue = a :: b :: rest) (rooms : List String) :
    ¬s.queue.SameLine
      ((s.queue.takePairGroupsLocked ids).2.commitGroups c nowMs (g :: g' :: groups) rooms) := by
  have hplaced := h.sound.placed
  obtain ⟨last, hlast⟩ : ∃ last, (g' :: groups).getLast? = some last :=
    ⟨_, List.getLast?_eq_some_getLast (List.cons_ne_nil _ _)⟩
  have hmem : last ∈ g' :: groups := List.mem_of_getLast? hlast
  have hmem' : last ∈ (s.queue.takePairGroupsLocked ids).1 := htake ▸ List.mem_cons_of_mem _ hmem
  have hnodup : ((g :: g' :: groups).flatMap (·.playerIds)).Nodup := by
    refine List.nodup_iff_count_le_one.mpr fun p => ?_
    have hplace := hplaced.takePairGroups s.queue.queue.length ids p
    rw [← MatchQueue.takePairGroupsLocked, htake] at hplace
    dsimp only at hplace
    rcases Nat.eq_zero_or_pos (((g :: g' :: groups).flatMap (·.playerIds)).count p) with hzero | hpos
    · omega
    · obtain ⟨-, -, -, -, -, hone⟩ := hplace.of_held (by omega)
      omega
  have hstay : ∀ x ∈ g :: g' :: groups, ∀ p ∈ x.playerIds, ∃ e,
      (s.queue.takePairGroupsLocked ids).2.entries.lookup p = some e ∧ e.cancelRequested = false := by
    intro x hx p hp
    obtain ⟨e, he, -, ha, hnew⟩ :=
      (hplaced.lookup_takePairGroups s.queue.queue.length ids p).1 x (htake ▸ hx) hp
    refine ⟨_, hnew, Bool.eq_false_iff.mpr fun hcancel => ?_⟩
    cases ha.symm.trans (h.notedOnly p e he hcancel)
  obtain ⟨x, y, -, hplayers⟩ := hplaced.pair_of_takePairGroups s.queue.queue.length ids last hmem'
  have hx : x ∈ last.playerIds := by
    rw [hplayers]
    exact List.mem_cons_self
  rcases MatchQueue.commitGroups_last c nowMs ((List.getLast?_cons_cons ..).trans hlast) hnodup hstay
    rooms with hfront | hmatched
  · rintro ⟨hsame, -⟩
    rw [hsame, hqueue, hplayers] at hfront
    obtain ⟨rfl, -⟩ := List.cons_prefix_cons.mp hfront
    rw [List.flatMap_cons, hg, List.nodup_append] at hnodup
    exact hnodup.2.2 x List.mem_cons_self x (List.mem_flatMap.mpr ⟨last, hmem, hx⟩) rfl
  · obtain ⟨e, he, hs, -⟩ :=
      (hplaced.lookup_takePairGroups s.queue.queue.length ids x).1 last hmem' hx
    obtain ⟨e', he', hs'⟩ := hmatched x hx
    exact not_sameLine_of_matched he hs he' hs'

/-! ## The round

The two cases together. -/

/-- With nothing in flight the worker has nothing to do. -/
theorem allocationQueue_of_idle (hidle : s.inFlight = []) : s.queue.allocationQueue = [] :=
  List.map_eq_nil_iff.mp (List.append_eq_nil_iff.mp hidle).2

/-- What the round does with the groups that it took. -/
theorem runPairingRound_of_taken (hidle : s.inFlight = []) {ids rooms : List String}
    (hcapacity : ¬c.maxPendingAllocations ≤ s.queue.allocationQueue.length)
    (hsome : (s.queue.takePairGroupsLocked ids).1 ≠ []) :
    (s.queue.runPairingRound c nowMs ids rooms).2 =
      (s.queue.takePairGroupsLocked ids).2.commitGroups c nowMs (s.queue.takePairGroupsLocked ids).1 rooms := by
  have hquiet : (s.queue.takePairGroupsLocked ids).2.workerBusy = false := by
    have hframe := MatchQueue.takePairGroups_frame s.queue.queue.length ids s.queue
    rw [MatchQueue.takePairGroupsLocked, hframe, MatchQueue.workerBusy]
    simp [allocationQueue_of_idle hidle]
  unfold MatchQueue.runPairingRound
  rw [if_neg hcapacity]
  dsimp only
  rw [if_neg hsome, if_neg (by rw [hquiet]; decide)]

/-- **A round changes nothing exactly if it takes one group at most, and that gets no room** — whatever the
generator and the allocator return. -/
theorem failed_round_iff (h : Reached G c s) (hidle : s.inFlight = []) (nowMs : Int) (ids rooms : List String) :
    s.queue.SameLine (s.queue.runPairingRound c nowMs ids rooms).2 ↔ s.queue.TakesOne c ids rooms := by
  have hplaced := h.sound.placed
  by_cases hcapacity : c.maxPendingAllocations ≤ s.queue.allocationQueue.length
  · refine iff_of_true ?_ (.inl hcapacity)
    rw [MatchQueue.runPairingRound, if_pos hcapacity]
    exact ⟨rfl, fun _ => rfl⟩
  rcases MatchQueue.takePairGroupsLocked_cases hplaced ids with ⟨hend, htake⟩ |
    ⟨a, b, rest, requestId, hqueue, hid, htake⟩
  · refine iff_of_true ?_ (.inr (hend.imp_right .inl))
    rw [MatchQueue.runPairingRound, if_neg hcapacity, htake]
    exact ⟨rfl, fun _ => rfl⟩
  rw [runPairingRound_of_taken hidle hcapacity (by rw [htake]; exact List.cons_ne_nil _ _)]
  have hlength : s.queue.queue.length = rest.length + 2 := by
    rw [hqueue, List.length_cons, List.length_cons]
  rcases MatchQueue.takePairGroupsLocked_cases (hplaced.afterTake hqueue (ids.headD "")) ids.tail with
    ⟨hend, hlast⟩ | ⟨a', b', rest', requestId', hqueue', hid', hmore⟩
  · -- One group is taken.
    rw [hlast] at htake
    rw [htake, MatchQueue.commitGroups, MatchQueue.commitGroups]
    have hfew : s.queue.queue.length < 4 ∨ ids.tail.headD "" = "" :=
      hend.imp_left fun hshort => by
        change rest.length < 2 at hshort
        omega
    have hone : s.queue.TakesOne c ids rooms ↔
        (if c.hasAllocator then rooms.headD "" else "") = "" := by
      have hmany : ¬s.queue.queue.length < 2 := by omega
      rw [MatchQueue.TakesOne, or_iff_right hcapacity, or_iff_right hmany, or_iff_right hid, and_iff_left hfew]
      split
      case isTrue hallocator => exact ⟨fun hroom => hroom hallocator, fun hroom _ => hroom⟩
      case isFalse hnone => exact iff_of_true (fun hallocator => absurd hallocator hnone) rfl
    rw [hone]
    generalize (if c.hasAllocator then rooms.headD "" else "") = roomId
    exact sameLine_one_iff h hqueue _ rfl _
  · -- Several are.
    have hseveral := congrArg Prod.fst htake
    rw [hmore] at hseveral
    dsimp only at hseveral
    refine iff_of_false ?_ ?_
    · rw [hseveral]
      exact not_sameLine_of_several h hseveral rfl hqueue rooms
    · change rest = a' :: b' :: rest' at hqueue'
      rw [hqueue', List.length_cons, List.length_cons] at hlength
      rintro (hfull | hshort | hnone | ⟨-, hfew | hlast⟩)
      · exact hcapacity hfull
      · omega
      · exact hid hnone
      · omega
      · exact hid' hlast

/-- Four players have entered, one after the other, and the generator has failed each time. -/
def fourWaiting : List Action :=
  (["alice", "bob", "carol", "dave"].zipIdx.map fun e => [
    Action.enqueue e.1 "req" 1000, .resume e.2 {}, .resume e.2 {}, .resume e.2 {}]).flatten

theorem failed_round_iff_fourWaiting :
    (fourWaiting.foldl (next {}) {}).queue.SameLine
        ((fourWaiting.foldl (next {}) {}).queue.runPairingRound {} 2000 ["m-1"] []).2 ↔
      (fourWaiting.foldl (next {}) {}).queue.TakesOne {} ["m-1"] [] :=
  failed_round_iff (G := fun _ _ => True) (Reached.of_guarded (.start {}) (by decide)) (by decide) 2000
    ["m-1"] []

/-- Two groups are taken and fail: the third player is first in the queue, and the first one is third. -/
theorem not_failed_round :
    ¬ ∀ (c : MatchConfig) (s : MatchSystem), Reached (fun _ _ => True) c s → s.inFlight = [] →
      ∀ (nowMs : Int) (ids rooms : List String), (∀ room ∈ rooms, room = "") →
        s.queue.SameLine (s.queue.runPairingRound c nowMs ids rooms).2 := by
  intro hclaim
  obtain ⟨hsame, -⟩ := hclaim {} (fourWaiting.foldl (next {}) {})
    (Reached.of_guarded (.start {}) (by decide)) (by decide) 2000 ["m-1", "m-2"] [] (fun _ h => by cases h)
  have hqueue : ((fourWaiting.foldl (next {}) {}).queue.runPairingRound {} 2000 ["m-1", "m-2"] []).2.queue =
    ["carol", "dave", "alice", "bob"] := by decide
  rw [hqueue] at hsame
  exact absurd hsame (by decide)

end MatchSystem

end RealtimeGame.Match
