import RealtimeGame.Match.Backend

/-!
# Match/SameRoom — a retry is never given the same room

Room is idempotent by match id, but the id is made anew whenever a group is taken, so the second
`Create` is for another match.  `Sound` ties every room in the history to the match id of its group
and keeps the order of events (`Later`); a retried pair has two rooms then (`sameRoom_iff`).
-/

open Library

namespace RealtimeGame.Match

open Room.RoomSystem (mysqlStores)

variable {c : MatchConfig} {stores : Room.RoomStores}

/-! ## Groups in flight come from somewhere

Their ids are in the history. -/

namespace MatchSystem

variable {s : MatchSystem}

/-- An `Allocate` is for a group in flight. -/
theorem mem_inFlight_of_allocating {a : Action} {g : PendingGroup}
    (h : s.allocating c a = some g) : g ∈ s.inFlight := by
  rcases a with _ | _ | _ | _ | _ | _ | _ | _ | _ | _ | ⟨thread, answer⟩
  case resume =>
    unfold allocating at h
    rw [resumed] at h
    split at h
    case h_1 nowMs group groups hpc =>
      split at h
      · obtain rfl := Option.some.inj h
        exact mem_inFlight.mpr (.inl ⟨_, List.mem_of_getElem? hpc, List.mem_cons_self⟩)
      · cases h
    case h_2 group queuedMs hpc =>
      split at h
      · obtain rfl := Option.some.inj h
        exact mem_inFlight.mpr (.inl ⟨_, List.mem_of_getElem? hpc, List.mem_cons_self⟩)
      · cases h
    case h_3 => cases h
  all_goals cases h

/-- A step that calls `Allocate` takes nothing. -/
theorem taken_of_allocating {a : Action} {g : PendingGroup} (h : s.allocating c a = some g)
    (roomId : String) : s.taken (a.withRoomId roomId) = [] := by
  have hsame : s.resumed (a.withRoomId roomId) = s.resumed a := by
    rcases a with _ | _ | _ | _ | _ | _ | _ | _ | _ | _ | _ <;> rfl
  unfold taken
  rw [hsame]
  unfold allocating at h
  split
  case h_1 hpc =>
    rw [hpc] at h
    cases h
  case h_2 => rfl

end MatchSystem

/-! ## What `Create` tells its caller

The room of the match, made now or before. -/

/-- The room that `Create` tells was made for that match. -/
theorem created_of_create (stores : Room.RoomStores) {s : Room.RoomSystem} (h : s.Sound)
    {matchId roomId x : String} {playerIds : List String} {nowMs : Int}
    {snapshot : Room.RoomSnapshot}
    (htold : (s.manager.create nowMs matchId playerIds roomId).2.1 = some (x, snapshot)) :
    (s.next stores (.create matchId playerIds nowMs roomId)).created.lookup x = some matchId := by
  simp only [Room.RoomSystem.next]
  rcases Room.RoomManager.create_told htold with ⟨hmakes, room, hroom, rfl⟩ | ⟨hmakes, rfl⟩
  · -- The match has a room already.
    obtain ⟨y, hindex, hy⟩ := Option.bind_eq_some_iff.mp hroom
    rw [hmakes, if_neg Bool.false_ne_true, h.indexed.key y room hy]
    exact h.entry matchId y hindex
  · rw [hmakes, if_pos rfl]
    exact AList.lookup_insert _

/-! ## The order of events

A group is taken, gets a room, and is put back, in this order. -/

/-- A room made for a group is not made for a group taken later. -/
def Later : Event → Event → Prop
  | .made group _, .taken group' _ => group.matchId ≠ group'.matchId
  | _, _ => True

/-- Events that make no room, or take no group, are in order. -/
theorem Later.of_not_made {e e' : Event} (h : ∀ group x, e ≠ .made group x) : Later e e' := by
  unfold Later
  split
  · exact absurd rfl (h _ _)
  · trivial

theorem Later.of_not_taken {e e' : Event} (h : ∀ group alive, e' ≠ .taken group alive) :
    Later e e' := by
  unfold Later
  split
  · exact absurd rfl (h _ _)
  · trivial

namespace Backend

variable {w w' : Backend}

@[simp] theorem matchIds_append (h h' : List Event) :
    matchIds (h ++ h') = matchIds h ++ matchIds h' := by
  rw [matchIds, List.filterMap_append]
  rfl

theorem mem_matchIds {history : List Event} {matchId : String} :
    matchId ∈ matchIds history ↔ ∃ group alive, .taken group alive ∈ history ∧
      group.matchId = matchId := by
  rw [matchIds, List.mem_filterMap]
  constructor
  · rintro ⟨e, he, hid⟩
    split at hid
    · exact ⟨_, _, he, Option.some.inj hid⟩
    · cases hid
  · rintro ⟨group, alive, hmem, rfl⟩
    exact ⟨_, hmem, rfl⟩

/-- **What holds of both services after any run.** -/
structure Sound (w : Backend) : Prop where
  matching : w.matching.Sound
  rooms : w.rooms.Sound
  flight : ∀ group ∈ w.matching.inFlight, group.matchId ∈ matchIds w.history
  made : ∀ group x, .made group x ∈ w.history →
    group.matchId ∈ matchIds w.history ∧ w.rooms.created.lookup x = some group.matchId
  ordered : w.history.Pairwise Later

theorem Sound.start : Sound {} where
  matching := .start
  rooms := .start
  flight group h := by cases h
  made group x h := by cases h
  ordered := .nil

/-- **A step keeps the law** if whatever is in flight after it was taken, groups get new ids, and a
room that it makes is for a group in flight. -/
theorem Sound.extend (h : Sound w) {events : List Event}
    (hhistory : w'.history = w.history ++ events) (hmatching : w'.matching.Sound)
    (hrooms : w.rooms.Effect w'.rooms)
    (hflight : ∀ group ∈ w'.matching.inFlight,
      group ∈ w.matching.inFlight ∨ group.matchId ∈ matchIds events)
    (hmade : ∀ group x, .made group x ∈ events →
      group ∈ w.matching.inFlight ∧ w'.rooms.created.lookup x = some group.matchId)
    (htaken : ∀ group alive, .taken group alive ∈ events → group.matchId ∉ matchIds w.history)
    (hordered : events.Pairwise Later) (hsound : w'.rooms.Sound) : Sound w' where
  matching := hmatching
  rooms := hsound
  flight group hgroup := by
    rw [hhistory, matchIds_append, List.mem_append]
    exact (hflight group hgroup).imp_left (h.flight group)
  made group x hmem := by
    rw [hhistory, matchIds_append, List.mem_append]
    rw [hhistory, List.mem_append] at hmem
    rcases hmem with hold | hnew
    · obtain ⟨hid, hroom⟩ := h.made group x hold
      exact ⟨.inl hid, hrooms.created x _ hroom⟩
    · obtain ⟨hgroup, hroom⟩ := hmade group x hnew
      exact ⟨.inl (h.flight group hgroup), hroom⟩
  ordered := by
    rw [hhistory, List.pairwise_append]
    refine ⟨h.ordered, hordered, fun e he e' he' => ?_⟩
    unfold Later
    split
    case h_1 group x group' alive =>
      intro heq
      refine htaken group' alive he' ?_
      rw [← heq]
      exact (h.made group x he).1
    case h_2 => trivial

/-- The events of one `Create`. -/
theorem Sound.create (h : Sound w) {a : Action} {call : Call} {group : PendingGroup}
    (hgroup : w.matching.allocating c a = some group) (hfresh : call.roomId ∉ w.rooms.created)
    (roomId : String) :
    Sound { w with
      matching := w.matching.next c (a.withRoomId roomId)
      rooms := w.rooms.next stores (createAction call group)
      history := w.history ++ (w.told call group).toList.map (.made group) } := by
  have hstep : w.rooms.Step stores (createAction call group)
      (w.rooms.next stores (createAction call group)) := ⟨hfresh, rfl⟩
  have hevent : ∀ e ∈ (w.told call group).toList.map (Event.made group),
      ∃ x, w.told call group = some x ∧ e = .made group x := by
    intro e he
    obtain ⟨x, hx, rfl⟩ := List.mem_map.mp he
    exact ⟨x, Option.mem_toList.mp hx, rfl⟩
  refine h.extend rfl (h.matching.next _) (.of_step h.rooms hstep) ?_ ?_ ?_ ?_
    (h.rooms.step hstep)
  · intro g hg
    refine .inl ((MatchSystem.mem_inFlight_next hg).resolve_right fun hnew => ?_)
    rw [MatchSystem.taken_of_allocating hgroup] at hnew
    cases hnew
  · intro g x hmem
    obtain ⟨y, htold, heq⟩ := hevent _ hmem
    obtain ⟨rfl, rfl⟩ := Event.made.inj heq
    obtain ⟨⟨y, snapshot⟩, hcreate, rfl⟩ := Option.map_eq_some_iff.mp htold
    exact ⟨MatchSystem.mem_inFlight_of_allocating hgroup,
      created_of_create stores h.rooms hcreate⟩
  · intro g alive hmem
    obtain ⟨_, -, heq⟩ := hevent _ hmem
    cases heq
  · refine List.pairwise_of_forall_mem_list fun e _ e' he' => .of_not_taken fun g alive heq => ?_
    obtain ⟨_, -, heq'⟩ := hevent _ he'
    cases heq.symm.trans heq'

/-- **Every step keeps the law.** -/
theorem Sound.step (h : Sound w) {op : Op} (hstep : Step c stores w op w') : Sound w' := by
  obtain ⟨hfresh, rfl⟩ := hstep
  rcases op with ⟨a, call⟩ | a | ⟨nowMs, loads⟩
  · obtain ⟨hids, hroom⟩ := hfresh
    simp only [next]
    rcases hgroup : w.matching.allocating c a with - | group
    · refine h.extend rfl (h.matching.next _) (.evolve h.rooms (.refl _)) ?_ ?_ ?_ ?_ h.rooms
      · intro g hg
        refine (MatchSystem.mem_inFlight_next hg).imp_right fun hnew => mem_matchIds.mpr ?_
        exact ⟨g, _, List.mem_append_left _ (List.mem_map_of_mem hnew), rfl⟩
      · intro g x hmem
        simp [MatchSystem.departures] at hmem
      · intro g alive hmem
        simp only [MatchSystem.departures, List.mem_append, List.mem_map, reduceCtorEq, and_false,
          exists_false, or_false, Event.taken.injEq, existsAndEq, true_and] at hmem
        exact hids _ (MatchSystem.matchId_of_taken h.matching hmem.1)
      · refine List.pairwise_of_forall_mem_list fun e he e' _ => .of_not_made fun g x heq => ?_
        subst heq
        simp [MatchSystem.departures] at he
    · dsimp only
      split
      · exact h.create hgroup hroom _
      · exact h.create hgroup hroom _
      · -- `Create` did not reach Room.
        refine h.extend (List.append_nil _).symm (h.matching.next _) (.evolve h.rooms (.refl _)) ?_
          (fun _ _ hmem => by cases hmem) (fun _ _ hmem => by cases hmem) .nil h.rooms
        intro g hg
        refine .inl ((MatchSystem.mem_inFlight_next hg).resolve_right fun hnew => ?_)
        rw [MatchSystem.taken_of_allocating hgroup] at hnew
        cases hnew
  · have hroom : w.rooms.Step stores a (w.rooms.next stores a) := by
      refine ⟨?_, rfl⟩
      cases a
      case create => cases hfresh
      all_goals trivial
    exact h.extend (List.append_nil _).symm h.matching (.of_step h.rooms hroom) (fun _ => .inl)
      (fun _ _ hmem => by cases hmem) (fun _ _ hmem => by cases hmem) .nil (h.rooms.step hroom)
  · -- Nothing is in flight after a restart.
    refine h.extend rfl (MatchSystem.Sound.next .start _) (.evolve h.rooms (.refl _)) ?_ ?_ ?_ ?_
      h.rooms
    · intro g hg
      rcases MatchSystem.mem_inFlight_next hg with hnone | hnone <;> cases hnone
    · intro g x hmem
      simp [MatchSystem.departures] at hmem
    · intro g alive hmem
      simp [MatchSystem.departures] at hmem
    · refine List.pairwise_of_forall_mem_list fun e he e' _ => .of_not_made fun g x heq => ?_
      subst heq
      simp [MatchSystem.departures] at he

theorem Sound.of_run {ops : List Op} (hrun : Run (Step c stores) {} ops w) : Sound w :=
  hrun.invariant (fun _ _ _ hs hstep => hs.step hstep) .start

/-! ## Every retry gets another room

Other id, other match, other room. -/

/-- The rooms of a retried pair were made for different matches. -/
theorem Sound.ne_of_retried (h : Sound w) {x y : String} (hretry : Retried w.history x y) :
    x ≠ y := by
  obtain ⟨group', before, after, hhistory, group, alive, first, second, third, fourth, hbefore, -⟩ :=
    hretry
  have hpairs := h.ordered
  rw [hhistory, hbefore] at hpairs
  have hlater : Later (.made group x) (.taken group' alive) := by
    simp only [List.append_assoc, List.cons_append, List.pairwise_append, List.pairwise_cons,
      List.mem_append, List.mem_cons] at hpairs
    exact hpairs.2.1.1 _ (.inr (.inr (.inr (.inl rfl))))
  have hx := (h.made group x (by rw [hhistory, hbefore]; simp)).2
  have hy := (h.made group' y (by rw [hhistory]; simp)).2
  rintro rfl
  exact hlater (Option.some.inj (hx.symm.trans hy))

/-- A retry goes on being one. -/
theorem Retried.append {history events : List Event} {x y : String} (h : Retried history x y) :
    Retried (history ++ events) x y := by
  obtain ⟨group', before, after, rfl, hretry⟩ := h
  exact ⟨group', before, after ++ events, by simp, hretry⟩

/-- A retry is over at the last `Create`. -/
theorem Retried.of_append {history events : List Event} {x y : String}
    (h : Retried (history ++ events) x y) :
    Retried history x y ∨ ∃ group before after, events = before ++ .made group y :: after ∧
      RetryOf (history ++ before) x group := by
  obtain ⟨group', before, after, heq, hretry⟩ := h
  rcases List.append_eq_append_iff.mp heq with ⟨before', rfl, hevents⟩ | ⟨rest, hhistory, hrest⟩
  · exact .inr ⟨group', before', after, hevents, hretry⟩
  · rcases List.cons_eq_append_iff.mp hrest with ⟨rfl, hevents⟩ | ⟨after', rfl, -⟩
    · rw [List.append_nil] at hhistory
      subst hhistory
      exact .inr ⟨group', [], after, hevents, by rwa [List.append_nil]⟩
    · exact .inl ⟨group', before, after', hhistory, hretry⟩

theorem isSome_told (call : Call) (group : PendingGroup) :
    (w.told call group).isSome = w.accepts call group := by
  unfold told accepts Room.RoomManager.create
  rcases Room.BattleRoom.createArgsOk group.matchId group.playerIds with - | -
  · rfl
  rcases (w.rooms.manager.matchIndex.lookup group.matchId).bind w.rooms.manager.rooms.lookup
    with - | room
  · rcases w.rooms.manager.shuttingDown with - | -
    · by_cases hempty : call.roomId = "" <;> simp [hempty]
    · rfl
  · rfl

/-- What one step adds to the history: only a `Create` makes a room. -/
theorem history_next (c : MatchConfig) (stores : Room.RoomStores) (w : Backend) (op : Op) :
    ∃ events, (w.next c stores op).history = w.history ++ events ∧
      ∀ group y, .made group y ∈ events → events = [.made group y] ∧
      ∃ a call, op = .matching a call ∧ w.matching.allocating c a = some group ∧
        call.reply ≠ .refused ∧ w.told call group = some y := by
  have hcreate : ∀ a call group, w.matching.allocating c a = some group → call.reply ≠ .refused →
      ∀ group' y, .made group' y ∈ (w.told call group).toList.map (Event.made group) →
        (w.told call group).toList.map (Event.made group) = [.made group' y] ∧
        ∃ a' call', Op.matching a call = .matching a' call' ∧
          w.matching.allocating c a' = some group' ∧ call'.reply ≠ .refused ∧
          w.told call' group' = some y := by
    intro a call group hgroup hreply group' y hmem
    obtain ⟨z, htold, heq⟩ := List.mem_map.mp hmem
    obtain ⟨rfl, rfl⟩ := Event.made.inj heq
    rw [Option.mem_toList] at htold
    exact ⟨by rw [htold]; rfl, a, call, rfl, hgroup, hreply, htold⟩
  rcases op with ⟨a, call⟩ | a | ⟨nowMs, loads⟩
  · simp only [next]
    rcases hgroup : w.matching.allocating c a with - | group
    · refine ⟨_, rfl, fun group y hmem => ?_⟩
      simp [MatchSystem.departures] at hmem
    · dsimp only
      split
      case h_1 hreply => exact ⟨_, rfl, hcreate a call group hgroup (by rw [hreply]; decide)⟩
      case h_2 hreply => exact ⟨_, rfl, hcreate a call group hgroup (by rw [hreply]; decide)⟩
      case h_3 => exact ⟨[], (List.append_nil _).symm, fun _ _ hmem => by cases hmem⟩
  · exact ⟨[], (List.append_nil _).symm, fun _ _ hmem => by cases hmem⟩
  · refine ⟨_, rfl, fun group y hmem => ?_⟩
    simp [MatchSystem.departures] at hmem

/-- A `Create` that takes effect is recorded. -/
theorem history_create {a : Action} {call : Call} {group : PendingGroup} {y : String}
    (hgroup : w.matching.allocating c a = some group) (hreply : call.reply ≠ .refused)
    (htold : w.told call group = some y) :
    (w.next c stores (.matching a call)).history = w.history ++ [.made group y] := by
  simp only [next, hgroup]
  split
  case h_1 => rw [htold]; rfl
  case h_2 => rw [htold]; rfl
  case h_3 hrefused => exact absurd hrefused hreply

/-- The history only grows. -/
theorem history_of_run {ops : List Op} (hrun : Run (Step c stores) w ops w') :
    w.history <+: w'.history := by
  refine hrun.related (P := fun w w' => w.history <+: w'.history) (fun w => List.prefix_refl _)
    (fun _ _ _ => .trans) fun w op w' hstep => ?_
  obtain ⟨-, rfl⟩ := hstep
  obtain ⟨events, hevents, -⟩ := history_next c stores w op
  exact ⟨events, hevents.symm⟩

/-- A safe step is no retry. -/
theorem SafeStep.not_retried {op : Op} (hsafe : w.SafeStep c op)
    (h : ∀ x y, ¬Retried w.history x y) (x y : String) :
    ¬Retried (w.next c stores op).history x y := by
  intro hretry
  obtain ⟨events, hhistory, hmade⟩ := history_next c stores w op
  rw [hhistory] at hretry
  rcases hretry.of_append with hold | ⟨group, before, after, hevents, hretry⟩
  · exact h x y hold
  · obtain ⟨hone, a, call, hop, hgroup, hreply, htold⟩ := hmade group y (by rw [hevents]; simp)
    have hbefore : before = [] := by
      rw [hone] at hevents
      rcases before with - | ⟨e, before⟩
      · rfl
      · simp at hevents
    rw [hbefore, List.append_nil] at hretry
    exact hsafe a call group x hop hgroup hreply (by rw [← isSome_told, htold]; rfl) hretry

/-- **Retries get the same room in exactly the runs without any** — the match id is new whenever a
group is taken, so Room's idempotence by match id never applies. -/
theorem sameRoom_iff {ops : List Op} (hrun : Run (Step c stores) {} ops w) :
    w.SameRoom ↔ ∀ pre op post u, ops = pre ++ op :: post → Run (Step c stores) {} pre u →
      u.SafeStep c op := by
  constructor
  · rintro ⟨hsame, -⟩ pre op post u rfl hpre a call group x rfl hgroup hreply haccepts hretry
    obtain ⟨y, htold⟩ := Option.isSome_iff_exists.mp ((isSome_told call group).trans haccepts)
    obtain ⟨v, hv, hrest⟩ := Run.append_iff.mp hrun
    obtain rfl := hv.unique (fun _ _ _ _ hs hs' => hs.2.trans hs'.2.symm) hpre
    obtain ⟨v', ⟨-, rfl⟩, hpost⟩ := Run.cons_iff.mp hrest
    obtain ⟨events, hevents⟩ := history_of_run hpost
    have hretried : Retried w.history x y := by
      rw [← hevents, history_create hgroup hreply htold]
      exact Retried.append ⟨group, _, [], rfl, hretry⟩
    exact (Sound.of_run hrun).ne_of_retried hretried (hsame x y hretried)
  · intro hsafe
    have hnone : ∀ x y, ¬Retried w.history x y := by
      refine hrun.invariant_of_guard (I := fun w => ∀ x y, ¬Retried w.history x y)
        (G := fun w op => w.SafeStep c op) ?_ hsafe ?_
      · rintro w op _ hI hG ⟨-, rfl⟩
        exact hG.not_retried hI
      · rintro x y ⟨group', before, after, heq, -⟩
        cases before <;> cases heq
    exact ⟨fun x y h => absurd h (hnone x y), fun x y h => absurd h (hnone x y)⟩

/-- Two players are paired; the reply of the `Create` for their room is lost. -/
def lostReply : List Op :=
  [.matching (.enqueue "alice" "q-1" 1000) {}, .matching (.resume 0 {}) {},
    .matching (.resume 0 {}) {}, .matching (.resume 0 {}) {}, .matching (.resume 0 {}) {},
    .matching (.enqueue "bob" "q-2" 1100) {}, .matching (.resume 1 {}) {},
    .matching (.resume 1 {}) {}, .matching (.resume 1 ⟨["m-1"], "", true, 0⟩) {},
    .matching (.resume 1 {}) {}, .matching (.resume 1 {}) ⟨1100, "r-1", .lost⟩]

theorem sameRoom_iff_lostReply :
    (lostReply.foldl (next {} mysqlStores) {}).SameRoom ↔ ∀ pre op post u, lostReply = pre ++ op :: post →
      Run (Step {} mysqlStores) {} pre u → u.SafeStep {} op :=
  sameRoom_iff (Run.of_guarded (by decide))

/-- The players are put back, and a poll of one of them pairs them again. -/
def retriedPair : List Op :=
  lostReply ++ [.matching (.resume 1 {}) {}, .matching (.resume 1 {}) {},
    .matching (.resume 1 {}) {}, .matching (.getStatus "alice" 1200) {},
    .matching (.resume 2 {}) {}, .matching (.resume 2 {}) {},
    .matching (.resume 2 ⟨["m-2"], "", true, 0⟩) {}, .matching (.resume 2 {}) {},
    .matching (.resume 2 {}) ⟨1200, "r-2", .done⟩]

/-- They get a second room, while the first one is alive. -/
theorem not_sameRoom :
    ¬∀ c stores ops w, Run (Step c stores) {} ops w → w.SameRoom := by
  intro h
  have hrun : Run (Step {} mysqlStores) {} retriedPair (retriedPair.foldl (next {} mysqlStores) {}) :=
    Run.of_guarded (by decide)
  have hhistory : (retriedPair.foldl (next {} mysqlStores) {}).history =
      [.taken ⟨"m-1", ["alice", "bob"], "q-1"⟩ [], .made ⟨"m-1", ["alice", "bob"], "q-1"⟩ "r-1",
        .putBack ⟨"m-1", ["alice", "bob"], "q-1"⟩, .taken ⟨"m-2", ["alice", "bob"], "q-1"⟩ ["r-1"],
        .made ⟨"m-2", ["alice", "bob"], "q-1"⟩ "r-2"] := by decide
  have hretried : Retried (retriedPair.foldl (next {} mysqlStores) {}).history "r-1" "r-2" := by
    rw [hhistory]
    exact ⟨_, [_, _, _, _], [], rfl, _, _, [_], [], [], [], rfl, .refl _, by decide, by decide⟩
  exact absurd ((h {} mysqlStores _ _ hrun).1 _ _ hretried) (by decide)

end Backend

end RealtimeGame.Match
