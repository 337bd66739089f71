import RealtimeGame.Match.Pairings
import RealtimeGame.Room.Earned
import RealtimeGame.Room.ResultAgreement

/-!
# Match/Joinable — the room of a match is the room of its players

Match hands out the room id that `CreateRoom` answered, or the one that it saved before it was restarted.  `Cast`
ties every copy of such an id (in an entry, in a thread, in a snapshot, in the store) to the group that the room
was made for, and to the id of its match.  So whoever is told of a match can take his place in its room, and nobody
else can (`matched_can_join`), whatever replies were lost and however often Match was restarted.
-/

open Library

namespace RealtimeGame.Match

open MatchQueue (record)

variable {c : MatchConfig} {stores : Room.RoomStores} {p : String}

/-! ## Both services

Every copy of a room id goes back to a `Create`. -/

namespace Backend

variable {w w' : Backend} {y : Pairing} {x : String}

/-- A group that was taken. -/
def Known (w : Backend) (group : PendingGroup) : Prop := ∃ alive, .taken group alive ∈ w.history

/-- Room made the room for the match, and Match formed it of these players. -/
def Hosts (w : Backend) (y : Pairing) : Prop :=
  ∃ group, w.Known group ∧ y = ⟨group.matchId, y.roomId, group.playerIds⟩ ∧
    w.rooms.created.lookup y.roomId = some group.matchId

/-- **Cast** — every room has the players of the group it was made for, and every copy of a room id stands with
these players. -/
structure Cast (w : Backend) : Prop where
  sound : Sound w
  flight : ∀ group ∈ w.matching.inFlight, w.Known group
  unique : ∀ group group', w.Known group → w.Known group' → group.matchId = group'.matchId → group = group'
  origin : ∀ x k, w.rooms.created.lookup x = some k → k ∈ matchIds w.history
  players : ∀ group, w.Known group → ∀ x r, w.rooms.room? x = some r →
    w.rooms.created.lookup x = some group.matchId → r.playerIds = group.playerIds
  result : ∀ p e, w.matching.queue.entries.lookup p = some e → e.state = .matched →
    p ∈ e.playerIds ∧ w.Hosts ⟨e.matchId, e.roomId, e.playerIds⟩
  held : ∀ y ∈ w.matching.pairings, w.Hosts y
  stored : ∀ row ∈ w.store, ∀ y, row.entry.pairing? = some y → w.Hosts y

theorem Cast.start : Cast {} where
  sound := .start
  flight group h := by cases h
  unique group group' h := by
    obtain ⟨alive, h⟩ := h
    cases h
  origin x k h := by cases h
  players group h := by
    obtain ⟨alive, h⟩ := h
    cases h
  result p e h := by cases h
  held y h := by cases h
  stored row h := by cases h

/-- What Room made stays made. -/
theorem Hosts.mono (h : w.Hosts y) (hhistory : w.history ⊆ w'.history)
    (hcreated : ∀ x k, w.rooms.created.lookup x = some k → w'.rooms.created.lookup x = some k) : w'.Hosts y := by
  obtain ⟨group, ⟨alive, hknown⟩, hpairing, hmade⟩ := h
  exact ⟨group, ⟨alive, hhistory hknown⟩, hpairing, hcreated _ _ hmade⟩

/-- **A room that is there has these players.** -/
theorem Cast.of_hosts (h : Cast w) (hosts : w.Hosts y) {r : Room.BattleRoom}
    (hr : w.rooms.room? y.roomId = some r) : r.playerIds = y.playerIds := by
  obtain ⟨group, hknown, hpairing, hmade⟩ := hosts
  rw [hpairing] at hr hmade ⊢
  exact h.players group hknown _ r hr hmade

/-! ## Room

A room keeps the players that it was made for. -/

/-- Only `Create` asks for a new room id. -/
theorem fresh_of_isCreate {s : Room.RoomSystem} {a : Room.Action} (h : isCreate a = false) : s.Fresh a := by
  cases a with
  | create => cases h
  | _ => trivial

/-- A `Create` is for a group that was taken. -/
def Asked (w : Backend) (a : Room.Action) : Prop :=
  ∀ k ids nowMs x, a = .create k ids nowMs x → ∃ group, w.Known group ∧ k = group.matchId ∧ ids = group.playerIds

theorem Cast.players_next (h : Cast w) {a : Room.Action} (hfresh : w.rooms.Fresh a) (hasked : w.Asked a)
    {group : PendingGroup} (hknown : w.Known group) {r' : Room.BattleRoom}
    (hr' : (w.rooms.next stores a).room? x = some r')
    (hmade : (w.rooms.next stores a).created.lookup x = some group.matchId) : r'.playerIds = group.playerIds := by
  have heffect : w.rooms.Effect (w.rooms.next stores a) := .of_step h.sound.rooms ⟨hfresh, rfl⟩
  rcases hr : w.rooms.room? x with - | r
  · obtain ⟨k, ids, nowMs, rfl, hmakes, rfl⟩ := Room.RoomSystem.room?_next_new hr hr'
    obtain ⟨group', hknown', rfl, rfl⟩ := hasked _ _ _ _ rfl
    have hid : group'.matchId = group.matchId := by
      simp only [Room.RoomSystem.next, hmakes, if_true, AList.lookup_insert] at hmade
      exact Option.some.inj hmade
    rw [h.unique group' group hknown' hknown hid]
    exact Room.BattleRoom.playerIds_new ..
  · obtain ⟨hold, -⟩ := h.sound.rooms.created x r hr
    have hsame := (heffect.created x _ hold).symm.trans hmade
    rw [Room.RoomSystem.playerIds_next hr hr']
    exact h.players group hknown x r hr (hold.trans hsame)

theorem Cast.origin_next (h : Cast w) {a : Room.Action} (hfresh : w.rooms.Fresh a) (hasked : w.Asked a) {k : String}
    (hmade : (w.rooms.next stores a).created.lookup x = some k) : k ∈ matchIds w.history := by
  have heffect : w.rooms.Effect (w.rooms.next stores a) := .of_step h.sound.rooms ⟨hfresh, rfl⟩
  by_cases hx : x ∈ w.rooms.created
  · obtain ⟨k', hk'⟩ := Option.isSome_iff_exists.mp (AList.lookup_isSome.mpr hx)
    obtain rfl := Option.some.inj ((heffect.created x k' hk').symm.trans hmade)
    exact h.origin x k' hk'
  · obtain ⟨ids, nowMs, rfl, -⟩ := Room.RoomWorld.create_of_created hx hmade
    obtain ⟨group, ⟨alive, hknown⟩, rfl, -⟩ := hasked _ _ _ _ rfl
    exact mem_matchIds.mpr ⟨group, alive, hknown, rfl⟩

/-! ## Match

A group keeps its players and its match id while it is in flight. -/

/-- A commit is of a result that a thread holds. -/
theorem mem_pairings_of_commits {s : MatchSystem} {a : Action} {group : PendingGroup} {roomId : String} {nowMs : Int}
    (h : s.commits a = some (group, roomId, nowMs)) (hne : roomId ≠ "") :
    ⟨group.matchId, roomId, group.playerIds⟩ ∈ s.pairings := by
  unfold MatchSystem.commits at h
  cases a with
  | resume thread answer =>
    rw [MatchSystem.resumed] at h
    split at h
    case h_1 nowMs' group' roomId' groups hpc =>
      cases h
      exact List.mem_flatMap.mpr ⟨_, List.mem_of_getElem? hpc, PendingGroup.mem_pairing.mpr ⟨hne, rfl⟩⟩
    case h_2 group' roomId' queuedMs hpc =>
      cases h
      exact List.mem_flatMap.mpr ⟨_, List.mem_of_getElem? hpc, PendingGroup.mem_pairing.mpr ⟨hne, rfl⟩⟩
    case h_3 => cases h
  | _ => cases h

/-- **A result after an action** stands with the players of its room. -/
theorem Cast.result_next (h : Cast w) (hagreed : w.matching.Agreed) {a : Action} (hserves : a.serves = true)
    {e : Entry} (he : (w.matching.next c a).queue.entries.lookup p = some e) (hs : e.state = .matched) :
    p ∈ e.playerIds ∧ w.Hosts ⟨e.matchId, e.roomId, e.playerIds⟩ := by
  rcases MatchSystem.matched_of_next h.sound.matching he hs with ⟨hold, -⟩ |
    ⟨group, roomId, nowMs, x, hcommits, hviable, hp, hx, rfl⟩ | ⟨rows, nowMs, rfl⟩
  · exact h.result p e hold hs
  · have hne : roomId ≠ "" := by
      rintro rfl
      simp [MatchQueue.groupViable] at hviable
    have hid : x.matchId = group.matchId :=
      hagreed.noted group (MatchSystem.mem_inFlight_of_commits hcommits) p hp x hx
    refine ⟨hp, ?_⟩
    rw [show (x.settle roomId group.playerIds nowMs).matchId = group.matchId from hid]
    exact h.held _ (mem_pairings_of_commits hcommits hne)
  · cases hserves

/-- What a thread holds after an action without `Allocate`. -/
theorem Cast.held_next (h : Cast w) {a : Action} (hquiet : w.matching.allocating c a = none)
    (hy : y ∈ (w.matching.next c a).pairings) : w.Hosts y := by
  rcases MatchSystem.pairings_next hy with hold | ⟨thread, answer, group, -, hallocating, -⟩ | hnew
  · exact h.held y hold
  · cases hquiet.symm.trans hallocating
  · obtain ⟨p, e, he, hs, rfl⟩ := MatchSystem.exists_of_pairings_makeSnapshot hnew
    exact (h.result p e he hs).2

/-! ## Both

One step of both services keeps every copy. -/

section

variable {events : List Event} {group : PendingGroup} {rooms : Room.RoomSystem} {matching : MatchSystem}
  {store : List MatchQueueSnapshotRow}

theorem Known.of_append (h : Known ⟨matching, rooms, store, w.history ++ events⟩ group) :
    w.Known group ∨ ∃ alive, .taken group alive ∈ events := by
  obtain ⟨alive, hmem⟩ := h
  exact (List.mem_append.mp hmem).imp (fun hold => ⟨alive, hold⟩) fun hnew => ⟨alive, hnew⟩

/-- No group is taken. -/
theorem known_iff (hevents : ∀ group alive, .taken group alive ∉ events) :
    Known ⟨matching, rooms, store, w.history ++ events⟩ group ↔ w.Known group where
  mp h := by
    refine h.of_append.resolve_right ?_
    rintro ⟨alive, hnew⟩
    exact hevents group alive hnew
  mpr h := by
    obtain ⟨alive, hold⟩ := h
    exact ⟨alive, List.mem_append_left _ hold⟩

end

/-- Match is in service, and its generator repeats no id. -/
def Serving : Op → Prop
  | .matching a _ => a.serves = true ∧ a.ids.Nodup
  | .room _ | .restart .. => True

instance : DecidablePred Serving
  | .matching a _ => inferInstanceAs (Decidable (a.serves = true ∧ a.ids.Nodup))
  | .room _ | .restart .. => .isTrue trivial

theorem serves_withRoomId (a : Action) (roomId : String) : (a.withRoomId roomId).serves = a.serves := by
  cases a <;> rfl

/-- **Agreeing** — the results of the queue agree, and so do those that were saved. -/
structure Agreeing (w : Backend) : Prop where
  agreed : w.matching.Agreed
  copies : ∀ pc ∈ w.matching.threads, ∀ snapshot, pc.copy = some snapshot →
    ∃ s : MatchSystem, s.Agreed ∧ snapshot = s.queue.makeSnapshot
  stored : ∃ s : MatchSystem, s.Agreed ∧ s.queue.makeSnapshot.holds w.store

theorem Agreeing.start : Agreeing {} where
  agreed := .start
  copies pc h := by cases h
  stored := ⟨{}, .start, fun row h => by cases h⟩

theorem Agreeing.matching_next (h : Agreeing w) {a : Action} (hserves : a.serves = true) {rooms : Room.RoomSystem}
    {history : List Event} :
    Agreeing ⟨w.matching.next c a, rooms, (w.matching.savedRows a).getD w.store, history⟩ where
  agreed := h.agreed.next hserves
  copies pc hpc snapshot hcopy := by
    rcases MatchSystem.copy_next hpc hcopy with ⟨pc', hpc', hcopy'⟩ | rfl
    · exact h.copies pc' hpc' snapshot hcopy'
    · exact ⟨w.matching, h.agreed, rfl⟩
  stored := by
    cases hrows : w.matching.savedRows a with
    | none => exact h.stored
    | some rows =>
      obtain ⟨pc, hpc, snapshot, hcopy, hholds⟩ := MatchSystem.copy_of_savedRows hrows
      obtain ⟨s, hs, rfl⟩ := h.copies pc hpc snapshot hcopy
      exact ⟨s, hs, hholds⟩

/-- An `Allocate` saves nothing. -/
theorem savedRows_of_allocating {s : MatchSystem} {a : Action} {group : PendingGroup}
    (h : s.allocating c a = some group) (roomId : String) : s.savedRows (a.withRoomId roomId) = none := by
  cases a with
  | resume thread answer =>
    simp only [Action.withRoomId, MatchSystem.savedRows]
    split
    case h_1 nowMs snapshot hpc => simp [MatchSystem.allocating, MatchSystem.resumed, hpc] at h
    case h_2 => rfl
  | _ => rfl

theorem Agreeing.step (h : Agreeing w) {op : Op} (hserving : Serving op) (hstep : Step c stores w op w') :
    Agreeing w' := by
  obtain ⟨-, rfl⟩ := hstep
  cases op with
  | matching a call =>
    have hnext : ∀ {roomId : String} {group : PendingGroup} {rooms : Room.RoomSystem} {history : List Event},
        w.matching.allocating c a = some group →
        Agreeing ⟨w.matching.next c (a.withRoomId roomId), rooms, w.store, history⟩ := by
      intro roomId group rooms history hgroup
      have hsame : Agreeing ⟨w.matching.next c (a.withRoomId roomId), rooms,
          (w.matching.savedRows (a.withRoomId roomId)).getD w.store, history⟩ :=
        h.matching_next ((serves_withRoomId a roomId).trans hserving.1)
      rwa [savedRows_of_allocating hgroup] at hsame
    simp only [next]
    split
    case h_1 group hgroup =>
      split
      · exact hnext hgroup
      · exact hnext hgroup
      · exact hnext hgroup
    case h_2 => exact h.matching_next hserving.1
  | room a => exact ⟨h.agreed, h.copies, h.stored⟩
  | restart nowMs loads =>
    obtain ⟨s, hs, hholds⟩ := h.stored
    refine ⟨?_, fun pc hpc => ?_, h.stored⟩
    · cases loads with
      | true => exact hs.restored c nowMs hholds
      | false => exact .start
    · rw [next, MatchSystem.threads_restore] at hpc
      cases hpc

/-- **A step of Match** by itself: it takes groups with new ids, and makes no room. -/
theorem Cast.matching_next (h : Cast w) (hagreed : w.matching.Agreed) {a : Action}
    (hserving : a.serves = true ∧ a.ids.Nodup) (hids : ∀ id ∈ a.ids, id ∉ matchIds w.history)
    (hquiet : w.matching.allocating c a = none)
    {store : List MatchQueueSnapshotRow} (hstore : store = (w.matching.savedRows a).getD w.store)
    {events : List Event} (hevents : ∀ group alive, .taken group alive ∈ events ↔
      group ∈ w.matching.taken a ∧ alive = w.alive)
    (hsound : Sound ⟨w.matching.next c a, w.rooms, store, w.history ++ events⟩) :
    Cast ⟨w.matching.next c a, w.rooms, store, w.history ++ events⟩ := by
  have hhosts : ∀ {y}, w.Hosts y →
      Hosts ⟨w.matching.next c a, w.rooms, store, w.history ++ events⟩ y := fun hold =>
    hold.mono (List.subset_append_left ..) fun _ _ => id
  have hnew : ∀ group alive, .taken group alive ∈ events → group.matchId ∉ matchIds w.history :=
    fun group alive hmem => hids _ (MatchSystem.matchId_of_taken h.sound.matching ((hevents _ _).mp hmem).1)
  have hold : ∀ group, w.Known group → group.matchId ∈ matchIds w.history := by
    rintro group ⟨alive, hmem⟩
    exact mem_matchIds.mpr ⟨group, alive, hmem, rfl⟩
  refine
    { sound := hsound
      flight := fun group hgroup => ?_
      unique := fun group group' hknown hknown' hid => ?_
      origin := fun x k hmade => ?_
      players := fun group hknown x r hr hmade => ?_
      result := fun p e he hs => (h.result_next hagreed hserving.1 he hs).imp_right hhosts
      held := fun y hy => hhosts (h.held_next hquiet hy)
      stored := fun row hrow y hy => ?_ }
  · rcases MatchSystem.mem_inFlight_next hgroup with hflight | htaken
    · obtain ⟨alive, hmem⟩ := h.flight group hflight
      exact ⟨alive, List.mem_append_left _ hmem⟩
    · exact ⟨w.alive, List.mem_append_right _ ((hevents _ _).mpr ⟨htaken, rfl⟩)⟩
  · rcases Known.of_append hknown with hk | ⟨alive, ht⟩ <;> rcases Known.of_append hknown' with hk' | ⟨alive', ht'⟩
    · exact h.unique group group' hk hk' hid
    · exact absurd (hid ▸ hold group hk) (hnew group' alive' ht')
    · exact absurd (hid ▸ hold group' hk') (hnew group alive ht)
    · have hnodup := (MatchSystem.ids_of_taken h.sound.matching a).sublist.nodup hserving.2
      exact List.inj_on_of_nodup_map hnodup ((hevents _ _).mp ht).1 ((hevents _ _).mp ht').1 hid
  · rw [matchIds_append]
    exact List.mem_append_left _ (h.origin x k hmade)
  · rcases Known.of_append hknown with hk | ⟨alive, ht⟩
    · exact h.players group hk x r hr hmade
    · exact absurd (h.origin x _ hmade) (hnew group alive ht)
  · subst hstore
    cases hsaved : w.matching.savedRows a with
    | none =>
      rw [hsaved] at hrow
      exact hhosts (h.stored row hrow y hy)
    | some rows =>
      rw [hsaved] at hrow
      exact hhosts (h.held y (MatchSystem.pairings_of_savedRows hsaved hrow hy))

theorem allocating_withRoomId (s : MatchSystem) (a : Action) (roomId : String) :
    s.allocating c (a.withRoomId roomId) = s.allocating c a := by
  cases a <;> rfl

theorem roomId_of_withRoomId {a : Action} {roomId : String} {thread : Nat} {answer : Answer}
    (h : a.withRoomId roomId = .resume thread answer) : answer.roomId = roomId := by
  cases a with
  | resume =>
    cases h
    rfl
  | _ => cases h

/-- **An `Allocate`**, whatever becomes of it: it takes no group, and the room that it answers is for its group. -/
theorem Cast.allocate_next (h : Cast w) (hagreed : w.matching.Agreed) {a : Action} (hserves : a.serves = true)
    {group : PendingGroup} (hgroup : w.matching.allocating c a = some group) {rooms : Room.RoomSystem} {roomId : String}
    (hcreated : ∀ x k, w.rooms.created.lookup x = some k → rooms.created.lookup x = some k)
    (horigin : ∀ x k, rooms.created.lookup x = some k → k ∈ matchIds w.history)
    (hplayers : ∀ group, w.Known group → ∀ x r, rooms.room? x = some r →
      rooms.created.lookup x = some group.matchId → r.playerIds = group.playerIds)
    (htold : roomId ≠ "" → rooms.created.lookup roomId = some group.matchId) {events : List Event}
    (hevents : ∀ group alive, .taken group alive ∉ events)
    (hsound : Sound ⟨w.matching.next c (a.withRoomId roomId), rooms, w.store, w.history ++ events⟩) :
    Cast ⟨w.matching.next c (a.withRoomId roomId), rooms, w.store, w.history ++ events⟩ := by
  have hhosts : ∀ {y}, w.Hosts y →
      Hosts ⟨w.matching.next c (a.withRoomId roomId), rooms, w.store, w.history ++ events⟩ y := fun hold =>
    hold.mono (List.subset_append_left ..) hcreated
  refine
    { sound := hsound
      flight := fun g hg => (known_iff hevents).mpr (h.flight g ?_)
      unique := fun g g' hk hk' => h.unique g g' ((known_iff hevents).mp hk) ((known_iff hevents).mp hk')
      origin := fun x k hmade => ?_
      players := fun g hk => hplayers g ((known_iff hevents).mp hk)
      result := fun p e he hs =>
        (h.result_next hagreed ((serves_withRoomId a roomId).trans hserves) he hs).imp_right hhosts
      held := fun y hy => ?_
      stored := fun row hrow y hy => hhosts (h.stored row hrow y hy) }
  · refine (MatchSystem.mem_inFlight_next hg).resolve_right fun htaken => ?_
    rw [MatchSystem.taken_of_allocating hgroup] at htaken
    cases htaken
  · rw [matchIds_append]
    exact List.mem_append_left _ (horigin x k hmade)
  · rcases MatchSystem.pairings_next hy with hold | ⟨thread, answer, g, hresume, hallocating, hne, rfl⟩ | hnew
    · exact hhosts (h.held y hold)
    · rw [allocating_withRoomId, hgroup] at hallocating
      obtain rfl := Option.some.inj hallocating
      obtain rfl := roomId_of_withRoomId hresume
      have hflight := h.flight group (MatchSystem.mem_inFlight_of_allocating hgroup)
      exact ⟨group, (known_iff hevents).mpr hflight, rfl, htold hne⟩
    · obtain ⟨p, e, he, hs, rfl⟩ := MatchSystem.exists_of_pairings_makeSnapshot hnew
      exact hhosts (h.result p e he hs).2

/-- A restart of Match brings back what is in the store. -/
theorem Cast.restart_next (h : Cast w) (nowMs : Int) (rows : Option (List MatchQueueSnapshotRow))
    (hrows : rows = some w.store ∨ rows = none) {events : List Event}
    (hevents : ∀ group alive, .taken group alive ∉ events)
    (hsound : Sound ⟨MatchSystem.next c {} (.restore rows nowMs), w.rooms, w.store, w.history ++ events⟩) :
    Cast ⟨MatchSystem.next c {} (.restore rows nowMs), w.rooms, w.store, w.history ++ events⟩ := by
  have hhosts : ∀ {y}, w.Hosts y →
      Hosts ⟨MatchSystem.next c {} (.restore rows nowMs), w.rooms, w.store, w.history ++ events⟩ y := fun hold =>
    hold.mono (List.subset_append_left ..) fun _ _ => id
  refine
    { sound := hsound
      flight := fun g hg => ?_
      unique := fun g g' hk hk' => h.unique g g' ((known_iff hevents).mp hk) ((known_iff hevents).mp hk')
      origin := fun x k hmade => ?_
      players := fun g hk => h.players g ((known_iff hevents).mp hk)
      result := fun p e he hs => ?_
      held := fun y hy => ?_
      stored := fun row hrow y hy => hhosts (h.stored row hrow y hy) }
  · rcases MatchSystem.mem_inFlight_next hg with hnone | hnone <;> cases hnone
  · rw [matchIds_append]
    exact List.mem_append_left _ (h.origin x k hmade)
  · rcases hrows with rfl | rfl
    · simp only [MatchSystem.next] at he
      split_ifs at he
      · obtain ⟨row, hrow, rfl, hp, -⟩ := MatchQueue.whole_restoreLocked c nowMs w.store p e he hs
        obtain ⟨⟨entry, problem⟩, hin, hsome⟩ := List.mem_filterMap.mp hrow
        cases entry with
        | queued => cases hsome
        | matched matchId roomId playerIds stampMs =>
          obtain ⟨-, hsome⟩ := Option.ite_none_right_eq_some.mp hsome
          cases hsome
          exact ⟨hp, hhosts (h.stored _ hin ⟨matchId, roomId, playerIds⟩ rfl)⟩
      · cases he
    · cases he
  · rcases MatchSystem.pairings_next hy with hnone | ⟨thread, answer, g, hresume, -⟩ | hnew
    · cases hnone
    · cases hresume
    · obtain ⟨p, e, he, -⟩ := MatchSystem.exists_of_pairings_makeSnapshot hnew
      cases he

/-- A `Create` for a group. -/
theorem Cast.create_next (h : Cast w) (hagreed : w.matching.Agreed) {a : Action} (hserves : a.serves = true)
    {group : PendingGroup} (hgroup : w.matching.allocating c a = some group) {call : Call}
    (hroom : call.roomId ∉ w.rooms.created) {roomId : String} (htold : roomId ≠ "" →
      (w.rooms.next stores (createAction call group)).created.lookup roomId = some group.matchId)
    (hsound : Sound { w with
      matching := w.matching.next c (a.withRoomId roomId)
      rooms := w.rooms.next stores (createAction call group)
      history := w.history ++ (w.told call group).toList.map (.made group) }) :
    Cast { w with
      matching := w.matching.next c (a.withRoomId roomId)
      rooms := w.rooms.next stores (createAction call group)
      history := w.history ++ (w.told call group).toList.map (.made group) } := by
  have hfresh : w.rooms.Fresh (createAction call group) := hroom
  have heffect : w.rooms.Effect (w.rooms.next stores (createAction call group)) :=
    .of_step h.sound.rooms ⟨hfresh, rfl⟩
  have hasked : w.Asked (createAction call group) := by
    rintro k ids nowMs x heq
    obtain ⟨rfl, rfl, -⟩ := Room.Action.create.inj heq
    exact ⟨group, h.flight group (MatchSystem.mem_inFlight_of_allocating hgroup), rfl, rfl⟩
  exact h.allocate_next hagreed hserves hgroup heffect.created (fun x k hmade => h.origin_next hfresh hasked hmade)
    (fun g hk x r hr hmade => h.players_next hfresh hasked hk hr hmade) htold
    (fun g alive hmem => by simp at hmem) hsound

/-- The room that `Create` tells is for the group. -/
theorem told_of_ne_empty (h : w.rooms.Sound) {call : Call} {group : PendingGroup}
    (hne : (w.told call group).getD "" ≠ "") :
    (w.rooms.next stores (createAction call group)).created.lookup ((w.told call group).getD "") =
      some group.matchId := by
  rcases htold : w.told call group with - | x
  · rw [htold] at hne
    exact absurd rfl hne
  · obtain ⟨⟨y, snapshot⟩, hcreate, rfl⟩ := Option.map_eq_some_iff.mp htold
    exact created_of_create stores h hcreate

theorem Cast.room_next (h : Cast w) {a : Room.Action} (hfresh : isCreate a = false)
    (hsound : Sound { w with rooms := w.rooms.next stores a }) : Cast { w with rooms := w.rooms.next stores a } := by
  have hnew : w.rooms.Fresh a := fresh_of_isCreate hfresh
  have hasked : w.Asked a := by
    rintro k ids nowMs x rfl
    cases hfresh
  have heffect : w.rooms.Effect (w.rooms.next stores a) := .of_step h.sound.rooms ⟨hnew, rfl⟩
  have hhosts : ∀ {y}, w.Hosts y → Hosts { w with rooms := w.rooms.next stores a } y :=
    fun hold => hold.mono (List.Subset.refl _) heffect.created
  exact
    { sound := hsound
      flight := h.flight
      unique := h.unique
      origin := fun x k hmade => h.origin_next hnew hasked hmade
      players := fun g hk x r hr hmade => h.players_next hnew hasked hk hr hmade
      result := fun p e he hs => (h.result p e he hs).imp_right hhosts
      held := fun y hy => hhosts (h.held y hy)
      stored := fun row hrow y hy => hhosts (h.stored row hrow y hy) }

/-- **Every step keeps it.** -/
theorem Cast.step (h : Cast w) (hagreed : w.matching.Agreed) {op : Op} (hserving : Serving op)
    (hstep : Step c stores w op w') : Cast w' := by
  have hsound := h.sound.step hstep
  obtain ⟨hfresh, rfl⟩ := hstep
  cases op with
  | matching a call =>
    obtain ⟨hids, hroom⟩ := hfresh
    simp only [next] at hsound ⊢
    cases hgroup : w.matching.allocating c a with
    | none =>
      rw [hgroup] at hsound
      refine h.matching_next hagreed hserving hids hgroup rfl (fun group alive => ?_) hsound
      simp only [MatchSystem.departures, List.mem_append, List.mem_map, reduceCtorEq, and_false, exists_false, or_false,
        Event.taken.injEq, existsAndEq, true_and]
      exact and_congr_right' eq_comm
    | some group =>
      have hknown := h.flight group (MatchSystem.mem_inFlight_of_allocating hgroup)
      rw [hgroup] at hsound
      cases hreply : call.reply with
      | done =>
        rw [hreply] at hsound
        exact h.create_next hagreed hserving.1 hgroup hroom (told_of_ne_empty h.sound.rooms) hsound
      | lost =>
        rw [hreply] at hsound
        exact h.create_next hagreed hserving.1 hgroup hroom (fun hne => absurd rfl hne) hsound
      | refused =>
        rw [hreply] at hsound
        rw [← List.append_nil w.history] at hsound ⊢
        exact h.allocate_next hagreed hserving.1 hgroup (fun _ _ => id) h.origin h.players
          (fun hne => absurd rfl hne) (fun _ _ hmem => by cases hmem) hsound
  | room a => exact h.room_next hfresh hsound
  | restart nowMs loads =>
    refine h.restart_next nowMs _ ?_ (fun group alive => ?_) hsound
    · cases loads
      · exact .inr rfl
      · exact .inl rfl
    · simp [MatchSystem.departures]

/-- **Every run in which Match serves** keeps both. -/
theorem cast_of_run {ops : List Op} (hrun : Run (Step c stores) {} ops w) (hserving : ∀ op ∈ ops, Serving op) :
    Agreeing w ∧ Cast w := by
  refine hrun.invariant_of_guard (I := fun w => Agreeing w ∧ Cast w) (G := fun _ op => Serving op)
    (fun _ _ _ h hop hstep => ⟨h.1.step hop hstep, h.2.step h.1.agreed hop hstep⟩)
    (fun pre op post _ heq _ => hserving op ?_) ⟨.start, .start⟩
  rw [heq]
  exact List.mem_append_right _ List.mem_cons_self

/-- **Whoever is told of a match** is one of its players, and Room made the room for it. -/
theorem Cast.hosts_of_status (h : Cast w) (hagreed : w.matching.Agreed) {nowMs : Int}
    (hmatched : (w.matching.status c p nowMs).state = .matched) :
    p ∈ (w.matching.status c p nowMs).playerIds ∧
      w.Hosts ⟨(w.matching.status c p nowMs).matchId, (w.matching.status c p nowMs).roomId,
        (w.matching.status c p nowMs).playerIds⟩ := by
  obtain ⟨e, he, hs, hrecord⟩ := MatchSystem.entry_of_status hmatched
  obtain ⟨hid, hroom, hplayers, -⟩ := MatchQueueEntry.matched.inj hrecord
  obtain ⟨hp, hosts⟩ := h.result_next hagreed rfl he hs
  rw [hid, hroom, hplayers] at hosts
  exact ⟨hplayers ▸ hp, hosts⟩

/-! ## Who can join

`Join` asks whether the player is one of the two, and nothing more. -/

/-- A room takes no id that it would refuse. -/
def Admitting (w : Backend) : Prop :=
  ∀ x r, w.rooms.room? x = some r → ∀ q ∈ r.playerIds, Room.validId q = true

theorem Admitting.room_next (h : Admitting w) (a : Room.Action) :
    Admitting { w with rooms := w.rooms.next stores a } := by
  intro x r' hr' q hq
  rcases hr : w.rooms.room? x with - | r
  · obtain ⟨k, ids, nowMs, rfl, hmakes, rfl⟩ := Room.RoomSystem.room?_next_new hr hr'
    obtain ⟨hargs, -⟩ := Room.RoomManager.makesRoom_iff.mp hmakes
    rw [Room.BattleRoom.createArgsOk, Bool.and_eq_true] at hargs
    rw [Room.BattleRoom.playerIds_new] at hq
    exact List.all_eq_true.mp hargs.2 q hq
  · rw [Room.RoomSystem.playerIds_next hr hr'] at hq
    exact h x r hr q hq

theorem Admitting.next (h : Admitting w) (op : Op) : Admitting (w.next c stores op) := by
  cases op with
  | matching a call =>
    simp only [Backend.next]
    split
    case h_1 group hgroup =>
      split
      · exact h.room_next (createAction call group)
      · exact h.room_next (createAction call group)
      · exact h
    case h_2 => exact h
  | room a => exact h.room_next a
  | restart => exact h

theorem Admitting.of_run {ops : List Op} (hrun : Run (Step c stores) {} ops w) : Admitting w := by
  refine hrun.invariant (fun w op w' h hstep => ?_) fun x r hr => by cases hr
  obtain ⟨-, rfl⟩ := hstep
  exact h.next op

/-- A room that is not over takes its players, and nobody else. -/
theorem join_ok_iff {r : Room.BattleRoom} (hphase : r.phase.unfinished = true)
    (hvalid : ∀ q ∈ r.playerIds, Room.validId q = true) (joinMs : Int) (q : String) :
    (r.join joinMs q).1 = .ok ↔ q ∈ r.playerIds := by
  have hmember : r.hasPlayer q = true ↔ q ∈ r.playerIds := by
    simp [Room.BattleRoom.hasPlayer, Room.BattleRoom.playerIds]
  rw [← hmember]
  unfold Room.BattleRoom.join
  by_cases hq : Room.validId q = true
  · cases h : r.hasPlayer q with
    | false => simp [hq, hphase]
    | true =>
      rw [hq, hphase]
      simp only [Bool.not_true, Bool.false_eq_true, if_false]
      split_ifs <;> simp
  · have hnot : r.hasPlayer q ≠ true := fun h => hq (hvalid q (hmember.mp h))
    simp [hq, hnot]

/-- **Whoever is told of a match can take his place in its room, and nobody else can** — after every run in which
Match serves: he is one of the players he is told, Room made the room, and while the room is there its players are
the ones he is told; as long as the game is not over, `Join` accepts exactly these. -/
theorem matched_can_join {ops : List Op} (hrun : Run (Step c stores) {} ops w) (hserving : ∀ op ∈ ops, Serving op)
    {nowMs : Int} (hmatched : (w.matching.status c p nowMs).state = .matched) :
    p ∈ (w.matching.status c p nowMs).playerIds ∧ (w.matching.status c p nowMs).roomId ∈ w.rooms.created ∧
      ∀ r, w.rooms.room? (w.matching.status c p nowMs).roomId = some r →
        r.playerIds = (w.matching.status c p nowMs).playerIds ∧
          (r.phase.unfinished = true → ∀ joinMs q,
            (r.join joinMs q).1 = .ok ↔ q ∈ (w.matching.status c p nowMs).playerIds) := by
  obtain ⟨hagreeing, hcast⟩ := cast_of_run hrun hserving
  obtain ⟨hp, hosts⟩ := hcast.hosts_of_status hagreeing.agreed hmatched
  refine ⟨hp, ?_, fun r hr => ?_⟩
  · obtain ⟨group, -, -, hmade⟩ := hosts
    exact AList.lookup_isSome.mp (Option.isSome_iff_exists.mpr ⟨_, hmade⟩)
  · have hsame : r.playerIds = (w.matching.status c p nowMs).playerIds := hcast.of_hosts hosts hr
    refine ⟨hsame, fun hphase joinMs q => ?_⟩
    rw [← hsame]
    exact join_ok_iff hphase (Admitting.of_run hrun _ r hr) joinMs q

/-- The players are put back, and the poll that pairs them again brings them to a room. -/
def joinedPair : List Op :=
  retriedPair ++ [.matching (.resume 2 {}) {}, .matching (.resume 2 {}) {}, .matching (.resume 2 {}) {}]

theorem matched_can_join_joinedPair :
    let w := joinedPair.foldl (next {} Room.RoomSystem.mysqlStores) {}
    "bob" ∈ (w.matching.status {} "bob" 1300).playerIds ∧
      (w.matching.status {} "bob" 1300).roomId ∈ w.rooms.created ∧
      ∀ r, w.rooms.room? (w.matching.status {} "bob" 1300).roomId = some r →
        r.playerIds = (w.matching.status {} "bob" 1300).playerIds ∧
          (r.phase.unfinished = true → ∀ joinMs q,
            (r.join joinMs q).1 = .ok ↔ q ∈ (w.matching.status {} "bob" 1300).playerIds) :=
  matched_can_join (Run.of_guarded (by decide)) (by decide) (by decide)

end Backend

end RealtimeGame.Match
