import RealtimeGame.Match.Joinable

/-!
# Match/OneRoom — a match has one room

Each group that is taken goes to `Allocate` once, and a group that is put back is taken under another id.  So the
groups that still have to go there have no room (`Single`), Room never makes two rooms for one match
(`one_room`), and whoever is told of the same match is told of the same room and the same players.
-/

open Library

namespace RealtimeGame.Match

variable {c : MatchConfig} {stores : Room.RoomStores}

/-! ## Groups that still go to `Allocate`

Each is in one place, and its id is nowhere else. -/

namespace Pc

/-- The groups of a thread that have not been to `Allocate`. -/
def unallocated : Pc → List PendingGroup
  | choose _ groups | handOff _ groups | allocate _ groups | commit _ _ _ groups => groups
  | workerAllocate group _ => [group]
  | _ => []

theorem unallocated_finish (nowMs : Int) (changed : Bool) : (finish nowMs changed).unallocated = [] := by
  cases changed <;> rfl

variable {q : MatchQueue}

/-- The groups that a section takes. -/
def taken (answer : Answer) (q : MatchQueue) : Pc → List PendingGroup
  | take .. => (q.takePairGroupsLocked answer.ids).1
  | _ => []

theorem handedOver_markSnapshotDirty (nowMs : Int) : (q.markSnapshotDirty c nowMs).handedOver = q.handedOver := by
  unfold MatchQueue.markSnapshotDirty
  split_ifs <;> rfl

theorem handedOver_commitGroup (nowMs : Int) (group : PendingGroup) (roomId : String) :
    (q.commitGroup nowMs group roomId).handedOver = q.handedOver := by
  rw [MatchQueue.commitGroup_frame]
  rfl

/-- **One section** of a thread, with the group that goes to `Allocate` in it. -/
theorem countP_resume (workerEnded : Bool) (answer : Answer) (pc : Pc) (k : PendingGroup → Bool) :
    pc.allocates.toList.countP k + (pc.resume c workerEnded answer q).1.unallocated.countP k +
        (pc.resume c workerEnded answer q).2.handedOver.countP k ≤
      pc.unallocated.countP k + q.handedOver.countP k + (pc.taken answer q).countP k := by
  cases pc with
  | enqueue playerId requestId nowMs =>
    simp [resume, allocates, unallocated, taken, (Placed.enqueueLocked_frame playerId requestId).handedOver]
  | take nowMs changed =>
    have hframe : q.Frame (q.takePairGroupsLocked answer.ids).2 := MatchQueue.takePairGroups_frame _ _ _
    simp only [resume, allocates, taken, hframe.handedOver]
    split
    · rw [unallocated_finish]
      simp [unallocated]
    · simp [unallocated, Nat.add_comm]
  | retry nowMs changed | round nowMs changed =>
    simp only [resume]
    split
    all_goals
      first | rw [unallocated_finish] | skip
      simp [allocates, unallocated, taken, MatchQueue.retryLocked, MatchQueue.handedOver]
  | choose nowMs groups | join =>
    simp only [resume]
    split <;> simp [allocates, unallocated, taken, MatchQueue.workerJoined, MatchQueue.handedOver]
  | handOff nowMs groups =>
    simp [resume, allocates, unallocated, taken, MatchQueue.handOff, MatchQueue.handedOver, Function.comp_def,
      Nat.add_comm]
  | allocate nowMs groups =>
    cases groups with
    | nil => simp [resume, allocates, unallocated, taken]
    | cons group groups =>
      simp [resume, allocates, unallocated, taken, List.countP_cons, Nat.add_comm]
  | commit | workerCommit =>
    simp [resume, allocates, unallocated, taken, handedOver_commitGroup]
  | mark | workerMark => simp [resume, allocates, unallocated, taken, handedOver_markSnapshotDirty]
  | worker =>
    simp only [resume, MatchQueue.popAllocation]
    cases hqueue : q.allocationQueue with
    | nil =>
      dsimp only
      split <;> simp [allocates, unallocated, taken]
    | cons first rest =>
      simp [allocates, unallocated, taken, MatchQueue.handedOver, hqueue, List.countP_cons, Nat.add_comm]
  | flush nowMs =>
    simp only [resume, MatchQueue.flushLocked]
    cases q.snapshotDirty <;> simp [allocates, unallocated, taken, MatchQueue.handedOver]
  | workerAllocate | save | saved | done =>
    simp [resume, allocates, unallocated, taken, MatchQueue.snapshotSaved, MatchQueue.handedOver]

end Pc

/-- One item of a list is replaced by another. -/
theorem countP_flatMap_set {α β : Type} (f : α → List β) {l : List α} {i : Nat} {a : α} (h : l[i]? = some a) (a' : α)
    (k : β → Bool) : ((l.set i a').flatMap f).countP k + (f a).countP k =
      (l.flatMap f).countP k + (f a').countP k := by
  obtain ⟨hi, rfl⟩ := List.getElem?_eq_some_iff.mp h
  rw [((List.set_perm_cons_eraseIdx hi a').flatMap_right f).countP_eq,
    ((List.getElem_cons_eraseIdx_perm hi).symm.flatMap_right f).countP_eq,
    List.flatMap_cons, List.flatMap_cons, List.countP_append, List.countP_append]
  omega

namespace MatchSystem

variable {s : MatchSystem} {a : Action}

def unallocated (s : MatchSystem) : List PendingGroup := s.threads.flatMap Pc.unallocated ++ s.queue.handedOver

theorem unallocated_spawn {q : MatchQueue} {pc : Pc} (hpc : pc.unallocated = [])
    (hhanded : q.handedOver = s.queue.handedOver) : (s.spawn q pc).unallocated = s.unallocated := by
  simp [unallocated, spawn, hpc, hhanded]

theorem countP_unallocated (k : PendingGroup → Bool) : s.unallocated.countP k =
    (s.threads.flatMap Pc.unallocated).countP k + s.queue.handedOver.countP k := List.countP_append

/-- The group that an action brings to `Allocate`, whether there is an allocator or not. -/
def allocates (s : MatchSystem) (a : Action) : Option PendingGroup := (s.resumed a).bind Pc.allocates

/-- **One action** — what goes to `Allocate` had not been there, and does not go there again. -/
theorem countP_unallocated_next (a : Action) (k : PendingGroup → Bool) :
    (s.allocates a).toList.countP k + (s.next c a).unallocated.countP k ≤
      s.unallocated.countP k + (s.taken a).countP k := by
  have hspawn : ∀ {q : MatchQueue} {pc : Pc}, s.allocates a = none → pc.unallocated = [] →
      q.handedOver = s.queue.handedOver → (s.allocates a).toList.countP k + (s.spawn q pc).unallocated.countP k ≤
        s.unallocated.countP k + (s.taken a).countP k := by
    intro q pc hnone hpc hhanded
    rw [hnone, unallocated_spawn hpc hhanded]
    simp
  have hsame : s.allocates a = none → (s.allocates a).toList.countP k + s.unallocated.countP k ≤
      s.unallocated.countP k + (s.taken a).countP k := by
    intro hnone
    rw [hnone]
    simp
  cases a with
  | enqueue | startAllocationWorker | stopAllocationWorker | tick | flushSnapshotNow =>
    simp only [next, MatchQueue.startWorkerLocked, MatchQueue.stopWorkerLocked]
    split_ifs
    all_goals first | exact hsame rfl | exact hspawn rfl rfl rfl
  | cancel playerId nowMs =>
    exact hspawn rfl (Pc.unallocated_finish ..) (Placed.cancelLocked_frame playerId).handedOver
  | getStatus => exact hspawn rfl rfl Placed.sweep_frame.handedOver
  | restore rows nowMs =>
    cases rows with
    | none => exact hsame rfl
    | some rows =>
      simp only [next]
      split_ifs
      · have hrest : unallocated ⟨(s.queue.restoreLocked c nowMs rows).2, s.threads⟩ = s.unallocated := by
          rw [unallocated, unallocated, (Placed.restoreLocked_frame rows).handedOver]
        rw [hrest]
        exact hsame rfl
      · exact hsame rfl
  | beginShutdown | setSnapshotMergeIntervalMs => exact hsame rfl
  | resume thread answer =>
    cases hpc : s.threads[thread]? with
    | none =>
      simp only [next, hpc]
      exact hsame (by rw [allocates, resumed, hpc]; rfl)
    | some pc =>
      have hset := countP_flatMap_set Pc.unallocated hpc (pc.resume c s.workerEnded answer s.queue).1 k
      have hone := Pc.countP_resume (c := c) (q := s.queue) s.workerEnded answer pc k
      have hallocates : s.allocates (.resume thread answer) = pc.allocates := by rw [allocates, resumed, hpc]; rfl
      have htaken : s.taken (.resume thread answer) = pc.taken answer s.queue := by
        rw [taken, resumed, hpc]
        cases pc <;> rfl
      simp only [countP_unallocated, next, hpc, hallocates, htaken]
      omega

theorem unallocated_restored (nowMs : Int) (rows : Option (List MatchQueueSnapshotRow)) :
    (next c {} (.restore rows nowMs)).unallocated = [] := by
  cases rows with
  | none => rfl
  | some rows =>
    rw [next]
    split
    · rw [unallocated, (Placed.restoreLocked_frame rows).handedOver]
      rfl
    · rfl

theorem allocates_of_allocating {group : PendingGroup} (h : s.allocating c a = some group) :
    s.allocates a = some group := by
  unfold allocating at h
  rw [allocates]
  split at h
  case h_1 hpc =>
    rw [hpc]
    exact (Option.ite_none_right_eq_some.mp h).2
  case h_2 hpc =>
    rw [hpc]
    exact (Option.ite_none_right_eq_some.mp h).2
  case h_3 => cases h

/-- A group that has not been to `Allocate` after an action had not been there before, or is taken. -/
theorem mem_unallocated_next {g : PendingGroup} (h : g ∈ (s.next c a).unallocated) :
    g ∈ s.unallocated ∨ g ∈ s.taken a := by
  have hcount := countP_unallocated_next (c := c) (s := s) a (· = g)
  have hpos : 0 < (s.next c a).unallocated.countP (· = g) := List.countP_pos_iff.mpr ⟨g, h, by simp⟩
  by_contra! hnot
  have hold : s.unallocated.countP (· = g) = 0 := List.countP_eq_zero.mpr fun g' hg' heq => by
    rw [of_decide_eq_true heq] at hg'
    exact hnot.1 hg'
  have hnew : (s.taken a).countP (· = g) = 0 := List.countP_eq_zero.mpr fun g' hg' heq => by
    rw [of_decide_eq_true heq] at hg'
    exact hnot.2 hg'
  omega

section

variable {group g : PendingGroup} (hgroup : s.allocating c a = some group) (roomId : String)

include hgroup

/-- **An `Allocate`** counts its group off. -/
theorem countP_unallocated_allocate (k : PendingGroup → Bool) :
    (if k group then 1 else 0) + (s.next c (a.withRoomId roomId)).unallocated.countP k ≤ s.unallocated.countP k := by
  have hallocating : s.allocating c (a.withRoomId roomId) = some group :=
    (Backend.allocating_withRoomId ..).trans hgroup
  have hall := countP_unallocated_next (c := c) (s := s) (a.withRoomId roomId) k
  rw [allocates_of_allocating hallocating, taken_of_allocating hgroup] at hall
  simpa [List.countP_singleton] using hall

theorem mem_unallocated_allocate (h : g ∈ (s.next c (a.withRoomId roomId)).unallocated) : g ∈ s.unallocated := by
  refine (mem_unallocated_next h).resolve_right fun htaken => ?_
  rw [taken_of_allocating hgroup] at htaken
  cases htaken

theorem mem_unallocated_of_allocating : group ∈ s.unallocated := by
  have hle := countP_unallocated_allocate hgroup "" (· = group)
  simp only [decide_true, if_true] at hle
  obtain ⟨g, hg, heq⟩ := List.countP_pos_iff.mp (Nat.lt_of_lt_of_le (Nat.lt_add_right _ Nat.one_pos) hle)
  exact of_decide_eq_true heq ▸ hg

end

end MatchSystem

/-! ## Rooms

Room makes a room for an id it has not heard of, and tells the old one otherwise. -/

namespace Backend

variable {w w' : Backend} {x x' k : String}

theorem count_matchIds (groups : List PendingGroup) (k : String) :
    (groups.map (·.matchId)).count k = groups.countP (·.matchId = k) := by
  rw [List.count, List.countP_map]
  exact List.countP_congr fun group _ => by simp

/-- **Single** — no room is made yet for a group that still goes to `Allocate`, and no two for any. -/
structure Single (w : Backend) : Prop where
  once : ∀ k, w.matching.unallocated.countP (·.matchId = k) ≤ 1
  known : ∀ group ∈ w.matching.unallocated, group.matchId ∈ matchIds w.history
  unmade : ∀ group ∈ w.matching.unallocated, ∀ x, w.rooms.created.lookup x ≠ some group.matchId
  one : ∀ x x' k, w.rooms.created.lookup x = some k → w.rooms.created.lookup x' = some k → x = x'

theorem Single.start : Single {} where
  once k := Nat.zero_le _
  known group h := by cases h
  unmade group h := by cases h
  one x x' k h := by cases h

/-- A room that is there after an action was there before, or the action makes it. -/
theorem created_next (h : w.rooms.Sound) {a : Room.Action} (hfresh : w.rooms.Fresh a)
    (hmade : (w.rooms.next stores a).created.lookup x = some k) :
    w.rooms.created.lookup x = some k ∨ ∃ ids nowMs, a = .create k ids nowMs x := by
  have heffect : w.rooms.Effect (w.rooms.next stores a) := .of_step h ⟨hfresh, rfl⟩
  by_cases hx : x ∈ w.rooms.created
  · obtain ⟨k', hk'⟩ := Option.isSome_iff_exists.mp (AList.lookup_isSome.mpr hx)
    obtain rfl := Option.some.inj ((heffect.created x k' hk').symm.trans hmade)
    exact .inl hk'
  · obtain ⟨ids, nowMs, rfl, -⟩ := Room.RoomWorld.create_of_created hx hmade
    exact .inr ⟨ids, nowMs, rfl⟩

/-- A step of Match that makes no room: the groups that it takes have new ids. -/
theorem Single.take_next (h : Single w) (hcast : Cast w) {a : Action} (hnodup : a.ids.Nodup)
    (hids : ∀ id ∈ a.ids, id ∉ matchIds w.history) {store : List MatchQueueSnapshotRow} {events : List Event}
    (hevents : ∀ group ∈ w.matching.taken a, group.matchId ∈ matchIds events) :
    Single ⟨w.matching.next c a, w.rooms, store, w.history ++ events⟩ where
  once k := by
    have hcount := MatchSystem.countP_unallocated_next (c := c) (s := w.matching) a (·.matchId = k)
    by_cases hk : k ∈ matchIds w.history
    · have hnone : (w.matching.taken a).countP (·.matchId = k) = 0 := List.countP_eq_zero.mpr fun g hg heq =>
        hids _ (MatchSystem.matchId_of_taken hcast.sound.matching hg) (of_decide_eq_true heq ▸ hk)
      have hone := h.once k
      dsimp only
      omega
    · have hnone : w.matching.unallocated.countP (·.matchId = k) = 0 := List.countP_eq_zero.mpr fun g hg heq =>
        hk (of_decide_eq_true heq ▸ h.known g hg)
      have hone := List.nodup_iff_count_le_one.mp
        ((MatchSystem.ids_of_taken hcast.sound.matching a).sublist.nodup hnodup) k
      rw [count_matchIds] at hone
      dsimp only
      omega
  known group hgroup := by
    rw [matchIds_append, List.mem_append]
    exact (MatchSystem.mem_unallocated_next hgroup).imp (h.known group) (hevents group)
  unmade group hgroup x hmade := by
    rcases MatchSystem.mem_unallocated_next hgroup with hold | htaken
    · exact h.unmade group hold x hmade
    · exact hids _ (MatchSystem.matchId_of_taken hcast.sound.matching htaken) (hcast.origin x _ hmade)
  one := h.one

/-- An `Allocate`, whether it makes a room or not: its group does not go there again. -/
theorem Single.allocate_next (h : Single w) {a : Action} {group : PendingGroup}
    (hgroup : w.matching.allocating c a = some group) (roomId : String) {rooms : Room.RoomSystem}
    {store : List MatchQueueSnapshotRow} {events : List Event} {y : String} (hfresh : y ∉ w.rooms.created)
    (hcreated : ∀ x k, rooms.created.lookup x = some k →
      w.rooms.created.lookup x = some k ∨ x = y ∧ k = group.matchId) :
    Single ⟨w.matching.next c (a.withRoomId roomId), rooms, store, w.history ++ events⟩ where
  once k := by
    have hone := h.once k
    have hle := MatchSystem.countP_unallocated_allocate hgroup roomId (·.matchId = k)
    dsimp only
    omega
  known g hg := by
    rw [matchIds_append]
    exact List.mem_append_left _ (h.known g (MatchSystem.mem_unallocated_allocate hgroup roomId hg))
  unmade g hg x hmade := by
    rcases hcreated x _ hmade with hmade | ⟨-, hid⟩
    · exact h.unmade g (MatchSystem.mem_unallocated_allocate hgroup roomId hg) x hmade
    · -- another group with this id would count twice
      have hone := h.once group.matchId
      have hle := MatchSystem.countP_unallocated_allocate hgroup roomId (·.matchId = group.matchId)
      have hpos : 0 < (w.matching.next c (a.withRoomId roomId)).unallocated.countP (·.matchId = group.matchId) :=
        List.countP_pos_iff.mpr ⟨g, hg, decide_eq_true hid⟩
      simp only [decide_true, if_true] at hle
      omega
  one x x' k hx hx' := by
    have hunmade := h.unmade group (MatchSystem.mem_unallocated_of_allocating hgroup)
    rcases hcreated x k hx with hx | ⟨rfl, rfl⟩ <;> rcases hcreated x' _ hx' with hx' | ⟨hx', hid⟩
    · exact h.one x x' k hx hx'
    · exact absurd (hid ▸ hx) (hunmade x)
    · exact absurd hx' (hunmade x')
    · exact hx'.symm

/-- **Every step keeps it.** -/
theorem Single.step (h : Single w) (hcast : Cast w) {op : Op} (hserving : Serving op)
    (hstep : Step c stores w op w') : Single w' := by
  obtain ⟨hfresh, rfl⟩ := hstep
  cases op with
  | matching a call =>
    obtain ⟨hids, hroom⟩ := hfresh
    have hcreate : ∀ group x k, (w.rooms.next stores (createAction call group)).created.lookup x = some k →
        w.rooms.created.lookup x = some k ∨ x = call.roomId ∧ k = group.matchId := by
      intro group x k hmade
      refine (created_next hcast.sound.rooms (a := createAction call group) hroom hmade).imp_right ?_
      rintro ⟨ids, nowMs, heq⟩
      obtain ⟨hid, -, -, hx⟩ := Room.Action.create.inj heq
      exact ⟨hx.symm, hid.symm⟩
    simp only [next]
    split
    case h_1 group hgroup =>
      split
      · exact h.allocate_next hgroup _ hroom (hcreate group)
      · exact h.allocate_next hgroup _ hroom (hcreate group)
      · rw [← List.append_nil w.history]
        exact h.allocate_next hgroup "" hroom fun x k hmade => .inl hmade
    case h_2 =>
      refine h.take_next hcast hserving.2 hids fun group htaken => mem_matchIds.mpr ⟨group, w.alive, ?_, rfl⟩
      exact List.mem_append_left _ (List.mem_map_of_mem htaken)
  | room a =>
    have hold : ∀ x k, (w.rooms.next stores a).created.lookup x = some k → w.rooms.created.lookup x = some k := by
      intro x k hmade
      refine (created_next hcast.sound.rooms (fresh_of_isCreate hfresh) hmade).resolve_right ?_
      rintro ⟨ids, nowMs, rfl⟩
      cases hfresh
    exact ⟨h.once, h.known, fun g hg x hmade => h.unmade g hg x (hold x _ hmade),
      fun x x' k hx hx' => h.one x x' k (hold x k hx) (hold x' k hx')⟩
  | restart nowMs loads =>
    have hnone : ((w.next c stores (.restart nowMs loads)).matching).unallocated = [] :=
      MatchSystem.unallocated_restored ..
    refine ⟨fun k => ?_, fun g hg => ?_, fun g hg => ?_, h.one⟩
    · rw [hnone]
      exact Nat.zero_le _
    · rw [hnone] at hg
      cases hg
    · rw [hnone] at hg
      cases hg

/-- All that holds of both services in a run in which Match serves. -/
structure Orderly (w : Backend) : Prop where
  agreeing : Agreeing w
  cast : Cast w
  single : Single w

theorem Orderly.start : Orderly {} := ⟨.start, .start, .start⟩

theorem Orderly.step (h : Orderly w) {op : Op} (hserving : Serving op) (hstep : Step c stores w op w') : Orderly w' :=
  ⟨h.agreeing.step hserving hstep, h.cast.step h.agreeing.agreed hserving hstep, h.single.step h.cast hserving hstep⟩

/-- **Room makes no two rooms for one match** — in every run in which Match serves, whatever replies are lost and
however often Match is restarted. -/
theorem one_room {ops : List Op} (hrun : Run (Step c stores) {} ops w) (hserving : ∀ op ∈ ops, Serving op)
    (hx : w.rooms.created.lookup x = some k) (hx' : w.rooms.created.lookup x' = some k) : x = x' := by
  have horderly : Orderly w := hrun.invariant_of_guard (I := Orderly) (G := fun _ op => Serving op)
    (fun _ _ _ h hop hstep => h.step hop hstep)
    (fun pre op post _ heq _ => hserving op (heq ▸ List.mem_append_right _ List.mem_cons_self)) .start
  exact horderly.single.one x x' k hx hx'

/-- Two rooms are made for the pair, each for another match. -/
theorem one_room_retriedPair :
    let w := retriedPair.foldl (next {} Room.RoomSystem.mysqlStores) {}
    w.rooms.created.lookup "r-2" = some "m-2" ∧ ∀ x, w.rooms.created.lookup x = some "m-2" → x = "r-2" :=
  ⟨by decide, fun _ hx => one_room (Run.of_guarded (by decide)) (by decide) hx (by decide)⟩

end Backend

end RealtimeGame.Match
