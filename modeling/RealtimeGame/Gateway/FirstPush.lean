import RealtimeGame.Gateway.Pushed

/-!
# Gateway/FirstPush — a new subscriber is told of the room

`Subscribe` erases what the table notes for the room, so that the next poll pushes again.  A `Tick` that
collected its sinks before, and compares after, pushes to the others only and notes the state as pushed;
the new subscriber then waits for the next change.
-/

open Library

namespace RealtimeGame.Gateway

/-- A `room.state` or `room.finished` was written to this subscription. -/
def StreamEvent.tells (id : Nat) : StreamEvent → Bool
  | write id' (.roomState ..) ok | write id' (.roomFinished ..) ok => id' = id && ok
  | _ => false

/-- No backfill is asked for. -/
def StreamOp.Plain : StreamOp → Prop
  | subscribe _ _ _ options => options.lastEventId = none ∧ options.lastEventIdMalformed = false
  | _ => True

instance : DecidablePred StreamOp.Plain
  | .subscribe _ _ _ options => inferInstanceAs
      (Decidable (options.lastEventId = none ∧ options.lastEventIdMalformed = false))
  | .unsubscribe _ | .tick _ | .closeAll | .beginShutdown | .closeAllWithEvent _ | .resumeTick _
  | .resumeCall .. => .isTrue trivial

/-- The room and the state that are about to be compared with the table. -/
def TickPc.compares : TickPc → Option (RoomPoll × RoomSnapshot)
  | running _ (.compare room snapshot :: _) => some (room, snapshot)
  | _ => none

namespace StreamSystem

variable (c : StreamConfig) (s : StreamSystem)

/-- Some event of the room was written to this subscription. -/
def Told (id : Nat) : Prop := ∃ event ∈ s.log, event.tells id = true

instance (id : Nat) : Decidable (s.Told id) :=
  inferInstanceAs (Decidable (∃ event ∈ s.log, event.tells id = true))

/-- One step of a run in which nobody asks for a backfill. -/
def PlainStep (s : StreamSystem) (op : StreamOp) (s' : StreamSystem) : Prop :=
  (op.Plain ∧ s.Sequential op) ∧ s' = s.next c op

/-- A state that is noted as pushed to a room is pushed to every subscription of the room: none has
registered since the `Tick` collected them. -/
def PushesToAll : StreamOp → Prop
  | .resumeTick _ => ∀ polled ∈ s.tick.compares, polled.2.terminal = false →
      s.hub.roomChanged polled.1.roomId polled.2 = true →
      ∀ e ∈ s.hub.subscriptions.toPairs, e.2.roomId = polled.1.roomId → e.1 ∈ polled.1.sinks
  | _ => True

instance : DecidablePred s.PushesToAll
  | .resumeTick _ => inferInstanceAs (Decidable (∀ polled ∈ s.tick.compares,
      polled.2.terminal = false → s.hub.roomChanged polled.1.roomId polled.2 = true →
      ∀ e ∈ s.hub.subscriptions.toPairs, e.2.roomId = polled.1.roomId → e.1 ∈ polled.1.sinks))
  | .subscribe .. | .unsubscribe _ | .tick _ | .closeAll | .beginShutdown | .closeAllWithEvent _
  | .resumeCall .. => .isTrue trivial

/-- …and every state is. -/
def PlainPushStep (s : StreamSystem) (op : StreamOp) (s' : StreamSystem) : Prop :=
  (s.PushesToAll op ∧ op.Plain ∧ s.Sequential op) ∧ s' = s.next c op

/-- **A `Tick` that collects this subscription and is told its room's state**, from its start to its
last section. -/
structure Collects (R : StreamSystem → StreamOp → StreamSystem → Prop) (u : StreamSystem) (nowMs : Int)
    (ops : List StreamOp) (v : StreamSystem) (id : Nat) : Prop where
  run : Run R u (.tick nowMs :: ops) v
  one : ∀ nowMs', .tick nowMs' ∉ ops
  ends : ∃ gone, v.tick = .reporting gone
  collected : ∃ room ∈ u.hub.byRoom nowMs, id ∈ room.sinks ∧ ∃ requestId snapshot,
    .getState room.roomId requestId (some snapshot) ∈ v.log.drop u.log.length

end StreamSystem

namespace StreamSystem

variable {c : StreamConfig} {s s' : StreamSystem} {op : StreamOp} {n id : Nat}

/-! ## Runs without a backfill

Nobody has a `Last-Event-ID`, so every subscription is live from the start. -/

/-- Nobody has asked for a backfill, and no job backfills. -/
structure Unasked (s : StreamSystem) : Prop where
  subs : ∀ id sub, s.sub? id = some sub → sub.backfillFrom = none ∧ sub.backfillMalformed = false
  calls : ∀ call ∈ s.calls, ∀ playerId roomId options,
    Call.register playerId roomId options ∈ call →
      options.lastEventId = none ∧ options.lastEventIdMalformed = false
  jobs : ∀ job ∈ s.tick.jobs, job.backs = none

theorem Unasked.start : Unasked {} where
  subs _ _ h := by cases h
  calls _ h := by cases h
  jobs _ h := by cases h

/-- Without a backfill every subscription is live. -/
theorem Unasked.live (h : s.Unasked) {sub : Subscription} (hsub : s.sub? id = some sub) :
    sub.shouldBackfill = false := by
  obtain ⟨hfrom, hmalformed⟩ := h.subs id sub hsub
  rw [Subscription.shouldBackfill, hfrom, hmalformed]
  exact Bool.and_false _

/-- …and stays so. -/
theorem Unasked.step (h : s.Unasked) (hstep : PlainStep c s op s') : s'.Unasked := by
  obtain ⟨⟨hplain, hseq⟩, rfl⟩ := hstep
  constructor
  · intro id sub' hsub'
    rcases sub?_next hsub' with hsame | ⟨nowMs, sub, -, hsub, rfl⟩ |
      ⟨answer, vars, sub, -, -, -, hsub, rfl⟩ |
      ⟨-, -, -, playerId, roomId, options, ⟨call, hcall, hmem⟩, -, hfrom, hmalformed, -⟩
    · exact h.subs id sub' hsame
    · unfold Subscription.seen
      split <;> exact h.subs id sub hsub
    · exact Subscription.committed_induction
        (P := fun sub => sub.backfillFrom = none ∧ sub.backfillMalformed = false) (h.subs id sub hsub)
        (fun _ _ _ hsub => ⟨rfl, hsub.2⟩) (fun _ _ hsub => hsub) (fun _ _ hsub => hsub)
        (fun _ _ hsub => hsub)
    · rw [hfrom, hmalformed]
      exact h.calls call hcall playerId roomId options hmem
  · intro call hcall playerId roomId options hmem
    rcases register_next hcall hmem with ⟨call', hcall', hmem'⟩ | ⟨hasSink, rfl⟩
    · exact h.calls call' hcall' playerId roomId options hmem'
    · exact hplain
  · intro job hjob
    rcases tick_next c s op with hsame | ⟨nowMs, rfl⟩ | ⟨answer, vars, first, jobs, rfl, htick⟩ |
      ⟨gone, hgone, -⟩
    · rw [hsame] at hjob
      exact h.jobs job hjob
    · change job ∈ s.hub.jobs c nowMs at hjob
      rcases StreamHub.mem_jobs.mp hjob with ⟨target, htarget, -⟩ | ⟨_, -, rfl⟩ | ⟨_, -, rfl⟩ | ⟨_, -, rfl⟩
      · obtain ⟨sub, hsub, hshould, -⟩ := StreamHub.mem_needBackfill.mp htarget
        rw [Subscription.shouldBackfill_seen, h.live hsub] at hshould
        cases hshould
      all_goals rfl
    · simp only [next, resumeTick, htick] at hjob
      have hold := h.jobs
      rw [htick] at hold
      rcases List.mem_append.mp hjob with hmore | hrest
      · refine Option.eq_none_iff_forall_ne_some.mpr fun id hbacks => ?_
        have hsub : ((first.run c answer s.hub vars).more.filterMap Job.backs).Sublist
            first.backs.toList := first.backs_more
        have hid := hsub.subset (List.mem_filterMap.mpr ⟨job, hmore, hbacks⟩)
        rw [hold first List.mem_cons_self] at hid
        cases hid
      · exact hold job (List.mem_cons_of_mem _ hrest)
    · rw [hgone] at hjob
      cases hjob

/-! ## Told, or about to be

Three ways to be served: it was written, it is about to be, or the write fails. -/

/-- Some event of the room is about to be written to this subscription. -/
def Pushing (s : StreamSystem) (id : Nat) : Prop :=
  ∃ snapshot nowMs closes, .push id (frameEvent snapshot nowMs) closes ∈ s.tick.jobs

/-- The `Tick` on its way will remove this subscription. -/
def Failing (s : StreamSystem) (id : Nat) : Prop :=
  ∃ vars jobs, s.tick = .running vars jobs ∧ id ∈ vars.failed

/-- It was told of the room, or is about to be, or to be removed. -/
def Served (s : StreamSystem) (id : Nat) : Prop := s.Told id ∨ s.Pushing id ∨ s.Failing id

/-- Who was told was told. -/
theorem Told.next (h : s.Told id) (op : StreamOp) : (s.next c op).Told id := by
  obtain ⟨event, hevent, htells⟩ := h
  obtain ⟨events, hlog, -⟩ := events_next c s op
  refine ⟨event, ?_, htells⟩
  rw [hlog]
  exact List.mem_append_left _ hevent

/-- A frame that is written tells its sink. -/
theorem tells_frameEvent (id : Nat) (snapshot : RoomSnapshot) (nowMs : Int) :
    (StreamEvent.write id (frameEvent snapshot nowMs) true).tells id = true := by
  unfold frameEvent
  split <;> simp [StreamEvent.tells]

/-- **Whoever is served stays so**, or is removed. -/
theorem Served.step (h : s.Served id) (hstep : Step c s op s') : s'.sub? id = none ∨ s'.Served id := by
  obtain ⟨hseq, rfl⟩ := hstep
  rcases h with htold | hserved
  · exact .inr (.inl (htold.next op))
  have hrunning : ∃ vars jobs, s.tick = .running vars jobs ∧
      ((∃ snapshot nowMs closes, .push id (frameEvent snapshot nowMs) closes ∈ jobs) ∨
        id ∈ vars.failed) := by
    rcases hserved with ⟨snapshot, nowMs, closes, hjob⟩ | ⟨vars, jobs, htick, hfailed⟩
    · rcases htick : s.tick with ⟨vars, jobs⟩ | gone
      · rw [htick] at hjob
        exact ⟨vars, jobs, rfl, .inl ⟨snapshot, nowMs, closes, hjob⟩⟩
      · rw [htick] at hjob
        cases hjob
    · exact ⟨vars, jobs, htick, .inr hfailed⟩
  obtain ⟨vars, jobs, htick, hnoted⟩ := hrunning
  rcases tick_next c s op with hsame | ⟨nowMs, rfl⟩ | ⟨answer, vars', job, jobs', rfl, htick'⟩ |
    ⟨gone, -, hends⟩
  · right
    right
    refine hnoted.imp ?_ fun hfailed => ⟨vars, jobs, hsame.trans htick, hfailed⟩
    rintro ⟨snapshot, nowMs, closes, hjob⟩
    refine ⟨snapshot, nowMs, closes, ?_⟩
    rw [hsame, htick]
    exact hjob
  · cases htick.symm.trans hseq
  · obtain ⟨rfl, rfl⟩ := TickPc.running.inj (htick.symm.trans htick')
    right
    have hnext := tick_job (c := c) htick answer
    rcases hnoted with ⟨snapshot, nowMs, closes, hjob⟩ | hfailed
    · rcases List.mem_cons.mp hjob with rfl | hrest
      · rcases hwrote : answer.wrote with - | -
        · exact .inr (.inr ⟨_, _, hnext, by simp [Job.run, hwrote]⟩)
        · refine .inl ⟨.write id (frameEvent snapshot nowMs) true, ?_, tells_frameEvent _ _ _⟩
          simp [next, resumeTick, htick, Job.run, hwrote]
      · refine .inr (.inl ⟨snapshot, nowMs, closes, ?_⟩)
        rw [hnext]
        exact List.mem_append_right _ hrest
    · exact .inr (.inr ⟨_, _, hnext, mem_failed_run job s.hub hfailed⟩)
  · obtain ⟨rfl, answer, rfl⟩ := hends vars jobs htick
    left
    rcases hnoted with ⟨_, _, _, hjob⟩ | hfailed
    · cases hjob
    · simp only [sub?, next, resumeTick, htick, StreamHub.lookup_commit, if_pos hfailed]

/-- A poll that finds a change pushes it to every sink. -/
theorem pushing_of_compare {vars : TickState} {room : RoomPoll} {snapshot : RoomSnapshot}
    {jobs : List Job} (answer : Answer) (htick : s.tick = .running vars (.compare room snapshot :: jobs))
    (hchanged : s.hub.roomChanged room.roomId snapshot = true) (hid : id ∈ room.sinks) :
    (s.next c (.resumeTick answer)).Pushing id := by
  refine ⟨snapshot, vars.nowMs, snapshot.terminal, ?_⟩
  simp only [next, resumeTick, htick, Job.run, if_pos hchanged]
  exact List.mem_append_left _ (List.mem_map.mpr ⟨id, hid, rfl⟩)

/-! ## The table and the new subscriptions

The table has nothing for a room as long as somebody in it was told nothing. -/

/-- **Whoever was told nothing yet finds nothing noted for its room.** -/
def Fresh (s : StreamSystem) : Prop :=
  ∀ id sub, s.sub? id = some sub → s.Served id ∨ s.hub.lastPushedState.lookup sub.roomId = none

/-- **One step.** -/
theorem Fresh.step (h : s.Fresh) (hunasked : s.Unasked) (hstep : PlainPushStep c s op s') :
    s'.Fresh := by
  obtain ⟨⟨hall, hplain, hseq⟩, rfl⟩ := hstep
  intro id sub' hsub'
  have hold : ∀ sub, s.sub? id = some sub → sub'.roomId = sub.roomId →
      (s.next c op).Served id ∨ (s.next c op).hub.lastPushedState.lookup sub'.roomId = none := by
    intro sub hsub hroom
    rcases h id sub hsub with hserved | hnone
    · left
      refine (hserved.step ⟨hseq, rfl⟩).resolve_left fun hgone => ?_
      cases hgone.symm.trans hsub'
    rw [hroom]
    rcases lastPushedState_next c s op sub.roomId with hsame | herased |
      ⟨answer, vars, job, jobs, signature, rfl, htick, hnoted, -⟩
    · exact .inr (hsame.trans hnone)
    · exact .inr herased
    left
    have hbacks := hunasked.jobs job (mem_jobs_head htick)
    cases job
    case compare room snapshot =>
      simp only [Job.noted] at hnoted
      split at hnoted
      case isFalse => cases hnoted
      case isTrue hchanged =>
        obtain ⟨hroomId, hentry⟩ := Prod.mk.inj (Option.some.inj hnoted)
        have hterminal : snapshot.terminal = false := by
          rcases hterminal : snapshot.terminal with - | -
          · rfl
          · rw [hterminal] at hentry
            cases hentry
        have hsink : id ∈ room.sinks := hall (room, snapshot) (by rw [htick]; rfl) hterminal hchanged
          (id, sub) (Table.mem_toPairs.mpr hsub) hroomId.symm
        exact .inr (.inl (pushing_of_compare answer htick hchanged hsink))
    case resetPushed | framePushed => cases hbacks
    all_goals cases hnoted
  rcases sub?_next hsub' with hsame | ⟨nowMs, sub, -, hsub, rfl⟩ |
    ⟨answer, vars, sub, -, -, -, hsub, rfl⟩ | ⟨-, -, -, playerId, roomId, options, -, rfl, -, -, herased⟩
  · exact hold sub' hsame rfl
  · exact hold sub hsub Subscription.seen_roomId
  · exact hold sub hsub Subscription.committed_roomId
  · right
    rw [herased]
    exact AList.lookup_erase _ _

/-! ## One `Tick`

A poll is followed from the time its sinks are collected to the time it is compared. -/

/-- **What holds along a `Tick` that has collected this subscription**: once Room has answered, the poll
is about to be compared, or the subscription is served. -/
structure Tracked (room : RoomPoll) (n id : Nat) (s : StreamSystem) : Prop where
  sink : id ∈ room.sinks
  known : id < s.hub.nextId
  length : n ≤ s.log.length
  rooms : ∀ job ∈ s.tick.jobs, ∀ room', job.polls = some room' → room'.roomId = room.roomId →
    room' = room
  sub : ∀ sub, s.sub? id = some sub → sub.roomId = room.roomId
  asked : ∀ requestId snapshot, .getState room.roomId requestId (some snapshot) ∈ s.log.drop n →
    s.sub? id = none ∨ s.Served id ∨ ∃ snapshot, .compare room snapshot ∈ s.tick.jobs

/-- At the start, Room was not asked yet. -/
theorem Tracked.start (hsound : Sound s) {nowMs : Int} {room : RoomPoll}
    (hroom : room ∈ s.hub.byRoom nowMs) (hid : id ∈ room.sinks) :
    (s.next c (.tick nowMs)).Tracked room s.log.length id := by
  obtain ⟨sub, hsub, -, hsubRoom⟩ := (StreamHub.mem_room_sinks hroom).mp hid
  refine ⟨hid, hsound.registered id sub hsub, le_rfl, ?_, ?_, ?_⟩
  · intro job hjob room' hpolls heq
    change job ∈ s.hub.jobs c nowMs at hjob
    rcases StreamHub.mem_jobs.mp hjob with ⟨_, -, rfl⟩ | ⟨room'', hroom'', rfl⟩ | ⟨_, -, rfl⟩ | ⟨_, -, rfl⟩
    · cases hpolls
    · cases hpolls
      exact StreamHub.eq_of_mem_byRoom hroom'' hroom heq
    all_goals cases hpolls
  · intro sub' hsub'
    rw [sub?_tick, show s.sub? id = some sub from hsub] at hsub'
    cases hsub'
    rw [Subscription.seen_roomId, hsubRoom]
  · intro requestId snapshot hmem
    change _ ∈ s.log.drop s.log.length at hmem
    rw [List.drop_length] at hmem
    cases hmem

/-- The poll is compared: the state is pushed, or was noted already. -/
theorem Tracked.compared {room : RoomPoll} (h : s.Tracked room n id) (hfresh : s.Fresh)
    {vars : TickState} {snapshot : RoomSnapshot} {jobs : List Job} (answer : Answer)
    (htick : s.tick = .running vars (.compare room snapshot :: jobs))
    (hserved : s.Served id → (s.next c (.resumeTick answer)).sub? id = none ∨
      (s.next c (.resumeTick answer)).Served id)
    (hnone : s.sub? id = none → (s.next c (.resumeTick answer)).sub? id = none) :
    (s.next c (.resumeTick answer)).sub? id = none ∨ (s.next c (.resumeTick answer)).Served id := by
  rcases hchanged : s.hub.roomChanged room.roomId snapshot with - | -
  · obtain ⟨hpushed, -⟩ := StreamHub.lookup_of_not_roomChanged hchanged
    rcases hsub : s.sub? id with - | sub
    · exact .inl (hnone hsub)
    rcases hfresh id sub hsub with hold | hfree
    · exact hserved hold
    · rw [h.sub sub hsub, hpushed] at hfree
      cases hfree
  · exact .inr (.inr (.inl (pushing_of_compare answer htick hchanged h.sink)))

/-- **One step within a `Tick`.** -/
theorem Tracked.step {room : RoomPoll} (h : s.Tracked room n id) (hfresh : s.Fresh)
    (hunasked : s.Unasked) (hop : ∀ nowMs, op ≠ .tick nowMs) (hstep : PlainPushStep c s op s') :
    s'.Tracked room n id := by
  obtain ⟨⟨-, -, hseq⟩, rfl⟩ := hstep
  obtain ⟨events, hlog, hevents⟩ := events_next c s op
  have hserved : s.Served id → (s.next c op).sub? id = none ∨ (s.next c op).Served id :=
    fun hserved => hserved.step ⟨hseq, rfl⟩
  have hnone : s.sub? id = none → (s.next c op).sub? id = none := sub?_next_none h.known
  refine ⟨h.sink, h.known.trans_le nextId_next, ?_, ?_, ?_, ?_⟩
  · rw [hlog, List.length_append]
    exact Nat.le_add_right_of_le h.length
  · intro job hjob room' hpolls heq
    rcases tick_next c s op with hsame | ⟨nowMs, rfl⟩ | ⟨answer, vars, first, jobs, rfl, htick⟩ |
      ⟨gone, hgone, -⟩
    · rw [hsame] at hjob
      exact h.rooms job hjob room' hpolls heq
    · exact absurd rfl (hop nowMs)
    · have hold := h.rooms
      rw [htick] at hold
      simp only [next, resumeTick, htick] at hjob
      rcases List.mem_append.mp hjob with hmore | hrest
      · exact hold first List.mem_cons_self room' ((Job.leads_of_more hmore).polls hpolls) heq
      · exact hold job (List.mem_cons_of_mem _ hrest) room' hpolls heq
    · rw [hgone] at hjob
      cases hjob
  · intro sub' hsub'
    rcases sub?_next hsub' with hsame | ⟨nowMs, sub, -, hsub, rfl⟩ |
      ⟨answer, vars, sub, -, -, -, hsub, rfl⟩ | ⟨heq, -⟩
    · exact h.sub sub' hsame
    · rw [Subscription.seen_roomId]
      exact h.sub sub hsub
    · rw [Subscription.committed_roomId]
      exact h.sub sub hsub
    · exact absurd heq h.known.ne
  · intro requestId snapshot hmem
    rw [hlog, List.drop_append_of_le_length h.length] at hmem
    rcases List.mem_append.mp hmem with hold | hnew
    · rcases h.asked requestId snapshot hold with hgone | hold | ⟨snapshot, hjob⟩
      · exact .inl (hnone hgone)
      · exact (hserved hold).imp_right .inl
      rcases tick_next c s op with hsame | ⟨nowMs, rfl⟩ | ⟨answer, vars, first, jobs, rfl, htick⟩ |
        ⟨gone, -, hends⟩
      · exact .inr (.inr ⟨snapshot, by rwa [hsame]⟩)
      · exact absurd rfl (hop nowMs)
      · rw [htick] at hjob
        rcases List.mem_cons.mp hjob with rfl | hrest
        · exact (h.compared hfresh answer htick hserved hnone).imp_right .inl
        · refine .inr (.inr ⟨snapshot, ?_⟩)
          simp only [next, resumeTick, htick]
          exact List.mem_append_right _ hrest
      · rcases htick : s.tick with ⟨vars, jobs⟩ | gone'
        · obtain ⟨rfl, -⟩ := hends vars jobs htick
          rw [htick] at hjob
          cases hjob
        · rw [htick] at hjob
          cases hjob
    · rcases hevents _ hnew with ⟨answer, vars, job, jobs, rfl, htick, hjobEvent⟩ |
        ⟨_, _, _, _, _, -, -, heq⟩ | ⟨_, _, _, _, heq⟩ | ⟨_, heq⟩
      · have hjob := mem_jobs_head htick
        rcases Job.asked_of_mem hjobEvent with ⟨target, reason, rfl, -⟩ | ⟨room', rfl, hroom', hmore⟩
        · cases hunasked.jobs _ hjob
        · obtain rfl := h.rooms _ hjob room' rfl hroom'
          refine .inr (.inr ⟨snapshot, ?_⟩)
          simp only [next, resumeTick, htick, hmore]
          exact List.mem_cons_self
      all_goals cases heq

theorem PlainPushStep.plain (h : PlainPushStep c s op s') : PlainStep c s op s' :=
  ⟨⟨h.1.2.1, h.1.2.2⟩, h.2⟩

/-- What holds in every run. -/
theorem fresh_of_run {ops : List StreamOp} (hrun : Run (PlainPushStep c) {} ops s) :
    Sound s ∧ s.Unasked ∧ s.Fresh :=
  hrun.invariant (I := fun s => Sound s ∧ s.Unasked ∧ s.Fresh)
    (fun _ _ _ h hstep => ⟨h.1.step ⟨hstep.1.2.2, hstep.2⟩, h.2.1.step hstep.plain,
      h.2.2.step h.2.1 hstep⟩)
    ⟨.start, .start, fun _ _ hsub => by cases hsub⟩

/-- **A new subscriber is told of its room** by the first `Tick` that collects it and is told the room's
state, in every run that pushes to all. -/
theorem told_of_collects {u v : StreamSystem} {pre ops : List StreamOp} {nowMs : Int}
    (hpre : Run (PlainPushStep c) {} pre u) (h : Collects (PlainPushStep c) u nowMs ops v id) :
    v.sub? id = none ∨ v.Told id := by
  obtain ⟨hsound, hunasked, hfresh⟩ := fresh_of_run hpre
  obtain ⟨room, hroom, hid, requestId, snapshot, hmem⟩ := h.collected
  obtain ⟨gone, hends⟩ := h.ends
  obtain ⟨m, hfirst, hrest⟩ := Run.cons_iff.mp h.run
  have hstart : m.Unasked ∧ m.Fresh ∧ m.Tracked room u.log.length id := by
    refine ⟨hunasked.step hfirst.plain, hfresh.step hunasked hfirst, ?_⟩
    rw [hfirst.2]
    exact .start hsound hroom hid
  have hend : v.Unasked ∧ v.Fresh ∧ v.Tracked room u.log.length id := by
    refine hrest.invariant_of_guard
      (I := fun s => s.Unasked ∧ s.Fresh ∧ s.Tracked room u.log.length id)
      (G := fun _ op => ∀ nowMs, op ≠ .tick nowMs) (fun s op s' hs hop hstep => ?_)
      (fun before op after m hops _ nowMs' heq => ?_) hstart
    · exact ⟨hs.1.step hstep.plain, hs.2.1.step hs.1 hstep, hs.2.2.step hs.2.1 hs.1 hop hstep⟩
    · refine h.one nowMs' ?_
      rw [hops, heq]
      simp
  rcases hend.2.2.asked requestId snapshot hmem with hgone | (htold | hpushing | hfailing) |
    ⟨_, hjob⟩
  · exact .inl hgone
  · exact .inr htold
  · obtain ⟨_, _, _, hjob⟩ := hpushing
    rw [hends] at hjob
    cases hjob
  · obtain ⟨_, _, htick, -⟩ := hfailing
    cases hends.symm.trans htick
  · rw [hends] at hjob
    cases hjob

/-- alice subscribes; a `Tick` is told the state of her room. -/
def subscribed : List StreamOp :=
  [.subscribe "alice" "r-1" true {}, .resumeCall 0 {}, .resumeCall 0 {}]

def polled : List StreamOp :=
  [.resumeTick {}, .resumeTick { state := some {} }, .resumeTick {}, .resumeTick {}, .resumeTick {},
    .resumeTick {}]

theorem told_of_collects_polled :
    let u := subscribed.foldl (next {}) {}
    let v := (.tick 1000 :: polled).foldl (next {}) u
    v.sub? 1 = none ∨ v.Told 1 :=
  told_of_collects (c := {}) (Run.of_guarded (by decide))
    { run := Run.of_guarded (by decide)
      one := by simp [polled]
      ends := ⟨[], by decide⟩
      collected := ⟨⟨"r-1", [1], "room:r-1"⟩, by decide, by decide, "room:r-1", {}, by decide⟩ }

/-- bob subscribes to alice's room while a `Tick` waits for its state; the state stays the same. -/
def subscribedWithin : List StreamOp :=
  subscribed ++ [.tick 1000, .resumeTick {}, .subscribe "bob" "r-1" true {}, .resumeCall 1 {},
    .resumeTick { state := some {} }, .resumeTick {}, .resumeTick {}, .resumeTick {}, .resumeTick {},
    .resumeCall 1 {}]

/-- The next `Tick` collects bob, is told the state, and pushes nothing to him. -/
theorem not_told_of_collects : ¬∀ c pre nowMs ops u v id, Run (PlainStep c) {} pre u →
    Collects (PlainStep c) u nowMs ops v id → v.sub? id = none ∨ v.Told id := by
  intro h
  let u := subscribedWithin.foldl (next {}) {}
  let v := (.tick 1100 :: polled.take 5).foldl (next {}) u
  have hcollects : Collects (PlainStep {}) u 1100 (polled.take 5) v 2 :=
    { run := Run.of_guarded (by decide)
      one := by simp [polled]
      ends := ⟨[], by decide⟩
      collected := ⟨⟨"r-1", [2, 1], "room:r-1"⟩, by decide, by decide, "room:r-1", {}, by decide⟩ }
  exact absurd (h {} subscribedWithin 1100 _ u v 2 (Run.of_guarded (by decide)) hcollects) (by decide)

end StreamSystem

end RealtimeGame.Gateway
