import RealtimeGame.Gateway.StreamLaws

/-!
# Gateway/StreamTrace — what was written, what is about to be, and what a `Tick` has noted

A job that writes is bound to write (`Bound`), a `Tick` notes only what happened (`Traced`), and whoever
a write failed for is removed by the end of the `Tick` (`FailuresNoted`).
-/

open Library

namespace RealtimeGame.Gateway

namespace Subscription

variable {t : TickState} {id : Nat} {nowMs : Int} {s : Subscription}

/-- Neither section of a `Tick` changes whose a subscription is. -/
@[simp] theorem seen_roomId : (s.seen nowMs).roomId = s.roomId := by
  unfold seen
  split <;> rfl

@[simp] theorem seen_playerId : (s.seen nowMs).playerId = s.playerId := by
  unfold seen
  split <;> rfl

@[simp] theorem committed_roomId : (s.committed t id).roomId = s.roomId :=
  committed_induction (P := fun s' => s'.roomId = s.roomId) rfl (fun _ _ _ h => h)
    (fun _ _ h => h) (fun _ _ h => h) (fun _ _ h => h)

@[simp] theorem committed_playerId : (s.committed t id).playerId = s.playerId :=
  committed_induction (P := fun s' => s'.playerId = s.playerId) rfl (fun _ _ _ h => h)
    (fun _ _ h => h) (fun _ _ h => h) (fun _ _ h => h)

@[simp] theorem shouldBackfill_seen (nowMs : Int) (s : Subscription) :
    (s.seen nowMs).shouldBackfill = s.shouldBackfill := by
  unfold seen
  split <;> rfl

/-- Nothing is changed where nothing was done. -/
theorem committed_lastHeartbeatMs_of_not_mem {t : TickState} {id : Nat} {s : Subscription}
    (hbackfilled : id ∉ t.backfilled.map (·.1)) (hkept : id ∉ t.backfillPendingKept)
    (hready : id ∉ t.needReady.map (·.id)) (hbeat : id ∉ t.needHeartbeat) :
    (s.committed t id).lastHeartbeatMs = s.lastHeartbeatMs :=
  committed_induction (P := fun s' => s'.lastHeartbeatMs = s.lastHeartbeatMs) rfl
    (fun _ _ hmem => absurd hmem hbackfilled) (fun _ _ h => h)
    (fun _ hmem => absurd hmem (not_or.mpr ⟨hkept, hbeat⟩)) (fun _ hmem => absurd hmem hready)

/-- Only a backfill that is done ends one. -/
theorem shouldBackfill_committed {t : TickState} {id : Nat} {s : Subscription}
    (h : id ∉ t.backfilled.map (·.1)) : (s.committed t id).shouldBackfill = s.shouldBackfill := by
  obtain ⟨hpending, hfrom⟩ := committed_of_not_backfilled (s := s) h
  rw [shouldBackfill, hpending, hfrom, committed_backfillMalformed]
  rfl

end Subscription

namespace StreamSystem

variable {c : StreamConfig} {s s' : StreamSystem} {op : StreamOp} {n id : Nat}

/-- Something was written to this subscription's sink, or tried to, after the first `n` calls. -/
def WrittenSince (s : StreamSystem) (n id : Nat) : Prop := ∃ event ok, .write id event ok ∈ s.log.drop n

/-- What was written stays written. -/
theorem WrittenSince.next (h : s.WrittenSince n id) (op : StreamOp) :
    (s.next c op).WrittenSince n id := by
  obtain ⟨event, ok, hmem⟩ := h
  obtain ⟨events, hlog, -⟩ := log_next c s op
  refine ⟨event, ok, ?_⟩
  rw [hlog, List.drop_append]
  exact List.mem_append_left _ hmem

/-- **Written to, or about to be**, by a job of this `Tick`. -/
def Bound (n id : Nat) (s : StreamSystem) : Prop :=
  s.WrittenSince n id ∨ ∃ job ∈ s.tick.jobs, job.writes = some id

/-- At the end of a `Tick`, whoever was about to be written to has been. -/
theorem Bound.written (h : s.Bound n id) (hidle : s.tick.jobs = []) : s.WrittenSince n id := by
  refine h.resolve_right ?_
  rintro ⟨job, hjob, -⟩
  rw [hidle] at hjob
  cases hjob

/-- A call of this step is in the log after the first `n`. -/
theorem writtenSince_of_mem {events : List StreamEvent} {event : SinkEvent} {ok : Bool}
    (hn : n ≤ s.log.length) (hlog : s'.log = s.log ++ events) (hmem : .write id event ok ∈ events) :
    s'.WrittenSince n id := by
  refine ⟨event, ok, ?_⟩
  rw [hlog, List.drop_append_of_le_length hn]
  exact List.mem_append_right _ hmem

/-- **Whoever is about to be written to goes on being so, or is written to.** -/
theorem Bound.step (h : s.Bound n id) (hn : n ≤ s.log.length) (hstep : Step c s op s') :
    s'.Bound n id := by
  obtain ⟨hseq, rfl⟩ := hstep
  rcases h with hwritten | ⟨job, hjob, hwrites⟩
  · exact .inl (hwritten.next op)
  rcases op with ⟨playerId, roomId, hasSink, options⟩ | id' | nowMs | - | - | reason | answer |
    ⟨call, answer⟩
  · simp only [next]
    split <;> exact .inr ⟨job, hjob, hwrites⟩
  · simp only [next]
    split <;> exact .inr ⟨job, hjob, hwrites⟩
  · rw [show s.tick = .reporting [] from hseq] at hjob
    cases hjob
  · exact .inr ⟨job, hjob, hwrites⟩
  · exact .inr ⟨job, hjob, hwrites⟩
  · exact .inr ⟨job, hjob, hwrites⟩
  · simp only [next, resumeTick]
    split
    case h_1 vars first jobs htick =>
      rw [htick] at hjob
      rcases List.mem_cons.mp hjob with rfl | hrest
      · obtain ⟨event, hmem⟩ := Job.mem_of_writes c answer s.hub vars hwrites
        exact .inl (writtenSince_of_mem hn rfl hmem)
      · exact .inr ⟨job, List.mem_append_right _ hrest, hwrites⟩
    case h_2 vars htick => rw [htick] at hjob; cases hjob
    case h_3 gone rest htick => rw [htick] at hjob; cases hjob
    case h_4 htick => exact .inr ⟨job, hjob, hwrites⟩
  · simp only [next, resumeCall]
    split <;> exact .inr ⟨job, hjob, hwrites⟩

/-! ## What a `Tick` has noted

The lists of a `Tick` are read only at its end.  Until then each of their entries has its reason in the log. -/

/-- What is left of a subscription's mode, unless a `Tick` ends in this step. -/
theorem shouldBackfill_next (hlt : id < s.hub.nextId) {vars : TickState} {jobs : List Job}
    (htick : (s.next c op).tick = .running vars jobs) {sub' : Subscription}
    (h : (s.next c op).sub? id = some sub') :
    ∃ sub, s.sub? id = some sub ∧ sub'.shouldBackfill = sub.shouldBackfill := by
  rcases sub?_next h with hsame | ⟨nowMs, sub, -, hsub, rfl⟩ |
    ⟨answer, vars', sub, rfl, hrunning, -⟩ | ⟨heq, -⟩
  · exact ⟨sub', hsame, rfl⟩
  · exact ⟨sub, hsub, sub.shouldBackfill_seen nowMs⟩
  · rw [next, resumeTick, hrunning] at htick
    cases htick
  · exact absurd heq hlt.ne

/-- **What a `Tick` notes is true**: who is to get its ready event or heartbeat is about to be written
to, who was noted as failed or backfilled was written to, and a backfill that is put off is owed. -/
structure Traced (n id : Nat) (s : StreamSystem) : Prop where
  due : ∀ vars jobs, s.tick = .running vars jobs →
    id ∈ vars.needReady.map (·.id) ∨ id ∈ vars.needHeartbeat → s.Bound n id
  wrote : ∀ job ∈ s.tick.jobs, job.wrote = some id → s.WrittenSince n id
  noted : ∀ vars jobs, s.tick = .running vars jobs →
    id ∈ vars.failed ∨ id ∈ vars.backfilled.map (·.1) → s.WrittenSince n id
  owed : ∀ vars jobs, s.tick = .running vars jobs →
    id ∈ vars.backfillPendingKept ∨ (∃ job ∈ jobs, job.waits = some id) →
      s.WrittenSince n id ∨ ∀ sub, s.sub? id = some sub → sub.shouldBackfill = true

theorem Traced.of_idle (h : s.Idle) : s.Traced n id where
  due _ _ htick := by cases h.symm.trans htick
  wrote _ hjob := by
    rw [show s.tick = .reporting [] from h] at hjob
    cases hjob
  noted _ _ htick := by cases h.symm.trans htick
  owed _ _ htick := by cases h.symm.trans htick

/-- A new `Tick` has noted what it is about to do. -/
theorem Traced.tick (n id : Nat) (s : StreamSystem) (nowMs : Int) :
    (s.next c (.tick nowMs)).Traced n id where
  due vars jobs htick hdue := by
    cases htick
    refine .inr ?_
    rcases hdue with hready | hbeat
    · obtain ⟨target, htarget, rfl⟩ := List.mem_map.mp hready
      refine ⟨.ready target, ?_, rfl⟩
      exact List.mem_append_left _ (List.mem_append_right _ (List.mem_map_of_mem htarget))
    · exact ⟨.heartbeat id, List.mem_append_right _ (List.mem_map_of_mem hbeat), rfl⟩
  wrote job hjob hwrote := by
    change job ∈ s.hub.jobs c nowMs at hjob
    rcases StreamHub.mem_jobs.mp hjob with ⟨_, -, rfl⟩ | ⟨_, -, rfl⟩ | ⟨_, -, rfl⟩ |
      ⟨_, -, rfl⟩ <;> cases hwrote
  noted vars jobs htick hnoted := by
    cases htick
    rcases hnoted with hmem | hmem <;> cases hmem
  owed vars jobs htick howed := by
    cases htick
    right
    rcases howed with hmem | ⟨job, hjob, hwaits⟩
    · cases hmem
    · rcases StreamHub.mem_jobs.mp hjob with ⟨target, htarget, rfl⟩ | ⟨_, -, rfl⟩ | ⟨_, -, rfl⟩ | ⟨_, -, rfl⟩
      · cases hwaits
        obtain ⟨sub, hsub, hshould, -⟩ := StreamHub.mem_needBackfill.mp htarget
        intro sub' hsub'
        rw [sub?_tick, show s.sub? target.id = some sub from hsub] at hsub'
        cases hsub'
        exact hshould
      all_goals cases hwaits

/-- **What is noted stays true.** -/
theorem Traced.step (h : s.Traced n id) (hn : n ≤ s.log.length) (hlt : id < s.hub.nextId)
    (hstep : Step c s op s') : s'.Traced n id := by
  have hbound : s.Bound n id → s'.Bound n id := fun hb => hb.step hn hstep
  obtain ⟨hseq, rfl⟩ := hstep
  have howed : ∀ vars jobs, (s.next c op).tick = .running vars jobs →
      (s.WrittenSince n id ∨ ∀ sub, s.sub? id = some sub → sub.shouldBackfill = true) →
      (s.next c op).WrittenSince n id ∨
        ∀ sub, (s.next c op).sub? id = some sub → sub.shouldBackfill = true := by
    intro vars jobs htick hold
    refine hold.imp (·.next op) fun hall sub' hsub' => ?_
    obtain ⟨sub, hsub, heq⟩ := shouldBackfill_next hlt htick hsub'
    rw [heq]
    exact hall sub hsub
  rcases tick_next c s op with hsame | ⟨nowMs, rfl⟩ | ⟨answer, vars, job, jobs, rfl, htick⟩ |
    ⟨gone, hgone, -⟩
  · constructor
    · intro vars jobs htick hdue
      exact hbound (h.due vars jobs (hsame.symm.trans htick) hdue)
    · intro job hjob hwrote
      rw [hsame] at hjob
      exact (h.wrote job hjob hwrote).next op
    · intro vars jobs htick hnoted
      exact (h.noted vars jobs (hsame.symm.trans htick) hnoted).next op
    · intro vars jobs htick hkept
      exact howed vars jobs htick (h.owed vars jobs (hsame.symm.trans htick) hkept)
  · exact .tick n id s nowMs
  · have hwritten : job.writes = some id → (s.next c (.resumeTick answer)).WrittenSince n id := by
      intro hwrites
      obtain ⟨event, hmem⟩ := Job.mem_of_writes c answer s.hub vars hwrites
      refine writtenSince_of_mem hn ?_ hmem
      simp only [next, resumeTick, htick]
    have hwrote : job.wrote = some id → (s.next c (.resumeTick answer)).WrittenSince n id :=
      fun hid => (h.wrote job (mem_jobs_head htick) hid).next _
    have hnext := tick_job (c := c) htick answer
    constructor
    · intro vars' jobs' htick' hdue
      cases hnext.symm.trans htick'
      rw [Job.run_needReady, Job.run_needHeartbeat] at hdue
      exact hbound (h.due vars _ htick hdue)
    · intro job' hjob' hid
      rw [hnext] at hjob'
      rcases List.mem_append.mp hjob' with hmore | hold
      · exact hwritten ((Job.leads_of_more hmore).writes_of_wrote hid)
      · exact (h.wrote job' (mem_jobs_tail htick hold) hid).next _
    · intro vars' jobs' htick' hnoted
      cases hnext.symm.trans htick'
      rcases hnoted with hfailed | hdone
      · rcases Job.mem_failed hfailed with hold | hwrites | hid
        · exact (h.noted vars _ htick (.inl hold)).next _
        · exact hwritten hwrites
        · exact hwrote hid
      · rcases Job.mem_backfilled hdone with hold | hid
        · exact (h.noted vars _ htick (.inr hold)).next _
        · exact hwrote hid
    · intro vars' jobs' htick' hkept
      cases hnext.symm.trans htick'
      rcases hkept with hkept | ⟨job', hjob', hwaits⟩
      · rcases Job.mem_kept hkept with hold | hwaits | hid
        · exact howed _ _ hnext (h.owed vars _ htick (.inl hold))
        · exact howed _ _ hnext (h.owed vars _ htick (.inr ⟨job, List.mem_cons_self, hwaits⟩))
        · exact .inl (hwrote hid)
      · refine howed _ _ hnext (h.owed vars _ htick (.inr ?_))
        rcases List.mem_append.mp hjob' with hmore | hold
        · exact ⟨job, List.mem_cons_self, (Job.leads_of_more hmore).waits hwaits⟩
        · exact ⟨job', List.mem_cons_of_mem _ hold, hwaits⟩
  · constructor
    · intro vars jobs htick
      cases hgone.symm.trans htick
    · intro job hjob
      rw [hgone] at hjob
      cases hjob
    · intro vars jobs htick
      cases hgone.symm.trans htick
    · intro vars jobs htick
      cases hgone.symm.trans htick

/-! ## A write that fails

It is noted at once or by the next job, and whoever is noted is dropped. -/

/-- Whoever a write failed for is removed, or will be at the end of this `Tick`. -/
def FailuresNoted (s : StreamSystem) : Prop :=
  ∀ id event, .write id event false ∈ s.log → s.sub? id = none ∨
    ∃ vars jobs, s.tick = .running vars jobs ∧ (id ∈ vars.failed ∨
      ∃ target reason payload, target.id = id ∧ .resetPushed target reason payload false ∈ jobs)

/-- A job whose write fails leads to its being noted. -/
theorem noted_of_writes {vars : TickState} {job : Job} {answer : Answer} (hub : StreamHub)
    (hwrites : job.writes = some id) (hfailed : answer.wrote = false) :
    id ∈ (job.run c answer hub vars).vars.failed ∨ ∃ target reason payload, target.id = id ∧
      .resetPushed target reason payload false ∈ (job.run c answer hub vars).more := by
  cases job
  case reset target reason payload =>
    cases hwrites
    exact .inr ⟨target, reason, payload, rfl, by simp [Job.run, hfailed]⟩
  case frame | push | ready | heartbeat =>
    cases hwrites
    left
    simp [Job.run, hfailed, TickState.note_failed]
  all_goals cases hwrites

/-- Who has failed stays noted. -/
theorem mem_failed_run {vars : TickState} (job : Job) {answer : Answer} (hub : StreamHub)
    (h : id ∈ vars.failed) : id ∈ (job.run c answer hub vars).vars.failed := by
  rcases Job.run_vars c answer hub vars job with hsame | ⟨id', outcome, -, hnote⟩
  · rw [hsame]
    exact h
  · rw [hnote, TickState.note_failed]
    split
    · exact List.mem_append_left _ h
    · exact h

/-- **One step.** -/
theorem FailuresNoted.step (hsound : Sound s) (h : s.FailuresNoted) (hstep : Step c s op s') :
    s'.FailuresNoted := by
  obtain ⟨hseq, rfl⟩ := hstep
  intro id event hmem
  obtain ⟨events, hlog, hevents⟩ := log_next c s op
  rw [hlog] at hmem
  rcases List.mem_append.mp hmem with hold | hnew
  · have hlt := hsound.log _ hold id rfl
    rcases h id event hold with hnone | ⟨vars, jobs, htick, hnoted⟩
    · exact .inl (sub?_next_none hlt hnone)
    rcases tick_next c s op with hsame | ⟨nowMs, rfl⟩ | ⟨answer, vars', job, jobs', rfl, htick'⟩ |
      ⟨gone, -, hgone⟩
    · exact .inr ⟨vars, jobs, hsame.trans htick, hnoted⟩
    · cases htick.symm.trans hseq
    · obtain ⟨rfl, rfl⟩ := TickPc.running.inj (htick.symm.trans htick')
      refine .inr ⟨(job.run c answer s.hub vars).vars, (job.run c answer s.hub vars).more ++ jobs',
        tick_job htick answer, ?_⟩
      rcases hnoted with hfailed | ⟨target, reason, payload, rfl, hjob⟩
      · exact .inl (mem_failed_run job s.hub hfailed)
      rcases List.mem_cons.mp hjob with rfl | hrest
      · left
        simp [Job.run, TickState.note_failed]
      · exact .inr ⟨target, reason, payload, rfl, List.mem_append_right _ hrest⟩
    · obtain ⟨rfl, answer, rfl⟩ := hgone vars jobs htick
      rcases hnoted with hfailed | ⟨_, _, _, -, hjob⟩
      · left
        simp only [sub?, next, resumeTick, htick, StreamHub.lookup_commit, if_pos hfailed]
      · cases hjob
  rcases hevents _ hnew id rfl with ⟨answer, vars, job, jobs, rfl, htick, hnew⟩ |
    ⟨_, _, _, _, -, hcall, -⟩
  · obtain ⟨hwrites, hfailed⟩ := Job.writes_of_mem hnew
    refine .inr ⟨(job.run c answer s.hub vars).vars, (job.run c answer s.hub vars).more ++ jobs,
      tick_job htick answer, ?_⟩
    refine (noted_of_writes s.hub hwrites hfailed.symm).imp_right ?_
    rintro ⟨target, reason, payload, rfl, hjob⟩
    exact ⟨target, reason, payload, rfl, List.mem_append_left _ hjob⟩
  · obtain ⟨hlt, hnone⟩ :=
      hsound.ended _ (List.mem_of_getElem? hcall) _ List.mem_cons_self id rfl
    exact .inl (sub?_next_none hlt hnone)

end StreamSystem

end RealtimeGame.Gateway
