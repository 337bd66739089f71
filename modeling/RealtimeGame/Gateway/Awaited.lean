import RealtimeGame.Gateway.EventOrder

/-!
# Gateway/Awaited — a backfill that has not begun

As long as a backfill is pending, no frame was written to its subscription, and Room has not answered with
any; unless the `Tick` on its way is writing them now.  This is so in every run.
-/

open Library

namespace RealtimeGame.Gateway

/-! ## Frames of a backfill

A backfill has begun when Room has answered it with frames, and at the latest when a frame is written. -/

/-- A frame was written to this subscription, or Room has answered with those that it has missed. -/
def StreamEvent.begins (id : Nat) : StreamEvent → Bool
  | write id' (.roomState ..) _ | write id' (.roomFinished ..) _ => id' = id
  | event => event.missed id

theorem StreamEvent.about_of_begins {event : StreamEvent} {id : Nat} (h : event.begins id = true) :
    event.about = some id := by
  rcases event with _ | _ | _ | ⟨id', - | _ | _ | _ | _ | _, _⟩ | _
  case write.roomState | write.roomFinished => exact congrArg some (of_decide_eq_true h)
  all_goals exact about_of_touches (.inr h)

namespace Job

variable {c : StreamConfig} {answer : Answer} {hub : StreamHub} {t : TickState} {id : Nat}

/-- The subscription that a job writes the missing frames to. -/
def fills : Job → Option Nat
  | frame target .. | framePushed target .. => some target.id
  | _ => none

/-- Who is written a missing frame is shown something, and is backfilled. -/
theorem shows_of_fills {job : Job} (h : job.fills = some id) : id ∈ job.shows := by
  cases job
  case frame | framePushed =>
    cases h
    exact List.mem_singleton_self _
  all_goals cases h

theorem backs_of_fills {job : Job} (h : job.fills = some id) : job.backs = some id := by
  cases job
  case frame | framePushed => exact h
  all_goals cases h

/-- What a job leads to is about a subscription that the job is about. -/
theorem shows_of_more {job job' : Job} (h : job' ∈ (job.run c answer hub t).more) (hid : id ∈ job'.shows) :
    id ∈ job.shows := (shows_more job).subset (List.mem_flatMap.mpr ⟨job', h, hid⟩)

/-- Missing frames lead to missing frames. -/
theorem fills_of_more {job job' : Job} (h : job' ∈ (job.run c answer hub t).more) (hid : job.fills = some id) :
    job'.fills = some id := by
  cases leads_of_more h
  case frame | framePushed => exact hid
  all_goals cases hid

/-- **Whatever begins** is Room's answer to a backfill, one of its frames, or a live push. -/
theorem begins_of_mem {job : Job} {event : StreamEvent} (h : event ∈ (job.run c answer hub t).events)
    (hbegins : event.begins id = true) :
    (∃ target snapshot rest, target.id = id ∧ job = backfill target ∧
      (job.run c answer hub t).more = [frame target 0 snapshot rest]) ∨
    job.fills = some id ∨ id ∈ job.shows ∧ job.backs = none := by
  cases job
  case backfill target =>
    left
    have hmissed : event.missed id = true := by
      simp only [run] at h
      split_ifs at h
      · cases h
      · cases h
      · split at h
        · cases h
        · cases List.mem_singleton.mp h
          exact hbegins
    have hpush : (backfill target).PushesFrame := trivial
    obtain ⟨hasks, job', hmore, -, hfinishes⟩ := finishes_of_mem hpush h (.inr hmissed)
    cases leads_of_more (hmore ▸ List.mem_singleton_self job')
    case frames snapshot rest _ _ _ _ _ _ =>
      exact ⟨target, snapshot, rest, Option.some.inj hasks, rfl, hmore⟩
    all_goals cases hfinishes
  case frame target written snapshot rest =>
    cases List.mem_singleton.mp h
    exact .inr (.inl (StreamEvent.about_of_begins hbegins))
  case push id' event closes =>
    cases List.mem_singleton.mp h
    obtain rfl := Option.some.inj (StreamEvent.about_of_begins hbegins)
    exact .inr (.inr ⟨List.mem_singleton_self _, rfl⟩)
  case current | reset | poll | ready | heartbeat =>
    cases List.mem_singleton.mp h
    cases hbegins
  all_goals cases h

/-- A missing frame leads to the next one, or it is noted how the backfill ended. -/
theorem filled_run {job : Job} (h : job.fills = some id) :
    (∃ job' ∈ (job.run c answer hub t).more, job'.fills = some id) ∨
      id ∈ (job.run c answer hub t).vars.failed ∨
      id ∈ (job.run c answer hub t).vars.backfilled.map (·.1) := by
  have hfinishes : job.finishes = some id := by
    cases job
    case frame | framePushed => exact h
    all_goals cases h
  refine (finished_run hfinishes fun _ _ _ heq => ?_).imp_left ?_
  · rw [heq] at h
    cases h
  · rintro ⟨job', hmore, -⟩
    exact ⟨job', hmore, fills_of_more hmore h⟩

end Job

/-! ## Before the frames

A pending backfill has written nothing, or is being written now.  The cases are the parts of a `Tick`. -/

namespace StreamSystem

variable {c : StreamConfig} {s s' : StreamSystem} {op : StreamOp} {id : Nat}

/-- No frame was written to this subscription, and none was answered for it. -/
def Unbegun (s : StreamSystem) (id : Nat) : Prop := ∀ event ∈ s.log, event.begins id = false

/-- The `Tick` on its way writes the missing frames, or has noted how that ended. -/
def Filling (s : StreamSystem) (id : Nat) : Prop :=
  ∃ vars jobs, s.tick = .running vars jobs ∧ ((∃ job ∈ jobs, job.fills = some id) ∨
    id ∈ vars.failed ∨ id ∈ vars.backfilled.map (·.1))

/-- **A pending backfill** has not begun, or is written by the `Tick` on its way. -/
structure Awaited (id : Nat) (s : StreamSystem) : Prop where
  once : (s.tick.jobs.flatMap Job.shows).Nodup
  pushes : ∀ job ∈ s.tick.jobs, job.PushesFrame
  backs : ∀ job ∈ s.tick.jobs, job.backs = some id → job.fills = none → s.Unbegun id
  pending : ∀ sub, s.sub? id = some sub → sub.shouldBackfill = true → s.Unbegun id ∨ s.Filling id
  live : ∀ job ∈ s.tick.jobs, id ∈ job.shows → job.backs = none →
    ∀ sub, s.sub? id = some sub → sub.shouldBackfill = false

theorem Awaited.start (id : Nat) : Awaited id {} where
  once := List.nodup_nil
  pushes _ hjob := by cases hjob
  backs _ hjob := by cases hjob
  pending _ hsub := by cases hsub
  live _ hjob := by cases hjob

/-- Only a job begins a backfill. -/
theorem Unbegun.next (h : s.Unbegun id)
    (hop : ∀ answer vars job jobs, op = .resumeTick answer → s.tick ≠ .running vars (job :: jobs)) :
    (s.next c op).Unbegun id := by
  obtain ⟨events, hlog, hevents⟩ := log_next c s op
  intro event hevent
  rw [hlog] at hevent
  rcases List.mem_append.mp hevent with hold | hnew
  · exact h event hold
  · refine Bool.eq_false_iff.mpr fun hbegins => ?_
    rcases hevents event hnew id (StreamEvent.about_of_begins hbegins) with
      ⟨answer, vars, job, jobs, hrun, htick, -⟩ | ⟨_, _, _, _, -, -, rfl⟩
    · exact hop answer vars job jobs hrun htick
    · cases hbegins

/-- Nothing has begun for whom there is not. -/
theorem Sound.unbegun (hsound : Sound s) (hle : s.hub.nextId ≤ id) : s.Unbegun id :=
  fun event hevent => Bool.eq_false_iff.mpr fun hbegins =>
    absurd (hsound.log event hevent id (StreamEvent.about_of_begins hbegins)) (not_lt.mpr hle)

theorem Job.mem_ids_of_shows {job : Job} (h : id ∈ job.shows) : id ∈ job.ids := by
  cases job
  case ready | heartbeat => cases h
  all_goals exact h

/-- Each subscription is shown by one job. -/
theorem not_mem_shows {job job' : Job} {jobs : List Job} (hnodup : ((job :: jobs).flatMap Job.shows).Nodup)
    (hid : id ∈ job.shows) (hjob' : job' ∈ jobs) : id ∉ job'.shows := by
  rw [List.flatMap_cons, List.nodup_append'] at hnodup
  exact fun hid' => hnodup.2.2 hid (List.mem_flatMap.mpr ⟨job', hjob', hid'⟩)

/-- A new `Tick` has written nothing yet. -/
theorem Awaited.tick (h : Awaited id s) (hidle : s.Idle) (nowMs : Int) :
    Awaited id (s.next c (.tick nowMs)) where
  once := StreamHub.nodup_shows
  pushes job hjob := by
    rcases StreamHub.mem_jobs.mp hjob with ⟨_, -, rfl⟩ | ⟨_, -, rfl⟩ | ⟨_, -, rfl⟩ | ⟨_, -, rfl⟩ <;> trivial
  backs job hjob hbacks _ := by
    rcases StreamHub.mem_jobs.mp hjob with ⟨target, htarget, rfl⟩ | ⟨_, -, rfl⟩ | ⟨_, -, rfl⟩ | ⟨_, -, rfl⟩
    · cases hbacks
      obtain ⟨sub, hsub, hshould, -⟩ := StreamHub.mem_needBackfill.mp htarget
      rw [Subscription.shouldBackfill_seen] at hshould
      refine (h.pending sub hsub hshould).resolve_right ?_
      rintro ⟨vars, jobs, htick, -⟩
      cases htick.symm.trans hidle
    all_goals cases hbacks
  pending sub' hsub' hshould := by
    rw [sub?_tick, Option.map_eq_some_iff] at hsub'
    obtain ⟨sub, hsub, rfl⟩ := hsub'
    rw [Subscription.shouldBackfill_seen] at hshould
    refine .inl ((h.pending sub hsub hshould).resolve_right ?_)
    rintro ⟨vars, jobs, htick, -⟩
    cases htick.symm.trans hidle
  live job hjob hshows hbacks sub' hsub' := by
    rw [sub?_tick, Option.map_eq_some_iff] at hsub'
    obtain ⟨sub, hsub, rfl⟩ := hsub'
    rcases StreamHub.mem_jobs.mp hjob with ⟨_, -, rfl⟩ | ⟨room, hroom, rfl⟩ | ⟨_, -, rfl⟩ | ⟨_, -, rfl⟩
    · cases hbacks
    · obtain ⟨sub', hsub', hlive⟩ := StreamHub.mem_sinks.mp ⟨room, hroom, hshows⟩
      cases hsub.symm.trans hsub'
      exact hlive
    all_goals cases hshows

/-- **One job.** -/
theorem Awaited.job (h : Awaited id s) {vars : TickState} {job : Job} {jobs : List Job}
    (htick : s.tick = .running vars (job :: jobs)) (answer : Answer) :
    Awaited id (s.next c (.resumeTick answer)) := by
  have hjob := mem_jobs_head htick
  have hrest : ∀ job' ∈ jobs, job' ∈ s.tick.jobs := fun job' => mem_jobs_tail htick
  have honce : ((job :: jobs).flatMap Job.shows).Nodup := by
    have honce := h.once
    rwa [htick] at honce
  have hnext := tick_job (c := c) htick answer
  have hsub : (s.next c (.resumeTick answer)).sub? id = s.sub? id := sub?_job htick
  -- What has not begun, this job begins.
  have hkeep : s.Unbegun id → (s.next c (.resumeTick answer)).Unbegun id ∨
      ∃ event ∈ (job.run c answer s.hub vars).events, event.begins id = true := by
    intro hunbegun
    by_cases hsome : ∃ event ∈ (job.run c answer s.hub vars).events, event.begins id = true
    · exact .inr hsome
    · left
      intro event hevent
      simp only [next, resumeTick, htick] at hevent
      rcases List.mem_append.mp hevent with hold | hnew
      · exact hunbegun event hold
      · exact Bool.eq_false_iff.mpr fun hbegins => hsome ⟨event, hnew, hbegins⟩
  constructor
  · rw [hnext]
    change (((job.run c answer s.hub vars).more ++ jobs).flatMap Job.shows).Nodup
    rw [List.flatMap_append]
    rw [List.flatMap_cons] at honce
    exact honce.sublist ((Job.shows_more job).append_right _)
  · intro job' hjob'
    rw [hnext] at hjob'
    rcases List.mem_append.mp hjob' with hmore | hold
    · exact Job.pushesFrame_of_more hmore
    · exact h.pushes job' (hrest job' hold)
  · intro job' hjob' hbacks hfills
    rw [hnext] at hjob'
    have hshows' : id ∈ job'.shows := by
      rw [Job.shows_of_backs hbacks]
      exact List.mem_singleton_self id
    rcases List.mem_append.mp hjob' with hmore | hold
    · have hback := Job.backs_of_more hmore hbacks
      have hfill : job.fills = none := by
        refine Option.eq_none_iff_forall_ne_some.mpr fun id' hid' => ?_
        cases hfills.symm.trans (Job.fills_of_more hmore hid')
      refine (hkeep (h.backs job hjob hback hfill)).resolve_right ?_
      rintro ⟨event, hevent, hbegins⟩
      rcases Job.begins_of_mem hevent hbegins with ⟨_, _, _, -, -, heq⟩ | hfilled | ⟨-, hnone⟩
      · rw [heq] at hmore
        rw [List.mem_singleton.mp hmore] at hfills
        cases hfills
      · cases hfill.symm.trans hfilled
      · cases hback.symm.trans hnone
    · refine (hkeep (h.backs job' (hrest job' hold) hbacks hfills)).resolve_right ?_
      rintro ⟨event, hevent, hbegins⟩
      refine not_mem_shows honce ?_ hold hshows'
      rcases Job.begins_of_mem hevent hbegins with ⟨_, _, _, rfl, rfl, -⟩ | hfilled | ⟨hshows, -⟩
      · exact List.mem_singleton_self _
      · exact Job.shows_of_fills hfilled
      · exact hshows
  · intro sub hsub' hshould
    rw [hsub] at hsub'
    rcases h.pending sub hsub' hshould with hunbegun | ⟨vars', jobs', htick', hfilling⟩
    · refine (hkeep hunbegun).imp_right ?_
      rintro ⟨event, hevent, hbegins⟩
      refine ⟨_, _, hnext, ?_⟩
      rcases Job.begins_of_mem hevent hbegins with ⟨_, _, _, rfl, rfl, heq⟩ | hfilled | ⟨hshows, hnone⟩
      · rw [heq]
        exact .inl ⟨_, List.mem_append_left _ (List.mem_singleton_self _), rfl⟩
      · refine (Job.filled_run hfilled).imp_left ?_
        rintro ⟨job', hmore, hfills⟩
        exact ⟨job', List.mem_append_left _ hmore, hfills⟩
      · cases hshould.symm.trans (h.live job hjob hshows hnone sub hsub')
    · cases htick.symm.trans htick'
      refine .inr ⟨_, _, hnext, ?_⟩
      rcases hfilling with ⟨job', hjob', hfills⟩ | hfailed | hdone
      · rcases List.mem_cons.mp hjob' with rfl | hold
        · refine (Job.filled_run hfills).imp_left ?_
          rintro ⟨job'', hmore, hfills⟩
          exact ⟨job'', List.mem_append_left _ hmore, hfills⟩
        · exact .inl ⟨job', List.mem_append_right _ hold, hfills⟩
      · exact .inr (.inl (mem_failed_run job s.hub hfailed))
      · exact .inr (.inr (Job.mem_backfilled_run job hdone))
  · intro job' hjob' hshows hbacks sub hsub'
    rw [hnext] at hjob'
    rw [hsub] at hsub'
    rcases List.mem_append.mp hjob' with hmore | hold
    · refine h.live job hjob (Job.shows_of_more hmore hshows) ?_ sub hsub'
      refine Option.eq_none_iff_forall_ne_some.mpr fun id' hid' => ?_
      cases Job.leads_of_more hmore
      case countPoll | poll | compare => cases hid'
      all_goals cases hbacks
    · exact h.live job' (hrest job' hold) hshows hbacks sub hsub'

/-- The end of a `Tick`. -/
theorem Awaited.commit (h : Awaited id s) {vars : TickState} (htick : s.tick = .running vars [])
    (answer : Answer) : Awaited id (s.next c (.resumeTick answer)) := by
  have hnext : (s.next c (.resumeTick answer)).tick.jobs = [] := by
    simp only [next, resumeTick, htick, TickPc.jobs]
  constructor
  · rw [hnext]
    exact List.nodup_nil
  · rw [hnext]
    exact fun job hjob => by cases hjob
  · rw [hnext]
    exact fun job hjob => by cases hjob
  · intro sub' hsub' hshould
    simp only [sub?, next, resumeTick, htick, StreamHub.lookup_commit] at hsub'
    split at hsub'
    · cases hsub'
    case isFalse hfailed =>
      obtain ⟨sub, hsub, rfl⟩ := Option.map_eq_some_iff.mp hsub'
      left
      refine Unbegun.next ((h.pending sub hsub (Subscription.shouldBackfill_of_committed hshould)).resolve_right
        ?_) fun _ vars' job jobs _ heq => ?_
      · rintro ⟨vars', jobs', htick', hfilling⟩
        cases htick.symm.trans htick'
        rcases hfilling with ⟨_, hjob, -⟩ | hmem | hdone
        · cases hjob
        · exact hfailed hmem
        · rw [Subscription.shouldBackfill, Subscription.committed_of_backfilled hdone] at hshould
          cases hshould
      · cases htick.symm.trans heq
  · rw [hnext]
    exact fun job hjob => by cases hjob

/-- Any other step. -/
theorem Awaited.aside (h : Awaited id s) (hsound : Sound s) (haside : s.Aside c op) :
    Awaited id (s.next c op) := by
  constructor
  · rw [haside.jobs]
    exact h.once
  · rw [haside.jobs]
    exact h.pushes
  · rw [haside.jobs]
    exact fun job hjob hbacks hfills => (h.backs job hjob hbacks hfills).next haside.noJob
  · intro sub' hsub' hshould
    rcases haside.sub id sub' hsub' with hold | ⟨hid, -⟩
    · refine (h.pending sub' hold hshould).imp (·.next haside.noJob) ?_
      rintro ⟨vars, jobs, hrunning, hfilling⟩
      exact ⟨vars, jobs, (haside.tick vars jobs).mpr hrunning, hfilling⟩
    · exact .inl ((hsound.unbegun hid.ge).next haside.noJob)
  · intro job hjob hshows hbacks sub' hsub'
    rw [haside.jobs] at hjob
    rcases haside.sub id sub' hsub' with hold | ⟨hid, -⟩
    · exact h.live job hjob hshows hbacks sub' hold
    · exact absurd hid (hsound.jobs job hjob id (Job.mem_ids_of_shows hshows)).ne

/-- **One step.** -/
theorem Awaited.step (h : Awaited id s) (hsound : Sound s) (hstep : Step c s op s') : Awaited id s' := by
  obtain ⟨hseq, rfl⟩ := hstep
  rcases next_cases c s op with ⟨nowMs, rfl⟩ | ⟨answer, vars, job, jobs, rfl, htick⟩ |
    ⟨answer, vars, rfl, htick⟩ | haside
  · exact h.tick hseq nowMs
  · exact h.job htick answer
  · exact h.commit htick answer
  · exact h.aside hsound haside

end StreamSystem

end RealtimeGame.Gateway
