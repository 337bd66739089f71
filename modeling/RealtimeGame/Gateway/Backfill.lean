import RealtimeGame.Gateway.StreamTrace

/-!
# Gateway/Backfill — a backfill is done once

A backfill ends with a `stream.reset` or with the last missing frame; after that the subscription is no
longer pending and takes part in the live pushes.  This fails where a reset was written to a
subscription whose `Last-Event-ID` is well formed: the outcome then says that nothing was attempted, and
the next `Tick` starts over.
-/

open Library

namespace RealtimeGame.Gateway

namespace StreamEvent

/-- A `stream.reset`, written to this subscription or tried to. -/
def resets (id : Nat) : StreamEvent → Bool
  | write id' (.streamReset ..) _ => id' = id
  | _ => false

/-- Room's answer with the frames that this subscription has missed. -/
def missed (id : Nat) : StreamEvent → Bool
  | getSnapshotsSince id' _ _ _ (some range) =>
    id' = id && range.status = .ready && range.snapshots ≠ []
  | _ => false

theorem about_of_touches {event : StreamEvent} {id : Nat}
    (h : event.resets id = true ∨ event.missed id = true) : event.about = some id := by
  rcases event with _ | _ | ⟨id', _, _, _, - | _⟩ | ⟨id', - | _ | _ | _ | _ | _, _⟩ | _ <;>
    simp_all [resets, missed, about]

end StreamEvent

/-- The subscription that a `stream.reset` is about to be written to. -/
def TickPc.resets : TickPc → Option BackfillTarget
  | running _ (.reset target _ _ :: _) => some target
  | _ => none

namespace StreamSystem

variable (s : StreamSystem)

/-- The reset, or every missing frame, was written to this subscription. -/
def Backfilled (id : Nat) : Prop :=
  (∃ reason payload nowMs, .write id (.streamReset reason payload nowMs) true ∈ s.log) ∨
  ∃ roomId sinceFrame requestId range,
    .getSnapshotsSince id roomId sinceFrame requestId (some range) ∈ s.log ∧
    range.status = .ready ∧ range.snapshots ≠ [] ∧
    ∀ snapshot ∈ range.snapshots, ∃ nowMs, .write id (frameEvent snapshot nowMs) true ∈ s.log

/-- It hears of its room in the next `Tick`, and is told that it is ready if it was not yet. -/
def TakesPart (id : Nat) (sub : Subscription) : Prop :=
  ∀ nowMs, (∃ room ∈ s.hub.byRoom nowMs, id ∈ room.sinks) ∧
    (sub.readySent = false → ∃ target ∈ s.hub.needReady nowMs, target.id = id)

/-- **Backfills finish** — with one `stream.reset` at most; and after the `Tick` that has written the
reset or the frames, the subscription is not pending any more. -/
def BackfillsFinish : Prop :=
  (∀ id, s.log.countP (·.resets id) ≤ 1) ∧
  ∀ gone, s.tick = .reporting gone → ∀ id sub, s.sub? id = some sub → s.Backfilled id →
    sub.backfillPending = false ∧ s.TakesPart id sub

/-- No `stream.reset` is written to a subscription whose `Last-Event-ID` is well formed. -/
def ResetsMalformed : StreamOp → Prop
  | .resumeTick answer =>
    ∀ target ∈ s.tick.resets, answer.wrote = true → target.malformed = true
  | _ => True

instance : DecidablePred s.ResetsMalformed
  | .resumeTick answer => inferInstanceAs
      (Decidable (∀ target ∈ s.tick.resets, answer.wrote = true → target.malformed = true))
  | .subscribe .. | .unsubscribe _ | .tick _ | .closeAll | .beginShutdown | .closeAllWithEvent _
  | .resumeCall .. => .isTrue trivial

/-- One step of a run that resets malformed ids only. -/
def MalformedStep (c : StreamConfig) (s : StreamSystem) (op : StreamOp) (s' : StreamSystem) : Prop :=
  (s.ResetsMalformed op ∧ s.Sequential op) ∧ s' = s.next c op

end StreamSystem

/-! ## Before and after the write

A backfill is asked for, answered, written and noted, each in a job of its own. -/

namespace Job

variable {c : StreamConfig} {answer : Answer} {hub : StreamHub} {t : TickState} {id : Nat}

/-- The subscription that a job backfills. -/
def backs : Job → Option Nat
  | backfill target | current target _ | reset target .. | resetPushed target .. | frame target ..
  | framePushed target .. => some target.id
  | _ => none

/-- …and has not written to yet. -/
def asks : Job → Option Nat
  | backfill target | current target _ | reset target .. => some target.id
  | _ => none

/-- …or knows what to write, and has begun. -/
def finishes : Job → Option Nat
  | resetPushed target .. | frame target .. | framePushed target .. => some target.id
  | _ => none

/-- Only frames are pushed. -/
def PushesFrame : Job → Prop
  | push _ event _ => ∃ snapshot nowMs, event = frameEvent snapshot nowMs
  | _ => True

theorem backs_of_asks {job : Job} (h : job.asks = some id) : job.backs = some id := by
  cases job
  case backfill | current | reset => exact h
  all_goals cases h

theorem resets_frameEvent (snapshot : RoomSnapshot) (nowMs : Int) (id' : Nat) (ok : Bool) :
    (StreamEvent.write id' (frameEvent snapshot nowMs) ok).resets id = false := by
  unfold frameEvent
  split <;> rfl

/-- A job leads to one that backfills at most, and for the same subscription. -/
theorem backs_more (job : Job) :
    ((job.run c answer hub t).more.filterMap backs).Sublist job.backs.toList := by
  cases job
  case backfill target =>
    simp only [run]
    split_ifs
    · exact List.nil_sublist _
    · exact List.Sublist.refl _
    · rcases target.sinceFrame with - | sinceFrame
      · exact List.nil_sublist _
      rcases answer.range with - | range
      · exact List.nil_sublist _
      · simp only [afterRange]
        split <;> exact List.Sublist.refl _
  case current target reason =>
    simp only [run]
    rcases answer.state with - | payload
    · exact List.nil_sublist _
    · exact List.Sublist.refl _
  case reset => exact List.Sublist.refl _
  case frame =>
    simp only [run]
    split
    · exact List.Sublist.refl _
    · exact List.nil_sublist _
  case framePushed target written snapshot rest =>
    rcases rest with - | ⟨next, rest⟩
    · exact List.nil_sublist _
    · exact List.Sublist.refl _
  case countPoll =>
    simp only [run]
    split <;> exact List.nil_sublist _
  case poll =>
    simp only [run]
    rcases answer.state with - | snapshot <;> exact List.nil_sublist _
  case compare room snapshot =>
    have hnone : ∀ sinks : List Nat, (sinks.map (push · (frameEvent snapshot t.nowMs)
        snapshot.terminal)).filterMap backs = [] := by
      intro sinks
      rw [List.filterMap_map]
      exact List.filterMap_eq_nil_iff.mpr fun _ _ => rfl
    simp only [run]
    split
    · rw [hnone]
      exact List.nil_sublist _
    · exact List.nil_sublist _
  all_goals exact List.nil_sublist _

/-- **What a job knows of the answer** — whoever it resets or gets frames for is finished next. -/
theorem finishes_of_mem {job : Job} {event : StreamEvent} (hpush : job.PushesFrame)
    (h : event ∈ (job.run c answer hub t).events)
    (htouch : event.resets id = true ∨ event.missed id = true) :
    job.asks = some id ∧ ∃ job', (job.run c answer hub t).more = [job'] ∧ job'.asks = none ∧
      job'.finishes = some id := by
  cases job
  case backfill target =>
    simp only [run] at h ⊢
    split_ifs at h ⊢
    · cases h
    · cases h
    · rcases hsince : target.sinceFrame with - | sinceFrame
      · rw [hsince] at h
        cases h
      simp only [hsince] at h ⊢
      cases List.mem_singleton.mp h
      rcases hrange : answer.range with - | range
      · rw [hrange] at htouch
        rcases htouch with htouch | htouch <;> cases htouch
      simp only [hrange, StreamEvent.resets, StreamEvent.missed, Bool.false_eq_true, false_or,
        Bool.and_eq_true, decide_eq_true_eq] at htouch
      obtain ⟨⟨rfl, hready⟩, hsnapshots⟩ := htouch
      obtain ⟨snapshot, rest, hcons⟩ := List.exists_cons_of_ne_nil hsnapshots
      refine ⟨rfl, frame target 0 snapshot rest, ?_, rfl, rfl⟩
      simp only [afterRange, hready, hcons]
  case reset target reason payload =>
    cases List.mem_singleton.mp h
    simp only [StreamEvent.resets, StreamEvent.missed, decide_eq_true_eq, Bool.false_eq_true,
      or_false] at htouch
    subst htouch
    exact ⟨rfl, _, rfl, rfl, rfl⟩
  case push id' event closes =>
    obtain ⟨snapshot, nowMs, rfl⟩ := hpush
    cases List.mem_singleton.mp h
    rw [resets_frameEvent] at htouch
    rcases htouch with htouch | htouch <;> cases htouch
  case frame =>
    cases List.mem_singleton.mp h
    rw [resets_frameEvent] at htouch
    rcases htouch with htouch | htouch <;> cases htouch
  case current | poll | ready | heartbeat =>
    cases List.mem_singleton.mp h
    rcases htouch with htouch | htouch <;> cases htouch
  all_goals cases h

/-- A job that finishes a backfill leads to the next one, or notes that it is over. -/
theorem finished_run {job : Job} (h : job.finishes = some id)
    (hmalformed : ∀ target reason payload, job = resetPushed target reason payload true →
      target.malformed = true) :
    (∃ job' ∈ (job.run c answer hub t).more, job'.finishes = some id) ∨
      id ∈ (job.run c answer hub t).vars.failed ∨
      id ∈ (job.run c answer hub t).vars.backfilled.map (·.1) := by
  cases job
  case resetPushed target reason payload ok =>
    cases h
    right
    rcases ok with - | -
    · left
      simp [run, TickState.note_failed]
    · right
      simp [run, TickState.note_backfilled, hmalformed target reason payload rfl]
  case frame target written snapshot rest =>
    cases h
    rcases hwrote : answer.wrote with - | -
    · right
      left
      simp [run, hwrote, TickState.note_failed]
    · exact .inl ⟨framePushed target written snapshot rest, by simp [run, hwrote], rfl⟩
  case framePushed target written snapshot rest =>
    cases h
    rcases rest with - | ⟨next, rest⟩
    · right
      right
      simp [run, TickState.note_backfilled]
    · exact .inl ⟨frame target (written + 1) next rest, List.mem_singleton_self _, rfl⟩
  all_goals cases h

/-- What was noted as done stays noted. -/
theorem mem_backfilled_run (job : Job) (h : id ∈ t.backfilled.map (·.1)) :
    id ∈ (job.run c answer hub t).vars.backfilled.map (·.1) := by
  rcases run_vars c answer hub t job with hsame | ⟨id', outcome, -, hnote⟩
  · rw [hsame]
    exact h
  · rw [hnote, TickState.note_backfilled]
    split
    · rw [List.map_append]
      exact List.mem_append_left _ h
    · exact h

theorem pushesFrame_of_more {job job' : Job} (h : job' ∈ (job.run c answer hub t).more) :
    job'.PushesFrame := by
  cases leads_of_more h
  case compare snapshot _ => exact ⟨snapshot, t.nowMs, rfl⟩
  all_goals trivial

/-- A job calls Room or a sink once at most. -/
theorem length_events (job : Job) : (job.run c answer hub t).events.length ≤ 1 := by
  cases job
  case backfill target =>
    simp only [run]
    split_ifs
    · exact Nat.zero_le 1
    · exact Nat.zero_le 1
    · rcases target.sinceFrame with - | sinceFrame
      · exact Nat.zero_le 1
      · exact le_rfl
  case current | reset | frame | poll | push | ready | heartbeat => exact le_rfl
  all_goals exact Nat.zero_le 1

/-- What a reset leads to says whether it was written. -/
theorem reset_of_resetPushed {job : Job} {target : BackfillTarget} {reason : ResetReason}
    {payload : RoomSnapshot} {ok : Bool}
    (h : resetPushed target reason payload ok ∈ (job.run c answer hub t).more) :
    job = reset target reason payload ∧ answer.wrote = ok := by
  generalize hjob : resetPushed target reason payload ok = job' at h
  have hleads := leads_of_more h
  subst hjob
  cases hleads
  exact ⟨rfl, rfl⟩

/-- A job that asks comes after one that asks. -/
theorem Leads.asks {nowMs : Int} {job job' : Job} (h : job.Leads c answer nowMs job')
    (hid : job'.asks = some id) : job.asks = some id := by
  cases h
  case malformed | noFrames | current => exact hid
  all_goals cases hid

end Job

/-! ## Each subscription is backfilled once

The invariant, and one lemma for each part of a `Tick`. -/

namespace StreamSystem

variable {c : StreamConfig} {s s' : StreamSystem} {op : StreamOp} {id : Nat}

/-- Nothing was done for the backfill of this subscription yet. -/
def Untouched (s : StreamSystem) (id : Nat) : Prop :=
  ∀ event ∈ s.log, ¬(event.resets id = true ∨ event.missed id = true)

/-- The `Tick` on its way finishes the backfill, or has noted how it ended. -/
def Finishing (s : StreamSystem) (id : Nat) : Prop :=
  ∃ vars jobs, s.tick = .running vars jobs ∧ ((∃ job ∈ jobs, job.finishes = some id) ∨
    id ∈ vars.failed ∨ id ∈ vars.backfilled.map (·.1))

/-- **What holds of the backfills in every run**: whoever is asked for is untouched, and whoever is
pending is untouched or about to be finished. -/
structure Once (s : StreamSystem) : Prop where
  resets : ∀ id, s.log.countP (·.resets id) ≤ 1
  nodup : (s.tick.jobs.filterMap Job.backs).Nodup
  pushes : ∀ job ∈ s.tick.jobs, job.PushesFrame
  malformed : ∀ target reason payload, .resetPushed target reason payload true ∈ s.tick.jobs →
    target.malformed = true
  asked : ∀ job ∈ s.tick.jobs, ∀ id, job.asks = some id → s.Untouched id
  pending : ∀ id sub, s.sub? id = some sub → sub.backfillPending = true →
    s.Untouched id ∨ s.Finishing id

theorem Once.start : Once {} where
  resets _ := Nat.zero_le 1
  nodup := List.nodup_nil
  pushes _ h := by cases h
  malformed _ _ _ h := by cases h
  asked _ h := by cases h
  pending _ _ h := by cases h

/-- Whatever touches a backfill is a call of a job. -/
theorem touches_next (c : StreamConfig) (s : StreamSystem) (op : StreamOp) :
    ∃ events, (s.next c op).log = s.log ++ events ∧ ∀ event ∈ events, ∀ id,
      event.resets id = true ∨ event.missed id = true →
      ∃ answer vars job jobs, op = .resumeTick answer ∧ s.tick = .running vars (job :: jobs) ∧
        event ∈ (job.run c answer s.hub vars).events := by
  obtain ⟨events, hlog, hevents⟩ := log_next c s op
  refine ⟨events, hlog, fun event hevent id htouch => ?_⟩
  rcases hevents event hevent id (StreamEvent.about_of_touches htouch) with hjob | ⟨_, _, _, _, -, -, rfl⟩
  · exact hjob
  · rcases htouch with htouch | htouch <;> cases htouch

/-- A backfill is left alone by every step but those of a `Tick`. -/
theorem Untouched.next (h : s.Untouched id)
    (hop : ∀ answer vars job jobs, op = .resumeTick answer → s.tick ≠ .running vars (job :: jobs)) :
    (s.next c op).Untouched id := by
  obtain ⟨events, hlog, hevents⟩ := touches_next c s op
  intro event hevent htouch
  rw [hlog] at hevent
  rcases List.mem_append.mp hevent with hold | hnew
  · exact h event hold htouch
  · obtain ⟨answer, vars, job, jobs, rfl, htick, -⟩ := hevents event hnew id htouch
    exact hop answer vars job jobs rfl htick

/-- Only frames are pushed, in every run. -/
theorem pushesFrame_next (h : ∀ job ∈ s.tick.jobs, job.PushesFrame) :
    ∀ job ∈ (s.next c op).tick.jobs, job.PushesFrame := by
  rcases next_cases c s op with ⟨nowMs, rfl⟩ | ⟨answer, vars, job, jobs, rfl, htick⟩ |
    ⟨answer, vars, rfl, htick⟩ | haside
  · intro job hjob
    rcases StreamHub.mem_jobs.mp hjob with ⟨_, -, rfl⟩ | ⟨_, -, rfl⟩ | ⟨_, -, rfl⟩ | ⟨_, -, rfl⟩ <;> trivial
  · simp only [next, resumeTick, htick, TickPc.jobs]
    intro job' hjob'
    rcases List.mem_append.mp hjob' with hmore | hrest
    · exact Job.pushesFrame_of_more hmore
    · exact h job' (mem_jobs_tail htick hrest)
  · simp only [next, resumeTick, htick, TickPc.jobs]
    exact fun job hjob => by cases hjob
  · rw [haside.jobs]
    exact h

/-- A subscription that is pending was so before, unless it is new. -/
theorem pending_of_next (hsound : Sound s) {sub' : Subscription}
    (h : (s.next c op).sub? id = some sub') (hpending : sub'.backfillPending = true) :
    s.Untouched id ∨ ∃ sub, s.sub? id = some sub ∧ sub.backfillPending = true ∧
      ∀ answer vars, op = .resumeTick answer → s.tick = .running vars [] →
        id ∉ vars.failed ∧ id ∉ vars.backfilled.map (·.1) := by
  have hother : ∀ {answer vars}, op = .resumeTick answer → s.tick = .running vars [] →
      id ∉ vars.failed ∧ ∃ sub, s.sub? id = some sub ∧ sub' = sub.committed vars id := by
    rintro answer vars rfl htick
    simp only [next, resumeTick, htick, sub?, StreamHub.lookup_commit] at h
    split at h
    · cases h
    case isFalse hfailed =>
      obtain ⟨sub, hsub, rfl⟩ := Option.map_eq_some_iff.mp h
      exact ⟨hfailed, sub, hsub, rfl⟩
  have hdone : ∀ {answer vars}, op = .resumeTick answer → s.tick = .running vars [] →
      id ∉ vars.failed ∧ id ∉ vars.backfilled.map (·.1) := by
    intro answer vars hop htick
    obtain ⟨hfailed, sub, -, rfl⟩ := hother hop htick
    refine ⟨hfailed, fun hmem => ?_⟩
    rw [Subscription.committed_of_backfilled hmem] at hpending
    cases hpending
  rcases sub?_next h with hsame | ⟨nowMs, sub, rfl, hsub, rfl⟩ |
    ⟨answer, vars, sub, rfl, htick, -, hsub, rfl⟩ | ⟨rfl, -, -⟩
  · exact .inr ⟨sub', hsame, hpending, fun _ _ => hdone⟩
  · refine .inr ⟨sub, hsub, ?_, fun _ _ => hdone⟩
    unfold Subscription.seen at hpending
    split at hpending <;> exact hpending
  · refine .inr ⟨sub, hsub, ?_, fun _ _ => hdone⟩
    rcases hold : sub.backfillPending with - | -
    · rw [Subscription.committed_not_pending hold] at hpending
      cases hpending
    · rfl
  · left
    intro event hevent htouch
    exact absurd (hsound.log event hevent _ (StreamEvent.about_of_touches htouch)) (lt_irrefl _)

/-- A new `Tick` backfills each subscription once. -/
theorem nodup_backs_jobs (c : StreamConfig) (nowMs : Int) (hub : StreamHub) :
    ((hub.jobs c nowMs).filterMap Job.backs).Nodup := by
  have hnone : ∀ {α : Type} (xs : List α) (f : α → Job), (∀ x, (f x).backs = none) →
      xs.filterMap (Job.backs ∘ f) = [] :=
    fun xs f hf => List.filterMap_eq_nil_iff.mpr fun x _ => hf x
  have hbacks : (hub.jobs c nowMs).filterMap Job.backs = (hub.needBackfill nowMs).map (·.id) := by
    simp only [StreamHub.jobs, List.filterMap_append, List.filterMap_map]
    rw [hnone _ Job.countPoll fun _ => rfl, hnone _ Job.ready fun _ => rfl,
      hnone _ Job.heartbeat fun _ => rfl]
    simp only [List.append_nil]
    exact congrFun List.filterMap_eq_map' _
  rw [hbacks]
  exact StreamHub.nodup_needBackfill

/-- A new `Tick` backfills whoever is pending. -/
theorem Once.tick (h : s.Once) (hsound : Sound s) (hidle : s.Idle) (nowMs : Int) :
    (s.next c (.tick nowMs)).Once := by
  have hno : ∀ answer vars job jobs, StreamOp.tick nowMs = .resumeTick answer →
      s.tick ≠ .running vars (job :: jobs) := fun _ _ _ _ hop => by cases hop
  have huntouched : ∀ id sub, s.sub? id = some sub → sub.backfillPending = true →
      (s.next c (.tick nowMs)).Untouched id := by
    intro id sub hsub hpending
    refine Untouched.next ((h.pending id sub hsub hpending).resolve_right ?_) hno
    rintro ⟨vars, jobs, htick, -⟩
    cases hidle.symm.trans htick
  have hjobs : ∀ job ∈ s.hub.jobs c nowMs, job.asks = none ∧ job.PushesFrame ∨
      ∃ target ∈ s.hub.needBackfill nowMs, job = .backfill target := by
    intro job hjob
    rcases StreamHub.mem_jobs.mp hjob with ⟨target, htarget, rfl⟩ | ⟨_, -, rfl⟩ | ⟨_, -, rfl⟩ | ⟨_, -, rfl⟩
    · exact .inr ⟨target, htarget, rfl⟩
    all_goals exact .inl ⟨rfl, trivial⟩
  constructor
  · exact h.resets
  · exact nodup_backs_jobs c nowMs s.hub
  · intro job hjob
    rcases hjobs job hjob with ⟨-, hpush⟩ | ⟨target, -, rfl⟩
    · exact hpush
    · trivial
  · intro target reason payload hjob
    change _ ∈ s.hub.jobs c nowMs at hjob
    rcases StreamHub.mem_jobs.mp hjob with ⟨_, -, heq⟩ | ⟨_, -, heq⟩ | ⟨_, -, heq⟩ |
      ⟨_, -, heq⟩ <;> cases heq
  · intro job hjob id hasks
    rcases hjobs job hjob with ⟨hnone, -⟩ | ⟨target, htarget, rfl⟩
    · cases hasks.symm.trans hnone
    · cases hasks
      obtain ⟨sub, hsub, hshould, -⟩ := StreamHub.mem_needBackfill.mp htarget
      rw [Subscription.shouldBackfill_seen] at hshould
      exact huntouched _ sub hsub (Bool.and_eq_true_iff.mp hshould).1
  · intro id sub' hsub' hpending
    left
    rcases pending_of_next hsound hsub' hpending with hnew | ⟨sub, hsub, hold, -⟩
    · exact hnew.next hno
    · exact huntouched id sub hsub hold

/-- A step that runs no job leaves the backfills alone, or ends the `Tick`. -/
theorem Once.other (h : s.Once) (hsound : Sound s)
    (hno : ∀ answer vars job jobs, op = .resumeTick answer → s.tick ≠ .running vars (job :: jobs))
    (htick : (s.next c op).tick = s.tick ∨ (s.next c op).tick.jobs = [] ∧
      ∀ vars jobs, s.tick = .running vars jobs → jobs = [] ∧ ∃ answer, op = .resumeTick answer) :
    (s.next c op).Once := by
  have hjobs : ∀ job ∈ (s.next c op).tick.jobs, job ∈ s.tick.jobs := by
    intro job hjob
    rcases htick with hsame | ⟨hnone, -⟩
    · rwa [hsame] at hjob
    · rw [hnone] at hjob
      cases hjob
  constructor
  · intro id
    obtain ⟨events, hlog, hevents⟩ := touches_next c s op
    have hnone : events.countP (·.resets id) = 0 := by
      refine List.countP_eq_zero.mpr fun event hevent hresets => ?_
      obtain ⟨answer, vars, job, jobs, rfl, hrunning, -⟩ := hevents event hevent id (.inl hresets)
      exact hno answer vars job jobs rfl hrunning
    rw [hlog, List.countP_append, hnone]
    exact h.resets id
  · rcases htick with hsame | ⟨hnone, -⟩
    · rw [hsame]
      exact h.nodup
    · rw [hnone]
      exact List.nodup_nil
  · exact fun job hjob => h.pushes job (hjobs job hjob)
  · exact fun target reason payload hjob => h.malformed target reason payload (hjobs _ hjob)
  · exact fun job hjob id hasks => (h.asked job (hjobs job hjob) id hasks).next hno
  · intro id sub' hsub' hpending
    rcases pending_of_next hsound hsub' hpending with hnew | ⟨sub, hsub, hold, hdone⟩
    · exact .inl (hnew.next hno)
    rcases h.pending id sub hsub hold with huntouched | ⟨vars, jobs, hrunning, hfinishing⟩
    · exact .inl (huntouched.next hno)
    rcases htick with hsame | ⟨-, hends⟩
    · exact .inr ⟨vars, jobs, hsame.trans hrunning, hfinishing⟩
    -- The `Tick` has ended in this step.
    obtain ⟨rfl, answer, rfl⟩ := hends vars jobs hrunning
    obtain ⟨hfailed, hbackfilled⟩ := hdone answer vars rfl hrunning
    rcases hfinishing with ⟨_, hjob, -⟩ | hmem | hmem
    · cases hjob
    · exact absurd hmem hfailed
    · exact absurd hmem hbackfilled

/-- **One job.** -/
theorem Once.job (h : s.Once) (hsound : Sound s) {answer : Answer} {vars : TickState} {job : Job}
    {jobs : List Job} (htick : s.tick = .running vars (job :: jobs))
    (hmalformed : s.ResetsMalformed (.resumeTick answer)) :
    (s.next c (.resumeTick answer)).Once := by
  have hjob := mem_jobs_head htick
  have hrest : ∀ job' ∈ jobs, job' ∈ s.tick.jobs := fun job' => mem_jobs_tail htick
  have hnodup : (job.backs.toList ++ jobs.filterMap Job.backs).Nodup := by
    have hall := h.nodup
    rw [htick] at hall
    change ((job :: jobs).filterMap Job.backs).Nodup at hall
    rw [List.filterMap_cons] at hall
    cases hbacks : job.backs <;> rw [hbacks] at hall <;> exact hall
  have hnext := tick_job (c := c) htick answer
  have hlog : (s.next c (.resumeTick answer)).log =
      s.log ++ (job.run c answer s.hub vars).events :=
    log_job htick
  -- What this job does to one backfill.
  have hkeep : ∀ id, s.Untouched id → (s.next c (.resumeTick answer)).Untouched id ∨
      job.asks = some id ∧ ∃ job', (job.run c answer s.hub vars).more = [job'] ∧
        job'.asks = none ∧ job'.finishes = some id := by
    intro id huntouched
    by_cases hsome : ∃ event ∈ (job.run c answer s.hub vars).events,
        event.resets id = true ∨ event.missed id = true
    · obtain ⟨event, hevent, htouch⟩ := hsome
      exact .inr (Job.finishes_of_mem (h.pushes job hjob) hevent htouch)
    · left
      intro event hevent htouch
      rw [hlog] at hevent
      rcases List.mem_append.mp hevent with hold | hnew
      · exact huntouched event hold htouch
      · exact hsome ⟨event, hnew, htouch⟩
  constructor
  · intro id
    rw [hlog, List.countP_append]
    by_cases hsome : ∃ event ∈ (job.run c answer s.hub vars).events, event.resets id = true
    · obtain ⟨event, hevent, hresets⟩ := hsome
      obtain ⟨hasks, -⟩ := Job.finishes_of_mem (h.pushes job hjob) hevent (.inl hresets)
      have hzero : s.log.countP (·.resets id) = 0 := List.countP_eq_zero.mpr
        fun event hevent hresets => h.asked job hjob id hasks event hevent (.inl hresets)
      rw [hzero, Nat.zero_add]
      exact (List.countP_le_length).trans job.length_events
    · have hzero : (job.run c answer s.hub vars).events.countP (·.resets id) = 0 :=
        List.countP_eq_zero.mpr fun event hevent hresets => hsome ⟨event, hevent, hresets⟩
      rw [hzero]
      exact h.resets id
  · rw [hnext]
    change (((job.run c answer s.hub vars).more ++ jobs).filterMap Job.backs).Nodup
    rw [List.filterMap_append]
    exact hnodup.sublist (job.backs_more.append_right _)
  · intro job' hjob'
    rw [hnext] at hjob'
    rcases List.mem_append.mp hjob' with hmore | hold
    · exact Job.pushesFrame_of_more hmore
    · exact h.pushes job' (hrest job' hold)
  · intro target reason payload hjob'
    rw [hnext] at hjob'
    rcases List.mem_append.mp hjob' with hmore | hold
    · obtain ⟨rfl, hwrote⟩ := Job.reset_of_resetPushed hmore
      exact hmalformed target (by rw [htick]; rfl) hwrote
    · exact h.malformed target reason payload (hrest _ hold)
  · intro job' hjob' id hasks
    rw [hnext] at hjob'
    rcases List.mem_append.mp hjob' with hmore | hold
    · refine (hkeep id (h.asked job hjob id ((Job.leads_of_more hmore).asks hasks))).resolve_right ?_
      rintro ⟨-, first, hfirst, hnone, -⟩
      rw [hfirst] at hmore
      obtain rfl := List.mem_singleton.mp hmore
      cases hasks.symm.trans hnone
    · refine (hkeep id (h.asked job' (hrest job' hold) id hasks)).resolve_right ?_
      rintro ⟨hid, -⟩
      -- No other job backfills the same subscription.
      refine (List.nodup_append.mp hnodup).2.2 id ?_ id ?_ rfl
      · rw [Job.backs_of_asks hid]
        exact List.mem_singleton_self id
      · exact List.mem_filterMap.mpr ⟨job', hold, Job.backs_of_asks hasks⟩
  · intro id sub' hsub' hpending
    rcases pending_of_next hsound hsub' hpending with hnew | ⟨sub, hsub, hold, -⟩
    · refine (hkeep id hnew).imp_right ?_
      rintro ⟨-, job', hmore, -, hfinishes⟩
      exact ⟨_, _, hnext, .inl ⟨job', by rw [hmore]; exact List.mem_cons_self, hfinishes⟩⟩
    rcases h.pending id sub hsub hold with huntouched | ⟨vars', jobs', htick', hfinishing⟩
    · refine (hkeep id huntouched).imp_right ?_
      rintro ⟨-, job', hmore, -, hfinishes⟩
      exact ⟨_, _, hnext, .inl ⟨job', by rw [hmore]; exact List.mem_cons_self, hfinishes⟩⟩
    obtain ⟨rfl, rfl⟩ := TickPc.running.inj (htick'.symm.trans htick)
    refine .inr ⟨_, _, hnext, ?_⟩
    rcases hfinishing with ⟨job', hjob', hfinishes⟩ | hfailed | hbackfilled
    · rcases List.mem_cons.mp hjob' with rfl | hold
      · rcases Job.finished_run hfinishes (fun target reason payload heq =>
          h.malformed target reason payload (heq ▸ hjob)) with ⟨job'', hmore, hid⟩ | hnoted
        · exact .inl ⟨job'', List.mem_append_left _ hmore, hid⟩
        · exact .inr hnoted
      · exact .inl ⟨job', List.mem_append_right _ hold, hfinishes⟩
    · exact .inr (.inl (mem_failed_run job s.hub hfailed))
    · exact .inr (.inr (Job.mem_backfilled_run job hbackfilled))

theorem Once.step (h : s.Once) (hsound : Sound s) (hstep : MalformedStep c s op s') : s'.Once := by
  obtain ⟨⟨hmalformed, hseq⟩, rfl⟩ := hstep
  by_cases hjob : ∃ answer vars job jobs, op = .resumeTick answer ∧ s.tick = .running vars (job :: jobs)
  · obtain ⟨answer, vars, job, jobs, rfl, htick⟩ := hjob
    exact h.job hsound htick hmalformed
  have hno : ∀ answer vars job jobs, op = .resumeTick answer → s.tick ≠ .running vars (job :: jobs) :=
    fun answer vars job jobs hop htick => hjob ⟨answer, vars, job, jobs, hop, htick⟩
  rcases tick_next c s op with hsame | ⟨nowMs, rfl⟩ | hrunning | ⟨gone, hgone, hends⟩
  · exact h.other hsound hno (.inl hsame)
  · exact h.tick hsound hseq nowMs
  · exact absurd hrunning hjob
  · exact h.other hsound hno (.inr ⟨by rw [hgone]; rfl, hends⟩)

/-- **Backfills finish**, in every run that resets no subscription with a well formed `Last-Event-ID`. -/
theorem backfillsFinish {ops : List StreamOp} (hrun : Run (MalformedStep c) {} ops s) :
    s.BackfillsFinish := by
  obtain ⟨-, honce⟩ := hrun.invariant (I := fun s => Sound s ∧ s.Once)
    (fun _ _ _ h hstep => ⟨h.1.step ⟨hstep.1.2, hstep.2⟩, h.2.step h.1 hstep⟩) ⟨.start, .start⟩
  refine ⟨honce.resets, fun gone htick id sub hsub hdone => ?_⟩
  have hpending : sub.backfillPending = false := by
    refine Bool.eq_false_iff.mpr fun hpending => ?_
    rcases honce.pending id sub hsub hpending with huntouched | ⟨vars, jobs, hrunning, -⟩
    · rcases hdone with ⟨reason, payload, nowMs, hmem⟩ |
        ⟨roomId, sinceFrame, requestId, range, hmem, hready, hsnapshots, -⟩
      · exact huntouched _ hmem (.inl (decide_eq_true rfl))
      · exact huntouched _ hmem (.inr (by simp [StreamEvent.missed, hready, hsnapshots]))
    · cases htick.symm.trans hrunning
  refine ⟨hpending, fun nowMs => ?_⟩
  have hlive : (sub.seen nowMs).shouldBackfill = false := by
    rw [Subscription.shouldBackfill_seen, Subscription.shouldBackfill, hpending]
    rfl
  refine ⟨StreamHub.mem_sinks.mpr ⟨sub, hsub, hlive⟩, fun hready => ?_⟩
  refine ⟨⟨id, _, _⟩, StreamHub.mem_needReady.mpr ⟨sub, hsub, hlive, ?_, rfl⟩, rfl⟩
  unfold Subscription.seen
  split <;> exact hready

/-- A malformed `Last-Event-ID`: Room does not answer in the first `Tick` and does in the second. -/
def malformedReset : List StreamOp :=
  [.subscribe "alice" "r-1" true { lastEventIdMalformed := true }, .resumeCall 0 {}, .resumeCall 0 {},
    .tick 1000, .resumeTick {}, .resumeTick {}, .resumeTick {},
    .tick 1100, .resumeTick {}, .resumeTick { state := some {} }, .resumeTick {}, .resumeTick {},
    .resumeTick {}]

theorem backfillsFinish_malformedReset :
    BackfillsFinish (malformedReset.foldl (next {}) {}) :=
  backfillsFinish (Run.of_guarded (by decide))

/-- A well formed one, and a window that is ahead in two `Tick`s. -/
def aheadTwice : List StreamOp :=
  [.subscribe "alice" "r-1" true { lastEventId := some 5 }, .resumeCall 0 {}, .resumeCall 0 {}] ++
    [1000, 1100].flatMap fun nowMs =>
      [.tick nowMs, .resumeTick { range := some { status := .ahead } },
        .resumeTick { state := some {} }, .resumeTick {}, .resumeTick {}, .resumeTick {}]

/-- The reset is written in each of them. -/
theorem not_backfillsFinish :
    ¬∀ c ops s, Run (Step c) {} ops s → s.BackfillsFinish := by
  intro h
  have hrun : Run (Step {}) {} aheadTwice (aheadTwice.foldl (next {}) {}) :=
    Run.of_guarded (by decide)
  exact absurd ((h {} _ _ hrun).1 1) (by decide)

end StreamSystem

end RealtimeGame.Gateway
