import Mathlib.Data.List.TakeWhile
import RealtimeGame.Gateway.EventIds

/-!
# Gateway/GapFree — the missing frames are written once, and all of them

What was written to a subscription before its first live push, and what the `Tick` on its way has yet to
write, is what Room has answered its backfill with (`Filled`).  Room is asked until it answers, always for
the frames after the `Last-Event-ID` (`AsksSince`).
-/

open Library

namespace RealtimeGame.Gateway

/-- The ids of what is written to a subscription before its first live push. -/
def earlyIds (events : List (Phase × SinkEvent)) : List Int := sseIds (events.takeWhile (·.1 ≠ .live))

/-- A call that ends every subscription, or announces it. -/
def StreamOp.shutsDown : StreamOp → Bool
  | closeAll | beginShutdown | closeAllWithEvent _ => true
  | _ => false

namespace StreamEvent

/-- The frames that Room has answered the backfill of this subscription with. -/
def missing (id : Nat) : StreamEvent → List Int
  | getSnapshotsSince id' _ _ _ (some range) =>
    if id' = id ∧ range.status = .ready then range.snapshots.map (·.frame) else []
  | _ => []

/-- What is answered with missing frames has begun. -/
theorem begins_of_missing {event : StreamEvent} {id : Nat} (h : event.missing id ≠ []) :
    event.begins id = true := by
  rcases event with _ | _ | ⟨id', _, _, _, - | range⟩ | _ | _
  case getSnapshotsSince.some =>
    obtain ⟨⟨rfl, hready⟩, hne⟩ := ite_ne_right_iff.mp h
    simpa [begins, missed, hready] using hne
  all_goals exact absurd rfl h

end StreamEvent

namespace StreamSystem

variable (s : StreamSystem)

/-- In this run, `Subscribe` has made this subscription with this `Last-Event-ID`. -/
def SubscribedSince (c : StreamConfig) (ops : List StreamOp) (id : Nat) (frame : Int) : Prop :=
  ∃ pre call answer post playerId roomId options rest,
    ops = pre ++ .resumeCall call answer :: post ∧
    (pre.foldl (next c) {}).calls[call]? = some (.register playerId roomId options :: rest) ∧
    options.lastEventId = some frame ∧ id = (pre.foldl (next c) {}).hub.nextId

/-- **No gaps** — once Room has answered the backfill of this subscription, which was not reset, with the
frames it has missed, and the writes succeed, these are what it is written before its first live push. -/
def NoGaps (c : StreamConfig) (ops : List StreamOp) (id : Nat) : Prop :=
  ∀ frame gone roomId sinceFrame requestId range, SubscribedSince c ops id frame →
    s.tick = .reporting gone →
    (.getSnapshotsSince id roomId sinceFrame requestId (some range) ∈ s.log ∧ range.status = .ready ∧
      range.snapshots ≠ []) →
    (∀ event ∈ s.log, event.resets id = false) →
    (∀ event ok, .write id event ok ∈ s.log → ok = true) →
    earlyIds (trace c id {} ops) = Int.range (frame + 1) (frame + 1 + range.snapshots.length)

end StreamSystem

/-! ## One job

The frames that a backfill has yet to write stand in its job. -/

namespace Job

variable {c : StreamConfig} {answer : Answer} {hub : StreamHub} {t : TickState} {id : Nat}

/-- The missing frames that this subscription has yet to be written. -/
def missing (id : Nat) : Job → List Int
  | frame target _ snapshot rest => if target.id = id then snapshot.frame :: rest.map (·.frame) else []
  | framePushed target _ _ rest => if target.id = id then rest.map (·.frame) else []
  | _ => []

/-- Who is missing frames is being filled. -/
theorem fills_of_missing {job : Job} (h : job.missing id ≠ []) : job.fills = some id := by
  cases job
  case frame | framePushed =>
    obtain ⟨rfl, -⟩ := ite_ne_right_iff.mp h
    rfl
  all_goals exact absurd rfl h

/-- Room answers a backfill. -/
theorem backs_of_missing {job : Job} {event : StreamEvent} (h : event ∈ (job.run c answer hub t).events)
    (hmissing : event.missing id ≠ []) : job.backs = some id ∧ job.fills = none := by
  cases job
  case backfill target =>
    simp only [run] at h
    split_ifs at h
    · cases h
    · cases h
    · split at h
      · cases h
      · rcases hrange : answer.range with - | range
        · rw [hrange] at h
          cases List.mem_singleton.mp h
          exact absurd rfl hmissing
        · rw [hrange] at h
          cases List.mem_singleton.mp h
          obtain ⟨⟨rfl, -⟩, -⟩ := ite_ne_right_iff.mp hmissing
          exact ⟨rfl, rfl⟩
  case current | reset | frame | poll | push | ready | heartbeat =>
    cases List.mem_singleton.mp h
    exact absurd rfl hmissing
  all_goals cases h

/-- **What a backfill has yet to write** is what it had before, and what Room answers, less what it
writes. -/
theorem missing_run {job : Job} (h : job.backs = some id)
    (hresets : ∀ event ∈ (job.run c answer hub t).events, event.resets id = false)
    (hok : ∀ event ok, .write id event ok ∈ (job.run c answer hub t).events → ok = true) :
    sseIds (job.emits id answer t.nowMs).toList ++ (job.run c answer hub t).more.flatMap (·.missing id) =
      job.missing id ++ (job.run c answer hub t).events.flatMap (·.missing id) := by
  cases job
  case backfill target =>
    obtain rfl := Option.some.inj h
    simp only [run]
    split_ifs
    · rfl
    · rfl
    · rcases target.sinceFrame with - | sinceFrame
      · rfl
      rcases answer.range with - | ⟨- | - | -, - | ⟨snapshot, rest⟩⟩ <;>
        simp [afterRange, missing, StreamEvent.missing, emits, sseIds]
  case current target reason =>
    simp only [run]
    rcases answer.state with - | payload <;> rfl
  case reset target reason payload =>
    obtain rfl := Option.some.inj h
    have hreset := hresets _ (List.mem_singleton_self _)
    simp [StreamEvent.resets] at hreset
  case resetPushed => rfl
  case frame target written snapshot rest =>
    obtain rfl := Option.some.inj h
    have hwrote : answer.wrote = true := hok _ _ (List.mem_singleton_self _)
    simp [run, hwrote, missing, StreamEvent.missing, emits, sseIds]
  case framePushed target written snapshot rest =>
    obtain rfl := Option.some.inj h
    rcases rest with - | ⟨next, rest⟩ <;> simp [run, missing, emits, sseIds]
  all_goals cases h

end Job

namespace Subscription

variable {t : TickState} {id : Nat} {s : Subscription}

/-- Where a backfill starts does not change at the start of a `Tick`. -/
theorem seen_backfillFrom {nowMs : Int} : (s.seen nowMs).backfillFrom = s.backfillFrom := by
  unfold seen
  split <;> rfl

/-- A backfill that is done asks for nothing. -/
theorem mem_backfillFrom_committed {frame : Int} (h : frame ∈ (s.committed t id).backfillFrom) :
    frame ∈ s.backfillFrom :=
  committed_induction (P := fun s' => frame ∈ s'.backfillFrom → frame ∈ s.backfillFrom)
    (fun h => h) (fun _ _ _ _ h => by cases h) (fun _ _ h => h) (fun _ _ h => h) (fun _ _ h => h) h

end Subscription

/-! ## What was written first

Frames written and frames to be written make up the answer of Room, as long as nothing is reset. -/

section early

variable {events more : List (Phase × SinkEvent)}

/-- Before any live push, all ids are early. -/
theorem earlyIds_of_not_live (h : .live ∉ events.map Prod.fst) : earlyIds events = sseIds events := by
  rw [earlyIds, List.takeWhile_eq_self_iff.mpr]
  intro x hx
  exact decide_eq_true fun hlive => h (List.mem_map.mpr ⟨x, hx, hlive⟩)

/-- Live pushes, and what has no id, do not count. -/
theorem earlyIds_append (h : ∀ x ∈ more, x.1 ≠ .live → x.2.sseId = none) :
    earlyIds (events ++ more) = earlyIds events := by
  unfold earlyIds
  rw [List.takeWhile_append]
  split
  case isTrue hall =>
    have hnone : sseIds (more.takeWhile (·.1 ≠ .live)) = [] := by
      refine List.filterMap_eq_nil_iff.mpr fun x hx => ?_
      have hlive := List.mem_takeWhile_imp hx
      exact h x (List.takeWhile_subset _ hx) (of_decide_eq_true hlive)
    rw [sseIds_append, hnone, List.append_nil, (List.takeWhile_prefix _).eq_of_length hall]
  case isFalse => rfl

end early

namespace StreamSystem

variable {c : StreamConfig} {s s' : StreamSystem} {op : StreamOp} {id : Nat}
  {events : List (Gateway.Phase × SinkEvent)}

/-- **The frames so far**: what was written first, and what has yet to be written, is what Room has
answered. -/
structure Filled (id : Nat) (events : List (Gateway.Phase × SinkEvent)) (s : StreamSystem) : Prop where
  whole : ∀ event ∈ s.log, event.missing id ≠ [] → s.log.flatMap (·.missing id) = event.missing id
  kept : earlyIds events ++ s.tick.jobs.flatMap (·.missing id) = s.log.flatMap (·.missing id)
  backs : ∀ job ∈ s.tick.jobs, job.backs = some id → .live ∉ events.map Prod.fst
  pending : ∀ sub, s.sub? id = some sub → sub.shouldBackfill = true → .live ∉ events.map Prod.fst

/-- Nothing is missing before Room has answered. -/
theorem Unbegun.missing (h : s.Unbegun id) : s.log.flatMap (·.missing id) = [] :=
  List.flatMap_eq_nil_iff.mpr fun event hevent => by_contra fun hne =>
    by cases (h event hevent).symm.trans (StreamEvent.begins_of_missing hne)

/-- **One job.** -/
theorem Filled.job (h : Filled id events s) (hawaited : Awaited id s) {vars : TickState} {job : Job}
    {jobs : List Job} (htick : s.tick = .running vars (job :: jobs)) {answer : Answer}
    (hresets : ∀ event ∈ (s.next c (.resumeTick answer)).log, event.resets id = false)
    (hok : ∀ event ok, .write id event ok ∈ (s.next c (.resumeTick answer)).log → ok = true) :
    Filled id (events ++ s.shown c id (.resumeTick answer)) (s.next c (.resumeTick answer)) := by
  have hjob := mem_jobs_head htick
  have hrest : ∀ job' ∈ jobs, job' ∈ s.tick.jobs := fun job' => mem_jobs_tail htick
  have honce : ((job :: jobs).flatMap Job.shows).Nodup := by
    have honce := hawaited.once
    rwa [htick] at honce
  have hnext := tick_job (c := c) htick answer
  have hlog : (s.next c (.resumeTick answer)).log = s.log ++ (job.run c answer s.hub vars).events :=
    log_job htick
  have hsub : (s.next c (.resumeTick answer)).sub? id = s.sub? id := sub?_job htick
  have hnew : ∀ event ∈ (job.run c answer s.hub vars).events, event ∈ (s.next c (.resumeTick answer)).log := by
    intro event hevent
    rw [hlog]
    exact List.mem_append_right _ hevent
  have hkept := h.kept
  rw [htick] at hkept
  change earlyIds events ++ (job :: jobs).flatMap (·.missing id) = _ at hkept
  rw [List.flatMap_cons] at hkept
  rw [shown_resumeTick htick (hawaited.pushes job hjob)]
  -- Nothing is shown live but to whom the job is about.
  have hlive : .live ∉ events.map Prod.fst → (id ∈ job.shows → job.backs ≠ none) →
      .live ∉ (events ++ (job.emits id answer vars.nowMs).toList).map Prod.fst := by
    intro hold hback hmem
    rw [List.map_append] at hmem
    rcases List.mem_append.mp hmem with hmem | hmem
    · exact hold hmem
    · obtain ⟨⟨phase, event⟩, hx, rfl⟩ := List.mem_map.mp hmem
      rcases Job.emits_cases (Option.mem_toList.mp hx) with ⟨heq, -⟩ | ⟨heq, -⟩ | ⟨-, -, hshows, hnone⟩
      · cases heq
      · cases heq
      · exact hback hshows hnone
  constructor
  · intro event hevent hne
    rw [hlog, List.flatMap_append]
    rw [hlog] at hevent
    by_cases hanswered : (job.run c answer s.hub vars).events.flatMap (·.missing id) = []
    · rw [hanswered, List.append_nil]
      rcases List.mem_append.mp hevent with hold | hnew
      · exact h.whole event hold hne
      · exact absurd (List.flatMap_eq_nil_iff.mp hanswered event hnew) hne
    · -- Room is asked where it has not answered yet.
      have hunbegun : s.Unbegun id := by
        simp only [List.flatMap_eq_nil_iff, not_forall] at hanswered
        obtain ⟨event', hevent', hne'⟩ := hanswered
        obtain ⟨hback, hfill⟩ := Job.backs_of_missing hevent' hne'
        exact hawaited.backs job hjob hback hfill
      rw [hunbegun.missing, List.nil_append]
      rcases List.mem_append.mp hevent with hold | hnew
      · exact absurd (StreamEvent.begins_of_missing hne) (Bool.eq_false_iff.mp (hunbegun event hold))
      · have hone : (job.run c answer s.hub vars).events.length ≤ 1 := job.length_events
        obtain ⟨events', hsplit⟩ := List.exists_cons_of_ne_nil (List.ne_nil_of_mem hnew)
        rcases hsplit with ⟨rest, hcons⟩
        rw [hcons] at hone hnew ⊢
        obtain rfl := List.length_eq_zero_iff.mp (Nat.le_zero.mp (Nat.le_of_succ_le_succ hone))
        rw [List.mem_singleton.mp hnew, List.flatMap_singleton]
  · rw [hnext, hlog, List.flatMap_append, ← hkept]
    change earlyIds _ ++ ((job.run c answer s.hub vars).more ++ jobs).flatMap (·.missing id) = _
    rw [List.flatMap_append]
    by_cases hback : job.backs = some id
    · have hshows : id ∈ job.shows := by
        rw [Job.shows_of_backs hback]
        exact List.mem_singleton_self id
      have hnone : jobs.flatMap (·.missing id) = [] := by
        refine List.flatMap_eq_nil_iff.mpr fun job' hjob' => by_contra fun hne => ?_
        exact not_mem_shows honce hshows hjob' (Job.shows_of_fills (Job.fills_of_missing hne))
      have hquiet := h.backs job hjob hback
      have hrun := Job.missing_run hback
        (fun event hevent => hresets event (hnew event hevent))
        fun event ok hevent => hok event ok (hnew _ hevent)
      rw [earlyIds_of_not_live (hlive hquiet fun _ hnone => by cases hback.symm.trans hnone),
        sseIds_append, ← earlyIds_of_not_live hquiet, hnone, List.append_nil, List.append_nil,
        List.append_assoc, hrun, List.append_assoc]
    · have hshown : ∀ x ∈ (job.emits id answer vars.nowMs).toList, x.1 ≠ .live → x.2.sseId = none := by
        rintro ⟨phase, event⟩ hx hne
        have hshown := Option.mem_toList.mp hx
        rcases Job.emits_cases hshown with ⟨-, hid⟩ | ⟨-, hgreets⟩ | ⟨heq, -⟩
        · exact absurd hid hback
        · cases job
          case ready target =>
            obtain ⟨-, hsome⟩ := Option.ite_none_right_eq_some.mp hshown
            cases hsome
            rfl
          all_goals cases hgreets
        · exact absurd heq hne
      have hmissing : job.missing id = [] :=
        by_contra fun hne => hback (Job.backs_of_fills (Job.fills_of_missing hne))
      have hmore : (job.run c answer s.hub vars).more.flatMap (·.missing id) = [] := by
        refine List.flatMap_eq_nil_iff.mpr fun job' hjob' => by_contra fun hne => hback ?_
        exact Job.backs_of_more hjob' (Job.backs_of_fills (Job.fills_of_missing hne))
      have hevents : (job.run c answer s.hub vars).events.flatMap (·.missing id) = [] :=
        List.flatMap_eq_nil_iff.mpr fun event hevent => by_contra fun hne =>
          hback (Job.backs_of_missing hevent hne).1
      rw [earlyIds_append hshown, hmissing, hmore, hevents, List.append_nil]
  · intro job' hjob' hback'
    rw [hnext] at hjob'
    rcases List.mem_append.mp hjob' with hmore | hold
    · have hback := Job.backs_of_more hmore hback'
      exact hlive (h.backs job hjob hback) fun _ hnone => by cases hback.symm.trans hnone
    · refine hlive (h.backs job' (hrest job' hold) hback') fun hshows => ?_
      refine absurd ?_ (not_mem_shows honce hshows hold)
      rw [Job.shows_of_backs hback']
      exact List.mem_singleton_self id
  · intro sub hsub' hshould
    rw [hsub] at hsub'
    refine hlive (h.pending sub hsub' hshould) fun hshows hnone => ?_
    cases hshould.symm.trans (hawaited.live job hjob hshows hnone sub hsub')

/-- Room answers a backfill in a job only. -/
theorem missing_next (hno : ∀ answer vars job jobs, op = .resumeTick answer →
    s.tick ≠ .running vars (job :: jobs)) :
    ∃ more, (s.next c op).log = s.log ++ more ∧ ∀ event ∈ more, event.missing id = [] := by
  obtain ⟨more, hlog, hmore⟩ := log_next c s op
  refine ⟨more, hlog, fun event hevent => by_contra fun hne => ?_⟩
  rcases hmore event hevent id (StreamEvent.about_of_begins (StreamEvent.begins_of_missing hne)) with
    ⟨answer, vars, job, jobs, hop, htick, -⟩ | ⟨_, _, _, _, -, -, rfl⟩
  · exact hno answer vars job jobs hop htick
  · exact hne rfl

/-- A step that runs no job writes nothing. -/
theorem Filled.quiet (h : Filled id events s)
    (hno : ∀ answer vars job jobs, op = .resumeTick answer → s.tick ≠ .running vars (job :: jobs))
    (hjobs : (s.next c op).tick.jobs.flatMap (·.missing id) = s.tick.jobs.flatMap (·.missing id))
    (hbacks : ∀ job ∈ (s.next c op).tick.jobs, job.backs = some id → .live ∉ events.map Prod.fst)
    (hpending : ∀ sub, (s.next c op).sub? id = some sub → sub.shouldBackfill = true →
      .live ∉ events.map Prod.fst) :
    Filled id (events ++ s.shown c id op) (s.next c op) := by
  obtain ⟨more, hlog, hmore⟩ : ∃ more, (s.next c op).log = s.log ++ more ∧
      ∀ event ∈ more, event.missing id = [] := missing_next hno
  have hmissing : (s.next c op).log.flatMap (·.missing id) = s.log.flatMap (·.missing id) := by
    rw [hlog, List.flatMap_append, List.flatMap_eq_nil_iff.mpr hmore, List.append_nil]
  rw [shown_of_not_job hno, List.append_nil]
  constructor
  · intro event hevent hne
    rw [hmissing]
    rw [hlog] at hevent
    rcases List.mem_append.mp hevent with hold | hnew
    · exact h.whole event hold hne
    · exact absurd (hmore event hnew) hne
  · rw [hjobs, hmissing]
    exact h.kept
  · exact hbacks
  · exact hpending

/-- **The frames go on being kept.** -/
theorem Filled.step (h : Filled id events s) (hsound : Sound s) (hawaited : Awaited id s)
    (hlogged : Logged id events s) (hstep : Step c s op s')
    (hresets : ∀ event ∈ s'.log, event.resets id = false)
    (hok : ∀ event ok, .write id event ok ∈ s'.log → ok = true) :
    Filled id (events ++ s.shown c id op) s' := by
  obtain ⟨hseq, rfl⟩ := hstep
  rcases next_cases c s op with ⟨nowMs, rfl⟩ | ⟨answer, vars, job, jobs, rfl, htick⟩ |
    ⟨answer, vars, rfl, htick⟩ | haside
  · have hpending : ∀ sub', (s.next c (.tick nowMs)).sub? id = some sub' → sub'.shouldBackfill = true →
        .live ∉ events.map Prod.fst := by
      intro sub' hsub' hshould
      rw [sub?_tick, Option.map_eq_some_iff] at hsub'
      obtain ⟨sub, hsub, rfl⟩ := hsub'
      rw [Subscription.shouldBackfill_seen] at hshould
      exact h.pending sub hsub hshould
    refine h.quiet (fun _ _ _ _ hop => by cases hop) ?_ (fun job hjob hback => ?_) hpending
    · have hnone : ∀ job ∈ s.hub.jobs c nowMs, job.missing id = [] := by
        intro job hjob
        rcases StreamHub.mem_jobs.mp hjob with ⟨_, -, rfl⟩ | ⟨_, -, rfl⟩ | ⟨_, -, rfl⟩ | ⟨_, -, rfl⟩ <;> rfl
      rw [show s.tick = .reporting [] from hseq]
      exact List.flatMap_eq_nil_iff.mpr hnone
    · rcases StreamHub.mem_jobs.mp hjob with ⟨target, htarget, rfl⟩ | ⟨_, -, rfl⟩ | ⟨_, -, rfl⟩ | ⟨_, -, rfl⟩
      · cases hback
        obtain ⟨sub, hsub, hshould, -⟩ := StreamHub.mem_needBackfill.mp htarget
        rw [Subscription.shouldBackfill_seen] at hshould
        exact h.pending sub hsub hshould
      all_goals cases hback
  · exact h.job hawaited htick hresets hok
  · have hjobs : (s.next c (.resumeTick answer)).tick.jobs = [] := by
      simp only [next, resumeTick, htick, TickPc.jobs]
    refine h.quiet (fun _ _ _ _ _ heq => by cases htick.symm.trans heq) ?_ (fun job hjob => ?_)
      fun sub' hsub' hshould => ?_
    · rw [hjobs, htick]
      rfl
    · rw [hjobs] at hjob
      cases hjob
    · simp only [sub?, next, resumeTick, htick, StreamHub.lookup_commit] at hsub'
      split at hsub'
      · cases hsub'
      · obtain ⟨sub, hsub, rfl⟩ := Option.map_eq_some_iff.mp hsub'
        exact h.pending sub hsub (Subscription.shouldBackfill_of_committed hshould)
  · refine h.quiet haside.noJob (by rw [haside.jobs]) (by rw [haside.jobs]; exact h.backs)
      fun sub' hsub' hshould => ?_
    rcases haside.sub id sub' hsub' with hold | ⟨hid, -⟩
    · exact h.pending sub' hold hshould
    · rw [hlogged.eq_nil hsound hid.ge]
      exact List.not_mem_nil

/-! ## After which frame Room is asked

The `Last-Event-ID` of a subscription is kept until its backfill is done. -/

/-- **Room is asked for the frames after this one**, for this subscription. -/
structure AsksSince (id : Nat) (frame : Int) (s : StreamSystem) : Prop where
  old : id < s.hub.nextId
  sub : ∀ sub, s.sub? id = some sub → ∀ sinceFrame ∈ sub.backfillFrom, sinceFrame = frame
  jobs : ∀ target, .backfill target ∈ s.tick.jobs → target.id = id →
    ∀ sinceFrame ∈ target.sinceFrame, sinceFrame = frame
  log : ∀ roomId sinceFrame requestId answer,
    .getSnapshotsSince id roomId sinceFrame requestId answer ∈ s.log → sinceFrame = frame

/-- A subscription that is made now. -/
theorem AsksSince.start (hsound : Sound s) {call : Nat} {playerId roomId : String}
    {options : SubscribeOptions} {rest : List Call} {frame : Int}
    (hcall : s.calls[call]? = some (.register playerId roomId options :: rest))
    (hframe : options.lastEventId = some frame) (answer : Answer) :
    AsksSince s.hub.nextId frame (s.next c (.resumeCall call answer)) := by
  have hnext : s.next c (.resumeCall call answer) = { s with
      hub := s.hub.subscribeLocked playerId roomId options
      calls := s.calls.set call (.report roomId playerId true options.requestId :: rest)
      log := s.log ++ [] } := by
    simp only [next, resumeCall, hcall]
    rfl
  rw [hnext]
  constructor
  · exact Nat.lt_succ_self _
  · intro sub hsub sinceFrame hsince
    rw [sub?, StreamHub.subscribeLocked, Table.lookup_insert', if_pos rfl] at hsub
    cases hsub
    exact Option.some.inj (hsince.symm.trans hframe)
  · intro target hjob hid
    have hlt := hsound.jobs _ hjob target.id (List.mem_singleton_self _)
    exact absurd hid hlt.ne
  · intro roomId' sinceFrame requestId range hmem
    rw [List.append_nil] at hmem
    exact absurd (hsound.log _ hmem _ rfl) (lt_irrefl _)

/-- **One step**: Room is asked for the frames after the same one. -/
theorem AsksSince.step {frame : Int} (h : AsksSince id frame s) (hstep : Step c s op s') :
    AsksSince id frame s' := by
  obtain ⟨-, rfl⟩ := hstep
  have hold : id < (s.next c op).hub.nextId := h.old.trans_le nextId_next
  have hlog : ∀ roomId sinceFrame requestId range,
      .getSnapshotsSince id roomId sinceFrame requestId range ∈ (s.next c op).log → sinceFrame = frame := by
    intro roomId sinceFrame requestId range hmem
    obtain ⟨more, hlog, hmore⟩ := log_next c s op
    rw [hlog] at hmem
    rcases List.mem_append.mp hmem with hmem | hmem
    · exact h.log roomId sinceFrame requestId range hmem
    rcases hmore _ hmem id rfl with ⟨answer, vars, job, jobs, -, htick, hevent⟩ | ⟨_, _, _, _, -, -, heq⟩
    · cases job
      case backfill target =>
        simp only [Job.run] at hevent
        split_ifs at hevent
        · cases hevent
        · cases hevent
        · split at hevent
          case h_1 => cases hevent
          case h_2 sinceFrame' hsince =>
            cases List.mem_singleton.mp hevent
            refine h.jobs target ?_ rfl _ hsince
            rw [htick]
            exact List.mem_cons_self
      case current | reset | poll | push | ready | heartbeat => cases List.mem_singleton.mp hevent
      case frame => cases List.mem_singleton.mp hevent
      all_goals cases hevent
    · cases heq
  rcases next_cases c s op with ⟨nowMs, rfl⟩ | ⟨answer, vars, job, jobs, rfl, htick⟩ |
    ⟨answer, vars, rfl, htick⟩ | haside
  · refine ⟨hold, fun sub' hsub' => ?_, fun target hjob hid => ?_, hlog⟩
    · rw [sub?_tick, Option.map_eq_some_iff] at hsub'
      obtain ⟨sub, hsub, rfl⟩ := hsub'
      rw [Subscription.seen_backfillFrom]
      exact h.sub sub hsub
    · rcases StreamHub.mem_jobs.mp hjob with ⟨_, htarget, heq⟩ | ⟨_, -, heq⟩ | ⟨_, -, heq⟩ | ⟨_, -, heq⟩
      · cases heq
        obtain ⟨sub, hsub, -, heq⟩ := StreamHub.mem_needBackfill.mp htarget
        rw [heq, Subscription.seen_backfillFrom]
        rw [hid] at hsub
        exact h.sub sub hsub
      all_goals cases heq
  · refine ⟨hold, fun sub hsub => ?_, fun target hjob hid => ?_, hlog⟩
    · simp only [sub?, next, resumeTick, htick, Job.run_subscriptions] at hsub
      exact h.sub sub hsub
    · simp only [next, resumeTick, htick, TickPc.jobs] at hjob
      rcases List.mem_append.mp hjob with hmore | hrest
      · cases Job.leads_of_more hmore
      · exact h.jobs target (mem_jobs_tail htick hrest) hid
  · refine ⟨hold, fun sub' hsub' => ?_, fun target hjob => ?_, hlog⟩
    · simp only [sub?, next, resumeTick, htick, StreamHub.lookup_commit] at hsub'
      split at hsub'
      · cases hsub'
      · obtain ⟨sub, hsub, rfl⟩ := Option.map_eq_some_iff.mp hsub'
        exact fun sinceFrame hsince => h.sub sub hsub sinceFrame
          (Subscription.mem_backfillFrom_committed hsince)
    · simp only [next, resumeTick, htick, TickPc.jobs] at hjob
      cases hjob
  · refine ⟨hold, fun sub' hsub' => ?_, fun target hjob => ?_, hlog⟩
    · rcases haside.sub id sub' hsub' with hsame | ⟨hid, -⟩
      · exact h.sub sub' hsame
      · exact absurd hid h.old.ne
    · rw [haside.jobs] at hjob
      exact h.jobs target hjob

/-- The three invariants, in every run. -/
theorem rising_of_run {ops : List StreamOp} (hrun : Run (ResetsBehindStep c) {} ops s)
    (hcontract : RoomContract s.log) (id : Nat) : ∃ roomId, Rising id roomId (trace c id {} ops) s := by
  have hrising : Sound s ∧ Awaited id s ∧ (RoomContract s.log → ∃ roomId,
      Rising id roomId (trace c id {} ops) s) := by
    refine hrun.invariant_of_history (I := fun ops s => Sound s ∧ Awaited id s ∧ (RoomContract s.log →
      ∃ roomId, Rising id roomId (trace c id {} ops) s)) (fun ops m op t hpre hm hstep => ?_)
      ⟨.start, .start id, fun _ => ⟨"", ?_⟩⟩
    · obtain ⟨hsound, hawaited, hrising⟩ := hm
      have hnext : Step c m op t := ⟨hstep.1.2, hstep.2⟩
      refine ⟨hsound.step hnext, hawaited.step hsound hnext, fun hcontract => ?_⟩
      obtain ⟨more, hlog, -⟩ := log_next c m op
      have hbefore : RoomContract m.log := by
        rw [hstep.2, hlog] at hcontract
        exact hcontract.of_append
      obtain ⟨roomId, hrising⟩ := hrising hbefore
      rw [trace_run (fun _ _ _ hstep => hstep.2) hpre]
      exact hrising.step hsound hawaited (logged_of_run (fun _ _ _ hstep => hstep.2) hpre) hstep hcontract
    · constructor
      · exact List.Pairwise.nil
      · exact fun _ hframe => by cases hframe
      · exact fun _ hsub => by cases hsub
      · exact fun _ hjob => by cases hjob
  exact hrising.2.2 hcontract

theorem filled_of_run {ops : List StreamOp} (hrun : Run (Step c) {} ops s) (id : Nat)
    (hresets : ∀ event ∈ s.log, event.resets id = false)
    (hok : ∀ event ok, .write id event ok ∈ s.log → ok = true) : Filled id (trace c id {} ops) s := by
  have hfilled : Sound s ∧ Awaited id s ∧ ((∀ event ∈ s.log, event.resets id = false) →
      (∀ event ok, .write id event ok ∈ s.log → ok = true) → Filled id (trace c id {} ops) s) := by
    refine hrun.invariant_of_history (I := fun ops s => Sound s ∧ Awaited id s ∧
      ((∀ event ∈ s.log, event.resets id = false) → (∀ event ok, .write id event ok ∈ s.log → ok = true) →
        Filled id (trace c id {} ops) s)) (fun ops m op t hpre hm hstep => ?_)
      ⟨.start, .start id, fun _ _ => ?_⟩
    · obtain ⟨hsound, hawaited, hfilled⟩ := hm
      refine ⟨hsound.step hstep, hawaited.step hsound hstep, fun hresets hok => ?_⟩
      obtain ⟨more, hlog, -⟩ := log_next c m op
      have hmem : ∀ event ∈ m.log, event ∈ t.log := by
        rw [hstep.2, hlog]
        exact fun event hevent => List.mem_append_left _ hevent
      rw [trace_run (fun _ _ _ hstep => hstep.2) hpre]
      refine Filled.step ?_ hsound hawaited (logged_of_run (fun _ _ _ hstep => hstep.2) hpre) hstep hresets hok
      exact hfilled (fun event hevent => hresets event (hmem event hevent))
        fun event ok hevent => hok event ok (hmem _ hevent)
    · constructor
      · exact fun _ hevent => by cases hevent
      · rfl
      · exact fun _ hjob => by cases hjob
      · exact fun _ hsub => by cases hsub
  exact hfilled.2.2 hresets hok

theorem asksSince_of_run {ops : List StreamOp} (hrun : Run (Step c) {} ops s) {frame : Int}
    (hsubscribed : SubscribedSince c ops id frame) : AsksSince id frame s := by
  obtain ⟨pre, call, answer, post, playerId, roomId, options, rest, rfl, hcall, hframe, rfl⟩ := hsubscribed
  obtain ⟨m, hpre, hrest⟩ := Run.append_iff.mp hrun
  obtain ⟨m', hregister, hpost⟩ := Run.cons_iff.mp hrest
  obtain rfl := hpre.eq_foldl fun _ _ _ hstep => hstep.2
  obtain rfl := hregister.2
  exact hpost.invariant (fun _ _ _ h hstep => h.step hstep) (.start (Sound.of_run hpre) hcall hframe answer)

/-- **Nothing is left out**, in every run. -/
theorem noGaps_of_run {ops : List StreamOp} (hrun : Run (Step c) {} ops s) (hcontract : RoomContract s.log)
    (id : Nat) : s.NoGaps c ops id := by
  rintro frame gone roomId sinceFrame requestId range hsubscribed htick ⟨hanswered, hready, hne⟩ hresets hok
  have hfilled := filled_of_run hrun id hresets hok
  obtain rfl := (asksSince_of_run hrun hsubscribed).log _ _ _ _ hanswered
  have hframes : StreamEvent.missing id (.getSnapshotsSince id roomId sinceFrame requestId (some range)) =
      range.snapshots.map (·.frame) := if_pos ⟨rfl, hready⟩
  have hkept := hfilled.kept
  rw [htick, hfilled.whole _ hanswered (by rw [hframes]; simpa using hne), hframes,
    hcontract.2 _ hanswered hready] at hkept
  exact (List.append_nil _).symm.trans hkept

/-- **The ids of a subscription go up, and leave nothing out**, in every run in which no subscription is
reset to a frame after those that it is then sent. -/
theorem ids_of_run {ops : List StreamOp} (hrun : Run (ResetsBehindStep c) {} ops s)
    (hcontract : RoomContract s.log) (id : Nat) :
    (sseIds (trace c id {} ops)).Pairwise (· ≤ ·) ∧ s.NoGaps c ops id := by
  obtain ⟨roomId, hrising⟩ := rising_of_run hrun hcontract id
  refine ⟨hrising.sorted, noGaps_of_run ?_ hcontract id⟩
  exact hrun.mono (I := fun _ => True) (fun _ _ _ _ _ => trivial)
    (fun _ _ _ _ hstep => ⟨hstep.1.2, hstep.2⟩) trivial

/-- alice reconnects after frame 7; Room does not answer in the first `Tick`, and answers with two frames in
the second. -/
def putOff : List StreamOp :=
  [.subscribe "alice" "r-1" true { lastEventId := some 7 }, .resumeCall 0 {}, .resumeCall 0 {},
    .tick 1000, .resumeTick {}, .resumeTick {},
    .tick 1100, .resumeTick { range := some { snapshots := [{ frame := 8 }, { frame := 9 }] } },
    .resumeTick {}, .resumeTick {}, .resumeTick {}, .resumeTick {}, .resumeTick {},
    .tick 1200, .resumeTick {}, .resumeTick { state := some { frame := 11 } }, .resumeTick {},
    .resumeTick {}, .resumeTick {}, .resumeTick {}]

theorem ids_of_run_putOff : (sseIds (trace {} 1 {} putOff)).Pairwise (· ≤ ·) ∧
    (putOff.foldl (next {}) {}).NoGaps {} putOff 1 :=
  ids_of_run (Run.of_guarded (by decide)) (by decide) 1

/-- alice has seen frame 100, and so has Room; before her reset is written the room goes on to frame 103,
and as her backfill starts over in the next `Tick`, she is sent frame 101. -/
def startsOver : List StreamOp :=
  [.subscribe "alice" "r-1" true { lastEventId := some 100 }, .resumeCall 0 {}, .resumeCall 0 {},
    .tick 1000, .resumeTick { range := some {} }, .resumeTick { state := some { frame := 103 } },
    .resumeTick {}, .resumeTick {}, .resumeTick {},
    .tick 1100, .resumeTick { range := some { snapshots := [{ frame := 101 }, { frame := 102 },
      { frame := 103 }] } },
    .resumeTick {}, .resumeTick {}, .resumeTick {}, .resumeTick {}, .resumeTick {}, .resumeTick {},
    .resumeTick {}]

/-- Her backfill starts over, and the ids go back. -/
theorem not_ids_of_run : ¬∀ (c : StreamConfig) (ops : List StreamOp) (s : StreamSystem) (id : Nat),
    Run (SoloStep c) {} ops s → (∀ op ∈ ops, op.shutsDown = false) → RoomContract s.log →
    (sseIds (trace c id {} ops)).Pairwise (· ≤ ·) ∧ s.NoGaps c ops id := by
  intro h
  have hrun : Run (SoloStep {}) {} startsOver _ := Run.of_guarded (by decide)
  have hids : sseIds (trace {} 1 {} startsOver) = [103, 101, 102, 103] := by decide
  have hsorted := (h {} _ _ 1 hrun (by decide) (by decide)).1
  rw [hids] at hsorted
  exact absurd hsorted (by decide)

end StreamSystem

end RealtimeGame.Gateway
