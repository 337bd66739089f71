import RealtimeGame.Gateway.FirstPush

/-!
# Gateway/EventOrder — backfill, then `session.ready`, then live pushes

What is written to one sink is its trace (`trace`), each event with the phase it belongs to.  A `Tick`
polls the rooms before it writes `session.ready`, so that the first live event of a subscription comes too
early, unless its room has not changed.
-/

open Library

namespace RealtimeGame.Gateway

/-! ## Phases of a subscription

Backfill, greeting, live: each event to one sink belongs to one of the three. -/

inductive Phase
  | backfill
  | ready
  | live
  deriving DecidableEq, Repr

/-- The phase that an event belongs to; the event of a snapshot is a live one, unless a backfill writes
it.  Heartbeats and the end of the stream belong to none. -/
def SinkEvent.phase (backfills : Bool) : SinkEvent → Option Phase
  | heartbeat | streamClosed .. => none
  | sessionReady .. => some .ready
  | streamReset .. => some .backfill
  | roomState .. | roomFinished .. => some (if backfills then .backfill else .live)

/-- An event that is written to this subscription, or tried to, with its phase. -/
def StreamEvent.shown (id : Nat) (backfills : Bool) : StreamEvent → Option (Phase × SinkEvent)
  | write id' event _ => if id' = id then (event.phase backfills).map (·, event) else none
  | _ => none

namespace Job

/-- A missing frame is about to be written. -/
def isFrame : Job → Bool
  | frame .. => true
  | _ => false

/-- The event that a job writes to this subscription. -/
def emits (id : Nat) (answer : Answer) (nowMs : Int) : Job → Option (Phase × SinkEvent)
  | reset target reason payload =>
    if target.id = id then some (.backfill, .streamReset reason payload answer.systemNowMs) else none
  | frame target _ snapshot _ =>
    if target.id = id then some (.backfill, frameEvent snapshot answer.systemNowMs) else none
  | ready target =>
    if target.id = id then some (.ready, .sessionReady target.playerId target.roomId nowMs) else none
  | push id' event _ => if id' = id then some (.live, event) else none
  | _ => none

end Job

def TickPc.isFrame : TickPc → Bool
  | running _ (job :: _) => job.isFrame
  | _ => false

/-- The subscriptions that this `Tick` has collected to be greeted. -/
def TickPc.greeting : TickPc → List Nat
  | running vars _ => vars.needReady.map (·.id)
  | reporting _ => []

namespace StreamSystem

/-- What one step writes to this subscription. -/
def shown (c : StreamConfig) (id : Nat) (s : StreamSystem) (op : StreamOp) : List (Gateway.Phase × SinkEvent) :=
  ((s.next c op).log.drop s.log.length).filterMap (·.shown id s.tick.isFrame)

/-- **What a run writes to this subscription.** -/
def trace (c : StreamConfig) (id : Nat) : StreamSystem → List StreamOp → List (Gateway.Phase × SinkEvent)
  | _, [] => []
  | s, op :: ops => s.shown c id op ++ trace c id (s.next c op) ops

/-- **The documented order** — backfilled frames or resets, `session.ready`, live pushes. -/
def Documented (phases : List Gateway.Phase) : Prop :=
  ∃ n, phases = .replicate n .backfill ∨
    ∃ m, phases = .replicate n .backfill ++ .ready :: .replicate m .live

variable (s : StreamSystem)

/-- **The condition** — where the state of a room has changed, none of the sinks that are about to hear of
it waits for its `session.ready` in this `Tick`. -/
def ReadyFirst : StreamOp → Prop
  | .resumeTick _ => ∀ polled ∈ s.tick.compares,
      s.hub.roomChanged polled.1.roomId polled.2 = true → ∀ id ∈ polled.1.sinks, id ∉ s.tick.greeting
  | _ => True

instance : DecidablePred s.ReadyFirst
  | .resumeTick _ => inferInstanceAs (Decidable (∀ polled ∈ s.tick.compares,
      s.hub.roomChanged polled.1.roomId polled.2 = true → ∀ id ∈ polled.1.sinks, id ∉ s.tick.greeting))
  | .subscribe .. | .unsubscribe _ | .tick _ | .closeAll | .beginShutdown | .closeAllWithEvent _
  | .resumeCall .. => .isTrue trivial

/-- One step of a run that meets it. -/
def ReadyFirstStep (c : StreamConfig) (s : StreamSystem) (op : StreamOp) (s' : StreamSystem) : Prop :=
  (s.ReadyFirst op ∧ s.Sequential op) ∧ s' = s.next c op

end StreamSystem

/-! ## What a step writes

The log of a step, as one sink sees it. -/

namespace Job

variable {c : StreamConfig} {answer : Answer} {hub : StreamHub} {t : TickState} {id : Nat}

/-- A frame is shown to its own sink. -/
theorem shown_frameEvent (snapshot : RoomSnapshot) (nowMs : Int) (id id' : Nat) (ok backfills : Bool) :
    (StreamEvent.write id' (frameEvent snapshot nowMs) ok).shown id backfills =
      if id' = id then some (if backfills then .backfill else .live, frameEvent snapshot nowMs) else none := by
  unfold frameEvent
  split <;> rfl

/-- What a job writes to a sink is what it emits. -/
theorem filterMap_events {job : Job} (hpush : job.PushesFrame) :
    (job.run c answer hub t).events.filterMap (·.shown id job.isFrame) =
      (job.emits id answer t.nowMs).toList := by
  have hone : ∀ {event : StreamEvent} {x : Option (Phase × SinkEvent)}, event.shown id job.isFrame = x →
      [event].filterMap (·.shown id job.isFrame) = x.toList := by
    rintro event x rfl
    rw [List.filterMap_cons]
    rcases event.shown id job.isFrame with - | y <;> rfl
  cases job
  case backfill target =>
    simp only [run]
    split_ifs
    · rfl
    · rfl
    · rcases target.sinceFrame with - | sinceFrame <;> rfl
  case push id' event closes =>
    obtain ⟨snapshot, nowMs, rfl⟩ := hpush
    exact hone (shown_frameEvent snapshot nowMs id id' _ false)
  case frame target written snapshot rest =>
    exact hone (shown_frameEvent snapshot _ id target.id _ true)
  case reset | ready => exact hone rfl
  case heartbeat id' =>
    refine hone ?_
    simp only [StreamEvent.shown]
    split <;> rfl
  all_goals rfl

end Job

/-! ## Who hears of what in one `Tick`

A `Tick` has a list of jobs.  Each subscription is in it once for its room, and once for its greeting. -/

namespace Job

variable {c : StreamConfig} {answer : Answer} {hub : StreamHub} {t : TickState} {id : Nat}

/-- The subscriptions that a job leads to frames, resets or live pushes for. -/
def shows : Job → List Nat
  | backfill target | current target _ | reset target .. | resetPushed target .. | frame target ..
  | framePushed target .. => [target.id]
  | countPoll room | poll room | compare room _ => room.sinks
  | push id .. => [id]
  | ready _ | heartbeat _ => []

/-- The subscription that a job tells that it is ready. -/
def greets : Job → Option Nat
  | ready target => some target.id
  | _ => none

/-- A job hands its subscriptions on, each once at most. -/
theorem shows_more (job : Job) : ((job.run c answer hub t).more.flatMap shows).Sublist job.shows := by
  have hone : ∀ {job' : Job}, job'.shows = job.shows → ([job'].flatMap shows).Sublist job.shows := by
    intro job' heq
    rw [List.flatMap_singleton, heq]
  cases job
  case backfill target =>
    simp only [run]
    split_ifs
    · exact List.nil_sublist _
    · exact hone rfl
    · rcases target.sinceFrame with - | sinceFrame
      · exact List.nil_sublist _
      rcases answer.range with - | range
      · exact List.nil_sublist _
      · simp only [afterRange]
        split <;> exact hone rfl
  case current target reason =>
    simp only [run]
    rcases answer.state with - | payload
    · exact List.nil_sublist _
    · exact hone rfl
  case reset => exact hone rfl
  case frame =>
    simp only [run]
    split
    · exact hone rfl
    · exact List.nil_sublist _
  case framePushed target written snapshot rest =>
    rcases rest with - | ⟨next, rest⟩
    · exact List.nil_sublist _
    · exact hone rfl
  case countPoll =>
    simp only [run]
    split
    · exact hone rfl
    · exact List.nil_sublist _
  case poll =>
    simp only [run]
    rcases answer.state with - | snapshot
    · exact List.nil_sublist _
    · exact hone rfl
  case compare room snapshot =>
    simp only [run]
    split
    · rw [List.flatMap_map]
      change (room.sinks.flatMap fun id => [id]).Sublist room.sinks
      rw [List.flatMap_singleton']
    · exact List.nil_sublist _
  all_goals exact List.nil_sublist _

/-- No job leads to a greeting. -/
theorem greets_more (job : Job) : (job.run c answer hub t).more.filterMap greets = [] := by
  rw [List.filterMap_eq_nil_iff]
  intro job' hjob'
  cases leads_of_more hjob' <;> rfl

/-- A backfill shows something to the one it is for. -/
theorem shows_of_backs {job : Job} (h : job.backs = some id) : job.shows = [id] := by
  cases job
  case backfill | current | reset | resetPushed | frame | framePushed =>
    cases h
    rfl
  all_goals cases h

end Job

namespace Subscription

variable {t : TickState} {id : Nat} {s : Subscription}

@[simp] theorem seen_readySent {nowMs : Int} : (s.seen nowMs).readySent = s.readySent := by
  unfold seen
  split <;> rfl

theorem committed_readySent_of_mem (h : id ∈ t.needReady.map (·.id)) :
    (s.committed t id).readySent = true := by
  unfold committed
  dsimp only
  rw [if_pos h]
  split <;> rfl

theorem committed_readySent_of_not_mem (h : id ∉ t.needReady.map (·.id)) :
    (s.committed t id).readySent = s.readySent :=
  committed_induction (P := fun s' => s'.readySent = s.readySent) rfl (fun _ _ _ h => h)
    (fun _ _ h => h) (fun _ _ h => h) (fun _ hmem => absurd hmem h)

/-- No `Tick` makes a backfill pending. -/
theorem shouldBackfill_of_committed (h : (s.committed t id).shouldBackfill = true) :
    s.shouldBackfill = true :=
  committed_induction (P := fun s' => s'.shouldBackfill = true → s.shouldBackfill = true) (fun h => h)
    (fun _ _ _ _ h => by cases h) (fun _ _ h => h) (fun _ _ h => h) (fun _ _ h => h) h

end Subscription

namespace StreamHub

variable {c : StreamConfig} {hub : StreamHub} {nowMs : Int} {id : Nat}

/-- Nobody is greeted twice in one `Tick`, -/
theorem nodup_needReady : ((hub.needReady nowMs).map (·.id)).Nodup := by
  rw [needReady, List.map_map]
  exact nodup_seen.sublist ((List.filter_sublist.trans List.filter_sublist).map Prod.fst)

/-- …or pushed one state twice. -/
theorem nodup_sinks {room : RoomPoll} (h : room ∈ hub.byRoom nowMs) : room.sinks.Nodup := by
  obtain ⟨roomId, -, rfl⟩ := List.mem_map.mp h
  exact nodup_seen.sublist ((List.filter_sublist.trans List.filter_sublist).map Prod.fst)

/-- A subscription is backfilled, or hears of one room, in one place. -/
theorem nodup_shows : ((hub.jobs c nowMs).flatMap Job.shows).Nodup := by
  have hjobs : (hub.jobs c nowMs).flatMap Job.shows =
      (hub.needBackfill nowMs).map (·.id) ++ (hub.byRoom nowMs).flatMap (·.sinks) := by
    have hbackfills : (hub.needBackfill nowMs).flatMap (fun target => (Job.backfill target).shows) =
        (hub.needBackfill nowMs).map (·.id) := List.map_eq_flatMap.symm
    have hready : (hub.needReady nowMs).flatMap (fun target => (Job.ready target).shows) = [] :=
      List.flatMap_eq_nil_iff.mpr fun _ _ => rfl
    have hbeat : (hub.needHeartbeat c nowMs).flatMap (fun id => (Job.heartbeat id).shows) = [] :=
      List.flatMap_eq_nil_iff.mpr fun _ _ => rfl
    rw [jobs, List.flatMap_append, List.flatMap_append, List.flatMap_append, List.flatMap_map,
      List.flatMap_map, List.flatMap_map, List.flatMap_map, hbackfills, hready, hbeat, List.append_nil,
      List.append_nil]
    rfl
  rw [hjobs, List.nodup_append']
  refine ⟨nodup_needBackfill, ?_, fun id hback hlive => ?_⟩
  · rw [List.nodup_flatMap]
    refine ⟨fun room hroom => nodup_sinks hroom, ?_⟩
    have hrooms : (hub.byRoom nowMs).Pairwise fun room room' => room.roomId ≠ room'.roomId := by
      rw [byRoom, List.pairwise_map]
      exact List.nodup_dedup _
    refine hrooms.imp_of_mem fun {room room'} hroom hroom' hne id hid hid' => hne ?_
    obtain ⟨sub, hsub, -, heq⟩ := (mem_room_sinks hroom).mp hid
    obtain ⟨sub', hsub', -, heq'⟩ := (mem_room_sinks hroom').mp hid'
    obtain rfl := Option.some.inj (hsub.symm.trans hsub')
    exact heq.symm.trans heq'
  · obtain ⟨target, htarget, rfl⟩ := List.mem_map.mp hback
    obtain ⟨sub, hsub, hshould, -⟩ := mem_needBackfill.mp htarget
    obtain ⟨sub', hsub', hnot⟩ := mem_sinks.mp (List.mem_flatMap.mp hlive)
    obtain rfl := Option.some.inj (hsub.symm.trans hsub')
    cases hshould.symm.trans hnot

/-- Who is to be greeted has a job for it. -/
theorem filterMap_greets : (hub.jobs c nowMs).filterMap Job.greets = (hub.needReady nowMs).map (·.id) := by
  have hbackfills : (hub.needBackfill nowMs).filterMap (Job.greets ∘ .backfill) = [] :=
    List.filterMap_eq_nil_iff.mpr fun _ _ => rfl
  have hpolls : (hub.byRoom nowMs).filterMap (Job.greets ∘ .countPoll) = [] :=
    List.filterMap_eq_nil_iff.mpr fun _ _ => rfl
  have hbeat : (hub.needHeartbeat c nowMs).filterMap (Job.greets ∘ .heartbeat) = [] :=
    List.filterMap_eq_nil_iff.mpr fun _ _ => rfl
  have hready : (hub.needReady nowMs).filterMap (Job.greets ∘ .ready) =
      (hub.needReady nowMs).map (·.id) := congrFun List.filterMap_eq_map' _
  rw [jobs, List.filterMap_append, List.filterMap_append, List.filterMap_append, List.filterMap_map,
    List.filterMap_map, List.filterMap_map, List.filterMap_map, hbackfills, hpolls, hready, hbeat,
    List.nil_append, List.append_nil]
  rfl

end StreamHub

namespace StreamSystem

variable {c : StreamConfig} {s s' : StreamSystem} {op : StreamOp} {id : Nat}

/-- A step of a `Tick` shows what its job emits. -/
theorem shown_resumeTick {answer : Answer} {vars : TickState} {job : Job} {jobs : List Job}
    (htick : s.tick = .running vars (job :: jobs)) (hpush : job.PushesFrame) :
    s.shown c id (.resumeTick answer) = (job.emits id answer vars.nowMs).toList := by
  have hevents : (job.run c answer s.hub vars).events.filterMap (·.shown id job.isFrame) =
      (job.emits id answer vars.nowMs).toList := Job.filterMap_events hpush
  rw [← hevents]
  simp only [shown, next, resumeTick, htick, List.drop_left, TickPc.isFrame]

/-- Nothing is shown but by a job. -/
theorem shown_of_not_job (h : ∀ answer vars job jobs, op = .resumeTick answer →
    s.tick ≠ .running vars (job :: jobs)) : s.shown c id op = [] := by
  obtain ⟨events, hlog, hevents⟩ := events_next c s op
  rw [shown, hlog, List.drop_left, List.filterMap_eq_nil_iff]
  intro event hmem
  rcases hevents event hmem with ⟨answer, vars, job, jobs, hop, htick, -⟩ |
    ⟨_, _, id', _, _, -, -, rfl⟩ | ⟨_, _, _, _, rfl⟩ | ⟨_, rfl⟩
  · exact absurd htick (h answer vars job jobs hop)
  · simp only [StreamEvent.shown]
    split <;> rfl
  · rfl
  · rfl

/-- A trace grows with the run. -/
theorem trace_snoc (c : StreamConfig) (id : Nat) (s : StreamSystem) (ops : List StreamOp) (op : StreamOp) :
    trace c id s (ops ++ [op]) = trace c id s ops ++ (ops.foldl (next c) s).shown c id op := by
  induction ops generalizing s with
  | nil => exact List.append_nil _
  | cons first ops ih => rw [List.cons_append, trace, ih, trace, List.append_assoc, List.foldl_cons]

/-! ## The order of phases

`Planned` says in which order the jobs that are left speak to a sink, and each job keeps it. -/

namespace Documented

variable {phases : List Gateway.Phase}

theorem nil : Documented [] := ⟨0, .inl rfl⟩

/-- A backfill may come as long as nobody was greeted, -/
theorem backfill (h : Documented phases) (hready : .ready ∉ phases) : Documented (phases ++ [.backfill]) := by
  obtain ⟨n, rfl | ⟨m, rfl⟩⟩ := h
  · exact ⟨n + 1, .inl List.replicate_succ'.symm⟩
  · exact absurd (List.mem_append_right _ List.mem_cons_self) hready

/-- …a greeting once, -/
theorem ready (h : Documented phases) (hready : .ready ∉ phases) : Documented (phases ++ [.ready]) := by
  obtain ⟨n, rfl | ⟨m, rfl⟩⟩ := h
  · exact ⟨n, .inr ⟨0, rfl⟩⟩
  · exact absurd (List.mem_append_right _ List.mem_cons_self) hready

/-- …and a live push after it. -/
theorem live (h : Documented phases) (hready : .ready ∈ phases) : Documented (phases ++ [.live]) := by
  obtain ⟨n, rfl | ⟨m, rfl⟩⟩ := h
  · cases List.eq_of_mem_replicate hready
  · refine ⟨n, .inr ⟨m + 1, ?_⟩⟩
    rw [List.append_assoc, List.cons_append, ← List.replicate_succ']

end Documented

end StreamSystem

namespace Job

variable {c : StreamConfig} {answer : Answer} {hub : StreamHub} {t : TickState} {id : Nat} {job : Job}

/-- **What a job emits**, by its phase. -/
theorem emits_cases {nowMs : Int} {phase : Phase} {event : SinkEvent}
    (h : job.emits id answer nowMs = some (phase, event)) :
    phase = .backfill ∧ job.backs = some id ∨ phase = .ready ∧ job.greets = some id ∨
      phase = .live ∧ job.writes = some id ∧ id ∈ job.shows ∧ job.backs = none := by
  cases job
  case reset target _ _ | frame target _ _ _ =>
    obtain ⟨rfl, hsome⟩ := Option.ite_none_right_eq_some.mp h
    cases hsome
    exact .inl ⟨rfl, rfl⟩
  case ready target =>
    obtain ⟨rfl, hsome⟩ := Option.ite_none_right_eq_some.mp h
    cases hsome
    exact .inr (.inl ⟨rfl, rfl⟩)
  case push id' event closes =>
    obtain ⟨rfl, hsome⟩ := Option.ite_none_right_eq_some.mp h
    cases hsome
    exact .inr (.inr ⟨rfl, rfl, List.mem_singleton_self _, rfl⟩)
  all_goals cases h

/-- A greeting is emitted, and nothing else counts as one. -/
theorem count_emits (id : Nat) (answer : Answer) (nowMs : Int) (job : Job) :
    ((job.emits id answer nowMs).toList.map Prod.fst).count .ready = job.greets.toList.count id := by
  cases job
  case reset | frame | push =>
    simp only [emits]
    split <;> rfl
  case ready target =>
    simp only [emits]
    split
    case isTrue hid =>
      subst hid
      simp [greets]
    case isFalse hid => simp [greets, hid]
  all_goals rfl

/-- A greeting is emitted by the job that greets. -/
theorem mem_emits_ready {nowMs : Int} :
    .ready ∈ (job.emits id answer nowMs).toList.map Prod.fst ↔ job.greets = some id := by
  rw [← List.count_pos_iff, count_emits, List.count_pos_iff, Option.mem_toList]

theorem mem_ids_of_emits {nowMs : Int} {x : Phase × SinkEvent} (h : job.emits id answer nowMs = some x) :
    id ∈ job.ids := by
  cases job
  case reset | frame | ready | push =>
    obtain ⟨rfl, -⟩ := Option.ite_none_right_eq_some.mp h
    exact List.mem_singleton_self _
  all_goals cases h

theorem mem_ids_of_greets (h : job.greets = some id) : id ∈ job.ids := by
  cases job
  case ready target =>
    cases h
    exact List.mem_singleton_self _
  all_goals cases h

/-- What leads to a backfill is one. -/
theorem backs_of_more {job' : Job} (h : job' ∈ (job.run c answer hub t).more) (hid : job'.backs = some id) :
    job.backs = some id := by
  have hmem : id ∈ (job.run c answer hub t).more.filterMap backs := List.mem_filterMap.mpr ⟨job', h, hid⟩
  exact Option.mem_toList.mp ((backs_more job).subset hmem)

end Job

namespace StreamSystem

variable {c : StreamConfig} {s s' : StreamSystem} {op : StreamOp} {id : Nat} {phases : List Gateway.Phase}

/-- **What a `Tick` still has to do for one subscription**, of which so much was shown: it greets whom it
has collected for that, backfills those who are not greeted, and pushes to those who are. -/
structure Planned (id : Nat) (phases : List Gateway.Phase) (vars : TickState) (jobs : List Job) : Prop where
  backs : ∀ job ∈ jobs, job.backs = some id → .ready ∉ phases ∧ id ∉ vars.needReady.map (·.id)
  greets : id ∈ vars.needReady.map (·.id) →
    (jobs.filterMap Job.greets).count id + phases.count .ready = 1
  others : id ∉ vars.needReady.map (·.id) → id ∉ jobs.filterMap Job.greets
  hears : ∀ job ∈ jobs, id ∈ job.shows → job.backs = none →
    .ready ∈ phases ∨ id ∈ vars.needReady.map (·.id) ∧ job.writes = none

/-- **The order so far**, and why it is going to be kept. -/
structure Ordered (id : Nat) (phases : List Gateway.Phase) (s : StreamSystem) : Prop where
  documented : Documented phases
  new : s.hub.nextId ≤ id → phases = []
  pushes : ∀ job ∈ s.tick.jobs, job.PushesFrame
  pending : ∀ sub, s.sub? id = some sub → sub.shouldBackfill = true → .ready ∉ phases
  greeted : ∀ sub, s.sub? id = some sub → sub.readySent = true → .ready ∈ phases
  ungreeted : ∀ sub, s.sub? id = some sub → sub.readySent = false → .ready ∈ phases →
    ∃ vars jobs, s.tick = .running vars jobs ∧ id ∈ vars.needReady.map (·.id)
  plan : ∀ vars jobs, s.tick = .running vars jobs → Planned id phases vars jobs
  live : ∀ vars jobs, s.tick = .running vars jobs → id ∈ vars.needReady.map (·.id) →
    ∀ sub, s.sub? id = some sub → sub.shouldBackfill = false

/-- The first job of a plan is shown in its order. -/
theorem Planned.documented {vars : TickState} {job : Job} {jobs : List Job}
    (h : Planned id phases vars (job :: jobs)) (hdocumented : Documented phases) (answer : Answer) :
    Documented (phases ++ (job.emits id answer vars.nowMs).toList.map Prod.fst) := by
  rcases hshown : job.emits id answer vars.nowMs with - | ⟨phase, event⟩
  · rw [Option.toList_none, List.map_nil, List.append_nil]
    exact hdocumented
  rcases Job.emits_cases hshown with ⟨rfl, hbacks⟩ | ⟨rfl, hgreets⟩ | ⟨rfl, hwrites, hshows, hbacks⟩
  · exact hdocumented.backfill (h.backs job List.mem_cons_self hbacks).1
  · have hmem : id ∈ (job :: jobs).filterMap Job.greets :=
      List.mem_filterMap.mpr ⟨job, List.mem_cons_self, hgreets⟩
    have hcount := h.greets (not_not.mp fun hnot => h.others hnot hmem)
    have hpos := List.count_pos_iff.mpr hmem
    exact hdocumented.ready (List.count_eq_zero.mp (by omega))
  · have hready := h.hears job List.mem_cons_self hshows hbacks
    exact hdocumented.live (hready.resolve_right fun hnot => by cases hwrites.symm.trans hnot.2)

/-- **A job keeps the plan.** -/
theorem Planned.run {vars : TickState} {job : Job} {jobs : List Job}
    (h : Planned id phases vars (job :: jobs)) {answer : Answer} {hub : StreamHub}
    (hfirst : ∀ room snapshot, job = .compare room snapshot → hub.roomChanged room.roomId snapshot = true →
      id ∈ room.sinks → id ∉ vars.needReady.map (·.id)) :
    Planned id (phases ++ (job.emits id answer vars.nowMs).toList.map Prod.fst)
      (job.run c answer hub vars).vars ((job.run c answer hub vars).more ++ jobs) := by
  have hcount : (phases ++ (job.emits id answer vars.nowMs).toList.map Prod.fst).count .ready =
      phases.count .ready + job.greets.toList.count id := by
    rw [List.count_append, Job.count_emits]
  have hgreets : (job :: jobs).filterMap Job.greets = job.greets.toList ++ jobs.filterMap Job.greets := by
    rw [List.filterMap_cons]
    rcases job.greets with - | id' <;> rfl
  have hmore : ((job.run c answer hub vars).more ++ jobs).filterMap Job.greets =
      jobs.filterMap Job.greets := by
    rw [List.filterMap_append, Job.greets_more, List.nil_append]
  -- Who is not collected to be greeted is not greeted now.
  have hsame : id ∉ vars.needReady.map (·.id) → .ready ∉ phases →
      .ready ∉ phases ++ (job.emits id answer vars.nowMs).toList.map Prod.fst := by
    intro hnot hready
    have hout := h.others hnot
    rw [hgreets, List.mem_append, not_or] at hout
    rw [← List.count_eq_zero, hcount, List.count_eq_zero.mpr hready, List.count_eq_zero.mpr hout.1]
  constructor
  · intro job' hjob' hbacks
    rw [Job.run_needReady]
    have hold : .ready ∉ phases ∧ id ∉ vars.needReady.map (·.id) := by
      rcases List.mem_append.mp hjob' with hnew | hrest
      · exact h.backs job List.mem_cons_self (Job.backs_of_more hnew hbacks)
      · exact h.backs job' (List.mem_cons_of_mem _ hrest) hbacks
    exact ⟨hsame hold.2 hold.1, hold.2⟩
  · intro hmem
    rw [Job.run_needReady] at hmem
    have hone := h.greets hmem
    rw [hgreets, List.count_append] at hone
    rw [hmore, hcount]
    omega
  · intro hnot
    rw [Job.run_needReady] at hnot
    have hout := h.others hnot
    rw [hgreets, List.mem_append, not_or] at hout
    rw [hmore]
    exact hout.2
  · intro job' hjob' hshows hbacks
    rw [Job.run_needReady]
    have hkeep : .ready ∈ phases ∨ id ∈ vars.needReady.map (·.id) ∧ job'.writes = none →
        .ready ∈ phases ++ (job.emits id answer vars.nowMs).toList.map Prod.fst ∨
          id ∈ vars.needReady.map (·.id) ∧ job'.writes = none := Or.imp_left (List.mem_append_left _)
    rcases List.mem_append.mp hjob' with hnew | hrest
    · have hhead := h.hears job List.mem_cons_self
      cases Job.leads_of_more hnew
      case countPoll room => exact hkeep (hhead hshows rfl)
      case poll room snapshot => exact hkeep (hhead hshows rfl)
      case compare room sink snapshot hsink =>
        obtain rfl := List.mem_singleton.mp hshows
        refine hkeep (.inl ((hhead hsink rfl).resolve_right fun hwaits => ?_))
        simp only [Job.run] at hnew
        split at hnew
        case isTrue hchanged => exact hfirst room snapshot rfl hchanged hsink hwaits.1
        case isFalse => cases hnew
      all_goals cases hbacks
    · exact hkeep (h.hears job' (List.mem_cons_of_mem _ hrest) hshows hbacks)

/-- To be greeted is who is not backfilled and was not greeted. -/
theorem mem_needReady_iff {nowMs : Int} : id ∈ (s.hub.needReady nowMs).map (·.id) ↔
    ∃ sub, s.sub? id = some sub ∧ sub.shouldBackfill = false ∧ sub.readySent = false := by
  rw [List.mem_map]
  constructor
  · rintro ⟨target, htarget, rfl⟩
    obtain ⟨sub, hsub, hlive, hready, -⟩ := StreamHub.mem_needReady.mp htarget
    rw [Subscription.shouldBackfill_seen] at hlive
    rw [Subscription.seen_readySent] at hready
    exact ⟨sub, hsub, hlive, hready⟩
  · rintro ⟨sub, hsub, hlive, hready⟩
    refine ⟨⟨id, (sub.seen nowMs).playerId, (sub.seen nowMs).roomId⟩, ?_, rfl⟩
    refine StreamHub.mem_needReady.mpr ⟨sub, hsub, ?_, ?_, rfl⟩
    · rw [Subscription.shouldBackfill_seen, hlive]
    · rw [Subscription.seen_readySent, hready]

/-- **A new `Tick`** has a plan. -/
theorem Planned.start (h : Ordered id phases s) (hidle : s.Idle) (nowMs : Int) :
    Planned id phases (s.hub.collect c nowMs).2 (s.hub.jobs c nowMs) := by
  constructor
  · intro job hjob hbacks
    rcases StreamHub.mem_jobs.mp hjob with ⟨target, htarget, rfl⟩ | ⟨_, -, rfl⟩ | ⟨_, -, rfl⟩ | ⟨_, -, rfl⟩
    · cases hbacks
      obtain ⟨sub, hsub, hshould, -⟩ := StreamHub.mem_needBackfill.mp htarget
      rw [Subscription.shouldBackfill_seen] at hshould
      refine ⟨h.pending sub hsub hshould, fun hmem => ?_⟩
      obtain ⟨sub', hsub', hlive, -⟩ := mem_needReady_iff.mp hmem
      obtain rfl := Option.some.inj (hsub.symm.trans hsub')
      cases hshould.symm.trans hlive
    all_goals cases hbacks
  · intro hmem
    have hout : .ready ∉ phases := by
      obtain ⟨sub, hsub, -, hready⟩ := mem_needReady_iff.mp hmem
      intro hin
      obtain ⟨vars, jobs, htick, -⟩ := h.ungreeted sub hsub hready hin
      cases htick.symm.trans hidle
    rw [StreamHub.filterMap_greets, List.count_eq_zero.mpr hout]
    exact List.count_eq_one_of_mem StreamHub.nodup_needReady hmem
  · intro hout
    rw [StreamHub.filterMap_greets]
    exact hout
  · intro job hjob hshows hbacks
    rcases StreamHub.mem_jobs.mp hjob with ⟨target, -, rfl⟩ | ⟨room, hroom, rfl⟩ | ⟨_, -, rfl⟩ | ⟨_, -, rfl⟩
    · cases hbacks
    · obtain ⟨sub, hsub, hlive, -⟩ := (StreamHub.mem_room_sinks hroom).mp hshows
      rcases hready : sub.readySent with - | -
      · exact .inr ⟨mem_needReady_iff.mpr ⟨sub, hsub, hlive, hready⟩, rfl⟩
      · exact .inl (h.greeted sub hsub hready)
    all_goals cases hshows

/-- A new `Tick` has its plan. -/
theorem Ordered.tick (h : Ordered id phases s) (hidle : s.Idle) (nowMs : Int) :
    Ordered id phases (s.next c (.tick nowMs)) where
  documented := h.documented
  new := h.new
  pushes job hjob := by
    change job ∈ s.hub.jobs c nowMs at hjob
    rcases StreamHub.mem_jobs.mp hjob with ⟨_, -, rfl⟩ | ⟨_, -, rfl⟩ | ⟨_, -, rfl⟩ | ⟨_, -, rfl⟩ <;> trivial
  pending sub' hsub' hshould := by
    rw [sub?_tick, Option.map_eq_some_iff] at hsub'
    obtain ⟨sub, hsub, rfl⟩ := hsub'
    rw [Subscription.shouldBackfill_seen] at hshould
    exact h.pending sub hsub hshould
  greeted sub' hsub' hready := by
    rw [sub?_tick, Option.map_eq_some_iff] at hsub'
    obtain ⟨sub, hsub, rfl⟩ := hsub'
    rw [Subscription.seen_readySent] at hready
    exact h.greeted sub hsub hready
  ungreeted sub' hsub' hready hin := by
    rw [sub?_tick, Option.map_eq_some_iff] at hsub'
    obtain ⟨sub, hsub, rfl⟩ := hsub'
    rw [Subscription.seen_readySent] at hready
    obtain ⟨vars, jobs, htick, -⟩ := h.ungreeted sub hsub hready hin
    cases htick.symm.trans hidle
  plan vars jobs htick := by
    cases htick
    exact .start h hidle nowMs
  live vars jobs htick hmem sub' hsub' := by
    cases htick
    obtain ⟨sub, hsub, hlive, -⟩ := mem_needReady_iff.mp hmem
    rw [sub?_tick, hsub, Option.map_some, Option.some.injEq] at hsub'
    rw [← hsub', Subscription.shouldBackfill_seen, hlive]

/-- **One job.** -/
theorem Ordered.job (h : Ordered id phases s) (hsound : Sound s) {vars : TickState} {job : Job}
    {jobs : List Job} (htick : s.tick = .running vars (job :: jobs)) {answer : Answer}
    (hfirst : s.ReadyFirst (.resumeTick answer)) :
    Ordered id (phases ++ (s.shown c id (.resumeTick answer)).map Prod.fst)
      (s.next c (.resumeTick answer)) := by
  have hplan := h.plan vars (job :: jobs) htick
  have hjob := mem_jobs_head htick
  have hnext := tick_job (c := c) htick answer
  have hsub : (s.next c (.resumeTick answer)).sub? id = s.sub? id := sub?_job htick
  have hnextId : (s.next c (.resumeTick answer)).hub.nextId = s.hub.nextId := by
    simp only [next, resumeTick, htick, Job.run_nextId]
  rw [shown_resumeTick htick (h.pushes job hjob)]
  -- Who is greeted now was collected for it.
  have hready : .ready ∈ phases ++ (job.emits id answer vars.nowMs).toList.map Prod.fst →
      .ready ∈ phases ∨ id ∈ vars.needReady.map (·.id) := by
    intro hin
    refine (List.mem_append.mp hin).imp_right fun hnew => not_not.mp fun hout => ?_
    exact hplan.others hout
      (List.mem_filterMap.mpr ⟨job, List.mem_cons_self, Job.mem_emits_ready.mp hnew⟩)
  constructor
  · exact hplan.documented h.documented answer
  · intro hle
    rw [hnextId] at hle
    rw [h.new hle, List.nil_append]
    rcases hshown : job.emits id answer vars.nowMs with - | x
    · rfl
    · exact absurd (hsound.jobs job hjob id (Job.mem_ids_of_emits hshown)) (not_lt.mpr hle)
  · intro job' hjob'
    rw [hnext] at hjob'
    rcases List.mem_append.mp hjob' with hmore | hrest
    · exact Job.pushesFrame_of_more hmore
    · exact h.pushes job' (mem_jobs_tail htick hrest)
  · intro sub hsub' hshould hin
    rw [hsub] at hsub'
    rcases hready hin with hold | hmem
    · exact h.pending sub hsub' hshould hold
    · cases hshould.symm.trans (h.live vars _ htick hmem sub hsub')
  · intro sub hsub' hsent
    rw [hsub] at hsub'
    exact List.mem_append_left _ (h.greeted sub hsub' hsent)
  · intro sub hsub' hsent hin
    rw [hsub] at hsub'
    refine ⟨_, _, hnext, ?_⟩
    rw [Job.run_needReady]
    rcases hready hin with hold | hmem
    · obtain ⟨vars', jobs', htick', hmem⟩ := h.ungreeted sub hsub' hsent hold
      cases htick.symm.trans htick'
      exact hmem
    · exact hmem
  · intro vars' jobs' htick'
    cases hnext.symm.trans htick'
    refine hplan.run fun room snapshot hcompare hchanged hid => ?_
    subst hcompare
    have hout := hfirst (room, snapshot) (by rw [htick]; rfl) hchanged id hid
    rw [htick] at hout
    exact hout
  · intro vars' jobs' htick' hmem sub hsub'
    cases hnext.symm.trans htick'
    rw [Job.run_needReady] at hmem
    rw [hsub] at hsub'
    exact h.live vars _ htick hmem sub hsub'

/-- The end of a `Tick`: the greetings are noted. -/
theorem Ordered.commit (h : Ordered id phases s) {vars : TickState} (htick : s.tick = .running vars [])
    (answer : Answer) : Ordered id phases (s.next c (.resumeTick answer)) := by
  have hplan := h.plan vars [] htick
  have hsub : ∀ sub', (s.next c (.resumeTick answer)).sub? id = some sub' →
      ∃ sub, s.sub? id = some sub ∧ sub' = sub.committed vars id := by
    intro sub' hsub'
    simp only [sub?, next, resumeTick, htick, StreamHub.lookup_commit] at hsub'
    split at hsub'
    · cases hsub'
    · obtain ⟨sub, hsub, rfl⟩ := Option.map_eq_some_iff.mp hsub'
      exact ⟨sub, hsub, rfl⟩
  have hnext : (s.next c (.resumeTick answer)).tick = .reporting ((s.hub.commit vars).2.map (·.2)) := by
    simp only [next, resumeTick, htick]
  constructor
  · exact h.documented
  · intro hle
    simp only [next, resumeTick, htick, StreamHub.nextId_commit] at hle
    exact h.new hle
  · intro job hjob
    rw [hnext] at hjob
    cases hjob
  · intro sub' hsub' hshould
    obtain ⟨sub, hold, rfl⟩ := hsub sub' hsub'
    exact h.pending sub hold (Subscription.shouldBackfill_of_committed hshould)
  · intro sub' hsub' hsent
    obtain ⟨sub, hold, rfl⟩ := hsub sub' hsub'
    by_cases hmem : id ∈ vars.needReady.map (·.id)
    · have hcount := hplan.greets hmem
      rw [List.filterMap_nil, List.count_nil, Nat.zero_add] at hcount
      exact List.count_pos_iff.mp (by omega)
    · rw [Subscription.committed_readySent_of_not_mem hmem] at hsent
      exact h.greeted sub hold hsent
  · intro sub' hsub' hsent hin
    obtain ⟨sub, hold, rfl⟩ := hsub sub' hsub'
    have hmem : id ∉ vars.needReady.map (·.id) := by
      intro hmem
      cases hsent.symm.trans (Subscription.committed_readySent_of_mem hmem)
    rw [Subscription.committed_readySent_of_not_mem hmem] at hsent
    obtain ⟨vars', jobs', htick', hmem'⟩ := h.ungreeted sub hold hsent hin
    cases htick.symm.trans htick'
    exact absurd hmem' hmem
  · intro vars' jobs' htick'
    cases hnext.symm.trans htick'
  · intro vars' jobs' htick'
    cases hnext.symm.trans htick'

/-- A step that is none of the `Tick`'s. -/
theorem Ordered.aside (h : Ordered id phases s) (hsound : Sound s) (haside : s.Aside c op) :
    Ordered id phases (s.next c op) := by
  constructor
  · exact h.documented
  · exact fun hle => h.new (nextId_next.trans hle)
  · intro job hjob
    rw [haside.jobs] at hjob
    exact h.pushes job hjob
  · intro sub' hsub' hshould
    rcases haside.sub id sub' hsub' with hold | ⟨hid, -⟩
    · exact h.pending sub' hold hshould
    · rw [h.new hid.ge]
      exact List.not_mem_nil
  · intro sub' hsub' hsent
    rcases haside.sub id sub' hsub' with hold | ⟨-, hnot⟩
    · exact h.greeted sub' hold hsent
    · cases hsent.symm.trans hnot
  · intro sub' hsub' hsent hin
    rcases haside.sub id sub' hsub' with hold | ⟨hid, -⟩
    · obtain ⟨vars, jobs, hrunning, hmem⟩ := h.ungreeted sub' hold hsent hin
      exact ⟨vars, jobs, (haside.tick vars jobs).mpr hrunning, hmem⟩
    · rw [h.new hid.ge] at hin
      cases hin
  · exact fun vars jobs hrunning => h.plan vars jobs ((haside.tick vars jobs).mp hrunning)
  · intro vars jobs hrunning hmem sub' hsub'
    have hold := (haside.tick vars jobs).mp hrunning
    rcases haside.sub id sub' hsub' with hsame | ⟨hid, -⟩
    · exact h.live vars jobs hold hmem sub' hsame
    · -- Nobody new is about to be greeted.
      have hcount := (h.plan vars jobs hold).greets hmem
      rw [h.new hid.ge, List.count_nil, Nat.add_zero] at hcount
      obtain ⟨job, hjob, hgreets⟩ := List.mem_filterMap.mp (List.count_pos_iff.mp (hcount ▸ Nat.one_pos))
      have hlt := hsound.jobs job (by rw [hold]; exact hjob) id (Job.mem_ids_of_greets hgreets)
      exact absurd hid hlt.ne

/-- **One step.** -/
theorem Ordered.step (h : Ordered id phases s) (hsound : Sound s) (hstep : ReadyFirstStep c s op s') :
    Ordered id (phases ++ (s.shown c id op).map Prod.fst) s' := by
  obtain ⟨⟨hfirst, hseq⟩, rfl⟩ := hstep
  have hquiet : (∀ answer vars job jobs, op = .resumeTick answer → s.tick ≠ .running vars (job :: jobs)) →
      Ordered id phases (s.next c op) →
      Ordered id (phases ++ (s.shown c id op).map Prod.fst) (s.next c op) := by
    intro hno hordered
    rwa [shown_of_not_job hno, List.map_nil, List.append_nil]
  rcases next_cases c s op with ⟨nowMs, rfl⟩ | ⟨answer, vars, job, jobs, rfl, htick⟩ |
    ⟨answer, vars, rfl, htick⟩ | haside
  · exact hquiet (fun _ _ _ _ hop => by cases hop) (h.tick hseq nowMs)
  · exact h.job hsound htick hfirst
  · refine hquiet (fun _ vars' job jobs _ heq => ?_) (h.commit htick answer)
    cases htick.symm.trans heq
  · exact hquiet haside.noJob (h.aside hsound haside)

theorem Ordered.start (id : Nat) : Ordered id [] {} where
  documented := .nil
  new _ := rfl
  pushes _ hjob := by cases hjob
  pending _ hsub := by cases hsub
  greeted _ hsub := by cases hsub
  ungreeted _ hsub := by cases hsub
  plan _ _ htick := by cases htick
  live _ _ htick := by cases htick

/-- What was written so far goes on by what one step writes. -/
theorem trace_run {R : StreamSystem → StreamOp → StreamSystem → Prop} {ops : List StreamOp}
    (hR : ∀ s op s', R s op s' → s' = s.next c op) (hrun : Run R {} ops s) (id : Nat) (op : StreamOp) :
    trace c id {} (ops ++ [op]) = trace c id {} ops ++ s.shown c id op := by
  rw [trace_snoc, ← hrun.eq_foldl hR]

/-- **The documented order** is kept, in every run that meets the condition. -/
theorem documented_of_run {ops : List StreamOp} (hrun : Run (ReadyFirstStep c) {} ops s) (id : Nat) :
    Documented ((trace c id {} ops).map Prod.fst) := by
  have hordered : Sound s ∧ Ordered id ((trace c id {} ops).map Prod.fst) s := by
    refine hrun.invariant_of_history (I := fun ops s => Sound s ∧
      Ordered id ((trace c id {} ops).map Prod.fst) s) (fun ops m op t hpre hm hstep => ?_)
      ⟨.start, .start id⟩
    rw [trace_run (fun _ _ _ hstep => hstep.2) hpre, List.map_append]
    exact ⟨hm.1.step ⟨hstep.1.2, hstep.2⟩, hm.2.step hm.1 hstep⟩
  exact hordered.2.documented

/-- alice reconnects after frame 7, is sent frame 8, and is greeted while nothing changes. -/
def greetedOnce : List StreamOp :=
  [.subscribe "alice" "r-1" true { lastEventId := some 7 }, .resumeCall 0 {}, .resumeCall 0 {},
    .tick 1000, .resumeTick { range := some { snapshots := [{ frame := 8 }] } }, .resumeTick {},
    .resumeTick {}, .resumeTick {},
    .tick 1100, .resumeTick {}, .resumeTick { state := some { frame := 8 } }, .resumeTick {},
    .resumeTick {}, .resumeTick {},
    .tick 1200, .resumeTick {}, .resumeTick { state := some { frame := 9 } }, .resumeTick {},
    .resumeTick {}, .resumeTick {}]

theorem documented_of_run_greetedOnce : Documented ((trace {} 1 {} greetedOnce).map Prod.fst) :=
  documented_of_run (Run.of_guarded (by decide)) 1

/-- alice, who has no `Last-Event-ID`, is told the state of her room before she is told that she is ready. -/
theorem not_documented_of_run : ¬∀ (c : StreamConfig) (ops : List StreamOp) (s : StreamSystem) (id : Nat),
    Run (Step c) {} ops s → Documented ((trace c id {} ops).map Prod.fst) := by
  intro h
  have hrun : Run (Step {}) {} (subscribed ++ .tick 1000 :: polled) _ := Run.of_guarded (by decide)
  have hphases : (trace {} 1 {} (subscribed ++ .tick 1000 :: polled)).map Prod.fst = [.live, .ready] := by
    decide
  have hdocumented := h {} _ _ 1 hrun
  rw [hphases] at hdocumented
  obtain ⟨- | n, hall | ⟨m, hall⟩⟩ := hdocumented
  all_goals cases hall

end StreamSystem

end RealtimeGame.Gateway
