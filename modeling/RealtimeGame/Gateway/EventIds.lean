import RealtimeGame.Gateway.Awaited
import RealtimeGame.Library.Gapless

/-!
# Gateway/EventIds — the ids of one subscription

A frame goes out with its number as its id.  Room's answers never go back, and each event is written
before Room is asked again for its subscription; so the ids of a subscription do not go back either, but
where a backfill starts over after a reset, with frames from before it.
-/

open Library

namespace RealtimeGame.Gateway

/-! ## Ids

The id of a frame is its number, and that of a reset the number of its snapshot; heartbeats and greetings
have none. -/

/-- The id that an event is written with. -/
def SinkEvent.sseId : SinkEvent → Option Int
  | heartbeat | sessionReady .. => none
  | roomState snapshot _ | roomFinished snapshot _ | streamReset _ snapshot _ => some snapshot.frame
  | streamClosed .. => some 0

/-- The ids of what is written to a subscription, in their order. -/
def sseIds (events : List (Phase × SinkEvent)) : List Int := events.filterMap (·.2.sseId)

theorem sseIds_append (events more : List (Phase × SinkEvent)) :
    sseIds (events ++ more) = sseIds events ++ sseIds more := List.filterMap_append

/-! ## What Room promises

Room is outside; what is asked of it is stated over its answers, as they stand in the log. -/

namespace StreamEvent

/-- The newest frame of a room that Room has answered with. -/
def answered : StreamEvent → Option (String × Int)
  | getState roomId _ (some snapshot) => some (roomId, snapshot.frame)
  | getSnapshotsSince _ roomId _ _ (some range) =>
    if range.status = .ready then range.snapshots.getLast?.map fun snapshot => (roomId, snapshot.frame)
    else none
  | _ => none

/-- The second answer is not from before the first. -/
def NotAfter (event event' : StreamEvent) : Prop :=
  ∀ first ∈ event.answered, ∀ second ∈ event'.answered, first.1 = second.1 → first.2 ≤ second.2

instance : DecidableRel NotAfter := fun event event' => inferInstanceAs (Decidable
  (∀ first ∈ event.answered, ∀ second ∈ event'.answered, first.1 = second.1 → first.2 ≤ second.2))

/-- The frames that are missing are answered one by one. -/
def Gapfree : StreamEvent → Prop
  | getSnapshotsSince _ _ sinceFrame _ (some range) => range.status = .ready →
      range.snapshots.map (·.frame) = Int.range (sinceFrame + 1) (sinceFrame + 1 + range.snapshots.length)
  | _ => True

instance : DecidablePred Gapfree
  | getSnapshotsSince _ _ sinceFrame _ (some range) => inferInstanceAs (Decidable
      (range.status = .ready → range.snapshots.map (·.frame) =
        Int.range (sinceFrame + 1) (sinceFrame + 1 + range.snapshots.length)))
  | getSnapshotsSince _ _ _ _ none | setPresence .. | getState .. | write .. | close _ => .isTrue trivial

/-- A reset to a later frame was written to this subscription, or tried to. -/
def resetsPast (id : Nat) (frame : Int) : StreamEvent → Bool
  | write id' (.streamReset _ payload _) _ => id' = id && frame < payload.frame
  | _ => false

end StreamEvent

/-- **Room's contract**: the frames of a room never go back from one answer to the next, and none of the
frames that are missing is left out. -/
def RoomContract (log : List StreamEvent) : Prop :=
  log.Pairwise StreamEvent.NotAfter ∧ ∀ event ∈ log, event.Gapfree

instance : DecidablePred RoomContract := fun log =>
  inferInstanceAs (Decidable (log.Pairwise StreamEvent.NotAfter ∧ ∀ event ∈ log, event.Gapfree))

/-- A promise kept so far was kept before. -/
theorem RoomContract.of_append {log more : List StreamEvent} (h : RoomContract (log ++ more)) :
    RoomContract log :=
  ⟨(List.pairwise_append.mp h.1).1, fun event hevent => h.2 event (List.mem_append_left _ hevent)⟩

/-- The subscription that Room is about to be asked for. -/
def TickPc.backfills : TickPc → Option BackfillTarget
  | running _ (.backfill target :: _) => some target
  | _ => none

namespace StreamSystem

variable (s : StreamSystem)

/-- **The condition** — where Room answers a backfill with frames, the subscription was not reset to a
frame after the first of them. -/
def ResetsBehind : StreamOp → Prop
  | .resumeTick answer => ∀ target ∈ s.tick.backfills, ∀ sinceFrame ∈ target.sinceFrame,
      ∀ range ∈ answer.range, target.malformed = false → range.status = .ready → range.snapshots ≠ [] →
      ∀ event ∈ s.log, event.resetsPast target.id (sinceFrame + 1) = false
  | _ => True

instance : DecidablePred s.ResetsBehind
  | .resumeTick answer => inferInstanceAs (Decidable (∀ target ∈ s.tick.backfills,
      ∀ sinceFrame ∈ target.sinceFrame, ∀ range ∈ answer.range, target.malformed = false →
      range.status = .ready → range.snapshots ≠ [] →
      ∀ event ∈ s.log, event.resetsPast target.id (sinceFrame + 1) = false))
  | .subscribe .. | .unsubscribe _ | .tick _ | .closeAll | .beginShutdown | .closeAllWithEvent _
  | .resumeCall .. => .isTrue trivial

/-- One step of a run that meets it. -/
def ResetsBehindStep (c : StreamConfig) (s : StreamSystem) (op : StreamOp) (s' : StreamSystem) : Prop :=
  (s.ResetsBehind op ∧ s.Sequential op) ∧ s' = s.next c op

end StreamSystem

/-! ## What is written, and what Room has answered

Every id was an answer before.  So it is enough to compare what is written with what is known. -/

namespace StreamSystem

variable {c : StreamConfig} {s s' : StreamSystem} {op : StreamOp} {id : Nat}

/-- Every event that is shown was written, or tried to. -/
def Logged (id : Nat) (events : List (Gateway.Phase × SinkEvent)) (s : StreamSystem) : Prop :=
  ∀ x ∈ events, ∃ ok backfills, .write id x.2 ok ∈ s.log ∧ x.2.phase backfills = some x.1

/-- **In every run** what the sink was written is in the log. -/
theorem logged_of_run {R : StreamSystem → StreamOp → StreamSystem → Prop} {ops : List StreamOp}
    (hR : ∀ s op s', R s op s' → s' = s.next c op) (hrun : Run R {} ops s) :
    Logged id (trace c id {} ops) s := by
  refine hrun.invariant_of_history (I := fun ops s => Logged id (trace c id {} ops) s)
    (fun ops m op t hpre hm hstep => ?_) fun x hx => by cases hx
  obtain rfl := hR _ _ _ hstep
  rw [trace_run hR hpre]
  intro x hx
  rcases List.mem_append.mp hx with hold | hnew
  · obtain ⟨ok, backfills, hmem, hphase⟩ := hm x hold
    obtain ⟨events, hlog, -⟩ := log_next c m op
    exact ⟨ok, backfills, by rw [hlog]; exact List.mem_append_left _ hmem, hphase⟩
  · obtain ⟨event, hevent, hshown⟩ := List.mem_filterMap.mp hnew
    rcases event with _ | _ | _ | ⟨id', event, ok⟩ | _
    case write =>
      obtain ⟨rfl, hsome⟩ := Option.ite_none_right_eq_some.mp hshown
      obtain ⟨phase, hphase, rfl⟩ := Option.map_eq_some_iff.mp hsome
      exact ⟨ok, _, List.mem_of_mem_drop hevent, hphase⟩
    all_goals cases hshown

/-- Nothing was written to whom there is not. -/
theorem Logged.eq_nil {events : List (Gateway.Phase × SinkEvent)} (h : Logged id events s) (hsound : Sound s)
    (hle : s.hub.nextId ≤ id) : events = [] := by
  refine List.eq_nil_iff_forall_not_mem.mpr fun x hx => ?_
  obtain ⟨ok, -, hmem, -⟩ := h x hx
  exact absurd (hsound.log _ hmem id rfl) (not_lt.mpr hle)

/-- Before its frames, a subscription is written the ids of resets. -/
theorem Logged.reset_of_unbegun {events : List (Gateway.Phase × SinkEvent)} {frame : Int} (h : Logged id events s)
    (hunbegun : s.Unbegun id) (hframe : frame ∈ sseIds events) :
    ∃ reason payload nowMs ok, .write id (.streamReset reason payload nowMs) ok ∈ s.log ∧
      payload.frame = frame := by
  obtain ⟨⟨phase, event⟩, hx, hid⟩ := List.mem_filterMap.mp hframe
  obtain ⟨ok, backfills, hmem, hphase⟩ := h _ hx
  cases event
  case roomState | roomFinished => cases (hunbegun _ hmem).symm.trans (decide_eq_true rfl)
  case streamReset reason payload nowMs => exact ⟨reason, payload, nowMs, ok, hmem, Option.some.inj hid⟩
  case streamClosed => cases hphase
  all_goals cases hid

/-- Room has answered with this frame of the room, or a later one. -/
def KnownIn (log : List StreamEvent) (roomId : String) (frame : Int) : Prop :=
  ∃ event ∈ log, ∃ newest, event.answered = some (roomId, newest) ∧ frame ≤ newest

namespace KnownIn

variable {log events : List StreamEvent} {roomId : String} {frame newest : Int}

theorem mono (h : KnownIn log roomId frame) : KnownIn (log ++ events) roomId frame := by
  obtain ⟨event, hevent, hnewest⟩ := h
  exact ⟨event, List.mem_append_left _ hevent, hnewest⟩

/-- No answer is from before. -/
theorem le (h : KnownIn log roomId frame) (hcontract : RoomContract (log ++ events)) {event : StreamEvent}
    (hevent : event ∈ events) (hanswered : event.answered = some (roomId, newest)) : frame ≤ newest := by
  obtain ⟨event', hevent', newest', hanswered', hle⟩ := h
  have hnot := (List.pairwise_append.mp hcontract.1).2.2 event' hevent' event hevent
  exact hle.trans (hnot _ hanswered' _ hanswered rfl)

end KnownIn

end StreamSystem

/-! ## The ids go up

What the jobs of a `Tick` are about to write is foreseen, and each job keeps that. -/

@[simp] theorem sseId_frameEvent (snapshot : RoomSnapshot) (nowMs : Int) :
    (frameEvent snapshot nowMs).sseId = some snapshot.frame := by
  unfold frameEvent
  split <;> rfl

namespace Job

variable {c : StreamConfig} {answer : Answer} {hub : StreamHub} {t : TickState} {id : Nat}

/-- The ids that a job, and those it leads to, are going to write. -/
def frames : Job → List Int
  | reset _ _ payload => [payload.frame]
  | frame _ _ snapshot rest => snapshot.frame :: rest.map (·.frame)
  | framePushed _ _ _ rest => rest.map (·.frame)
  | compare _ snapshot => [snapshot.frame]
  | push _ event _ => event.sseId.toList
  | _ => []

/-- The room that they are about. -/
def roomId : Job → Option String
  | backfill target | current target _ | reset target .. | resetPushed target .. | frame target ..
  | framePushed target .. => some target.roomId
  | countPoll room | poll room | compare room _ => some room.roomId
  | push .. | ready _ | heartbeat _ => none

/-- A job writes the first of them, if any. -/
theorem sseIds_emits (id : Nat) (answer : Answer) (nowMs : Int) (job : Job) :
    sseIds (job.emits id answer nowMs).toList <+: job.frames := by
  cases job
  case reset target reason payload =>
    simp only [emits]
    split
    · exact List.prefix_rfl
    · exact List.nil_prefix
  case frame target written snapshot rest =>
    simp only [emits]
    split
    · rw [Option.toList_some, sseIds, List.filterMap_cons, sseId_frameEvent]
      exact ⟨rest.map (·.frame), rfl⟩
    · exact List.nil_prefix
  case ready target =>
    simp only [emits]
    split <;> exact List.nil_prefix
  case push id' event closes =>
    simp only [emits]
    split
    · rw [Option.toList_some, sseIds, List.filterMap_cons]
      rcases hid : event.sseId with - | frame <;> simp [frames, hid]
    · exact List.nil_prefix
  all_goals exact List.nil_prefix

theorem sseIds_emits_of_not_shows {nowMs : Int} {job : Job} (h : id ∉ job.shows) :
    sseIds (job.emits id answer nowMs).toList = [] := by
  have hne : ∀ {id'}, job.shows = [id'] → id' ≠ id := by
    rintro id' hshows rfl
    exact h (hshows ▸ List.mem_singleton_self id')
  cases job
  case reset target _ _ | frame target _ _ _ =>
    rw [emits, if_neg (hne rfl)]
    rfl
  case push id' _ _ =>
    rw [emits, if_neg (hne rfl)]
    rfl
  case ready target =>
    rw [emits]
    split <;> rfl
  all_goals rfl

/-- **What a job is going to write** does not go back, and Room has answered with it. -/
structure Foreseen (log : List StreamEvent) (roomId : String) (ids : List Int) (job : Job) : Prop where
  room : ∀ roomId' ∈ job.roomId, roomId' = roomId
  sorted : (ids ++ job.frames).Pairwise (· ≤ ·)
  known : ∀ frame ∈ job.frames, StreamSystem.KnownIn log roomId frame

namespace Foreseen

variable {log events : List StreamEvent} {roomId : String} {ids : List Int} {job job' : Job}

theorem mono (h : job.Foreseen log roomId ids) : job.Foreseen (log ++ events) roomId ids where
  room := h.room
  sorted := h.sorted
  known frame hframe := (h.known frame hframe).mono

/-- Nothing is going to be written yet. -/
theorem of_frames_nil (hids : ids.Pairwise (· ≤ ·)) (hroom : ∀ roomId' ∈ job.roomId, roomId' = roomId)
    (hframes : job.frames = []) : job.Foreseen log roomId ids where
  room := hroom
  sorted := by rwa [hframes, List.append_nil]
  known frame hframe := by
    rw [hframes] at hframe
    cases hframe

/-- The state that Room has answered with is going to be written. -/
theorem of_answered (hids : ids.Pairwise (· ≤ ·)) (hknown : ∀ frame ∈ ids, StreamSystem.KnownIn log roomId frame)
    (hcontract : RoomContract (log ++ events)) (hroom : ∀ roomId' ∈ job.roomId, roomId' = roomId)
    {event : StreamEvent} (hevent : event ∈ events) {newest : Int}
    (hanswered : event.answered = some (roomId, newest)) (hframes : job.frames = [newest]) :
    job.Foreseen (log ++ events) roomId ids where
  room := hroom
  sorted := by
    rw [hframes, List.pairwise_append]
    refine ⟨hids, List.pairwise_singleton _ _, fun frame hframe newest' hnewest' => ?_⟩
    rw [List.mem_singleton.mp hnewest']
    exact (hknown frame hframe).le hcontract hevent hanswered
  known frame hframe := by
    rw [hframes, List.mem_singleton] at hframe
    exact ⟨event, List.mem_append_right _ hevent, newest, hanswered, hframe.le⟩

/-- The frames that Room has answered with are going to be written. -/
theorem of_range {target : BackfillTarget} {sinceFrame : Int} {requestId : String} {range : SnapshotRange}
    {snapshot : RoomSnapshot} {rest : List RoomSnapshot} (hids : ids.Pairwise (· ≤ ·))
    (hcontract : RoomContract (log ++ events)) (hroom : target.roomId = roomId)
    (hevent : .getSnapshotsSince target.id target.roomId sinceFrame requestId (some range) ∈ events)
    (hready : range.status = .ready) (hsnapshots : range.snapshots = snapshot :: rest)
    (hbehind : ∀ frame ∈ ids, frame ≤ sinceFrame + 1) :
    (frame target 0 snapshot rest).Foreseen (log ++ events) roomId ids := by
  have hmem := List.mem_append_right log hevent
  have hframes : (frame target 0 snapshot rest).frames =
      Int.range (sinceFrame + 1) (sinceFrame + 1 + range.snapshots.length) := by
    rw [← hcontract.2 _ hmem hready, hsnapshots]
    rfl
  constructor
  · intro roomId' hroom'
    exact (Option.some.inj hroom').symm.trans hroom
  · rw [hframes, List.pairwise_append]
    refine ⟨hids, pairwise_range _ _, fun frame hframe frame' hframe' => ?_⟩
    exact (hbehind frame hframe).trans (Int.mem_range_iff.mp hframe').1
  · intro frame' hframe'
    have hlast : (range.snapshots.getLast?.map (·.frame)) = some (sinceFrame + range.snapshots.length) := by
      rw [← List.getLast?_map, hcontract.2 _ hmem hready,
        show sinceFrame + 1 + (range.snapshots.length : Int) = sinceFrame + range.snapshots.length + 1 by
          omega, getLast?_range, if_pos (by simp [hsnapshots])]
    obtain ⟨last, hgetLast, heq⟩ := Option.map_eq_some_iff.mp hlast
    refine ⟨_, hmem, last.frame, ?_, ?_⟩
    · simp only [StreamEvent.answered, if_pos hready, hgetLast, hroom, Option.map_some]
    · rw [hframes, Int.mem_range_iff] at hframe'
      omega

/-- **What a job leads to** is foreseen. -/
theorem more (h : job.Foreseen log roomId ids) (hids : ids.Pairwise (· ≤ ·))
    (hknown : ∀ frame ∈ ids, StreamSystem.KnownIn log roomId frame)
    (hcontract : RoomContract (log ++ (job.run c answer hub t).events))
    (hbehind : ∀ target sinceFrame range, job = backfill target → target.sinceFrame = some sinceFrame →
      answer.range = some range → target.malformed = false → range.status = .ready → range.snapshots ≠ [] →
      ∀ frame ∈ ids, frame ≤ sinceFrame + 1)
    (hmore : job' ∈ (job.run c answer hub t).more) (hid : id ∈ job'.shows) :
    job'.Foreseen (log ++ (job.run c answer hub t).events) roomId
      (ids ++ sseIds (job.emits id answer t.nowMs).toList) := by
  cases leads_of_more hmore
  case malformed target hmalformed =>
    rw [show sseIds ((backfill target).emits id answer t.nowMs).toList = [] from rfl, List.append_nil]
    exact of_frames_nil hids h.room rfl
  case noFrames target range reason _ _ _ =>
    rw [show sseIds ((backfill target).emits id answer t.nowMs).toList = [] from rfl, List.append_nil]
    exact of_frames_nil hids h.room rfl
  case frames target range snapshot rest hroom hmalformed hsince hrange hready hsnapshots =>
    rw [show sseIds ((backfill target).emits id answer t.nowMs).toList = [] from rfl, List.append_nil]
    obtain ⟨sinceFrame, hsince⟩ := Option.isSome_iff_exists.mp hsince
    have hevent : .getSnapshotsSince target.id target.roomId sinceFrame
        (pollRequestId target.requestId target.roomId) (some range) ∈
          ((backfill target).run c answer hub t).events := by
      simp only [run, hroom, hmalformed, hsince, hrange, Bool.not_true, Bool.false_eq_true, if_false]
      exact List.mem_singleton_self _
    refine of_range hids hcontract (h.room _ rfl) hevent hready hsnapshots ?_
    exact hbehind target sinceFrame range rfl hsince hrange hmalformed hready (by simp [hsnapshots])
  case current target payload reason hstate =>
    rw [show sseIds ((current target reason).emits id answer t.nowMs).toList = [] from rfl, List.append_nil]
    refine of_answered hids hknown hcontract h.room (List.mem_singleton_self _) ?_ rfl
    rw [hstate, ← h.room _ rfl]
    rfl
  case reset target reason payload =>
    refine of_frames_nil (h.sorted.sublist ((sseIds_emits id answer t.nowMs _).sublist.append_left ids)) ?_ rfl
    exact h.room
  case frame target written snapshot rest hwrote =>
    obtain rfl := List.mem_singleton.mp hid
    have hshown : sseIds ((frame target written snapshot rest).emits target.id answer t.nowMs).toList =
        [snapshot.frame] := by
      rw [emits, if_pos rfl, Option.toList_some, sseIds, List.filterMap_cons, sseId_frameEvent]
      rfl
    constructor
    · exact h.room
    · rw [hshown, List.append_assoc]
      exact h.sorted
    · exact fun frame' hframe' => (h.known frame' (List.mem_cons_of_mem _ hframe')).mono
  case framePushed target written snapshot next rest =>
    rw [show sseIds ((framePushed target written snapshot (next :: rest)).emits id answer t.nowMs).toList = []
      from rfl, List.append_nil]
    exact ⟨h.room, h.sorted, fun frame' hframe' => (h.known frame' hframe').mono⟩
  case countPoll room =>
    rw [show sseIds ((countPoll room).emits id answer t.nowMs).toList = [] from rfl, List.append_nil]
    exact of_frames_nil hids h.room rfl
  case poll room snapshot =>
    rw [show sseIds ((poll room).emits id answer t.nowMs).toList = [] from rfl, List.append_nil]
    obtain ⟨snapshot', hstate, heq⟩ := List.mem_map.mp hmore
    cases heq
    refine of_answered hids hknown hcontract h.room (List.mem_singleton_self _) ?_ rfl
    rw [Option.mem_toList.mp hstate, ← h.room _ rfl]
    rfl
  case compare room sink snapshot hsink =>
    rw [show sseIds ((compare room snapshot).emits id answer t.nowMs).toList = [] from rfl, List.append_nil]
    have hframes : (push sink (frameEvent snapshot t.nowMs) snapshot.terminal).frames = [snapshot.frame] := by
      rw [frames, sseId_frameEvent]
      rfl
    constructor
    · exact fun _ hroom => by cases hroom
    · rw [hframes]
      exact h.sorted
    · rw [hframes]
      exact fun frame' hframe' => (h.known frame' hframe').mono

end Foreseen

end Job

namespace StreamSystem

variable {c : StreamConfig} {s s' : StreamSystem} {op : StreamOp} {id : Nat} {roomId : String}
  {events : List (Gateway.Phase × SinkEvent)}

/-- **The ids so far**, and what is going to follow them. -/
structure Rising (id : Nat) (roomId : String) (events : List (Gateway.Phase × SinkEvent)) (s : StreamSystem) :
    Prop where
  sorted : (sseIds events).Pairwise (· ≤ ·)
  known : ∀ frame ∈ sseIds events, KnownIn s.log roomId frame
  room : ∀ sub, s.sub? id = some sub → sub.roomId = roomId
  jobs : ∀ job ∈ s.tick.jobs, id ∈ job.shows → job.Foreseen s.log roomId (sseIds events)

/-- A new `Tick` writes nothing by itself. -/
theorem Rising.tick (h : Rising id roomId events s) (nowMs : Int) :
    Rising id roomId events (s.next c (.tick nowMs)) where
  sorted := h.sorted
  known := h.known
  room sub' hsub' := by
    rw [sub?_tick, Option.map_eq_some_iff] at hsub'
    obtain ⟨sub, hsub, rfl⟩ := hsub'
    rw [Subscription.seen_roomId]
    exact h.room sub hsub
  jobs job hjob hshows := by
    rcases StreamHub.mem_jobs.mp hjob with ⟨target, htarget, rfl⟩ | ⟨room, hroom, rfl⟩ | ⟨_, -, rfl⟩ |
      ⟨_, -, rfl⟩
    · obtain rfl := List.mem_singleton.mp hshows
      refine .of_frames_nil h.sorted ?_ rfl
      rintro _ ⟨⟩
      obtain ⟨sub, hsub, -, heq⟩ := StreamHub.mem_needBackfill.mp htarget
      rw [heq]
      exact (Subscription.seen_roomId).trans (h.room sub hsub)
    · refine .of_frames_nil h.sorted ?_ rfl
      rintro _ ⟨⟩
      obtain ⟨sub, hsub, -, heq⟩ := (StreamHub.mem_room_sinks hroom).mp hshows
      exact heq.symm.trans (h.room sub hsub)
    all_goals cases hshows

/-- **One job.** -/
theorem Rising.job (h : Rising id roomId events s) (hawaited : Awaited id s) (hlogged : Logged id events s)
    {vars : TickState} {job : Job} {jobs : List Job} (htick : s.tick = .running vars (job :: jobs))
    {answer : Answer} (hbehind : s.ResetsBehind (.resumeTick answer))
    (hcontract : RoomContract (s.next c (.resumeTick answer)).log) :
    Rising id roomId (events ++ s.shown c id (.resumeTick answer)) (s.next c (.resumeTick answer)) := by
  have hjob := mem_jobs_head htick
  have honce : ((job :: jobs).flatMap Job.shows).Nodup := by
    have honce := hawaited.once
    rwa [htick] at honce
  have hnext := tick_job (c := c) htick answer
  have hlog : (s.next c (.resumeTick answer)).log = s.log ++ (job.run c answer s.hub vars).events :=
    log_job htick
  have hroom : ∀ sub, (s.next c (.resumeTick answer)).sub? id = some sub → sub.roomId = roomId := by
    simp only [sub?, next, resumeTick, htick, Job.run_subscriptions]
    exact h.room
  rw [hlog] at hcontract
  rw [shown_resumeTick htick (hawaited.pushes job hjob)]
  by_cases hshows : id ∈ job.shows
  · have hforeseen := h.jobs job hjob hshows
    have hbegins := job.sseIds_emits id answer vars.nowMs
    constructor
    · rw [sseIds_append]
      exact hforeseen.sorted.sublist (hbegins.sublist.append_left _)
    · rw [sseIds_append, hlog]
      intro frame hframe
      rcases List.mem_append.mp hframe with hold | hnew
      · exact (h.known frame hold).mono
      · exact (hforeseen.known frame (hbegins.subset hnew)).mono
    · exact hroom
    · intro job' hjob' hshows'
      rw [hnext] at hjob'
      rw [hlog, sseIds_append]
      rcases List.mem_append.mp hjob' with hmore | hold
      · refine hforeseen.more h.sorted h.known hcontract ?_ hmore hshows'
        rintro target sinceFrame range rfl hsince hrange hmalformed hready hsnapshots frame hframe
        obtain rfl := List.mem_singleton.mp hshows
        -- Whatever was written is a reset, and not to a later frame.
        obtain ⟨reason, payload, nowMs, ok, hmem, rfl⟩ :=
          hlogged.reset_of_unbegun (hawaited.backs _ hjob rfl rfl) hframe
        have hpast := hbehind target (by rw [htick]; rfl) sinceFrame hsince range hrange hmalformed hready
          hsnapshots _ hmem
        simp only [StreamEvent.resetsPast, decide_true, Bool.true_and, decide_eq_false_iff_not, not_lt]
          at hpast
        exact hpast
      · exact absurd hshows' (not_mem_shows honce hshows hold)
  · have hnone : sseIds (events ++ (job.emits id answer vars.nowMs).toList) = sseIds events := by
      rw [sseIds_append, Job.sseIds_emits_of_not_shows hshows, List.append_nil]
    constructor
    · rw [hnone]
      exact h.sorted
    · rw [hnone, hlog]
      exact fun frame hframe => (h.known frame hframe).mono
    · exact hroom
    · intro job' hjob' hshows'
      rw [hnext] at hjob'
      rw [hnone, hlog]
      rcases List.mem_append.mp hjob' with hmore | hold
      · exact absurd (Job.shows_of_more hmore hshows') hshows
      · exact (h.jobs job' (mem_jobs_tail htick hold) hshows').mono

/-- The end of a `Tick`. -/
theorem Rising.commit (h : Rising id roomId events s) {vars : TickState} (htick : s.tick = .running vars [])
    (answer : Answer) : Rising id roomId events (s.next c (.resumeTick answer)) where
  sorted := h.sorted
  known frame hframe := by
    simp only [next, resumeTick, htick]
    exact (h.known frame hframe).mono
  room sub' hsub' := by
    simp only [sub?, next, resumeTick, htick, StreamHub.lookup_commit] at hsub'
    split at hsub'
    · cases hsub'
    · obtain ⟨sub, hsub, rfl⟩ := Option.map_eq_some_iff.mp hsub'
      rw [Subscription.committed_roomId]
      exact h.room sub hsub
  jobs job hjob := by
    simp only [next, resumeTick, htick, TickPc.jobs] at hjob
    cases hjob

/-- Any other step. -/
theorem Rising.aside (h : Rising id roomId events s) (hsound : Sound s) (hlogged : Logged id events s)
    (haside : s.Aside c op) : ∃ roomId, Rising id roomId events (s.next c op) := by
  obtain ⟨more, hlog, -⟩ := log_next c s op
  by_cases hnew : s.hub.nextId ≤ id
  · -- The room of a subscription that is made now.
    refine ⟨((s.next c op).sub? id).elim "" (·.roomId), ?_⟩
    rw [hlogged.eq_nil hsound hnew]
    constructor
    · exact List.Pairwise.nil
    · exact fun _ hframe => by cases hframe
    · intro sub hsub
      rw [hsub]
      rfl
    · intro job hjob hshows
      rw [haside.jobs] at hjob
      exact absurd (hsound.jobs job hjob id (Job.mem_ids_of_shows hshows)) (not_lt.mpr hnew)
  · refine ⟨roomId, h.sorted, ?_, ?_, ?_⟩
    · rw [hlog]
      exact fun frame hframe => (h.known frame hframe).mono
    · intro sub' hsub'
      rcases haside.sub id sub' hsub' with hold | ⟨hid, -⟩
      · exact h.room sub' hold
      · exact absurd hid.ge hnew
    · intro job hjob hshows
      rw [haside.jobs] at hjob
      rw [hlog]
      exact (h.jobs job hjob hshows).mono

/-- **The ids keep going up.** -/
theorem Rising.step (h : Rising id roomId events s) (hsound : Sound s) (hawaited : Awaited id s)
    (hlogged : Logged id events s) (hstep : ResetsBehindStep c s op s') (hcontract : RoomContract s'.log) :
    ∃ roomId, Rising id roomId (events ++ s.shown c id op) s' := by
  obtain ⟨⟨hbehind, hseq⟩, rfl⟩ := hstep
  rcases next_cases c s op with ⟨nowMs, rfl⟩ | ⟨answer, vars, job, jobs, rfl, htick⟩ |
    ⟨answer, vars, rfl, htick⟩ | haside
  · rw [shown_of_not_job (fun _ _ _ _ hop => by cases hop), List.append_nil]
    exact ⟨roomId, h.tick nowMs⟩
  · exact ⟨roomId, h.job hawaited hlogged htick hbehind hcontract⟩
  · rw [shown_of_not_job (fun _ _ _ _ _ heq => by cases htick.symm.trans heq), List.append_nil]
    exact ⟨roomId, h.commit htick answer⟩
  · rw [shown_of_not_job haside.noJob, List.append_nil]
    exact h.aside hsound hlogged haside

end StreamSystem

end RealtimeGame.Gateway
