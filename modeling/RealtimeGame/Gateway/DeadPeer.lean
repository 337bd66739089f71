import RealtimeGame.Gateway.StreamTrace

/-!
# Gateway/DeadPeer — a peer that is gone is found by a failing write

Whoever stays registered over two heartbeat intervals is written to, unless its backfill is put off
again and again: a `Tick` that puts a backfill off puts the heartbeat off with it.  `found_iff` says so
of every run, where any other call may run between two jobs of a `Tick`.
-/

open Library

namespace RealtimeGame.Gateway

/-- The job does not get on with the backfill of this subscription. -/
def Job.PutOff (c : StreamConfig) (answer : Answer) (id : Nat) : Job → Prop
  | backfill target =>
    target.id = id → c.hasRoom = true → target.malformed = false → target.sinceFrame.isSome →
      ∀ range, answer.range = some range → range.status = .ready → range.snapshots = []
  | current target _ => target.id = id → answer.state = none
  | _ => True

namespace StreamSystem

variable (c : StreamConfig) (s : StreamSystem)

/-- The clock of `Tick` does not go back, and two `Tick`s are at most one interval apart. -/
def Timely : StreamOp → Prop
  | .tick nowMs => ∀ t ∈ s.lastTickMs, t ≤ nowMs ∧ nowMs - t ≤ c.heartbeatIntervalMs
  | _ => True

instance : DecidablePred (s.Timely c)
  | .tick nowMs => inferInstanceAs
      (Decidable (∀ t ∈ s.lastTickMs, t ≤ nowMs ∧ nowMs - t ≤ c.heartbeatIntervalMs))
  | .subscribe .. | .unsubscribe _ | .closeAll | .beginShutdown | .closeAllWithEvent _
  | .resumeTick _ | .resumeCall .. => .isTrue trivial

/-- One step of a run whose `Tick`s come in time. -/
def TimelyStep (s : StreamSystem) (op : StreamOp) (s' : StreamSystem) : Prop :=
  (s.Timely c op ∧ s.Sequential op) ∧ s' = s.next c op

/-- **A span of `Tick`s** — from a `Tick` at the time `first` to the end of one at the time `last`, two
intervals later or more; the subscription is registered all the time. -/
structure Span (s : StreamSystem) (ops : List StreamOp) (s' : StreamSystem) (id : Nat) : Prop where
  run : Run (TimelyStep c) s ops s'
  starts : ∃ first rest last, ops = .tick first :: rest ∧ s'.lastTickMs = some last ∧
    2 * c.heartbeatIntervalMs ≤ last - first
  ends : s'.Idle
  before : ∃ sub, s.sub? id = some sub
  after : ∃ sub, s'.sub? id = some sub

/-- **Dead peers are found** — in every span something is written to the sink; and where a write
failed, the subscription is removed by the end of the `Tick`. -/
def DeadPeersFound (ops : List StreamOp) : Prop :=
  (∀ pre mid post u v id, ops = pre ++ mid ++ post → Run (TimelyStep c) {} pre u → Span c u mid v id →
    v.WrittenSince u.log.length id) ∧
  ∀ pre post u, ops = pre ++ post → Run (TimelyStep c) {} pre u → u.Idle →
    ∀ id event, .write id event false ∈ u.log → u.sub? id = none

/-- The step finds no heartbeat of this subscription due, and does not get on with its backfill. -/
def Quiet (id : Nat) : StreamOp → Prop
  | .tick nowMs => ∀ sub, s.sub? id = some sub → sub.shouldBackfill = true ∧
      (sub.seen nowMs).heartbeatDue c.heartbeatIntervalMs nowMs = false
  | .resumeTick answer => ∀ vars job jobs, s.tick = .running vars (job :: jobs) →
      job.PutOff c answer id
  | .resumeCall call _ => ∀ reason rest, s.calls[call]? ≠ some (.writeClosed id reason :: rest)
  | _ => True

/-- In every span some step is not quiet: at some `Tick` the heartbeat is due, or Room's answers get on
with the backfill. -/
def NotPutOffForever (ops : List StreamOp) : Prop :=
  ∀ pre mid post u v id, ops = pre ++ mid ++ post → Run (TimelyStep c) {} pre u → Span c u mid v id →
    ∃ before op after m, mid = before ++ op :: after ∧ Run (TimelyStep c) u before m ∧
      ¬m.Quiet c id op

end StreamSystem

/-! ## The clock

The times of the `Tick`s do not go back, so that no heartbeat is later than the last one. -/

namespace StreamSystem

variable {c : StreamConfig} {s s' : StreamSystem} {op : StreamOp} {n id : Nat}

theorem lastTickMs_next (c : StreamConfig) (s : StreamSystem) (op : StreamOp) :
    (s.next c op).lastTickMs = s.lastTickMs ∨
      ∃ nowMs, op = .tick nowMs ∧ (s.next c op).lastTickMs = some nowMs := by
  rcases op with ⟨playerId, roomId, hasSink, options⟩ | id' | nowMs | - | - | reason | answer |
    ⟨call, answer⟩
  · simp only [next]
    split <;> exact .inl rfl
  · simp only [next]
    split <;> exact .inl rfl
  · exact .inr ⟨nowMs, rfl, rfl⟩
  · exact .inl rfl
  · exact .inl rfl
  · exact .inl rfl
  · simp only [next, resumeTick]
    split <;> exact .inl rfl
  · simp only [next, resumeCall]
    split <;> exact .inl rfl

/-- No heartbeat is later than the last `Tick`, once the subscription has taken part in one. -/
structure Clocked (s : StreamSystem) : Prop where
  running : ∀ vars jobs, s.tick = .running vars jobs → s.lastTickMs = some vars.nowMs
  heartbeat : ∀ id sub, s.sub? id = some sub → sub.createdMs ≠ 0 →
    ∃ t, s.lastTickMs = some t ∧ sub.lastHeartbeatMs ≤ t

theorem Clocked.start : Clocked {} where
  running _ _ h := by cases h
  heartbeat _ _ h := by cases h

theorem Clocked.step (h : Clocked s) (hstep : TimelyStep c s op s') : Clocked s' := by
  obtain ⟨⟨htimely, -⟩, rfl⟩ := hstep
  constructor
  · intro vars jobs htick
    rcases lastTickMs_next c s op with hlast | ⟨nowMs, rfl, hlast⟩
    · rw [hlast]
      rcases tick_next c s op with hsame | ⟨nowMs, rfl⟩ | ⟨answer, vars', job, jobs', rfl, hrunning⟩ |
        ⟨gone, hgone, -⟩
      · exact h.running vars jobs (hsame.symm.trans htick)
      · cases htick
        exact hlast.symm
      · simp only [next, resumeTick, hrunning] at htick
        cases htick
        rw [Job.run_nowMs]
        exact h.running vars' _ hrunning
      · cases hgone.symm.trans htick
    · cases htick
      exact hlast
  · -- A heartbeat that was in time stays so, as the clock does not go back.
    have hlater : ∀ m, (∃ t, s.lastTickMs = some t ∧ m ≤ t) →
        ∃ t, (s.next c op).lastTickMs = some t ∧ m ≤ t := by
      rintro m ⟨t, ht, hle⟩
      rcases lastTickMs_next c s op with hlast | ⟨nowMs, rfl, hlast⟩
      · exact ⟨t, hlast.trans ht, hle⟩
      · exact ⟨nowMs, hlast, Int.le_trans hle (htimely t ht).1⟩
    intro id sub' hsub' hcreated
    rcases sub?_next hsub' with hsame | ⟨nowMs, sub, rfl, hsub, rfl⟩ |
      ⟨answer, vars, sub, rfl, hrunning, -, hsub, rfl⟩ | ⟨-, -, hnew⟩
    · exact hlater _ (h.heartbeat id sub' hsame hcreated)
    · by_cases hfirst : sub.createdMs = 0
      · rw [Subscription.seen, if_pos hfirst]
        exact ⟨nowMs, rfl, Int.le_refl _⟩
      · rw [Subscription.seen, if_neg hfirst]
        exact hlater _ (h.heartbeat id sub hsub hfirst)
    · rw [Subscription.committed_createdMs] at hcreated
      apply hlater
      rcases sub.committed_lastHeartbeatMs vars id with heq | heq
      · rw [heq]
        exact h.heartbeat id sub hsub hcreated
      · exact ⟨vars.nowMs, h.running vars [] hrunning, Int.le_of_eq heq⟩
    · exact absurd hnew.1.1 hcreated

/-! ## What holds along a span

A span begins at one point of a run, where the log was `n` long; what matters is what was written behind
that. -/

/-- What is known of a subscription from the time on when the log was `n` long. -/
structure Along (n id : Nat) (s : StreamSystem) : Prop where
  sound : s.Sound
  clocked : s.Clocked
  traced : s.Traced n id
  length : n ≤ s.log.length
  handedOut : id < s.hub.nextId

theorem Along.step (h : s.Along n id) (hstep : TimelyStep c s op s') : s'.Along n id where
  sound := h.sound.step ⟨hstep.1.2, hstep.2⟩
  clocked := h.clocked.step hstep
  traced := h.traced.step h.length h.handedOut ⟨hstep.1.2, hstep.2⟩
  length := by
    obtain ⟨-, rfl⟩ := hstep
    obtain ⟨events, hlog, -⟩ := log_next c s op
    rw [hlog, List.length_append]
    exact h.length.trans (Nat.le_add_right _ _)
  handedOut := by
    obtain ⟨-, rfl⟩ := hstep
    exact h.handedOut.trans_le nextId_next

/-- A `Tick` writes to everyone who is live and not ready, or whose heartbeat is due. -/
theorem bound_or_not_due (n : Nat) {sub : Subscription} (hsub : s.sub? id = some sub)
    (nowMs : Int) : (s.next c (.tick nowMs)).Bound n id ∨
      (sub.seen nowMs).heartbeatDue c.heartbeatIntervalMs nowMs = false := by
  have hjobs : (s.next c (.tick nowMs)).tick.jobs = s.hub.jobs c nowMs := rfl
  by_cases hmode : (sub.seen nowMs).shouldBackfill = true ∨ (sub.seen nowMs).readySent = true
  · rcases hdue : (sub.seen nowMs).heartbeatDue c.heartbeatIntervalMs nowMs with - | -
    · exact .inr rfl
    · refine .inl (.inr ⟨.heartbeat id, ?_, rfl⟩)
      have hmem := StreamHub.mem_needHeartbeat.mpr ⟨sub, hsub, hmode, hdue⟩
      rw [hjobs]
      exact List.mem_append_right _ (List.mem_map_of_mem hmem)
  · simp only [not_or, Bool.not_eq_true] at hmode
    refine .inl (.inr ⟨.ready ⟨id, (sub.seen nowMs).playerId, (sub.seen nowMs).roomId⟩, ?_, rfl⟩)
    have hmem : ⟨id, (sub.seen nowMs).playerId, (sub.seen nowMs).roomId⟩ ∈ s.hub.needReady nowMs :=
      StreamHub.mem_needReady.mpr ⟨sub, hsub, hmode.1, hmode.2, rfl⟩
    rw [hjobs]
    exact List.mem_append_left _ (List.mem_append_right _ (List.mem_map_of_mem hmem))

/-- What was not backfilled stays to be backfilled. -/
theorem pending_next (h : s.Along n id) {sub' : Subscription}
    (hpending : ∀ sub, s.sub? id = some sub → sub.shouldBackfill = true)
    (hsub' : (s.next c op).sub? id = some sub') :
    s.WrittenSince n id ∨ sub'.shouldBackfill = true := by
  rcases sub?_next hsub' with hsame | ⟨nowMs, sub, -, hsub, rfl⟩ |
    ⟨answer, vars, sub, -, hrunning, -, hsub, rfl⟩ | ⟨heq, -⟩
  · exact .inr (hpending sub' hsame)
  · rw [Subscription.shouldBackfill_seen]
    exact .inr (hpending sub hsub)
  · by_cases hdone : id ∈ vars.backfilled.map (·.1)
    · exact .inl (h.traced.noted vars [] hrunning (.inr hdone))
    · rw [Subscription.shouldBackfill_committed hdone]
      exact .inr (hpending sub hsub)
  · exact absurd heq h.handedOut.ne

/-- Pending, for as long as nothing is about to be written. -/
def PendingOrBound (n id : Nat) (s : StreamSystem) : Prop :=
  s.Bound n id ∨ ∀ sub, s.sub? id = some sub → sub.shouldBackfill = true

theorem PendingOrBound.step (h : s.Along n id) (hp : s.PendingOrBound n id)
    (hstep : TimelyStep c s op s') : s'.PendingOrBound n id := by
  rcases hp with hbound | hpending
  · exact .inl (hbound.step h.length ⟨hstep.1.2, hstep.2⟩)
  · obtain ⟨-, rfl⟩ := hstep
    by_cases hwritten : s.WrittenSince n id
    · exact .inl (.inl (hwritten.next op))
    · exact .inr fun sub' hsub' => (pending_next h hpending hsub').resolve_left hwritten

/-- **A step that is not quiet leads to a write.** -/
theorem bound_of_not_quiet (h : s.Along n id) (hpending : s.PendingOrBound n id)
    (hstep : TimelyStep c s op s') (hquiet : ¬s.Quiet c id op) : s'.Bound n id := by
  rcases hpending with hbound | hpending
  · exact hbound.step h.length ⟨hstep.1.2, hstep.2⟩
  obtain ⟨-, rfl⟩ := hstep
  rcases op with _ | _ | nowMs | _ | _ | _ | answer | ⟨call, answer⟩
  case tick =>
    simp only [Quiet, not_forall] at hquiet
    obtain ⟨sub, hsub, hdue⟩ := hquiet
    refine (bound_or_not_due n hsub nowMs).resolve_right fun hnot => hdue ?_
    exact ⟨hpending sub hsub, hnot⟩
  case resumeTick =>
    simp only [Quiet, not_forall] at hquiet
    obtain ⟨vars, job, jobs, htick, hputOff⟩ := hquiet
    refine .inr ?_
    simp only [next, resumeTick, htick, TickPc.jobs]
    rcases job with target | ⟨target, reason⟩ | _ | _ | _ | _ | _ | _ | _ | _ | _ | _
    case backfill =>
      simp only [Job.PutOff, not_forall] at hputOff
      obtain ⟨rfl, hroom, hmalformed, hsince, range, hrange, hready, hsnapshots⟩ := hputOff
      obtain ⟨sinceFrame, hsince⟩ := Option.isSome_iff_exists.mp hsince
      obtain ⟨snapshot, rest, hsnapshots⟩ := List.exists_cons_of_ne_nil hsnapshots
      refine ⟨.frame target 0 snapshot rest, List.mem_append_left _ ?_, rfl⟩
      simp [Job.run, Job.afterRange, hroom, hmalformed, hsince, hrange, hready, hsnapshots]
    case current =>
      simp only [Job.PutOff, not_forall] at hputOff
      obtain ⟨rfl, hstate⟩ := hputOff
      obtain ⟨payload, hstate⟩ := Option.ne_none_iff_exists'.mp hstate
      refine ⟨.reset target reason payload, List.mem_append_left _ ?_, rfl⟩
      simp [Job.run, hstate]
    all_goals exact absurd trivial hputOff
  case resumeCall =>
    simp only [Quiet, not_forall, not_not] at hquiet
    obtain ⟨reason, rest, hcall⟩ := hquiet
    have hmem : StreamEvent.write id (.streamClosed reason answer.systemNowMs) answer.wrote ∈
        [StreamEvent.write id (.streamClosed reason answer.systemNowMs) answer.wrote] :=
      List.mem_singleton_self _
    refine .inl (writtenSince_of_mem h.length ?_ hmem)
    simp only [next, resumeCall, hcall, Call.run]
  all_goals exact (hquiet trivial).elim

/-! ## A live subscription

It is due for a heartbeat at some `Tick`, and then bound to be written to. -/

/-- A live subscription's heartbeat is not overdue in a span that starts at the time `first`. -/
def LiveSince (c : StreamConfig) (first : Int) (id : Nat) (s : StreamSystem) : Prop :=
  (∃ last, s.lastTickMs = some last ∧ last < first + 2 * c.heartbeatIntervalMs) ∧
  ∀ sub, s.sub? id = some sub → sub.shouldBackfill = false ∧
    (sub.createdMs = 0 → s.lastTickMs = some 0 ∧ first = 0) ∧
    (sub.createdMs ≠ 0 → sub.lastHeartbeatMs ≤ first + c.heartbeatIntervalMs)

/-- The first `Tick` of the span. -/
theorem LiveSince.first (h : s.Clocked) {sub : Subscription} (hsub : s.sub? id = some sub)
    (hlive : sub.shouldBackfill = false) {first : Int} (htimely : s.Timely c (.tick first)) (n : Nat) :
    (s.next c (.tick first)).Bound n id ∨ (s.next c (.tick first)).LiveSince c first id := by
  refine (bound_or_not_due n hsub first).imp_right fun hnot => ?_
  simp only [Subscription.heartbeatDue, decide_eq_false_iff_not] at hnot
  -- The heartbeat that counts in this `Tick` is not later than the `Tick`.
  have hle : (sub.seen first).lastHeartbeatMs ≤ first := by
    unfold Subscription.seen
    split
    case isTrue => exact Int.le_refl _
    case isFalse hcreated =>
      obtain ⟨t, ht, hle⟩ := h.heartbeat id sub hsub hcreated
      exact Int.le_trans hle (htimely t ht).1
  refine ⟨⟨first, rfl, by omega⟩, fun sub' hsub' => ?_⟩
  rw [sub?_tick, hsub] at hsub'
  obtain rfl : sub.seen first = sub' := Option.some.inj hsub'
  refine ⟨by rw [Subscription.shouldBackfill_seen]; exact hlive, fun hcreated => ?_,
    fun _ => by omega⟩
  unfold Subscription.seen at hcreated
  split at hcreated
  case isTrue =>
    obtain rfl : first = 0 := hcreated
    exact ⟨rfl, rfl⟩
  case isFalse hne => exact absurd hcreated hne

/-- A later `Tick` of the span. -/
theorem LiveSince.tick {first nowMs : Int} (h : s.LiveSince c first id) {sub : Subscription}
    (hsub : s.sub? id = some sub) (htimely : s.Timely c (.tick nowMs)) (n : Nat) :
    (s.next c (.tick nowMs)).Bound n id ∨ (s.next c (.tick nowMs)).LiveSince c first id := by
  refine (bound_or_not_due n hsub nowMs).imp_right fun hnot => ?_
  obtain ⟨⟨last, hlast, hlt⟩, hall⟩ := h
  obtain ⟨hlive, hnew, hold⟩ := hall sub hsub
  obtain ⟨hle, hgap⟩ := htimely last hlast
  simp only [Subscription.heartbeatDue, decide_eq_false_iff_not] at hnot
  have hsub' : ∀ sub', (s.next c (.tick nowMs)).sub? id = some sub' → sub.seen nowMs = sub' := by
    intro sub' hsub'
    rw [sub?_tick, hsub] at hsub'
    exact Option.some.inj hsub'
  by_cases hcreated : sub.createdMs = 0
  · -- It has only seen the time 0 so far.
    obtain ⟨hzero, rfl⟩ := hnew hcreated
    obtain rfl := Option.some.inj (hlast.symm.trans hzero)
    refine ⟨⟨nowMs, rfl, by omega⟩, fun sub' heq => ?_⟩
    rw [← hsub' sub' heq, Subscription.seen, if_pos hcreated]
    refine ⟨hlive, fun h => ⟨?_, rfl⟩, fun _ => ?_⟩
    · exact congrArg some h
    · change nowMs ≤ _
      omega
  · have hseen : sub.seen nowMs = sub := if_neg hcreated
    rw [hseen] at hnot hsub'
    have hbeat := hold hcreated
    refine ⟨⟨nowMs, rfl, by omega⟩, fun sub' heq => ?_⟩
    rw [← hsub' sub' heq]
    exact ⟨hlive, fun h => absurd h hcreated, hold⟩

/-- **A live subscription is written to, or its heartbeat is not overdue.** -/
theorem LiveSince.step {first : Int} (hl : s.LiveSince c first id) (h : s.Along n id)
    (hstep : TimelyStep c s op s') :
    s'.sub? id = none ∨ s'.Bound n id ∨ s'.LiveSince c first id := by
  rcases hgone : s'.sub? id with - | sub'
  · exact .inl rfl
  refine .inr ?_
  obtain ⟨⟨htimely, -⟩, rfl⟩ := hstep
  rcases lastTickMs_next c s op with hlast | ⟨nowMs, rfl, -⟩
  · rcases sub?_next hgone with hsame | ⟨nowMs, sub, rfl, hsub, -⟩ |
      ⟨answer, vars, sub, rfl, hrunning, -, hsub, rfl⟩ | ⟨heq, -⟩
    · refine .inr ⟨by rw [hlast]; exact hl.1, fun sub heq => ?_⟩
      obtain rfl := Option.some.inj (hgone.symm.trans heq)
      rw [hlast]
      exact hl.2 sub' hsame
    · exact hl.tick hsub htimely n
    · -- The last section of `Tick` changes nothing unless there was a write.
      by_cases hwritten : s.WrittenSince n id
      · exact .inl (.inl (hwritten.next _))
      have hjobs : s.tick.jobs = [] := by rw [hrunning]; rfl
      have hdone : id ∉ vars.backfilled.map (·.1) :=
        fun hmem => hwritten (h.traced.noted vars [] hrunning (.inr hmem))
      have hready : id ∉ vars.needReady.map (·.id) :=
        fun hmem => hwritten ((h.traced.due vars [] hrunning (.inl hmem)).written hjobs)
      have hbeat : id ∉ vars.needHeartbeat :=
        fun hmem => hwritten ((h.traced.due vars [] hrunning (.inr hmem)).written hjobs)
      have hkept : id ∉ vars.backfillPendingKept := by
        intro hmem
        have hshould := (h.traced.owed vars [] hrunning (.inl hmem)).resolve_left hwritten sub hsub
        rw [(hl.2 sub hsub).1] at hshould
        cases hshould
      refine .inr ⟨by rw [hlast]; exact hl.1, fun sub' heq => ?_⟩
      obtain rfl := Option.some.inj (hgone.symm.trans heq)
      rw [hlast, Subscription.shouldBackfill_committed hdone, Subscription.committed_createdMs,
        Subscription.committed_lastHeartbeatMs_of_not_mem hdone hkept hready hbeat]
      exact hl.2 sub hsub
    · exact absurd heq h.handedOut.ne
  · rcases hsub : s.sub? id with - | sub
    · cases (sub?_next_none h.handedOut hsub).symm.trans hgone
    · exact hl.tick hsub htimely n

/-! ## Quiet steps

A step that writes nothing to a subscription leaves it where it was. -/

/-- Nothing was written, and what this `Tick` has for the subscription waits for Room. -/
structure QuietSince (n id : Nat) (s : StreamSystem) : Prop where
  silent : ¬s.WrittenSince n id
  waits : ∀ job ∈ s.tick.jobs, id ∈ job.ids → job.waits = some id

theorem not_waits_of_writes {job : Job} (h : job.writes = some id) :
    id ∈ job.ids ∧ job.waits ≠ some id := by
  cases job
  case reset | frame | push | ready | heartbeat =>
    cases h
    exact ⟨List.mem_singleton_self _, fun h => by cases h⟩
  all_goals cases h

/-- A job that is put off leads to nothing but waiting. -/
theorem waits_of_putOff {job job' : Job} {answer : Answer} {nowMs : Int}
    (hputOff : job.PutOff c answer id) (hwaits : job.waits = some id)
    (hlead : job.Leads c answer nowMs job') : job'.waits = some id := by
  cases hlead
  case malformed | noFrames => exact hwaits
  case frames target range snapshot rest hroom hmalformed hsince hrange hready hsnapshots =>
    have hnil := hputOff (Option.some.inj hwaits) hroom hmalformed hsince range hrange hready
    cases hsnapshots.symm.trans hnil
  case current target payload reason hstate =>
    cases hstate.symm.trans (hputOff (Option.some.inj hwaits))
  all_goals cases hwaits

/-- In a quiet `Tick` a subscription has nothing to wait for but its backfill. -/
theorem waits_of_mem_jobs {nowMs : Int} (hquiet : s.Quiet c id (.tick nowMs)) {job : Job}
    (h : job ∈ s.hub.jobs c nowMs) (hid : id ∈ job.ids) : job.waits = some id := by
  have hlive : ∀ sub, s.sub? id = some sub → (sub.seen nowMs).shouldBackfill ≠ false := by
    intro sub hsub hlive
    rw [Subscription.shouldBackfill_seen, (hquiet sub hsub).1] at hlive
    cases hlive
  rcases StreamHub.mem_jobs.mp h with ⟨target, htarget, rfl⟩ | ⟨room, hroom, rfl⟩ |
    ⟨target, htarget, rfl⟩ | ⟨id', hid', rfl⟩
  · exact congrArg some (List.mem_singleton.mp hid).symm
  · obtain ⟨sub, hsub, hfalse⟩ := StreamHub.mem_sinks.mp ⟨room, hroom, hid⟩
    exact absurd hfalse (hlive sub hsub)
  · obtain rfl := List.mem_singleton.mp hid
    obtain ⟨sub, hsub, hfalse, -⟩ := StreamHub.mem_needReady.mp htarget
    exact absurd hfalse (hlive sub hsub)
  · obtain rfl := List.mem_singleton.mp hid
    obtain ⟨sub, hsub, -, hdue⟩ := StreamHub.mem_needHeartbeat.mp hid'
    cases (hquiet sub hsub).2.symm.trans hdue

/-- **A quiet step writes nothing.** -/
theorem QuietSince.step (h : s.QuietSince n id) (hn : n ≤ s.log.length) (hquiet : s.Quiet c id op)
    (hstep : TimelyStep c s op s') : s'.QuietSince n id := by
  obtain ⟨-, rfl⟩ := hstep
  constructor
  · rintro ⟨event, ok, hmem⟩
    obtain ⟨events, hlog, hevents⟩ := log_next c s op
    rw [hlog, List.drop_append_of_le_length hn, List.mem_append] at hmem
    have hnew := hmem.resolve_left fun hold => h.silent ⟨event, ok, hold⟩
    rcases hevents _ hnew id rfl with ⟨answer, vars, job, jobs, rfl, htick, hnew⟩ |
      ⟨call, answer, reason, rest, rfl, hcall, -⟩
    · obtain ⟨hid, hwaits⟩ := not_waits_of_writes (Job.writes_of_mem hnew).1
      exact hwaits (h.waits job (mem_jobs_head htick) hid)
    · exact hquiet reason rest hcall
  · intro job hjob hid
    rcases tick_next c s op with hsame | ⟨nowMs, rfl⟩ | ⟨answer, vars, first, jobs, rfl, htick⟩ |
      ⟨gone, hgone, -⟩
    · rw [hsame] at hjob
      exact h.waits job hjob hid
    · exact waits_of_mem_jobs hquiet hjob hid
    · simp only [next, resumeTick, htick] at hjob
      rcases List.mem_append.mp hjob with hmore | hold
      · have hlead := Job.leads_of_more hmore
        have hwaits := h.waits first (mem_jobs_head htick) (hlead.ids hid)
        exact waits_of_putOff (hquiet vars first jobs htick) hwaits hlead
      · exact h.waits job (mem_jobs_tail htick hold) hid
    · rw [hgone] at hjob
      cases hjob

/-! ## Every span

The two cases, pending and live, over a run. -/

/-- What is known at the start of a span. -/
theorem Along.start {ops : List StreamOp} (hrun : Run (TimelyStep c) {} ops s) (hidle : s.Idle)
    {sub : Subscription} (hsub : s.sub? id = some sub) : s.Along s.log.length id := by
  obtain ⟨hsound, hclocked⟩ := hrun.invariant (I := fun s => s.Sound ∧ s.Clocked)
    (fun _ _ _ hs hstep => ⟨hs.1.step ⟨hstep.1.2, hstep.2⟩, hs.2.step hstep⟩) ⟨.start, .start⟩
  exact ⟨hsound, hclocked, .of_idle hidle, le_rfl, hsound.registered id sub hsub⟩

theorem Along.of_run {ops : List StreamOp} (h : s.Along n id) (hrun : Run (TimelyStep c) s ops s') :
    s'.Along n id :=
  hrun.invariant (fun _ _ _ hs hstep => hs.step hstep) h

/-- Gone stays gone. -/
theorem Along.gone {ops : List StreamOp} (h : s.Along n id) (hnone : s.sub? id = none)
    (hrun : Run (TimelyStep c) s ops s') : s'.sub? id = none := by
  refine (hrun.invariant (I := fun s => s.Along n id ∧ s.sub? id = none) ?_ ⟨h, hnone⟩).2
  rintro s op s' ⟨h, hnone⟩ hstep
  refine ⟨h.step hstep, ?_⟩
  obtain ⟨-, rfl⟩ := hstep
  exact sub?_next_none h.handedOut hnone

theorem Bound.of_run {ops : List StreamOp} (h : s.Along n id) (hbound : s.Bound n id)
    (hrun : Run (TimelyStep c) s ops s') : s'.Bound n id :=
  (hrun.invariant (I := fun s => s.Along n id ∧ s.Bound n id) (fun _ _ _ hs hstep =>
    ⟨hs.1.step hstep, hs.2.step hs.1.length ⟨hstep.1.2, hstep.2⟩⟩) ⟨h, hbound⟩).2

theorem PendingOrBound.of_run {ops : List StreamOp} (h : s.Along n id) (hp : s.PendingOrBound n id)
    (hrun : Run (TimelyStep c) s ops s') : s'.PendingOrBound n id :=
  (hrun.invariant (I := fun s => s.Along n id ∧ s.PendingOrBound n id) (fun _ _ _ hs hstep =>
    ⟨hs.1.step hstep, hs.2.step hs.1 hstep⟩) ⟨h, hp⟩).2

/-- **Live** — in every span, whatever Room answers. -/
theorem Span.written_of_live {ops : List StreamOp} (hspan : Span c s ops s' id)
    (h : s.Along n id) {sub : Subscription} (hsub : s.sub? id = some sub)
    (hlive : sub.shouldBackfill = false) : s'.WrittenSince n id := by
  obtain ⟨first, rest, last, rfl, hlast, hlong⟩ := hspan.starts
  obtain ⟨m, hstep, hrest⟩ := Run.cons_iff.mp hspan.run
  obtain ⟨sub', hsub'⟩ := hspan.after
  have hm : m.Bound n id ∨ m.LiveSince c first id := by
    obtain ⟨⟨htimely, -⟩, rfl⟩ := hstep
    exact LiveSince.first h.clocked hsub hlive htimely n
  have hend : s'.sub? id = none ∨ s'.Bound n id ∨ s'.LiveSince c first id := by
    refine (hrest.invariant (I := fun s => s.Along n id ∧
      (s.sub? id = none ∨ s.Bound n id ∨ s.LiveSince c first id)) ?_ ⟨h.step hstep, .inr hm⟩).2
    rintro t op t' ⟨ht, hcases⟩ hstep
    refine ⟨ht.step hstep, ?_⟩
    rcases hcases with hnone | hbound | hlive
    · exact .inl (ht.gone hnone (.single hstep))
    · exact .inr (.inl (hbound.of_run ht (.single hstep)))
    · exact hlive.step ht hstep
  rcases hend with hnone | hbound | ⟨⟨last', hlast', hlt⟩, -⟩
  · cases hnone.symm.trans hsub'
  · exact hbound.written (by rw [show s'.tick = .reporting [] from hspan.ends]; rfl)
  · obtain rfl := Option.some.inj (hlast.symm.trans hlast')
    omega

/-- **Pending** — in every span with a step that is not quiet. -/
theorem Span.written_of_pending {ops : List StreamOp} (hspan : Span c s ops s' id)
    (h : s.Along n id) (hpending : s.PendingOrBound n id)
    (hstep : ∃ before op after m, ops = before ++ op :: after ∧ Run (TimelyStep c) s before m ∧
      ¬m.Quiet c id op) : s'.WrittenSince n id := by
  obtain ⟨before, op, after, m, rfl, hbefore, hquiet⟩ := hstep
  obtain ⟨m', hm', hrest⟩ := Run.append_iff.mp hspan.run
  obtain rfl := hm'.unique (fun _ _ _ _ hs hs' => hs.2.trans hs'.2.symm) hbefore
  obtain ⟨m'', hstep, hafter⟩ := Run.cons_iff.mp hrest
  have hm := h.of_run hbefore
  have hbound := bound_of_not_quiet hm (hpending.of_run h hbefore) hstep hquiet
  refine (hbound.of_run (hm.step hstep) hafter).written ?_
  rw [show s'.tick = .reporting [] from hspan.ends]
  rfl

/-- Writes that fail are noted in every run. -/
theorem FailuresNoted.of_run {ops : List StreamOp} (hrun : Run (TimelyStep c) {} ops s) :
    s.FailuresNoted :=
  (hrun.invariant (I := fun s => s.Sound ∧ s.FailuresNoted) (fun _ _ _ hs hstep =>
    ⟨hs.1.step ⟨hstep.1.2, hstep.2⟩, hs.2.step hs.1 ⟨hstep.1.2, hstep.2⟩⟩)
    ⟨.start, fun _ _ hmem => by cases hmem⟩).2

/-- **Dead peers are found in exactly the runs in which no backfill is put off for a whole span.** -/
theorem deadPeersFound_iff (c : StreamConfig) (ops : List StreamOp) :
    DeadPeersFound c ops ↔ NotPutOffForever c ops := by
  constructor
  · rintro ⟨hfound, -⟩ pre mid post u v id hops hpre hspan
    by_contra hquiet
    have hguard : ∀ before op after m, mid = before ++ op :: after →
        Run (TimelyStep c) u before m → m.Quiet c id op := by
      intro before op after m hmid hbefore
      by_contra hnot
      exact hquiet ⟨before, op, after, m, hmid, hbefore, hnot⟩
    obtain ⟨first, rest, last, rfl, -⟩ := hspan.starts
    obtain ⟨m, ⟨⟨-, hidle⟩, -⟩, -⟩ := Run.cons_iff.mp hspan.run
    obtain ⟨sub, hsub⟩ := hspan.before
    have hstart : u.QuietSince u.log.length id := by
      constructor
      · rintro ⟨event, ok, hmem⟩
        rw [List.drop_length] at hmem
        cases hmem
      · intro job hjob
        rw [show u.tick = .reporting [] from hidle] at hjob
        cases hjob
    have hend := hspan.run.invariant_of_guard
      (I := fun s => s.Along u.log.length id ∧ s.QuietSince u.log.length id)
      (fun _ _ _ hs hq hstep => ⟨hs.1.step hstep, hs.2.step hs.1.length hq hstep⟩) hguard
      ⟨.start hpre hidle hsub, hstart⟩
    exact hend.2.silent (hfound pre _ post u v id hops hpre hspan)
  · intro hgetsOn
    refine ⟨fun pre mid post u v id hops hpre hspan => ?_,
      fun pre post u _ hpre hidle id event hmem => ?_⟩
    · obtain ⟨first, rest, last, rfl, -⟩ := hspan.starts
      obtain ⟨m, ⟨⟨-, hidle⟩, -⟩, -⟩ := Run.cons_iff.mp hspan.run
      obtain ⟨sub, hsub⟩ := hspan.before
      have h : u.Along u.log.length id := .start hpre hidle hsub
      rcases hmode : sub.shouldBackfill with - | -
      · exact hspan.written_of_live h hsub hmode
      · refine hspan.written_of_pending h (.inr fun sub' hsub' => ?_)
          (hgetsOn pre _ post u v id hops hpre hspan)
        obtain rfl := Option.some.inj (hsub.symm.trans hsub')
        exact hmode
    · refine (FailuresNoted.of_run hpre id event hmem).resolve_right ?_
      rintro ⟨vars, jobs, htick, -⟩
      cases hidle.symm.trans htick

/-- A subscription with a `Last-Event-ID`; Room does not answer in any of four `Tick`s. -/
def roomUnavailable : List StreamOp :=
  [.subscribe "alice" "r-1" true { lastEventId := some 5 }, .resumeCall 0 {}, .resumeCall 0 {}] ++
    [1000, 11000, 21000, 31000].flatMap fun nowMs => [.tick nowMs, .resumeTick {}, .resumeTick {}]

/-- The system before the first of the `Tick`s… -/
def beforeTicks : StreamSystem := (roomUnavailable.take 3).foldl (next {}) {}

/-- …and after the last one. -/
def afterTicks : StreamSystem := (roomUnavailable.drop 3).foldl (next {}) beforeTicks

/-- Nothing is written for two intervals, although no two `Tick`s are one interval apart. -/
theorem not_deadPeersFound : ¬∀ c ops, DeadPeersFound c ops := by
  intro h
  have hpre : Run (TimelyStep {}) {} (roomUnavailable.take 3) beforeTicks :=
    Run.of_guarded (by decide)
  have hspan : Span {} beforeTicks (roomUnavailable.drop 3) afterTicks 1 :=
    { run := Run.of_guarded (by decide)
      starts := ⟨1000, _, 31000, rfl, by decide, by decide⟩
      ends := by unfold Idle; decide
      before := ⟨_, rfl⟩
      after := ⟨_, rfl⟩ }
  have hlog : afterTicks.log.drop beforeTicks.log.length =
      List.replicate 4 (.getSnapshotsSince 1 "r-1" 5 "room:r-1" none) := by decide
  obtain ⟨event, ok, hmem⟩ := (h {} roomUnavailable).1 (roomUnavailable.take 3) _ [] _ _ 1
    (by rw [List.append_nil, List.take_append_drop]) hpre hspan
  rw [hlog] at hmem
  cases List.eq_of_mem_replicate hmem

end StreamSystem

end RealtimeGame.Gateway
