import RealtimeGame.Gateway.Pushed

/-!
# Gateway/Shown — what the table notes was shown, job by job

A `Tick` pushes a state to the live subscriptions of a room unless the table says that it was pushed.  A
backfill writes to one subscription only and notes the state for all, so that the others miss it, unless
they were shown it before.  Here is what one job keeps where they were.
-/

open Library

namespace RealtimeGame.Gateway

/-- The snapshot that an event shows. -/
def SinkEvent.snapshot? : SinkEvent → Option RoomSnapshot
  | roomState snapshot _ | roomFinished snapshot _ | streamReset _ snapshot _ => some snapshot
  | _ => none

/-- The signature of what a call shows to this subscription. -/
def StreamEvent.shows (id : Nat) : StreamEvent → Option String
  | write id' event ok => if id' = id ∧ ok = true then event.snapshot?.map stateSignature else none
  | _ => none

/-- Room answered with this snapshot as the room's state, or as the last of its missing frames. -/
def Answered (events : List StreamEvent) (roomId : String) (snapshot : RoomSnapshot) : Prop :=
  (∃ requestId, .getState roomId requestId (some snapshot) ∈ events) ∨
  ∃ id sinceFrame requestId range,
    .getSnapshotsSince id roomId sinceFrame requestId (some range) ∈ events ∧
    range.status = .ready ∧ range.snapshots.getLast? = some snapshot

/-- Answers are not forgotten. -/
theorem Answered.mono {events more : List StreamEvent} {roomId : String}
    {snapshot : RoomSnapshot} (h : Answered events roomId snapshot) :
    Answered (events ++ more) roomId snapshot := by
  rcases h with ⟨requestId, hmem⟩ | ⟨id, sinceFrame, requestId, range, hmem, hready, hlast⟩
  · exact .inl ⟨requestId, List.mem_append_left _ hmem⟩
  · exact .inr ⟨id, sinceFrame, requestId, range, List.mem_append_left _ hmem, hready, hlast⟩

/-- There was one state a room. -/
def Consistent (events : List StreamEvent) : Prop :=
  ∀ roomId a b, Answered events roomId a → Answered events roomId b → a = b

/-- The state that a backfill leaves noted for its room when this job is its last. -/
def Job.leaves (answer : Answer) (hub : StreamHub) : Job → Option (BackfillTarget × String)
  | resetPushed target _ payload _ =>
    if payload.terminal then none else some (target, stateSignature payload)
  | framePushed target _ snapshot [] =>
    if snapshot.terminal then none else some (target, stateSignature snapshot)
  | frame target (_ + 1) _ _ =>
    if answer.wrote then none else (hub.lastPushedState.lookup target.roomId).map (target, ·)
  | _ => none

/-- The variables of the `Tick` on its way, and its next job. -/
def TickPc.head? : TickPc → Option (TickState × Job)
  | running vars (job :: _) => some (vars, job)
  | _ => none

namespace StreamSystem

variable (c : StreamConfig) (s : StreamSystem)

/-- The signature of what this subscription was shown last. -/
def lastShown (id : Nat) : Option String := (s.log.filterMap (·.shows id)).getLast?

/-- **A backfill leaves nobody behind** — the state that it leaves noted was shown before to every other
subscription of the room that is live, or was backfilled in this `Tick`, and whose sink has not failed. -/
def LeavesShown : StreamOp → Prop
  | .resumeTick answer => ∀ e ∈ s.tick.head?, ∀ left ∈ e.2.leaves answer s.hub,
      ∀ p ∈ s.hub.subscriptions.toPairs, p.2.roomId = left.1.roomId → p.1 ≠ left.1.id →
      (p.2.shouldBackfill = false ∨ p.1 ∈ e.1.backfilled.map (·.1)) → p.1 ∉ e.1.failed →
      s.lastShown p.1 = some left.2
  | _ => True

instance : DecidablePred s.LeavesShown
  | .resumeTick answer => inferInstanceAs (Decidable (∀ e ∈ s.tick.head?,
      ∀ left ∈ e.2.leaves answer s.hub,
      ∀ p ∈ s.hub.subscriptions.toPairs, p.2.roomId = left.1.roomId → p.1 ≠ left.1.id →
      (p.2.shouldBackfill = false ∨ p.1 ∈ e.1.backfilled.map (·.1)) → p.1 ∉ e.1.failed →
      s.lastShown p.1 = some left.2))
  | .subscribe .. | .unsubscribe _ | .tick _ | .closeAll | .beginShutdown | .closeAllWithEvent _
  | .resumeCall .. => .isTrue trivial

end StreamSystem

/-! ## The order of the jobs

Backfills stand before the polls of the rooms, and a poll before what it leads to. -/

@[simp] theorem snapshot?_frameEvent (snapshot : RoomSnapshot) (nowMs : Int) :
    (frameEvent snapshot nowMs).snapshot? = some snapshot := by
  unfold frameEvent
  split <;> rfl

namespace Job

variable {c : StreamConfig} {answer : Answer} {hub : StreamHub} {t : TickState} {id : Nat}

/-- Whom a job shows a snapshot to, where the write succeeds. -/
def shown : Job → Option (Nat × RoomSnapshot)
  | reset target _ payload => some (target.id, payload)
  | frame target _ snapshot _ => some (target.id, snapshot)
  | push id event _ => event.snapshot?.map (id, ·)
  | _ => none

/-- The job pushes an event. -/
def isPush : Job → Bool
  | push .. => true
  | _ => false

/-- A job that waits for those before it; any other job is the next one. -/
def waiting : Job → Bool
  | backfill _ | countPoll _ | push .. | ready _ | heartbeat _ => true
  | _ => false

/-- The room of a backfill that has written something, and goes on. -/
def midway : Job → Option String
  | resetPushed target .. | frame target (_ + 1) .. | framePushed target .. => some target.roomId
  | _ => none

/-- The room that is about to be told the state that Room has answered with. -/
def pending : Job → Option String
  | reset target .. | resetPushed target .. => some target.roomId
  | compare room _ => some room.roomId
  | _ => none

/-- Backfills come first, and the pushes of one poll come before everything else. -/
def Before (a b : Job) : Prop :=
  b.waiting = true ∧ (b.backs.isSome = true → a.backs.isSome = true) ∧
    (b.isPush = true → a.isPush = true)

/-- A backfill that has written something does not wait. -/
theorem midway_of_waiting {job : Job} (h : job.waiting = true) : job.midway = none := by
  cases job
  case resetPushed | frame | framePushed => cases h
  all_goals rfl

theorem filterMap_shows (job : Job) :
    (job.run c answer hub t).events.filterMap (·.shows id) =
      match job.shown with
      | some (id', snapshot) =>
        if id' = id ∧ answer.wrote = true then [stateSignature snapshot] else []
      | none => [] := by
  cases job
  case backfill target =>
    simp only [run, shown]
    split_ifs
    · rfl
    · rfl
    · rcases target.sinceFrame with - | sinceFrame <;> rfl
  case reset target reason payload =>
    by_cases h : target.id = id ∧ answer.wrote = true <;>
      simp [run, shown, StreamEvent.shows, SinkEvent.snapshot?, h]
  case frame target written snapshot rest =>
    by_cases h : target.id = id ∧ answer.wrote = true <;>
      simp [run, shown, StreamEvent.shows, h]
  case push id' event closes =>
    rcases hevent : event.snapshot? with - | snapshot
    · by_cases h : id' = id ∧ answer.wrote = true <;>
        simp [run, shown, StreamEvent.shows, h, hevent]
    · by_cases h : id' = id ∧ answer.wrote = true <;>
        simp [run, shown, StreamEvent.shows, h, hevent]
  case ready | heartbeat =>
    simp [run, shown, StreamEvent.shows, SinkEvent.snapshot?]
  all_goals rfl

theorem Leads.backs {nowMs : Int} {job job' : Job} (h : job.Leads c answer nowMs job')
    (hid : job.backs = some id) : job'.backs = some id := by
  cases h
  case countPoll | poll | compare => cases hid
  all_goals exact hid

variable (c answer hub t) in
/-- A job leads to one job, or to the pushes of a poll. -/
theorem more_cases (job : Job) : (job.run c answer hub t).more.length ≤ 1 ∨
    ∀ job' ∈ (job.run c answer hub t).more, job'.isPush = true := by
  cases job
  case backfill target =>
    simp only [run]
    split_ifs
    · exact .inl (Nat.zero_le 1)
    · exact .inl le_rfl
    · rcases target.sinceFrame with - | sinceFrame
      · exact .inl (Nat.zero_le 1)
      rcases answer.range with - | range
      · exact .inl (Nat.zero_le 1)
      · simp only [afterRange]
        split <;> exact .inl le_rfl
  case current | poll =>
    simp only [run]
    rcases answer.state with - | payload
    · exact .inl (Nat.zero_le 1)
    · exact .inl le_rfl
  case frame | countPoll =>
    simp only [run]
    split
    · exact .inl le_rfl
    · exact .inl (Nat.zero_le 1)
  case framePushed target written snapshot rest =>
    rcases rest with - | ⟨next, rest⟩
    · exact .inl (Nat.zero_le 1)
    · exact .inl le_rfl
  case compare room snapshot =>
    right
    intro job' hjob'
    simp only [run] at hjob'
    split at hjob'
    · obtain ⟨_, -, rfl⟩ := List.mem_map.mp hjob'
      rfl
    · cases hjob'
  case reset => exact .inl le_rfl
  all_goals exact .inl (Nat.zero_le 1)

/-- The order is kept by every job. -/
theorem pairwise_more {job : Job} {jobs : List Job} (h : (job :: jobs).Pairwise Before) :
    ((job.run c answer hub t).more ++ jobs).Pairwise Before := by
  obtain ⟨hhead, htail⟩ := List.pairwise_cons.mp h
  refine List.pairwise_append.mpr ⟨?_, htail, fun a ha b hb => ?_⟩
  · rcases job.more_cases c answer hub t with hlength | hpush
    · rcases hmore : (job.run c answer hub t).more with - | ⟨a, - | ⟨b, rest⟩⟩
      · exact .nil
      · exact List.pairwise_singleton _ _
      · rw [hmore] at hlength
        exact absurd hlength (by simp)
    · refine List.pairwise_of_forall_mem_list fun a ha b hb => ?_
      have hbpush := hpush b hb
      cases b
      case push => exact ⟨rfl, fun hbacks => (by cases hbacks), fun _ => hpush a ha⟩
      all_goals cases hbpush
  · obtain ⟨hwaiting, hbacks, hpush⟩ := hhead b hb
    have hleads := leads_of_more ha
    refine ⟨hwaiting, fun hb => ?_, fun hb => ?_⟩
    · obtain ⟨id, hid⟩ := Option.isSome_iff_exists.mp (hbacks hb)
      rw [hleads.backs hid]
      rfl
    · have hjob := hpush hb
      cases hleads <;> cases hjob

end Job

/-! ## What holds during a `Tick`

For each room: the table and the sinks agree, or a job that is left brings them together. -/

namespace StreamSystem

variable {c : StreamConfig} {s s' : StreamSystem} {op : StreamOp} {n id : Nat} {vars : TickState}
  {job : Job} {jobs : List Job} {answer : Answer} {roomId : String} {snapshot : RoomSnapshot}

/-- A backfill is for a pending subscription of its room, and was not done in this `Tick`. -/
def TargetOk (s : StreamSystem) (vars : TickState) (target : BackfillTarget) : Prop :=
  target.id ∉ vars.backfilled.map (·.1) ∧
    ∃ sub, s.sub? target.id = some sub ∧ sub.roomId = target.roomId ∧ sub.shouldBackfill = true

/-- The sinks of a poll are the live subscriptions of its room. -/
def SinksOk (s : StreamSystem) (room : RoomPoll) : Prop :=
  ∀ id, id ∈ room.sinks ↔
    ∃ sub, s.sub? id = some sub ∧ sub.shouldBackfill = false ∧ sub.roomId = room.roomId

/-- What a job knows: whom it is for, what Room has answered, and what was written already. -/
def JobOk (s : StreamSystem) (n : Nat) (vars : TickState) : Job → Prop
  | .backfill target | .current target _ => s.TargetOk vars target
  | .reset target _ payload =>
    s.TargetOk vars target ∧ Answered (s.log.drop n) target.roomId payload
  | .resetPushed target _ payload ok =>
    s.TargetOk vars target ∧ Answered (s.log.drop n) target.roomId payload ∧
      (ok = true → s.lastShown target.id = some (stateSignature payload))
  | .frame target _ snapshot rest =>
    s.TargetOk vars target ∧ ∃ last, (snapshot :: rest).getLast? = some last ∧
      Answered (s.log.drop n) target.roomId last
  | .framePushed target _ snapshot rest =>
    s.TargetOk vars target ∧ (∃ last, (snapshot :: rest).getLast? = some last ∧
      Answered (s.log.drop n) target.roomId last) ∧
      s.lastShown target.id = some (stateSignature snapshot)
  | .countPoll room | .poll room => s.SinksOk room
  | .compare room snapshot =>
    s.SinksOk room ∧ ∃ requestId, .getState room.roomId requestId (some snapshot) ∈ s.log.drop n
  | .push id event closes =>
    ∃ snapshot nowMs sub, event = frameEvent snapshot nowMs ∧ closes = snapshot.terminal ∧
      s.sub? id = some sub ∧ sub.shouldBackfill = false ∧
      Answered (s.log.drop n) sub.roomId snapshot ∧
      (closes = false → s.hub.lastPushedState.lookup sub.roomId = some (stateSignature snapshot))
  | .ready _ | .heartbeat _ => True

/-- A live subscription of a room whose sink has not failed. -/
def HearsLive (s : StreamSystem) (vars : TickState) (roomId : String) (id : Nat) : Prop :=
  id ∉ vars.failed ∧
    ∃ sub, s.sub? id = some sub ∧ sub.roomId = roomId ∧ sub.shouldBackfill = false

/-- …or one that was backfilled in this `Tick`, and will be live after it. -/
def Hears (s : StreamSystem) (vars : TickState) (roomId : String) (id : Nat) : Prop :=
  id ∉ vars.failed ∧ ∃ sub, s.sub? id = some sub ∧ sub.roomId = roomId ∧
    (sub.shouldBackfill = false ∨ id ∈ vars.backfilled.map (·.1))

theorem HearsLive.hears (h : s.HearsLive vars roomId id) : s.Hears vars roomId id := by
  obtain ⟨hfailed, sub, hsub, hroom, hlive⟩ := h
  exact ⟨hfailed, sub, hsub, hroom, .inl hlive⟩

/-- **What holds during a `Tick`** that started after the first `n` calls: what the table says was
pushed was shown to whoever hears of the room, or is about to be. -/
structure During (n : Nat) (vars : TickState) (jobs : List Job) (s : StreamSystem) : Prop where
  tick : s.tick = .running vars jobs
  length : n ≤ s.log.length
  consistent : Consistent (s.log.drop n)
  order : jobs.Pairwise Job.Before
  nodup : (jobs.filterMap Job.backs).Nodup
  ok : ∀ job ∈ jobs, s.JobOk n vars job
  done : ∀ id ∈ vars.backfilled.map (·.1), ∀ sub, s.sub? id = some sub →
    sub.shouldBackfill = true ∧ ∃ snapshot, Answered (s.log.drop n) sub.roomId snapshot ∧
      s.lastShown id = some (stateSignature snapshot)
  noted : ∀ roomId snapshot,
    s.hub.lastPushedState.lookup roomId = some (stateSignature snapshot) →
    snapshot.terminal = false → ∀ id, s.Hears vars roomId id →
    s.lastShown id = some (stateSignature snapshot) ∨
      (∃ event closes, .push id event closes ∈ jobs) ∨ ∃ job ∈ jobs, job.midway = some roomId
  answered : ∀ roomId requestId snapshot,
    .getState roomId requestId (some snapshot) ∈ s.log.drop n → snapshot.terminal = false →
    ∀ id, s.HearsLive vars roomId id → s.lastShown id = some (stateSignature snapshot) ∨
      (∃ event closes, .push id event closes ∈ jobs) ∨ ∃ job ∈ jobs, job.pending = some roomId

/-! ## One job

What it shows, what it notes, and whom it leaves out. -/

theorem lastShown_job (htick : s.tick = .running vars (job :: jobs)) :
    (s.next c (.resumeTick answer)).lastShown id =
      match job.shown with
      | some (id', snapshot) =>
        if id' = id ∧ answer.wrote = true then some (stateSignature snapshot) else s.lastShown id
      | none => s.lastShown id := by
  rw [next_job htick]
  simp only [lastShown, List.filterMap_append, Job.filterMap_shows]
  rcases job.shown with - | ⟨id', snapshot⟩
  · simp
  · dsimp only
    split
    · simp
    · simp

theorem drop_job (h : During n vars (job :: jobs) s) : (s.next c (.resumeTick answer)).log.drop n =
    s.log.drop n ++ (job.run c answer s.hub vars).events := by
  rw [next_job h.tick, List.drop_append_of_le_length h.length]

/-- A job shows nothing to whoever hears of a room, unless it pushes. -/
theorem lastShown_hears (h : During n vars (job :: jobs) s) (hpush : job.isPush = false)
    (hid : s.Hears vars roomId id) : (s.next c (.resumeTick answer)).lastShown id = s.lastShown id := by
  have hok := h.ok job List.mem_cons_self
  have htarget : ∀ {target : BackfillTarget}, s.TargetOk vars target → target.id ≠ id := by
    rintro target ⟨hnot, sub, hsub, -, hshould⟩ rfl
    obtain ⟨-, sub', hsub', -, hlive | hmem⟩ := hid
    · obtain rfl := Option.some.inj (hsub.symm.trans hsub')
      cases hlive.symm.trans hshould
    · exact hnot hmem
  rw [lastShown_job h.tick]
  cases job
  case reset target reason payload =>
    exact if_neg fun heq => htarget hok.1 heq.1
  case frame target written snapshot rest =>
    exact if_neg fun heq => htarget hok.1 heq.1
  case push => cases hpush
  all_goals rfl

/-- Whoever hears of a room did so before, unless this job ends its backfill. -/
theorem hears_of_next (htick : s.tick = .running vars (job :: jobs))
    (h : (s.next c (.resumeTick answer)).Hears (job.run c answer s.hub vars).vars roomId id) :
    s.Hears vars roomId id ∨ job.wrote = some id ∧
      ∃ sub, s.sub? id = some sub ∧ sub.roomId = roomId := by
  obtain ⟨hfailed, sub, hsub, hroom, hmode⟩ := h
  rw [sub?_job htick] at hsub
  have hnot : id ∉ vars.failed := fun hmem => hfailed (mem_failed_run job s.hub hmem)
  rcases hmode with hlive | hmem
  · exact .inl ⟨hnot, sub, hsub, hroom, .inl hlive⟩
  · rcases Job.mem_backfilled hmem with hold | hwrote
    · exact .inl ⟨hnot, sub, hsub, hroom, .inr hold⟩
    · exact .inr ⟨hwrote, sub, hsub, hroom⟩

/-- A job that has not written yet ends no backfill. -/
theorem TargetOk.next {target : BackfillTarget} (htick : s.tick = .running vars (job :: jobs))
    (h : s.TargetOk vars target) (hwrote : job.wrote ≠ some target.id) :
    (s.next c (.resumeTick answer)).TargetOk (job.run c answer s.hub vars).vars target := by
  obtain ⟨hnot, sub, hsub, hroom, hshould⟩ := h
  refine ⟨fun hmem => ?_, sub, by rw [sub?_job htick, hsub], hroom, hshould⟩
  exact (Job.mem_backfilled hmem).elim hnot hwrote

theorem SinksOk.next {room : RoomPoll} (htick : s.tick = .running vars (job :: jobs))
    (h : s.SinksOk room) : (s.next c (.resumeTick answer)).SinksOk room := by
  intro id
  rw [h id, sub?_job htick]

/-- What a job leads to knows what this job has learned. -/
theorem ok_more (h : During n vars (job :: jobs) s) {job' : Job}
    (hjob' : job' ∈ (job.run c answer s.hub vars).more) :
    (s.next c (.resumeTick answer)).JobOk n (job.run c answer s.hub vars).vars job' := by
  have hok := h.ok job List.mem_cons_self
  have hdrop : (s.next c (.resumeTick answer)).log.drop n =
      s.log.drop n ++ (job.run c answer s.hub vars).events := drop_job h
  cases Job.leads_of_more hjob'
  case malformed target hmalformed => exact TargetOk.next h.tick hok (fun h => by cases h)
  case noFrames target range reason hmalformed hrange hnone => exact TargetOk.next h.tick hok (fun h => by cases h)
  case frames target range snapshot rest hroom hmalformed hsince hrange hready hsnapshots =>
    refine ⟨TargetOk.next h.tick hok (fun h => by cases h), (snapshot :: rest).getLast (List.cons_ne_nil _ _),
      List.getLast?_eq_getLast_of_ne_nil _, ?_⟩
    obtain ⟨sinceFrame, hsince⟩ := Option.isSome_iff_exists.mp hsince
    rw [hdrop]
    refine .inr ⟨target.id, sinceFrame, pollRequestId target.requestId target.roomId, range,
      List.mem_append_right _ ?_, hready, ?_⟩
    · simp only [Job.run, hroom, hmalformed, hsince, hrange]
      exact List.mem_singleton_self _
    · rw [hsnapshots]
      exact List.getLast?_eq_getLast_of_ne_nil _
  case current target payload reason hstate =>
    refine ⟨TargetOk.next h.tick hok (fun h => by cases h), ?_⟩
    rw [hdrop]
    refine .inl ⟨pollRequestId target.requestId target.roomId, List.mem_append_right _ ?_⟩
    simp only [Job.run, hstate]
    exact List.mem_singleton_self _
  case reset target reason payload =>
    obtain ⟨htarget, hanswered⟩ := hok
    refine ⟨htarget.next h.tick (fun h => by cases h), ?_, fun hwrote => ?_⟩
    · rw [hdrop]
      exact hanswered.mono
    · rw [lastShown_job h.tick]
      exact if_pos ⟨rfl, hwrote⟩
  case frame target written snapshot rest hwrote =>
    obtain ⟨htarget, last, hlast, hanswered⟩ := hok
    refine ⟨htarget.next h.tick (fun h => by cases h), ⟨last, hlast, ?_⟩, ?_⟩
    · rw [hdrop]
      exact hanswered.mono
    · rw [lastShown_job h.tick]
      exact if_pos ⟨rfl, hwrote⟩
  case framePushed target written snapshot next rest =>
    obtain ⟨⟨hnot, htarget⟩, ⟨last, hlast, hanswered⟩, -⟩ := hok
    refine ⟨⟨hnot, ?_⟩, last, ?_, ?_⟩
    · obtain ⟨sub, hsub, hsubOk⟩ := htarget
      exact ⟨sub, by rw [sub?_job h.tick, hsub], hsubOk⟩
    · rwa [List.getLast?_cons_cons] at hlast
    · rw [hdrop]
      exact hanswered.mono
  case countPoll room => exact SinksOk.next h.tick hok
  case poll room snapshot =>
    refine ⟨SinksOk.next h.tick hok, room.requestId, ?_⟩
    rw [hdrop]
    refine List.mem_append_right _ ?_
    obtain ⟨payload, hpayload, heq⟩ := List.mem_map.mp hjob'
    cases heq
    simp only [Job.run, Option.mem_toList.mp hpayload]
    exact List.mem_singleton_self _
  case compare room sink snapshot hsink =>
    obtain ⟨hsinks, requestId, hmem⟩ := hok
    obtain ⟨sub, hsub, hlive, hroom⟩ := (hsinks sink).mp hsink
    refine ⟨snapshot, vars.nowMs, sub, rfl, rfl, by rw [sub?_job h.tick, hsub], hlive, ?_,
      fun hterminal => ?_⟩
    · rw [hdrop, hroom]
      exact .inl ⟨requestId, List.mem_append_left _ hmem⟩
    · have hchanged : s.hub.roomChanged room.roomId snapshot = true := by
        rcases hchanged : s.hub.roomChanged room.roomId snapshot with - | -
        · simp [Job.run, hchanged] at hjob'
        · rfl
      rw [next_job h.tick, hroom]
      dsimp only
      rw [Job.lookup_lastPushedState]
      simp [Job.noted, hchanged, hterminal]

/-- A job that waits knows what it knew. -/
theorem ok_rest (h : During n vars (job :: jobs) s) {job' : Job} (hjob' : job' ∈ jobs) :
    (s.next c (.resumeTick answer)).JobOk n (job.run c answer s.hub vars).vars job' := by
  have hok := h.ok job' (List.mem_cons_of_mem _ hjob')
  obtain ⟨hwaiting, -, hpush⟩ := (List.pairwise_cons.mp h.order).1 job' hjob'
  cases job'
  case backfill target =>
    refine TargetOk.next h.tick hok fun hwrote => ?_
    -- No two jobs backfill one subscription.
    have hnodup := h.nodup
    have hbacks : job.backs = some target.id := by
      cases job
      case resetPushed | framePushed => exact hwrote
      all_goals cases hwrote
    rw [List.filterMap_cons, hbacks] at hnodup
    exact (List.nodup_cons.mp hnodup).1 (List.mem_filterMap.mpr ⟨_, hjob', rfl⟩)
  case countPoll room => exact SinksOk.next h.tick hok
  case push id event closes =>
    obtain ⟨snapshot, nowMs, sub, hevent, hcloses, hsub, hlive, hanswered, hpushed⟩ := hok
    refine ⟨snapshot, nowMs, sub, hevent, hcloses, by rw [sub?_job h.tick, hsub], hlive, ?_,
      fun hopen => ?_⟩
    · rw [drop_job h]
      exact hanswered.mono
    · rw [next_job h.tick]
      dsimp only
      rw [Job.lookup_lastPushedState]
      have hhead := hpush rfl
      cases job
      case push => exact hpushed hopen
      all_goals cases hhead
  case ready | heartbeat => trivial
  all_goals cases hwaiting

/-- Whoever is noted as backfilled was shown the state that Room has answered with. -/
theorem done_next (h : During n vars (job :: jobs) s) {id : Nat}
    (hid : id ∈ (job.run c answer s.hub vars).vars.backfilled.map (·.1)) {sub : Subscription}
    (hsub : (s.next c (.resumeTick answer)).sub? id = some sub) :
    sub.shouldBackfill = true ∧ ∃ snapshot,
      Answered ((s.next c (.resumeTick answer)).log.drop n) sub.roomId snapshot ∧
      (s.next c (.resumeTick answer)).lastShown id = some (stateSignature snapshot) := by
  have hok := h.ok job List.mem_cons_self
  rw [sub?_job h.tick] at hsub
  rw [drop_job h]
  by_cases hold : id ∈ vars.backfilled.map (·.1)
  · obtain ⟨hshould, snapshot, hanswered, hshown⟩ := h.done id hold sub hsub
    refine ⟨hshould, snapshot, hanswered.mono, ?_⟩
    have hother : ∀ {target : BackfillTarget}, s.TargetOk vars target → target.id ≠ id := by
      rintro target ⟨hnot, -⟩ rfl
      exact hnot hold
    rw [lastShown_job h.tick]
    cases job
    case reset => exact (if_neg fun heq => hother hok.1 heq.1).trans hshown
    case frame => exact (if_neg fun heq => hother hok.1 heq.1).trans hshown
    case push id' event closes =>
      obtain ⟨snapshot', nowMs, sub', rfl, -, hsub', hlive, -⟩ := hok
      simp only [Job.shown, snapshot?_frameEvent, Option.map_some]
      refine (if_neg ?_).trans hshown
      rintro ⟨rfl, -⟩
      obtain rfl := Option.some.inj (hsub.symm.trans hsub')
      cases hlive.symm.trans hshould
    all_goals exact hshown
  · rcases Job.run_vars c answer s.hub vars job with hsame | ⟨id', outcome, hnotes, hnote⟩
    · rw [hsame] at hid
      exact absurd hid hold
    rw [hnote, TickState.note_backfilled] at hid
    split at hid
    case isFalse => exact absurd hid hold
    case isTrue hdone =>
      rw [List.map_append] at hid
      obtain rfl := List.mem_singleton.mp ((List.mem_append.mp hid).resolve_left hold)
      rw [lastShown_job h.tick]
      cases hnotes
      case putOff | failed => cases hdone
      case reset target reason payload ok =>
        obtain ⟨⟨-, sub', hsub', hroom, hshould⟩, hanswered, hshown⟩ := hok
        obtain rfl := Option.some.inj (hsub.symm.trans hsub')
        refine ⟨hshould, payload, ?_, hshown ?_⟩
        · rw [hroom]
          exact hanswered.mono
        · simpa using (Bool.and_eq_true_iff.mp hdone).1
      case done target written snapshot =>
        obtain ⟨⟨-, sub', hsub', hroom, hshould⟩, ⟨last, hlast, hanswered⟩, hshown⟩ := hok
        obtain rfl := Option.some.inj (hsub.symm.trans hsub')
        cases hlast
        refine ⟨hshould, snapshot, ?_, hshown⟩
        rw [hroom]
        exact hanswered.mono

/-- A push shows the state that its room's table entry notes, or that ends the stream. -/
theorem lastShown_push {event : SinkEvent} {closes : Bool} {id' : Nat}
    (h : During n vars (.push id' event closes :: jobs) s) (hid : s.Hears vars roomId id)
    (hfailed : id ∉ ((Job.push id' event closes).run c answer s.hub vars).vars.failed) :
    id' ≠ id ∧ (s.next c (.resumeTick answer)).lastShown id = s.lastShown id ∨
    ∃ shown, id' = id ∧ Answered (s.log.drop n) roomId shown ∧
      s.hub.lastPushedState.lookup roomId = some (stateSignature shown) ∧
      (s.next c (.resumeTick answer)).lastShown id = some (stateSignature shown) := by
  obtain ⟨shown, nowMs, sub, rfl, hcloses, hsub, -, hanswered, hnoted⟩ := h.ok _ List.mem_cons_self
  rw [lastShown_job h.tick]
  simp only [Job.shown, snapshot?_frameEvent, Option.map_some]
  by_cases heq : id' = id
  · subst heq
    right
    obtain ⟨-, sub', hsub', rfl, -⟩ := hid
    obtain rfl := Option.some.inj (hsub.symm.trans hsub')
    simp only [Job.run] at hfailed
    split at hfailed
    case isTrue => exact absurd (List.mem_append_right _ (List.mem_singleton_self _)) hfailed
    case isFalse hgoes =>
      rw [Bool.or_eq_true, not_or, Bool.not_eq_true, Bool.not_eq_true', Bool.not_eq_false] at hgoes
      exact ⟨shown, rfl, hanswered, hnoted hgoes.1, if_pos ⟨rfl, hgoes.2⟩⟩
  · exact .inl ⟨heq, if_neg fun hboth => heq hboth.1⟩

/-- A noted state stays shown where the job neither pushes nor ends a backfill of the room. -/
theorem noted_keep (h : During n vars (job :: jobs) s) (hpush : job.isPush = false)
    (hid : s.Hears vars roomId id)
    (hpushed : s.hub.lastPushedState.lookup roomId = some (stateSignature snapshot))
    (hterminal : snapshot.terminal = false)
    (hmidway : job.midway = some roomId →
      ∃ job' ∈ (job.run c answer s.hub vars).more, job'.midway = some roomId) :
    (s.next c (.resumeTick answer)).lastShown id = some (stateSignature snapshot) ∨
      (∃ event closes, .push id event closes ∈ (job.run c answer s.hub vars).more ++ jobs) ∨
      ∃ job' ∈ (job.run c answer s.hub vars).more ++ jobs, job'.midway = some roomId := by
  rcases h.noted roomId snapshot hpushed hterminal id hid with hshown |
    ⟨event, closes, hmem⟩ | ⟨job', hmem, hroom⟩
  · exact .inl ((lastShown_hears h hpush hid).trans hshown)
  · rcases List.mem_cons.mp hmem with rfl | hrest
    · cases hpush
    · exact .inr (.inl ⟨event, closes, List.mem_append_right _ hrest⟩)
  · rcases List.mem_cons.mp hmem with rfl | hrest
    · obtain ⟨job', hmore, hroom⟩ := hmidway hroom
      exact .inr (.inr ⟨job', List.mem_append_left _ hmore, hroom⟩)
    · exact .inr (.inr ⟨job', List.mem_append_right _ hrest, hroom⟩)

/-- The end of a backfill leaves nobody behind: whoever hears of the room was shown the state, also the
subscription that was backfilled. -/
theorem shown_of_leaves (hall : s.LeavesShown (.resumeTick answer)) {target : BackfillTarget}
    {signature : String} (htick : s.tick = .running vars (job :: jobs))
    (hleaves : job.leaves answer s.hub = some (target, signature))
    (hid : s.Hears vars target.roomId id) (hne : id ≠ target.id) : s.lastShown id = some signature := by
  obtain ⟨hfailed, sub, hsub, hroom, hmode⟩ := hid
  exact hall (vars, job) (by rw [htick]; rfl) (target, signature) hleaves (id, sub)
    (Table.mem_toPairs.mpr hsub) hroom hne hmode hfailed

/-- **What the table notes stays shown**, or is about to be. -/
theorem noted_next (h : During n vars (job :: jobs) s) (hall : s.LeavesShown (.resumeTick answer))
    (hpushed : (s.next c (.resumeTick answer)).hub.lastPushedState.lookup roomId =
      some (stateSignature snapshot)) (hterminal : snapshot.terminal = false)
    (hid : (s.next c (.resumeTick answer)).Hears (job.run c answer s.hub vars).vars roomId id) :
    (s.next c (.resumeTick answer)).lastShown id = some (stateSignature snapshot) ∨
      (∃ event closes, .push id event closes ∈ (job.run c answer s.hub vars).more ++ jobs) ∨
      ∃ job' ∈ (job.run c answer s.hub vars).more ++ jobs, job'.midway = some roomId := by
  have hok := h.ok job List.mem_cons_self
  have hhears := hears_of_next h.tick hid
  have hother : ∀ target : BackfillTarget, job.wrote = some target.id → s.TargetOk vars target →
      roomId ≠ target.roomId → s.Hears vars roomId id := by
    rintro target hwrote ⟨-, sub, hsub, hroom, -⟩ hne
    refine hhears.resolve_right ?_
    rintro ⟨hwrote', sub', hsub', hroom'⟩
    obtain rfl := Option.some.inj (hwrote.symm.trans hwrote')
    obtain rfl := Option.some.inj (hsub.symm.trans hsub')
    exact hne (hroom'.symm.trans hroom)
  rw [next_job h.tick] at hpushed
  dsimp only at hpushed
  rw [Job.lookup_lastPushedState] at hpushed
  cases job
  case push id' event closes =>
    have hears := hhears.resolve_right fun h => by cases h.1
    rcases lastShown_push h hears hid.1 with ⟨hne, hsame⟩ | ⟨shown, rfl, -, hnoted, hshown⟩
    · rcases h.noted roomId snapshot hpushed hterminal id hears with hshown |
        ⟨event', closes', hmem⟩ | ⟨job', hmem, hroom⟩
      · exact .inl (hsame.trans hshown)
      · rcases List.mem_cons.mp hmem with heq | hrest
        · exact absurd (Job.push.inj heq).1.symm hne
        · exact .inr (.inl ⟨event', closes', hrest⟩)
      · rcases List.mem_cons.mp hmem with rfl | hrest
        · cases hroom
        · exact .inr (.inr ⟨job', hrest, hroom⟩)
    · exact .inl (hshown.trans (hnoted.symm.trans hpushed))
  case resetPushed target reason payload ok =>
    obtain ⟨htarget, -, hshown⟩ := hok
    simp only [Job.noted] at hpushed
    by_cases hroom : roomId = target.roomId
    · subst hroom
      rw [if_pos rfl] at hpushed
      have hopen : payload.terminal = false :=
        (terminal_of_stateSignature (Option.some.inj hpushed)).trans hterminal
      left
      rw [← hpushed]
      refine (lastShown_job h.tick).trans ?_
      by_cases hne : id = target.id
      · subst hne
        refine hshown (Bool.not_eq_false _ ▸ fun hfailed => hid.1 ?_)
        rw [Job.run, TickState.note_failed, hfailed]
        exact List.mem_append_right _ (List.mem_singleton_self _)
      · refine shown_of_leaves hall h.tick (by rw [Job.leaves, hopen]; rfl) ?_ hne
        exact hhears.resolve_right fun hwrote => hne (Option.some.inj hwrote.1).symm
    · rw [if_neg hroom] at hpushed
      exact noted_keep h rfl (hother target rfl htarget hroom) hpushed hterminal
        fun hmidway => absurd (Option.some.inj hmidway).symm hroom
  case framePushed target written shown rest =>
    obtain ⟨htarget, -, hshown⟩ := hok
    simp only [Job.noted] at hpushed
    rcases rest with - | ⟨next, rest⟩
    · by_cases hroom : roomId = target.roomId
      · subst hroom
        rw [if_pos rfl] at hpushed
        split at hpushed
        case isTrue => cases hpushed
        case isFalse hopen =>
          left
          rw [← hpushed]
          refine (lastShown_job h.tick).trans ?_
          by_cases hne : id = target.id
          · rw [hne]
            exact hshown
          · refine shown_of_leaves hall h.tick (by rw [Job.leaves, if_neg hopen]) ?_ hne
            exact hhears.resolve_right fun hwrote => hne (Option.some.inj hwrote.1).symm
      · rw [if_neg hroom] at hpushed
        exact noted_keep h rfl (hother target rfl htarget hroom) hpushed hterminal
          fun hmidway => absurd (Option.some.inj hmidway).symm hroom
    · by_cases hroom : roomId = target.roomId
      · exact .inr (.inr ⟨_, List.mem_cons_self, congrArg some hroom.symm⟩)
      · rw [if_neg hroom] at hpushed
        exact noted_keep h rfl (hother target rfl htarget hroom) hpushed hterminal
          fun hmidway => absurd (Option.some.inj hmidway).symm hroom
  case frame target written shown rest =>
    have hears := hhears.resolve_right fun h => by cases h.1
    by_cases hmidway : (Job.frame target written shown rest).midway = some roomId
    · rcases hwrote : answer.wrote with - | -
      · -- The rest of the frames is dropped; the table keeps what was noted for those before.
        rcases written with - | written
        · cases hmidway
        obtain rfl := Option.some.inj hmidway
        have hne : id ≠ target.id := by
          rintro rfl
          refine hid.1 ?_
          simp only [Job.run, hwrote, Bool.false_eq_true, if_false, TickState.note_failed, if_true]
          exact List.mem_append_right _ (List.mem_singleton_self _)
        left
        refine (lastShown_hears h rfl hears).trans (shown_of_leaves hall h.tick ?_ hears hne)
        change s.hub.lastPushedState.lookup target.roomId = _ at hpushed
        rw [Job.leaves, hwrote, hpushed]
        rfl
      · refine .inr (.inr ⟨.framePushed target written shown rest, List.mem_append_left _ ?_, ?_⟩)
        · simp [Job.run, hwrote]
        · rcases written with - | written
          · cases hmidway
          · exact hmidway
    · exact noted_keep h rfl hears hpushed hterminal fun hroom => absurd hroom hmidway
  case compare room shown =>
    have hears := hhears.resolve_right fun h => by cases h.1
    obtain ⟨hsinks, requestId, hmem⟩ := hok
    simp only [Job.noted] at hpushed
    rcases hchanged : s.hub.roomChanged room.roomId shown with - | -
    · rw [hchanged] at hpushed
      exact noted_keep h rfl hears hpushed hterminal (fun h => by cases h)
    simp only [hchanged, if_true] at hpushed
    by_cases hroom : roomId = room.roomId
    · subst hroom
      rw [if_pos rfl] at hpushed
      split at hpushed
      case isTrue => cases hpushed
      case isFalse hopen =>
        obtain ⟨-, sub, hsub, hsubRoom, hlive | hdone⟩ := hears
        · refine .inr (.inl ⟨frameEvent shown vars.nowMs, shown.terminal, List.mem_append_left _ ?_⟩)
          simp only [Job.run, hchanged, if_true]
          exact List.mem_map.mpr ⟨id, (hsinks id).mpr ⟨sub, hsub, hlive, hsubRoom⟩, rfl⟩
        · -- It was shown a state that Room has answered with in this `Tick`, and there is one only.
          obtain ⟨-, shown', hanswered, hlast⟩ := h.done id hdone sub hsub
          rw [hsubRoom] at hanswered
          obtain rfl := h.consistent _ _ _ hanswered (.inl ⟨requestId, hmem⟩)
          exact .inl ((lastShown_job h.tick).trans (hlast.trans hpushed))
    · rw [if_neg hroom] at hpushed
      exact noted_keep h rfl hears hpushed hterminal (fun h => by cases h)
  all_goals exact noted_keep h rfl (hhears.resolve_right fun h => by cases h.1) hpushed hterminal (fun h => by cases h)

/-- **What Room has answered is shown**, or is about to be. -/
theorem answered_next (h : During n vars (job :: jobs) s) (hall : s.LeavesShown (.resumeTick answer))
    (hconsistent : Consistent ((s.next c (.resumeTick answer)).log.drop n)) {requestId : String}
    (hmem : .getState roomId requestId (some snapshot) ∈ (s.next c (.resumeTick answer)).log.drop n)
    (hterminal : snapshot.terminal = false)
    (hid : (s.next c (.resumeTick answer)).HearsLive (job.run c answer s.hub vars).vars roomId id) :
    (s.next c (.resumeTick answer)).lastShown id = some (stateSignature snapshot) ∨
      (∃ event closes, .push id event closes ∈ (job.run c answer s.hub vars).more ++ jobs) ∨
      ∃ job' ∈ (job.run c answer s.hub vars).more ++ jobs, job'.pending = some roomId := by
  have hlive : s.HearsLive vars roomId id := by
    obtain ⟨hfailed, sub, hsub, hroom, hlive⟩ := hid
    rw [sub?_job h.tick] at hsub
    exact ⟨fun hmem => hfailed (mem_failed_run job s.hub hmem), sub, hsub, hroom, hlive⟩
  have hone : ∀ shown, Answered (s.log.drop n) roomId shown → shown = snapshot := by
    intro shown hshown
    refine hconsistent roomId shown snapshot ?_ (.inl ⟨requestId, hmem⟩)
    rw [drop_job h]
    exact hshown.mono
  rw [drop_job h] at hmem
  rcases List.mem_append.mp hmem with hold | hnew
  · have hkeep : job.isPush = false → s.lastShown id = some (stateSignature snapshot) →
        (s.next c (.resumeTick answer)).lastShown id = some (stateSignature snapshot) :=
      fun hpush hshown => (lastShown_hears h hpush hlive.hears).trans hshown
    have hpushes : ∀ id' event closes, job = .push id' event closes →
        id' ≠ id ∧ (s.next c (.resumeTick answer)).lastShown id = s.lastShown id ∨
        id' = id ∧ (s.next c (.resumeTick answer)).lastShown id = some (stateSignature snapshot) := by
      rintro id' event closes rfl
      rcases lastShown_push h hlive.hears hid.1 with hsame | ⟨shown, rfl, hanswered, -, hshown⟩
      · exact .inl hsame
      · obtain rfl := hone shown hanswered
        exact .inr ⟨rfl, hshown⟩
    rcases h.answered roomId requestId snapshot hold hterminal id hlive with hshown |
      ⟨event, closes, hpush⟩ | ⟨job', hjob', hpending⟩
    · rcases hjob : job.isPush with - | -
      · exact .inl (hkeep hjob hshown)
      · cases job
        case push id' event closes =>
          rcases hpushes id' event closes rfl with ⟨-, hsame⟩ | ⟨-, hnow⟩
          · exact .inl (hsame.trans hshown)
          · exact .inl hnow
        all_goals cases hjob
    · rcases List.mem_cons.mp hpush with rfl | hrest
      · rcases hpushes id event closes rfl with ⟨hne, -⟩ | ⟨-, hnow⟩
        · exact absurd rfl hne
        · exact .inl hnow
      · exact .inr (.inl ⟨event, closes, List.mem_append_right _ hrest⟩)
    · rcases List.mem_cons.mp hjob' with rfl | hrest
      case inr => exact .inr (.inr ⟨job', List.mem_append_right _ hrest, hpending⟩)
      have hok := h.ok job' List.mem_cons_self
      cases job'
      case reset target reason payload =>
        exact .inr (.inr ⟨_, List.mem_cons_self, hpending⟩)
      case resetPushed target reason payload ok =>
        obtain ⟨⟨-, sub, hsub, -, hshould⟩, hanswered, -⟩ := hok
        obtain rfl := Option.some.inj hpending
        obtain rfl := hone payload hanswered
        refine .inl (hkeep rfl (shown_of_leaves hall h.tick ?_ hlive.hears ?_))
        · rw [Job.leaves, hterminal]
          rfl
        · rintro rfl
          obtain ⟨-, sub', hsub', -, hlive⟩ := hlive
          obtain rfl := Option.some.inj (hsub.symm.trans hsub')
          cases hlive.symm.trans hshould
      case compare room shown =>
        obtain ⟨hsinks, requestId', hasked⟩ := hok
        obtain rfl := Option.some.inj hpending
        obtain rfl := hone shown (.inl ⟨requestId', hasked⟩)
        rcases hchanged : s.hub.roomChanged room.roomId shown with - | -
        · -- The table has this state already, and nobody is in the middle of a backfill.
          obtain ⟨hpushed, -⟩ := StreamHub.lookup_of_not_roomChanged hchanged
          rcases h.noted room.roomId shown hpushed hterminal id hlive.hears with hshown |
            ⟨event, closes, hpush⟩ | ⟨job', hjob', hmidway⟩
          · exact .inl (hkeep rfl hshown)
          · rcases List.mem_cons.mp hpush with heq | hrest
            · cases heq
            · exact .inr (.inl ⟨event, closes, List.mem_append_right _ hrest⟩)
          · rcases List.mem_cons.mp hjob' with rfl | hrest
            · cases hmidway
            · rw [Job.midway_of_waiting ((List.pairwise_cons.mp h.order).1 job' hrest).1] at hmidway
              cases hmidway
        · obtain ⟨-, sub, hsub, hroom, hlive⟩ := hlive
          refine .inr (.inl ⟨frameEvent shown vars.nowMs, shown.terminal, List.mem_append_left _ ?_⟩)
          simp only [Job.run, hchanged, if_true]
          exact List.mem_map.mpr ⟨id, (hsinks id).mpr ⟨sub, hsub, hlive, hroom⟩, rfl⟩
      all_goals cases hpending
  · rcases Job.asked_of_mem hnew with ⟨target, reason, -, rfl, hmore⟩ | ⟨room, -, rfl, hmore⟩
    · exact .inr (.inr ⟨.reset target reason snapshot, by rw [hmore]; exact List.mem_cons_self, rfl⟩)
    · exact .inr (.inr ⟨.compare room snapshot, by rw [hmore]; exact List.mem_cons_self, rfl⟩)

/-- **One job keeps what holds during a `Tick`.** -/
theorem During.next (h : During n vars (job :: jobs) s) (hall : s.LeavesShown (.resumeTick answer))
    (hconsistent : Consistent ((s.next c (.resumeTick answer)).log.drop n)) :
    During n (job.run c answer s.hub vars).vars ((job.run c answer s.hub vars).more ++ jobs)
      (s.next c (.resumeTick answer)) where
  tick := by rw [next_job h.tick]
  length := by
    rw [next_job h.tick]
    exact h.length.trans (List.length_append ▸ Nat.le_add_right _ _)
  consistent := hconsistent
  order := Job.pairwise_more h.order
  nodup := by
    rw [List.filterMap_append]
    refine List.Nodup.sublist (List.Sublist.append job.backs_more (List.Sublist.refl _)) ?_
    have hnodup := h.nodup
    rw [List.filterMap_cons] at hnodup
    rcases hbacks : job.backs with - | id <;> rw [hbacks] at hnodup <;> exact hnodup
  ok job' hjob' := by
    rcases List.mem_append.mp hjob' with hmore | hrest
    · exact ok_more h hmore
    · exact ok_rest h hrest
  done _ hid _ hsub := done_next h hid hsub
  noted _ _ hpushed hterminal _ hid := noted_next h hall hpushed hterminal hid
  answered _ _ _ hmem hterminal _ hid := answered_next h hall hconsistent hmem hterminal hid

end StreamSystem

end RealtimeGame.Gateway
