import Mathlib.Data.List.Infix
import RealtimeGame.Gateway.Shown

/-!
# Gateway/Converge — live subscribers are shown the state of their room

Between two `Tick`s, what the table notes for a room was shown to its live subscriptions.  A `Tick` that
Room answers with one state a room keeps that, and shows the state to all, unless a backfill leaves
somebody behind.
-/

open Library

namespace RealtimeGame.Gateway

namespace StreamSystem

variable (c : StreamConfig) (s : StreamSystem)

/-- One step of a run in which no two calls overlap and no backfill leaves anybody behind. -/
def ShownStep (s : StreamSystem) (op : StreamOp) (s' : StreamSystem) : Prop :=
  (s.LeavesShown op ∧ s.OneAtATime op) ∧ s' = s.next c op

/-- **A `Tick`**, or a part of it, and what comes after it before the next one. -/
structure TickRun (R : StreamSystem → StreamOp → StreamSystem → Prop) (u : StreamSystem) (nowMs : Int)
    (ops : List StreamOp) (v : StreamSystem) : Prop where
  run : Run R u (.tick nowMs :: ops) v
  one : ∀ nowMs', .tick nowMs' ∉ ops

/-- In every `Tick`, Room's answers are consistent. -/
def ConsistentRoom (ops : List StreamOp) : Prop :=
  ∀ pre nowMs mid post u v, ops = pre ++ (.tick nowMs :: mid) ++ post → Run (SoloStep c) {} pre u →
    TickRun (SoloStep c) u nowMs mid v → Consistent (v.log.drop u.log.length)

/-- **Live subscribers converge** — after a `Tick` in which Room answered with a state of a room that is
not over, each live subscription of the room was shown that state last. -/
def Converges (ops : List StreamOp) : Prop :=
  ∀ pre nowMs mid post u v, ops = pre ++ (.tick nowMs :: mid) ++ post → Run (SoloStep c) {} pre u →
    TickRun (SoloStep c) u nowMs mid v → (∃ gone, v.tick = .reporting gone) →
    ∀ room ∈ u.hub.byRoom nowMs, ∀ requestId snapshot,
      .getState room.roomId requestId (some snapshot) ∈ v.log.drop u.log.length →
      snapshot.terminal = false → ∀ id ∈ room.sinks, ∀ sub, v.sub? id = some sub →
      v.lastShown id = some (stateSignature snapshot)

end StreamSystem

namespace StreamSystem

variable {c : StreamConfig} {s s' : StreamSystem} {op : StreamOp} {n : Nat} {vars : TickState}
  {answer : Answer}

/-! ## From one `Tick` to the next

Between two `Tick`s the table agrees with what was shown; within one, what differs is about to be shown. -/

/-- **What the table notes was shown** to every live subscription of the room. -/
def Kept (s : StreamSystem) : Prop :=
  ∀ id sub, s.sub? id = some sub → sub.shouldBackfill = false → ∀ snapshot,
    snapshot.terminal = false →
    s.hub.lastPushedState.lookup sub.roomId = some (stateSignature snapshot) →
    s.lastShown id = some (stateSignature snapshot)

/-- The jobs of a new `Tick` are in order. -/
theorem order_jobs (c : StreamConfig) (nowMs : Int) (hub : StreamHub) :
    (hub.jobs c nowMs).Pairwise Job.Before := by
  have hlater : ∀ job ∈ (hub.byRoom nowMs).map Job.countPoll ++ ((hub.needReady nowMs).map .ready ++
      (hub.needHeartbeat c nowMs).map .heartbeat),
      job.waiting = true ∧ job.backs = none ∧ job.isPush = false := by
    intro job hjob
    simp only [List.mem_append, List.mem_map] at hjob
    rcases hjob with ⟨_, -, rfl⟩ | ⟨_, -, rfl⟩ | ⟨_, -, rfl⟩ <;> exact ⟨rfl, rfl, rfl⟩
  have hbefore : ∀ a, ∀ b ∈ (hub.byRoom nowMs).map Job.countPoll ++ ((hub.needReady nowMs).map .ready ++
      (hub.needHeartbeat c nowMs).map .heartbeat), Job.Before a b := by
    intro a b hb
    obtain ⟨hwaiting, hbacks, hpush⟩ := hlater b hb
    refine ⟨hwaiting, fun h => ?_, fun h => ?_⟩
    · rw [hbacks] at h
      cases h
    · rw [hpush] at h
      cases h
  rw [StreamHub.jobs, List.append_assoc, List.append_assoc]
  refine List.pairwise_append.mpr ⟨?_, ?_, fun a _ b hb => hbefore a b hb⟩
  · refine List.pairwise_of_forall_mem_list fun a ha b hb => ?_
    obtain ⟨_, -, rfl⟩ := List.mem_map.mp ha
    obtain ⟨_, -, rfl⟩ := List.mem_map.mp hb
    exact ⟨rfl, fun _ => rfl, (fun h => by cases h)⟩
  · exact List.pairwise_of_forall_mem_list fun a _ b hb => hbefore a b hb

/-- At the start of a `Tick`, nobody was backfilled and Room was not asked yet. -/
theorem During.start (hkept : s.Kept) (nowMs : Int) :
    During s.log.length (s.hub.collect c nowMs).2 (s.hub.jobs c nowMs) (s.next c (.tick nowMs)) := by
  have hdrop : (s.next c (.tick nowMs)).log.drop s.log.length = [] := List.drop_length
  refine ⟨rfl, le_rfl, ?_, order_jobs c nowMs s.hub, nodup_backs_jobs c nowMs s.hub, ?_,
    fun _ hid => (by cases hid), ?_, ?_⟩
  · rw [hdrop]
    rintro roomId a b (⟨_, hmem⟩ | ⟨_, _, _, _, hmem, -⟩) <;> cases hmem
  · intro job hjob
    rcases StreamHub.mem_jobs.mp hjob with ⟨target, htarget, rfl⟩ | ⟨room, hroom, rfl⟩ | ⟨_, -, rfl⟩ | ⟨_, -, rfl⟩
    · obtain ⟨sub, hsub, hshould, heq⟩ := StreamHub.mem_needBackfill.mp htarget
      refine ⟨List.not_mem_nil, sub.seen nowMs, ?_, ?_, hshould⟩
      · rw [sub?_tick, sub?, hsub]
        rfl
      · rw [heq]
    · intro id
      rw [StreamHub.mem_room_sinks hroom, sub?_tick]
      constructor
      · rintro ⟨sub, hsub, hlive, heq⟩
        refine ⟨sub.seen nowMs, by rw [sub?, hsub]; rfl, ?_, ?_⟩
        · rwa [Subscription.shouldBackfill_seen]
        · rwa [Subscription.seen_roomId]
      · rintro ⟨_, hseen, hlive, heq⟩
        obtain ⟨sub, hsub, rfl⟩ := Option.map_eq_some_iff.mp hseen
        rw [Subscription.shouldBackfill_seen] at hlive
        rw [Subscription.seen_roomId] at heq
        exact ⟨sub, hsub, hlive, heq⟩
    all_goals trivial
  · rintro roomId snapshot hpushed hterminal id ⟨-, _, hseen, rfl, hlive | hdone⟩
    · rw [sub?_tick] at hseen
      obtain ⟨sub, hsub, rfl⟩ := Option.map_eq_some_iff.mp hseen
      rw [Subscription.shouldBackfill_seen] at hlive
      rw [Subscription.seen_roomId] at hpushed
      exact .inl (hkept id sub hsub hlive snapshot hterminal hpushed)
    · cases hdone
  · intro roomId requestId snapshot hmem
    rw [hdrop] at hmem
    cases hmem

variable (c s op n) in
/-- A step that runs no job shows nothing and asks for nothing. -/
theorem quiet_next (hno : ∀ answer vars job jobs, op = .resumeTick answer →
    s.tick ≠ .running vars (job :: jobs)) :
    (∀ id, (s.next c op).lastShown id = s.lastShown id) ∧
    (n ≤ s.log.length → ∀ roomId requestId snapshot,
      .getState roomId requestId snapshot ∈ (s.next c op).log.drop n →
      .getState roomId requestId snapshot ∈ s.log.drop n) := by
  obtain ⟨events, hlog, hevents⟩ := events_next c s op
  constructor
  · intro id
    have hnone : events.filterMap (·.shows id) = [] := by
      refine List.filterMap_eq_nil_iff.mpr fun event hmem => ?_
      rcases hevents event hmem with ⟨answer, vars, job, jobs, hop, htick, -⟩ |
        ⟨_, _, _, _, _, -, -, rfl⟩ | ⟨_, _, _, _, rfl⟩ | ⟨_, rfl⟩
      · exact absurd htick (hno answer vars job jobs hop)
      · simp only [StreamEvent.shows]
        split <;> rfl
      · rfl
      · rfl
    rw [lastShown, hlog, List.filterMap_append, hnone, List.append_nil]
    rfl
  · intro hlength roomId requestId snapshot hmem
    rw [hlog, List.drop_append_of_le_length hlength] at hmem
    refine (List.mem_append.mp hmem).resolve_right fun hnew => ?_
    rcases hevents _ hnew with ⟨answer, vars, job, jobs, hop, htick, -⟩ |
      ⟨_, _, _, _, _, -, -, heq⟩ | ⟨_, _, _, _, heq⟩ | ⟨_, heq⟩
    · exact absurd htick (hno answer vars job jobs hop)
    all_goals cases heq

/-- Between two `Tick`s a subscription hears of nothing; a new one finds nothing noted for its room. -/
theorem Kept.next (h : s.Kept) (hends : ∃ gone, s.tick = .reporting gone)
    (hop : ∀ nowMs, op ≠ .tick nowMs) : (s.next c op).Kept := by
  obtain ⟨gone, htick⟩ := hends
  intro id sub' hsub' hlive snapshot hterminal hpushed
  rw [(quiet_next c s _ 0 fun _ _ _ _ _ hrunning => by cases htick.symm.trans hrunning).1]
  have hold : s.hub.lastPushedState.lookup sub'.roomId = some (stateSignature snapshot) := by
    rcases lastPushedState_next c s op sub'.roomId with hsame | herased |
      ⟨_, _, _, _, _, -, hrunning, -⟩
    · rwa [hsame] at hpushed
    · cases herased.symm.trans hpushed
    · cases htick.symm.trans hrunning
  rcases sub?_next hsub' with hsame | ⟨nowMs, _, rfl, -⟩ | ⟨_, _, _, -, hrunning, -⟩ |
    ⟨-, -, -, _, _, _, -, rfl, -, -, herased⟩
  · exact h id sub' hsame hlive snapshot hterminal hold
  · exact absurd rfl (hop nowMs)
  · cases htick.symm.trans hrunning
  · rw [herased, AList.lookup_erase] at hpushed
    cases hpushed

/-- **What holds after a `Tick`** that started in `u`: its live subscriptions were shown what Room has
answered. -/
structure After (u : StreamSystem) (nowMs : Int) (s : StreamSystem) : Prop where
  ends : ∃ gone, s.tick = .reporting gone
  length : u.log.length ≤ s.log.length
  kept : s.Kept
  known : ∀ room ∈ u.hub.byRoom nowMs, ∀ id ∈ room.sinks, id < s.hub.nextId
  heard : ∀ room ∈ u.hub.byRoom nowMs, ∀ requestId snapshot,
    .getState room.roomId requestId (some snapshot) ∈ s.log.drop u.log.length →
    snapshot.terminal = false → ∀ id ∈ room.sinks, ∀ sub, s.sub? id = some sub →
    s.lastShown id = some (stateSignature snapshot)

/-- The last section of a `Tick` ends the backfills that were done. -/
theorem After.start {u : StreamSystem} {nowMs : Int} (h : During u.log.length vars [] s)
    (hsubs : s.hub.subscriptions = u.hub.seen nowMs) (hsound : Sound s) :
    After u nowMs (s.next c (.resumeTick answer)) := by
  have hnext : s.next c (.resumeTick answer) =
      { s with
        hub := (s.hub.commit vars).1
        tick := .reporting ((s.hub.commit vars).2.map (·.2))
        log := s.log ++ (s.hub.commit vars).2.map (.close ·.1) } := by
    simp only [next, resumeTick, h.tick]
  obtain ⟨hshown, hasked⟩ := quiet_next c s (.resumeTick answer) u.log.length
    fun _ _ _ _ _ hrunning => by cases h.tick.symm.trans hrunning
  have hcommit : ∀ id sub', (s.next c (.resumeTick answer)).sub? id = some sub' → id ∉ vars.failed ∧
      ∃ sub, s.sub? id = some sub ∧ sub' = sub.committed vars id := by
    intro id sub' hsub'
    rw [hnext, sub?, StreamHub.lookup_commit] at hsub'
    split at hsub'
    case isTrue => cases hsub'
    case isFalse hfailed =>
      obtain ⟨sub, hsub, rfl⟩ := Option.map_eq_some_iff.mp hsub'
      exact ⟨hfailed, sub, hsub, rfl⟩
  have hlive : ∀ room ∈ u.hub.byRoom nowMs, ∀ id ∈ room.sinks,
      ∃ sub, s.sub? id = some sub ∧ sub.shouldBackfill = false ∧ sub.roomId = room.roomId := by
    intro room hroom id hid
    obtain ⟨sub, hsub, hlive, heq⟩ := (StreamHub.mem_room_sinks hroom).mp hid
    refine ⟨sub.seen nowMs, ?_, ?_, ?_⟩
    · rw [sub?, hsubs, StreamHub.lookup_seen, hsub]
      rfl
    · rwa [Subscription.shouldBackfill_seen]
    · rwa [Subscription.seen_roomId]
  refine ⟨⟨_, by rw [hnext]⟩, ?_, ?_, ?_, ?_⟩
  · rw [hnext]
    exact h.length.trans (List.length_append ▸ Nat.le_add_right _ _)
  · intro id sub' hsub' hlive' snapshot hterminal hpushed
    obtain ⟨hfailed, sub, hsub, rfl⟩ := hcommit id sub' hsub'
    rw [Subscription.committed_roomId, hnext] at hpushed
    rw [StreamHub.lastPushedState_commit] at hpushed
    have hhears : s.Hears vars sub.roomId id := by
      refine ⟨hfailed, sub, hsub, rfl, or_iff_not_imp_right.mpr fun hdone => ?_⟩
      obtain ⟨hpending, hfrom⟩ := Subscription.committed_of_not_backfilled (s := sub) hdone
      rwa [Subscription.shouldBackfill, hpending, hfrom, Subscription.committed_backfillMalformed,
        ← Subscription.shouldBackfill] at hlive'
    rw [hshown]
    refine (h.noted sub.roomId snapshot hpushed hterminal id hhears).resolve_right ?_
    rintro (⟨_, _, hmem⟩ | ⟨_, hmem, -⟩) <;> cases hmem
  · intro room hroom id hid
    obtain ⟨sub, hsub, -⟩ := hlive room hroom id hid
    exact (hsound.registered id sub hsub).trans_le nextId_next
  · intro room hroom requestId snapshot hmem hterminal id hid sub' hsub'
    obtain ⟨sub, hsub, hmode, heq⟩ := hlive room hroom id hid
    obtain ⟨hfailed, -⟩ := hcommit id sub' hsub'
    rw [hshown]
    refine (h.answered room.roomId requestId snapshot (hasked h.length _ _ _ hmem) hterminal id
      ⟨hfailed, sub, hsub, heq, hmode⟩).resolve_right ?_
    rintro (⟨_, _, hmem⟩ | ⟨_, hmem, -⟩) <;> cases hmem

theorem After.next {u : StreamSystem} {nowMs : Int} (h : After u nowMs s)
    (hop : ∀ nowMs', op ≠ .tick nowMs') : After u nowMs (s.next c op) := by
  obtain ⟨gone, htick⟩ := h.ends
  obtain ⟨hshown, hasked⟩ := quiet_next c s op u.log.length
    fun _ _ _ _ _ hrunning => by cases htick.symm.trans hrunning
  obtain ⟨events, hlog, -⟩ := events_next c s op
  refine ⟨?_, ?_, h.kept.next h.ends hop,
    fun room hroom id hid => (h.known room hroom id hid).trans_le nextId_next, ?_⟩
  · rcases tick_next c s op with hsame | ⟨nowMs', rfl⟩ | ⟨_, _, _, _, _, hrunning⟩ | ⟨gone', hgone, -⟩
    · exact ⟨gone, hsame.trans htick⟩
    · exact absurd rfl (hop nowMs')
    · cases htick.symm.trans hrunning
    · exact ⟨gone', hgone⟩
  · rw [hlog, List.length_append]
    exact Nat.le_add_right_of_le h.length
  · intro room hroom requestId snapshot hmem hterminal id hid sub' hsub'
    rw [hshown]
    have hknown := h.known room hroom id hid
    rcases hsub : s.sub? id with - | sub
    · cases (sub?_next_none hknown hsub).symm.trans hsub'
    · exact h.heard room hroom requestId snapshot (hasked h.length _ _ _ hmem) hterminal id hid sub hsub

/-- **What holds from the start of a `Tick` to the next one.** -/
def Converging (u : StreamSystem) (nowMs : Int) (s : StreamSystem) : Prop :=
  (∃ vars jobs, During u.log.length vars jobs s ∧ s.hub.subscriptions = u.hub.seen nowMs ∧
    ∀ call ∈ s.calls, call = []) ∨ After u nowMs s

theorem Converging.step {u : StreamSystem} {nowMs : Int} (h : Converging u nowMs s) (hsound : Sound s)
    (hop : ∀ nowMs', op ≠ .tick nowMs') (hstep : ShownStep c s op s')
    (hconsistent : Consistent (s'.log.drop u.log.length)) : Converging u nowMs s' := by
  obtain ⟨⟨hall, hone⟩, rfl⟩ := hstep
  rcases h with ⟨vars, jobs, h, hsubs, hcalls⟩ | h
  case inr => exact .inr (h.next hop)
  have hbusy : ¬s.Settled := fun hsettled => by cases h.tick.symm.trans hsettled.1
  cases op
  case resumeTick answer =>
    rcases jobs with - | ⟨job, jobs⟩
    · exact .inr (.start h hsubs hsound)
    · refine .inl ⟨_, _, h.next hall hconsistent, ?_, ?_⟩
      · rw [next_job h.tick, Job.run_subscriptions, hsubs]
      · rw [next_job h.tick]
        exact hcalls
  case resumeCall call answer =>
    have hsame : s.next c (.resumeCall call answer) = s := by
      simp only [next, resumeCall]
      split
      case h_1 step rest hcall => cases hcalls _ (List.mem_of_getElem? hcall)
      case h_2 => rfl
    rw [hsame]
    exact .inl ⟨vars, jobs, h, hsubs, hcalls⟩
  case tick nowMs' => exact absurd rfl (hop nowMs')
  all_goals exact absurd hone hbusy

/-! ## Runs

Room gives one state for a room in one `Tick`, and that is asked of every part of a run. -/

/-- Nothing leaves the log. -/
theorem log_prefix_of_run {ops : List StreamOp} (hrun : Run (SoloStep c) s ops s') :
    s.log <+: s'.log := by
  refine hrun.related (P := fun s s' => s.log <+: s'.log) (fun _ => List.prefix_rfl)
    (fun _ _ _ => List.IsPrefix.trans) ?_
  rintro s op - ⟨-, rfl⟩
  obtain ⟨events, hlog, -⟩ := events_next c s op
  exact ⟨events, hlog.symm⟩

theorem ShownStep.solo (h : ShownStep c s op s') : SoloStep c s op s' := ⟨h.1.2, h.2⟩

theorem solo_of_run {ops : List StreamOp} (hrun : Run (ShownStep c) s ops s') :
    Run (SoloStep c) s ops s' :=
  hrun.mono (I := fun _ => True) (fun _ _ _ _ _ => trivial) (fun _ _ _ _ h => h.solo) trivial

end StreamSystem

theorem Consistent.of_subset {events more : List StreamEvent} (h : Consistent more)
    (hsub : events ⊆ more) : Consistent events := by
  intro roomId a b ha hb
  have hmore : ∀ {snapshot}, Answered events roomId snapshot → Answered more roomId snapshot := by
    rintro snapshot (⟨requestId, hmem⟩ | ⟨id, sinceFrame, requestId, range, hmem, hrange⟩)
    · exact .inl ⟨requestId, hsub hmem⟩
    · exact .inr ⟨id, sinceFrame, requestId, range, hsub hmem, hrange⟩
  exact h roomId a b (hmore ha) (hmore hb)

namespace StreamSystem

variable {c : StreamConfig} {s s' u v : StreamSystem} {ops mid : List StreamOp} {nowMs : Int}

/-- **A `Tick` and what comes after it**, in a run that leaves nobody behind. -/
theorem converging_of_run (hsound : Sound s) (hconverging : Converging u nowMs s)
    (hrun : Run (ShownStep c) s mid v) (hone : ∀ nowMs', .tick nowMs' ∉ mid)
    (hconsistent : Consistent (v.log.drop u.log.length)) : Converging u nowMs v := by
  induction hrun with
  | nil => exact hconverging
  | @cons s m v op mid step rest ih =>
    refine ih (hsound.step step.solo.step) (hconverging.step hsound ?_ step ?_)
      (fun nowMs' hmem => hone nowMs' (List.mem_cons_of_mem _ hmem)) hconsistent
    · rintro nowMs' rfl
      exact hone nowMs' List.mem_cons_self
    · exact hconsistent.of_subset ((log_prefix_of_run (solo_of_run rest)).drop _).subset

/-- A whole `Tick`, from a state in which what the table notes was shown. -/
theorem converging_of_tickRun (hsound : Sound u) (hkept : u.Kept)
    (h : TickRun (ShownStep c) u nowMs mid v) (hconsistent : Consistent (v.log.drop u.log.length)) :
    Converging u nowMs v := by
  obtain ⟨m, hfirst, hrest⟩ := Run.cons_iff.mp h.run
  refine converging_of_run (hsound.step hfirst.solo.step) (.inl ?_) hrest h.one hconsistent
  rw [hfirst.2]
  exact ⟨_, _, .start hkept nowMs, rfl, hfirst.1.2.2⟩

theorem ConsistentRoom.of_append (post : List StreamOp) (h : ConsistentRoom c (ops ++ post)) :
    ConsistentRoom c ops := by
  rintro pre nowMs mid post' u v rfl hpre hmid
  exact h pre nowMs mid (post' ++ post) u v (by rw [List.append_assoc]) hpre hmid

/-- The last `Tick` of a run. -/
theorem last_tick (ops : List StreamOp) : (∀ nowMs, .tick nowMs ∉ ops) ∨
    ∃ pre nowMs mid, ops = pre ++ .tick nowMs :: mid ∧ ∀ nowMs', .tick nowMs' ∉ mid := by
  induction ops with
  | nil => exact .inl fun _ hmem => by cases hmem
  | cons op ops ih =>
    rcases ih with hnone | ⟨pre, nowMs, mid, rfl, hone⟩
    · by_cases htick : ∃ nowMs, op = .tick nowMs
      · obtain ⟨nowMs, rfl⟩ := htick
        exact .inr ⟨[], nowMs, ops, rfl, hnone⟩
      · refine .inl fun nowMs hmem => ?_
        rcases List.mem_cons.mp hmem with heq | hmem
        · exact htick ⟨nowMs, heq.symm⟩
        · exact hnone nowMs hmem
    · exact .inr ⟨op :: pre, nowMs, mid, rfl, hone⟩

/-- **Between two `Tick`s, what the table notes was shown.** -/
theorem kept_of_run (ops : List StreamOp) {s : StreamSystem} (hrun : Run (ShownStep c) {} ops s)
    (hroom : ConsistentRoom c ops) (hends : ∃ gone, s.tick = .reporting gone) : s.Kept := by
  rcases last_tick ops with hnone | ⟨pre, nowMs, mid, rfl, hone⟩
  · refine (hrun.invariant_of_guard
      (I := fun s => s.Kept ∧ ∃ gone, s.tick = .reporting gone)
      (G := fun _ op => ∀ nowMs, op ≠ .tick nowMs) ?_ ?_ ⟨fun _ _ h => (by cases h), [], rfl⟩).1
    · rintro s op - ⟨hkept, gone, htick⟩ hop ⟨-, rfl⟩
      refine ⟨hkept.next ⟨gone, htick⟩ hop, ?_⟩
      rcases tick_next c s op with hsame | ⟨nowMs, rfl⟩ | ⟨_, _, _, _, _, hrunning⟩ | ⟨gone', hgone, -⟩
      · exact ⟨gone, hsame.trans htick⟩
      · exact absurd rfl (hop nowMs)
      · cases htick.symm.trans hrunning
      · exact ⟨gone', hgone⟩
    · rintro before op after m rfl - nowMs rfl
      exact hnone nowMs (List.mem_append_right _ List.mem_cons_self)
  · obtain ⟨u, hpre, htick⟩ := Run.append_iff.mp hrun
    have hsettled : u.Settled := by
      obtain ⟨m, hfirst, -⟩ := Run.cons_iff.mp htick
      exact hfirst.1.2
    have hkept := kept_of_run pre hpre hroom.of_append ⟨[], hsettled.1⟩
    have hsound : Sound u := .of_run ((solo_of_run hpre).mono (I := fun _ => True)
      (fun _ _ _ _ _ => trivial) (fun _ _ _ _ h => h.step) trivial)
    have hconsistent := hroom pre nowMs mid [] u s (List.append_nil _).symm (solo_of_run hpre)
      ⟨solo_of_run htick, hone⟩
    rcases converging_of_tickRun hsound hkept ⟨htick, hone⟩ hconsistent with ⟨_, _, h, -⟩ | h
    · obtain ⟨gone, hgone⟩ := hends
      cases h.tick.symm.trans hgone
    · exact h.kept
termination_by ops.length
decreasing_by
  subst_vars
  simp

/-- **Live subscribers converge** to the state of their room, in every run in which no backfill leaves
anybody behind. -/
theorem converges_of_run (hrun : Run (ShownStep c) {} ops s) (hroom : ConsistentRoom c ops) :
    Converges c ops := by
  rintro pre nowMs mid post u v rfl hpre hmid ⟨gone, hgone⟩
  obtain ⟨v', hrun', -⟩ := Run.append_iff.mp hrun
  obtain ⟨u', hpre', htick⟩ := Run.append_iff.mp hrun'
  have hunique : ∀ (s : StreamSystem) (op : StreamOp) (t t' : StreamSystem),
      SoloStep c s op t → SoloStep c s op t' → t = t' := fun _ _ _ _ h h' => h.2.trans h'.2.symm
  obtain rfl := hpre.unique hunique (solo_of_run hpre')
  obtain rfl := hmid.run.unique hunique (solo_of_run htick)
  have hkept := kept_of_run pre hpre'
    (ConsistentRoom.of_append (.tick nowMs :: mid ++ post) (by rwa [← List.append_assoc]))
    ⟨[], by
      obtain ⟨m, hfirst, -⟩ := Run.cons_iff.mp htick
      exact hfirst.1.2.1⟩
  have hsound : Sound u := .of_run (hpre.mono (I := fun _ => True)
    (fun _ _ _ _ _ => trivial) (fun _ _ _ _ h => h.step) trivial)
  have hconsistent := hroom pre nowMs mid post u v rfl hpre hmid
  rcases converging_of_tickRun hsound hkept ⟨htick, hmid.one⟩ hconsistent with ⟨_, _, h, -⟩ | h
  · cases h.tick.symm.trans hgone
  · exact h.heard

/-! ## Two runs

Where Room gives one answer all along it is enough to look at the log. -/

end StreamSystem

/-- The snapshot that an event answers with. -/
def StreamEvent.answer? : StreamEvent → Option RoomSnapshot
  | getState _ _ answer => answer
  | getSnapshotsSince _ _ _ _ (some range) => range.snapshots.getLast?
  | _ => none

theorem Consistent.of_one {events : List StreamEvent} (snapshot : RoomSnapshot)
    (h : ∀ event ∈ events, ∀ answer ∈ event.answer?, answer = snapshot) : Consistent events := by
  intro roomId a b ha hb
  have hone : ∀ {answer}, Answered events roomId answer → answer = snapshot := by
    rintro answer (⟨requestId, hmem⟩ | ⟨id, sinceFrame, requestId, range, hmem, -, hlast⟩)
    · exact h _ hmem answer rfl
    · exact h _ hmem answer hlast
  rw [hone ha, hone hb]

namespace StreamSystem

variable {c : StreamConfig} {s : StreamSystem} {ops : List StreamOp}

theorem consistentRoom_of_log (hrun : Run (SoloStep c) {} ops s) (h : Consistent s.log) :
    ConsistentRoom c ops := by
  rintro pre nowMs mid post u v rfl hpre hmid
  obtain ⟨v', hrun', hpost⟩ := Run.append_iff.mp hrun
  obtain rfl := hrun'.unique (fun _ _ _ _ h h' => h.2.trans h'.2.symm) (hpre.append hmid.run)
  refine h.of_subset fun event hmem => ?_
  exact (log_prefix_of_run hpost).subset (List.mem_of_mem_drop hmem)

def aliceJoins : List StreamOp :=
  [.subscribe "alice" "r-1" true {}, .resumeCall 0 {}, .resumeCall 0 {}]

/-- bob was connected before. -/
def bobReturns : List StreamOp :=
  [.subscribe "bob" "r-1" true { lastEventId := some 0 }, .resumeCall 1 {}, .resumeCall 1 {}]

/-- bob is shown the frames that he has missed, and then Room is asked for the state. -/
def backfilledFirst : List StreamOp :=
  [.resumeTick { range := some { snapshots := [{}] } }, .resumeTick {}, .resumeTick {}, .resumeTick {},
    .resumeTick { state := some {} }, .resumeTick {}, .resumeTick {}]

/-- bob returns when alice was shown the state. -/
def shownBefore : List StreamOp :=
  aliceJoins ++ [.tick 1000, .resumeTick {}, .resumeTick { state := some {} }, .resumeTick {},
    .resumeTick {}, .resumeTick {}, .resumeTick {}] ++ bobReturns ++ .tick 1100 :: backfilledFirst

theorem converges_of_run_shownBefore : Converges {} shownBefore := by
  have hrun : Run (ShownStep {}) {} shownBefore (shownBefore.foldl (next {}) {}) :=
    Run.of_guarded (by decide)
  exact converges_of_run hrun (consistentRoom_of_log (solo_of_run hrun) (.of_one {} (by decide)))

/-- alice and bob wait for the first `Tick`. -/
def bothWait : StreamSystem := (aliceJoins ++ bobReturns).foldl (next {}) {}

/-- The first `Tick`, to its end. -/
def firstTick : List StreamOp := backfilledFirst ++ [.resumeTick {}]

def afterFirstTick : StreamSystem := (.tick 1000 :: firstTick).foldl (next {}) bothWait

/-- The first `Tick` that collects alice backfills bob, and shows her nothing. -/
theorem not_converges : ¬∀ c ops s, Run (SoloStep c) {} ops s → ConsistentRoom c ops →
    Converges c ops := by
  intro h
  have hpre : Run (SoloStep {}) {} (aliceJoins ++ bobReturns) bothWait := Run.of_guarded (by decide)
  have hmid : Run (SoloStep {}) bothWait (.tick 1000 :: firstTick) afterFirstTick :=
    Run.of_guarded (by decide)
  have hrun := hpre.append hmid
  have hroom := consistentRoom_of_log hrun (.of_one {} (by decide))
  have hends : afterFirstTick.tick = .reporting [] := by decide
  have hcollected : ⟨"r-1", [1], "room:r-1"⟩ ∈ bothWait.hub.byRoom 1000 := by decide
  have hasked : .getState "r-1" "room:r-1" (some {}) ∈
      afterFirstTick.log.drop bothWait.log.length := by decide
  obtain ⟨sub, hsub⟩ : ∃ sub, afterFirstTick.sub? 1 = some sub :=
    Option.isSome_iff_exists.mp (by decide)
  have hshown := h {} _ _ hrun hroom _ 1000 firstTick [] _ _ (List.append_nil _).symm hpre
    ⟨hmid, by simp [firstTick, backfilledFirst]⟩ ⟨[], hends⟩ _ hcollected _ {} hasked rfl 1
    (List.mem_singleton_self 1) sub hsub
  have hnothing : afterFirstTick.lastShown 1 = none := by decide
  cases hnothing.symm.trans hshown

end StreamSystem

end RealtimeGame.Gateway
