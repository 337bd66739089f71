import RealtimeGame.Gateway.Backfill

/-!
# Gateway/StreamDrain — what is left when the hub is drained

`BeginShutdown` turns later calls of `Subscribe` away, and `CloseAll` or `CloseAllWithEvent` takes every
subscription there is and ends it.  A `Subscribe` that was let in before may register after that, and
nobody ends what it registers; a `Tick` on its way keeps the sinks it has collected, and may write to one
that was told that its stream is closed.
-/

open Library

namespace RealtimeGame.Gateway

/-- `CloseAll` or `CloseAllWithEvent`. -/
def StreamOp.closesAll : StreamOp → Bool
  | closeAll | closeAllWithEvent _ => true
  | _ => false

/-- `Subscribe` and `Tick`, and the steps of a call. -/
def StreamOp.serves : StreamOp → Bool
  | subscribe .. | tick _ | resumeTick _ | resumeCall .. => true
  | _ => false

namespace StreamEvent

/-- The subscription that is written to. -/
def writes : StreamEvent → Option Nat
  | write id _ _ => some id
  | _ => none

/-- The subscription that is told that its stream is closed. -/
def tellsClosed : StreamEvent → Option Nat
  | write id (.streamClosed ..) _ => some id
  | _ => none

/-- Nothing follows a `stream.closed`. -/
def LeavesAlone (event event' : StreamEvent) : Prop := ∀ id ∈ event.tellsClosed, event'.writes ≠ some id

instance : DecidableRel LeavesAlone := fun event event' =>
  inferInstanceAs (Decidable (∀ id ∈ event.tellsClosed, event'.writes ≠ some id))

theorem leavesAlone_of_tellsClosed {event event' : StreamEvent} (h : event.tellsClosed = none) :
    event.LeavesAlone event' := by
  rintro id hid
  cases h.symm.trans hid

end StreamEvent

/-- **The condition** on what a call does next, once every subscription was taken: it registers none, and
tells nobody that its stream is closed whom the `Tick` on its way may write to. -/
def Call.InTime (jobs : List Job) : Call → Prop
  | register .. => False
  | writeClosed id _ => ∀ job ∈ jobs, id ∉ job.ids
  | report .. | close _ => True

instance (jobs : List Job) : DecidablePred (Call.InTime jobs)
  | .register .. => .isFalse id
  | .writeClosed id _ => inferInstanceAs (Decidable (∀ job ∈ jobs, id ∉ job.ids))
  | .report .. | .close _ => .isTrue trivial

/-- The subscription that a call is about to tell that its stream is closed. -/
def Call.closing : Call → Option Nat
  | writeClosed id _ => some id
  | _ => none

namespace StreamSystem

variable (s : StreamSystem)

/-- **Drained** — no subscription is left, every sink that was registered is closed (ids are handed out in
order, from 1), and none was written to after its `stream.closed`. -/
structure Drained : Prop where
  empty : ∀ id, s.sub? id = none
  closed : ∀ id, 0 < id → id < s.hub.nextId → .close id ∈ s.log
  silent : s.log.Pairwise StreamEvent.LeavesAlone

/-- **The condition** on a step. -/
def InTime : StreamOp → Prop
  | .resumeCall call _ => ∀ step ∈ s.calls[call]?.bind List.head?, step.InTime s.tick.jobs
  | _ => True

instance : DecidablePred s.InTime
  | .resumeCall call _ =>
    inferInstanceAs (Decidable (∀ step ∈ s.calls[call]?.bind List.head?, step.InTime s.tick.jobs))
  | .subscribe .. | .unsubscribe _ | .tick _ | .closeAll | .beginShutdown | .closeAllWithEvent _
  | .resumeTick _ => .isTrue trivial

/-- One step before every subscription is taken. -/
def OpenStep (c : StreamConfig) (s : StreamSystem) (op : StreamOp) (s' : StreamSystem) : Prop :=
  (op.closesAll = false ∧ s.Sequential op) ∧ s' = s.next c op

/-- One step after that, which meets the condition. -/
def InTimeStep (c : StreamConfig) (s : StreamSystem) (op : StreamOp) (s' : StreamSystem) : Prop :=
  (s.InTime op ∧ op.closesAll = false ∧ s.Sequential op) ∧ s' = s.next c op

variable {s} {s' : StreamSystem} {c : StreamConfig} {op : StreamOp}

/-! ## Every sink is accounted for

Ids are handed out one after another.  Each is in the table, or was closed, or is about to be. -/

/-- **Whoever was registered** still is, or its sink is closed or about to be. -/
def Accounted (s : StreamSystem) : Prop :=
  ∀ id, 0 < id → id < s.hub.nextId → (∃ sub, s.sub? id = some sub) ∨ .close id ∈ s.log ∨
    ∃ call ∈ s.calls, .close id ∈ call

theorem Accounted.start : Accounted {} := fun _ hpos hlt => absurd hlt (Nat.not_lt_of_le hpos)

/-- Whoever is taken from the table is about to be closed. -/
theorem close_of_taken {id : Nat} {sub : Subscription} (h : s.sub? id = some sub) :
    .close id ∈ s.hub.subscriptions.toPairs.flatMap endCalls :=
  List.mem_flatMap.mpr ⟨(id, sub), Table.mem_toPairs.mpr h, List.mem_cons_of_mem _ (List.mem_singleton_self _)⟩

/-- **One step**: whoever leaves the table has been closed, or is about to be. -/
theorem Accounted.step (h : s.Accounted) (hstep : Step c s op s') : s'.Accounted := by
  obtain ⟨-, rfl⟩ := hstep
  -- A call that starts makes nobody less accounted for.
  have hstart : ∀ {hub calls}, hub.nextId = s.hub.nextId →
      (∀ id sub, s.sub? id = some sub → (∃ sub, hub.subscriptions.lookup id = some sub) ∨ .close id ∈ calls) →
      (s.start hub calls).Accounted := by
    intro hub calls hnextId hsubs id hpos hlt
    change id < hub.nextId at hlt
    rw [hnextId] at hlt
    rcases h id hpos hlt with ⟨sub, hsub⟩ | hlog | ⟨call, hcall, hclose⟩
    · rcases hsubs id sub hsub with hkept | hclose
      · exact .inl hkept
      · exact .inr (.inr ⟨calls, List.mem_append_right _ (List.mem_singleton_self _), hclose⟩)
    · exact .inr (.inl hlog)
    · exact .inr (.inr ⟨call, List.mem_append_left _ hcall, hclose⟩)
  rcases op with ⟨playerId, roomId, hasSink, options⟩ | id' | nowMs | - | - | reason | answer |
    ⟨call, answer⟩
  · simp only [next]
    split
    · exact h
    · exact hstart rfl fun id sub hsub => .inl ⟨sub, hsub⟩
  · simp only [next]
    split
    case h_1 => exact h
    case h_2 sub hlookup =>
      refine hstart rfl fun id sub' hsub => ?_
      simp only [StreamHub.unsubscribeLocked, Table.lookup_erase']
      split
      case isTrue heq =>
        subst heq
        exact .inr (List.mem_cons_of_mem _ (List.mem_singleton_self _))
      case isFalse => exact .inl ⟨sub', hsub⟩
  · intro id hpos hlt
    refine (h id hpos hlt).imp_left ?_
    rintro ⟨sub, hsub⟩
    exact ⟨sub.seen nowMs, by rw [sub?_tick, hsub, Option.map_some]⟩
  · exact hstart rfl fun id sub hsub => .inr (close_of_taken hsub)
  · exact h
  · exact hstart rfl fun id sub hsub => .inr (List.mem_append_right _ (close_of_taken hsub))
  · simp only [next, resumeTick]
    split
    case h_1 vars job jobs htick =>
      intro id hpos hlt
      rw [Job.run_nextId] at hlt
      simp only [sub?, Job.run_subscriptions]
      exact (h id hpos hlt).imp_right (.imp_left (List.mem_append_left _))
    case h_2 vars htick =>
      intro id hpos hlt
      rw [StreamHub.nextId_commit] at hlt
      simp only [sub?, StreamHub.lookup_commit]
      rcases h id hpos hlt with ⟨sub, hsub⟩ | hlog | hcalls
      · split
        case isTrue hfailed =>
          right
          left
          refine List.mem_append_right _ (List.mem_map.mpr ⟨(id, sub.committed vars id), ?_, rfl⟩)
          exact StreamHub.mem_snd_commit.mpr ⟨hfailed, congrArg (Option.map (·.committed vars id)) hsub⟩
        case isFalse => exact .inl ⟨_, congrArg (Option.map (·.committed vars id)) hsub⟩
      · exact .inr (.inl (List.mem_append_left _ hlog))
      · exact .inr (.inr hcalls)
    case h_3 => exact fun id hpos hlt => (h id hpos hlt).imp_right (.imp_left (List.mem_append_left _))
    case h_4 => exact h
  · simp only [next, resumeCall]
    split
    case h_1 step rest hcall =>
      have hkeep : ∀ {more id}, (∃ call' ∈ s.calls, .close id ∈ call') → step ≠ .close id →
          ∃ call' ∈ s.calls.set call (more ++ rest), .close id ∈ call' := by
        rintro more id ⟨call', hcall', hclose⟩ hne
        obtain ⟨n, hn⟩ := List.mem_iff_getElem?.mp hcall'
        by_cases heq : n = call
        · obtain rfl := heq
          cases hcall.symm.trans hn
          refine ⟨more ++ rest, List.mem_set (List.getElem?_eq_some_iff.mp hcall).1 _, ?_⟩
          exact List.mem_append_right _ ((List.mem_cons.mp hclose).resolve_left fun h => hne h.symm)
        · refine ⟨call', List.mem_iff_getElem?.mpr ⟨n, ?_⟩, hclose⟩
          rw [List.getElem?_set_ne (Ne.symm heq), hn]
      have hall : ∀ id, 0 < id → id < s.hub.nextId → step ≠ .close id →
          (∃ sub, s.sub? id = some sub) ∨ .close id ∈ s.log ∨
            ∃ call' ∈ s.calls.set call ((step.run c answer s.hub).2.1 ++ rest), .close id ∈ call' :=
        fun id hpos hlt hne => (h id hpos hlt).imp_right (.imp_right fun hcalls => hkeep hcalls hne)
      cases step
      case register playerId roomId options =>
        intro id hpos hlt
        simp only [Call.run, StreamHub.subscribeLocked, sub?, Table.lookup_insert']
        split
        · exact .inl ⟨_, rfl⟩
        case isFalse hne =>
          exact (hall id hpos (Nat.lt_of_le_of_ne (Nat.le_of_lt_succ hlt) hne) fun heq => by cases heq).imp_right
            (.imp_left (List.mem_append_left _))
      case report | writeClosed =>
        exact fun id hpos hlt => (hall id hpos hlt fun heq => by cases heq).imp_right
          (.imp_left (List.mem_append_left _))
      case close id' =>
        intro id hpos hlt
        by_cases heq : id' = id
        · subst heq
          exact .inr (.inl (List.mem_append_right _ (List.mem_singleton_self _)))
        · exact (hall id hpos hlt fun h => heq (Call.close.inj h)).imp_right (.imp_left (List.mem_append_left _))
    case h_2 => exact h

/-! ## Who is about to be told

What the calls on their way have yet to write. -/

/-- Whoever is about to be told that its stream is closed. -/
def closings (s : StreamSystem) : List Nat := s.calls.flatMap (·.filterMap Call.closing)

/-- Where one item of a list is replaced. -/
theorem flatMap_set {α β : Type} (f : α → List β) {l : List α} {n : Nat} {x : α} (h : l[n]? = some x)
    (y : α) : ∃ front back, l.flatMap f = front ++ (f x ++ back) ∧
      (l.set n y).flatMap f = front ++ (f y ++ back) := by
  obtain ⟨hlt, rfl⟩ := List.getElem?_eq_some_iff.mp h
  have hset : ∀ z, (l.set n z).flatMap f = (l.take n).flatMap f ++ (f z ++ (l.drop (n + 1)).flatMap f) := by
    intro z
    rw [List.set_eq_take_append_cons_drop, if_pos hlt, List.flatMap_append, List.flatMap_cons]
  refine ⟨_, _, ?_, hset y⟩
  rw [← hset l[n], List.set_getElem_self]

theorem filterMap_closing_endCalls (e : Nat × Subscription) : (endCalls e).filterMap Call.closing = [] := rfl

theorem filterMap_closing_flatMap (es : List (Nat × Subscription)) :
    (es.flatMap endCalls).filterMap Call.closing = [] := by
  rw [List.filterMap_flatMap]
  exact List.flatMap_eq_nil_iff.mpr fun e _ => filterMap_closing_endCalls e

/-- A call that begins brings its own. -/
theorem closings_start (hub : StreamHub) (calls : List Call) :
    (s.start hub calls).closings = s.closings ++ calls.filterMap Call.closing := by
  rw [closings, start, List.flatMap_append, List.flatMap_singleton]
  rfl

/-- Only `CloseAllWithEvent` adds to them. -/
theorem closings_next (hop : ∀ reason, op ≠ .closeAllWithEvent reason) :
    (s.next c op).closings.Sublist s.closings := by
  have hnone : ∀ hub calls, calls.filterMap Call.closing = [] →
      (s.start hub calls).closings.Sublist s.closings := by
    intro hub calls hcalls
    rw [closings_start, hcalls, List.append_nil]
  rcases op with ⟨playerId, roomId, hasSink, options⟩ | id' | nowMs | - | - | reason | answer |
    ⟨call, answer⟩
  · simp only [next]
    split
    · exact List.Sublist.refl _
    · exact hnone _ _ rfl
  · simp only [next]
    split
    · exact List.Sublist.refl _
    · exact hnone _ _ rfl
  · exact List.Sublist.refl _
  · exact hnone _ _ (filterMap_closing_flatMap _)
  · exact List.Sublist.refl _
  · exact absurd rfl (hop reason)
  · simp only [next, resumeTick]
    split <;> exact List.Sublist.refl _
  · simp only [next, resumeCall]
    split
    case h_1 step rest hcall =>
      obtain ⟨front, back, hold, hnew⟩ := flatMap_set (·.filterMap Call.closing) hcall
        ((step.run c answer s.hub).2.1 ++ rest)
      simp only [closings]
      rw [hold, hnew, List.filterMap_append]
      refine List.Sublist.append_left (List.Sublist.append_right ?_ back) front
      cases step
      case writeClosed => exact List.sublist_cons_self _ _
      all_goals exact List.Sublist.refl _
    case h_2 => exact List.Sublist.refl _

/-! ## Before every subscription is taken

Nobody is told that his stream is closed, before all are taken from the table. -/

/-- A job tells nobody that its stream is closed. -/
theorem tellsClosed_of_job {job : Job} {answer : Answer} {hub : StreamHub} {t : TickState}
    {event : StreamEvent} (hpush : job.PushesFrame) (h : event ∈ (job.run c answer hub t).events) :
    event.tellsClosed = none := by
  have hframe : ∀ (id : Nat) (snapshot : RoomSnapshot) (nowMs : Int) (ok : Bool),
      (StreamEvent.write id (frameEvent snapshot nowMs) ok).tellsClosed = none := by
    intro id snapshot nowMs ok
    unfold frameEvent
    split <;> rfl
  cases job
  case backfill target =>
    simp only [Job.run] at h
    split_ifs at h
    · cases h
    · cases h
    · split at h
      · cases h
      · cases List.mem_singleton.mp h
        rfl
  case push id event closes =>
    obtain ⟨snapshot, nowMs, rfl⟩ := hpush
    cases List.mem_singleton.mp h
    exact hframe _ _ _ _
  case frame =>
    cases List.mem_singleton.mp h
    exact hframe _ _ _ _
  case current | reset | poll | ready | heartbeat =>
    cases List.mem_singleton.mp h
    rfl
  all_goals cases h

/-- A call tells that a stream is closed. -/
def Closes (s : StreamSystem) (op : StreamOp) : Prop :=
  ∃ call answer id reason rest, op = .resumeCall call answer ∧
    s.calls[call]? = some (.writeClosed id reason :: rest)

/-- Every other step tells it to nobody, and writes to whom a job is about. -/
theorem tellsClosed_next (hpushes : ∀ job ∈ s.tick.jobs, job.PushesFrame) (hno : ¬s.Closes op) :
    ∃ events, (s.next c op).log = s.log ++ events ∧ ∀ event ∈ events, event.tellsClosed = none ∧
      ∀ id, event.writes = some id → ∃ job ∈ s.tick.jobs, id ∈ job.ids := by
  obtain ⟨events, hlog, hevents⟩ := events_next c s op
  refine ⟨events, hlog, fun event hevent => ?_⟩
  rcases hevents event hevent with ⟨answer, vars, job, jobs, rfl, htick, hmem⟩ |
    ⟨call, answer, id, reason, rest, hop, hcall, -⟩ | ⟨_, _, _, _, rfl⟩ | ⟨_, rfl⟩
  · have hjob := mem_jobs_head htick
    refine ⟨tellsClosed_of_job (hpushes job hjob) hmem, fun id hwrites => ⟨job, hjob, ?_⟩⟩
    refine Job.about_of_mem hmem ?_
    rcases event with _ | _ | _ | ⟨id', event, ok⟩ | _
    case write => exact hwrites
    all_goals cases hwrites
  · exact absurd ⟨call, answer, id, reason, rest, hop, hcall⟩ hno
  · exact ⟨rfl, fun _ hwrites => by cases hwrites⟩
  · exact ⟨rfl, fun _ hwrites => by cases hwrites⟩

/-- Nobody was told that its stream is closed, or is about to be. -/
structure Unclosed (s : StreamSystem) : Prop where
  pushes : ∀ job ∈ s.tick.jobs, job.PushesFrame
  log : ∀ event ∈ s.log, event.tellsClosed = none
  calls : s.closings = []

theorem mem_closings {call id : Nat} {reason : String} {rest : List Call}
    (h : s.calls[call]? = some (.writeClosed id reason :: rest)) : id ∈ s.closings :=
  List.mem_flatMap.mpr ⟨_, List.mem_of_getElem? h, List.mem_cons_self⟩

theorem Unclosed.start : Unclosed {} where
  pushes _ hjob := by cases hjob
  log _ hevent := by cases hevent
  calls := rfl

/-- **One step before it**: nobody was told that his stream is closed. -/
theorem Unclosed.step (h : s.Unclosed) (hstep : OpenStep c s op s') : s'.Unclosed := by
  obtain ⟨⟨hopen, -⟩, rfl⟩ := hstep
  have hno : ¬s.Closes op := by
    rintro ⟨call, answer, id, reason, rest, -, hcall⟩
    have hmem := mem_closings hcall
    rw [h.calls] at hmem
    cases hmem
  obtain ⟨events, hlog, hevents⟩ := tellsClosed_next (c := c) h.pushes hno
  refine ⟨pushesFrame_next h.pushes, ?_, ?_⟩
  · rw [hlog]
    intro event hevent
    exact (List.mem_append.mp hevent).elim (h.log event) fun hnew => (hevents event hnew).1
  · refine List.sublist_nil.mp (h.calls ▸ closings_next fun reason hop => ?_)
    subst hop
    cases hopen

/-! ## After it

The table stays empty, and each sink that was taken is told once. -/

/-- **While the hub is drained** nobody is registered, each is told once that its stream is closed, and
nobody who was told is about to be written to. -/
structure Draining (s : StreamSystem) : Prop where
  empty : ∀ id, s.sub? id = none
  pushes : ∀ job ∈ s.tick.jobs, job.PushesFrame
  silent : s.log.Pairwise StreamEvent.LeavesAlone
  once : s.closings.Nodup
  after : ∀ id, (∃ event ∈ s.log, event.tellsClosed = some id) →
    (∀ job ∈ s.tick.jobs, id ∉ job.ids) ∧ id ∉ s.closings

/-- Every subscription is taken. -/
theorem Unclosed.draining (h : s.Unclosed) (hop : op.closesAll = true) : (s.next c op).Draining := by
  have hafter : ∀ id, ¬∃ event ∈ s.log, event.tellsClosed = some id := by
    rintro id ⟨event, hevent, htells⟩
    cases (h.log event hevent).symm.trans htells
  have hsilent : s.log.Pairwise StreamEvent.LeavesAlone :=
    List.pairwise_of_forall_mem_list fun event hevent _ _ =>
      StreamEvent.leavesAlone_of_tellsClosed (h.log event hevent)
  cases op
  case closeAll =>
    refine ⟨fun _ => rfl, h.pushes, hsilent, ?_, fun id htold => absurd htold (hafter id)⟩
    rw [next, closings_start, h.calls, filterMap_closing_flatMap]
    exact List.nodup_nil
  case closeAllWithEvent reason =>
    refine ⟨fun _ => rfl, h.pushes, hsilent, ?_, fun id htold => absurd htold (hafter id)⟩
    rw [next, closings_start, h.calls, List.filterMap_append, filterMap_closing_flatMap, List.append_nil,
      List.nil_append, List.filterMap_map]
    exact (congrFun List.filterMap_eq_map' _).symm ▸ Table.nodup_toPairs s.hub.subscriptions
  all_goals cases hop

/-- Nobody comes back. -/
theorem empty_next (hempty : ∀ id, s.sub? id = none) (hintime : s.InTime op) (id : Nat) :
    (s.next c op).sub? id = none := by
  rcases op with ⟨playerId, roomId, hasSink, options⟩ | id' | nowMs | - | - | reason | answer |
    ⟨call, answer⟩
  · simp only [next]
    split <;> exact hempty id
  · simp only [next]
    split
    case h_1 => exact hempty id
    case h_2 sub hsub => cases (hempty id').symm.trans hsub
  · rw [sub?_tick, hempty id]
    rfl
  · rfl
  · exact hempty id
  · rfl
  · simp only [next, resumeTick]
    split
    · rw [sub?, Job.run_subscriptions]
      exact hempty id
    · rw [sub?, StreamHub.lookup_commit, show s.hub.subscriptions.lookup id = none from hempty id]
      exact ite_self none
    · exact hempty id
    · exact hempty id
  · simp only [next, resumeCall]
    split
    case h_1 step rest hcall =>
      have hstep := hintime step (by rw [hcall]; rfl)
      cases step
      case register => cases hstep
      all_goals exact hempty id
    case h_2 => exact hempty id

/-- One sink is told that its stream is closed. -/
theorem Draining.told (h : s.Draining) {call id : Nat} {reason : String} {rest : List Call} {answer : Answer}
    (hcall : s.calls[call]? = some (.writeClosed id reason :: rest))
    (hintime : ∀ job ∈ s.tick.jobs, id ∉ job.ids) : (s.next c (.resumeCall call answer)).Draining := by
  have hnext : s.next c (.resumeCall call answer) = { s with
      calls := s.calls.set call rest
      log := s.log ++ [.write id (.streamClosed reason answer.systemNowMs) answer.wrote] } := by
    simp only [next, resumeCall, hcall]
    rfl
  obtain ⟨front, back, hold, hnew⟩ := flatMap_set (·.filterMap Call.closing) hcall rest
  have hclosings : s.closings = front ++ (id :: (rest.filterMap Call.closing ++ back)) := hold
  rw [hnext]
  constructor
  · exact h.empty
  · exact h.pushes
  · refine List.pairwise_append.mpr ⟨h.silent, List.pairwise_singleton _ _, fun event hevent event' hevent' => ?_⟩
    obtain rfl := List.mem_singleton.mp hevent'
    rintro id' htells hwrites
    obtain rfl := Option.some.inj hwrites
    exact (h.after id ⟨event, hevent, htells⟩).2 (mem_closings hcall)
  · have honce := h.once
    rw [hclosings] at honce
    simp only [closings]
    rw [hnew]
    exact honce.sublist (List.Sublist.append_left (List.sublist_cons_self _ _) front)
  · rintro id' ⟨event, hevent, htells⟩
    simp only [closings]
    rw [hnew]
    rcases List.mem_append.mp hevent with hbefore | hnow
    · obtain ⟨hjobs, hout⟩ := h.after id' ⟨event, hbefore, htells⟩
      refine ⟨hjobs, fun hmem => hout ?_⟩
      rw [hclosings]
      exact (List.Sublist.append_left (List.sublist_cons_self _ _) front).subset hmem
    · obtain rfl := List.mem_singleton.mp hnow
      obtain rfl := Option.some.inj htells
      have honce := h.once
      rw [hclosings, ← List.cons_append] at honce
      refine ⟨hintime, fun hmem => ?_⟩
      exact (List.nodup_cons.mp (List.nodup_middle.mp honce)).1 hmem

/-- **One step after it.** -/
theorem Draining.step (h : s.Draining) (hstep : InTimeStep c s op s') : s'.Draining := by
  obtain ⟨⟨hintime, hopen, -⟩, rfl⟩ := hstep
  by_cases hcloses : s.Closes op
  · obtain ⟨call, answer, id, reason, rest, rfl, hcall⟩ := hcloses
    have htell : Call.InTime s.tick.jobs (.writeClosed id reason) := hintime _ (by rw [hcall]; rfl)
    exact h.told hcall htell
  obtain ⟨events, hlog, hevents⟩ := tellsClosed_next (c := c) h.pushes hcloses
  have hclosings : (s.next c op).closings.Sublist s.closings := by
    refine closings_next fun reason hop => ?_
    subst hop
    cases hopen
  constructor
  · exact empty_next h.empty hintime
  · exact pushesFrame_next h.pushes
  · rw [hlog]
    refine List.pairwise_append.mpr ⟨h.silent, ?_, fun event hevent event' hevent' id htells hwrites => ?_⟩
    · exact List.pairwise_of_forall_mem_list fun event hevent _ _ =>
        StreamEvent.leavesAlone_of_tellsClosed (hevents event hevent).1
    · obtain ⟨job, hjob, hid⟩ := (hevents event' hevent').2 id hwrites
      exact (h.after id ⟨event, hevent, htells⟩).1 job hjob hid
  · exact h.once.sublist hclosings
  · rintro id ⟨event, hevent, htells⟩
    rw [hlog] at hevent
    have hold := (List.mem_append.mp hevent).resolve_right fun hnew =>
      by cases (hevents event hnew).1.symm.trans htells
    obtain ⟨hjobs, hout⟩ := h.after id ⟨event, hold, htells⟩
    refine ⟨fun job hjob hid => ?_, fun hmem => hout (hclosings.subset hmem)⟩
    rcases jobs_next hjob hid with ⟨job', hjob', hid'⟩ | ⟨sub, hsub⟩
    · exact hjobs job' hjob' hid'
    · cases (h.empty id).symm.trans hsub

/-- **Nothing is left behind**, in every run that meets the condition once every subscription was taken. -/
theorem drained_of_run {m : StreamSystem} {pre post : List StreamOp} {close : StreamOp}
    (hpre : Run (OpenStep c) {} pre m) (hclose : close.closesAll = true)
    (hpost : Run (InTimeStep c) (m.next c close) post s) (hsettled : s.Settled) : s.Drained := by
  have hopen : m.Unclosed ∧ m.Accounted := hpre.invariant (I := fun s => s.Unclosed ∧ s.Accounted)
    (fun _ _ _ h hstep => ⟨h.1.step hstep, h.2.step ⟨hstep.1.2, hstep.2⟩⟩) ⟨.start, .start⟩
  have hnow : (m.next c close).Accounted := by
    refine hopen.2.step (c := c) ⟨?_, rfl⟩
    cases close
    case tick => cases hclose
    all_goals trivial
  obtain ⟨hdraining, haccounted⟩ := hpost.invariant (I := fun s => s.Draining ∧ s.Accounted)
    (fun _ _ _ h hstep => ⟨h.1.step hstep, h.2.step ⟨hstep.1.2.2, hstep.2⟩⟩) ⟨hopen.1.draining hclose, hnow⟩
  refine ⟨hdraining.empty, fun id hpos hlt => ?_, hdraining.silent⟩
  rcases haccounted id hpos hlt with ⟨sub, hsub⟩ | hlog | ⟨call, hcall, hmem⟩
  · cases (hdraining.empty id).symm.trans hsub
  · exact hlog
  · rw [hsettled.2 call hcall] at hmem
    cases hmem

/-- alice and bob subscribe, a `Tick` is over, and the hub is drained. -/
def beforeDrain : List StreamOp :=
  [.subscribe "alice" "r-1" true {}, .resumeCall 0 {}, .resumeCall 0 {},
    .subscribe "bob" "r-1" true {}, .resumeCall 1 {}, .resumeCall 1 {},
    .tick 1000, .resumeTick {}, .resumeTick { state := some { frame := 1 } }, .resumeTick {},
    .resumeTick {}, .resumeTick {}, .resumeTick {}, .resumeTick {}, .resumeTick {},
    .beginShutdown]

/-- Both are told, and then both are closed. -/
def whileDrained : List StreamOp := .replicate 6 (.resumeCall 2 {})

theorem drained_of_run_whileDrained : Drained (whileDrained.foldl (next {})
    ((beforeDrain.foldl (next {}) {}).next {} (.closeAllWithEvent "server_shutdown"))) :=
  drained_of_run (Run.of_guarded (by decide)) rfl (Run.of_guarded (by decide)) (by decide)

/-- alice is let in before `BeginShutdown`, and registers when every subscription was taken. -/
theorem not_drained_of_run : ¬∀ (c : StreamConfig) (pre post : List StreamOp) (reason : String)
    (s : StreamSystem), pre.filter (!·.serves) = [.beginShutdown] → (∀ op ∈ post, op.serves = true) →
    Run (Step c) {} (pre ++ .closeAllWithEvent reason :: post) s → s.Settled → s.Drained := by
  intro h
  have hrun : Run (Step {}) {} ([.subscribe "alice" "r-1" true {}, .beginShutdown] ++
      .closeAllWithEvent "server_shutdown" :: [.resumeCall 0 {}, .resumeCall 0 {}]) _ :=
    Run.of_guarded (by decide)
  exact absurd ((h {} _ _ _ _ (by decide) (by decide) hrun (by decide)).empty 1) (by decide)

/-- A `Tick` that has collected alice's sink pushes to it after its `stream.closed`. -/
theorem not_silent_of_run : ¬∀ (c : StreamConfig) (pre post : List StreamOp) (reason : String)
    (s : StreamSystem), pre.filter (!·.serves) = [.beginShutdown] → (∀ op ∈ post, op.serves = true) →
    Run (Step c) {} (pre ++ .closeAllWithEvent reason :: post) s → s.Settled →
    s.log.Pairwise StreamEvent.LeavesAlone := by
  intro h
  have hrun : Run (Step {}) {} ([.subscribe "alice" "r-1" true {}, .resumeCall 0 {}, .resumeCall 0 {},
      .beginShutdown, .tick 1000] ++ .closeAllWithEvent "server_shutdown" ::
        [.resumeCall 1 {}, .resumeTick {}, .resumeTick { state := some { frame := 1 } }, .resumeTick {},
          .resumeTick {}, .resumeTick {}, .resumeTick {}, .resumeCall 1 {}, .resumeCall 1 {}]) _ :=
    Run.of_guarded (by decide)
  exact absurd (h {} _ _ _ _ (by decide) (by decide) hrun (by decide)) (by decide)

end StreamSystem

end RealtimeGame.Gateway
