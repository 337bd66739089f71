import Mathlib.Data.List.Dedup
import Mathlib.Order.Basic
import RealtimeGame.Library.Run
import RealtimeGame.Gateway.StreamSystem

/-!
# Gateway/StreamLaws — what one step does to one subscription

Each lock section is described by what it makes of one subscription (`lookup_commit`, `lookup_seen`),
each job by the ids it is about.  `lookup_next` says it of every step of the system; ids are handed out
once (`Sound`).
-/

open Library

namespace RealtimeGame.Gateway

/-! ## One subscription in the last section of `Tick`

What was noted is carried out: who failed is dropped, and the others are marked. -/

namespace Subscription

variable {t : TickState} {id : Nat} {s : Subscription}

/-- What the last section of `Tick` makes of a subscription whose sink did not fail. -/
def committed (t : TickState) (id : Nat) (s : Subscription) : Subscription :=
  let s := ((t.backfilled.filter (·.1 = id)).getLast?).elim s (s.backfilled t.nowMs ·.2)
  let s := ((t.resetDone.filter (·.1 = id)).getLast?).elim s (s.reset ·.2)
  let s := if id ∈ t.backfillPendingKept then s.beat t.nowMs else s
  let s := if id ∈ t.needReady.map (·.id) then s.ready t.nowMs else s
  if id ∈ t.needHeartbeat then s.beat t.nowMs else s

/-- A change that all parts of `committed` make or leave alone. -/
theorem committed_induction {P : Subscription → Prop} (hs : P s)
    (hbackfilled : ∀ s frames, id ∈ t.backfilled.map (·.1) → P s → P (s.backfilled t.nowMs frames))
    (hreset : ∀ s reason, P s → P (s.reset reason))
    (hbeat : ∀ s, id ∈ t.backfillPendingKept ∨ id ∈ t.needHeartbeat → P s → P (s.beat t.nowMs))
    (hready : ∀ s, id ∈ t.needReady.map (·.id) → P s → P (s.ready t.nowMs)) :
    P (s.committed t id) := by
  have hfirst : ∀ s, P s → P (((t.backfilled.filter (·.1 = id)).getLast?).elim s
      (s.backfilled t.nowMs ·.2)) := by
    intro s hs
    cases he : (t.backfilled.filter (·.1 = id)).getLast? with
    | none => exact hs
    | some e =>
      obtain ⟨hmem, heq⟩ := List.mem_filter.mp (List.mem_of_getLast? he)
      exact hbackfilled s e.2 (List.mem_map.mpr ⟨e, hmem, by simpa using heq⟩) hs
  have hsecond : ∀ s, P s → P (((t.resetDone.filter (·.1 = id)).getLast?).elim s
      (s.reset ·.2)) := by
    intro s hs
    cases (t.resetDone.filter (·.1 = id)).getLast? with
    | none => exact hs
    | some e => exact hreset s e.2 hs
  have hthird : ∀ s, P s → P (if id ∈ t.backfillPendingKept then s.beat t.nowMs else s) := by
    intro s hs
    split
    case isTrue hmem => exact hbeat s (.inl hmem) hs
    case isFalse => exact hs
  have hfourth : ∀ s, P s → P (if id ∈ t.needReady.map (·.id) then s.ready t.nowMs else s) := by
    intro s hs
    split
    case isTrue hmem => exact hready s hmem hs
    case isFalse => exact hs
  have hfifth : ∀ s, P s → P (if id ∈ t.needHeartbeat then s.beat t.nowMs else s) := by
    intro s hs
    split
    case isTrue hmem => exact hbeat s (.inr hmem) hs
    case isFalse => exact hs
  exact hfifth _ (hfourth _ (hthird _ (hsecond _ (hfirst _ hs))))

@[simp] theorem committed_createdMs : (s.committed t id).createdMs = s.createdMs :=
  committed_induction (P := fun s' => s'.createdMs = s.createdMs) rfl (fun _ _ _ h => h)
    (fun _ _ h => h) (fun _ _ h => h) (fun _ _ h => h)

@[simp] theorem committed_backfillMalformed :
    (s.committed t id).backfillMalformed = s.backfillMalformed :=
  committed_induction (P := fun s' => s'.backfillMalformed = s.backfillMalformed) rfl
    (fun _ _ _ h => h) (fun _ _ h => h) (fun _ _ h => h) (fun _ _ h => h)

/-- What is no longer pending stays so. -/
theorem committed_not_pending (h : s.backfillPending = false) :
    (s.committed t id).backfillPending = false :=
  committed_induction (P := fun s' => s'.backfillPending = false) h (fun _ _ _ _ => rfl)
    (fun _ _ h => h) (fun _ _ h => h) (fun _ _ h => h)

/-- A backfill that was done is no longer pending. -/
theorem committed_of_backfilled (h : id ∈ t.backfilled.map (·.1)) :
    (s.committed t id).backfillPending = false := by
  obtain ⟨e, he, heq⟩ := List.mem_map.mp h
  have hne : t.backfilled.filter (·.1 = id) ≠ [] :=
    List.ne_nil_of_mem (List.mem_filter.mpr ⟨he, by simpa using heq⟩)
  unfold committed
  rw [List.getLast?_eq_getLast_of_ne_nil hne]
  cases (t.resetDone.filter (·.1 = id)).getLast? <;> simp only [Option.elim] <;> split_ifs <;> rfl

/-- One that was not done is as it was. -/
theorem committed_of_not_backfilled (h : id ∉ t.backfilled.map (·.1)) :
    (s.committed t id).backfillPending = s.backfillPending ∧
      (s.committed t id).backfillFrom = s.backfillFrom :=
  committed_induction
    (P := fun s' => s'.backfillPending = s.backfillPending ∧ s'.backfillFrom = s.backfillFrom)
    ⟨rfl, rfl⟩ (fun _ _ hmem => absurd hmem h) (fun _ _ h => h) (fun _ _ h => h) (fun _ _ h => h)

/-- A heartbeat time that changes becomes that of this `Tick`. -/
theorem committed_lastHeartbeatMs (t : TickState) (id : Nat) (s : Subscription) :
    (s.committed t id).lastHeartbeatMs = s.lastHeartbeatMs ∨
      (s.committed t id).lastHeartbeatMs = t.nowMs :=
  committed_induction
    (P := fun s' => s'.lastHeartbeatMs = s.lastHeartbeatMs ∨ s'.lastHeartbeatMs = t.nowMs)
    (.inl rfl) (fun _ _ _ _ => .inr rfl) (fun _ _ h => h) (fun _ _ _ => .inr rfl)
    (fun _ _ _ => .inr rfl)

end Subscription

namespace StreamHub

variable {c : StreamConfig} {hub : StreamHub} {t : TickState} {nowMs : Int} {id : Nat}

theorem lookup_dropFailed (acc : StreamHub × List (Nat × Subscription)) (k : Nat) :
    (dropFailed acc k).1.subscriptions.lookup id =
      if id = k then none else acc.1.subscriptions.lookup id := by
  unfold dropFailed
  rcases hk : acc.1.subscriptions.lookup k with - | s
  · dsimp only
    split
    case isTrue heq => rw [heq, hk]
    case isFalse => rfl
  · exact Table.lookup_erase' _ _ _

theorem lookup_foldl_dropFailed (failed : List Nat)
    (acc : StreamHub × List (Nat × Subscription)) :
    (failed.foldl dropFailed acc).1.subscriptions.lookup id =
      if id ∈ failed then none else acc.1.subscriptions.lookup id := by
  induction failed generalizing acc with
  | nil => simp
  | cons k ks ih =>
    rw [List.foldl_cons, ih, lookup_dropFailed]
    by_cases hks : id ∈ ks
    · simp [hks]
    · by_cases hk : id = k <;> simp [hk, hks]

/-- What the section makes of a subscription before it removes those whose connection is gone. -/
theorem lookup_commitHeartbeats :
    (((((hub.commitBackfilled t).commitResets t).commitKept t).commitReady t).commitHeartbeats
      t).subscriptions.lookup id = (hub.subscriptions.lookup id).map (·.committed t id) := by
  have hbackfilled := Table.lookup_foldl_adjust_last (fun e : Nat × Nat => e.1)
    (f := fun e s => Subscription.backfilled t.nowMs e.2 s) (fun _ _ _ => rfl) t.backfilled
  have hreset := Table.lookup_foldl_adjust_last (fun e : Nat × ResetReason => e.1)
    (f := fun e s => Subscription.reset e.2 s) (fun _ _ _ => rfl) t.resetDone
  have hbeat : ∀ ids : List Nat, _ := Table.lookup_foldl_adjust
    (f := Subscription.beat t.nowMs) fun _ => rfl
  have hready := Table.lookup_foldl_adjust_all ReadyTarget.id
    (f := Subscription.ready t.nowMs) (fun _ => rfl) t.needReady
  simp only [commitHeartbeats, commitReady, commitKept, commitResets, commitBackfilled, hbeat,
    hready, hreset, hbackfilled, Option.map_map]
  rfl

/-- **The last section of `Tick`**, for one subscription. -/
theorem lookup_commit : (hub.commit t).1.subscriptions.lookup id =
    if id ∈ t.failed then none else (hub.subscriptions.lookup id).map (·.committed t id) := by
  rw [commit, lookup_foldl_dropFailed]
  exact if_congr Iff.rfl rfl lookup_commitHeartbeats

/-- The subscriptions it removes are those that failed. -/
theorem mem_snd_commit {s : Subscription} : (id, s) ∈ (hub.commit t).2 ↔
    id ∈ t.failed ∧ (hub.subscriptions.lookup id).map (·.committed t id) = some s := by
  have hdrop : ∀ (failed : List Nat) (acc : StreamHub × List (Nat × Subscription)),
      (id, s) ∈ (failed.foldl dropFailed acc).2 ↔
        (id, s) ∈ acc.2 ∨ id ∈ failed ∧ acc.1.subscriptions.lookup id = some s := by
    intro failed acc
    induction failed generalizing acc with
    | nil => simp
    | cons k ks ih =>
      have hsnd : (id, s) ∈ (dropFailed acc k).2 ↔
          (id, s) ∈ acc.2 ∨ id = k ∧ acc.1.subscriptions.lookup id = some s := by
        unfold dropFailed
        rcases hk : acc.1.subscriptions.lookup k with - | s'
        · simp only [iff_self_or]
          rintro ⟨rfl, hs⟩
          cases hk.symm.trans hs
        · simp only [List.mem_append, List.mem_singleton, Prod.mk.injEq]
          refine or_congr_right (and_congr_right ?_)
          rintro rfl
          rw [hk, Option.some.injEq, eq_comm]
      rw [List.foldl_cons, ih, hsnd, lookup_dropFailed]
      by_cases hk : id = k <;> simp [hk]
  rw [commit, hdrop, lookup_commitHeartbeats]
  simp

/-! ## One subscription in the first section of `Tick`

Everybody is looked at, and put on the lists that are due. -/

@[simp] theorem lookup_seen :
    (hub.seen nowMs).lookup id = (hub.subscriptions.lookup id).map (·.seen nowMs) :=
  Table.lookup_mapVals _ _ _

theorem mem_seen {s : Subscription} : (id, s) ∈ (hub.seen nowMs).toPairs ↔
    ∃ s₀, hub.subscriptions.lookup id = some s₀ ∧ s₀.seen nowMs = s := by
  rw [Table.mem_toPairs, lookup_seen, Option.map_eq_some_iff]

theorem nodup_seen : ((hub.seen nowMs).toPairs.map Prod.fst).Nodup := Table.nodup_toPairs _

/-- Every pending backfill is taken up. -/
theorem mem_needBackfill {target : BackfillTarget} : target ∈ hub.needBackfill nowMs ↔
    ∃ s, hub.subscriptions.lookup target.id = some s ∧ (s.seen nowMs).shouldBackfill = true ∧
      target = ⟨target.id, (s.seen nowMs).roomId, (s.seen nowMs).requestId,
        (s.seen nowMs).backfillFrom, (s.seen nowMs).backfillMalformed⟩ := by
  simp only [needBackfill, List.mem_map, List.mem_filter, Prod.exists, mem_seen]
  constructor
  · rintro ⟨id, _, ⟨⟨s, hs, rfl⟩, hshould⟩, rfl⟩
    exact ⟨s, hs, hshould, rfl⟩
  · rintro ⟨s, hs, hshould, htarget⟩
    exact ⟨target.id, _, ⟨⟨s, hs, rfl⟩, hshould⟩, htarget.symm⟩

/-- …and once. -/
theorem nodup_needBackfill : ((hub.needBackfill nowMs).map (·.id)).Nodup := by
  rw [needBackfill, List.map_map]
  exact nodup_seen.sublist (List.filter_sublist.map Prod.fst)

theorem mem_live {s : Subscription} : (id, s) ∈ hub.live nowMs ↔
    ∃ s₀, hub.subscriptions.lookup id = some s₀ ∧ s₀.seen nowMs = s ∧
      s.shouldBackfill = false := by
  simp only [live, List.mem_filter, mem_seen, Bool.not_eq_true']
  constructor
  · rintro ⟨⟨s₀, hs₀, hs⟩, hshould⟩
    exact ⟨s₀, hs₀, hs, hshould⟩
  · rintro ⟨s₀, hs₀, hs, hshould⟩
    exact ⟨⟨s₀, hs₀, hs⟩, hshould⟩

/-- A live subscription hears of its room, and no other subscription does. -/
theorem mem_sinks : (∃ room ∈ hub.byRoom nowMs, id ∈ room.sinks) ↔
    ∃ s, hub.subscriptions.lookup id = some s ∧ (s.seen nowMs).shouldBackfill = false := by
  simp only [byRoom, List.mem_map, List.mem_dedup]
  constructor
  · rintro ⟨_, ⟨roomId, -, rfl⟩, hid⟩
    obtain ⟨⟨_, s⟩, he, rfl⟩ := List.mem_map.mp hid
    obtain ⟨s₀, hs₀, rfl, hshould⟩ := mem_live.mp (List.mem_filter.mp he).1
    exact ⟨s₀, hs₀, hshould⟩
  · rintro ⟨s, hs, hshould⟩
    have hlive := mem_live.mpr ⟨s, hs, rfl, hshould⟩
    exact ⟨_, ⟨_, ⟨_, hlive, rfl⟩, rfl⟩, List.mem_map.mpr
      ⟨_, List.mem_filter.mpr ⟨hlive, by simp⟩, rfl⟩⟩

theorem mem_needReady {target : ReadyTarget} : target ∈ hub.needReady nowMs ↔
    ∃ s, hub.subscriptions.lookup target.id = some s ∧ (s.seen nowMs).shouldBackfill = false ∧
      (s.seen nowMs).readySent = false ∧
      target = ⟨target.id, (s.seen nowMs).playerId, (s.seen nowMs).roomId⟩ := by
  simp only [needReady, List.mem_map, List.mem_filter, Prod.exists, mem_live, Bool.not_eq_true']
  constructor
  · rintro ⟨id, _, ⟨⟨s, hs, rfl, hshould⟩, hready⟩, rfl⟩
    exact ⟨s, hs, hshould, hready, rfl⟩
  · rintro ⟨s, hs, hshould, hready, htarget⟩
    exact ⟨target.id, _, ⟨⟨s, hs, rfl, hshould⟩, hready⟩, htarget.symm⟩

theorem mem_needHeartbeat : id ∈ hub.needHeartbeat c nowMs ↔
    ∃ s, hub.subscriptions.lookup id = some s ∧
      ((s.seen nowMs).shouldBackfill = true ∨ (s.seen nowMs).readySent = true) ∧
      (s.seen nowMs).heartbeatDue c.heartbeatIntervalMs nowMs = true := by
  simp only [needHeartbeat, List.mem_map, List.mem_filter, Prod.exists, mem_seen,
    Bool.and_eq_true, Bool.or_eq_true, exists_and_right, exists_eq_right]
  constructor
  · rintro ⟨_, ⟨s, hs, rfl⟩, hmode, hdue⟩
    exact ⟨s, hs, hmode, hdue⟩
  · rintro ⟨s, hs, hmode, hdue⟩
    exact ⟨_, ⟨s, hs, rfl⟩, hmode, hdue⟩

/-- **What a new `Tick` is going to do.** -/
theorem mem_jobs {job : Job} : job ∈ hub.jobs c nowMs ↔
    (∃ target ∈ hub.needBackfill nowMs, job = .backfill target) ∨
    (∃ room ∈ hub.byRoom nowMs, job = .countPoll room) ∨
    (∃ target ∈ hub.needReady nowMs, job = .ready target) ∨
    ∃ id ∈ hub.needHeartbeat c nowMs, job = .heartbeat id := by
  simp only [jobs, List.mem_append, List.mem_map, eq_comm, or_assoc]

theorem nextId_commit : (hub.commit t).1.nextId = hub.nextId := by
  have hdrop : ∀ (failed : List Nat) (acc : StreamHub × List (Nat × Subscription)),
      (failed.foldl dropFailed acc).1.nextId = acc.1.nextId := by
    intro failed acc
    induction failed generalizing acc with
    | nil => rfl
    | cons k ks ih =>
      rw [List.foldl_cons, ih]
      unfold dropFailed
      split <;> rfl
  exact hdrop _ _

end StreamHub

/-! ## What a backfill leaves in the variables of `Tick`

One of three notes, by its outcome. -/

namespace TickState

variable (t : TickState) (id : Nat) (outcome : BackfillOutcome)

@[simp] theorem note_nowMs : (t.note id outcome).nowMs = t.nowMs := by
  obtain ⟨- | -, frames, - | -, - | reason⟩ := outcome <;> rfl

@[simp] theorem note_needReady : (t.note id outcome).needReady = t.needReady := by
  obtain ⟨- | -, frames, - | -, - | reason⟩ := outcome <;> rfl

@[simp] theorem note_needHeartbeat : (t.note id outcome).needHeartbeat = t.needHeartbeat := by
  obtain ⟨- | -, frames, - | -, - | reason⟩ := outcome <;> rfl

theorem note_failed : (t.note id outcome).failed =
    if outcome.writeFailed then t.failed ++ [id] else t.failed := by
  obtain ⟨- | -, frames, - | -, - | reason⟩ := outcome <;> rfl

theorem note_backfilled : (t.note id outcome).backfilled =
    if !outcome.writeFailed && outcome.attempted then t.backfilled ++ [(id, outcome.frames)]
    else t.backfilled := by
  obtain ⟨- | -, frames, - | -, - | reason⟩ := outcome <;> rfl

theorem note_backfillPendingKept : (t.note id outcome).backfillPendingKept =
    if outcome.writeFailed || outcome.attempted then t.backfillPendingKept
    else t.backfillPendingKept ++ [id] := by
  obtain ⟨- | -, frames, - | -, - | reason⟩ := outcome <;> rfl

end TickState

/-! ## What a job is about

A job speaks of few subscriptions, and so do the jobs that it leads to. -/

/-- The subscription that a call to Room or a sink is about. -/
def StreamEvent.about : StreamEvent → Option Nat
  | getSnapshotsSince id .. | write id .. => some id
  | _ => none

namespace Job

variable {c : StreamConfig} {answer : Answer} {hub : StreamHub} {t : TickState} {id : Nat}

/-- The subscriptions that a job may lead to a write for. -/
def ids : Job → List Nat
  | backfill target | current target _ | reset target .. | resetPushed target .. | frame target ..
  | framePushed target .. => [target.id]
  | countPoll room | poll room | compare room _ => room.sinks
  | push id .. | heartbeat id => [id]
  | ready target => [target.id]

/-- The subscription that a job writes to. -/
def writes : Job → Option Nat
  | reset target .. | frame target .. => some target.id
  | push id .. | heartbeat id => some id
  | ready target => some target.id
  | _ => none

/-- The subscription that a job has written to before. -/
def wrote : Job → Option Nat
  | resetPushed target .. | framePushed target .. => some target.id
  | _ => none

/-- The subscription that a job asks Room for. -/
def waits : Job → Option Nat
  | backfill target | current target _ => some target.id
  | _ => none

/-- No job touches the subscriptions. -/
@[simp] theorem run_subscriptions (job : Job) :
    (job.run c answer hub t).hub.subscriptions = hub.subscriptions := by
  cases job
  case backfill target =>
    simp only [run]
    split_ifs
    · rfl
    · rfl
    · rcases target.sinceFrame with - | sinceFrame <;> rfl
  case compare room snapshot =>
    simp only [run, StreamHub.comparePushed]
    split_ifs <;> rfl
  all_goals rfl

@[simp] theorem run_nextId (job : Job) : (job.run c answer hub t).hub.nextId = hub.nextId := by
  cases job
  case backfill target =>
    simp only [run]
    split_ifs
    · rfl
    · rfl
    · rcases target.sinceFrame with - | sinceFrame <;> rfl
  case compare room snapshot =>
    simp only [run, StreamHub.comparePushed]
    split_ifs <;> rfl
  all_goals rfl

/-- What a job writes, it writes to the subscription it says. -/
theorem writes_of_mem {job : Job} {event : SinkEvent} {ok : Bool}
    (h : .write id event ok ∈ (job.run c answer hub t).events) :
    job.writes = some id ∧ ok = answer.wrote := by
  cases job
  case backfill target =>
    simp only [run] at h
    split_ifs at h
    · cases h
    · cases h
    · split at h
      · cases h
      · cases List.mem_singleton.mp h
  case reset | frame | push | ready | heartbeat =>
    cases List.mem_singleton.mp h
    exact ⟨rfl, rfl⟩
  case current | poll => cases List.mem_singleton.mp h
  all_goals cases h

/-- …and it does. -/
theorem mem_of_writes (c : StreamConfig) (answer : Answer) (hub : StreamHub) (t : TickState)
    {job : Job} (h : job.writes = some id) :
    ∃ event, .write id event answer.wrote ∈ (job.run c answer hub t).events := by
  cases job
  case reset | frame | push | ready | heartbeat =>
    cases h
    exact ⟨_, List.mem_singleton_self _⟩
  all_goals cases h

/-- **What a job leads to**, and when. -/
inductive Leads (c : StreamConfig) (answer : Answer) (nowMs : Int) : Job → Job → Prop
  | malformed {target : BackfillTarget} (h : target.malformed = true) :
      Leads c answer nowMs (backfill target) (current target .idMalformed)
  | noFrames {target : BackfillTarget} {range : SnapshotRange} (reason : ResetReason)
      (h : target.malformed = false) (hrange : answer.range = some range)
      (hnone : range.status = .ready → range.snapshots = []) :
      Leads c answer nowMs (backfill target) (current target reason)
  | frames {target : BackfillTarget} {range : SnapshotRange} {snapshot : RoomSnapshot}
      {rest : List RoomSnapshot} (hroom : c.hasRoom = true) (h : target.malformed = false)
      (hsince : target.sinceFrame.isSome = true) (hrange : answer.range = some range)
      (hready : range.status = .ready) (hsnapshots : range.snapshots = snapshot :: rest) :
      Leads c answer nowMs (backfill target) (frame target 0 snapshot rest)
  | current {target : BackfillTarget} {payload : RoomSnapshot} (reason : ResetReason)
      (h : answer.state = some payload) :
      Leads c answer nowMs (current target reason) (reset target reason payload)
  | reset (target : BackfillTarget) (reason : ResetReason) (payload : RoomSnapshot) :
      Leads c answer nowMs (reset target reason payload)
        (resetPushed target reason payload answer.wrote)
  | frame (target : BackfillTarget) (written : Nat) (snapshot : RoomSnapshot)
      (rest : List RoomSnapshot) (h : answer.wrote = true) :
      Leads c answer nowMs (frame target written snapshot rest)
        (framePushed target written snapshot rest)
  | framePushed (target : BackfillTarget) (written : Nat) (snapshot next : RoomSnapshot)
      (rest : List RoomSnapshot) :
      Leads c answer nowMs (framePushed target written snapshot (next :: rest))
        (frame target (written + 1) next rest)
  | countPoll (room : RoomPoll) : Leads c answer nowMs (countPoll room) (poll room)
  | poll (room : RoomPoll) (snapshot : RoomSnapshot) :
      Leads c answer nowMs (poll room) (compare room snapshot)
  | compare {room : RoomPoll} {sink : Nat} (snapshot : RoomSnapshot) (h : sink ∈ room.sinks) :
      Leads c answer nowMs (compare room snapshot)
        (push sink (frameEvent snapshot nowMs) snapshot.terminal)

theorem leads_of_more {job job' : Job} (h : job' ∈ (job.run c answer hub t).more) :
    job.Leads c answer t.nowMs job' := by
  cases job
  case backfill target =>
    rcases hroom : c.hasRoom with - | -
    · simp only [run, hroom] at h
      cases h
    rcases hmalformed : target.malformed with - | -
    · rcases hsince : target.sinceFrame with - | sinceFrame
      · simp only [run, hroom, hmalformed, hsince] at h
        cases h
      rcases hrange : answer.range with - | range
      · simp only [run, hroom, hmalformed, hsince, hrange] at h
        cases h
      simp only [run, hroom, hmalformed, hsince, hrange, afterRange, Bool.not_true,
        Bool.false_eq_true, if_false] at h
      split at h
      case h_1 hahead =>
        cases List.mem_singleton.mp h
        exact .noFrames _ hmalformed hrange fun hready => by cases hahead.symm.trans hready
      case h_2 hincomplete =>
        cases List.mem_singleton.mp h
        exact .noFrames _ hmalformed hrange fun hready => by cases hincomplete.symm.trans hready
      case h_3 hsnapshots =>
        cases List.mem_singleton.mp h
        exact .noFrames _ hmalformed hrange fun _ => hsnapshots
      case h_4 hready hsnapshots =>
        cases List.mem_singleton.mp h
        exact .frames hroom hmalformed (by rw [hsince]; rfl) hrange hready hsnapshots
    · simp only [run, hroom, hmalformed] at h
      cases List.mem_singleton.mp h
      exact .malformed hmalformed
  case current target reason =>
    obtain ⟨payload, hpayload, rfl⟩ := List.mem_map.mp h
    exact .current reason (Option.mem_toList.mp hpayload)
  case reset target reason payload =>
    cases List.mem_singleton.mp h
    exact .reset target reason payload
  case frame target written snapshot rest =>
    simp only [run] at h
    split at h
    case isTrue hwrote =>
      cases List.mem_singleton.mp h
      exact .frame target written snapshot rest hwrote
    case isFalse => cases h
  case framePushed target written snapshot rest =>
    rcases rest with - | ⟨next, rest⟩
    · cases h
    · cases List.mem_singleton.mp h
      exact .framePushed target written snapshot next rest
  case countPoll room =>
    simp only [run] at h
    split_ifs at h
    · cases List.mem_singleton.mp h
      exact .countPoll room
    · cases h
  case poll room =>
    obtain ⟨snapshot, -, rfl⟩ := List.mem_map.mp h
    exact .poll room snapshot
  case compare room snapshot =>
    simp only [run] at h
    split_ifs at h
    · obtain ⟨sink, hsink, rfl⟩ := List.mem_map.mp h
      exact .compare snapshot hsink
    · cases h
  all_goals cases h

/-- A job leads to jobs about the same subscriptions. -/
theorem Leads.ids {nowMs : Int} {job job' : Job} (h : job.Leads c answer nowMs job')
    (hid : id ∈ job'.ids) : id ∈ job.ids := by
  cases h
  case compare snapshot hsink =>
    rw [List.mem_singleton.mp hid]
    exact hsink
  all_goals exact hid

/-- A job that has written comes after one that writes. -/
theorem Leads.writes_of_wrote {nowMs : Int} {job job' : Job} (h : job.Leads c answer nowMs job')
    (hid : job'.wrote = some id) : job.writes = some id := by
  cases h
  case reset | frame => exact hid
  all_goals cases hid

/-- A job that waits comes after one that waits. -/
theorem Leads.waits {nowMs : Int} {job job' : Job} (h : job.Leads c answer nowMs job')
    (hid : job'.waits = some id) : job.waits = some id := by
  cases h
  case malformed | noFrames => exact hid
  all_goals cases hid

/-- **What a job notes** of a subscription. -/
inductive Notes : Job → Nat → BackfillOutcome → Prop
  | putOff {job : Job} {id : Nat} (h : job.waits = some id) : Notes job id {}
  | reset (target : BackfillTarget) (reason : ResetReason) (payload : RoomSnapshot) (ok : Bool) :
      Notes (resetPushed target reason payload ok) target.id
        { attempted := target.malformed, writeFailed := !ok
          resetSent := if ok then some reason else none }
  | done (target : BackfillTarget) (written : Nat) (snapshot : RoomSnapshot) :
      Notes (framePushed target written snapshot []) target.id
        { attempted := true, frames := written + 1 }
  | failed {job : Job} {id : Nat} (h : job.writes = some id) : Notes job id { writeFailed := true }

theorem run_vars (c : StreamConfig) (answer : Answer) (hub : StreamHub) (t : TickState) (job : Job) :
    (job.run c answer hub t).vars = t ∨
      ∃ id outcome, job.Notes id outcome ∧ (job.run c answer hub t).vars = t.note id outcome := by
  cases job
  case backfill target =>
    have hputOff : (backfill target).Notes target.id {} := .putOff rfl
    simp only [run]
    split_ifs
    · exact .inr ⟨_, _, hputOff, rfl⟩
    · exact .inl rfl
    · rcases target.sinceFrame with - | sinceFrame
      · exact .inr ⟨_, _, hputOff, rfl⟩
      rcases answer.range with - | range
      · exact .inr ⟨_, _, hputOff, rfl⟩
      · simp only [afterRange]
        split <;> exact .inl rfl
  case current target reason =>
    simp only [run]
    split
    · exact .inl rfl
    · exact .inr ⟨_, _, .putOff rfl, rfl⟩
  case resetPushed target reason payload ok => exact .inr ⟨_, _, .reset target reason payload ok, rfl⟩
  case frame target written snapshot rest =>
    simp only [run]
    split
    · exact .inl rfl
    · exact .inr ⟨_, _, .failed rfl, rfl⟩
  case framePushed target written snapshot rest =>
    rcases rest with - | ⟨next, rest⟩
    · exact .inr ⟨_, _, .done target written snapshot, rfl⟩
    · exact .inl rfl
  case push =>
    simp only [run]
    split
    · exact .inr ⟨_, _, .failed rfl, rfl⟩
    · exact .inl rfl
  case ready | heartbeat =>
    simp only [run]
    split
    · exact .inl rfl
    · exact .inr ⟨_, _, .failed rfl, rfl⟩
  all_goals exact .inl rfl

@[simp] theorem run_nowMs (job : Job) : (job.run c answer hub t).vars.nowMs = t.nowMs := by
  rcases run_vars c answer hub t job with h | ⟨_, _, -, h⟩ <;>
    simp [h]

@[simp] theorem run_needReady (job : Job) :
    (job.run c answer hub t).vars.needReady = t.needReady := by
  rcases run_vars c answer hub t job with h | ⟨_, _, -, h⟩ <;>
    simp [h]

@[simp] theorem run_needHeartbeat (job : Job) :
    (job.run c answer hub t).vars.needHeartbeat = t.needHeartbeat := by
  rcases run_vars c answer hub t job with h | ⟨_, _, -, h⟩ <;>
    simp [h]

/-- Who is noted as failed was written to. -/
theorem mem_failed {job : Job} (h : id ∈ (job.run c answer hub t).vars.failed) :
    id ∈ t.failed ∨ job.writes = some id ∨ job.wrote = some id := by
  rcases run_vars c answer hub t job with hsame |
    ⟨id', outcome, hnotes, hnote⟩
  · rw [hsame] at h
    exact .inl h
  · rw [hnote, TickState.note_failed] at h
    split at h
    case isTrue hfailed =>
      refine (List.mem_append.mp h).imp_right fun hmem => ?_
      obtain rfl := List.mem_singleton.mp hmem
      cases hnotes
      case putOff | done => cases hfailed
      case reset => exact .inr rfl
      case failed hwrites => exact .inl hwrites
    case isFalse => exact .inl h

/-- Who is noted as backfilled was written to. -/
theorem mem_backfilled {job : Job} (h : id ∈ (job.run c answer hub t).vars.backfilled.map (·.1)) :
    id ∈ t.backfilled.map (·.1) ∨ job.wrote = some id := by
  rcases run_vars c answer hub t job with hsame |
    ⟨id', outcome, hnotes, hnote⟩
  · rw [hsame] at h
    exact .inl h
  · rw [hnote, TickState.note_backfilled] at h
    split at h
    case isTrue hdone =>
      rw [List.map_append] at h
      refine (List.mem_append.mp h).imp_right fun hmem => ?_
      obtain rfl := List.mem_singleton.mp hmem
      cases hnotes
      case putOff | failed => cases hdone
      case reset | done => rfl
    case isFalse => exact .inl h

/-- Who is put off waited, or was written to. -/
theorem mem_kept {job : Job} (h : id ∈ (job.run c answer hub t).vars.backfillPendingKept) :
    id ∈ t.backfillPendingKept ∨ job.waits = some id ∨ job.wrote = some id := by
  rcases run_vars c answer hub t job with hsame |
    ⟨id', outcome, hnotes, hnote⟩
  · rw [hsame] at h
    exact .inl h
  · rw [hnote, TickState.note_backfillPendingKept] at h
    split at h
    case isTrue => exact .inl h
    case isFalse hkept =>
      refine (List.mem_append.mp h).imp_right fun hmem => ?_
      obtain rfl := List.mem_singleton.mp hmem
      cases hnotes
      case putOff hwaits => exact .inl hwaits
      case reset | done => exact .inr rfl
      case failed => exact absurd rfl hkept

/-- The calls of a job are about its subscriptions. -/
theorem about_of_mem {job : Job} {event : StreamEvent}
    (h : event ∈ (job.run c answer hub t).events) (hid : event.about = some id) :
    id ∈ job.ids := by
  cases job
  case backfill target =>
    simp only [run] at h
    split_ifs at h
    · cases h
    · cases h
    · split at h
      · cases h
      · cases List.mem_singleton.mp h
        cases hid
        exact List.mem_singleton_self _
  case reset | frame | push | ready | heartbeat =>
    cases List.mem_singleton.mp h
    cases hid
    exact List.mem_singleton_self _
  case current | poll =>
    cases List.mem_singleton.mp h
    cases hid
  all_goals cases h

end Job

/-! ## Every step of the system

A step is one of the `Tick`'s three, or stands aside. -/

/-- What a `Tick` still has to do before its last section. -/
def TickPc.jobs : TickPc → List Job
  | running _ jobs => jobs
  | reporting _ => []

/-- The subscription that a call ends outside the lock. -/
def Call.ends : Call → Option Nat
  | writeClosed id _ | close id => some id
  | _ => none

namespace StreamSystem

variable {c : StreamConfig} {s s' : StreamSystem} {op : StreamOp} {id : Nat}

/-- The subscription with this id. -/
abbrev sub? (s : StreamSystem) (id : Nat) : Option Subscription := s.hub.subscriptions.lookup id

/-- The first section of `Tick`. -/
theorem sub?_tick (nowMs : Int) :
    (s.next c (.tick nowMs)).sub? id = (s.sub? id).map (·.seen nowMs) := StreamHub.lookup_seen

/-! ## One job

A job changes the variables, the table of what was pushed, and the log. -/

section

variable {vars : TickState} {job job' : Job} {jobs : List Job} {answer : Answer}

/-- **A job runs**, and `Tick` goes on with what it leaves. -/
theorem next_job (htick : s.tick = .running vars (job :: jobs)) : s.next c (.resumeTick answer) =
    { s with
      hub := (job.run c answer s.hub vars).hub
      tick := .running (job.run c answer s.hub vars).vars ((job.run c answer s.hub vars).more ++ jobs)
      log := s.log ++ (job.run c answer s.hub vars).events } := by
  simp only [next, resumeTick, htick]

theorem tick_job (htick : s.tick = .running vars (job :: jobs)) (answer : Answer) :
    (s.next c (.resumeTick answer)).tick =
      .running (job.run c answer s.hub vars).vars ((job.run c answer s.hub vars).more ++ jobs) := by
  rw [next_job htick]

theorem log_job (htick : s.tick = .running vars (job :: jobs)) :
    (s.next c (.resumeTick answer)).log = s.log ++ (job.run c answer s.hub vars).events := by
  rw [next_job htick]

theorem sub?_job (htick : s.tick = .running vars (job :: jobs)) :
    (s.next c (.resumeTick answer)).sub? id = s.sub? id := by
  rw [next_job htick, sub?, Job.run_subscriptions]

/-- The job at hand is one of those that are left, -/
theorem mem_jobs_head (htick : s.tick = .running vars (job :: jobs)) : job ∈ s.tick.jobs := by
  rw [htick]
  exact List.mem_cons_self

/-- and so are the others. -/
theorem mem_jobs_tail (htick : s.tick = .running vars (job :: jobs)) (hmem : job' ∈ jobs) :
    job' ∈ s.tick.jobs := by
  rw [htick]
  exact List.mem_cons_of_mem _ hmem

end

/-! ## Every step

What becomes of one subscription, and what stays sound. -/

/-- **What one step does to a subscription**: nothing, the first or the last section of `Tick`, or it
makes it. -/
theorem sub?_next {sub' : Subscription} (h : (s.next c op).sub? id = some sub') :
    s.sub? id = some sub' ∨
    (∃ nowMs sub, op = .tick nowMs ∧ s.sub? id = some sub ∧ sub' = sub.seen nowMs) ∨
    (∃ answer vars sub, op = .resumeTick answer ∧ s.tick = .running vars [] ∧ id ∉ vars.failed ∧
      s.sub? id = some sub ∧ sub' = sub.committed vars id) ∨
    (id = s.hub.nextId ∧ id < (s.next c op).hub.nextId ∧ (sub'.createdMs = 0 ∧ sub'.readySent = false) ∧
      ∃ playerId roomId options, (∃ call ∈ s.calls, Call.register playerId roomId options ∈ call) ∧
        sub'.roomId = roomId ∧ sub'.backfillFrom = options.lastEventId ∧
        sub'.backfillMalformed = options.lastEventIdMalformed ∧
        (s.next c op).hub.lastPushedState = s.hub.lastPushedState.erase roomId) := by
  rcases op with ⟨playerId, roomId, hasSink, options⟩ | id' | nowMs | - | - | reason | answer |
    ⟨call, answer⟩
  · simp only [next] at h
    split at h <;> exact .inl h
  · simp only [next] at h
    split at h
    · exact .inl h
    · rw [sub?, start, StreamHub.unsubscribeLocked, Table.lookup_erase'] at h
      split at h
      · cases h
      · exact .inl h
  · obtain ⟨sub, hsub, rfl⟩ := Option.map_eq_some_iff.mp (StreamHub.lookup_seen.symm.trans h)
    exact .inr (.inl ⟨nowMs, sub, rfl, hsub, rfl⟩)
  · cases h
  · exact .inl h
  · cases h
  · simp only [next, resumeTick] at h
    split at h
    case h_1 => rw [sub?, Job.run_subscriptions] at h; exact .inl h
    case h_2 vars hvars =>
      rw [sub?, StreamHub.lookup_commit] at h
      split at h
      · cases h
      case isFalse hfailed =>
        obtain ⟨sub, hsub, rfl⟩ := Option.map_eq_some_iff.mp h
        exact .inr (.inr (.inl ⟨answer, vars, sub, rfl, hvars, hfailed, hsub, rfl⟩))
    case h_3 | h_4 => exact .inl h
  · simp only [next, resumeCall] at h
    split at h
    case h_1 step rest hcall =>
      rcases step with ⟨playerId, roomId, options⟩ | _ | _ | _
      · rw [sub?, Call.run, StreamHub.subscribeLocked, Table.lookup_insert'] at h
        split at h
        case isTrue heq =>
          cases h
          refine .inr (.inr (.inr ⟨heq, ?_, ⟨rfl, rfl⟩, playerId, roomId, options,
            ⟨_, List.mem_of_getElem? hcall, List.mem_cons_self⟩, rfl, rfl, rfl, ?_⟩))
          · rw [next, resumeCall, hcall, heq]
            exact Nat.lt_succ_self _
          · rw [next, resumeCall, hcall]
            rfl
        case isFalse => exact .inl h
      all_goals exact .inl h
    case h_2 => exact .inl h

/-- **What one step does to the `Tick` on its way**: nothing, it starts it, it runs a job, or it is past
the jobs. -/
theorem tick_next (c : StreamConfig) (s : StreamSystem) (op : StreamOp) :
    (s.next c op).tick = s.tick ∨ (∃ nowMs, op = .tick nowMs) ∨
    (∃ answer vars job jobs, op = .resumeTick answer ∧ s.tick = .running vars (job :: jobs)) ∨
    ∃ gone, (s.next c op).tick = .reporting gone ∧ ∀ vars jobs, s.tick = .running vars jobs →
      jobs = [] ∧ ∃ answer, op = .resumeTick answer := by
  rcases op with ⟨playerId, roomId, hasSink, options⟩ | id' | nowMs | - | - | reason | answer |
    ⟨call, answer⟩
  · simp only [next]
    split <;> exact .inl rfl
  · simp only [next]
    split <;> exact .inl rfl
  · exact .inr (.inl ⟨nowMs, rfl⟩)
  · exact .inl rfl
  · exact .inl rfl
  · exact .inl rfl
  · simp only [next, resumeTick]
    rcases htick : s.tick with ⟨vars, - | ⟨job, jobs⟩⟩ | - | ⟨gone, rest⟩
    · refine .inr (.inr (.inr ⟨_, rfl, fun vars' jobs' heq => ?_⟩))
      cases heq
      exact ⟨rfl, answer, rfl⟩
    · exact .inr (.inr (.inl ⟨answer, vars, job, jobs, rfl, rfl⟩))
    · exact .inr (.inr (.inr ⟨_, htick, fun _ _ heq => by cases heq⟩))
    · exact .inr (.inr (.inr ⟨_, rfl, fun _ _ heq => by cases heq⟩))
  · simp only [next, resumeCall]
    split <;> exact .inl rfl

/-- Ids are handed out in order. -/
theorem nextId_next : s.hub.nextId ≤ (s.next c op).hub.nextId := by
  rcases op with ⟨playerId, roomId, hasSink, options⟩ | id' | nowMs | - | - | reason | answer |
    ⟨call, answer⟩
  · simp only [next]
    split <;> exact le_rfl
  · simp only [next]
    split <;> exact le_rfl
  · exact le_rfl
  · exact le_rfl
  · exact le_rfl
  · exact le_rfl
  · simp only [next, resumeTick]
    split
    · rw [Job.run_nextId]
    · rw [StreamHub.nextId_commit]
    · exact le_rfl
    · exact le_rfl
  · simp only [next, resumeCall]
    split
    case h_1 step rest hcall =>
      cases step
      case register => exact Nat.le_succ _
      all_goals exact le_rfl
    case h_2 => exact le_rfl

/-- The jobs of a new `Tick` are about subscriptions there are. -/
theorem sub?_of_mem_jobs {nowMs : Int} {job : Job} (h : job ∈ s.hub.jobs c nowMs)
    (hid : id ∈ job.ids) : ∃ sub, s.sub? id = some sub := by
  rcases StreamHub.mem_jobs.mp h with ⟨target, htarget, rfl⟩ | ⟨room, hroom, rfl⟩ |
    ⟨target, htarget, rfl⟩ | ⟨id', hid', rfl⟩
  · obtain rfl := List.mem_singleton.mp hid
    obtain ⟨sub, hsub, -⟩ := StreamHub.mem_needBackfill.mp htarget
    exact ⟨sub, hsub⟩
  · obtain ⟨sub, hsub, -⟩ := StreamHub.mem_sinks.mp ⟨room, hroom, hid⟩
    exact ⟨sub, hsub⟩
  · obtain rfl := List.mem_singleton.mp hid
    obtain ⟨sub, hsub, -⟩ := StreamHub.mem_needReady.mp htarget
    exact ⟨sub, hsub⟩
  · obtain rfl := List.mem_singleton.mp hid
    obtain ⟨sub, hsub, -⟩ := StreamHub.mem_needHeartbeat.mp hid'
    exact ⟨sub, hsub⟩

/-- A job is about what was there when its `Tick` started. -/
theorem jobs_next {job : Job} (h : job ∈ (s.next c op).tick.jobs) (hid : id ∈ job.ids) :
    (∃ job' ∈ s.tick.jobs, id ∈ job'.ids) ∨ ∃ sub, s.sub? id = some sub := by
  rcases op with ⟨playerId, roomId, hasSink, options⟩ | id' | nowMs | - | - | reason | answer |
    ⟨call, answer⟩
  · simp only [next] at h
    split at h <;> exact .inl ⟨job, h, hid⟩
  · simp only [next] at h
    split at h <;> exact .inl ⟨job, h, hid⟩
  · exact .inr (sub?_of_mem_jobs h hid)
  · exact .inl ⟨job, h, hid⟩
  · exact .inl ⟨job, h, hid⟩
  · exact .inl ⟨job, h, hid⟩
  · simp only [next, resumeTick] at h
    split at h
    case h_1 vars job₀ jobs htick =>
      rw [htick]
      rcases List.mem_append.mp h with hmore | hold
      · exact .inl ⟨job₀, List.mem_cons_self, (Job.leads_of_more hmore).ids hid⟩
      · exact .inl ⟨job, List.mem_cons_of_mem _ hold, hid⟩
    case h_2 | h_3 => cases h
    case h_4 => exact .inl ⟨job, h, hid⟩
  · simp only [next, resumeCall] at h
    split at h <;> exact .inl ⟨job, h, hid⟩

/-- What ends outside the lock is not registered any more. -/
theorem calls_next {call : List Call} {step : Call} (h : call ∈ (s.next c op).calls)
    (hstep : step ∈ call) (hid : step.ends = some id) :
    (∃ call ∈ s.calls, ∃ step ∈ call, step.ends = some id) ∨
      ((∃ sub, s.sub? id = some sub) ∧ (s.next c op).sub? id = none) := by
  have hsame : call ∈ s.calls → ∃ call ∈ s.calls, ∃ step ∈ call, step.ends = some id :=
    fun h => ⟨call, h, step, hstep, hid⟩
  have hends : ∀ e : Nat × Subscription, step ∈ endCalls e → e.1 = id := by
    intro e he
    rcases List.mem_cons.mp he with rfl | he
    · cases hid
    · obtain rfl := List.mem_singleton.mp he
      exact Option.some.inj hid
  have hall : ∀ e ∈ s.hub.subscriptions.toPairs, e.1 = id → ∃ sub, s.sub? id = some sub := by
    rintro ⟨id', sub⟩ he rfl
    exact ⟨sub, Table.mem_toPairs.mp he⟩
  rcases op with ⟨playerId, roomId, hasSink, options⟩ | id' | nowMs | - | - | reason | answer |
    ⟨call', answer⟩
  · simp only [next] at h
    split at h
    · exact .inl (hsame h)
    · rcases List.mem_append.mp h with hold | hnew
      · exact .inl (hsame hold)
      · rw [List.mem_singleton.mp hnew, List.mem_singleton] at hstep
        rw [hstep] at hid
        cases hid
  · simp only [next] at h ⊢
    split at h
    case h_1 hnone => exact .inl (hsame h)
    case h_2 sub hsub =>
      rcases List.mem_append.mp h with hold | hnew
      · exact .inl (hsame hold)
      · rw [List.mem_singleton.mp hnew] at hstep
        obtain rfl := hends _ hstep
        exact .inr ⟨⟨sub, hsub⟩, AList.lookup_erase _ _⟩
  · exact .inl (hsame h)
  · rcases List.mem_append.mp h with hold | hnew
    · exact .inl (hsame hold)
    · rw [List.mem_singleton.mp hnew] at hstep
      obtain ⟨e, he, hstep⟩ := List.mem_flatMap.mp hstep
      exact .inr ⟨hall e he (hends e hstep), rfl⟩
  · exact .inl (hsame h)
  · rcases List.mem_append.mp h with hold | hnew
    · exact .inl (hsame hold)
    · rw [List.mem_singleton.mp hnew] at hstep
      rcases List.mem_append.mp hstep with hwrite | hend
      · obtain ⟨e, he, rfl⟩ := List.mem_map.mp hwrite
        exact .inr ⟨hall e he (Option.some.inj hid), rfl⟩
      · obtain ⟨e, he, hstep⟩ := List.mem_flatMap.mp hend
        exact .inr ⟨hall e he (hends e hstep), rfl⟩
  · simp only [next, resumeTick] at h
    split at h <;> exact .inl (hsame h)
  · simp only [next, resumeCall] at h
    split at h
    case h_1 first rest hcall =>
      rcases List.mem_or_eq_of_mem_set h with hold | rfl
      · exact .inl (hsame hold)
      · rcases List.mem_append.mp hstep with hmore | hrest
        · cases first
          case register =>
            rw [List.mem_singleton.mp hmore] at hid
            cases hid
          all_goals cases hmore
        · exact .inl ⟨_, List.mem_of_getElem? hcall, step, List.mem_cons_of_mem _ hrest, hid⟩
    case h_2 => exact .inl (hsame h)

/-- **What one step adds to the log**: the calls of a job, a closing event, or what ends a connection. -/
theorem events_next (c : StreamConfig) (s : StreamSystem) (op : StreamOp) :
    ∃ events, (s.next c op).log = s.log ++ events ∧ ∀ event ∈ events,
      (∃ answer vars job jobs, op = .resumeTick answer ∧ s.tick = .running vars (job :: jobs) ∧
        event ∈ (job.run c answer s.hub vars).events) ∨
      (∃ call answer id reason rest, op = .resumeCall call answer ∧
        s.calls[call]? = some (.writeClosed id reason :: rest) ∧
        event = .write id (.streamClosed reason answer.systemNowMs) answer.wrote) ∨
      (∃ roomId playerId online requestId, event = .setPresence roomId playerId online requestId) ∨
      ∃ id, event = .close id := by
  have hsame : ∀ (s' : StreamSystem) {P : StreamEvent → Prop}, s'.log = s.log →
      ∃ events, s'.log = s.log ++ events ∧ ∀ event ∈ events, P event :=
    fun s' _ hlog => ⟨[], by rw [hlog, List.append_nil], fun _ hmem => by cases hmem⟩
  have hreport : ∀ {roomId playerId online requestId},
      ∀ event ∈ reportPresence c roomId playerId online requestId,
        ∃ roomId playerId online requestId, event = .setPresence roomId playerId online requestId := by
    intro roomId playerId online requestId event hmem
    unfold reportPresence at hmem
    split at hmem
    · exact ⟨_, _, _, _, List.mem_singleton.mp hmem⟩
    · cases hmem
  rcases op with ⟨playerId, roomId, hasSink, options⟩ | id' | nowMs | - | - | reason | answer |
    ⟨call, answer⟩
  · refine hsame _ ?_
    simp only [next]
    split <;> rfl
  · refine hsame _ ?_
    simp only [next]
    split <;> rfl
  · exact hsame _ rfl
  · exact hsame _ rfl
  · exact hsame _ rfl
  · exact hsame _ rfl
  · simp only [next, resumeTick]
    split
    case h_1 vars job jobs htick =>
      exact ⟨_, rfl, fun event hmem => .inl ⟨answer, vars, job, jobs, rfl, htick, hmem⟩⟩
    case h_2 =>
      refine ⟨_, rfl, fun event hmem => .inr (.inr (.inr ?_))⟩
      obtain ⟨e, -, rfl⟩ := List.mem_map.mp hmem
      exact ⟨e.1, rfl⟩
    case h_3 => exact ⟨_, rfl, fun event hmem => .inr (.inr (.inl (hreport event hmem)))⟩
    case h_4 => exact hsame s rfl
  · simp only [next, resumeCall]
    split
    case h_1 step rest hcall =>
      cases step
      case register => exact ⟨_, rfl, fun _ hmem => by cases hmem⟩
      case report => exact ⟨_, rfl, fun event hmem => .inr (.inr (.inl (hreport event hmem)))⟩
      case writeClosed id reason =>
        refine ⟨_, rfl, fun event hmem => .inr (.inl ?_)⟩
        exact ⟨call, answer, id, reason, rest, rfl, hcall, List.mem_singleton.mp hmem⟩
      case close id =>
        exact ⟨_, rfl, fun event hmem => .inr (.inr (.inr ⟨id, List.mem_singleton.mp hmem⟩))⟩
    case h_2 => exact hsame s rfl

/-- **A step that is none of a `Tick`'s** leaves the `Tick` on its way alone, and makes a subscription at
most. -/
structure Aside (c : StreamConfig) (s : StreamSystem) (op : StreamOp) : Prop where
  tick : ∀ vars jobs, (s.next c op).tick = .running vars jobs ↔ s.tick = .running vars jobs
  sub : ∀ id sub', (s.next c op).sub? id = some sub' →
    s.sub? id = some sub' ∨ id = s.hub.nextId ∧ sub'.readySent = false
  noJob : ∀ answer vars job jobs, op = .resumeTick answer → s.tick ≠ .running vars (job :: jobs)

theorem Aside.jobs (h : s.Aside c op) : (s.next c op).tick.jobs = s.tick.jobs := by
  rcases hnext : (s.next c op).tick with ⟨vars, jobs⟩ | gone
  · rw [(h.tick vars jobs).mp hnext]
  · rcases hold : s.tick with ⟨vars, jobs⟩ | gone'
    · cases hnext.symm.trans ((h.tick vars jobs).mpr hold)
    · rfl

/-- **The sections of a `Tick`**: its start, a job, its end; everything else is aside. -/
theorem next_cases (c : StreamConfig) (s : StreamSystem) (op : StreamOp) :
    (∃ nowMs, op = .tick nowMs) ∨
    (∃ answer vars job jobs, op = .resumeTick answer ∧ s.tick = .running vars (job :: jobs)) ∨
    (∃ answer vars, op = .resumeTick answer ∧ s.tick = .running vars []) ∨ s.Aside c op := by
  by_cases hstart : ∃ nowMs, op = .tick nowMs
  · exact .inl hstart
  by_cases hjob : ∃ answer vars job jobs, op = .resumeTick answer ∧ s.tick = .running vars (job :: jobs)
  · exact .inr (.inl hjob)
  by_cases hcommit : ∃ answer vars, op = .resumeTick answer ∧ s.tick = .running vars []
  · exact .inr (.inr (.inl hcommit))
  refine .inr (.inr (.inr ⟨fun vars jobs => ?_, fun id sub' hsub' => ?_,
    fun answer vars job jobs hop htick => hjob ⟨answer, vars, job, jobs, hop, htick⟩⟩))
  · rcases tick_next c s op with hsame | hnew | hrunning | ⟨gone, hgone, hends⟩
    · rw [hsame]
    · exact absurd hnew hstart
    · exact absurd hrunning hjob
    · rw [hgone]
      refine iff_of_false (fun heq => by cases heq) fun hrunning => hcommit ?_
      obtain ⟨rfl, answer, hop⟩ := hends vars jobs hrunning
      exact ⟨answer, vars, hop, hrunning⟩
  · rcases sub?_next hsub' with hsame | ⟨nowMs, _, hop, -⟩ | ⟨answer, vars, _, hop, hrunning, -⟩ |
      ⟨hid, -, ⟨-, hsent⟩, -⟩
    · exact .inl hsame
    · exact absurd ⟨nowMs, hop⟩ hstart
    · exact absurd ⟨answer, vars, hop, hrunning⟩ hcommit
    · exact .inr ⟨hid, hsent⟩

/-- Only a job, and a closing event, call for a subscription. -/
theorem log_next (c : StreamConfig) (s : StreamSystem) (op : StreamOp) :
    ∃ events, (s.next c op).log = s.log ++ events ∧
      ∀ event ∈ events, ∀ id, event.about = some id →
        (∃ answer vars job jobs, op = .resumeTick answer ∧ s.tick = .running vars (job :: jobs) ∧
          event ∈ (job.run c answer s.hub vars).events) ∨
        ∃ call answer reason rest, op = .resumeCall call answer ∧
          s.calls[call]? = some (.writeClosed id reason :: rest) ∧
          event = .write id (.streamClosed reason answer.systemNowMs) answer.wrote := by
  obtain ⟨events, hlog, hevents⟩ := events_next c s op
  refine ⟨events, hlog, fun event hmem id hid => ?_⟩
  rcases hevents event hmem with hjob | ⟨call, answer, id', reason, rest, hop, hcall, rfl⟩ |
    ⟨_, _, _, _, rfl⟩ | ⟨_, rfl⟩
  · exact .inl hjob
  · cases hid
    exact .inr ⟨call, answer, reason, rest, hop, hcall, rfl⟩
  · cases hid
  · cases hid

/-- **Ids are handed out once** — whatever is registered, or to be written to, or was written to, has
an id from before; and a subscription that ended does not come back. -/
structure Sound (s : StreamSystem) : Prop where
  registered : ∀ id sub, s.sub? id = some sub → id < s.hub.nextId
  jobs : ∀ job ∈ s.tick.jobs, ∀ id ∈ job.ids, id < s.hub.nextId
  ended : ∀ call ∈ s.calls, ∀ step ∈ call, ∀ id, step.ends = some id →
    id < s.hub.nextId ∧ s.sub? id = none
  log : ∀ event ∈ s.log, ∀ id, event.about = some id → id < s.hub.nextId

theorem Sound.start : Sound {} where
  registered _ _ h := by cases h
  jobs _ h := by cases h
  ended _ h := by cases h
  log _ h := by cases h

/-- Gone is gone. -/
theorem sub?_next_none (hlt : id < s.hub.nextId) (hnone : s.sub? id = none) :
    (s.next c op).sub? id = none := by
  refine Option.eq_none_iff_forall_ne_some.mpr fun sub' h => ?_
  rcases sub?_next h with hsame | ⟨_, _, -, hsub, -⟩ | ⟨_, _, _, -, -, -, hsub, -⟩ | ⟨heq, -⟩
  · cases hnone.symm.trans hsame
  · cases hnone.symm.trans hsub
  · cases hnone.symm.trans hsub
  · exact absurd heq hlt.ne

theorem Sound.next (h : Sound s) (op : StreamOp) : Sound (s.next c op) := by
  have hmono : s.hub.nextId ≤ (s.next c op).hub.nextId := nextId_next
  constructor
  · intro id sub' hsub'
    rcases sub?_next hsub' with hsame | ⟨_, _, -, hsub, -⟩ | ⟨_, _, _, -, -, -, hsub, -⟩ |
      ⟨-, hlt, -⟩
    · exact (h.registered id _ hsame).trans_le hmono
    · exact (h.registered id _ hsub).trans_le hmono
    · exact (h.registered id _ hsub).trans_le hmono
    · exact hlt
  · intro job hjob id hid
    rcases jobs_next hjob hid with ⟨job', hjob', hid'⟩ | ⟨sub, hsub⟩
    · exact (h.jobs job' hjob' id hid').trans_le hmono
    · exact (h.registered id sub hsub).trans_le hmono
  · intro call hcall step hstep id hid
    rcases calls_next hcall hstep hid with ⟨call', hcall', step', hstep', hid'⟩ |
      ⟨⟨sub, hsub⟩, hnone⟩
    · obtain ⟨hlt, hnone⟩ := h.ended call' hcall' step' hstep' id hid'
      exact ⟨hlt.trans_le hmono, sub?_next_none hlt hnone⟩
    · exact ⟨(h.registered id sub hsub).trans_le hmono, hnone⟩
  · intro event hevent id hid
    obtain ⟨events, hlog, hevents⟩ := log_next c s op
    rw [hlog] at hevent
    rcases List.mem_append.mp hevent with hold | hnew
    · exact (h.log event hold id hid).trans_le hmono
    rcases hevents event hnew id hid with ⟨_, _, job, _, -, htick, hnew⟩ |
      ⟨_, _, _, _, -, hcall, -⟩
    · have hjob := mem_jobs_head htick
      exact (h.jobs job hjob id (Job.about_of_mem hnew hid)).trans_le hmono
    · exact (h.ended _ (List.mem_of_getElem? hcall) _ List.mem_cons_self id rfl).1.trans_le hmono

theorem Sound.step (h : Sound s) (hstep : Step c s op s') : Sound s' := by
  obtain ⟨-, rfl⟩ := hstep
  exact h.next op

/-- A run in which no two calls overlap is a run. -/
theorem SoloStep.step (h : SoloStep c s op s') : Step c s op s' := by
  refine ⟨?_, h.2⟩
  cases op
  case tick => exact h.1.1
  all_goals trivial

theorem Sound.of_run {ops : List StreamOp} (hrun : Run (Step c) {} ops s) : Sound s :=
  hrun.invariant (fun _ _ _ hs hstep => hs.step hstep) .start

end StreamSystem

end RealtimeGame.Gateway
