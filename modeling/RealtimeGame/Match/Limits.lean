import RealtimeGame.Match.Restart
import RealtimeGame.Match.Waiting

/-!
# Match/Limits — what the two limits of the queue limit

`Enqueue` lets nobody in while the queue is full, but the limit is not looked at where players come back from a
failed allocation.  So it is kept exactly as long as these fit (`limits_iff`).  The queue of the worker keeps its
limit in every run, and more than that: groups are handed over only behind others, so it stays empty
(`Unhanded`).
-/

open Library

namespace RealtimeGame.Match

variable {c : MatchConfig} {q : MatchQueue} {nowMs : Int}

/-! ## How long the queues get, section by section

Players come into the queue in three ways: they enter, come back from a group, or are restored. -/

namespace MatchQueue

/-- Nobody enters a full queue. -/
theorem length_enqueueLocked (player request : String) :
    (q.enqueueLocked c nowMs player request).2.2.queue.length ≤ q.queue.length ∨
      (q.enqueueLocked c nowMs player request).2.2.queue.length ≤ c.maxQueueSize := by
  have hswept : (q.sweep c nowMs).2.queue.length ≤ q.queue.length := length_sweep
  unfold enqueueLocked
  dsimp only
  split
  · split
    · exact .inl hswept
    · split
      · exact .inl hswept
      case isFalse hroom =>
        refine .inr ?_
        rw [List.length_append, List.length_singleton]
        omega
  · split
    · exact .inl hswept
    case isFalse hroom =>
      refine .inr ?_
      rw [List.length_append, List.length_singleton]
      omega

theorem length_takeGroup_add (entries : Table String Entry) (group queue : List String) :
    (takeGroup entries group queue).1.length + (takeGroup entries group queue).2.length ≤
      group.length + queue.length := by
  induction queue generalizing group with
  | nil => exact le_rfl
  | cons p rest ih =>
    rw [takeGroup]
    split
    · exact le_rfl
    split
    · have hone := ih (group ++ [p])
      rw [List.length_append, List.length_singleton] at hone
      rw [List.length_cons]
      omega
    · have hone := ih group
      rw [List.length_cons]
      omega

/-- Taking groups only shortens the queue. -/
theorem length_takePairGroups_le (fuel : Nat) (ids : List String) (q : MatchQueue) :
    (takePairGroups fuel ids q).2.queue.length ≤ q.queue.length := by
  induction fuel generalizing q ids with
  | zero => exact le_rfl
  | succ fuel ih =>
    have htake := length_takeGroup_add q.entries [] q.queue
    rw [List.length_nil, Nat.zero_add] at htake
    rw [takePairGroups]
    split
    · exact le_rfl
    dsimp only
    split
    · rw [List.length_append]
      exact htake
    split
    · rw [List.length_append]
      exact htake
    · refine (ih _ _).trans ?_
      dsimp only
      omega

/-- The members of a group that are put back. -/
def returned (q : MatchQueue) (group : PendingGroup) (roomId : String) : List String :=
  if q.groupViable group roomId then [] else q.members group false

theorem length_commitGroup (group : PendingGroup) (roomId : String) :
    (q.commitGroup nowMs group roomId).queue.length =
      q.queue.length + (q.returned group roomId).length := by
  unfold returned
  split
  case isTrue hviable => rw [commitGroup_of_viable hviable, List.length_nil, Nat.add_zero]
  case isFalse hviable =>
    rw [queue_commitGroup (Bool.eq_false_iff.mpr hviable), List.length_append, Nat.add_comm]

end MatchQueue

/-- Only a hand-off gives the worker more to do. -/
theorem Pc.allocationQueue_resume {pc : Pc} (workerEnded : Bool) (answer : Answer)
    (hhand : ∀ nowMs groups, pc ≠ .handOff nowMs groups) :
    (pc.resume c workerEnded answer q).2.allocationQueue.length ≤ q.allocationQueue.length := by
  have hframe : ∀ {q' : MatchQueue}, q.Frame q' → q'.allocationQueue.length ≤ q.allocationQueue.length := by
    intro q' hframe
    rw [hframe]
  have hmark : ∀ nowMs, (q.markSnapshotDirty c nowMs).allocationQueue.length ≤ q.allocationQueue.length := by
    intro nowMs
    unfold MatchQueue.markSnapshotDirty
    split_ifs <;> exact le_rfl
  have hcommit : ∀ nowMs group roomId,
      (q.commitGroup nowMs group roomId).allocationQueue.length ≤ q.allocationQueue.length := by
    intro nowMs group roomId
    rw [MatchQueue.commitGroup_frame]
  cases pc
  case handOff nowMs groups => exact absurd rfl (hhand nowMs groups)
  case enqueue player request nowMs => exact hframe (Placed.enqueueLocked_frame player request)
  case take nowMs changed => exact hframe (MatchQueue.takePairGroups_frame _ _ _)
  case commit nowMs group roomId groups => exact hcommit nowMs group roomId
  case workerCommit group roomId queuedMs => exact hcommit queuedMs group roomId
  case mark nowMs => exact hmark nowMs
  case workerMark => exact hmark answer.nowMs
  case worker =>
    simp only [resume, MatchQueue.popAllocation]
    rcases hqueue : q.allocationQueue with - | ⟨⟨group, queuedMs⟩, rest⟩
    · simp only [hqueue, List.length_nil, le_refl]
    · simp only [List.length_cons]
      omega
  case round =>
    simp only [resume]
    split <;> exact le_rfl
  case allocate nowMs groups => cases groups <;> exact le_rfl
  case join =>
    simp only [resume]
    split <;> exact le_rfl
  case flush =>
    simp only [resume, MatchQueue.flushLocked]
    rcases q.snapshotDirty with - | - <;> exact le_rfl
  all_goals exact le_rfl

theorem Pc.finish_ne_take {nowMs' : Int} {changed changed' : Bool} :
    finish nowMs changed ≠ .take nowMs' changed' := by
  unfold finish
  split <;> exact fun heq => by cases heq

/-- A thread goes on to take groups only if the worker did not have its fill. -/
theorem Pc.lt_of_resume_take {pc : Pc} {workerEnded : Bool} {answer : Answer} {changed : Bool}
    (h : (pc.resume c workerEnded answer q).1 = .take nowMs changed) :
    q.allocationQueue.length < c.maxPendingAllocations := by
  cases pc
  case round nowMs' changed' =>
    simp only [resume] at h
    split at h
    · exact absurd h finish_ne_take
    case isFalse hfree => exact not_le.mp hfree
  case retry nowMs' changed' =>
    simp only [resume] at h
    split at h
    · cases h
    · exact absurd h finish_ne_take
  case take nowMs' changed' =>
    simp only [resume] at h
    split at h
    · exact absurd h finish_ne_take
    · cases h
  case choose nowMs' groups =>
    simp only [resume] at h
    split at h <;> cases h
  case allocate nowMs' groups => cases groups <;> cases h
  case worker =>
    simp only [resume, MatchQueue.popAllocation] at h
    rcases hqueue : q.allocationQueue with - | ⟨⟨group, queuedMs⟩, rest⟩
    · simp only [hqueue] at h
      split at h <;> cases h
    · simp only [hqueue] at h
      cases h
  case join =>
    simp only [resume] at h
    split at h <;> cases h
  case flush nowMs' =>
    simp only [resume, MatchQueue.flushLocked] at h
    rcases hdirty : q.snapshotDirty with - | -
    · simp only [hdirty] at h
      cases h
    · simp only [hdirty] at h
      cases h
  all_goals cases h

/-- Where a call may stand when it has just left its first section. -/
def Pc.begins : Pc → Bool
  | enqueue .. | retry .. | worker | join | flush _ | mark _ | done => true
  | _ => false

theorem Pc.begins_finish (nowMs : Int) (changed : Bool) : (finish nowMs changed).begins = true := by
  cases changed <;> rfl

/-- **Only a busy worker is handed groups**, so nobody hands it the first. -/
theorem Pc.resume_ne_handOff {pc : Pc} {workerEnded : Bool} {answer : Answer} (hidle : q.allocationQueue = [])
    {groups : List PendingGroup} : (pc.resume c workerEnded answer q).1 ≠ .handOff nowMs groups := by
  have hfinish : ∀ nowMs' changed, finish nowMs' changed ≠ .handOff nowMs groups := by
    intro nowMs' changed heq
    cases changed <;> cases heq
  intro heq
  cases pc
  case choose nowMs' groups' =>
    have hbusy : q.workerBusy = false := by simp [MatchQueue.workerBusy, hidle]
    simp only [resume, hbusy] at heq
    cases heq
  case retry nowMs' changed =>
    simp only [resume] at heq
    split at heq
    · cases heq
    · exact hfinish _ _ heq
  case round nowMs' changed =>
    simp only [resume] at heq
    split at heq
    · exact hfinish _ _ heq
    · cases heq
  case take nowMs' changed =>
    simp only [resume] at heq
    split at heq
    · exact hfinish _ _ heq
    · cases heq
  case allocate nowMs' groups' => cases groups' <;> cases heq
  case worker =>
    simp only [resume, MatchQueue.popAllocation, hidle] at heq
    split at heq <;> cases heq
  case join =>
    simp only [resume] at heq
    split at heq <;> cases heq
  case flush nowMs' =>
    simp only [resume, MatchQueue.flushLocked] at heq
    rcases hdirty : q.snapshotDirty with - | - <;> simp only [hdirty] at heq <;> cases heq
  all_goals cases heq

/-! ## One action

The sections together, and the queue of the worker with them. -/

namespace MatchSystem

variable {s : MatchSystem} {a : Action}

/-- The players whom an action puts back into the queue. -/
def returned (s : MatchSystem) (a : Action) : List String :=
  match s.commits a with
  | some (group, roomId, _) => s.queue.returned group roomId
  | none => []

/-- **The gates of the queue.**  It grows by those who are put back, or by a player who enters while it is not full;
and a thread goes on to take groups only while the queue of the worker is not full. -/
structure Grows (c : MatchConfig) (s : MatchSystem) (a : Action) (s' : MatchSystem) : Prop where
  queue : s.returned a = [] →
    s'.queue.queue.length ≤ s.queue.queue.length ∨ s'.queue.queue.length ≤ c.maxQueueSize
  returns : s.returned a ≠ [] →
    s'.queue.queue.length = s.queue.queue.length + (s.returned a).length
  takes : ∀ nowMs changed, .take nowMs changed ∈ s'.threads →
    .take nowMs changed ∈ s.threads ∨ s.queue.allocationQueue.length < c.maxPendingAllocations

/-- **Whoever comes back finds room** in the queue. -/
def Fits (c : MatchConfig) (s : MatchSystem) (a : Action) : Prop :=
  s.returned a ≠ [] → s.queue.queue.length + (s.returned a).length ≤ c.maxQueueSize

/-- **Nothing is handed over**: the queue of the worker is empty, and nobody is about to add to it. -/
structure Unhanded (s : MatchSystem) : Prop where
  queue : s.queue.allocationQueue = []
  threads : ∀ nowMs groups, .handOff nowMs groups ∉ s.threads

/-- The queue after one section of a thread. -/
theorem length_queue_resume {thread : Nat} (answer : Answer) {pc : Pc} (hpc : s.threads[thread]? = some pc) :
    (s.returned (.resume thread answer) = [] →
      (pc.resume c s.workerEnded answer s.queue).2.queue.length ≤ s.queue.queue.length ∨
        (pc.resume c s.workerEnded answer s.queue).2.queue.length ≤ c.maxQueueSize) ∧
    (s.returned (.resume thread answer) ≠ [] → (pc.resume c s.workerEnded answer s.queue).2.queue.length =
      s.queue.queue.length + (s.returned (.resume thread answer)).length) := by
  have hcommit : ∀ nowMs group roomId, s.returned (.resume thread answer) = s.queue.returned group roomId →
      (s.queue.commitGroup nowMs group roomId).queue.length =
        s.queue.queue.length + (s.returned (.resume thread answer)).length := by
    intro nowMs group roomId heq
    rw [MatchQueue.length_commitGroup, heq]
  have hquiet : s.returned (.resume thread answer) = [] → ∀ {q : MatchQueue},
      (q.queue.length ≤ s.queue.queue.length ∨ q.queue.length ≤ c.maxQueueSize) →
      (s.returned (.resume thread answer) = [] →
        q.queue.length ≤ s.queue.queue.length ∨ q.queue.length ≤ c.maxQueueSize) ∧
      (s.returned (.resume thread answer) ≠ [] →
        q.queue.length = s.queue.queue.length + (s.returned (.resume thread answer)).length) :=
    fun hnone _ hle => ⟨fun _ => hle, fun hsome => absurd hnone hsome⟩
  by_cases haside : pc.aside = true
  · refine hquiet ?_ (.inl (by rw [(Pc.resume_of_aside haside s.workerEnded answer).1]))
    simp only [returned, commits, resumed, hpc]
    cases pc <;> first | rfl | cases haside
  cases pc
  case commit nowMs group roomId groups =>
    have heq := hcommit nowMs group roomId (by simp only [returned, commits, resumed, hpc])
    exact ⟨fun hnone => .inl (heq.trans (by rw [hnone]; rfl)).le, fun _ => heq⟩
  case workerCommit group roomId queuedMs =>
    have heq := hcommit queuedMs group roomId (by simp only [returned, commits, resumed, hpc])
    exact ⟨fun hnone => .inl (heq.trans (by rw [hnone]; rfl)).le, fun _ => heq⟩
  case enqueue player request nowMs =>
    exact hquiet (by simp only [returned, commits, resumed, hpc]) (MatchQueue.length_enqueueLocked player request)
  case take nowMs changed =>
    exact hquiet (by simp only [returned, commits, resumed, hpc])
      (.inl (MatchQueue.length_takePairGroups_le _ _ _))
  case retry nowMs changed => exact hquiet (by simp only [returned, commits, resumed, hpc]) (.inl le_rfl)
  case round nowMs changed =>
    refine hquiet (by simp only [returned, commits, resumed, hpc]) (.inl ?_)
    simp only [Pc.resume]
    split <;> exact le_rfl
  all_goals exact absurd rfl haside

/-- What an action does that resumes no thread: at most one begins, and nobody enters a queue. -/
structure Aside (s s' : MatchSystem) : Prop where
  queue : s'.queue.queue.length ≤ s.queue.queue.length
  worker : s'.queue.allocationQueue = s.queue.allocationQueue
  threads : ∀ pc ∈ s'.threads, pc ∈ s.threads ∨ pc.begins = true

theorem Aside.refl (s : MatchSystem) : Aside s s := ⟨le_rfl, rfl, fun _ => .inl⟩

theorem Aside.spawn {q : MatchQueue} {pc : Pc} (hpc : pc.begins = true)
    (hlen : q.queue.length ≤ s.queue.queue.length) (hworker : q.allocationQueue = s.queue.allocationQueue) :
    Aside s (s.spawn q pc) := by
  refine ⟨hlen, hworker, fun pc' hmem => (List.mem_append.mp hmem).imp_right fun hnew => ?_⟩
  rw [List.mem_singleton.mp hnew]
  exact hpc

theorem aside_next (hother : s.resumed a = none) (hserves : a.serves = true) : Aside s (s.next c a) := by
  cases a
  case restore => cases hserves
  case resume thread answer =>
    have hpc : s.threads[thread]? = none := hother
    simp only [next, hpc]
    exact .refl s
  case cancel player nowMs =>
    refine .spawn (Pc.begins_finish ..) (MatchQueue.length_cancelLocked player) ?_
    rw [Placed.cancelLocked_frame player]
  case getStatus player nowMs =>
    refine .spawn rfl MatchQueue.length_sweep ?_
    rw [MatchQueue.getStatusLocked, Placed.sweep_frame]
  case beginShutdown => exact ⟨le_rfl, rfl, fun _ => .inl⟩
  case setSnapshotMergeIntervalMs ms => exact ⟨le_rfl, rfl, fun _ => .inl⟩
  case enqueue player request nowMs =>
    simp only [next]
    split_ifs
    · exact .refl s
    · exact .refl s
    · exact .spawn rfl le_rfl rfl
  case startAllocationWorker =>
    rcases hruns : s.queue.allocationWorkerRunning with - | -
    · simp only [next, MatchQueue.startWorkerLocked, hruns]
      exact .spawn rfl le_rfl rfl
    · simp only [next, MatchQueue.startWorkerLocked, hruns]
      exact .refl s
  case stopAllocationWorker =>
    rcases hruns : s.queue.allocationWorkerRunning with - | -
    · simp only [next, MatchQueue.stopWorkerLocked, hruns]
      exact .refl s
    · simp only [next, MatchQueue.stopWorkerLocked, hruns]
      exact .spawn rfl le_rfl rfl
  case tick nowMs =>
    simp only [next]
    split
    · exact .spawn rfl le_rfl rfl
    · exact .refl s
  case flushSnapshotNow nowMs =>
    simp only [next]
    split
    · exact .spawn rfl le_rfl rfl
    · exact .refl s

/-- An action resumes no thread, or one that is there. -/
theorem resumed_cases (s : MatchSystem) (a : Action) :
    s.resumed a = none ∨ ∃ thread answer pc, a = .resume thread answer ∧ s.threads[thread]? = some pc := by
  cases a with
  | resume thread answer =>
    rcases hpc : s.threads[thread]? with - | pc
    · exact .inl hpc
    · exact .inr ⟨thread, answer, pc, rfl, hpc⟩
  | _ => exact .inl rfl

/-- Every action but a restart passes the gates. -/
theorem grows_next (hserves : a.serves = true) : Grows c s a (s.next c a) := by
  rcases resumed_cases s a with hother | ⟨thread, answer, pc, rfl, hpc⟩
  · have haside : Aside s (s.next c a) := aside_next hother hserves
    have hreturned : s.returned a = [] := by rw [returned, commits, hother]
    refine ⟨fun _ => .inl haside.queue, fun hsome => absurd hreturned hsome, fun nowMs changed hmem => ?_⟩
    exact .inl ((haside.threads _ hmem).resolve_right Bool.false_ne_true)
  · obtain ⟨hstays, hreturns⟩ := length_queue_resume (c := c) answer hpc
    simp only [next, hpc]
    refine ⟨hstays, hreturns, fun nowMs changed hmem => ?_⟩
    rcases List.mem_or_eq_of_mem_set hmem with hold | hnew
    · exact .inl hold
    · exact .inr (Pc.lt_of_resume_take hnew.symm)

theorem Unhanded.start : Unhanded {} := ⟨rfl, fun _ _ h => by cases h⟩

/-- **Every action leaves the worker without work.** -/
theorem Unhanded.next (h : Unhanded s) (hserves : a.serves = true) : Unhanded (s.next c a) := by
  rcases resumed_cases s a with hother | ⟨thread, answer, pc, rfl, hpc⟩
  · have haside : Aside s (s.next c a) := aside_next hother hserves
    refine ⟨haside.worker.trans h.queue, fun nowMs groups hmem => ?_⟩
    exact h.threads nowMs groups ((haside.threads _ hmem).resolve_right Bool.false_ne_true)
  · simp only [MatchSystem.next, hpc]
    refine ⟨?_, fun nowMs groups hmem => ?_⟩
    · have hhand : ∀ nowMs groups, pc ≠ .handOff nowMs groups := by
        rintro nowMs groups rfl
        exact h.threads nowMs groups (List.mem_of_getElem? hpc)
      have hle := Pc.allocationQueue_resume (c := c) (q := s.queue) s.workerEnded answer hhand
      rw [h.queue, List.length_nil, Nat.le_zero, List.length_eq_zero_iff] at hle
      exact hle
    · rcases List.mem_or_eq_of_mem_set hmem with hold | hnew
      · exact h.threads nowMs groups hold
      · exact Pc.resume_ne_handOff h.queue hnew.symm

/-! ## The limits

What holds in every state that is reached, and when. -/

theorem unhanded_of_run {as : List Action} (hserves : ∀ a ∈ as, a.serves = true) :
    Unhanded (as.foldl (next c) {}) :=
  List.foldlRecOn as (motive := Unhanded) (next c) .start fun _ h a ha => h.next (hserves a ha)

/-- **What the limits limit.**  In every run, each step passes the gates; the queue of the worker is empty, so that
it is within its limit; and the queue of the players is within its own in every state exactly if, whenever players
are put back, there is room for them. -/
theorem limits_iff (c : MatchConfig) (as : List Action) (hserves : ∀ a ∈ as, a.serves = true) :
    (∀ pre a post, as = pre ++ a :: post →
      Grows c (pre.foldl (next c) {}) a ((pre ++ [a]).foldl (next c) {})) ∧
    (∀ pre, pre <+: as → (pre.foldl (next c) {}).queue.allocationQueue = [] ∧
      (pre.foldl (next c) {}).queue.allocationQueue.length ≤ c.maxPendingAllocations) ∧
    ((∀ pre, pre <+: as → (pre.foldl (next c) {}).queue.queue.length ≤ c.maxQueueSize) ↔
      ∀ pre a post, as = pre ++ a :: post → Fits c (pre.foldl (next c) {}) a) := by
  refine ⟨?_, fun pre hpre => ?_, ?_⟩
  · rintro pre a post rfl
    rw [List.foldl_append]
    exact grows_next (hserves a (by simp))
  · have hidle := (unhanded_of_run (c := c) fun a ha => hserves a (hpre.subset ha)).queue
    refine ⟨hidle, ?_⟩
    rw [hidle]
    exact Nat.zero_le _
  · refine Run.always_iff (I := fun s : MatchSystem => s.queue.queue.length ≤ c.maxQueueSize) (Nat.zero_le _)
      (fun _ => id) as (fun s a ha h hfits => ?_) (fun s a ha h hsome => ?_)
    · have hgrows : Grows c s a (s.next c a) := grows_next (hserves a ha)
      by_cases hnone : s.returned a = []
      · exact (hgrows.queue hnone).elim (fun hle => hle.trans h) id
      · exact (hgrows.returns hnone).trans_le (hfits hnone)
    · exact ((grows_next (hserves a ha)).returns hsome).symm.trans_le h

/-- With room for two: alice and bob are taken, carol and dave enter, and the allocation for the first two fails. -/
def returnedToFull : List Action :=
  takenPair ++ [.enqueue "carol" "q-3" 1200, .resume 2 {}, .enqueue "dave" "q-4" 1200, .resume 3 {},
    .resume 1 {}, .resume 1 {}, .resume 1 {}]

theorem limits_iff_returnedToFull :
    (∀ pre a post, returnedToFull = pre ++ a :: post →
      Grows { maxQueueSize := 2 } (pre.foldl (next { maxQueueSize := 2 }) {}) a
        ((pre ++ [a]).foldl (next { maxQueueSize := 2 }) {})) ∧
    (∀ pre, pre <+: returnedToFull →
      (pre.foldl (next { maxQueueSize := 2 }) {}).queue.allocationQueue = [] ∧
      (pre.foldl (next { maxQueueSize := 2 }) {}).queue.allocationQueue.length ≤ 256) ∧
    ((∀ pre, pre <+: returnedToFull → (pre.foldl (next { maxQueueSize := 2 }) {}).queue.queue.length ≤ 2) ↔
      ∀ pre a post, returnedToFull = pre ++ a :: post →
        Fits { maxQueueSize := 2 } (pre.foldl (next { maxQueueSize := 2 }) {}) a) :=
  limits_iff { maxQueueSize := 2 } returnedToFull (by decide)

/-- Four players wait where two may. -/
theorem not_within :
    ¬ ∀ (c : MatchConfig) (as : List Action), (∀ a ∈ as, a.serves = true) →
      (as.foldl (next c) {}).queue.queue.length ≤ c.maxQueueSize ∧
        (as.foldl (next c) {}).queue.allocationQueue.length ≤ c.maxPendingAllocations := by
  intro hclaim
  have hwithin := (hclaim { maxQueueSize := 2 } returnedToFull (by decide)).1
  have hqueue : (returnedToFull.foldl (next { maxQueueSize := 2 }) {}).queue.queue =
    ["alice", "bob", "carol", "dave"] := by decide
  rw [hqueue] at hwithin
  exact absurd hwithin (by decide)

end MatchSystem

end RealtimeGame.Match
