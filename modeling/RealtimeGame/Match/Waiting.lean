import Mathlib.Data.List.Dedup
import RealtimeGame.Match.Partition

/-!
# Match/Waiting — when two players wait, somebody is going to pair them

Two players in the queue are harmless as long as the retry flag is up or some thread is on its way to
take groups (`Covered`).  Three places break that, and they are the condition of `nobody_stranded`: a
group that loses a member after its room was found, a round turned away by a full allocation queue,
and a restart that finds two players waiting.
-/

open Library

namespace RealtimeGame.Match

variable {c : MatchConfig} {q q' : MatchQueue} {held : String → Nat} {nowMs : Int}

namespace Pc

/-- On the way to take groups. -/
def takes : Pc → Bool
  | enqueue .. | round .. | take .. => true
  | _ => false

/-- Not in the middle of a call. -/
def idle : Pc → Bool
  | worker | done => true
  | _ => false

/-- In none of the sections that change the queue or the retry flag. -/
def aside : Pc → Bool
  | enqueue .. | retry .. | round .. | take .. | commit .. | workerCommit .. => false
  | _ => true

theorem takes_of_aside {pc : Pc} (h : pc.aside = true) : pc.takes = false := by
  rcases pc <;> first | rfl | cases h

theorem resume_of_aside {pc : Pc} (h : pc.aside = true) (workerEnded : Bool) (answer : Answer) :
    (pc.resume c workerEnded answer q).2.queue = q.queue ∧
      (pc.resume c workerEnded answer q).2.retryPairing = q.retryPairing := by
  have hmark : ∀ nowMs, (q.markSnapshotDirty c nowMs).queue = q.queue ∧
      (q.markSnapshotDirty c nowMs).retryPairing = q.retryPairing := by
    intro nowMs
    unfold MatchQueue.markSnapshotDirty
    split_ifs <;> exact ⟨rfl, rfl⟩
  unfold resume
  split
  case h_7 => exact ⟨rfl, rfl⟩
  case h_8 => exact ⟨rfl, rfl⟩
  case h_10 => exact hmark _
  case h_11 =>
    unfold MatchQueue.popAllocation
    rcases q.allocationQueue with - | ⟨⟨group, queuedMs⟩, rest⟩ <;> exact ⟨rfl, rfl⟩
  case h_14 => exact hmark _
  case h_15 => split_ifs <;> exact ⟨rfl, rfl⟩
  case h_16 =>
    unfold MatchQueue.flushLocked
    rcases q.snapshotDirty with - | - <;> exact ⟨rfl, rfl⟩
  all_goals first | exact ⟨rfl, rfl⟩ | cases h

theorem takes_of_idle {pc : Pc} (h : pc.idle = true) : pc.takes = false := by
  unfold idle at h
  split at h
  · rfl
  · rfl
  · cases h

end Pc

/-! ## How long the queue gets

Only three kinds of sections make it longer. -/

namespace MatchQueue

theorem Frame.retryPairing (h : q.Frame q') : q'.retryPairing = q.retryPairing := by
  rw [h]

theorem length_sweep : (q.sweep c nowMs).2.queue.length ≤ q.queue.length := by
  simp only [sweep, Placed.foldl_expire]
  exact (List.diff_sublist _ _).length_le

theorem length_cancelLocked (player : String) :
    (q.cancelLocked c nowMs player).2.2.queue.length ≤ q.queue.length := by
  have hswept : (q.sweep c nowMs).2.queue.length ≤ q.queue.length := length_sweep
  unfold cancelLocked
  dsimp only
  split
  · exact hswept
  · split
    · exact hswept
    · split
      · exact hswept
      · exact (List.erase_sublist.length_le).trans hswept

/-- The players a restart would put into the queue: without an entry, and waiting not too long. -/
def restorable (c : MatchConfig) (q : MatchQueue) (nowMs : Int)
    (rows : List MatchQueueSnapshotRow) : List String :=
  (((queuedRows rows).filter fun row =>
    (q.entries.lookup row.1).isNone && !(c.matchTimeoutMs ≤ nowMs - row.2)).map (·.1)).dedup

theorem mem_restorable {rows : List MatchQueueSnapshotRow} {row : String × Int}
    (hmem : row ∈ queuedRows rows) (hnew : q.entries.lookup row.1 = none)
    (hwaits : ¬c.matchTimeoutMs ≤ nowMs - row.2) : row.1 ∈ restorable c q nowMs rows := by
  rw [restorable, List.mem_dedup, List.mem_map]
  refine ⟨row, List.mem_filter.mpr ⟨hmem, ?_⟩, rfl⟩
  rw [hnew, decide_eq_false hwaits]
  rfl

/-- A restart puts no others into the queue, and nobody twice. -/
theorem length_restoreLocked (rows : List MatchQueueSnapshotRow) :
    (q.restoreLocked c nowMs rows).2.queue.length
      ≤ q.queue.length + (restorable c q nowMs rows).length := by
  -- What the rows of waiting players add to the queue.
  have hqueued : ∀ report, ∃ added : List String,
      ((queuedRows rows).foldl (restoreQueued c nowMs) (report, q)).2.queue = q.queue ++ added ∧
        added.Nodup ∧ (∀ p ∈ added, p ∈ restorable c q nowMs rows ∧
          (((queuedRows rows).foldl (restoreQueued c nowMs) (report, q)).2.entries.lookup p).isSome) ∧
        ∀ p, (q.entries.lookup p).isSome →
          (((queuedRows rows).foldl (restoreQueued c nowMs) (report, q)).2.entries.lookup p).isSome := by
    intro report
    refine List.foldlRecOn (motive := fun acc : MatchRestoreReport × MatchQueue =>
      ∃ added : List String, acc.2.queue = q.queue ++ added ∧ added.Nodup ∧
        (∀ p ∈ added, p ∈ restorable c q nowMs rows ∧ (acc.2.entries.lookup p).isSome) ∧
        ∀ p, (q.entries.lookup p).isSome → (acc.2.entries.lookup p).isSome)
      _ _ ⟨[], by simp, List.nodup_nil, by simp, fun _ h => h⟩ ?_
    rintro acc ⟨added, hqueue, hnodup, hadded, hold⟩ row hrow
    unfold restoreQueued
    split
    case isTrue => exact ⟨added, hqueue, hnodup, hadded, hold⟩
    case isFalse hnew =>
      split
      case isTrue => exact ⟨added, hqueue, hnodup, hadded, hold⟩
      case isFalse hwaits =>
        have hunknown : q.entries.lookup row.1 = none := by
          rw [← Option.not_isSome_iff_eq_none]
          exact fun h => hnew (hold _ h)
        have hkept : ∀ p, (acc.2.entries.lookup p).isSome →
            ((acc.2.entries.insert row.1
              { state := .queued, queuedAtMs := row.2, stampMs := row.2 }).lookup p).isSome := by
          intro p hp
          rw [Table.lookup_insert']
          split
          · rfl
          · exact hp
        refine ⟨added ++ [row.1], ?_, ?_, ?_, fun p hp => hkept p (hold p hp)⟩
        · rw [hqueue, List.append_assoc]
        · rw [List.nodup_append]
          refine ⟨hnodup, List.nodup_singleton _, ?_⟩
          rintro p hp _ hrow rfl
          rw [List.mem_singleton.mp hrow] at hp
          exact hnew (hadded _ hp).2
        · intro p hp
          rcases List.mem_append.mp hp with hp | hp
          · exact ⟨(hadded p hp).1, hkept p (hadded p hp).2⟩
          · rw [List.mem_singleton.mp hp]
            refine ⟨mem_restorable hrow hunknown hwaits, ?_⟩
            rw [AList.lookup_insert]
            rfl
  unfold restoreLocked
  dsimp only
  refine length_sweep.trans ?_
  rw [queue_foldl_restoreMatched]
  obtain ⟨added, hqueue, hnodup, hadded, -⟩ := hqueued
    { scanned := rows.length, dropped := (rows.filter (·.problem ≠ "")).length }
  rw [hqueue, List.length_append]
  have hsub : added ⊆ restorable c q nowMs rows := fun p hp => (hadded p hp).1
  have hle : added.length ≤ (restorable c q nowMs rows).length :=
    (hnodup.subperm hsub).length_le
  omega

end MatchQueue

/-! ## The condition on a step

The three places, as conditions on the state before the step; and the id generator has to answer. -/

namespace MatchSystem

variable {s s' : MatchSystem}

/-- The id generator answers whoever takes groups, and never with the empty id. -/
def GeneratesFor (q : MatchQueue) (answer : Answer) : Pc → Prop
  | .take .. => q.queue.length ≤ 2 * answer.ids.length + 1 ∧ "" ∉ answer.ids
  | _ => True

def Generates (s : MatchSystem) : Action → Prop
  | .resume thread answer => ∀ pc ∈ s.threads[thread]?, GeneratesFor s.queue answer pc
  | _ => True

/-- A group that has a room, but not all its members, puts the others back: they must not come to
wait with somebody while no retry is noted. -/
def SafeCommit (q : MatchQueue) (group : PendingGroup) (roomId : String) : Prop :=
  roomId ≠ "" → q.members group true ≠ [] →
    2 ≤ (q.members group false).length + q.queue.length → q.retryPairing = true

/-- A section of a thread is none of those that leave two players waiting. -/
def SafeSection (c : MatchConfig) (q : MatchQueue) : Pc → Prop
  | .round .. => c.maxPendingAllocations ≤ q.allocationQueue.length →
    2 ≤ q.queue.length → q.retryPairing = true
  | .commit _ group roomId _ | .workerCommit group roomId _ => SafeCommit q group roomId
  | _ => True

/-- **The condition on a step**: it is none of the three that leave two players waiting. -/
def Safe (c : MatchConfig) (s : MatchSystem) : Action → Prop
  | .restore (some rows) nowMs => c.hasStore = true →
    2 ≤ s.queue.queue.length + (s.queue.restorable c nowMs rows).length →
      s.queue.retryPairing = true
  | .resume thread _ => ∀ pc ∈ s.threads[thread]?, SafeSection c s.queue pc
  | _ => True

/-- A step in which the id generator works. -/
def GeneratingStep (c : MatchConfig) (s : MatchSystem) (a : Action) (s' : MatchSystem) : Prop :=
  s.Generates a ∧ s' = s.next c a

/-- …and which meets the condition. -/
def SafeStep (c : MatchConfig) (s : MatchSystem) (a : Action) (s' : MatchSystem) : Prop :=
  (s.Safe c a ∧ s.Generates a) ∧ s' = s.next c a

instance (q : MatchQueue) (answer : Answer) : DecidablePred (GeneratesFor q answer)
  | .take .. => inferInstanceAs (Decidable (_ ∧ "" ∉ answer.ids))
  | .enqueue .. | .retry .. | .round .. | .choose .. | .handOff .. | .allocate ..
  | .commit .. | .mark _ | .worker | .workerAllocate .. | .workerCommit .. | .workerMark | .join
  | .flush _ | .save .. | .saved _ | .done => .isTrue trivial

instance (s : MatchSystem) : DecidablePred s.Generates
  | .resume thread _ => inferInstanceAs (Decidable (∀ pc ∈ s.threads[thread]?, _))
  | .enqueue .. | .cancel .. | .getStatus .. | .restore .. | .beginShutdown
  | .startAllocationWorker | .stopAllocationWorker | .tick _ | .flushSnapshotNow _
  | .setSnapshotMergeIntervalMs _ => .isTrue trivial

instance (q : MatchQueue) (group : PendingGroup) (roomId : String) :
    Decidable (SafeCommit q group roomId) := inferInstanceAs (Decidable (_ → _ → _ → _))

instance (c : MatchConfig) (q : MatchQueue) : DecidablePred (SafeSection c q)
  | .round .. => inferInstanceAs (Decidable (_ → _ → _))
  | .commit _ group roomId _ | .workerCommit group roomId _ =>
    inferInstanceAs (Decidable (SafeCommit q group roomId))
  | .enqueue .. | .retry .. | .take .. | .choose .. | .handOff .. | .allocate .. | .mark _
  | .worker | .workerAllocate .. | .workerMark | .join | .flush _ | .save .. | .saved _
  | .done => .isTrue trivial

instance (c : MatchConfig) (s : MatchSystem) : DecidablePred (s.Safe c)
  | .restore (some _) _ => inferInstanceAs (Decidable (_ → _ → _))
  | .resume thread _ => inferInstanceAs (Decidable (∀ pc ∈ s.threads[thread]?, _))
  | .restore none _ | .enqueue .. | .cancel .. | .getStatus .. | .beginShutdown
  | .startAllocationWorker | .stopAllocationWorker | .tick _ | .flushSnapshotNow _
  | .setSnapshotMergeIntervalMs _ => .isTrue trivial

/-! ## The law

Each step keeps `Covered`, or is one of the three. -/

/-- Two players wait only while a retry is noted, or a thread is on its way to them. -/
def Covered (s : MatchSystem) : Prop :=
  2 ≤ s.queue.queue.length →
    s.queue.retryPairing = true ∨ ∃ pc ∈ s.threads, pc.takes = true

/-- An action that lets nobody enter the queue, and ends no thread. -/
theorem Covered.mono (h : Covered s) (hlen : s'.queue.queue.length ≤ s.queue.queue.length)
    (hretry : s'.queue.retryPairing = s.queue.retryPairing)
    (hthreads : ∀ pc ∈ s.threads, pc ∈ s'.threads) : Covered s' := by
  intro htwo
  rw [hretry]
  exact (h (htwo.trans hlen)).imp_right fun ⟨pc, hpc, ht⟩ => ⟨pc, hthreads pc hpc, ht⟩

/-- **A section of a thread** that does not cover the waiting players itself leaves the flag up, and
hands on its own intention to take groups. -/
theorem Covered.resume (h : Covered s) {thread : Nat} {pc pc' : Pc} {q : MatchQueue}
    (hpc : s.threads[thread]? = some pc)
    (hstep : 2 ≤ q.queue.length → (q.retryPairing = true ∨ pc'.takes = true) ∨
      (2 ≤ s.queue.queue.length ∧ q.retryPairing = s.queue.retryPairing ∧
        (pc.takes = true → pc'.takes = true))) :
    Covered ⟨q, s.threads.set thread pc'⟩ := by
  intro htwo
  obtain ⟨before, after, hthreads, hset⟩ := exists_set hpc pc'
  have hnew : pc' ∈ s.threads.set thread pc' := by
    rw [hset]
    exact List.mem_append_right _ List.mem_cons_self
  rcases hstep htwo with (hretry | htakes) | ⟨htwo', hretry, htakes⟩
  · exact .inl hretry
  · exact .inr ⟨pc', hnew, htakes⟩
  · rcases h htwo' with hflag | ⟨pc₀, hpc₀, ht⟩
    · exact .inl (hretry.trans hflag)
    · rw [hthreads] at hpc₀
      rcases List.mem_append.mp hpc₀ with hmem | hmem
      · exact .inr ⟨pc₀, by rw [hset]; exact List.mem_append_left _ hmem, ht⟩
      · rcases List.mem_cons.mp hmem with rfl | hmem
        · exact .inr ⟨pc', hnew, htakes ht⟩
        · refine .inr ⟨pc₀, ?_, ht⟩
          rw [hset]
          exact List.mem_append_right _ (List.mem_cons_of_mem _ hmem)

/-- A commit that is safe covers the players it puts back. -/
theorem covers_commitGroup {group : PendingGroup} {roomId : String}
    (hsafe : SafeCommit q group roomId)
    (htwo : 2 ≤ (q.commitGroup nowMs group roomId).queue.length) :
    (q.commitGroup nowMs group roomId).retryPairing = true ∨
      (2 ≤ q.queue.length ∧
        (q.commitGroup nowMs group roomId).retryPairing = q.retryPairing) := by
  rw [MatchQueue.retryPairing_commitGroup]
  by_cases hfailed : roomId = ""
  · rw [if_pos hfailed]
    exact .inl rfl
  · rw [if_neg hfailed]
    rcases hviable : q.groupViable group roomId with - | -
    · rw [MatchQueue.queue_commitGroup hviable, List.length_append] at htwo
      refine .inl (hsafe hfailed ?_ htwo)
      rintro hnone
      simp [MatchQueue.groupViable, hfailed, hnone] at hviable
    · rw [MatchQueue.commitGroup_of_viable hviable] at htwo
      exact .inr ⟨htwo, rfl⟩

/-- **Every step that meets the condition keeps the law.** -/
theorem Covered.step (h : Covered s) (hsound : Sound s) {a : Action} (hstep : SafeStep c s a s') :
    Covered s' := by
  obtain ⟨⟨hsafe, hgenerates⟩, rfl⟩ := hstep
  have hspawn : ∀ (q : MatchQueue) pc, q.queue.length ≤ s.queue.queue.length →
      q.retryPairing = s.queue.retryPairing → Covered (s.spawn q pc) := fun q pc hlen hretry =>
    h.mono hlen hretry fun _ => List.mem_append_left _
  rcases a with ⟨player, request, nowMs⟩ | ⟨player, nowMs⟩ | ⟨player, nowMs⟩ | ⟨- | rows, nowMs⟩ |
    - | - | - | nowMs | nowMs | ms | ⟨thread, answer⟩
  · simp only [next]
    split
    · exact h
    · split
      · exact h
      · exact hspawn _ _ le_rfl rfl
  · exact hspawn _ _ (MatchQueue.length_cancelLocked player)
      (Placed.cancelLocked_frame player).retryPairing
  · exact hspawn _ _ MatchQueue.length_sweep Placed.sweep_frame.retryPairing
  · exact h
  · simp only [next]
    split
    case isTrue hstore =>
      intro htwo
      left
      change (s.queue.restoreLocked c nowMs rows).2.retryPairing = true
      rw [(Placed.restoreLocked_frame rows).retryPairing]
      exact hsafe hstore (htwo.trans (MatchQueue.length_restoreLocked rows))
    case isFalse => exact h
  · exact h
  · simp only [next]
    split
    · refine hspawn _ _ ?_ ?_ <;> (unfold MatchQueue.startWorkerLocked; split <;> rfl)
    · exact h
  · simp only [next]
    split
    · refine hspawn _ _ ?_ ?_ <;> (unfold MatchQueue.stopWorkerLocked; split <;> rfl)
    · exact h
  · simp only [next]
    split
    · exact hspawn _ _ le_rfl rfl
    · exact h
  · simp only [next]
    split
    · exact hspawn _ _ le_rfl rfl
    · exact h
  · exact h
  · simp only [next]
    rcases hpc : s.threads[thread]? with - | pc
    · exact h
    have hsafe : SafeSection c s.queue pc := hsafe pc hpc
    refine h.resume hpc fun htwo => ?_
    by_cases haside : pc.aside = true
    · obtain ⟨hqueue, hretry⟩ := Pc.resume_of_aside haside s.workerEnded answer
      rw [hqueue] at htwo
      exact .inr ⟨htwo, hretry, fun ht => by cases (Pc.takes_of_aside haside).symm.trans ht⟩
    rcases pc with ⟨player, request, nowMs⟩ | ⟨nowMs, changed⟩ | ⟨nowMs, changed⟩ |
      ⟨nowMs, changed⟩ | _ | _ | _ | ⟨nowMs, group, roomId, groups⟩ | _ | _ | _ |
      ⟨group, roomId, queuedMs⟩ | _ | _ | _ | _ | _ | _
    case enqueue => exact .inl (.inr rfl)
    case retry =>
      by_cases hflag : s.queue.retryPairing = true
      · refine .inl (.inr ?_)
        rw [Pc.resume, MatchQueue.retryLocked, hflag, if_pos rfl]
        rfl
      · exact .inr ⟨htwo, (Bool.eq_false_iff.mpr hflag).symm, fun ht => by cases ht⟩
    case round =>
      simp only [Pc.resume] at htwo ⊢
      split
      case isTrue hfull =>
        rw [if_pos hfull] at htwo
        exact .inl (.inl (hsafe hfull htwo))
      case isFalse => exact .inl (.inr rfl)
    case take =>
      obtain ⟨hids, hne⟩ : GeneratesFor s.queue answer (.take nowMs changed) := hgenerates _ hpc
      have hshort := hsound.length_takePairGroups le_rfl hids hne
      exact absurd htwo (not_le.mpr hshort)
    case commit =>
      exact (covers_commitGroup hsafe htwo).imp .inl fun h =>
        ⟨h.1, h.2, fun ht => by cases ht⟩
    case workerCommit =>
      exact (covers_commitGroup hsafe htwo).imp .inl fun h =>
        ⟨h.1, h.2, fun ht => by cases ht⟩
    all_goals exact absurd rfl haside

/-! ## Nobody is stranded

And so over every run. -/

/-- When no call is in the middle and no group is in flight, two waiting players are noted for a
retry, and whoever polls next runs a round of pairing. -/
def NobodyStranded (c : MatchConfig) (s : MatchSystem) : Prop :=
  (∀ pc ∈ s.threads, pc.idle = true) → s.inFlight = [] → 2 ≤ s.queue.queue.length →
    s.queue.retryPairing = true ∧
    ∀ player nowMs answer, ∃ changed,
      ((s.next c (.getStatus player nowMs)).next c (.resume s.threads.length answer)).threads.getLast?
        = some (.round nowMs changed)

/-- A poll runs a round when a retry is noted. -/
theorem getStatus_runs (hretry : s.queue.retryPairing = true) (player : String) (nowMs : Int)
    (answer : Answer) : ∃ changed,
    ((s.next c (.getStatus player nowMs)).next c (.resume s.threads.length answer)).threads.getLast?
      = some (.round nowMs changed) := by
  have hkept : (s.queue.getStatusLocked c nowMs player).2.2.retryPairing = true := by
    change (s.queue.sweep c nowMs).2.retryPairing = true
    rw [Placed.sweep_frame.retryPairing]
    exact hretry
  refine ⟨(s.queue.getStatusLocked c nowMs player).2.1, ?_⟩
  simp [next, spawn, Pc.resume, MatchQueue.retryLocked, hkept]

/-- **Nobody is stranded**, in every run whose steps all meet the condition. -/
theorem nobodyStranded {as : List Action} (hrun : Run (SafeStep c) {} as s) :
    s.NobodyStranded c := by
  obtain ⟨hcovered, -⟩ : Covered s ∧ Sound s :=
    hrun.invariant (I := fun s => Covered s ∧ Sound s)
      (fun _ _ _ h hstep => ⟨h.1.step h.2 hstep, h.2.step hstep.2⟩)
      ⟨fun htwo => absurd htwo (by decide), .start⟩
  intro hidle _ htwo
  have hretry : s.queue.retryPairing = true := by
    rcases hcovered htwo with hretry | ⟨pc, hpc, htakes⟩
    · exact hretry
    · cases (Pc.takes_of_idle (hidle pc hpc)).symm.trans htakes
  exact ⟨hretry, getStatus_runs hretry⟩

/-- A pair is taken, its allocation fails, and the call ends. -/
def failedAllocation : List Action :=
  takenPair ++ [.resume 1 {}, .resume 1 {}, .resume 1 {}, .resume 1 {}]

theorem nobodyStranded_failedAllocation :
    NobodyStranded {} (failedAllocation.foldl (next {}) {}) :=
  nobodyStranded (Run.of_guarded (by decide))

/-- While a room is allocated for alice and bob, carol enters the queue and alice cancels; the
allocation succeeds, and bob is put back to carol. -/
def cancelledPartner : List Action :=
  takenPair ++
  [.enqueue "carol" "q-3" 1200, .resume 2 {}, .resume 2 {}, .resume 2 {}, .resume 2 {},
    .cancel "alice" 1300, .resume 3 {},
    .resume 1 ⟨[], "r-1", true, 0⟩, .resume 1 {}, .resume 1 {}, .resume 1 {}]

/-- Bob and carol wait, and no retry is noted. -/
theorem not_nobodyStranded :
    ¬ ∀ (c : MatchConfig) (as : List Action) (s : MatchSystem),
      Run (GeneratingStep c) {} as s → s.NobodyStranded c := by
  intro hclaim
  have hstranded := hclaim {} cancelledPartner _ (Run.of_guarded (by decide))
  have hretry := (hstranded (by decide) (by decide) (by decide)).1
  have hnot : (cancelledPartner.foldl (next {}) {}).queue.retryPairing = false := by decide
  cases hnot.symm.trans hretry

end MatchSystem

end RealtimeGame.Match
