import RealtimeGame.Library.Run
import RealtimeGame.Match.MatchSystem

/-!
# Match/Partition — every waiting player is in exactly one place

Players leave the queue for a group that one thread holds, are handed from thread to thread by way of
the allocation queue, and come back or are settled.  Counted over all threads (`held`), nobody is ever
lost or there twice (`partition`).
-/

open Library

namespace RealtimeGame.Match

variable {c : MatchConfig} {nowMs : Int} {p : String}

/-- How often a player is in some groups. -/
def inGroups (groups : List PendingGroup) (p : String) : Nat :=
  (groups.flatMap (·.playerIds)).count p

@[simp] theorem inGroups_nil : inGroups [] p = 0 := rfl

@[simp] theorem inGroups_cons (g : PendingGroup) (gs : List PendingGroup) :
    inGroups (g :: gs) p = g.playerIds.count p + inGroups gs p := by
  rw [inGroups, List.flatMap_cons, List.count_append]
  rfl

@[simp] theorem inGroups_append (gs gs' : List PendingGroup) :
    inGroups (gs ++ gs') p = inGroups gs p + inGroups gs' p := by
  rw [inGroups, List.flatMap_append, List.count_append]
  rfl

theorem inGroups_eq_zero {gs : List PendingGroup} :
    inGroups gs p = 0 ↔ ∀ g ∈ gs, p ∉ g.playerIds := by
  simp only [inGroups, List.count_eq_zero, List.mem_flatMap, not_exists, not_and]

/-- Counted once, a player is in one group only. -/
theorem length_filter_of_inGroups {gs : List PendingGroup} (h : inGroups gs p = 1) :
    (gs.filter fun g => p ∈ g.playerIds).length = 1 := by
  induction gs with
  | nil => cases h
  | cons g gs ih =>
    rw [inGroups_cons] at h
    by_cases hmem : p ∈ g.playerIds
    · have hpos := List.count_pos_iff.mpr hmem
      have hnone : ∀ g' ∈ gs, p ∉ g'.playerIds := inGroups_eq_zero.mp (by omega)
      rw [List.filter_cons_of_pos (by simpa using hmem), List.length_cons,
        List.filter_eq_nil_iff.mpr (by simpa using hnone), List.length_nil]
    · rw [List.count_eq_zero.mpr hmem, Nat.zero_add] at h
      rw [List.filter_cons_of_neg (by simpa using hmem)]
      exact ih h

variable {q : MatchQueue} {held : String → Nat}

/-- The groups handed to the worker. -/
def MatchQueue.handedOver (q : MatchQueue) : List PendingGroup := q.allocationQueue.map (·.1)

theorem MatchQueue.Frame.handedOver {q q' : MatchQueue} (h : q.Frame q') :
    q'.handedOver = q.handedOver := by
  rw [MatchQueue.handedOver, h]
  rfl

/-! ## One section of one thread

What a thread holds before and after each of its sections. -/

/-- **A thread moves players between the queue, its own groups and the allocation queue**; `others`
counts what all the other threads hold. -/
theorem Placed.resume {others : String → Nat} {pc : Pc} (workerEnded : Bool) (answer : Answer)
    (h : Placed q fun p => others p + inGroups pc.groups p + inGroups q.handedOver p) :
    Placed (pc.resume c workerEnded answer q).2 fun p =>
      others p + inGroups (pc.resume c workerEnded answer q).1.groups p +
        inGroups (pc.resume c workerEnded answer q).2.handedOver p := by
  have hfinish : ∀ nowMs changed, (Pc.finish nowMs changed).groups = [] := by
    intro nowMs changed
    rcases changed with - | - <;> rfl
  rcases pc with ⟨player, request, nowMs⟩ | ⟨nowMs, changed⟩ | ⟨nowMs, changed⟩ |
    ⟨nowMs, changed⟩ | ⟨nowMs, groups⟩ | ⟨nowMs, groups⟩ | ⟨nowMs, groups⟩ |
    ⟨nowMs, group, roomId, groups⟩ | nowMs | - | ⟨group, queuedMs⟩ | ⟨group, roomId, queuedMs⟩ | - |
    - | nowMs | ⟨nowMs, snapshot⟩ | nowMs | -
  case enqueue =>
    simp only [Pc.resume]
    rw [(Placed.enqueueLocked_frame player request).handedOver]
    exact h.enqueueLocked player request
  case retry =>
    simp only [Pc.resume]
    split
    · exact h.of_eq rfl rfl
    · rw [hfinish]
      exact h.of_eq rfl rfl
  case round =>
    simp only [Pc.resume]
    split
    · rw [hfinish]
      exact h
    · exact h
  case take =>
    simp only [Pc.resume]
    have hframe : q.Frame (q.takePairGroupsLocked answer.ids).2 :=
      MatchQueue.takePairGroups_frame _ _ _
    rw [hframe.handedOver]
    refine (h.takePairGroups q.queue.length answer.ids).congr fun p => ?_
    have hgroups : (if (q.takePairGroupsLocked answer.ids).1 = [] then Pc.finish nowMs changed
        else .choose nowMs (q.takePairGroupsLocked answer.ids).1).groups
          = (q.takePairGroupsLocked answer.ids).1 := by
      split
      case isTrue hnil => rw [hfinish, hnil]
      case isFalse => rfl
    rw [hgroups]
    change _ = _ + inGroups (q.takePairGroupsLocked answer.ids).1 p
    simp only [Pc.groups, inGroups_nil]
    omega
  case choose =>
    simp only [Pc.resume]
    split <;> exact h
  case handOff =>
    refine (h.of_eq rfl rfl).congr fun p => ?_
    simp [Pc.resume, MatchQueue.handOff, MatchQueue.handedOver, Pc.groups, Function.comp_def]
    omega
  case allocate =>
    rcases groups with - | ⟨group, groups⟩
    · exact h
    · exact h
  case commit =>
    simp only [Pc.resume]
    have hcommit := h.commitGroup nowMs group roomId fun p => by
      simp only [Pc.groups, inGroups_cons]
      omega
    rw [MatchQueue.commitGroup_frame]
    refine (hcommit.of_eq rfl rfl).congr fun p => ?_
    simp only [Pc.groups, inGroups_cons, MatchQueue.handedOver]
    omega
  case mark =>
    simp only [Pc.resume, MatchQueue.markSnapshotDirty]
    split
    · exact h
    · split
      · exact h
      · exact h.of_eq rfl rfl
  case worker =>
    simp only [Pc.resume, MatchQueue.popAllocation]
    rcases hqueue : q.allocationQueue with - | ⟨⟨group, queuedMs⟩, rest⟩
    · dsimp only
      split <;> exact h
    · refine (h.of_eq rfl rfl).congr fun p => ?_
      simp [Pc.groups, MatchQueue.handedOver, hqueue]
      omega
  case workerAllocate => exact h
  case workerCommit =>
    simp only [Pc.resume]
    have hcommit := h.commitGroup queuedMs group roomId fun p => by
      simp only [Pc.groups, inGroups_cons]
      omega
    rw [MatchQueue.commitGroup_frame]
    refine (hcommit.of_eq rfl rfl).congr fun p => ?_
    simp only [Pc.groups, inGroups_cons, inGroups_nil, MatchQueue.handedOver]
    omega
  case workerMark =>
    simp only [Pc.resume, MatchQueue.markSnapshotDirty]
    split
    · exact h
    · split
      · exact h
      · exact h.of_eq rfl rfl
  case join =>
    simp only [Pc.resume]
    split
    · exact h.of_eq rfl rfl
    · exact h
  case flush =>
    simp only [Pc.resume, MatchQueue.flushLocked]
    rcases q.snapshotDirty with - | -
    · exact h
    · exact h.of_eq rfl rfl
  case save => exact h
  case saved => exact h.of_eq rfl rfl
  case done => exact h

/-! ## Every action of the system

An action is one section of one thread, or a call. -/

namespace MatchSystem

variable {s s' : MatchSystem}

/-- **The law** — all players are where their entries say, given the groups in flight. -/
def Sound (s : MatchSystem) : Prop := Placed s.queue (inGroups s.inFlight)

theorem Sound.start : Sound {} := Placed.start

/-- A new thread that holds no group. -/
theorem Sound.spawn {q : MatchQueue} {pc : Pc}
    (hq : Placed q (inGroups s.inFlight)) (hhanded : q.handedOver = s.queue.handedOver)
    (hpc : pc.groups = []) : Sound (s.spawn q pc) := by
  refine hq.congr fun p => ?_
  change inGroups ((s.threads ++ [pc]).flatMap Pc.groups ++ q.handedOver) p = _
  rw [List.flatMap_append, List.flatMap_singleton, hpc, List.append_nil, hhanded]
  rfl

/-- What is put in a thread's place stands between the other threads. -/
theorem exists_set {thread : Nat} {pc : Pc} (hpc : s.threads[thread]? = some pc) (pc' : Pc) :
    ∃ before after, s.threads = before ++ pc :: after ∧
      s.threads.set thread pc' = before ++ pc' :: after := by
  obtain ⟨hlt, rfl⟩ := List.getElem?_eq_some_iff.mp hpc
  obtain ⟨before, after, hthreads, -, hset⟩ := List.exists_of_set hlt
  exact ⟨before, after, hthreads, hset⟩

theorem Sound.next (h : Sound s) (a : Action) : Sound (s.next c a) := by
  rcases a with ⟨player, request, nowMs⟩ | ⟨player, nowMs⟩ | ⟨player, nowMs⟩ | ⟨- | rows, nowMs⟩ |
    - | - | - | nowMs | nowMs | ms | ⟨thread, answer⟩
  · -- `Enqueue`
    simp only [MatchSystem.next]
    split
    · exact h
    · split
      · exact h
      · exact Sound.spawn h rfl rfl
  · -- `Cancel`
    refine Sound.spawn (Placed.cancelLocked h player) ?_ ?_
    · exact (Placed.cancelLocked_frame player).handedOver
    · rcases (s.queue.cancelLocked c nowMs player).2.1 with - | - <;> rfl
  · -- `GetStatus`
    exact Sound.spawn (Placed.sweep h) Placed.sweep_frame.handedOver rfl
  · exact h
  · -- `Restore`
    simp only [MatchSystem.next]
    split
    · refine (Placed.restoreLocked h rows).congr fun p => ?_
      change inGroups (_ ++ (s.queue.restoreLocked c nowMs rows).2.handedOver) p = _
      rw [(Placed.restoreLocked_frame rows).handedOver]
      rfl
    · exact h
  · exact Placed.of_eq h rfl rfl
  · simp only [MatchSystem.next]
    split
    · refine Sound.spawn (Placed.of_eq h ?_ ?_) ?_ rfl <;>
        (unfold MatchQueue.startWorkerLocked; split <;> rfl)
    · exact h
  · simp only [MatchSystem.next]
    split
    · refine Sound.spawn (Placed.of_eq h ?_ ?_) ?_ rfl <;>
        (unfold MatchQueue.stopWorkerLocked; split <;> rfl)
    · exact h
  · simp only [MatchSystem.next]
    split
    · exact Sound.spawn h rfl rfl
    · exact h
  · simp only [MatchSystem.next]
    split
    · exact Sound.spawn h rfl rfl
    · exact h
  · exact Placed.of_eq h rfl rfl
  · -- a section of a thread
    simp only [MatchSystem.next]
    rcases hpc : s.threads[thread]? with - | pc
    · exact h
    obtain ⟨before, after, hthreads, hset⟩ := exists_set hpc (pc.resume c s.workerEnded answer s.queue).1
    have hall : Placed s.queue fun p => inGroups ((before ++ after).flatMap Pc.groups) p +
        inGroups pc.groups p + inGroups s.queue.handedOver p := by
      refine Placed.congr h fun p => ?_
      rw [inFlight, hthreads]
      simp only [List.flatMap_append, List.flatMap_cons, inGroups_append, MatchQueue.handedOver]
      omega
    refine (Placed.resume s.workerEnded answer hall).congr fun p => ?_
    simp only [inFlight, hset, List.flatMap_append, List.flatMap_cons, inGroups_append,
      MatchQueue.handedOver]
    omega

theorem Sound.step (h : Sound s) {a : Action} (hstep : Step c s a s') : Sound s' := by
  obtain rfl := hstep
  exact h.next a

theorem Sound.of_run {as : List Action} (hrun : Run (Step c) {} as s) : Sound s :=
  hrun.invariant (fun _ _ _ h hstep => Sound.step h hstep) .start

/-! ## Nobody is lost, nobody is there twice

The count over all threads is one for each player who is in flight. -/

/-- **The partition** — in every interleaving: nobody is in the queue twice; a queued player is once
in the queue, or in one group that is in flight; whoever is in the queue is queued; and whoever is
matched or timed out is in neither place. -/
theorem partition {as : List Action} (hrun : Run (Step c) {} as s) :
    s.queue.queue.Nodup ∧
    (∀ p e, s.queue.entries.lookup p = some e → e.state = .queued →
      (e.allocating = false ∧ s.queue.queue.count p = 1 ∧ ∀ g ∈ s.inFlight, p ∉ g.playerIds) ∨
      (e.allocating = true ∧ p ∉ s.queue.queue ∧
        (s.inFlight.filter fun g => p ∈ g.playerIds).length = 1)) ∧
    (∀ p ∈ s.queue.queue, ∃ e, s.queue.entries.lookup p = some e ∧ e.state = .queued) ∧
    (∀ p e, s.queue.entries.lookup p = some e → e.state = .matched ∨ e.state = .timeout →
      p ∉ s.queue.queue ∧ ∀ g ∈ s.inFlight, p ∉ g.playerIds) := by
  have hsound : Placed s.queue (inGroups s.inFlight) := Sound.of_run hrun
  refine ⟨hsound.nodup, ?_, ?_, ?_⟩
  · intro p e he hs
    rcases hsound p with ⟨he', -⟩ | ⟨e', he', -, ha, hn, hh⟩ | ⟨e', he', -, ha, hn, hh⟩ |
      ⟨e', he', hs', -⟩
    · cases he.symm.trans he'
    · obtain rfl := Option.some.inj (he.symm.trans he')
      exact .inl ⟨ha, hn, inGroups_eq_zero.mp hh⟩
    · obtain rfl := Option.some.inj (he.symm.trans he')
      exact .inr ⟨ha, List.count_eq_zero.mp hn, length_filter_of_inGroups hh⟩
    · obtain rfl := Option.some.inj (he.symm.trans he')
      exact absurd hs hs'
  · intro p hp
    obtain ⟨e, he, hs, -⟩ := hsound.of_mem hp
    exact ⟨e, he, hs⟩
  · intro p e he hover
    obtain ⟨hn, hh⟩ := (hsound p).of_free fun e' he' hs => by
      obtain rfl := Option.some.inj (he.symm.trans he')
      rcases hover with hm | ht
      · cases hs.symm.trans hm
      · cases hs.symm.trans ht
    exact ⟨List.count_eq_zero.mp hn, inGroups_eq_zero.mp hh⟩

/-- Two players are taken by the second one's call, and wait for their room. -/
def takenPair : List Action :=
  [.enqueue "alice" "q-1" 1000, .resume 0 {}, .resume 0 {}, .resume 0 {}, .resume 0 {},
    .enqueue "bob" "q-2" 1100, .resume 1 {}, .resume 1 {}, .resume 1 ⟨["m-1"], "", true, 0⟩,
    .resume 1 {}]

/-- The system with a pair in flight. -/
def pairInFlight : MatchSystem := takenPair.foldl (next {}) {}

theorem partition_pairInFlight :
    pairInFlight.queue.queue.Nodup ∧
    (∀ p e, pairInFlight.queue.entries.lookup p = some e → e.state = .queued →
      (e.allocating = false ∧ pairInFlight.queue.queue.count p = 1 ∧
        ∀ g ∈ pairInFlight.inFlight, p ∉ g.playerIds) ∨
      (e.allocating = true ∧ p ∉ pairInFlight.queue.queue ∧
        (pairInFlight.inFlight.filter fun g => p ∈ g.playerIds).length = 1)) ∧
    (∀ p ∈ pairInFlight.queue.queue,
      ∃ e, pairInFlight.queue.entries.lookup p = some e ∧ e.state = .queued) ∧
    (∀ p e, pairInFlight.queue.entries.lookup p = some e → e.state = .matched ∨ e.state = .timeout →
      p ∉ pairInFlight.queue.queue ∧ ∀ g ∈ pairInFlight.inFlight, p ∉ g.playerIds) :=
  partition (Run.of_fun (next {}) {} takenPair)

example : pairInFlight.inFlight = [⟨"m-1", ["alice", "bob"], "q-1"⟩] := by decide

end MatchSystem

end RealtimeGame.Match
