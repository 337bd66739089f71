import RealtimeGame.Library.WriteBehind
import RealtimeGame.Match.Restart

/-!
# Match/UpToDate — what is saved of a queue is what it shows

A call changes the queue in one section and marks the snapshot as dirty in a later one, if its own flags say
that anything has changed.  No section changes what a snapshot shows without its flag
(`Pc.writeBehind_resume`), so that the queue is a `WriteBehind` of its snapshot.
-/

open Library

namespace RealtimeGame.Match

variable {c : MatchConfig} {q : MatchQueue} {held : String → Nat} {nowMs : Int} {p : String}

namespace MatchQueue

/-! ## Sections that report no change

They leave everything that a snapshot shows. -/

theorem sweep_of_unchanged (h : (q.sweep c nowMs).1 = false) : (q.sweep c nowMs).2 = q := by
  rw [sweep] at h ⊢
  obtain ⟨hnone, hstale⟩ := Bool.or_eq_false_iff.mp h
  have hout : q.timedOut c nowMs = [] := not_not.mp (of_decide_eq_false hnone)
  rw [hout, List.foldl_nil] at hstale ⊢
  have hkept : q.entries.filter (fun _ e => !e.isStale c nowMs) = q.entries := by
    refine AList.ext (List.filter_eq_self.mpr fun e he => ?_)
    rw [Bool.not_eq_true', ← Bool.not_eq_true]
    exact List.any_eq_false.mp hstale _ (List.mem_map_of_mem he)
  rw [hkept]

theorem enqueueLocked_of_unchanged {request : String} (h : (q.enqueueLocked c nowMs p request).2.1 = false) :
    (q.enqueueLocked c nowMs p request).2.2 = q := by
  revert h
  unfold enqueueLocked
  dsimp only
  split
  · split
    · exact sweep_of_unchanged
    · split
      · exact sweep_of_unchanged
      · exact fun h => by cases h
  · split
    · exact sweep_of_unchanged
    · exact fun h => by cases h

theorem cancelLocked_of_unchanged (h : (q.cancelLocked c nowMs p).2.1 = false) :
    (q.cancelLocked c nowMs p).2.2 = q := by
  revert h
  unfold cancelLocked
  dsimp only
  split
  · exact sweep_of_unchanged
  · split
    · exact fun h => by cases h
    · split
      · exact sweep_of_unchanged
      · exact fun h => by cases h

theorem snapshotDirty_markSnapshotDirty (hstore : c.hasStore = true) :
    (q.markSnapshotDirty c nowMs).snapshotDirty = true := by
  unfold markSnapshotDirty
  rw [hstore, Bool.not_true, if_neg Bool.false_ne_true]
  split
  case isTrue h => exact h
  case isFalse => rfl

end MatchQueue

/-- A round that takes no group leaves the queue as it is. -/
theorem Placed.takePairGroups_of_nil (h : Placed q held) {fuel : Nat} {ids : List String}
    (hnil : (MatchQueue.takePairGroups fuel ids q).1 = []) : (MatchQueue.takePairGroups fuel ids q).2 = q := by
  cases fuel with
  | zero => rfl
  | succ fuel =>
    rcases MatchQueue.takePairGroups_cases h fuel ids with ⟨-, heq⟩ | ⟨a, b, rest, request, -, -, heq⟩
    · rw [heq]
    · rw [heq] at hnil
      cases hnil

/-! ## Threads

What a thread has changed and not marked yet, and what it has copied and not saved yet. -/

namespace Pc

variable {pc : Pc} {answer : Answer} {ended : Bool}

/-- The thread has changed something, or may have, and has not noted it yet. -/
def unmarked : Pc → Bool
  | retry _ changed | round _ changed | take _ changed => changed
  | choose .. | handOff .. | allocate .. | commit .. | mark _ | workerMark => true
  | _ => false

/-- The copy that the thread is going to save. -/
def copy : Pc → Option MatchQueueSnapshot
  | save _ snapshot => some snapshot
  | _ => none

/-- Is this a call of `FlushSnapshotNow`? -/
def flushes : Pc → Bool
  | flush _ | save .. | saved _ => true
  | _ => false

theorem copy_of_not_flushes (h : pc.flushes = false) : pc.copy = none := by
  cases pc <;> first | rfl | cases h

theorem unmarked_finish (nowMs : Int) (changed : Bool) : (finish nowMs changed).unmarked = changed := by
  cases changed <;> rfl

theorem copy_finish (nowMs : Int) (changed : Bool) : (finish nowMs changed).copy = none := by
  cases changed <;> rfl

theorem flushes_finish (nowMs : Int) (changed : Bool) : (finish nowMs changed).flushes = false := by
  cases changed <;> rfl

/-- The queue and one thread, and what was saved last. -/
def writeBehind (pc : Pc) (q : MatchQueue) (saved : Option MatchQueueSnapshot) :
    WriteBehind MatchQueueSnapshot :=
  ⟨q.makeSnapshot, q.snapshotDirty, pc.unmarked, pc.copy, saved⟩

/-- **One section** changes nothing that a snapshot shows, or leaves it to be noted, or notes it, or takes
a copy or saves it. -/
theorem writeBehind_resume (hstore : c.hasStore = true) (h : Placed q held) (ended : Bool) (answer : Answer)
    (pc : Pc) (saved : Option MatchQueueSnapshot) :
    (writeBehind pc q saved).Step
      (writeBehind (pc.resume c ended answer q).1 (pc.resume c ended answer q).2 (pc.copy.or saved)) := by
  cases pc with
  | enqueue playerId requestId nowMs =>
    cases hchanged : (q.enqueueLocked c nowMs playerId requestId).2.1 with
    | true => exact .change hchanged
    | false =>
      have hsame := MatchQueue.enqueueLocked_of_unchanged hchanged
      exact .idle (congrArg MatchQueue.makeSnapshot hsame) (congrArg MatchQueue.snapshotDirty hsame) hchanged
        rfl rfl
  | retry nowMs changed =>
    rw [resume]
    split
    · exact .idle rfl rfl rfl rfl rfl
    · exact .idle rfl rfl (unmarked_finish nowMs changed) (copy_finish nowMs changed) rfl
  | round nowMs changed =>
    rw [resume]
    split
    · exact .idle rfl rfl (unmarked_finish nowMs changed) (copy_finish nowMs changed) rfl
    · exact .idle rfl rfl rfl rfl rfl
  | take nowMs changed =>
    rw [resume]
    split
    case isTrue hnil =>
      have hsame : (q.takePairGroupsLocked answer.ids).2 = q := h.takePairGroups_of_nil hnil
      rw [hsame]
      exact .idle rfl rfl (unmarked_finish nowMs changed) (copy_finish nowMs changed) rfl
    case isFalse => exact .change rfl
  | choose nowMs groups =>
    rw [resume]
    split
    · exact .change rfl
    · exact .change rfl
  | handOff | commit | workerCommit => exact .change rfl
  | allocate nowMs groups =>
    cases groups with
    | nil => exact .change rfl
    | cons group groups => exact .change rfl
  | mark | workerMark => exact .mark (MatchQueue.snapshotDirty_markSnapshotDirty hstore)
  | worker =>
    rw [resume, MatchQueue.popAllocation]
    cases q.allocationQueue with
    | nil =>
      dsimp only
      split
      · exact .idle rfl rfl rfl rfl rfl
      · exact .idle rfl rfl rfl rfl rfl
    | cons first rest => exact .idle rfl rfl rfl rfl rfl
  | workerAllocate | saved | done => exact .idle rfl rfl rfl rfl rfl
  | join =>
    rw [resume]
    split
    · exact .idle rfl rfl rfl rfl rfl
    · exact .idle rfl rfl rfl rfl rfl
  | flush nowMs =>
    rw [resume, MatchQueue.flushLocked]
    split
    case h_1 snapshot q' heq =>
      split at heq
      · cases heq
        exact .take rfl
      · cases heq
    case h_2 q' heq =>
      split at heq
      · cases heq
      · cases heq
        exact .idle rfl rfl rfl rfl rfl
  | save nowMs snapshot => exact .save snapshot rfl rfl rfl rfl rfl rfl

/-- Only `FlushSnapshotNow` goes on as such. -/
theorem flushes_resume (h : pc.flushes = false) : (pc.resume c ended answer q).1.flushes = false := by
  cases pc with
  | enqueue | handOff | commit | mark | workerAllocate | workerCommit | workerMark | done => rfl
  | retry nowMs changed =>
    rw [resume]
    split
    · rfl
    · exact flushes_finish nowMs changed
  | round nowMs changed =>
    rw [resume]
    split
    · exact flushes_finish nowMs changed
    · rfl
  | take nowMs changed =>
    dsimp only [resume]
    split
    · exact flushes_finish nowMs changed
    · rfl
  | choose nowMs groups =>
    rw [resume]
    split <;> rfl
  | allocate nowMs groups => cases groups <;> rfl
  | worker =>
    rw [resume, MatchQueue.popAllocation]
    cases q.allocationQueue with
    | nil =>
      dsimp only
      split <;> rfl
    | cons first rest => rfl
  | join =>
    rw [resume]
    split <;> rfl
  | flush | save | saved => cases h

end Pc

/-! ## Runs

The queue, the flag and the threads together are a `WriteBehind`. -/

/-- A call of `Tick` or `FlushSnapshotNow`. -/
def Action.flushes : Action → Bool
  | .tick _ | .flushSnapshotNow _ => true
  | _ => false

namespace MatchSystem

variable {s : MatchSystem} {a : Action} {saved : Option MatchQueueSnapshot}

/-- Snapshots are flushed by one thread, call by call. -/
def OneFlusher (s : MatchSystem) (a : Action) : Prop :=
  a.serves = true ∧ (a.flushes = true → ∀ pc ∈ s.threads, pc.flushes = false)

instance : Decidable (OneFlusher s a) := inferInstanceAs (Decidable (_ ∧ (_ → _)))

/-- The `Save` that an action is, and what it returns. -/
def savedBy (s : MatchSystem) : Action → Option (MatchQueueSnapshot × Bool)
  | .resume thread answer => (s.threads[thread]?.bind Pc.copy).map fun snapshot => (snapshot, answer.saved)
  | _ => none

/-- All of a run. -/
def saves (c : MatchConfig) : MatchSystem → List Action → List (MatchQueueSnapshot × Bool)
  | _, [] => []
  | s, a :: as => (s.savedBy a).toList ++ saves c (s.next c a) as

/-- The queue and all threads, and what was saved last. -/
def writeBehind (s : MatchSystem) (saved : Option MatchQueueSnapshot) : WriteBehind MatchQueueSnapshot :=
  ⟨s.queue.makeSnapshot, s.queue.snapshotDirty, s.threads.any Pc.unmarked, s.threads.findSome? Pc.copy, saved⟩

/-- One thread, and the others. -/
theorem writeBehind_split {before after : List Pc} {pc : Pc}
    (h : (before ++ after).findSome? Pc.copy = none ∨ pc.copy = none) (q : MatchQueue)
    (saved : Option MatchQueueSnapshot) :
    writeBehind ⟨q, before ++ pc :: after⟩ saved =
      { pc.writeBehind q saved with
        pending := pc.unmarked || (before ++ after).any Pc.unmarked
        copy := pc.copy.or ((before ++ after).findSome? Pc.copy) } := by
  have hpending : (before ++ pc :: after).any Pc.unmarked =
      (pc.unmarked || (before ++ after).any Pc.unmarked) := by
    rw [List.any_append, List.any_cons, List.any_append, Bool.or_left_comm]
  have hcopy : (before ++ pc :: after).findSome? Pc.copy =
      pc.copy.or ((before ++ after).findSome? Pc.copy) := by
    rw [List.findSome?_append] at h ⊢
    rw [List.findSome?_append, ← List.singleton_append, List.findSome?_append, List.findSome?_singleton]
    rcases h with hnone | hnone
    · obtain ⟨hbefore, hafter⟩ := Option.or_eq_none_iff.mp hnone
      rw [hbefore, hafter, Option.none_or, Option.none_or, Option.or_none]
    · rw [hnone, Option.none_or, Option.none_or]
  rw [writeBehind, hpending, hcopy]
  rfl

/-- A call that changes nothing before its next section, or has it to note. -/
theorem writeBehind_spawn {q : MatchQueue} {pc : Pc}
    (h : pc.unmarked = true ∨ q.makeSnapshot = s.queue.makeSnapshot ∧
      q.snapshotDirty = s.queue.snapshotDirty ∧ pc.unmarked = false)
    (hcopy : pc.copy = none) : (s.writeBehind saved).Step ((s.spawn q pc).writeBehind saved) := by
  rcases h with hpending | ⟨hview, hdirty, hpending⟩
  · refine .change ?_
    change (s.threads ++ [pc]).any Pc.unmarked = true
    rw [List.any_append, List.any_cons, hpending, Bool.true_or, Bool.or_true]
  · refine .idle hview hdirty ?_ ?_ rfl
    · change (s.threads ++ [pc]).any Pc.unmarked = s.threads.any Pc.unmarked
      rw [List.any_append, List.any_cons, hpending, List.any_nil, Bool.or_false, Bool.or_false]
    · change (s.threads ++ [pc]).findSome? Pc.copy = s.threads.findSome? Pc.copy
      rw [List.findSome?_append, List.findSome?_singleton, hcopy, Option.or_none]

/-- Where a thread goes on, it is one of the threads. -/
theorem exists_resume {thread : Nat} {pc : Pc} (hpc : s.threads[thread]? = some pc) (answer : Answer) :
    ∃ before after, s.threads = before ++ pc :: after ∧ s.next c (.resume thread answer) =
      ⟨(pc.resume c s.workerEnded answer s.queue).2,
        before ++ (pc.resume c s.workerEnded answer s.queue).1 :: after⟩ := by
  obtain ⟨before, after, hthreads, hset⟩ := exists_set hpc (pc.resume c s.workerEnded answer s.queue).1
  refine ⟨before, after, hthreads, ?_⟩
  rw [MatchSystem.next, hpc, ← hset]

/-- The calls of `FlushSnapshotNow` that have not returned. -/
def flushing (s : MatchSystem) : Nat := s.threads.countP Pc.flushes

theorem flushing_spawn {q : MatchQueue} {pc : Pc} (hpc : pc.flushes = false) :
    (s.spawn q pc).flushing = s.flushing := by
  change (s.threads ++ [pc]).countP Pc.flushes = _
  rw [List.countP_append, List.countP_singleton, hpc, if_neg Bool.false_ne_true, Nat.add_zero, flushing]

/-- Only a call of it, with a store, is one more. -/
theorem flushing_next (a : Action) :
    (s.next c a).flushing ≤ s.flushing + if a.flushes = true ∧ c.hasStore = true then 1 else 0 := by
  have hspawn : ∀ nowMs, (s.spawn s.queue (.flush nowMs)).flushing = s.flushing + 1 := fun nowMs =>
    List.countP_append
  cases a with
  | enqueue playerId requestId nowMs =>
    rw [MatchSystem.next]
    split
    · exact Nat.le_add_right _ _
    · split
      · exact Nat.le_add_right _ _
      · exact (flushing_spawn rfl).le
  | cancel playerId nowMs => exact (flushing_spawn (Pc.flushes_finish _ _)).le
  | getStatus playerId nowMs => exact (flushing_spawn rfl).le
  | restore rows nowMs =>
    cases rows with
    | none => exact Nat.le_add_right _ _
    | some rows =>
      rw [MatchSystem.next]
      split <;> exact Nat.le_add_right _ _
  | beginShutdown | setSnapshotMergeIntervalMs => exact Nat.le_add_right _ _
  | startAllocationWorker =>
    rw [MatchSystem.next]
    split
    · exact (flushing_spawn rfl).le
    · exact Nat.le_add_right _ _
  | stopAllocationWorker =>
    rw [MatchSystem.next]
    split
    · exact (flushing_spawn rfl).le
    · exact Nat.le_add_right _ _
  | tick nowMs =>
    rw [MatchSystem.next]
    split
    case isTrue hdue => rw [if_pos ⟨rfl, (Bool.and_eq_true_iff.mp hdue).1⟩, hspawn]
    case isFalse => exact Nat.le_add_right _ _
  | flushSnapshotNow nowMs =>
    rw [MatchSystem.next]
    split
    case isTrue hstore => rw [if_pos ⟨rfl, hstore⟩, hspawn]
    case isFalse => exact Nat.le_add_right _ _
  | resume thread answer =>
    cases hpc : s.threads[thread]? with
    | none =>
      rw [MatchSystem.next, hpc]
      exact Nat.le_add_right _ _
    | some pc =>
      obtain ⟨before, after, hthreads, hnext⟩ := exists_resume (c := c) hpc answer
      rw [hnext, flushing, flushing, hthreads, List.countP_append, List.countP_append, List.countP_cons,
        List.countP_cons]
      cases hflushes : pc.flushes with
      | true =>
        rw [if_pos rfl]
        split <;> omega
      | false =>
        rw [Pc.flushes_resume hflushes]
        omega

/-- **One action** on the queue, its threads, and what was saved. -/
theorem writeBehind_next (hstore : c.hasStore = true) (h : Sound s) (hone : s.flushing ≤ 1)
    (hserves : a.serves = true) :
    (s.writeBehind saved).Step ((s.next c a).writeBehind (((s.savedBy a).map Prod.fst).or saved)) := by
  have hidle : (s.writeBehind saved).Step (s.writeBehind saved) := .idle rfl rfl rfl rfl rfl
  cases a with
  | enqueue playerId requestId nowMs =>
    rw [MatchSystem.next]
    split
    · exact hidle
    · split
      · exact hidle
      · exact writeBehind_spawn (.inr ⟨rfl, rfl, rfl⟩) rfl
  | cancel playerId nowMs =>
    refine writeBehind_spawn ?_ (Pc.copy_finish _ _)
    rw [Pc.unmarked_finish]
    cases hchanged : (s.queue.cancelLocked c nowMs playerId).2.1 with
    | true => exact .inl rfl
    | false =>
      rw [MatchQueue.cancelLocked_of_unchanged hchanged]
      exact .inr ⟨rfl, rfl, rfl⟩
  | getStatus playerId nowMs =>
    refine writeBehind_spawn ?_ rfl
    cases hchanged : (s.queue.getStatusLocked c nowMs playerId).2.1 with
    | true => exact .inl rfl
    | false =>
      have hsame : (s.queue.getStatusLocked c nowMs playerId).2.2 = s.queue :=
        MatchQueue.sweep_of_unchanged hchanged
      rw [hsame]
      exact .inr ⟨rfl, rfl, rfl⟩
  | restore => cases hserves
  | beginShutdown | setSnapshotMergeIntervalMs => exact .idle rfl rfl rfl rfl rfl
  | startAllocationWorker =>
    rw [MatchSystem.next, MatchQueue.startWorkerLocked]
    split
    · exact hidle
    · refine writeBehind_spawn (.inr ⟨rfl, rfl, ?_⟩) rfl
      rfl
  | stopAllocationWorker =>
    rw [MatchSystem.next, MatchQueue.stopWorkerLocked]
    split
    · refine writeBehind_spawn (.inr ⟨rfl, rfl, ?_⟩) rfl
      rfl
    · exact hidle
  | tick nowMs =>
    rw [MatchSystem.next]
    split
    · exact writeBehind_spawn (.inr ⟨rfl, rfl, rfl⟩) rfl
    · exact hidle
  | flushSnapshotNow nowMs =>
    rw [MatchSystem.next, if_pos hstore]
    exact writeBehind_spawn (.inr ⟨rfl, rfl, rfl⟩) rfl
  | resume thread answer =>
    cases hpc : s.threads[thread]? with
    | none =>
      rw [MatchSystem.next, savedBy, hpc]
      exact hidle
    | some pc =>
      obtain ⟨before, after, hthreads, hnext⟩ := exists_resume (c := c) hpc answer
      have hsaved : (s.savedBy (.resume thread answer)).map Prod.fst = pc.copy := by
        rw [savedBy, hpc, Option.bind_some, Option.map_map]
        exact Option.map_id'
      have hothers : (before ++ after).findSome? Pc.copy = none ∨
          pc.copy = none ∧ (pc.resume c s.workerEnded answer s.queue).1.copy = none := by
        cases hflushes : pc.flushes with
        | true =>
          refine .inl (List.findSome?_eq_none_iff.mpr fun pc' hpc' => Pc.copy_of_not_flushes ?_)
          rw [flushing, hthreads, List.countP_append, List.countP_cons_of_pos hflushes] at hone
          have hnone : (before ++ after).countP Pc.flushes = 0 := by
            rw [List.countP_append]
            omega
          exact Bool.eq_false_iff.mpr (List.countP_eq_zero.mp hnone pc' hpc')
        | false =>
          exact .inr ⟨Pc.copy_of_not_flushes hflushes, Pc.copy_of_not_flushes (Pc.flushes_resume hflushes)⟩
      have hstep := (Pc.writeBehind_resume hstore h.placed s.workerEnded answer pc saved).frame
        ((before ++ after).any Pc.unmarked) hothers
      have hbefore := writeBehind_split (hothers.imp_right And.left) s.queue saved
      have hafter := writeBehind_split (hothers.imp_right And.right)
        (pc.resume c s.workerEnded answer s.queue).2 (pc.copy.or saved)
      rw [← hthreads] at hbefore
      rw [hnext, hsaved, hafter]
      change WriteBehind.Step (writeBehind ⟨s.queue, s.threads⟩ saved) _
      rw [hbefore]
      exact hstep

/-- Without a store, nothing is ever saved. -/
theorem saves_of_no_store (hstore : c.hasStore = false) (as : List Action) (h : s.flushing = 0) :
    saves c s as = [] := by
  induction as generalizing s with
  | nil => rfl
  | cons a as ih =>
    have hnone : s.savedBy a = none := by
      cases a with
      | resume thread answer =>
        rw [savedBy, Option.map_eq_none_iff, Option.bind_eq_none_iff]
        intro pc hpc
        refine Pc.copy_of_not_flushes (Bool.eq_false_iff.mpr ?_)
        exact List.countP_eq_zero.mp h pc (List.mem_of_getElem? hpc)
      | _ => rfl
    have hnext : (s.next c a).flushing ≤ s.flushing + _ := flushing_next a
    rw [h, hstore, if_neg fun hand => Bool.false_ne_true hand.2] at hnext
    rw [saves, hnone, ih (Nat.le_zero.mp hnext)]
    rfl

/-- What a program starts with: the empty queue, or one that is restored. -/
inductive Started (c : MatchConfig) : MatchSystem → Prop
  | empty : Started c {}
  | restored (rows : Option (List MatchQueueSnapshotRow)) (nowMs : Int) :
      Started c (MatchSystem.next c {} (.restore rows nowMs))

/-- **One run** keeps what is saved up to date. -/
theorem upToDate_of_guarded (hstore : c.hasStore = true) {as : List Action} (h : Sound s)
    (hone : s.flushing ≤ 1) (hrun : Run.Guarded OneFlusher (next c) s as)
    (hs : (s.writeBehind saved).UpToDate) :
    ((as.foldl (next c) s).writeBehind (((saves c s as).getLast?.map Prod.fst).or saved)).UpToDate := by
  induction as generalizing s saved with
  | nil => exact hs
  | cons a as ih =>
    obtain ⟨⟨hserves, hflushes⟩, hrest⟩ := hrun
    have hnext := hs.step (writeBehind_next hstore h hone hserves)
    have hone' : (s.next c a).flushing ≤ 1 := by
      have hle : (s.next c a).flushing ≤ s.flushing + _ := flushing_next a
      split at hle
      case isTrue hand =>
        have hnone : s.flushing = 0 := List.countP_eq_zero.mpr fun pc hpc =>
          Bool.eq_false_iff.mp (hflushes hand.1 pc hpc)
        omega
      case isFalse => omega
    have hlast : ((saves c s (a :: as)).getLast?.map Prod.fst).or saved =
        ((saves c (s.next c a) as).getLast?.map Prod.fst).or (((s.savedBy a).map Prod.fst).or saved) := by
      rw [saves, List.getLast?_append, Option.map_or, Option.or_assoc]
      cases s.savedBy a <;> rfl
    rw [hlast]
    exact ih (h.next a) hone' hrest hnext

/-- **What is saved is not stale** — after any run, if no call is between a change and its mark, nor between
its copy and the end of its `Save`, and the snapshot is not dirty, then the last `Save`, if it succeeded,
saved what a snapshot would show now. -/
theorem saved_up_to_date {s₀ : MatchSystem} (hstart : Started c s₀) {as : List Action}
    (hrun : Run.Guarded OneFlusher (next c) s₀ as)
    (hmarked : ∀ pc ∈ (as.foldl (next c) s₀).threads, pc.unmarked = false)
    (hcopies : ∀ pc ∈ (as.foldl (next c) s₀).threads, pc.copy = none)
    (hclean : (as.foldl (next c) s₀).queue.snapshotDirty = false) {snapshot : MatchQueueSnapshot}
    (hsaved : (saves c s₀ as).getLast? = some (snapshot, true)) :
    snapshot = (as.foldl (next c) s₀).queue.makeSnapshot := by
  have hsound : Sound s₀ := by
    cases hstart with
    | empty => exact .start
    | restored rows nowMs => exact Sound.start.next _
  have hthreads : s₀.threads = [] := by
    cases hstart with
    | empty => rfl
    | restored rows nowMs =>
      cases rows with
      | none => rfl
      | some rows =>
        rw [MatchSystem.next]
        split <;> rfl
  have hnone : s₀.flushing = 0 := by rw [flushing, hthreads, List.countP_nil]
  cases hstore : c.hasStore with
  | false =>
    rw [saves_of_no_store hstore as hnone] at hsaved
    cases hsaved
  | true =>
    have hcopy : (s₀.writeBehind none).copy = none := by rw [writeBehind, hthreads, List.findSome?_nil]
    have hend := upToDate_of_guarded hstore hsound (hnone.trans_le (Nat.zero_le 1)) hrun
      (.of_none hcopy rfl)
    rw [hsaved, Option.map_some, Option.some_or] at hend
    refine hend.saved_eq ?_ hclean (List.findSome?_eq_none_iff.mpr hcopies) rfl
    exact List.any_eq_false.mpr fun pc hpc => Bool.eq_false_iff.mp (hmarked pc hpc)

/-- A player enters, and is saved. -/
def savedOne : List Action :=
  [.enqueue "alice" "q-1" 1000, .resume 0 {}, .resume 0 {}, .resume 0 {}, .resume 0 {},
    .flushSnapshotNow 1000, .resume 1 {}, .resume 1 {}, .resume 1 {}]

/-- Asking for the state of a player changes nothing. -/
theorem saved_up_to_date_asked :
    (⟨[.queued "alice" 1000], []⟩ : MatchQueueSnapshot) =
      ((savedOne ++ [Action.getStatus "alice" 1500, .resume 2 {}]).foldl (next {}) {}).queue.makeSnapshot :=
  saved_up_to_date .empty (by decide +kernel) (by decide +kernel) (by decide +kernel) (by decide +kernel)
    (by decide +kernel)

/-- The player leaves, which is noted.  Once the next copy is taken, the snapshot is not dirty any more, but
what is saved has the player still. -/
theorem not_saved_up_to_date :
    let as := savedOne ++ [Action.cancel "alice" 2000, .resume 2 {}, .flushSnapshotNow 2000, .resume 3 {}]
    Run.Guarded OneFlusher (next {}) {} as ∧
      (∀ pc ∈ (as.foldl (next {}) {}).threads, pc.unmarked = false) ∧
      (as.foldl (next {}) {}).queue.snapshotDirty = false ∧
      ∃ snapshot, (saves {} {} as).getLast? = some (snapshot, true) ∧
        snapshot ≠ (as.foldl (next {}) {}).queue.makeSnapshot := by
  refine ⟨by decide +kernel, by decide +kernel, by decide +kernel, ⟨[.queued "alice" 1000], []⟩, ?_, ?_⟩
  · decide +kernel
  · decide +kernel

end MatchSystem

end RealtimeGame.Match
