import RealtimeGame.Match.Agreement
import RealtimeGame.Match.SameRoom
import RealtimeGame.Match.UpToDate

/-!
# Match/Pairings — the results that threads and snapshots hold

Between `Allocate` and the commit a result is in a thread, and between a flush and the save it is in a copy of the
queue.  What a thread holds after an action it held before, or `Allocate` answered it, or it was copied from the
queue (`pairings_next`, `copy_next`); and what is saved a thread holds.
-/

namespace RealtimeGame.Match

variable {c : MatchConfig}

/-! ## Results on their way

A room that was answered is known to one thread, until the commit. -/

/-- A match with its room and its players. -/
structure Pairing where
  matchId : String
  roomId : String
  playerIds : List String
  deriving DecidableEq

/-- The result that is saved in an entry of a snapshot. -/
def MatchQueueEntry.pairing? : MatchQueueEntry → Option Pairing
  | .queued .. => none
  | .matched matchId roomId playerIds _ => some ⟨matchId, roomId, playerIds⟩

/-- The result of a group with its room; the empty room id stands for none. -/
def PendingGroup.pairing (group : PendingGroup) (roomId : String) : List Pairing :=
  if roomId = "" then [] else [⟨group.matchId, roomId, group.playerIds⟩]

theorem PendingGroup.mem_pairing {group : PendingGroup} {roomId : String} {y : Pairing} :
    y ∈ group.pairing roomId ↔ roomId ≠ "" ∧ y = ⟨group.matchId, roomId, group.playerIds⟩ := by
  by_cases h : roomId = "" <;> simp [pairing, h]

/-- The results of a snapshot. -/
def MatchQueueSnapshot.pairings (snapshot : MatchQueueSnapshot) : List Pairing :=
  (snapshot.queued ++ snapshot.matched).filterMap MatchQueueEntry.pairing?

namespace Pc

/-- The results that a thread holds: one to be committed, or those of a snapshot. -/
def pairings : Pc → List Pairing
  | commit _ group roomId _ | workerCommit group roomId _ => group.pairing roomId
  | save _ snapshot => snapshot.pairings
  | _ => []

/-- The group that a thread allocates a room for next. -/
def allocates : Pc → Option PendingGroup
  | allocate _ (group :: _) | workerAllocate group _ => some group
  | _ => none

theorem pairings_finish (nowMs : Int) (changed : Bool) : (finish nowMs changed).pairings = [] := by
  cases changed <;> rfl

/-- The room that `Allocate` answers. -/
theorem mem_pairing_answer {answer : Answer} {group : PendingGroup} {y : Pairing}
    (h : y ∈ group.pairing (if c.hasAllocator then answer.roomId else "")) :
    c.hasAllocator = true ∧ answer.roomId ≠ "" ∧ y = ⟨group.matchId, answer.roomId, group.playerIds⟩ := by
  rw [PendingGroup.mem_pairing] at h
  split_ifs at h with hallocator
  · exact ⟨hallocator, h⟩
  · exact absurd rfl h.1

/-- **What a thread holds after a section** it held before, or got from `Allocate`, or copied from the queue. -/
theorem pairings_resume {pc : Pc} {q : MatchQueue} {workerEnded : Bool} {answer : Answer} {y : Pairing}
    (h : y ∈ (pc.resume c workerEnded answer q).1.pairings) :
    y ∈ pc.pairings ∨ (∃ group, pc.allocates = some group ∧ c.hasAllocator = true ∧ answer.roomId ≠ "" ∧
        y = ⟨group.matchId, answer.roomId, group.playerIds⟩) ∨ y ∈ q.makeSnapshot.pairings := by
  cases pc with
  | allocate nowMs groups =>
    cases groups with
    | nil => cases h
    | cons group groups => exact .inr (.inl ⟨group, rfl, mem_pairing_answer h⟩)
  | workerAllocate group queuedMs => exact .inr (.inl ⟨group, rfl, mem_pairing_answer h⟩)
  | flush nowMs =>
    simp only [resume, MatchQueue.flushLocked] at h
    cases hdirty : q.snapshotDirty with
    | false =>
      rw [hdirty] at h
      cases h
    | true =>
      rw [hdirty] at h
      exact .inr (.inr h)
  | retry nowMs changed | round nowMs changed | take nowMs changed =>
    simp only [resume] at h
    split at h
    · first | cases h | (rw [pairings_finish] at h; cases h)
    · first | cases h | (rw [pairings_finish] at h; cases h)
  | choose nowMs groups | join =>
    simp only [resume] at h
    split at h <;> cases h
  | worker =>
    simp only [resume] at h
    split at h
    · cases h
    · dsimp only at h
      split at h <;> cases h
  | _ => cases h

/-- A copy is made of the queue. -/
theorem copy_resume {pc : Pc} {q : MatchQueue} {workerEnded : Bool} {answer : Answer} {snapshot : MatchQueueSnapshot}
    (h : (pc.resume c workerEnded answer q).1.copy = some snapshot) : snapshot = q.makeSnapshot := by
  cases hflushes : pc.flushes with
  | false => cases (copy_of_not_flushes (flushes_resume hflushes)).symm.trans h
  | true =>
    cases pc with
    | flush nowMs =>
      rw [resume, MatchQueue.flushLocked] at h
      cases hdirty : q.snapshotDirty with
      | false =>
        rw [hdirty] at h
        cases h
      | true =>
        rw [hdirty] at h
        exact (Option.some.inj h).symm
    | save | saved => cases h
    | _ => cases hflushes

end Pc

namespace MatchSystem

variable {s : MatchSystem} {y : Pairing}

/-- The results that the threads hold. -/
def pairings (s : MatchSystem) : List Pairing := s.threads.flatMap Pc.pairings

theorem allocating_of_allocates {thread : Nat} {answer : Answer} {pc : Pc} {group : PendingGroup}
    (hpc : s.threads[thread]? = some pc) (h : pc.allocates = some group) (hallocator : c.hasAllocator = true) :
    s.allocating c (.resume thread answer) = some group := by
  unfold Pc.allocates at h
  split at h
  case h_1 => cases h; simp [allocating, resumed, hpc, hallocator]
  case h_2 => cases h; simp [allocating, resumed, hpc, hallocator]
  case h_3 => cases h

/-- **A thread after an action** was there before, or has just started and holds nothing, or is the one resumed. -/
theorem mem_threads_next {a : Action} {pc : Pc} (hpc : pc ∈ (s.next c a).threads) :
    pc ∈ s.threads ∨ (pc.pairings = [] ∧ pc.copy = none) ∨ ∃ thread answer pc', a = .resume thread answer ∧
      s.threads[thread]? = some pc' ∧ pc = (pc'.resume c s.workerEnded answer s.queue).1 := by
  have hspawn : ∀ {q pc'}, pc'.pairings = [] → pc'.copy = none → pc ∈ (s.spawn q pc').threads →
      pc ∈ s.threads ∨ (pc.pairings = [] ∧ pc.copy = none) ∨ ∃ thread answer pc', a = .resume thread answer ∧
        s.threads[thread]? = some pc' ∧ pc = (pc'.resume c s.workerEnded answer s.queue).1 := by
    intro q pc' hpairings hcopy hmem
    rcases List.mem_append.mp hmem with hmem | hmem
    · exact .inl hmem
    · obtain rfl := List.mem_singleton.mp hmem
      exact .inr (.inl ⟨hpairings, hcopy⟩)
  cases a with
  | enqueue | startAllocationWorker | stopAllocationWorker | tick | flushSnapshotNow =>
    simp only [next] at hpc
    split_ifs at hpc
    all_goals first | exact .inl hpc | exact hspawn rfl rfl hpc
  | cancel => exact hspawn (Pc.pairings_finish ..) (Pc.copy_finish ..) hpc
  | getStatus => exact hspawn rfl rfl hpc
  | restore rows nowMs =>
    cases rows with
    | none => exact .inl hpc
    | some rows =>
      simp only [next] at hpc
      split_ifs at hpc <;> exact .inl hpc
  | beginShutdown | setSnapshotMergeIntervalMs => exact .inl hpc
  | resume thread answer =>
    simp only [next] at hpc
    split at hpc
    case h_1 => exact .inl hpc
    case h_2 pc' hpc' =>
      rcases List.mem_or_eq_of_mem_set hpc with hold | rfl
      · exact .inl hold
      · exact .inr (.inr ⟨thread, answer, pc', rfl, hpc', rfl⟩)

/-- **What the threads hold after an action** they held before, or the action got it from `Allocate` or copied it
from the queue. -/
theorem pairings_next {a : Action} (h : y ∈ (s.next c a).pairings) :
    y ∈ s.pairings ∨ (∃ thread answer group, a = .resume thread answer ∧ s.allocating c a = some group ∧
      answer.roomId ≠ "" ∧ y = ⟨group.matchId, answer.roomId, group.playerIds⟩) ∨
      y ∈ s.queue.makeSnapshot.pairings := by
  obtain ⟨pc, hpc, hy⟩ := List.mem_flatMap.mp h
  rcases mem_threads_next hpc with hold | ⟨hnone, -⟩ | ⟨thread, answer, pc', rfl, hpc', rfl⟩
  · exact .inl (List.mem_flatMap.mpr ⟨pc, hold, hy⟩)
  · rw [hnone] at hy
    cases hy
  · rcases Pc.pairings_resume hy with hold | ⟨group, hallocates, hallocator, hne, rfl⟩ | hnew
    · exact .inl (List.mem_flatMap.mpr ⟨pc', List.mem_of_getElem? hpc', hold⟩)
    · exact .inr (.inl ⟨thread, answer, group, rfl, allocating_of_allocates hpc' hallocates hallocator, hne, rfl⟩)
    · exact .inr (.inr hnew)

/-- The results of a snapshot are results of the queue. -/
theorem exists_of_pairings_makeSnapshot {q : MatchQueue} (h : y ∈ q.makeSnapshot.pairings) :
    ∃ p e, q.entries.lookup p = some e ∧ e.state = .matched ∧ y = ⟨e.matchId, e.roomId, e.playerIds⟩ := by
  obtain ⟨entry, hentry, hcast⟩ := List.mem_filterMap.mp h
  obtain ⟨es, heq, -, hes, -⟩ := MatchQueue.matched_makeSnapshot q
  have hmatched : entry ∈ q.makeSnapshot.matched := by
    refine (List.mem_append.mp hentry).resolve_left fun hqueued => ?_
    obtain ⟨p, e, rfl, -⟩ := MatchQueue.mem_queued_makeSnapshot.mp hqueued
    cases hcast
  rw [heq] at hmatched
  obtain ⟨e, he, rfl⟩ := List.mem_map.mp hmatched
  obtain ⟨p, hp, hs⟩ := hes e he
  exact ⟨p, e, hp, hs, (Option.some.inj hcast).symm⟩

/-- What is saved, a thread holds. -/
theorem pairings_of_savedRows {a : Action} {rows : List MatchQueueSnapshotRow} (hrows : s.savedRows a = some rows)
    {row : MatchQueueSnapshotRow} (hrow : row ∈ rows) (h : row.entry.pairing? = some y) : y ∈ s.pairings := by
  unfold savedRows at hrows
  split at hrows
  case h_2 => cases hrows
  case h_1 thread answer =>
    split at hrows
    case h_2 => cases hrows
    case h_1 nowMs snapshot hpc =>
      split_ifs at hrows
      obtain rfl := Option.some.inj hrows
      obtain ⟨entry, hentry, rfl⟩ := List.mem_map.mp hrow
      exact List.mem_flatMap.mpr ⟨_, List.mem_of_getElem? hpc, List.mem_filterMap.mpr ⟨entry, hentry, h⟩⟩

/-! ## Copies of the queue

A flush copies, and a save writes the copy later. -/

/-- **A copy that a thread has after an action** it had before, or it is made of the queue. -/
theorem copy_next {a : Action} {pc : Pc} (hpc : pc ∈ (s.next c a).threads) {snapshot : MatchQueueSnapshot}
    (hcopy : pc.copy = some snapshot) :
    (∃ pc' ∈ s.threads, pc'.copy = some snapshot) ∨ snapshot = s.queue.makeSnapshot := by
  rcases mem_threads_next hpc with hold | ⟨-, hnone⟩ | ⟨thread, answer, pc', -, -, rfl⟩
  · exact .inl ⟨pc, hold, hcopy⟩
  · cases hnone.symm.trans hcopy
  · exact .inr (Pc.copy_resume hcopy)

/-- What is saved is the copy of a thread. -/
theorem copy_of_savedRows {a : Action} {rows : List MatchQueueSnapshotRow} (hrows : s.savedRows a = some rows) :
    ∃ pc ∈ s.threads, ∃ snapshot, pc.copy = some snapshot ∧ snapshot.holds rows := by
  unfold savedRows at hrows
  split at hrows
  case h_2 => cases hrows
  case h_1 thread answer =>
    split at hrows
    case h_2 => cases hrows
    case h_1 nowMs snapshot hpc =>
      split_ifs at hrows
      obtain rfl := Option.some.inj hrows
      refine ⟨_, List.mem_of_getElem? hpc, snapshot, rfl, fun row hrow _ => ?_⟩
      obtain ⟨entry, hentry, rfl⟩ := List.mem_map.mp hrow
      exact hentry

theorem threads_restore (c : MatchConfig) (rows : Option (List MatchQueueSnapshotRow)) (nowMs : Int) :
    (next c {} (.restore rows nowMs)).threads = [] := by
  cases rows with
  | none => rfl
  | some rows =>
    rw [next]
    split <;> rfl

end MatchSystem

end RealtimeGame.Match
