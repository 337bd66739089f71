import RealtimeGame.Match.Partition

/-!
# Match/Entries — what one action does to the entry of one player

Every law about a player over time is read off one inversion lemma (`MatchSystem.entry_next`): an action
leaves the entry alone, settles what is due, or is one of the few that are about this player.
-/

open Library

namespace RealtimeGame.Match

/-! ## What an action is about

Most actions are about no player; the others say which one, and at what time. -/

namespace Action

/-- What the id generator would return in this step. -/
def ids : Action → List String
  | .resume _ answer => answer.ids
  | _ => []

end Action

namespace MatchSystem

variable (c : MatchConfig) (s : MatchSystem)

/-- The thread that an action resumes. -/
def resumed : Action → Option Pc
  | .resume thread _ => s.threads[thread]?
  | _ => none

/-- The groups that an action takes. -/
def taken (a : Action) : List PendingGroup :=
  match s.resumed a with
  | some (.take ..) => (s.queue.takePairGroupsLocked a.ids).1
  | _ => []

/-- The time at which an action settles what is due. -/
def sweeps : Action → Option Int
  | .cancel _ nowMs | .getStatus _ nowMs => some nowMs
  | .restore (some _) nowMs => if c.hasStore then some nowMs else none
  | .resume thread _ =>
    match s.threads[thread]? with
    | some (.enqueue _ _ nowMs) => some nowMs
    | _ => none
  | _ => none

/-- The player whom an action enters into the queue. -/
def enters (a : Action) : Option String :=
  match s.resumed a with
  | some (.enqueue playerId _ _) => some playerId
  | _ => none

/-- The group that an action commits, with its room and its time. -/
def commits (a : Action) : Option (PendingGroup × String × Int) :=
  match s.resumed a with
  | some (.commit nowMs group roomId _) => some (group, roomId, nowMs)
  | some (.workerCommit group roomId queuedMs) => some (group, roomId, queuedMs)
  | _ => none

end MatchSystem

variable {c : MatchConfig}

/-! ## Groups in flight come from somewhere

A group in flight was there before, or is taken by this action. -/

/-- What a section of a thread leaves in flight was there before, or has just been taken. -/
theorem Pc.mem_resume {pc : Pc} {q : MatchQueue} {workerEnded : Bool} {answer : Answer}
    {g : PendingGroup} (h : g ∈ (pc.resume c workerEnded answer q).1.groups ∨
      g ∈ (pc.resume c workerEnded answer q).2.handedOver) :
    g ∈ pc.groups ∨ g ∈ q.handedOver ∨
      ∃ nowMs changed, pc = .take nowMs changed ∧ g ∈ (q.takePairGroupsLocked answer.ids).1 := by
  have hfinish : ∀ nowMs changed, g ∉ (Pc.finish nowMs changed).groups := by
    rintro nowMs (- | -) hmem <;> cases hmem
  have hmark : ∀ nowMs, (q.markSnapshotDirty c nowMs).handedOver = q.handedOver := by
    intro nowMs
    unfold MatchQueue.markSnapshotDirty
    split_ifs <;> rfl
  have hcommit : ∀ nowMs group roomId,
      (q.commitGroup nowMs group roomId).handedOver = q.handedOver := by
    intro nowMs group roomId
    rw [MatchQueue.commitGroup_frame]
    rfl
  rcases pc with ⟨player, request, nowMs⟩ | ⟨nowMs, changed⟩ | ⟨nowMs, changed⟩ |
    ⟨nowMs, changed⟩ | ⟨nowMs, groups⟩ | ⟨nowMs, groups⟩ | ⟨nowMs, groups⟩ |
    ⟨nowMs, group, roomId, groups⟩ | nowMs | - | ⟨group, queuedMs⟩ | ⟨group, roomId, queuedMs⟩ | - |
    - | nowMs | ⟨nowMs, snapshot⟩ | nowMs | -
  case enqueue =>
    simp only [Pc.resume, (Placed.enqueueLocked_frame player request).handedOver] at h
    exact .inr (.inl (h.resolve_left fun h => by cases h))
  case retry =>
    refine .inr (.inl (h.resolve_left fun h => ?_))
    simp only [Pc.resume] at h
    split at h
    · cases h
    · exact hfinish _ _ h
  case round =>
    simp only [Pc.resume] at h
    split at h
    · exact .inr (.inl (h.resolve_left (hfinish _ _)))
    · exact .inr (.inl (h.resolve_left fun h => by cases h))
  case take =>
    have hframe : q.Frame (q.takePairGroupsLocked answer.ids).2 :=
      MatchQueue.takePairGroups_frame _ _ _
    simp only [Pc.resume, hframe.handedOver] at h
    rcases h with h | h
    · split at h
      · exact absurd h (hfinish _ _)
      · exact .inr (.inr ⟨nowMs, changed, rfl, h⟩)
    · exact .inr (.inl h)
  case choose =>
    simp only [Pc.resume] at h
    split at h <;> exact h.imp_right .inl
  case handOff =>
    simp only [Pc.resume, MatchQueue.handOff, MatchQueue.handedOver, List.map_append, List.map_map,
      Function.comp_def, List.map_id', List.mem_append] at h
    rcases h with h | h | h
    · cases h
    · exact .inr (.inl h)
    · exact .inl h
  case allocate =>
    rcases groups with - | ⟨group, groups⟩
    · exact .inr (.inl (h.resolve_left fun h => by cases h))
    · exact h.imp_right .inl
  case commit =>
    simp only [Pc.resume, hcommit] at h
    exact h.imp (List.mem_cons_of_mem _) .inl
  case mark =>
    simp only [Pc.resume, hmark] at h
    exact h.imp_right .inl
  case worker =>
    simp only [Pc.resume, MatchQueue.popAllocation] at h
    rcases hqueue : q.allocationQueue with - | ⟨⟨group, queuedMs⟩, rest⟩
    · simp only [hqueue] at h
      rcases h with h | h
      · split at h <;> cases h
      · exact .inr (.inl h)
    · simp only [hqueue, Pc.groups, MatchQueue.handedOver, List.mem_singleton] at h
      refine .inr (.inl ?_)
      rw [MatchQueue.handedOver, hqueue, List.map_cons, List.mem_cons]
      exact h
  case workerAllocate => exact h.imp_right .inl
  case workerCommit =>
    simp only [Pc.resume, hcommit] at h
    exact .inr (.inl (h.resolve_left fun h => by cases h))
  case workerMark =>
    simp only [Pc.resume, hmark] at h
    exact h.imp_right .inl
  case join =>
    simp only [Pc.resume] at h
    split at h <;> exact h.imp_right .inl
  case flush =>
    simp only [Pc.resume, MatchQueue.flushLocked] at h
    by_cases hdirty : q.snapshotDirty = true
    · rw [if_pos hdirty] at h
      exact h.imp_right .inl
    · rw [if_neg hdirty] at h
      exact h.imp_right .inl
  case save => exact h.imp_right .inl
  case saved => exact h.imp_right .inl
  case done => exact h.imp_right .inl

namespace MatchSystem

variable {s : MatchSystem}

theorem mem_inFlight {g : PendingGroup} :
    g ∈ s.inFlight ↔ (∃ pc ∈ s.threads, g ∈ pc.groups) ∨ g ∈ s.queue.handedOver := by
  rw [inFlight, List.mem_append, List.mem_flatMap]
  rfl

/-- **What is in flight after an action** was in flight before, or is taken by it. -/
theorem mem_inFlight_next {a : Action} {g : PendingGroup} (h : g ∈ (s.next c a).inFlight) :
    g ∈ s.inFlight ∨ g ∈ s.taken a := by
  rw [mem_inFlight] at h
  have hspawn : ∀ (q : MatchQueue) (pc : Pc), q.handedOver = s.queue.handedOver → pc.groups = [] →
      (∃ pc' ∈ (s.spawn q pc).threads, g ∈ pc'.groups) ∨ g ∈ (s.spawn q pc).queue.handedOver →
      g ∈ s.inFlight ∨ g ∈ s.taken a := by
    rintro q pc hhanded hpc (⟨pc', hpc', hg⟩ | hg)
    · rcases List.mem_append.mp hpc' with hold | hnew
      · exact .inl (mem_inFlight.mpr (.inl ⟨pc', hold, hg⟩))
      · rw [List.mem_singleton.mp hnew, hpc] at hg
        cases hg
    · exact .inl (mem_inFlight.mpr (.inr (hhanded ▸ hg)))
  have hsame : (∃ pc ∈ s.threads, g ∈ pc.groups) ∨ g ∈ s.queue.handedOver →
      g ∈ s.inFlight ∨ g ∈ s.taken a := fun h => .inl (mem_inFlight.mpr h)
  rcases a with ⟨player, request, nowMs⟩ | ⟨player, nowMs⟩ | ⟨player, nowMs⟩ | ⟨- | rows, nowMs⟩ |
    - | - | - | nowMs | nowMs | ms | ⟨thread, answer⟩
  · simp only [next] at h
    split at h
    · exact hsame h
    · split at h
      · exact hsame h
      · exact hspawn _ _ rfl rfl h
  · refine hspawn _ _ (Placed.cancelLocked_frame player).handedOver ?_ h
    rcases (s.queue.cancelLocked c nowMs player).2.1 with - | - <;> rfl
  · exact hspawn _ _ Placed.sweep_frame.handedOver rfl h
  · exact hsame h
  · simp only [next] at h
    split at h
    · rw [(Placed.restoreLocked_frame rows).handedOver] at h
      exact hsame h
    · exact hsame h
  · exact hsame h
  · simp only [next] at h
    split at h
    · refine hspawn _ _ ?_ rfl h
      unfold MatchQueue.startWorkerLocked
      split <;> rfl
    · exact hsame h
  · simp only [next] at h
    split at h
    · refine hspawn _ _ ?_ rfl h
      unfold MatchQueue.stopWorkerLocked
      split <;> rfl
    · exact hsame h
  · simp only [next] at h
    split at h
    · exact hspawn _ _ rfl rfl h
    · exact hsame h
  · simp only [next] at h
    split at h
    · exact hspawn _ _ rfl rfl h
    · exact hsame h
  · exact hsame h
  · simp only [next] at h
    rcases hpc : s.threads[thread]? with - | pc
    · rw [hpc] at h
      exact hsame h
    · rw [hpc] at h
      have hresume : g ∈ (pc.resume c s.workerEnded answer s.queue).1.groups ∨
          g ∈ (pc.resume c s.workerEnded answer s.queue).2.handedOver →
          g ∈ s.inFlight ∨ g ∈ s.taken (.resume thread answer) := by
        intro h
        rcases Pc.mem_resume h with hold | hold | ⟨nowMs, changed, rfl, hnew⟩
        · exact .inl (mem_inFlight.mpr (.inl ⟨pc, List.mem_of_getElem? hpc, hold⟩))
        · exact .inl (mem_inFlight.mpr (.inr hold))
        · right
          rw [taken, resumed, hpc]
          exact hnew
      rcases h with ⟨pc', hpc', hg⟩ | hg
      · rcases List.mem_or_eq_of_mem_set hpc' with hold | rfl
        · exact hsame (.inl ⟨pc', hold, hg⟩)
        · exact hresume (.inl hg)
      · exact hresume (.inr hg)

end MatchSystem

/-! ## What each section does to one entry

One lemma for each section under the lock, for the entry of one player. -/

variable {q : MatchQueue} {held : String → Nat} {nowMs : Int} {p : String}

/-- What a sweep leaves of an entry. -/
def Entry.swept (c : MatchConfig) (nowMs : Int) (e : Entry) : Option Entry :=
  (some (if e.state = .queued ∧ e.allocating = false ∧ e.isOverdue c nowMs = true then e.expire nowMs
    else e)).filter fun e => !e.isStale c nowMs

namespace Entry

variable {e e' : Entry}

/-- A group in flight is not disturbed. -/
theorem swept_of_allocating (hs : e.state = .queued) (ha : e.allocating = true) :
    e.swept c nowMs = some e := by
  simp [swept, isStale, hs, ha]

theorem swept_of_queued (hs : e.state = .queued) (hin : ¬c.matchTimeoutMs ≤ nowMs - e.queuedAtMs) :
    e.swept c nowMs = some e := by
  simp [swept, isStale, isOverdue, hs, hin]

theorem swept_of_matched (hs : e.state = .matched) :
    e.swept c nowMs = if c.resultTtlMs ≤ nowMs - e.stampMs then none else some e := by
  by_cases hstale : c.resultTtlMs ≤ nowMs - e.stampMs <;> simp [swept, isStale, hs, hstale]

/-- Whoever is left was there before, or has just timed out. -/
theorem of_swept (h : e.swept c nowMs = some e') :
    e' = e ∨ e' = e.expire nowMs ∧ e.state = .queued ∧ e.allocating = false := by
  rw [swept, Option.filter_eq_some_iff, Option.some.injEq] at h
  split at h
  case isTrue hdue => exact .inr ⟨h.1.symm, hdue.1, hdue.2.1⟩
  case isFalse => exact .inl h.1.symm

end Entry

namespace MatchQueue

theorem lookup_foldl_restorePlayer (entry : Entry) (players : List String)
    (entries : Table String Entry) (k : String) :
    (players.foldl (restorePlayer entry) entries).lookup k =
      (entries.lookup k).or (if k ∈ players then some entry else none) := by
  induction players generalizing entries with
  | nil => simp
  | cons p players ih =>
    have hone : (restorePlayer entry entries p).lookup k =
        (entries.lookup k).or (if k = p then some entry else none) := by
      unfold restorePlayer
      split
      case isTrue hknown =>
        by_cases hk : k = p
        · subst hk
          obtain ⟨e, he⟩ := Option.isSome_iff_exists.mp hknown
          simp [he]
        · simp [hk]
      case isFalse hnew =>
        rw [Table.lookup_insert']
        by_cases hk : k = p
        · subst hk
          rw [Option.not_isSome_iff_eq_none] at hnew
          simp [hnew]
        · simp [hk]
    rw [List.foldl_cons, ih, hone, Option.or_assoc]
    congr 1
    by_cases hk : k = p <;> simp [hk]

/-- A restart leaves whoever is known alone. -/
theorem lookup_restoreRows {e : Entry} (he : q.entries.lookup p = some e)
    (rows : List MatchQueueSnapshotRow) (report : MatchRestoreReport) :
    (q.restoreRows c nowMs rows report).2.entries.lookup p = some e := by
  refine List.foldlRecOn (motive := fun acc : _ × MatchQueue => acc.2.entries.lookup p = some e) _ _
    (List.foldlRecOn (motive := fun acc : _ × MatchQueue => acc.2.entries.lookup p = some e) _ _ he
      fun acc hp row _ => ?_) fun acc hp row _ => ?_
  · unfold restoreQueued
    split
    case isTrue => exact hp
    case isFalse hnew =>
      split
      · exact hp
      · have hne : p ≠ row.1 := by
          rintro rfl
          rw [hp] at hnew
          exact hnew rfl
        exact (Table.lookup_insert' _ _ _ _).trans ((if_neg hne).trans hp)
  · unfold restoreMatched
    split
    · exact hp
    · split
      · exact hp
      · dsimp only
        rw [lookup_foldl_restorePlayer, hp, Option.some_or]

end MatchQueue

namespace Placed

theorem lookup_sweep (h : Placed q held) (c : MatchConfig) (nowMs : Int) (p : String) :
    (q.sweep c nowMs).2.entries.lookup p = (q.entries.lookup p).bind (Entry.swept c nowMs) := by
  have hentry : (q.sweep c nowMs).2.entries.lookup p = ((q.entries.lookup p).map fun e =>
      if p ∈ q.timedOut c nowMs then e.expire nowMs else e).filter
        fun e => !e.isStale c nowMs := by
    simp only [MatchQueue.sweep, foldl_expire, Table.lookup_filter]
    rw [Table.lookup_foldl_adjust (f := Entry.expire nowMs) fun _ => rfl]
  rw [hentry]
  rcases he : q.entries.lookup p with - | e
  · rfl
  have hout : p ∈ q.timedOut c nowMs ↔
      e.state = .queued ∧ e.allocating = false ∧ e.isOverdue c nowMs = true := by
    rw [h.mem_timedOut]
    constructor
    · rintro ⟨hmem, hdue⟩
      obtain ⟨e', he', hs, ha, -⟩ := h.of_mem hmem
      obtain rfl := Option.some.inj (he.symm.trans he')
      exact ⟨hs, ha, hdue e he⟩
    · rintro ⟨hs, ha, hdue⟩
      refine ⟨?_, fun e' he' => Option.some.inj (he.symm.trans he') ▸ hdue⟩
      rcases h p with ⟨he', -⟩ | ⟨_, -, -, -, hn, -⟩ | ⟨e', he', -, ha', -⟩ | ⟨e', he', hs', -⟩
      · cases he.symm.trans he'
      · exact List.count_pos_iff.mp (by omega)
      · obtain rfl := Option.some.inj (he.symm.trans he')
        cases ha.symm.trans ha'
      · obtain rfl := Option.some.inj (he.symm.trans he')
        exact absurd hs hs'
  simp only [Option.map_some, Option.bind_some, Entry.swept, hout]

/-- The player who enters, after the others were settled. -/
theorem lookup_enqueueLocked (h : Placed q held) (c : MatchConfig) (nowMs : Int) (player request : String)
    (p : String) :
    (q.enqueueLocked c nowMs player request).2.2.entries.lookup p =
        (q.entries.lookup p).bind (Entry.swept c nowMs) ∨
    p = player ∧
      (∀ e, (q.entries.lookup p).bind (Entry.swept c nowMs) = some e →
        e.state ≠ .queued ∧ e.state ≠ .matched) ∧
      (q.enqueueLocked c nowMs player request).2.2.entries.lookup p =
        some ((((q.entries.lookup p).bind (Entry.swept c nowMs)).getD {}).enqueue request nowMs) := by
  have hplayer := h.lookup_sweep c nowMs player
  have hsweep := h.lookup_sweep c nowMs p
  unfold MatchQueue.enqueueLocked
  dsimp only
  split
  case h_1 e he =>
    split
    case isTrue => exact .inl hsweep
    case isFalse hnot =>
      split
      · exact .inl hsweep
      · rw [Table.lookup_insert']
        by_cases hp : p = player
        · subst hp
          rw [hsweep] at he
          rw [if_pos rfl, he]
          refine .inr ⟨rfl, fun e' he' => ?_, rfl⟩
          obtain rfl := Option.some.inj he'
          exact not_or.mp hnot
        · rw [if_neg hp]
          exact .inl hsweep
  case h_2 he =>
    split
    · exact .inl hsweep
    · rw [Table.lookup_insert']
      by_cases hp : p = player
      · subst hp
        rw [hsweep] at he
        rw [if_pos rfl, he]
        exact .inr ⟨rfl, fun e' he' => (by cases he'), rfl⟩
      · rw [if_neg hp]
        exact .inl hsweep

/-- The player who leaves: noted during an allocation, else removed. -/
theorem lookup_cancelLocked (h : Placed q held) (c : MatchConfig) (nowMs : Int) (player : String) (p : String) :
    (q.cancelLocked c nowMs player).2.2.entries.lookup p =
        (q.entries.lookup p).bind (Entry.swept c nowMs) ∨
    p = player ∧ ∃ e, (q.entries.lookup p).bind (Entry.swept c nowMs) = some e ∧
      e.state = .queued ∧
      (q.cancelLocked c nowMs player).2.2.entries.lookup p =
        if e.allocating then some e.requestCancel else none := by
  have hplayer := h.lookup_sweep c nowMs player
  have hsweep := h.lookup_sweep c nowMs p
  unfold MatchQueue.cancelLocked
  dsimp only
  split
  case h_1 => exact .inl hsweep
  case h_2 e he =>
    by_cases hp : p = player
    case neg =>
      left
      split
      · rw [Table.lookup_adjust_ne hp, hsweep]
      · split
        · exact hsweep
        · rw [Table.lookup_erase', if_neg hp, hsweep]
    subst hp
    rw [hsweep] at he
    split
    case isTrue ha =>
      refine .inr ⟨rfl, e, he, ?_, ?_⟩
      · exact (((h.sweep p).of_allocating (hsweep.trans he)) ha).1
      · rw [Table.lookup_adjust_self, hsweep, he, if_pos ha]
        rfl
    case isFalse ha =>
      split
      case isTrue => exact .inl hsweep
      case isFalse hs =>
        refine .inr ⟨rfl, e, he, not_not.mp hs, ?_⟩
        rw [AList.lookup_erase, if_neg ha]

/-- What `Enqueue` answers, and what it leaves of the player. -/
theorem enqueueLocked_cases (h : Placed q held) (c : MatchConfig) (nowMs : Int) (p request : String) :
    ((q.enqueueLocked c nowMs p request).1 = .queued ∧ ∃ e : Entry,
      (q.enqueueLocked c nowMs p request).2.2.entries.lookup p = some (e.enqueue request nowMs)) ∨
    ((q.enqueueLocked c nowMs p request).1 = .alreadyQueued ∧ ∃ e,
      (q.entries.lookup p).bind (Entry.swept c nowMs) = some e ∧
      (e.state = .queued ∨ e.state = .matched) ∧
      (q.enqueueLocked c nowMs p request).2.2.entries.lookup p = some e) ∨
    (q.enqueueLocked c nowMs p request).1 = .queueFull ∧
      (q.enqueueLocked c nowMs p request).2.2.entries.lookup p =
        (q.entries.lookup p).bind (Entry.swept c nowMs) := by
  rw [← h.lookup_sweep]
  unfold MatchQueue.enqueueLocked
  dsimp only
  split
  case h_1 e he =>
    split
    case isTrue hs => exact .inr (.inl ⟨rfl, e, he, hs, he⟩)
    case isFalse =>
      split
      · exact .inr (.inr ⟨rfl, rfl⟩)
      · exact .inl ⟨rfl, e, AList.lookup_insert _⟩
  case h_2 =>
    split
    · exact .inr (.inr ⟨rfl, rfl⟩)
    · exact .inl ⟨rfl, {}, AList.lookup_insert _⟩

/-- What `Cancel` answers, and what it leaves of the player. -/
theorem cancelLocked_cases (h : Placed q held) (c : MatchConfig) (nowMs : Int) (p : String) :
    ((q.cancelLocked c nowMs p).1 = true ∧ ∃ e,
      (q.entries.lookup p).bind (Entry.swept c nowMs) = some e ∧ e.state = .queued ∧
      (q.cancelLocked c nowMs p).2.2.entries.lookup p =
        if e.allocating then some e.requestCancel else none) ∨
    (q.cancelLocked c nowMs p).1 = false ∧
      ∀ e, (q.entries.lookup p).bind (Entry.swept c nowMs) = some e → e.state ≠ .queued := by
  have hsweep := h.lookup_sweep c nowMs p
  unfold MatchQueue.cancelLocked
  dsimp only
  rw [← hsweep]
  split
  case h_1 hnone => exact .inr ⟨rfl, fun e he => (by cases hnone.symm.trans he)⟩
  case h_2 e he =>
    split
    case isTrue ha =>
      refine .inl ⟨rfl, e, he, ((h.sweep p).of_allocating he ha).1, ?_⟩
      rw [Table.lookup_adjust_self, he, if_pos ha]
      rfl
    case isFalse ha =>
      split
      case isTrue hs =>
        exact .inr ⟨rfl, fun e' he' => Option.some.inj (he.symm.trans he') ▸ hs⟩
      case isFalse hs =>
        exact .inl ⟨rfl, e, he, not_not.mp hs, by rw [AList.lookup_erase, if_neg ha]⟩

/-- Whoever is taken was waiting, and is taken once. -/
theorem lookup_takePairGroups (h : Placed q held) (fuel : Nat) (ids : List String) (p : String) :
    (∀ g ∈ (MatchQueue.takePairGroups fuel ids q).1, p ∈ g.playerIds → ∃ e,
      q.entries.lookup p = some e ∧ e.state = .queued ∧ e.allocating = false ∧
      (MatchQueue.takePairGroups fuel ids q).2.entries.lookup p =
        some (e.allocate g.matchId g.playerIds)) ∧
    ((∀ g ∈ (MatchQueue.takePairGroups fuel ids q).1, p ∉ g.playerIds) →
      (MatchQueue.takePairGroups fuel ids q).2.entries.lookup p = q.entries.lookup p) := by
  induction fuel generalizing q held ids with
  | zero => exact ⟨fun _ hg => (by cases hg), fun _ => rfl⟩
  | succ fuel ih =>
    rcases MatchQueue.takePairGroups_cases h fuel ids with ⟨-, heq⟩ |
      ⟨a, b, rest, request, hqueue, -, heq⟩
    · rw [heq]
      exact ⟨fun _ hg => (by cases hg), fun _ => rfl⟩
    rw [heq]
    have hafter := h.afterTake hqueue (ids.headD "")
    have hentry := q.lookup_afterTake (ids.headD "") [a, b] rest p
    obtain ⟨htaken, hleft⟩ := ih hafter ids.tail
    by_cases hmem : p ∈ [a, b]
    · obtain ⟨e, he, hs, ha, -⟩ := h.of_mem (show p ∈ q.queue by
        rw [hqueue]
        exact List.mem_append_left rest hmem)
      rw [he, Option.map_some, if_pos hmem] at hentry
      -- The groups after the first one are taken from who is left.
      have hnone : ∀ g ∈ (MatchQueue.takePairGroups fuel ids.tail
          (q.afterTake (ids.headD "") [a, b] rest)).1, p ∉ g.playerIds := by
        intro g hg hp
        obtain ⟨e', he', -, ha', -⟩ := htaken g hg hp
        obtain rfl := Option.some.inj (hentry.symm.trans he')
        cases ha'
      refine ⟨fun g hg hp => ?_, fun hno => absurd hmem (hno _ List.mem_cons_self)⟩
      rcases List.mem_cons.mp hg with rfl | hg
      · exact ⟨e, he, hs, ha, (hleft hnone).trans hentry⟩
      · exact absurd hp (hnone g hg)
    · simp only [if_neg hmem, Option.map_id'] at hentry
      refine ⟨fun g hg hp => ?_, fun hno => ?_⟩
      · rcases List.mem_cons.mp hg with rfl | hg
        · exact absurd hp hmem
        · obtain ⟨e, he, hs, ha, hnew⟩ := htaken g hg hp
          exact ⟨e, hentry.symm.trans he, hs, ha, hnew⟩
      · exact (hleft fun g hg => hno g (List.mem_cons_of_mem _ hg)).trans hentry

/-- A restart ends with a sweep. -/
theorem lookup_restoreLocked (h : Placed q held) (c : MatchConfig) (nowMs : Int)
    (rows : List MatchQueueSnapshotRow) (p : String) :
    (q.restoreLocked c nowMs rows).2.entries.lookup p = ((q.restoreRows c nowMs rows
      { scanned := rows.length, dropped := (rows.filter (·.problem ≠ "")).length }).2.entries.lookup
        p).bind (Entry.swept c nowMs) :=
  (h.restoreRows rows _).lookup_sweep c nowMs p

end Placed

/-! ## One action

The sections together: `entry_next` is the only place where actions are told apart. -/

/-- **What one action does to the entry of one player.** -/
inductive EntryStep (c : MatchConfig) (s : MatchSystem) (a : Action) (p : String) (e : Option Entry) :
    Option Entry → Prop
  | same (hsweeps : s.sweeps c a = none) : EntryStep c s a p e e
  /-- What is due is settled. -/
  | swept (nowMs : Int) (hsweeps : s.sweeps c a = some nowMs) :
      EntryStep c s a p e (e.bind (Entry.swept c nowMs))
  | entered (requestId : String) (nowMs : Int) (henters : s.enters a = some p)
      (hsweeps : s.sweeps c a = some nowMs)
      (hfree : ∀ x, e.bind (Entry.swept c nowMs) = some x → x.state ≠ .queued ∧ x.state ≠ .matched) :
      EntryStep c s a p e (some (((e.bind (Entry.swept c nowMs)).getD {}).enqueue requestId nowMs))
  /-- `Cancel`, of a player who waits. -/
  | cancelled (nowMs : Int) (ha : a = .cancel p nowMs) (x : Entry)
      (hx : e.bind (Entry.swept c nowMs) = some x) (hs : x.state = .queued) :
      EntryStep c s a p e (if x.allocating then some x.requestCancel else none)
  | taken (hsweeps : s.sweeps c a = none) (g : PendingGroup) (hg : g ∈ s.taken a)
      (hp : p ∈ g.playerIds) (x : Entry) (he : e = some x) (hs : x.state = .queued)
      (ha : x.allocating = false) :
      EntryStep c s a p e (some (x.allocate g.matchId g.playerIds))
  | committed (hsweeps : s.sweeps c a = none) (g : PendingGroup) (roomId : String) (nowMs : Int)
      (hcommits : s.commits a = some (g, roomId, nowMs)) (hp : p ∈ g.playerIds) (x : Entry)
      (he : e = some x) (hs : x.state = .queued) (ha : x.allocating = true) :
      EntryStep c s a p e
        (if s.queue.groupViable g roomId then some (x.settle roomId g.playerIds nowMs)
          else if x.cancelRequested then none else some x.release)
  /-- A restart may bring back whoever is not known. -/
  | restored (rows : List MatchQueueSnapshotRow) (nowMs : Int) (ha : a = .restore (some rows) nowMs)
      (he : e = none) (e' : Option Entry) : EntryStep c s a p e e'

/-- In no other section an entry changes. -/
theorem Pc.entries_resume {pc : Pc} {workerEnded : Bool} {answer : Answer}
    (henqueue : ∀ player request nowMs, pc ≠ .enqueue player request nowMs)
    (htake : ∀ nowMs changed, pc ≠ .take nowMs changed)
    (hcommit : ∀ nowMs group roomId groups, pc ≠ .commit nowMs group roomId groups)
    (hworker : ∀ group roomId queuedMs, pc ≠ .workerCommit group roomId queuedMs) :
    (pc.resume c workerEnded answer q).2.entries = q.entries := by
  have hmark : ∀ nowMs, (q.markSnapshotDirty c nowMs).entries = q.entries := by
    intro nowMs
    unfold MatchQueue.markSnapshotDirty
    split_ifs <;> rfl
  cases pc
  case enqueue player request nowMs => exact absurd rfl (henqueue player request nowMs)
  case take nowMs changed => exact absurd rfl (htake nowMs changed)
  case commit nowMs group roomId groups => exact absurd rfl (hcommit nowMs group roomId groups)
  case workerCommit group roomId queuedMs => exact absurd rfl (hworker group roomId queuedMs)
  case round =>
    simp only [resume]
    split <;> rfl
  case allocate nowMs groups => cases groups <;> rfl
  case mark nowMs => exact hmark nowMs
  case workerMark => exact hmark answer.nowMs
  case worker =>
    simp only [resume, MatchQueue.popAllocation]
    rcases q.allocationQueue with - | ⟨⟨group, queuedMs⟩, rest⟩ <;> rfl
  case join =>
    simp only [resume]
    split <;> rfl
  case flush =>
    simp only [resume, MatchQueue.flushLocked]
    rcases q.snapshotDirty with - | - <;> rfl
  all_goals rfl

namespace MatchSystem

variable {s : MatchSystem}

theorem Sound.placed (h : Sound s) : Placed s.queue (inGroups s.inFlight) := h

/-- Everybody in a group in flight is being allocated. -/
theorem Sound.of_mem_inFlight (h : Sound s) {g : PendingGroup} (hg : g ∈ s.inFlight)
    (hp : p ∈ g.playerIds) : ∃ e, s.queue.entries.lookup p = some e ∧ e.state = .queued ∧
      e.allocating = true ∧ p ∉ s.queue.queue := by
  have hpos : 0 < inGroups s.inFlight p :=
    List.count_pos_iff.mpr (List.mem_flatMap.mpr ⟨g, hg, hp⟩)
  obtain ⟨e, he, hs, ha, hn, -⟩ := (h p).of_held hpos
  exact ⟨e, he, hs, ha, List.count_eq_zero.mp hn⟩

/-- A group that is committed is in flight. -/
theorem mem_inFlight_of_commits {a : Action} {g : PendingGroup} {roomId : String} {nowMs : Int}
    (h : s.commits a = some (g, roomId, nowMs)) : g ∈ s.inFlight := by
  unfold commits at h
  cases a
  case resume thread answer =>
    rw [resumed] at h
    split at h
    case h_1 nowMs' group roomId' groups hpc =>
      cases h
      exact mem_inFlight.mpr (.inl ⟨_, List.mem_of_getElem? hpc, List.mem_cons_self⟩)
    case h_2 group roomId' queuedMs hpc =>
      cases h
      exact mem_inFlight.mpr (.inl ⟨_, List.mem_of_getElem? hpc, List.mem_cons_self⟩)
    case h_3 => cases h
  all_goals cases h

theorem resumed_of_enters {a : Action} (henters : s.enters a = some p) (hsweeps : s.sweeps c a = some nowMs) :
    ∃ requestId, s.resumed a = some (.enqueue p requestId nowMs) := by
  cases a
  case resume thread answer =>
    rw [enters, resumed] at henters
    rw [sweeps] at hsweeps
    split at henters
    case h_1 player requestId nowMs' hpc =>
      simp only [hpc, Option.some.injEq] at hsweeps henters
      exact ⟨requestId, by rw [resumed, hpc, hsweeps, henters]⟩
    case h_2 => cases henters
  all_goals cases henters

theorem queue_next_of_resumed {a : Action} {pc : Pc} (h : s.resumed a = some pc) :
    ∃ answer, (s.next c a).queue = (pc.resume c s.workerEnded answer s.queue).2 := by
  cases a
  case resume thread answer =>
    have hpc : s.threads[thread]? = some pc := h
    refine ⟨answer, ?_⟩
    simp only [next, hpc]
  all_goals cases h

/-- **The entry of a player after one action.** -/
theorem entry_next (h : Sound s) (a : Action) (p : String) :
    EntryStep c s a p (s.queue.entries.lookup p) ((s.next c a).queue.entries.lookup p) := by
  have hsame : s.sweeps c a = none → (s.next c a).queue.entries = s.queue.entries →
      EntryStep c s a p (s.queue.entries.lookup p) ((s.next c a).queue.entries.lookup p) :=
    fun hsweeps heq => heq ▸ .same hsweeps
  rcases a with ⟨player, request, nowMs⟩ | ⟨player, nowMs⟩ | ⟨player, nowMs⟩ | ⟨- | rows, nowMs⟩ |
    - | - | - | nowMs | nowMs | ms | ⟨thread, answer⟩
  · refine hsame rfl ?_
    simp only [next]
    split_ifs <;> rfl
  · change EntryStep c s _ p _ ((s.queue.cancelLocked c nowMs player).2.2.entries.lookup p)
    rcases h.placed.lookup_cancelLocked c nowMs player p with heq |
      ⟨rfl, e, he, hs, heq⟩
    · rw [heq]
      exact .swept nowMs rfl
    · rw [heq]
      exact .cancelled nowMs rfl e he hs
  · change EntryStep c s _ p _ ((s.queue.sweep c nowMs).2.entries.lookup p)
    rw [h.placed.lookup_sweep]
    exact .swept nowMs rfl
  · exact hsame rfl rfl
  · by_cases hstore : c.hasStore = true
    · have hnext : s.next c (.restore (some rows) nowMs) =
          { s with queue := (s.queue.restoreLocked c nowMs rows).2 } := by
        simp only [next, if_pos hstore]
      rw [hnext]
      dsimp only
      rcases he : s.queue.entries.lookup p with - | e
      · exact .restored rows nowMs rfl rfl _
      · rw [h.placed.lookup_restoreLocked, MatchQueue.lookup_restoreRows he]
        exact .swept nowMs (if_pos hstore)
    · refine hsame (if_neg hstore) ?_
      simp only [next, if_neg hstore]
  · exact hsame rfl rfl
  · refine hsame rfl ?_
    simp only [next, MatchQueue.startWorkerLocked]
    split_ifs <;> rfl
  · refine hsame rfl ?_
    simp only [next, MatchQueue.stopWorkerLocked]
    split_ifs <;> rfl
  · refine hsame rfl ?_
    simp only [next]
    split_ifs <;> rfl
  · refine hsame rfl ?_
    simp only [next]
    split_ifs <;> rfl
  · exact hsame rfl rfl
  · rcases hpc : s.threads[thread]? with - | pc
    · refine hsame ?_ ?_
      · simp only [sweeps, hpc]
      · simp only [next, hpc]
    have hnext : (s.next c (.resume thread answer)).queue =
        (pc.resume c s.workerEnded answer s.queue).2 := by
      simp only [next, hpc]
    have hresumed : s.resumed (.resume thread answer) = some pc := hpc
    -- Committing a group, by whichever thread.
    have hcommit : ∀ group roomId nowMs, s.sweeps c (.resume thread answer) = none →
        s.commits (.resume thread answer) = some (group, roomId, nowMs) →
        EntryStep c s (.resume thread answer) p (s.queue.entries.lookup p)
          ((s.queue.commitGroup nowMs group roomId).entries.lookup p) := by
      intro group roomId nowMs hsweeps hcommits
      by_cases hp : p ∈ group.playerIds
      · obtain ⟨e, he, hs, ha, -⟩ := h.of_mem_inFlight (mem_inFlight_of_commits hcommits) hp
        rw [MatchQueue.lookup_commitGroup hp he]
        exact .committed hsweeps group roomId nowMs hcommits hp e he hs ha
      · rw [MatchQueue.lookup_commitGroup_of_not_mem hp]
        exact .same hsweeps
    cases pc
    case enqueue player request nowMs =>
      rw [hnext]
      have hsweeps : s.sweeps c (.resume thread answer) = some nowMs := by
        simp only [sweeps, hpc]
      rcases h.placed.lookup_enqueueLocked c nowMs player request p with heq |
        ⟨rfl, hfree, heq⟩
      · rw [Pc.resume, heq]
        exact .swept nowMs hsweeps
      · rw [Pc.resume, heq]
        exact .entered request nowMs (by simp only [enters, hresumed]) hsweeps hfree
    case take nowMs changed =>
      rw [hnext]
      have hsweeps : s.sweeps c (.resume thread answer) = none := by simp only [sweeps, hpc]
      have htaken : s.taken (.resume thread answer) =
          (s.queue.takePairGroups s.queue.queue.length answer.ids).1 := by
        simp only [taken, hresumed]
        rfl
      obtain ⟨hin, hout⟩ := h.placed.lookup_takePairGroups s.queue.queue.length answer.ids p
      rw [← htaken] at hin hout
      rw [Pc.resume, MatchQueue.takePairGroupsLocked]
      by_cases hmem : ∃ g ∈ s.taken (.resume thread answer), p ∈ g.playerIds
      · obtain ⟨g, hg, hp⟩ := hmem
        obtain ⟨e, he, hs, ha, heq⟩ := hin g hg hp
        rw [heq]
        exact .taken hsweeps g hg hp e he hs ha
      · rw [hout fun g hg hp => hmem ⟨g, hg, hp⟩]
        exact .same hsweeps
    case commit nowMs group roomId groups =>
      rw [hnext]
      exact hcommit group roomId nowMs (by simp only [sweeps, hpc]) (by simp only [commits, hresumed])
    case workerCommit group roomId queuedMs =>
      rw [hnext]
      exact hcommit group roomId queuedMs (by simp only [sweeps, hpc])
        (by simp only [commits, hresumed])
    all_goals
      refine hsame (by simp only [sweeps, hpc]) ?_
      rw [hnext]
      refine Pc.entries_resume ?_ ?_ ?_ ?_ <;> simp

/-- The groups that are taken have ids of the generator, in its order. -/
theorem ids_of_taken (hs : Sound s) (a : Action) : (s.taken a).map (·.matchId) <+: a.ids := by
  unfold taken
  split
  · exact (hs.ids_of_takePairGroups s.queue.queue.length a.ids).1
  · exact List.nil_prefix

theorem matchId_of_taken (hs : Sound s) {a : Action} {g : PendingGroup} (h : g ∈ s.taken a) :
    g.matchId ∈ a.ids :=
  (ids_of_taken hs a).subset (List.mem_map_of_mem h)

/-- Two different players are taken together. -/
theorem pair_of_taken (hs : Sound s) {a : Action} {g : PendingGroup} (h : g ∈ s.taken a) :
    ∃ p p', p ≠ p' ∧ g.playerIds = [p, p'] := by
  unfold taken at h
  split at h
  · exact hs.pair_of_takePairGroups s.queue.queue.length a.ids g h
  · cases h

/-- A group that is taken is noted with its players. -/
theorem lookup_taken (h : Sound s) {a : Action} {g : PendingGroup} (hg : g ∈ s.taken a)
    (hp : p ∈ g.playerIds) : ∃ e, s.queue.entries.lookup p = some e ∧
      (s.next c a).queue.entries.lookup p = some (e.allocate g.matchId g.playerIds) := by
  unfold taken at hg
  cases a
  case resume thread answer =>
    rw [resumed] at hg
    split at hg
    case h_1 nowMs changed hpc =>
      obtain ⟨e, he, -, -, heq⟩ :=
        (h.placed.lookup_takePairGroups s.queue.queue.length answer.ids p).1 g hg hp
      refine ⟨e, he, ?_⟩
      simp only [next, hpc]
      exact heq
    case h_2 => cases hg
  all_goals cases hg

/-- A commit, as it is seen in the entries. -/
theorem entries_of_commits {a : Action} {g : PendingGroup} {roomId : String} {nowMs : Int}
    (h : s.commits a = some (g, roomId, nowMs)) :
    (s.next c a).queue.entries = (s.queue.commitGroup nowMs g roomId).entries := by
  unfold commits at h
  cases a
  case resume thread answer =>
    rw [resumed] at h
    split at h
    case h_1 nowMs' group roomId' groups hpc =>
      cases h
      simp only [next, hpc, Pc.resume]
    case h_2 group roomId' queuedMs hpc =>
      cases h
      simp only [next, hpc, Pc.resume]
    case h_3 => cases h
  all_goals cases h

/-- Whose group is committed is in flight no more. -/
theorem not_mem_inFlight_of_commits (h : Sound s) {a : Action} {g g' : PendingGroup} {roomId : String}
    {nowMs : Int} (hcommits : s.commits a = some (g, roomId, nowMs)) (hp : p ∈ g.playerIds)
    (hg' : g' ∈ (s.next c a).inFlight) : p ∉ g'.playerIds := by
  intro hp'
  obtain ⟨e', he', -, ha', -⟩ := (h.next a).of_mem_inFlight hg' hp'
  obtain ⟨e, he, -⟩ := h.of_mem_inFlight (mem_inFlight_of_commits hcommits) hp
  rw [entries_of_commits hcommits, MatchQueue.lookup_commitGroup hp he] at he'
  split at he'
  · cases he'
    cases ha'
  · split at he'
    · cases he'
    · cases he'
      cases ha'

/-- Whoever stays in flight at most notes that he wants to leave. -/
theorem entry_inFlight_next (h : Sound s) {a : Action} {g g' : PendingGroup} (hg : g ∈ s.inFlight)
    (hp : p ∈ g.playerIds) (hg' : g' ∈ (s.next c a).inFlight) (hp' : p ∈ g'.playerIds) :
    ∃ e, s.queue.entries.lookup p = some e ∧
      ((s.next c a).queue.entries.lookup p = some e ∨
        (s.next c a).queue.entries.lookup p = some e.requestCancel) := by
  obtain ⟨x, hx, hs, ha, -⟩ := h.of_mem_inFlight hg hp
  have hstep := entry_next (c := c) h a p
  have hswept : ∀ nowMs, (some x).bind (Entry.swept c nowMs) = some x :=
    fun _ => Entry.swept_of_allocating hs ha
  rw [hx] at hstep
  refine ⟨x, hx, ?_⟩
  generalize (s.next c a).queue.entries.lookup p = after at hstep
  cases hstep with
  | same => exact .inl rfl
  | swept nowMs => exact .inl (hswept nowMs)
  | entered requestId nowMs henters hsweeps hfree => exact absurd hs (hfree x (hswept nowMs)).1
  | cancelled nowMs ha' y hy =>
    obtain rfl := Option.some.inj ((hswept nowMs).symm.trans hy)
    exact .inr (if_pos ha)
  | taken hsweeps g'' hg'' hp'' y hy hs' ha' =>
    obtain rfl := Option.some.inj hy
    cases ha.symm.trans ha'
  | committed hsweeps g'' roomId nowMs hcommits hp'' =>
    exact absurd hp' (not_mem_inFlight_of_commits h hcommits hp'' hg')
  | restored rows nowMs ha' hnone => cases hnone

/-! ## Results

What the entry of a player with a result can become. -/

/-- Does an action find a result of this time to be too old? -/
def expires (c : MatchConfig) (s : MatchSystem) (a : Action) (stampMs : Int) : Bool :=
  (s.sweeps c a).any fun nowMs => c.resultTtlMs ≤ nowMs - stampMs

/-- **A result is kept** until it is too old; then its player is free, or enters the queue at once. -/
theorem matched_next (h : Sound s) {e : Entry} (he : s.queue.entries.lookup p = some e)
    (hs : e.state = .matched) (a : Action) :
    (s.expires c a e.stampMs = false → (s.next c a).queue.entries.lookup p = some e) ∧
    (s.expires c a e.stampMs = true → ∀ e', (s.next c a).queue.entries.lookup p = some e' →
      s.enters a = some p ∧ e'.state = .queued) := by
  have hstep := entry_next (c := c) h a p
  rw [he] at hstep
  generalize (s.next c a).queue.entries.lookup p = after at hstep
  cases hstep with
  | same hsweeps =>
    rw [expires, hsweeps]
    exact ⟨fun _ => rfl, nofun⟩
  | swept nowMs hsweeps =>
    simp only [expires, hsweeps, Option.any_some, decide_eq_false_iff_not, decide_eq_true_eq,
      Option.bind_some, Entry.swept_of_matched hs]
    refine ⟨fun hkept => if_neg hkept, fun hstale e' he' => ?_⟩
    rw [if_pos hstale] at he'
    cases he'
  | entered requestId nowMs henters hsweeps hfree =>
    simp only [expires, hsweeps, Option.any_some, decide_eq_false_iff_not, decide_eq_true_eq]
    rw [Option.bind_some, Entry.swept_of_matched hs] at hfree
    refine ⟨fun hkept => ?_, fun _ e' he' => ?_⟩
    · rw [if_neg hkept] at hfree
      exact absurd hs (hfree e rfl).2
    · cases he'
      exact ⟨henters, rfl⟩
  | cancelled nowMs ha x hx hq =>
    rw [Option.bind_some, Entry.swept_of_matched hs] at hx
    split at hx
    · cases hx
    · cases hx
      cases hs.symm.trans hq
  | taken _ g hg hp x he' hq =>
    obtain rfl := Option.some.inj he'
    cases hs.symm.trans hq
  | committed _ g roomId nowMs hcommits hp x he' hq =>
    obtain rfl := Option.some.inj he'
    cases hs.symm.trans hq
  | restored _ _ _ he' => cases he'

/-- **A result was there before**, or is made by the commit of a group that has its room; or a restart
brings it back. -/
theorem matched_of_next (h : Sound s) {a : Action} {e : Entry}
    (he : (s.next c a).queue.entries.lookup p = some e) (hs : e.state = .matched) :
    s.queue.entries.lookup p = some e ∧ s.expires c a e.stampMs = false ∨
    (∃ g roomId nowMs x, s.commits a = some (g, roomId, nowMs) ∧
      s.queue.groupViable g roomId = true ∧ p ∈ g.playerIds ∧ s.queue.entries.lookup p = some x ∧
      e = x.settle roomId g.playerIds nowMs) ∨
    ∃ rows nowMs, a = .restore (some rows) nowMs := by
  have hold : s.queue.entries.lookup p = some e → s.expires c a e.stampMs = false := by
    refine fun hx => Bool.eq_false_iff.mpr fun hstale => ?_
    cases hs.symm.trans ((matched_next h hx hs a).2 hstale e he).2
  have hstep := entry_next (c := c) h a p
  rw [he] at hstep
  generalize s.queue.entries.lookup p = before at hstep hold ⊢
  obtain ⟨after, hafter⟩ : ∃ after, some e = after := ⟨_, rfl⟩
  rw [hafter] at hstep
  cases hstep with
  | same => exact .inl ⟨hafter.symm, hold hafter.symm⟩
  | swept nowMs hsweeps =>
    obtain ⟨x, hx, hswept⟩ := Option.bind_eq_some_iff.mp hafter.symm
    rcases Entry.of_swept hswept with rfl | ⟨rfl, -⟩
    · exact .inl ⟨hx, hold hx⟩
    · cases hs
  | entered =>
    cases hafter
    cases hs
  | cancelled nowMs ha x hx hq =>
    split at hafter
    · cases hafter
      cases hs.symm.trans hq
    · cases hafter
  | taken _ g hg hp x he' hq =>
    cases hafter
    cases hs.symm.trans hq
  | committed _ g roomId nowMs hcommits hp x he' hq =>
    rcases hviable : s.queue.groupViable g roomId with - | -
    · rw [hviable, if_neg Bool.false_ne_true] at hafter
      split at hafter
      · cases hafter
      · cases hafter
        cases hs.symm.trans hq
    · rw [hviable, if_pos rfl] at hafter
      exact .inr (.inl ⟨g, roomId, nowMs, x, hcommits, hviable, hp, he', Option.some.inj hafter⟩)
  | restored rows nowMs ha => exact .inr (.inr ⟨rows, nowMs, ha⟩)

end MatchSystem

end RealtimeGame.Match
