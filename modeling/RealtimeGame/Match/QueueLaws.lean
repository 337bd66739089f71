import Mathlib.Data.Multiset.AddSub
import RealtimeGame.Match.MatchQueue

/-!
# Match/QueueLaws — where each player is, section by section

A player who is queued is once in the queue, or once in a group that somebody holds; every other
player is in neither place.  `Placed` says so for all players, given how often each is held, and each
critical section keeps it: taking groups adds what it takes to what is held, committing a group
removes it.
-/

open Library

namespace RealtimeGame.Match

/-- **Where one player is** — `n` times in the queue and `h` times in the groups that are held. -/
inductive Place (entry : Option Entry) (n h : Nat) : Prop
  | absent (he : entry = none) (hn : n = 0) (hh : h = 0)
  | queued (e : Entry) (he : entry = some e) (hs : e.state = .queued)
      (ha : e.allocating = false) (hn : n = 1) (hh : h = 0)
  | allocating (e : Entry) (he : entry = some e) (hs : e.state = .queued)
      (ha : e.allocating = true) (hn : n = 0) (hh : h = 1)
  | over (e : Entry) (he : entry = some e) (hs : e.state ≠ .queued)
      (ha : e.allocating = false) (hn : n = 0) (hh : h = 0)

/-- All players are where their entries say. -/
def Placed (q : MatchQueue) (held : String → Nat) : Prop :=
  ∀ p, Place (q.entries.lookup p) (q.queue.count p) (held p)

variable {c : MatchConfig} {q : MatchQueue} {held : String → Nat} {nowMs : Int} {p : String}

namespace Place

variable {entry : Option Entry} {n h : Nat}

/-- Whoever is in the queue is queued, and held by nobody. -/
theorem of_queue (hp : Place entry n h) (hn : 0 < n) :
    ∃ e, entry = some e ∧ e.state = .queued ∧ e.allocating = false ∧ n = 1 ∧ h = 0 := by
  rcases hp with ⟨-, hn', -⟩ | ⟨e, he, hs, ha, hn', hh⟩ | ⟨e, -, -, -, hn', -⟩ | ⟨e, -, -, -, hn', -⟩
  · omega
  · exact ⟨e, he, hs, ha, hn', hh⟩
  · omega
  · omega

/-- Whoever is held is being allocated, and not in the queue. -/
theorem of_held (hp : Place entry n h) (hh : 0 < h) :
    ∃ e, entry = some e ∧ e.state = .queued ∧ e.allocating = true ∧ n = 0 ∧ h = 1 := by
  rcases hp with ⟨-, -, hh'⟩ | ⟨e, -, -, -, -, hh'⟩ | ⟨e, he, hs, ha, hn, hh'⟩ | ⟨e, -, -, -, -, hh'⟩
  · omega
  · omega
  · exact ⟨e, he, hs, ha, hn, hh'⟩
  · omega

/-- Whoever has no entry, or is not queued, is in neither place. -/
theorem of_free (hp : Place entry n h) (hfree : ∀ e, entry = some e → e.state ≠ .queued) :
    n = 0 ∧ h = 0 := by
  rcases hp with ⟨-, hn, hh⟩ | ⟨e, he, hs, -⟩ | ⟨e, he, hs, -⟩ | ⟨e, -, -, -, hn, hh⟩
  · exact ⟨hn, hh⟩
  · exact absurd hs (hfree e he)
  · exact absurd hs (hfree e he)
  · exact ⟨hn, hh⟩

/-- Whoever is being allocated is held once, and queued. -/
theorem of_allocating {e : Entry} (hp : Place entry n h) (he : entry = some e)
    (ha : e.allocating = true) : e.state = .queued ∧ n = 0 ∧ h = 1 := by
  subst he
  rcases hp with ⟨he', -⟩ | ⟨e', he', -, ha', -⟩ | ⟨e', he', hs, -, hn, hh⟩ | ⟨e', he', -, ha', -⟩
  · cases he'
  · obtain rfl := Option.some.inj he'
    cases ha.symm.trans ha'
  · obtain rfl := Option.some.inj he'
    exact ⟨hs, hn, hh⟩
  · obtain rfl := Option.some.inj he'
    cases ha.symm.trans ha'

end Place

/-- Nothing but the entries and the queue changes. -/
def MatchQueue.Frame (q q' : MatchQueue) : Prop :=
  q' = { q with entries := q'.entries, queue := q'.queue }

theorem MatchQueue.Frame.update {q : MatchQueue} (entries : Table String Entry)
    (queue : List String) : q.Frame { q with entries := entries, queue := queue } := rfl

theorem MatchQueue.Frame.trans {q q' q'' : MatchQueue} (h : q.Frame q') (h' : q'.Frame q'') :
    q.Frame q'' := by
  rw [Frame] at h h' ⊢
  rw [h', h]

namespace Placed

theorem start : Placed {} fun _ => 0 := fun _ => .absent rfl rfl rfl

theorem congr {held' : String → Nat} (h : Placed q held) (heq : ∀ p, held' p = held p) :
    Placed q held' := fun p => heq p ▸ h p

/-- Only the entries and the queue matter. -/
theorem of_eq {q' : MatchQueue} (h : Placed q held) (he : q'.entries = q.entries)
    (hq : q'.queue = q.queue) : Placed q' held := fun p => by
  rw [he, hq]
  exact h p

/-- Nobody is in the queue twice. -/
theorem nodup (h : Placed q held) : q.queue.Nodup := by
  refine List.nodup_iff_count_le_one.mpr fun p => ?_
  rcases Nat.eq_zero_or_pos (q.queue.count p) with hn | hn
  · omega
  · obtain ⟨-, -, -, -, hn, -⟩ := (h p).of_queue hn
    omega

theorem of_mem (h : Placed q held) (hp : p ∈ q.queue) :
    ∃ e, q.entries.lookup p = some e ∧ e.state = .queued ∧ e.allocating = false ∧ held p = 0 := by
  obtain ⟨e, he, hs, ha, -, hh⟩ := (h p).of_queue (List.count_pos_iff.mpr hp)
  exact ⟨e, he, hs, ha, hh⟩

/-! ## Settling what is due

Who is settled leaves the queue; who is in a group is not settled. -/

theorem foldl_expire (ps : List String) (q : MatchQueue) :
    ps.foldl (MatchQueue.expire nowMs) q = { q with
      entries := ps.foldl (fun t p => t.adjust p (Entry.expire nowMs)) q.entries
      queue := q.queue.diff ps } := by
  induction ps generalizing q with
  | nil => rfl
  | cons p ps ih =>
    rw [List.foldl_cons, ih]
    simp only [MatchQueue.expire, List.foldl_cons, List.diff_cons]

/-- What is thrown out of the queue. -/
theorem mem_timedOut (h : Placed q held) :
    p ∈ q.timedOut c nowMs ↔ p ∈ q.queue ∧
      ∀ e, q.entries.lookup p = some e → e.isOverdue c nowMs = true := by
  rw [MatchQueue.timedOut, List.mem_filter, and_congr_right_iff]
  intro hp
  obtain ⟨e, he, hs, -⟩ := h.of_mem hp
  simp [he, hs]

theorem sweep_frame : q.Frame (q.sweep c nowMs).2 := by
  simp only [MatchQueue.Frame, MatchQueue.sweep, foldl_expire]

theorem sweep (h : Placed q held) : Placed (q.sweep c nowMs).2 held := by
  intro p
  have hentry : (q.sweep c nowMs).2.entries.lookup p = ((q.entries.lookup p).map fun e =>
      if p ∈ q.timedOut c nowMs then e.expire nowMs else e).filter
        fun e => !e.isStale c nowMs := by
    simp only [MatchQueue.sweep, foldl_expire, Table.lookup_filter]
    rw [Table.lookup_foldl_adjust (f := Entry.expire nowMs) fun _ => rfl]
  have hcount : (q.sweep c nowMs).2.queue.count p
      = q.queue.count p - (q.timedOut c nowMs).count p := by
    simp only [MatchQueue.sweep, foldl_expire, ← Multiset.coe_count, ← Multiset.coe_sub,
      Multiset.count_sub]
  have hnot : ∀ {n}, q.queue.count p = n → n = 0 → p ∉ q.timedOut c nowMs := by
    rintro n hn rfl hmem
    exact List.count_eq_zero.mp hn (h.mem_timedOut.mp hmem).1
  -- An entry that is over may be dropped.
  have hdrop : ∀ e : Entry, e.state ≠ .queued → e.allocating = false → held p = 0 →
      Place ((some e).filter fun e => !e.isStale c nowMs) 0 (held p) := by
    intro e hs ha hh
    rcases hstale : e.isStale c nowMs with - | -
    · exact .over e (by simp [hstale]) hs ha rfl hh
    · exact .absent (by simp [hstale]) rfl hh
  have hfresh : ∀ e : Entry, e.state = .queued → e.isStale c nowMs = false := by
    intro e hs
    simp [Entry.isStale, hs]
  rw [hentry, hcount]
  rcases h p with ⟨he, hn, hh⟩ | ⟨e, he, hs, ha, hn, hh⟩ | ⟨e, he, hs, ha, hn, hh⟩ |
    ⟨e, he, hs, ha, hn, hh⟩
  · exact .absent (by simp [he]) (by omega) hh
  · rw [he, Option.map_some, hn]
    by_cases hout : p ∈ q.timedOut c nowMs
    · have hpos := List.count_pos_iff.mpr hout
      rw [if_pos hout, show 1 - (q.timedOut c nowMs).count p = 0 by omega]
      exact hdrop _ (by simp [Entry.expire]) ha hh
    · rw [if_neg hout, List.count_eq_zero.mpr hout]
      exact .queued e (by simp [hfresh e hs]) hs ha rfl hh
  · rw [he, Option.map_some, if_neg (hnot hn rfl), hn]
    exact .allocating e (by simp [hfresh e hs]) hs ha (by omega) hh
  · rw [he, Option.map_some, if_neg (hnot hn rfl), hn, Nat.zero_sub]
    exact hdrop e hs ha hh

/-! ## Entering and leaving

A player enters at the end, and leaves from where he is. -/

/-- A player who is free enters the queue. -/
theorem enter (h : Placed q held) {e : Entry}
    (hfree : ∀ e', q.entries.lookup p = some e' → e'.state ≠ .queued)
    (hs : e.state = .queued) (ha : e.allocating = false) :
    Placed { q with entries := q.entries.insert p e, queue := q.queue ++ [p] } held := by
  obtain ⟨hn, hh⟩ := (h p).of_free hfree
  intro p'
  simp only [Table.lookup_insert', List.count_append]
  by_cases hp : p' = p
  · subst hp
    rw [if_pos rfl]
    exact .queued e rfl hs ha (by simp [hn]) hh
  · rw [if_neg hp, List.count_singleton, beq_eq_false_iff_ne.mpr (Ne.symm hp)]
    exact h p'

theorem enqueueLocked (h : Placed q held) (player request : String) :
    Placed (q.enqueueLocked c nowMs player request).2.2 held := by
  have hswept : Placed (q.sweep c nowMs).2 held := h.sweep
  unfold MatchQueue.enqueueLocked
  dsimp only
  split
  case h_1 e he =>
    split
    case isTrue => exact hswept
    case isFalse hnot =>
      split
      · exact hswept
      · refine hswept.enter (fun e' he' hs => hnot (.inl ?_)) rfl rfl
        obtain rfl := Option.some.inj (he.symm.trans he')
        exact hs
  case h_2 he =>
    split
    · exact hswept
    · refine hswept.enter (fun e' he' => ?_) rfl rfl
      rw [he] at he'
      cases he'

theorem enqueueLocked_frame (player request : String) :
    q.Frame (q.enqueueLocked c nowMs player request).2.2 := by
  have hswept : q.Frame (q.sweep c nowMs).2 := sweep_frame
  unfold MatchQueue.enqueueLocked
  dsimp only
  split
  · split
    · exact hswept
    · split
      · exact hswept
      · exact hswept.trans rfl
  · split
    · exact hswept
    · exact hswept.trans rfl

theorem cancelLocked (h : Placed q held) (player : String) :
    Placed (q.cancelLocked c nowMs player).2.2 held := by
  have hswept : Placed (q.sweep c nowMs).2 held := h.sweep
  unfold MatchQueue.cancelLocked
  dsimp only
  split
  case h_1 => exact hswept
  case h_2 e he =>
    split
    case isTrue hallocating =>
      intro p
      simp only [Table.lookup_adjust]
      by_cases hp : p = player
      · subst hp
        rcases hswept p with ⟨he', -⟩ | ⟨e', he', -, ha, -⟩ | ⟨e', he', hs, ha, hn, hh⟩ |
          ⟨e', he', -, ha, -⟩
        · cases he.symm.trans he'
        · obtain rfl := Option.some.inj (he.symm.trans he')
          cases hallocating.symm.trans ha
        · exact .allocating e'.requestCancel (by rw [he']; simp) hs ha hn hh
        · obtain rfl := Option.some.inj (he.symm.trans he')
          cases hallocating.symm.trans ha
      · simp only [hp, if_false, Option.map_id']
        exact hswept p
    case isFalse hallocating =>
      split
      case isTrue => exact hswept
      case isFalse hqueued =>
        intro p
        simp only [Table.lookup_erase', List.count_erase]
        by_cases hp : p = player
        · subst hp
          rw [if_pos rfl, beq_self_eq_true, if_pos rfl]
          rcases hswept p with ⟨he', -⟩ | ⟨e', -, -, -, hn, hh⟩ | ⟨e', he', -, ha, -⟩ |
            ⟨e', he', hs, -⟩
          · cases he.symm.trans he'
          · exact .absent rfl (by omega) hh
          · obtain rfl := Option.some.inj (he.symm.trans he')
            exact absurd ha hallocating
          · obtain rfl := Option.some.inj (he.symm.trans he')
            exact absurd (not_not.mp hqueued) hs
        · rw [if_neg hp, beq_eq_false_iff_ne.mpr (Ne.symm hp), if_neg Bool.false_ne_true,
            Nat.sub_zero]
          exact hswept p

theorem cancelLocked_frame (player : String) :
    q.Frame (q.cancelLocked c nowMs player).2.2 := by
  have hswept : q.Frame (q.sweep c nowMs).2 := sweep_frame
  unfold MatchQueue.cancelLocked
  dsimp only
  split
  · exact hswept
  · split
    · exact hswept.trans rfl
    · split
      · exact hswept
      · exact hswept.trans rfl

/-! ## Restart

A restart begins with nobody held. -/

end Placed

/-- A restart, before its sweep. -/
def MatchQueue.restoreRows (c : MatchConfig) (q : MatchQueue) (nowMs : Int)
    (rows : List MatchQueueSnapshotRow) (report : MatchRestoreReport) :
    MatchRestoreReport × MatchQueue :=
  (matchedRows rows).foldl (restoreMatched c nowMs)
    ((queuedRows rows).foldl (restoreQueued c nowMs) (report, q))

/-- The rows of matches put nobody into the queue. -/
theorem MatchQueue.queue_foldl_restoreMatched (rows : List (String × String × List String × Int))
    (acc : MatchRestoreReport × MatchQueue) :
    (rows.foldl (restoreMatched c nowMs) acc).2.queue = acc.2.queue := by
  refine List.foldlRecOn (motive := fun acc' : MatchRestoreReport × MatchQueue =>
    acc'.2.queue = acc.2.queue) _ _ rfl fun acc' hacc' row _ => ?_
  unfold restoreMatched
  split
  · exact hacc'
  · split <;> exact hacc'

namespace Placed

theorem restoreQueued {acc : MatchRestoreReport × MatchQueue} (h : Placed acc.2 held)
    (row : String × Int) : Placed (MatchQueue.restoreQueued c nowMs acc row).2 held := by
  unfold MatchQueue.restoreQueued
  split
  case isTrue => exact h
  case isFalse hnew =>
    split
    · exact h
    · refine h.enter (fun e' he' => ?_) rfl rfl
      rw [he'] at hnew
      exact absurd rfl hnew

/-- Somebody without an entry gets the result of a match. -/
theorem restorePlayer (h : Placed q held) {e : Entry} (hs : e.state ≠ .queued)
    (ha : e.allocating = false) (player : String) :
    Placed { q with entries := MatchQueue.restorePlayer e q.entries player } held := by
  intro p
  simp only [MatchQueue.restorePlayer]
  split
  case isTrue => exact h p
  case isFalse hnew =>
    rw [Table.lookup_insert']
    by_cases hp : p = player
    · subst hp
      rw [if_pos rfl]
      have hnone : q.entries.lookup p = none := Option.not_isSome_iff_eq_none.mp hnew
      obtain ⟨hn, hh⟩ := (h p).of_free fun e' he' => by cases hnone.symm.trans he'
      exact .over e rfl hs ha hn hh
    · rw [if_neg hp]
      exact h p

theorem restoreMatched {acc : MatchRestoreReport × MatchQueue} (h : Placed acc.2 held)
    (row : String × String × List String × Int) :
    Placed (MatchQueue.restoreMatched c nowMs acc row).2 held := by
  unfold MatchQueue.restoreMatched
  split
  · exact h
  split
  · exact h
  · have hall : ∀ e : Entry, e.state ≠ .queued → e.allocating = false →
        ∀ players : List String, Placed { acc.2 with
          entries := players.foldl (MatchQueue.restorePlayer e) acc.2.entries } held :=
      fun e hs ha players =>
        List.foldlRecOn (motive := fun entries => Placed { acc.2 with entries := entries } held)
          players _ h fun _ hentries p _ => hentries.restorePlayer hs ha p
    have hne : MatchState.matched ≠ .queued := by decide
    exact hall { state := .matched, matchId := row.1, roomId := row.2.1, playerIds := row.2.2.1,
                 stampMs := row.2.2.2 } hne rfl _

/-- The rows that are put into a queue, before the sweep. -/
theorem restoreRows (h : Placed q held) (rows : List MatchQueueSnapshotRow)
    (report : MatchRestoreReport) : Placed (q.restoreRows c nowMs rows report).2 held :=
  List.foldlRecOn (motive := fun acc : _ × MatchQueue => Placed acc.2 held) _ _
    (List.foldlRecOn (motive := fun acc : _ × MatchQueue => Placed acc.2 held) _ _ h
      fun _ hacc row _ => restoreQueued hacc row)
    fun _ hacc row _ => restoreMatched hacc row

theorem restoreLocked (h : Placed q held) (rows : List MatchQueueSnapshotRow) :
    Placed (q.restoreLocked c nowMs rows).2 held :=
  (h.restoreRows rows _).sweep

theorem restoreLocked_frame (rows : List MatchQueueSnapshotRow) :
    q.Frame (q.restoreLocked c nowMs rows).2 := by
  unfold MatchQueue.restoreLocked
  dsimp only
  refine MatchQueue.Frame.trans ?_ sweep_frame
  refine List.foldlRecOn (motive := fun acc : _ × MatchQueue => q.Frame acc.2) _ _
    (List.foldlRecOn (motive := fun acc : _ × MatchQueue => q.Frame acc.2) _ _ rfl
      fun acc hacc row _ => ?_) fun acc hacc row _ => ?_
  · unfold MatchQueue.restoreQueued
    split
    · exact hacc
    · split
      · exact hacc
      · exact hacc.trans rfl
  · unfold MatchQueue.restoreMatched
    split
    · exact hacc
    · split
      · exact hacc
      · exact hacc.trans rfl

end Placed

end RealtimeGame.Match
