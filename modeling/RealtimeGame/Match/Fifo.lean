import RealtimeGame.Library.Before
import RealtimeGame.Match.Reentry
import RealtimeGame.Match.SaveRestore

/-!
# Match/Fifo — the order of the queue after a restart

A restart sorts the waiting players by the times at which they entered, and leaves players with one time in
the order of the snapshot.  That order is not the one in which their waiting began: the snapshot has the
players in flight last, and the pairing takes them first (`not_fifo`).
-/

open Library

namespace RealtimeGame.Match

open MatchQueueStore (validIdentifier)

variable {c : MatchConfig} {q : MatchQueue} {nowMs : Int} {p p' : String}

namespace MatchQueue

/-! ## The queue that a restart builds

Rows are sorted by time, and rows of one time stay in their order. -/

/-- Whoever is in the queue is there for one of these rows, which is in time. -/
def Lined (c : MatchConfig) (nowMs : Int) (rows : List (String × Int)) (q : MatchQueue) : Prop :=
  ∀ p ∈ q.queue, ∃ row ∈ rows, row.1 = p ∧ nowMs - row.2 < c.matchTimeoutMs ∧
    q.entries.lookup p = some (ofQueued row)

variable {rows : List (String × Int)} {acc : MatchRestoreReport × MatchQueue}

theorem Lined.restoreQueued (h : Lined c nowMs rows acc.2) {row : String × Int} (hrow : row ∈ rows) :
    Lined c nowMs rows (restoreQueued c nowMs acc row).2 := by
  unfold MatchQueue.restoreQueued
  split
  case isTrue => exact h
  case isFalse hnew =>
    split
    case isTrue => exact h
    case isFalse hin =>
      intro p hp
      dsimp only
      rw [Table.lookup_insert']
      rcases List.mem_append.mp hp with hold | hone
      · obtain ⟨row', hrow', hkey, hin', hlookup⟩ := h p hold
        have hne : p ≠ row.1 := by
          rintro rfl
          rw [hlookup] at hnew
          exact hnew rfl
        exact ⟨row', hrow', hkey, hin', (if_neg hne).trans hlookup⟩
      · rw [List.mem_singleton.mp hone]
        exact ⟨row, hrow, rfl, not_le.mp hin, if_pos rfl⟩

theorem Lined.restoreMatched (h : Lined c nowMs rows acc.2) (row : String × String × List String × Int) :
    Lined c nowMs rows (restoreMatched c nowMs acc row).2 := by
  unfold MatchQueue.restoreMatched
  split
  · exact h
  · split
    · exact h
    · intro p hp
      obtain ⟨row', hrow', hkey, hin, hlookup⟩ := h p hp
      refine ⟨row', hrow', hkey, hin, ?_⟩
      dsimp only
      rw [lookup_foldl_restorePlayer, hlookup, Option.some_or]

/-- Nobody in it is thrown out by the sweep. -/
theorem Lined.queue_sweep (h : Lined c nowMs rows q) : (q.sweep c nowMs).2.queue = q.queue := by
  have hnone : q.timedOut c nowMs = [] := by
    rw [timedOut, List.filter_eq_nil_iff]
    intro p hp
    obtain ⟨row, -, -, hin, hlookup⟩ := h p hp
    simp [hlookup, ofQueued, Entry.isOverdue, hin]
  simp only [sweep, hnone, List.foldl_nil]

theorem lined_restoreRows (c : MatchConfig) (nowMs : Int) (rows : List MatchQueueSnapshotRow)
    (report : MatchRestoreReport) :
    Lined c nowMs (queuedRows rows) (({} : MatchQueue).restoreRows c nowMs rows report).2 :=
  List.foldlRecOn (motive := fun acc : MatchRestoreReport × MatchQueue =>
      Lined c nowMs (queuedRows rows) acc.2) _ _
    (List.foldlRecOn (motive := fun acc : MatchRestoreReport × MatchQueue =>
      Lined c nowMs (queuedRows rows) acc.2) _ _ (fun p hp => by cases hp)
      fun _ h _ hrow => h.restoreQueued hrow)
    fun _ h row _ => h.restoreMatched row

/-- Rows of different players come into the queue one after the other. -/
theorem foldl_restoreQueued_new (hnodup : (rows.map Prod.fst).Nodup)
    (hnew : ∀ row ∈ rows, acc.2.entries.lookup row.1 = none) :
    (rows.foldl (restoreQueued c nowMs) acc).2.queue =
      acc.2.queue ++ (rows.filter fun row => nowMs - row.2 < c.matchTimeoutMs).map Prod.fst := by
  induction rows generalizing acc with
  | nil => simp
  | cons row rows ih =>
    rw [List.map_cons, List.nodup_cons] at hnodup
    have hrow := hnew row List.mem_cons_self
    rw [List.foldl_cons, ih hnodup.2 fun row' hrow' => ?_, List.filter_cons]
    · unfold restoreQueued
      rw [hrow, Option.isSome_none, if_neg Bool.false_ne_true]
      split
      case isTrue hlate => rw [decide_eq_false (not_lt.mpr hlate), if_neg Bool.false_ne_true]
      case isFalse hin =>
        rw [decide_eq_true (not_le.mp hin), if_pos rfl, List.map_cons, List.append_assoc]
        rfl
    · refine Option.eq_none_iff_forall_ne_some.mpr fun e he => ?_
      rcases ((restoreQueued_new hrow).2 row'.1 e).mp he with hold | ⟨heq, -⟩
      · cases (hnew row' (List.mem_cons_of_mem _ hrow')).symm.trans hold
      · exact hnodup.1 (heq ▸ List.mem_map_of_mem hrow')

/-- **The queue after a restart** from rows of different players: those in time, in their order. -/
theorem queue_restoreLocked_new (c : MatchConfig) (nowMs : Int) {rows : List MatchQueueSnapshotRow}
    (hnodup : ((queuedRows rows).map Prod.fst).Nodup) :
    (({} : MatchQueue).restoreLocked c nowMs rows).2.queue =
      ((queuedRows rows).filter fun row => nowMs - row.2 < c.matchTimeoutMs).map Prod.fst := by
  have hsweep := (lined_restoreRows c nowMs rows
    { scanned := rows.length, dropped := (rows.filter (·.problem ≠ "")).length }).queue_sweep
  refine hsweep.trans ((queue_foldl_restoreMatched _ _).trans ?_)
  exact (foldl_restoreQueued_new hnodup fun _ _ => rfl).trans (List.nil_append _)

/-! ## Which of two players comes back first

By the times, and by the order of the snapshot where these are the same. -/

/-- The snapshot comes upon `p` before it comes upon `p'`: first in the queue, and then in the map. -/
def Ahead (q : MatchQueue) (p p' : String) : Prop :=
  Before q.queue p p' ∨ p ∈ q.queue ∧ p' ∉ q.queue ∨
    p ∉ q.queue ∧ p' ∉ q.queue ∧ Before q.entries.keys p p'

instance : Decidable (q.Ahead p p') := inferInstanceAs (Decidable (_ ∨ _ ∨ _))

/-- A player whom a restart at `nowMs` puts back. -/
def Returns (c : MatchConfig) (nowMs : Int) (p : String) (e : Entry) : Prop :=
  e.state = .queued ∧ e.cancelRequested = false ∧ validIdentifier p = true ∧ 0 < e.queuedAtMs ∧
    nowMs - e.queuedAtMs < c.matchTimeoutMs

instance {e : Entry} : Decidable (Returns c nowMs p e) :=
  inferInstanceAs (Decidable (_ ∧ _ ∧ _ ∧ _ ∧ _))

/-- The queue that a restart makes of this one. -/
def restart (c : MatchConfig) (nowMs : Int) (q : MatchQueue) : MatchQueue :=
  (({} : MatchQueue).restoreLocked c nowMs q.loadedRows).2

variable {held : String → Nat}

/-- The row of a player in the queue. -/
def lineRow (q : MatchQueue) (p : String) : Option (String × Int) :=
  (q.entries.lookup p).bind fun e => if e.state = .queued then some (p, e.queuedAtMs) else none

/-- The row of a player in flight, who has not asked to leave. -/
def flightRow (e : String × Entry) : Option (String × Int) :=
  if e.2.state = .queued ∧ e.2.allocating ∧ !e.2.cancelRequested then some (e.1, e.2.queuedAtMs) else none

theorem waitingRows_eq (q : MatchQueue) :
    q.waitingRows = q.queue.filterMap q.lineRow ++ q.entries.toPairs.filterMap flightRow := rfl

theorem of_mem_lineRows {row : String × Int} (hrow : row ∈ q.queue.filterMap q.lineRow) :
    row.1 ∈ q.queue ∧ q.lineRow row.1 = some row := by
  obtain ⟨p, hp, hsome⟩ := List.mem_filterMap.mp hrow
  obtain ⟨e, -, hs⟩ := Option.bind_eq_some_iff.mp hsome
  obtain ⟨-, heq⟩ := Option.ite_none_right_eq_some.mp hs
  cases heq
  exact ⟨hp, hsome⟩

theorem of_mem_flightRows (h : Placed q held) {row : String × Int}
    (hrow : row ∈ q.entries.toPairs.filterMap flightRow) :
    row.1 ∉ q.queue ∧ ∃ e, (row.1, e) ∈ q.entries.toPairs ∧ flightRow (row.1, e) = some row := by
  obtain ⟨⟨p, e⟩, he, hsome⟩ := List.mem_filterMap.mp hrow
  obtain ⟨⟨-, ha, -⟩, heq⟩ := Option.ite_none_right_eq_some.mp hsome
  cases heq
  refine ⟨fun hp => ?_, e, he, hsome⟩
  obtain ⟨e', he', -, ha', -⟩ := h.of_mem hp
  obtain rfl := Option.some.inj ((Table.mem_toPairs.mp he).symm.trans he')
  cases ha.symm.trans ha'

/-- The order of a snapshot. -/
theorem before_waitingRows (h : Placed q held) {t t' : Int} (hrow : (p, t) ∈ q.waitingRows)
    (hrow' : (p', t') ∈ q.waitingRows) (hne : p ≠ p') :
    Before q.waitingRows (p, t) (p', t') ↔ q.Ahead p p' := by
  have hnodup : q.waitingRows.Nodup := (nodup_waitingRows h).of_map _
  have hrows : (p, t) ≠ (p', t') := fun heq => hne (congrArg Prod.fst heq)
  rw [waitingRows_eq] at hrow hrow' hnodup ⊢
  obtain ⟨hline, hflight, -⟩ := List.nodup_append'.mp hnodup
  rw [before_append_iff, Ahead]
  rcases List.mem_append.mp hrow with hin | hin <;> rcases List.mem_append.mp hrow' with hin' | hin'
  · obtain ⟨hp, hsome⟩ := of_mem_lineRows hin
    obtain ⟨hp', hsome'⟩ := of_mem_lineRows hin'
    rw [before_filterMap_iff hline hp hp' hne hsome hsome']
    refine or_congr_right (iff_of_false ?_ ?_)
    · rintro (⟨-, hout⟩ | hout)
      · exact (of_mem_flightRows h hout).1 hp'
      · exact (of_mem_flightRows h hout.right).1 hp'
    · rintro (⟨-, hout⟩ | ⟨hout, -⟩)
      · exact hout hp'
      · exact hout hp
  · exact iff_of_true (.inr (.inl ⟨hin, hin'⟩))
      (.inr (.inl ⟨(of_mem_lineRows hin).1, (of_mem_flightRows h hin').1⟩))
  · obtain ⟨hp, -⟩ := of_mem_flightRows h hin
    obtain ⟨hp', -⟩ := of_mem_lineRows hin'
    refine iff_of_false ?_ ?_
    · rintro (hbefore | ⟨hout, -⟩ | hbefore)
      · exact hp (of_mem_lineRows hbefore.left).1
      · exact hp (of_mem_lineRows hout).1
      · exact (of_mem_flightRows h hbefore.right).1 hp'
    · rintro (hbefore | ⟨hout, -⟩ | ⟨-, hout, -⟩)
      · exact hp hbefore.left
      · exact hp hout
      · exact hout hp'
  · obtain ⟨hp, e, he, hsome⟩ := of_mem_flightRows h hin
    obtain ⟨hp', e', he', hsome'⟩ := of_mem_flightRows h hin'
    have hpairs : (p, e) ≠ (p', e') := fun heq => hne (congrArg Prod.fst heq)
    have hkeys : Before q.entries.keys p p' ↔ Before q.entries.toPairs (p, e) (p', e') := by
      rw [← Table.toPairs_keys]
      exact before_map_iff q.entries.nodup_toPairs he he' hpairs
    rw [before_filterMap_iff hflight he he' hpairs hsome hsome', hkeys]
    constructor
    · rintro (hbefore | ⟨hout, -⟩ | hbefore)
      · exact absurd (of_mem_lineRows hbefore.left).1 hp
      · exact absurd (of_mem_lineRows hout).1 hp
      · exact .inr (.inr ⟨hp, hp', hbefore⟩)
    · rintro (hbefore | ⟨hout, -⟩ | ⟨-, -, hbefore⟩)
      · exact absurd hbefore.left hp
      · exact absurd hout hp
      · exact .inr (.inr hbefore)

/-- The rows that a restart puts back, in its order. -/
def returningRows (c : MatchConfig) (nowMs : Int) (q : MatchQueue) : List (String × Int) :=
  ((q.waitingRows.filter storableRow).insertionSort fun a b => a.2 ≤ b.2).filter
    fun row => nowMs - row.2 < c.matchTimeoutMs

theorem queue_restart (h : Placed q held) (htimed : q.Timed) :
    (restart c nowMs q).queue = (returningRows c nowMs q).map Prod.fst := by
  have hrows := queuedRows_loadedRows htimed
  have hnodup : ((queuedRows q.loadedRows).map Prod.fst).Nodup := by
    rw [hrows, ((List.perm_insertionSort _ _).map Prod.fst).nodup_iff]
    exact (nodup_waitingRows h).sublist (List.filter_sublist.map _)
  rw [restart, queue_restoreLocked_new c nowMs hnodup, hrows, returningRows]

theorem nodup_returningRows (h : Placed q held) : ((returningRows c nowMs q).map Prod.fst).Nodup := by
  have hsorted : (((q.waitingRows.filter storableRow).insertionSort fun a b => a.2 ≤ b.2).map
      Prod.fst).Nodup := by
    rw [((List.perm_insertionSort _ _).map Prod.fst).nodup_iff]
    exact (nodup_waitingRows h).sublist (List.filter_sublist.map _)
  exact hsorted.sublist (List.filter_sublist.map _)

theorem mem_returningRows {row : String × Int} : row ∈ returningRows c nowMs q ↔
    row ∈ q.waitingRows ∧ storableRow row = true ∧ nowMs - row.2 < c.matchTimeoutMs := by
  rw [returningRows, List.mem_filter, List.mem_insertionSort, List.mem_filter, decide_eq_true_eq, and_assoc]

theorem before_returningRows (h : Placed q held) {row row' : String × Int}
    (hrow : row ∈ returningRows c nowMs q) (hrow' : row' ∈ returningRows c nowMs q) (hne : row ≠ row') :
    Before (returningRows c nowMs q) row row' ↔
      row.2 < row'.2 ∨ row.2 ≤ row'.2 ∧ Before q.waitingRows row row' := by
  obtain ⟨hwaits, hstorable, hin⟩ := mem_returningRows.mp hrow
  obtain ⟨hwaits', hstorable', hin'⟩ := mem_returningRows.mp hrow'
  have hnodup : (q.waitingRows.filter storableRow).Nodup := ((nodup_waitingRows h).of_map _).filter _
  rw [returningRows, before_filter_iff (p := fun row : String × Int => nowMs - row.2 < c.matchTimeoutMs)
      (decide_eq_true hin) (decide_eq_true hin'),
    before_insertionSort_iff hnodup (List.mem_filter.mpr ⟨hwaits, hstorable⟩)
      (List.mem_filter.mpr ⟨hwaits', hstorable'⟩) hne, before_filter_iff hstorable hstorable', not_le]

/-- A cancellation is noted during an allocation only. -/
def Noted (q : MatchQueue) : Prop :=
  ∀ p e, q.entries.lookup p = some e → e.cancelRequested = true → e.allocating = true

/-- Whose row it is. -/
theorem mem_returningRows_iff (h : Placed q held) (hnoted : q.Noted) {e : Entry}
    (he : q.entries.lookup p = some e) :
    (p, e.queuedAtMs) ∈ returningRows c nowMs q ↔ Returns c nowMs p e := by
  rw [mem_returningRows, mem_waitingRows h hnoted, storableRow, Bool.and_eq_true, decide_eq_true_eq, Returns]
  constructor
  · rintro ⟨⟨e', he', hs, hstays, -⟩, ⟨hvalid, hpos⟩, hin⟩
    obtain rfl := Option.some.inj (he.symm.trans he')
    exact ⟨hs, hstays, hvalid, hpos, hin⟩
  · rintro ⟨hs, hstays, hvalid, hpos, hin⟩
    exact ⟨⟨e, he, hs, hstays, rfl⟩, ⟨hvalid, hpos⟩, hin⟩

theorem mem_queue_restart (h : Placed q held) (htimed : q.Timed) (hnoted : q.Noted) :
    p ∈ (restart c nowMs q).queue ↔ ∃ e, q.entries.lookup p = some e ∧ Returns c nowMs p e := by
  rw [queue_restart h htimed, List.mem_map]
  constructor
  · rintro ⟨⟨p, t⟩, hrow, rfl⟩
    obtain ⟨e, he, -, -, rfl⟩ := (mem_waitingRows h hnoted).mp (mem_returningRows.mp hrow).1
    exact ⟨e, he, (mem_returningRows_iff h hnoted he).mp hrow⟩
  · rintro ⟨e, he, hreturns⟩
    exact ⟨_, (mem_returningRows_iff h hnoted he).mpr hreturns, rfl⟩

/-- **Which of two players comes back first** — the one who entered first, by the clock; of two with one
time, the one whom the snapshot comes upon first. -/
theorem before_restart (h : Placed q held) (htimed : q.Timed) (hnoted : q.Noted) {e e' : Entry}
    (he : q.entries.lookup p = some e) (hreturns : Returns c nowMs p e)
    (he' : q.entries.lookup p' = some e') (hreturns' : Returns c nowMs p' e') (hne : p ≠ p') :
    Before (restart c nowMs q).queue p p' ↔
      e.queuedAtMs < e'.queuedAtMs ∨ e.queuedAtMs = e'.queuedAtMs ∧ q.Ahead p p' := by
  have hrow := (mem_returningRows_iff h hnoted he).mpr hreturns
  have hrow' := (mem_returningRows_iff h hnoted he').mpr hreturns'
  have hrows : (p, e.queuedAtMs) ≠ (p', e'.queuedAtMs) := fun heq => hne (congrArg Prod.fst heq)
  have hmap : Before (restart c nowMs q).queue p p' ↔
      Before (returningRows c nowMs q) (p, e.queuedAtMs) (p', e'.queuedAtMs) := by
    rw [queue_restart h htimed]
    exact before_map_iff (nodup_returningRows h) hrow hrow' hrows
  rw [hmap, before_returningRows h hrow hrow' hrows,
    before_waitingRows h (mem_returningRows.mp hrow).1 (mem_returningRows.mp hrow').1 hne]
  constructor
  · rintro (hlt | ⟨hle, hahead⟩)
    · exact .inl hlt
    · rcases hle.lt_or_eq with hlt | heq
      · exact .inl hlt
      · exact .inr ⟨heq, hahead⟩
  · rintro (hlt | ⟨heq, hahead⟩)
    · exact .inl hlt
    · exact .inr ⟨heq.le, hahead⟩

end MatchQueue

namespace MatchSystem

open MatchQueue

variable {s : MatchSystem} {w : List String} {a : Action}

/-! ## The order in which waiting began

The players in the order of the calls that let them in, as nothing in the code keeps it. -/

/-- The players in the order in which their waiting began, after one action: an `Enqueue` that is accepted
begins it. -/
def began (c : MatchConfig) (s : MatchSystem) (w : List String) (a : Action) : List String :=
  match s.resumed a with
  | some (.enqueue playerId requestId nowMs) =>
    if (s.queue.enqueueLocked c nowMs playerId requestId).1 = .queued then w.erase playerId ++ [playerId]
    else w
  | _ => w

/-- What a program reaches, as in `Reached`, with the players in the order in which their waiting began. -/
inductive Begun : MatchConfig → MatchSystem → List String → Prop
  | start (c : MatchConfig) : Begun c {} []
  | restored {c₀ : MatchConfig} {s : MatchSystem} {w : List String} (h : Begun c₀ s w) (c : MatchConfig)
      (nowMs : Int) {rows : List MatchQueueSnapshotRow} (hrows : s.queue.makeSnapshot.holds rows) :
      Begun c (next c {} (.restore (some rows) nowMs)) w
  | step {c : MatchConfig} {s : MatchSystem} {w : List String} (h : Begun c s w) {a : Action}
      (hserves : a.serves = true) : Begun c (s.next c a) (began c s w a)

theorem Begun.reached (h : Begun c s w) : Reached (fun _ _ => True) c s := by
  induction h with
  | start c => exact .start c
  | restored h c nowMs hrows ih => exact .restored ih c nowMs hrows
  | step h hserves ih => exact .step ih hserves trivial

/-- Every state that is reached is reached in some order. -/
theorem Reached.begun {G : MatchSystem → Action → Prop} (h : Reached G c s) : ∃ w, Begun c s w := by
  induction h with
  | start c => exact ⟨[], .start c⟩
  | restored h c nowMs hrows ih => exact ih.imp fun w hw => hw.restored c nowMs hrows
  | step h hserves hG ih =>
    obtain ⟨w, hw⟩ := ih
    exact ⟨_, hw.step hserves⟩

theorem Begun.nodup (h : Begun c s w) : w.Nodup := by
  induction h with
  | start c => exact List.nodup_nil
  | restored h c nowMs hrows ih => exact ih
  | step h hserves ih =>
    unfold began
    split
    · split
      · refine (ih.erase _).append (List.nodup_singleton _) ?_
        exact List.disjoint_singleton.mpr ih.not_mem_erase
      · exact ih
    · exact ih

theorem mem_began (h : p ∈ w) : p ∈ began c s w a := by
  unfold began
  split
  case h_1 player request nowMs _ =>
    split
    · by_cases hp : p = player
      · exact List.mem_append_right _ (hp ▸ List.mem_singleton_self _)
      · exact List.mem_append_left _ ((List.mem_erase_of_ne hp).mpr h)
    · exact h
  · exact h

theorem mem_began_of_answers (h : Answers c s a p .queued) : p ∈ began c s w a := by
  obtain ⟨requestId, nowMs, hresumed, hout⟩ := h
  rw [began, hresumed]
  dsimp only
  rw [if_pos hout]
  exact List.mem_append_right _ (List.mem_singleton_self _)

/-- Whoever waits has begun to. -/
theorem mem_of_began (h : Sound s)
    (hw : ∀ p e, s.queue.entries.lookup p = some e → e.state = .queued → p ∈ w) {e : Entry}
    (he : (s.next c a).queue.entries.lookup p = some e) (hs : e.state = .queued)
    (hserves : a.serves = true) : p ∈ began c s w a := by
  have hstep := entry_next (c := c) h a p
  generalize hafter : (s.next c a).queue.entries.lookup p = after at hstep he
  generalize hbefore : s.queue.entries.lookup p = before at hstep
  -- A sweep makes nobody wait.
  have hswept : ∀ {nowMs x}, before.bind (Entry.swept c nowMs) = some x → x.state = .queued →
      p ∈ began c s w a := by
    intro nowMs x hx hq
    obtain ⟨y, hy, hswept⟩ := Option.bind_eq_some_iff.mp hx
    rcases Entry.of_swept hswept with rfl | ⟨rfl, -⟩
    · exact mem_began (hw p _ (hbefore.trans hy) hq)
    · cases hq
  cases hstep with
  | same => exact mem_began (hw p e (hbefore.trans he) hs)
  | swept nowMs hnow => exact hswept he hs
  | entered _ nowMs henters hsweeps hfree =>
    obtain ⟨requestId, hresumed⟩ := resumed_of_enters henters hsweeps
    obtain ⟨answer, hnext⟩ := queue_next_of_resumed (c := c) hresumed
    rw [hnext, Pc.resume] at hafter
    rcases h.placed.enqueueLocked_cases c nowMs p requestId with
      ⟨hqueued, -⟩ | ⟨-, x, hx, hknown, -⟩ | ⟨-, hsame⟩
    · exact mem_began_of_answers ⟨requestId, nowMs, hresumed, hqueued⟩
    · rw [hbefore] at hx
      exact absurd hknown (not_or.mpr (hfree x hx))
    · rw [hbefore] at hsame
      exact hswept (hsame.symm.trans (hafter.trans he)) hs
  | cancelled nowMs ha x hx hq => exact hswept hx hq
  | taken _ g hg hp x hx hq => exact mem_began (hw p x (hbefore.trans hx) hq)
  | committed _ g roomId nowMs hcommits hp x hx hq => exact mem_began (hw p x (hbefore.trans hx) hq)
  | restored rows nowMs ha hnone =>
    rw [ha] at hserves
    cases hserves

theorem of_mem_queuedRows {rows : List MatchQueueSnapshotRow} {row : String × Int}
    (h : row ∈ queuedRows rows) : ∃ r ∈ rows, r.problem = "" ∧ r.entry = .queued row.1 row.2 := by
  rw [queuedRows, List.mem_insertionSort, List.mem_filterMap] at h
  obtain ⟨⟨entry, problem⟩, hin, hsome⟩ := h
  cases entry
  case matched => cases hsome
  obtain ⟨hok, hsome⟩ := Option.ite_none_right_eq_some.mp hsome
  cases hsome
  exact ⟨_, hin, hok, rfl⟩

/-- Whoever waits after a restart was waiting before it. -/
theorem queued_of_restored {q : MatchQueue} {rows : List MatchQueueSnapshotRow}
    (hrows : q.makeSnapshot.holds rows) {e : Entry}
    (he : (next c {} (.restore (some rows) nowMs)).queue.entries.lookup p = some e) (hs : e.state = .queued) :
    ∃ e', q.entries.lookup p = some e' ∧ e'.state = .queued := by
  have hplaced : Placed (next c {} (.restore (some rows) nowMs)).queue
      (inGroups (next c {} (.restore (some rows) nowMs)).inFlight) := (Sound.start.next _).placed
  rw [inFlight_restored] at hplaced
  have hqueue : p ∈ (next c {} (.restore (some rows) nowMs)).queue.queue := by
    rcases hplaced p with ⟨he', -⟩ | ⟨-, -, -, -, hn, -⟩ | ⟨-, -, -, -, -, hheld⟩ | ⟨e', he', hs', -⟩
    · cases he.symm.trans he'
    · exact List.count_pos_iff.mp (by omega)
    · cases hheld
    · obtain rfl := Option.some.inj (he.symm.trans he')
      exact absurd hs hs'
  rw [next] at hqueue
  split at hqueue
  case isFalse => cases hqueue
  case isTrue =>
    have hlined := lined_restoreRows c nowMs rows
      { scanned := rows.length, dropped := (rows.filter (·.problem ≠ "")).length }
    have hswept : p ∈ (({} : MatchQueue).restoreRows c nowMs rows _).2.queue :=
      hlined.queue_sweep ▸ hqueue
    obtain ⟨row, hrow, rfl, -⟩ := hlined p hswept
    obtain ⟨r, hr, hok, hentry⟩ := of_mem_queuedRows hrow
    have hsaved := hrows r hr hok
    rw [hentry] at hsaved
    rcases List.mem_append.mp hsaved with hwaits | hresult
    · obtain ⟨p', e', heq, he', hs', -⟩ := mem_queued_makeSnapshot.mp hwaits
      obtain ⟨rfl, -⟩ := MatchQueueEntry.queued.inj heq
      exact ⟨e', he', hs'⟩
    · obtain ⟨es, heq, -⟩ := matched_makeSnapshot q
      rw [heq] at hresult
      obtain ⟨x, -, hx⟩ := List.mem_map.mp hresult
      cases hx

/-- **Whoever waits has begun to.** -/
theorem Begun.mem (h : Begun c s w) {e : Entry} (he : s.queue.entries.lookup p = some e)
    (hs : e.state = .queued) : p ∈ w := by
  induction h generalizing p e with
  | start c => cases he
  | restored h c nowMs hrows ih =>
    obtain ⟨e', he', hs'⟩ := queued_of_restored hrows he hs
    exact ih he' hs'
  | step h hserves ih => exact mem_of_began h.reached.sound (fun p e => ih) he hs hserves

/-! ## First come, first served

The restart goes by the times, and by the snapshot where these are the same; so it keeps that order as long as
both of them do. -/

/-- **The condition** — of two players who come back, the one who began to wait first has the earlier time;
or they have one time, and the snapshot comes upon him first. -/
def InOrder (c : MatchConfig) (nowMs : Int) (q : MatchQueue) (w : List String) : Prop :=
  ∀ p e, q.entries.lookup p = some e → ∀ p' e', q.entries.lookup p' = some e' →
    Returns c nowMs p e → Returns c nowMs p' e' → Before w p p' →
      e.queuedAtMs < e'.queuedAtMs ∨ e.queuedAtMs = e'.queuedAtMs ∧ q.Ahead p p'

instance {q : MatchQueue} : Decidable (InOrder c nowMs q w) :=
  have (p : String) (e : Entry) : Decidable (∀ p' e', q.entries.lookup p' = some e' →
      Returns c nowMs p e → Returns c nowMs p' e' → Before w p p' →
        e.queuedAtMs < e'.queuedAtMs ∨ e.queuedAtMs = e'.queuedAtMs ∧ q.Ahead p p') := inferInstance
  inferInstanceAs (Decidable (∀ p e, q.entries.lookup p = some e → ∀ _ _, _))

/-- Whoever comes back stands in the queue as he began to wait. -/
def Fifo (c : MatchConfig) (nowMs : Int) (q : MatchQueue) (w : List String) : Prop :=
  ∀ p ∈ (q.restart c nowMs).queue, ∀ p' ∈ (q.restart c nowMs).queue, p ≠ p' →
    (Before (q.restart c nowMs).queue p p' ↔ Before w p p')

/-- A queue of which everybody who waits is in `w`. -/
structure Orderly (q : MatchQueue) (w : List String) : Prop where
  placed : ∃ held, Placed q held
  timed : q.Timed
  noted : q.Noted
  nodup : w.Nodup
  mem : ∀ p e, q.entries.lookup p = some e → e.state = .queued → p ∈ w

variable {q : MatchQueue}

theorem Orderly.fifo (h : Orderly q w) (hinOrder : InOrder c nowMs q w) : Fifo c nowMs q w := by
  obtain ⟨held, hplaced⟩ := h.placed
  intro p hp p' hp' hne
  obtain ⟨e, he, hreturns⟩ := (mem_queue_restart hplaced h.timed h.noted).mp hp
  obtain ⟨e', he', hreturns'⟩ := (mem_queue_restart hplaced h.timed h.noted).mp hp'
  constructor
  · intro hbefore
    rcases Before.total (h.mem p e he hreturns.1) (h.mem p' e' he' hreturns'.1) hne with hw | hw
    · exact hw
    · have hafter := hinOrder p' e' he' p e he hreturns' hreturns hw
      have hnodup : (q.restart c nowMs).queue.Nodup := (Placed.start.restoreLocked _).nodup
      exact absurd ((before_restart hplaced h.timed h.noted he' hreturns' he hreturns hne.symm).mpr hafter)
        (hbefore.asymm hnodup)
  · exact fun hbefore => (before_restart hplaced h.timed h.noted he hreturns he' hreturns' hne).mpr
      (hinOrder p e he p' e' he' hreturns hreturns' hbefore)

theorem Orderly.inOrder (h : Orderly q w) (hfifo : Fifo c nowMs q w) : InOrder c nowMs q w := by
  obtain ⟨held, hplaced⟩ := h.placed
  intro p e he p' e' he' hreturns hreturns' hbefore
  have hne : p ≠ p' := by
    rintro rfl
    exact hbefore.asymm h.nodup hbefore
  have hp := (mem_queue_restart hplaced h.timed h.noted).mpr ⟨e, he, hreturns⟩
  have hp' := (mem_queue_restart hplaced h.timed h.noted).mpr ⟨e', he', hreturns'⟩
  exact (before_restart hplaced h.timed h.noted he hreturns he' hreturns' hne).mp
    ((hfifo p hp p' hp' hne).mpr hbefore)

/-- The map may have its entries in any order. -/
theorem Begun.orderly (h : Begun c s w) (htimed : s.queue.Timed) {entries : Table String Entry}
    (hsame : ∀ p, entries.lookup p = s.queue.entries.lookup p) :
    Orderly { s.queue with entries := entries } w where
  placed := by
    refine ⟨inGroups s.inFlight, fun p => ?_⟩
    dsimp only
    rw [hsame]
    exact h.reached.sound p
  timed p e he := htimed p e ((hsame p).symm.trans he)
  noted p e he := h.reached.notedOnly p e ((hsame p).symm.trans he)
  nodup := h.nodup
  mem p e he := h.mem ((hsame p).symm.trans he)

/-- **First come, first served, across a restart** — exactly if the condition holds, in whatever order the
map has its entries. -/
theorem fifo_iff {c₀ : MatchConfig} (h : Begun c₀ s w) (htimed : s.queue.Timed)
    {entries : Table String Entry} (hsame : ∀ p, entries.lookup p = s.queue.entries.lookup p)
    (c : MatchConfig) (nowMs : Int) :
    Fifo c nowMs { s.queue with entries := entries } w ↔
      InOrder c nowMs { s.queue with entries := entries } w :=
  ⟨(h.orderly htimed hsame).inOrder, (h.orderly htimed hsame).fifo⟩

/-- A run in service. -/
def begins (c : MatchConfig) (s : MatchSystem) (w : List String) : List Action → List String
  | [] => w
  | a :: as => begins c (s.next c a) (began c s w a) as

theorem Begun.run (h : Begun c s w) {as : List Action} (hserves : ∀ a ∈ as, a.serves = true) :
    Begun c (as.foldl (next c) s) (begins c s w as) := by
  induction as generalizing s w with
  | nil => exact h
  | cons a as ih =>
    exact ih (h.step (hserves a List.mem_cons_self)) fun b hb => hserves b (List.mem_cons_of_mem _ hb)

/-- Alice and Bob are in flight, who entered at `t` and `t'`, and Carol enters at `t''`. -/
def carolEnters (t t' t'' : Int) : List Action :=
  [.enqueue "alice" "q-1" t, .resume 0 {}, .enqueue "bob" "q-2" t', .resume 1 {}, .resume 0 {},
    .resume 0 ⟨["m-1"], "", true, 0⟩, .enqueue "carol" "q-3" t'', .resume 2 {}]

theorem fifo_iff_carolEnters : Fifo {} 2000 ((carolEnters 1000 1001 1002).foldl (next {}) {}).queue
    ["alice", "bob", "carol"] := by
  have hrun : ∀ a ∈ carolEnters 1000 1001 1002, a.serves = true := by decide
  have hbegun : Begun {} ((carolEnters 1000 1001 1002).foldl (next {}) {}) ["alice", "bob", "carol"] :=
    (Begun.start {}).run hrun
  exact (fifo_iff hbegun (by decide) (fun _ => rfl) {} 2000).mpr (by decide)

/-- Of three who enter in one millisecond, Carol comes back first, in whatever order the map has them. -/
theorem not_fifo : ¬∀ (c₀ : MatchConfig) (s : MatchSystem) (w : List String), Begun c₀ s w →
    s.queue.Timed → ∀ (c : MatchConfig) (nowMs : Int), ∃ entries : Table String Entry,
      (∀ p, entries.lookup p = s.queue.entries.lookup p) ∧
      Fifo c nowMs { s.queue with entries := entries } w := by
  intro hclaim
  have hrun : ∀ a ∈ carolEnters 1000 1000 1000, a.serves = true := by decide
  have hbegun : Begun {} ((carolEnters 1000 1000 1000).foldl (next {}) {}) ["alice", "bob", "carol"] :=
    (Begun.start {}).run hrun
  have htimed : ((carolEnters 1000 1000 1000).foldl (next {}) {}).queue.Timed := by decide
  obtain ⟨entries, hsame, hfifo⟩ := hclaim {} _ _ hbegun htimed {} 2000
  have hout : "alice" ∉ ((carolEnters 1000 1000 1000).foldl (next {}) {}).queue.queue := by decide
  have hin : "carol" ∈ ((carolEnters 1000 1000 1000).foldl (next {}) {}).queue.queue := by decide
  have hearlier := (hbegun.orderly htimed hsame).inOrder hfifo "alice" _ (hsame "alice") "carol" _
    (hsame "carol") (by decide) (by decide) (by decide)
  rcases hearlier with hlt | ⟨-, hqueue | ⟨hqueue, -⟩ | ⟨-, hqueue, -⟩⟩
  · exact absurd hlt (by decide)
  · exact hout hqueue.left
  · exact hout hqueue
  · exact hqueue hin

end MatchSystem

end RealtimeGame.Match
