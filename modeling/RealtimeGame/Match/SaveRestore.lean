import RealtimeGame.Match.CancelLaws
import RealtimeGame.Match.MatchQueueStore

/-!
# Match/SaveRestore — a queue that is saved and restored

A snapshot has each waiting player once and each match once, so that a restart finds every row new: it
drops none, and leaves out only those whose time is over (`save_restore`).
-/

open Library

namespace RealtimeGame.Match

open MatchQueue (record ofQueued ofMatched)
open MatchQueueStore (encodeMatchQueueEntry decodeMatchQueueEntry validIdentifier fits)

variable {c : MatchConfig} {q : MatchQueue} {nowMs : Int} {p : String}

/-! ## Rows that are new

A row is dropped only where something of it is there already. -/

namespace MatchQueue

/-- A waiting player who is new. -/
theorem restoreQueued_new {acc : MatchRestoreReport × MatchQueue} {row : String × Int}
    (hnew : acc.2.entries.lookup row.1 = none) :
    (restoreQueued c nowMs acc row).1.dropped = acc.1.dropped ∧
    ∀ p e, (restoreQueued c nowMs acc row).2.entries.lookup p = some e ↔
      acc.2.entries.lookup p = some e ∨
        row.1 = p ∧ nowMs - row.2 < c.matchTimeoutMs ∧ e = ofQueued row := by
  unfold restoreQueued
  rw [hnew, Option.isSome_none, if_neg Bool.false_ne_true]
  split
  case isTrue hlate =>
    refine ⟨rfl, fun p e => ⟨.inl, fun h => h.resolve_right fun hin => ?_⟩⟩
    exact absurd hin.2.1 (not_lt.mpr hlate)
  case isFalse hin =>
    refine ⟨rfl, fun p e => ?_⟩
    dsimp only
    rw [Table.lookup_insert']
    by_cases hp : p = row.1
    · subst hp
      rw [if_pos rfl, hnew, Option.some.injEq]
      exact ⟨fun h => .inr ⟨rfl, not_le.mp hin, h.symm⟩, fun h => (h.resolve_left fun h => by cases h).2.2.symm⟩
    · rw [if_neg hp]
      exact ⟨.inl, fun h => h.resolve_right fun h => hp h.1.symm⟩

/-- A match of which all players are new. -/
theorem restoreMatched_new {acc : MatchRestoreReport × MatchQueue}
    {row : String × String × List String × Int}
    (hnew : ∀ p ∈ row.2.2.1, acc.2.entries.lookup p = none) :
    (restoreMatched c nowMs acc row).1.dropped = acc.1.dropped ∧
    ∀ p e, (restoreMatched c nowMs acc row).2.entries.lookup p = some e ↔
      acc.2.entries.lookup p = some e ∨
        p ∈ row.2.2.1 ∧ nowMs - row.2.2.2 < c.resultTtlMs ∧ e = ofMatched row := by
  unfold restoreMatched
  split
  case isTrue hlate =>
    refine ⟨rfl, fun p e => ⟨.inl, fun h => h.resolve_right fun hin => ?_⟩⟩
    exact absurd hin.2.1 (not_lt.mpr hlate)
  case isFalse hin =>
    have hnone : (row.2.2.1.any fun p => (acc.2.entries.lookup p).isSome) = false := by
      rw [List.any_eq_false]
      intro p hp
      rw [hnew p hp]
      exact Bool.false_ne_true
    rw [if_neg (Bool.eq_false_iff.mp hnone)]
    refine ⟨rfl, fun p e => ?_⟩
    dsimp only
    rw [lookup_foldl_restorePlayer]
    by_cases hp : p ∈ row.2.2.1
    · rw [hnew p hp, if_pos hp, Option.none_or, Option.some.injEq]
      exact ⟨fun h => .inr ⟨hp, not_le.mp hin, h.symm⟩, fun h => (h.resolve_left fun h => by cases h).2.2.symm⟩
    · rw [if_neg hp, Option.or_none]
      exact ⟨.inl, fun h => h.resolve_right fun h => hp h.1⟩

/-- **A restart from rows that do not collide** drops none of them, and brings back those whose time is not
over. -/
theorem lookup_restoreLocked_new (c : MatchConfig) (nowMs : Int) {rows : List MatchQueueSnapshotRow}
    (hproblem : ∀ row ∈ rows, row.problem = "")
    (hnodup : ((queuedRows rows).map Prod.fst).Nodup)
    (hapart : (matchedRows rows).Pairwise fun row row' => ∀ p, p ∈ row.2.2.1 → p ∉ row'.2.2.1)
    (hnew : ∀ row ∈ matchedRows rows, ∀ p ∈ row.2.2.1, p ∉ (queuedRows rows).map Prod.fst) :
    (({} : MatchQueue).restoreLocked c nowMs rows).1.dropped = 0 ∧
    ∀ p e, (({} : MatchQueue).restoreLocked c nowMs rows).2.entries.lookup p = some e ↔
      (∃ row ∈ queuedRows rows, row.1 = p ∧ nowMs - row.2 < c.matchTimeoutMs ∧ e = ofQueued row) ∨
      ∃ row ∈ matchedRows rows, p ∈ row.2.2.1 ∧ nowMs - row.2.2.2 < c.resultTtlMs ∧
        e = ofMatched row := by
  have hdropped : (rows.filter (·.problem ≠ "")).length = 0 := by
    rw [List.length_eq_zero_iff, List.filter_eq_nil_iff]
    intro row hrow
    simp [hproblem row hrow]
  have hqueued := fun acc => Table.foldl_new (fun acc : MatchRestoreReport × MatchQueue => acc.1.dropped)
    (fun acc p e => acc.2.entries.lookup p = some e) (fun row p => row.1 = p)
    (fun row p e => row.1 = p ∧ nowMs - row.2 < c.matchTimeoutMs ∧ e = ofQueued row)
    (fun _ _ _ h => h.1)
    (fun acc row hnone => restoreQueued_new (c := c)
      (Option.eq_none_iff_forall_ne_some.mpr fun e => hnone row.1 e rfl))
    ((List.pairwise_map.mp hnodup).imp fun hne p h h' => hne (h.trans h'.symm)) acc
  have hmatched := fun acc => Table.foldl_new (fun acc : MatchRestoreReport × MatchQueue => acc.1.dropped)
    (fun acc p e => acc.2.entries.lookup p = some e) (fun row p => p ∈ row.2.2.1)
    (fun row p e => p ∈ row.2.2.1 ∧ nowMs - row.2.2.2 < c.resultTtlMs ∧ e = ofMatched row)
    (fun _ _ _ h => h.1)
    (fun acc row hnone => restoreMatched_new (c := c)
      fun p hp => Option.eq_none_iff_forall_ne_some.mpr fun e => hnone p e hp)
    hapart acc
  obtain ⟨hsame, hrows⟩ := hqueued ({ scanned := rows.length, dropped := 0 }, {})
    fun _ _ _ _ _ h => by cases h
  obtain ⟨hsame', hrows'⟩ := hmatched _ fun row hrow p e hp he => by
    obtain ⟨row', hrow', rfl, -⟩ := ((hrows p e).mp he).resolve_left nofun
    exact hnew row hrow _ hp (List.mem_map_of_mem hrow')
  refine ⟨?_, fun p e => ?_⟩
  · rw [restoreLocked, hdropped]
    exact hsame'.trans hsame
  · rw [Placed.start.lookup_restoreLocked, hdropped, Option.bind_eq_some_iff]
    have hlookup : ∀ x, (({} : MatchQueue).restoreRows c nowMs rows
        { scanned := rows.length, dropped := 0 }).2.entries.lookup p = some x ↔
        (∃ row ∈ queuedRows rows, row.1 = p ∧ nowMs - row.2 < c.matchTimeoutMs ∧ x = ofQueued row) ∨
        ∃ row ∈ matchedRows rows, p ∈ row.2.2.1 ∧ nowMs - row.2.2.2 < c.resultTtlMs ∧
          x = ofMatched row := by
      intro x
      refine (hrows' p x).trans (or_congr_left ?_)
      exact (hrows p x).trans (or_iff_right nofun)
    -- The sweep at the end finds nothing to settle.
    have hkept : ∀ x, (({} : MatchQueue).restoreRows c nowMs rows
        { scanned := rows.length, dropped := 0 }).2.entries.lookup p = some x →
        x.swept c nowMs = some x := by
      intro x hx
      rcases (hlookup x).mp hx with ⟨row, -, -, hin, rfl⟩ | ⟨row, -, -, hin, rfl⟩
      · exact Entry.swept_of_queued rfl (not_le.mpr hin)
      · rw [Entry.swept_of_matched rfl]
        exact if_neg (not_le.mpr hin)
    rw [← hlookup]
    constructor
    · rintro ⟨x, hx, hswept⟩
      rw [hkept x hx] at hswept
      exact hx.trans hswept
    · exact fun he => ⟨e, he, hkept e he⟩

/-! ## What is written

The rows of the players who wait, then those of the matches. -/

/-- The lines of a snapshot, as `Save` writes them. -/
def savedLines (q : MatchQueue) : List (List UInt8) :=
  (q.makeSnapshot.queued ++ q.makeSnapshot.matched).filterMap encodeMatchQueueEntry

/-- The rows that `Load` makes of them. -/
def loadedRows (q : MatchQueue) : List MatchQueueSnapshotRow := q.savedLines.map decodeMatchQueueEntry

/-- The ids and times that a line can hold. -/
def Storable (q : MatchQueue) : Prop :=
  ∀ p e, q.entries.lookup p = some e → validIdentifier p = true ∧
    (e.state = .queued → 0 < e.queuedAtMs ∧ fits e.queuedAtMs = true) ∧
    (e.state = .matched → validIdentifier e.matchId = true ∧ validIdentifier e.roomId = true ∧
      0 < e.stampMs ∧ fits e.stampMs = true)

instance : Decidable q.Storable :=
  inferInstanceAs (Decidable (∀ p e, q.entries.lookup p = some e → _ ∧ (_ → _) ∧ (_ → _)))

/-- The times that an `int64_t` can hold. -/
def Timed (q : MatchQueue) : Prop :=
  ∀ p e, q.entries.lookup p = some e →
    (e.state = .queued → fits e.queuedAtMs = true) ∧ (e.state = .matched → fits e.stampMs = true)

instance : Decidable q.Timed :=
  inferInstanceAs (Decidable (∀ p e, q.entries.lookup p = some e → (_ → _) ∧ (_ → _)))

theorem Storable.timed (h : q.Storable) : q.Timed := fun p e he =>
  ⟨fun hs => ((h p e he).2.1 hs).2, fun hs => ((h p e he).2.2 hs).2.2.2⟩

/-- A match id names one group. -/
def IdsUnique (q : MatchQueue) : Prop :=
  ∀ p e, q.entries.lookup p = some e → ∀ p' e', q.entries.lookup p' = some e' →
    e.state = .matched → e'.state = .matched → e.matchId = e'.matchId → e.playerIds = e'.playerIds

instance : Decidable q.IdsUnique :=
  have (e : Entry) : Decidable (∀ p' e', q.entries.lookup p' = some e' → e.state = .matched →
      e'.state = .matched → e.matchId = e'.matchId → e.playerIds = e'.playerIds) := inferInstance
  inferInstanceAs (Decidable (∀ p e, q.entries.lookup p = some e → ∀ _ _, _))

/-- The row of a match. -/
def rowOf (e : Entry) : String × String × List String × Int :=
  (e.matchId, e.roomId, e.playerIds, e.stampMs)

/-- Who waits, with the time of entering, in the order of the snapshot. -/
def waitingRows (q : MatchQueue) : List (String × Int) :=
  (q.queue.filterMap fun p => (q.entries.lookup p).bind fun e =>
    if e.state = .queued then some (p, e.queuedAtMs) else none) ++
  q.entries.toPairs.filterMap fun e =>
    if e.2.state = .queued ∧ e.2.allocating ∧ !e.2.cancelRequested then some (e.1, e.2.queuedAtMs)
    else none

theorem queued_makeSnapshot (q : MatchQueue) :
    q.makeSnapshot.queued = q.waitingRows.map fun row => .queued row.1 row.2 := by
  rw [waitingRows, List.map_append, List.map_filterMap, List.map_filterMap]
  refine congrArg₂ (· ++ ·) ?_ ?_
  · refine List.filterMap_congr fun p _ => ?_
    rw [Option.map_bind]
    refine congrArg (Option.bind (q.entries.lookup p)) (funext fun e => ?_)
    rw [Function.comp_apply]
    split <;> rfl
  · refine List.filterMap_congr fun e _ => ?_
    split <;> rfl

theorem map_filterMap_sublist {α β κ : Type*} {f : α → Option β} {k : α → κ} {k' : β → κ}
    (h : ∀ a b, f a = some b → k' b = k a) (l : List α) :
    ((l.filterMap f).map k').Sublist (l.map k) := by
  induction l with
  | nil => exact .slnil
  | cons a l ih =>
    rw [List.filterMap_cons, List.map_cons]
    split
    · exact ih.cons _
    case h_2 b hb =>
      rw [List.map_cons, h a b hb]
      exact ih.cons_cons _

/-- A snapshot lists nobody twice. -/
theorem nodup_waitingRows {held : String → Nat} (h : Placed q held) :
    (q.waitingRows.map Prod.fst).Nodup := by
  rw [waitingRows, List.map_append, List.nodup_append']
  refine ⟨?_, ?_, fun p hqueue hallocating => ?_⟩
  · have hids : (q.queue.map id).Nodup := by
      rw [List.map_id]
      exact h.nodup
    refine hids.sublist (map_filterMap_sublist (fun p row hrow => ?_) _)
    obtain ⟨e, -, hrow⟩ := Option.bind_eq_some_iff.mp hrow
    obtain ⟨-, hrow⟩ := Option.ite_none_right_eq_some.mp hrow
    cases hrow
    rfl
  · refine q.entries.nodup_toPairs.sublist (map_filterMap_sublist (fun e row hrow => ?_) _)
    obtain ⟨-, hrow⟩ := Option.ite_none_right_eq_some.mp hrow
    cases hrow
    rfl
  · -- Whoever is in the queue is not being allocated.
    obtain ⟨row, hrow, rfl⟩ := List.mem_map.mp hqueue
    obtain ⟨row', hrow', heq⟩ := List.mem_map.mp hallocating
    obtain ⟨p, hp, hsome⟩ := List.mem_filterMap.mp hrow
    obtain ⟨⟨p', e'⟩, he', hsome'⟩ := List.mem_filterMap.mp hrow'
    obtain ⟨e, -, hsome⟩ := Option.bind_eq_some_iff.mp hsome
    obtain ⟨-, hsome⟩ := Option.ite_none_right_eq_some.mp hsome
    obtain ⟨⟨-, ha', -⟩, hsome'⟩ := Option.ite_none_right_eq_some.mp hsome'
    cases hsome
    cases hsome'
    obtain rfl : p' = p := heq
    obtain ⟨x, hx, -, ha, -⟩ := h.of_mem hp
    obtain rfl := Option.some.inj ((Table.mem_toPairs.mp he').symm.trans hx)
    cases ha'.symm.trans ha

theorem of_mem_waitingRows {row : String × Int} (hrow : row ∈ q.waitingRows) :
    ∃ e, q.entries.lookup row.1 = some e ∧ e.state = .queued ∧ e.queuedAtMs = row.2 := by
  have hsaved : MatchQueueEntry.queued row.1 row.2 ∈ q.makeSnapshot.queued := by
    rw [queued_makeSnapshot]
    exact List.mem_map_of_mem hrow
  obtain ⟨p, e, hrow, he, hs, -⟩ := mem_queued_makeSnapshot.mp hsaved
  obtain ⟨hp, ht⟩ := MatchQueueEntry.queued.inj hrow
  exact ⟨e, hp ▸ he, hs, ht.symm⟩

/-- Who is listed as waiting. -/
theorem mem_waitingRows {held : String → Nat} (h : Placed q held)
    (hnoted : ∀ p e, q.entries.lookup p = some e → e.cancelRequested = true → e.allocating = true) {t : Int} :
    (p, t) ∈ q.waitingRows ↔ ∃ e, q.entries.lookup p = some e ∧ e.state = .queued ∧
      e.cancelRequested = false ∧ e.queuedAtMs = t := by
  have hmem : (p, t) ∈ q.waitingRows ↔ MatchQueueEntry.queued p t ∈ q.makeSnapshot.queued := by
    rw [queued_makeSnapshot, List.mem_map]
    constructor
    · exact fun hrow => ⟨(p, t), hrow, rfl⟩
    · rintro ⟨row, hrow, heq⟩
      cases heq
      exact hrow
  rw [hmem, mem_queued_makeSnapshot]
  constructor
  · rintro ⟨p', e, heq, he, hs, hin⟩
    cases heq
    refine ⟨e, he, hs, ?_, rfl⟩
    rcases hin with hqueue | ⟨-, hstays⟩
    · obtain ⟨e', he', -, ha, -⟩ := h.of_mem hqueue
      obtain rfl := Option.some.inj (he.symm.trans he')
      refine Bool.eq_false_iff.mpr fun hcancel => ?_
      cases (hnoted p _ he hcancel).symm.trans ha
    · exact hstays
  · rintro ⟨e, he, hs, hstays, rfl⟩
    refine ⟨p, e, rfl, he, hs, ?_⟩
    rcases h p with ⟨he', -⟩ | ⟨e', he', -, -, hn, -⟩ | ⟨e', he', -, ha, -⟩ | ⟨e', he', hs', -⟩
    · cases he.symm.trans he'
    · exact .inl (List.count_pos_iff.mp (by omega))
    · obtain rfl := Option.some.inj (he.symm.trans he')
      exact .inr ⟨ha, hstays⟩
    · obtain rfl := Option.some.inj (he.symm.trans he')
      exact absurd hs hs'

/-- A row that can be written. -/
def storableRow (row : String × Int) : Bool := validIdentifier row.1 && 0 < row.2

/-- **What is read back of those who wait**, in the order of their times. -/
theorem queuedRows_loadedRows (htimed : q.Timed) :
    queuedRows q.loadedRows = (q.waitingRows.filter storableRow).insertionSort fun a b => a.2 ≤ b.2 := by
  obtain ⟨es, heq, -, hes, -⟩ := matched_makeSnapshot q
  rw [queuedRows, loadedRows, savedLines, List.filterMap_map, List.filterMap_filterMap,
    List.filterMap_append, queued_makeSnapshot, heq, List.filterMap_map, List.filterMap_map,
    ← List.append_nil (q.waitingRows.filter storableRow), ← List.filterMap_eq_filter]
  refine congrArg (List.insertionSort _) (congrArg₂ (· ++ ·) ?_ (List.filterMap_eq_nil_iff.mpr ?_))
  · refine List.filterMap_congr fun row hrow => ?_
    have hfits : MatchQueueStore.Fits (.queued row.1 row.2) := by
      obtain ⟨e, he, hs, htime⟩ := of_mem_waitingRows hrow
      exact htime ▸ (htimed row.1 e he).1 hs
    have hvalid : storableRow row = true ↔
        MatchQueueStore.validateEntry (.queued row.1 row.2) = none := by
      rw [MatchQueueStore.validateEntry_queued, storableRow, Bool.and_eq_true, decide_eq_true_eq]
    rw [Function.comp_apply]
    by_cases hrow : storableRow row = true
    · obtain ⟨line, hline⟩ := MatchQueueStore.exists_line (hvalid.mp hrow)
      rw [Option.guard, if_pos hrow, hline, Option.bind_some, Function.comp_apply,
        MatchQueueStore.decode_encode hfits hline]
      rfl
    · have hnone : encodeMatchQueueEntry (.queued row.1 row.2) = none := by
        rw [encodeMatchQueueEntry, if_pos]
        exact Option.isSome_iff_ne_none.mpr fun hnone => hrow (hvalid.mpr hnone)
      rw [Option.guard, if_neg hrow, hnone]
      rfl
  · intro e he
    rw [Function.comp_apply]
    rcases hline : encodeMatchQueueEntry (record e) with - | line
    · rfl
    · obtain ⟨p, hp, hs⟩ := hes e he
      have hfits : MatchQueueStore.Fits (record e) := (htimed p e hp).2 hs
      rw [Option.bind_some, Function.comp_apply, MatchQueueStore.decode_encode hfits hline]
      rfl

end MatchQueue

namespace MatchSystem

open MatchQueue

variable {s : MatchSystem}

/-- Every record of a snapshot is a valid entry. -/
theorem Agreed.storable (h : Agreed s) (hstorable : s.queue.Storable) {entry : MatchQueueEntry}
    (hentry : entry ∈ s.queue.makeSnapshot.queued ++ s.queue.makeSnapshot.matched) :
    MatchQueueStore.validateEntry entry = none ∧ MatchQueueStore.Fits entry := by
  rcases List.mem_append.mp hentry with hqueued | hmatched
  · obtain ⟨p, e, rfl, he, hs, -⟩ := mem_queued_makeSnapshot.mp hqueued
    obtain ⟨hp, hwait, -⟩ := hstorable p e he
    exact ⟨MatchQueueStore.validateEntry_queued.mpr ⟨hp, (hwait hs).1⟩, (hwait hs).2⟩
  · obtain ⟨es, heq, -, hes, -⟩ := matched_makeSnapshot s.queue
    rw [heq] at hmatched
    obtain ⟨e, he, rfl⟩ := List.mem_map.mp hmatched
    obtain ⟨p, hp, hs⟩ := hes e he
    obtain ⟨-, hpair, hall⟩ := h.result p e hp hs
    obtain ⟨-, -, hresult⟩ := hstorable p e hp
    obtain ⟨hmatchId, hroomId, hstamp, hfits⟩ := hresult hs
    refine ⟨MatchQueueStore.validateEntry_matched.mpr
      ⟨hmatchId, hroomId, hstamp, ?_, ?_, fun p' hp' => ?_⟩, hfits⟩
    · rintro hnil
      have hlength := hpair.length
      rw [hnil] at hlength
      cases hlength
    · rw [hpair.length]
      decide
    · obtain ⟨e', he', -⟩ := hall p' hp'
      exact (hstorable p' e' he').1

/-- **Nothing is lost on the way** to the store and back. -/
theorem Agreed.loadedRows (h : Agreed s) (hstorable : s.queue.Storable) : s.queue.loadedRows =
    (s.queue.makeSnapshot.queued ++ s.queue.makeSnapshot.matched).map fun entry => ⟨entry, ""⟩ := by
  rw [MatchQueue.loadedRows, savedLines, List.map_filterMap, ← List.filterMap_eq_map]
  refine List.filterMap_congr fun entry hentry => ?_
  obtain ⟨hvalid, hfits⟩ := h.storable hstorable hentry
  obtain ⟨line, hline⟩ := MatchQueueStore.exists_line hvalid
  rw [hline, Option.map_some, MatchQueueStore.decode_encode hfits hline]
  rfl

/-! ## The rows of a snapshot do not collide

Players and matches occur once each, so every row is new. -/

/-- The waiting players are read back. -/
theorem perm_queuedRows (hstorable : s.queue.Storable) :
    (queuedRows s.queue.loadedRows).Perm s.queue.waitingRows := by
  rw [queuedRows_loadedRows hstorable.timed]
  refine (List.perm_insertionSort _ _).trans (.of_eq (List.filter_eq_self.mpr fun row hrow => ?_))
  obtain ⟨e, he, hs, htime⟩ := of_mem_waitingRows hrow
  obtain ⟨hvalid, hwait, -⟩ := hstorable row.1 e he
  rw [storableRow, hvalid, ← htime, decide_eq_true (hwait hs).1]
  rfl

/-- Who is read back as waiting. -/
theorem mem_queuedRows (h : Agreed s) (hnoted : s.NotedOnly) (hstorable : s.queue.Storable) {t : Int} :
    (p, t) ∈ queuedRows s.queue.loadedRows ↔
      ∃ e, s.queue.entries.lookup p = some e ∧ e.state = .queued ∧ e.cancelRequested = false ∧
        e.queuedAtMs = t :=
  (perm_queuedRows hstorable).mem_iff.trans (mem_waitingRows h.sound.placed hnoted)

/-- The matches of a snapshot, one by one. -/
theorem matchedRows_loadedRows (h : Agreed s) (hstorable : s.queue.Storable) : ∃ es : List Entry,
    matchedRows s.queue.loadedRows = es.map rowOf ∧ (es.map (·.matchId)).Nodup ∧
    (∀ e ∈ es, ∃ p, s.queue.entries.lookup p = some e ∧ e.state = .matched) ∧
    ∀ p e, s.queue.entries.lookup p = some e → e.state = .matched → ∃ e' ∈ es, e'.matchId = e.matchId := by
  obtain ⟨es, heq, hes⟩ := matched_makeSnapshot s.queue
  refine ⟨es, ?_, hes⟩
  rw [h.loadedRows hstorable, matchedRows, List.filterMap_map, List.filterMap_append, heq,
    List.filterMap_map, ← List.filterMap_eq_map, List.filterMap_eq_nil_iff.mpr, List.nil_append]
  · rfl
  · intro entry hentry
    obtain ⟨p, e, rfl, -⟩ := mem_queued_makeSnapshot.mp hentry
    rfl

/-- Players of two matches of a snapshot are different. -/
theorem pairwise_apart (h : Agreed s) {es : List Entry} (hnodup : (es.map (·.matchId)).Nodup)
    (hes : ∀ e ∈ es, ∃ p, s.queue.entries.lookup p = some e ∧ e.state = .matched) :
    (es.map rowOf).Pairwise fun row row' => ∀ p, p ∈ row.2.2.1 → p ∉ row'.2.2.1 := by
  rw [List.pairwise_map]
  refine (List.pairwise_map.mp hnodup).imp_of_mem fun {e e'} he he' hne p hp hp' => hne ?_
  obtain ⟨k, hk, hs⟩ := hes e he
  obtain ⟨k', hk', hs'⟩ := hes e' he'
  -- The player has one entry, with the ids of both.
  obtain ⟨x, hx, -, hrecord⟩ := (h.result k e hk hs).2.2 p hp
  obtain ⟨x', hx', -, hrecord'⟩ := (h.result k' e' hk' hs').2.2 p hp'
  obtain rfl := Option.some.inj (hx.symm.trans hx')
  rw [← (MatchQueueEntry.matched.inj hrecord).1, (MatchQueueEntry.matched.inj hrecord').1]

/-- A match is saved as any of its players has it. -/
theorem rowOf_mem (h : Agreed s) (hunique : s.queue.IdsUnique) {es : List Entry}
    (hes : ∀ e ∈ es, ∃ p, s.queue.entries.lookup p = some e ∧ e.state = .matched)
    (hall : ∀ p e, s.queue.entries.lookup p = some e → e.state = .matched →
      ∃ e' ∈ es, e'.matchId = e.matchId)
    {e : Entry} (he : s.queue.entries.lookup p = some e) (hs : e.state = .matched) :
    rowOf e ∈ es.map rowOf := by
  obtain ⟨x, hx, hid⟩ := hall p e he hs
  obtain ⟨k, hk, hs'⟩ := hes x hx
  have hplayers := hunique k x hk p e he hs' hs hid
  obtain ⟨y, hy, -, hrecord⟩ := (h.result p e he hs).2.2 k (hplayers ▸ (h.result k x hk hs').1)
  obtain rfl := Option.some.inj (hk.symm.trans hy)
  obtain ⟨hm, hr, hg, ht⟩ := MatchQueueEntry.matched.inj hrecord
  refine List.mem_map.mpr ⟨x, hx, ?_⟩
  rw [rowOf, rowOf, hm, hr, hg, ht]

/-- **Saving and restoring** — every record of the snapshot can be written and is read back as it was.  A
restart from these rows drops none of them: who waits again is who waited, had not asked to leave and is
in time, since the same moment; who has a result is who is of a match whose result is in time, and has it
as it was; and nobody else is known. -/
theorem save_restore {G : MatchSystem → Action → Prop} {c₀ : MatchConfig} (h : Reached G c₀ s)
    (hstorable : s.queue.Storable) (hunique : s.queue.IdsUnique) (c : MatchConfig) (nowMs : Int) :
    (∀ entry ∈ s.queue.makeSnapshot.queued ++ s.queue.makeSnapshot.matched, ∃ line,
      encodeMatchQueueEntry entry = some line ∧ decodeMatchQueueEntry line = ⟨entry, ""⟩) ∧
    (({} : MatchQueue).restoreLocked c nowMs s.queue.loadedRows).1.dropped = 0 ∧
    ∀ p e', (({} : MatchQueue).restoreLocked c nowMs s.queue.loadedRows).2.entries.lookup p = some e' ↔
      (∃ e, s.queue.entries.lookup p = some e ∧ e.state = .queued ∧ e.cancelRequested = false ∧
        nowMs - e.queuedAtMs < c.matchTimeoutMs ∧
        e' = { state := .queued, queuedAtMs := e.queuedAtMs, stampMs := e.queuedAtMs }) ∨
      ∃ k e, s.queue.entries.lookup k = some e ∧ e.state = .matched ∧ p ∈ e.playerIds ∧
        nowMs - e.stampMs < c.resultTtlMs ∧
        e' = { state := .matched, matchId := e.matchId, roomId := e.roomId,
               playerIds := e.playerIds, stampMs := e.stampMs } := by
  have hagreed := h.agreed
  obtain ⟨es, hrows, hnodup, hes, hall⟩ := matchedRows_loadedRows hagreed hstorable
  have hqueued : ((queuedRows s.queue.loadedRows).map Prod.fst).Nodup :=
    ((perm_queuedRows hstorable).map Prod.fst).nodup_iff.mpr
      (nodup_waitingRows hagreed.sound.placed)
  have hproblem : ∀ row ∈ s.queue.loadedRows, row.problem = "" := by
    rw [hagreed.loadedRows hstorable]
    rintro row hrow
    obtain ⟨entry, -, rfl⟩ := List.mem_map.mp hrow
    rfl
  have hapart := pairwise_apart hagreed hnodup hes
  rw [← hrows] at hapart
  have hnew : ∀ row ∈ matchedRows s.queue.loadedRows, ∀ p ∈ row.2.2.1,
      p ∉ (queuedRows s.queue.loadedRows).map Prod.fst := by
    intro row hrow p hp hwaits
    rw [hrows] at hrow
    obtain ⟨e, he, rfl⟩ := List.mem_map.mp hrow
    obtain ⟨k, hk, hs⟩ := hes e he
    obtain ⟨x, hx, hmatched, -⟩ := (hagreed.result k e hk hs).2.2 p hp
    obtain ⟨⟨p', t⟩, hrow', rfl⟩ := List.mem_map.mp hwaits
    obtain ⟨y, hy, hwaiting, -⟩ := (mem_queuedRows hagreed h.notedOnly hstorable).mp hrow'
    obtain rfl := Option.some.inj (hx.symm.trans hy)
    cases hmatched.symm.trans hwaiting
  obtain ⟨hdropped, hlookup⟩ :=
    lookup_restoreLocked_new c nowMs hproblem hqueued hapart hnew
  refine ⟨fun entry hentry => ?_, hdropped, fun p e' => (hlookup p e').trans (or_congr ?_ ?_)⟩
  · obtain ⟨hvalid, hfits⟩ := hagreed.storable hstorable hentry
    obtain ⟨line, hline⟩ := MatchQueueStore.exists_line hvalid
    exact ⟨line, hline, MatchQueueStore.decode_encode hfits hline⟩
  · constructor
    · rintro ⟨⟨p, t⟩, hrow, rfl, hin, rfl⟩
      obtain ⟨e, he, hs, hstays, rfl⟩ := (mem_queuedRows hagreed h.notedOnly hstorable).mp hrow
      exact ⟨e, he, hs, hstays, hin, rfl⟩
    · rintro ⟨e, he, hs, hstays, hin, rfl⟩
      exact ⟨(p, e.queuedAtMs), (mem_queuedRows hagreed h.notedOnly hstorable).mpr
        ⟨e, he, hs, hstays, rfl⟩, rfl, hin, rfl⟩
  · rw [hrows]
    constructor
    · rintro ⟨row, hrow, hp, hin, rfl⟩
      obtain ⟨e, he, rfl⟩ := List.mem_map.mp hrow
      obtain ⟨k, hk, hs⟩ := hes e he
      exact ⟨k, e, hk, hs, hp, hin, rfl⟩
    · rintro ⟨k, e, hk, hs, hp, hin, rfl⟩
      exact ⟨rowOf e, rowOf_mem hagreed hunique hes hall hk hs, hp, hin, rfl⟩

/-- While Alice and Bob have a result, Carol waits. -/
def carolWaits : List Action := matchedPair ++ [.enqueue "carol" "q-4" 2000, .resume 2 {}]

theorem save_restore_carolWaits :
    (({} : MatchQueue).restoreLocked {} 3000
      (carolWaits.foldl (next {}) {}).queue.loadedRows).1.dropped = 0 ∧
    (({} : MatchQueue).restoreLocked {} 3000
      (carolWaits.foldl (next {}) {}).queue.loadedRows).2.entries.lookup "carol" =
      some { state := .queued, queuedAtMs := 2000, stampMs := 2000 } ∧
    (({} : MatchQueue).restoreLocked {} 3000
      (carolWaits.foldl (next {}) {}).queue.loadedRows).2.entries.lookup "alice" =
      some { state := .matched, matchId := "m-1", roomId := "r-1", playerIds := ["alice", "bob"],
             stampMs := 1100 } := by
  have hrun : Run.Guarded (fun s a => a.serves = true ∧ Fresh s a) (next {}) {} carolWaits := by decide
  obtain ⟨-, hdropped, hlookup⟩ :=
    save_restore (.of_guarded (.start {}) hrun) (by decide) (by decide) {} 3000
  refine ⟨hdropped, (hlookup "carol" _).mpr (.inl ?_), (hlookup "alice" _).mpr (.inr ?_)⟩
  · exact ⟨_, rfl, rfl, rfl, by decide, rfl⟩
  · exact ⟨"alice", _, rfl, rfl, by decide, by decide, rfl⟩

end MatchSystem

end RealtimeGame.Match
