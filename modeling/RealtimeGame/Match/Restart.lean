import RealtimeGame.Match.Entries

/-!
# Match/Restart — what a snapshot keeps, and what a restart makes of it

A snapshot keeps who waits, and each match once.  A restart gives every player of a match the same entry,
or none of them one.
-/

open Library

namespace RealtimeGame.Match

variable {c : MatchConfig} {q : MatchQueue} {nowMs : Int} {p : String}

namespace MatchQueue

/-! ## The snapshot

Of each match one row is kept, of whichever player comes first. -/

/-- The record of a match. -/
def record (e : Entry) : MatchQueueEntry := .matched e.matchId e.roomId e.playerIds e.stampMs

/-- Who is saved as waiting. -/
theorem mem_queued_makeSnapshot {entry : MatchQueueEntry} : entry ∈ q.makeSnapshot.queued ↔
    ∃ p e, entry = .queued p e.queuedAtMs ∧ q.entries.lookup p = some e ∧ e.state = .queued ∧
      (p ∈ q.queue ∨ e.allocating = true ∧ e.cancelRequested = false) := by
  simp only [makeSnapshot, List.mem_append, List.mem_filterMap, Option.bind_eq_some_iff,
    Option.ite_none_right_eq_some, Option.some.injEq, Prod.exists, Table.mem_toPairs,
    Bool.not_eq_true']
  constructor
  · rintro (⟨p, hp, e, he, hs, rfl⟩ | ⟨p, e, he, ⟨hs, ha, hc⟩, rfl⟩)
    · exact ⟨p, e, rfl, he, hs, .inl hp⟩
    · exact ⟨p, e, rfl, he, hs, .inr ⟨ha, hc⟩⟩
  · rintro ⟨p, e, rfl, he, hs, hp | ⟨ha, hc⟩⟩
    · exact .inl ⟨p, hp, e, he, hs, rfl⟩
    · exact .inr ⟨p, e, he, ⟨hs, ha, hc⟩, rfl⟩

/-- The loop over the matches, from anywhere in it: every match that is not written yet is. -/
theorem foldl_record (es : List Entry) (acc : List MatchQueueEntry × List String) :
    let result := es.foldl (fun (acc : List MatchQueueEntry × List String) e =>
      if e.state = .matched ∧ e.matchId ∉ acc.2 then
        (acc.1 ++ [.matched e.matchId e.roomId e.playerIds e.stampMs], acc.2 ++ [e.matchId])
      else acc) acc
    ∃ added : List Entry, result = (acc.1 ++ added.map record, acc.2 ++ added.map (·.matchId)) ∧
      (∀ e ∈ added, e ∈ es ∧ e.state = .matched ∧ e.matchId ∉ acc.2) ∧
      (added.map (·.matchId)).Nodup ∧
      ∀ e ∈ es, e.state = .matched → e.matchId ∈ acc.2 ∨ e.matchId ∈ added.map (·.matchId) := by
  induction es generalizing acc with
  | nil => exact ⟨[], by simp, nofun, List.nodup_nil, nofun⟩
  | cons e es ih =>
    rw [List.foldl_cons]
    by_cases hnew : e.state = .matched ∧ e.matchId ∉ acc.2
    · obtain ⟨added, heq, hmem, hnodup, hall⟩ :=
        ih (acc.1 ++ [.matched e.matchId e.roomId e.playerIds e.stampMs], acc.2 ++ [e.matchId])
      rw [if_pos hnew]
      refine ⟨e :: added, ?_, ?_, ?_, ?_⟩
      · simp only [List.append_assoc] at heq
        exact heq
      · intro x hx
        rcases List.mem_cons.mp hx with rfl | hx
        · exact ⟨List.mem_cons_self, hnew⟩
        · obtain ⟨hin, hs, hout⟩ := hmem x hx
          exact ⟨List.mem_cons_of_mem _ hin, hs, fun h => hout (List.mem_append_left _ h)⟩
      · refine List.nodup_cons.mpr ⟨fun h => ?_, hnodup⟩
        obtain ⟨x, hx, heq⟩ := List.mem_map.mp h
        exact (hmem x hx).2.2 (List.mem_append_right _ (by rw [heq]; exact List.mem_singleton_self _))
      · intro x hx hs
        rcases List.mem_cons.mp hx with rfl | hx
        · exact .inr List.mem_cons_self
        · rcases hall x hx hs with hold | hadded
          · rcases List.mem_append.mp hold with hold | hone
            · exact .inl hold
            · rw [List.mem_singleton.mp hone]
              exact .inr List.mem_cons_self
          · exact .inr (List.mem_cons_of_mem _ hadded)
    · obtain ⟨added, heq, hmem, hnodup, hall⟩ := ih acc
      rw [if_neg hnew]
      refine ⟨added, heq, fun x hx => ?_, hnodup, fun x hx hs => ?_⟩
      · obtain ⟨hin, hrest⟩ := hmem x hx
        exact ⟨List.mem_cons_of_mem _ hin, hrest⟩
      · rcases List.mem_cons.mp hx with rfl | hx
        · exact .inl (not_not.mp fun hout => hnew ⟨hs, hout⟩)
        · exact hall x hx hs

/-- Each match is saved once. -/
theorem matched_makeSnapshot (q : MatchQueue) : ∃ es : List Entry,
    q.makeSnapshot.matched = es.map record ∧ (es.map (·.matchId)).Nodup ∧
    (∀ e ∈ es, ∃ p, q.entries.lookup p = some e ∧ e.state = .matched) ∧
    ∀ p e, q.entries.lookup p = some e → e.state = .matched → ∃ e' ∈ es, e'.matchId = e.matchId := by
  obtain ⟨es, heq, hmem, hnodup, hall⟩ := foldl_record (q.entries.toPairs.map (·.2)) ([], [])
  refine ⟨es, ?_, hnodup, fun e he => ?_, fun p e he hs => ?_⟩
  · rw [makeSnapshot, heq, List.nil_append]
  · obtain ⟨hin, hs, -⟩ := hmem e he
    obtain ⟨⟨p, e'⟩, hp, rfl⟩ := List.mem_map.mp hin
    exact ⟨p, Table.mem_toPairs.mp hp, hs⟩
  · have hin : e ∈ q.entries.toPairs.map (·.2) :=
      List.mem_map.mpr ⟨(p, e), Table.mem_toPairs.mpr he, rfl⟩
    rcases hall e hin hs with h | h
    · cases h
    · exact List.mem_map.mp h

/-! ## The restart

A match comes back for all of its players, or for none. -/

/-- The entry of a player who goes on waiting. -/
def ofQueued (row : String × Int) : Entry := { state := .queued, queuedAtMs := row.2, stampMs := row.2 }

/-- The entry of a player of a match. -/
def ofMatched (row : String × String × List String × Int) : Entry :=
  { state := .matched, matchId := row.1, roomId := row.2.1, playerIds := row.2.2.1,
    stampMs := row.2.2.2 }

/-- The results are those of whole matches among these rows. -/
def Whole (rows : List (String × String × List String × Int)) (entries : Table String Entry) : Prop :=
  ∀ p e, entries.lookup p = some e → e.state = .matched →
    ∃ row ∈ rows, e = ofMatched row ∧ p ∈ row.2.2.1 ∧ ∀ p' ∈ row.2.2.1, entries.lookup p' = some e

theorem Whole.restoreQueued {rows : List (String × String × List String × Int)}
    {acc : MatchRestoreReport × MatchQueue} (h : Whole rows acc.2.entries) (row : String × Int) :
    Whole rows (restoreQueued c nowMs acc row).2.entries := by
  unfold MatchQueue.restoreQueued
  split
  case isTrue => exact h
  case isFalse hnew =>
    split
    · exact h
    rw [Option.not_isSome_iff_eq_none] at hnew
    intro p e he hs
    simp only [Table.lookup_insert'] at he ⊢
    split at he
    · cases he
      cases hs
    · obtain ⟨row', hrow', rfl, hp, hall⟩ := h p e he hs
      refine ⟨row', hrow', rfl, hp, fun p' hp' => ?_⟩
      rw [if_neg, hall p' hp']
      rintro rfl
      cases hnew.symm.trans (hall _ hp')

theorem Whole.restoreMatched {rows : List (String × String × List String × Int)}
    {acc : MatchRestoreReport × MatchQueue} (h : Whole rows acc.2.entries)
    {row : String × String × List String × Int} (hrow : row ∈ rows) :
    Whole rows (restoreMatched c nowMs acc row).2.entries := by
  unfold MatchQueue.restoreMatched
  split
  · exact h
  split
  case isTrue => exact h
  case isFalse hnew =>
    have hnone : ∀ p ∈ row.2.2.1, acc.2.entries.lookup p = none := by
      intro p hp
      rw [← Option.not_isSome_iff_eq_none]
      exact fun hknown => hnew (List.any_eq_true.mpr ⟨p, hp, hknown⟩)
    intro p e he hs
    dsimp only at he ⊢
    rw [lookup_foldl_restorePlayer] at he
    simp only [lookup_foldl_restorePlayer]
    rcases hold : acc.2.entries.lookup p with - | e'
    · rw [hold, Option.none_or] at he
      split at he
      case isTrue hp =>
        cases he
        refine ⟨row, hrow, rfl, hp, fun p' hp' => ?_⟩
        rw [hnone p' hp', if_pos hp']
        rfl
      case isFalse => cases he
    · rw [hold, Option.some_or] at he
      cases he
      obtain ⟨row', hrow', rfl, hp, hall⟩ := h p _ hold hs
      refine ⟨row', hrow', rfl, hp, fun p' hp' => ?_⟩
      rw [hall p' hp', Option.some_or]

/-- **A restart brings back whole matches.** -/
theorem whole_restoreLocked (c : MatchConfig) (nowMs : Int) (rows : List MatchQueueSnapshotRow) :
    Whole (matchedRows rows) (({} : MatchQueue).restoreLocked c nowMs rows).2.entries := by
  have hacc : ∀ report, Whole (matchedRows rows)
      (({} : MatchQueue).restoreRows c nowMs rows report).2.entries := by
    intro report
    refine List.foldlRecOn (motive := fun acc : MatchRestoreReport × MatchQueue =>
      Whole (matchedRows rows) acc.2.entries) _ _
      (List.foldlRecOn (motive := fun acc : MatchRestoreReport × MatchQueue =>
        Whole (matchedRows rows) acc.2.entries) _ _ (fun _ _ h => by cases h)
        fun _ h row _ => h.restoreQueued row) fun _ h row hrow => h.restoreMatched hrow
  intro p e he hs
  have hlookup := Placed.start.lookup_restoreLocked c nowMs rows
  rw [hlookup] at he
  simp only [hlookup]
  obtain ⟨x, hx, hswept⟩ := Option.bind_eq_some_iff.mp he
  rcases Entry.of_swept hswept with rfl | ⟨rfl, -⟩
  · obtain ⟨row, hrow, rfl, hp, hall⟩ := hacc _ p e hx hs
    refine ⟨row, hrow, rfl, hp, fun p' hp' => ?_⟩
    rw [hall p' hp', Option.bind_some, hswept]
  · cases hs

end MatchQueue

/-! ## Runs across restarts

Whatever holds at the start and over a step and a restart holds in every run. -/

/-- The queue is in service: its snapshot is read no more. -/
def Action.serves : Action → Bool
  | .restore .. => false
  | _ => true

/-- The rows that can be used are entries of this snapshot. -/
def MatchQueueSnapshot.holds (snapshot : MatchQueueSnapshot) (rows : List MatchQueueSnapshotRow) : Prop :=
  ∀ row ∈ rows, row.problem = "" → row.entry ∈ snapshot.queued ++ snapshot.matched

instance (snapshot : MatchQueueSnapshot) (rows : List MatchQueueSnapshotRow) :
    Decidable (snapshot.holds rows) :=
  inferInstanceAs (Decidable (∀ row ∈ rows, _))

/-- **What a program reaches** that starts with the empty queue, or with a snapshot that a program saved;
`G` is what is known of each step. -/
inductive MatchSystem.Reached (G : MatchSystem → Action → Prop) : MatchConfig → MatchSystem → Prop
  | start (c : MatchConfig) : Reached G c {}
  | restored {c₀ : MatchConfig} {s : MatchSystem} (h : Reached G c₀ s) (c : MatchConfig) (nowMs : Int)
      {rows : List MatchQueueSnapshotRow} (hrows : s.queue.makeSnapshot.holds rows) :
      Reached G c (next c {} (.restore (some rows) nowMs))
  | step {c : MatchConfig} {s : MatchSystem} (h : Reached G c s) {a : Action} (hserves : a.serves = true)
      (hG : G s a) : Reached G c (s.next c a)

namespace MatchSystem

variable {G : MatchSystem → Action → Prop} {s : MatchSystem}

theorem Reached.sound (h : Reached G c s) : Sound s := by
  induction h with
  | start c => exact .start
  | restored h c nowMs hrows ih => exact Sound.start.next _
  | step h hserves hG ih => exact ih.next _

/-- A run of steps that are all known. -/
theorem Reached.of_guarded {as : List Action} (h : Reached G c s)
    (hrun : Run.Guarded (fun s a => a.serves = true ∧ G s a) (next c) s as) :
    Reached G c (as.foldl (next c) s) := by
  induction as generalizing s with
  | nil => exact h
  | cons a as ih => exact ih (h.step hrun.1.1 hrun.1.2) hrun.2

end MatchSystem

end RealtimeGame.Match
