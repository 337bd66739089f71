import RealtimeGame.Match.QueueLaws

/-!
# Match/PairingLaws — taking groups and committing them

Taking groups moves the players of the queue, two by two, into what is held (`Placed.takePairGroups`);
committing a group moves its players back into the queue, or out of it for good
(`Placed.commitGroup`).
-/

open Library

namespace RealtimeGame.Match

variable {c : MatchConfig} {q : MatchQueue} {held : String → Nat} {nowMs : Int} {p : String}

/-! ## Taking groups

One group after another leaves the queue, and is held from then on. -/

namespace MatchQueue

/-- The queue after one group was taken from its front. -/
def afterTake (q : MatchQueue) (matchId : String) (group rest : List String) : MatchQueue :=
  { q with
    entries := group.foldl (fun t p => t.adjust p (Entry.allocate matchId group)) q.entries
    queue := rest }

/-- Its players are being allocated. -/
theorem lookup_afterTake (q : MatchQueue) (matchId : String) (group rest : List String) (p : String) :
    (q.afterTake matchId group rest).entries.lookup p =
      (q.entries.lookup p).map fun e => if p ∈ group then e.allocate matchId group else e :=
  Table.lookup_foldl_adjust (f := Entry.allocate matchId group) (fun _ => rfl) _ _ _

theorem takeGroup_pair {entries : Table String Entry} {a b : String} (rest : List String)
    (ha : (entries.lookup a).map (·.state) = some .queued)
    (hb : (entries.lookup b).map (·.state) = some .queued) :
    takeGroup entries [] (a :: b :: rest) = ([a, b], rest) := by
  cases rest <;> simp [takeGroup, ha, hb, kPlayersPerMatch]

theorem length_takeGroup (entries : Table String Entry) (group queue : List String) :
    (takeGroup entries group queue).2.length ≤ queue.length := by
  induction queue generalizing group with
  | nil => exact le_rfl
  | cons p rest ih =>
    rw [takeGroup]
    split
    · exact le_rfl
    · split <;> exact (ih _).trans (Nat.le_succ _)

/-- More fuel than players changes nothing: the loop ends by itself. -/
theorem takePairGroups_fuel {n m : Nat} (ids : List String) (q : MatchQueue)
    (hn : q.queue.length ≤ n) (hm : q.queue.length ≤ m) :
    takePairGroups n ids q = takePairGroups m ids q := by
  have hend : ∀ k, q.queue.length < kPlayersPerMatch → takePairGroups k ids q = ([], q) := by
    rintro (- | k) hshort
    · rfl
    · rw [takePairGroups, if_pos hshort]
  induction n generalizing m ids q with
  | zero =>
    have hshort : q.queue.length < kPlayersPerMatch := by
      rw [kPlayersPerMatch]
      omega
    rw [hend 0 hshort, hend m hshort]
  | succ n ih =>
    by_cases hshort : q.queue.length < kPlayersPerMatch
    · rw [hend _ hshort, hend _ hshort]
    rcases m with - | m
    · rw [kPlayersPerMatch] at hshort
      omega
    have hrest : (takeGroup q.entries [] q.queue).2.length + 1 ≤ q.queue.length := by
      rcases hqueue : q.queue with - | ⟨p, rest⟩
      · rw [hqueue] at hshort
        exact absurd (by decide) hshort
      · have hle := length_takeGroup q.entries
        rw [takeGroup, if_neg (by decide)]
        split <;> exact Nat.succ_le_succ (hle _ _)
    rw [takePairGroups, takePairGroups, if_neg hshort, if_neg hshort]
    dsimp only
    split
    · rfl
    · split
      · rfl
      · rw [ih ids.tail _ (by dsimp only; omega) (m := m) (by dsimp only; omega)
          (by rintro (- | k) hlt <;> [rfl; rw [takePairGroups, if_pos hlt]])]

/-- **One round of the loop** — nothing is left to do, or the first two players are a group. -/
theorem takePairGroups_cases (h : Placed q held) (fuel : Nat) (ids : List String) :
    ((q.queue.length < 2 ∨ ids.headD "" = "") ∧ takePairGroups (fuel + 1) ids q = ([], q)) ∨
    ∃ a b rest requestId, q.queue = a :: b :: rest ∧ ids.headD "" ≠ "" ∧
      takePairGroups (fuel + 1) ids q =
        (⟨ids.headD "", [a, b], requestId⟩ ::
            (takePairGroups fuel ids.tail (q.afterTake (ids.headD "") [a, b] rest)).1,
          (takePairGroups fuel ids.tail (q.afterTake (ids.headD "") [a, b] rest)).2) := by
  rw [takePairGroups, kPlayersPerMatch]
  rcases hqueue : q.queue with - | ⟨a, - | ⟨b, rest⟩⟩
  · exact .inl ⟨.inl (by simp), rfl⟩
  · exact .inl ⟨.inl (by simp), rfl⟩
  have hstate : ∀ p ∈ q.queue, (q.entries.lookup p).map (·.state) = some .queued := by
    intro p hp
    obtain ⟨e, he, hs, -⟩ := h.of_mem hp
    rw [he, Option.map_some, hs]
  have htake : takeGroup q.entries [] (a :: b :: rest) = ([a, b], rest) :=
    takeGroup_pair rest (hstate a (by simp [hqueue])) (hstate b (by simp [hqueue]))
  rw [if_neg (by simp), htake]
  dsimp only
  rw [if_neg (by simp)]
  by_cases hid : ids.headD "" = ""
  · rw [if_pos hid]
    refine .inl ⟨.inr hid, ?_⟩
    rw [List.cons_append, List.cons_append, List.nil_append, ← hqueue]
  · rw [if_neg hid]
    exact .inr ⟨a, b, rest, _, rfl, hid, rfl⟩

end MatchQueue

namespace Placed

open MatchQueue

/-- The first two of the queue are moved into a group. -/
theorem afterTake (h : Placed q held) {a b : String} {rest : List String}
    (hqueue : q.queue = a :: b :: rest) (matchId : String) :
    Placed (q.afterTake matchId [a, b] rest) fun p => held p + [a, b].count p := by
  intro p
  change Place _ _ (held p + [a, b].count p)
  have hcount : q.queue.count p = [a, b].count p + (q.afterTake matchId [a, b] rest).queue.count p := by
    rw [hqueue, ← List.count_append]
    rfl
  rw [lookup_afterTake]
  by_cases hmem : p ∈ [a, b]
  · have hpos := List.count_pos_iff.mpr hmem
    obtain ⟨e, he, hs, -, hn, hh⟩ := (h p).of_queue (by omega)
    rw [he, Option.map_some, if_pos hmem]
    exact .allocating _ rfl hs rfl (by omega) (by omega)
  · rw [List.count_eq_zero.mpr hmem, Nat.zero_add] at hcount
    simp only [if_neg hmem, Option.map_id', List.count_eq_zero.mpr hmem, Nat.add_zero, ← hcount]
    exact h p

/-- **Taking groups** moves players from the queue into what is held. -/
theorem takePairGroups (h : Placed q held) (fuel : Nat) (ids : List String) :
    Placed (MatchQueue.takePairGroups fuel ids q).2 fun p =>
      held p + ((MatchQueue.takePairGroups fuel ids q).1.flatMap (·.playerIds)).count p := by
  induction fuel generalizing q held ids with
  | zero => exact h
  | succ fuel ih =>
    rcases takePairGroups_cases h fuel ids with ⟨-, heq⟩ | ⟨a, b, rest, request, hqueue, -, heq⟩
    · rw [heq]
      exact h
    · rw [heq]
      refine (ih (h.afterTake hqueue _) ids.tail).congr fun p => ?_
      simp only [List.flatMap_cons, List.count_append]
      omega

/-- A round takes two different players. -/
theorem pair_of_takePairGroups (h : Placed q held) (fuel : Nat) (ids : List String) :
    ∀ g ∈ (MatchQueue.takePairGroups fuel ids q).1, ∃ a b, a ≠ b ∧ g.playerIds = [a, b] := by
  induction fuel generalizing q held ids with
  | zero => exact fun _ hg => by cases hg
  | succ fuel ih =>
    rcases takePairGroups_cases h fuel ids with ⟨-, heq⟩ | ⟨a, b, rest, request, hqueue, -, heq⟩
    · rw [heq]
      exact fun _ hg => by cases hg
    · rw [heq]
      intro g hg
      rcases List.mem_cons.mp hg with rfl | hg
      · refine ⟨a, b, ?_, rfl⟩
        have hnodup := h.nodup
        rw [hqueue] at hnodup
        rintro rfl
        simp at hnodup
      · exact ih (h.afterTake hqueue _) ids.tail g hg

/-- The match ids are what the generator returned, one by one, and never empty. -/
theorem ids_of_takePairGroups (h : Placed q held) (fuel : Nat) (ids : List String) :
    ((MatchQueue.takePairGroups fuel ids q).1.map (·.matchId)) <+: ids ∧
      ∀ g ∈ (MatchQueue.takePairGroups fuel ids q).1, g.matchId ≠ "" := by
  induction fuel generalizing q held ids with
  | zero => exact ⟨List.nil_prefix, fun _ hg => by cases hg⟩
  | succ fuel ih =>
    rcases takePairGroups_cases h fuel ids with ⟨-, heq⟩ | ⟨a, b, rest, request, hqueue, hid, heq⟩
    · rw [heq]
      exact ⟨List.nil_prefix, fun _ hg => by cases hg⟩
    · rw [heq]
      obtain ⟨hbegins, hne⟩ := ih (h.afterTake hqueue (ids.headD "")) ids.tail
      rcases ids with - | ⟨id, ids⟩
      · exact absurd rfl hid
      · refine ⟨List.cons_prefix_cons.mpr ⟨rfl, hbegins⟩, fun g hg => ?_⟩
        rcases List.mem_cons.mp hg with rfl | hg
        · exact hid
        · exact hne g hg

/-- With an id for every two players, fewer than two players stay behind. -/
theorem length_takePairGroups (h : Placed q held) {fuel : Nat} {ids : List String}
    (hfuel : q.queue.length ≤ fuel) (hids : q.queue.length ≤ 2 * ids.length + 1)
    (hne : "" ∉ ids) : (MatchQueue.takePairGroups fuel ids q).2.queue.length < 2 := by
  induction fuel generalizing q held ids with
  | zero =>
    rw [MatchQueue.takePairGroups]
    change q.queue.length < 2
    omega
  | succ fuel ih =>
    rcases takePairGroups_cases h fuel ids with ⟨hend, heq⟩ | ⟨a, b, rest, request, hqueue, -, heq⟩
    · rw [heq]
      change q.queue.length < 2
      rcases hend with hshort | hempty
      · exact hshort
      · rcases ids with - | ⟨id, ids⟩
        · simp only [List.length_nil] at hids
          omega
        · exact absurd (hempty ▸ List.mem_cons_self) hne
    · rw [heq]
      rw [hqueue, List.length_cons, List.length_cons] at hfuel hids
      refine ih (h.afterTake hqueue _) (by simp only [MatchQueue.afterTake]; omega) ?_
        fun hmem => hne (List.mem_of_mem_tail hmem)
      simp only [MatchQueue.afterTake, List.length_tail]
      omega

end Placed

/-- Only the entries and the queue change when groups are taken. -/
theorem MatchQueue.takePairGroups_frame (fuel : Nat) (ids : List String) (q : MatchQueue) :
    q.Frame (takePairGroups fuel ids q).2 := by
  induction fuel generalizing q ids with
  | zero => rfl
  | succ fuel ih =>
    rw [takePairGroups]
    split
    · rfl
    · dsimp only
      split
      · rfl
      · split
        · rfl
        · exact (Frame.update _ _).trans (ih _ _)

namespace Placed

/-! ## Committing a group

Its players are settled with a room, or come back without one. -/

end Placed

namespace MatchQueue

theorem mem_members {group : PendingGroup} {cancelled : Bool} :
    p ∈ q.members group cancelled ↔ p ∈ group.playerIds ∧
      ∃ e, q.entries.lookup p = some e ∧ e.cancelRequested = cancelled := by
  rw [members, List.mem_filter, decide_eq_true_eq, Option.map_eq_some_iff]

theorem count_members (group : PendingGroup) {e : Entry} (he : q.entries.lookup p = some e) :
    (q.members group e.cancelRequested).count p = group.playerIds.count p :=
  List.count_filter (by simp [he])

theorem lookup_putBack (p k : String) (q : MatchQueue) :
    (putBack p q).entries.lookup k
      = (q.entries.lookup k).map fun e => if k = p then e.release else e := by
  unfold putBack
  split
  case h_1 hnone =>
    by_cases hk : k = p
    · subst hk
      rw [hnone]
      rfl
    · simp [hk]
  case h_2 => exact Table.lookup_adjust _ _ _ _

theorem lookup_foldr_putBack (ps : List String) (q : MatchQueue) (k : String) :
    (ps.foldr putBack q).entries.lookup k
      = (q.entries.lookup k).map fun e => if k ∈ ps then e.release else e := by
  induction ps with
  | nil => simp
  | cons p ps ih =>
    rw [List.foldr_cons, lookup_putBack, ih, Option.map_map]
    refine congrArg (Option.map · (q.entries.lookup k)) (funext fun e => ?_)
    have hrelease : e.release.release = e.release := rfl
    by_cases hk : k = p
    · subst hk
      by_cases hks : k ∈ ps <;> simp [hks, hrelease]
    · simp [hk]

/-- Players with an entry come back to the front, in their order. -/
theorem queue_foldr_putBack {ps : List String} {q : MatchQueue}
    (h : ∀ p ∈ ps, (q.entries.lookup p).isSome) :
    (ps.foldr putBack q).queue = ps ++ q.queue := by
  induction ps with
  | nil => rfl
  | cons p ps ih =>
    have hknown : ((ps.foldr putBack q).entries.lookup p).isSome := by
      rw [lookup_foldr_putBack, Option.isSome_map]
      exact h p List.mem_cons_self
    obtain ⟨e, he⟩ := Option.isSome_iff_exists.mp hknown
    rw [List.foldr_cons, putBack, he]
    change p :: (ps.foldr putBack q).queue = _
    rw [ih fun p hp => h p (List.mem_cons_of_mem _ hp), List.cons_append]

theorem foldr_putBack_frame (ps : List String) (q : MatchQueue) :
    ps.foldr putBack q = { q with
      entries := (ps.foldr putBack q).entries
      queue := (ps.foldr putBack q).queue } := by
  induction ps with
  | nil => rfl
  | cons p ps ih =>
    rw [List.foldr_cons, putBack]
    split
    · exact ih
    · rw [ih]

/-- A group that has its room leaves the queue alone. -/
theorem commitGroup_of_viable {group : PendingGroup} {roomId : String}
    (h : q.groupViable group roomId = true) : q.commitGroup nowMs group roomId = { q with
      entries := (q.commitGroup nowMs group roomId).entries } := by
  unfold commitGroup
  dsimp only
  rw [if_pos h]

/-- The members who are put back come first in the queue. -/
theorem queue_commitGroup {group : PendingGroup} {roomId : String}
    (h : q.groupViable group roomId = false) :
    (q.commitGroup nowMs group roomId).queue = q.members group false ++ q.queue := by
  unfold commitGroup
  dsimp only
  rw [h, if_neg Bool.false_ne_true, queue_foldr_putBack]
  intro p hp
  obtain ⟨-, e, he, hc⟩ := mem_members.mp hp
  rw [Table.lookup_foldl_erase, if_neg, he]
  · rfl
  · intro hmem
    obtain ⟨-, e', he', hc'⟩ := mem_members.mp hmem
    obtain rfl := Option.some.inj (he.symm.trans he')
    cases hc.symm.trans hc'

theorem commitGroup_frame (group : PendingGroup) (roomId : String) :
    q.commitGroup nowMs group roomId = { q with
      entries := (q.commitGroup nowMs group roomId).entries
      queue := (q.commitGroup nowMs group roomId).queue
      retryPairing := (q.commitGroup nowMs group roomId).retryPairing } := by
  unfold commitGroup
  dsimp only
  split
  · rfl
  · rw [foldr_putBack_frame]

theorem retryPairing_commitGroup (group : PendingGroup) (roomId : String) :
    (q.commitGroup nowMs group roomId).retryPairing
      = if roomId = "" then true else q.retryPairing := by
  unfold commitGroup
  dsimp only
  split
  case isTrue h =>
    rw [groupViable, Bool.and_eq_true, decide_eq_true_eq] at h
    rw [if_neg h.1]
  case isFalse => rw [foldr_putBack_frame]

theorem not_mem_of_groupViable {group : PendingGroup} {roomId : String}
    (h : q.groupViable group roomId = true) : p ∉ q.members group true := by
  rw [groupViable, Bool.and_eq_true, decide_eq_true_eq] at h
  rw [show q.members group true = [] from of_decide_eq_true h.2]
  exact List.not_mem_nil

/-- A member after the commit: settled in the room, gone, or released. -/
theorem lookup_commitGroup {group : PendingGroup} {roomId : String} {e : Entry}
    (hmem : p ∈ group.playerIds) (he : q.entries.lookup p = some e) :
    (q.commitGroup nowMs group roomId).entries.lookup p =
      if q.groupViable group roomId then some (e.settle roomId group.playerIds nowMs)
      else if e.cancelRequested then none else some e.release := by
  have hmembers : ∀ cancelled, p ∈ q.members group cancelled ↔ e.cancelRequested = cancelled := by
    intro cancelled
    rw [mem_members, he]
    exact ⟨fun ⟨_, e', he', hc⟩ => by rw [Option.some.inj he']; exact hc,
      fun hc => ⟨hmem, e, rfl, hc⟩⟩
  unfold commitGroup
  dsimp only
  split
  case isTrue hviable =>
    have hstays : p ∈ q.members group false := by
      rw [hmembers, ← Bool.not_eq_true, ← hmembers]
      exact not_mem_of_groupViable hviable
    rw [Table.lookup_foldl_adjust (f := Entry.settle roomId group.playerIds nowMs) fun _ => rfl,
      he, Option.map_some, if_pos hstays]
  case isFalse =>
    rw [lookup_foldr_putBack, Table.lookup_foldl_erase, he]
    simp only [hmembers]
    rcases e.cancelRequested with - | - <;> rfl

/-- Nobody else is changed. -/
theorem lookup_commitGroup_of_not_mem {group : PendingGroup} {roomId : String}
    (hmem : p ∉ group.playerIds) :
    (q.commitGroup nowMs group roomId).entries.lookup p = q.entries.lookup p := by
  have hmembers : ∀ cancelled, p ∉ q.members group cancelled :=
    fun _ hp => hmem (mem_members.mp hp).1
  unfold commitGroup
  dsimp only
  split
  · rw [Table.lookup_foldl_adjust (f := Entry.settle roomId group.playerIds nowMs) fun _ => rfl]
    simp only [if_neg (hmembers false), Option.map_id']
  · rw [lookup_foldr_putBack, Table.lookup_foldl_erase, if_neg (hmembers true)]
    simp only [if_neg (hmembers false), Option.map_id']

end MatchQueue

namespace Placed

/-- **Committing a group** takes its players out of what is held. -/
theorem commitGroup (h : Placed q held) (nowMs : Int) (group : PendingGroup) (roomId : String)
    (hheld : ∀ p, group.playerIds.count p ≤ held p) :
    Placed (q.commitGroup nowMs group roomId) fun p => held p - group.playerIds.count p := by
  intro p
  change Place _ _ (held p - group.playerIds.count p)
  by_cases hmem : p ∈ group.playerIds
  · have hpos := List.count_pos_iff.mpr hmem
    have hle := hheld p
    obtain ⟨e, he, hs, -, hn, hh⟩ := (h p).of_held (by omega)
    have hone : group.playerIds.count p = 1 := by omega
    rw [MatchQueue.lookup_commitGroup hmem he]
    rcases hviable : q.groupViable group roomId with - | -
    · have hcount := MatchQueue.count_members group he
      rw [if_neg Bool.false_ne_true, MatchQueue.queue_commitGroup hviable, List.count_append, hn]
      rcases hc : e.cancelRequested with - | -
      · rw [hc] at hcount
        rw [hcount, hone]
        exact .queued _ rfl hs rfl rfl (by omega)
      · have hnot : p ∉ q.members group false := by
          rw [MatchQueue.mem_members]
          rintro ⟨-, e', he', hc'⟩
          obtain rfl := Option.some.inj (he.symm.trans he')
          cases hc.symm.trans hc'
        rw [List.count_eq_zero.mpr hnot]
        exact .absent rfl rfl (by omega)
    · rw [if_pos rfl, MatchQueue.commitGroup_of_viable hviable]
      exact .over _ rfl (by simp [Entry.settle]) rfl hn (by omega)
  · have hqueue : (q.commitGroup nowMs group roomId).queue.count p = q.queue.count p := by
      rcases hviable : q.groupViable group roomId with - | -
      · have hnot : p ∉ q.members group false := fun hp => hmem (MatchQueue.mem_members.mp hp).1
        rw [MatchQueue.queue_commitGroup hviable, List.count_append, List.count_eq_zero.mpr hnot,
          Nat.zero_add]
      · rw [MatchQueue.commitGroup_of_viable hviable]
    rw [MatchQueue.lookup_commitGroup_of_not_mem hmem, hqueue, List.count_eq_zero.mpr hmem,
      Nat.sub_zero]
    exact h p

end Placed

end RealtimeGame.Match
