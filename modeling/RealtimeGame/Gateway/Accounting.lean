import RealtimeGame.Gateway.StreamDrain

/-!
# Gateway/Accounting — the counters of the subscriptions, and those that no counter knows

A subscription is counted when it is made, when it is cancelled, and when a `Tick` finds its sink failed;
so the counters account for the connections there are.  `CloseAll` and `CloseAllWithEvent` take every
subscription out of the table and count none: what they take is missing from the account for good
(`accounted_iff`).
-/

open Library

namespace RealtimeGame.Gateway

namespace StreamHub

variable {c : StreamConfig} {hub : StreamHub} {t : TickState} {nowMs : Int}

/-- `ConnectionCount`. -/
def connectionCount (hub : StreamHub) : Nat := hub.subscriptions.size

/-- **The account**: what was made is still there, or was counted when it ended. -/
def Accounted (hub : StreamHub) : Prop :=
  hub.createdTotal = hub.connectionCount + hub.closedWriteFailedTotal + hub.closedOtherTotal

instance (hub : StreamHub) : Decidable hub.Accounted := inferInstanceAs (Decidable
  (hub.createdTotal = hub.connectionCount + hub.closedWriteFailedTotal + hub.closedOtherTotal))

/-- The subscriptions that are missing from the account. -/
def uncounted (hub : StreamHub) : Int :=
  hub.createdTotal - (hub.connectionCount + hub.closedWriteFailedTotal + hub.closedOtherTotal)

/-- The account is right exactly if nothing is missing from it. -/
theorem accounted_iff_uncounted : hub.Accounted ↔ hub.uncounted = 0 := by
  simp only [Accounted, uncounted]
  omega

/-! ## The sections

What goes missing is the difference between the table and the counters.  Each section but one moves both
together. -/

/-- Who subscribes is counted, -/
theorem uncounted_subscribeLocked (hnew : hub.subscriptions.lookup hub.nextId = none)
    (playerId roomId : String) (options : SubscribeOptions) :
    (hub.subscribeLocked playerId roomId options).uncounted = hub.uncounted := by
  simp only [uncounted, connectionCount, subscribeLocked, Table.size_insert hnew]
  omega

/-- …and so is who leaves. -/
theorem uncounted_unsubscribeLocked {id : Nat} {s : Subscription}
    (hs : hub.subscriptions.lookup id = some s) : (hub.unsubscribeLocked id).uncounted = hub.uncounted := by
  have hsize := Table.size_erase hs
  simp only [uncounted, connectionCount, unsubscribeLocked]
  omega

/-- What is taken is not counted. -/
theorem uncounted_closeAllLocked : hub.closeAllLocked.uncounted = hub.uncounted + hub.connectionCount := by
  simp only [uncounted, connectionCount, closeAllLocked, Table.size_empty]
  omega

theorem uncounted_collect : (hub.collect c nowMs).1.uncounted = hub.uncounted := by
  simp only [uncounted, connectionCount, collect, seen, Table.size_mapVals]

/-- A sink that failed twice in one `Tick` is counted once: it is gone at the second time. -/
theorem uncounted_dropFailed (acc : StreamHub × List (Nat × Subscription)) (id : Nat) :
    (dropFailed acc id).1.uncounted = acc.1.uncounted := by
  unfold dropFailed
  split
  · rfl
  case h_2 s hs =>
    have hsize := Table.size_erase hs
    simp only [uncounted, connectionCount]
    omega

/-- Sinks that failed are counted when they are dropped. -/
theorem uncounted_commit : (hub.commit t).1.uncounted = hub.uncounted := by
  have hdrop : ∀ (ids : List Nat) (acc : StreamHub × List (Nat × Subscription)),
      (ids.foldl dropFailed acc).1.uncounted = acc.1.uncounted := by
    intro ids
    induction ids with
    | nil => exact fun _ => rfl
    | cons id ids ih => exact fun acc => (ih _).trans (uncounted_dropFailed acc id)
  rw [commit, hdrop]
  simp only [uncounted, connectionCount, commitHeartbeats, commitReady, commitKept, commitResets,
    commitBackfilled, Table.size_foldl_adjust]

/-- A job counts nothing. -/
theorem uncounted_run (answer : Answer) (job : Job) :
    (job.run c answer hub t).hub.uncounted = hub.uncounted := by
  cases job
  case backfill target =>
    simp only [Job.run]
    split_ifs
    · rfl
    · rfl
    · rcases target.sinceFrame with - | sinceFrame <;> rfl
  case compare room snapshot =>
    simp only [Job.run, comparePushed]
    split_ifs <;> rfl
  all_goals rfl

end StreamHub

namespace StreamSystem

variable {c : StreamConfig} {s : StreamSystem} {ops : List StreamOp}

/-- **One step**: only what `CloseAll` takes goes missing. -/
theorem uncounted_next (h : s.Sound) (op : StreamOp) :
    (s.next c op).hub.uncounted =
      s.hub.uncounted + if op.closesAll then (s.hub.connectionCount : Int) else 0 := by
  have hnew : s.hub.subscriptions.lookup s.hub.nextId = none :=
    Option.eq_none_iff_forall_ne_some.mpr fun sub hsub => absurd (h.registered _ _ hsub) (lt_irrefl _)
  cases op with
  | subscribe playerId roomId hasSink options =>
    simp only [next]
    split <;> exact (Int.add_zero _).symm
  | unsubscribe id =>
    simp only [next]
    split
    · exact (Int.add_zero _).symm
    case h_2 sub hsub => exact (StreamHub.uncounted_unsubscribeLocked hsub).trans (Int.add_zero _).symm
  | tick nowMs => exact StreamHub.uncounted_collect.trans (Int.add_zero _).symm
  | closeAll => exact StreamHub.uncounted_closeAllLocked
  | beginShutdown => exact (Int.add_zero _).symm
  | closeAllWithEvent reason => exact StreamHub.uncounted_closeAllLocked
  | resumeTick answer =>
    simp only [next, resumeTick]
    split
    · exact (StreamHub.uncounted_run answer _).trans (Int.add_zero _).symm
    · exact StreamHub.uncounted_commit.trans (Int.add_zero _).symm
    · exact (Int.add_zero _).symm
    · exact (Int.add_zero _).symm
  | resumeCall call answer =>
    simp only [next, resumeCall]
    split
    case h_1 step rest hcall =>
      cases step with
      | register playerId roomId options =>
        exact (StreamHub.uncounted_subscribeLocked hnew _ _ _).trans (Int.add_zero _).symm
      | report | writeClosed | close => exact (Int.add_zero _).symm
    case h_2 => exact (Int.add_zero _).symm

/-- **The counters account for the subscriptions of a run exactly if no `CloseAll` found any.** -/
theorem accounted_iff (hrun : Run (Step c) {} ops s) :
    s.hub.Accounted ↔ ∀ pre op post m, ops = pre ++ op :: post → Run (Step c) {} pre m →
      op.closesAll = true → m.hub.connectionCount = 0 := by
  rw [StreamHub.accounted_iff_uncounted]
  refine (hrun.invariant_of_history (I := fun ops s => 0 ≤ s.hub.uncounted ∧ (s.hub.uncounted = 0 ↔
    ∀ pre op post m, ops = pre ++ op :: post → Run (Step c) {} pre m → op.closesAll = true →
      m.hub.connectionCount = 0)) (fun ops m op t hpre h hstep => ?_) ⟨by decide, ?_⟩).2
  · obtain ⟨hnonneg, hiff⟩ := h
    have hnext : t.hub.uncounted = m.hub.uncounted +
        if op.closesAll then (m.hub.connectionCount : Int) else 0 := by
      rw [hstep.2]
      exact uncounted_next (.of_run hpre) op
    rw [Run.steps_snoc (G := fun m op => op.closesAll = true → m.hub.connectionCount = 0)
      (fun _ _ _ _ h h' => h.2.trans h'.2.symm) hpre, ← hiff, hnext]
    cases op.closesAll with
    | true =>
      simp only [if_true, forall_const]
      omega
    | false =>
      simp only [Bool.false_eq_true, if_false, Int.add_zero, false_imp_iff, and_true]
      exact hnonneg
  · refine iff_of_true rfl fun pre op post m heq => ?_
    cases pre <;> cases heq

/-- alice subscribes, her sink fails, and the `Tick` that finds it counts her out. -/
def failedSink : List StreamOp :=
  [.subscribe "alice" "r-1" true {}, .resumeCall 0 {}, .resumeCall 0 {}, .tick 1000,
    .resumeTick {}, .resumeTick {}, .resumeTick { wrote := false }, .resumeTick {}, .resumeTick {}]

theorem accounted_iff_failedSink :
    (failedSink.foldl (next {}) {}).hub.Accounted ↔ ∀ pre op post m,
      failedSink = pre ++ op :: post → Run (Step {}) {} pre m → op.closesAll = true →
        m.hub.connectionCount = 0 :=
  accounted_iff (Run.of_guarded (by decide))

/-- alice subscribes, and the hub is closed. -/
theorem not_accounted_of_run : ¬∀ (c : StreamConfig) (ops : List StreamOp) (s : StreamSystem),
    Run (Step c) {} ops s → s.Settled → s.hub.Accounted := by
  intro h
  have hrun : Run (Step {}) {} [.subscribe "alice" "r-1" true {}, .resumeCall 0 {}, .resumeCall 0 {},
      .closeAll, .resumeCall 1 {}, .resumeCall 1 {}] _ := Run.of_guarded (by decide)
  exact absurd (h {} _ _ hrun (by decide)) (by decide)

end StreamSystem

end RealtimeGame.Gateway
