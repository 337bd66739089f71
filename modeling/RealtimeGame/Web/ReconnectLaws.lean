import RealtimeGame.Library.Run
import RealtimeGame.Web.Reconnect

/-!
# Web/ReconnectLaws — the budget and the timers of a subscription that connects again

A wait that `resetBudget` ends leaves its timer armed.  This does no harm for as long as the next wait has not
begun, for `sleeping` still holds the timer (`Shape`).  From then on two timers are armed, and nobody knows the
first.  The budget is kept in any case (`Budgeted`).
-/

open Library

namespace RealtimeGame.Web.PushController

variable {s : PushController} {op : Op} {ops : List Op}

/-! ## What the pieces do

The calls of the signal and of a timer, without their branches. -/

/-- `onAbort` clears the timer at hand, and ends its own wait. -/
theorem onAbort_eq (wait : Nat) : s.onAbort wait =
    { s with
      timers := s.timers.filter fun timer => s.sleeping ≠ some timer.wait
      sleeping := none
      pc := if s.pc = .waiting wait then .woken false else s.pc } := by
  obtain ⟨aborted, stopped, attempt, status, sleeping, wakeWait, timers, listeners, waits, pc, reports, errors,
    consecutive, late⟩ := s
  cases sleeping <;> by_cases hpc : pc = .waiting wait <;>
    simp [onAbort, settleWait, clear, hpc, eq_comm]

/-- `settleWait` moves `run`, and nothing else. -/
theorem settleWait_eq (wait : Nat) (resolved : Bool) : s.settleWait wait resolved =
    { s with pc := if s.pc = .waiting wait then .woken resolved else s.pc } := by
  unfold settleWait
  split <;> rfl

/-! ## The budget

A run is spent when it starts, so what is spent and the run that is about to start stay within the budget. -/

/-- Whether a run has started since the last back-off. -/
def Pc.spent : Pc → Nat
  | running | settled _ | failed | finishing | ended => 1
  | reconnecting _ | waiting _ | woken _ | returned _ | starting => 0

/-- **The failures since the last `resetBudget` are counted**: no more runs than those, and one. -/
structure Budgeted (s : PushController) : Prop where
  attempt : s.attempt ≤ kMaxReconnectAttempts
  consecutive : s.consecutive ≤ s.attempt + s.pc.spent

theorem Budgeted.start : Budgeted {} := ⟨Nat.zero_le _, Nat.le_refl _⟩

/-- A wait that ends starts no run. -/
theorem Budgeted.wake (h : s.Budgeted) {s' : PushController} (hattempt : s'.attempt = s.attempt)
    (hconsecutive : s'.consecutive = s.consecutive)
    (hpc : s'.pc = s.pc ∨ ∃ wait resolved, s.pc = .waiting wait ∧ s'.pc = .woken resolved) :
    s'.Budgeted := by
  have hspent : s'.pc.spent = s.pc.spent := by
    rcases hpc with hpc | ⟨wait, resolved, hpc, hpc'⟩
    · rw [hpc]
    · rw [hpc, hpc']
      rfl
  exact ⟨hattempt ▸ h.attempt, by rw [hconsecutive, hattempt, hspent]; exact h.consecutive⟩

/-- A wait that is settled wakes the run that waits for it, and no other. -/
theorem pc_settleWait (wait : Nat) (resolved : Bool) : (s.settleWait wait resolved).pc = s.pc ∨
    ∃ wait' resolved', s.pc = .waiting wait' ∧ (s.settleWait wait resolved).pc = .woken resolved' := by
  rw [settleWait_eq]
  by_cases hpc : s.pc = .waiting wait
  · exact .inr ⟨wait, resolved, hpc, if_pos hpc⟩
  · exact .inl (if_neg hpc)

/-- So it starts no run; nor does what settles a wait: -/
theorem Budgeted.settleWait (h : s.Budgeted) (wait : Nat) (resolved : Bool) :
    (s.settleWait wait resolved).Budgeted :=
  h.wake (by rw [settleWait_eq]) (by rw [settleWait_eq]) (pc_settleWait wait resolved)

/-- the signal, -/
theorem Budgeted.onAbort (h : s.Budgeted) (wait : Nat) : (s.onAbort wait).Budgeted := by
  refine h.wake (by rw [onAbort_eq]) (by rw [onAbort_eq]) ?_
  rw [onAbort_eq]
  by_cases hpc : s.pc = .waiting wait
  · exact .inr ⟨wait, false, hpc, if_pos hpc⟩
  · exact .inl (if_neg hpc)

/-- …`stop`, -/
theorem Budgeted.stop (h : s.Budgeted) : s.stop.Budgeted := by
  unfold PushController.stop
  split
  · exact h
  · exact List.foldlRecOn (motive := Budgeted) s.listeners PushController.onAbort
      ⟨h.attempt, h.consecutive⟩ fun _ hs wait _ => hs.onAbort wait

/-- …and a timer. -/
theorem Budgeted.fire (h : s.Budgeted) (wait : Nat) : (s.fire wait).Budgeted := by
  unfold PushController.fire
  split
  · refine Budgeted.settleWait ?_ wait true
    exact ⟨h.attempt, h.consecutive⟩
  · exact h

/-- A new budget has nothing spent. -/
theorem Budgeted.resetBudget : s.resetBudget.Budgeted := by
  unfold PushController.resetBudget
  split
  · exact Budgeted.settleWait ⟨Nat.zero_le _, Nat.zero_le _⟩ _ true
  · exact ⟨Nat.zero_le _, Nat.zero_le _⟩

/-- A run that ended was paid for. -/
theorem Budgeted.afterRun (h : s.Budgeted) (hpc : s.pc.spent = 1) : s.afterRun.Budgeted := by
  have hconsecutive := h.consecutive
  rw [hpc] at hconsecutive
  unfold PushController.afterRun
  split
  · exact ⟨h.attempt, hconsecutive⟩
  split
  · exact ⟨h.attempt, hconsecutive⟩
  case isFalse hleft => exact ⟨Nat.lt_of_not_le hleft, hconsecutive⟩

/-- A wait is not paid for yet. -/
theorem Budgeted.waitFor (h : s.Budgeted) (hpc : s.pc.spent = 0) (delayMs : Int) :
    (s.waitFor delayMs).Budgeted := by
  have hconsecutive := h.consecutive
  rw [hpc] at hconsecutive
  have hbegun : Budgeted { s with waits := s.waits + 1, pc := .waiting s.waits } := ⟨h.attempt, hconsecutive⟩
  unfold PushController.waitFor
  dsimp only
  split
  · have haborted := hbegun.onAbort s.waits
    exact ⟨haborted.attempt, haborted.consecutive⟩
  · exact ⟨hbegun.attempt, hbegun.consecutive⟩

/-- **One piece of `run`.** -/
theorem Budgeted.micro (h : s.Budgeted) : s.micro.Budgeted := by
  have hattempt := h.attempt
  have hconsecutive := h.consecutive
  unfold PushController.micro
  rcases hpc : s.pc with - | (- | -) | - | delayMs | wait | resolved | (- | -) | - | - | - <;>
    rw [hpc] at hconsecutive <;> dsimp only
  case running | waiting | ended => exact h
  case settled.false | failed => exact h.afterRun (by rw [hpc]; rfl)
  case settled.true =>
    split
    · exact ⟨hattempt, hconsecutive⟩
    · exact ⟨hattempt, hconsecutive⟩
  case reconnecting => exact h.waitFor (by rw [hpc]; rfl) delayMs
  case woken | returned.true => exact ⟨hattempt, hconsecutive⟩
  case returned.false => exact ⟨hattempt, Nat.le_succ_of_le hconsecutive⟩
  case starting => exact ⟨hattempt, Nat.succ_le_succ hconsecutive⟩
  case finishing =>
    split
    · exact ⟨hattempt, hconsecutive⟩
    · exact ⟨hattempt, hconsecutive⟩

/-- **One step.** -/
theorem Budgeted.next (h : s.Budgeted) (op : Op) : (s.next op).Budgeted := by
  cases op with
  | settle failed =>
    dsimp only [PushController.next]
    split
    case isTrue hpc =>
      have hconsecutive := h.consecutive
      rw [hpc] at hconsecutive
      exact ⟨h.attempt, hconsecutive⟩
    case isFalse => exact h
  | fire wait => exact h.fire wait
  | resetBudget => exact .resetBudget
  | stop => exact h.stop
  | micro => exact h.micro

/-! ## The timers

At most one timer is armed, and `sleeping` holds it.  Each case is a place where `run` can be. -/

/-- **What is armed**: nothing, or the timer of the wait that is on, or of one that `resetBudget` has ended;
`sleeping` holds it, and one listener would clear it. -/
inductive Shape (s : PushController) : Prop
  | idle (htimers : s.timers = []) (hsleeping : s.sleeping = none) (hlisteners : s.listeners = [])
      (hpc : ∀ wait, s.pc ≠ .waiting wait) (hrun : s.aborted = true → s.pc.toRun = false)
  | armed (wait : Nat) (delayMs : Int) (htimers : s.timers = [⟨wait, delayMs⟩])
      (hsleeping : s.sleeping = some wait) (hlisteners : s.listeners = [wait]) (haborted : s.aborted = false)
      (hpc : s.pc = .waiting wait ∨ s.attempt = 0 ∧ (s.pc.toRun = true ∨ s.pc = .running))

/-- **The step does not disturb the waits**: no run ends while a timer is armed, and `stop` does not come
between the end of a wait and the run after it. -/
def Undisturbed (s : PushController) : Op → Prop
  | .settle _ => s.pc = .running → s.timers = []
  | .stop => s.aborted = false → s.pc.toRun = false
  | .fire _ | .resetBudget | .micro => True

/-- Who is about to run, or runs, does not wait. -/
theorem Pc.ne_waiting {pc : Pc} (h : pc.toRun = true ∨ pc = .running) (wait : Nat) : pc ≠ .waiting wait := by
  rintro rfl
  rcases h with h | h <;> cases h

theorem Shape.start : Shape {} :=
  .idle rfl rfl rfl (fun _ h => by cases h) fun _ => rfl

/-- A request that ends while nothing is armed leads to the next wait. -/
theorem Shape.settle (h : s.Shape) (failed : Bool) (hguard : s.Undisturbed (.settle failed)) :
    (s.next (.settle failed)).Shape := by
  dsimp only [PushController.next]
  split
  case isFalse => exact h
  case isTrue hpc =>
    cases h with
    | idle htimers hsleeping hlisteners =>
      exact .idle htimers hsleeping hlisteners (fun _ h => by cases h) fun _ => rfl
    | armed wait delayMs htimers => cases htimers.symm.trans (hguard hpc)

/-- A timer fires once, and ends the wait that armed it. -/
theorem Shape.fire (h : s.Shape) (wait : Nat) : (s.fire wait).Shape := by
  unfold PushController.fire
  split
  case isFalse => exact h
  case isTrue hdue =>
    rw [Bool.and_eq_true, decide_eq_true_iff] at hdue
    obtain ⟨hquiet, hdue⟩ := hdue
    cases h with
    | idle htimers =>
      rw [htimers] at hdue
      cases hdue
    | armed wait' delayMs htimers hsleeping hlisteners haborted hpc =>
      obtain rfl : wait = wait' := by simpa [htimers] using hdue
      rw [settleWait_eq]
      refine .idle (by simp [clear, htimers]) rfl (by simp [hlisteners]) (fun wait' => ?_) fun h => ?_
      · rcases hpc with hpc | ⟨-, hpc⟩
        · simp [clear, hpc]
        · simp [clear, Pc.ne_waiting hpc]
      · cases haborted.symm.trans h

/-- A new budget ends the wait, and leaves the timer to `sleeping`. -/
theorem Shape.resetBudget (h : s.Shape) : s.resetBudget.Shape := by
  unfold PushController.resetBudget
  cases h with
  | idle htimers hsleeping hlisteners hpc hrun =>
    split
    · rw [settleWait_eq, if_neg (hpc _)]
      exact .idle htimers hsleeping hlisteners hpc hrun
    · exact .idle htimers hsleeping hlisteners hpc hrun
  | armed wait delayMs htimers hsleeping hlisteners haborted hpc =>
    split
    case h_1 wait' hwake =>
      rw [settleWait_eq]
      refine .armed wait delayMs htimers hsleeping hlisteners haborted ?_
      by_cases hpc' : s.pc = .waiting wait'
      · exact .inr ⟨rfl, .inl (by simp [hpc', Pc.toRun])⟩
      · exact hpc.imp (fun hwaiting => (if_neg hpc').trans hwaiting) fun hleft =>
          ⟨rfl, (if_neg hpc').symm ▸ hleft.2⟩
    case h_2 =>
      exact .armed wait delayMs htimers hsleeping hlisteners haborted
        (hpc.imp_right fun hleft => ⟨rfl, hleft.2⟩)

/-- The signal clears what is armed. -/
theorem Shape.stop (h : s.Shape) (hguard : s.Undisturbed .stop) : s.stop.Shape := by
  unfold PushController.stop
  split
  case isTrue => exact h
  case isFalse haborted =>
    have hrun := hguard (Bool.eq_false_iff.mpr haborted)
    cases h with
    | idle htimers hsleeping hlisteners hpc =>
      rw [hlisteners]
      exact .idle htimers hsleeping rfl hpc fun _ => hrun
    | armed wait delayMs htimers hsleeping hlisteners _ hpc =>
      rw [hlisteners, List.foldl_cons, List.foldl_nil, onAbort_eq]
      refine .idle (by simp [htimers, hsleeping]) rfl rfl (fun wait' => ?_) fun _ => ?_
      · rcases hpc with hpc | ⟨-, hpc⟩
        · simp [hpc]
        · simp [Pc.ne_waiting hpc]
      · rcases hpc with hpc | ⟨-, hpc⟩
        · simp [hpc, Pc.toRun]
        · simp [Pc.ne_waiting hpc, hrun]

/-- A wait begins with nothing armed. -/
theorem Shape.waitFor {delayMs : Int} (htimers : s.timers = []) (hlisteners : s.listeners = []) :
    (s.waitFor delayMs).Shape := by
  unfold PushController.waitFor
  dsimp only
  split
  case isTrue =>
    rw [onAbort_eq]
    exact .idle (by simp [htimers]) rfl hlisteners (by simp) (by simp [Pc.toRun])
  case isFalse haborted =>
    exact .armed s.waits delayMs (by simp [htimers]) rfl (by simp [hlisteners]) (by simpa using haborted)
      (.inl rfl)

/-- A run that ended waits, or is done. -/
theorem Shape.afterRun (htimers : s.timers = []) (hsleeping : s.sleeping = none)
    (hlisteners : s.listeners = []) : s.afterRun.Shape := by
  unfold PushController.afterRun
  split
  · exact .idle htimers hsleeping hlisteners (fun _ h => by cases h) fun _ => rfl
  split
  · exact .idle htimers hsleeping hlisteners (fun _ h => by cases h) fun _ => rfl
  · exact .idle htimers hsleeping hlisteners (fun _ h => by cases h) fun _ => rfl

/-- **One piece of `run`.** -/
theorem Shape.micro (h : s.Shape) : s.micro.Shape := by
  unfold PushController.micro
  cases h with
  | idle htimers hsleeping hlisteners hwait hrun =>
    rcases hpc : s.pc with - | (- | -) | - | delayMs | wait | (- | -) | (- | -) | - | - | - <;>
      rw [hpc] at hrun <;> dsimp only
    case running | ended => exact .idle htimers hsleeping hlisteners hwait (hpc ▸ hrun)
    case waiting => exact absurd hpc (hwait wait)
    case settled.false | failed => exact .afterRun htimers hsleeping hlisteners
    case settled.true =>
      split
      · exact .idle htimers hsleeping hlisteners (fun _ h => by cases h) fun _ => rfl
      · exact .idle htimers hsleeping hlisteners (fun _ h => by cases h) fun _ => rfl
    case reconnecting => exact .waitFor htimers hlisteners
    case woken.false | woken.true | returned.false | returned.true | starting =>
      exact .idle htimers hsleeping hlisteners (fun _ h => by cases h) fun haborted => by
        first | exact hrun haborted | rfl
    case finishing =>
      split
      · exact .idle htimers hsleeping hlisteners (fun _ h => by cases h) fun _ => rfl
      · exact .idle htimers hsleeping hlisteners (fun _ h => by cases h) fun _ => rfl
  | armed wait delayMs htimers hsleeping hlisteners haborted hpc =>
    rcases hpc with hpc | ⟨hattempt, hrun⟩
    · rw [hpc]
      exact .armed wait delayMs htimers hsleeping hlisteners haborted (.inl hpc)
    · rcases hpc : s.pc with - | _ | - | _ | _ | (- | -) | (- | -) | - | - | - <;>
        rw [hpc] at hrun <;> dsimp only
      case running =>
        exact .armed wait delayMs htimers hsleeping hlisteners haborted (.inr ⟨hattempt, .inr hpc⟩)
      case woken.true | returned.true =>
        exact .armed wait delayMs htimers hsleeping hlisteners haborted (.inr ⟨hattempt, .inl rfl⟩)
      case starting =>
        exact .armed wait delayMs htimers hsleeping hlisteners haborted (.inr ⟨hattempt, .inr rfl⟩)
      all_goals rcases hrun with h | h <;> cases h

/-! ## The law

Shape and budget together are kept by every step that is undisturbed, and a step that is not breaks a
promise. -/

/-- **What the controller keeps** for as long as nothing disturbs its waits. -/
structure Sound (s : PushController) : Prop where
  budgeted : s.Budgeted
  shape : s.Shape
  late : s.late = false

theorem Sound.start : Sound {} := ⟨.start, .start, rfl⟩

/-- `stop` starts no run. -/
theorem late_stop : s.stop.late = s.late := by
  unfold PushController.stop
  split
  · rfl
  · refine List.foldlRecOn (motive := fun s' => s'.late = s.late) s.listeners onAbort ?_
      fun s' hs' wait _ => ?_
    · rfl
    · rw [onAbort_eq]
      exact hs'

/-- A run that starts is not late. -/
theorem late_micro (h : s.Shape) : s.micro.late = s.late := by
  have hstarting : s.pc = .starting → s.aborted = false := by
    intro hpc
    cases h with
    | idle _ _ _ _ hrun =>
      refine Bool.eq_false_iff.mpr fun haborted => ?_
      have := hrun haborted
      rw [hpc] at this
      cases this
    | armed _ _ _ _ _ haborted => exact haborted
  unfold PushController.micro
  rcases hpc : s.pc with - | (- | -) | - | delayMs | wait | resolved | (- | -) | - | - | - <;> dsimp only
  case settled.true | finishing => split <;> rfl
  case settled.false | failed =>
    unfold PushController.afterRun
    split
    · rfl
    · split <;> rfl
  case reconnecting =>
    unfold PushController.waitFor
    dsimp only
    split
    · rw [onAbort_eq]
    · rfl
  case returned.true => rfl
  case starting => rw [hstarting hpc, Bool.or_false]

/-- **No step starts a run late**, as long as the timers have their shape. -/
theorem late_next (h : s.Shape) (op : Op) : (s.next op).late = s.late := by
  cases op with
  | settle failed =>
    dsimp only [PushController.next]
    split <;> rfl
  | fire wait =>
    dsimp only [PushController.next, PushController.fire]
    split
    · rw [settleWait_eq]
      rfl
    · rfl
  | resetBudget =>
    dsimp only [PushController.next, PushController.resetBudget]
    split
    · rw [settleWait_eq]
    · rfl
  | stop => exact late_stop
  | micro => exact late_micro h

/-- **One step.** -/
theorem Sound.next (h : s.Sound) (hguard : s.Undisturbed op) : (s.next op).Sound where
  budgeted := h.budgeted.next op
  shape := by
    cases op with
    | settle failed => exact h.shape.settle failed hguard
    | fire wait => exact h.shape.fire wait
    | resetBudget => exact h.shape.resetBudget
    | stop => exact h.shape.stop hguard
    | micro => exact h.shape.micro
  late := (late_next h.shape op).trans h.late

/-- **What the controller promises.** -/
structure Lawful (s : PushController) : Prop where
  /-- So many runs start at most without a `resetBudget`. -/
  budget : s.consecutive ≤ kMaxReconnectAttempts + 1
  /-- While it waits one timer is armed, that of the wait. -/
  oneTimer : ∀ wait, s.pc = .waiting wait → ∃ delayMs, s.timers = [⟨wait, delayMs⟩]
  /-- No run starts after `stop`. -/
  noRun : s.late = false
  /-- After `stop`, when no piece is left to run, no timer is armed. -/
  noTimer : s.aborted = true → s.pc.quiet = true → s.timers = []

/-- What is sound keeps the promises. -/
theorem Sound.lawful (h : s.Sound) : s.Lawful where
  budget := by
    have hspent : s.pc.spent ≤ 1 := by
      cases s.pc <;> simp [Pc.spent]
    exact h.budgeted.consecutive.trans (Nat.add_le_add h.budgeted.attempt hspent)
  oneTimer wait hwait := by
    cases h.shape with
    | idle _ _ _ hpc => exact absurd hwait (hpc wait)
    | armed wait' delayMs htimers _ _ _ hpc =>
      rcases hpc with hpc | ⟨-, hpc⟩
      · cases hpc.symm.trans hwait
        exact ⟨delayMs, htimers⟩
      · exact absurd hwait (Pc.ne_waiting hpc wait)
  noRun := h.late
  noTimer haborted _ := by
    cases h.shape with
    | idle htimers => exact htimers
    | armed wait delayMs htimers _ _ hnot => cases hnot.symm.trans haborted

/-- Pieces of the code run, and nothing else happens. -/
def settled (s : PushController) (pieces : Nat) : PushController := PushController.micro^[pieces] s

/-- The pieces that are left run as well. -/
theorem Sound.settled (h : s.Sound) (pieces : Nat) : (s.settled pieces).Sound := by
  induction pieces with
  | zero => exact h
  | succ pieces ih =>
    rw [PushController.settled, Function.iterate_succ_apply']
    have hstep : (s.settled pieces).Undisturbed .micro := trivial
    exact ih.next hstep

/-- A run that is about to start does, though `stop` was called. -/
theorem late_of_toRun (haborted : s.aborted = true) (hrun : s.pc.toRun = true) :
    ∃ pieces, (s.settled pieces).late = true := by
  rcases hpc : s.pc with - | _ | - | _ | _ | (- | -) | (- | -) | - | - | - <;> rw [hpc] at hrun
  case woken.true =>
    exact ⟨3, by simp [PushController.settled, PushController.micro, report, hpc, haborted]⟩
  case returned.true =>
    exact ⟨2, by simp [PushController.settled, PushController.micro, report, hpc, haborted]⟩
  case starting => exact ⟨1, by simp [PushController.settled, PushController.micro, hpc, haborted]⟩
  all_goals cases hrun

/-- `stop` leaves a run that is about to start. -/
theorem toRun_stop (h : s.Shape) (haborted : s.aborted = false) (hrun : s.pc.toRun = true) :
    s.stop.aborted = true ∧ s.stop.pc.toRun = true := by
  rw [PushController.stop, haborted, if_neg Bool.false_ne_true]
  cases h with
  | idle _ _ hlisteners =>
    rw [hlisteners]
    exact ⟨rfl, hrun⟩
  | armed wait _ _ _ hlisteners =>
    rw [hlisteners, List.foldl_cons, List.foldl_nil, onAbort_eq, if_neg (Pc.ne_waiting (.inl hrun) wait)]
    exact ⟨rfl, hrun⟩

/-- A run that ends while a timer is armed leads to a wait with two. -/
theorem two_timers {timer : Timer} (failed : Bool) (hpc : s.pc = .running) (haborted : s.aborted = false)
    (hattempt : s.attempt = 0) (htimers : s.timers = [timer]) : ∃ pieces wait,
      ((s.next (.settle failed)).settled pieces).pc = .waiting wait ∧
        ((s.next (.settle failed)).settled pieces).timers.length = 2 := by
  refine ⟨if failed then 3 else 2, s.waits, ?_⟩
  cases failed <;>
    simp [PushController.settled, PushController.next, PushController.micro, PushController.afterRun,
      PushController.waitFor, report, kMaxReconnectAttempts, kReconnectBackoffMs, hpc, haborted, hattempt,
      htimers]

/-- **A step that disturbs the waits** breaks a promise, when the pieces that are left have run. -/
theorem exists_not_lawful (h : s.Sound) (hguard : ¬s.Undisturbed op) :
    ∃ pieces, ¬((s.next op).settled pieces).Lawful := by
  cases op with
  | fire | resetBudget | micro => exact absurd trivial hguard
  | settle failed =>
    obtain ⟨hpc, harmed⟩ := Classical.not_imp.mp hguard
    cases h.shape with
    | idle htimers => exact absurd htimers harmed
    | armed wait delayMs htimers _ _ haborted hleft =>
      obtain ⟨hattempt, -⟩ := hleft.resolve_left (by rw [hpc]; simp)
      obtain ⟨pieces, wait', hwait, htwo⟩ := two_timers failed hpc haborted hattempt htimers
      refine ⟨pieces, fun hlawful => ?_⟩
      obtain ⟨delayMs, hone⟩ := hlawful.oneTimer wait' hwait
      rw [hone] at htwo
      cases htwo
  | stop =>
    obtain ⟨haborted, hrun⟩ := Classical.not_imp.mp hguard
    obtain ⟨haborted', hrun'⟩ := toRun_stop h.shape haborted (Bool.of_not_eq_false hrun)
    obtain ⟨pieces, hlate⟩ := late_of_toRun haborted' hrun'
    exact ⟨pieces, fun hlawful => by cases hlate.symm.trans hlawful.noRun⟩

/-- **A run that nothing disturbs is sound.** -/
theorem sound_of_guarded (h : Run.Guarded Undisturbed next {} ops) : (ops.foldl next {}).Sound :=
  (Run.of_guarded h).invariant (fun s op s' hs hstep => by
    obtain ⟨hguard, rfl⟩ := hstep
    exact hs.next hguard) .start

/-- **Budget and clean-up.**  The controller keeps its promises all along, and whenever the pieces that are left
have run, exactly if nothing disturbs its waits. -/
theorem lawful_iff (ops : List Op) :
    (∀ pre, pre <+: ops → ∀ pieces, ((pre.foldl next {}).settled pieces).Lawful) ↔
      Run.Guarded Undisturbed next {} ops := by
  constructor
  · induction ops using List.reverseRecOn with
    | nil => exact fun _ => trivial
    | append_singleton ops op ih =>
      intro hall
      have hbefore := ih fun pre hpre => hall pre (hpre.trans (List.prefix_append _ _))
      refine Run.guarded_append.mpr ⟨hbefore, ?_, trivial⟩
      by_contra hguard
      obtain ⟨pieces, hnot⟩ := exists_not_lawful (sound_of_guarded hbefore) hguard
      have hlast := hall (ops ++ [op]) (List.prefix_refl _) pieces
      rw [List.foldl_append] at hlast
      exact hnot hlast
  · rintro hguard pre ⟨post, rfl⟩ pieces
    exact ((sound_of_guarded (Run.guarded_append.mp hguard).1).settled pieces).lawful

/-- A run fails, `resetBudget` ends the wait, and the next run fails at once. -/
def resetInWait : List Op :=
  [.settle true, .micro, .micro, .micro, .resetBudget, .micro, .micro, .micro, .settle true, .micro, .micro,
    .micro]

/-- Two timers are armed then, and one stays armed after `stop`; and a run starts after `stop`, if that comes
behind `resetBudget`. -/
theorem not_lawful :
    ((resetInWait.foldl next {}).pc = .waiting 1 ∧
        (resetInWait.foldl next {}).timers = [⟨0, 1000⟩, ⟨1, 1000⟩]) ∧
      (((resetInWait ++ [Op.stop]).foldl next {}).settled 3).pc = .ended ∧
      (((resetInWait ++ [Op.stop]).foldl next {}).settled 3).timers = [⟨0, 1000⟩] ∧
      (((resetInWait.take 5 ++ [Op.stop]).foldl next {}).settled 3).late = true := by
  decide

end RealtimeGame.Web.PushController
