import RealtimeGame.Web.Stream

/-!
# Web/Reconnect — the subscription that connects again

`connectRoomPush` runs a subscription, and after each that ends it waits and runs another one.  Its code is cut
into the pieces that run without a gap, from one `await` or callback to the next, so that calls of `stop` and
`resetBudget` may come between any two.  A timer fires when no piece is left to run.
-/

namespace RealtimeGame.Web

def kReconnectBackoffMs : List Int := [1000, 2000, 4000, 5000, 5000]

def kMaxReconnectAttempts : Nat := kReconnectBackoffMs.length

/-- The back-off after so many failures. -/
def backoffFor (attempt : Nat) : Int :=
  kReconnectBackoffMs[attempt]?.getD (kReconnectBackoffMs.getLast?.getD 1000)

namespace PushController

/-- A timer that is armed, by its wait. -/
structure Timer where
  wait : Nat
  delayMs : Int
  deriving DecidableEq, Repr

/-- Where `run` stands. -/
inductive Pc
  /-- It awaits `options.run`. -/
  | running
  /-- `options.run` has ended. -/
  | settled (failed : Bool)
  /-- After `onError`. -/
  | failed
  /-- Before `waitFor`. -/
  | reconnecting (delayMs : Int)
  /-- It awaits the promise of a wait. -/
  | waiting (wait : Nat)
  /-- The promise is resolved, or rejected. -/
  | woken (resolved : Bool)
  /-- `waitFor` has returned, or thrown. -/
  | returned (resolved : Bool)
  /-- Before `options.run`. -/
  | starting
  /-- `run` has returned. -/
  | finishing
  | ended
  deriving DecidableEq, Repr

namespace Pc

/-- No piece of the code is left to run. -/
def quiet : Pc → Bool
  | running | waiting _ | ended => true
  | settled _ | failed | reconnecting _ | woken _ | returned _ | starting | finishing => false

/-- A wait has ended, and the run that follows it has not started. -/
def toRun : Pc → Bool
  | woken true | returned true | starting => true
  | woken false | returned false | running | settled _ | failed | reconnecting _ | waiting _ | finishing
  | ended => false

end Pc

end PushController

open PushController

/-- The variables of `connectRoomPush`, its timers and its listeners for `abort`; and what no code reads: the
calls of `onStatus` and of `onError`, the runs started since the last `resetBudget`, and whether one was started
after `stop`. -/
structure PushController where
  aborted : Bool := false
  stopped : Bool := false
  attempt : Nat := 0
  status : PushStatus := .connecting
  sleeping : Option Nat := none
  wakeWait : Option Nat := none
  timers : List Timer := []
  listeners : List Nat := []
  waits : Nat := 0
  pc : Pc := .running
  reports : List PushStatus := [.connecting]
  errors : Nat := 0
  consecutive : Nat := 1
  late : Bool := false
  deriving DecidableEq, Repr

namespace PushController

variable (s : PushController)

def report (status : PushStatus) : PushController :=
  { s with status := status, reports := s.reports ++ [status] }

/-- `timers.clear`. -/
def clear (wait : Nat) : PushController := { s with timers := s.timers.filter (·.wait ≠ wait) }

/-- The promise of a wait is resolved or rejected, if it is neither yet. -/
def settleWait (wait : Nat) (resolved : Bool) : PushController :=
  if s.pc = .waiting wait then { s with pc := .woken resolved } else s

/-- `onAbort` of a wait: it clears the timer that `sleeping` holds. -/
def onAbort (wait : Nat) : PushController :=
  match s.sleeping with
  | some handle => { s.clear handle with sleeping := none }.settleWait wait false
  | none => s.settleWait wait false

/-- `waitFor`, up to its `await`. -/
def waitFor (delayMs : Int) : PushController :=
  let wait := s.waits
  let begun := { s with waits := wait + 1, pc := .waiting wait }
  let armed :=
    if s.aborted then begun.onAbort wait
    else { begun with
      listeners := s.listeners ++ [wait]
      timers := s.timers ++ [⟨wait, delayMs⟩]
      sleeping := some wait }
  { armed with wakeWait := some wait }

/-- After a run that has ended. -/
def afterRun : PushController :=
  if s.aborted then { s with pc := .finishing }
  else if kMaxReconnectAttempts ≤ s.attempt then
    { { s with stopped := true }.report .exhausted with pc := .finishing }
  else
    { { s with attempt := s.attempt + 1 }.report .reconnecting with
      pc := .reconnecting (backoffFor s.attempt) }

/-- The next piece of `run`. -/
def micro : PushController :=
  match s.pc with
  | .running | .waiting _ | .ended => s
  | .settled true =>
    if s.aborted then { s with pc := .finishing } else { s with errors := s.errors + 1, pc := .failed }
  | .settled false | .failed => s.afterRun
  | .reconnecting delayMs => s.waitFor delayMs
  | .woken resolved => { s with wakeWait := none, pc := .returned resolved }
  | .returned true =>
    { s.report (if s.attempt = 0 then .connecting else .reconnecting) with pc := .starting }
  | .returned false => { s with pc := .finishing }
  | .starting =>
    { s with pc := .running, consecutive := s.consecutive + 1, late := s.late || s.aborted }
  | .finishing =>
    if s.status = .exhausted then { s with stopped := true, pc := .ended }
    else { { s with stopped := true }.report .stopped with pc := .ended }

inductive Op
  /-- `options.run` ends. -/
  | settle (failed : Bool)
  /-- A timer fires. -/
  | fire (wait : Nat)
  | resetBudget
  | stop
  | micro
  deriving DecidableEq, Repr

def resetBudget : PushController :=
  match s.wakeWait with
  | some wait => { s with attempt := 0, consecutive := 0, wakeWait := none }.settleWait wait true
  | none => { s with attempt := 0, consecutive := 0 }

/-- The listeners are called in their order, once. -/
def stop : PushController :=
  if s.aborted then s else s.listeners.foldl onAbort { s with aborted := true, listeners := [] }

/-- The handler of a timer. -/
def fire (wait : Nat) : PushController :=
  if s.pc.quiet && wait ∈ s.timers.map Timer.wait then
    { s.clear wait with sleeping := none, listeners := s.listeners.erase wait }.settleWait wait true
  else s

/-- **One step.**  The state at the start, `{}`, is that in which `connectRoomPush` returns. -/
def next : Op → PushController
  | .settle failed => if s.pc = .running then { s with pc := .settled failed } else s
  | .fire wait => s.fire wait
  | .resetBudget => s.resetBudget
  | .stop => s.stop
  | .micro => s.micro

end PushController

end RealtimeGame.Web
