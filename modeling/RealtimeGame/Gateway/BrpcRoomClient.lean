import Mathlib.Data.List.Induction
import RealtimeGame.Gateway.StreamHub
import RealtimeGame.Room.RoomProto

/-!
# Gateway/BrpcRoomClient — the calls to Room, and how they are counted

Every method ends in one status, and is to count it: `ok` for `kOk`, `failed` for every other.  An answer of a
Room that shuts down is not counted, and a successful `GetSnapshotsSince` twice (`outcome_accounting`).
-/

open RealtimeGame.Room

namespace RealtimeGame.Gateway

inductive RoomCallStatus
  | ok
  | unavailable
  | invalidArgument
  | notAMember
  | notPlaying
  | notFound
  | shuttingDown
  | alreadyFinished
  | resultPending
  | storeUnavailable
  | internal
  deriving DecidableEq, Repr

structure MatchResultSnapshot where
  matchId : String := ""
  roomId : String := ""
  winnerId : String := ""
  playerCount : Int := 0
  startedAtMs : Int := 0
  finishedAtMs : Int := 0
  deriving DecidableEq, Repr

/-- `MatchResultView`; the fields tell by themselves whether there is a result and a room. -/
structure MatchResultView where
  result : Option MatchResultSnapshot := none
  room : Option RoomSnapshot := none
  deriving DecidableEq, Repr

/-! ## Conversions

What comes over the wire, in the words of the Gateway.  An unknown value has a name as well. -/

def toState : Proto.RoomState → RoomState
  | .waiting => .waiting
  | .playing => .playing
  | .finishing => .finishing
  | .finished => .finished
  | .aborted => .aborted
  | .created | .unspecified | .other _ => .created

def toFinishReasonString : Proto.FinishReason → String
  | .hpZero => "hp_zero"
  | .timeout => "timeout"
  | .aborted => "aborted"
  | .disconnect => "disconnect"
  | .unspecified | .other _ => "none"

def toSnapshot (source : Proto.RoomSnapshot) : RoomSnapshot where
  roomId := source.roomId
  matchId := source.matchId
  state := toState source.state
  frame := source.frame
  finishReason := toFinishReasonString source.finishReason
  winnerId := source.winnerId
  startedAtMs := source.startedAtMs
  finishedAtMs := source.finishedAtMs
  players := source.players.map fun player => ⟨player.playerId, player.hp, player.connected, player.online⟩

/-- A status that is not known is not a complete window. -/
def toWindowStatus : Proto.SnapshotWindowStatus → SnapshotWindowStatus
  | .ready => .ready
  | .ahead => .ahead
  | .incomplete | .unspecified | .other _ => .incomplete

/-! ## Counting

A helper counts where it finds the status; one method counts by itself. -/

/-- The two counters of the calls to Room. -/
structure RpcCounters where
  ok : Nat := 0
  failed : Nat := 0
  deriving DecidableEq, Repr

def recordRpcCall (ok : Bool) (m : RpcCounters) : RpcCounters :=
  if ok then { m with ok := m.ok + 1 } else { m with failed := m.failed + 1 }

/-- `ToCallStatus`, with what it counts. -/
def toCallStatus (code : Proto.RoomErrorCode) (m : RpcCounters) : RoomCallStatus × RpcCounters :=
  match code with
  | .unspecified => (.ok, recordRpcCall true m)
  | .invalidArgument => (.invalidArgument, recordRpcCall false m)
  | .notAMember => (.notAMember, recordRpcCall false m)
  | .notPlaying => (.notPlaying, recordRpcCall false m)
  | .notFound => (.notFound, recordRpcCall false m)
  | .alreadyFinished => (.alreadyFinished, recordRpcCall false m)
  | .resultPending => (.resultPending, recordRpcCall false m)
  | .storeUnavailable => (.storeUnavailable, recordRpcCall false m)
  | .shuttingDown => (.shuttingDown, m)
  | .internal | .other _ => (.internal, recordRpcCall false m)

/-! ## The methods

A call without a response is a failure of the transport. -/

namespace BrpcRoomClient

/-- What a method returns, what it writes to its out parameter if there is one, and the counters then. -/
structure Outcome (β : Type) where
  status : RoomCallStatus
  out : Option β
  counters : RpcCounters
  deriving DecidableEq

/-- The end of most methods; there is no `response` if the controller has failed. -/
def conclude {ρ β : Type} (code : ρ → Proto.RoomErrorCode) (out : ρ → β) (response : Option ρ)
    (m : RpcCounters) : Outcome β :=
  match response with
  | none => ⟨.unavailable, none, recordRpcCall false m⟩
  | some response =>
    ⟨(toCallStatus (code response) m).1, some (out response), (toCallStatus (code response) m).2⟩

variable (m : RpcCounters)

def join (response : Option Proto.RoomResponse) : Outcome RoomSnapshot :=
  conclude (·.code) (toSnapshot ·.room) response m

def submitAttack (response : Option Proto.RoomResponse) : Outcome RoomSnapshot :=
  conclude (·.code) (toSnapshot ·.room) response m

def setPresence (response : Option Proto.RoomResponse) : Outcome RoomSnapshot :=
  conclude (·.code) (toSnapshot ·.room) response m

def getState (response : Option Proto.RoomResponse) : Outcome RoomSnapshot :=
  conclude (·.code) (toSnapshot ·.room) response m

def getResult (response : Option Proto.GetMatchResultResponse) : Outcome MatchResultView :=
  conclude (·.code) (fun response =>
    { result := response.result.map fun result => ⟨result.matchId, result.roomId, result.winnerId,
        result.playerCount, result.startedAtMs, result.finishedAtMs⟩
      room := response.room.map toSnapshot }) response m

/-- It counts where the status is made, and once more at its end. -/
def getSnapshotsSince (response : Option Proto.GetRoomSnapshotsSinceResponse) : Outcome SnapshotRange :=
  match response with
  | none => ⟨.unavailable, none, recordRpcCall false m⟩
  | some response =>
    let (status, m) := toCallStatus response.code m
    if status ≠ .ok then ⟨status, none, m⟩
    else ⟨.ok, some { status := toWindowStatus response.status, snapshots := response.snapshots.map toSnapshot },
      recordRpcCall true m⟩

/-! ## Sequences of calls

The methods in any order, on the same counters. -/

/-- A call, and the response that it gets. -/
inductive Call
  | join (response : Option Proto.RoomResponse)
  | submitAttack (response : Option Proto.RoomResponse)
  | setPresence (response : Option Proto.RoomResponse)
  | getState (response : Option Proto.RoomResponse)
  | getResult (response : Option Proto.GetMatchResultResponse)
  | getSnapshotsSince (response : Option Proto.GetRoomSnapshotsSinceResponse)
  deriving DecidableEq

namespace Call

/-- What a call returns, and the counters after it. -/
def run (m : RpcCounters) : Call → RoomCallStatus × RpcCounters
  | .join response => let outcome := BrpcRoomClient.join m response; (outcome.status, outcome.counters)
  | .submitAttack response =>
    let outcome := BrpcRoomClient.submitAttack m response; (outcome.status, outcome.counters)
  | .setPresence response =>
    let outcome := BrpcRoomClient.setPresence m response; (outcome.status, outcome.counters)
  | .getState response => let outcome := BrpcRoomClient.getState m response; (outcome.status, outcome.counters)
  | .getResult response =>
    let outcome := BrpcRoomClient.getResult m response; (outcome.status, outcome.counters)
  | .getSnapshotsSince response =>
    let outcome := BrpcRoomClient.getSnapshotsSince m response; (outcome.status, outcome.counters)

/-- The code of the response, if there is one. -/
def code : Call → Option Proto.RoomErrorCode
  | .join response | .submitAttack response | .setPresence response | .getState response =>
    response.map (·.code)
  | .getResult response => response.map (·.code)
  | .getSnapshotsSince response => response.map (·.code)

/-- Is this a call of `GetSnapshotsSince`? -/
def asksForSnapshots : Call → Bool
  | .getSnapshotsSince _ => true
  | _ => false

/-- Room does not say that it shuts down, nor does it answer `GetSnapshotsSince` with success. -/
def Countable (call : Call) : Prop :=
  call.code ≠ some .shuttingDown ∧ ¬(call.asksForSnapshots = true ∧ call.code = some .unspecified)

instance (call : Call) : Decidable call.Countable := inferInstanceAs (Decidable (_ ∧ _))

/-- The counters after a sequence of calls. -/
def runs (m : RpcCounters) (calls : List Call) : RpcCounters := calls.foldl (fun m call => (call.run m).2) m

end Call

variable {m}

/-- A call that is counted leaves a trace, -/
theorem recordRpcCall_ne_self (ok : Bool) : recordRpcCall ok m ≠ m := by
  cases ok <;> intro h
  · exact absurd (congrArg RpcCounters.failed h) (Nat.succ_ne_self _)
  · exact absurd (congrArg RpcCounters.ok h) (Nat.succ_ne_self _)

/-- …of one. -/
theorem total_recordRpcCall (ok : Bool) :
    (recordRpcCall ok m).ok + (recordRpcCall ok m).failed = m.ok + m.failed + 1 := by
  cases ok
  · exact (Nat.add_assoc _ _ _).symm
  · exact Nat.add_right_comm _ _ _

/-- The helper counts by its status, but for a Room that shuts down. -/
theorem toCallStatus_counts (code : Proto.RoomErrorCode) :
    (toCallStatus code m).2 = recordRpcCall (decide ((toCallStatus code m).1 = .ok)) m ↔
      code ≠ .shuttingDown := by
  cases code with
  | shuttingDown => exact iff_of_false (recordRpcCall_ne_self _).symm (not_not.mpr rfl)
  | _ => exact iff_of_true rfl (by rintro ⟨⟩)

/-- Only an answer without an error is `kOk`. -/
theorem toCallStatus_eq_ok {code : Proto.RoomErrorCode} :
    (toCallStatus code m).1 = .ok ↔ code = .unspecified := by
  cases code with
  | unspecified => exact iff_of_true rfl rfl
  | _ => exact iff_of_false (by rintro ⟨⟩) (by rintro ⟨⟩)

/-- So does a method that ends in it. -/
theorem conclude_counts {ρ β : Type} {code : ρ → Proto.RoomErrorCode} {out : ρ → β} (response : Option ρ) :
    (conclude code out response m).counters =
        recordRpcCall (decide ((conclude code out response m).status = .ok)) m ↔
      response.map code ≠ some .shuttingDown := by
  cases response with
  | none => exact iff_of_true rfl (by rintro ⟨⟩)
  | some response =>
    rw [Option.map_some, ne_eq, Option.some.injEq]
    exact toCallStatus_counts (code response)

/-- The method that counts by itself, beside the helper. -/
theorem getSnapshotsSince_counts (response : Option Proto.GetRoomSnapshotsSinceResponse) :
    (getSnapshotsSince m response).counters =
        recordRpcCall (decide ((getSnapshotsSince m response).status = .ok)) m ↔
      response.map (·.code) ≠ some .shuttingDown ∧ response.map (·.code) ≠ some .unspecified := by
  cases response with
  | none => exact iff_of_true rfl ⟨by rintro ⟨⟩, by rintro ⟨⟩⟩
  | some response =>
    rw [Option.map_some, ne_eq, ne_eq, Option.some.injEq, Option.some.injEq]
    by_cases hok : response.code = .unspecified
    · -- Counted by the helper, and again.
      refine iff_of_false (fun h => ?_) fun h => h.2 hok
      rw [getSnapshotsSince, hok] at h
      have htwice : recordRpcCall true (recordRpcCall true m) = recordRpcCall true m := h
      exact recordRpcCall_ne_self _ htwice
    · have hfailed : getSnapshotsSince m (some response) =
          ⟨(toCallStatus response.code m).1, none, (toCallStatus response.code m).2⟩ :=
        if_pos (mt toCallStatus_eq_ok.mp hok)
      rw [hfailed, and_iff_left hok]
      exact toCallStatus_counts response.code

namespace Call

/-- **One call** is counted once, by what it returns, exactly if it is countable. -/
theorem run_counts (call : Call) (m : RpcCounters) :
    (call.run m).2 = recordRpcCall (decide ((call.run m).1 = .ok)) m ↔ call.Countable := by
  cases call with
  | join response | submitAttack response | setPresence response | getState response | getResult response =>
    refine (conclude_counts response).trans (and_iff_left ?_).symm
    rintro ⟨⟨⟩, -⟩
  | getSnapshotsSince response =>
    refine (getSnapshotsSince_counts response).trans (and_congr_right' ?_)
    exact ⟨fun h hand => h hand.2, fun h heq => h ⟨rfl, heq⟩⟩

/-- **The account of the calls** — in a sequence of calls each is counted once, as `ok` if it returns `kOk`
and as `failed` if not, and the counters add up to the calls, exactly if all of them are countable. -/
theorem outcome_accounting (m : RpcCounters) (calls : List Call) :
    ((∀ pre call post, calls = pre ++ call :: post →
        ((call.run (runs m pre)).1 = .ok →
          runs m (pre ++ [call]) = ⟨(runs m pre).ok + 1, (runs m pre).failed⟩) ∧
        ((call.run (runs m pre)).1 ≠ .ok →
          runs m (pre ++ [call]) = ⟨(runs m pre).ok, (runs m pre).failed + 1⟩)) ∧
      ∀ pre, pre <+: calls → (runs m pre).ok + (runs m pre).failed = m.ok + m.failed + pre.length) ↔
    ∀ call ∈ calls, call.Countable := by
  have hsnoc : ∀ pre call, runs m (pre ++ [call]) = (call.run (runs m pre)).2 := fun pre call =>
    List.foldl_append
  have hone : ∀ pre call, call.Countable ↔
      ((call.run (runs m pre)).1 = .ok →
        runs m (pre ++ [call]) = ⟨(runs m pre).ok + 1, (runs m pre).failed⟩) ∧
      ((call.run (runs m pre)).1 ≠ .ok →
        runs m (pre ++ [call]) = ⟨(runs m pre).ok, (runs m pre).failed + 1⟩) := by
    intro pre call
    rw [← run_counts call (runs m pre), hsnoc]
    by_cases hok : (call.run (runs m pre)).1 = .ok
    · rw [hok]
      exact ⟨fun h => ⟨fun _ => h, fun hne => absurd rfl hne⟩, fun h => h.1 rfl⟩
    · rw [decide_eq_false hok]
      exact ⟨fun h => ⟨fun heq => absurd heq hok, fun _ => h⟩, fun h => h.2 hok⟩
  constructor
  · rintro ⟨heach, -⟩ call hcall
    obtain ⟨pre, post, heq⟩ := List.append_of_mem hcall
    exact (hone pre call).mpr (heach pre call post heq)
  · intro hall
    refine ⟨fun pre call post heq => (hone pre call).mp (hall call (by simp [heq])), fun pre hpre => ?_⟩
    induction pre using List.reverseRecOn with
    | nil => rfl
    | append_singleton pre call ih =>
      have hcall : call ∈ calls := hpre.subset (by simp)
      have hcounts := (run_counts call (runs m pre)).mpr (hall call hcall)
      rw [hsnoc, hcounts, total_recordRpcCall, ih ((List.prefix_append _ _).trans hpre),
        List.length_append, List.length_singleton, Nat.add_assoc _ pre.length]

/-- A Room that shuts down is asked for a state, and nothing is counted. -/
theorem not_outcome_accounting :
    let call : Call := .getState (some { code := .shuttingDown })
    (call.run {}).1 = .shuttingDown ∧ runs {} [call] = ⟨0, 0⟩ ∧
      (runs {} [call]).ok + (runs {} [call]).failed ≠ [call].length := by
  decide

example : runs {} [.getSnapshotsSince (some {})] = ⟨2, 0⟩ := by decide

end Call

end BrpcRoomClient

end RealtimeGame.Gateway
