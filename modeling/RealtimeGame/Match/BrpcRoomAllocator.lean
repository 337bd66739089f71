import RealtimeGame.Match.Backend
import RealtimeGame.Room.RoomService

/-!
# Match/BrpcRoomAllocator — `Allocate` by `CreateRoom`

The room id of the response, or the empty one; so `Allocate` answers the room that `Create` tells.
-/

namespace RealtimeGame.Match

namespace BrpcRoomAllocator

/-- There is no `response` if the controller has failed; a group without a match or players is not asked for. -/
def allocate (matchId : String) (playerIds : List String) (response : Option Room.RoomService.Response) : String :=
  if matchId = "" ∨ playerIds = [] then ""
  else
    match response with
    | none => ""
    | some response => if response.error.code ≠ .unspecified then "" else response.roomId

/-- What `CreateRoom` answers for a group. -/
def createRoom (w : Backend) (call : Call) (group : PendingGroup) : Room.RoomService.Response :=
  (Room.RoomService.createRoom w.rooms.manager call.nowMs group.matchId group.playerIds group.requestId call.roomId).1

/-- No room is made without a match or players. -/
theorem createArgsOk_of_blank {matchId : String} {playerIds : List String} (h : matchId = "" ∨ playerIds = []) :
    Room.BattleRoom.createArgsOk matchId playerIds = false := by
  rcases h with rfl | rfl
  · rfl
  · simp [Room.BattleRoom.createArgsOk]

/-- A `Create` that fails tells no room. -/
theorem told_of_failed {m : Room.RoomManager} {nowMs : Int} {matchId roomId : String} {playerIds : List String}
    (h : (m.create nowMs matchId playerIds roomId).1 ≠ .ok) :
    (m.create nowMs matchId playerIds roomId).2.1 = none := by
  unfold Room.RoomManager.create at h ⊢
  split
  case isTrue => rfl
  case isFalse hargs =>
    rw [if_neg hargs] at h
    cases hroom : (m.matchIndex.lookup matchId).bind m.rooms.lookup with
    | some room => simp [hroom] at h
    | none =>
      simp only [hroom] at h ⊢
      split_ifs at h ⊢
      · rfl
      · rfl
      · exact absurd rfl h
      · exact absurd rfl h

/-- **`Allocate` answers what `Create` tells.** -/
theorem allocate_createRoom (w : Backend) (call : Call) (group : PendingGroup) :
    allocate group.matchId group.playerIds (some (createRoom w call group)) = (w.told call group).getD "" := by
  by_cases hblank : group.matchId = "" ∨ group.playerIds = []
  · have hargs := createArgsOk_of_blank hblank
    simp [allocate, hblank, Backend.told, Room.RoomManager.create, hargs]
  · have hfailed : (w.rooms.manager.create call.nowMs group.matchId group.playerIds call.roomId).1 ≠ .ok →
        (w.rooms.manager.create call.nowMs group.matchId group.playerIds call.roomId).2.1 = none := told_of_failed
    rw [allocate, if_neg hblank, createRoom, Room.RoomService.createRoom, Backend.told]
    generalize w.rooms.manager.create call.nowMs group.matchId group.playerIds call.roomId = created at hfailed ⊢
    obtain ⟨outcome, told, m⟩ := created
    cases outcome with
    | ok => rfl
    | _ => rw [show told = none from hfailed (by rintro ⟨⟩)]; rfl

end BrpcRoomAllocator

end RealtimeGame.Match
