import RealtimeGame.Room.RoomSystem

/-!
# Room/Lifecycle — what a critical section can do to the rooms

Every operation on a room but the mark of a persisted result moves it along `BattleRoom.Becomes`: a
decided room keeps its phase, its winner and its result, and an undecided one does not become
finished.  Every critical section but the creation of a room and that mark moves the registry along
`RoomManager.Evolves`: each room that is left became what it is, and each that is gone was over.
-/

open Library

namespace RealtimeGame.Room

namespace BattleRoom

/-- **What every operation but `MarkResultPersisted` does to a room.** -/
structure Becomes (r r' : BattleRoom) : Prop where
  roomId : r'.roomId = r.roomId
  matchId : r'.matchId = r.matchId
  undecided : r.phase.unfinished = true → r'.phase ≠ .finished
  decided : r.phase.unfinished = false →
    r'.phase = r.phase ∧ r'.winnerId = r.winnerId ∧ r'.result = r.result

variable {r r' r'' : BattleRoom} {nowMs : Int}

/-- An undecided room is not finished. -/
theorem unfinished_ne_finished (h : r.phase.unfinished = true) : r.phase ≠ .finished := by
  rintro hp
  rw [hp] at h
  cases h

namespace Becomes

theorem refl (r : BattleRoom) : r.Becomes r :=
  ⟨rfl, rfl, unfinished_ne_finished, fun _ => ⟨rfl, rfl, rfl⟩⟩

theorem trans (h : r.Becomes r') (h' : r'.Becomes r'') : r.Becomes r'' where
  roomId := h'.roomId.trans h.roomId
  matchId := h'.matchId.trans h.matchId
  undecided hu := by
    cases hu' : r'.phase.unfinished with
    | true => exact h'.undecided hu'
    | false =>
      rw [(h'.decided hu').1]
      exact h.undecided hu
  decided hd := by
    obtain ⟨hphase, hwinner, hresult⟩ := h.decided hd
    obtain ⟨hphase', hwinner', hresult'⟩ := h'.decided (by rw [hphase]; exact hd)
    exact ⟨hphase'.trans hphase, hwinner'.trans hwinner, hresult'.trans hresult⟩

/-- An undecided room may become anything but finished. -/
theorem of_unfinished (hu : r.phase.unfinished = true) (hroom : r'.roomId = r.roomId)
    (hmatch : r'.matchId = r.matchId) (hphase : r'.phase ≠ .finished) : r.Becomes r' :=
  ⟨hroom, hmatch, fun _ => hphase, fun hd => absurd (hu.symm.trans hd) (by decide)⟩

/-- The last one to join starts the game. -/
theorem join (player : String) : r.Becomes (r.join nowMs player).2 := by
  cases hu : r.phase.unfinished with
  | false => rw [join_of_decided hu]; exact .refl r
  | true =>
    unfold BattleRoom.join
    split; · exact .refl r
    split; · exact .refl r
    split; · exact .refl r
    split; · exact .refl r
    dsimp only
    split
    · exact .of_unfinished hu rfl rfl (fun h => by cases h)
    · refine .of_unfinished hu rfl rfl ?_
      rw [pushSnapshot_phase]
      dsimp only
      split
      · decide
      · exact unfinished_ne_finished hu

/-- An attack is put down, and nothing else. -/
theorem submitInput (player : String) (kind : InputKind) :
    r.Becomes (r.submitInput player kind).2 := by
  cases hu : r.phase.unfinished with
  | false => rw [submitInput_of_decided hu]; exact .refl r
  | true =>
    unfold BattleRoom.submitInput
    split; · exact .refl r
    split; · exact .refl r
    split; · exact .refl r
    split; · exact .refl r
    exact .of_unfinished hu rfl rfl (unfinished_ne_finished hu)

/-- Presence moves a game that is being played, and no other. -/
theorem setPresence (player : String) (online : Bool) :
    r.Becomes (r.setPresence nowMs player online).2 := by
  cases hu : r.phase.unfinished with
  | false => rw [setPresence_of_decided hu]; exact .refl r
  | true =>
    unfold BattleRoom.setPresence
    split; · exact .refl r
    split; · exact .refl r
    split; · exact .refl r
    split; · exact .of_unfinished hu rfl rfl (unfinished_ne_finished hu)
    split
    · exact .of_unfinished hu rfl rfl (unfinished_ne_finished hu)
    · exact .refl r

/-- Who gives up a room finds it undecided. -/
theorem abort (hu : r.phase.unfinished = true) : r.Becomes (r.abort nowMs) :=
  .of_unfinished hu rfl rfl (fun h => by cases h)

/-- A frame goes on, or decides the game. -/
theorem advanceOneFrame (hphase : r.phase = .playing) : r.Becomes (r.advanceOneFrame nowMs) := by
  have hu : r.phase.unfinished = true := by rw [hphase]; rfl
  unfold BattleRoom.advanceOneFrame
  dsimp only
  split
  · exact .of_unfinished hu rfl rfl (fun h => by cases h)
  · split
    · exact .of_unfinished hu rfl rfl (fun h => by cases h)
    · exact .of_unfinished hu rfl rfl (unfinished_ne_finished hu)

/-- Moving the time frames have been advanced to. -/
theorem lastTick (ms : Int) : r.Becomes { r with lastTickMs := ms } :=
  ⟨rfl, rfl, unfinished_ne_finished, fun _ => ⟨rfl, rfl, rfl⟩⟩

/-- Frames, as long as the game is being played. -/
theorem advanceFrames (frames : Nat) : r.Becomes (advanceFrames nowMs frames r) := by
  induction frames generalizing r with
  | zero => exact .refl r
  | succ frames ih =>
    rw [BattleRoom.advanceFrames]
    split
    case isTrue hphase =>
      have hmoved : r.Becomes { r with lastTickMs := r.lastTickMs + kFrameIntervalMs } := lastTick _
      have hframe : Becomes { r with lastTickMs := r.lastTickMs + kFrameIntervalMs }
          (BattleRoom.advanceOneFrame _ nowMs) := .advanceOneFrame hphase
      exact (hmoved.trans hframe).trans ih
    case isFalse => exact .refl r

/-- A game that nobody comes back to is decided. -/
theorem resolveReconnectGrace (h : r.resolveReconnectGrace nowMs = some r') : r.Becomes r' := by
  unfold BattleRoom.resolveReconnectGrace at h
  split at h; · cases h
  case isFalse hphase =>
    have hu : r.phase.unfinished = true := by rw [not_not.mp hphase]; rfl
    split at h; · cases h
    split at h; · cases h
    split at h
    · cases h
      exact .of_unfinished hu rfl rfl (fun h => by cases h)
    · cases h
      exact .abort hu

/-- **One tick.** -/
theorem tick : r.Becomes (r.tick nowMs).2 := by
  cases hu : r.phase.unfinished with
  | false => rw [tick_of_decided hu]; exact .refl r
  | true =>
    unfold BattleRoom.tick
    split
    · split
      · exact .abort hu
      · exact .refl r
    split; · exact .refl r
    split
    · split
      case h_1 r' hr => exact .resolveReconnectGrace hr
      case h_2 => exact .lastTick nowMs
    split; · exact .refl r
    dsimp only
    split; · exact .refl r
    split
    · exact (lastTick _).trans (.advanceFrames _)
    · exact .advanceFrames _

theorem markResultFailed : r.Becomes (r.markResultFailed nowMs) := by
  unfold BattleRoom.markResultFailed
  split
  · exact ⟨rfl, rfl, unfinished_ne_finished, fun _ => ⟨rfl, rfl, rfl⟩⟩
  · exact .refl r

end Becomes

/-- A room that has a result is finishing or finished. -/
theorem result_eq_some {record : MatchResultRecord} (h : r.result = some record) :
    (r.phase = .finishing ∨ r.phase = .finished) ∧ record.matchId = r.matchId ∧
      record.roomId = r.roomId ∧ record.winnerId = r.winnerId := by
  unfold result at h
  split at h
  case isTrue hphase =>
    cases h
    exact ⟨hphase, rfl, rfl, rfl⟩
  case isFalse => cases h

/-- A room that has a result is decided. -/
theorem unfinished_of_result {record : MatchResultRecord} (h : r.result = some record) :
    r.phase.unfinished = false := by
  rcases (result_eq_some h).1 with hp | hp <;> rw [hp] <;> rfl

/-- What an operation makes of a room with a result has that result. -/
theorem Becomes.result_eq (h : r.Becomes r') {record : MatchResultRecord}
    (hr : r.result = some record) : r'.result = some record :=
  (h.decided (unfinished_of_result hr)).2.2.trans hr

/-- The mark of a persisted result keeps the result. -/
theorem result_markResultPersisted (r : BattleRoom) : r.markResultPersisted.result = r.result := by
  unfold markResultPersisted
  split
  case isTrue h => simp only [result, h]; rfl
  case isFalse => rfl

theorem matchId_markResultPersisted (r : BattleRoom) :
    r.markResultPersisted.matchId = r.matchId := by
  unfold markResultPersisted
  split <;> rfl

end BattleRoom

namespace RoomManager

/-! ## What holds of a registry by itself

The index of the matches agrees with the rooms.  A critical section moves the rooms, each along `Becomes`,
and may drop some that are over. -/

/-- Every room is registered under its own id, and its match leads to it. -/
structure Indexed (m : RoomManager) : Prop where
  key : ∀ x r, m.rooms.lookup x = some r → r.roomId = x
  index : ∀ x r, m.rooms.lookup x = some r → m.matchIndex.lookup r.matchId = some x

/-- **What every critical section but a creation and the mark of a persisted result does.** -/
structure Evolves (m m' : RoomManager) : Prop where
  room : ∀ x r', m'.rooms.lookup x = some r' → ∃ r, m.rooms.lookup x = some r ∧ r.Becomes r'
  gone : ∀ x r, m.rooms.lookup x = some r → m'.rooms.lookup x = none →
    ∃ r', r.Becomes r' ∧ (r'.phase = .finished ∨ r'.phase = .aborted)
  index : ∀ x r', m'.rooms.lookup x = some r' → m.matchIndex.lookup r'.matchId = some x →
    m'.matchIndex.lookup r'.matchId = some x
  /-- No index entry is new. -/
  entry : ∀ k x, m'.matchIndex.lookup k = some x → m.matchIndex.lookup k = some x

variable {m m' m'' : RoomManager} {nowMs : Int}

/-- **A registry that evolves keeps its index.** -/
theorem Indexed.evolve (h : m.Indexed) (he : m.Evolves m') : m'.Indexed where
  key x r' hr' := by
    obtain ⟨r, hr, hb⟩ := he.room x r' hr'
    exact hb.roomId.trans (h.key x r hr)
  index x r' hr' := by
    obtain ⟨r, hr, hb⟩ := he.room x r' hr'
    exact he.index x r' hr' (by rw [hb.matchId]; exact h.index x r hr)

namespace Evolves

/-- The rooms and the index are what they were. -/
theorem of_eq (hrooms : m'.rooms = m.rooms) (hindex : m'.matchIndex = m.matchIndex) :
    m.Evolves m' where
  room x r' h := ⟨r', by rw [← hrooms]; exact h, .refl r'⟩
  gone x r h h' := by rw [hrooms, h] at h'; cases h'
  index x r' _ h := by rw [hindex]; exact h
  entry k x h := by rw [← hindex]; exact h

theorem refl (m : RoomManager) : m.Evolves m := of_eq rfl rfl

theorem trans (h : m.Evolves m') (h' : m'.Evolves m'') : m.Evolves m'' where
  room x r'' hr'' := by
    obtain ⟨r', hr', hb'⟩ := h'.room x r'' hr''
    obtain ⟨r, hr, hb⟩ := h.room x r' hr'
    exact ⟨r, hr, hb.trans hb'⟩
  gone x r hr hnone := by
    rcases hmid : m'.rooms.lookup x with - | r'
    · exact h.gone x r hr hmid
    · obtain ⟨r₀, hr₀, hb⟩ := h.room x r' hmid
      obtain ⟨r'', hb', hover⟩ := h'.gone x r' hmid hnone
      obtain rfl : r₀ = r := Option.some.inj (hr₀.symm.trans hr)
      exact ⟨r'', hb.trans hb', hover⟩
  index x r'' hr'' hi := by
    obtain ⟨r', hr', hb'⟩ := h'.room x r'' hr''
    rw [hb'.matchId] at hi
    exact h'.index x r'' hr'' (by rw [hb'.matchId]; exact h.index x r' hr' hi)
  entry k x hk := h.entry k x (h'.entry k x hk)

/-- One room moves. -/
theorem putRoom {x : String} {r r' : BattleRoom} (hr : m.rooms.lookup x = some r)
    (hb : r.Becomes r') : m.Evolves (m.putRoom x r') where
  room y s hs := by
    simp only [RoomManager.putRoom, Table.lookup_adjust, Option.map_eq_some_iff] at hs
    obtain ⟨s₀, hs₀, rfl⟩ := hs
    refine ⟨s₀, hs₀, ?_⟩
    split
    case isTrue hyx =>
      obtain rfl : r = s₀ := Option.some.inj (by rw [← hr, ← hs₀, hyx])
      exact hb
    case isFalse => exact .refl s₀
  gone y s hs hnone := by
    simp only [RoomManager.putRoom, Table.lookup_adjust, Option.map_eq_none_iff] at hnone
    rw [hs] at hnone
    cases hnone
  index _ _ _ hi := hi
  entry _ _ hk := hk

/-- All rooms move, each for itself. -/
theorem mapRooms {f : BattleRoom → BattleRoom} (hf : ∀ r, BattleRoom.Becomes r (f r)) :
    m.Evolves { m with rooms := m.rooms.mapVals fun _ r => f r } where
  room x r' h := by
    simp only [Table.lookup_mapVals, Option.map_eq_some_iff] at h
    obtain ⟨r, hr, rfl⟩ := h
    exact ⟨r, hr, hf r⟩
  gone x r h hnone := by
    simp only [Table.lookup_mapVals, Option.map_eq_none_iff] at hnone
    rw [h] at hnone
    cases hnone
  index _ _ _ hi := hi
  entry _ _ hk := hk

/-- What is reaped was over. -/
theorem reapExpired (h : m.Indexed) : m.Evolves (m.reapExpired nowMs) where
  room x r' hr' := by
    simp only [RoomManager.reapExpired, Table.lookup_filter, Option.filter_eq_some_iff] at hr'
    exact ⟨r', hr'.1, .refl r'⟩
  gone x r hr hnone := by
    simp only [RoomManager.reapExpired, Table.lookup_filter, hr, Option.filter_eq_none_iff,
      Option.some.injEq, forall_eq'] at hnone
    refine ⟨r, .refl r, ?_⟩
    simp only [BattleRoom.isExpired, Bool.not_eq_true', Bool.not_eq_false, Bool.and_eq_true,
      Bool.or_eq_true, decide_eq_true_eq] at hnone
    exact hnone.1
  index x r' hr' hi := by
    simp only [RoomManager.reapExpired, Table.lookup_filter, Option.filter_eq_some_iff] at hr'
    simp only [RoomManager.reapExpired, Table.lookup_foldl_erase]
    rw [if_neg]
    · exact hi
    · -- An expired room of the same match would be this room.
      intro hmem
      simp only [expiredMatches, List.mem_map, List.mem_filter, Prod.exists,
        Table.mem_toPairs] at hmem
      obtain ⟨y, s, ⟨hs, hexpired⟩, hmatch⟩ := hmem
      have hy := h.index y s hs
      rw [hmatch, hi] at hy
      obtain rfl := Option.some.inj hy
      rw [hr'.1] at hs
      obtain rfl := Option.some.inj hs
      rw [hexpired] at hr'
      exact absurd hr'.2 (by decide)
  entry k x hk := by
    simp only [RoomManager.reapExpired, Table.lookup_foldl_erase] at hk
    split at hk
    · cases hk
    · exact hk

theorem join (x player : String) : m.Evolves (m.join nowMs x player).2 := by
  unfold RoomManager.join
  split
  · exact .refl m
  case h_2 r hr => exact .putRoom hr (.join player)

theorem submitInput (x player : String) (kind : InputKind) :
    m.Evolves (m.submitInput x player kind).2 := by
  unfold RoomManager.submitInput
  split
  · exact .refl m
  case h_2 r hr => exact .putRoom hr (.submitInput player kind)

theorem setPresence (x player : String) (online : Bool) :
    m.Evolves (m.setPresence nowMs x player online).2 := by
  unfold RoomManager.setPresence
  split
  · exact .refl m
  case h_2 r hr => exact .putRoom hr (.setPresence player online)

/-- The sections that only look reap first. -/
theorem getSnapshotsSince (h : m.Indexed) (x : String) (sinceFrame : Int) :
    m.Evolves (m.getSnapshotsSince nowMs x sinceFrame).2 := by
  unfold RoomManager.getSnapshotsSince
  dsimp only
  split <;> exact .reapExpired h

theorem getResultLocked (h : m.Indexed) (matchId : String) :
    m.Evolves (m.getResultLocked nowMs matchId).2 := by
  unfold RoomManager.getResultLocked
  dsimp only
  split
  · exact .reapExpired h
  · split <;> exact .reapExpired h

/-- A tick moves every room, and reaps. -/
theorem tickLocked (h : m.Indexed) (stores : RoomStores) :
    m.Evolves (m.tickLocked nowMs stores).2 := by
  have hmoved : m.Evolves { m with rooms := m.rooms.mapVals fun _ r => (r.tick nowMs).2 } :=
    .mapRooms fun _ => .tick
  have hnoted : ∀ state, m.Evolves
      { m with rooms := m.rooms.mapVals fun _ r => (r.tick nowMs).2, snapshotState := state } :=
    fun _ => hmoved.trans (.of_eq rfl rfl)
  exact (hnoted _).trans (.reapExpired (h.evolve (hnoted _)))

/-- To give up is to move every undecided room. -/
theorem abortUnfinishedLocked : m.Evolves (m.abortUnfinishedLocked nowMs).2 := by
  have hmoved : m.Evolves { m with
      rooms := m.rooms.mapVals fun _ r => if r.phase.unfinished then r.abort nowMs else r } :=
    .mapRooms fun r => by
      split
      case isTrue hu => exact .abort hu
      case isFalse => exact .refl r
  exact hmoved.trans (.of_eq rfl rfl)

/-- Dropping an index entry that leads to no room. -/
theorem eraseIndex {matchId : String}
    (hnone : (m.matchIndex.lookup matchId).bind m.rooms.lookup = none) :
    m.Evolves { m with matchIndex := m.matchIndex.erase matchId } where
  room x r' h := ⟨r', h, .refl r'⟩
  gone x r h h' := by
    rw [h] at h'
    cases h'
  index x r' hr' hi := by
    rw [Table.lookup_erase', if_neg]
    · exact hi
    · rintro heq
      rw [← heq, hi, Option.bind_some, hr'] at hnone
      cases hnone
  entry k x hk := by
    rw [Table.lookup_erase'] at hk
    split at hk
    · cases hk
    · exact hk

end Evolves

/-- Under the lock, `GetResult` never answers with a record. -/
theorem getResultLocked_ne_ok (nowMs : Int) (matchId : String) (record : MatchResultRecord) :
    (m.getResultLocked nowMs matchId).1 ≠ .answered (.ok record) := by
  unfold RoomManager.getResultLocked
  dsimp only
  split
  · exact fun h => by cases h
  · split <;> exact fun h => by cases h

/-- What `Create` does when it makes a room: the new room, and the entry that leads to it. -/
structure Creates (m : RoomManager) (nowMs : Int) (matchId : String) (playerIds : List String)
    (roomId : String) (m' : RoomManager) : Prop where
  validMatch : validId matchId = true
  newMatch : ∀ x r, m.rooms.lookup x = some r → r.matchId ≠ matchId
  rooms : m'.rooms = m.rooms.insert roomId (BattleRoom.new roomId matchId playerIds nowMs)
  index : m'.matchIndex = (m.matchIndex.erase matchId).insert matchId roomId

/-- **`Create` makes a room, or leaves every room alone.** -/
theorem create_cases (h : m.Indexed) {matchId : String} {playerIds : List String}
    {roomId : String} (hfresh : m.rooms.lookup roomId = none) :
    (RoomSystem.makesRoom m matchId playerIds nowMs roomId = false ∧
      m.Evolves (m.create nowMs matchId playerIds roomId).2.2) ∨
    (RoomSystem.makesRoom m matchId playerIds nowMs roomId = true ∧
      m.Creates nowMs matchId playerIds roomId (m.create nowMs matchId playerIds roomId).2.2) := by
  unfold RoomSystem.makesRoom RoomManager.create
  rcases hargs : BattleRoom.createArgsOk matchId playerIds with - | -
  · exact .inl ⟨rfl, .refl m⟩
  rcases hexisting : (m.matchIndex.lookup matchId).bind m.rooms.lookup with - | room
  · simp only [Bool.not_true, Bool.false_eq_true, if_false]
    by_cases hdown : m.shuttingDown = true
    · rw [if_pos hdown]
      exact .inl ⟨rfl, .eraseIndex hexisting⟩
    · rw [if_neg hdown]
      by_cases hempty : roomId = ""
      · rw [if_pos hempty]
        exact .inl ⟨rfl, .eraseIndex hexisting⟩
      · rw [if_neg hempty, if_neg (by rw [hfresh]; decide)]
        refine .inr ⟨rfl, ?_, ?_, rfl, rfl⟩
        · simp only [BattleRoom.createArgsOk, Bool.and_eq_true] at hargs
          exact hargs.1.1
        · rintro x r hr rfl
          rw [h.index x r hr, Option.bind_some, hr] at hexisting
          cases hexisting
  · exact .inl ⟨by simp, .refl m⟩

/-- The room that `Create` tells its caller is the one of the match, or the new one. -/
theorem create_told {matchId roomId x : String} {playerIds : List String} {shown : RoomSnapshot}
    (h : (m.create nowMs matchId playerIds roomId).2.1 = some (x, shown)) :
    (RoomSystem.makesRoom m matchId playerIds nowMs roomId = false ∧
      ∃ r, (m.matchIndex.lookup matchId).bind m.rooms.lookup = some r ∧ r.roomId = x) ∨
    (RoomSystem.makesRoom m matchId playerIds nowMs roomId = true ∧ x = roomId) := by
  unfold RoomSystem.makesRoom
  unfold RoomManager.create at h ⊢
  rcases hargs : BattleRoom.createArgsOk matchId playerIds with - | -
  · rw [hargs] at h
    cases h
  rcases hexisting : (m.matchIndex.lookup matchId).bind m.rooms.lookup with - | room
  · rw [hargs, hexisting] at h
    simp only [Bool.not_true, Bool.false_eq_true, if_false] at h ⊢
    split at h
    · cases h
    case isFalse hdown =>
      split at h
      · cases h
      case isFalse hempty =>
        rw [if_neg hdown, if_neg hempty]
        exact .inr ⟨rfl, (Prod.mk.inj (Option.some.inj h)).1.symm⟩
  · rw [hargs, hexisting] at h
    exact .inl ⟨by simp, room, rfl, (Prod.mk.inj (Option.some.inj h)).1⟩

/-- A new room gets its entry. -/
theorem Indexed.creates (h : m.Indexed) {matchId : String} {playerIds : List String}
    {roomId : String} (hc : m.Creates nowMs matchId playerIds roomId m') : m'.Indexed where
  key x r hr := by
    rw [hc.rooms, Table.lookup_insert'] at hr
    split at hr
    case isTrue heq =>
      obtain rfl := Option.some.inj hr
      exact heq.symm
    case isFalse => exact h.key x r hr
  index x r hr := by
    rw [hc.rooms, Table.lookup_insert'] at hr
    rw [hc.index, Table.lookup_insert', Table.lookup_erase']
    split at hr
    case isTrue heq =>
      obtain rfl := Option.some.inj hr
      rw [if_pos (show (BattleRoom.new roomId matchId playerIds nowMs).matchId = matchId from rfl),
        heq]
    case isFalse =>
      rw [if_neg (hc.newMatch x r hr), if_neg (hc.newMatch x r hr)]
      exact h.index x r hr

/-- A room after the mark of its result, successful or not. -/
theorem lookup_commitResult {x y : String} {ok : Bool} {r' : BattleRoom}
    (h : (m.commitResult nowMs x ok).rooms.lookup y = some r') :
    ∃ r, m.rooms.lookup y = some r ∧
      (r.Becomes r' ∨ (y = x ∧ ok = true ∧ r' = r.markResultPersisted)) := by
  simp only [RoomManager.commitResult, Table.lookup_adjust, Option.map_eq_some_iff] at h
  obtain ⟨r, hr, rfl⟩ := h
  refine ⟨r, hr, ?_⟩
  by_cases hyx : y = x
  · rw [if_pos hyx]
    rcases ok with - | -
    · exact .inl .markResultFailed
    · exact .inr ⟨hyx, rfl, rfl⟩
  · rw [if_neg hyx]
    exact .inl (.refl r)

/-- The mark of a result leaves the index alone. -/
theorem Indexed.commitResult (h : m.Indexed) (x : String) (ok : Bool) :
    (m.commitResult nowMs x ok).Indexed := by
  have hids : ∀ y r', (m.commitResult nowMs x ok).rooms.lookup y = some r' →
      ∃ r, m.rooms.lookup y = some r ∧ r'.roomId = r.roomId ∧ r'.matchId = r.matchId := by
    intro y r' hr'
    obtain ⟨r, hr, hb | ⟨-, -, rfl⟩⟩ := lookup_commitResult hr'
    · exact ⟨r, hr, hb.roomId, hb.matchId⟩
    · refine ⟨r, hr, ?_, r.matchId_markResultPersisted⟩
      unfold BattleRoom.markResultPersisted
      split <;> rfl
  constructor
  · intro y r' hr'
    obtain ⟨r, hr, hroom, -⟩ := hids y r' hr'
    exact hroom.trans (h.key y r hr)
  · intro y r' hr'
    obtain ⟨r, hr, -, hmatch⟩ := hids y r' hr'
    rw [hmatch]
    exact h.index y r hr

end RoomManager

end RealtimeGame.Room
