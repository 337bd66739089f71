import RealtimeGame.Gateway.Backfill

/-!
# Gateway/Pushed — what a sink was shown, and what the hub notes as pushed

The hub keeps one signature a room: that of the state that was pushed last.  A poll pushes nothing where
the signature is the same, so the table has to agree with what each sink was shown.
-/

open Library

namespace RealtimeGame.Gateway

/-! ## Signatures

A signature is a text with separators, of which nothing it is made of has any. -/

/-- A separator that does not occur before it splits a list in one way. -/
theorem append_sep_inj {α : Type} {sep : α} : ∀ {xs ys : List α} {ss ts : List α},
    sep ∉ xs → sep ∉ ys → xs ++ sep :: ss = ys ++ sep :: ts → xs = ys ∧ ss = ts
  | [], [], _, _, _, _, h => ⟨rfl, (List.cons.inj h).2⟩
  | [], y :: _, _, _, _, hy, h => absurd (List.cons.inj h).1 (List.ne_of_not_mem_cons hy)
  | x :: _, [], _, _, hx, _, h => absurd (List.cons.inj h).1.symm (List.ne_of_not_mem_cons hx)
  | x :: xs, y :: ys, _, _, hx, hy, h => by
    obtain ⟨rfl, htail⟩ := List.cons.inj h
    obtain ⟨rfl, hrest⟩ := append_sep_inj (List.not_mem_of_not_mem_cons hx)
      (List.not_mem_of_not_mem_cons hy) htail
    exact ⟨rfl, hrest⟩

theorem bar_notMem_toString (n : Int) : '|' ∉ (toString n).toList := by
  have hnat : ∀ m : Nat, '|' ∉ m.repr.toList := by
    intro m hmem
    rw [Nat.toList_repr] at hmem
    exact absurd (Nat.isDigit_of_mem_toDigits (by decide) (by decide) hmem) (by decide)
  cases n with
  | ofNat m => exact hnat m
  | negSucc m =>
    change '|' ∉ ("-" ++ (m + 1).repr).toList
    rw [String.toList_append, List.mem_append, not_or]
    exact ⟨by decide, hnat (m + 1)⟩

/-- What a signature starts with. -/
theorem toList_stateSignature (snapshot : RoomSnapshot) : ∃ rest,
    (stateSignature snapshot).toList =
      (toString snapshot.frame).toList ++ '|' :: ((toString snapshot.state.toInt).toList ++ rest) := by
  have hfold : ∀ (players : List RoomPlayerSnapshot) (signature : String), ∃ rest,
      (players.foldl (fun signature player => signature ++ "|" ++ player.playerId ++ ":" ++
        toString player.hp ++ if player.online then "1" else "0") signature).toList =
          signature.toList ++ rest := by
    intro players
    induction players with
    | nil => exact fun signature => ⟨[], (List.append_nil _).symm⟩
    | cons player players ih =>
      intro signature
      obtain ⟨rest, hrest⟩ := ih (signature ++ "|" ++ player.playerId ++ ":" ++ toString player.hp ++
        if player.online then "1" else "0")
      rw [List.foldl_cons, hrest]
      simp only [String.toList_append, List.append_assoc]
      exact ⟨_, rfl⟩
  obtain ⟨rest, hrest⟩ := hfold snapshot.players
    (toString snapshot.frame ++ "|" ++ toString snapshot.state.toInt)
  refine ⟨rest, hrest.trans ?_⟩
  simp only [String.toList_append, List.append_assoc]
  rfl

theorem stateSignature_ne_empty (snapshot : RoomSnapshot) : stateSignature snapshot ≠ "" := by
  intro h
  obtain ⟨rest, hrest⟩ := toList_stateSignature snapshot
  rw [h] at hrest
  exact absurd (hrest.symm) (by simp)

/-- Snapshots with one signature are in one state. -/
theorem state_of_stateSignature {a b : RoomSnapshot} (h : stateSignature a = stateSignature b) :
    a.state = b.state := by
  obtain ⟨resta, ha⟩ := toList_stateSignature a
  obtain ⟨restb, hb⟩ := toList_stateSignature b
  rw [h, hb] at ha
  obtain ⟨-, hstate⟩ := append_sep_inj (bar_notMem_toString _) (bar_notMem_toString _) ha
  -- The code of a state is one digit.
  have hdigit : ∀ state : RoomState, ∃ digit, (toString state.toInt).toList = [digit] ∧
      ∀ state' : RoomState, (toString state'.toInt).toList = [digit] → state' = state := by
    intro state
    cases state <;> refine ⟨_, rfl, fun state' h => ?_⟩ <;> cases state' <;>
      first | rfl | exact absurd (List.cons.inj h).1 (by decide)
  obtain ⟨digit, hdigita, -⟩ := hdigit a.state
  obtain ⟨digit', hdigitb, hinj⟩ := hdigit b.state
  rw [hdigita, hdigitb] at hstate
  exact hinj a.state (by rw [hdigita, (List.cons.inj hstate).1])

theorem terminal_of_stateSignature {a b : RoomSnapshot} (h : stateSignature a = stateSignature b) :
    a.terminal = b.terminal := by
  rw [RoomSnapshot.terminal, RoomSnapshot.terminal, state_of_stateSignature h]

/-! ## The table of what was pushed

One entry for each room, noted by the job that pushes. -/

namespace StreamHub

variable {c : StreamConfig} {hub : StreamHub} {nowMs : Int} {id : Nat}

theorem lookup_setLastPushedState (roomId : String) (snapshot : RoomSnapshot) (terminal : Bool)
    (roomId' : String) :
    (hub.setLastPushedState roomId snapshot terminal).lastPushedState.lookup roomId' =
      if roomId' = roomId then if terminal then none else some (stateSignature snapshot)
      else hub.lastPushedState.lookup roomId' := by
  unfold setLastPushedState
  cases terminal
  · exact Table.lookup_insert' _ _ _ _
  · exact Table.lookup_erase' _ _ _

/-- The last section of `Tick` leaves the table alone. -/
theorem lastPushedState_commit (t : TickState) :
    (hub.commit t).1.lastPushedState = hub.lastPushedState := by
  have hdrop : ∀ (failed : List Nat) (acc : StreamHub × List (Nat × Subscription)),
      (failed.foldl dropFailed acc).1.lastPushedState = acc.1.lastPushedState := by
    intro failed acc
    induction failed generalizing acc with
    | nil => rfl
    | cons k ks ih =>
      rw [List.foldl_cons, ih]
      unfold dropFailed
      split <;> rfl
  exact hdrop _ _

/-- Where there is nothing to push, the table has the signature already. -/
theorem lookup_of_not_roomChanged {roomId : String} {snapshot : RoomSnapshot}
    (h : hub.roomChanged roomId snapshot = false) :
    hub.lastPushedState.lookup roomId = some (stateSignature snapshot) ∧
      snapshot.terminal = false := by
  rw [roomChanged, Bool.or_eq_false_iff, decide_eq_false_iff_not, not_not] at h
  refine ⟨?_, h.2⟩
  cases hpushed : hub.lastPushedState.lookup roomId with
  | none =>
    rw [hpushed] at h
    exact absurd h.1 (stateSignature_ne_empty snapshot)
  | some signature =>
    rw [hpushed] at h
    exact congrArg some h.1.symm

/-- The sinks of a polled room are its live subscriptions. -/
theorem mem_room_sinks {room : RoomPoll} (h : room ∈ hub.byRoom nowMs) : id ∈ room.sinks ↔
    ∃ sub, hub.subscriptions.lookup id = some sub ∧ sub.shouldBackfill = false ∧
      sub.roomId = room.roomId := by
  obtain ⟨roomId, -, rfl⟩ := List.mem_map.mp h
  simp only [List.mem_map, List.mem_filter, Prod.exists, mem_live, decide_eq_true_eq,
    exists_and_right, exists_eq_right]
  constructor
  · rintro ⟨_, ⟨sub, hsub, rfl, hlive⟩, hroom⟩
    rw [Subscription.shouldBackfill_seen] at hlive
    exact ⟨sub, hsub, hlive, by rwa [Subscription.seen_roomId] at hroom⟩
  · rintro ⟨sub, hsub, hlive, hroom⟩
    refine ⟨sub.seen nowMs, ⟨sub, hsub, rfl, ?_⟩, ?_⟩
    · rw [Subscription.shouldBackfill_seen, hlive]
    · rw [Subscription.seen_roomId, hroom]

/-- A room is polled once. -/
theorem eq_of_mem_byRoom {room room' : RoomPoll} (h : room ∈ hub.byRoom nowMs)
    (h' : room' ∈ hub.byRoom nowMs) (heq : room.roomId = room'.roomId) : room = room' := by
  obtain ⟨roomId, -, rfl⟩ := List.mem_map.mp h
  obtain ⟨roomId', -, rfl⟩ := List.mem_map.mp h'
  obtain rfl : roomId = roomId' := heq
  rfl

end StreamHub

namespace Job

variable {c : StreamConfig} {answer : Answer} {hub : StreamHub} {t : TickState}

/-- What a job makes of the table: the room, and its new entry. -/
def noted (hub : StreamHub) : Job → Option (String × Option String)
  | resetPushed target _ payload _ => some (target.roomId, some (stateSignature payload))
  | framePushed target _ snapshot _ =>
    some (target.roomId, if snapshot.terminal then none else some (stateSignature snapshot))
  | compare room snapshot =>
    if hub.roomChanged room.roomId snapshot then
      some (room.roomId, if snapshot.terminal then none else some (stateSignature snapshot))
    else none
  | _ => none

variable (c answer hub t) in
theorem lookup_lastPushedState (job : Job) (roomId : String) :
    (job.run c answer hub t).hub.lastPushedState.lookup roomId =
      match job.noted hub with
      | some (roomId', entry) =>
        if roomId = roomId' then entry else hub.lastPushedState.lookup roomId
      | none => hub.lastPushedState.lookup roomId := by
  cases job
  case backfill target =>
    simp only [run, noted]
    split_ifs
    · rfl
    · rfl
    · rcases target.sinceFrame with - | sinceFrame <;> rfl
  case resetPushed target reason payload ok =>
    exact StreamHub.lookup_setLastPushedState target.roomId payload false roomId
  case framePushed target written snapshot rest =>
    exact StreamHub.lookup_setLastPushedState target.roomId snapshot snapshot.terminal roomId
  case compare room snapshot =>
    simp only [run, noted, StreamHub.comparePushed]
    split
    · exact StreamHub.lookup_setLastPushedState room.roomId snapshot snapshot.terminal roomId
    · rfl
  all_goals rfl

/-- Who asks for a state goes on with it: a reset, or a poll. -/
theorem asked_of_mem {job : Job} {roomId requestId : String} {snapshot : RoomSnapshot}
    (h : .getState roomId requestId (some snapshot) ∈ (job.run c answer hub t).events) :
    (∃ target reason, job = current target reason ∧ target.roomId = roomId ∧
      (job.run c answer hub t).more = [reset target reason snapshot]) ∨
    ∃ room, job = poll room ∧ room.roomId = roomId ∧
      (job.run c answer hub t).more = [compare room snapshot] := by
  cases job
  case backfill target =>
    simp only [run] at h
    split_ifs at h
    · cases h
    · cases h
    · split at h
      · cases h
      · cases List.mem_singleton.mp h
  case current target reason =>
    obtain ⟨rfl, -, hanswer⟩ := StreamEvent.getState.inj (List.mem_singleton.mp h)
    exact .inl ⟨target, reason, rfl, rfl, by simp only [run, ← hanswer]; rfl⟩
  case poll room =>
    obtain ⟨rfl, -, hanswer⟩ := StreamEvent.getState.inj (List.mem_singleton.mp h)
    exact .inr ⟨room, rfl, rfl, by simp only [run, ← hanswer]; rfl⟩
  case reset | frame | push | ready | heartbeat => cases List.mem_singleton.mp h
  all_goals cases h

/-- The room that a job polls. -/
def polls : Job → Option RoomPoll
  | countPoll room | poll room | compare room _ => some room
  | _ => none

/-- A job that polls comes after one that polls the same room. -/
theorem Leads.polls {nowMs : Int} {job job' : Job} {room : RoomPoll}
    (h : job.Leads c answer nowMs job') (hroom : job'.polls = some room) : job.polls = some room := by
  cases h
  case countPoll | poll => exact hroom
  all_goals cases hroom

end Job

namespace StreamSystem

variable {c : StreamConfig} {s : StreamSystem} {op : StreamOp}

/-- **What one step does to one entry of the table**: nothing, it erases it, or a job notes it. -/
theorem lastPushedState_next (c : StreamConfig) (s : StreamSystem) (op : StreamOp) (roomId : String) :
    (s.next c op).hub.lastPushedState.lookup roomId = s.hub.lastPushedState.lookup roomId ∨
    (s.next c op).hub.lastPushedState.lookup roomId = none ∨
    ∃ answer vars job jobs signature, op = .resumeTick answer ∧
      s.tick = .running vars (job :: jobs) ∧ job.noted s.hub = some (roomId, some signature) ∧
      (s.next c op).hub.lastPushedState.lookup roomId = some signature := by
  rcases op with ⟨playerId, roomId', hasSink, options⟩ | id' | nowMs | - | - | reason | answer |
    ⟨call, answer⟩
  · simp only [next]
    split <;> exact .inl rfl
  · simp only [next]
    split <;> exact .inl rfl
  · exact .inl rfl
  · exact .inr (.inl (AList.lookup_empty _))
  · exact .inl rfl
  · exact .inr (.inl (AList.lookup_empty _))
  · simp only [next, resumeTick]
    rcases htick : s.tick with ⟨vars, - | ⟨job, jobs⟩⟩ | - | ⟨gone, rest⟩
    · exact .inl (congrArg (·.lookup roomId) (StreamHub.lastPushedState_commit vars))
    · have hlookup := job.lookup_lastPushedState c answer s.hub vars roomId
      dsimp only
      rcases hnoted : job.noted s.hub with - | ⟨roomId', entry⟩
      · rw [hnoted] at hlookup
        exact .inl hlookup
      · simp only [hnoted] at hlookup
        by_cases heq : roomId = roomId'
        · subst heq
          rw [if_pos rfl] at hlookup
          rcases entry with - | signature
          · exact .inr (.inl hlookup)
          · exact .inr (.inr ⟨answer, vars, job, jobs, signature, rfl, rfl, hnoted, hlookup⟩)
        · exact .inl (hlookup.trans (if_neg heq))
    · exact .inl rfl
    · exact .inl rfl
  · simp only [next, resumeCall]
    split
    case h_1 step rest hcall =>
      cases step
      case register playerId roomId' options =>
        rw [Call.run, StreamHub.subscribeLocked, Table.lookup_erase']
        split
        · exact .inr (.inl rfl)
        · exact .inl rfl
      all_goals exact .inl rfl
    case h_2 => exact .inl rfl

/-- A subscription is to be registered by a call of `Subscribe`. -/
theorem register_next {call : List Call} {playerId roomId : String} {options : SubscribeOptions}
    (h : call ∈ (s.next c op).calls) (hstep : .register playerId roomId options ∈ call) :
    (∃ call ∈ s.calls, .register playerId roomId options ∈ call) ∨
      ∃ hasSink, op = .subscribe playerId roomId hasSink options := by
  have hends : ∀ {e}, .register playerId roomId options ∉ endCalls e := by
    intro e hmem
    simp [endCalls] at hmem
  rcases op with ⟨playerId', roomId', hasSink, options'⟩ | id' | nowMs | - | - | reason | answer |
    ⟨n, answer⟩
  · simp only [next] at h
    split at h
    · exact .inl ⟨call, h, hstep⟩
    · rcases List.mem_append.mp h with hold | hnew
      · exact .inl ⟨call, hold, hstep⟩
      · rw [List.mem_singleton.mp hnew, List.mem_singleton] at hstep
        cases hstep
        exact .inr ⟨hasSink, rfl⟩
  · simp only [next] at h
    split at h
    · exact .inl ⟨call, h, hstep⟩
    · rcases List.mem_append.mp h with hold | hnew
      · exact .inl ⟨call, hold, hstep⟩
      · rw [List.mem_singleton.mp hnew] at hstep
        exact absurd hstep hends
  · exact .inl ⟨call, h, hstep⟩
  · rcases List.mem_append.mp h with hold | hnew
    · exact .inl ⟨call, hold, hstep⟩
    · rw [List.mem_singleton.mp hnew] at hstep
      obtain ⟨e, -, hmem⟩ := List.mem_flatMap.mp hstep
      exact absurd hmem hends
  · exact .inl ⟨call, h, hstep⟩
  · rcases List.mem_append.mp h with hold | hnew
    · exact .inl ⟨call, hold, hstep⟩
    · rw [List.mem_singleton.mp hnew] at hstep
      rcases List.mem_append.mp hstep with hmem | hmem
      · obtain ⟨e, -, heq⟩ := List.mem_map.mp hmem
        cases heq
      · obtain ⟨e, -, hmem⟩ := List.mem_flatMap.mp hmem
        exact absurd hmem hends
  · simp only [next, resumeTick] at h
    split at h <;> exact .inl ⟨call, h, hstep⟩
  · simp only [next, resumeCall] at h
    split at h
    case h_1 first rest hcall =>
      rcases List.mem_or_eq_of_mem_set h with hold | rfl
      · exact .inl ⟨call, hold, hstep⟩
      · rcases List.mem_append.mp hstep with hmore | hrest
        · cases first
          case register => cases List.mem_singleton.mp hmore
          all_goals cases hmore
        · exact .inl ⟨_, List.mem_of_getElem? hcall, List.mem_cons_of_mem _ hrest⟩
    case h_2 => exact .inl ⟨call, h, hstep⟩

end StreamSystem

end RealtimeGame.Gateway
