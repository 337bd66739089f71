import RealtimeGame.Gateway.StreamTrace

/-!
# Gateway/Presence — what Room is told of a player's connections

A player may have several subscriptions for one room.  Each start and each end is reported to Room by
itself, so the last report says that the player is offline as soon as the last event was an end; it
agrees with the subscriptions unless one of them survives the end of another.
-/

open Library

namespace RealtimeGame.Gateway

/-- The report of an event, if it is one for this player in this room. -/
def StreamEvent.report (roomId playerId : String) : StreamEvent → Option Bool
  | setPresence roomId' playerId' online _ =>
    if roomId' = roomId ∧ playerId' = playerId then some online else none
  | _ => none

namespace StreamSystem

variable (c : StreamConfig) (s : StreamSystem)

/-- The reports for a player in a room, oldest first. -/
def reports (roomId playerId : String) : List Bool :=
  s.log.filterMap (·.report roomId playerId)

/-- Some subscription of this player for this room is registered. -/
def Registered (roomId playerId : String) : Prop :=
  ∃ id sub, s.sub? id = some sub ∧ sub.roomId = roomId ∧ sub.playerId = playerId

/-- **Room was told the truth** — the last report says online where a subscription is registered. -/
def PresenceAgrees : Prop :=
  ∀ roomId playerId, (s.reports roomId playerId).getLast? = some true ↔
    s.Registered roomId playerId

/-- Whoever this step removes, it removes with every other subscription of the same player for the same
room. -/
def RemovesAll : StreamOp → Prop
  | .unsubscribe id => ∀ sub, s.sub? id = some sub → ∀ id' sub', s.sub? id' = some sub' →
      sub'.roomId = sub.roomId → sub'.playerId = sub.playerId → id' = id
  | .resumeTick _ => ∀ vars, s.tick = .running vars [] → ∀ id ∈ vars.failed, ∀ sub,
      s.sub? id = some sub → ∀ id' sub', s.sub? id' = some sub' →
      sub'.roomId = sub.roomId → sub'.playerId = sub.playerId → id' ∈ vars.failed
  | _ => True

/-- Room was told the truth after every complete call. -/
def PresenceKept (ops : List StreamOp) : Prop :=
  ∀ pre post u, ops = pre ++ post → Run (SoloStep c) {} pre u → u.Settled → u.PresenceAgrees

/-- No subscription survives the end of another one of the same player for the same room. -/
def NoneSurvives (ops : List StreamOp) : Prop :=
  ∀ pre op post u, ops = pre ++ op :: post → Run (SoloStep c) {} pre u → u.RemovesAll op

end StreamSystem

/-! ## Reports that are still owed

A report is a call of its own, made after the section that owes it. -/

/-- The report that a call makes next, if it is one for this player in this room. -/
def Call.report? (roomId playerId : String) : Call → Option Bool
  | .report roomId' playerId' online _ =>
    if roomId' = roomId ∧ playerId' = playerId then some online else none
  | _ => none

/-- The subscriptions whose end a `Tick` still has to report. -/
def TickPc.gone : TickPc → List Subscription
  | running .. => []
  | reporting gone => gone

/-- An end, as a report for this player in this room. -/
def Subscription.ended (roomId playerId : String) (sub : Subscription) : Option Bool :=
  if sub.roomId = roomId ∧ sub.playerId = playerId then some false else none

namespace Subscription

variable {s : Subscription} {roomId playerId : String}

theorem ended_eq_some {online : Bool} (h : s.ended roomId playerId = some online) :
    online = false ∧ s.roomId = roomId ∧ s.playerId = playerId := by
  unfold ended at h
  split at h
  case isTrue heq => exact ⟨(Option.some.inj h).symm, heq⟩
  case isFalse => cases h

end Subscription

/-- No job reports anything. -/
theorem Job.report_of_mem {c : StreamConfig} {answer : Answer} {hub : StreamHub} {t : TickState}
    {job : Job} {event : StreamEvent} {roomId playerId : String}
    (h : event ∈ (job.run c answer hub t).events) : event.report roomId playerId = none := by
  cases job
  case backfill target =>
    simp only [run] at h
    split_ifs at h
    · cases h
    · cases h
    · split at h
      · cases h
      · rw [List.mem_singleton.mp h]
        rfl
  case reset | frame | push | ready | heartbeat | current | poll =>
    rw [List.mem_singleton.mp h]
    rfl
  all_goals cases h

/-! ## One call on its way

Between its sections a call has a list of what it has yet to do. -/

/-- The call registers a subscription. -/
def Call.registers : Call → Bool
  | .register .. => true
  | _ => false

/-- Where every call but the last is complete, the one that goes on is the last. -/
theorem Call.flatten_set {calls : List (List Call)} {n : Nat} {step : Call} {rest : List Call}
    (hdone : ∀ call ∈ calls.dropLast, call = []) (hcall : calls[n]? = some (step :: rest)) :
    calls.flatten = step :: rest ∧ ∀ next, (calls.set n next).flatten = next ∧
      ∀ call ∈ (calls.set n next).dropLast, call = [] := by
  have hne : calls ≠ [] := by
    rintro rfl
    cases hcall
  obtain ⟨before, last, rfl⟩ : ∃ before last, calls = before ++ [last] :=
    ⟨calls.dropLast, calls.getLast hne, (List.dropLast_append_getLast hne).symm⟩
  rw [List.dropLast_concat] at hdone
  have hflatten : before.flatten = [] := List.flatten_eq_nil_iff.mpr hdone
  have hn : n = before.length := by
    obtain ⟨hlt, -⟩ := List.getElem?_eq_some_iff.mp hcall
    rw [List.length_append, List.length_singleton] at hlt
    refine Nat.eq_of_lt_succ_of_not_lt hlt fun hbefore => ?_
    rw [List.getElem?_append_left hbefore] at hcall
    cases hdone _ (List.mem_of_getElem? hcall)
  subst hn
  rw [List.getElem?_concat_length] at hcall
  cases hcall
  refine ⟨by rw [List.flatten_append, hflatten]; simp, fun next => ?_⟩
  rw [List.set_append_right _ _ le_rfl, Nat.sub_self, List.set_cons_zero, List.dropLast_concat]
  exact ⟨by rw [List.flatten_append, hflatten]; simp, hdone⟩

namespace StreamSystem

variable {c : StreamConfig} {s s' : StreamSystem} {op : StreamOp} {roomId playerId : String}

/-- The reports that were made, and those that are still owed. -/
def expected (s : StreamSystem) (roomId playerId : String) : List Bool :=
  s.reports roomId playerId ++ (s.tick.gone.filterMap (·.ended roomId playerId) ++
    s.calls.flatten.filterMap (·.report? roomId playerId))

/-- Past every change of the subscriptions: only reports and ends are left. -/
structure Winding (s : StreamSystem) : Prop where
  reporting : ∃ gone, s.tick = .reporting gone ∧ (gone = [] ∨ ∀ call ∈ s.calls, call = [])
  last : ∀ call ∈ s.calls.dropLast, call = []
  registers : ∀ step ∈ s.calls.flatten, step.registers = false

/-- **Where a run is in which no two calls overlap**: in a `Tick`, before the lock section of
`Subscribe`, or winding up. -/
inductive Phase (s : StreamSystem) : Prop
  | ticking (vars : TickState) (jobs : List Job) (htick : s.tick = .running vars jobs)
      (hcalls : ∀ call ∈ s.calls, call = [])
  | registering (before : List (List Call)) (playerId roomId : String) (options : SubscribeOptions)
      (hidle : s.Idle) (hcalls : s.calls = before ++ [[.register playerId roomId options]])
      (hbefore : ∀ call ∈ before, call = [])
  | winding (h : s.Winding)

theorem Settled.winding (h : s.Settled) : s.Winding where
  reporting := ⟨[], h.1, .inl rfl⟩
  last call hcall := h.2 call ((List.dropLast_sublist _).subset hcall)
  registers step hstep := by
    rw [List.flatten_eq_nil_iff.mpr h.2] at hstep
    cases hstep

/-- When every call is complete, every report was made. -/
theorem Settled.expected (h : s.Settled) : s.expected roomId playerId = s.reports roomId playerId := by
  obtain ⟨hidle, hcalls⟩ := h
  rw [StreamSystem.expected, show s.tick = .reporting [] from hidle,
    List.flatten_eq_nil_iff.mpr hcalls]
  exact List.append_nil _

theorem filterMap_reportPresence (hroom : c.hasRoom = true) (roomId' playerId' : String)
    (online : Bool) (requestId : String) :
    (reportPresence c roomId' playerId' online requestId).filterMap (·.report roomId playerId) =
      if roomId' = roomId ∧ playerId' = playerId then [online] else [] := by
  unfold reportPresence
  rw [if_pos hroom]
  split
  case isTrue heq => simp [StreamEvent.report, heq]
  case isFalse hne => simp [StreamEvent.report, hne]

theorem filterMap_cons' {α β : Type} (f : α → Option β) (x : α) (xs : List α) :
    (x :: xs).filterMap f = (f x).toList ++ xs.filterMap f := by
  rw [List.filterMap_cons]
  cases f x <;> rfl

theorem toList_ended (sub : Subscription) : (sub.ended roomId playerId).toList =
    if sub.roomId = roomId ∧ sub.playerId = playerId then [false] else [] := by
  unfold Subscription.ended
  split <;> rfl

theorem toList_report? (roomId' playerId' : String) (online : Bool) (requestId : String) :
    ((Call.report roomId' playerId' online requestId).report? roomId playerId).toList =
      if roomId' = roomId ∧ playerId' = playerId then [online] else [] := by
  simp only [Call.report?]
  split <;> rfl

/-- Winding up makes the reports that were owed, and changes nothing else. -/
theorem Winding.next (hroom : c.hasRoom = true) (h : s.Winding)
    (hop : (∃ answer, op = .resumeTick answer) ∨ ∃ call answer, op = .resumeCall call answer) :
    (s.next c op).Winding ∧ (s.next c op).hub = s.hub ∧
      ∀ roomId playerId, (s.next c op).expected roomId playerId = s.expected roomId playerId := by
  obtain ⟨gone, htick, hone⟩ := h.reporting
  rcases hop with ⟨answer, rfl⟩ | ⟨n, answer, rfl⟩
  · rcases gone with - | ⟨sub, gone⟩
    · have hnext : s.next c (.resumeTick answer) = s := by
        simp only [StreamSystem.next, resumeTick, htick]
      rw [hnext]
      exact ⟨h, rfl, fun _ _ => rfl⟩
    · have hcalls := hone.resolve_left (List.cons_ne_nil _ _)
      have hnext : s.next c (.resumeTick answer) =
          { s with tick := .reporting gone, log := s.log ++ sub.reportOffline c } := by
        simp only [StreamSystem.next, resumeTick, htick]
      rw [hnext]
      refine ⟨⟨⟨gone, rfl, .inr hcalls⟩, h.last, h.registers⟩, rfl, fun roomId playerId => ?_⟩
      simp only [expected, reports, htick, TickPc.gone, Subscription.reportOffline,
        List.filterMap_append, filterMap_reportPresence hroom, filterMap_cons', toList_ended,
        List.append_assoc]
  · simp only [StreamSystem.next, resumeCall]
    split
    case h_2 => exact ⟨h, rfl, fun _ _ => rfl⟩
    case h_1 step rest hcall =>
      obtain ⟨hflatten, hset⟩ := Call.flatten_set h.last hcall
      have hidle : s.tick = .reporting [] := by
        rw [htick]
        refine congrArg _ (hone.resolve_right fun hall => ?_)
        cases hall _ (List.mem_of_getElem? hcall)
      have hregisters := h.registers
      rw [hflatten] at hregisters
      obtain ⟨hnext, hlast⟩ := hset ((step.run c answer s.hub).2.1 ++ rest)
      have hmore : (step.run c answer s.hub).2.1 = [] ∧ (step.run c answer s.hub).1 = s.hub ∧
          ∀ roomId playerId, (step.run c answer s.hub).2.2.filterMap (·.report roomId playerId) =
            (step.report? roomId playerId).toList := by
        cases step
        case register => cases hregisters _ List.mem_cons_self
        case report =>
          refine ⟨rfl, rfl, fun roomId playerId => ?_⟩
          rw [toList_report?]
          exact filterMap_reportPresence hroom _ _ _ _
        all_goals exact ⟨rfl, rfl, fun _ _ => rfl⟩
      rw [hmore.1, List.nil_append] at hnext hlast
      simp only [hmore.1, List.nil_append]
      refine ⟨⟨⟨[], hidle, .inl rfl⟩, hlast, ?_⟩, hmore.2.1, fun roomId playerId => ?_⟩
      · rw [hnext]
        exact fun step hstep => hregisters step (List.mem_cons_of_mem _ hstep)
      · simp only [expected, reports, hidle, TickPc.gone, List.filterMap_append, hmore.2.2,
          hnext, hflatten, filterMap_cons', List.append_assoc, List.filterMap_nil, List.nil_append]

/-! ## What a step does to the reports

Each step adds reports, makes one, or does neither. -/

/-- **What one step does to the reports and to the subscriptions**: one subscription starts, or some
end; each is reported. -/
inductive Effect (s : StreamSystem) (op : StreamOp) (s' : StreamSystem) : Prop
  | starts (roomId playerId : String) (hall : s.RemovesAll op)
      (hexpected : ∀ r p, s'.expected r p =
        s.expected r p ++ if roomId = r ∧ playerId = p then [true] else [])
      (hregistered : ∀ r p, s'.Registered r p ↔ s.Registered r p ∨ roomId = r ∧ playerId = p)
  | ends (gone : List Subscription)
      (hexpected : ∀ r p, s'.expected r p = s.expected r p ++ gone.filterMap (·.ended r p))
      (hregistered : ∀ r p, s.Registered r p ↔
        s'.Registered r p ∨ ∃ sub ∈ gone, sub.roomId = r ∧ sub.playerId = p)
      (hall : s.RemovesAll op ↔ ∀ sub ∈ gone, ¬s'.Registered sub.roomId sub.playerId)
      (hwinding : gone ≠ [] → s'.Winding)

/-- Nothing starts and nothing ends. -/
theorem Effect.quiet (hall : s.RemovesAll op)
    (hexpected : ∀ r p, s'.expected r p = s.expected r p)
    (hregistered : ∀ r p, s.Registered r p ↔ s'.Registered r p) : Effect s op s' := by
  refine .ends [] (fun r p => ?_) (fun r p => ?_) ⟨fun _ _ hsub => (by cases hsub), fun _ => hall⟩
    fun hne => absurd rfl hne
  · rw [hexpected r p, List.filterMap_nil, List.append_nil]
  · rw [hregistered r p]
    simp

theorem Effect.same (hall : s.RemovesAll op) : Effect s op s :=
  .quiet hall (fun _ _ => rfl) fun _ _ => Iff.rfl

/-- A step that leaves every subscription its player and its room. -/
theorem registered_map {f : Subscription → Subscription} (hroom : ∀ sub, (f sub).roomId = sub.roomId)
    (hplayer : ∀ sub, (f sub).playerId = sub.playerId)
    (h : ∀ id, s'.sub? id = (s.sub? id).map f) (r p : String) :
    s.Registered r p ↔ s'.Registered r p := by
  constructor
  · rintro ⟨id, sub, hsub, rfl, rfl⟩
    exact ⟨id, f sub, by rw [h, hsub]; rfl, hroom sub, hplayer sub⟩
  · rintro ⟨id, sub', hsub', rfl, rfl⟩
    rw [h] at hsub'
    obtain ⟨sub, hsub, rfl⟩ := Option.map_eq_some_iff.mp hsub'
    exact ⟨id, sub, hsub, (hroom sub).symm, (hplayer sub).symm⟩

/-- A call that starts when every other is complete, and makes these reports. -/
theorem Settled.expected_start (h : s.Settled) (hub : StreamHub) (calls : List Call) (r p : String) :
    (s.start hub calls).expected r p =
      s.expected r p ++ calls.filterMap (·.report? r p) := by
  have htick : s.tick = .reporting [] := h.1
  simp only [StreamSystem.expected, reports, start, htick, TickPc.gone, List.flatten_append,
    List.filterMap_append, List.flatten_cons, List.flatten_nil, List.append_nil, List.append_assoc]

theorem Settled.winding_start (h : s.Settled) (hub : StreamHub) {calls : List Call}
    (hcalls : ∀ step ∈ calls, step.registers = false) : (s.start hub calls).Winding where
  reporting := ⟨[], h.1, .inl rfl⟩
  last call hcall := by
    rw [start, List.dropLast_concat] at hcall
    exact h.2 call hcall
  registers step hstep := by
    rw [start, List.flatten_append, List.flatten_eq_nil_iff.mpr h.2] at hstep
    exact hcalls step (by simpa using hstep)

/-- Who ends a subscription owes a report of it, -/
theorem filterMap_endCalls (e : Nat × Subscription) (r p : String) :
    (endCalls e).filterMap (·.report? r p) = (e.2.ended r p).toList := by
  rw [endCalls, filterMap_cons', filterMap_cons', toList_report?, toList_ended]
  exact List.append_nil _

/-- …and registers nothing. -/
theorem registers_endCalls {e : Nat × Subscription} {step : Call} (h : step ∈ endCalls e) :
    step.registers = false := by
  rcases List.mem_cons.mp h with rfl | h
  · rfl
  · rw [List.mem_singleton.mp h]
    rfl

/-- The effect of `Unsubscribe`. -/
theorem effect_unsubscribe (h : s.Settled) {id : Nat} {sub : Subscription}
    (hsub : s.sub? id = some sub) :
    Effect s (.unsubscribe id) (s.start (s.hub.unsubscribeLocked id) (endCalls (id, sub))) := by
  have hlookup : ∀ id', (s.start (s.hub.unsubscribeLocked id) (endCalls (id, sub))).sub? id' =
      if id' = id then none else s.sub? id' := fun id' => Table.lookup_erase' _ _ _
  refine .ends [sub] (fun r p => ?_) (fun r p => ?_) ?_
    fun _ => h.winding_start _ fun step hstep => registers_endCalls hstep
  · rw [h.expected_start, filterMap_endCalls, filterMap_cons', List.filterMap_nil, List.append_nil]
  · constructor
    · rintro ⟨id', sub', hsub', hroom, hplayer⟩
      by_cases heq : id' = id
      · subst heq
        obtain rfl := Option.some.inj (hsub.symm.trans hsub')
        exact .inr ⟨sub, List.mem_singleton_self _, hroom, hplayer⟩
      · exact .inl ⟨id', sub', by rw [hlookup, if_neg heq, hsub'], hroom, hplayer⟩
    · rintro (⟨id', sub', hsub', hroom, hplayer⟩ | ⟨sub', hmem, hroom, hplayer⟩)
      · rw [hlookup] at hsub'
        split at hsub'
        · cases hsub'
        · exact ⟨id', sub', hsub', hroom, hplayer⟩
      · rw [List.mem_singleton.mp hmem] at hroom hplayer
        exact ⟨id, sub, hsub, hroom, hplayer⟩
  · simp only [RemovesAll, List.forall_mem_singleton]
    constructor
    · rintro hall ⟨id', sub', hsub', hroom, hplayer⟩
      rw [hlookup] at hsub'
      split at hsub'
      · cases hsub'
      case isFalse hne => exact hne (hall sub hsub id' sub' hsub' hroom hplayer)
    · intro hnone sub₀ hsub₀ id' sub' hsub' hroom hplayer
      obtain rfl := Option.some.inj (hsub.symm.trans hsub₀)
      by_contra hne
      exact hnone ⟨id', sub', by rw [hlookup, if_neg hne, hsub'], hroom, hplayer⟩

variable (op) in
/-- The effect of `CloseAll` and of `CloseAllWithEvent`, which writes a closing event to each first. -/
theorem effect_closeAll (h : s.Settled) (closing : List Call)
    (hclosing : ∀ step ∈ closing, step.registers = false ∧ ∀ r p, step.report? r p = none)
    (hall : s.RemovesAll op) :
    Effect s op (s.start s.hub.closeAllLocked
      (closing ++ s.hub.subscriptions.toPairs.flatMap endCalls)) := by
  have hnone : ∀ r p, ¬(s.start s.hub.closeAllLocked
      (closing ++ s.hub.subscriptions.toPairs.flatMap endCalls)).Registered r p := by
    rintro r p ⟨id, sub, hsub, -⟩
    cases hsub
  refine .ends (s.hub.subscriptions.toPairs.map (·.2)) (fun r p => ?_) (fun r p => ?_)
    ⟨fun _ _ _ => hnone _ _, fun _ => hall⟩ fun _ => h.winding_start _ fun step hstep => ?_
  · have hquiet : closing.filterMap (·.report? r p) = [] :=
      List.filterMap_eq_nil_iff.mpr fun step hstep => (hclosing step hstep).2 r p
    rw [h.expected_start, List.filterMap_append, hquiet, List.nil_append, List.filterMap_flatMap,
      List.filterMap_map, List.filterMap_eq_flatMap_toList]
    simp only [filterMap_endCalls, Function.comp_apply]
  · constructor
    · rintro ⟨id, sub, hsub, hroom, hplayer⟩
      exact .inr ⟨sub, List.mem_map.mpr ⟨(id, sub), Table.mem_toPairs.mpr hsub, rfl⟩, hroom, hplayer⟩
    · rintro (hreg | ⟨sub, hmem, hroom, hplayer⟩)
      · exact absurd hreg (hnone r p)
      · obtain ⟨⟨id, sub⟩, he, rfl⟩ := List.mem_map.mp hmem
        exact ⟨id, sub, Table.mem_toPairs.mp he, hroom, hplayer⟩
  · rcases List.mem_append.mp hstep with hmem | hmem
    · exact (hclosing step hmem).1
    · obtain ⟨e, -, hmem⟩ := List.mem_flatMap.mp hmem
      exact registers_endCalls hmem

/-- The effect of one job of a `Tick`. -/
theorem effect_job {vars : TickState} {job : Job} {jobs : List Job} (answer : Answer)
    (htick : s.tick = .running vars (job :: jobs)) :
    Effect s (.resumeTick answer) (s.next c (.resumeTick answer)) := by
  have hnext : s.next c (.resumeTick answer) =
      { s with
        hub := (job.run c answer s.hub vars).hub
        tick := .running (job.run c answer s.hub vars).vars
          ((job.run c answer s.hub vars).more ++ jobs)
        log := s.log ++ (job.run c answer s.hub vars).events } := by
    simp only [next, resumeTick, htick]
  rw [hnext]
  refine .quiet (fun vars' htick' => by cases htick.symm.trans htick') (fun r p => ?_) fun r p => ?_
  · have hquiet : (job.run c answer s.hub vars).events.filterMap (·.report r p) = [] :=
      List.filterMap_eq_nil_iff.mpr fun _ hmem => Job.report_of_mem hmem
    simp only [expected, reports, htick, TickPc.gone, List.filterMap_append, hquiet,
      List.append_nil]
  · refine registered_map (f := fun sub => sub) (fun _ => rfl) (fun _ => rfl) (fun id => ?_) r p
    rw [Option.map_id_fun', sub?, Job.run_subscriptions]
    rfl

/-- The end of a `Tick` leaves only reports behind. -/
theorem winding_commit {vars : TickState} (answer : Answer) (htick : s.tick = .running vars [])
    (hcalls : ∀ call ∈ s.calls, call = []) : (s.next c (.resumeTick answer)).Winding := by
  simp only [next, resumeTick, htick]
  refine ⟨⟨_, rfl, .inr hcalls⟩, fun call hcall => hcalls call ((List.dropLast_sublist _).subset hcall),
    fun step hstep => ?_⟩
  rw [List.flatten_eq_nil_iff.mpr hcalls] at hstep
  cases hstep

/-- The effect of the last section of a `Tick`. -/
theorem effect_commit {vars : TickState} (answer : Answer) (htick : s.tick = .running vars [])
    (hcalls : ∀ call ∈ s.calls, call = []) :
    Effect s (.resumeTick answer) (s.next c (.resumeTick answer)) := by
  have hnext : s.next c (.resumeTick answer) =
      { s with
        hub := (s.hub.commit vars).1
        tick := .reporting ((s.hub.commit vars).2.map (·.2))
        log := s.log ++ (s.hub.commit vars).2.map (.close ·.1) } := by
    simp only [next, resumeTick, htick]
  have hflatten : s.calls.flatten = [] := List.flatten_eq_nil_iff.mpr hcalls
  have hlookup : ∀ id, (s.next c (.resumeTick answer)).sub? id =
      if id ∈ vars.failed then none else (s.sub? id).map (·.committed vars id) := by
    intro id
    rw [hnext]
    exact StreamHub.lookup_commit
  have hgone : ∀ sub', sub' ∈ (s.hub.commit vars).2.map (·.2) ↔
      ∃ id ∈ vars.failed, ∃ sub, s.sub? id = some sub ∧ sub.committed vars id = sub' := by
    intro sub'
    simp only [List.mem_map, Prod.exists, StreamHub.mem_snd_commit, Option.map_eq_some_iff,
      exists_eq_right]
  refine .ends ((s.hub.commit vars).2.map (·.2)) (fun r p => ?_) (fun r p => ?_) ?_
    fun _ => winding_commit answer htick hcalls
  · have hquiet : ((s.hub.commit vars).2.map fun e => StreamEvent.close e.1).filterMap
        (·.report r p) = [] := by
      rw [List.filterMap_map]
      exact List.filterMap_eq_nil_iff.mpr fun _ _ => rfl
    rw [hnext]
    simp only [expected, reports, htick, TickPc.gone, List.filterMap_append, hquiet, hflatten,
      List.filterMap_nil, List.append_nil]
  · constructor
    · rintro ⟨id, sub, hsub, rfl, rfl⟩
      by_cases hfailed : id ∈ vars.failed
      · refine .inr ⟨sub.committed vars id, (hgone _).mpr ⟨id, hfailed, sub, hsub, rfl⟩, ?_⟩
        simp
      · refine .inl ⟨id, sub.committed vars id, ?_, by simp⟩
        rw [hlookup, if_neg hfailed, hsub]
        rfl
    · rintro (⟨id, sub', hsub', rfl, rfl⟩ | ⟨sub', hmem, rfl, rfl⟩)
      · rw [hlookup] at hsub'
        split at hsub'
        · cases hsub'
        · obtain ⟨sub, hsub, rfl⟩ := Option.map_eq_some_iff.mp hsub'
          exact ⟨id, sub, hsub, by simp⟩
      · obtain ⟨id, -, sub, hsub, rfl⟩ := (hgone _).mp hmem
        exact ⟨id, sub, hsub, by simp⟩
  · constructor
    · rintro hall sub' hmem ⟨id', sub'', hsub'', hroom, hplayer⟩
      obtain ⟨id, hfailed, sub, hsub, rfl⟩ := (hgone _).mp hmem
      rw [hlookup] at hsub''
      split at hsub''
      · cases hsub''
      case isFalse hnot =>
        obtain ⟨sub₀, hsub₀, rfl⟩ := Option.map_eq_some_iff.mp hsub''
        exact hnot (hall vars htick id hfailed sub hsub id' sub₀ hsub₀ (by simpa using hroom)
          (by simpa using hplayer))
    · intro hnone vars' htick' id hfailed sub hsub id' sub' hsub' hroom hplayer
      obtain ⟨rfl, -⟩ := TickPc.running.inj (htick.symm.trans htick')
      by_contra hnot
      refine hnone _ ((hgone _).mpr ⟨id, hfailed, sub, hsub, rfl⟩)
        ⟨id', sub'.committed vars id', ?_, by simpa using hroom, by simpa using hplayer⟩
      rw [hlookup, if_neg hnot, hsub']
      rfl

/-- The effect of the lock section of `Subscribe`. -/
theorem effect_register (hsound : Sound s) {before : List (List Call)} {playerId roomId : String}
    {options : SubscribeOptions} {n : Nat} (answer : Answer) (hidle : s.Idle)
    (hcalls : s.calls = before ++ [[.register playerId roomId options]])
    (hbefore : ∀ call ∈ before, call = []) :
    Effect s (.resumeCall n answer) (s.next c (.resumeCall n answer)) ∧
      (s.next c (.resumeCall n answer) = s ∨ (s.next c (.resumeCall n answer)).Winding) := by
  simp only [next, resumeCall]
  split
  case h_2 => exact ⟨.same trivial, .inl rfl⟩
  case h_1 step rest hcall =>
    have hlast : ∀ call ∈ s.calls.dropLast, call = [] := by
      rw [hcalls, List.dropLast_concat]
      exact hbefore
    obtain ⟨hflatten, hset⟩ := Call.flatten_set hlast hcall
    have hone : s.calls.flatten = [.register playerId roomId options] := by
      rw [hcalls, List.flatten_append, List.flatten_eq_nil_iff.mpr hbefore]
      rfl
    obtain ⟨rfl, rfl⟩ := List.cons.inj (hflatten.symm.trans hone)
    obtain ⟨hnext, hdone⟩ := hset [.report roomId playerId true options.requestId]
    have htick : s.tick = .reporting [] := hidle
    refine ⟨.starts roomId playerId trivial (fun r p => ?_) fun r p => ?_, .inr ?_⟩
    · have hsilent : (Call.register playerId roomId options).report? r p = none := rfl
      simp only [expected, reports, htick, TickPc.gone, hflatten, Call.run, List.append_nil, hnext,
        filterMap_cons', toList_report?, List.filterMap_nil, List.nil_append, hsilent,
        Option.toList_none]
    · obtain ⟨new, hroom, hplayer, hlookup⟩ : ∃ new : Subscription, new.roomId = roomId ∧
          new.playerId = playerId ∧ ∀ id,
          (s.hub.subscribeLocked playerId roomId options).subscriptions.lookup id =
            if id = s.hub.nextId then some new else s.sub? id :=
        ⟨_, rfl, rfl, fun id => Table.lookup_insert' _ _ _ _⟩
      constructor
      · rintro ⟨id, sub, hsub, rfl, rfl⟩
        rw [sub?, Call.run, hlookup] at hsub
        split at hsub
        · cases hsub
          exact .inr ⟨hroom.symm, hplayer.symm⟩
        · exact .inl ⟨id, sub, hsub, rfl, rfl⟩
      · rintro (⟨id, sub, hsub, rfl, rfl⟩ | ⟨rfl, rfl⟩)
        · refine ⟨id, sub, ?_, rfl, rfl⟩
          rw [sub?, Call.run, hlookup, if_neg (hsound.registered id sub hsub).ne, hsub]
        · refine ⟨s.hub.nextId, new, ?_, hroom, hplayer⟩
          rw [sub?, Call.run, hlookup, if_pos rfl]
    · refine ⟨⟨[], hidle, .inl rfl⟩, hdone, ?_⟩
      simp only [Call.run, List.append_nil, hnext, List.forall_mem_singleton]
      rfl

/-- **One step**, wherever the run is. -/
theorem effect_next (hroom : c.hasRoom = true) (hsound : Sound s) (hphase : s.Phase)
    (hop : s.OneAtATime op) : Effect s op (s.next c op) ∧ (s.next c op).Phase := by
  have hwinds : s.Winding → (∃ answer, op = .resumeTick answer) ∨
      (∃ call answer, op = .resumeCall call answer) →
      Effect s op (s.next c op) ∧ (s.next c op).Phase := by
    intro hwinding hresumes
    obtain ⟨hnext, hhub, hexpected⟩ := hwinding.next hroom hresumes
    refine ⟨.quiet ?_ hexpected fun r p => ?_, .winding hnext⟩
    · obtain ⟨gone, htick, -⟩ := hwinding.reporting
      rcases hresumes with ⟨answer, rfl⟩ | ⟨n, answer, rfl⟩
      · exact fun vars htick' => (by cases htick.symm.trans htick')
      · trivial
    · simp only [Registered, sub?, hhub]
  rcases op with ⟨playerId, roomId, hasSink, options⟩ | id | nowMs | - | - | reason | answer |
    ⟨n, answer⟩
  · simp only [next]
    split
    · exact ⟨.same trivial, hphase⟩
    · refine ⟨.quiet trivial (fun r p => ?_) fun _ _ => Iff.rfl, ?_⟩
      · rw [hop.expected_start]
        exact List.append_nil _
      · exact .registering s.calls playerId roomId options hop.1 rfl hop.2
  · simp only [next]
    split
    case h_1 hnone => exact ⟨.same fun sub hsub => (by cases hnone.symm.trans hsub), hphase⟩
    case h_2 sub hsub =>
      exact ⟨effect_unsubscribe hop hsub,
        .winding (hop.winding_start _ fun step hstep => registers_endCalls hstep)⟩
  · refine ⟨.quiet trivial (fun r p => ?_) (registered_map (f := fun sub => sub.seen nowMs)
      (fun _ => Subscription.seen_roomId) (fun _ => Subscription.seen_playerId)
      fun id => sub?_tick nowMs), .ticking _ _ rfl hop.2⟩
    rw [hop.expected, expected, show (s.next c (.tick nowMs)).calls = s.calls from rfl,
      List.flatten_eq_nil_iff.mpr hop.2]
    exact List.append_nil _
  · have heffect := effect_closeAll .closeAll hop [] (fun _ hmem => (by cases hmem))
      trivial
    exact ⟨heffect, .winding (hop.winding_start _ fun step hstep => by
      obtain ⟨e, -, hstep⟩ := List.mem_flatMap.mp hstep
      exact registers_endCalls hstep)⟩
  · exact ⟨.quiet trivial (fun _ _ => rfl) fun _ _ => Iff.rfl,
      .winding ⟨⟨[], hop.1, .inl rfl⟩, hop.winding.last, hop.winding.registers⟩⟩
  · have hclosing : ∀ step ∈ s.hub.subscriptions.toPairs.map fun e => Call.writeClosed e.1 reason,
        step.registers = false ∧ ∀ r p, step.report? r p = none := by
      intro step hstep
      obtain ⟨e, -, rfl⟩ := List.mem_map.mp hstep
      exact ⟨rfl, fun _ _ => rfl⟩
    refine ⟨effect_closeAll (.closeAllWithEvent reason) hop _ hclosing trivial,
      .winding (hop.winding_start _ fun step hstep => ?_)⟩
    rcases List.mem_append.mp hstep with hmem | hmem
    · exact (hclosing step hmem).1
    · obtain ⟨e, -, hmem⟩ := List.mem_flatMap.mp hmem
      exact registers_endCalls hmem
  · rcases hphase with ⟨vars, - | ⟨job, jobs⟩, htick, hcalls⟩ |
      ⟨before, playerId, roomId, options, hidle, hcalls, hbefore⟩ | hwinding
    · exact ⟨effect_commit answer htick hcalls, .winding (winding_commit answer htick hcalls)⟩
    · refine ⟨effect_job answer htick, ?_⟩
      simp only [next, resumeTick, htick]
      exact .ticking _ _ rfl hcalls
    · have hnext : s.next c (.resumeTick answer) = s := by
        simp only [next, resumeTick, show s.tick = .reporting [] from hidle]
      rw [hnext]
      exact ⟨.same fun vars htick => (by cases hidle.symm.trans htick),
        .registering before playerId roomId options hidle hcalls hbefore⟩
    · exact hwinds hwinding (.inl ⟨answer, rfl⟩)
  · rcases hphase with ⟨vars, jobs, htick, hcalls⟩ |
      ⟨before, playerId, roomId, options, hidle, hcalls, hbefore⟩ | hwinding
    · have hnext : s.next c (.resumeCall n answer) = s := by
        simp only [next, resumeCall]
        split
        case h_1 step rest hcall => cases hcalls _ (List.mem_of_getElem? hcall)
        case h_2 => rfl
      rw [hnext]
      exact ⟨.same trivial, .ticking vars jobs htick hcalls⟩
    · obtain ⟨heffect, hsame | hwinding⟩ := effect_register (c := c) (n := n) hsound answer hidle
        hcalls hbefore
      · refine ⟨heffect, ?_⟩
        rw [hsame]
        exact .registering before playerId roomId options hidle hcalls hbefore
      · exact ⟨heffect, .winding hwinding⟩
    · exact hwinds hwinding (.inr ⟨n, answer, rfl⟩)

/-! ## The last report

With one call at a time, the last report is that of the last event. -/

/-- The reports, made or owed, agree with the subscriptions. -/
def Agrees (s : StreamSystem) : Prop :=
  ∀ r p, (s.expected r p).getLast? = some true ↔ s.Registered r p

/-- Some player is about to be reported offline, or was, whose subscription is registered. -/
def Broken (s : StreamSystem) : Prop :=
  ∃ r p, (s.expected r p).getLast? = some false ∧ s.Registered r p

/-- The last report of some ends is that of an end. -/
theorem getLast?_ended (reports : List Bool) {gone : List Subscription} {r p : String}
    (h : ∃ sub ∈ gone, sub.roomId = r ∧ sub.playerId = p) :
    (reports ++ gone.filterMap (·.ended r p)).getLast? = some false := by
  obtain ⟨sub, hsub, heq⟩ := h
  have hne : gone.filterMap (·.ended r p) ≠ [] :=
    List.ne_nil_of_mem (List.mem_filterMap.mpr ⟨sub, hsub, if_pos heq⟩)
  rw [List.getLast?_append_of_ne_nil _ hne, List.getLast?_eq_getLast_of_ne_nil hne]
  obtain ⟨sub', -, hended⟩ := List.mem_filterMap.mp (List.getLast_mem hne)
  exact congrArg some (Subscription.ended_eq_some hended).1

/-- A step that removes all of a player's subscriptions keeps the reports true. -/
theorem Effect.agrees (h : Effect s op s') (hall : s.RemovesAll op) (hs : s.Agrees) : s'.Agrees := by
  intro r p
  rcases h with ⟨roomId, playerId, -, hexpected, hregistered⟩ |
    ⟨gone, hexpected, hregistered, hiff, -⟩
  · rw [hexpected, hregistered]
    split
    case isTrue heq => simp [heq]
    case isFalse hne =>
      rw [List.append_nil, hs r p]
      exact (or_iff_left hne).symm
  · rw [hexpected]
    by_cases hmem : ∃ sub ∈ gone, sub.roomId = r ∧ sub.playerId = p
    · rw [getLast?_ended _ hmem]
      obtain ⟨sub, hsub, rfl, rfl⟩ := hmem
      simpa using hiff.mp hall sub hsub
    · have hnone : gone.filterMap (·.ended r p) = [] :=
        List.filterMap_eq_nil_iff.mpr fun sub hsub => if_neg fun heq => hmem ⟨sub, hsub, heq⟩
      rw [hnone, List.append_nil, hs r p, hregistered r p]
      exact or_iff_left hmem

/-- A step that leaves one of them is on its way to a wrong report. -/
theorem Effect.broken (h : Effect s op s') (hall : ¬s.RemovesAll op) : s'.Broken ∧ s'.Winding := by
  rcases h with ⟨_, _, hremoves, -⟩ | ⟨gone, hexpected, -, hiff, hwinding⟩
  · exact absurd hremoves hall
  · rw [hiff] at hall
    simp only [not_forall, not_not] at hall
    obtain ⟨sub, hsub, hregistered⟩ := hall
    refine ⟨⟨sub.roomId, sub.playerId, ?_, hregistered⟩, hwinding (List.ne_nil_of_mem hsub)⟩
    rw [hexpected]
    exact getLast?_ended _ ⟨sub, hsub, rfl, rfl⟩

/-- Where every run is, and what its ids are. -/
theorem phase_of_run (hroom : c.hasRoom = true) {ops : List StreamOp}
    (hrun : Run (SoloStep c) {} ops s) : Sound s ∧ s.Phase := by
  refine hrun.invariant (I := fun s => Sound s ∧ s.Phase) (fun s op s' h hstep => ?_)
    ⟨.start, .winding (Settled.winding ⟨rfl, fun _ hmem => by cases hmem⟩)⟩
  refine ⟨h.1.step hstep.step, ?_⟩
  rw [hstep.2]
  exact (effect_next hroom h.1 h.2 hstep.1).2

/-- A wrong report that is owed will be made. -/
theorem Broken.step (hroom : c.hasRoom = true) (h : s.Broken ∧ s.Winding) (hnot : ¬s.Settled)
    (hstep : SoloStep c s op s') : s'.Broken ∧ s'.Winding := by
  obtain ⟨hop, rfl⟩ := hstep
  have hresumes : (∃ answer, op = .resumeTick answer) ∨ ∃ call answer, op = .resumeCall call answer := by
    cases op
    case resumeTick answer => exact .inl ⟨answer, rfl⟩
    case resumeCall call answer => exact .inr ⟨call, answer, rfl⟩
    all_goals exact absurd hop hnot
  obtain ⟨⟨r, p, hlast, hregistered⟩, hwinding⟩ := h
  obtain ⟨hnext, hhub, hexpected⟩ := hwinding.next hroom hresumes
  refine ⟨⟨r, p, by rw [hexpected, hlast], ?_⟩, hnext⟩
  simp only [Registered, sub?, hhub]
  exact hregistered

/-- **Room is told the truth after every call of a run exactly where no subscription survives the end of
another one of the same player for the same room.** -/
theorem presenceKept_iff (hroom : c.hasRoom = true) {ops : List StreamOp}
    (hrun : Run (SoloStep c) {} ops s) (hsettled : s.Settled) :
    PresenceKept c ops ↔ NoneSurvives c ops := by
  constructor
  · intro hkept pre op post u hops hpre
    by_contra hall
    obtain ⟨hsound, hphase⟩ := phase_of_run hroom hpre
    rw [hops] at hrun
    obtain ⟨u', hpre', hrest⟩ := Run.append_iff.mp hrun
    obtain rfl : u = u' := hpre.unique (fun _ _ _ _ h h' => h.2.trans h'.2.symm) hpre'
    obtain ⟨v, hstep, hpost⟩ := Run.cons_iff.mp hrest
    have hbroken : v.Broken ∧ v.Winding := by
      rw [hstep.2]
      exact (effect_next hroom hsound hphase hstep.1).1.broken hall
    obtain ⟨mid, rest, w, hmid, hrunMid, hdone, ⟨r, p, hlast, hregistered⟩, -⟩ :=
      hpost.first (P := Settled) (I := fun s => s.Broken ∧ s.Winding)
        (fun _ _ _ h hnot hstep => Broken.step hroom h hnot hstep) hbroken hsettled
    have hagrees := hkept (pre ++ op :: mid) rest w (by rw [hops, hmid]; simp)
      (hpre.append (.cons hstep hrunMid)) hdone r p
    rw [← hdone.expected, hlast] at hagrees
    cases hagrees.mpr hregistered
  · intro hnone pre post u hops hpre hdone r p
    have hagrees : Sound u ∧ u.Phase ∧ u.Agrees := by
      refine hpre.invariant_of_guard (I := fun s => Sound s ∧ s.Phase ∧ s.Agrees)
        (G := fun s op => s.RemovesAll op) (fun s op s' h hall hstep => ?_)
        (fun before op after m heq hbefore => hnone before op (after ++ post) m ?_ hbefore)
        ⟨.start, .winding (Settled.winding ⟨rfl, fun _ hmem => by cases hmem⟩), fun r p => ?_⟩
      · obtain ⟨heffect, hphase⟩ := effect_next hroom h.1 h.2.1 hstep.1
        rw [← hstep.2] at heffect hphase
        exact ⟨h.1.step hstep.step, hphase, heffect.agrees hall h.2.2⟩
      · rw [hops, heq]
        simp
      · refine ⟨fun h => (by cases h), ?_⟩
        rintro ⟨_, _, hsub, -⟩
        cases hsub
    rw [← hdone.expected]
    exact hagrees.2.2 r p

/-- bob's connection fails, and alice leaves and returns. -/
def oneByOne : List StreamOp :=
  [.subscribe "alice" "r-1" true {}, .resumeCall 0 {}, .resumeCall 0 {},
    .subscribe "bob" "r-1" true {}, .resumeCall 1 {}, .resumeCall 1 {},
    .tick 1000, .resumeTick {}, .resumeTick {}, .resumeTick { wrote := false }, .resumeTick {}, .resumeTick {},
    .resumeTick {}, .unsubscribe 1, .resumeCall 2 {}, .resumeCall 2 {}, .resumeCall 2 {},
    .subscribe "alice" "r-1" true {}, .resumeCall 3 {}, .resumeCall 3 {}]

theorem presenceKept_iff_oneByOne : PresenceKept {} oneByOne ↔ NoneSurvives {} oneByOne :=
  presenceKept_iff rfl (s := oneByOne.foldl (next {}) {}) (Run.of_guarded (by decide)) (by decide)

/-- alice subscribes, and subscribes again. -/
def reconnected : List StreamOp :=
  [.subscribe "alice" "r-1" true {}, .resumeCall 0 {}, .resumeCall 0 {},
    .subscribe "alice" "r-1" true {}, .resumeCall 1 {}, .resumeCall 1 {}]

/-- After that, a write to her first connection fails. -/
def oldConnectionFails : List StreamOp :=
  reconnected ++ [.tick 1000, .resumeTick {}, .resumeTick {}, .resumeTick {},
    .resumeTick { wrote := false }, .resumeTick {}, .resumeTick {}]

/-- She is reported offline while her second connection is there. -/
theorem not_presenceKept : ¬∀ c ops, c.hasRoom = true → PresenceKept c ops := by
  intro h
  have hagrees := h {} oldConnectionFails rfl _ [] (oldConnectionFails.foldl (next {}) {})
    (List.append_nil _).symm (Run.of_guarded (by decide)) (by decide) "r-1" "alice"
  have hsub : ((oldConnectionFails.foldl (next {}) {}).sub? 2).map
      (fun sub => (sub.roomId, sub.playerId)) = some ("r-1", "alice") := by decide
  obtain ⟨sub, hsub, heq⟩ := Option.map_eq_some_iff.mp hsub
  obtain ⟨hroom, hplayer⟩ := Prod.mk.inj heq
  exact absurd (hagrees.mpr ⟨2, sub, hsub, hroom, hplayer⟩) (by decide)

end StreamSystem

end RealtimeGame.Gateway
