import RealtimeGame.Library.Run
import RealtimeGame.Room.Lifecycle

/-!
# Room/ResultSafety — a result is written before it counts, and always the same

`Tick` reads a room's record under the lock, writes it outside, and marks the room under the lock
again, while any other thread runs in between.  The law that survives every interleaving is
`Sound.attempt`: as long as the room of an attempted record exists, that record is its result.
-/

open Library

namespace RealtimeGame.Room

/-- The room and the record of a thread that has taken a record out of the lock to write it. -/
def Pc.attempt? : Pc → Option (String × MatchResultRecord)
  | .write _ roomId record _ => some (roomId, record)
  | .commit _ roomId record _ _ => some (roomId, record)
  | _ => none

/-- …and of one whose write was reported as done. -/
def Pc.confirmed? : Pc → Option (String × MatchResultRecord)
  | .commit _ roomId record true _ => some (roomId, record)
  | _ => none

theorem Pc.attempt?_of_confirmed? {pc : Pc} {x : String × MatchResultRecord}
    (h : pc.confirmed? = some x) : pc.attempt? = some x := by
  unfold Pc.confirmed? at h
  split at h
  · exact h
  · cases h

theorem Pc.attempt?_afterLock (nowMs : Int) (pending : RoomManager.Pending) :
    (Pc.afterLock nowMs pending).attempt? = none := by
  unfold Pc.afterLock
  split <;> rfl

namespace RoomSystem

/-- The room with this id. -/
abbrev room? (s : RoomSystem) (x : String) : Option BattleRoom := s.manager.rooms.lookup x

/-- Some thread wrote, or is about to write, this record for room `x`. -/
def Attempts (s : RoomSystem) (x : String) (record : MatchResultRecord) : Prop :=
  (∃ pc ∈ s.threads, pc.attempt? = some (x, record)) ∨
    (record.roomId = x ∧ ∃ reply, .write record reply ∈ s.log)

/-- **What holds of the system after any run.** -/
structure Sound (s : RoomSystem) : Prop where
  indexed : s.manager.Indexed
  created : ∀ x r, s.room? x = some r →
    s.created.lookup x = some r.matchId ∧ validId r.matchId = true
  /-- The index leads only to rooms of the match. -/
  entry : ∀ k x, s.manager.matchIndex.lookup k = some x → s.created.lookup x = some k
  /-- While the room of an attempted record exists, the record is its result. -/
  attempt : ∀ x record, s.Attempts x record → record.roomId = x ∧ x ∈ s.created ∧
    ∀ r, s.room? x = some r → r.result = some record
  unique : ∀ x record record', s.Attempts x record → s.Attempts x record' → record = record'
  confirmed : ∀ pc ∈ s.threads, ∀ x record, pc.confirmed? = some (x, record) →
    .write record .done ∈ s.log
  finished : ∀ x r, s.room? x = some r → r.phase = .finished →
    ∃ record, r.result = some record ∧ .write record .done ∈ s.log
  results : ∀ k record, .result k (.ok record) ∈ s.log → .read k (.ok record) ∈ s.log

theorem Sound.start : Sound {} where
  indexed := ⟨fun _ _ h => (by cases h), fun _ _ h => (by cases h)⟩
  created _ _ h := by cases h
  entry _ _ h := by cases h
  attempt x record h := by simp [Attempts] at h
  unique x record record' h := by simp [Attempts] at h
  confirmed pc h := by simp at h
  finished _ _ h := by cases h
  results k record h := by simp at h

/-- **What one action can do**, as far as results are concerned. -/
structure Effect (s s' : RoomSystem) : Prop where
  indexed : s'.manager.Indexed
  /-- A room became what it is, or its confirmed result was marked, or it is new. -/
  room : ∀ x r', s'.room? x = some r' →
    (∃ r, s.room? x = some r ∧ (r.Becomes r' ∨ (r' = r.markResultPersisted ∧
      ∃ pc ∈ s.threads, ∃ record, pc.confirmed? = some (x, record)))) ∨
    (x ∉ s.created ∧ s'.created.lookup x = some r'.matchId ∧ validId r'.matchId = true ∧
      r'.phase = .created)
  /-- Only a room that is over goes. -/
  gone : ∀ x r, s.room? x = some r → s'.room? x = none →
    ∃ r', r.Becomes r' ∧ (r'.phase = .finished ∨ r'.phase = .aborted)
  created : ∀ x k, s.created.lookup x = some k → s'.created.lookup x = some k
  entry : ∀ k x, s'.manager.matchIndex.lookup k = some x →
    s.manager.matchIndex.lookup k = some x ∨ s'.created.lookup x = some k
  /-- A record is only ever taken from a room that is finishing. -/
  attempt : ∀ x record, s'.Attempts x record → s.Attempts x record ∨
    ∃ r, s.room? x = some r ∧ r.phase = .finishing ∧ r.result = some record
  confirmed : ∀ pc ∈ s'.threads, ∀ x record, pc.confirmed? = some (x, record) →
    pc ∈ s.threads ∨ .write record .done ∈ s'.log
  log : ∃ events, s'.log = s.log ++ events ∧
    ∀ k record, .result k (.ok record) ∈ events → .read k (.ok record) ∈ events

/-! ## Every action has such an effect

The actions, told apart once. -/

variable {stores : RoomStores} {s s' : RoomSystem}

/-- The registry evolves; no thread takes up a record or reports one, and none is written. -/
theorem Effect.quiet (h : Sound s) {m' : RoomManager} {threads : List Pc} {events : List Event}
    (hm : s.manager.Evolves m')
    (hthreads : ∀ pc ∈ threads, pc ∈ s.threads ∨ (pc.confirmed? = none ∧
      (pc.attempt? = none ∨ ∃ pc₀ ∈ s.threads, pc₀.attempt? = pc.attempt?)))
    (hwrite : ∀ record reply, .write record reply ∉ events)
    (hresult : ∀ k record, .result k (.ok record) ∈ events → .read k (.ok record) ∈ events) :
    Effect s ⟨m', threads, s.created, s.log ++ events⟩ where
  indexed := h.indexed.evolve hm
  room x r' hr' := by
    obtain ⟨r, hr, hb⟩ := hm.room x r' hr'
    exact .inl ⟨r, hr, .inl hb⟩
  gone := hm.gone
  created _ _ hk := hk
  entry k x hk := .inl (hm.entry k x hk)
  attempt x record ha := by
    rcases ha with ⟨pc, hpc, hattempt⟩ | ⟨hroom, reply, hmem⟩
    · rcases hthreads pc hpc with hold | ⟨-, hnone | ⟨pc₀, hpc₀, heq⟩⟩
      · exact .inl (.inl ⟨pc, hold, hattempt⟩)
      · rw [hnone] at hattempt
        cases hattempt
      · exact .inl (.inl ⟨pc₀, hpc₀, heq.trans hattempt⟩)
    · rcases List.mem_append.mp hmem with hmem | hmem
      · exact .inl (.inr ⟨hroom, reply, hmem⟩)
      · exact absurd hmem (hwrite record reply)
  confirmed pc hpc x record hconf := by
    rcases hthreads pc hpc with hold | ⟨hnone, -⟩
    · exact .inl hold
    · rw [hnone] at hconf
      cases hconf
  log := ⟨events, rfl, hresult⟩

/-- A quiet step that neither starts nor resumes a thread. -/
theorem Effect.evolve (h : Sound s) {m' : RoomManager} (hm : s.manager.Evolves m') :
    Effect s { s with manager := m' } := by
  have heffect : Effect s ⟨m', s.threads, s.created, s.log ++ []⟩ :=
    .quiet h hm (fun pc hpc => .inl hpc) (fun _ _ hmem => by cases hmem)
      (fun _ _ hmem => by cases hmem)
  rwa [List.append_nil] at heffect

/-- A quiet step that starts a thread. -/
theorem Effect.spawn (h : Sound s) {m' : RoomManager} {pc : Pc} (hm : s.manager.Evolves m')
    (hpc : pc.attempt? = none) :
    Effect s { s with manager := m', threads := s.threads ++ [pc] } := by
  have heffect : Effect s ⟨m', s.threads ++ [pc], s.created, s.log ++ []⟩ := by
    refine .quiet h hm (fun pc' hpc' => ?_) (fun _ _ hmem => by cases hmem)
      (fun _ _ hmem => by cases hmem)
    rcases List.mem_append.mp hpc' with hold | hnew
    · exact .inl hold
    · obtain rfl := List.mem_singleton.mp hnew
      refine .inr ⟨?_, .inl hpc⟩
      rcases hconf : pc'.confirmed? with - | x
      · rfl
      · rw [Pc.attempt?_of_confirmed? hconf] at hpc
        cases hpc
  rwa [List.append_nil] at heffect

/-- The creation of a room whose id is new. -/
theorem Effect.create (h : Sound s) {nowMs : Int} {matchId : String} {playerIds : List String}
    {roomId : String} {m' : RoomManager} (hfresh : roomId ∉ s.created)
    (hc : s.manager.Creates nowMs matchId playerIds roomId m') :
    Effect s { s with manager := m', created := s.created.insert roomId matchId } where
  indexed := h.indexed.creates hc
  room x r' hr' := by
    simp only [room?, hc.rooms, Table.lookup_insert'] at hr'
    split at hr'
    case isTrue heq =>
      obtain rfl := Option.some.inj hr'
      subst heq
      exact .inr ⟨hfresh, AList.lookup_insert _, hc.validMatch, rfl⟩
    case isFalse => exact .inl ⟨r', hr', .inl (.refl r')⟩
  gone x r hr hnone := by
    simp only [room?, hc.rooms, Table.lookup_insert'] at hnone
    split at hnone
    · cases hnone
    · cases hr.symm.trans hnone
  created x k hk := by
    have hne : x ≠ roomId := by
      rintro rfl
      exact hfresh (AList.lookup_isSome.mp (by rw [hk]; rfl))
    exact (AList.lookup_insert_ne hne).trans hk
  entry k x hk := by
    rw [hc.index, Table.lookup_insert', Table.lookup_erase'] at hk
    split at hk
    case isTrue heq =>
      obtain rfl := Option.some.inj hk
      rw [heq]
      exact .inr (AList.lookup_insert _)
    case isFalse => exact .inl hk
  attempt x record ha := .inl ha
  confirmed pc hpc x record hconf := .inl hpc
  log := ⟨[], by simp, fun _ _ hmem => by cases hmem⟩

/-- The second lock of a result: a confirmed record is marked as persisted. -/
theorem Effect.commit (h : Sound s) {thread : Nat} {nowMs : Int} {x : String}
    {record : MatchResultRecord} {ok : Bool} {toPersist : List String}
    (hpc : s.threads[thread]? = some (.commit nowMs x record ok toPersist)) :
    Effect s { s with
      manager := s.manager.commitResult nowMs x ok
      threads := s.threads.set thread (.persist nowMs toPersist) } where
  indexed := h.indexed.commitResult x ok
  room y r' hr' := by
    obtain ⟨r, hr, hb | ⟨rfl, rfl, rfl⟩⟩ := RoomManager.lookup_commitResult hr'
    · exact .inl ⟨r, hr, .inl hb⟩
    · exact .inl ⟨r, hr, .inr ⟨rfl, _, List.mem_of_getElem? hpc, record, rfl⟩⟩
  gone y r hr hnone := by
    simp only [room?, RoomManager.commitResult, Table.lookup_adjust,
      Option.map_eq_none_iff] at hnone
    cases hr.symm.trans hnone
  created _ _ hk := hk
  entry _ _ hk := .inl hk
  attempt y rec ha := by
    rcases ha with ⟨pc, hmem, hattempt⟩ | hlog
    · rcases List.mem_or_eq_of_mem_set hmem with hold | rfl
      · exact .inl (.inl ⟨pc, hold, hattempt⟩)
      · cases hattempt
    · exact .inl (.inr hlog)
  confirmed pc hmem y rec hconf := by
    rcases List.mem_or_eq_of_mem_set hmem with hold | rfl
    · exact .inl hold
    · cases hconf
  log := ⟨[], by simp, fun _ _ hmem => by cases hmem⟩

/-- The write itself. -/
theorem Effect.write (h : Sound s) {thread : Nat} {nowMs : Int} {x : String}
    {record : MatchResultRecord} {reply : StoreReply} {toPersist : List String}
    (hpc : s.threads[thread]? = some (.write nowMs x record toPersist)) :
    Effect s { s with
      threads := s.threads.set thread (.commit nowMs x record reply.ok toPersist)
      log := s.log ++ [.write record reply] } where
  indexed := h.indexed
  room y r hr := .inl ⟨r, hr, .inl (.refl r)⟩
  gone y r hr hnone := by cases hr.symm.trans hnone
  created _ _ hk := hk
  entry _ _ hk := .inl hk
  attempt y rec ha := by
    have hold : s.Attempts x record := .inl ⟨_, List.mem_of_getElem? hpc, rfl⟩
    rcases ha with ⟨pc, hmem, hattempt⟩ | ⟨hroom, reply', hmem⟩
    · rcases List.mem_or_eq_of_mem_set hmem with hmem | rfl
      · exact .inl (.inl ⟨pc, hmem, hattempt⟩)
      · cases hattempt
        exact .inl hold
    · rcases List.mem_append.mp hmem with hmem | hmem
      · exact .inl (.inr ⟨hroom, reply', hmem⟩)
      · cases List.mem_singleton.mp hmem
        obtain rfl := (h.attempt x record hold).1.symm.trans hroom
        exact .inl hold
  confirmed pc hmem y rec hconf := by
    rcases List.mem_or_eq_of_mem_set hmem with hmem | rfl
    · exact .inl hmem
    · right
      rcases reply with - | - | -
      · cases hconf
        exact List.mem_append_right _ List.mem_cons_self
      · cases hconf
      · cases hconf
  log := ⟨_, rfl, fun k rec hmem => by cases List.mem_singleton.mp hmem⟩

/-- The first lock of a result: the record of a room that is finishing. -/
theorem Effect.take (h : Sound s) {thread : Nat} {nowMs : Int} {x : String}
    {record : MatchResultRecord} {toPersist : List String}
    (hrecord : s.manager.pendingRecord x = some record) :
    Effect s { s with
      threads := s.threads.set thread (.write nowMs x record toPersist) } where
  indexed := h.indexed
  room y r hr := .inl ⟨r, hr, .inl (.refl r)⟩
  gone y r hr hnone := by cases hr.symm.trans hnone
  created _ _ hk := hk
  entry _ _ hk := .inl hk
  attempt y rec ha := by
    rcases ha with ⟨pc, hmem, hattempt⟩ | hlog
    · rcases List.mem_or_eq_of_mem_set hmem with hmem | rfl
      · exact .inl (.inl ⟨pc, hmem, hattempt⟩)
      · cases hattempt
        right
        unfold RoomManager.pendingRecord at hrecord
        split at hrecord
        case h_1 r hr =>
          split at hrecord
          case isTrue hphase => exact ⟨r, hr, hphase, hrecord⟩
          case isFalse => cases hrecord
        case h_2 => cases hrecord
    · exact .inl (.inr hlog)
  confirmed pc hmem y rec hconf := by
    rcases List.mem_or_eq_of_mem_set hmem with hmem | rfl
    · exact .inl hmem
    · cases hconf
  log := ⟨[], by simp, fun _ _ hmem => by cases hmem⟩

/-- A quiet step of one thread. -/
theorem Effect.resumeQuiet (h : Sound s) {m' : RoomManager} {thread : Nat} {pc pc' : Pc}
    {events : List Event} (hm : s.manager.Evolves m') (hpc : s.threads[thread]? = some pc)
    (hconf : pc'.confirmed? = none) (hattempt : pc'.attempt? = none ∨ pc'.attempt? = pc.attempt?)
    (hwrite : ∀ record reply, .write record reply ∉ events)
    (hresult : ∀ k record, .result k (.ok record) ∈ events → .read k (.ok record) ∈ events) :
    Effect s { s with
      manager := m', threads := s.threads.set thread pc', log := s.log ++ events } := by
  refine .quiet h hm (fun pc₀ hmem => ?_) hwrite hresult
  rcases List.mem_or_eq_of_mem_set hmem with hold | rfl
  · exact .inl hold
  · exact .inr ⟨hconf, hattempt.imp_right fun heq => ⟨pc, List.mem_of_getElem? hpc, heq.symm⟩⟩

/-- One step of one thread. -/
theorem Effect.resume (h : Sound s) (thread : Nat) (answer : Answer) :
    Effect s (s.next stores (.resume thread answer)) := by
  simp only [next]
  rcases hpc : s.threads[thread]? with - | pc
  · exact .evolve h (.refl _)
  have noWrite : ∀ record reply, Event.write record reply ∉ ([] : List Event) :=
    fun _ _ hmem => by cases hmem
  have noResult : ∀ k record, Event.result k (.ok record) ∈ ([] : List Event) →
      Event.read k (.ok record) ∈ ([] : List Event) := fun _ _ hmem => by cases hmem
  rcases pc with ⟨nowMs, records, ok, ko, tp⟩ | ⟨nowMs, tp⟩ | ⟨nowMs, x, record, tp⟩ |
    ⟨nowMs, x, record, ok, tp⟩ | matchId | records | -
  · -- `FlushSnapshots`
    rcases records with - | ⟨record, records⟩
    · exact .resumeQuiet h (.of_eq rfl rfl) hpc rfl (.inl rfl) noWrite noResult
    · simp only [Pc.resume]
      split
      · exact .resumeQuiet h (.refl _) hpc rfl (.inl rfl) (by simp) (by simp)
      · exact .resumeQuiet h (.refl _) hpc rfl (.inl rfl) (by simp) (by simp)
  · -- between two results
    rcases tp with - | ⟨x, tp⟩
    · exact .resumeQuiet h (.refl _) hpc rfl (.inl rfl) noWrite noResult
    · simp only [Pc.resume]
      rcases hrecord : s.manager.pendingRecord x with - | record
      · exact .resumeQuiet h (.refl _) hpc rfl (.inl rfl) noWrite noResult
      · simp only [List.append_nil]
        exact .take h hrecord
  · -- the write
    simp only [Pc.resume]
    split
    · exact .write h hpc
    · exact .resumeQuiet h (.refl _) hpc rfl (.inr rfl) noWrite noResult
  · -- the commit
    simp only [Pc.resume, List.append_nil]
    exact .commit h hpc
  · -- `GetResult`
    simp only [Pc.resume]
    split
    · refine .resumeQuiet h (.refl _) hpc rfl (.inl rfl) (by simp) fun k record hmem => ?_
      rcases answer with ⟨reply, ⟨record'⟩ | - | -⟩ <;>
        simp_all [ReadAnswer.toOutcome]
    · exact .resumeQuiet h (.refl _) hpc rfl (.inl rfl) (by simp) (by simp)
  · -- `RejectSnapshots`
    rcases records with - | ⟨record, records⟩
    · exact .resumeQuiet h (.refl _) hpc rfl (.inl rfl) noWrite noResult
    · exact .resumeQuiet h (.refl _) hpc rfl (.inl rfl) (by simp [Pc.resume]) (by simp [Pc.resume])
  · exact .resumeQuiet h (.refl _) hpc rfl (.inl rfl) noWrite noResult

/-- **Every action has an effect of the kind described.** -/
theorem Effect.of_step (h : Sound s) {a : Action} (hstep : Step stores s a s') : Effect s s' := by
  obtain ⟨hfresh, rfl⟩ := hstep
  rcases a with ⟨matchId, playerIds, nowMs, roomId⟩ | ⟨x, player, nowMs⟩ | ⟨x, player, kind⟩ |
    ⟨x, player, online, nowMs⟩ | ⟨x, nowMs⟩ | ⟨x, sinceFrame, nowMs⟩ | ⟨matchId, nowMs⟩ | nowMs |
    nowMs | - | ⟨thread, answer⟩
  · have hnone : s.manager.rooms.lookup roomId = none := by
      rcases hroom : s.manager.rooms.lookup roomId with - | r
      · rfl
      · exact absurd (AList.lookup_isSome.mp (by rw [(h.created roomId r hroom).1]; rfl)) hfresh
    simp only [next]
    rcases RoomManager.create_cases h.indexed hnone with ⟨hmakes, hm⟩ | ⟨hmakes, hc⟩
    · rw [hmakes]
      exact .evolve h hm
    · rw [hmakes]
      exact .create h hfresh hc
  · exact .evolve h (.join x player)
  · exact .evolve h (.submitInput x player kind)
  · exact .evolve h (.setPresence x player online)
  · exact .evolve h (.reapExpired h.indexed)
  · exact .evolve h (.getSnapshotsSince h.indexed x sinceFrame)
  · simp only [next]
    split
    · exact .quiet h (.refl _) (fun pc hpc => .inl hpc) (by simp) (by simp)
    · have hm : s.manager.Evolves (s.manager.getResultLocked nowMs matchId).2 :=
        .getResultLocked h.indexed matchId
      generalize hlookup : s.manager.getResultLocked nowMs matchId = lookup at hm
      rcases lookup with ⟨outcome | -, m'⟩
      · refine .quiet h hm (fun pc hpc => .inl hpc) (by simp) fun k record hmem => ?_
        have hne := RoomManager.getResultLocked_ne_ok (m := s.manager) nowMs matchId record
        rw [hlookup] at hne
        obtain ⟨rfl, rfl⟩ := Event.result.inj (List.mem_singleton.mp hmem)
        exact absurd rfl hne
      · exact .spawn h hm rfl
  · exact .spawn h (.tickLocked h.indexed stores) (Pc.attempt?_afterLock _ _)
  · simp only [next]
    split
    · exact .spawn h .abortUnfinishedLocked (Pc.attempt?_afterLock _ _)
    · exact .spawn h .abortUnfinishedLocked rfl
  · exact .evolve h (.of_eq rfl rfl)
  · exact .resume h thread answer

/-! ## The law over every run

From one step to all of them. -/

/-- A record that is attempted after the step is the result of its room after the step. -/
theorem Sound.attempt_effect (h : Sound s) (he : Effect s s') {x : String} {record : MatchResultRecord}
    (ha : s'.Attempts x record) : record.roomId = x ∧ x ∈ s'.created ∧
      ∀ r, s'.room? x = some r → r.result = some record := by
  have hbefore : record.roomId = x ∧ x ∈ s.created ∧
      ∀ r, s.room? x = some r → r.result = some record := by
    rcases he.attempt x record ha with hold | ⟨r, hr, -, hres⟩
    · exact h.attempt x record hold
    · refine ⟨(BattleRoom.result_eq_some hres).2.2.1.trans (h.indexed.key x r hr), ?_, ?_⟩
      · exact AList.lookup_isSome.mp (by rw [(h.created x r hr).1]; rfl)
      · rintro r₀ hr₀
        obtain rfl := Option.some.inj (hr.symm.trans hr₀)
        exact hres
  obtain ⟨hroom, hcreated, hres⟩ := hbefore
  obtain ⟨k, hk⟩ := Option.isSome_iff_exists.mp (AList.lookup_isSome.mpr hcreated)
  refine ⟨hroom, AList.lookup_isSome.mp (by rw [he.created x k hk]; rfl), fun r' hr' => ?_⟩
  rcases he.room x r' hr' with ⟨r, hr, hb | ⟨rfl, -⟩⟩ | ⟨hnew, -⟩
  · exact hb.result_eq (hres r hr)
  · exact (BattleRoom.result_markResultPersisted r).trans (hres r hr)
  · exact absurd hcreated hnew

/-- One effect keeps the law. -/
theorem Sound.effect (h : Sound s) (he : Effect s s') : Sound s' := by
  obtain ⟨events, hlog, hevents⟩ := he.log
  have hgrows : ∀ e ∈ s.log, e ∈ s'.log := fun e hmem => by
    rw [hlog]
    exact List.mem_append_left _ hmem
  constructor
  · exact he.indexed
  · intro x r' hr'
    rcases he.room x r' hr' with ⟨r, hr, hb | ⟨rfl, -⟩⟩ | ⟨-, hk, hvalid, -⟩
    · rw [hb.matchId]
      exact (h.created x r hr).imp_left (he.created x _)
    · rw [BattleRoom.matchId_markResultPersisted]
      exact (h.created x r hr).imp_left (he.created x _)
    · exact ⟨hk, hvalid⟩
  · intro k x hk
    rcases he.entry k x hk with hold | hnew
    · exact he.created x k (h.entry k x hold)
    · exact hnew
  · exact fun x record ha => h.attempt_effect he ha
  · intro x record record' ha ha'
    rcases he.attempt x record ha with hold | ⟨r, hr, -, hres⟩
    · rcases he.attempt x record' ha' with hold' | ⟨r, hr, -, hres'⟩
      · exact h.unique x record record' hold hold'
      · have hres := (h.attempt x record hold).2.2 r hr
        exact Option.some.inj (hres.symm.trans hres')
    · rcases he.attempt x record' ha' with hold' | ⟨r', hr', -, hres'⟩
      · have hres' := (h.attempt x record' hold').2.2 r hr
        exact Option.some.inj (hres.symm.trans hres')
      · obtain rfl := Option.some.inj (hr.symm.trans hr')
        exact Option.some.inj (hres.symm.trans hres')
  · intro pc hpc x record hconf
    rcases he.confirmed pc hpc x record hconf with hold | hmem
    · exact hgrows _ (h.confirmed pc hold x record hconf)
    · exact hmem
  · intro x r' hr' hphase
    rcases he.room x r' hr' with ⟨r, hr, hb | ⟨rfl, pc, hpc, record, hconf⟩⟩ | ⟨-, -, -, hnew⟩
    · -- Only a finished room becomes finished this way.
      rcases hu : r.phase.unfinished with - | -
      · rw [(hb.decided hu).1] at hphase
        obtain ⟨record, hres, hmem⟩ := h.finished x r hr hphase
        exact ⟨record, hb.result_eq hres, hgrows _ hmem⟩
      · exact absurd hphase (hb.undecided hu)
    · have ha : s.Attempts x record := .inl ⟨pc, hpc, Pc.attempt?_of_confirmed? hconf⟩
      refine ⟨record, ?_, hgrows _ (h.confirmed pc hpc x record hconf)⟩
      exact (BattleRoom.result_markResultPersisted r).trans ((h.attempt x record ha).2.2 r hr)
    · rw [hnew] at hphase
      cases hphase
  · intro k record hmem
    rw [hlog] at hmem ⊢
    rcases List.mem_append.mp hmem with hmem | hmem
    · exact List.mem_append_left _ (h.results k record hmem)
    · exact List.mem_append_right _ (hevents k record hmem)

theorem Sound.step (h : Sound s) {a : Action} (hstep : Step stores s a s') : Sound s' :=
  h.effect (.of_step h hstep)

theorem Sound.of_run {as : List Action} (hrun : Run (Step stores) {} as s) : Sound s :=
  hrun.invariant (fun _ _ _ hs hstep => hs.step hstep) .start

/-! ## A room that was aborted

It has no result, and gets none. -/

/-- Room `x` is over without a result: it was created, nobody wrote a record of it, and it is
aborted for as long as it exists. -/
structure Dead (x : String) (s : RoomSystem) : Prop where
  created : x ∈ s.created
  unattempted : ∀ record, ¬s.Attempts x record
  aborted : ∀ r, s.room? x = some r → r.phase = .aborted

theorem Sound.dead (h : Sound s) {x : String} {r : BattleRoom} (hr : s.room? x = some r)
    (hphase : r.phase = .aborted) : Dead x s where
  created := AList.lookup_isSome.mp (by rw [(h.created x r hr).1]; rfl)
  unattempted record ha := by
    have hres := (h.attempt x record ha).2.2 r hr
    rcases (BattleRoom.result_eq_some hres).1 with hp | hp <;> rw [hphase] at hp <;> cases hp
  aborted r' hr' := by
    obtain rfl := Option.some.inj (hr.symm.trans hr')
    exact hphase

/-- Dead stays dead. -/
theorem Dead.effect {x : String} (hd : Dead x s) (he : Effect s s') : Dead x s' where
  created := by
    obtain ⟨k, hk⟩ := Option.isSome_iff_exists.mp (AList.lookup_isSome.mpr hd.created)
    exact AList.lookup_isSome.mp (by rw [he.created x k hk]; rfl)
  unattempted record ha := by
    rcases he.attempt x record ha with hold | ⟨r, hr, hphase, -⟩
    · exact hd.unattempted record hold
    · rw [hd.aborted r hr] at hphase
      cases hphase
  aborted r' hr' := by
    rcases he.room x r' hr' with ⟨r, hr, hb | ⟨rfl, pc, hpc, record, hconf⟩⟩ | ⟨hnew, -⟩
    · have hphase := hd.aborted r hr
      exact (hb.decided (by rw [hphase]; rfl)).1.trans hphase
    · exact absurd (.inl ⟨pc, hpc, Pc.attempt?_of_confirmed? hconf⟩) (hd.unattempted record)
    · exact absurd hd.created hnew

theorem Dead.of_run {x : String} {as : List Action} (h : Sound s) (hd : Dead x s)
    (hrun : Run (Step stores) s as s') : Dead x s' :=
  (hrun.invariant (I := fun s => Sound s ∧ Dead x s)
    (fun _ _ _ hs hstep => ⟨hs.1.step hstep, hs.2.effect (.of_step hs.1 hstep)⟩) ⟨h, hd⟩).2

/-! ## A room whose result is pending

It is tried again, and answers pending until then. -/

/-- Asked for the result of a finishing room, the registry answers that it is pending. -/
theorem Sound.getResultLocked_finishing (h : Sound s) {x : String} {r : BattleRoom}
    (hr : s.room? x = some r) (hphase : r.phase = .finishing) (nowMs : Int) :
    (s.manager.getResultLocked nowMs r.matchId).1 = .answered .pending := by
  have hkept : (s.manager.reapExpired nowMs).rooms.lookup x = some r := by
    simp only [RoomManager.reapExpired, Table.lookup_filter, Option.filter_eq_some_iff]
    refine ⟨hr, ?_⟩
    simp [BattleRoom.isExpired, hphase]
  have hindex : (s.manager.reapExpired nowMs).matchIndex.lookup r.matchId = some x :=
    (h.indexed.evolve (.reapExpired h.indexed)).index x r hkept
  simp only [RoomManager.getResultLocked, hindex, Option.bind_some, hkept, hphase]

/-! ## Results are safe

The five parts together. -/

/-- **Results are safe in every interleaving** — a finished room's record was written with `kOk`; all
writes for one room carry one record; a room that is ever aborted is never written; `GetResult`
returns a record only as `Read` returned it, and answers that a finishing room's result is pending. -/
theorem results_safe {as : List Action} (hrun : Run (Step stores) {} as s) :
    (∀ x r, s.room? x = some r → r.phase = .finished →
      ∃ record, r.result = some record ∧ .write record .done ∈ s.log) ∧
    (∀ record reply record' reply', .write record reply ∈ s.log →
      .write record' reply' ∈ s.log → record.roomId = record'.roomId → record = record') ∧
    (∀ pre post u x r, as = pre ++ post → Run (Step stores) {} pre u → u.room? x = some r →
      r.phase = .aborted → ∀ record reply, .write record reply ∈ s.log → record.roomId ≠ x) ∧
    (∀ k record, .result k (.ok record) ∈ s.log → .read k (.ok record) ∈ s.log) ∧
    (∀ x r nowMs, s.room? x = some r → r.phase = .finishing →
      (s.next stores (.getResult r.matchId nowMs)).log
        = s.log ++ [.result r.matchId .pending]) := by
  have hsound := Sound.of_run hrun
  refine ⟨hsound.finished, ?_, ?_, hsound.results, ?_⟩
  · intro record reply record' reply' hw hw' heq
    exact hsound.unique record'.roomId record record' (.inr ⟨heq, reply, hw⟩)
      (.inr ⟨rfl, reply', hw'⟩)
  · rintro pre post u x r rfl hpre hr hphase record reply hw rfl
    obtain ⟨m, hm, hpost⟩ := Run.append_iff.mp hrun
    obtain rfl := hm.unique (fun _ _ _ _ hs hs' => hs.2.trans hs'.2.symm) hpre
    have hdead := ((Sound.of_run hm).dead hr hphase).of_run (Sound.of_run hm) hpost
    exact hdead.unattempted record (.inr ⟨rfl, reply, hw⟩)
  · intro x r nowMs hr hphase
    have hpending := hsound.getResultLocked_finishing hr hphase nowMs
    generalize hlookup : s.manager.getResultLocked nowMs r.matchId = lookup at hpending
    obtain ⟨lookup, m'⟩ := lookup
    cases hpending
    simp only [next, (hsound.created x r hr).2, Bool.not_true, Bool.false_eq_true, if_false,
      hlookup]

/-- The stores of a deployment with MySQL. -/
def mysqlStores : RoomStores := ⟨true, true, true, Common.caseFolded⟩

/-- Two games end because a player is away, and a third is aborted.  Of the two results one is written;
the other is lost, and refused when the next `Tick` writes it again. -/
def settlingCalls : List Action :=
  [.create "m-1" ["alice", "bob"] 1000 "r-1", .join "r-1" "alice" 1000, .join "r-1" "bob" 1000,
    .setPresence "r-1" "bob" false 1000,
    .create "m-2" ["carol", "dave"] 1000 "r-2", .join "r-2" "carol" 1000, .join "r-2" "dave" 1000,
    .setPresence "r-2" "dave" false 1000,
    .create "m-3" ["erin", "frank"] 39000 "r-3",
    .tick 40000, .getResult "m-1" 40000,
    .resume 0 {}, .resume 0 {}, .resume 0 {}, .resume 0 {},
    -- the result of `m-2`, then that of `m-1`
    .resume 0 {}, .resume 0 {}, .resume 0 {},
    .resume 0 {}, .resume 0 { reply := .lost }, .resume 0 {},
    .abortUnfinishedGames 42000, .resume 1 {},
    .tick 50000, .resume 2 {}, .resume 2 {}, .resume 2 {}, .resume 2 {},
    .resume 2 {}, .resume 2 { reply := .refused }, .resume 2 {},
    .getResult "m-2" 51000, .resume 3 { read := .ok ⟨"m-2", "r-2", "carol", 2, 1000, 40000⟩ }]

def settledGames : RoomSystem := settlingCalls.foldl (next mysqlStores) {}

theorem results_safe_settledGames :
    ((settledGames.room? "r-1").map (·.phase) = some .finishing ∧
      (settledGames.room? "r-2").map (·.phase) = some .finished ∧
      (settledGames.room? "r-3").map (·.phase) = some .aborted ∧
      .write ⟨"m-1", "r-1", "alice", 2, 1000, 40000⟩ .lost ∈ settledGames.log ∧
      .write ⟨"m-1", "r-1", "alice", 2, 1000, 40000⟩ .refused ∈ settledGames.log ∧
      .result "m-2" (.ok ⟨"m-2", "r-2", "carol", 2, 1000, 40000⟩) ∈ settledGames.log) ∧
    (∀ x r, settledGames.room? x = some r → r.phase = .finished →
      ∃ record, r.result = some record ∧ .write record .done ∈ settledGames.log) ∧
    (∀ record reply record' reply', .write record reply ∈ settledGames.log →
      .write record' reply' ∈ settledGames.log → record.roomId = record'.roomId →
      record = record') ∧
    (∀ pre post u x r, settlingCalls = pre ++ post → Run (Step mysqlStores) {} pre u →
      u.room? x = some r → r.phase = .aborted →
      ∀ record reply, .write record reply ∈ settledGames.log → record.roomId ≠ x) ∧
    (∀ k record, .result k (.ok record) ∈ settledGames.log →
      .read k (.ok record) ∈ settledGames.log) ∧
    (∀ x r nowMs, settledGames.room? x = some r → r.phase = .finishing →
      (settledGames.next mysqlStores (.getResult r.matchId nowMs)).log
        = settledGames.log ++ [.result r.matchId .pending]) :=
  ⟨by decide +kernel, results_safe (Run.of_guarded (by decide))⟩

end RoomSystem

end RealtimeGame.Room
