import RealtimeGame.Gateway.LoginHistory

/-!
# Gateway/LoginLaws — whose a token is, and whether it is alive

Two laws over every history of logins and logouts.  A token handed out is alive unless its session was logged
out, or has ended within the lag of its mapping (`createSession_alive`).  It belongs to the player it was handed
to in exactly those histories in which no login reuses the request id of another player's live login, nor creates
a session for a player whose id is cut when it is sent (`tokensBelong_iff`): the mapping is keyed by the request
id alone.
-/

open Library

namespace RealtimeGame.Gateway.World

variable {s : RedisSessionStore} {w w' : World} {v : RedisServer} {a : CreateArgs} {t : String} {ops : List Op}

/-! ## Reading a session back

What a login writes, `GetSession` reads; and what it reads, a login wrote. -/

/-- The record of a session, as its login wrote it. -/
def recordOf (a : CreateArgs) : SessionRecord :=
  ⟨cString a.token, cString a.playerId, cString a.clientType, ((cString (toString a.nowUnixSeconds)).toInt?).getD 0⟩

/-- A session that is there is read back, -/
theorem getSession_of_peek {d : Option Nat} (h : v.redis.peek v.now (s.sessionKey t) = some (sessionEntry a d)) :
    s.getSession .answered t v = .ok (recordOf a) := by
  have hget : v.redis.get v.now (cString (s.keyForSession t)) = some (sessionEntry a d).value := by
    rw [Expiring.get, ← RedisSessionStore.sessionKey, h]
    rfl
  simp only [RedisSessionStore.getSession, executeCommand, RedisServer.exec, RedisServer.wait, Nat.add_zero,
    Command.sent, Redis.exec, hget, sessionEntry, List.map_cons, List.map_nil, Redis.setFields,
    RedisSessionStore.sessionFields, List.foldl_cons, List.foldl_nil, Table.lookup_insert']
  rfl

/-- A record only comes with a reply. -/
theorem getSession_answered {fate : Fate} {rec : SessionRecord} (h : s.getSession fate t v = .ok rec) :
    s.getSession .answered t v = .ok rec := by
  cases fate with
  | answered => exact h
  | requestLost => simp [RedisSessionStore.getSession, executeCommand] at h
  | replyLost => simp [RedisSessionStore.getSession, executeCommand] at h

/-- …and from a key that is there. -/
theorem peek_of_getSession {fate : Fate} {rec : SessionRecord} (h : s.getSession fate t v = .ok rec) :
    ∃ e, v.redis.peek v.now (s.sessionKey t) = some e := by
  replace h := getSession_answered h
  refine Option.ne_none_iff_exists'.mp fun hpeek => ?_
  have hnone : v.redis.get v.now (cString (s.keyForSession t)) = none := by
    rw [Expiring.get, ← RedisSessionStore.sessionKey, hpeek]
    rfl
  simp [RedisSessionStore.getSession, executeCommand, RedisServer.exec, Command.sent, Redis.exec, hnone,
    RedisSessionStore.parseSession] at h

/-- A session that answers is one that a login wrote. -/
theorem Sound.getSession_eq_ok (h : Sound s w) {fate : Fate} {rec : SessionRecord}
    (hget : s.getSession fate t w.toRedisServer = .ok rec) :
    ∃ a d, a.token ∈ w.issued ∧ a.token = cString t ∧ rec = recordOf a ∧
      w.redis.peek w.now (s.sessionKey t) = some (sessionEntry a d) := by
  obtain ⟨e, hpeek⟩ := peek_of_getSession hget
  obtain ⟨a, d, hissued, htoken, rfl⟩ := h.session t e hpeek
  have hread := getSession_of_peek hpeek
  rw [getSession_answered hget, Except.ok.injEq] at hread
  exact ⟨a, d, hissued, htoken, hread, hpeek⟩

/-- The session of a login that reached its mapping is read until its end. -/
theorem getSession_withMapping {start now : Nat} {r : Redis} {fate : Fate} {rec : SessionRecord}
    (hget : s.getSession fate a.token ⟨World.withMapping s start a r, now⟩ = .ok rec) :
    rec = recordOf a ∧ now < (life s start a).sessionEnd := by
  obtain ⟨e, hpeek⟩ := peek_of_getSession hget
  obtain rfl := peek_withSession_self rfl (peek_withMapping_session ▸ hpeek)
  have hread := getSession_of_peek hpeek
  rw [getSession_answered hget, Except.ok.injEq] at hread
  exact ⟨hread, Timed.alive_iff.mp (Expiring.peek_eq_some.mp hpeek).2 _ rfl⟩

/-- What `CreateSession` returns with `kOk`: the token of a live mapping, or the new one, with its
session. -/
theorem Sound.createSession_eq_ok (h : Sound s w) (hfresh : w.Fresh (.create a))
    (hret : (s.createSession a w.toRedisServer).1 = .ok t) :
    ((s.createSession a w.toRedisServer).2 = ⟨w.redis, a.clock w.now 0⟩ ∧ a.fates 0 = .answered ∧ t ≠ "" ∧
      w.redis.get (a.clock w.now 0) (s.idemKey a.requestId) = some (.string t)) ∨
    (t = a.token ∧ (s.createSession a w.toRedisServer).2 = ⟨World.withMapping s w.now a w.redis, a.clock w.now 3⟩ ∧
      (∀ i < 4, a.fates i = .answered) ∧ w.redis.get (a.clock w.now 0) (s.idemKey a.requestId) = none) := by
  have hout := h.createSession_outcome hfresh
  generalize s.createSession a w.toRedisServer = res at hout hret
  cases hout with
  | unavailable => cases hret
  | existing t' answered nonempty mapped =>
    cases hret
    exact .inl ⟨rfl, answered, nonempty, mapped⟩
  | unmapped => cases hret
  | unanswered => cases hret
  | created answered free =>
    cases hret
    exact .inr ⟨rfl, rfl, answered, free⟩

/-- A login that finds no mapping, and has all of its replies, creates its session. -/
theorem Sound.createSession_of_free (h : Sound s w) (hfresh : w.Fresh (.create a))
    (hans : ∀ i < 4, a.fates i = .answered) (hfree : w.redis.get (a.clock w.now 0) (s.idemKey a.requestId) = none) :
    s.createSession a w.toRedisServer
      = (.ok a.token, ⟨World.withMapping s w.now a w.redis, a.clock w.now 3⟩) := by
  have hout := h.createSession_outcome hfresh
  generalize s.createSession a w.toRedisServer = res at hout
  cases hout with
  | unavailable _ _ missing | unmapped _ _ _ missing | unanswered missing =>
    obtain ⟨i, hi, hlost⟩ := missing
    exact absurd (hans i hi) hlost
  | existing t' _ _ mapped =>
    rw [hfree] at mapped
    cases mapped
  | created => rfl

/-- A mapping that is met by a login names the token of a life. -/
theorem Sound.mapped (h : Sound s w) {now : Nat} (hnow : w.now ≤ now) {rid : String}
    (hmap : w.redis.get now (s.idemKey rid) = some (.string t)) :
    ∃ life ∈ w.lives, life.token = t ∧ ∃ d, now < d ∧
      (t ∈ w.loggedOut ∨ Kept s { w with toRedisServer := ⟨w.redis, now⟩ } life d) := by
  obtain ⟨e, hpeek, hvalue⟩ := Expiring.get_eq_some.mp hmap
  obtain ⟨life, hmem, -, d, rfl, hkept⟩ := (h.later hnow).mapping rid e hpeek
  cases hvalue
  exact ⟨life, hmem, rfl, d, Timed.alive_iff.mp (Expiring.peek_eq_some.mp hpeek).2 d rfl, hkept⟩

/-! ## A token handed out is alive

Two ways to get a token: it is new, or a mapping named it.  The law of the keys speaks of the second. -/

/-- **A token returned with `kOk` is alive** — right after the call its session answers, unless a
logout deleted that session since it was created, or the session has ended, and not for longer than its login
took from `EXPIRE` to `SET NX`. -/
theorem createSession_alive (hrun : Run (Step s) start ops w) (hstep : Step s w (.create a) w')
    (hret : (s.createSession a w.toRedisServer).1 = .ok t) :
    (∃ rec, s.getSession .answered t w'.toRedisServer = .ok rec) ∨ t ∈ w'.loggedOut ∨
      ∃ life ∈ w'.lives, life.token = t ∧ life.sessionEnd ≤ w'.now ∧ w'.now < life.sessionEnd + life.lag := by
  have hsound := Sound.of_run hrun
  obtain ⟨hfresh, rfl⟩ := hstep
  simp only [next]
  rcases hsound.createSession_eq_ok hfresh hret with ⟨hsame, -, -, hmap⟩ | ⟨rfl, hnew, -⟩
  · obtain ⟨life, hmem, rfl, d, hd, hout | hkept⟩ := hsound.mapped (a.le_clock w.now 0) hmap
    · exact .inr (.inl hout)
    · rw [hsame]
      by_cases hend : a.clock w.now 0 < life.sessionEnd
      · obtain ⟨e, hpeek, -⟩ := hkept.session hend
        obtain ⟨a', d', -, -, rfl⟩ := (hsound.later (a.le_clock w.now 0)).session _ e hpeek
        exact .inl ⟨_, getSession_of_peek hpeek⟩
      · exact .inr (.inr ⟨life, List.mem_cons_of_mem _ hmem, rfl, Nat.le_of_not_lt hend,
          hd.trans_le hkept.deadline⟩)
  · rw [hnew]
    by_cases hend : a.clock w.now 3 < (life s w.now a).sessionEnd
    · exact .inl ⟨_, getSession_of_peek (peek_withMapping_self hend)⟩
    · refine .inr (.inr ⟨life s w.now a, List.mem_cons_self, rfl, Nat.le_of_not_lt hend, ?_⟩)
      have hpos := s.ttlOf_pos a
      have hclock : a.clock w.now 3 = a.clock w.now 2 + a.waits 3 := rfl
      simp only [life, Redis.deadline, hclock]
      omega

/-! A store with the default TTL, and a login whose commands are all answered at once. -/

/-- The store of a development environment. -/
def devStore : RedisSessionStore := .new "dev" 604800 (by decide)

/-- A web login that reaches Redis without a fault. -/
def webLogin (requestId playerId token : String) (ttlSeconds : Int) : CreateArgs :=
  ⟨requestId, playerId, "web", ttlSeconds, token, 1700000000, fun _ => .answered, fun _ => 0⟩

/-- A login, and what is left of its time when it is tried again. -/
def loginAndWait : List Op := [.create (webLogin "r1" "alice" "t1" 60), .elapse 59000]

/-- The login again, with a longer life. -/
def retry : CreateArgs := webLogin "r1" "alice" "t2" 3600

theorem createSession_alive_retry :
    (∃ rec, devStore.getSession .answered "t1"
      ((loginAndWait.foldl (next devStore) start).next devStore (.create retry)).toRedisServer = .ok rec) ∨
    "t1" ∈ ((loginAndWait.foldl (next devStore) start).next devStore (.create retry)).loggedOut ∨
    ∃ life ∈ ((loginAndWait.foldl (next devStore) start).next devStore (.create retry)).lives, life.token = "t1" ∧
      life.sessionEnd ≤ ((loginAndWait.foldl (next devStore) start).next devStore (.create retry)).now ∧
      ((loginAndWait.foldl (next devStore) start).next devStore (.create retry)).now < life.sessionEnd + life.lag := by
  have hrun : Run (Step devStore) start loginAndWait (loginAndWait.foldl (next devStore) start) :=
    .of_guarded (by decide)
  exact createSession_alive hrun ⟨by decide, rfl⟩ rfl

/-- A login that repeats the request id of a session that was logged out gets its dead token. -/
theorem createSession_after_logout :
    ¬ ∀ (s : RedisSessionStore) ops w w' a t, Run (Step s) start ops w →
      Step s w (.create a) w' → (s.createSession a w.toRedisServer).1 = .ok t →
      ∃ rec, s.getSession .answered t w'.toRedisServer = .ok rec := by
  intro hclaim
  obtain ⟨rec, hrec⟩ := hclaim devStore
    [.create (webLogin "r1" "alice" "t1" 60), .delete "t1" (fun _ => .answered) fun _ => 0] _ _
    (webLogin "r1" "alice" "t2" 60) "t1"
    (.cons ⟨by decide, rfl⟩ (.cons ⟨trivial, rfl⟩ (.nil _))) ⟨by decide, rfl⟩ rfl
  cases hrec

/-! ## A token belongs to one player

A login hands out the session that it meets under its request id, or one that it makes.  The first may be another
player's; the second is made for the player's id as far as it is sent. -/

/-- No token returned to a player opens a session of another. -/
def TokensBelong (s : RedisSessionStore) (w : World) : Prop :=
  ∀ t player, (t, player) ∈ w.granted →
    ∀ fate rec, s.getSession fate t w.toRedisServer = .ok rec → rec.playerId = player

/-- The login hands out no session of another player. -/
structure Unshared (s : RedisSessionStore) (w : World) (a : CreateArgs) : Prop where
  /-- The mapping that it meets is to a session that is gone, or to the player's own. -/
  mapped : a.fates 0 = .answered → ∀ t, t ≠ "" →
    w.redis.get (a.clock w.now 0) (s.idemKey a.requestId) = some (.string t) →
    ∀ rec, s.getSession .answered t ⟨w.redis, a.clock w.now 0⟩ = .ok rec → rec.playerId = a.playerId
  /-- The session that it makes has the whole id of the player, or is over before the login is. -/
  made : (∀ i < 4, a.fates i = .answered) → w.redis.get (a.clock w.now 0) (s.idemKey a.requestId) = none →
    a.waits 3 < 1000 * (s.ttlOf a).toNat → cString a.playerId = a.playerId

/-- The tokens handed out were generated, and each is its player's. -/
structure Belonging (s : RedisSessionStore) (w : World) : Prop where
  sound : Sound s w
  granted_issued : ∀ t player, (t, player) ∈ w.granted → t ∈ w.issued
  belong : TokensBelong s w

/-- Generated tokens stay generated. -/
theorem issued_step {op : Op} (hstep : Step s w op w') (ht : t ∈ w.issued) : t ∈ w'.issued := by
  obtain ⟨-, rfl⟩ := hstep
  cases op with
  | create a => exact List.mem_cons_of_mem _ ht
  | delete => exact ht
  | elapse => exact ht

/-- A token handed out by a step is the one its login returned. -/
theorem granted_step {op : Op} {player : String} (hstep : Step s w op w')
    (hmem : (t, player) ∈ w'.granted) :
    (t, player) ∈ w.granted ∨
      ∃ a, op = .create a ∧ player = a.playerId ∧ (s.createSession a w.toRedisServer).1 = .ok t := by
  obtain ⟨-, rfl⟩ := hstep
  cases op with
  | delete => exact .inl hmem
  | elapse => exact .inl hmem
  | create a =>
    simp only [next] at hmem
    split at hmem
    case h_1 t' hret =>
      rcases List.mem_cons.mp hmem with heq | hmem
      · cases heq
        exact .inr ⟨a, rfl, rfl, hret⟩
      · exact .inl hmem
    case h_2 => exact .inl hmem

/-- **A generated token's session never comes back**: what it answers after a step, it answered
before. -/
theorem Sound.getSession_step (h : Sound s w) {op : Op} (hstep : Step s w op w')
    (ht : cString t ∈ w.issued) {fate : Fate} {rec : SessionRecord}
    (hget : s.getSession fate t w'.toRedisServer = .ok rec) :
    s.getSession .answered t w.toRedisServer = .ok rec := by
  obtain ⟨a', d, -, htoken, rfl, hpeek⟩ := (h.step hstep).getSession_eq_ok hget
  suffices hbefore : w.redis.peek w.now (s.sessionKey t) = some (sessionEntry a' d) from getSession_of_peek hbefore
  obtain ⟨hfresh, rfl⟩ := hstep
  cases op with
  | create a =>
    have hne : cString t ≠ cString a.token := by
      rw [hfresh.2.2]
      exact fun heq => hfresh.1 (heq ▸ ht)
    have hout := h.createSession_outcome hfresh
    simp only [next] at hpeek
    generalize s.createSession a w.toRedisServer = res at hout hpeek
    cases hout with
    | unavailable later hle => exact Expiring.peek_mono hle hpeek
    | existing => exact Expiring.peek_mono (a.le_clock w.now 0) hpeek
    | unmapped d' later hle => exact Expiring.peek_mono hle (peek_withSession_ne hne ▸ hpeek)
    | unanswered | created =>
      dsimp only at hpeek
      rw [peek_withMapping_session, peek_withSession_ne hne] at hpeek
      exact Expiring.peek_mono (a.le_clock w.now 3) hpeek
  | delete t' fates waits =>
    have hle := le_deleteSession_now (s := s) (v := w.toRedisServer) fates waits t'
    simp only [next, deleteSession_redis] at hpeek
    refine Expiring.peek_mono hle ?_
    split at hpeek
    · by_cases heq : s.sessionKey t = s.sessionKey t'
      · rw [heq, Expiring.peek_erase_self] at hpeek
        cases hpeek
      · rwa [Expiring.peek_erase_ne heq] at hpeek
    · exact hpeek
  | elapse ms => exact Expiring.peek_mono (Nat.le_add_right _ _) hpeek

/-- The token a login returns was generated, and opens no session of another player. -/
theorem Sound.granted_step (h : Sound s w) (hstep : Step s w (.create a) w')
    (hunshared : Unshared s w a) (hret : (s.createSession a w.toRedisServer).1 = .ok t) :
    t ∈ w'.issued ∧
      ∀ fate rec, s.getSession fate t w'.toRedisServer = .ok rec → rec.playerId = a.playerId := by
  obtain ⟨hfresh, rfl⟩ := hstep
  simp only [next]
  rcases h.createSession_eq_ok hfresh hret with ⟨hsame, hans, hne, hmap⟩ | ⟨rfl, hnew, hans, hfree⟩
  · obtain ⟨life, hmem, rfl, -⟩ := h.mapped (a.le_clock w.now 0) hmap
    refine ⟨List.mem_cons_of_mem _ (token_mem_issued hmem), fun fate rec hget => ?_⟩
    rw [hsame] at hget
    exact hunshared.mapped hans _ hne hmap rec (getSession_answered hget)
  · refine ⟨List.mem_cons_self, fun fate rec hget => ?_⟩
    rw [hnew] at hget
    obtain ⟨rfl, hend⟩ := getSession_withMapping hget
    have hclock : a.clock w.now 3 = a.clock w.now 2 + a.waits 3 := rfl
    simp only [life, Redis.deadline, hclock] at hend
    exact hunshared.made hans hfree (by omega)

/-- A step keeps every token with its player, provided its login hands out no other player's session. -/
theorem Belonging.step (h : Belonging s w) {op : Op} (hstep : Step s w op w')
    (hunshared : ∀ a, op = .create a → Unshared s w a) : Belonging s w' := by
  have hold : ∀ t player, (t, player) ∈ w.granted → t ∈ w'.issued ∧ ∀ fate rec,
      s.getSession fate t w'.toRedisServer = .ok rec → rec.playerId = player := by
    intro t player hmem
    have hissued := h.granted_issued t player hmem
    refine ⟨issued_step hstep hissued, fun fate rec hget => h.belong t player hmem .answered rec ?_⟩
    exact h.sound.getSession_step hstep (by rwa [h.sound.plain t hissued]) hget
  suffices hall : ∀ t player, (t, player) ∈ w'.granted → t ∈ w'.issued ∧ ∀ fate rec,
      s.getSession fate t w'.toRedisServer = .ok rec → rec.playerId = player from
    ⟨h.sound.step hstep, fun t p hmem => (hall t p hmem).1, fun t p hmem => (hall t p hmem).2⟩
  intro t player hmem
  rcases World.granted_step hstep hmem with hmem | ⟨a, rfl, rfl, hret⟩
  · exact hold t player hmem
  · exact h.sound.granted_step hstep (hunshared a rfl) hret

theorem Belonging.start : Belonging s start where
  sound := .start
  granted_issued _ _ h := by cases h
  belong _ _ h := by cases h

theorem Belonging.of_run (h : Run (Step s) World.start ops w)
    (hunshared : ∀ pre a post u, ops = pre ++ .create a :: post → Run (Step s) World.start pre u →
      Unshared s u a) : Belonging s w :=
  h.invariant_of_guard (G := fun w op => ∀ a, op = .create a → Unshared s w a)
    (fun _ _ _ hb hu hstep => hb.step hstep hu)
    (fun pre _ post u hops hpre a hop => hunshared pre a post u (hop ▸ hops) hpre) .start

/-- A login after which every token is with its player hands out no other player's session. -/
theorem Sound.unshared (h : Sound s w) (hstep : Step s w (.create a) w') (hbelong : TokensBelong s w') :
    Unshared s w a := by
  obtain ⟨hfresh, rfl⟩ := hstep
  constructor
  · intro hans t hne hmap rec hget
    -- The login returns the live token of the mapping and changes nothing.
    have hret := createSession_of_mapped hans hne hmap
    refine hbelong t a.playerId (by simp only [next, hret, List.mem_cons_self]) .answered rec ?_
    simpa only [next, hret] using hget
  · intro hans hfree hbefore
    -- The login returns its token while the session that it made is still there.
    have hret := h.createSession_of_free hfresh hans hfree
    have hend : a.clock w.now 3 < (life s w.now a).sessionEnd := by
      have hclock : a.clock w.now 3 = a.clock w.now 2 + a.waits 3 := rfl
      simp only [life, Redis.deadline, hclock]
      omega
    refine hbelong a.token a.playerId (by simp only [next, hret, List.mem_cons_self]) .answered (recordOf a) ?_
    simp only [next, hret]
    exact getSession_of_peek (peek_withMapping_self hend)

/-- **Tokens stay with their players exactly as long as no login reuses the request id of another
player's live login, nor makes a session for an id that is cut.** -/
theorem tokensBelong_iff (hrun : Run (Step s) start ops w) :
    (∀ pre post u, ops = pre ++ post → Run (Step s) start pre u → TokensBelong s u) ↔
    (∀ pre a post u, ops = pre ++ .create a :: post → Run (Step s) start pre u →
      Unshared s u a) := by
  constructor
  · rintro hall pre a post u rfl hpre
    obtain ⟨m, hm, hrest⟩ := Run.append_iff.mp hrun
    obtain rfl := hm.unique (fun _ _ _ _ hs hs' => hs.2.trans hs'.2.symm) hpre
    obtain ⟨v, hstep, -⟩ := Run.cons_iff.mp hrest
    exact (Sound.of_run hpre).unshared hstep (hall (pre ++ [.create a]) post v (by simp) (hpre.snoc hstep))
  · rintro hall pre post u rfl hpre
    exact (Belonging.of_run hpre fun pre' a post' v hops =>
      hall pre' a (post' ++ post) v (by simp [hops])).belong

/-- Two players log in, each under a request id of its own. -/
def twoLogins : List Op := [.create (webLogin "r1" "alice" "t1" 60), .create (webLogin "r2" "bob" "t2" 60)]

theorem tokensBelong_iff_twoLogins :
    (∀ pre post u, twoLogins = pre ++ post → Run (Step devStore) start pre u → TokensBelong devStore u) ↔
    (∀ pre a post u, twoLogins = pre ++ .create a :: post → Run (Step devStore) start pre u →
      Unshared devStore u a) :=
  tokensBelong_iff (Run.of_guarded (by decide))

/-- Two players log in without a request id: the second is handed the session of the first. -/
theorem tokensBelong_empty_requestId :
    ¬ ∀ (s : RedisSessionStore) ops w, Run (Step s) start ops w → TokensBelong s w := by
  intro hclaim
  have hbelong := hclaim devStore
    [.create (webLogin "" "alice" "t1" 60), .create (webLogin "" "bob" "t2" 60)] _
    (.cons ⟨by decide, rfl⟩ (.cons ⟨by decide, rfl⟩ (.nil _)))
  have hplayer := hbelong "t1" "bob" List.mem_cons_self .answered _ rfl
  revert hplayer
  decide

end RealtimeGame.Gateway.World
