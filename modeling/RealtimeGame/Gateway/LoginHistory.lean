import RealtimeGame.Gateway.SessionStore
import RealtimeGame.Library.Run

/-!
# Gateway/LoginHistory — histories of logins, logouts and passing time

A history is a run of calls on one Redis.  `Sound` links the two keys of a login over every history
(`Sound.of_run`).  A mapping that is still there names a token whose session is there until its end, unless
somebody logged that session out; and behind the end of the session the mapping stays for no longer than the
time that lay between the two commands that gave them their deadlines.
-/

open Library

namespace RealtimeGame.Gateway

/-- What a login plans for the session of its token: the end that its `EXPIRE` sets, and how much later than
`EXPIRE` the mapping is written. -/
structure Life where
  token : String
  sessionEnd : Nat
  lag : Nat
  deriving DecidableEq, Repr

/-- Redis with its clock, and three histories that no code reads: the lives of the sessions that logins
set out to create, the generated tokens whose session a logout deleted, and the tokens returned with `kOk`
together with the player each was returned to. -/
structure World extends RedisServer where
  lives : List Life
  loggedOut : List String
  granted : List (String × String)

/-- The clock when the `n`-th command of a call arrives. -/
def CreateArgs.clock (a : CreateArgs) (now : Nat) : Nat → Nat
  | 0 => now + a.waits 0
  | n + 1 => a.clock now n + a.waits (n + 1)

theorem CreateArgs.le_clock (a : CreateArgs) (now : Nat) : ∀ n, now ≤ a.clock now n := by
  intro n
  induction n with
  | zero => exact Nat.le_add_right _ _
  | succ n ih => exact ih.trans (Nat.le_add_right _ _)

namespace World

/-- An empty Redis. -/
def start : World where
  redis := ∅
  now := 0
  lives := []
  loggedOut := []
  granted := []

/-- The tokens generated so far. -/
def issued (w : World) : List String := w.lives.map (·.token)

/-- One entry of a history. -/
inductive Op
  | create (a : CreateArgs)
  | delete (token : String) (fates : Nat → Fate) (waits : Nat → Nat)
  | elapse (ms : Nat)

/-- The tokens a logout deletes the session of: it reaches its `DEL` and the server executes it. -/
def deleted (w : World) (token : String) (fates : Nat → Fate) : List String :=
  if cString token ∈ w.issued ∧ fates 0 = .answered ∧ fates 1 ≠ .requestLost then [cString token] else []

variable (s : RedisSessionStore)

/-- The life of the session of a login that begins at `now`. -/
def life (now : Nat) (a : CreateArgs) : Life :=
  ⟨a.token, Redis.deadline (a.clock now 2) (s.ttlOf a), a.waits 3⟩

/-- The world after one entry of the history. -/
def next (w : World) : Op → World
  | .create a =>
    { w with
      toRedisServer := (s.createSession a w.toRedisServer).2
      lives := life s w.now a :: w.lives
      granted := match (s.createSession a w.toRedisServer).1 with
        | .ok t => (t, a.playerId) :: w.granted
        | .error _ => w.granted }
  | .delete token fates waits =>
    { w with
      toRedisServer := (s.deleteSession fates waits token w.toRedisServer).2
      loggedOut := w.deleted token fates ++ w.loggedOut }
  | .elapse ms => { w with toRedisServer := w.wait ms }

/-- The generator returns tokens that are new and not empty, without a NUL. -/
def Fresh (w : World) : Op → Prop
  | .create a => a.token ∉ w.issued ∧ a.token ≠ "" ∧ cString a.token = a.token
  | _ => True

instance (w : World) : DecidablePred w.Fresh
  | .create a => inferInstanceAs (Decidable (a.token ∉ w.issued ∧ a.token ≠ "" ∧ cString a.token = a.token))
  | .delete _ _ _ => .isTrue trivial
  | .elapse _ => .isTrue trivial

/-- One step of a history. -/
def Step (w : World) (op : Op) (w' : World) : Prop := w.Fresh op ∧ w' = w.next s op

/-! ## What a login can do

A login that goes through writes the session, gives it an end, and writes the mapping, each at its time.  A
reply that fails ends it earlier. -/

/-- The session a login writes, with its deadline once `EXPIRE` has run. -/
def sessionEntry (a : CreateArgs) (d : Option Nat) : Timed RedisValue :=
  ⟨.hash (Redis.setFields ((RedisSessionStore.sessionFields a).map fun f => (f.1, cString f.2)) ∅), d⟩

/-- The mapping a login writes. -/
def mappingEntry (now : Nat) (a : CreateArgs) : Timed RedisValue :=
  ⟨.string (cString a.token), some (Redis.deadline (a.clock now 3) (s.idemTtlOf a))⟩

/-- The Redis a login leaves when it gets as far as the session. -/
def withSession (a : CreateArgs) (d : Option Nat) (r : Redis) : Redis :=
  r.insert (s.sessionKey a.token) (sessionEntry a d)

/-- …and when it gets as far as the mapping. -/
def withMapping (now : Nat) (a : CreateArgs) (r : Redis) : Redis :=
  (withSession s a (some (life s now a).sessionEnd) r).insert (s.idemKey a.requestId) (mappingEntry s now a)

/-- **Every way `CreateSession` can end**, for a generated token that is new.  It fails only where a reply is
missing. -/
inductive Outcome (a : CreateArgs) (v : RedisServer) : Except StoreStatus String × RedisServer → Prop
  | unavailable (later : Nat) (later_le : v.now ≤ later) (missing : ∃ i < 4, a.fates i ≠ .answered) :
      Outcome a v (.error .unavailable, ⟨v.redis, later⟩)
  | existing (t : String) (answered : a.fates 0 = .answered) (nonempty : t ≠ "")
      (mapped : v.redis.get (a.clock v.now 0) (s.idemKey a.requestId) = some (.string t)) :
      Outcome a v (.ok t, ⟨v.redis, a.clock v.now 0⟩)
  | unmapped (d : Option Nat) (later : Nat) (later_le : v.now ≤ later)
      (missing : ∃ i < 4, a.fates i ≠ .answered) :
      Outcome a v (.error .unavailable, ⟨withSession s a d v.redis, later⟩)
  | unanswered (missing : ∃ i < 4, a.fates i ≠ .answered) :
      Outcome a v (.error .unavailable, ⟨withMapping s v.now a v.redis, a.clock v.now 3⟩)
  | created (answered : ∀ i < 4, a.fates i = .answered)
      (free : v.redis.get (a.clock v.now 0) (s.idemKey a.requestId) = none) :
      Outcome a v (.ok a.token, ⟨withMapping s v.now a v.redis, a.clock v.now 3⟩)

variable {s} {w w' : World} {now : Nat} {a : CreateArgs} {r : Redis} {v : RedisServer}

/-- The first command of a login writes its session, without an end, -/
theorem exec_hset_session (hfree : r.peek now (s.sessionKey a.token) = none) :
    (r.exec now (Command.sent (.hset (s.keyForSession a.token) (RedisSessionStore.sessionFields a)))).2
      = withSession s a none r := by
  replace hfree : r.peek now (cString (s.keyForSession a.token)) = none := hfree
  simp only [Command.sent, Redis.exec, hfree]
  rfl

/-- …the second gives it one, -/
theorem exec_expire_session :
    ((withSession s a none r).exec now (Command.sent (.expire (s.keyForSession a.token) (s.ttlOf a)))).2
      = withSession s a (some (Redis.deadline now (s.ttlOf a))) r := by
  have hpeek : (withSession s a none r).peek now (cString (s.keyForSession a.token))
      = some (sessionEntry a none) := Expiring.peek_insert_self
  simp only [Command.sent, Redis.exec, hpeek, if_neg (Int.not_le.mpr (s.ttlOf_pos a))]
  exact AList.insert_insert r

/-- …and the third writes the mapping, if there is none. -/
theorem exec_setExNx_mapping {d : Option Nat} (hfree : r.peek now (s.idemKey a.requestId) = none) :
    (withSession s a d r).exec now
        (Command.sent (.setExNx (s.keyForLoginIdempotency a.requestId) a.token (s.idemTtlOf a)))
      = (.status, (withSession s a d r).insert (s.idemKey a.requestId)
          ⟨.string (cString a.token), some (Redis.deadline now (s.idemTtlOf a))⟩) := by
  have hpeek : (withSession s a d r).peek now (cString (s.keyForLoginIdempotency a.requestId)) = none :=
    (Expiring.peek_insert_ne (s.sessionKey_ne_idemKey _ _).symm).trans hfree
  simp only [Command.sent, Redis.exec, if_neg (Int.not_le.mpr (s.idemTtlOf_pos a)), hpeek]
  rfl

/-- A login whose request id is mapped returns the token of the mapping. -/
theorem createSession_of_mapped {t : String} (hans : a.fates 0 = .answered) (hne : t ≠ "")
    (hmap : v.redis.get (a.clock v.now 0) (s.idemKey a.requestId) = some (.string t)) :
    s.createSession a v = (.ok t, ⟨v.redis, a.clock v.now 0⟩) := by
  have hread : replyAsString (v.redis.exec (v.now + a.waits 0)
      (Command.sent (.get (s.keyForLoginIdempotency a.requestId)))).1 = some t :=
    Redis.replyAsString_exec_get.mpr hmap
  simp only [RedisSessionStore.createSession, executeCommand, RedisServer.exec, RedisServer.wait, hans, hread,
    Option.filter_some, hne, ne_eq, not_false_eq_true, decide_true, if_true]
  rw [Command.sent, Redis.exec_get_snd]
  rfl

/-- With both of its keys free, a login writes the session, then the mapping, and stops early only
where a reply is missing. -/
theorem createFresh_outcome (hans : a.fates 0 = .answered)
    (hsession : v.redis.peek (a.clock v.now 1) (s.sessionKey a.token) = none)
    (hmapping : v.redis.peek (a.clock v.now 0) (s.idemKey a.requestId) = none) :
    Outcome s a v (s.createFresh a ⟨v.redis, a.clock v.now 0⟩) := by
  have hset : (v.redis.exec (a.clock v.now 0 + a.waits 1) (Command.sent (.hset (s.keyForSession a.token) _))).2
      = withSession s a none v.redis := exec_hset_session hsession
  have hexpire : ((withSession s a none v.redis).exec (a.clock v.now 0 + a.waits 1 + a.waits 2)
      (Command.sent (.expire (s.keyForSession a.token) (s.ttlOf a)))).2
      = withSession s a (some (life s v.now a).sessionEnd) v.redis := exec_expire_session
  have hmapping' : v.redis.peek (a.clock v.now 3) (s.idemKey a.requestId) = none :=
    Expiring.peek_eq_none_mono (by simp only [CreateArgs.clock]; omega) hmapping
  have hnx : (withSession s a (some (life s v.now a).sessionEnd) v.redis).exec
      (a.clock v.now 0 + a.waits 1 + a.waits 2 + a.waits 3)
      (Command.sent (.setExNx (s.keyForLoginIdempotency a.requestId) a.token (s.idemTtlOf a)))
      = (.status, withMapping s v.now a v.redis) := exec_setExNx_mapping hmapping'
  unfold RedisSessionStore.createFresh
  cases h1 : a.fates 1 with
  | requestLost =>
    simp only [executeCommand, RedisServer.wait]
    exact .unavailable _ (a.le_clock v.now 1) ⟨1, by decide, by simp [h1]⟩
  | replyLost =>
    simp only [executeCommand, RedisServer.exec, RedisServer.wait, hset]
    exact .unmapped _ _ (a.le_clock v.now 1) ⟨1, by decide, by simp [h1]⟩
  | answered =>
    simp only [executeCommand, RedisServer.exec, RedisServer.wait, hset]
    cases h2 : a.fates 2 with
    | requestLost => exact .unmapped _ _ (a.le_clock v.now 2) ⟨2, by decide, by simp [h2]⟩
    | replyLost =>
      simp only [hexpire]
      exact .unmapped _ _ (a.le_clock v.now 2) ⟨2, by decide, by simp [h2]⟩
    | answered =>
      simp only [hexpire]
      cases h3 : a.fates 3 with
      | requestLost => exact .unmapped _ _ (a.le_clock v.now 3) ⟨3, by decide, by simp [h3]⟩
      | replyLost =>
        simp only [hnx]
        exact .unanswered ⟨3, by decide, by simp [h3]⟩
      | answered =>
        simp only [hnx, if_true]
        refine .created (fun i hi => ?_) (by rw [Expiring.get, hmapping]; rfl)
        obtain rfl | rfl | rfl | rfl : i = 0 ∨ i = 1 ∨ i = 2 ∨ i = 3 := by omega
        all_goals assumption

/-! ## The law that links the two keys

The session of a life ends with the life.  A mapping to its token, whose deadline was set later by the lag of the
life, may be met after that, for no longer than the lag. -/

/-- The session of the life is there until it ends, and a mapping that ends at `d` ends within the lag. -/
structure Kept (s : RedisSessionStore) (w : World) (life : Life) (d : Nat) : Prop where
  deadline : d ≤ life.sessionEnd + life.lag
  session : w.now < life.sessionEnd →
    ∃ e, w.redis.peek w.now (s.sessionKey life.token) = some e ∧ e.expiresAt = some life.sessionEnd

/-- **What holds of the two kinds of key after any history.** -/
structure Sound (s : RedisSessionStore) (w : World) : Prop where
  /-- A generated token is sent whole. -/
  plain : ∀ t ∈ w.issued, cString t = t
  /-- A session belongs to a generated token, and nobody wrote into it since its login. -/
  session : ∀ t e, w.redis.peek w.now (s.sessionKey t) = some e →
    ∃ a d, a.token ∈ w.issued ∧ a.token = cString t ∧ e = sessionEntry a d
  /-- A mapping names a generated token; its session is kept, unless it was logged out. -/
  mapping : ∀ rid e, w.redis.peek w.now (s.idemKey rid) = some e →
    ∃ life ∈ w.lives, life.token ≠ "" ∧ ∃ d, e = ⟨.string life.token, some d⟩ ∧
      (life.token ∈ w.loggedOut ∨ Kept s w life d)

/-- A life belongs to a generated token. -/
theorem token_mem_issued {life : Life} (h : life ∈ w.lives) : life.token ∈ w.issued := List.mem_map_of_mem h

theorem Sound.start : Sound s start where
  plain t h := by cases h
  session t e h := by simp [World.start, Expiring.peek] at h
  mapping rid e h := by simp [World.start, Expiring.peek] at h

/-- A token that was not generated yet has no session. -/
theorem Sound.session_free (h : Sound s w) {t : String} (ht : cString t ∉ w.issued) :
    w.redis.peek w.now (s.sessionKey t) = none := by
  refine Option.eq_none_iff_forall_ne_some.mpr fun e he => ht ?_
  obtain ⟨a, d, hissued, htoken, -⟩ := h.session t e he
  exact htoken ▸ hissued

/-- **`createSession_outcome`** — under the law, a login ends in one of the ways of `Outcome`; the
lost race is not among them, since a mapping that is there at all is read by the first `GET`. -/
theorem Sound.createSession_outcome (h : Sound s w) (hfresh : w.Fresh (.create a)) :
    Outcome s a w.toRedisServer (s.createSession a w.toRedisServer) := by
  obtain ⟨hnew, -, hplain⟩ := hfresh
  have hget : (w.redis.exec (w.now + a.waits 0) (Command.sent (.get (s.keyForLoginIdempotency a.requestId)))).2
      = w.redis := Redis.exec_get_snd _
  cases h0 : a.fates 0 with
  | requestLost =>
    simp only [RedisSessionStore.createSession, executeCommand, RedisServer.wait, h0]
    exact .unavailable _ (a.le_clock w.now 0) ⟨0, by decide, by simp [h0]⟩
  | replyLost =>
    simp only [RedisSessionStore.createSession, executeCommand, RedisServer.exec, RedisServer.wait, h0, hget]
    exact .unavailable _ (a.le_clock w.now 0) ⟨0, by decide, by simp [h0]⟩
  | answered =>
    cases hmap : w.redis.peek (a.clock w.now 0) (s.idemKey a.requestId) with
    | none =>
      have hmap' : w.redis.peek (w.now + a.waits 0) (cString (s.keyForLoginIdempotency a.requestId)) = none := hmap
      have hnil : (w.redis.exec (w.now + a.waits 0)
          (Command.sent (.get (s.keyForLoginIdempotency a.requestId)))).1 = .nil := by
        simp only [Command.sent, Redis.exec, Expiring.get, hmap', Option.map_none]
      simp only [RedisSessionStore.createSession, executeCommand, RedisServer.exec, RedisServer.wait, h0, hget, hnil]
      refine createFresh_outcome h0 ?_ hmap
      exact Expiring.peek_eq_none_mono (a.le_clock w.now 1) (h.session_free (hplain.symm ▸ hnew))
    | some e =>
      obtain ⟨life, -, hne, d, rfl, -⟩ := h.mapping _ _ (Expiring.peek_mono (a.le_clock w.now 0) hmap)
      have hstring : w.redis.get (a.clock w.now 0) (s.idemKey a.requestId) = some (.string life.token) := by
        rw [Expiring.get, hmap]; rfl
      rw [createSession_of_mapped h0 hne hstring]
      exact .existing life.token h0 hne hstring

/-- A login takes time. -/
theorem Sound.le_create_now (h : Sound s w) (hfresh : w.Fresh (.create a)) :
    w.now ≤ (w.next s (.create a)).now := by
  have hout := h.createSession_outcome hfresh
  simp only [next]
  generalize s.createSession a w.toRedisServer = res at hout
  cases hout with
  | unavailable later hle | unmapped _ later hle => exact hle
  | existing => exact a.le_clock w.now 0
  | unanswered | created => exact a.le_clock w.now 3

/-! ## Each entry of a history keeps the law

One lemma for each thing that can happen: time, a login as far as it came, a logout. -/

/-- What a login writes is its own session, -/
theorem peek_withSession_self {t : String} {d : Option Nat} {e : Timed RedisValue} (ht : cString t = cString a.token)
    (h : (withSession s a d r).peek now (s.sessionKey t) = some e) : e = sessionEntry a d := by
  rw [s.sessionKey_inj.mpr ht, withSession, Expiring.peek_insert_self, Option.filter_eq_some_iff] at h
  exact (Option.some.inj h.1).symm

/-- …no other one, -/
theorem peek_withSession_ne {d : Option Nat} {t : String} (ht : cString t ≠ cString a.token) :
    (withSession s a d r).peek now (s.sessionKey t) = r.peek now (s.sessionKey t) :=
  Expiring.peek_insert_ne (s.sessionKey_inj.not.mpr ht)

/-- …and no mapping. -/
theorem peek_withSession_idem {d : Option Nat} {rid : String} :
    (withSession s a d r).peek now (s.idemKey rid) = r.peek now (s.idemKey rid) :=
  Expiring.peek_insert_ne (s.sessionKey_ne_idemKey _ _).symm

/-- A mapping touches no session. -/
theorem peek_withMapping_session {start : Nat} {t : String} :
    (withMapping s start a r).peek now (s.sessionKey t)
      = (withSession s a (some (life s start a).sessionEnd) r).peek now (s.sessionKey t) :=
  Expiring.peek_insert_ne (s.sessionKey_ne_idemKey _ _)

/-- The session of a login that reached its mapping is there until its end. -/
theorem peek_withMapping_self {start : Nat} (hnow : now < (life s start a).sessionEnd) :
    (withMapping s start a r).peek now (s.sessionKey a.token)
      = some (sessionEntry a (some (life s start a).sessionEnd)) := by
  rw [peek_withMapping_session, withSession, Expiring.peek_insert_self, Option.filter_eq_some_iff]
  refine ⟨rfl, Timed.alive_iff.mpr fun d hd => ?_⟩
  cases hd
  exact hnow

/-- Time passes. -/
theorem Sound.later (h : Sound s w) {later : Nat} (hle : w.now ≤ later) :
    Sound s { w with toRedisServer := ⟨w.redis, later⟩ } where
  plain := h.plain
  session t e he := h.session t e (Expiring.peek_mono hle he)
  mapping rid e he := by
    obtain ⟨life, hmem, hne, d, rfl, hkept⟩ := h.mapping rid e (Expiring.peek_mono hle he)
    refine ⟨life, hmem, hne, d, rfl, hkept.imp_right fun hkept => ⟨hkept.deadline, fun hlater => ?_⟩⟩
    obtain ⟨e', he', hend⟩ := hkept.session (hle.trans_lt hlater)
    refine ⟨e', Expiring.peek_eq_some.mpr ⟨(Expiring.peek_eq_some.mp he').1, Timed.alive_iff.mpr fun d' hd' => ?_⟩,
      hend⟩
    cases hend.symm.trans hd'
    exact hlater

/-- A generated token that was never stored. -/
theorem Sound.issue (h : Sound s w) (life : Life) (hplain : cString life.token = life.token)
    (granted : List (String × String)) : Sound s { w with lives := life :: w.lives, granted := granted } where
  plain := List.forall_mem_cons.mpr ⟨hplain, h.plain⟩
  session t e he := by
    obtain ⟨a, d, hissued, hrest⟩ := h.session t e he
    exact ⟨a, d, List.mem_cons_of_mem _ hissued, hrest⟩
  mapping rid e he := by
    obtain ⟨life', hmem, hne, d, rfl, hkept⟩ := h.mapping rid e he
    exact ⟨life', List.mem_cons_of_mem _ hmem, hne, d, rfl, hkept.imp_right fun hkept => ⟨hkept.1, hkept.2⟩⟩

/-- The session alone: no mapping names a token that is new. -/
theorem Sound.withSession (h : Sound s w) (hfresh : w.Fresh (.create a)) (life : Life) (hlife : life.token = a.token)
    (d : Option Nat) (granted : List (String × String)) :
    Sound s { w with
      toRedisServer := ⟨World.withSession s a d w.redis, w.now⟩, lives := life :: w.lives, granted := granted } where
  plain := List.forall_mem_cons.mpr ⟨(congrArg cString hlife).trans (hfresh.2.2.trans hlife.symm), h.plain⟩
  session t e he := by
    by_cases ht : cString t = cString a.token
    · exact ⟨a, d, hlife ▸ List.mem_cons_self, (ht.trans hfresh.2.2).symm, peek_withSession_self ht he⟩
    · obtain ⟨a', d', hissued, hrest⟩ := h.session t e (peek_withSession_ne ht ▸ he)
      exact ⟨a', d', List.mem_cons_of_mem _ hissued, hrest⟩
  mapping rid e he := by
    obtain ⟨life', hmem, hne, d', rfl, hkept⟩ := h.mapping rid e (peek_withSession_idem ▸ he)
    have hissued := token_mem_issued hmem
    have ht : cString life'.token ≠ cString a.token := by
      rw [h.plain _ hissued, hfresh.2.2]
      exact fun heq => hfresh.1 (heq ▸ hissued)
    refine ⟨life', List.mem_cons_of_mem _ hmem, hne, d', rfl, hkept.imp_right fun hkept => ⟨hkept.deadline, ?_⟩⟩
    dsimp only
    rw [peek_withSession_ne ht]
    exact hkept.session

/-- A login that reached its mapping: the mapping was given its deadline later than the session, by the lag. -/
theorem Sound.withMapping (h : Sound s w) (start : Nat) (hfresh : w.Fresh (.create a))
    (granted : List (String × String)) :
    Sound s { w with
      toRedisServer := ⟨World.withMapping s start a w.redis, w.now⟩
      lives := life s start a :: w.lives
      granted := granted } where
  plain := List.forall_mem_cons.mpr ⟨hfresh.2.2, h.plain⟩
  session t e he :=
    (h.withSession hfresh (life s start a) rfl _ granted).session t e (peek_withMapping_session ▸ he)
  mapping rid e he := by
    by_cases hid : s.idemKey rid = s.idemKey a.requestId
    · rw [hid, World.withMapping, Expiring.peek_insert_self, Option.filter_eq_some_iff] at he
      obtain rfl := Option.some.inj he.1
      refine ⟨life s start a, List.mem_cons_self, hfresh.2.1, _, by rw [mappingEntry, hfresh.2.2]; rfl,
        .inr ⟨?_, fun hlater => ⟨_, peek_withMapping_self hlater, rfl⟩⟩⟩
      have hle := s.idemTtlOf_le a
      have hclock : a.clock start 3 = a.clock start 2 + a.waits 3 := rfl
      simp only [life, Redis.deadline, hclock]
      omega
    · rw [World.withMapping, Expiring.peek_insert_ne hid] at he
      obtain ⟨life', hmem, hne, d, rfl, hkept⟩ :=
        (h.withSession hfresh (life s start a) rfl _ granted).mapping rid e he
      refine ⟨life', hmem, hne, d, rfl, hkept.imp_right fun hkept => ⟨hkept.deadline, ?_⟩⟩
      dsimp only
      rw [peek_withMapping_session]
      exact hkept.session

/-- What a logout does to Redis: nothing, or the session is gone. -/
theorem deleteSession_redis (fates : Nat → Fate) (waits : Nat → Nat) (t : String) :
    (s.deleteSession fates waits t v).2.redis
      = if fates 0 = .answered ∧ fates 1 ≠ .requestLost then v.redis.erase (s.sessionKey t) else v.redis := by
  unfold RedisSessionStore.deleteSession
  cases h0 : fates 0 <;> cases h1 : fates 1 <;>
    simp [executeCommand, RedisServer.exec, Command.sent, RedisSessionStore.sessionKey]

/-- A logout takes time. -/
theorem le_deleteSession_now (fates : Nat → Fate) (waits : Nat → Nat) (t : String) :
    v.now ≤ (s.deleteSession fates waits t v).2.now := by
  unfold RedisSessionStore.deleteSession
  cases h0 : fates 0 <;> cases h1 : fates 1 <;> simp [executeCommand, RedisServer.exec] <;> omega

/-- A session is logged out. -/
theorem Sound.erase (h : Sound s w) (t : String) {gone : List String}
    (hgone : cString t ∈ w.issued → cString t ∈ gone) :
    Sound s { w with
      toRedisServer := ⟨w.redis.erase (s.sessionKey t), w.now⟩, loggedOut := gone ++ w.loggedOut } where
  plain := h.plain
  session t' e he := by
    by_cases ht : s.sessionKey t' = s.sessionKey t
    · simp only [ht, Expiring.peek_erase_self, reduceCtorEq] at he
    · exact h.session t' e (Expiring.peek_erase_ne ht ▸ he)
  mapping rid e he := by
    obtain ⟨life, hmem, hne, d, rfl, hkept⟩ :=
      h.mapping rid e (Expiring.peek_erase_ne (s.sessionKey_ne_idemKey _ _).symm ▸ he)
    have hissued := token_mem_issued hmem
    refine ⟨life, hmem, hne, d, rfl, ?_⟩
    by_cases ht : cString t = life.token
    · exact .inl (List.mem_append_left _ (ht ▸ hgone (ht.symm ▸ hissued)))
    · refine hkept.imp (List.mem_append_right _) fun hkept => ⟨hkept.deadline, ?_⟩
      have hkey : s.sessionKey life.token ≠ s.sessionKey t := by
        rw [ne_eq, s.sessionKey_inj, h.plain _ hissued]
        exact Ne.symm ht
      dsimp only
      rw [Expiring.peek_erase_ne hkey]
      exact hkept.session

/-- **A logout keeps the law,** -/
theorem Sound.delete (h : Sound s w) (t : String) (fates : Nat → Fate) (waits : Nat → Nat) :
    Sound s (w.next s (.delete t fates waits)) := by
  have hlater := h.later (le_deleteSession_now (s := s) (v := w.toRedisServer) fates waits t)
  have hredis := deleteSession_redis (s := s) (v := w.toRedisServer) fates waits t
  simp only [next]
  generalize (s.deleteSession fates waits t w.toRedisServer).2 = v at hlater hredis
  obtain ⟨r, now⟩ := v
  obtain rfl := hredis
  by_cases hdel : fates 0 = .answered ∧ fates 1 ≠ .requestLost
  · rw [if_pos hdel]
    exact hlater.erase t fun hissued => by
      rw [deleted, if_pos ⟨hissued, hdel⟩]
      exact List.mem_singleton_self _
  · rw [if_neg hdel, deleted, if_neg fun hc => hdel hc.2]
    exact hlater

/-- **…and so does every entry of a history.** -/
theorem Sound.step (h : Sound s w) {op : Op} (hstep : Step s w op w') : Sound s w' := by
  obtain ⟨hfresh, rfl⟩ := hstep
  cases op with
  | create a =>
    have hout := h.createSession_outcome hfresh
    simp only [next]
    generalize s.createSession a w.toRedisServer = res at hout
    cases hout with
    | unavailable later hle => exact (h.later hle).issue (life s w.now a) hfresh.2.2 _
    | existing t => exact (h.later (a.le_clock w.now 0)).issue (life s w.now a) hfresh.2.2 _
    | unmapped d later hle => exact (h.later hle).withSession hfresh (life s w.now a) rfl d _
    | unanswered => exact (h.later (a.le_clock w.now 3)).withMapping w.now hfresh _
    | created => exact (h.later (a.le_clock w.now 3)).withMapping w.now hfresh _
  | delete t fates waits => exact h.delete t fates waits
  | elapse ms => exact h.later (Nat.le_add_right _ _)

/-- **The law holds in every history.** -/
theorem Sound.of_run {ops : List Op} (h : Run (Step s) World.start ops w) : Sound s w :=
  h.invariant (fun _ _ _ hs hstep => hs.step hstep) .start

end World

end RealtimeGame.Gateway
