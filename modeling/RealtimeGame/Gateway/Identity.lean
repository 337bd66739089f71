import RealtimeGame.Gateway.GatewaySystem

/-!
# Gateway/Identity — who acts for whom

In every run, whatever is done for a player is done under a token that was made for a login with the password of
the player's account (`acts_for_login`); and behind a logout nothing is done under its token (`logout_revokes`).
-/

open Library RealtimeGame.Common

namespace RealtimeGame.Gateway

/-! ## One step of the sessions

Of all that the sessions can do, only a login adds one, and only its own. -/

namespace World

variable {s : RedisSessionStore} {w w' : World} {t : String}

/-- What a login leaves under its own token is its own session. -/
theorem Sound.peek_create (h : Sound s w) {a : CreateArgs} (hfresh : w.Fresh (.create a)) {now : Nat}
    (hnow : w.now ≤ now) {e : Timed RedisValue} (ht : cString t = a.token)
    (hpeek : (w.next s (.create a)).redis.peek now (s.sessionKey t) = some e) : ∃ d, e = sessionEntry a d := by
  have hkey : cString t = cString a.token := ht.trans hfresh.2.2.symm
  have hout := h.createSession_outcome hfresh
  have hfree : w.redis.peek now (s.sessionKey t) = none :=
    Expiring.peek_eq_none_mono hnow (h.session_free (ht.symm ▸ hfresh.1))
  simp only [next] at hpeek
  generalize s.createSession a w.toRedisServer = res at hout hpeek
  cases hout with
  | unavailable | existing =>
    rw [hfree] at hpeek
    cases hpeek
  | unmapped d => exact ⟨d, peek_withSession_self hkey hpeek⟩
  | unanswered | created => exact ⟨_, peek_withSession_self hkey (peek_withMapping_session ▸ hpeek)⟩

/-- **A session answers as it did**, or is the one that a login has just written. -/
theorem Sound.getSession_next (h : Sound s w) {op : Op} (hstep : Step s w op w') {fate : Fate} {rec : SessionRecord}
    (hget : s.getSession fate t w'.toRedisServer = .ok rec) :
    s.getSession .answered t w.toRedisServer = .ok rec ∨
      ∃ a, op = .create a ∧ a.token = cString t ∧ rec.playerId = cString a.playerId := by
  by_cases ht : cString t ∈ w.issued
  · exact .inl (h.getSession_step hstep ht hget)
  · obtain ⟨a', d', hissued, htoken, rfl, hpeek⟩ := (h.step hstep).getSession_eq_ok hget
    obtain ⟨hfresh, rfl⟩ := hstep
    cases op with
    | delete token fates waits => exact absurd (htoken ▸ hissued) ht
    | elapse ms => exact absurd (htoken ▸ hissued) ht
    | create a =>
      have hnew : a'.token = a.token := (List.mem_cons.mp hissued).resolve_right (htoken ▸ ht)
      refine .inr ⟨a, rfl, hnew.symm.trans htoken, ?_⟩
      obtain ⟨d, hentry⟩ := h.peek_create hfresh (h.le_create_now hfresh) (htoken.symm.trans hnew) hpeek
      rw [hentry] at hpeek
      have hread := getSession_of_peek hpeek
      rw [getSession_answered hget, Except.ok.injEq] at hread
      rw [hread, recordOf]

end World

/-! ## Sessions, and the logins that opened them

`Traced` ties what is in Redis to the log: every session there was opened by a call in it. -/

/-- The calls made so far. -/
abbrev Log : Type := List (Server.Entry GatewayAnswer Oracle)

/-- The token of the session that a login makes, and the player, whose id is kept as far as it is sent. -/
def opens (e : Server.Entry GatewayAnswer Oracle) : Option (String × String) :=
  match e.made.1 with
  | .createSession _ playerId _ _ => some (e.oracle.token, cString playerId)
  | _ => none

/-- A login made a session for the player, with this token. -/
def Opened (log : Log) (token playerId : String) : Prop := (token, playerId) ∈ log.filterMap opens

instance (log : Log) (token playerId : String) : Decidable (Opened log token playerId) :=
  inferInstanceAs (Decidable (_ ∈ _))

/-- A session is opened by one call only, -/
theorem opens_eq_some {e : Server.Entry GatewayAnswer Oracle} {token playerId : String} :
    opens e = some (token, playerId) ↔ e.oracle.token = token ∧ ∃ requestId player clientType ttlSeconds,
      e.made.1 = .createSession requestId player clientType ttlSeconds ∧ cString player = playerId := by
  rw [opens]
  split
  case h_1 requestId player clientType ttlSeconds h => simp [h]
  case h_2 h =>
    refine iff_of_false (by simp) ?_
    rintro ⟨-, requestId, player, clientType, ttlSeconds, heq, -⟩
    exact h _ _ _ _ heq

/-- …which is in the log. -/
theorem opened_iff {log : Log} {token playerId : String} :
    Opened log token playerId ↔ ∃ e ∈ log, e.oracle.token = token ∧ ∃ requestId player clientType ttlSeconds,
      e.made.1 = .createSession requestId player clientType ttlSeconds ∧ cString player = playerId := by
  simp only [Opened, List.mem_filterMap, opens_eq_some]

theorem Opened.mono {log log' : Log} {token playerId : String} (h : Opened log token playerId)
    (hsubset : log ⊆ log') : Opened log' token playerId := by
  obtain ⟨e, hmem, hrest⟩ := opened_iff.mp h
  exact opened_iff.mpr ⟨e, hsubset hmem, hrest⟩

namespace GatewayConfig

variable {c : GatewayConfig} {w : GatewayWorld} {log : Log} {call : GatewayCall} {o : Oracle}

/-- Room has no part in the sessions. -/
@[simp] theorem callRoom_sessions
    {client : Option Room.Proto.RoomResponse → BrpcRoomClient.Outcome RoomSnapshot} {fate : Fate}
    {response : Room.RoomService.Response} {action : Room.Action} :
    (c.callRoom client fate response action w).2.sessions = w.sessions := by
  cases fate <;> rfl

/-- A call is no step of the sessions, or one that the call is about. -/
theorem sessions_perform (hadmits : admits call o w) :
    (c.perform call o w).2.sessions = w.sessions ∨
      ∃ op, World.Step c.sessions w.sessions op (c.perform call o w).2.sessions ∧
        ∀ a, op = .create a → ∃ requestId playerId clientType ttlSeconds,
          call = .createSession requestId playerId clientType ttlSeconds ∧
            a = o.createArgs requestId playerId clientType ttlSeconds := by
  cases call with
  | createSession requestId playerId clientType ttlSeconds =>
    refine .inr ⟨.create (o.createArgs requestId playerId clientType ttlSeconds),
      ⟨hadmits, rfl⟩, fun a heq => ?_⟩
    exact ⟨requestId, playerId, clientType, ttlSeconds, rfl, (World.Op.create.inj heq).symm⟩
  | deleteSession token =>
    refine .inr ⟨.delete token o.fates o.waits, ⟨trivial, rfl⟩, ?_⟩
    rintro a ⟨⟩
  | join => exact .inl callRoom_sessions
  | submitAttack => exact .inl callRoom_sessions
  | getState => exact .inl callRoom_sessions
  | _ => exact .inl rfl

/-- **Every session that answers** is one that a login opened, and so is every one that answered. -/
structure Traced (c : GatewayConfig) (w : GatewayWorld) (log : Log) : Prop where
  sound : World.Sound c.sessions w.sessions
  session : ∀ fate token rec, c.sessions.getSession fate token w.sessions.toRedisServer = .ok rec →
    Opened log (cString token) rec.playerId
  read : ∀ pre e rest, log = pre ++ e :: rest → ∀ token (session : SessionRecord),
    e.made = ⟨.getSession token, .ok session⟩ → Opened pre (cString token) session.playerId

theorem Traced.start : Traced c {} [] where
  sound := .start
  session fate token rec hget := by
    obtain ⟨a, d, hissued, -⟩ := World.Sound.start.getSession_eq_ok hget
    cases hissued
  read pre e rest hlog := by simp at hlog

/-- A step of the sessions, with the entry of the call that made it. -/
theorem Traced.session_next (h : Traced c w log) {op : World.Op} {sessions : World}
    (hstep : World.Step c.sessions w.sessions op sessions) {log' : Log} (hsubset : log ⊆ log')
    (hcreate : ∀ a, op = .create a → Opened log' a.token (cString a.playerId)) {fate : Fate} {token : String}
    {rec : SessionRecord} (hget : c.sessions.getSession fate token sessions.toRedisServer = .ok rec) :
    Opened log' (cString token) rec.playerId := by
  rcases h.sound.getSession_next hstep hget with hbefore | ⟨a, rfl, htoken, hplayer⟩
  · exact (h.session _ _ _ hbefore).mono hsubset
  · exact hplayer ▸ htoken ▸ hcreate a rfl

/-- **One call.** -/
theorem Traced.perform (h : Traced c w log) (i : Nat) (hadmits : admits call o w) :
    Traced c (c.perform call o w).2 (log ++ [⟨i, o, call, (c.perform call o w).1⟩]) := by
  have hsubset : log ⊆ log ++ [⟨i, o, call, (c.perform call o w).1⟩] := List.subset_append_left ..
  refine ⟨?_, fun fate token rec hget => ?_, fun pre e rest hlog token session hmade => ?_⟩
  · rcases sessions_perform hadmits with hsame | ⟨op, hstep, -⟩
    · exact hsame ▸ h.sound
    · exact h.sound.step hstep
  · rcases sessions_perform hadmits with hsame | ⟨op, hstep, hcreate⟩
    · exact (h.session fate token rec (hsame ▸ hget)).mono hsubset
    · refine h.session_next hstep hsubset (fun a heq => ?_) hget
      obtain ⟨requestId, playerId, clientType, ttlSeconds, rfl, rfl⟩ := hcreate a heq
      exact opened_iff.mpr ⟨_, List.mem_append_right _ List.mem_cons_self, rfl, requestId, playerId, clientType,
        ttlSeconds, rfl, rfl⟩
  · rcases Server.snoc_eq_append_cons hlog with ⟨rfl, rfl, -⟩ | ⟨rest', -, hold⟩
    · obtain ⟨rfl, hanswer⟩ := Sigma.mk.inj hmade
      exact h.session _ _ _ (eq_of_heq hanswer)
    · exact h.read pre e rest' hold token session hmade

/-- **One event.** -/
theorem Traced.happen (h : Traced c w log) (event : GatewayEvent) : Traced c (c.happen event w) log := by
  cases event with
  | beginShutdown => exact ⟨h.sound, h.session, h.read⟩
  | room action => exact ⟨h.sound, h.session, h.read⟩
  | elapse ms =>
    have hstep : World.Step c.sessions w.sessions (.elapse ms) (w.sessions.next c.sessions (.elapse ms)) :=
      ⟨trivial, rfl⟩
    refine ⟨h.sound.step hstep, fun fate token rec hget => ?_, h.read⟩
    exact h.session_next hstep (List.Subset.refl _) (by rintro a ⟨⟩) hget

/-! ## Every run

What a method may do, and what is in Redis, together: behind a call for a player there is his login. -/

/-- The Gateway with its requests. -/
abbrev State : Type := Server.State GatewayAnswer Request Response Oracle GatewayWorld

variable {ops : List (Server.Op Request Oracle GatewayEvent)} {t : State}

/-- **In every run** each method keeps to what it may do, -/
theorem keeps_of_run (hrun : Run c.server.Step { world := {} } ops t) :
    Server.Keeps Request.May Request.Finished t :=
  Server.contract (handle_meets c.service) hrun (.nil _)

/-- **…and each session goes back to the login that opened it.** -/
theorem traced_of_run (hrun : Run c.server.Step { world := {} } ops t) : Traced c t.world t.log :=
  Server.invariant (handle_meets c.service) (I := fun w log => Traced c w log)
    (fun _ _ i _ _ _ h _ hadmits => h.perform i hadmits) (fun _ _ event h _ => h.happen event) hrun (.nil _) .start

/-- The player that a call is made for. -/
def actsFor : GatewayCall → Option String
  | .findByPlayerId playerId | .enqueue playerId _ | .getStatus playerId | .cancel playerId _ | .join _ playerId _ |
    .submitAttack _ playerId _ | .subscribe playerId _ _ => some playerId
  | _ => none

/-- A call for a player is made with his session. -/
theorem authorized_of_actsFor {request : Request} {past : List Made} {playerId : String}
    (hacts : actsFor call = some playerId) (hmay : request.May past call) : request.Authorized past playerId := by
  cases call with
  | findByPlayerId | getStatus => exact Option.some.inj hacts ▸ hmay
  | enqueue | cancel | join | submitAttack => exact Option.some.inj hacts ▸ hmay.2.1
  | subscribe => exact Option.some.inj hacts ▸ hmay.2.2.1
  | _ => cases hacts

/-- Who is let in knows the password, and the player is the one of the row. -/
theorem authenticate_eq_ok {sha256 : String → Option Bytes} {enabled : Bool} {find : Except ReaderStatus PlayerRecord}
    {account password : String} {player : Proto.PlayerInfo}
    (h : DatabasePlayerDirectory.authenticate sha256 enabled find account password = .ok player) :
    Knows sha256 enabled account password ∧
      ∃ record, find = .ok record ∧ record.status = "active" ∧ player = toPlayerInfo record := by
  by_cases hknows : Knows sha256 enabled account password
  · refine ⟨hknows, ?_⟩
    rcases find with (_ | _) | record
    · cases h
    · cases h
    · rw [authenticate_of_knows hknows] at h
      split_ifs at h with hactive
      exact ⟨record, rfl, not_not.mp hactive, (Except.ok.inj h).symm⟩
  · by_cases hfind : find = .error .unavailable
    · rw [hfind] at h
      cases h
    · rw [authenticate_of_not_knows hknows hfind] at h
      cases h

/-- **A login** of the player that opened the session of the token: a request with the password of its account,
for which MySQL had the row of the player. -/
def LoggedIn (c : GatewayConfig) (t : State) (log : Log) (token playerId : String) : Prop :=
  ∃ i login, t.request? i = some login ∧ Knows c.sha256 c.benchAccounts login.account login.password ∧
    ∃ record : PlayerRecord, record.status = "active" ∧ cString record.playerId = playerId ∧
      (∃ e ∈ log, e.thread = i ∧ e.made.1 = .authenticate login.account login.password ∧
        queryOne e.oracle.rows = .ok record) ∧
      ∃ e ∈ log, e.thread = i ∧ e.oracle.token = token ∧ ∃ requestId clientType ttlSeconds,
        e.made.1 = .createSession requestId record.playerId clientType ttlSeconds

theorem LoggedIn.mono {log log' : Log} {token playerId : String} (h : LoggedIn c t log token playerId)
    (hsubset : log ⊆ log') : LoggedIn c t log' token playerId := by
  obtain ⟨i, login, hlogin, hknows, record, hactive, hplayer, ⟨checked, hchecked, hrest⟩, opened, hopened, hrest'⟩ := h
  exact ⟨i, login, hlogin, hknows, record, hactive, hplayer, ⟨checked, hsubset hchecked, hrest⟩, opened,
    hsubset hopened, hrest'⟩

/-- A session that was opened belongs to a login. -/
theorem loggedIn_of_opened (hrun : Run c.server.Step { world := {} } ops t) {pre rest : Log}
    (hlog : t.log = pre ++ rest) {token playerId : String} (h : Opened pre token playerId) :
    LoggedIn c t pre token playerId := by
  obtain ⟨opened, hopened, htoken, requestId, id, clientType, ttlSeconds, hmade, rfl⟩ := opened_iff.mp h
  obtain ⟨before, after, rfl⟩ := List.append_of_mem hopened
  obtain ⟨login, hlogin, hmay⟩ := (keeps_of_run hrun).log before opened (after ++ rest) (by simp [hlog])
  rw [hmade] at hmay
  obtain ⟨-, -, -, -, player, hplayer, rfl⟩ := hmay
  obtain ⟨checked, hchecked, hthread, hanswer⟩ := Server.mem_past.mp hplayer
  have hmem : checked ∈ t.log := hlog ▸ List.mem_append_left _ (List.mem_append_left _ hchecked)
  obtain ⟨w, hworld⟩ := Server.answered hrun (by simp) checked hmem
  obtain ⟨thread, oracle, call, answer⟩ := checked
  obtain ⟨rfl, hanswer⟩ := Sigma.mk.inj hanswer
  obtain rfl := eq_of_heq hanswer
  obtain ⟨hknows, record, hrow, hactive, rfl⟩ := authenticate_eq_ok hworld.symm
  refine ⟨opened.thread, login, hlogin, hknows, record, hactive, rfl, ?_, ?_⟩
  · exact ⟨_, List.mem_append_left _ hchecked, hthread, rfl, hrow⟩
  · exact ⟨opened, hopened, rfl, htoken, requestId, clientType, ttlSeconds, hmade⟩

/-! Alice logs in, asks for a match, logs out, and asks again. -/

/-- The Gateway of a development environment. -/
def devGateway : GatewayConfig where
  service := .new true true 0
  sessions := World.devStore
  sha256 := devSha256
  benchAccounts := false
  stores := Room.RoomSystem.mysqlStores

/-- A world that finds the row of Alice, and has the token `t1` to give. -/
def aliceOracle : Oracle := { rows := some [[some "p-0001", some "alice", some "Alice", some "active"]], token := "t1" }

/-- A world where everything is answered, and another token is next. -/
def laterOracle : Oracle := { aliceOracle with token := "t2" }

def aliceLogin : Request := { method := .login, account := "alice", password := "alice_dev_pw", requestId := "r1" }

def aliceVisit : List (Server.Op Request Oracle GatewayEvent) :=
  [.start aliceLogin, .resume 0 aliceOracle, .resume 0 aliceOracle, .resume 0 aliceOracle, .resume 0 laterOracle,
    .start { method := .enqueueMatch, token := "t1", requestId := "q-1" },
    .resume 1 laterOracle, .resume 1 laterOracle, .resume 1 laterOracle,
    .start { method := .logout, token := "t1" }, .resume 2 laterOracle,
    .start { method := .enqueueMatch, token := "t1", requestId := "q-2", http := some { path := "/api/v1/matches" } },
    .resume 3 laterOracle, .resume 3 laterOracle, .resume 3 laterOracle, .resume 3 laterOracle, .resume 3 laterOracle]

theorem run_aliceVisit : Run devGateway.server.Step { world := {} } aliceVisit
    (devGateway.server.after { world := {} } aliceVisit) := Server.Admitted.run (by decide +kernel)

/-- A list around one of its items. -/
theorem exists_split {α β : Type} {l : List α} {i : Nat} {f : α → β} {b : β} (h : l[i]?.map f = some b) :
    ∃ a, f a = b ∧ l = l.take i ++ a :: l.drop (i + 1) := by
  obtain ⟨a, ha, rfl⟩ := Option.map_eq_some_iff.mp h
  obtain ⟨hlt, rfl⟩ := List.getElem?_eq_some_iff.mp ha
  exact ⟨l[i], rfl, by rw [← List.drop_eq_getElem_cons hlt, List.take_append_drop]⟩

/-- A token that is let through is sent whole. -/
theorem cString_of_valid {token : String} (h : validateToken token = "") : cString token = token := by
  have hformat : isValidTokenFormat token = true := by
    by_contra hnot
    rw [validateToken, Bool.eq_false_of_not_eq_true hnot, Bool.not_false, if_pos rfl] at h
    split_ifs at h <;> exact absurd h (by decide)
  refine cString_eq_self.mpr fun x hx hnul => ?_
  have hletter := (isValidTokenFormat_iff.mp hformat).2 x hx
  rw [hnul] at hletter
  revert hletter
  decide

/-- Who is authorized has logged in. -/
theorem loggedIn_of_authorized (hrun : Run c.server.Step { world := {} } ops t) {pre rest : Log}
    (hlog : t.log = pre ++ rest) {i : Nat} {request : Request} {playerId : String}
    (h : request.Authorized (Server.past pre i) playerId) : LoggedIn c t pre request.tokenOf playerId := by
  obtain ⟨hvalid, session, hread, rfl⟩ := h
  obtain ⟨reading, hreading, -, hmade⟩ := Server.mem_past.mp hread
  obtain ⟨before, after, rfl⟩ := List.append_of_mem hreading
  have hopened := (traced_of_run hrun).read before reading (after ++ rest) (by simp [hlog]) _ _ hmade
  rw [cString_of_valid hvalid] at hopened
  exact loggedIn_of_opened hrun hlog (hopened.mono (List.subset_append_left ..))

/-- **Whatever is done for a player is done under his login** — in every run, every call that is made for a player
is made for a request whose token was made for a login with the password of the player's account. -/
theorem acts_for_login (hrun : Run c.server.Step { world := {} } ops t) {pre rest : Log}
    {e : Server.Entry GatewayAnswer Oracle} (hlog : t.log = pre ++ e :: rest) {playerId : String}
    (hacts : actsFor e.made.1 = some playerId) :
    ∃ request, t.request? e.thread = some request ∧ LoggedIn c t pre request.tokenOf playerId := by
  obtain ⟨request, hrequest, hmay⟩ := (keeps_of_run hrun).log pre e rest hlog
  exact ⟨request, hrequest, loggedIn_of_authorized hrun hlog (authorized_of_actsFor hacts hmay)⟩

theorem acts_for_login_aliceVisit :
    ∃ pre e rest, (devGateway.server.after { world := {} } aliceVisit).log = pre ++ e :: rest ∧
      e.made.1 = .enqueue "p-0001" "q-1" ∧
      ∃ request, (devGateway.server.after { world := {} } aliceVisit).request? e.thread = some request ∧
        LoggedIn devGateway (devGateway.server.after { world := {} } aliceVisit) pre request.tokenOf "p-0001" := by
  obtain ⟨e, hcall, hlog⟩ := exists_split (i := 6) (f := fun e => e.made.1)
    (l := (devGateway.server.after { world := {} } aliceVisit).log) (b := .enqueue "p-0001" "q-1") (by decide +kernel)
  exact ⟨_, e, _, hlog, hcall, acts_for_login run_aliceVisit hlog (by rw [hcall]; rfl)⟩

/-! ## Logout

A token is generated once, so a session that was deleted does not come back. -/

/-- The token that a call logs out: its session was deleted, or was not there. -/
def logsOut : Made → Option String
  | ⟨.deleteSession token, .ok _⟩ | ⟨.deleteSession token, .error .notFound⟩ => some token
  | _ => none

theorem logsOut_eq_some {made : Made} {token : String} (h : logsOut made = some token) :
    ∃ answer : Except StoreStatus Unit, answer ≠ .error .unavailable ∧ made = ⟨.deleteSession token, answer⟩ := by
  unfold logsOut at h
  split at h
  case h_1 token' answer =>
    obtain rfl := Option.some.inj h
    exact ⟨.ok answer, by simp, rfl⟩
  case h_2 token' =>
    obtain rfl := Option.some.inj h
    exact ⟨.error .notFound, by simp, rfl⟩
  case h_3 => cases h

/-- The session of the token is gone, and the generator does not return the token again. -/
structure Gone (c : GatewayConfig) (w : GatewayWorld) (token : String) : Prop where
  issued : token ∈ w.sessions.issued
  silent : ∀ fate (rec : SessionRecord),
    c.sessions.getSession fate token w.sessions.toRedisServer ≠ .ok rec

/-- **A session that is gone stays gone**, whatever the sessions do, -/
theorem Gone.step {w' : GatewayWorld} {token : String} (h : Gone c w token)
    (hsound : World.Sound c.sessions w.sessions) {op : World.Op}
    (hstep : World.Step c.sessions w.sessions op w'.sessions) : Gone c w' token where
  issued := World.issued_step hstep h.issued
  silent fate rec hget :=
    h.silent _ _ (hsound.getSession_step hstep (by rw [hsound.plain _ h.issued]; exact h.issued) hget)

/-- …in a call, -/
theorem Gone.perform {token : String} (h : Gone c w token) (hsound : World.Sound c.sessions w.sessions)
    (hadmits : admits call o w) : Gone c (c.perform call o w).2 token := by
  rcases sessions_perform hadmits with hsame | ⟨op, hstep, -⟩
  · exact ⟨hsame ▸ h.issued, hsame ▸ h.silent⟩
  · exact h.step hsound hstep

/-- A logout takes effect only with both of its replies. -/
theorem fates_of_deleteSession {s : RedisSessionStore} {fates : Nat → Fate} {waits : Nat → Nat} {token : String}
    {v : RedisServer} (h : (s.deleteSession fates waits token v).1 ≠ .error .unavailable) :
    fates 0 = .answered ∧ fates 1 = .answered := by
  unfold RedisSessionStore.deleteSession at h
  cases h0 : fates 0 <;> cases h1 : fates 1 <;> simp [executeCommand, h0, h1] at h ⊢

/-- Behind a logout the session is gone. -/
theorem gone_of_deleteSession {token : String} (hsound : World.Sound c.sessions w.sessions)
    (hissued : token ∈ w.sessions.issued)
    (h : (c.perform (.deleteSession token) o w).1 ≠ .error .unavailable) :
    Gone c (c.perform (.deleteSession token) o w).2 token where
  issued := hissued
  silent fate rec hget := by
    obtain ⟨h0, h1⟩ := fates_of_deleteSession h
    have hsound' := hsound.delete token o.fates o.waits
    obtain ⟨a, d, -, -, -, hpeek⟩ := hsound'.getSession_eq_ok hget
    simp only [World.next] at hpeek
    rw [World.deleteSession_redis, if_pos ⟨h0, by simp [h1]⟩, Expiring.peek_erase_self] at hpeek
    cases hpeek

/-- What a logout brings about, at any time behind it. -/
structure Revoked (c : GatewayConfig) (w : GatewayWorld) (log : Log) : Prop where
  sound : World.Sound c.sessions w.sessions
  issued : ∀ token playerId, Opened log token playerId → token ∈ w.sessions.issued
  gone : ∀ pre out rest, log = pre ++ out :: rest → ∀ token playerId, logsOut out.made = some token →
    Opened pre token playerId → Gone c w token ∧ ∀ e ∈ rest, ∀ session : SessionRecord,
      e.made ≠ ⟨.getSession token, .ok session⟩

theorem Revoked.start : Revoked c {} [] where
  sound := .start
  issued token playerId h := by
    obtain ⟨e, he, -⟩ := opened_iff.mp h
    cases he
  gone pre out rest hlog := by simp at hlog

/-- Every session that a login opens has a token of the generator. -/
theorem Revoked.issued_perform (h : Revoked c w log) (i : Nat) (hadmits : admits call o w) {token playerId : String}
    (hopened : Opened (log ++ [⟨i, o, call, (c.perform call o w).1⟩]) token playerId) :
    token ∈ (c.perform call o w).2.sessions.issued := by
  obtain ⟨e, he, htoken, requestId, player, clientType, ttlSeconds, hmade, hplayer⟩ := opened_iff.mp hopened
  rcases List.mem_append.mp he with he | he
  · have hissued := h.issued token playerId
      (opened_iff.mpr ⟨e, he, htoken, requestId, player, clientType, ttlSeconds, hmade, hplayer⟩)
    rcases sessions_perform hadmits with hsame | ⟨op, hstep, -⟩
    · exact hsame ▸ hissued
    · exact World.issued_step hstep hissued
  · obtain rfl := List.mem_singleton.mp he
    obtain rfl : call = _ := hmade
    exact htoken ▸ List.mem_cons_self

/-- **One call.** -/
theorem Revoked.perform (h : Revoked c w log) (i : Nat) (hadmits : admits call o w) :
    Revoked c (c.perform call o w).2 (log ++ [⟨i, o, call, (c.perform call o w).1⟩]) where
  sound := by
    rcases sessions_perform hadmits with hsame | ⟨op, hstep, -⟩
    · exact hsame ▸ h.sound
    · exact h.sound.step hstep
  issued token playerId hopened := h.issued_perform i hadmits hopened
  gone pre out rest hlog token playerId hout hopened := by
    rcases Server.snoc_eq_append_cons hlog with ⟨rfl, rfl, rfl⟩ | ⟨rest', rfl, hold⟩
    · refine ⟨?_, fun e he => by cases he⟩
      obtain ⟨answer, hne, hmade⟩ := logsOut_eq_some hout
      obtain ⟨rfl, hanswer⟩ := Sigma.mk.inj hmade
      exact gone_of_deleteSession h.sound (h.issued token playerId hopened) (eq_of_heq hanswer ▸ hne)
    · obtain ⟨hgone, hnone⟩ := h.gone pre out rest' hold token playerId hout hopened
      refine ⟨hgone.perform h.sound hadmits, fun e he session hmade => ?_⟩
      rcases List.mem_append.mp he with he | he
      · exact hnone e he session hmade
      · obtain rfl := List.mem_singleton.mp he
        obtain ⟨rfl, hanswer⟩ := Sigma.mk.inj hmade
        exact hgone.silent _ _ (eq_of_heq hanswer)

/-- …and between calls. -/
theorem Gone.happen {token : String} (h : Gone c w token) (hsound : World.Sound c.sessions w.sessions)
    (event : GatewayEvent) : Gone c (c.happen event w) token := by
  cases event with
  | elapse ms =>
    have hstep : World.Step c.sessions w.sessions (.elapse ms) (w.sessions.next c.sessions (.elapse ms)) :=
      ⟨trivial, rfl⟩
    exact h.step hsound hstep
  | beginShutdown => exact ⟨h.issued, h.silent⟩
  | room action => exact ⟨h.issued, h.silent⟩

/-- **One event.** -/
theorem Revoked.happen (h : Revoked c w log) (event : GatewayEvent) : Revoked c (c.happen event w) log where
  sound := by
    cases event with
    | elapse ms => exact h.sound.later (Nat.le_add_right _ _)
    | beginShutdown => exact h.sound
    | room action => exact h.sound
  issued token playerId hopened := by
    have hissued := h.issued token playerId hopened
    cases event <;> exact hissued
  gone pre out rest hlog token playerId hout hopened :=
    (h.gone pre out rest hlog token playerId hout hopened).imp_left fun hgone => hgone.happen h.sound event

/-- **In every run** a session behind its logout is gone. -/
theorem revoked_of_run (hrun : Run c.server.Step { world := {} } ops t) : Revoked c t.world t.log :=
  Server.invariant (handle_meets c.service) (I := fun w log => Revoked c w log)
    (fun _ _ i _ _ _ h _ hadmits => h.perform i hadmits) (fun _ _ event h _ => h.happen event) hrun (.nil _) .start

/-- **A logout revokes its token for good** — in every run, behind a logout that took effect no session is found
under its token, and nothing is done for anybody by a request that looks for its session then. -/
theorem logout_revokes (hrun : Run c.server.Step { world := {} } ops t) {pre rest : Log}
    {out : Server.Entry GatewayAnswer Oracle} (hlog : t.log = pre ++ out :: rest) {token playerId : String}
    (hout : logsOut out.made = some token) (hopened : Opened pre token playerId) :
    (∀ e ∈ rest, ∀ session : SessionRecord, e.made ≠ ⟨.getSession token, .ok session⟩) ∧
      ∀ e ∈ rest, ∀ request, t.request? e.thread = some request → request.tokenOf = token →
        actsFor e.made.1 ≠ none → ∃ e' ∈ pre, e'.thread = e.thread ∧ e'.made.1 = .getSession token := by
  have hnone := ((revoked_of_run hrun).gone pre out rest hlog token playerId hout hopened).2
  refine ⟨hnone, fun e he request hrequest htoken hacts => ?_⟩
  obtain ⟨before, after, rfl⟩ := List.append_of_mem he
  obtain ⟨request', hrequest', hmay⟩ := (keeps_of_run hrun).log (pre ++ out :: before) e after (by simp [hlog])
  obtain rfl : request = request' := Option.some.inj (hrequest.symm.trans hrequest')
  obtain ⟨playerId', hplayer⟩ := Option.ne_none_iff_exists'.mp hacts
  obtain ⟨-, session, hread, -⟩ := authorized_of_actsFor hplayer hmay
  obtain ⟨reading, hreading, hthread, hmade⟩ := Server.mem_past.mp hread
  rw [htoken] at hmade
  rcases List.mem_append.mp hreading with hreading | hreading
  · exact ⟨reading, hreading, hthread, by rw [hmade]⟩
  · rcases List.mem_cons.mp hreading with rfl | hreading
    · obtain ⟨answer, -, hdeleted⟩ := logsOut_eq_some hout
      rw [hdeleted] at hmade
      cases hmade
    · exact absurd hmade (hnone reading (List.mem_append_left _ hreading) session)

theorem logout_revokes_aliceVisit :
    ∃ pre out rest, (devGateway.server.after { world := {} } aliceVisit).log = pre ++ out :: rest ∧
      logsOut out.made = some "t1" ∧ Opened pre "t1" "p-0001" ∧
      ((∀ e ∈ rest, ∀ session : SessionRecord, e.made ≠ ⟨.getSession "t1", .ok session⟩) ∧
        ∀ e ∈ rest, ∀ request, (devGateway.server.after { world := {} } aliceVisit).request? e.thread = some request →
          request.tokenOf = "t1" → actsFor e.made.1 ≠ none →
            ∃ e' ∈ pre, e'.thread = e.thread ∧ e'.made.1 = .getSession "t1") := by
  obtain ⟨out, hout, hlog⟩ := exists_split (i := 7) (f := fun e => logsOut e.made)
    (l := (devGateway.server.after { world := {} } aliceVisit).log) (b := some "t1") (by decide +kernel)
  have hopened : Opened ((devGateway.server.after { world := {} } aliceVisit).log.take 7) "t1" "p-0001" := by
    decide +kernel
  exact ⟨_, out, _, hlog, hout, hopened, logout_revokes run_aliceVisit hlog hout hopened⟩

end GatewayConfig

end RealtimeGame.Gateway
