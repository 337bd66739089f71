import RealtimeGame.Gateway.Redis

/-!
# Gateway/SessionStore — login sessions in Redis

A login writes two keys: the session hash of a fresh token, and the mapping from the login's request
id to that token, which makes a repeated login idempotent.  Both live at most as long as the TTL of
the call that wrote them (`createSession`); a logout deletes the session and keeps the mapping
(`deleteSession`).  Each call holds the store's mutex from its first command to its last, but the clock
of the server does not stand still between them.
-/

open Library

namespace RealtimeGame.Gateway

/-- The content of a session. -/
structure SessionRecord where
  token : String
  playerId : String
  clientType : String
  createdAtUnix : Int
  deriving DecidableEq, Repr

/-- The results other than `kOk` of `StoreStatus`; `kOk` comes with a value. -/
inductive StoreStatus
  | notFound
  | unavailable
  deriving DecidableEq, Repr

/-- Seven days: the longest a login's idempotency mapping lives. -/
def kIdempotencyTtlSeconds : Int := 7 * 24 * 60 * 60

/-- The configuration of the store.  The prefix is read from the environment, where no text holds a NUL. -/
structure RedisSessionStore where
  envPrefix : String
  sessionTtlSeconds : Int
  env_plain : cString envPrefix = envPrefix
  ttl_pos : 0 < sessionTtlSeconds

/-- The arguments of one `CreateSession` call, with what the outside world contributes to it: the
token the generator would return, the clock, the fate of each command, and the time before it. -/
structure CreateArgs where
  requestId : String
  playerId : String
  clientType : String
  ttlSeconds : Int
  token : String
  nowUnixSeconds : Int
  fates : Nat → Fate
  waits : Nat → Nat

namespace RedisSessionStore

/-- The constructor: a TTL that is not positive is replaced by a minute. -/
def new (envPrefix : String) (sessionTtlSeconds : Int) (env_plain : cString envPrefix = envPrefix) :
    RedisSessionStore where
  envPrefix := envPrefix
  env_plain := env_plain
  sessionTtlSeconds := if 0 < sessionTtlSeconds then sessionTtlSeconds else 60
  ttl_pos := by split <;> omega

variable (s : RedisSessionStore)

def keyForSession (token : String) : String := s.envPrefix ++ ":gateway:session:" ++ token

def keyForLoginIdempotency (requestId : String) : String :=
  s.envPrefix ++ ":gateway:idem:login:" ++ requestId

/-- The TTL of a call: its own when positive, else the store's. -/
def ttlOf (a : CreateArgs) : Int := if 0 < a.ttlSeconds then a.ttlSeconds else s.sessionTtlSeconds

/-- The TTL of the mapping. -/
def idemTtlOf (a : CreateArgs) : Int :=
  if s.ttlOf a < kIdempotencyTtlSeconds then s.ttlOf a else kIdempotencyTtlSeconds

/-- The hash fields of a new session. -/
def sessionFields (a : CreateArgs) : List (String × String) :=
  [("token", a.token), ("player_id", a.playerId), ("client_type", a.clientType),
    ("created_at", toString a.nowUnixSeconds)]

/-- `SET NX` found the mapping taken: drop the session just written and return the winner's. -/
def loseRace (a : CreateArgs) (v : RedisServer) : Except StoreStatus String × RedisServer :=
  match executeCommand (a.fates 4) (a.waits 4) (.get (s.keyForLoginIdempotency a.requestId)) v with
  | (none, v) => (.error .unavailable, v)
  | (some reply, v) =>
    match (replyAsString reply).filter (· ≠ "") with
    | none => (.error .unavailable, v)
    | some winner => (.ok winner, (executeCommand (a.fates 5) (a.waits 5) (.del (s.keyForSession a.token)) v).2)

/-- The second and third step of `CreateSession`: the session, its deadline, then the mapping. -/
def createFresh (a : CreateArgs) (v : RedisServer) : Except StoreStatus String × RedisServer :=
  match executeCommand (a.fates 1) (a.waits 1) (.hset (s.keyForSession a.token) (sessionFields a)) v with
  | (none, v) => (.error .unavailable, v)
  | (some _, v) =>
    match executeCommand (a.fates 2) (a.waits 2) (.expire (s.keyForSession a.token) (s.ttlOf a)) v with
    | (none, v) => (.error .unavailable, v)
    | (some _, v) =>
      match executeCommand (a.fates 3) (a.waits 3)
        (.setExNx (s.keyForLoginIdempotency a.requestId) a.token (s.idemTtlOf a)) v with
      | (none, v) => (.error .unavailable, v)
      | (some reply, v) => if reply = .status then (.ok a.token, v) else s.loseRace a v

/-- **`CreateSession`** — a request id that is already mapped to a token gets that token. -/
def createSession (a : CreateArgs) (v : RedisServer) : Except StoreStatus String × RedisServer :=
  match executeCommand (a.fates 0) (a.waits 0) (.get (s.keyForLoginIdempotency a.requestId)) v with
  | (none, v) => (.error .unavailable, v)
  | (some reply, v) =>
    match (replyAsString reply).filter (· ≠ "") with
    | some existing => (.ok existing, v)
    | none => s.createFresh a v

/-- The record in the four elements of an `HMGET` reply.  The fourth is only ever written as the
decimal text of a clock value, so `std::stoll` reads it back. -/
def parseSession : List (Option String) → Except StoreStatus SessionRecord
  | [none, _, _, _] => .error .notFound
  | [some token, some playerId, some clientType, createdAt] =>
    .ok ⟨token, playerId, clientType, (createdAt.bind String.toInt?).getD 0⟩
  | _ => .error .unavailable

/-- `GetSession`. -/
def getSession (fate : Fate) (token : String) (v : RedisServer) : Except StoreStatus SessionRecord :=
  match (executeCommand fate 0
    (.hmget (s.keyForSession token) ["token", "player_id", "client_type", "created_at"]) v).1 with
  | some (.array elements) => parseSession elements
  | _ => .error .unavailable

/-- `DeleteSession`: the idempotency mapping is deliberately left alone. -/
def deleteSession (fates : Nat → Fate) (waits : Nat → Nat) (token : String) (v : RedisServer) :
    Except StoreStatus Unit × RedisServer :=
  match executeCommand (fates 0) (waits 0) (.exists (s.keyForSession token)) v with
  | (none, v) => (.error .unavailable, v)
  | (some existed, v) =>
    match executeCommand (fates 1) (waits 1) (.del (s.keyForSession token)) v with
    | (none, v) => (.error .unavailable, v)
    | (some _, v) => (if existed = .integer 1 then .ok () else .error .notFound, v)

/-! ## Keys

The two kinds of key as they are sent.  The prefix is whole, so only the token or the request id is cut, and the
two kinds never meet. -/

/-- The key of a session on the wire. -/
def sessionKey (token : String) : String := cString (s.keyForSession token)

/-- The key of a mapping on the wire. -/
def idemKey (requestId : String) : String := cString (s.keyForLoginIdempotency requestId)

/-- The end of a session key is the token, as far as it is sent, -/
theorem sessionKey_eq (token : String) :
    s.sessionKey token = s.envPrefix ++ (":gateway:session:" ++ cString token) := by
  rw [sessionKey, keyForSession, String.append_assoc, cString_append s.env_plain, cString_append (by decide)]

/-- …and that of a mapping the request id. -/
theorem idemKey_eq (requestId : String) :
    s.idemKey requestId = s.envPrefix ++ (":gateway:idem:login:" ++ cString requestId) := by
  rw [idemKey, keyForLoginIdempotency, String.append_assoc, cString_append s.env_plain,
    cString_append (by decide)]

/-- Two tokens have one key if they agree before their first NUL. -/
@[simp] theorem sessionKey_inj {t t' : String} : s.sessionKey t = s.sessionKey t' ↔ cString t = cString t' := by
  simp [sessionKey_eq]

/-- A session key is never an idempotency key. -/
theorem sessionKey_ne_idemKey (t requestId : String) : s.sessionKey t ≠ s.idemKey requestId := by
  intro h
  rw [sessionKey_eq, idemKey_eq, String.append_right_inj] at h
  simpa using congrArg String.toList h

/-! ## Lifetimes

Both lifetimes are positive, and the mapping is never given the longer one. -/

theorem ttlOf_pos (a : CreateArgs) : 0 < s.ttlOf a := by
  unfold ttlOf
  split
  · assumption
  · exact s.ttl_pos

theorem idemTtlOf_pos (a : CreateArgs) : 0 < s.idemTtlOf a := by
  unfold idemTtlOf
  split
  · exact s.ttlOf_pos a
  · decide

/-- The mapping is not given longer than the session written with it. -/
theorem idemTtlOf_le (a : CreateArgs) : s.idemTtlOf a ≤ s.ttlOf a := by
  unfold idemTtlOf
  split <;> omega

end RedisSessionStore

end RealtimeGame.Gateway
