import Mathlib.Data.List.TakeWhile
import RealtimeGame.Library.Expiring

/-!
# Gateway/Redis — the commands the session store sends, over a key-value store with TTLs

One command is one atomic step of the server (`Redis.exec`), at a time of its own: between two commands
of one call the clock goes on (`RedisServer`).  The client sees a reply, or none at all: a command whose
connection fails is lost before or after it took effect (`Fate`), and the code gets a null pointer either
way.  An argument reaches the server as far as its first NUL (`cString`).
-/

open Library

namespace RealtimeGame.Gateway

/-- What a key holds. -/
inductive RedisValue
  | string (s : String)
  | hash (fields : Table String String)

/-- Milliseconds of server time; every key may carry a deadline. -/
abbrev Redis := Expiring String RedisValue

/-- The commands of `RedisSessionStore`; the TTL of `EXPIRE` and of `SET … EX` is in seconds. -/
inductive Command
  | get (key : String)
  | hset (key : String) (fields : List (String × String))
  | expire (key : String) (ttl : Int)
  | setExNx (key value : String) (ttl : Int)
  | exists (key : String)
  | del (key : String)
  | hmget (key : String) (fields : List String)

/-- `redisReply`, by its type tag. -/
inductive Reply
  | nil
  | status
  | string (s : String)
  | integer (n : Int)
  | array (elements : List (Option String))
  | error
  deriving DecidableEq, Repr

namespace Redis

/-- `HSET`: the given fields are set, the others stay. -/
def setFields (fields : List (String × String)) (h : Table String String) : Table String String :=
  fields.foldl (fun h f => h.insert f.1 f.2) h

/-- The deadline of a TTL given in seconds. -/
def deadline (now : Nat) (ttl : Int) : Nat := now + 1000 * ttl.toNat

/-- **One command, executed by the server.** -/
def exec (now : Nat) : Command → Redis → Reply × Redis
  | .get key, r =>
    match r.get now key with
    | none => (.nil, r)
    | some (.string s) => (.string s, r)
    | some (.hash _) => (.error, r)
  | .hset key fields, r =>
    match r.peek now key with
    | none => (.integer fields.length, r.insert key ⟨.hash (setFields fields ∅), none⟩)
    | some ⟨.hash h, d⟩ =>
      (.integer (fields.filter fun f => (h.lookup f.1).isNone).length,
        r.insert key ⟨.hash (setFields fields h), d⟩)
    | some ⟨.string _, _⟩ => (.error, r)
  | .expire key ttl, r =>
    match r.peek now key with
    | none => (.integer 0, r)
    | some e =>
      if ttl ≤ 0 then (.integer 1, r.erase key)
      else (.integer 1, r.insert key { e with expiresAt := some (deadline now ttl) })
  | .setExNx key value ttl, r =>
    if ttl ≤ 0 then (.error, r)
    else
      match r.peek now key with
      | none => (.status, r.insert key ⟨.string value, some (deadline now ttl)⟩)
      | some _ => (.nil, r)
  | .exists key, r => (.integer (if (r.peek now key).isSome then 1 else 0), r)
  | .del key, r => (.integer (if (r.peek now key).isSome then 1 else 0), r.erase key)
  | .hmget key fields, r =>
    match r.get now key with
    | none => (.array (fields.map fun _ => none), r)
    | some (.hash h) => (.array (fields.map h.lookup), r)
    | some (.string _) => (.error, r)

end Redis

/-! ## The connection

The format of `redisvCommand` takes its arguments by `%s` from `c_str()`: what stands behind a NUL is not sent, of
a key as well as of a value. -/

/-- The text that C reads at `c_str()`. -/
def cString (s : String) : String := String.ofList (s.toList.takeWhile (· ≠ Char.ofNat 0))

/-- A command as `redisvCommand` puts it on the wire. -/
def Command.sent : Command → Command
  | .get key => .get (cString key)
  | .hset key fields => .hset (cString key) (fields.map fun f => (f.1, cString f.2))
  | .expire key ttl => .expire (cString key) ttl
  | .setExNx key value ttl => .setExNx (cString key) (cString value) ttl
  | .exists key => .exists (cString key)
  | .del key => .del (cString key)
  | .hmget key fields => .hmget (cString key) fields

/-- What becomes of one command on the wire. -/
inductive Fate
  | answered
  | requestLost
  | replyLost
  deriving DecidableEq, Repr

/-- The server with its clock. -/
structure RedisServer where
  redis : Redis
  now : Nat

namespace RedisServer

/-- The server has executed a command. -/
def exec (v : RedisServer) (c : Command) : Reply × RedisServer :=
  ((v.redis.exec v.now c).1, { v with redis := (v.redis.exec v.now c).2 })

/-- Time passes. -/
def wait (v : RedisServer) (ms : Nat) : RedisServer := { v with now := v.now + ms }

@[simp] theorem wait_redis (v : RedisServer) (ms : Nat) : (v.wait ms).redis = v.redis := rfl
@[simp] theorem wait_now (v : RedisServer) (ms : Nat) : (v.wait ms).now = v.now + ms := rfl

end RedisServer

/-- `ExecuteCommand`, some time after the one before: the reply, `none` for the null pointer of a failed
connection. -/
def executeCommand (fate : Fate) (ms : Nat) (c : Command) (v : RedisServer) : Option Reply × RedisServer :=
  match fate with
  | .answered => (some ((v.wait ms).exec c.sent).1, ((v.wait ms).exec c.sent).2)
  | .requestLost => (none, v.wait ms)
  | .replyLost => (none, ((v.wait ms).exec c.sent).2)

/-- `ReplyAsString`. -/
def replyAsString : Reply → Option String
  | .string s => some s
  | .status => some "OK"
  | _ => none

/-! ## Where a C string ends

Keys and values are written with `%s`. -/

/-- A text is cut at its first NUL. -/
theorem toList_cString (s : String) : (cString s).toList = s.toList.takeWhile (· ≠ Char.ofNat 0) :=
  String.toList_ofList

/-- A text is sent whole if there is no NUL in it. -/
theorem cString_eq_self {s : String} : cString s = s ↔ ∀ c ∈ s.toList, c ≠ Char.ofNat 0 := by
  rw [← String.toList_inj, toList_cString, List.takeWhile_eq_self_iff]
  simp only [ne_eq, decide_eq_true_eq]

/-- Only the end of a key can be cut off. -/
theorem cString_append {p : String} (hp : cString p = p) (s : String) : cString (p ++ s) = p ++ cString s := by
  rw [← String.toList_inj, toList_cString, String.toList_append, String.toList_append, toList_cString,
    List.takeWhile_append_of_pos fun c hc => decide_eq_true (cString_eq_self.mp hp c hc)]

/-! ## What each command reads

Reading leaves the store as it is, and a deletion is one. -/

namespace Redis

variable {now : Nat} {r : Redis}

@[simp] theorem exec_get_snd (key : String) : (r.exec now (.get key)).2 = r := by
  simp only [exec]
  split <;> rfl

@[simp] theorem exec_exists_snd (key : String) : (r.exec now (.exists key)).2 = r := rfl

@[simp] theorem exec_del_snd (key : String) : (r.exec now (.del key)).2 = r.erase key := rfl

/-- A string is replied for a key that holds one. -/
theorem replyAsString_exec_get {key s : String} :
    replyAsString (r.exec now (.get key)).1 = some s ↔ r.get now key = some (.string s) := by
  simp only [exec]
  split <;> simp_all [replyAsString]

end Redis

end RealtimeGame.Gateway
