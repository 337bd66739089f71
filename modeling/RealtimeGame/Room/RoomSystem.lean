import RealtimeGame.Room.RoomManager

/-!
# Room/RoomSystem — concurrent calls on one registry, at the granularity of its lock

A call that leaves the lock is a thread: a program counter that holds what the code has in its local
variables.  One action runs one critical section, or one call to a store, of one thread; everything
between two actions may be any other thread's.  A store answers as it likes.
-/

open Library

namespace RealtimeGame.Room

/-! ## Calls to the stores

What is asked of MySQL, and what it may answer. -/

/-- What becomes of one write to MySQL: stored and reported, stored and not reported, not stored. -/
inductive StoreReply
  | done
  | lost
  | refused
  deriving DecidableEq, Repr

namespace StoreReply

/-- The caller sees `kOk`. -/
def ok (reply : StoreReply) : Bool := reply = .done

/-- The row is there. -/
def stored (reply : StoreReply) : Bool := reply ≠ .refused

end StoreReply

/-- The answer of `MatchResultWriter::Read`; `kOk` comes with the record. -/
inductive ReadAnswer
  | ok (record : MatchResultRecord)
  | notFound
  | unavailable
  deriving DecidableEq, Repr

/-- What `GetResult` makes of it. -/
def ReadAnswer.toOutcome : ReadAnswer → ResultOutcome
  | ok record => .ok record
  | notFound => .notFound
  | unavailable => .unavailable

/-- The calls to the stores, with their answers, and the returns of `GetResult`. -/
inductive Event
  | write (record : MatchResultRecord) (reply : StoreReply)
  | save (record : RoomSnapshotRecord) (reply : StoreReply)
  | read (matchId : String) (answer : ReadAnswer)
  | result (matchId : String) (outcome : ResultOutcome)
  deriving DecidableEq, Repr

/-- What the store a thread calls next would answer. -/
structure Answer where
  reply : StoreReply := .done
  read : ReadAnswer := .notFound
  deriving DecidableEq, Repr

/-! ## Threads

A program counter for each point at which the lock is left. -/

/-- Where a call stands after its first critical section. -/
inductive Pc
  /-- `FlushSnapshots`, then the results of `toPersist`. -/
  | flush (nowMs : Int) (records : List RoomSnapshotRecord) (succeeded failed : Nat)
      (toPersist : List String)
  /-- Before the lock under which the next result is read. -/
  | persist (nowMs : Int) (toPersist : List String)
  /-- Before `Write`. -/
  | write (nowMs : Int) (roomId : String) (record : MatchResultRecord) (toPersist : List String)
  /-- After `Write`, before the second lock. -/
  | commit (nowMs : Int) (roomId : String) (record : MatchResultRecord) (ok : Bool)
      (toPersist : List String)
  /-- `GetResult`, before `Read`. -/
  | read (matchId : String)
  /-- `RejectSnapshots`. -/
  | reject (records : List RoomSnapshotRecord)
  | done
  deriving DecidableEq, Repr

/-- Into `FlushSnapshots`, which returns at once when there is nothing to write. -/
def Pc.afterLock (nowMs : Int) (pending : RoomManager.Pending) : Pc :=
  if pending.snapshots = [] then .persist nowMs pending.toPersist
  else .flush nowMs pending.snapshots 0 0 pending.toPersist

/-- One critical section, or one call to a store, of a thread. -/
def Pc.resume (stores : RoomStores) (answer : Answer) (m : RoomManager) :
    Pc → Pc × RoomManager × List Event
  | .flush nowMs (record :: records) succeeded failed toPersist =>
    (if answer.reply.ok then .flush nowMs records (succeeded + 1) failed toPersist
      else .flush nowMs records succeeded (failed + 1) toPersist,
      m, [.save record answer.reply])
  | .flush nowMs [] succeeded failed toPersist =>
    (.persist nowMs toPersist, m.countSnapshots succeeded failed, [])
  | .persist _ [] => (.done, m, [])
  | .persist nowMs (roomId :: toPersist) =>
    match m.pendingRecord roomId with
    | some record => (.write nowMs roomId record toPersist, m, [])
    | none => (.persist nowMs toPersist, m, [])
  | .write nowMs roomId record toPersist =>
    if stores.hasWriter then
      (.commit nowMs roomId record answer.reply.ok toPersist, m, [.write record answer.reply])
    else (.commit nowMs roomId record false toPersist, m, [])
  | .commit nowMs roomId _ ok toPersist =>
    (.persist nowMs toPersist, m.commitResult nowMs roomId ok, [])
  | .read matchId =>
    if stores.hasWriter then
      (.done, m, [.read matchId answer.read, .result matchId answer.read.toOutcome])
    else (.done, m, [.result matchId .unavailable])
  | .reject (record :: records) => (.reject records, m, [.save record answer.reply])
  | .reject [] => (.done, m, [])
  | .done => (.done, m, [])

/-! ## The system

The registry and the threads. -/

/-- The registry, its threads, and two histories that no code reads: the room ids handed out, with
the match each was for, and the calls to the stores, oldest first. -/
structure RoomSystem where
  manager : RoomManager := {}
  threads : List Pc := []
  created : Table String String := ∅
  log : List Event := []

/-- The calls of the clients and of the timer, and the steps of the threads they leave behind. -/
inductive Action
  | create (matchId : String) (playerIds : List String) (nowMs : Int) (roomId : String)
  | join (roomId playerId : String) (nowMs : Int)
  | submitInput (roomId playerId : String) (kind : InputKind)
  | setPresence (roomId playerId : String) (online : Bool) (nowMs : Int)
  | getState (roomId : String) (nowMs : Int)
  | getSnapshotsSince (roomId : String) (sinceFrame nowMs : Int)
  | getResult (matchId : String) (nowMs : Int)
  | tick (nowMs : Int)
  | abortUnfinishedGames (nowMs : Int)
  | beginShutdown
  | resume (thread : Nat) (answer : Answer)
  deriving DecidableEq, Repr

namespace RoomSystem

variable (stores : RoomStores) (s : RoomSystem)

/-- Does this `Create` make a new room? -/
def makesRoom (m : RoomManager) (matchId : String) (playerIds : List String) (nowMs : Int)
    (roomId : String) : Bool :=
  (m.create nowMs matchId playerIds roomId).1 = .ok &&
    ((m.matchIndex.lookup matchId).bind m.rooms.lookup).isNone

/-- **One action.** -/
def next : Action → RoomSystem
  | .create matchId playerIds nowMs roomId =>
    { s with
      manager := (s.manager.create nowMs matchId playerIds roomId).2.2
      created := if makesRoom s.manager matchId playerIds nowMs roomId then
          s.created.insert roomId matchId else s.created }
  | .join roomId playerId nowMs =>
    { s with manager := (s.manager.join nowMs roomId playerId).2 }
  | .submitInput roomId playerId kind =>
    { s with manager := (s.manager.submitInput roomId playerId kind).2 }
  | .setPresence roomId playerId online nowMs =>
    { s with manager := (s.manager.setPresence nowMs roomId playerId online).2 }
  | .getState roomId nowMs => { s with manager := (s.manager.getState nowMs roomId).2 }
  | .getSnapshotsSince roomId sinceFrame nowMs =>
    { s with manager := (s.manager.getSnapshotsSince nowMs roomId sinceFrame).2 }
  | .getResult matchId nowMs =>
    if !validId matchId then { s with log := s.log ++ [.result matchId .notFound] }
    else
      match s.manager.getResultLocked nowMs matchId with
      | (.answered outcome, m) => { s with manager := m, log := s.log ++ [.result matchId outcome] }
      | (.readStore, m) => { s with manager := m, threads := s.threads ++ [.read matchId] }
  | .tick nowMs =>
    { s with
      manager := (s.manager.tickLocked nowMs stores).2
      threads := s.threads ++ [.afterLock nowMs (s.manager.tickLocked nowMs stores).1] }
  | .abortUnfinishedGames nowMs =>
    { s with
      manager := (s.manager.abortUnfinishedLocked nowMs).2
      threads := s.threads ++ [if stores.hasSnapshotWriter then
        .afterLock nowMs (s.manager.abortUnfinishedLocked nowMs).1 else .done] }
  | .beginShutdown => { s with manager := s.manager.beginShutdown }
  | .resume thread answer =>
    match s.threads[thread]? with
    | none => s
    | some pc =>
      { s with
        manager := (pc.resume stores answer s.manager).2.1
        threads := s.threads.set thread (pc.resume stores answer s.manager).1
        log := s.log ++ (pc.resume stores answer s.manager).2.2 }

/-- The room id generator returns ids it never returned before. -/
def Fresh : Action → Prop
  | .create _ _ _ roomId => roomId ∉ s.created
  | _ => True

instance : DecidablePred s.Fresh
  | .create _ _ _ roomId => inferInstanceAs (Decidable (roomId ∉ s.created))
  | .join .. | .submitInput .. | .setPresence .. | .getState .. | .getSnapshotsSince ..
  | .getResult .. | .tick .. | .abortUnfinishedGames .. | .beginShutdown | .resume .. =>
    .isTrue trivial

/-- One step of a run. -/
def Step (s : RoomSystem) (a : Action) (s' : RoomSystem) : Prop := s.Fresh a ∧ s' = s.next stores a

end RoomSystem

end RealtimeGame.Room
