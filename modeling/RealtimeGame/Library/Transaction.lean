import Mathlib.Data.List.Basic

/-!
# Library/Transaction — a pipeline of requests to a server that applies all writes or none

Between `start` and `commit` a write is only collected; `commit` applies what was collected, unless a request
was refused since.  Where `start` itself is refused, each write is applied at once (`run_transaction`).

The client sends all requests and reads all answers afterwards, over a connection that may break at any point:
the server serves some first part of the requests, and some first part of its answers comes back.
-/

namespace Library

namespace Transaction

variable {σ α : Type*}

inductive Request (α : Type*)
  | start
  | write (a : α)
  | commit

inductive Reply
  | done
  | queued
  | error
  deriving DecidableEq, Repr

/-- One connection, as the server sees it. -/
structure Session (σ α : Type*) where
  content : σ
  /-- The writes collected since `start`, and whether a request has been refused since. -/
  opened : Option (List α × Bool) := none

namespace Session

variable (apply : σ → α → σ)

/-- One request, refused or not. -/
def serve (refused : Bool) (s : Session σ α) : Request α → Reply × Session σ α
  | .start =>
    match s.opened with
    | none => if refused then (.error, s) else (.done, ⟨s.content, some ([], false)⟩)
    | some _ => (.error, s)
  | .write a =>
    match s.opened with
    | none => if refused then (.error, s) else (.done, ⟨apply s.content a, none⟩)
    | some (writes, spoiled) =>
      if refused then (.error, ⟨s.content, some (writes, true)⟩)
      else (.queued, ⟨s.content, some (writes ++ [a], spoiled)⟩)
  | .commit =>
    match s.opened with
    | none => (.error, s)
    | some (writes, spoiled) =>
      if refused || spoiled then (.error, ⟨s.content, none⟩)
      else (.done, ⟨writes.foldl apply s.content, none⟩)

/-- All requests, one after the other; `refuses i` says whether the request number `i` is refused. -/
def run (refuses : Nat → Bool) : List (Request α) → Session σ α → List Reply × Session σ α
  | [], s => ([], s)
  | request :: requests, s =>
    ((s.serve apply (refuses 0) request).1 ::
      (run (fun i => refuses (i + 1)) requests (s.serve apply (refuses 0) request).2).1,
      (run (fun i => refuses (i + 1)) requests (s.serve apply (refuses 0) request).2).2)

end Session

/-- The writes that are not refused. -/
def accepted (refuses : Nat → Bool) : List α → List α
  | [] => []
  | a :: as =>
    if refuses 0 then accepted (fun i => refuses (i + 1)) as else a :: accepted (fun i => refuses (i + 1)) as

/-- The writes, as one transaction. -/
def transaction (writes : List α) : List (Request α) := .start :: (writes.map .write ++ [.commit])

/-- The two requests around the writes are counted, too. -/
theorem length_transaction (writes : List α) : (transaction writes).length = writes.length + 2 := by
  rw [transaction, List.length_cons, List.length_append, List.length_map, List.length_singleton]

/-! ## What the server makes of a transaction

Inside of it the writes are only collected, so one refused request spoils them all; where its start was
refused there is no inside, and each write counts for itself. -/

section

variable {apply : σ → α → σ} {refuses : Nat → Bool}

/-- Every request has its reply. -/
@[simp] theorem length_run (requests : List (Request α)) (s : Session σ α) :
    (s.run apply refuses requests).1.length = requests.length := by
  induction requests generalizing s refuses with
  | nil => rfl
  | cons request requests ih => rw [Session.run, List.length_cons, List.length_cons, ih]

/-- Requests that follow one another. -/
theorem run_append (requests requests' : List (Request α)) (s : Session σ α) :
    (s.run apply refuses (requests ++ requests')).2 =
      ((s.run apply refuses requests).2.run apply (fun i => refuses (i + requests.length)) requests').2 := by
  induction requests generalizing s refuses with
  | nil => rfl
  | cons request requests ih =>
    rw [List.cons_append, Session.run, Session.run, ih]
    simp only [List.length_cons, Nat.add_assoc]

theorem any_range_succ (n : Nat) :
    (List.range (n + 1)).any refuses = (refuses 0 || (List.range n).any fun i => refuses (i + 1)) := by
  rw [List.range_succ_eq_map, List.any_cons, List.any_map]
  rfl

/-- Where nothing is refused everything is accepted. -/
theorem accepted_of_not_any {as : List α} (h : (List.range as.length).any refuses = false) :
    accepted refuses as = as := by
  induction as generalizing refuses with
  | nil => rfl
  | cons a as ih =>
    rw [List.length_cons, any_range_succ, Bool.or_eq_false_iff] at h
    rw [accepted, h.1, if_neg Bool.false_ne_true, ih h.2]

/-- Inside a transaction, writes are collected. -/
theorem run_writes_opened (as writes : List α) (spoiled : Bool) (x : σ) :
    (Session.run apply refuses (as.map .write) ⟨x, some (writes, spoiled)⟩).2 =
      ⟨x, some (writes ++ accepted refuses as, spoiled || (List.range as.length).any refuses)⟩ := by
  induction as generalizing refuses writes spoiled with
  | nil => simp only [List.map_nil, Session.run, accepted, List.append_nil, List.length_nil, List.range_zero,
      List.any_nil, Bool.or_false]
  | cons a as ih =>
    rw [List.map_cons, Session.run, List.length_cons, any_range_succ]
    rcases hrefused : refuses 0 with - | -
    · simp only [Session.serve, Bool.false_eq_true, if_false, ih, accepted, hrefused, List.append_assoc,
        List.singleton_append, Bool.false_or]
    · simp only [Session.serve, if_true, ih, accepted, hrefused, Bool.true_or, Bool.or_true]

/-- Outside of one, they are applied. -/
theorem run_writes_closed (as : List α) (x : σ) :
    (Session.run apply refuses (as.map .write) ⟨x, none⟩).2 = ⟨(accepted refuses as).foldl apply x, none⟩ := by
  induction as generalizing refuses x with
  | nil => rfl
  | cons a as ih =>
    rw [List.map_cons, Session.run]
    rcases hrefused : refuses 0 with - | -
    · simp only [Session.serve, Bool.false_eq_true, if_false, ih, accepted, hrefused, List.foldl_cons]
    · simp only [Session.serve, if_true, ih, accepted, hrefused]

/-- **All writes, or none** — unless `start` is refused: then it is the writes that are not refused. -/
theorem run_transaction (as : List α) (x : σ) :
    (Session.run apply refuses (transaction as) ⟨x, none⟩).2 =
      ⟨if refuses 0 then (accepted (fun i => refuses (i + 1)) as).foldl apply x
        else if (List.range (as.length + 2)).any refuses then x else as.foldl apply x, none⟩ := by
  rw [transaction, Session.run, run_append, List.length_map]
  rcases hstart : refuses 0 with - | -
  · simp only [Session.serve, Bool.false_eq_true, if_false, run_writes_opened, List.nil_append, Session.run]
    have hany : (List.range (as.length + 2)).any refuses =
        (refuses (as.length + 1) || (List.range as.length).any fun i => refuses (i + 1)) := by
      rw [List.range_succ, List.any_append, List.any_cons, List.any_nil, Bool.or_false, any_range_succ, hstart,
        Bool.false_or, Bool.or_comm]
    rw [hany, Nat.zero_add]
    rcases hrest : (List.range as.length).any fun i => refuses (i + 1) with - | -
    · rcases hcommit : refuses (as.length + 1) with - | -
      · simp only [Bool.or_self, Bool.false_eq_true, if_false, accepted_of_not_any hrest]
      · simp only [Bool.or_false, if_true]
    · simp only [Bool.or_true, if_true]
  · simp only [Session.serve, if_true, run_writes_closed, Session.run]

end

/-! ## The connection

It may break behind any request and any reply, and the client sees only how many replies came. -/

/-- What a connection does to a pipeline. -/
structure Wire where
  connected : Bool
  refuses : Nat → Bool
  /-- How many requests the server gets. -/
  served : Nat
  /-- How many answers the client gets. -/
  answered : Nat

namespace Wire

variable (wire : Wire) (apply : σ → α → σ) (requests : List (Request α)) (x : σ)

/-- The answers that come back, and what is then stored; a transaction that is still open is forgotten. -/
def exchange : List Reply × σ :=
  ((Session.run apply wire.refuses (requests.take wire.served) ⟨x, none⟩).1.take wire.answered,
    (Session.run apply wire.refuses (requests.take wire.served) ⟨x, none⟩).2.content)

/-- As many replies arrive as the connection lets through. -/
theorem length_exchange :
    (wire.exchange apply requests x).1.length = min wire.answered (min wire.served requests.length) := by
  rw [exchange, List.length_take, length_run, List.length_take]

/-- Where all requests are served, the server has made of them what it makes of them. -/
theorem exchange_of_served {requests : List (Request α)} (h : requests.length ≤ wire.served) :
    (wire.exchange apply requests x).2 = (Session.run apply wire.refuses requests ⟨x, none⟩).2.content := by
  rw [exchange, List.take_of_length_le h]

end Wire

end Transaction

end Library
