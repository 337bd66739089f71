import RealtimeGame.Library.Transaction
import RealtimeGame.Match.SaveRestore

/-!
# Match/RedisMatchQueueStore — the queue is saved as one transaction, and the replies are not read

`Save` replaces the list at the key of the queue by `MULTI`, `DEL`, one `RPUSH` for each line, and `EXEC`, all in
one pipeline; it counts the replies and frees them unread.  So it reports success also where the server has
refused a command and changed nothing: `truthful_iff` says when what it reports is true.
-/

open Library Library.Transaction

namespace RealtimeGame.Match

/-! ## What is at the key

A list, nothing, or something else, which the commands of a list refuse. -/

/-- What is at the key of the queue; where there is nothing, it is the empty list. -/
inductive Content
  | list (lines : List (List UInt8))
  | other
  deriving DecidableEq

/-- The commands that change it. -/
inductive Write
  | del
  | rpush (line : List UInt8)

/-- `RPUSH` appends to lists only. -/
def Content.apply : Content → Write → Content
  | _, .del => .list []
  | .list lines, .rpush line => .list (lines ++ [line])
  | .other, .rpush _ => .other

/-- `LRANGE key 0 -1`: the elements, and nothing for a reply that is no array. -/
def Content.lrange (refused : Bool) : Content → Option (List (Option (List UInt8)))
  | .list lines => if refused then none else some (lines.map some)
  | .other => none

namespace RedisMatchQueueStore

open MatchQueueStore

/-- The entries that can be encoded, line by line. -/
def lines (snapshot : MatchQueueSnapshot) : List (List UInt8) :=
  (snapshot.queued ++ snapshot.matched).filterMap encodeMatchQueueEntry

/-- `push_replies`: is a reply missing? -/
def pushReplies : Nat → List Reply → Bool
  | 0, _ => false
  | _ + 1, [] => true
  | expected + 1, _ :: replies => pushReplies expected replies

/-- **`Save`**, with what is at the key afterwards. -/
def save (wire : Wire) (snapshot : MatchQueueSnapshot) (content : Content) : Bool × Content :=
  if !wire.connected then (false, content)
  else
    let requests := transaction (.del :: (lines snapshot).map .rpush)
    let (replies, content) := wire.exchange Content.apply requests content
    (!pushReplies ((lines snapshot).length + 3) replies, content)

/-- An element that is no string is a row that cannot be used. -/
def rowOf : Option (List UInt8) → MatchQueueSnapshotRow
  | none => ⟨.queued "" 0, "Key 中的元素不是字符串（被别的写入者污染？）"⟩
  | some line => decodeMatchQueueEntry line

/-- **`Load`**: nothing without a connection, a reply, or an array. -/
def load (wire : Wire) (content : Content) : Option (List MatchQueueSnapshotRow) :=
  if !wire.connected then none
  else if wire.served = 0 ∨ wire.answered = 0 then none
  else (content.lrange (wire.refuses 0)).map (·.map rowOf)

/-! ## When a save is truthful

What it reports against what the server did. -/

/-- The entries that can be encoded. -/
def encodable (snapshot : MatchQueueSnapshot) : List MatchQueueEntry :=
  (snapshot.queued ++ snapshot.matched).filter fun entry => (validateEntry entry).isNone

/-- One command is sent, obeyed and answered. -/
def unharmed (wire : Wire) : Bool :=
  wire.connected && wire.served ≠ 0 && wire.answered ≠ 0 && !wire.refuses 0

/-- **A success is true**: the lines of the snapshot are at the key, and whoever loads them gets its entries. -/
def Truthful (wire : Wire) (snapshot : MatchQueueSnapshot) (content : Content) : Prop :=
  (save wire snapshot content).1 = true →
    (save wire snapshot content).2 = .list (lines snapshot) ∧
    ∀ wire', load wire' (save wire snapshot content).2 =
      if unharmed wire' then some ((encodable snapshot).map fun entry => ⟨entry, ""⟩) else none

/-- All commands reach the server, and all replies come back. -/
def Complete (wire : Wire) (snapshot : MatchQueueSnapshot) : Prop :=
  wire.connected = true ∧ (lines snapshot).length + 3 ≤ wire.served ∧ (lines snapshot).length + 3 ≤ wire.answered

/-- **What the server must do.**  If it opens the transaction, it refuses nothing, or the lines are there already.
If not, it obeys each command at once: what `DEL` leaves there, and the lines that it takes, must be all lines. -/
def Obeys (wire : Wire) (snapshot : MatchQueueSnapshot) (content : Content) : Prop :=
  if wire.refuses 0 then
    ∃ kept, (if wire.refuses 1 then content = .list kept else kept = []) ∧
      kept ++ accepted (fun i => wire.refuses (i + 2)) (lines snapshot) = lines snapshot
  else (∀ i < (lines snapshot).length + 3, wire.refuses i = false) ∨ content = .list (lines snapshot)

/-! ## The commands of a save

One after the other, each with its reply. -/

theorem pushReplies_eq {expected : Nat} {replies : List Reply} :
    pushReplies expected replies = decide (replies.length < expected) := by
  induction expected generalizing replies with
  | zero => rfl
  | succ expected ih =>
    rcases replies with - | ⟨reply, replies⟩
    · rfl
    · rw [pushReplies, ih, List.length_cons]
      exact decide_eq_decide.mpr (Nat.succ_lt_succ_iff).symm

theorem foldl_rpush (kept added : List (List UInt8)) :
    (added.map Write.rpush).foldl Content.apply (.list kept) = .list (kept ++ added) := by
  induction added generalizing kept with
  | nil => rw [List.map_nil, List.foldl_nil, List.append_nil]
  | cons line added ih =>
    rw [List.map_cons, List.foldl_cons, Content.apply, ih, List.append_assoc, List.singleton_append]

theorem foldl_rpush_other (added : List (List UInt8)) :
    (added.map Write.rpush).foldl Content.apply .other = .other := by
  induction added with
  | nil => rfl
  | cons line added ih => exact ih

theorem accepted_map {α β : Type*} (f : α → β) (refuses : Nat → Bool) (as : List α) :
    accepted refuses (as.map f) = (accepted refuses as).map f := by
  induction as generalizing refuses with
  | nil => rfl
  | cons a as ih =>
    rw [List.map_cons, accepted, accepted, ih]
    split <;> rfl

variable {wire : Wire} {snapshot : MatchQueueSnapshot} {content : Content}

/-- `Save` succeeds if all replies have come, whatever they are. -/
theorem save_eq_true_iff : (save wire snapshot content).1 = true ↔ Complete wire snapshot := by
  unfold save Complete
  rcases wire.connected with - | -
  · simp
  · simp only [Bool.not_true, Bool.false_eq_true, if_false, pushReplies_eq, Wire.length_exchange,
      length_transaction, List.length_cons, List.length_map, Bool.not_eq_true', decide_eq_false_iff_not,
      not_lt, le_min_iff, true_and]
    omega

/-- What a save leaves there, if all commands have reached the server. -/
theorem save_of_complete (h : Complete wire snapshot) : (save wire snapshot content).2 =
    if wire.refuses 0 then
      ((accepted (fun i => wire.refuses (i + 2)) (lines snapshot)).map Write.rpush).foldl Content.apply
        (if wire.refuses 1 then content else .list [])
    else if (List.range ((lines snapshot).length + 3)).any wire.refuses then content
    else .list (lines snapshot) := by
  obtain ⟨hconnected, hserved, -⟩ := h
  have hall : (transaction (Write.del :: (lines snapshot).map Write.rpush)).length ≤ wire.served := by
    rwa [length_transaction, List.length_cons, List.length_map]
  unfold save
  rw [hconnected]
  simp only [Bool.not_true, Bool.false_eq_true, if_false, Wire.exchange_of_served _ _ _ hall, run_transaction,
    List.length_cons, List.length_map, accepted, accepted_map, List.foldl_cons, Content.apply, foldl_rpush,
    List.nil_append]
  rcases wire.refuses 0 with - | -
  · rfl
  · rcases wire.refuses 1 with - | -
    · simp only [Bool.false_eq_true, if_false, if_true, List.foldl_cons, Content.apply, foldl_rpush]
    · simp only [if_true]

/-- The lines are there exactly if the server has done what it must. -/
theorem save_eq_lines_iff (h : Complete wire snapshot) :
    (save wire snapshot content).2 = .list (lines snapshot) ↔ Obeys wire snapshot content := by
  rw [save_of_complete h, Obeys]
  rcases wire.refuses 0 with - | -
  · simp only [Bool.false_eq_true, if_false]
    rcases hany : (List.range ((lines snapshot).length + 3)).any wire.refuses with - | -
    · rw [if_neg Bool.false_ne_true]
      refine iff_of_true rfl (.inl fun i hi => ?_)
      exact Bool.eq_false_iff.mpr fun hi' => Bool.false_ne_true
        (hany.symm.trans (List.any_eq_true.mpr ⟨i, List.mem_range.mpr hi, hi'⟩))
    · rw [if_pos rfl]
      obtain ⟨i, hi, hrefused⟩ := List.any_eq_true.mp hany
      refine ⟨.inr, fun hor => hor.resolve_left fun hnone => ?_⟩
      exact Bool.false_ne_true ((hnone i (List.mem_range.mp hi)).symm.trans hrefused)
  · simp only [if_true]
    rcases wire.refuses 1 with - | -
    · simp only [Bool.false_eq_true, if_false, foldl_rpush, Content.list.injEq, exists_eq_left]
    · simp only [if_true]
      cases content with
      | list kept => simp only [foldl_rpush, Content.list.injEq, exists_eq_left']
      | other =>
        rw [foldl_rpush_other]
        exact iff_of_false (by rintro ⟨⟩) (by rintro ⟨_, hother, -⟩; cases hother)

/-- Whoever loads the lines of a snapshot gets its entries. -/
theorem load_lines (hfits : ∀ entry ∈ snapshot.queued ++ snapshot.matched, Fits entry) (wire' : Wire) :
    load wire' (.list (lines snapshot)) =
      if unharmed wire' then some ((encodable snapshot).map fun entry => ⟨entry, ""⟩) else none := by
  have hrows : ((lines snapshot).map some).map rowOf =
      (encodable snapshot).map fun entry => (⟨entry, ""⟩ : MatchQueueSnapshotRow) := by
    rw [List.map_map, lines, encodable, List.map_filterMap, ← List.filterMap_eq_filter, List.map_filterMap]
    refine List.filterMap_congr fun entry hentry => ?_
    rcases hvalid : validateEntry entry with - | problem
    · obtain ⟨line, hline⟩ := exists_line hvalid
      simp only [hline, Option.map_some, Function.comp_apply, rowOf, decode_encode (hfits entry hentry) hline,
        Option.guard, hvalid, Option.isNone_none, if_true]
    · have hnone : encodeMatchQueueEntry entry = none := by
        unfold encodeMatchQueueEntry
        rw [hvalid]
        rfl
      simp only [hnone, Option.map_none, Option.guard, hvalid, Option.isNone_some, Bool.false_eq_true, if_false]
  unfold load unharmed Content.lrange
  rcases wire'.connected with - | -
  · rfl
  · rcases hrefused : wire'.refuses 0 with - | - <;> by_cases hserved : wire'.served = 0 <;>
      by_cases hanswered : wire'.answered = 0 <;> simp [hserved, hanswered, hrows]

/-- From the lines of a queue, a restart gets the rows it restores. -/
theorem load_savedLines (q : MatchQueue) {wire' : Wire} (h : unharmed wire' = true) :
    load wire' (.list (lines q.makeSnapshot)) = some q.loadedRows := by
  simp only [unharmed, Bool.and_eq_true, decide_eq_true_eq, Bool.not_eq_true'] at h
  obtain ⟨⟨⟨hconnected, hserved⟩, hanswered⟩, hobeyed⟩ := h
  rw [load, hconnected, if_neg (by decide), if_neg (not_or.mpr ⟨hserved, hanswered⟩), Content.lrange, hobeyed,
    if_neg Bool.false_ne_true, Option.map_some, List.map_map]
  rfl

/-- **When `Save` tells the truth** — for every snapshot, every earlier content of the key, and everything that
the server and the connection may do, a success is true exactly if not all commands or replies came through, or
the server has done what it must. -/
theorem truthful_iff (wire : Wire) (snapshot : MatchQueueSnapshot) (content : Content)
    (hfits : ∀ entry ∈ snapshot.queued ++ snapshot.matched, Fits entry) :
    Truthful wire snapshot content ↔ (Complete wire snapshot → Obeys wire snapshot content) := by
  rw [Truthful, save_eq_true_iff]
  refine forall_congr' fun hcomplete => ?_
  rw [← save_eq_lines_iff hcomplete]
  refine ⟨And.left, fun hlines => ⟨hlines, ?_⟩⟩
  rw [hlines]
  exact load_lines hfits

/-- One player waits. -/
def oneWaits : MatchQueueSnapshot := ⟨[.queued "alice" 1000], []⟩

/-- The server has become read-only: it opens the transaction, and refuses `DEL`, `RPUSH` and `EXEC`. -/
def readOnly : Wire := ⟨true, fun i => i ≠ 0, 4, 4⟩

theorem fits_oneWaits : ∀ entry ∈ oneWaits.queued ++ oneWaits.matched, Fits entry := by
  intro entry hentry
  obtain rfl := List.mem_singleton.mp hentry
  rfl

theorem truthful_iff_oneWaits :
    Truthful readOnly oneWaits (.list []) ↔ (Complete readOnly oneWaits → Obeys readOnly oneWaits (.list [])) :=
  truthful_iff readOnly oneWaits (.list []) fits_oneWaits

/-- A success, and nothing was written. -/
theorem not_truthful :
    ¬ ∀ (wire : Wire) (snapshot : MatchQueueSnapshot) (content : Content),
      (∀ entry ∈ snapshot.queued ++ snapshot.matched, Fits entry) → Truthful wire snapshot content := by
  intro hclaim
  have hlines := (hclaim readOnly oneWaits (.list []) fits_oneWaits (by decide)).1
  exact absurd hlines (by decide)

end RedisMatchQueueStore

end RealtimeGame.Match
