import Mathlib.Data.List.Basic

/-!
# Library/Scanner — cutting a sequence where a scanner says

A scanner goes over a sequence with a state, and the state decides whether an element is a cut; behind a cut
it starts anew.  Pieces that leave it where it started come out as they were put together (`split_pieces`).
-/

namespace Library

/-- A scanner: its states, and where it cuts. -/
structure Scanner (σ α : Type*) where
  start : σ
  step : σ → α → σ
  cuts : σ → α → Bool

namespace Scanner

variable {σ α : Type*} (m : Scanner σ α)

/-- The pieces between the cuts, from a state on. -/
def splitFrom : σ → List α → List (List α)
  | _, [] => [[]]
  | s, a :: rest =>
    if m.cuts s a then [] :: splitFrom m.start rest
    else (splitFrom (m.step s a) rest).modifyHead (a :: ·)

def split (text : List α) : List (List α) := m.splitFrom m.start text

/-- Where a sequence without a cut leaves the scanner. -/
def run : σ → List α → Option σ
  | s, [] => some s
  | s, a :: rest => if m.cuts s a then none else run (m.step s a) rest

/-- No cut, and the scanner is left as at the start. -/
def Whole (piece : List α) : Prop := m.run m.start piece = some m.start

variable {m} {s s' : σ} {xs ys : List α}

/-- What was scanned is not looked at again. -/
theorem run_append (h : m.run s xs = some s') : m.run s (xs ++ ys) = m.run s' ys := by
  induction xs generalizing s with
  | nil =>
    obtain rfl := Option.some.inj h
    rfl
  | cons x xs ih =>
    rw [run] at h
    split at h
    case isTrue => cases h
    case isFalse hcut =>
      rw [List.cons_append, run, if_neg hcut]
      exact ih h

theorem splitFrom_append (h : m.run s xs = some s') :
    m.splitFrom s (xs ++ ys) = (m.splitFrom s' ys).modifyHead (xs ++ ·) := by
  induction xs generalizing s with
  | nil =>
    obtain rfl := Option.some.inj h
    exact (congrFun List.modifyHead_id _).symm
  | cons x xs ih =>
    rw [run] at h
    split at h
    case isTrue => cases h
    case isFalse hcut =>
      rw [List.cons_append, splitFrom, if_neg hcut, ih h, List.modifyHead_modifyHead]
      rfl

/-- A whole item is not cut. -/
theorem split_of_whole (h : m.Whole xs) : m.split xs = [xs] := by
  rw [split, ← List.append_nil xs, splitFrom_append h, splitFrom, List.modifyHead_cons]

/-- A separator behind a whole item cuts there. -/
theorem split_cons {sep : α} (hsep : m.cuts m.start sep = true) (h : m.Whole xs) :
    m.split (xs ++ sep :: ys) = xs :: m.split ys := by
  rw [split, splitFrom_append h, splitFrom, if_pos hsep, List.modifyHead_cons, List.append_nil]
  rfl

/-- **Put together and cut again**, whole pieces are what they were. -/
theorem split_pieces {sep : α} (hsep : m.cuts m.start sep = true) {piece : List α} {pieces : List (List α)}
    (hpiece : m.Whole piece) (hpieces : ∀ p ∈ pieces, m.Whole p) :
    m.split (piece ++ pieces.flatMap (sep :: ·)) = piece :: pieces := by
  induction pieces generalizing piece with
  | nil =>
    rw [List.flatMap_nil, List.append_nil]
    exact split_of_whole hpiece
  | cons next pieces ih =>
    rw [List.forall_mem_cons] at hpieces
    rw [List.flatMap_cons, List.cons_append, split_cons hsep hpiece, ih hpieces.1 hpieces.2]

/-- The same with an end behind each piece, where nothing is left at last. -/
theorem split_ended {sep : α} (hsep : m.cuts m.start sep = true) {pieces : List (List α)}
    (h : ∀ p ∈ pieces, m.Whole p) : m.split (pieces.flatMap (· ++ [sep])) = pieces ++ [[]] := by
  induction pieces with
  | nil => rfl
  | cons piece pieces ih =>
    rw [List.forall_mem_cons] at h
    rw [List.flatMap_cons, List.append_assoc, List.singleton_append, split_cons hsep h.1, ih h.2,
      List.cons_append]

/-- A scanner without states leaves whole what has no cut. -/
theorem whole_of_forall {m : Scanner Unit α} (h : ∀ a ∈ xs, m.cuts () a = false) : m.Whole xs := by
  suffices hrun : m.run () xs = some () from hrun
  induction xs with
  | nil => rfl
  | cons a xs ih =>
    rw [List.forall_mem_cons] at h
    rw [run, if_neg (Bool.eq_false_iff.mp h.1)]
    exact ih h.2

end Scanner

/-- Reading item by item, where it is known what is read for each. -/
theorem mapM_written {ι α β : Type*} {write : ι → α} {read : α → Option β} {meaning : ι → β} {items : List ι}
    (h : ∀ item ∈ items, read (write item) = some (meaning item)) :
    (items.map write).mapM read = some (items.map meaning) := by
  rw [List.mapM_map]
  induction items with
  | nil => rfl
  | cons item items ih =>
    rw [List.forall_mem_cons] at h
    rw [List.mapM_cons, ih h.2, Function.comp_apply, h.1]
    rfl

end Library
