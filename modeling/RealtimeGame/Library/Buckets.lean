import Mathlib.Data.List.Basic
import Mathlib.Data.List.Induction
import Mathlib.Order.Lattice

/-!
# Library/Buckets — what falls below each of some bounds

A value is counted once, at the first bound that is not below it; how many values are at most a bound is the
sum of the counts up to it, if the bounds ascend (`cumulate_tallies`).
-/

namespace Library

variable {α : Type*} [LinearOrder α]

/-- The place of the first bound that is not below a value. -/
def place (bounds : List α) (v : α) : Nat := bounds.findIdx fun b => !decide (b < v)

/-- One more at the place of a value; a value above all bounds is counted nowhere. -/
def tally (bounds : List α) (counts : List Nat) (v : α) : List Nat := counts.modify (place bounds v) (· + 1)

/-- The sums of the counts up to each place. -/
def cumulate : Nat → List Nat → List Nat
  | _, [] => []
  | total, n :: counts => (total + n) :: cumulate (total + n) counts

theorem cumulate_replicate (n : Nat) : cumulate 0 (List.replicate n 0) = List.replicate n 0 := by
  induction n with
  | zero => rfl
  | succ n ih => rw [List.replicate_succ, cumulate, ih]

/-- What is counted before the first bucket is counted in all of them. -/
theorem cumulate_succ (total : Nat) (counts : List Nat) :
    cumulate (total + 1) counts = (cumulate total counts).map (· + 1) := by
  induction counts generalizing total with
  | nil => rfl
  | cons n counts ih => rw [cumulate, cumulate, Nat.add_right_comm, ih, List.map_cons]

/-- **A value is counted** at all bounds that are not below it. -/
theorem cumulate_tally {bounds : List α} (h : bounds.Pairwise (· ≤ ·)) {f : α → Nat} {total : Nat}
    {counts : List Nat} (hcounts : cumulate total counts = bounds.map f) (v : α) :
    cumulate total (tally bounds counts v) = bounds.map fun b => if v ≤ b then f b + 1 else f b := by
  induction bounds generalizing total counts with
  | nil =>
    cases counts with
    | nil => rfl
    | cons n counts => cases hcounts
  | cons b bounds ih =>
    cases counts with
    | nil => cases hcounts
    | cons n counts =>
      rw [List.pairwise_cons] at h
      rw [cumulate, List.map_cons, List.cons.injEq] at hcounts
      rw [tally, place, List.findIdx_cons, List.map_cons]
      by_cases hv : v ≤ b
      · rw [if_pos hv, decide_eq_false (not_lt.mpr hv), Bool.not_false, cond_true, List.modify_zero_cons,
          cumulate, ← Nat.add_assoc, cumulate_succ, hcounts.2, hcounts.1, List.map_map]
        refine congrArg _ (List.map_congr_left fun b' hb' => ?_)
        rw [if_pos (hv.trans (h.1 b' hb')), Function.comp_apply]
      · rw [if_neg hv, decide_eq_true (not_le.mp hv), Bool.not_true, cond_false, List.modify_succ_cons,
          cumulate]
        exact congrArg₂ _ hcounts.1 (ih h.2 hcounts.2)

/-- **Values that were counted one by one** are counted at each bound as if they had been counted there. -/
theorem cumulate_tallies {bounds : List α} (h : bounds.Pairwise (· ≤ ·)) (values : List α) :
    cumulate 0 (values.foldl (tally bounds) (List.replicate bounds.length 0)) =
      bounds.map fun b => values.countP (· ≤ b) := by
  induction values using List.reverseRecOn with
  | nil =>
    rw [List.foldl_nil, cumulate_replicate, ← List.map_const']
    rfl
  | append_singleton values v ih =>
    rw [List.foldl_concat, cumulate_tally h ih]
    refine List.map_congr_left fun b _ => ?_
    rw [List.countP_append, List.countP_singleton]
    by_cases hv : v ≤ b
    · rw [if_pos hv, if_pos (decide_eq_true hv)]
    · rw [if_neg hv, if_neg (by simpa using hv)]
      rfl

end Library
