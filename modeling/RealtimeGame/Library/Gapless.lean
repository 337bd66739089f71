import Mathlib.Data.Int.Range
import Mathlib.Data.List.Chain
import Mathlib.Tactic.Ring

/-!
# Library/Gapless — logs whose numbers go up by at most one

A log numbers its entries by `f`, and may have several entries of one number.  In a log without gaps
the latest entries of the numbers after `since` are numbered `since + 1, since + 2, …` up to the last
number of the log (`map_latest`), as long as the log reaches back that far.
-/

namespace Library

variable {α : Type*} {f : α → Int}

/-- The number of each entry is that of the one before it, or the next one. -/
def Gapless (f : α → Int) (l : List α) : Prop := l.IsChain fun a b => f b = f a ∨ f b = f a + 1

/-- Of the numbers after `since`, of each run of equal numbers the last entry. -/
def latest (f : α → Int) (since : Int) (l : List α) : List α :=
  l.foldl (fun result a =>
    if f a ≤ since then result
    else if result.getLast?.map f = some (f a) then result.dropLast ++ [a]
    else result ++ [a]) []

namespace Gapless

variable {a b : α} {l : List α} {since : Int}

theorem singleton (f : α → Int) (a : α) : Gapless f [a] := List.isChain_singleton a

theorem drop (h : Gapless f l) (n : Nat) : Gapless f (l.drop n) := List.IsChain.drop h n

/-- A log grows by an entry of its last number, or of the next one. -/
theorem snoc_iff : Gapless f (l ++ [a, b]) ↔ Gapless f (l ++ [a]) ∧ (f b = f a ∨ f b = f a + 1) := by
  unfold Gapless
  rw [List.append_cons, List.isChain_append]
  simp

/-- The last entry is followed by one of its own number, or of the next. -/
theorem snoc (h : Gapless f (l ++ [a])) (hb : f b = f a ∨ f b = f a + 1) : Gapless f (l ++ [a, b]) :=
  snoc_iff.mpr ⟨h, hb⟩

/-- The first number is the least. -/
theorem bounds (h : Gapless f (a :: l)) : ∀ x ∈ a :: l, f a ≤ f x := by
  have hle : (a :: l).IsChain fun x y => f x ≤ f y := List.IsChain.imp (fun x y hxy => by omega) h
  intro x hx
  rcases List.mem_cons.mp hx with rfl | hx
  · exact Int.le_refl _
  · have : IsTrans α fun x y => f x ≤ f y := ⟨fun _ _ _ => Int.le_trans⟩
    exact List.rel_of_pairwise_cons hle.pairwise hx

end Gapless

/-! ## Ranges of numbers

The numbers that a gapless list runs through are a range, written from its lower bound to below the upper
one. -/

theorem range_eq_nil {a b : Int} (h : b ≤ a) : Int.range a b = [] := by
  rw [Int.range, Int.toNat_of_nonpos (by omega), List.range_zero, List.map_nil]

/-- A range grows at its end. -/
theorem range_snoc {a b : Int} (h : a ≤ b) : Int.range a (b + 1) = Int.range a b ++ [b] := by
  rw [Int.range, Int.range, show (b + 1 - a).toNat = (b - a).toNat + 1 by omega, List.range_succ,
    List.map_append, List.map_singleton, Int.toNat_of_nonneg (by omega), add_sub_cancel]

theorem pairwise_range (a b : Int) : (Int.range a b).Pairwise (· ≤ ·) := by
  rw [Int.range, List.pairwise_map]
  exact List.pairwise_le_range.imp fun hle => by omega

/-! ## The latest entries

Of the entries that share a number only the last one counts.  For a gapless list these are one for each
number of its range (`map_latest`). -/

section latest

variable {a : α} {l : List α} {since : Int}

/-- A later entry of the same number takes the place of the last one. -/
theorem latest_snoc (l : List α) (a : α) : latest f since (l ++ [a]) =
    if f a ≤ since then latest f since l
    else if (latest f since l).getLast?.map f = some (f a) then (latest f since l).dropLast ++ [a]
    else latest f since l ++ [a] := List.foldl_concat ..

/-- The last of the latest entries is the last entry of the log, if that is late enough. -/
theorem getLast?_latest (l : List α) (ha : since < f a) :
    (latest f since (l ++ [a])).getLast? = some a := by
  rw [latest_snoc, if_neg (by omega)]
  split <;> exact List.getLast?_concat ..

/-- A range ends before its bound. -/
theorem getLast?_range {a b : Int} :
    (Int.range a (b + 1)).getLast? = if a ≤ b then some b else none := by
  split
  case isTrue h => rw [range_snoc h, List.getLast?_concat]
  case isFalse h => rw [range_eq_nil (by omega)]; rfl

/-- **The latest entries of a log without gaps**: one of each number after `since`. -/
theorem map_latest (h : Gapless f (a :: l)) :
    (latest f since (a :: l)).map f =
      Int.range (max (since + 1) (f a)) (f ((a :: l).getLast (List.cons_ne_nil a l)) + 1) := by
  induction l using List.reverseRecOn with
  | nil =>
    by_cases ha : f a ≤ since
    · simp only [latest, List.foldl_cons, List.foldl_nil, if_pos ha, List.map_nil,
        List.getLast_singleton]
      rw [range_eq_nil (by omega)]
    · rw [List.getLast_singleton, max_eq_right (by omega), range_snoc (Int.le_refl _),
        range_eq_nil (Int.le_refl _)]
      simp [latest, ha]
  | append_singleton l b ih =>
    obtain ⟨front, c, hsplit⟩ := (List.eq_nil_or_concat (a :: l)).resolve_left (List.cons_ne_nil a l)
    rw [List.concat_eq_append] at hsplit
    have hprev : Gapless f (a :: l) ∧ (f b = f c ∨ f b = f c + 1) := by
      rw [← List.cons_append, hsplit, List.append_assoc] at h
      rw [hsplit]
      exact Gapless.snoc_iff.mp h
    have hfirst : f a ≤ f c := hprev.1.bounds c (by rw [hsplit]; simp)
    have ih := ih hprev.1
    simp only [hsplit, List.getLast_concat] at ih
    have hlast : (latest f since (front ++ [c])).getLast?.map f =
        if max (since + 1) (f a) ≤ f c then some (f c) else none := by
      rw [← List.getLast?_map, ih, getLast?_range]
    simp only [← List.cons_append, List.getLast_concat]
    rw [hsplit, latest_snoc, hlast]
    by_cases hb : f b ≤ since
    · -- Nothing is late enough yet.
      rw [if_pos hb, ih, range_eq_nil (by omega), range_eq_nil (by omega)]
    rw [if_neg hb]
    rcases hprev.2 with hsame | hnext
    · rw [if_pos (by rw [if_pos (by omega), hsame]), List.map_append, List.map_dropLast, ih,
        range_snoc (by omega), List.dropLast_concat, List.map_singleton, hsame, range_snoc (by omega)]
    · have hother : ¬(if max (since + 1) (f a) ≤ f c then some (f c) else none) = some (f b) := by
        split
        · rw [hnext, Option.some.injEq]
          omega
        · exact fun heq => by cases heq
      rw [if_neg hother, List.map_append, ih, List.map_singleton, hnext,
        range_snoc (b := f c + 1) (by omega)]

end latest

end Library
