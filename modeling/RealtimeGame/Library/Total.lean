import RealtimeGame.Library.Table
import Mathlib.Algebra.Order.BigOperators.Group.Finset

/-!
# Library/Total — a number that is added up over a table

A total does not depend on the order of the bindings, and so two tables are compared binding by binding
(`total_le`): what is added up under a key may grow, and new keys may come, but no key may go that
something was added up under.
-/

namespace Library

namespace Table

variable {κ ν : Type*} {f : ν → Nat} {t t' : Table κ ν}

/-- The sum of `f` over the values of a table. -/
def total (f : ν → Nat) (t : Table κ ν) : Nat := t.toPairs.foldl (fun acc e => acc + f e.2) 0

variable [DecidableEq κ]

/-- What is added up under a key, bound or not. -/
def share (f : ν → Nat) (t : Table κ ν) (k : κ) : Nat := ((t.lookup k).map f).getD 0

/-- The total is a sum over the keys. -/
theorem total_eq_sum : t.total f = ∑ k ∈ t.keys.toFinset, t.share f k := by
  have hshare : t.toPairs.map (t.share f ∘ Prod.fst) = t.toPairs.map (f ∘ Prod.snd) := by
    refine List.map_congr_left fun e he => ?_
    simp only [Function.comp_apply, share, mem_toPairs.mp he, Option.map_some, Option.getD_some]
  rw [List.sum_toFinset _ t.keys_nodup, ← toPairs_keys, List.map_map, hshare, List.sum_eq_foldl, List.foldl_map,
    total]
  rfl

/-- **Binding by binding** — a total does not fall where every binding that counts stays, and counts as
much. -/
theorem total_le (h : ∀ k v, t.lookup k = some v → 0 < f v → ∃ v', t'.lookup k = some v' ∧ f v ≤ f v') :
    t.total f ≤ t'.total f := by
  have hshare : ∀ k, t.share f k ≤ t'.share f k := by
    intro k
    rcases hk : t.lookup k with - | v
    · simp [share, hk]
    rcases Nat.eq_zero_or_pos (f v) with hzero | hpos
    · simp [share, hk, hzero]
    obtain ⟨v', hk', hle⟩ := h k v hk hpos
    simpa [share, hk, hk'] using hle
  rw [total_eq_sum, total_eq_sum]
  calc ∑ k ∈ t.keys.toFinset, t.share f k
      ≤ ∑ k ∈ t.keys.toFinset, t'.share f k := Finset.sum_le_sum fun k _ => hshare k
    _ ≤ ∑ k ∈ t'.keys.toFinset, t'.share f k := by
      refine Finset.sum_le_sum_of_ne_zero fun k _ hne => ?_
      rw [List.mem_toFinset, ← AList.mem_keys, ← AList.lookup_isSome]
      rcases hk : t'.lookup k with - | v
      · simp [share, hk] at hne
      · rfl

end Table

end Library
