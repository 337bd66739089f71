import Mathlib.Order.Lattice
import Mathlib.Data.List.Basic

/-!
# Library/Register — a register that keeps the newest value

Each value carries a stamp.  A write takes effect where it is not older than what the register holds, so
that late writes are dropped: in whatever order they come, the register ends with the newest
(`foldl_register`).
-/

namespace Library

variable {α τ : Type*} [LinearOrder τ] (stamp : α → τ)

/-- The newer of two values; of two with one stamp, the one that is written later. -/
def newer (old new : α) : α := if stamp old ≤ stamp new then new else old

/-- One write. -/
def register : Option α → α → Option α
  | none, new => some new
  | some old, new => some (newer stamp old new)

variable {stamp} {a b newest : α} {r : Option α} {l : List α}

/-- The newer of two is one of the two. -/
theorem newer_eq_or (stamp : α → τ) (a b : α) : newer stamp a b = a ∨ newer stamp a b = b := by
  unfold newer
  split
  · exact .inr rfl
  · exact .inl rfl

/-- It is not older than the first, -/
theorem le_newer_left : stamp a ≤ stamp (newer stamp a b) := by
  unfold newer
  split
  · assumption
  · exact le_refl _

/-- …nor than the second. -/
theorem le_newer_right : stamp b ≤ stamp (newer stamp a b) := by
  unfold newer
  split
  case isTrue => exact le_refl _
  case isFalse h => exact le_of_not_ge h

/-- **What the register holds** at the end was there or was written, and nothing that was is newer. -/
theorem of_foldl_register (h : l.foldl (register stamp) r = some a) :
    (r = some a ∨ a ∈ l) ∧ (∀ b, r = some b → stamp b ≤ stamp a) ∧ ∀ b ∈ l, stamp b ≤ stamp a := by
  induction l generalizing r with
  | nil => exact ⟨.inl h, fun b hb => by cases h.symm.trans hb; exact le_refl _, fun b hb => by cases hb⟩
  | cons c l ih =>
    obtain ⟨horigin, hbefore, hrest⟩ := ih h
    have hc : stamp c ≤ stamp a := by
      cases r with
      | none => exact hbefore c rfl
      | some old => exact le_newer_right.trans (hbefore _ rfl)
    refine ⟨?_, ?_, List.forall_mem_cons.mpr ⟨hc, hrest⟩⟩
    · rcases horigin with horigin | hmem
      · cases r with
        | none => exact .inr (List.mem_cons.mpr (.inl (Option.some.inj horigin).symm))
        | some old =>
          have heq : newer stamp old c = a := Option.some.inj horigin
          rcases newer_eq_or stamp old c with hold | hnew
          · exact .inl (congrArg some (hold.symm.trans heq))
          · exact .inr (List.mem_cons.mpr (.inl (heq.symm.trans hnew)))
      · exact .inr (List.mem_cons_of_mem c hmem)
    · rintro b rfl
      exact le_newer_left.trans (hbefore _ rfl)

/-- A register that was written to is not empty. -/
theorem foldl_register_isSome (h : r.isSome = true ∨ l ≠ []) :
    (l.foldl (register stamp) r).isSome = true := by
  induction l generalizing r with
  | nil => exact h.resolve_right (not_not.mpr rfl)
  | cons c l ih =>
    refine ih (.inl ?_)
    cases r <;> rfl

/-- **The register ends with the newest value**, in whatever order the values are written. -/
theorem foldl_register (hmem : newest ∈ l) (hmax : ∀ a ∈ l, stamp a ≤ stamp newest)
    (hunique : ∀ a ∈ l, stamp a = stamp newest → a = newest) :
    l.foldl (register stamp) none = some newest := by
  obtain ⟨a, ha⟩ := Option.isSome_iff_exists.mp
    (@foldl_register_isSome _ _ _ stamp none l (.inr (List.ne_nil_of_mem hmem)))
  obtain ⟨horigin, -, hle⟩ := of_foldl_register ha
  have hal : a ∈ l := horigin.resolve_left fun h => by cases h
  rw [ha, hunique a hal (le_antisymm (hmax a hal) (hle newest hmem))]

end Library
