import Mathlib.Data.List.Basic

/-!
# Library/Stretch — items that run into each other

Of each item of a sequence it is known whether it runs into the next one.  A stretch is what has run
together up to an item that ends; what comes after the last end is left over.  `flatMap_eq_iff` says when a
reading of stretches is one of their items: if it never gives more, it must agree stretch by stretch.
-/

namespace Library

variable {α β : Type*}

/-- The stretches that end, and the items left over. -/
def stretches : List (α × Bool) → List (List α) × List α
  | [] => ([], [])
  | (a, false) :: items => ([a] :: (stretches items).1, (stretches items).2)
  | (a, true) :: items =>
    match stretches items with
    | ([], left) => ([], a :: left)
    | (g :: gs, left) => ((a :: g) :: gs, left)

/-- Nothing is lost when a list is cut into stretches. -/
theorem flatten_stretches (items : List (α × Bool)) :
    (stretches items).1.flatten ++ (stretches items).2 = items.map Prod.fst := by
  induction items using stretches.induct with
  | case1 => rfl
  | case2 a items ih =>
    rw [stretches, List.flatten_cons, List.append_assoc, ih]
    rfl
  | case3 a items left h ih =>
    rw [h] at ih
    rw [stretches, h, List.map_cons, ← ih]
    rfl
  | case4 a items g gs left h ih =>
    rw [h] at ih
    rw [stretches, h, List.map_cons, ← ih]
    rfl

/-- Where every item ends, each is a stretch. -/
theorem stretches_of_ended (items : List α) :
    stretches (items.map fun a => (a, false)) = (items.map fun a => [a], []) := by
  induction items with
  | nil => rfl
  | cons a items ih => rw [List.map_cons, stretches, ih, List.map_cons]

/-- **Stretch by stretch** — of two readings, of which the first never gives more, and what is left over. -/
theorem flatMap_eq_iff {L R : α → List β} (hle : ∀ g, (L g).length ≤ (R g).length) (gs : List α)
    (left : List β) : gs.flatMap L = gs.flatMap R ++ left ↔ (∀ g ∈ gs, L g = R g) ∧ left = [] := by
  have hlengths : ∀ gs : List α, (gs.flatMap L).length ≤ (gs.flatMap R).length := by
    intro gs
    induction gs with
    | nil => exact Nat.le_refl _
    | cons g gs ih =>
      rw [List.flatMap_cons, List.flatMap_cons, List.length_append, List.length_append]
      exact Nat.add_le_add (hle g) ih
  constructor
  · intro heq
    induction gs with
    | nil => exact ⟨fun g hg => (by cases hg), heq.symm⟩
    | cons g gs ih =>
      rw [List.flatMap_cons, List.flatMap_cons, List.append_assoc] at heq
      have hlength := congrArg List.length heq
      simp only [List.length_append] at hlength
      have hrest := hlengths gs
      have hone := hle g
      obtain ⟨hg, htail⟩ := List.append_inj heq (by omega)
      obtain ⟨hall, hleft⟩ := ih htail
      exact ⟨List.forall_mem_cons.mpr ⟨hg, hall⟩, hleft⟩
  · rintro ⟨hall, rfl⟩
    rw [List.append_nil]
    exact List.flatMap_congr hall

end Library
