import Mathlib.Data.List.Nodup
import Mathlib.Data.List.Sort

/-!
# Library/Before — which of two items comes first in a list

`Before l a b` for a list without repetition: one item is first (`Before.total`, `Before.asymm`), and the
order of the items is what a map, a filter and a stable sort keep (`before_filterMap_iff`,
`before_filter_iff`, `before_insertionSort_iff`).
-/

namespace Library

variable {α β : Type*} {l : List α} {a b : α}

/-- Somewhere in `l`, `a` is followed by `b`, at once or later. -/
def Before (l : List α) (a b : α) : Prop := [a, b].Sublist l

instance [DecidableEq α] : Decidable (Before l a b) := inferInstanceAs (Decidable ([a, b].Sublist l))

namespace Before

theorem left (h : Before l a b) : a ∈ l := h.subset List.mem_cons_self

theorem right (h : Before l a b) : b ∈ l := h.subset (List.mem_cons_of_mem _ List.mem_cons_self)

/-- An order is kept where more stands around it. -/
theorem mono {l' : List α} (h : Before l a b) (hsub : l.Sublist l') : Before l' a b := h.trans hsub

/-- Of two items, one is first. -/
theorem total (ha : a ∈ l) (hb : b ∈ l) (hne : a ≠ b) : Before l a b ∨ Before l b a := by
  induction l with
  | nil => cases ha
  | cons c l ih =>
    rcases List.mem_cons.mp ha with rfl | ha'
    · exact .inl ((List.singleton_sublist.mpr ((List.mem_cons.mp hb).resolve_left hne.symm)).cons_cons _)
    rcases List.mem_cons.mp hb with rfl | hb'
    · exact .inr ((List.singleton_sublist.mpr ha').cons_cons _)
    · exact (ih ha' hb').imp (·.cons _) (·.cons _)

/-- It is not the other one too. -/
theorem asymm (hnodup : l.Nodup) (h : Before l a b) : ¬Before l b a := by
  induction l with
  | nil => exact absurd h.left List.not_mem_nil
  | cons c l ih =>
    rw [List.nodup_cons] at hnodup
    intro h'
    cases h with
    | cons _ h =>
      cases h' with
      | cons _ h' => exact ih hnodup.2 h h'
      | cons_cons _ h' => exact hnodup.1 (Before.right h)
    | cons_cons _ h =>
      cases h' with
      | cons _ h' => exact hnodup.1 (Before.right h')
      | cons_cons _ h' => exact hnodup.1 (List.singleton_sublist.mp h)

end Before

/-- Of two lists, the first one is first. -/
theorem before_append_iff {l' : List α} :
    Before (l ++ l') a b ↔ Before l a b ∨ a ∈ l ∧ b ∈ l' ∨ Before l' a b := by
  constructor
  · intro h
    obtain ⟨l₁, l₂, heq, h₁, h₂⟩ := List.sublist_append_iff.mp h
    rcases l₁ with - | ⟨x, - | ⟨y, l₁⟩⟩
    · rw [List.nil_append] at heq
      subst heq
      exact .inr (.inr h₂)
    · rw [List.singleton_append, List.cons.injEq] at heq
      obtain ⟨rfl, rfl⟩ := heq
      exact .inr (.inl ⟨List.singleton_sublist.mp h₁, List.singleton_sublist.mp h₂⟩)
    · simp only [List.cons_append, List.cons.injEq, List.nil_eq, List.append_eq_nil_iff] at heq
      obtain ⟨rfl, rfl, rfl, rfl⟩ := heq
      exact .inl h₁
  · rintro (h | ⟨ha, hb⟩ | h)
    · exact h.mono (List.sublist_append_left _ _)
    · exact (List.singleton_sublist.mpr ha).append (List.singleton_sublist.mpr hb)
    · exact h.mono (List.sublist_append_right _ _)

/-- A map keeps the order of what it keeps, if it keeps the items apart. -/
theorem before_filterMap_iff {f : α → Option β} {x y : β} (hnodup : (l.filterMap f).Nodup) (ha : a ∈ l)
    (hb : b ∈ l) (hne : a ≠ b) (hx : f a = some x) (hy : f b = some y) :
    Before (l.filterMap f) x y ↔ Before l a b := by
  have hmap : ∀ {a b x y}, f a = some x → f b = some y → Before l a b → Before (l.filterMap f) x y := by
    intro a b x y hx hy h
    have hsub := List.Sublist.filterMap f h
    rw [List.filterMap_cons_some hx, List.filterMap_cons_some hy, List.filterMap_nil] at hsub
    exact hsub
  refine ⟨fun h => ?_, hmap hx hy⟩
  exact (Before.total ha hb hne).resolve_right fun h' => h.asymm hnodup (hmap hy hx h')

/-- A map keeps the order if it tells the entries apart. -/
theorem before_map_iff {f : α → β} (hnodup : (l.map f).Nodup) (ha : a ∈ l) (hb : b ∈ l) (hne : a ≠ b) :
    Before (l.map f) (f a) (f b) ↔ Before l a b := by
  rw [← List.filterMap_eq_map] at hnodup ⊢
  exact before_filterMap_iff hnodup ha hb hne rfl rfl

/-- What is left out around two entries does not change their order. -/
theorem before_filter_iff {p : α → Bool} (ha : p a = true) (hb : p b = true) :
    Before (l.filter p) a b ↔ Before l a b := by
  constructor
  · exact fun h => h.mono List.filter_sublist
  · intro h
    have hfilter := List.Sublist.filter p h
    rw [List.filter_cons_of_pos ha, List.filter_cons_of_pos hb, List.filter_nil] at hfilter
    exact hfilter

/-- **A stable sort** puts `a` before `b` if it must, and if it may and they stand so already. -/
theorem before_insertionSort_iff {r : α → α → Prop} [DecidableRel r] [Std.Total r] [IsTrans α r]
    (hnodup : l.Nodup) (ha : a ∈ l) (hb : b ∈ l) (hne : a ≠ b) :
    Before (l.insertionSort r) a b ↔ ¬r b a ∨ r a b ∧ Before l a b := by
  have hmem : ∀ {c}, c ∈ l → c ∈ l.insertionSort r := (List.perm_insertionSort r l).mem_iff.mpr
  have hnodup' : (l.insertionSort r).Nodup := (List.perm_insertionSort r l).nodup_iff.mpr hnodup
  have hsorted : ∀ {c d}, Before (l.insertionSort r) c d → r c d := fun h =>
    List.pairwise_pair.mp ((List.pairwise_insertionSort r l).sublist h)
  constructor
  · intro h
    by_cases hba : r b a
    · refine .inr ⟨hsorted h, (Before.total ha hb hne).resolve_right fun h' => ?_⟩
      exact h.asymm hnodup' (List.pair_sublist_insertionSort hba h')
    · exact .inl hba
  · rintro (hba | ⟨hab, h⟩)
    · exact (Before.total (hmem ha) (hmem hb) hne).resolve_right fun h' => hba (hsorted h')
    · exact List.pair_sublist_insertionSort hab h

end Library
