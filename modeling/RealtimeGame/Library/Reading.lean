import Mathlib.Data.List.Basic

/-!
# Library/Reading — reading values off the front of a sequence

A `Reading` takes one value off the front and leaves the rest.  It is *steady* if what it takes does not
depend on what follows; then nothing that is read whole can be read whole again with more behind it
(`Steady.whole_append`).
-/

namespace Library

universe u

/-- One value off the front, and what is left. -/
def Reading (α β : Type u) : Type u := List α → Option (β × List α)

namespace Reading

variable {α β γ : Type u}

/-- Read one element. -/
def one : Reading α α
  | [] => none
  | a :: rest => some (a, rest)

/-- Read nothing. -/
def pure (b : β) : Reading α β := fun text => some (b, text)

def fail : Reading α β := fun _ => none

/-- Read nothing more, if the condition holds. -/
def guard (p : Prop) [Decidable p] (b : β) : Reading α β := fun text => if p then some (b, text) else none

/-- Read on. -/
def andThen (r : Reading α β) (next : β → Reading α γ) : Reading α γ := fun text =>
  (r text).bind fun read => next read.1 read.2

/-- Read everything. -/
def whole (r : Reading α β) (text : List α) : Option β :=
  match r text with
  | some (b, []) => some b
  | _ => none

variable {r : Reading α β} {next : β → Reading α γ} {text rest : List α} {b : β} {c : γ}

/-- A sequence reads if its first part does, and then the second on what is left. -/
theorem andThen_eq_some : r.andThen next text = some (c, rest) ↔
    ∃ b mid, r text = some (b, mid) ∧ next b mid = some (c, rest) := by
  rw [andThen, Option.bind_eq_some_iff, Prod.exists]

theorem andThen_of_some (h : r text = some (b, rest)) : r.andThen next text = next b rest := by
  rw [andThen, h, Option.bind_some]

/-- A guard reads nothing, and only if its condition holds. -/
theorem guard_eq_some {p : Prop} [Decidable p] {b' : β} :
    guard p b text = some (b', rest) ↔ p ∧ b = b' ∧ text = rest := by
  rw [guard, Option.ite_none_right_eq_some, Option.some.injEq, Prod.mk.injEq]

/-- The whole text is read if nothing is left of it. -/
theorem whole_eq_some : r.whole text = some b ↔ r text = some (b, []) := by
  rw [whole]
  split
  case h_1 heq => rw [heq, Option.some.injEq, Option.some.injEq, Prod.mk.injEq, and_iff_left rfl]
  case h_2 hnot => exact iff_of_false (by simp) (hnot b)

/-! ## What follows does not matter

A reading is steady if more text behind the one it was given only adds to what it leaves. -/

/-- What is read is the same with more behind it, which is left. -/
def Steady (r : Reading α β) : Prop :=
  ∀ {text b rest} (more : List α), r text = some (b, rest) → r (text ++ more) = some (b, rest ++ more)

/-- One letter is read whatever follows it. -/
theorem steady_one : (one : Reading α α).Steady := by
  intro text a rest more h
  cases text with
  | nil => cases h
  | cons =>
    cases h
    rfl

theorem steady_pure : (pure b : Reading α β).Steady := by
  intro text b' rest more h
  cases h
  rfl

theorem steady_fail : (fail : Reading α β).Steady := by
  intro text b rest more h
  cases h

theorem steady_guard {p : Prop} [Decidable p] : (guard p b : Reading α β).Steady := by
  intro text b' rest more h
  obtain ⟨hp, rfl, rfl⟩ := guard_eq_some.mp h
  exact guard_eq_some.mpr ⟨hp, rfl, rfl⟩

/-- A sequence of steady readings is steady. -/
theorem Steady.andThen (hr : r.Steady) (hnext : ∀ b, (next b).Steady) : (r.andThen next).Steady := by
  intro text c rest more h
  obtain ⟨b, mid, hb, hc⟩ := andThen_eq_some.mp h
  exact andThen_eq_some.mpr ⟨b, mid ++ more, hr more hb, hnext b more hc⟩

/-- **Nothing but the whole**: what is read whole cannot be read whole with more behind it. -/
theorem Steady.whole_append (hr : r.Steady) {b' : β} {more : List α} (h : r.whole text = some b)
    (h' : r.whole (text ++ more) = some b') : more = [] := by
  have hread := hr more (whole_eq_some.mp h)
  rw [whole_eq_some.mp h', List.nil_append, Option.some.injEq, Prod.mk.injEq] at hread
  exact hread.2.symm

end Reading

end Library
