import RealtimeGame.Library.Run

/-!
# Library/WriteBehind — a view that is saved later

A component changes in one place, notes that it has changed in another, and from time to time somebody takes
a copy of what it shows and saves it.  If every change is noted in the end, and copies are saved one after
the other, then what is saved is what is shown, whenever nothing is left to note and to save
(`WriteBehind.UpToDate.saved_eq`).
-/

namespace Library

variable {β : Type*}

/-- What is known of a component and of its copies. -/
structure WriteBehind (β : Type*) where
  /-- What it shows. -/
  view : β
  /-- A change has been noted since the last copy was taken. -/
  dirty : Bool
  /-- There may be a change that is not noted yet. -/
  pending : Bool
  /-- The copy that is being saved. -/
  copy : Option β
  /-- The last one that was saved. -/
  saved : Option β

namespace WriteBehind

variable {b b' : WriteBehind β}

/-- What a step may be, and what is known of it. -/
inductive Step (b b' : WriteBehind β) : Prop
  /-- Nothing that matters. -/
  | idle (hview : b'.view = b.view) (hdirty : b'.dirty = b.dirty) (hpending : b'.pending = b.pending)
      (hcopy : b'.copy = b.copy) (hsaved : b'.saved = b.saved)
  /-- A change, to be noted. -/
  | change (hpending : b'.pending = true)
  /-- A change is noted. -/
  | mark (hdirty : b'.dirty = true)
  /-- A copy is taken. -/
  | take (hcopy : b'.copy = some b'.view)
  /-- The copy is saved. -/
  | save (v : β) (hcopy : b.copy = some v) (hsaved : b'.saved = some v) (hcopy' : b'.copy = none)
      (hview : b'.view = b.view) (hdirty : b'.dirty = b.dirty) (hpending : b'.pending = b.pending)

/-- What else is to be noted, and whoever else has a copy, does not matter to a step. -/
theorem Step.frame (h : Step b b') (pending : Bool) {copy : Option β}
    (hcopy : copy = none ∨ b.copy = none ∧ b'.copy = none) :
    Step { b with pending := b.pending || pending, copy := b.copy.or copy }
      { b' with pending := b'.pending || pending, copy := b'.copy.or copy } := by
  cases h with
  | idle hview hdirty hpending hsame hsaved => exact .idle hview hdirty (by rw [hpending]) (by rw [hsame]) hsaved
  | change hpending => exact .change (by rw [hpending, Bool.true_or])
  | mark hdirty => exact .mark hdirty
  | take htaken => exact .take (by rw [htaken, Option.some_or])
  | save v hv hsaved hcopy' hview hdirty hpending =>
    rcases hcopy with rfl | hnone
    · exact .save v (by rw [hv, Option.some_or]) hsaved (by rw [hcopy', Option.none_or]) hview hdirty
        (by rw [hpending])
    · cases hv.symm.trans hnone.1

/-- With nothing to be noted, what is on its way, or else what is saved, is what is shown. -/
def UpToDate (b : WriteBehind β) : Prop :=
  b.pending = false → b.dirty = false →
    (∀ v, b.copy = some v → v = b.view) ∧ (b.copy = none → ∀ v, b.saved = some v → v = b.view)

/-- **One step.** -/
theorem UpToDate.step (h : b.UpToDate) (hstep : Step b b') : b'.UpToDate := by
  intro hpending' hdirty'
  cases hstep with
  | idle hview hdirty hpending hcopy hsaved =>
    rw [hview, hcopy, hsaved]
    exact h (hpending ▸ hpending') (hdirty ▸ hdirty')
  | change hpending => cases hpending.symm.trans hpending'
  | mark hdirty => cases hdirty.symm.trans hdirty'
  | take hcopy =>
    rw [hcopy]
    exact ⟨fun v hv => (Option.some.inj hv).symm, fun hnone => by cases hnone⟩
  | save v hcopy hsaved hcopy' hview hdirty hpending =>
    rw [hview, hcopy', hsaved, ← hcopy]
    refine ⟨fun v hv => ?_, fun _ => (h (hpending ▸ hpending') (hdirty ▸ hdirty')).1⟩
    cases hv

/-- It holds from the start if nothing was saved yet. -/
theorem UpToDate.of_none (hcopy : b.copy = none) (hsaved : b.saved = none) : b.UpToDate := by
  refine fun _ _ => ⟨fun v hv => ?_, fun _ v hv => ?_⟩
  · cases hcopy.symm.trans hv
  · cases hsaved.symm.trans hv

/-- **What is saved is what is shown**, once nothing is left to be noted and to be saved. -/
theorem UpToDate.saved_eq (h : b.UpToDate) (hpending : b.pending = false) (hdirty : b.dirty = false)
    (hcopy : b.copy = none) {v : β} (hv : b.saved = some v) : v = b.view :=
  (h hpending hdirty).2 hcopy v hv

end WriteBehind

end Library
