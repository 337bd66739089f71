import RealtimeGame.Library.Table

/-!
# Library/Expiring — key-value tables whose entries may carry a deadline

An entry is there for as long as its deadline lies ahead.  Passing time only removes entries
(`peek_mono`); a write at one key leaves every other key alone (`peek_insert_ne`, `peek_erase_ne`).
-/

namespace Library

/-- A value, and the time from which it is gone; `none` keeps it for good. -/
structure Timed (ν : Type*) where
  value : ν
  expiresAt : Option Nat
  deriving DecidableEq, Repr

namespace Timed

variable {ν : Type*}

/-- Is the entry still there at `now`? -/
def alive (now : Nat) (e : Timed ν) : Bool := e.expiresAt.all (now < ·)

/-- An entry is there as long as its deadline lies ahead. -/
theorem alive_iff {now : Nat} {e : Timed ν} :
    e.alive now = true ↔ ∀ d, e.expiresAt = some d → now < d := by
  cases h : e.expiresAt <;> simp [alive, h]

/-- What is there later is there now. -/
theorem alive_mono {now later : Nat} (h : now ≤ later) {e : Timed ν} (he : e.alive later = true) :
    e.alive now = true := by
  rw [alive_iff] at he ⊢
  exact fun d hd => Nat.lt_of_le_of_lt h (he d hd)

end Timed

/-- A table of entries that expire. -/
abbrev Expiring (κ ν : Type*) := Table κ (Timed ν)

namespace Expiring

variable {κ ν : Type*} [DecidableEq κ]

/-- The entry at `k`, when it is still there. -/
def peek (now : Nat) (k : κ) (t : Expiring κ ν) : Option (Timed ν) :=
  (t.lookup k).filter (Timed.alive now)

/-- The value at `k`, when it is still there. -/
def get (now : Nat) (k : κ) (t : Expiring κ ν) : Option ν := (peek now k t).map Timed.value

theorem peek_eq_some {now : Nat} {k : κ} {t : Expiring κ ν} {e : Timed ν} :
    peek now k t = some e ↔ t.lookup k = some e ∧ e.alive now = true :=
  Option.filter_eq_some_iff

theorem get_eq_some {now : Nat} {k : κ} {t : Expiring κ ν} {v : ν} :
    get now k t = some v ↔ ∃ e, peek now k t = some e ∧ e.value = v :=
  Option.map_eq_some_iff

/-- **Time only takes entries away.** -/
theorem peek_mono {now later : Nat} (h : now ≤ later) {k : κ} {t : Expiring κ ν} {e : Timed ν}
    (he : peek later k t = some e) : peek now k t = some e := by
  rw [peek_eq_some] at he ⊢
  exact ⟨he.1, Timed.alive_mono h he.2⟩

/-- What is gone stays gone. -/
theorem peek_eq_none_mono {now later : Nat} (h : now ≤ later) {k : κ} {t : Expiring κ ν}
    (hnone : peek now k t = none) : peek later k t = none :=
  Option.eq_none_iff_forall_ne_some.mpr fun e he => by simp [peek_mono h he] at hnone

/-- What was just written is there unless its deadline has passed. -/
theorem peek_insert_self {now : Nat} {k : κ} {t : Expiring κ ν} {e : Timed ν} :
    peek now k (t.insert k e) = (some e).filter (Timed.alive now) := by
  rw [peek, AList.lookup_insert]

/-- A write leaves every other key alone. -/
theorem peek_insert_ne {now : Nat} {k k' : κ} (h : k' ≠ k) {t : Expiring κ ν} {e : Timed ν} :
    peek now k' (t.insert k e) = peek now k' t := by
  rw [peek, AList.lookup_insert_ne h, peek]

theorem peek_erase_self {now : Nat} {k : κ} {t : Expiring κ ν} :
    peek now k (t.erase k) = none := by
  rw [peek, AList.lookup_erase]; rfl

/-- …and so does a deletion. -/
theorem peek_erase_ne {now : Nat} {k k' : κ} (h : k' ≠ k) {t : Expiring κ ν} :
    peek now k' (t.erase k) = peek now k' t := by
  rw [peek, AList.lookup_erase_ne h, peek]

end Expiring

end Library
