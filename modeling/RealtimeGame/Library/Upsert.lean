import Mathlib.Data.List.Induction
import Mathlib.Data.List.Nodup

/-!
# Library/Upsert — a list with one entry for each key

An update changes the entry of its key, and adds one at the end if there is none.  So an entry is what the
updates of its key have made of the first of them (`find?_foldl_upsert`), whatever came between them.
-/

namespace Library

variable {κ β ι : Type*} [DecidableEq κ] (key : β → κ)

/-- Change the first entry of `k`; without one, `fresh` is added at the end and changed. -/
def upsert (k : κ) (fresh : β) (change : β → β) : List β → List β
  | [] => [change fresh]
  | b :: entries => if key b = k then change b :: entries else b :: upsert k fresh change entries

/-- The entry of a key. -/
def entry (entries : List β) (k : κ) : Option β := entries.find? fun b => key b = k

variable {key} {k : κ} {fresh : β} {change : β → β}

/-- **An upsert changes the entry of its key**, from a fresh one if there was none, and no other. -/
theorem entry_upsert (hfresh : key fresh = k) (hchange : ∀ b, key (change b) = key b) (entries : List β)
    (k' : κ) :
    entry key (upsert key k fresh change entries) k' =
      if k' = k then some (change ((entry key entries k).getD fresh)) else entry key entries k' := by
  induction entries with
  | nil =>
    rw [upsert, entry, List.find?_singleton, hchange, hfresh]
    by_cases hk : k' = k
    · rw [if_pos hk, if_pos (decide_eq_true hk.symm)]
      rfl
    · rw [if_neg hk, if_neg (by simpa using Ne.symm hk)]
      rfl
  | cons b entries ih =>
    rw [entry] at ih
    rw [upsert]
    by_cases hb : key b = k
    · rw [if_pos hb, entry, entry, entry, List.find?_cons, List.find?_cons, List.find?_cons, hchange, hb]
      by_cases hk : k' = k
      · rw [if_pos hk, hk, decide_eq_true rfl]
        rfl
      · rw [if_neg hk, decide_eq_false (Ne.symm hk)]
    · rw [if_neg hb, entry, entry, entry, List.find?_cons, List.find?_cons, List.find?_cons, ih,
        decide_eq_false hb]
      by_cases hk : k' = k
      · rw [if_pos hk, if_pos hk, hk, decide_eq_false hb, entry]
      · rw [if_neg hk, if_neg hk, entry]

/-- A key is added at the end if it is new. -/
theorem keys_upsert (hfresh : key fresh = k) (hchange : ∀ b, key (change b) = key b) (entries : List β) :
    (upsert key k fresh change entries).map key =
      if k ∈ entries.map key then entries.map key else entries.map key ++ [k] := by
  induction entries with
  | nil =>
    rw [upsert, List.map_singleton, hchange, hfresh, List.map_nil, if_neg List.not_mem_nil, List.nil_append]
  | cons b entries ih =>
    rw [upsert, List.map_cons]
    by_cases hb : key b = k
    · rw [if_pos hb, if_pos (hb ▸ List.mem_cons_self), List.map_cons, hchange]
    · have hmem : k ∈ key b :: entries.map key ↔ k ∈ entries.map key := by
        rw [List.mem_cons]
        exact or_iff_right (Ne.symm hb)
      rw [if_neg hb, List.map_cons, ih]
      by_cases hk : k ∈ entries.map key
      · rw [if_pos hk, if_pos (hmem.mpr hk)]
      · rw [if_neg hk, if_neg (mt hmem.mp hk), List.cons_append]

/-- So no key stands twice. -/
theorem nodup_upsert (hfresh : key fresh = k) (hchange : ∀ b, key (change b) = key b) {entries : List β}
    (h : (entries.map key).Nodup) : ((upsert key k fresh change entries).map key).Nodup := by
  rw [keys_upsert hfresh hchange]
  split
  · exact h
  case isFalse hk =>
    rw [← List.concat_eq_append]
    exact List.Nodup.concat hk h

section Updates

variable {item : ι → κ} {fresh : ι → β} {change : ι → β → β}

/-- The entries that are left by updates. -/
def upserts (key : β → κ) (item : ι → κ) (fresh : ι → β) (change : ι → β → β) (updates : List ι) : List β :=
  updates.foldl (fun entries i => upsert key (item i) (fresh i) (change i) entries) []

/-- What updates of one key make of the first of them. -/
def accumulate (fresh : ι → β) (change : ι → β → β) (updates : List ι) : Option β :=
  updates.head?.map fun first => updates.foldl (fun b i => change i b) (fresh first)

/-- The last update comes on top of the others. -/
theorem accumulate_concat (updates : List ι) (i : ι) :
    accumulate fresh change (updates ++ [i]) =
      some (change i ((accumulate fresh change updates).getD (fresh i))) := by
  cases updates with
  | nil => rfl
  | cons first updates =>
    rw [accumulate, accumulate, List.cons_append, List.head?_cons, List.head?_cons, Option.map_some,
      Option.map_some, ← List.cons_append, List.foldl_append]
    rfl

/-- **An entry** is made by the updates of its key alone. -/
theorem entry_upserts (hfresh : ∀ i, key (fresh i) = item i) (hchange : ∀ i b, key (change i b) = key b)
    (updates : List ι) (k : κ) :
    entry key (upserts key item fresh change updates) k =
      accumulate fresh change (updates.filter fun i => item i = k) := by
  induction updates using List.reverseRecOn generalizing k with
  | nil => rfl
  | append_singleton updates i ih =>
    rw [upserts, List.foldl_concat, ← upserts, entry_upsert (hfresh i) (hchange i), List.filter_append,
      List.filter_singleton]
    by_cases hk : k = item i
    · rw [if_pos hk, ih, hk, decide_eq_true rfl, cond_true, accumulate_concat]
    · rw [if_neg hk, ih, decide_eq_false (Ne.symm hk), cond_false, List.append_nil]

/-- …however many upserts there are. -/
theorem nodup_upserts (hfresh : ∀ i, key (fresh i) = item i) (hchange : ∀ i b, key (change i b) = key b)
    (updates : List ι) : ((upserts key item fresh change updates).map key).Nodup := by
  induction updates using List.reverseRecOn with
  | nil => exact List.nodup_nil
  | append_singleton updates i ih =>
    rw [upserts, List.foldl_concat, ← upserts]
    exact nodup_upsert (hfresh i) (hchange i) ih

end Updates

/-- An entry is found under its key. -/
theorem entry_eq_some {entries : List β} (h : (entries.map key).Nodup) {b : β} (hb : b ∈ entries) :
    entry key entries (key b) = some b := by
  induction entries with
  | nil => cases hb
  | cons c entries ih =>
    rw [List.map_cons, List.nodup_cons] at h
    rw [entry, List.find?_cons]
    rcases List.mem_cons.mp hb with rfl | hb
    · rw [decide_eq_true rfl]
    · have hne : key c ≠ key b := fun heq => h.1 (heq ▸ List.mem_map_of_mem hb)
      rw [decide_eq_false hne]
      exact ih h.2 hb

theorem entry_isSome {entries : List β} : (entry key entries k).isSome ↔ k ∈ entries.map key := by
  rw [entry, List.find?_isSome, List.mem_map]
  exact exists_congr fun b => and_congr_right fun _ => decide_eq_true_iff

end Library
