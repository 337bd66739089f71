import Mathlib.Data.List.AList

/-!
# Library/Table — finite tables, and what each update does to a lookup

A table is an association list with distinct keys.  Every update is described once, by the lookups
of its result (`lookup_adjust`, `lookup_mapVals`, `lookup_filter`, `lookup_foldl_erase`), so a proof
about a table never opens its entry list.
-/

namespace Library

/-- A finite table: each key is bound at most once. -/
abbrev Table (κ ν : Type*) := AList fun _ : κ => ν

namespace Table

variable {κ ν : Type*}

/-- Apply `f` to every value. -/
def mapVals (f : κ → ν → ν) (t : Table κ ν) : Table κ ν where
  entries := t.entries.map fun e => ⟨e.1, f e.1 e.2⟩
  nodupKeys := by
    have h := t.nodupKeys
    rw [List.NodupKeys, List.keys] at h ⊢
    simpa [List.map_map, Function.comp_def] using h

/-- Keep the bindings that satisfy `p`. -/
def filter (p : κ → ν → Bool) (t : Table κ ν) : Table κ ν where
  entries := t.entries.filter fun e => p e.1 e.2
  nodupKeys := by
    have h := t.nodupKeys
    rw [List.NodupKeys, List.keys] at h ⊢
    exact h.sublist (List.filter_sublist.map _)

/-- The bindings, as pairs. -/
def toPairs (t : Table κ ν) : List (κ × ν) := t.entries.map fun e => (e.1, e.2)

theorem toPairs_keys (t : Table κ ν) : t.toPairs.map Prod.fst = t.keys := by
  simp [toPairs, AList.keys, List.keys, List.map_map, Function.comp_def]

/-- No key stands twice. -/
theorem nodup_toPairs (t : Table κ ν) : (t.toPairs.map Prod.fst).Nodup :=
  t.toPairs_keys ▸ t.keys_nodup

/-- The number of bindings. -/
def size (t : Table κ ν) : Nat := t.keys.length

theorem size_empty : size (∅ : Table κ ν) = 0 := rfl

@[simp] theorem size_mapVals (f : κ → ν → ν) (t : Table κ ν) : (mapVals f t).size = t.size := by
  simp [size, mapVals, AList.keys, List.keys]

/-! ## Rows that are new

A loop over rows that share no key with each other and with what was there adds what each of them adds alone. -/

/-- **A loop over rows with keys of their own** adds what each row adds, and keeps `m`, if one step does so
for a row whose keys are new. -/
theorem foldl_new {σ ρ μ : Type*} {f : σ → ρ → σ} (m : σ → μ) (has : σ → κ → ν → Prop)
    (owns : ρ → κ → Prop) (adds : ρ → κ → ν → Prop) (hadds : ∀ row k v, adds row k v → owns row k)
    (hone : ∀ acc row, (∀ k v, owns row k → ¬has acc k v) → m (f acc row) = m acc ∧
      ∀ k v, has (f acc row) k v ↔ has acc k v ∨ adds row k v)
    {rows : List ρ} (hapart : rows.Pairwise fun row row' => ∀ k, owns row k → ¬owns row' k) (acc : σ)
    (hnew : ∀ row ∈ rows, ∀ k v, owns row k → ¬has acc k v) :
    m (rows.foldl f acc) = m acc ∧
      ∀ k v, has (rows.foldl f acc) k v ↔ has acc k v ∨ ∃ row ∈ rows, adds row k v := by
  induction rows generalizing acc with
  | nil => exact ⟨rfl, by simp⟩
  | cons row rows ih =>
    obtain ⟨hout, hapart⟩ := List.pairwise_cons.mp hapart
    obtain ⟨hsame, hhas⟩ := hone acc row (hnew row List.mem_cons_self)
    have hrest : ∀ row' ∈ rows, ∀ k v, owns row' k → ¬has (f acc row) k v := by
      intro row' hrow' k v hk hv
      rcases (hhas k v).mp hv with hold | hadd
      · exact hnew row' (List.mem_cons_of_mem _ hrow') k v hk hold
      · exact hout row' hrow' k (hadds row k v hadd) hk
    obtain ⟨hm, hall⟩ := ih hapart (f acc row) hrest
    rw [List.foldl_cons]
    refine ⟨hm.trans hsame, fun k v => ?_⟩
    rw [hall, hhas, or_assoc]
    simp only [List.mem_cons, exists_eq_or_imp]

/-! ## Lookups

What each operation does to what is found under a key: these are all that is used of the operations
elsewhere. -/

variable [DecidableEq κ]

/-- Apply `f` to the value at `k`, where there is one. -/
def adjust (k : κ) (f : ν → ν) : Table κ ν → Table κ ν :=
  mapVals fun k' v => if k' = k then f v else v

/-- A lookup finds what is an entry. -/
theorem lookup_eq_some_iff {t : Table κ ν} {k : κ} {v : ν} :
    t.lookup k = some v ↔ (⟨k, v⟩ : Sigma fun _ : κ => ν) ∈ t.entries :=
  AList.mem_lookup_iff

/-- The pairs are what lookups find. -/
theorem mem_toPairs {t : Table κ ν} {k : κ} {v : ν} :
    (k, v) ∈ t.toPairs ↔ t.lookup k = some v := by
  rw [lookup_eq_some_iff, toPairs, List.mem_map]
  constructor
  · rintro ⟨⟨k', v'⟩, hmem, heq⟩
    cases heq
    exact hmem
  · exact fun hmem => ⟨_, hmem, rfl⟩

/-- What holds of all pairs holds of all lookups. -/
theorem forall_lookup {P : κ → ν → Prop} {t : Table κ ν} :
    (∀ e ∈ t.toPairs, P e.1 e.2) ↔ ∀ k v, t.lookup k = some v → P k v :=
  ⟨fun h _ _ hv => h _ (mem_toPairs.mpr hv), fun h e he => h e.1 e.2 (mem_toPairs.mp he)⟩

instance {P : κ → ν → Prop} [∀ k v, Decidable (P k v)] {t : Table κ ν} :
    Decidable (∀ k v, t.lookup k = some v → P k v) :=
  decidable_of_iff _ forall_lookup

/-- A change of all values changes what each lookup finds. -/
@[simp] theorem lookup_mapVals (f : κ → ν → ν) (t : Table κ ν) (k : κ) :
    (mapVals f t).lookup k = (t.lookup k).map (f k) := by
  refine Option.ext fun v => ?_
  simp only [Option.map_eq_some_iff, lookup_eq_some_iff, mapVals, List.mem_map]
  constructor
  · rintro ⟨⟨k', w⟩, hmem, heq⟩
    cases heq
    exact ⟨w, hmem, rfl⟩
  · rintro ⟨w, hmem, rfl⟩
    exact ⟨_, hmem, rfl⟩

/-- What does not pass the filter is not found. -/
@[simp] theorem lookup_filter (p : κ → ν → Bool) (t : Table κ ν) (k : κ) :
    (filter p t).lookup k = (t.lookup k).filter (p k) := by
  refine Option.ext fun v => ?_
  rw [Option.filter_eq_some_iff, lookup_eq_some_iff, lookup_eq_some_iff, filter, List.mem_filter]

/-- An adjustment changes one row, if it is there. -/
theorem lookup_adjust (k k' : κ) (f : ν → ν) (t : Table κ ν) :
    (adjust k f t).lookup k' = (t.lookup k').map fun v => if k' = k then f v else v :=
  lookup_mapVals _ t k'

@[simp] theorem lookup_adjust_self (k : κ) (f : ν → ν) (t : Table κ ν) :
    (adjust k f t).lookup k = (t.lookup k).map f := by simp [lookup_adjust]

theorem lookup_adjust_ne {k k' : κ} (h : k' ≠ k) (f : ν → ν) (t : Table κ ν) :
    (adjust k f t).lookup k' = t.lookup k' := by simp [lookup_adjust, h]

/-- What was written last is found. -/
theorem lookup_insert' (k k' : κ) (v : ν) (t : Table κ ν) :
    (t.insert k v).lookup k' = if k' = k then some v else t.lookup k' := by
  split
  case isTrue heq => subst heq; exact AList.lookup_insert t
  case isFalse hne => exact AList.lookup_insert_ne hne

/-- What is there stays when a new key is added. -/
theorem lookup_insert_of_new {k k' : κ} {v w : ν} {t : Table κ ν} (hnew : t.lookup k = none)
    (h : t.lookup k' = some w) : (t.insert k v).lookup k' = some w := by
  rw [AList.lookup_insert_ne]
  · exact h
  · rintro rfl
    cases hnew.symm.trans h

/-- What was deleted is not found. -/
theorem lookup_erase' (k k' : κ) (t : Table κ ν) :
    (t.erase k).lookup k' = if k' = k then none else t.lookup k' := by
  split
  case isTrue heq => subst heq; exact AList.lookup_erase _ t
  case isFalse hne => exact AList.lookup_erase_ne hne

/-- A new key is one row more, -/
theorem size_insert {k : κ} {t : Table κ ν} (h : t.lookup k = none) (v : ν) :
    size (t.insert k v) = t.size + 1 := by
  rw [size, AList.keys_insert, List.length_cons, List.erase_of_not_mem (AList.lookup_eq_none.mp h), size]

/-- …and a deleted one is a row less. -/
theorem size_erase {k : κ} {t : Table κ ν} {v : ν} (h : t.lookup k = some v) :
    size (t.erase k) + 1 = t.size := by
  have hmem : k ∈ t.keys := AList.lookup_isSome.mp (Option.isSome_iff_exists.mpr ⟨v, h⟩)
  rw [size, AList.keys_erase, List.length_erase_of_mem hmem, size,
    Nat.sub_add_cancel (List.length_pos_of_mem hmem)]

/-- **Many deletions**: none of the keys is found, and the others are as they were. -/
theorem lookup_foldl_erase (ks : List κ) (t : Table κ ν) (k : κ) :
    (ks.foldl (fun t k => t.erase k) t).lookup k = if k ∈ ks then none else t.lookup k := by
  induction ks generalizing t with
  | nil => simp
  | cons k' ks ih =>
    rw [List.foldl_cons, ih, lookup_erase']
    by_cases hks : k ∈ ks
    · simp [hks]
    · by_cases hk : k = k' <;> simp [hk, hks]

theorem mem_foldl_erase {ks : List κ} {t : Table κ ν} {k : κ} :
    k ∈ ks.foldl (fun t k => t.erase k) t ↔ k ∉ ks ∧ k ∈ t := by
  rw [← AList.lookup_isSome, lookup_foldl_erase, ← AList.lookup_isSome]
  split <;> simp [*]

/-- Many writes add their keys and no others. -/
theorem mem_foldl_insert {ι : Type*} {key : ι → κ} {val : ι → ν} {es : List ι} {t : Table κ ν} {k : κ} :
    k ∈ es.foldl (fun t e => t.insert (key e) (val e)) t ↔ k ∈ t ∨ ∃ e ∈ es, key e = k := by
  induction es generalizing t with
  | nil => simp
  | cons e es ih =>
    simp only [List.foldl_cons, ih, AList.mem_insert, List.exists_mem_cons_iff, eq_comm, or_assoc,
      or_left_comm]

/-- Changes of several bindings, one for each item of a list. -/
theorem lookup_foldl_adjust_each {ι : Type*} (key : ι → κ) (f : ι → ν → ν) (es : List ι) (t : Table κ ν)
    (k : κ) :
    (es.foldl (fun t e => t.adjust (key e) (f e)) t).lookup k
      = (t.lookup k).map fun v => (es.filter (key · = k)).foldl (fun v e => f e v) v := by
  induction es generalizing t with
  | nil => simp
  | cons e es ih =>
    rw [List.foldl_cons, ih, lookup_adjust, Option.map_map]
    refine congrArg (Option.map · (t.lookup k)) (funext fun v => ?_)
    by_cases hk : key e = k
    · simp [hk]
    · simp [hk, Ne.symm hk]

/-- Adjustments make no rows. -/
theorem size_foldl_adjust {ι : Type*} (key : ι → κ) (f : ι → ν → ν) (es : List ι) (t : Table κ ν) :
    (es.foldl (fun t e => t.adjust (key e) (f e)) t).size = t.size := by
  induction es generalizing t with
  | nil => rfl
  | cons e es ih => rw [List.foldl_cons, ih, adjust, size_mapVals]

/-- Where the last change of a binding makes up for the ones before it. -/
theorem lookup_foldl_adjust_last {ι : Type*} (key : ι → κ) {f : ι → ν → ν}
    (hf : ∀ e e' v, f e' (f e v) = f e' v) (es : List ι) (t : Table κ ν) (k : κ) :
    (es.foldl (fun t e => t.adjust (key e) (f e)) t).lookup k
      = (t.lookup k).map fun v => (es.filter (key · = k)).getLast?.elim v (f · v) := by
  have hlast : ∀ (es : List ι) v, es.foldl (fun v e => f e v) v = es.getLast?.elim v (f · v) := by
    intro es v
    induction es generalizing v with
    | nil => rfl
    | cons e es ih =>
      rw [List.foldl_cons, ih, List.getLast?_cons]
      rcases es.getLast? with - | e'
      · rfl
      · exact hf e e' v
  simp only [lookup_foldl_adjust_each, hlast]

/-- An idempotent change of several bindings. -/
theorem lookup_foldl_adjust_all {ι : Type*} (key : ι → κ) {f : ν → ν}
    (hf : ∀ v, f (f v) = f v) (es : List ι) (t : Table κ ν) (k : κ) :
    (es.foldl (fun t e => t.adjust (key e) f) t).lookup k
      = (t.lookup k).map fun v => if k ∈ es.map key then f v else v := by
  rw [lookup_foldl_adjust_last key fun _ _ => hf]
  refine congrArg (Option.map · (t.lookup k)) (funext fun v => ?_)
  by_cases hmem : k ∈ es.map key
  · obtain ⟨e, he, rfl⟩ := List.mem_map.mp hmem
    have hne : es.filter (key · = key e) ≠ [] :=
      List.ne_nil_of_mem (List.mem_filter.mpr ⟨he, by simp⟩)
    rw [if_pos hmem, List.getLast?_eq_getLast_of_ne_nil hne]
    rfl
  · have hnil : es.filter (key · = k) = [] := by
      refine List.filter_eq_nil_iff.mpr fun e he => ?_
      simpa using fun heq => hmem (List.mem_map.mpr ⟨e, he, heq⟩)
    rw [if_neg hmem, hnil]
    rfl

/-- **Many adjustments** that can be repeated without effect are one for each key. -/
theorem lookup_foldl_adjust {f : ν → ν} (hf : ∀ v, f (f v) = f v) (ks : List κ) (t : Table κ ν)
    (k : κ) :
    (ks.foldl (fun t k => t.adjust k f) t).lookup k
      = (t.lookup k).map fun v => if k ∈ ks then f v else v := by
  simpa using lookup_foldl_adjust_all (fun k => k) hf ks t k

end Table

end Library
