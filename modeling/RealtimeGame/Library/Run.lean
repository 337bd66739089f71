import Mathlib.Data.List.Induction

/-!
# Library/Run — finite runs of a labelled transition relation

A run is the list of labels it takes, in order, between two states.  A property of every run is
proved by one step lemma (`Run.invariant`, or `Run.invariant_of_history` where it is about the labels
too), and a property of the middle of a run by cutting the run in two (`Run.append_iff`).
-/

namespace Library

variable {σ α β : Type*}

/-- **`Run R s as t`** — from `s`, taking the labels `as` one by one, `R` reaches `t`. -/
inductive Run (R : σ → α → σ → Prop) : σ → List α → σ → Prop
  | nil (s : σ) : Run R s [] s
  | cons {s m t : σ} {a : α} {as : List α} (step : R s a m) (rest : Run R m as t) :
      Run R s (a :: as) t

namespace Run

variable {R S : σ → α → σ → Prop} {s m t : σ} {a : α} {as bs : List α}

@[simp] theorem nil_iff : Run R s [] t ↔ s = t :=
  ⟨fun h => by cases h; rfl, fun h => h ▸ .nil s⟩

/-- A run begins with one step, and goes on from where that leads. -/
theorem cons_iff : Run R s (a :: as) t ↔ ∃ m, R s a m ∧ Run R m as t :=
  ⟨fun h => by cases h with | cons step rest => exact ⟨_, step, rest⟩,
    fun ⟨_, step, rest⟩ => .cons step rest⟩

theorem single (h : R s a t) : Run R s [a] t := .cons h (.nil t)

/-- A run splits exactly at any point of its label list. -/
theorem append_iff : Run R s (as ++ bs) t ↔ ∃ m, Run R s as m ∧ Run R m bs t := by
  induction as generalizing s with
  | nil => simp
  | cons a as ih =>
    simp only [List.cons_append, cons_iff, ih]
    constructor
    · rintro ⟨n, hstep, m, hleft, hright⟩
      exact ⟨m, ⟨n, hstep, hleft⟩, hright⟩
    · rintro ⟨m, ⟨n, hstep, hleft⟩, hright⟩
      exact ⟨n, hstep, m, hleft, hright⟩

/-- Runs follow one another. -/
theorem append (h : Run R s as m) (h' : Run R m bs t) : Run R s (as ++ bs) t :=
  append_iff.mpr ⟨m, h, h'⟩

theorem snoc (h : Run R s as m) (step : R m a t) : Run R s (as ++ [a]) t :=
  h.append (single step)

/-- **The invariant rule** — what every step preserves, every run preserves. -/
theorem invariant {I : σ → Prop} (hstep : ∀ s a t, I s → R s a t → I t) (h : Run R s as t)
    (hs : I s) : I t := by
  induction h with
  | nil => exact hs
  | cons step rest ih => exact ih (hstep _ _ _ hs step)

/-- **The guarded invariant rule** — what every step that meets the guard preserves holds at the end
of every run whose steps all meet it. -/
theorem invariant_of_guard {I : σ → Prop} {G : σ → α → Prop}
    (hstep : ∀ s a t, I s → G s a → R s a t → I t) (h : Run R s as t)
    (hguard : ∀ pre a post m, as = pre ++ a :: post → Run R s pre m → G m a) (hs : I s) : I t := by
  induction h with
  | nil => exact hs
  | @cons s m t a as step rest ih =>
    refine ih (fun pre b post n heq hpre => ?_) (hstep _ _ _ hs (hguard [] a as s rfl (.nil s)) step)
    exact hguard (a :: pre) b post n (by rw [heq]; rfl) (.cons step hpre)

/-- **The history rule** — an invariant of a state and of the labels that led to it. -/
theorem invariant_of_history {I : List α → σ → Prop}
    (hstep : ∀ as m a t, Run R s as m → I as m → R m a t → I (as ++ [a]) t) (h : Run R s as t)
    (hs : I [] s) : I as t := by
  induction as using List.reverseRecOn generalizing t with
  | nil =>
    cases h
    exact hs
  | append_singleton as a ih =>
    obtain ⟨m, hpre, hlast⟩ := append_iff.mp h
    obtain ⟨t', hstep', hnil⟩ := cons_iff.mp hlast
    cases hnil
    exact hstep as m a t hpre (ih hpre) hstep'

/-- **The first time** — a run that ends in `P` reaches `P` a first time, and what every step before that
preserves holds there. -/
theorem first {P I : σ → Prop} (hstep : ∀ s a t, I s → ¬P s → R s a t → I t) (h : Run R s as t)
    (hs : I s) (ht : P t) : ∃ pre post m, as = pre ++ post ∧ Run R s pre m ∧ P m ∧ I m := by
  induction h with
  | nil s => exact ⟨[], [], s, rfl, .nil s, ht, hs⟩
  | @cons s m t a as step rest ih =>
    by_cases hnow : P s
    · exact ⟨[], a :: as, s, rfl, .nil s, hnow, hs⟩
    · obtain ⟨pre, post, n, rfl, hpre, hn⟩ := ih (hstep _ _ _ hs hnow step) ht
      exact ⟨a :: pre, post, n, rfl, .cons step hpre, hn⟩

/-- Where the label determines the step, it determines the run. -/
theorem unique (hR : ∀ s a t t', R s a t → R s a t' → t = t') (h : Run R s as t)
    (h' : Run R s as m) : t = m := by
  induction h with
  | nil => exact nil_iff.mp h'
  | cons step rest ih =>
    cases h' with
    | cons step' rest' => exact ih (hR _ _ _ _ step' step ▸ rest')

/-- The run of a step function ends where the function leads to. -/
theorem eq_foldl {f : σ → α → σ} (hR : ∀ s a t, R s a t → t = f s a) (h : Run R s as t) :
    t = as.foldl f s := by
  induction h with
  | nil => rfl
  | cons step rest ih =>
    obtain rfl := hR _ _ _ step
    exact ih

/-- A reflexive and transitive comparison that every step respects relates the two ends. -/
theorem related {P : σ → σ → Prop} (hrefl : ∀ s, P s s) (htrans : ∀ r s t, P r s → P s t → P r t)
    (hstep : ∀ s a t, R s a t → P s t) (h : Run R s as t) : P s t := by
  induction h with
  | nil s => exact hrefl s
  | cons step rest ih => exact htrans _ _ _ (hstep _ _ _ step) ih

/-- **One step more**: a guard holds at every step of the longer run if it does at those before and at the
last. -/
theorem steps_snoc {G : σ → α → Prop} (hR : ∀ s a t t', R s a t → R s a t' → t = t') (h : Run R s as t) :
    (∀ pre b post m, as ++ [a] = pre ++ b :: post → Run R s pre m → G m b) ↔
      (∀ pre b post m, as = pre ++ b :: post → Run R s pre m → G m b) ∧ G t a := by
  constructor
  · intro hall
    refine ⟨fun pre b post m heq hpre => ?_, hall as a [] t rfl h⟩
    exact hall pre b (post ++ [a]) m (by rw [heq, List.append_assoc, List.cons_append]) hpre
  · rintro ⟨hold, hlast⟩ pre b post m heq hpre
    rcases List.eq_nil_or_concat post with rfl | ⟨post, c, rfl⟩
    · obtain ⟨rfl, hlabel⟩ := List.append_inj' heq rfl
      cases hlabel
      obtain rfl := h.unique hR hpre
      exact hlast
    · rw [List.concat_eq_append, ← List.cons_append, ← List.append_assoc] at heq
      exact hold pre b post m (List.append_inj' heq rfl).1 hpre

/-- A run may be read under a weaker relation, with an invariant at hand at every step. -/
theorem mono {I : σ → Prop} (hstep : ∀ s a t, I s → R s a t → I t)
    (himp : ∀ s a t, I s → R s a t → S s a t) (h : Run R s as t) (hs : I s) : Run S s as t := by
  induction h with
  | nil s => exact .nil s
  | cons step rest ih => exact .cons (himp _ _ _ hs step) (ih (hstep _ _ _ hs step))

/-- **The simulation rule** — where every step is matched by a run of the other relation, so is every run. -/
theorem simulation {τ : Type*} {S : τ → β → τ → Prop} {f : σ → τ}
    (hstep : ∀ s a t, R s a t → ∃ bs, Run S (f s) bs (f t)) (h : Run R s as t) : ∃ bs, Run S (f s) bs (f t) := by
  induction h with
  | nil s => exact ⟨[], .nil _⟩
  | cons step rest ih =>
    obtain ⟨bs, hfirst⟩ := hstep _ _ _ step
    obtain ⟨cs, hrest⟩ := ih
    exact ⟨bs ++ cs, hfirst.append hrest⟩

/-- The guard holds at every step of the run of a step function. -/
def Guarded (G : σ → α → Prop) (f : σ → α → σ) : σ → List α → Prop
  | _, [] => True
  | s, a :: as => G s a ∧ Guarded G f (f s a) as

instance Guarded.decidable {G : σ → α → Prop} [∀ s a, Decidable (G s a)] {f : σ → α → σ} :
    ∀ s as, Decidable (Guarded G f s as)
  | _, [] => .isTrue trivial
  | s, a :: as =>
    have := Guarded.decidable (G := G) (f := f) (f s a) as
    inferInstanceAs (Decidable (_ ∧ _))

/-- A guard along a list is one along its parts. -/
theorem guarded_append {G : σ → α → Prop} {f : σ → α → σ} :
    Guarded G f s (as ++ bs) ↔ Guarded G f s as ∧ Guarded G f (as.foldl f s) bs := by
  induction as generalizing s with
  | nil => exact (and_iff_right trivial).symm
  | cons a as ih =>
    rw [List.cons_append, Guarded, ih, Guarded, List.foldl_cons, and_assoc]

/-- **What holds all along** — where a guard keeps an invariant that implies `P`, and `P` after a step implies
the guard of it, `P` holds in every state of a run exactly if every step of it is guarded. -/
theorem always_iff {P I : σ → Prop} {G : σ → α → Prop} {f : σ → α → σ} (hs : I s) (hholds : ∀ s, I s → P s)
    (as : List α) (hkeep : ∀ s, ∀ a ∈ as, I s → G s a → I (f s a))
    (hguard : ∀ s, ∀ a ∈ as, P (f s a) → G s a) :
    (∀ pre, pre <+: as → P (pre.foldl f s)) ↔ ∀ pre a post, as = pre ++ a :: post → G (pre.foldl f s) a := by
  constructor
  · rintro hall pre a post rfl
    have hnext := hall (pre ++ [a]) ⟨post, by simp⟩
    rw [List.foldl_append] at hnext
    exact hguard _ a (by simp) hnext
  · rintro hguarded pre ⟨post, rfl⟩
    refine hholds _ ?_
    induction pre using List.reverseRecOn generalizing post with
    | nil => exact hs
    | append_singleton pre a ih =>
      rw [List.append_assoc, List.singleton_append] at hkeep hguard hguarded
      rw [List.foldl_append]
      exact hkeep _ a (by simp) (ih (a :: post) hkeep hguard hguarded) (hguarded pre a post rfl)

/-- **`Since f s as a P`** — the labels `as` take `a` at some point, and after it and after every label
that follows `P` holds. -/
def Since (f : σ → α → σ) (s : σ) (as : List α) (a : α) (P : σ → Prop) : Prop :=
  ∃ pre post, as = pre ++ a :: post ∧ ∀ mid, mid <+: post → P ((pre ++ a :: mid).foldl f s)

/-- It begins with the label itself. -/
theorem Since.start {f : σ → α → σ} {P : σ → Prop} (h : P ((as ++ [a]).foldl f s)) :
    Since f s (as ++ [a]) a P := by
  refine ⟨as, [], rfl, fun mid hmid => ?_⟩
  rw [List.prefix_nil.mp hmid]
  exact h

/-- It goes on for as long as `P` does. -/
theorem Since.snoc {f : σ → α → σ} {P : σ → Prop} {b : α} (h : Since f s as a P)
    (hb : P ((as ++ [b]).foldl f s)) : Since f s (as ++ [b]) a P := by
  obtain ⟨pre, post, rfl, hpost⟩ := h
  refine ⟨pre, post ++ [b], by rw [List.append_assoc, List.cons_append], fun mid hmid => ?_⟩
  rcases List.prefix_concat_iff.mp hmid with rfl | hmid
  · rw [← List.cons_append, ← List.append_assoc]
    exact hb
  · exact hpost mid hmid

/-- The run of a step function is one fold. -/
theorem of_guarded {G : σ → α → Prop} {f : σ → α → σ} (h : Guarded G f s as) :
    Run (fun s a t => G s a ∧ t = f s a) s as (as.foldl f s) := by
  induction as generalizing s with
  | nil => exact .nil s
  | cons a as ih => exact .cons ⟨h.1, rfl⟩ (ih h.2)

/-- A step function runs whatever it is given. -/
theorem of_fun (f : σ → α → σ) (s : σ) (as : List α) :
    Run (fun s a t => t = f s a) s as (as.foldl f s) := by
  induction as generalizing s with
  | nil => exact .nil s
  | cons a as ih => exact .cons rfl (ih _)

end Run

end Library
