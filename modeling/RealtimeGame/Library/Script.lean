import Mathlib.Logic.Basic

/-!
# Library/Script — programs that call out

A program is a tree: it makes a call and goes on with the answer.  Who answers is left open, so a program is
judged by what it does whatever the answers are (`Script.Meets`).
-/

namespace Library

variable {κ : Type} {A : κ → Type} {ρ ρ' : Type}

/-- **`Script A ρ`** — a program that makes calls, each answered by its `A`, and returns a `ρ`. -/
inductive Script (A : κ → Type) (ρ : Type)
  | ret (result : ρ)
  | ask (call : κ) (next : A call → Script A ρ)

namespace Script

/-- One call, for its answer. -/
def call (c : κ) : Script A (A c) := ask c ret

def bind : Script A ρ → (ρ → Script A ρ') → Script A ρ'
  | ret result, next => next result
  | ask c first, next => ask c fun answer => (first answer).bind next

instance : Monad (Script A) where
  pure := ret
  bind := bind

@[simp] theorem pure_eq (result : ρ) : (pure result : Script A ρ) = ret result := rfl

@[simp] theorem ret_bind (result : ρ) (next : ρ → Script A ρ') : ret result >>= next = next result := rfl

/-- What follows a program follows each of its answers. -/
@[simp] theorem ask_bind (c : κ) (first : A c → Script A ρ) (next : ρ → Script A ρ') :
    ask c first >>= next = ask c fun answer => first answer >>= next := rfl

@[simp] theorem call_bind (c : κ) (next : A c → Script A ρ) : call c >>= next = ask c next := rfl

/-! ## What a program does, whatever the answers

A program meets a contract if each of its calls is one that it may make after the calls and answers before,
and its result is one that it may have.  The rules follow the program: a result, a call, one program after
another. -/

/-- **The contract** — behind the calls `past`, the program makes only calls that it `may` make there, and its
result is as promised. -/
def Meets (may : List (Sigma A) → κ → Prop) (post : List (Sigma A) → ρ → Prop) :
    Script A ρ → List (Sigma A) → Prop
  | ret result, past => post past result
  | ask c next, past => may past c ∧ ∀ answer, (next answer).Meets may post (past ++ [⟨c, answer⟩])

variable {may may' : List (Sigma A) → κ → Prop} {post post' : List (Sigma A) → ρ → Prop}

@[simp] theorem meets_ret (result : ρ) (past : List (Sigma A)) :
    (ret result : Script A ρ).Meets may post past ↔ post past result := Iff.rfl

/-- A program that asks may ask, and then does right whatever the answer. -/
@[simp] theorem meets_ask (c : κ) (next : A c → Script A ρ) (past : List (Sigma A)) :
    (ask c next).Meets may post past ↔
      may past c ∧ ∀ answer, (next answer).Meets may post (past ++ [⟨c, answer⟩]) := Iff.rfl

/-- **The rule for a sequence**: what the first promises is what the second begins with. -/
theorem meets_bind (s : Script A ρ) (next : ρ → Script A ρ') (post : List (Sigma A) → ρ' → Prop)
    (past : List (Sigma A)) :
    (s >>= next).Meets may post past ↔ s.Meets may (fun past result => (next result).Meets may post past) past := by
  induction s generalizing past with
  | ret result => rfl
  | ask c first ih =>
    rw [ask_bind, meets_ask, meets_ask]
    exact and_congr_right fun _ => forall_congr' fun answer => ih answer _

/-- **The rule of consequence.** -/
theorem Meets.imp {s : Script A ρ} {past : List (Sigma A)} (h : s.Meets may post past)
    (hmay : ∀ past c, may past c → may' past c) (hpost : ∀ past result, post past result → post' past result) :
    s.Meets may' post' past := by
  induction s generalizing past with
  | ret result => exact hpost past result h
  | ask c next ih => exact ⟨hmay past c h.1, fun answer => ih answer (h.2 answer)⟩

/-- What was done stays done. -/
theorem Meets.remember {s : Script A ρ} {past : List (Sigma A)} (h : s.Meets may post past) :
    s.Meets may (fun past' result => past <+: past' ∧ post past' result) past := by
  induction s generalizing past with
  | ret result => exact ⟨List.prefix_rfl, h⟩
  | ask c next ih =>
    refine ⟨h.1, fun answer => (ih answer (h.2 answer)).imp (fun _ _ => id) fun past' result hpost => ?_⟩
    exact ⟨(List.prefix_append past _).trans hpost.1, hpost.2⟩

end Script

end Library
