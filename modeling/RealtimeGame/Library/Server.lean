import RealtimeGame.Library.Run
import RealtimeGame.Library.Script

/-!
# Library/Server — many programs on one world

A server runs one program for each request.  Every call of a program is one step of the world, and anything may
happen between two of them: the steps of other requests, and what the world does by itself.  What a program
keeps to whatever the answers, its thread keeps to in every run (`Server.contract`); what every call of a
program that keeps to it preserves is an invariant of the world and of the calls made so far
(`Server.invariant`).
-/

namespace Library

variable {κ : Type} {A : κ → Type} {τ ρ ω ε σ : Type}

/-- **`Server`** — the program of a request `τ`; how the world `σ` answers a call, what else `ω` the answer
depends on, and what is possible there; and what happens by itself. -/
structure Server (A : κ → Type) (τ ρ ω ε σ : Type) where
  program : τ → Script A ρ
  perform : (c : κ) → ω → σ → A c × σ
  admits : (c : κ) → ω → σ → Prop
  happen : ε → σ → σ
  occurs : ε → σ → Prop

namespace Server

/-- A request on its way. -/
structure Thread (A : κ → Type) (τ ρ : Type) where
  request : τ
  script : Script A ρ

/-- A call that was made: by which thread, with what the world had to add, and the answer. -/
structure Entry (A : κ → Type) (ω : Type) where
  thread : Nat
  oracle : ω
  made : Sigma A

/-- The world, the requests that have come, and the calls they made, oldest first. -/
structure State (A : κ → Type) (τ ρ ω σ : Type) where
  world : σ
  threads : List (Thread A τ ρ) := []
  log : List (Entry A ω) := []

/-- The calls of one thread. -/
def past (log : List (Entry A ω)) (i : Nat) : List (Sigma A) := (log.filter (·.thread = i)).map (·.made)

/-- The past of a thread is what the log has of it. -/
theorem mem_past {log : List (Entry A ω)} {i : Nat} {made : Sigma A} :
    made ∈ past log i ↔ ∃ e ∈ log, e.thread = i ∧ e.made = made := by
  simp [past, and_assoc]

/-- A call is added to the past of the thread that made it, -/
theorem past_snoc_self (log : List (Entry A ω)) (e : Entry A ω) :
    past (log ++ [e]) e.thread = past log e.thread ++ [e.made] := by simp [past]

/-- …and to no other. -/
theorem past_snoc_ne (log : List (Entry A ω)) (e : Entry A ω) {j : Nat} (h : j ≠ e.thread) :
    past (log ++ [e]) j = past log j := by simp [past, h.symm]

/-- A request comes, a thread makes its next call, or something happens. -/
inductive Op (τ ω ε : Type)
  | start (request : τ)
  | resume (thread : Nat) (oracle : ω)
  | happen (event : ε)

variable (S : Server A τ ρ ω ε σ)

/-- The call that a thread makes next. -/
def State.next? (s : State A τ ρ ω σ) (i : Nat) : Option (τ × (c : κ) × (A c → Script A ρ)) :=
  match s.threads[i]? with
  | some ⟨request, .ask c next⟩ => some (request, ⟨c, next⟩)
  | _ => none

/-- The request of a thread. -/
def State.request? (s : State A τ ρ ω σ) (i : Nat) : Option τ := s.threads[i]?.map Thread.request

/-- The request and the result of a thread that has ended. -/
def State.ended? (s : State A τ ρ ω σ) (i : Nat) : Option (τ × ρ) :=
  match s.threads[i]? with
  | some ⟨request, .ret result⟩ => some (request, result)
  | _ => none

/-- A thread that has ended is at its result. -/
theorem State.thread_of_ended? {s : State A τ ρ ω σ} {i : Nat} {request : τ} {result : ρ}
    (h : s.ended? i = some (request, result)) : s.threads[i]? = some ⟨request, .ret result⟩ := by
  unfold State.ended? at h
  split at h
  case h_1 heq =>
    cases h
    exact heq
  case h_2 => cases h

/-- **One step.** -/
def next (s : State A τ ρ ω σ) : Op τ ω ε → State A τ ρ ω σ
  | .start request => { s with threads := s.threads ++ [⟨request, S.program request⟩] }
  | .resume i oracle =>
    match s.next? i with
    | some (request, ⟨c, rest⟩) =>
      { world := (S.perform c oracle s.world).2
        threads := s.threads.set i ⟨request, rest (S.perform c oracle s.world).1⟩
        log := s.log ++ [⟨i, oracle, c, (S.perform c oracle s.world).1⟩] }
    | none => s
  | .happen event => { s with world := S.happen event s.world }

/-- What the world admits. -/
def Admits (s : State A τ ρ ω σ) : Op τ ω ε → Prop
  | .start _ => True
  | .resume i oracle => ∀ request c rest, s.next? i = some (request, ⟨c, rest⟩) → S.admits c oracle s.world
  | .happen event => S.occurs event s.world

def Step (s : State A τ ρ ω σ) (op : Op τ ω ε) (t : State A τ ρ ω σ) : Prop := S.Admits s op ∧ t = S.next s op

/-- The steps are admitted, one after the other. -/
def Admitted (s : State A τ ρ ω σ) : List (Op τ ω ε) → Prop
  | [] => True
  | op :: ops => S.Admits s op ∧ Admitted (S.next s op) ops

/-- The state after the steps. -/
def after (s : State A τ ρ ω σ) (ops : List (Op τ ω ε)) : State A τ ρ ω σ := ops.foldl S.next s

section Decidable

variable [∀ c oracle w, Decidable (S.admits c oracle w)] [∀ event w, Decidable (S.occurs event w)]

instance (s : State A τ ρ ω σ) : DecidablePred (S.Admits s)
  | .start _ => .isTrue trivial
  | .happen event => inferInstanceAs (Decidable (S.occurs event s.world))
  | .resume i oracle =>
    match h : s.next? i with
    | some (_, ⟨c, _⟩) => decidable_of_iff (S.admits c oracle s.world)
        ⟨fun hadmits _ _ _ heq => by cases h.symm.trans heq; exact hadmits, fun hall => hall _ _ _ h⟩
    | none => .isTrue fun _ _ _ heq => by cases h.symm.trans heq

instance Admitted.decidable : ∀ (s : State A τ ρ ω σ) (ops : List (Op τ ω ε)), Decidable (S.Admitted s ops)
  | _, [] => .isTrue trivial
  | s, op :: ops =>
    have := Admitted.decidable (S.next s op) ops
    inferInstanceAs (Decidable (_ ∧ _))

end Decidable

variable {S} in
/-- Steps that are admitted are a run. -/
theorem Admitted.run {s : State A τ ρ ω σ} {ops : List (Op τ ω ε)} (h : S.Admitted s ops) :
    Run S.Step s ops (S.after s ops) := by
  induction ops generalizing s with
  | nil => exact .nil s
  | cons op ops ih => exact .cons ⟨h.1, rfl⟩ (ih h.2)

/-! ## What a step is

A thread starts, or it gets the answer to the call it waits for, or something happens that no thread has
asked for; an answer to a thread that waits for none changes nothing. -/

variable {S} {s t : State A τ ρ ω σ} {op : Op τ ω ε}

/-- A thread that can go on waits for an answer. -/
theorem State.thread_of_next? {i : Nat} {request : τ} {c : κ} {rest : A c → Script A ρ}
    (h : s.next? i = some (request, ⟨c, rest⟩)) : s.threads[i]? = some ⟨request, .ask c rest⟩ := by
  unfold State.next? at h
  split at h
  case h_1 heq =>
    cases h
    exact heq
  case h_2 => cases h

/-- **Every step** is one of four. -/
theorem Step.cases (h : S.Step s op t) :
    (∃ request, t = { s with threads := s.threads ++ [⟨request, S.program request⟩] }) ∨
    (∃ i oracle request c rest, s.threads[i]? = some ⟨request, .ask c rest⟩ ∧ S.admits c oracle s.world ∧
      t = { world := (S.perform c oracle s.world).2
            threads := s.threads.set i ⟨request, rest (S.perform c oracle s.world).1⟩
            log := s.log ++ [⟨i, oracle, c, (S.perform c oracle s.world).1⟩] }) ∨
    (∃ event, S.occurs event s.world ∧ t = { s with world := S.happen event s.world }) ∨ t = s := by
  obtain ⟨hadmits, rfl⟩ := h
  cases op with
  | start request => exact .inl ⟨request, rfl⟩
  | happen event => exact .inr (.inr (.inl ⟨event, hadmits, rfl⟩))
  | resume i oracle =>
    rcases hnext : s.next? i with - | ⟨request, c, rest⟩
    · exact .inr (.inr (.inr (by rw [next, hnext])))
    · refine .inr (.inl ⟨i, oracle, request, c, rest, State.thread_of_next? hnext, ?_, by rw [next, hnext]⟩)
      exact hadmits request c rest hnext

/-! ## What the threads keep to

Each thread has the contract of its program (`Script.Meets`) with its own past, whatever the others do in
between; the log is the past of all of them. -/

variable {may : τ → List (Sigma A) → κ → Prop} {post : τ → List (Sigma A) → ρ → Prop}

/-- The threads keep to their contracts, and the calls made so far were allowed. -/
structure Keeps (may : τ → List (Sigma A) → κ → Prop) (post : τ → List (Sigma A) → ρ → Prop)
    (s : State A τ ρ ω σ) : Prop where
  thread : ∀ (i : Nat) (thread : Thread A τ ρ), s.threads[i]? = some thread →
    thread.script.Meets (may thread.request) (post thread.request) (past s.log i)
  fresh : ∀ i, s.threads.length ≤ i → past s.log i = []
  log : ∀ pre e rest, s.log = pre ++ e :: rest →
    ∃ request, s.request? e.thread = some request ∧ may request (past pre e.thread) e.made.1

/-- A new thread has everything before it. -/
theorem Keeps.start (h : Keeps may post s) {request : τ}
    (hprogram : (S.program request).Meets (may request) (post request) []) :
    Keeps may post { s with threads := s.threads ++ [⟨request, S.program request⟩] } where
  thread i thread hthread := by
    rcases Nat.lt_or_ge i s.threads.length with hlt | hge
    · exact h.thread i thread (by rwa [List.getElem?_append_left hlt] at hthread)
    · rw [List.getElem?_append_right hge, List.getElem?_singleton] at hthread
      split at hthread
      · obtain rfl := Option.some.inj hthread
        simpa only [h.fresh i hge] using hprogram
      · cases hthread
  fresh i hi := h.fresh i (by rw [List.length_append] at hi; omega)
  log pre e rest hlog := by
    obtain ⟨request', hrequest, hmay⟩ := h.log pre e rest hlog
    refine ⟨request', ?_, hmay⟩
    obtain ⟨thread, hthread, rfl⟩ := Option.map_eq_some_iff.mp hrequest
    rw [State.request?, List.getElem?_append_left (List.getElem?_eq_some_iff.mp hthread).1, hthread]
    rfl

/-- The last of a list is behind what comes before it. -/
theorem snoc_eq_append_cons {α : Type} {xs pre rest : List α} {x y : α} (h : xs ++ [x] = pre ++ y :: rest) :
    (xs = pre ∧ x = y ∧ rest = []) ∨ ∃ rest', rest = rest' ++ [x] ∧ xs = pre ++ y :: rest' := by
  rcases List.eq_nil_or_concat rest with rfl | ⟨rest', z, rfl⟩
  · obtain ⟨rfl, heq⟩ := List.append_inj' h rfl
    exact .inl ⟨rfl, (List.cons.inj heq).1, rfl⟩
  · rw [List.concat_eq_append, ← List.cons_append, ← List.append_assoc] at h
    obtain ⟨rfl, heq⟩ := List.append_inj' h rfl
    exact .inr ⟨rest', by rw [(List.cons.inj heq).1, List.concat_eq_append], rfl⟩

/-- A thread goes on with its request. -/
theorem request_set {threads : List (Thread A τ ρ)} {i : Nat} {request : τ} {script : Script A ρ}
    (hthread : threads[i]? = some ⟨request, script⟩) (script' : Script A ρ) (j : Nat) :
    (threads.set i ⟨request, script'⟩)[j]?.map Thread.request = threads[j]?.map Thread.request := by
  by_cases hij : j = i
  · subst hij
    rw [List.getElem?_set_self (List.getElem?_eq_some_iff.mp hthread).1, hthread]
    rfl
  · rw [List.getElem?_set_ne (Ne.symm hij)]

/-- An answer is one of those that the program was checked for. -/
theorem Keeps.resume (h : Keeps may post s) {i : Nat} {request : τ} {c : κ} {rest : A c → Script A ρ}
    (hthread : s.threads[i]? = some ⟨request, .ask c rest⟩) (oracle : ω) (answer : A c) (world : σ) :
    Keeps may post { world, threads := s.threads.set i ⟨request, rest answer⟩,
                     log := s.log ++ [⟨i, oracle, c, answer⟩] } where
  thread j thread hj := by
    by_cases hij : j = i
    · subst hij
      have hlt := (List.getElem?_eq_some_iff.mp hthread).1
      rw [List.getElem?_set_self hlt] at hj
      obtain rfl := Option.some.inj hj
      rw [past_snoc_self s.log ⟨j, oracle, c, answer⟩]
      exact (h.thread j _ hthread).2 answer
    · rw [List.getElem?_set_ne (Ne.symm hij)] at hj
      rw [past_snoc_ne s.log ⟨i, oracle, c, answer⟩ hij]
      exact h.thread j thread hj
  fresh j hj := by
    have hlt := (List.getElem?_eq_some_iff.mp hthread).1
    rw [List.length_set] at hj
    rw [past_snoc_ne s.log ⟨i, oracle, c, answer⟩ (by dsimp only; omega)]
    exact h.fresh j hj
  log pre e rest' hlog := by
    rw [State.request?, request_set hthread]
    rcases snoc_eq_append_cons hlog with ⟨rfl, rfl, -⟩ | ⟨rest'', -, hold⟩
    · exact ⟨request, by rw [hthread]; rfl, (h.thread i _ hthread).1⟩
    · exact h.log pre e rest'' hold

/-- **A step leaves every thread within its contract.** -/
theorem Keeps.step (hprogram : ∀ request, (S.program request).Meets (may request) (post request) [])
    (h : Keeps may post s) (hstep : S.Step s op t) : Keeps may post t := by
  rcases hstep.cases with ⟨request, rfl⟩ | ⟨i, oracle, request, c, rest, hthread, -, rfl⟩ | ⟨event, -, rfl⟩ | rfl
  · exact h.start (hprogram request)
  · exact h.resume hthread _ _ _
  · exact ⟨h.thread, h.fresh, h.log⟩
  · exact h

/-- Before any request. -/
theorem Keeps.nil (world : σ) : Keeps may post ({ world } : State A τ ρ ω σ) := ⟨by simp, by simp [past], by simp⟩

variable {ops : List (Op τ ω ε)}

/-- Every answer is one of the world. -/
theorem answered (hrun : Run S.Step s ops t)
    (h : ∀ e ∈ s.log, ∃ w, e.made.2 = (S.perform e.made.1 e.oracle w).1) :
    ∀ e ∈ t.log, ∃ w, e.made.2 = (S.perform e.made.1 e.oracle w).1 := by
  refine hrun.invariant (I := fun s => ∀ e ∈ s.log, ∃ w, e.made.2 = (S.perform e.made.1 e.oracle w).1)
    (fun s op t hs hstep => ?_) h
  rcases hstep.cases with ⟨request, rfl⟩ | ⟨i, oracle, request, c, rest, -, -, rfl⟩ | ⟨event, -, rfl⟩ | rfl
  · exact hs
  · intro e he
    rcases List.mem_append.mp he with he | he
    · exact hs e he
    · obtain rfl := List.mem_singleton.mp he
      exact ⟨s.world, rfl⟩
  · exact hs
  · exact hs

/-- **The contract rule** — what the programs keep to whatever the answers, the threads keep to in every run. -/
theorem contract (hprogram : ∀ request, (S.program request).Meets (may request) (post request) [])
    (hrun : Run S.Step s ops t) (h : Keeps may post s) : Keeps may post t :=
  hrun.invariant (fun _ _ _ h hstep => h.step hprogram hstep) h

/-- **The invariant rule** — of the world and the calls made so far, where every call keeps it that its
contract allows, and everything that happens. -/
theorem invariant (hprogram : ∀ request, (S.program request).Meets (may request) (post request) [])
    {I : σ → List (Entry A ω) → Prop}
    (hcall : ∀ w log i request c oracle, I w log → may request (past log i) c → S.admits c oracle w →
      I (S.perform c oracle w).2 (log ++ [⟨i, oracle, c, (S.perform c oracle w).1⟩]))
    (hhappen : ∀ w log event, I w log → S.occurs event w → I (S.happen event w) log)
    (hrun : Run S.Step s ops t) (h : Keeps may post s) (hI : I s.world s.log) : I t.world t.log := by
  suffices hboth : Keeps may post t ∧ I t.world t.log from hboth.2
  refine hrun.invariant (I := fun s => Keeps may post s ∧ I s.world s.log) (fun s op t hs hstep => ?_) ⟨h, hI⟩
  refine ⟨hs.1.step hprogram hstep, ?_⟩
  rcases hstep.cases with
    ⟨request, rfl⟩ | ⟨i, oracle, request, c, rest, hthread, hadmits, rfl⟩ | ⟨event, hoccurs, rfl⟩ | rfl
  · exact hs.2
  · exact hcall s.world s.log i request c oracle hs.2 (hs.1.thread i _ hthread).1 hadmits
  · exact hhappen s.world s.log event hs.2 hoccurs
  · exact hs.2

/-! ## What is finished stays finished

An answer only reaches a thread that waits. -/

/-- A thread that has ended does nothing any more. -/
theorem Step.finished (h : S.Step s op t) {i : Nat} {request : τ} {result : ρ}
    (hthread : s.threads[i]? = some ⟨request, .ret result⟩) : t.threads[i]? = some ⟨request, .ret result⟩ := by
  have hlt := (List.getElem?_eq_some_iff.mp hthread).1
  rcases h.cases with ⟨request', rfl⟩ | ⟨j, oracle, request', c, rest, hj, -, rfl⟩ | ⟨event, -, rfl⟩ | rfl
  · exact (List.getElem?_append_left hlt).trans hthread
  · rcases eq_or_ne j i with rfl | hne
    · cases hthread.symm.trans hj
    · exact (List.getElem?_set_ne hne).trans hthread
  · exact hthread
  · exact hthread

/-! ## One server as another

A server refines another one if each of its steps is a run of the other, on a part of its world. -/

/-- The same server on a view of its world. -/
def State.map {σ' : Type} (f : σ → σ') (s : State A τ ρ ω σ) : State A τ ρ ω σ' := ⟨f s.world, s.threads, s.log⟩

/-- **`Refines`** — the view `f` of the world answers every call as the world does, and what happens by itself
happens in the view in some steps. -/
structure Refines {ε' σ' : Type} (S : Server A τ ρ ω ε σ) (S' : Server A τ ρ ω ε' σ') (f : σ → σ') : Prop where
  program : S.program = S'.program
  perform : ∀ c oracle w, S'.perform c oracle (f w) = ((S.perform c oracle w).1, f (S.perform c oracle w).2)
  admits : ∀ c oracle w, S.admits c oracle w → S'.admits c oracle (f w)
  happen : ∀ event w, S.occurs event w →
    ∃ events, Run (fun w e w' => S'.occurs e w ∧ w' = S'.happen e w) (f w) events (f (S.happen event w))

/-- What happens by itself leaves the threads alone. -/
theorem run_happen {w w' : σ} {events : List ε} (h : Run (fun w e w' => S.occurs e w ∧ w' = S.happen e w) w events w')
    (threads : List (Thread A τ ρ)) (log : List (Entry A ω)) :
    Run S.Step ⟨w, threads, log⟩ (events.map .happen) ⟨w', threads, log⟩ := by
  induction h with
  | nil w => exact .nil _
  | cons step rest ih =>
    obtain ⟨hoccurs, rfl⟩ := step
    exact .cons ⟨hoccurs, rfl⟩ ih

/-- **The refinement rule** — every run is a run of the other server. -/
theorem Refines.run {ε' σ' : Type} {S' : Server A τ ρ ω ε' σ'} {f : σ → σ'} (h : Refines S S' f)
    {ops : List (Op τ ω ε)} (hrun : Run S.Step s ops t) : ∃ ops', Run S'.Step (s.map f) ops' (t.map f) := by
  refine hrun.simulation (f := State.map f) fun s op t hstep => ?_
  obtain ⟨hadmits, rfl⟩ := hstep
  cases op with
  | start request => exact ⟨[.start request], .single ⟨trivial, by rw [next, next, State.map, h.program]; rfl⟩⟩
  | happen event =>
    obtain ⟨events, hevents⟩ := h.happen event s.world hadmits
    exact ⟨events.map .happen, run_happen hevents s.threads s.log⟩
  | resume i oracle =>
    refine ⟨[.resume i oracle], .single ⟨fun request c rest hnext => h.admits c oracle _ ?_, ?_⟩⟩
    · exact hadmits request c rest hnext
    · have hsame : (s.map f).next? i = s.next? i := rfl
      simp only [next, hsame]
      rcases s.next? i with - | ⟨request, c, rest⟩
      · rfl
      · simp only [State.map, h.perform]

end Server

end Library
