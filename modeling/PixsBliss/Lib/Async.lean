import Mathlib.Data.List.Basic
import Mathlib.Tactic

/-! # Asynchronous programs on one thread

A program owns a shared state `σ`. A *call* runs its synchronous part, up to the first `await`, and
leaves the suspended rest as tasks; when the operation a task waits for ends with some outcome, the
task is *resumed* and runs to its next `await`. Between two such steps the state does not change,
and the order of the steps is that of the environment: a run is any list of events the program can
follow.

* `Program.step`, `Program.run`: one event, a list of events (`none` if an event is not possible).
* `map_run_of_map_step`: a map that keeps the steps keeps the runs; so a ghost may be forgotten.
* `step_cases`: what a step does, said once.
* `Each Q w es`: every step of the run has the property `Q` (a condition the environment keeps, or a
  result about the code); `each_iff` reads it at the cuts of the run.
* `run_inv`, `run_inv_of_each`, `run_inv_or`, `each_of_inv`, `each_of_each`, `each_iff_each_of`,
  `each_iff_each`, `kept_iff_each`: the induction over runs, done once.
* `heard P w es`: the tasks that are resumed along a run, each with its outcome; `inv_heard` is the
  induction over a run for what the state knows of them.
* `Since A Q w es`: a step had `A`, and all since then have `Q`; `iff_since` is its induction. -/

namespace PixsBliss.Lib.Async

variable {σ τ κ ο : Type}

/-- A program: what a call does up to its first `await`, and what a task does when the operation it
waits for ends (`none`: that operation cannot end so). The tasks a step leaves are suspended. -/
structure Program (σ τ κ ο : Type) where
  call : κ → σ → σ × List τ
  resume : τ → ο → σ → Option (σ × List τ)

/-- The shared state and the suspended tasks. -/
structure World (σ τ : Type) where
  shared : σ
  tasks : List τ
deriving DecidableEq

/-- A call arrives, or the operation the task at position `i` waits for ends. -/
inductive Event (κ ο : Type)
  | call (k : κ)
  | resume (i : ℕ) (o : ο)
deriving DecidableEq

namespace Program

variable (P : Program σ τ κ ο)

/-- **One event.** A resumed task is replaced by the tasks it leaves. -/
def step (w : World σ τ) : Event κ ο → Option (World σ τ)
  | .call k => some ⟨(P.call k w.shared).1, w.tasks ++ (P.call k w.shared).2⟩
  | .resume i o =>
    match w.tasks[i]? with
    | none => none
    | some t =>
      match P.resume t o w.shared with
      | none => none
      | some (s, ts) => some ⟨s, w.tasks.take i ++ ts ++ w.tasks.drop (i + 1)⟩

/-- A list of events. -/
def run (w : World σ τ) : List (Event κ ο) → Option (World σ τ)
  | [] => some w
  | e :: es => (P.step w e).bind fun w' => run w' es

/-- Every step of the run along `es` has the property `Q` of the states before and after it. -/
def Each (Q : World σ τ → Event κ ο → World σ τ → Prop) (w : World σ τ) :
    List (Event κ ο) → Prop
  | [] => True
  | e :: es => ∀ w', P.step w e = some w' → Q w e w' ∧ Each Q w' es

variable {P} {w w' : World σ τ} {e : Event κ ο} {es : List (Event κ ο)}

@[simp] theorem run_nil : P.run w [] = some w := rfl

theorem run_cons : P.run w (e :: es) = (P.step w e).bind fun w' => P.run w' es := rfl

theorem run_cons_some : P.run w (e :: es) = some w' ↔
    ∃ w₁, P.step w e = some w₁ ∧ P.run w₁ es = some w' := by
  rw [run_cons, Option.bind_eq_some_iff]

theorem run_append : ∀ (es es' : List (Event κ ο)) (w : World σ τ),
    P.run w (es ++ es') = (P.run w es).bind fun w' => P.run w' es'
  | [], es', w => rfl
  | e :: es, es', w => by
    rw [List.cons_append, run_cons, run_cons]
    cases P.step w e with
    | none => rfl
    | some w₁ => simpa using run_append es es' w₁

theorem run_concat (es : List (Event κ ο)) (e : Event κ ο) (w : World σ τ) :
    P.run w (es ++ [e]) = (P.run w es).bind fun w' => P.step w' e := by
  rw [run_append]
  congr 1
  funext w'
  rw [run_cons]
  cases P.step w' e <;> rfl

/-- **A map of worlds that keeps the steps keeps the runs.** -/
theorem map_run_of_map_step {σ' τ' : Type} {P' : Program σ' τ' κ ο}
    {f : World σ τ → World σ' τ'} (hf : ∀ e w, (P.step w e).map f = P'.step (f w) e) :
    ∀ (es : List (Event κ ο)) (w : World σ τ), (P.run w es).map f = P'.run (f w) es
  | [], _ => rfl
  | e :: es, w => by
    rw [run_cons, run_cons, ← hf, Option.map_bind, Option.bind_map]
    congr 1
    funext w'
    exact map_run_of_map_step hf es w'

/-! ### What a step can do -/

theorem step_call (k : κ) : P.step w (.call k) =
    some ⟨(P.call k w.shared).1, w.tasks ++ (P.call k w.shared).2⟩ := rfl

/-- A resumption takes one task out of the list and puts what it leaves in its place. -/
theorem step_resume {i : ℕ} {o : ο} (h : P.step w (.resume i o) = some w') :
    ∃ l t r s ts, w.tasks = l ++ t :: r ∧ l.length = i ∧ P.resume t o w.shared = some (s, ts) ∧
      w' = ⟨s, l ++ ts ++ r⟩ := by
  unfold step at h
  cases ht : w.tasks[i]? with
  | none => simp [ht] at h
  | some t =>
    cases hr : P.resume t o w.shared with
    | none => simp [ht, hr] at h
    | some r =>
      obtain ⟨s, ts⟩ := r
      simp only [ht, hr, Option.some.injEq] at h
      obtain ⟨hi, rfl⟩ := List.getElem?_eq_some_iff.mp ht
      exact ⟨w.tasks.take i, w.tasks[i], w.tasks.drop (i + 1), s, ts, by simp,
        by rw [List.length_take]; omega, hr, h.symm⟩

/-- The task in the middle of the list. -/
theorem getElem?_of_eq {us l r : List τ} {t : τ} (h : us = l ++ t :: r) :
    us[l.length]? = some t := by
  rw [h]
  simp

theorem step_resume_of {l r : List τ} {t : τ} {s₀ s : σ} {ts : List τ} {o : ο}
    (hr : P.resume t o s₀ = some (s, ts)) :
    P.step ⟨s₀, l ++ t :: r⟩ (.resume l.length o) = some ⟨s, l ++ ts ++ r⟩ := by
  unfold step
  have ht : (l ++ t :: r)[l.length]? = some t := getElem?_of_eq rfl
  have hd : (l ++ t :: r).drop (l.length + 1) = r := by
    rw [List.drop_append]; simp
  simp only [ht, hr, hd, List.take_left]

/-- **What a step can do.** -/
theorem step_cases (h : P.step w e = some w') :
    (∃ k, e = .call k ∧
      w' = ⟨(P.call k w.shared).1, w.tasks ++ (P.call k w.shared).2⟩) ∨
    ∃ l t r o s ts, e = .resume l.length o ∧ w.tasks = l ++ t :: r ∧
      P.resume t o w.shared = some (s, ts) ∧ w' = ⟨s, l ++ ts ++ r⟩ := by
  cases e with
  | call k => exact Or.inl ⟨k, rfl, by rw [step_call] at h; exact (Option.some.inj h).symm⟩
  | resume i o =>
    obtain ⟨l, t, r, s, ts, ht, rfl, hr, hw⟩ := step_resume h
    exact Or.inr ⟨l, t, r, o, s, ts, rfl, ht, hr, hw⟩

/-- The resumption of a known task. -/
theorem step_resume_at {i : ℕ} {o : ο} {t : τ} (hi : w.tasks[i]? = some t)
    (h : P.step w (.resume i o) = some w') : ∃ l r s ts, w.tasks = l ++ t :: r ∧
      P.resume t o w.shared = some (s, ts) ∧ w' = ⟨s, l ++ ts ++ r⟩ := by
  obtain ⟨l, t', r, s, ts, ht, rfl, hr, hw⟩ := step_resume h
  obtain rfl : t' = t := Option.some.inj ((getElem?_of_eq ht).symm.trans hi)
  exact ⟨l, r, s, ts, ht, hr, hw⟩

/-! ### A call alone -/

/-- The events are resumptions: no call arrives. -/
def Resumptions (es : List (Event κ ο)) : Prop := ∀ k, .call k ∉ es

theorem Resumptions.tail (h : Resumptions (e :: es)) : Resumptions es := fun k hk =>
  h k (List.mem_cons_of_mem _ hk)

/-- Without tasks there is nothing to resume. -/
theorem run_alone_nil {s : σ} (h : Resumptions es) (hr : P.run ⟨s, []⟩ es = some w) :
    es = [] ∧ w = ⟨s, []⟩ := by
  cases es with
  | nil => exact ⟨rfl, (Option.some.inj hr).symm⟩
  | cons e es =>
    obtain ⟨w₁, hs, -⟩ := run_cons_some.mp hr
    cases e with
    | call k => exact absurd (List.mem_cons_self) (h k)
    | resume i o => cases hs

/-- A single task is the one that is resumed. -/
theorem step_alone {s : σ} {t : τ} {i : ℕ} {o : ο} (h : P.step ⟨s, [t]⟩ (.resume i o) = some w) :
    i = 0 ∧ ∃ s' ts, P.resume t o s = some (s', ts) ∧ w = ⟨s', ts⟩ := by
  obtain ⟨l, t', r, s', ts, ht, rfl, hres, rfl⟩ := step_resume h
  obtain ⟨rfl, rfl, rfl⟩ : l = [] ∧ t' = t ∧ r = [] := by
    cases l with
    | nil => simpa [eq_comm] using ht
    | cons x l => simp at ht
  exact ⟨rfl, s', ts, hres, by simp⟩

/-- A single task is resumed first. -/
theorem run_alone_cons {s : σ} {t : τ} (h : Resumptions es) (hr : P.run ⟨s, [t]⟩ es = some w)
    (hdone : w.tasks = []) : ∃ o s' ts es', es = .resume 0 o :: es' ∧
      P.resume t o s = some (s', ts) ∧ P.run ⟨s', ts⟩ es' = some w := by
  cases es with
  | nil =>
    obtain rfl := Option.some.inj hr
    cases hdone
  | cons e es =>
    obtain ⟨w₁, hs, hr⟩ := run_cons_some.mp hr
    cases e with
    | call k => exact absurd (List.mem_cons_self) (h k)
    | resume i o =>
      obtain ⟨rfl, s', ts, hres, rfl⟩ := step_alone hs
      exact ⟨o, s', ts, es, rfl, hres, hr⟩

/-! ### Properties of all steps of a run -/

variable {Q Q' : World σ τ → Event κ ο → World σ τ → Prop} {I : World σ τ → Prop}

theorem each_cons {w₁ : World σ τ} (hs : P.step w e = some w₁) :
    P.Each Q w (e :: es) ↔ Q w e w₁ ∧ P.Each Q w₁ es := by
  refine ⟨fun h => h w₁ hs, fun h w₂ hw₂ => ?_⟩
  obtain rfl : w₁ = w₂ := Option.some.inj (hs.symm.trans hw₂)
  exact h

theorem Each.mono (h : ∀ w e w', Q w e w' → Q' w e w') :
    ∀ {es : List (Event κ ο)} {w : World σ τ}, P.Each Q w es → P.Each Q' w es
  | [], _, _ => trivial
  | _ :: _, _, hQ => fun w' hw' => ⟨h _ _ _ (hQ w' hw').1, Each.mono h (hQ w' hw').2⟩

theorem each_concat : ∀ {es : List (Event κ ο)} {w : World σ τ}, P.Each Q w (es ++ [e]) ↔
    P.Each Q w es ∧ ∀ w₁ w₂, P.run w es = some w₁ → P.step w₁ e = some w₂ → Q w₁ e w₂
  | [], w => by
    simp only [List.nil_append, Each, and_true, true_and, run_nil, Option.some.injEq]
    exact ⟨fun h _ w₂ hw => hw ▸ h w₂, fun h w' => h w w' rfl⟩
  | d :: es, w => by
    simp only [List.cons_append, Each, run_cons_some, each_concat]
    constructor
    · intro h
      exact ⟨fun w' hw' => ⟨(h w' hw').1, (h w' hw').2.1⟩,
        fun w₁ w₂ ⟨w', hw', hr⟩ hs => (h w' hw').2.2 w₁ w₂ hr hs⟩
    · rintro ⟨h1, h2⟩ w' hw'
      exact ⟨(h1 w' hw').1, (h1 w' hw').2, fun w₁ w₂ hr hs => h2 w₁ w₂ ⟨w', hw', hr⟩ hs⟩

theorem each_append : ∀ {es es' : List (Event κ ο)} {w : World σ τ}, P.Each Q w es →
    P.run w es = some w' → P.Each Q w' es' → P.Each Q w (es ++ es')
  | [], _, w, _, hr, h' => by
    obtain rfl : w = w' := by simpa using hr
    exact h'
  | _ :: _, _, _, h, hr, h' => fun w₁ hs => by
    obtain ⟨w₂, hs₂, hr⟩ := run_cons_some.mp hr
    obtain rfl : w₁ = w₂ := Option.some.inj (hs.symm.trans hs₂)
    exact ⟨(h w₁ hs).1, each_append (h w₁ hs).2 hr h'⟩

/-- The steps of a run are those at its cuts. -/
theorem each_iff : ∀ {es : List (Event κ ο)} {w : World σ τ}, P.Each Q w es ↔
    ∀ pre e post w₁ w₂, es = pre ++ e :: post → P.run w pre = some w₁ →
      P.step w₁ e = some w₂ → Q w₁ e w₂
  | [], w => by simp [Each]
  | e :: es, w => by
    constructor
    · intro h pre e' post w₁ w₂ hes hpre hstep
      cases pre with
      | nil =>
        obtain ⟨rfl, rfl⟩ : e = e' ∧ es = post := by simpa using hes
        obtain rfl : w = w₁ := by simpa using hpre
        exact (h w₂ hstep).1
      | cons d pre =>
        obtain ⟨rfl, rfl⟩ : e = d ∧ es = pre ++ e' :: post := by simpa using hes
        obtain ⟨w', hw', hpre⟩ := run_cons_some.mp hpre
        exact each_iff.mp (h w' hw').2 pre e' post w₁ w₂ rfl hpre hstep
    · intro h w' hw'
      refine ⟨h [] e es w w' rfl rfl hw', each_iff.mpr ?_⟩
      intro pre e' post w₁ w₂ hes hpre hstep
      exact h (e :: pre) e' post w₁ w₂ (by rw [hes]; rfl) (run_cons_some.mpr ⟨w', hw', hpre⟩) hstep

/-- **The invariant rule for conditional runs.** -/
theorem run_inv_of_each (hstep : ∀ w e w', I w → Q w e w' → P.step w e = some w' → I w') :
    ∀ {es : List (Event κ ο)} {w w' : World σ τ}, I w → P.Each Q w es → P.run w es = some w' → I w'
  | [], w, w', hI, _, hr => by
    obtain rfl : w = w' := by simpa using hr
    exact hI
  | e :: es, w, w', hI, hQ, hr => by
    obtain ⟨w₁, hw₁, hr⟩ := run_cons_some.mp hr
    exact run_inv_of_each hstep (hstep w e w₁ hI (hQ w₁ hw₁).1 hw₁) (hQ w₁ hw₁).2 hr

theorem each_and : ∀ {es : List (Event κ ο)} {w : World σ τ},
    P.Each (fun w e w' => Q w e w' ∧ Q' w e w') w es ↔ P.Each Q w es ∧ P.Each Q' w es
  | [], _ => by simp [Each]
  | e :: es, w => by
    simp only [Each, each_and]
    exact ⟨fun h => ⟨fun w' hw' => ⟨(h w' hw').1.1, (h w' hw').2.1⟩,
      fun w' hw' => ⟨(h w' hw').1.2, (h w' hw').2.2⟩⟩,
      fun h w' hw' => ⟨⟨(h.1 w' hw').1, (h.2 w' hw').1⟩, (h.1 w' hw').2, (h.2 w' hw').2⟩⟩

/-- A property of every step, with an invariant, gives every step another property. -/
theorem each_of_each (hstep : ∀ w e w', I w → Q w e w' → P.step w e = some w' →
      I w' ∧ Q' w e w') :
    ∀ {es : List (Event κ ο)} {w : World σ τ}, I w → P.Each Q w es → P.Each Q' w es
  | [], _, _, _ => trivial
  | _ :: _, _, hI, hQ => fun w' hw' =>
    ⟨(hstep _ _ w' hI (hQ w' hw').1 hw').2,
      each_of_each hstep (hstep _ _ w' hI (hQ w' hw').1 hw').1 (hQ w' hw').2⟩

/-- **Two properties of steps** that are one wherever the invariant holds, and that keep it, in a
run whose steps meet a condition. -/
theorem each_iff_each_of {C : World σ τ → Event κ ο → World σ τ → Prop}
    (hstep : ∀ w e w', I w → C w e w' → P.step w e = some w' →
      (Q w e w' ↔ Q' w e w') ∧ (Q w e w' → I w'))
    (hI : I w) (hC : P.Each C w es) : P.Each Q w es ↔ P.Each Q' w es := by
  constructor
  · intro hQ
    refine each_of_each (fun w e w' h hq hs => ?_) hI (each_and.mpr ⟨hC, hQ⟩)
    obtain ⟨hiff, hkeep⟩ := hstep w e w' h hq.1 hs
    exact ⟨hkeep hq.2, hiff.mp hq.2⟩
  · intro hQ'
    refine each_of_each (fun w e w' h hq hs => ?_) hI (each_and.mpr ⟨hC, hQ'⟩)
    obtain ⟨hiff, hkeep⟩ := hstep w e w' h hq.1 hs
    have hq' : Q w e w' := hiff.mpr hq.2
    exact ⟨hkeep hq', hq'⟩

/-- An invariant makes every step have a property. -/
theorem each_of_inv (hstep : ∀ w e w', I w → P.step w e = some w' → I w' ∧ Q w e w') :
    ∀ {es : List (Event κ ο)} {w : World σ τ}, I w → P.Each Q w es
  | [], _, _ => trivial
  | _ :: _, _, hI => fun w' hw' =>
    ⟨(hstep _ _ w' hI hw').2, each_of_inv hstep (hstep _ _ w' hI hw').1⟩

/-- In any run. -/
theorem each_iff_each (hstep : ∀ w e w', I w → P.step w e = some w' →
      (Q w e w' ↔ Q' w e w') ∧ (Q w e w' → I w')) (hI : I w) :
    P.Each Q w es ↔ P.Each Q' w es :=
  each_iff_each_of (C := fun _ _ _ => True) (fun w e w' h _ => hstep w e w' h) hI
    (each_of_inv (I := fun _ => True) (fun _ _ _ _ _ => ⟨trivial, trivial⟩) trivial)

/-- **The invariant rule.** -/
theorem run_inv (hstep : ∀ w e w', I w → P.step w e = some w' → I w') (hI : I w)
    (hr : P.run w es = some w') : I w' :=
  run_inv_of_each (Q := fun _ _ _ => True) (fun w e w' h _ => hstep w e w' h) hI
    (each_of_inv (I := fun _ => True) (fun _ _ _ _ _ => ⟨trivial, trivial⟩) trivial) hr

/-- **The first step without the property** ends one invariant and starts another. -/
theorem run_inv_or {J : World σ τ → Prop}
    (hstep : ∀ w e w', I w → P.step w e = some w' → (Q w e w' ∧ I w') ∨ (¬Q w e w' ∧ J w'))
    (hJ : ∀ w e w', J w → P.step w e = some w' → J w') :
    ∀ {es : List (Event κ ο)} {w w' : World σ τ}, I w → P.run w es = some w' →
      (P.Each Q w es ∧ I w') ∨ (¬P.Each Q w es ∧ J w')
  | [], w, w', hI, hr => by
    obtain rfl : w = w' := by simpa using hr
    exact Or.inl ⟨trivial, hI⟩
  | e :: es, w, w', hI, hr => by
    obtain ⟨w₁, hw₁, hr⟩ := run_cons_some.mp hr
    rw [each_cons hw₁]
    rcases hstep w e w₁ hI hw₁ with ⟨hQ, hI₁⟩ | ⟨hQ, hJ₁⟩
    · rcases run_inv_or hstep hJ hI₁ hr with ⟨hE, h⟩ | ⟨hE, h⟩
      · exact Or.inl ⟨⟨hQ, hE⟩, h⟩
      · exact Or.inr ⟨fun hn => hE hn.2, h⟩
    · exact Or.inr ⟨fun hn => hQ hn.1, run_inv hJ hJ₁ hr⟩

/-- **A measure that never grows** is kept by a run exactly when every step keeps it. -/
theorem kept_iff_each {φ : World σ τ → ℤ} (hstep : ∀ w e w', I w → P.step w e = some w' →
      I w' ∧ φ w' ≤ φ w ∧ (φ w' = φ w ↔ Q w e w')) :
    ∀ {es : List (Event κ ο)} {w w' : World σ τ}, I w → P.run w es = some w' →
      φ w' ≤ φ w ∧ (φ w' = φ w ↔ P.Each Q w es)
  | [], w, w', _, hr => by
    obtain rfl : w = w' := by simpa using hr
    exact ⟨le_rfl, by simp [Each]⟩
  | e :: es, w, w', hI, hr => by
    obtain ⟨w₁, hw₁, hr⟩ := run_cons_some.mp hr
    obtain ⟨hI₁, hle₁, hiff₁⟩ := hstep w e w₁ hI hw₁
    obtain ⟨hle, hiff⟩ := kept_iff_each hstep hI₁ hr
    refine ⟨hle.trans hle₁, ?_⟩
    rw [each_cons hw₁, ← hiff₁, ← hiff]
    omega

/-! ### What is heard -/

/-- The task that is resumed in a step, and the outcome it hears. -/
def heardIn (w : World σ τ) : Event κ ο → List (τ × ο)
  | .call _ => []
  | .resume i o => w.tasks[i]?.toList.map fun t => (t, o)

/-- The tasks that are resumed along a run, each with its outcome. -/
def heard (P : Program σ τ κ ο) (w : World σ τ) : List (Event κ ο) → List (τ × ο)
  | [] => []
  | e :: es => heardIn w e ++ (P.step w e).elim [] fun w' => heard P w' es

/-- **What the state knows of the outcomes.** -/
theorem inv_heard {I : σ → List (τ × ο) → Prop} (hcall : ∀ k s h, I s h → I (P.call k s).1 h)
    (hresume : ∀ t o s x h, I s h → P.resume t o s = some x → I x.1 (h ++ [(t, o)])) :
    ∀ {es : List (Event κ ο)} {w w' : World σ τ} {h : List (τ × ο)}, I w.shared h →
      P.run w es = some w' → I w'.shared (h ++ P.heard w es)
  | [], w, w', h, hI, hr => by
    obtain rfl : w = w' := by simpa using hr
    rw [heard, List.append_nil]
    exact hI
  | e :: es, w, w', h, hI, hr => by
    obtain ⟨w₁, hw₁, hr⟩ := run_cons_some.mp hr
    have hI₁ : I w₁.shared (h ++ heardIn w e) := by
      rcases step_cases hw₁ with ⟨k, rfl, rfl⟩ | ⟨l, t, r, o, s, ts, rfl, ht, hres, rfl⟩
      · rw [heardIn, List.append_nil]
        exact hcall k w.shared h hI
      · rw [heardIn, getElem?_of_eq ht]
        exact hresume t o w.shared (s, ts) h hI hres
    rw [heard, hw₁, ← List.append_assoc]
    exact inv_heard hcall hresume hI₁ hr

/-! ### Since -/

/-- A step of the run has the property `A`, and all steps since then have the property `Q`. -/
def Since (P : Program σ τ κ ο) (A Q : World σ τ → Event κ ο → World σ τ → Prop) (w : World σ τ)
    (es : List (Event κ ο)) : Prop :=
  ∃ pre e post w₁ w₂, es = pre ++ e :: post ∧ P.run w pre = some w₁ ∧ P.step w₁ e = some w₂ ∧
    A w₁ e w₂ ∧ P.Each Q w₂ post

variable {A : World σ τ → Event κ ο → World σ τ → Prop}

theorem not_since_nil : ¬P.Since A Q w [] := by
  rintro ⟨pre, e, post, w₁, w₂, hes, -⟩
  simp at hes

theorem since_cons {w₁ : World σ τ} (hs : P.step w e = some w₁) :
    P.Since A Q w (e :: es) ↔ P.Since A Q w₁ es ∨ (A w e w₁ ∧ P.Each Q w₁ es) := by
  constructor
  · rintro ⟨pre, d, post, v₁, v₂, hes, hpre, hstep, hA, hQ⟩
    cases pre with
    | nil =>
      obtain ⟨rfl, rfl⟩ : e = d ∧ es = post := by simpa using hes
      obtain rfl : w = v₁ := by simpa using hpre
      obtain rfl : w₁ = v₂ := Option.some.inj (hs.symm.trans hstep)
      exact Or.inr ⟨hA, hQ⟩
    | cons c pre =>
      obtain ⟨rfl, rfl⟩ : e = c ∧ es = pre ++ d :: post := by simpa using hes
      obtain ⟨w', hw', hpre⟩ := run_cons_some.mp hpre
      obtain rfl : w₁ = w' := Option.some.inj (hs.symm.trans hw')
      exact Or.inl ⟨pre, d, post, v₁, v₂, rfl, hpre, hstep, hA, hQ⟩
  · rintro (⟨pre, d, post, v₁, v₂, rfl, hpre, hstep, hA, hQ⟩ | ⟨hA, hQ⟩)
    · exact ⟨e :: pre, d, post, v₁, v₂, rfl, run_cons_some.mpr ⟨w₁, hs, hpre⟩, hstep, hA, hQ⟩
    · exact ⟨[], e, es, w, w₁, rfl, rfl, hs, hA, hQ⟩

/-- **A property that steps with `A` bring and steps with `Q` keep**, and that no others leave,
holds at the end of a run exactly when there was such a step and it was kept since. -/
theorem iff_since {R : World σ τ → Prop} (hstep : ∀ w e w', P.step w e = some w' →
      (R w' ↔ A w e w' ∨ (R w ∧ Q w e w'))) :
    ∀ {es : List (Event κ ο)} {w w' : World σ τ}, P.run w es = some w' →
      (R w' ↔ P.Since A Q w es ∨ (R w ∧ P.Each Q w es))
  | [], w, w', hr => by
    obtain rfl : w = w' := by simpa using hr
    simp [Each, not_since_nil]
  | e :: es, w, w', hr => by
    obtain ⟨w₁, hw₁, hr⟩ := run_cons_some.mp hr
    rw [iff_since hstep hr, hstep w e w₁ hw₁, since_cons hw₁, each_cons hw₁, or_and_right,
      and_assoc, or_assoc]

end Program
end PixsBliss.Lib.Async
