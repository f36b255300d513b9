import PixsBliss.Lib.Flight

/-! # Invariants turn by turn

Where an invariant is one of the state and, apart from it, one of each task that is suspended, it is
enough to look at single turns: a call, or the resumption of one task, and the tasks that it leaves.

* `EachTurn`, `EachTurn.step`, `EachTurn.run`: what every turn keeps, every step and run keeps.
* `inTime`, `eachTurn_inTime`: a program whose turns depend on the moment.
* `Settles`, `Settles.run`: a state that waits for something has a task.
* `Counts`, `Counts.run`: a number of the state counts the tasks of a kind.
* `Lives`: the worlds of a device on which processes are killed at any moment and new ones start
  from the state that the last one leaves; `EachTurn.lives` is the rule for it. -/

namespace PixsBliss.Lib.Turns

open PixsBliss.Lib.Async PixsBliss.Lib.Flight

variable {σ τ κ ο : Type}

/-- The state has `M` and the tasks that are left have `N`. -/
def Turn (M : σ → Prop) (N : τ → Prop) (x : σ × List τ) : Prop := M x.1 ∧ ∀ t ∈ x.2, N t

/-- Every turn whose outcome meets a condition keeps `M` and `N`. -/
structure EachTurn (P : Program σ τ κ ο) (C : τ → ο → σ → Prop) (M : σ → Prop) (N : τ → Prop) :
    Prop where
  call : ∀ k s, M s → Turn M N (P.call k s)
  resume : ∀ t o s x, M s → N t → C t o s → P.resume t o s = some x → Turn M N x

/-- **The worlds of a device** that starts in `w₀`: a step, or a new process. -/
inductive Lives (P : Program σ τ κ ο) (C : τ → ο → σ → Prop) (boot : σ → World σ τ)
    (w₀ : World σ τ) : World σ τ → Prop
  | start : Lives P C boot w₀ w₀
  | step {w e w'} (h : Lives P C boot w₀ w) (hC : Meets C w e w') (hs : P.step w e = some w') :
      Lives P C boot w₀ w'
  | killed {w} (h : Lives P C boot w₀ w) : Lives P C boot w₀ (boot w.shared)

variable {P : Program σ τ κ ο} {C : τ → ο → σ → Prop} {M : σ → Prop} {N : τ → Prop}
  {boot : σ → World σ τ} {w₀ w w' : World σ τ} {e : Event κ ο}

theorem turn_nil {s : σ} (h : M s) : Turn M N (s, []) := ⟨h, List.forall_mem_nil _⟩

theorem turn_singleton {s : σ} {t : τ} (h : M s) (ht : N t) : Turn M N (s, [t]) :=
  ⟨h, List.forall_mem_singleton.mpr ht⟩

theorem EachTurn.step (h : EachTurn P C M N) (hw : Turn M N (w.shared, w.tasks))
    (hC : Meets C w e w') (hs : P.step w e = some w') : Turn M N (w'.shared, w'.tasks) := by
  obtain ⟨hM, hN⟩ := hw
  rcases Program.step_cases hs with ⟨k, rfl, rfl⟩ | ⟨l, t, r, o, s, ts, rfl, ht, hr, rfl⟩
  · obtain ⟨hM', hts⟩ := h.call k w.shared hM
    exact ⟨hM', List.forall_mem_append.mpr ⟨hN, hts⟩⟩
  · rw [ht] at hN
    obtain ⟨hl, htr⟩ := List.forall_mem_append.mp hN
    obtain ⟨hNt, hr'⟩ := List.forall_mem_cons.mp htr
    obtain ⟨hM', hts⟩ := h.resume t o w.shared (s, ts) hM hNt ((meets_resume ht).mp hC) hr
    exact ⟨hM', List.forall_mem_append.mpr ⟨List.forall_mem_append.mpr ⟨hl, hts⟩, hr'⟩⟩

theorem EachTurn.run (h : EachTurn P C M N) {es : List (Event κ ο)}
    (hw : Turn M N (w.shared, w.tasks)) (hC : P.Each (Meets C) w es) (hr : P.run w es = some w') :
    Turn M N (w'.shared, w'.tasks) :=
  Program.run_inv_of_each (I := fun w => Turn M N (w.shared, w.tasks))
    (fun _ _ _ hw hC hs => h.step hw hC hs) hw hC hr

/-! ### Moments -/

/-- **A program in time**: every event comes at some moment, on which its turn may depend. -/
def inTime {μ : Type} (P : μ → Program σ τ κ ο) : Program σ τ (μ × κ) (μ × ο) where
  call k s := (P k.1).call k.2 s
  resume t o s := (P o.1).resume t o.2 s

theorem eachTurn_inTime {μ : Type} {P : μ → Program σ τ κ ο} {C : μ → τ → ο → σ → Prop}
    (h : ∀ m, EachTurn (P m) (C m) M N) :
    EachTurn (inTime P) (fun t o s => C o.1 t o.2 s) M N where
  call k s hs := (h k.1).call k.2 s hs
  resume t o s x hs ht hC hr := (h o.1).resume t o.2 s x hs ht hC hr

/-! ### States that wait -/

/-- Every turn keeps `M`; and the state only waits after it if it did before, and the turn was not
that of a task it waits for, or if the turn leaves such a task. -/
structure Settles (P : Program σ τ κ ο) (isOf : τ → Bool) (M Waits : σ → Prop) : Prop where
  call : ∀ k s, M s → M (P.call k s).1 ∧
    (Waits (P.call k s).1 → Waits s ∨ ∃ t ∈ (P.call k s).2, isOf t = true)
  resume : ∀ t o s x, M s → P.resume t o s = some x → M x.1 ∧
    (Waits x.1 → (isOf t = false ∧ Waits s) ∨ ∃ t' ∈ x.2, isOf t' = true)

/-- **A state that waits has a task**, along every run. -/
theorem Settles.run {isOf : τ → Bool} {Waits : σ → Prop} (h : Settles P isOf M Waits)
    {es : List (Event κ ο)}
    (hw : M w.shared ∧ (Waits w.shared → ∃ t ∈ w.tasks, isOf t = true))
    (hr : P.run w es = some w') :
    M w'.shared ∧ (Waits w'.shared → ∃ t ∈ w'.tasks, isOf t = true) := by
  refine Program.run_inv
    (I := fun w => M w.shared ∧ (Waits w.shared → ∃ t ∈ w.tasks, isOf t = true))
    (fun w e w' hw hs => ?_) hw hr
  obtain ⟨hM, hw⟩ := hw
  rcases Program.step_cases hs with ⟨k, rfl, rfl⟩ | ⟨l, t, r, o, s, ts, rfl, ht, hr, rfl⟩
  · refine ⟨(h.call k w.shared hM).1, fun hwaits => ?_⟩
    rcases (h.call k w.shared hM).2 hwaits with hbefore | ⟨t, ht, hof⟩
    · obtain ⟨t, ht, hof⟩ := hw hbefore
      exact ⟨t, List.mem_append_left _ ht, hof⟩
    · exact ⟨t, List.mem_append_right _ ht, hof⟩
  · refine ⟨(h.resume t o w.shared (s, ts) hM hr).1, fun hwaits => ?_⟩
    rcases (h.resume t o w.shared (s, ts) hM hr).2 hwaits with ⟨hother, hbefore⟩ | ⟨t', ht', hof⟩
    · -- the task that was waited for is another one
      obtain ⟨t', ht', hof⟩ := hw hbefore
      have hne : t' ≠ t := by
        rintro rfl
        rw [hother] at hof
        cases hof
      refine ⟨t', ?_, hof⟩
      rw [ht] at ht'
      rcases List.mem_append.mp ht' with hl | hr'
      · exact List.mem_append_left _ (List.mem_append_left _ hl)
      · exact List.mem_append_right _ ((List.mem_cons.mp hr').resolve_left hne)
    · exact ⟨t', List.mem_append_left _ (List.mem_append_right _ ht'), hof⟩

/-! ### Tasks that are counted -/

/-- A number of the state changes with the tasks of a kind; a task is only resumed if it counts. -/
structure Counts (P : Program σ τ κ ο) (isOf : τ → Bool) (n : σ → ℕ) : Prop where
  call : ∀ k s, n (P.call k s).1 = n s + (P.call k s).2.countP isOf
  resume : ∀ t o s x, (isOf t = true → 0 < n s) → P.resume t o s = some x →
    n x.1 + (if isOf t = true then 1 else 0) = n s + x.2.countP isOf

variable {isOf : τ → Bool} {n : σ → ℕ}

theorem Counts.step (h : Counts P isOf n) (hw : w.tasks.countP isOf = n w.shared)
    (hs : P.step w e = some w') : w'.tasks.countP isOf = n w'.shared := by
  rcases Program.step_cases hs with ⟨k, rfl, rfl⟩ | ⟨l, t, r, o, s, ts, rfl, ht, hr, rfl⟩
  · rw [h.call, List.countP_append, hw]
  · rw [ht, List.countP_append, List.countP_cons] at hw
    have hpos : isOf t = true → 0 < n w.shared := fun ht' => by
      rw [← hw, if_pos ht']
      omega
    have hcount : n s + (if isOf t = true then 1 else 0) = n w.shared + ts.countP isOf :=
      h.resume t o w.shared (s, ts) hpos hr
    show (l ++ ts ++ r).countP isOf = n s
    rw [List.countP_append, List.countP_append]
    omega

/-- **The number of the state is the number of tasks**, along every run. -/
theorem Counts.run (h : Counts P isOf n) {es : List (Event κ ο)}
    (hw : w.tasks.countP isOf = n w.shared) (hr : P.run w es = some w') :
    w'.tasks.countP isOf = n w'.shared :=
  Program.run_inv (I := fun w => w.tasks.countP isOf = n w.shared)
    (fun _ _ _ hw hs => h.step hw hs) hw hr

/-! ### Processes -/

theorem EachTurn.lives (h : EachTurn P C M N) (h0 : Turn M N (w₀.shared, w₀.tasks))
    (hboot : ∀ s, M s → Turn M N ((boot s).shared, (boot s).tasks)) (hw : Lives P C boot w₀ w) :
    Turn M N (w.shared, w.tasks) := by
  induction hw with
  | start => exact h0
  | step _ hC hs ih => exact h.step ih hC hs
  | killed _ ih => exact hboot _ ih.1

theorem lives_run : ∀ (es : List (Event κ ο)) {w w' : World σ τ}, Lives P C boot w₀ w →
    P.Each (Meets C) w es → P.run w es = some w' → Lives P C boot w₀ w'
  | [], w, w', h, _, hr => by
    obtain rfl : w = w' := by simpa using hr
    exact h
  | e :: es, w, w', h, hC, hr => by
    obtain ⟨w₁, hs, hr⟩ := Program.run_cons_some.mp hr
    exact lives_run es (h.step (hC w₁ hs).1 hs) (hC w₁ hs).2 hr

end PixsBliss.Lib.Turns
