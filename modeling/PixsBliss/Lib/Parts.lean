import PixsBliss.Lib.Flight

/-! # Programs that contain others

The state of a screen holds the states of the notifiers that it reads, and some of its tasks are
theirs; a tap calls a notifier or leaves it alone, and the answer to a notifier's request is given
to no other.

* `Part`: where the state and the tasks of a part are; `Part.see` is what it sees of a world.
* `Contains`: turn by turn, a program does to the part what the part's own program can do.
* `Contains.step`, `Contains.run`: every run, as the part sees it, is a run of the part. So what
  holds along all runs of the part holds of it in every program that contains it. -/

namespace PixsBliss.Lib.Parts

open PixsBliss.Lib.Async PixsBliss.Lib.Flight

variable {σ τ κ ο σ' τ' κ' ο' : Type}

/-- Where the state of a part is, and which tasks are its own. -/
structure Part (σ τ σ' τ' : Type) where
  state : σ → σ'
  task : τ → Option τ'

namespace Part

variable (p : Part σ τ σ' τ')

/-- The tasks of the part. -/
def tasks (ts : List τ) : List τ' := ts.filterMap p.task

/-- What the part sees of a world. -/
def see (w : World σ τ) : World σ' τ' := ⟨p.state w.shared, p.tasks w.tasks⟩

@[simp] theorem tasks_nil : p.tasks [] = [] := rfl

theorem tasks_append (ts us : List τ) : p.tasks (ts ++ us) = p.tasks ts ++ p.tasks us :=
  List.filterMap_append

theorem tasks_cons_own {t : τ} {t' : τ'} (h : p.task t = some t') (ts : List τ) :
    p.tasks (t :: ts) = t' :: p.tasks ts := List.filterMap_cons_some h

theorem tasks_cons_other {t : τ} (h : p.task t = none) (ts : List τ) :
    p.tasks (t :: ts) = p.tasks ts := List.filterMap_cons_none h

theorem tasks_map_own {f : τ' → τ} (h : ∀ t, p.task (f t) = some t) (ts : List τ') :
    p.tasks (ts.map f) = ts := by
  rw [tasks, List.filterMap_map, show p.task ∘ f = some from funext h, List.filterMap_some]

theorem tasks_map_other {υ : Type} {f : υ → τ} (h : ∀ t, p.task (f t) = none) (ts : List υ) :
    p.tasks (ts.map f) = [] := by
  rw [tasks, List.filterMap_map, show p.task ∘ f = fun _ => none from funext h]
  exact List.filterMap_eq_nil_iff.mpr fun _ _ => rfl

/-- A task of the part is one of the program. -/
theorem mem_tasks {ts : List τ} {t' : τ'} : t' ∈ p.tasks ts ↔ ∃ t ∈ ts, p.task t = some t' :=
  List.mem_filterMap

end Part

/-- **A program contains another**: a call calls the part any number of times, the part's tasks are
resumed as in its own program (under conditions on the outcomes, `C` and `C'`), and the other tasks
leave it alone. -/
structure Contains (p : Part σ τ σ' τ') (P : Program σ τ κ ο) (P' : Program σ' τ' κ' ο')
    (C : τ → ο → σ → Prop) (C' : τ' → ο' → σ' → Prop) : Prop where
  call : ∀ k s, ∃ ks : List κ', P'.run ⟨p.state s, []⟩ (ks.map .call) =
    some ⟨p.state (P.call k s).1, p.tasks (P.call k s).2⟩
  other : ∀ t o s s' ts, p.task t = none → P.resume t o s = some (s', ts) →
    p.state s' = p.state s ∧ p.tasks ts = []
  own : ∀ t t' o s s' ts, p.task t = some t' → C t o s → P.resume t o s = some (s', ts) →
    ∃ o', C' t' o' (p.state s) ∧ P'.resume t' o' (p.state s) = some (p.state s', p.tasks ts)

variable {p : Part σ τ σ' τ'} {P : Program σ τ κ ο} {P' : Program σ' τ' κ' ο'}
  {C : τ → ο → σ → Prop} {C' : τ' → ο' → σ' → Prop} {w w' : World σ τ} {e : Event κ ο}

/-- Calls do not look at the tasks that are there. -/
theorem run_calls : ∀ (ks : List κ') {s s' : σ'} {us ts : List τ'},
    P'.run ⟨s, us⟩ (ks.map .call) = some ⟨s', ts⟩ →
    ∀ l, P'.run ⟨s, l ++ us⟩ (ks.map .call) = some ⟨s', l ++ ts⟩
  | [], s, s', us, ts, hr, l => by
    obtain ⟨rfl, rfl⟩ := World.mk.inj (Option.some.inj hr)
    rfl
  | k :: ks, s, s', us, ts, hr, l => by
    have h := run_calls ks hr l
    rwa [← List.append_assoc] at h

/-- Calls meet every condition on resumptions. -/
theorem each_calls : ∀ (ks : List κ') (v : World σ' τ'), P'.Each (Meets C') v (ks.map .call)
  | [], _ => trivial
  | _ :: ks, _ => fun _ _ => ⟨meets_call, each_calls ks _⟩

/-- **A step, as the part sees it.** -/
theorem Contains.step (h : Contains p P P' C C') (hC : Meets C w e w')
    (hs : P.step w e = some w') : ∃ es : List (Event κ' ο'),
      P'.Each (Meets C') (p.see w) es ∧ P'.run (p.see w) es = some (p.see w') := by
  rcases Program.step_cases hs with ⟨k, rfl, rfl⟩ | ⟨l, t, r, o, s, ts, rfl, ht, hr, rfl⟩
  · obtain ⟨ks, hks⟩ := h.call k w.shared
    refine ⟨ks.map .call, each_calls ks _, ?_⟩
    have hrun := run_calls ks hks (p.tasks w.tasks)
    rw [List.append_nil, ← p.tasks_append] at hrun
    exact hrun
  · cases hown : p.task t with
    | none =>
      obtain ⟨hstate, htasks⟩ := h.other t o w.shared s ts hown hr
      have hsame : p.see ⟨s, l ++ ts ++ r⟩ = p.see w := by
        rw [Part.see, Part.see, ht, hstate, p.tasks_append, p.tasks_append, htasks,
          p.tasks_append, p.tasks_cons_other hown, List.append_nil]
      exact ⟨[], trivial, congrArg some hsame.symm⟩
    | some t' =>
      obtain ⟨o', hC', hr'⟩ := h.own t t' o w.shared s ts hown ((meets_resume ht).mp hC) hr
      have hsee : p.see w = ⟨p.state w.shared, p.tasks l ++ t' :: p.tasks r⟩ := by
        rw [Part.see, ht, p.tasks_append, p.tasks_cons_own hown]
      have hstep : P'.step (p.see w) (.resume (p.tasks l).length o') =
          some (p.see ⟨s, l ++ ts ++ r⟩) := by
        rw [hsee, Program.step_resume_of hr', Part.see, p.tasks_append, p.tasks_append]
      refine ⟨[.resume (p.tasks l).length o'], (Program.each_cons hstep).mpr ⟨?_, trivial⟩,
        Program.run_cons_some.mpr ⟨_, hstep, rfl⟩⟩
      rw [hsee]
      exact (meets_resume rfl).mpr hC'

/-- **A run, as the part sees it, is a run of the part.** -/
theorem Contains.run (h : Contains p P P' C C') : ∀ {es : List (Event κ ο)} {w w' : World σ τ},
    P.Each (Meets C) w es → P.run w es = some w' → ∃ es' : List (Event κ' ο'),
      P'.Each (Meets C') (p.see w) es' ∧ P'.run (p.see w) es' = some (p.see w')
  | [], w, w', _, hr => by
    obtain rfl : w = w' := by simpa using hr
    exact ⟨[], trivial, rfl⟩
  | e :: es, w, w', hC, hr => by
    obtain ⟨w₁, hs, hr⟩ := Program.run_cons_some.mp hr
    obtain ⟨es₁, hC₁, hr₁⟩ := h.step (hC w₁ hs).1 hs
    obtain ⟨es₂, hC₂, hr₂⟩ := h.run (hC w₁ hs).2 hr
    refine ⟨es₁ ++ es₂, Program.each_append hC₁ hr₁ hC₂, ?_⟩
    rw [Program.run_append, hr₁, Option.bind_some, hr₂]

/-- A run under no conditions. -/
theorem Contains.run_all (h : Contains p P P' C C') (hC : ∀ t o s, C t o s)
    {es : List (Event κ ο)} (hr : P.run w es = some w') :
    ∃ es' : List (Event κ' ο'), P'.run (p.see w) es' = some (p.see w') := by
  obtain ⟨es', -, hr'⟩ := h.run (each_meets hC w es) hr
  exact ⟨es', hr'⟩

end PixsBliss.Lib.Parts
