import PixsBliss.Lib.Async

/-! # The turns of a routine

A call that awaits several things runs in turns, with the turns of other calls in between.
`traced P` is the program `P` with each suspended task carrying the turns its routine has taken, so
that what a routine does can be said of the whole of it. `map_run_forget`: without the turns it is
`P`.

* `suspended_step`: what every turn passes on to the next one holds of every suspended routine.
* `each_turn_iff`: so a property of the turns of a run is read off the task that is resumed; and
  `each_iff_of_passes` one of its steps, which `turn_cases` splits into calls and turns. -/

namespace PixsBliss.Lib.Traces

open PixsBliss.Lib.Async

variable {σ τ κ ο : Type}

/-- A turn: the task that is resumed and the outcome it hears, the state it finds and leaves. -/
structure Turn (σ τ ο : Type) where
  task : τ
  outcome : ο
  before : σ
  after : σ

/-- The program whose tasks carry the turns of their routine. -/
def traced (P : Program σ τ κ ο) : Program σ (List (Turn σ τ ο) × τ) κ ο where
  call k s := ((P.call k s).1, (P.call k s).2.map (Prod.mk []))
  resume
    | (h, t), o, s =>
      (P.resume t o s).map fun r => (r.1, r.2.map (Prod.mk (h ++ [⟨t, o, s, r.1⟩])))

def start (w : World σ τ) : World σ (List (Turn σ τ ο) × τ) := ⟨w.shared, w.tasks.map (Prod.mk [])⟩

def forget (w : World σ (List (Turn σ τ ο) × τ)) : World σ τ := ⟨w.shared, w.tasks.map Prod.snd⟩

variable {P : Program σ τ κ ο} {w w' : World σ (List (Turn σ τ ο) × τ)} {e : Event κ ο}

/-! ### The turns change nothing -/

theorem map_snd_mk (h : List (Turn σ τ ο)) (ts : List τ) :
    (ts.map (Prod.mk h)).map Prod.snd = ts := by
  rw [List.map_map]
  exact List.map_id ts

theorem forget_start (w : World σ τ) : forget (start w : World σ (List (Turn σ τ ο) × τ)) = w := by
  rw [start, forget, map_snd_mk]

theorem map_step_forget (e : Event κ ο) (w : World σ (List (Turn σ τ ο) × τ)) :
    ((traced P).step w e).map forget = P.step (forget w) e := by
  cases e with
  | call k =>
    rw [Program.step_call, Program.step_call, Option.map_some]
    simp only [forget, traced, List.map_append, map_snd_mk]
  | resume i o =>
    unfold Program.step
    simp only [forget, List.getElem?_map]
    cases w.tasks[i]? with
    | none => rfl
    | some p =>
      obtain ⟨h, t⟩ := p
      simp only [traced, Option.map_some]
      cases P.resume t o w.shared with
      | none => rfl
      | some r =>
        simp only [Option.map_some, forget, List.map_append, map_snd_mk, List.map_take,
          List.map_drop]

/-- **Without its turns** a run of the traced program is a run of the program. -/
theorem map_run_forget : ∀ (es : List (Event κ ο)) (w : World σ (List (Turn σ τ ο) × τ)),
    ((traced P).run w es).map forget = P.run (forget w) es :=
  Program.map_run_of_map_step map_step_forget

/-! ### Turns -/

/-- The turn a step takes, if it is one, has the property `Q` of the turns before it, of itself and
of what it leaves. -/
def EachTurn (P : Program σ τ κ ο) (Q : List (Turn σ τ ο) → Turn σ τ ο → List τ → Prop)
    (w : World σ (List (Turn σ τ ο) × τ)) (e : Event κ ο)
    (_ : World σ (List (Turn σ τ ο) × τ)) : Prop :=
  ∀ i o h t s ts, e = .resume i o → w.tasks[i]? = some (h, t) →
    P.resume t o w.shared = some (s, ts) → Q h ⟨t, o, w.shared, s⟩ ts

/-- The suspended routines have the property `I` of their turns and their task. -/
def Suspended (I : List (Turn σ τ ο) → τ → Prop) (w : World σ (List (Turn σ τ ο) × τ)) : Prop :=
  ∀ p ∈ w.tasks, I p.1 p.2

variable {I : List (Turn σ τ ο) → τ → Prop}
  {Q R : List (Turn σ τ ο) → Turn σ τ ο → List τ → Prop}

/-- What a routine starts with, and what a turn passes on. -/
structure Passes (P : Program σ τ κ ο) (I : List (Turn σ τ ο) → τ → Prop) : Prop where
  call : ∀ k s, ∀ t ∈ (P.call k s).2, I [] t
  resume : ∀ h t o s s' ts, I h t → P.resume t o s = some (s', ts) →
    ∀ t' ∈ ts, I (h ++ [⟨t, o, s, s'⟩]) t'

theorem suspended_start {w : World σ τ} (h : ∀ t ∈ w.tasks, I [] t) : Suspended I (start w) := by
  intro p hp
  obtain ⟨t, ht, rfl⟩ := List.mem_map.mp hp
  exact h t ht

theorem suspended_step (hI : Passes P I) (h : Suspended I w) (hs : (traced P).step w e = some w') :
    Suspended I w' := by
  rcases Program.step_cases hs with ⟨k, rfl, rfl⟩ | ⟨l, ⟨turns, t⟩, r, o, s, ts, rfl, ht, hr, rfl⟩
  · intro p hp
    rcases List.mem_append.mp hp with hold | hnew
    · exact h p hold
    · obtain ⟨t, htask, rfl⟩ := List.mem_map.mp hnew
      exact hI.call k w.shared t htask
  · obtain ⟨⟨s₁, ts₁⟩, hres, heq⟩ := Option.map_eq_some_iff.mp hr
    obtain ⟨rfl, rfl⟩ := Prod.mk.inj heq
    have hcurrent : I turns t := h (turns, t) (by rw [ht]; simp)
    intro p hp
    have hp : p ∈ l ++ ts₁.map (Prod.mk (turns ++ [⟨t, o, w.shared, s₁⟩])) ++ r := hp
    rcases List.mem_append.mp hp with hp | hright
    · rcases List.mem_append.mp hp with hleft | hnew
      · exact h p (by rw [ht]; exact List.mem_append_left _ hleft)
      · obtain ⟨t', htask, rfl⟩ := List.mem_map.mp hnew
        exact hI.resume _ _ _ _ _ _ hcurrent hres t' htask
    · exact h p (by rw [ht]; exact List.mem_append_right _ (List.mem_cons_of_mem _ hright))

/-- A property of a turn that is another one wherever the invariant holds. -/
theorem eachTurn_iff (h : Suspended I w)
    (hQ : ∀ turns t o s s' ts, I turns t → P.resume t o s = some (s', ts) →
      (Q turns ⟨t, o, s, s'⟩ ts ↔ R turns ⟨t, o, s, s'⟩ ts)) :
    EachTurn P Q w e w' ↔ EachTurn P R w e w' := by
  have hiff : ∀ (i : ℕ) turns t o s ts, w.tasks[i]? = some (turns, t) →
      P.resume t o w.shared = some (s, ts) →
      (Q turns ⟨t, o, w.shared, s⟩ ts ↔ R turns ⟨t, o, w.shared, s⟩ ts) := by
    intro i turns t o s ts ht hres
    exact hQ turns t o w.shared s ts (h (turns, t) (List.mem_of_getElem? ht)) hres
  constructor
  · exact fun hq i o turns t s ts he ht hres => (hiff i turns t o s ts ht hres).mp
      (hq i o turns t s ts he ht hres)
  · exact fun hr i o turns t s ts he ht hres => (hiff i turns t o s ts ht hres).mpr
      (hr i o turns t s ts he ht hres)

/-- **A property of the steps of a run** that is another one wherever what the turns pass on
holds. -/
theorem each_iff_of_passes (hI : Passes P I) {w : World σ τ} (h : ∀ t ∈ w.tasks, I [] t)
    {A B : World σ (List (Turn σ τ ο) × τ) → Event κ ο → World σ (List (Turn σ τ ο) × τ) → Prop}
    (hstep : ∀ w e w', Suspended I w → (traced P).step w e = some w' → (A w e w' ↔ B w e w'))
    (es : List (Event κ ο)) : (traced P).Each A (start w) es ↔ (traced P).Each B (start w) es := by
  refine Program.each_iff_each (fun v e v' hv hs => ?_) (suspended_start h)
  exact ⟨hstep v e v' hv hs, fun _ => suspended_step hI hv hs⟩

/-- **A property of the turns of a run** that is another one wherever what they pass on holds. -/
theorem each_turn_iff (hI : Passes P I) {w : World σ τ} (h : ∀ t ∈ w.tasks, I [] t)
    (hQ : ∀ turns t o s s' ts, I turns t → P.resume t o s = some (s', ts) →
      (Q turns ⟨t, o, s, s'⟩ ts ↔ R turns ⟨t, o, s, s'⟩ ts)) (es : List (Event κ ο)) :
    (traced P).Each (EachTurn P Q) (start w) es ↔ (traced P).Each (EachTurn P R) (start w) es :=
  each_iff_of_passes hI h (fun _ _ _ hv _ => eachTurn_iff hv hQ) es

/-! ### Steps that are turns -/

/-- A step is a call, or a turn. -/
theorem turn_cases (hs : (traced P).step w e = some w') :
    (∃ k, e = .call k ∧ w'.shared = (P.call k w.shared).1) ∨
      ∃ i o turns t ts, e = .resume i o ∧ w.tasks[i]? = some (turns, t) ∧
        P.resume t o w.shared = some (w'.shared, ts) := by
  rcases Program.step_cases hs with ⟨k, rfl, rfl⟩ | ⟨l, ⟨turns, t⟩, r, o, s, ts, rfl, ht, hr, rfl⟩
  · exact Or.inl ⟨k, rfl, rfl⟩
  · obtain ⟨⟨s₁, ts₁⟩, hres, heq⟩ := Option.map_eq_some_iff.mp hr
    obtain ⟨rfl, rfl⟩ := Prod.mk.inj heq
    exact Or.inr ⟨l.length, o, turns, t, ts₁, rfl, Program.getElem?_of_eq ht, hres⟩

theorem eachTurn_call {k : κ} : EachTurn P Q w (.call k) w' := by
  intro i o turns t s ts he
  cases he

theorem eachTurn_resume {i : ℕ} {o : ο} {turns : List (Turn σ τ ο)} {t : τ} {s : σ} {ts : List τ}
    (ht : w.tasks[i]? = some (turns, t)) (hres : P.resume t o w.shared = some (s, ts)) :
    EachTurn P Q w (.resume i o) w' ↔ Q turns ⟨t, o, w.shared, s⟩ ts := by
  refine ⟨fun h => h i o turns t s ts rfl ht hres, ?_⟩
  rintro hq j o' turns' t' s' ts' he ht' hres'
  obtain ⟨rfl, rfl⟩ := Event.resume.inj he
  obtain ⟨rfl, rfl⟩ := Prod.mk.inj (Option.some.inj (ht.symm.trans ht'))
  obtain ⟨rfl, rfl⟩ := Prod.mk.inj (Option.some.inj (hres.symm.trans hres'))
  exact hq

end PixsBliss.Lib.Traces
