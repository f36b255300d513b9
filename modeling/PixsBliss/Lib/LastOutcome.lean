import PixsBliss.Lib.Async

/-! # The outcome that came last

`watched P` is the program `P` with the outcome of the request that completed last as a ghost; some
calls start over, and forget it. `map_run_unwatched`: without the ghost it is `P`.

A state may *report* a failure. Where nothing but a call that starts over takes the report back
(`Sticks`), the report is that of the last outcome exactly along the runs in which no success comes
last while one stands (`reportsLast_iff`). -/

namespace PixsBliss.Lib.LastOutcome

open PixsBliss.Lib.Async

variable {σ τ κ ο : Type}

/-- The program with the last outcome. -/
def watched (P : Program σ τ κ ο) (restarts : κ → Bool) : Program (σ × Option ο) τ κ ο where
  call k s := (((P.call k s.1).1, if restarts k then none else s.2), (P.call k s.1).2)
  resume t o s := (P.resume t o s.1).map fun r => ((r.1, some o), r.2)

def start (s : σ) : World (σ × Option ο) τ := ⟨(s, none), []⟩

def unwatched (w : World (σ × Option ο) τ) : World σ τ := ⟨w.shared.1, w.tasks⟩

variable {P : Program σ τ κ ο} {restarts : κ → Bool} {w w' : World (σ × Option ο) τ}
  {e : Event κ ο}

/-! ### The ghost changes nothing -/

theorem map_step_unwatched (restarts : κ → Bool) (e : Event κ ο) (w : World (σ × Option ο) τ) :
    ((watched P restarts).step w e).map unwatched = P.step (unwatched w) e := by
  cases e with
  | call k => rfl
  | resume i o =>
    unfold Program.step
    simp only [unwatched]
    cases w.tasks[i]? with
    | none => rfl
    | some t =>
      simp only [watched]
      cases P.resume t o w.shared.1 with
      | none => rfl
      | some r => rfl

/-- **Without the ghost** a run of the watched program is a run of the program. -/
theorem map_run_unwatched : ∀ (es : List (Event κ ο)) (w : World (σ × Option ο) τ),
    ((watched P restarts).run w es).map unwatched = P.run (unwatched w) es :=
  Program.map_run_of_map_step (map_step_unwatched restarts)

/-! ### Reports -/

variable {reports : σ → Bool} {fails : ο → Bool}

/-- **A report sticks**: a failure makes it, and only a call that starts over takes it back. -/
structure Sticks (P : Program σ τ κ ο) (restarts : κ → Bool) (reports : σ → Bool)
    (fails : ο → Bool) : Prop where
  call : ∀ k s, reports (P.call k s).1 = (!restarts k && reports s)
  resume : ∀ t o s s' ts, P.resume t o s = some (s', ts) →
    reports s' = (fails o || reports s) ∧ ts = []

/-- With no request in flight a failure is reported exactly if the last outcome is one. -/
def ReportsLast (reports : σ → Bool) (fails : ο → Bool) (w : World (σ × Option ο) τ) : Prop :=
  w.tasks = [] → (reports w.shared.1 = true ↔ ∃ o, w.shared.2 = some o ∧ fails o = true)

/-- The success of the only request in flight finds no report. -/
def NoneStands (reports : σ → Bool) (fails : ο → Bool) (w : World (σ × Option ο) τ)
    (e : Event κ ο) (_ : World (σ × Option ο) τ) : Prop :=
  ∀ i o, e = .resume i o → w.tasks.length = 1 → fails o = false → reports w.shared.1 = false

def RunReportsLast (P : Program σ τ κ ο) (restarts : κ → Bool) (reports : σ → Bool)
    (fails : ο → Bool) (s : σ) (es : List (Event κ ο)) : Prop :=
  ReportsLast reports fails (start s : World (σ × Option ο) τ) ∧
    (watched P restarts).Each (fun _ _ w' => ReportsLast reports fails w') (start s) es

def RunFindsNone (P : Program σ τ κ ο) (restarts : κ → Bool) (reports : σ → Bool)
    (fails : ο → Bool) (s : σ) (es : List (Event κ ο)) : Prop :=
  (watched P restarts).Each (NoneStands reports fails) (start s) es

/-- What an answer leaves: nothing in flight if it was alone, and itself as the last outcome. -/
theorem step_answer (h : Sticks P restarts reports fails) {i : ℕ} {o : ο}
    (hs : (watched P restarts).step w (.resume i o) = some w') :
    (w'.tasks = [] ↔ w.tasks.length = 1) ∧ w'.shared.2 = some o ∧
      reports w'.shared.1 = (fails o || reports w.shared.1) := by
  obtain ⟨l, t, r, s, ts, ht, -, hr, rfl⟩ := Program.step_resume hs
  obtain ⟨⟨s₁, ts₁⟩, hres, heq⟩ := Option.map_eq_some_iff.mp hr
  obtain ⟨rfl, rfl⟩ := Prod.mk.inj heq
  obtain ⟨hreports, rfl⟩ := h.resume _ _ _ _ _ hres
  refine ⟨?_, rfl, hreports⟩
  rw [ht, ← List.length_eq_zero_iff]
  simp only [List.length_append, List.length_cons, List.length_nil]
  omega

/-- **An answer** reports the last outcome exactly if no report stands, where it has to. -/
theorem reportsLast_answer (h : Sticks P restarts reports fails) {i : ℕ} {o : ο}
    (hs : (watched P restarts).step w (.resume i o) = some w') :
    ReportsLast reports fails w' ↔
      NoneStands reports fails w (.resume i o : Event κ ο) w' := by
  obtain ⟨hidle, hlast, hreports⟩ := step_answer h hs
  have hfails : (∃ o', some o = some o' ∧ fails o' = true) ↔ fails o = true :=
    ⟨fun ⟨_, heq, hf⟩ => by rwa [Option.some.inj heq], fun hf => ⟨o, rfl, hf⟩⟩
  unfold ReportsLast
  rw [hidle, hlast, hreports, hfails]
  constructor
  · rintro hw' j o' he hone ho
    obtain ⟨rfl, rfl⟩ := Event.resume.inj he
    simpa [ho] using hw' hone
  · intro hn hone
    cases ho : fails o with
    | true => simp
    | false => simp [hn i o rfl hone ho]

theorem reportsLast_call (h : Sticks P restarts reports fails) (hw : ReportsLast reports fails w)
    {k : κ} (hs : (watched P restarts).step w (.call k) = some w') :
    ReportsLast reports fails w' := by
  obtain rfl := Option.some.inj hs
  intro hidle
  obtain ⟨htasks, -⟩ := List.append_eq_nil_iff.mp hidle
  show reports (P.call k w.shared.1).1 = true ↔
    ∃ o, (if restarts k then none else w.shared.2) = some o ∧ fails o = true
  rw [h.call k w.shared.1]
  cases restarts k with
  | true => simp
  | false => simpa using hw htasks

theorem reportsLast_step (h : Sticks P restarts reports fails) (hw : ReportsLast reports fails w)
    (hs : (watched P restarts).step w e = some w') :
    ReportsLast reports fails w' ↔ NoneStands reports fails w e w' := by
  cases e with
  | call k =>
    refine iff_of_true (reportsLast_call h hw hs) ?_
    intro i o he
    cases he
  | resume i o => exact reportsLast_answer h hs

/-- **Exactly the runs along which the report is that of the last outcome.** -/
theorem reportsLast_iff (h : Sticks P restarts reports fails) {s : σ} (hs : reports s = false)
    (es : List (Event κ ο)) :
    RunReportsLast P restarts reports fails s es ↔ RunFindsNone P restarts reports fails s es := by
  have hstart : ReportsLast reports fails (start s : World (σ × Option ο) τ) := by
    intro _
    refine iff_of_false (by simp [start, hs]) ?_
    rintro ⟨o, heq, -⟩
    cases heq
  unfold RunReportsLast
  rw [and_iff_right hstart]
  exact Program.each_iff_each (fun _ _ _ hw hs => ⟨reportsLast_step h hw hs, id⟩) hstart

end PixsBliss.Lib.LastOutcome
