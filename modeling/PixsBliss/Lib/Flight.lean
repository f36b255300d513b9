import PixsBliss.Lib.Async

/-! # One request in flight

Some tasks of a program are requests, and a flag of the shared state, `busy`, guards them: a call
sends a request only when the flag is down, and raises it; the end of the request lowers it.

A `Guard` names the requests and the flag, and says what the state is like without a request
(`Idle`) and with one (`Fits t`). `Single` is the invariant: no request is in flight and the flag is
down, or exactly one is and the flag is up. A turn of the program (a call, or a resumption up to the
next `await`) either leaves the request in flight alone (`Quiet`), or sends one (`Starts`), or ends
one (`Ends`); `single_step` is the rule. -/

namespace PixsBliss.Lib.Flight

open PixsBliss.Lib.Async

variable {σ τ κ ο : Type}

/-- Requests, their flag, and what the state is like without and with a request. -/
structure Guard (σ τ : Type) where
  isRequest : τ → Bool
  busy : σ → Bool
  Idle : σ → Prop
  Fits : τ → σ → Prop

/-- Every resumption of the run meets a condition on the task, the outcome and the state. -/
def Meets (C : τ → ο → σ → Prop) (w : World σ τ) (e : Event κ ο) (_ : World σ τ) : Prop :=
  ∀ i o t, e = .resume i o → w.tasks[i]? = some t → C t o w.shared

theorem meets_call {C : τ → ο → σ → Prop} {w w' : World σ τ} {k : κ} :
    Meets C w (.call k : Event κ ο) w' := by
  intro i o t he
  cases he

theorem meets_of_task {C : τ → ο → σ → Prop} {w w' : World σ τ} {i : ℕ} {t : τ} {o : ο}
    (hi : w.tasks[i]? = some t) (hC : C t o w.shared) :
    Meets C w (.resume i o : Event κ ο) w' := by
  intro i' o' t' he ht'
  obtain ⟨rfl, rfl⟩ := Event.resume.inj he
  obtain rfl : t = t' := Option.some.inj (hi.symm.trans ht')
  exact hC

theorem meets_resume {C : τ → ο → σ → Prop} {w w' : World σ τ} {l r : List τ} {t : τ} {o : ο}
    (ht : w.tasks = l ++ t :: r) :
    Meets C w (.resume l.length o : Event κ ο) w' ↔ C t o w.shared := by
  have hi : w.tasks[l.length]? = some t := Program.getElem?_of_eq ht
  exact ⟨fun h => h l.length o t rfl hi, meets_of_task hi⟩

/-- A condition that holds anyway. -/
theorem each_meets {P : Program σ τ κ ο} {C : τ → ο → σ → Prop} (hC : ∀ t o s, C t o s)
    (w : World σ τ) (es : List (Event κ ο)) : P.Each (Meets C) w es :=
  Program.each_of_inv (I := fun _ => True)
    (fun _ _ _ _ _ => ⟨trivial, fun _ o t _ _ => hC t o _⟩) trivial

namespace Guard

variable (G : Guard σ τ)

/-- The requests among the tasks. -/
def requests (ts : List τ) : List τ := ts.filter G.isRequest

/-- **At most one request is in flight, and the flag says whether there is one.** -/
def Single (w : World σ τ) : Prop :=
  (G.requests w.tasks = [] ∧ G.busy w.shared = false ∧ G.Idle w.shared) ∨
  ∃ t, G.requests w.tasks = [t] ∧ G.busy w.shared = true ∧ G.Fits t w.shared

/-- The turn sends no request and does not touch the one in flight. -/
structure Quiet (s s' : σ) (ts : List τ) : Prop where
  requests : G.requests ts = []
  busy : G.busy s' = G.busy s
  idle : G.Idle s → G.Idle s'
  fits : ∀ t, G.Fits t s → G.Fits t s'

/-- The turn sends a request, with the flag down before it. -/
structure Starts (s s' : σ) (ts : List τ) : Prop where
  before : G.busy s = false
  after : G.busy s' = true
  request : G.Idle s → ∃ t, G.requests ts = [t] ∧ G.Fits t s'

/-- The turn sends no request and leaves the flag down. -/
structure Ends (s' : σ) (ts : List τ) : Prop where
  requests : G.requests ts = []
  after : G.busy s' = false
  idle : G.Idle s'

/-- A turn that does not end a request. -/
def Turn (s s' : σ) (ts : List τ) : Prop := G.Quiet s s' ts ∨ G.Starts s s' ts

variable {G} {P : Program σ τ κ ο} {w w' : World σ τ} {e : Event κ ο} {s s' : σ}

@[simp] theorem requests_nil : G.requests [] = [] := rfl

theorem requests_append (ts ts' : List τ) :
    G.requests (ts ++ ts') = G.requests ts ++ G.requests ts' := List.filter_append ..

theorem requests_cons (t : τ) (ts : List τ) :
    G.requests (t :: ts) = if G.isRequest t then t :: G.requests ts else G.requests ts :=
  List.filter_cons

/-- The flag says whether a request is in flight. -/
theorem Single.busy_iff (h : G.Single w) :
    G.busy w.shared = true ↔ (G.requests w.tasks).length = 1 := by
  rcases h with ⟨hr, hb, -⟩ | ⟨t, hr, hb, -⟩
  · simp [hr, hb]
  · simp [hr, hb]

theorem Single.length_le (h : G.Single w) : (G.requests w.tasks).length ≤ 1 := by
  rcases h with ⟨hr, -, -⟩ | ⟨t, hr, -, -⟩ <;> simp [hr]

theorem Single.idle (h : G.Single w) (hb : G.busy w.shared = false) : G.Idle w.shared := by
  rcases h with ⟨-, -, hi⟩ | ⟨t, -, hb', -⟩
  · exact hi
  · rw [hb] at hb'
    cases hb'

/-- A request in flight is the one in flight. -/
theorem Single.fits (h : G.Single w) {t : τ} (ht : t ∈ w.tasks) (hr : G.isRequest t = true) :
    G.Fits t w.shared := by
  have hm : t ∈ G.requests w.tasks := List.mem_filter.mpr ⟨ht, hr⟩
  rcases h with ⟨hn, -, -⟩ | ⟨t', hn, -, hf⟩
  · rw [hn] at hm
    simp at hm
  · rw [hn, List.mem_singleton] at hm
    exact hm ▸ hf

/-- A turn that leaves `ts` between the tasks `l` and `r`, whose requests are those in flight. -/
theorem single_turn {us l r ts : List τ} (h : G.Single ⟨s, us⟩)
    (hus : G.requests us = G.requests l ++ G.requests r) (ht : G.Turn s s' ts) :
    G.Single ⟨s', l ++ ts ++ r⟩ := by
  have hreq : G.requests (l ++ ts ++ r) = G.requests l ++ G.requests ts ++ G.requests r := by
    rw [requests_append, requests_append]
  rcases ht with ht | ht
  · have hsame : G.requests (l ++ ts ++ r) = G.requests us := by
      rw [hreq, ht.requests, List.append_nil, hus]
    rcases h with ⟨hn, hb, hi⟩ | ⟨t, hn, hb, hf⟩
    · exact Or.inl ⟨hsame.trans hn, ht.busy.trans hb, ht.idle hi⟩
    · exact Or.inr ⟨t, hsame.trans hn, ht.busy.trans hb, ht.fits t hf⟩
  · rcases h with ⟨hn, -, hi⟩ | ⟨t, -, hb, -⟩
    · obtain ⟨hl, hr⟩ := List.append_eq_nil_iff.mp (hus.symm.trans hn)
      obtain ⟨t, hts, hf⟩ := ht.request hi
      exact Or.inr ⟨t, by rw [hreq, hl, hr, hts]; rfl, ht.after, hf⟩
    · exact absurd (ht.before.symm.trans hb) Bool.false_ne_true

/-- The end of the request in flight. -/
theorem single_end {l r ts : List τ} {t : τ} (h : G.Single ⟨s, l ++ t :: r⟩)
    (hr : G.isRequest t = true) (ht : G.Ends s' ts) : G.Single ⟨s', l ++ ts ++ r⟩ := by
  have hlen := h.length_le
  have hold : G.requests (l ++ t :: r) = G.requests l ++ t :: G.requests r := by
    rw [requests_append, requests_cons, if_pos hr]
  simp only [hold, List.length_append, List.length_cons] at hlen
  have hl : G.requests l = [] := List.length_eq_zero_iff.mp (by omega)
  have hr' : G.requests r = [] := List.length_eq_zero_iff.mp (by omega)
  refine Or.inl ⟨?_, ht.after, ht.idle⟩
  rw [requests_append, requests_append, hl, hr', ht.requests]
  rfl

/-- **One step keeps a single request in flight.** -/
theorem single_step {C : τ → ο → σ → Prop} (hcall : ∀ k s, G.Turn s (P.call k s).1 (P.call k s).2)
    (hother : ∀ t o s s' ts, G.isRequest t = false → P.resume t o s = some (s', ts) →
      G.Turn s s' ts)
    (hend : ∀ t o s s' ts, G.isRequest t = true → P.resume t o s = some (s', ts) →
      G.Fits t s → C t o s → G.Ends s' ts)
    (h : G.Single w) (hC : Meets C w e w') (hs : P.step w e = some w') : G.Single w' := by
  rcases Program.step_cases hs with ⟨k, rfl, rfl⟩ | ⟨l, t, r, o, s, ts, rfl, ht, hr, rfl⟩
  · have h' := single_turn (l := w.tasks) (r := []) h (by simp) (hcall k w.shared)
    rwa [List.append_nil] at h'
  · have hC' := (meets_resume ht).mp hC
    obtain ⟨s₀, us⟩ := w
    obtain rfl : us = l ++ t :: r := ht
    cases hreq : G.isRequest t with
    | true =>
      exact single_end h hreq (hend t o s₀ s ts hreq hr (h.fits (by simp) hreq) hC')
    | false =>
      refine single_turn h ?_ (hother t o s₀ s ts hreq hr)
      rw [requests_append, requests_cons, hreq]
      rfl

/-! ### One request, from its start to its end -/

/-- The request `t` is in flight, and no other. -/
structure InFlight (G : Guard σ τ) (t : τ) (w : World σ τ) : Prop where
  requests : G.requests w.tasks = [t]
  busy : G.busy w.shared = true
  fits : G.Fits t w.shared

/-- No request ends. -/
def NoEnd (G : Guard σ τ) : World σ τ → Event κ ο → World σ τ → Prop :=
  Meets fun t _ _ => G.isRequest t = false

/-- **A request stays in flight** through the steps that do not end it. -/
theorem inFlight_step (hcall : ∀ k s, G.Turn s (P.call k s).1 (P.call k s).2)
    (hother : ∀ t o s s' ts, G.isRequest t = false → P.resume t o s = some (s', ts) →
      G.Turn s s' ts)
    {t : τ} (h : G.InFlight t w) (hne : G.NoEnd w e w') (hs : P.step w e = some w') :
    G.InFlight t w' := by
  have hturn : ∀ {l r ts : List τ} {s' : σ}, G.Turn w.shared s' ts →
      G.requests w.tasks = G.requests l ++ G.requests r → G.InFlight t ⟨s', l ++ ts ++ r⟩ := by
    intro l r ts s' ht hlr
    rcases ht with ht | ht
    · refine ⟨?_, ht.busy.trans h.busy, ht.fits t h.fits⟩
      rw [requests_append, requests_append, ht.requests, List.append_nil, ← hlr, h.requests]
    · exact absurd (ht.before.symm.trans h.busy) Bool.false_ne_true
  rcases Program.step_cases hs with ⟨k, rfl, rfl⟩ | ⟨l, u, r, o, s, ts, rfl, ht, hr, rfl⟩
  · have h' := hturn (l := w.tasks) (r := []) (hcall k w.shared) (by simp)
    rwa [List.append_nil] at h'
  · have hu : G.isRequest u = false := (meets_resume ht).mp hne
    refine hturn (hother u o w.shared s ts hu hr) ?_
    rw [ht, requests_append, requests_cons, hu]
    rfl

theorem inFlight_run (hcall : ∀ k s, G.Turn s (P.call k s).1 (P.call k s).2)
    (hother : ∀ t o s s' ts, G.isRequest t = false → P.resume t o s = some (s', ts) →
      G.Turn s s' ts)
    {es : List (Event κ ο)} {t : τ} (h : G.InFlight t w) (hne : P.Each G.NoEnd w es)
    (hr : P.run w es = some w') : G.InFlight t w' :=
  Program.run_inv_of_each (fun _ _ _ h hne hs => inFlight_step hcall hother h hne hs) h hne hr

end Guard
end PixsBliss.Lib.Flight
