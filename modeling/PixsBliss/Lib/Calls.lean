import PixsBliss.Lib.Async

/-! # The calls of a run

To say what a run owes to one of its calls, the calls are numbered in the order in which they
start: `numbered P` is the program `P` with a history of its calls, of the outcomes each of them
heard and of the order in which they returned. `map_run_forget`: without the history it is `P`.

* `Sequential P`: a call is one thread, so each turn leaves at most one task.
* `last_returned`: what a call knows while it is suspended (`Fits`) and what it leaves when it
  returns (`Leaves`) are shown turn by turn; then a run with no task left ends in what the call that
  returned last leaves. -/

namespace PixsBliss.Lib.Calls

open PixsBliss.Lib.Async

variable {σ τ κ ο : Type}

/-- The shared state, each call with the state it found, the outcomes that were heard, with the
number of their call, and the calls that have returned, in this order. -/
structure History (σ κ ο : Type) where
  shared : σ
  calls : List (κ × σ)
  heard : List (ℕ × ο)
  returned : List ℕ

/-- What a call has heard so far. -/
def heardBy (i : ℕ) (heard : List (ℕ × ο)) : List ο :=
  (heard.filter fun e => e.1 = i).map Prod.snd

/-- A call returns with the turn that leaves no task. -/
def returning (i : ℕ) (ts : List τ) (returned : List ℕ) : List ℕ :=
  if ts.isEmpty then returned ++ [i] else returned

/-- The program with its history; a task carries the number of its call. -/
def numbered (P : Program σ τ κ ο) : Program (History σ κ ο) (ℕ × τ) κ ο where
  call k h :=
    ({ shared := (P.call k h.shared).1
       calls := h.calls ++ [(k, h.shared)]
       heard := h.heard
       returned := returning h.calls.length (P.call k h.shared).2 h.returned },
      (P.call k h.shared).2.map (Prod.mk h.calls.length))
  resume
    | (i, t), o, h =>
      (P.resume t o h.shared).map fun r =>
        ({ h with
           shared := r.1
           heard := h.heard ++ [(i, o)]
           returned := returning i r.2 h.returned }, r.2.map (Prod.mk i))

/-- No call yet. -/
def start (s : σ) : World (History σ κ ο) (ℕ × τ) := ⟨⟨s, [], [], []⟩, []⟩

/-- The state and the tasks without the history. -/
def forget (w : World (History σ κ ο) (ℕ × τ)) : World σ τ :=
  ⟨w.shared.shared, w.tasks.map Prod.snd⟩

variable {P : Program σ τ κ ο} {w w' : World (History σ κ ο) (ℕ × τ)} {e : Event κ ο}

/-! ### The history changes nothing -/

theorem map_snd_mk (i : ℕ) (ts : List τ) : (ts.map (Prod.mk i)).map Prod.snd = ts := by
  rw [List.map_map]
  exact List.map_id ts

theorem map_fst_mk (i : ℕ) (ts : List τ) :
    (ts.map (Prod.mk i)).map Prod.fst = List.replicate ts.length i := by
  rw [List.map_map]
  exact List.map_const' ..

theorem map_step_forget (e : Event κ ο) (w : World (History σ κ ο) (ℕ × τ)) :
    ((numbered P).step w e).map forget = P.step (forget w) e := by
  cases e with
  | call k =>
    rw [Program.step_call, Program.step_call, Option.map_some]
    simp only [forget, numbered, List.map_append, map_snd_mk]
  | resume i o =>
    unfold Program.step
    simp only [forget, List.getElem?_map]
    cases w.tasks[i]? with
    | none => rfl
    | some t =>
      obtain ⟨n, t⟩ := t
      simp only [numbered, Option.map_some]
      cases P.resume t o w.shared.shared with
      | none => rfl
      | some r =>
        simp only [Option.map_some, forget, List.map_append, map_snd_mk, List.map_take,
          List.map_drop]

/-- **Without its history** a run of the numbered program is a run of the program. -/
theorem map_run_forget : ∀ (es : List (Event κ ο)) (w : World (History σ κ ο) (ℕ × τ)),
    ((numbered P).run w es).map forget = P.run (forget w) es :=
  Program.map_run_of_map_step map_step_forget

/-- Every run has a history. -/
theorem exists_history {s : σ} {es : List (Event κ ο)} {v : World σ τ}
    (hr : P.run ⟨s, []⟩ es = some v) :
    ∃ w, (numbered P).run (start s) es = some w ∧ forget w = v := by
  have h : ((numbered P).run (start s) es).map forget = some v :=
    (map_run_forget es (start s)).trans hr
  exact Option.map_eq_some_iff.mp h

/-- A property of every step of the run holds of the steps with their history. -/
theorem each_numbered {Q : World σ τ → Event κ ο → World σ τ → Prop} :
    ∀ {es : List (Event κ ο)} {w : World (History σ κ ο) (ℕ × τ)}, P.Each Q (forget w) es →
      (numbered P).Each (fun w e w' => Q (forget w) e (forget w')) w es
  | [], _, _ => trivial
  | e :: es, w, h => fun w' hw' => by
    have hs : P.step (forget w) e = some (forget w') := by
      rw [← map_step_forget, hw']
      rfl
    exact ⟨(h _ hs).1, each_numbered (h _ hs).2⟩

/-- The calls of a list of events. -/
def callsOf (es : List (Event κ ο)) : List κ :=
  es.filterMap fun e => match e with
    | .call k => some k
    | .resume _ _ => none

/-- The history has the calls of the run. -/
theorem calls_of_run : ∀ {es : List (Event κ ο)} {w w' : World (History σ κ ο) (ℕ × τ)},
    (numbered P).run w es = some w' →
      w'.shared.calls.map Prod.fst = w.shared.calls.map Prod.fst ++ callsOf es
  | [], w, w', hr => by
    obtain rfl := Option.some.inj hr
    exact (List.append_nil _).symm
  | e :: es, w, w', hr => by
    obtain ⟨w₁, hs, hr⟩ := Program.run_cons_some.mp hr
    rw [calls_of_run hr]
    cases e with
    | call k =>
      obtain rfl := (Option.some.inj hs).symm
      simp [numbered, callsOf]
    | resume i o =>
      obtain ⟨l, t, r, s, ts, -, -, hres, rfl⟩ := Program.step_resume hs
      obtain ⟨r₁, -, heq⟩ := Option.map_eq_some_iff.mp hres
      obtain ⟨rfl, -⟩ := Prod.mk.inj heq
      rfl

/-! ### Numbers -/

/-- Each turn leaves at most one task. -/
structure Sequential (P : Program σ τ κ ο) : Prop where
  call : ∀ k s, (P.call k s).2.length ≤ 1
  resume : ∀ t o s s' ts, P.resume t o s = some (s', ts) → ts.length ≤ 1

/-- Every call is suspended or has returned, and not twice. -/
def Numbers (w : World (History σ κ ο) (ℕ × τ)) : Prop :=
  (w.tasks.map Prod.fst ++ w.shared.returned).Perm (List.range w.shared.calls.length)

/-- After its turn a call is suspended or has returned. -/
theorem perm_returning (i : ℕ) (returned : List ℕ) {ts : List τ} (h : ts.length ≤ 1) :
    ((ts.map (Prod.mk i)).map Prod.fst ++ returning i ts returned).Perm (i :: returned) := by
  unfold returning
  rw [map_fst_mk]
  rcases Nat.le_one_iff_eq_zero_or_eq_one.mp h with h0 | h1
  · obtain rfl := List.length_eq_zero_iff.mp h0
    simp only [List.isEmpty_nil, if_true]
    exact List.perm_append_singleton i returned
  · obtain ⟨t, rfl⟩ := List.length_eq_one_iff.mp h1
    exact List.Perm.refl _

theorem perm_swap_middle {α : Type} (a b c d : List α) :
    (a ++ b ++ c ++ d).Perm (a ++ c ++ (b ++ d)) := by
  have hbc : (a ++ (b ++ c)).Perm (a ++ (c ++ b)) := List.perm_append_comm.append_left a
  have h := hbc.append_right d
  simpa only [List.append_assoc] using h

theorem numbers_step (hseq : Sequential P) (h : Numbers w) (hs : (numbered P).step w e = some w') :
    Numbers w' := by
  unfold Numbers at h ⊢
  rcases Program.step_cases hs with ⟨k, rfl, rfl⟩ | ⟨l, t, r, o, s, ts, rfl, ht, hr, rfl⟩
  · have hturn := perm_returning w.shared.calls.length w.shared.returned
      (hseq.call k w.shared.shared)
    simp only [numbered, List.map_append, List.length_append, List.length_singleton,
      List.append_assoc]
    refine (hturn.append_left _).trans ?_
    rw [List.range_succ]
    exact (List.perm_middle.trans (h.cons _)).trans (List.perm_append_singleton _ _).symm
  · obtain ⟨i, t⟩ := t
    obtain ⟨⟨s₁, ts₁⟩, hres, heq⟩ := Option.map_eq_some_iff.mp hr
    obtain ⟨rfl, rfl⟩ := Prod.mk.inj heq
    have hturn := perm_returning i w.shared.returned
      (hseq.resume _ _ _ _ _ hres)
    have hold : (l.map Prod.fst ++ r.map Prod.fst ++ i :: w.shared.returned).Perm
        (w.tasks.map Prod.fst ++ w.shared.returned) := by
      rw [ht, List.map_append, List.map_cons, List.append_assoc, List.append_assoc]
      exact List.Perm.append_left _ List.perm_middle
    rw [List.map_append, List.map_append]
    exact ((perm_swap_middle ..).trans (hturn.append_left _)).trans (hold.trans h)

/-- Two tasks are of two calls. -/
theorem number_ne (h : Numbers w) {l r : List (ℕ × τ)} {i j : ℕ} {t t' : τ}
    (ht : w.tasks = l ++ (i, t) :: r) (ht' : (j, t') ∈ l ++ r) : j ≠ i := by
  have hnodup : (w.tasks.map Prod.fst).Nodup :=
    (List.nodup_append.mp (h.nodup_iff.mpr List.nodup_range)).1
  rw [ht, List.map_append, List.map_cons, List.nodup_middle, List.nodup_cons,
    ← List.map_append] at hnodup
  rintro rfl
  exact hnodup.1 (List.mem_map.mpr ⟨(j, t'), ht', rfl⟩)

/-! ### What the calls hear -/

theorem heardBy_append (i : ℕ) (heard heard' : List (ℕ × ο)) :
    heardBy i (heard ++ heard') = heardBy i heard ++ heardBy i heard' := by
  simp [heardBy]

theorem heardBy_concat_self (i : ℕ) (o : ο) (heard : List (ℕ × ο)) :
    heardBy i (heard ++ [(i, o)]) = heardBy i heard ++ [o] := by
  rw [heardBy_append]
  simp [heardBy]

theorem heardBy_concat_ne {i j : ℕ} (h : j ≠ i) (o : ο) (heard : List (ℕ × ο)) :
    heardBy j (heard ++ [(i, o)]) = heardBy j heard := by
  rw [heardBy_append]
  simp [heardBy, Ne.symm h]

theorem heardBy_eq_nil {i : ℕ} {heard : List (ℕ × ο)} (h : ∀ e ∈ heard, e.1 < i) :
    heardBy i heard = [] := by
  unfold heardBy
  rw [List.map_eq_nil_iff, List.filter_eq_nil_iff]
  intro e he
  have := h e he
  simp only [decide_eq_true_eq]
  omega

/-! ### The call that returned last -/

variable {Fits : κ → σ → List ο → τ → Prop} {Leaves : κ → σ → List ο → σ → Prop}

/-- The call `i` has the property `R` of its start and of what it heard. -/
def Of (i : ℕ) (h : History σ κ ο) (R : κ → σ → List ο → Prop) : Prop :=
  ∃ k s₀, h.calls[i]? = some (k, s₀) ∧ R k s₀ (heardBy i h.heard)

/-- Every suspended call knows what it knows, and without a task the state is what the call that
returned last leaves. -/
structure Known (Fits : κ → σ → List ο → τ → Prop) (Leaves : κ → σ → List ο → σ → Prop)
    (w : World (History σ κ ο) (ℕ × τ)) : Prop where
  numbers : Numbers w
  heard : ∀ e ∈ w.shared.heard, e.1 < w.shared.calls.length
  fits : ∀ i t, (i, t) ∈ w.tasks → Of i w.shared fun k s₀ os => Fits k s₀ os t
  leaves : w.tasks = [] → w.shared.calls ≠ [] → ∃ pre i, w.shared.returned = pre ++ [i] ∧
    Of i w.shared fun k s₀ os => Leaves k s₀ os w.shared.shared

theorem known_start (s : σ) : Known Fits Leaves (start s : World (History σ κ ο) (ℕ × τ)) :=
  ⟨List.Perm.refl _, by simp [start], by simp [start], fun _ h => absurd rfl h⟩

theorem known_call (hseq : Sequential P)
    (hcall : ∀ k s, (∀ t ∈ (P.call k s).2, Fits k s [] t) ∧
      ((P.call k s).2 = [] → Leaves k s [] (P.call k s).1))
    (h : Known Fits Leaves w) {k : κ} (hs : (numbered P).step w (.call k) = some w') :
    Known Fits Leaves w' := by
  have hnum : Numbers w' := numbers_step hseq h.numbers hs
  obtain rfl := (Option.some.inj hs).symm
  have hnew : heardBy w.shared.calls.length w.shared.heard = [] := heardBy_eq_nil h.heard
  have hold : ∀ {i R}, Of i w.shared R → Of i ((numbered P).call k w.shared).1 R := by
    rintro i R ⟨k', s₀, hi, hR⟩
    have hlt := (List.getElem?_eq_some_iff.mp hi).1
    exact ⟨k', s₀, (List.getElem?_append_left hlt).trans hi, hR⟩
  have hself : ∀ {R : κ → σ → List ο → Prop}, R k w.shared.shared [] →
      Of w.shared.calls.length ((numbered P).call k w.shared).1 R := by
    intro R hR
    refine ⟨k, w.shared.shared, List.getElem?_concat_length, ?_⟩
    show R k w.shared.shared (heardBy w.shared.calls.length w.shared.heard)
    rwa [hnew]
  refine ⟨hnum, fun e he => ?_, fun i t hm => ?_, fun hnil _ => ?_⟩
  · have hlt := h.heard e he
    simp only [numbered, List.length_append, List.length_singleton]
    omega
  · rcases List.mem_append.mp hm with hm | hm
    · exact hold (h.fits i t hm)
    · obtain ⟨t', ht', heq⟩ := List.mem_map.mp hm
      obtain ⟨rfl, rfl⟩ := Prod.mk.inj heq
      exact hself ((hcall k w.shared.shared).1 t' ht')
  · have hts : (P.call k w.shared.shared).2 = [] :=
      List.map_eq_nil_iff.mp (List.append_eq_nil_iff.mp hnil).2
    refine ⟨w.shared.returned, w.shared.calls.length, ?_, hself ((hcall k w.shared.shared).2 hts)⟩
    show returning _ (P.call k w.shared.shared).2 _ = _
    rw [hts]
    rfl

theorem known_resume (hseq : Sequential P)
    (hresume : ∀ k s₀ os t o s s' ts, Fits k s₀ os t → P.resume t o s = some (s', ts) →
      (∀ t' ∈ ts, Fits k s₀ (os ++ [o]) t') ∧ (ts = [] → Leaves k s₀ (os ++ [o]) s'))
    (h : Known Fits Leaves w) {n : ℕ} {o : ο} (hs : (numbered P).step w (.resume n o) = some w') :
    Known Fits Leaves w' := by
  have hnum : Numbers w' := numbers_step hseq h.numbers hs
  obtain ⟨l, ⟨i, t⟩, r, s, ts, ht, -, hr, rfl⟩ := Program.step_resume hs
  obtain ⟨⟨s₁, ts₁⟩, hres, heq⟩ := Option.map_eq_some_iff.mp hr
  obtain ⟨rfl, rfl⟩ := Prod.mk.inj heq
  obtain ⟨k, s₀, hi, hfits⟩ := h.fits i t (by simp [ht])
  obtain ⟨hnext, hlast⟩ := hresume k s₀ _ t o _ s₁ ts₁ hfits hres
  have hself : ∀ {R : κ → σ → List ο → Prop}, R k s₀ (heardBy i w.shared.heard ++ [o]) →
      Of i { w.shared with
        shared := s₁
        heard := w.shared.heard ++ [(i, o)]
        returned := returning i ts₁ w.shared.returned } R := by
    intro R hR
    refine ⟨k, s₀, hi, ?_⟩
    show R k s₀ (heardBy i (w.shared.heard ++ [(i, o)]))
    rwa [heardBy_concat_self]
  refine ⟨hnum, fun e he => ?_, fun j t' hm => ?_, fun hnil _ => ?_⟩
  · rcases List.mem_append.mp he with he | he
    · exact h.heard e he
    · obtain rfl := List.mem_singleton.mp he
      exact (List.getElem?_eq_some_iff.mp hi).1
  · have hm : (j, t') ∈ l ++ ts₁.map (Prod.mk i) ++ r := hm
    rw [List.append_assoc, List.mem_append, List.mem_append] at hm
    by_cases hts : (j, t') ∈ ts₁.map (Prod.mk i)
    · obtain ⟨t₁, ht₁, heq⟩ := List.mem_map.mp hts
      obtain ⟨rfl, rfl⟩ := Prod.mk.inj heq
      exact hself (hnext t₁ ht₁)
    · have hlr : (j, t') ∈ l ++ r := by
        rw [List.mem_append]
        tauto
      have hne : j ≠ i := number_ne h.numbers ht hlr
      have hmem : (j, t') ∈ w.tasks := by
        rw [List.mem_append] at hlr
        rw [ht, List.mem_append, List.mem_cons]
        tauto
      obtain ⟨k', s₀', hj, hR⟩ := h.fits j t' hmem
      refine ⟨k', s₀', hj, ?_⟩
      show Fits k' s₀' (heardBy j (w.shared.heard ++ [(i, o)])) t'
      rwa [heardBy_concat_ne hne]
  · have hts : ts₁ = [] :=
      List.map_eq_nil_iff.mp (List.append_eq_nil_iff.mp (List.append_eq_nil_iff.mp hnil).1).2
    subst hts
    exact ⟨w.shared.returned, i, rfl, hself (hlast rfl)⟩

/-- **The call that returned last decides.** A run with no task left, and at least one call, ends in
a state that the call that returned last leaves. -/
theorem last_returned (hseq : Sequential P)
    (hcall : ∀ k s, (∀ t ∈ (P.call k s).2, Fits k s [] t) ∧
      ((P.call k s).2 = [] → Leaves k s [] (P.call k s).1))
    (hresume : ∀ k s₀ os t o s s' ts, Fits k s₀ os t → P.resume t o s = some (s', ts) →
      (∀ t' ∈ ts, Fits k s₀ (os ++ [o]) t') ∧ (ts = [] → Leaves k s₀ (os ++ [o]) s'))
    {s : σ} {es : List (Event κ ο)} (hr : (numbered P).run (start s) es = some w)
    (hdone : w.tasks = []) (hcalls : w.shared.calls ≠ []) :
    w.shared.returned.Perm (List.range w.shared.calls.length) ∧
      ∃ pre i, w.shared.returned = pre ++ [i] ∧
        Of i w.shared fun k s₀ os => Leaves k s₀ os w.shared.shared := by
  have h : Known Fits Leaves w := by
    refine Program.run_inv (fun w e w' h hs => ?_) (known_start s) hr
    cases e with
    | call k => exact known_call hseq hcall h hs
    | resume n o => exact known_resume hseq hresume h hs
  have hnum := h.numbers
  unfold Numbers at hnum
  rw [hdone] at hnum
  exact ⟨hnum, h.leaves hdone hcalls⟩

end PixsBliss.Lib.Calls
