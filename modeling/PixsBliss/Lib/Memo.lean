import PixsBliss.Lib.Turns

/-! # Memoized futures

`futures[key] ??= f(argument)`: the first call with a key starts the routine `f` and keeps its
future under the key. A later call with the key gets this future, whether it is completed or not and
whatever it was completed with.

* `Sound`: for a key whose future is pending one routine runs, and for any other key none.
* `made_run`, `completed_run`: a future stays, and one that is completed stays as it is.
* `Owns`, `owns_run`: where a turn of a routine leaves alone what belongs to the other keys, what
  holds of a routine and of its result as long as nobody else touches it holds along every run. -/

namespace PixsBliss.Lib.Memo

open PixsBliss.Lib.Async PixsBliss.Lib.Turns

variable {σ τ α ρ ο ι : Type}

/-- What is left of a routine after one of its turns. -/
inductive Rest (τ ρ : Type)
  | suspended (t : τ)
  | returned (r : ρ)

/-- A routine: its turn up to the first `await`, and the turns after it. -/
structure Routine (σ τ α ρ ο : Type) where
  call : α → σ → σ × Rest τ ρ
  resume : τ → ο → σ → Option (σ × Rest τ ρ)

inductive Future (ρ : Type)
  | pending
  | completed (r : ρ)

/-- The state the routines share, and the futures by key. -/
structure State (σ ι ρ : Type) where
  shared : σ
  futures : ι → Option (Future ρ)

variable [DecidableEq ι]

/-- A turn of the routine of a key. -/
def settle (i : ι) (futures : ι → Option (Future ρ)) : σ × Rest τ ρ → State σ ι ρ × List (ι × τ)
  | (s, .suspended t) => (⟨s, Function.update futures i (some .pending)⟩, [(i, t)])
  | (s, .returned r) => (⟨s, Function.update futures i (some (.completed r))⟩, [])

/-- **The memoized calls of a routine.** -/
def memoized (R : Routine σ τ α ρ ο) (key : α → ι) : Program (State σ ι ρ) (ι × τ) α ο where
  call a s :=
    match s.futures (key a) with
    | some _ => (s, [])
    | none => settle (key a) s.futures (R.call a s.shared)
  resume p o s := (R.resume p.2 o s.shared).map (settle p.1 s.futures)

/-- No future yet. -/
def start (s : σ) : World (State σ ι ρ) (ι × τ) := ⟨⟨s, fun _ => none⟩, []⟩

variable {R : Routine σ τ α ρ ο} {key : α → ι} {w w' : World (State σ ι ρ) (ι × τ)}
  {e : Event α ο} {es : List (Event α ο)} {i j : ι} {futures : ι → Option (Future ρ)}

/-! ### One routine for a key -/

/-- The routines that run for a key with this future. -/
def running : Option (Future ρ) → ℕ
  | some .pending => 1
  | _ => 0

/-- The routines of a key among the tasks. -/
def routines (i : ι) (ts : List (ι × τ)) : ℕ := ts.countP fun p => p.1 = i

/-- **One routine runs for a pending future**, and none for a key without one. -/
def Sound (w : World (State σ ι ρ) (ι × τ)) : Prop :=
  ∀ i, routines i w.tasks = running (w.shared.futures i)

theorem routines_append (ts us : List (ι × τ)) :
    routines i (ts ++ us) = routines i ts + routines i us := List.countP_append

theorem routines_cons (p : ι × τ) (ts : List (ι × τ)) :
    routines i (p :: ts) = routines i ts + if p.1 = i then 1 else 0 := by
  simp only [routines, List.countP_cons, decide_eq_true_eq]

theorem not_mem_of_routines {ts : List (ι × τ)} (h : routines i ts = 0) {p : ι × τ} (hp : p ∈ ts) :
    p.1 ≠ i := fun hi =>
  List.countP_eq_zero.mp h p hp (decide_eq_true hi)

theorem running_pos {f : Option (Future ρ)} : 0 < running f ↔ f = some .pending := by
  cases f with
  | none => simp [running]
  | some f => cases f <;> simp [running]

theorem settle_shared (x : σ × Rest τ ρ) : (settle i futures x).1.shared = x.1 := by
  obtain ⟨s, r | r⟩ := x <;> rfl

theorem settle_other (hj : j ≠ i) (x : σ × Rest τ ρ) :
    (settle i futures x).1.futures j = futures j := by
  obtain ⟨s, r | r⟩ := x <;> exact Function.update_of_ne hj ..

/-- A turn leaves what its future says. -/
theorem routines_settle (x : σ × Rest τ ρ) (j : ι) : routines j (settle i futures x).2 =
    if i = j then running ((settle i futures x).1.futures i) else 0 := by
  obtain ⟨s, t | r⟩ := x
  · simp [settle, routines, running, List.countP_cons]
  · simp [settle, routines, running]

/-- What a turn of the routine of `i` does to the routines of `j`. -/
theorem running_settle (h : i = j → futures i = none) (x : σ × Rest τ ρ) :
    running ((settle i futures x).1.futures j) =
      running (futures j) + routines j (settle i futures x).2 := by
  rw [routines_settle]
  by_cases hij : i = j
  · subst hij
    rw [h rfl, if_pos rfl]
    exact (Nat.zero_add _).symm
  · rw [if_neg hij, settle_other (Ne.symm hij), Nat.add_zero]

theorem counts_memoized (R : Routine σ τ α ρ ο) (key : α → ι) (i : ι) :
    Counts (memoized R key) (fun p => p.1 = i) fun s => running (s.futures i) where
  call a s := by
    cases hf : s.futures (key a) with
    | some f => simp only [memoized, hf, List.countP_nil, Nat.add_zero]
    | none =>
      simp only [memoized, hf]
      exact running_settle (fun _ => hf) _
  resume p o s y hpos hr := by
    obtain ⟨x, -, rfl⟩ := Option.map_eq_some_iff.mp hr
    obtain ⟨j, t⟩ := p
    show _ = _ + routines i (settle j s.futures x).2
    rw [routines_settle]
    by_cases hij : j = i
    · subst hij
      have hpending := running_pos.mp (hpos (decide_eq_true rfl))
      simp only [hpending, running, decide_true, if_pos]
      exact Nat.add_comm _ _
    · rw [settle_other (Ne.symm hij), if_neg hij, if_neg (by simpa using hij)]

/-- **What a step does**: nothing, where the key has a future; else a turn of the one routine of a
key. -/
theorem step_cases (h : Sound w) (hs : (memoized R key).step w e = some w') :
    (∃ a, e = .call a ∧ w' = w) ∨
    ∃ i l r x, routines i l = 0 ∧ routines i r = 0 ∧ (∀ p ∈ l ++ r, p ∈ w.tasks) ∧
      ((∃ a, key a = i ∧ w.shared.futures i = none ∧ x = R.call a w.shared.shared) ∨
        ∃ t o, (i, t) ∈ w.tasks ∧ w.shared.futures i = some .pending ∧
          R.resume t o w.shared.shared = some x) ∧
      w' = ⟨(settle i w.shared.futures x).1, l ++ (settle i w.shared.futures x).2 ++ r⟩ := by
  rcases Program.step_cases hs with ⟨a, rfl, rfl⟩ | ⟨l, p, r, o, s, ts, rfl, ht, hr, rfl⟩
  · cases hf : w.shared.futures (key a) with
    | some f =>
      refine Or.inl ⟨a, rfl, ?_⟩
      simp only [memoized, hf, List.append_nil]
    | none =>
      have hnone : routines (key a) w.tasks = 0 := by rw [h, hf]; rfl
      refine Or.inr ⟨key a, w.tasks, [], R.call a w.shared.shared, hnone, rfl, ?_,
        Or.inl ⟨a, rfl, hf, rfl⟩, ?_⟩
      · rw [List.append_nil]
        exact fun p hp => hp
      · simp only [memoized, hf, List.append_nil]
  · obtain ⟨i, t⟩ := p
    obtain ⟨x, hx, hsettle⟩ := Option.map_eq_some_iff.mp hr
    have hcount : routines i l + routines i r + 1 = running (w.shared.futures i) := by
      rw [← h, ht, routines_append, routines_cons, if_pos rfl]
      omega
    have hpending : w.shared.futures i = some .pending := running_pos.mp (by omega)
    rw [hpending] at hcount
    have hnone : routines i l + routines i r = 0 := Nat.succ.inj hcount
    refine Or.inr ⟨i, l, r, x, by omega, by omega, fun p hp => ?_,
      Or.inr ⟨t, o, by simp [ht], hpending, hx⟩, by rw [hsettle]⟩
    rw [ht, List.mem_append, List.mem_cons]
    exact (List.mem_append.mp hp).imp_right Or.inr

/-- A call with a key has a future. -/
theorem made_call (a : α) (s : State σ ι ρ) :
    ((memoized R key).call a s).1.futures (key a) ≠ none := by
  cases hf : s.futures (key a) with
  | some f => simp [memoized, hf]
  | none =>
    simp only [memoized, hf]
    obtain ⟨s', t | r⟩ := R.call a s.shared <;> simp [settle]

theorem sound_start (s : σ) : Sound (start s : World (State σ ι ρ) (ι × τ)) := fun _ => rfl

theorem sound_step (h : Sound w) (hs : (memoized R key).step w e = some w') : Sound w' := fun i =>
  (counts_memoized R key i).step (h i) hs

theorem settle_made (h : futures i ≠ none) (x : σ × Rest τ ρ) (j : ι) :
    (settle j futures x).1.futures i ≠ none := by
  by_cases hij : i = j
  · subst hij
    obtain ⟨s, t | r⟩ := x <;> simp [settle]
  · rwa [settle_other hij]

/-- **A future stays.** -/
theorem made_run (h : Sound w) (hf : w.shared.futures i ≠ none)
    (hr : (memoized R key).run w es = some w') : w'.shared.futures i ≠ none := by
  refine (Program.run_inv (I := fun w => Sound w ∧ w.shared.futures i ≠ none)
    (fun w e w' h hs => ⟨sound_step h.1 hs, ?_⟩) ⟨h, hf⟩ hr).2
  rcases step_cases h.1 hs with ⟨a, -, rfl⟩ | ⟨j, l, r, x, -, -, -, -, rfl⟩
  · exact h.2
  · exact settle_made h.2 x j

/-- **A completed future stays.** -/
theorem completed_run {r : ρ} (h : Sound w) (hf : w.shared.futures i = some (.completed r))
    (hr : (memoized R key).run w es = some w') : w'.shared.futures i = some (.completed r) := by
  refine (Program.run_inv (I := fun w => Sound w ∧ w.shared.futures i = some (.completed r))
    (fun w e w' h hs => ⟨sound_step h.1 hs, ?_⟩) ⟨h, hf⟩ hr).2
  obtain ⟨hsound, hf⟩ := h
  rcases step_cases hsound hs with ⟨a, -, rfl⟩ | ⟨j, l, r', x, -, -, -, hturn, rfl⟩
  · exact hf
  · have hne : i ≠ j := by
      rintro rfl
      rcases hturn with ⟨a, -, hnone, -⟩ | ⟨t, o, -, hpending, -⟩
      · rw [hf] at hnone
        cases hnone
      · rw [hf] at hpending
        cases hpending
    exact (settle_other hne x).trans hf

/-! ### What belongs to a key -/

/-- What holds of the routine of a key, or of its result. -/
def Left (N : ι → τ → σ → Prop) (Q : ι → ρ → σ → Prop) (i : ι) : σ × Rest τ ρ → Prop
  | (s, .suspended t) => N i t s
  | (s, .returned r) => Q i r s

/-- What holds of the routine and the result of a key still holds. -/
def Frame (N : ι → τ → σ → Prop) (Q : ι → ρ → σ → Prop) (i : ι) (s s' : σ) : Prop :=
  (∀ t, N i t s → N i t s') ∧ ∀ r, Q i r s → Q i r s'

/-- A turn of the routine of a key has `N` or `Q`, and leaves the other keys theirs. -/
def Takes (N : ι → τ → σ → Prop) (Q : ι → ρ → σ → Prop) (i : ι) (s : σ) (x : σ × Rest τ ρ) : Prop :=
  Left N Q i x ∧ ∀ j, j ≠ i → Frame N Q j s x.1

/-- Every turn of the routine does. -/
structure Owns (R : Routine σ τ α ρ ο) (key : α → ι) (N : ι → τ → σ → Prop)
    (Q : ι → ρ → σ → Prop) : Prop where
  call : ∀ a s, Takes N Q (key a) s (R.call a s)
  resume : ∀ i t o s x, N i t s → R.resume t o s = some x → Takes N Q i s x

/-- The routines have `N`, the results `Q`. -/
structure Held (N : ι → τ → σ → Prop) (Q : ι → ρ → σ → Prop)
    (w : World (State σ ι ρ) (ι × τ)) : Prop where
  task : ∀ p ∈ w.tasks, N p.1 p.2 w.shared.shared
  result : ∀ i r, w.shared.futures i = some (.completed r) → Q i r w.shared.shared

variable {N : ι → τ → σ → Prop} {Q : ι → ρ → σ → Prop}

theorem task_settle {x : σ × Rest τ ρ} (h : Left N Q i x) :
    ∀ p ∈ (settle i futures x).2, N p.1 p.2 x.1 := by
  obtain ⟨s, t | r⟩ := x
  · exact List.forall_mem_singleton.mpr h
  · exact List.forall_mem_nil _

theorem result_settle {x : σ × Rest τ ρ} (h : Left N Q i x) {r : ρ}
    (hr : (settle i futures x).1.futures i = some (.completed r)) : Q i r x.1 := by
  obtain ⟨s, t | r'⟩ := x
  · simp only [settle, Function.update_self] at hr
    cases hr
  · simp only [settle, Function.update_self] at hr
    obtain rfl := Future.completed.inj (Option.some.inj hr)
    exact h

theorem held_step (h : Owns R key N Q) (hsound : Sound w) (hw : Held N Q w)
    (hs : (memoized R key).step w e = some w') : Held N Q w' := by
  rcases step_cases hsound hs with ⟨a, -, rfl⟩ | ⟨i, l, r, x, hl, hr, hmem, hturn, rfl⟩
  · exact hw
  · obtain ⟨hleft, hframe⟩ : Takes N Q i w.shared.shared x := by
      rcases hturn with ⟨a, rfl, -, rfl⟩ | ⟨t, o, ht, -, hx⟩
      · exact h.call a _
      · exact h.resume i t o _ x (hw.task _ ht) hx
    have hold : ∀ p ∈ l ++ r, N p.1 p.2 x.1 := by
      intro p hp
      have hne : p.1 ≠ i := by
        rcases List.mem_append.mp hp with hp | hp
        · exact not_mem_of_routines hl hp
        · exact not_mem_of_routines hr hp
      exact (hframe p.1 hne).1 _ (hw.task p (hmem p hp))
    obtain ⟨hlold, hrold⟩ := List.forall_mem_append.mp hold
    refine ⟨?_, fun j q hj => ?_⟩
    · rw [settle_shared]
      exact List.forall_mem_append.mpr
        ⟨List.forall_mem_append.mpr ⟨hlold, task_settle hleft⟩, hrold⟩
    · rw [settle_shared]
      by_cases hji : j = i
      · subst hji
        exact result_settle hleft hj
      · rw [settle_other hji] at hj
        exact (hframe j hji).2 q (hw.result j q hj)

/-- **What belongs to a key holds along every run.** -/
theorem owns_run (h : Owns R key N Q) {s : σ}
    (hr : (memoized R key).run (start s) es = some w) : Sound w ∧ Held N Q w := by
  refine Program.run_inv (I := fun w => Sound w ∧ Held N Q w)
    (fun _ _ _ hw hs => ⟨sound_step hw.1 hs, held_step h hw.1 hw.2 hs⟩) ⟨sound_start s, ?_⟩ hr
  exact ⟨List.forall_mem_nil _, fun i r hi => by cases hi⟩

end PixsBliss.Lib.Memo
