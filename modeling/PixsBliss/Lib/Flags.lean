import PixsBliss.Lib.Async

/-! # One flag for several calls

The calls of a kind share a flag: a call raises it when it begins and lowers it when it ends,
whoever else is running by then. A task belongs to a call of some kind, or to none.

* `down_run`: a flag is down while no call of its kind runs.
* `up_iff`: it is up while one runs exactly along the runs in which a call of the kind only ends
  when it is alone. -/

namespace PixsBliss.Lib.Flags

open PixsBliss.Lib.Async

variable {σ τ κ ο ι : Type}

/-- The kind of call a task belongs to, the flags, and which call a call or a turn ends. -/
structure Flagged (σ τ κ ο ι : Type) where
  kind : τ → Option ι
  flag : ι → σ → Bool
  callEnds : κ → σ → Option ι
  turnEnds : τ → ο → Option ι

namespace Flagged

variable (F : Flagged σ τ κ ο ι)

def running (ts : List τ) : List ι := ts.filterMap F.kind

/-- What a turn does to the flags, with the calls it belongs to before and after it, and the one it
ends. -/
inductive Turn (s s' : σ) : List ι → List ι → Option ι → Prop
  | quiet {ks : List ι} (hflag : ∀ k, F.flag k s' = F.flag k s) : Turn s s' ks ks none
  | begins {k : ι} (hup : F.flag k s' = true) (hflag : ∀ j ≠ k, F.flag j s' = F.flag j s) :
    Turn s s' [] [k] none
  | ends {k : ι} {ks : List ι} (hks : ks = [] ∨ ks = [k]) (hdown : F.flag k s' = false)
    (hflag : ∀ j ≠ k, F.flag j s' = F.flag j s) : Turn s s' ks [] (some k)

/-- The turns of the program raise and lower the flags. -/
structure Respects (P : Program σ τ κ ο) : Prop where
  call : ∀ c s, F.Turn s (P.call c s).1 [] (F.running (P.call c s).2) (F.callEnds c s)
  resume : ∀ t o s s' ts, P.resume t o s = some (s', ts) →
    F.Turn s s' (F.kind t).toList (F.running ts) (F.turnEnds t o)

def Down (w : World σ τ) : Prop := ∀ k, k ∉ F.running w.tasks → F.flag k w.shared = false

def Up (k : ι) (w : World σ τ) : Prop := k ∈ F.running w.tasks → F.flag k w.shared = true

/-- **A call of the kind ends alone**: no other one is running. -/
def EndsAlone (k : ι) (w : World σ τ) (e : Event κ ο) (_ : World σ τ) : Prop :=
  (∀ c, e = .call c → F.callEnds c w.shared = some k → k ∉ F.running w.tasks) ∧
    ∀ i o t, e = .resume i o → w.tasks[i]? = some t → F.turnEnds t o = some k →
      k ∉ F.running (w.tasks.eraseIdx i)

variable {F} {P : Program σ τ κ ο} {w w' : World σ τ} {e : Event κ ο}

theorem running_append (ts ts' : List τ) :
    F.running (ts ++ ts') = F.running ts ++ F.running ts' := List.filterMap_append

theorem running_cons (t : τ) (ts : List τ) :
    F.running (t :: ts) = (F.kind t).toList ++ F.running ts := by
  unfold running
  rw [List.filterMap_cons]
  cases F.kind t with
  | none => rfl
  | some k => rfl

/-! ### One step -/

/-- **What a step can do**: a turn, between the calls that go on waiting. -/
theorem turn_step (h : F.Respects P) (hs : P.step w e = some w') :
    ∃ l before after r ended, F.running w.tasks = l ++ before ++ r ∧
      F.running w'.tasks = l ++ after ++ r ∧ F.Turn w.shared w'.shared before after ended ∧
      ∀ k, F.EndsAlone k w e w' ↔ (ended = some k → k ∉ l ++ r) := by
  rcases Program.step_cases hs with ⟨c, rfl, rfl⟩ | ⟨l, t, r, o, s, ts, rfl, ht, hr, rfl⟩
  · refine ⟨F.running w.tasks, [], _, [], _, by simp, ?_, h.call c w.shared, fun k => ?_⟩
    · rw [List.append_nil]
      exact running_append ..
    · rw [List.append_nil]
      constructor
      · exact fun hk => hk.1 c rfl
      · refine fun hk => ⟨fun c' hc => ?_, fun _ _ _ he => by cases he⟩
        obtain rfl := Event.call.inj hc
        exact hk
  · refine ⟨F.running l, _, _, F.running r, _, ?_, ?_, h.resume t o _ _ _ hr, fun k => ?_⟩
    · rw [ht, running_append, running_cons, List.append_assoc]
    · rw [running_append, running_append]
    · have herase : w.tasks.eraseIdx l.length = l ++ r := by
        rw [ht, List.eraseIdx_append_of_length_le le_rfl]
        simp
      constructor
      · intro hk hend
        have hmem := hk.2 l.length o t rfl (Program.getElem?_of_eq ht) hend
        rwa [herase, running_append] at hmem
      · refine fun hk => ⟨fun _ he => (by cases he), fun i o' t' he hi hend => ?_⟩
        obtain ⟨rfl, rfl⟩ := Event.resume.inj he
        obtain rfl : t = t' := Option.some.inj ((Program.getElem?_of_eq ht).symm.trans hi)
        rw [herase, running_append]
        exact hk hend

theorem down_step (h : F.Respects P) (hw : F.Down w) (hs : P.step w e = some w') : F.Down w' := by
  obtain ⟨l, before, after, r, ended, hbefore, hafter, hturn, -⟩ := turn_step h hs
  intro k hk
  rw [hafter] at hk
  have hold : k ∉ l ++ before ++ r → F.flag k w.shared = false := fun hn =>
    hw k (by rwa [hbefore])
  cases hturn with
  | quiet hflag => rw [hflag, hold hk]
  | begins hup hflag =>
    simp only [List.append_assoc, List.mem_append, List.mem_singleton, not_or] at hk hold
    rw [hflag k hk.2.1]
    exact hold ⟨hk.1, List.not_mem_nil, hk.2.2⟩
  | @ends j _ hks hdown hflag =>
    by_cases hj : k = j
    · rw [hj, hdown]
    · have hnot : k ∉ before := by
        rcases hks with rfl | rfl
        · exact List.not_mem_nil
        · simpa using hj
      simp only [List.append_assoc, List.mem_append, not_or] at hk hold
      rw [hflag k hj]
      exact hold ⟨hk.1, hnot, hk.2.2⟩

/-- **One step keeps a flag up** exactly if the call that ends with it is alone. -/
theorem up_step (h : F.Respects P) {k : ι} (hw : F.Up k w) (hs : P.step w e = some w') :
    F.Up k w' ↔ F.EndsAlone k w e w' := by
  obtain ⟨l, before, after, r, ended, hbefore, hafter, hturn, halone⟩ := turn_step h hs
  unfold Up at hw
  rw [hbefore] at hw
  rw [halone k]
  unfold Up
  rw [hafter]
  cases hturn with
  | quiet hflag =>
    refine iff_of_true (fun hk => ?_) (by simp)
    rw [hflag, hw hk]
  | @begins j hup hflag =>
    refine iff_of_true (fun hk => ?_) (by simp)
    by_cases hj : k = j
    · rw [hj, hup]
    · rw [hflag k hj]
      simp only [List.append_assoc, List.mem_append, List.mem_singleton, hj, false_or] at hk hw
      exact hw (hk.imp_right Or.inr)
  | @ends j _ hks hdown hflag =>
    rw [List.append_nil]
    by_cases hj : k = j
    · subst hj
      rw [hdown]
      simp
    · refine iff_of_true (fun hk => ?_) fun heq => absurd (Option.some.inj heq).symm hj
      rw [hflag k hj]
      simp only [List.append_assoc, List.mem_append] at hk hw
      exact hw (hk.imp_right Or.inr)

/-! ### Runs -/

/-- **A flag is down while no call of its kind runs.** -/
theorem down_run (h : F.Respects P) (hw : F.Down w) {es : List (Event κ ο)}
    (hr : P.run w es = some w') : F.Down w' :=
  Program.run_inv (fun _ _ _ hv hs => down_step h hv hs) hw hr

/-- **A flag is up while a call of its kind runs**, exactly if each of them ends alone. -/
theorem up_iff (h : F.Respects P) {k : ι} (hw : F.Up k w) (es : List (Event κ ο)) :
    P.Each (fun _ _ w' => F.Up k w') w es ↔ P.Each (F.EndsAlone k) w es :=
  Program.each_iff_each (fun _ _ _ hv hs => ⟨up_step h hv hs, id⟩) hw

end Flagged
end PixsBliss.Lib.Flags
