import PixsBliss.Lib.Parts

/-! # Families of programs

A screen keeps programs of one kind, one for each key. Each is made when it is first needed and is
kept from then on.

* `Family`: where the members are in the state of the screen, and which of its tasks are theirs.
* `Family.call`, `Family.resume`, `Family.watch`: what a turn of the screen does to one member; the
  other members are left alone (`made_after_other`, `elsewhere_after`).
* `Family.contains`: a program whose turns are made of these contains each member. -/

namespace PixsBliss.Lib.Families

open PixsBliss.Lib.Async PixsBliss.Lib.Parts

variable {ι σ τ κ ο σ' τ' κ' : Type} [DecidableEq ι]

/-- The members that were made, and the state of a member before it is made; how a member is
replaced; the tasks of the members. -/
structure Family (ι σ τ σ' τ' : Type) [DecidableEq ι] where
  made : σ → ι → Option σ'
  new : σ'
  put : ι → σ' → σ → σ
  task : ι → τ' → τ
  own : τ → Option (ι × τ')
  made_put : ∀ i x s, made (put i x s) = Function.update (made s) i (some x)
  own_iff : ∀ t i t', own t = some (i, t') ↔ t = task i t'

namespace Family

section Turns

variable (F : Family ι σ τ σ' τ') (P : ι → Program σ' τ' κ' ο) (i : ι)

/-- The state of a member. -/
def state (s : σ) : σ' := (F.made s i).getD F.new

/-- The state and the tasks after a turn of a member. -/
def after (s : σ) (x : σ' × List τ') : σ × List τ := (F.put i x.1 s, x.2.map (F.task i))

def call (k : κ') (s : σ) : σ × List τ := F.after i s ((P i).call k (F.state i s))

def resume (t : τ') (o : ο) (s : σ) : Option (σ × List τ) :=
  ((P i).resume t o (F.state i s)).map (F.after i s)

/-- A member that is not there is made, and called for the first time. -/
def watch (first : κ') (s : σ) : σ × List τ :=
  if (F.made s i).isSome then (s, []) else F.call P i first s

/-- A member as a part of the screen. -/
def part : Part σ τ σ' τ' where
  state := F.state i
  task t := (F.own t).bind fun x => if x.1 = i then some x.2 else none

/-- The task is not one of the member. -/
def Elsewhere (t : τ) : Prop := ∀ t', t ≠ F.task i t'

/-- A turn of the screen is a number of calls of the member. -/
def Calls (s : σ) (x : σ × List τ) : Prop :=
  ∃ ks : List κ', (P i).run ⟨F.state i s, []⟩ (ks.map .call) =
    some ⟨F.state i x.1, (F.part i).tasks x.2⟩

end Turns

variable {F : Family ι σ τ σ' τ'} {P : ι → Program σ' τ' κ' ο} {i j : ι} {s s' : σ} {ts : List τ}

/-! ### One member -/

theorem made_put_self (x : σ') : F.made (F.put i x s) i = some x := by
  rw [F.made_put, Function.update_self]

theorem made_put_other (h : i ≠ j) (x : σ') : F.made (F.put j x s) i = F.made s i := by
  rw [F.made_put, Function.update_of_ne h]

theorem isSome_put (x : σ') (h : (F.made s i).isSome = true) :
    (F.made (F.put j x s) i).isSome = true := by
  by_cases hij : i = j
  · rw [hij, made_put_self]
    rfl
  · rwa [made_put_other hij]

theorem state_of_made {x : σ'} (h : F.made s i = some x) : F.state i s = x := by
  rw [state, h]
  rfl

theorem made_of_isSome (h : (F.made s i).isSome = true) : F.made s i = some (F.state i s) := by
  obtain ⟨x, hx⟩ := Option.isSome_iff_exists.mp h
  rw [hx, state_of_made hx]

theorem state_put_self (x : σ') : F.state i (F.put i x s) = x := state_of_made (made_put_self x)

theorem state_put_other (h : i ≠ j) (x : σ') : F.state i (F.put j x s) = F.state i s := by
  rw [state, made_put_other h, state]

/-- A watched member is there. -/
theorem isSome_watch (first : κ') : (F.made (F.watch P i first s).1 i).isSome = true := by
  unfold watch
  split_ifs with h
  · exact h
  · exact (congrArg Option.isSome (made_put_self _)).trans rfl

/-! ### Its tasks -/

theorem task_part_iff {t : τ} {t' : τ'} : (F.part i).task t = some t' ↔ t = F.task i t' := by
  rw [← F.own_iff]
  cases h : F.own t with
  | none => simp [part, h]
  | some x =>
    obtain ⟨j, t''⟩ := x
    simp only [part, h, Option.bind_some, Option.ite_none_right_eq_some, Option.some.injEq,
      Prod.mk.injEq]

theorem mem_tasks_part {t' : τ'} : t' ∈ (F.part i).tasks ts ↔ F.task i t' ∈ ts := by
  simp only [Part.mem_tasks, task_part_iff, exists_eq_right]

theorem tasks_self (us : List τ') : (F.part i).tasks (us.map (F.task i)) = us :=
  (F.part i).tasks_map_own (fun _ => task_part_iff.mpr rfl) us

/-- The tasks of different members are different. -/
theorem task_ne (h : i ≠ j) (t u : τ') : F.task j u ≠ F.task i t := by
  intro he
  have hi := (F.own_iff (F.task j u) i t).mpr he
  rw [(F.own_iff (F.task j u) j u).mpr rfl] at hi
  exact h (Prod.mk.inj (Option.some.inj hi)).1.symm

theorem task_part_of_ne (h : i ≠ j) (u : τ') : (F.part i).task (F.task j u) = none :=
  Option.eq_none_iff_forall_ne_some.mpr fun t ht => task_ne h t u (task_part_iff.mp ht)

theorem tasks_other (h : i ≠ j) (us : List τ') : (F.part i).tasks (us.map (F.task j)) = [] :=
  (F.part i).tasks_map_other (fun u => task_part_of_ne h u) us

theorem elsewhere_map (h : i ≠ j) (us : List τ') : ∀ t ∈ us.map (F.task j), F.Elsewhere i t := by
  intro t ht t' he
  obtain ⟨u, -, rfl⟩ := List.mem_map.mp ht
  exact task_ne h t' u he

/-! ### A turn of one member leaves the others alone -/

theorem made_after_other (h : i ≠ j) (x : σ' × List τ') :
    F.made (F.after j s x).1 i = F.made s i := made_put_other h x.1

theorem elsewhere_after (h : i ≠ j) (x : σ' × List τ') :
    ∀ t ∈ (F.after j s x).2, F.Elsewhere i t := elsewhere_map h x.2

/-- A member that is there is left alone by what watches a member. -/
theorem watch_elsewhere (first : κ') (h : (F.made s i).isSome = true) :
    F.made (F.watch P j first s).1 i = F.made s i ∧
      ∀ t ∈ (F.watch P j first s).2, F.Elsewhere i t := by
  unfold watch
  split_ifs with hmade
  · exact ⟨rfl, List.forall_mem_nil _⟩
  · have hij : i ≠ j := by
      rintro rfl
      exact hmade h
    exact ⟨made_after_other hij _, elsewhere_after hij _⟩

/-! ### Programs that contain the members -/

theorem calls_none (hs : F.state i s' = F.state i s) (hts : (F.part i).tasks ts = []) :
    F.Calls P i s (s', ts) :=
  ⟨[], by rw [hs, hts]; rfl⟩

theorem calls_call (k : κ') : F.Calls P i s (F.call P j k s) := by
  by_cases h : i = j
  · subst h
    refine ⟨[k], ?_⟩
    rw [call, after, state_put_self, tasks_self]
    rfl
  · exact calls_none (state_put_other h _) (tasks_other h _)

theorem calls_watch (first : κ') : F.Calls P i s (F.watch P j first s) := by
  unfold watch
  split_ifs
  · exact calls_none rfl rfl
  · exact calls_call first

/-- **The members are parts** of a program that only calls them, and that resumes their tasks as
their own programs do. -/
theorem contains {Q : Program σ τ κ ο} (C' : τ' → ο → σ' → Prop) {C : τ → ο → σ → Prop}
    (hcall : ∀ k s, F.Calls P i s (Q.call k s))
    (hown : ∀ j t o s, Q.resume (F.task j t) o s = F.resume P j t o s)
    (hother : ∀ t o s s' ts, F.own t = none → Q.resume t o s = some (s', ts) →
      F.state i s' = F.state i s ∧ (F.part i).tasks ts = [])
    (hC : ∀ t o s, C (F.task i t) o s → C' t o (F.state i s)) :
    Contains (F.part i) Q (P i) C C' where
  call k s := hcall k s
  other t o s s' ts ht hr := by
    cases ho : F.own t with
    | none => exact hother t o s s' ts ho hr
    | some x =>
      obtain ⟨j, t'⟩ := x
      obtain rfl := (F.own_iff t j t').mp ho
      have hij : i ≠ j := by
        rintro rfl
        rw [task_part_iff.mpr rfl] at ht
        cases ht
      rw [hown, resume] at hr
      obtain ⟨x, -, hx⟩ := Option.map_eq_some_iff.mp hr
      obtain ⟨rfl, rfl⟩ := Prod.mk.inj hx
      exact ⟨state_put_other hij x.1, tasks_other hij x.2⟩
  own t t' o s s' ts ht hCt hr := by
    obtain rfl := task_part_iff.mp ht
    rw [hown, resume] at hr
    obtain ⟨x, hx, hx'⟩ := Option.map_eq_some_iff.mp hr
    obtain ⟨rfl, rfl⟩ := Prod.mk.inj hx'
    refine ⟨o, hC t' o s hCt, hx.trans ?_⟩
    rw [tasks_self]
    exact congrArg (fun y => some (y, x.2)) (state_put_self x.1).symm

end Family

end PixsBliss.Lib.Families
