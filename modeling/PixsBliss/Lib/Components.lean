import Mathlib.Logic.Function.Basic
import PixsBliss.Lib.Turns

/-! # Programs that share a resource

Several programs run on one thread, each with a state of its own, and all of them with one resource.
What one of them finds in the resource another one may have put there.

* `Joint`: a program's state is its own part and the resource.
* `together`: the programs side by side.
* `eachTurn_together`: if each program keeps an invariant of its own part and one of the resource,
  they keep them together, whichever of them has the next turn. -/

namespace PixsBliss.Lib.Components

open PixsBliss.Lib.Async PixsBliss.Lib.Turns

/-- A state that is made of an own part and a resource. -/
structure Joint (α β σ : Type) where
  join : α → β → σ
  own : σ → α
  resource : σ → β
  own_join : ∀ a b, own (join a b) = a
  resource_join : ∀ a b, resource (join a b) = b

variable {ι : Type} {α σ τ κ ο : ι → Type} {β : Type}

structure Shared (α : ι → Type) (β : Type) where
  own : ∀ i, α i
  resource : β

section Together

variable [DecidableEq ι] (J : ∀ i, Joint (α i) β (σ i))

/-- The state of one of the programs. -/
def stateOf (i : ι) (s : Shared α β) : σ i := (J i).join (s.own i) s.resource

def afterTurn (i : ι) (x : σ i × List (τ i)) (s : Shared α β) :
    Shared α β × List ((i : ι) × τ i) :=
  (⟨Function.update s.own i ((J i).own x.1), (J i).resource x.1⟩, x.2.map (Sigma.mk i))

/-- **The programs side by side**: every call and every outcome is one of them. -/
def together (P : ∀ i, Program (σ i) (τ i) (κ i) (ο i)) :
    Program (Shared α β) ((i : ι) × τ i) ((i : ι) × κ i) ((i : ι) × ο i) where
  call k s := afterTurn J k.1 ((P k.1).call k.2 (stateOf J k.1 s)) s
  resume t o s :=
    if h : o.1 = t.1 then
      ((P t.1).resume t.2 (h ▸ o.2) (stateOf J t.1 s)).map fun x => afterTurn J t.1 x s
    else none

/-- The outcome meets the condition of the program that it is for. -/
def OfEach (C : ∀ i, τ i → ο i → σ i → Prop) (t : (i : ι) × τ i) (o : (i : ι) × ο i)
    (s : Shared α β) : Prop :=
  ∀ h : o.1 = t.1, C t.1 t.2 (h ▸ o.2) (stateOf J t.1 s)

def Kept (A : ∀ i, α i → Prop) (B : β → Prop) (s : Shared α β) : Prop :=
  (∀ i, A i (s.own i)) ∧ B s.resource

variable {J} {P : ∀ i, Program (σ i) (τ i) (κ i) (ο i)} {C : ∀ i, τ i → ο i → σ i → Prop}
  {A : ∀ i, α i → Prop} {B : β → Prop} {N : ∀ i, τ i → Prop}

theorem turn_afterTurn {i : ι} {x : σ i × List (τ i)} {s : Shared α β} (h : Kept A B s)
    (hx : Turn (fun s => A i ((J i).own s) ∧ B ((J i).resource s)) (N i) x) :
    Turn (Kept A B) (fun t => N t.1 t.2) (afterTurn J i x s) := by
  obtain ⟨⟨hA, hB⟩, hts⟩ := hx
  refine ⟨⟨fun j => ?_, hB⟩, fun t ht => ?_⟩
  · by_cases hj : j = i
    · subst hj
      simpa [afterTurn] using hA
    · simpa [afterTurn, hj] using h.1 j
  · obtain ⟨t', ht', rfl⟩ := List.mem_map.mp ht
    exact hts t' ht'

/-- **The rule for a shared resource.** -/
theorem eachTurn_together
    (h : ∀ i, EachTurn (P i) (C i) (fun s => A i ((J i).own s) ∧ B ((J i).resource s)) (N i)) :
    EachTurn (together J P) (OfEach J C) (Kept A B) fun t => N t.1 t.2 := by
  have hstate : ∀ i s, Kept A B s →
      A i ((J i).own (stateOf J i s)) ∧ B ((J i).resource (stateOf J i s)) := by
    intro i s hs
    rw [stateOf, (J i).own_join, (J i).resource_join]
    exact ⟨hs.1 i, hs.2⟩
  refine ⟨fun k s hs => ?_, fun t o s x hs ht hC hr => ?_⟩
  · exact turn_afterTurn hs ((h k.1).call k.2 _ (hstate k.1 s hs))
  · simp only [together] at hr
    split_ifs at hr with hi
    obtain ⟨y, hy, rfl⟩ := Option.map_eq_some_iff.mp hr
    exact turn_afterTurn hs ((h t.1).resume t.2 _ _ y (hstate t.1 s hs) ht (hC hi) hy)

end Together

end PixsBliss.Lib.Components
