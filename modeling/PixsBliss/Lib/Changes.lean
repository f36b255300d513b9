import Mathlib.Data.Set.Insert

/-! # Sets under a list of changes

A set is changed by adding an element, removing one, or emptying it. Of the changes that affect an
element the last one decides (`mem_applyAll`). -/

namespace PixsBliss.Lib.Changes

variable {α : Type}

/-- A change of a set. -/
inductive Change (α : Type)
  | insert (a : α)
  | erase (a : α)
  | clear
  | keep

def Change.apply : Change α → Set α → Set α
  | insert a, s => Insert.insert a s
  | erase a, s => s \ {a}
  | clear, _ => ∅
  | keep, s => s

def applyAll (cs : List (Change α)) (s : Set α) : Set α := cs.foldl (fun s c => c.apply s) s

variable [DecidableEq α]

/-- Whether a change puts an element in or out. -/
def Change.affects (x : α) : Change α → Option Bool
  | insert a => if a = x then some true else none
  | erase a => if a = x then some false else none
  | clear => some false
  | keep => none

/-- What the last change that affects an element does to it. -/
def lastChange (x : α) : List (Change α) → Option Bool
  | [] => none
  | c :: cs => (lastChange x cs).or (c.affects x)

theorem mem_apply {x : α} {s : Set α} (c : Change α) :
    x ∈ c.apply s ↔ c.affects x = some true ∨ (c.affects x = none ∧ x ∈ s) := by
  cases c with
  | insert a =>
    simp only [Change.apply, Change.affects, Set.mem_insert_iff, eq_comm (a := x)]
    split_ifs with h <;> simp [h]
  | erase a =>
    simp only [Change.apply, Change.affects, Set.mem_sdiff, Set.mem_singleton_iff, eq_comm (a := x)]
    split_ifs with h <;> simp [h]
  | clear => simp [Change.apply, Change.affects]
  | keep => simp [Change.apply, Change.affects]

/-- **The last change that affects an element decides.** -/
theorem mem_applyAll {x : α} : ∀ (cs : List (Change α)) (s : Set α), x ∈ applyAll cs s ↔
    lastChange x cs = some true ∨ (lastChange x cs = none ∧ x ∈ s)
  | [], s => by simp [applyAll, lastChange]
  | c :: cs, s => by
    have hcons : applyAll (c :: cs) s = applyAll cs (c.apply s) := rfl
    rw [hcons, mem_applyAll cs, mem_apply, lastChange]
    cases lastChange x cs with
    | none => simp
    | some b => simp

end PixsBliss.Lib.Changes
