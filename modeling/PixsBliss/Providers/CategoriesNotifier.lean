import PixsBliss.Lib.Flight

/-! # The categories of the API

`CategoriesNotifier` loads the categories in one request, which its flag guards.

* `tasks_eq`: the flag says whether the request is in flight, and there is never a second one. -/

namespace PixsBliss.Providers.CategoriesNotifier

open PixsBliss.Lib.Async PixsBliss.Lib.Flight

/-! ### The program -/

/-- A category as the API has it. -/
structure Category where
  id : String
  name : String
  description : String
  icon : Option String
  wallpaperCount : ℤ
deriving DecidableEq

/-- The state that is shown. A `copyWith` keeps the fields it is not given; `error: null` gives
nothing. -/
structure CategoriesState where
  categories : List Category := []
  isLoading : Bool := false
  error : Option String := none
deriving DecidableEq

/-- The request of the repository in flight. -/
inductive Fetch
  | getCategories
deriving DecidableEq

inductive Call
  | loadCategories
deriving DecidableEq

inductive Answer
  | categories (categories : List Category)
  | exception (text : String)
deriving DecidableEq

/-- `loadCategories`, up to the request. -/
def loadCategories (s : CategoriesState) : CategoriesState × List Fetch :=
  if s.isLoading then (s, [])
  else ({ s with isLoading := true }, [.getCategories])

/-- A load after a successful answer. -/
def applyCategories (categories : List Category) (s : CategoriesState) : CategoriesState :=
  { s with categories := categories, isLoading := false }

/-- The catch of a load. -/
def applyError (text : String) (s : CategoriesState) : CategoriesState :=
  { s with isLoading := false, error := some text }

/-- **The notifier.** -/
def program : Program CategoriesState Fetch Call Answer where
  call
    | .loadCategories, s => loadCategories s
  resume
    | .getCategories, .categories categories, s => some (applyCategories categories s, [])
    | .getCategories, .exception text, s => some (applyError text s, [])

/-- A new notifier. -/
def fresh : World CategoriesState Fetch := ⟨{}, []⟩

/-! ### One load at a time -/

def guard : Guard CategoriesState Fetch where
  isRequest _ := true
  busy s := s.isLoading
  Idle _ := True
  Fits _ _ := True

theorem turn_loadCategories (s : CategoriesState) :
    guard.Turn s (loadCategories s).1 (loadCategories s).2 := by
  unfold loadCategories
  by_cases hload : s.isLoading = true
  · rw [if_pos hload]
    exact Or.inl ⟨rfl, rfl, id, fun _ => id⟩
  · rw [if_neg hload]
    exact Or.inr ⟨Bool.eq_false_iff.mpr hload, rfl, fun _ => ⟨_, rfl, trivial⟩⟩

theorem ends_answer {f : Fetch} {a : Answer} {s s' : CategoriesState} {ts : List Fetch}
    (hr : program.resume f a s = some (s', ts)) : guard.Ends s' ts := by
  cases a with
  | categories categories =>
    obtain ⟨rfl, rfl⟩ := Prod.mk.inj (Option.some.inj hr)
    exact ⟨rfl, rfl, trivial⟩
  | exception text =>
    obtain ⟨rfl, rfl⟩ := Prod.mk.inj (Option.some.inj hr)
    exact ⟨rfl, rfl, trivial⟩

/-- **The flag says whether the request is in flight**, and there is never a second one. -/
theorem tasks_eq {es : List (Event Call Answer)} {w : World CategoriesState Fetch}
    (hr : program.run fresh es = some w) :
    w.tasks = if w.shared.isLoading then [.getCategories] else [] := by
  have hsingle : guard.Single w := by
    refine Program.run_inv (fun v e v' hv hs => ?_) (Or.inl ⟨rfl, rfl, trivial⟩) hr
    refine Guard.single_step (C := fun _ _ _ => True) (fun k s => ?_)
      (fun _ _ _ _ _ h => Bool.noConfusion h) (fun _ _ _ _ _ _ hres _ _ => ends_answer hres) hv
      (fun _ _ _ _ _ => trivial) hs
    cases k
    exact turn_loadCategories s
  have hall : guard.requests w.tasks = w.tasks := List.filter_true w.tasks
  rcases hsingle with ⟨hnil, hbusy, -⟩ | ⟨t, hone, hbusy, -⟩
  · have hbusy : w.shared.isLoading = false := hbusy
    rw [← hall, hnil, hbusy]
    rfl
  · have hbusy : w.shared.isLoading = true := hbusy
    cases t
    rw [← hall, hone, hbusy]
    rfl

end PixsBliss.Providers.CategoriesNotifier
