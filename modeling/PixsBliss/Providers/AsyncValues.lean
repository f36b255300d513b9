import PixsBliss.Providers.FirestoreNotifier

/-! # What the Firestore notifiers show

The list functions of the service catch everything, so a call of a notifier always ends in `data`.

* `Answers`: a turn shows a list, or it leaves a task and shows no error.
* `viewOf`: what the pages make of a list.
* `answers_wallpapersCall`, `answers_wallpapersTask`, `answers_loadCategories`,
  `answers_categoriesTask`: the turns of both notifiers do. -/

namespace PixsBliss.Providers.AsyncValues

open PixsBliss.Lib.Async PixsBliss.Models PixsBliss.Models.Json
open PixsBliss.Services.Cache PixsBliss.Services.FirestoreService
open PixsBliss.Providers.FirestoreNotifier

section Turns

variable {α κ τ : Type} {a : AsyncValue (List α)} {ts : List τ}

/-- No error is shown. -/
def NoError (a : AsyncValue (List α)) : Prop := ∀ e, a ≠ .error e

/-- A turn shows a list, or it leaves a task and no error. -/
def Answers (a : AsyncValue (List α)) (ts : List τ) : Prop :=
  (∃ l, a = .data l) ∨ NoError a ∧ ts ≠ []

theorem noError_loading : NoError (.loading : AsyncValue (List α)) := fun e he => by cases he

theorem noError_data (l : List α) : NoError (.data l) := fun e he => by cases he

theorem answers_data (l : List α) : Answers (.data l) ts := Or.inl ⟨l, rfl⟩

theorem answers_loading {t : τ} : Answers (.loading : AsyncValue (List α)) [t] :=
  Or.inr ⟨noError_loading, List.cons_ne_nil _ _⟩

theorem Answers.noError (h : Answers a ts) : NoError a := by
  rcases h with ⟨l, rfl⟩ | ⟨h, -⟩
  · exact noError_data l
  · exact h

/-- A list that loads after a turn has a task. -/
theorem Answers.task (h : Answers a ts) (hload : a = .loading) : ∃ t, t ∈ ts := by
  rcases h with ⟨l, rfl⟩ | ⟨-, h⟩
  · cases hload
  · exact List.exists_mem_of_ne_nil ts h

/-- The last turn of a write shows the list. -/
theorem answers_writeCache {s : State α} (h : NoError s.state) (l : List α) (rest : List BoxOp) :
    Answers (writeCache (κ := κ) l s rest).1.state (writeCache (κ := κ) l s rest).2 := by
  cases rest with
  | nil => exact answers_data l
  | cons op rest => exact Or.inr ⟨h, List.cons_ne_nil _ _⟩

end Turns

/-! ### What the pages make of a list -/

/-- What is shown of a list of wallpapers. -/
inductive View
  | loading
  | error (e : DartError)
  | empty
  | wallpapers (ws : List Wallpaper)

def viewOf : AsyncValue (List Wallpaper) → View
  | .loading => .loading
  | .error e => .error e
  | .data ws => if ws.isEmpty then .empty else .wallpapers ws

theorem viewOf_ne_error {a : AsyncValue (List Wallpaper)} (h : NoError a) (e : DartError) :
    viewOf a ≠ .error e := by
  cases a with
  | loading => exact fun he => by cases he
  | error e' => exact absurd rfl (h e')
  | data ws =>
    simp only [viewOf]
    split_ifs <;> exact fun he => by cases he

theorem viewOf_loading {a : AsyncValue (List Wallpaper)} (h : viewOf a = .loading) :
    a = .loading := by
  cases a with
  | loading => rfl
  | error e => cases h
  | data ws =>
    simp only [viewOf] at h
    split_ifs at h

theorem viewOf_empty {a : AsyncValue (List Wallpaper)} (h : viewOf a = .empty) : a = .data [] := by
  cases a with
  | loading => cases h
  | error e => cases h
  | data ws =>
    simp only [viewOf] at h
    split_ifs at h with hempty
    rw [List.isEmpty_iff.mp hempty]

/-! ### Wallpapers -/

section Wallpapers

variable {c : Codec} {toWallpaper : DynMap → Result Wallpaper} {s : State Wallpaper}

theorem answers_cacheAndShow (h : NoError s.state) (ws : List Wallpaper) :
    Answers (cacheAndShow c ws s).1.state (cacheAndShow c ws s).2 := by
  unfold cacheAndShow
  split
  · exact answers_data ws
  · exact answers_writeCache h ws _

theorem answers_afterQuery (h : NoError s.state) (k : WallpapersCall) (answer : Result Snapshot) :
    Answers (afterQuery c toWallpaper k answer s).1.state
      (afterQuery c toWallpaper k answer s).2 := by
  obtain ⟨ws, hws⟩ := getList_ok toWallpaper answer
  cases k with
  | loadWallpapers now | refresh =>
    simp only [afterQuery, hws]
    exact answers_cacheAndShow h ws
  | _ =>
    simp only [afterQuery, hws, showList]
    exact answers_data ws

theorem answers_wallpapersCall (k : WallpapersCall) :
    Answers ((wallpapersProgram c toWallpaper).call k s).1.state
      ((wallpapersProgram c toWallpaper).call k s).2 := by
  cases k with
  | loadWallpapers now =>
    simp only [wallpapersProgram, loadWallpapers]
    split_ifs
    · exact answers_data _
    · exact answers_loading
  | _ => exact answers_loading

theorem answers_wallpapersTask (h : NoError s.state) {t : WallpapersTask} {o : Outcome}
    {x : State Wallpaper × List WallpapersTask}
    (hr : (wallpapersProgram c toWallpaper).resume t o s = some x) : Answers x.1.state x.2 := by
  match t, o with
  | .querying k query, .answered answer =>
    obtain rfl := Option.some.inj hr
    exact answers_afterQuery h k answer
  | .caching (op :: rest) ws, .done now =>
    obtain rfl := Option.some.inj hr
    refine answers_writeCache ?_ ws rest
    exact h
  | .caching (op :: rest) ws, .failed =>
    obtain rfl := Option.some.inj hr
    exact answers_data ws

end Wallpapers

/-! ### Categories -/

section Categories

variable {c : Codec} {toCategory : DynMap → Result Category} {s : State Category}

theorem answers_loadCategories : Answers (loadCategories c s).1.state (loadCategories c s).2 := by
  unfold loadCategories
  split_ifs
  · exact answers_data _
  · exact answers_loading

theorem answers_afterCategoriesQuery (h : NoError s.state) (answer : Result Snapshot) :
    Answers (afterCategoriesQuery c toCategory answer s).1.state
      (afterCategoriesQuery c toCategory answer s).2 := by
  obtain ⟨cats, hcats⟩ := getList_ok toCategory answer
  simp only [afterCategoriesQuery, hcats]
  split
  · exact answers_data cats
  · exact answers_writeCache h cats _

theorem answers_categoriesTask (h : NoError s.state) {t : CategoriesTask} {o : Outcome}
    {x : State Category × List CategoriesTask}
    (hr : (categoriesProgram c toCategory).resume t o s = some x) : Answers x.1.state x.2 := by
  match t, o with
  | .querying k query, .answered answer =>
    obtain rfl := Option.some.inj hr
    exact answers_afterCategoriesQuery h answer
  | .caching (op :: rest) cats, .done now =>
    obtain rfl := Option.some.inj hr
    refine answers_writeCache ?_ cats rest
    exact h
  | .caching (op :: rest) cats, .failed =>
    obtain rfl := Option.some.inj hr
    exact answers_data cats

end Categories

end PixsBliss.Providers.AsyncValues
