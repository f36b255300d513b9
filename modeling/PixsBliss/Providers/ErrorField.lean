import PixsBliss.Lib.LastOutcome
import PixsBliss.Providers.CategoriesNotifier
import PixsBliss.Providers.SearchNotifier
import PixsBliss.Providers.WallpapersNotifier

/-! # The error of the API notifiers

Every operation passes `error: null` to a `copyWith` that keeps the error then, so that only a
failure writes one, and only a clear of the search takes one away.

* `error_iff_noneStands`: without a request in flight the error says whether the request that
  completed last failed, exactly along the runs in which no success comes last while an error
  stands.
* `error_stands`: a load, a list of categories and a search succeed after a failure. -/

namespace PixsBliss.Providers.ErrorField

open PixsBliss.Lib.Async PixsBliss.Lib.LastOutcome PixsBliss.Models

/-! ### What reports, fails and starts over -/

/-- The list of the shared feed has an error. -/
def wallpapersReport (s : WallpapersNotifier.State) : Bool := s.state.error.isSome

def wallpapersFail : WallpapersNotifier.Answer → Bool
  | .page _ _ => false
  | .exception _ => true

/-- No load starts over, not even a refresh. -/
def wallpapersRestart (_ : WallpapersNotifier.Call) : Bool := false

def categoriesReport (s : CategoriesNotifier.CategoriesState) : Bool := s.error.isSome

def categoriesFail : CategoriesNotifier.Answer → Bool
  | .categories _ => false
  | .exception _ => true

def categoriesRestart (_ : CategoriesNotifier.Call) : Bool := false

def searchReport (s : SearchNotifier.SearchState) : Bool := s.error.isSome

def searchFail : SearchNotifier.Answer → Bool
  | .results _ => false
  | .exception _ => true

/-- A clear, and a search for nothing, put back the initial state. -/
def searchRestart (k : SearchNotifier.Call) : Bool := (SearchNotifier.asked k).isEmpty

/-! ### Errors stick -/

theorem error_load (feed : WallpapersNotifier.Feed) (refresh : Bool)
    (s : WallpapersNotifier.State) :
    (WallpapersNotifier.load feed refresh s).1.state.error = s.state.error := by
  unfold WallpapersNotifier.load
  by_cases hload : s.state.isLoading = true
  · rw [if_pos hload]
  · rw [if_neg hload]
    cases refresh with
    | true => rfl
    | false =>
      by_cases hmore : s.state.hasMore = true
      · simp [hmore]
      · simp [hmore]

theorem sticks_wallpapers : Sticks WallpapersNotifier.program wallpapersRestart wallpapersReport
    wallpapersFail where
  call k s := by
    rw [WallpapersNotifier.call_eq]
    unfold wallpapersReport wallpapersRestart
    rw [error_load, Bool.not_false, Bool.true_and]
  resume f a s s' ts hr := by
    cases a with
    | page ws hasMore =>
      obtain ⟨rfl, rfl⟩ := Prod.mk.inj (Option.some.inj hr)
      exact ⟨rfl, rfl⟩
    | exception text =>
      obtain ⟨rfl, rfl⟩ := Prod.mk.inj (Option.some.inj hr)
      exact ⟨rfl, rfl⟩

theorem sticks_categories : Sticks CategoriesNotifier.program categoriesRestart categoriesReport
    categoriesFail where
  call k s := by
    cases k
    show (CategoriesNotifier.loadCategories s).1.error.isSome = s.error.isSome
    unfold CategoriesNotifier.loadCategories
    split_ifs
    · rfl
    · rfl
  resume f a s s' ts hr := by
    cases a with
    | categories categories =>
      obtain ⟨rfl, rfl⟩ := Prod.mk.inj (Option.some.inj hr)
      exact ⟨rfl, rfl⟩
    | exception text =>
      obtain ⟨rfl, rfl⟩ := Prod.mk.inj (Option.some.inj hr)
      exact ⟨rfl, rfl⟩

theorem sticks_search : Sticks SearchNotifier.program searchRestart searchReport searchFail where
  call k s := by
    unfold searchRestart searchReport
    rcases SearchNotifier.call_cases k s with ⟨hq, hcall⟩ | ⟨hq, hcall⟩
    · rw [hcall, hq]
      rfl
    · have hne : (SearchNotifier.asked k).isEmpty = false := by simpa using hq
      rw [hcall, hne]
      rfl
  resume f a s s' ts hr := by
    cases a with
    | results ws =>
      obtain ⟨rfl, rfl⟩ := Prod.mk.inj (Option.some.inj hr)
      exact ⟨rfl, rfl⟩
    | exception text =>
      obtain ⟨rfl, rfl⟩ := Prod.mk.inj (Option.some.inj hr)
      exact ⟨rfl, rfl⟩

/-! ### Runs -/

/-- **The error says whether the last request failed**, without one in flight and since the last
clear, in every state of a run of each notifier, exactly if in no step of the run the success of
the only request in flight finds an error. -/
theorem error_iff_noneStands
    (wallpaperEvents : List (Event WallpapersNotifier.Call WallpapersNotifier.Answer))
    (categoryEvents : List (Event CategoriesNotifier.Call CategoriesNotifier.Answer))
    (searchEvents : List (Event SearchNotifier.Call SearchNotifier.Answer)) :
    (RunReportsLast WallpapersNotifier.program wallpapersRestart wallpapersReport wallpapersFail
        WallpapersNotifier.fresh.shared wallpaperEvents ↔
      RunFindsNone WallpapersNotifier.program wallpapersRestart wallpapersReport wallpapersFail
        WallpapersNotifier.fresh.shared wallpaperEvents) ∧
    (RunReportsLast CategoriesNotifier.program categoriesRestart categoriesReport categoriesFail
        {} categoryEvents ↔
      RunFindsNone CategoriesNotifier.program categoriesRestart categoriesReport categoriesFail
        {} categoryEvents) ∧
    (RunReportsLast SearchNotifier.program searchRestart searchReport searchFail {} searchEvents ↔
      RunFindsNone SearchNotifier.program searchRestart searchReport searchFail {} searchEvents) :=
  ⟨reportsLast_iff sticks_wallpapers rfl wallpaperEvents,
    reportsLast_iff sticks_categories rfl categoryEvents,
    reportsLast_iff sticks_search rfl searchEvents⟩

/-- A refresh fails, and the next one succeeds. -/
def refreshedAgain : List (Event WallpapersNotifier.Call WallpapersNotifier.Answer) :=
  [.call (.loadWallpapers true), .resume 0 (.exception "No internet connection."),
    .call (.loadWallpapers true), .resume 0 (.page [sampleWallpaper "1" "api"] false)]

def loadedAgain : List (Event CategoriesNotifier.Call CategoriesNotifier.Answer) :=
  [.call .loadCategories, .resume 0 (.exception "No internet connection."),
    .call .loadCategories, .resume 0 (.categories [])]

def searchedAgain : List (Event SearchNotifier.Call SearchNotifier.Answer) :=
  [.call (.search "a"), .resume 0 (.exception "No internet connection."),
    .call (.search "a"), .resume 0 (.results [sampleWallpaper "1" "api"])]

/-- **The error stays** after each of them, with nothing in flight. -/
theorem error_stands :
    (∃ w, (watched WallpapersNotifier.program wallpapersRestart).run
        (start WallpapersNotifier.fresh.shared) refreshedAgain = some w ∧
      w.tasks = [] ∧ w.shared.2 = some (.page [sampleWallpaper "1" "api"] false) ∧
      w.shared.1.state.error = some "No internet connection." ∧
      ¬ReportsLast wallpapersReport wallpapersFail w) ∧
    (∃ w, (watched CategoriesNotifier.program categoriesRestart).run
        (start {}) loadedAgain = some w ∧
      w.tasks = [] ∧ w.shared.2 = some (.categories []) ∧
      w.shared.1.error = some "No internet connection." ∧
      ¬ReportsLast categoriesReport categoriesFail w) ∧
    ∃ w, (watched SearchNotifier.program searchRestart).run (start {}) searchedAgain = some w ∧
      w.tasks = [] ∧ w.shared.2 = some (.results [sampleWallpaper "1" "api"]) ∧
      w.shared.1.error = some "No internet connection." ∧
      ¬ReportsLast searchReport searchFail w := by
  refine ⟨⟨_, rfl, rfl, rfl, rfl, fun h => ?_⟩, ⟨_, rfl, rfl, rfl, rfl, fun h => ?_⟩, _, rfl, rfl,
    rfl, rfl, fun h => ?_⟩
  · obtain ⟨o, ho, hf⟩ := (h rfl).mp rfl
    obtain rfl := Option.some.inj ho
    cases hf
  · obtain ⟨o, ho, hf⟩ := (h rfl).mp rfl
    obtain rfl := Option.some.inj ho
    cases hf
  · obtain ⟨o, ho, hf⟩ := (h rfl).mp rfl
    obtain rfl := Option.some.inj ho
    cases hf

end PixsBliss.Providers.ErrorField
