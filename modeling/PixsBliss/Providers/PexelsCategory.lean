import PixsBliss.Lib.Flight
import PixsBliss.Lib.Pages
import PixsBliss.Models.RoundTrip
import PixsBliss.Providers.PexelsFeed

/-! # The wallpapers of a category

`PexelsCategoryWallpapersNotifier` pages through the search for one category: a guarded load fetches
the next page and appends it, or with `refresh` fetches page 1 and replaces the list. It has no
cache, so nothing but a fetch changes the list.

The page of a request is read before its await and the new page number is computed after it;
`category_paging` says that they fit: along every run one fetch at most is in flight, the list is
the concatenation of the pages before `currentPage` as they were last fetched, `hasMore` speaks of
the last page fetched, and a fetch that fails leaves everything but `isLoading` and `error` as it
was before the call. What was fetched is read off the answers of the run (`fetched_run`). -/

namespace PixsBliss.Providers.PexelsCategory

open PixsBliss.Lib.Async PixsBliss.Lib.Flight PixsBliss.Lib.Pages PixsBliss.Models
open PixsBliss.Services.PexelsApiService
open PixsBliss.Providers.PexelsFeed (PexelsWallpapersState)

/-! ### The program -/

/-- The notifier; what each page was when it was last fetched, and the last page that was fetched,
are ghosts. -/
structure State where
  state : PexelsWallpapersState
  lastFetched : ℕ → List Wallpaper
  lastSuccess : Option (List Wallpaper)

/-- A fetch in flight; the state before its call is a ghost. -/
structure Fetch where
  page : ℕ
  request : Request
  refresh : Bool
  before : PexelsWallpapersState

inductive Call
  | loadCategoryWallpapers (refresh : Bool)
  | refresh
  | loadMore

/-- A new notifier. -/
def fresh : World State Fetch := ⟨⟨{}, fun _ => [], none⟩, []⟩

/-- `loadCategoryWallpapers`, up to the answer. -/
def loadCategoryWallpapers (categoryId : String) (refresh : Bool) (s : State) :
    State × List Fetch :=
  if s.state.isLoading then (s, [])
  else
    let page := if refresh then 1 else s.state.currentPage
    ({ s with state := { s.state with isLoading := true, error := none } },
      [⟨page, getWallpapersByCategory categoryId page 80, refresh, s.state⟩])

/-- A successful answer. -/
def applyPage (f : Fetch) (ws : List Wallpaper) (s : State) : State where
  state :=
    { wallpapers := if f.refresh then ws else s.state.wallpapers ++ ws
      isLoading := false
      hasMore := !ws.isEmpty && decide (80 ≤ ws.length)
      error := none
      currentPage := if f.refresh then 2 else s.state.currentPage + 1 }
  lastFetched := Function.update s.lastFetched f.page ws
  lastSuccess := some ws

/-- The catch. -/
def applyError (text : String) (s : State) : State :=
  { s with state := { s.state with isLoading := false, error := some text } }

/-- **The notifier of a category.** -/
def program (categoryId : String) : Program State Fetch Call Answer where
  call
    | .loadCategoryWallpapers refresh, s => loadCategoryWallpapers categoryId refresh s
    | .refresh, s => loadCategoryWallpapers categoryId true s
    | .loadMore, s =>
      if s.state.hasMore && !s.state.isLoading then loadCategoryWallpapers categoryId false s
      else (s, [])
  resume
    | f, .wallpapers ws, s => some (applyPage f ws s, [])
    | _, .exception text, s => some (applyError text s, [])

/-! ### What was fetched -/

/-- The pages among the answers, in order. -/
def fetched (heard : List (Fetch × Answer)) : List (ℕ × List Wallpaper) :=
  heard.filterMap fun
    | (f, .wallpapers ws) => some (f.page, ws)
    | (_, .exception _) => none

/-- The ghosts are what the answers were. -/
structure Tells (s : State) (heard : List (Fetch × Answer)) : Prop where
  lastFetched : ∀ page, s.lastFetched page = ((fetched heard).reverse.lookup page).getD []
  lastSuccess : s.lastSuccess = (fetched heard).getLast?.map Prod.snd

theorem tells_load {categoryId : String} {refresh : Bool} {s : State}
    {heard : List (Fetch × Answer)} (h : Tells s heard) :
    Tells (loadCategoryWallpapers categoryId refresh s).1 heard := by
  unfold loadCategoryWallpapers
  split
  · exact h
  · exact ⟨h.lastFetched, h.lastSuccess⟩

theorem tells_applyPage {s : State} {heard : List (Fetch × Answer)} (h : Tells s heard)
    (f : Fetch) (ws : List Wallpaper) :
    Tells (applyPage f ws s) (heard ++ [(f, .wallpapers ws)]) := by
  have hnext : fetched (heard ++ [(f, .wallpapers ws)]) = fetched heard ++ [(f.page, ws)] := by
    rw [fetched, List.filterMap_append]
    rfl
  refine ⟨fun page => ?_, ?_⟩
  · rw [hnext, List.reverse_append, List.reverse_singleton, List.singleton_append,
      List.lookup_cons]
    by_cases hp : page = f.page
    · subst hp
      simp [applyPage]
    · rw [beq_false_of_ne hp, ← h.lastFetched page]
      exact Function.update_of_ne hp _ _
  · rw [hnext, List.getLast?_concat]
    rfl

/-- **The ghosts are read off the answers of a run**: what a page was when it was last fetched, and
the last page that was fetched. -/
theorem fetched_run {categoryId : String} {es : List (Event Call Answer)} {w : World State Fetch}
    (hr : (program categoryId).run fresh es = some w) :
    Tells w.shared ((program categoryId).heard fresh es) := by
  refine Program.inv_heard (I := Tells) (h := []) (fun k s heard h => ?_)
    (fun f a s x heard h hx => ?_) ⟨fun _ => rfl, rfl⟩ hr
  · cases k with
    | loadCategoryWallpapers refresh => exact tells_load h
    | refresh => exact tells_load h
    | loadMore =>
      simp only [program]
      split_ifs
      · exact tells_load h
      · exact h
  · cases a with
    | wallpapers ws =>
      obtain rfl := Option.some.inj hx
      exact tells_applyPage h f ws
    | exception text =>
      obtain rfl := Option.some.inj hx
      have hsame : fetched (heard ++ [(f, .exception text)]) = fetched heard := by
        rw [fetched, List.filterMap_append]
        exact List.append_nil _
      exact ⟨fun page => by rw [hsame]; exact h.lastFetched page, by
        rw [hsame]; exact h.lastSuccess⟩

/-! ### The invariant -/

/-- The list, the page number and `hasMore` describe what was fetched. -/
structure Paged (s : State) : Prop where
  page_pos : 1 ≤ s.state.currentPage
  list : s.state.wallpapers = pages s.lastFetched (s.state.currentPage - 1)
  more : s.state.hasMore = true ↔ ∀ ws, s.lastSuccess = some ws → 80 ≤ ws.length

/-- Two states differ in `isLoading` and `error` only. -/
structure SameData (a b : PexelsWallpapersState) : Prop where
  wallpapers : a.wallpapers = b.wallpapers
  hasMore : a.hasMore = b.hasMore
  currentPage : a.currentPage = b.currentPage

/-- Every task is a fetch; one in flight asks for a page of the category: the next one or, if it
refreshes, the first. -/
def guard (categoryId : String) : Guard State Fetch where
  isRequest _ := true
  busy s := s.state.isLoading
  Idle s := Paged s
  Fits f s := Paged s ∧ f.request = getWallpapersByCategory categoryId f.page 80 ∧
    f.page = (if f.refresh then 1 else s.state.currentPage) ∧ SameData f.before s.state

section Turns

variable {categoryId : String} {s s' : State}

theorem turn_load (refresh : Bool) (s : State) :
    (guard categoryId).Turn s (loadCategoryWallpapers categoryId refresh s).1
      (loadCategoryWallpapers categoryId refresh s).2 := by
  unfold loadCategoryWallpapers
  by_cases hload : s.state.isLoading = true
  · rw [if_pos hload]
    exact Or.inl ⟨rfl, rfl, fun h => h, fun _ h => h⟩
  · rw [if_neg hload]
    have hload : s.state.isLoading = false := by simpa using hload
    refine Or.inr ⟨hload, rfl, fun h => ⟨_, rfl, ⟨h.page_pos, h.list, h.more⟩, rfl, rfl, ?_⟩⟩
    exact ⟨rfl, rfl, rfl⟩

theorem turn_call (k : Call) (s : State) :
    (guard categoryId).Turn s ((program categoryId).call k s).1
      ((program categoryId).call k s).2 := by
  cases k with
  | loadCategoryWallpapers refresh => exact turn_load refresh s
  | refresh => exact turn_load true s
  | loadMore =>
    simp only [program]
    split_ifs
    · exact turn_load false s
    · exact Or.inl ⟨rfl, rfl, fun h => h, fun _ h => h⟩

/-- `hasMore` after a page. -/
theorem more_iff (ws : List Wallpaper) :
    (!ws.isEmpty && decide (80 ≤ ws.length)) = true ↔ 80 ≤ ws.length := by
  cases ws with
  | nil => simp
  | cons w ws => simp

/-- A page keeps the invariant: it replaces the list, or is the next page. -/
theorem paged_applyPage {f : Fetch} {ws : List Wallpaper} (h : Paged s)
    (hpage : f.page = if f.refresh then 1 else s.state.currentPage) : Paged (applyPage f ws s) := by
  have hmore : (applyPage f ws s).state.hasMore = true ↔
      ∀ ws', (applyPage f ws s).lastSuccess = some ws' → 80 ≤ ws'.length := by
    simp only [applyPage, more_iff, Option.some.injEq, forall_eq']
  cases hr : f.refresh with
  | true =>
    rw [hr] at hpage
    have h1 : f.page = 1 := hpage
    refine ⟨by simp [applyPage, hr], ?_, hmore⟩
    simp [applyPage, hr, h1]
  | false =>
    rw [hr] at hpage
    have hcur : f.page = s.state.currentPage := hpage
    refine ⟨by simp [applyPage, hr], ?_, hmore⟩
    have hpos := h.page_pos
    have hold : pages (Function.update s.lastFetched s.state.currentPage ws)
        (s.state.currentPage - 1) = pages s.lastFetched (s.state.currentPage - 1) :=
      pages_congr fun i _ hi => Function.update_of_ne (by omega) _ _
    have hnew : pages (Function.update s.lastFetched s.state.currentPage ws)
        s.state.currentPage = s.state.wallpapers ++ ws := by
      rw [← pages_pred_append hpos, hold, ← h.list, Function.update_self]
    simp [applyPage, hr, hcur, hnew]

theorem ends_fetch {f : Fetch} {a : Answer} {ts : List Fetch}
    (hr : (program categoryId).resume f a s = some (s', ts)) (hf : (guard categoryId).Fits f s) :
    (guard categoryId).Ends s' ts := by
  obtain ⟨hp, -, hpage, -⟩ := hf
  cases a with
  | wallpapers ws =>
    simp only [program, Option.some.injEq, Prod.mk.injEq] at hr
    obtain ⟨rfl, rfl⟩ := hr
    exact ⟨rfl, rfl, paged_applyPage hp hpage⟩
  | exception text =>
    simp only [program, Option.some.injEq, Prod.mk.injEq] at hr
    obtain ⟨rfl, rfl⟩ := hr
    exact ⟨rfl, rfl, hp.page_pos, hp.list, hp.more⟩

end Turns

/-! ### Runs -/

section Runs

variable {categoryId : String} {w w' : World State Fetch} {e : Event Call Answer}

theorem single_step (h : (guard categoryId).Single w)
    (hs : (program categoryId).step w e = some w') : (guard categoryId).Single w' :=
  Guard.single_step (C := fun _ _ _ => True) turn_call
    (fun _ _ _ _ _ ht => Bool.noConfusion ht)
    (fun _ _ _ _ _ _ hr hf _ => ends_fetch hr hf) h (fun _ _ _ _ _ => trivial) hs

theorem paged_of_single (h : (guard categoryId).Single w) : Paged w.shared := by
  rcases h with ⟨-, -, hi⟩ | ⟨f, -, -, hf⟩
  · exact hi
  · exact hf.1

/-- A fetch that fails leaves the state that its call found, but for `isLoading` and `error`. -/
def FailureKeeps (w : World State Fetch) (e : Event Call Answer) (w' : World State Fetch) : Prop :=
  ∀ i text f, e = .resume i (.exception text) → w.tasks[i]? = some f →
    w'.shared.state = { f.before with isLoading := false, error := some text }

theorem failureKeeps_step (h : (guard categoryId).Single w)
    (hs : (program categoryId).step w e = some w') : FailureKeeps w e w' := by
  rintro i text f rfl hi
  obtain ⟨l, r, s, ts, ht, hr, rfl⟩ := Program.step_resume_at hi hs
  obtain ⟨-, -, -, hsame⟩ := h.fits (t := f) (by simp [ht]) rfl
  obtain rfl := congrArg Prod.fst (Option.some.inj hr)
  show ({ w.shared.state with isLoading := false, error := some text } : PexelsWallpapersState) = _
  rw [PexelsWallpapersState.mk.injEq]
  exact ⟨hsame.wallpapers.symm, rfl, hsame.hasMore.symm, rfl, hsame.currentPage.symm⟩

/-- **Category paging is exact**: along every run `isLoading` says whether a fetch is in flight,
which is for a page of this category, and there are never two; the list is the pages before
`currentPage` as last fetched; `hasMore` is up iff nothing was fetched or the last page had 80
photos; a failure changes `isLoading` and `error` only. -/
theorem category_paging (categoryId : String) (es : List (Event Call Answer))
    (w : World State Fetch) (hr : (program categoryId).run fresh es = some w) :
    (w.shared.state.isLoading = true ↔ w.tasks.length = 1) ∧ w.tasks.length ≤ 1 ∧
    (∀ f ∈ w.tasks, f.request = getWallpapersByCategory categoryId f.page 80) ∧
    w.shared.state.wallpapers = pages w.shared.lastFetched (w.shared.state.currentPage - 1) ∧
    (w.shared.state.hasMore = true ↔ ∀ ws, w.shared.lastSuccess = some ws → 80 ≤ ws.length) ∧
    (program categoryId).Each FailureKeeps fresh es := by
  have hstart : (guard categoryId).Single fresh :=
    Or.inl ⟨rfl, rfl, le_rfl, rfl, by simp [fresh]⟩
  have hend : (guard categoryId).Single w :=
    Program.run_inv (fun _ _ _ h hs => single_step h hs) hstart hr
  have htasks : (guard categoryId).requests w.tasks = w.tasks := List.filter_true w.tasks
  have hbusy := hend.busy_iff
  have hlen := hend.length_le
  rw [htasks] at hbusy hlen
  have hpaged := paged_of_single hend
  exact ⟨hbusy, hlen, fun f hf => (hend.fits hf rfl).2.1, hpaged.list, hpaged.more,
    Program.each_of_inv (fun _ _ _ h hs => ⟨single_step h hs, failureKeeps_step h hs⟩) hstart⟩

/-- Two loads, of which the second is refused, and a page of one photo; then a load that fails. -/
theorem category_paging_nature : ∃ w, (program "Nature").run fresh
      [.call (.loadCategoryWallpapers false), .call (.loadCategoryWallpapers true),
        .resume 0 (.wallpapers [sampleWallpaper "a" "pexels"]),
        .call (.loadCategoryWallpapers false), .resume 0 (.exception "Exception: Network")] =
      some w ∧
    (w.shared.state.isLoading = true ↔ w.tasks.length = 1) ∧ w.tasks.length ≤ 1 ∧
    (∀ f ∈ w.tasks, f.request = getWallpapersByCategory "Nature" f.page 80) ∧
    w.shared.state.wallpapers = pages w.shared.lastFetched (w.shared.state.currentPage - 1) ∧
    (w.shared.state.hasMore = true ↔ ∀ ws, w.shared.lastSuccess = some ws → 80 ≤ ws.length) ∧
    (program "Nature").Each FailureKeeps fresh
      [.call (.loadCategoryWallpapers false), .call (.loadCategoryWallpapers true),
        .resume 0 (.wallpapers [sampleWallpaper "a" "pexels"]),
        .call (.loadCategoryWallpapers false), .resume 0 (.exception "Exception: Network")] :=
  ⟨_, rfl, category_paging "Nature" _ _ rfl⟩

end Runs

end PixsBliss.Providers.PexelsCategory
