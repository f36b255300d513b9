import PixsBliss.Lib.Families
import PixsBliss.Lib.Turns
import PixsBliss.Providers.FixedResults
import PixsBliss.Providers.PexelsSearch

/-! # The pages of the categories

A tap on a category of Pexels pushes a `CategoryWallpapersPage`. Its `build` watches the notifier of
the category, which is made when it is first watched and kept when the page is closed; its
`initState` clears the search and searches for the category's name, in the one search notifier that
all pages share. A tap on Retry and a scroll to the end go by what the page was last built from.

* `containsCategory`: whatever is opened, closed and tapped, each notifier only does what its own
  program can do. So what holds along the runs of one notifier holds on the pages.
* `pages_tell_truth`: over results that do not change, a page that says that there are no wallpapers
  is right, and one that does not offer to load more shows all of them.
* `page_final_iff`: exactly when a page will never show anything else. -/

namespace PixsBliss.Pages.CategoryPage

open PixsBliss.Lib.Async PixsBliss.Lib.Families PixsBliss.Lib.Families.Family
open PixsBliss.Lib.Flight PixsBliss.Lib.Pages PixsBliss.Lib.Parts PixsBliss.Lib.Turns
open PixsBliss.Models
open PixsBliss.Services.PexelsApiService (Answer)
open PixsBliss.Providers PixsBliss.Providers.FixedResults
open PixsBliss.Providers.PexelsFeed (PexelsWallpapersState)

/-! ### The program -/

/-- What a page shows; the grid has one tile more if there may be more to load. -/
inductive View
  | skeleton
  | failed (error : String)
  | noWallpapers
  | grid (wallpapers : List Wallpaper) (loadingTile : Bool)

/-- `build` and `_buildPexelsContent`. -/
def build (x : PexelsWallpapersState) : View :=
  if x.isLoading && x.wallpapers.isEmpty then .skeleton
  else if x.wallpapers.isEmpty then
    match x.error with
    | some error => .failed error
    | none => .noWallpapers
  else .grid x.wallpapers x.hasMore

/-- A page, and the state that it was last built from. -/
structure Page where
  categoryName : String
  built : PexelsWallpapersState

/-- The notifiers that were made, the search, and the pages that are open, the one on top first. -/
structure State where
  categories : String → Option PexelsCategory.State
  search : PexelsSearch.State
  pages : List Page

/-- A request in flight. -/
inductive Task
  | category (name : String) (f : PexelsCategory.Fetch)
  | search (r : PexelsSearch.Search)

/-- What the user does, and a frame in which the pages are built again. -/
inductive Call
  | push (categoryName : String)
  | pop
  | frame
  | retry
  | scrolledToEnd

/-- No page is open, and no notifier was made. -/
def start : World State Task := ⟨⟨fun _ => none, PexelsSearch.fresh.shared, []⟩, []⟩

/-- The notifiers of the categories. -/
def notifiers : Family String State Task PexelsCategory.State PexelsCategory.Fetch where
  made := State.categories
  new := PexelsCategory.fresh.shared
  put name c s := { s with categories := Function.update s.categories name (some c) }
  task := .category
  own
    | .category name f => some (name, f)
    | .search _ => none
  made_put _ _ _ := rfl
  own_iff t name f := by cases t <;> simp

/-- A call of the notifier of a category. -/
def callCategory (name : String) (k : PexelsCategory.Call) (s : State) : State × List Task :=
  notifiers.call PexelsCategory.program name k s

/-- `ref.watch`: the constructor of the notifier loads. -/
def watch (name : String) (s : State) : State × List Task :=
  notifiers.watch PexelsCategory.program name (.loadCategoryWallpapers false) s

/-- The search of `initState`. -/
def searchFor (name : String) (s : State) : State × List Task :=
  let x := PexelsSearch.program.call (.searchWallpapers name true)
    (PexelsSearch.program.call .clearSearch s.search).1
  ({ s with search := x.1 }, x.2.map .search)

/-- A frame: every page that is open is built from what its notifier has. -/
def frame (s : State) : State :=
  { s with pages := s.pages.map fun p =>
      { p with built := (notifiers.state p.categoryName s).state } }

/-- A new page, that is not built yet. -/
def opened (name : String) (s : State) : State := { s with pages := ⟨name, {}⟩ :: s.pages }

/-- A new page: `initState`, its first frame, and the callback after it. -/
def push (name : String) (s : State) : State × List Task :=
  let x := watch name (opened name s)
  let y := searchFor name (frame x.1)
  (y.1, x.2 ++ y.2)

/-- The button of the page on top, if it has one. -/
def retry (s : State) : State × List Task :=
  match s.pages with
  | [] => (s, [])
  | p :: _ =>
    match build p.built with
    | .failed _ => callCategory p.categoryName .refresh s
    | _ => (s, [])

/-- `onNotification` at the end of the grid of the page on top. -/
def scrolledToEnd (s : State) : State × List Task :=
  match s.pages with
  | [] => (s, [])
  | p :: _ =>
    match build p.built with
    | .grid _ _ =>
      if p.built.hasMore && !p.built.isLoading then callCategory p.categoryName .loadMore s
      else (s, [])
    | _ => (s, [])

/-- **The pages and the notifiers.** -/
def program : Program State Task Call Answer where
  call
    | .push name, s => push name s
    | .pop, s => ({ s with pages := s.pages.tail }, [])
    | .frame, s => (frame s, [])
    | .retry, s => retry s
    | .scrolledToEnd, s => scrolledToEnd s
  resume
    | .category name f, a, s => notifiers.resume PexelsCategory.program name f a s
    | .search r, a, s =>
      (PexelsSearch.program.resume r a s.search).map fun x =>
        ({ s with search := x.1 }, x.2.map .search)

/-! ### What happens to one notifier -/

section Notifiers

variable {name : String} {s s' : State} {ts : List Task} {w w' : World State Task}

theorem tasks_search (rs : List PexelsSearch.Search) :
    (notifiers.part name).tasks (rs.map .search) = [] :=
  (notifiers.part name).tasks_map_other (fun _ => rfl) rs

theorem calls_program (k : Call) :
    notifiers.Calls PexelsCategory.program name s (program.call k s) := by
  cases k with
  | push name' =>
    obtain ⟨ks, hks⟩ : notifiers.Calls PexelsCategory.program name (opened name' s)
        (watch name' (opened name' s)) := calls_watch _
    refine ⟨ks, hks.trans ?_⟩
    have htasks : (notifiers.part name).tasks (program.call (.push name') s).2 =
        (notifiers.part name).tasks (watch name' (opened name' s)).2 := by
      rw [show (program.call (.push name') s).2 = _ ++ _ from rfl, Part.tasks_append, searchFor,
        tasks_search, List.append_nil]
    rw [htasks]
    rfl
  | pop => exact calls_none rfl rfl
  | frame => exact calls_none rfl rfl
  | retry =>
    simp only [program, retry]
    split
    · exact calls_none rfl rfl
    · split
      · exact calls_call _
      · exact calls_none rfl rfl
  | scrolledToEnd =>
    simp only [program, scrolledToEnd]
    split
    · exact calls_none rfl rfl
    · split
      · split_ifs
        · exact calls_call _
        · exact calls_none rfl rfl
      · exact calls_none rfl rfl

/-- An answer to a request for a category meets the condition `C`. -/
def OfCategory (C : PexelsCategory.Fetch → Answer → PexelsCategory.State → Prop) :
    Task → Answer → State → Prop
  | .category name f, a, s => C f a (notifiers.state name s)
  | .search _, _, _ => True

/-- **The pages contain the notifier of every category.** -/
theorem containsCategory (name : String)
    (C : PexelsCategory.Fetch → Answer → PexelsCategory.State → Prop) :
    Contains (notifiers.part name) program (PexelsCategory.program name) (OfCategory C) C := by
  refine contains C (fun k s => calls_program k) (fun _ _ _ _ => rfl) ?_ fun _ _ _ h => h
  intro t a s s' ts ht hr
  cases t with
  | category name' f => cases ht
  | search r =>
    obtain ⟨x, -, hx⟩ := Option.map_eq_some_iff.mp hr
    obtain ⟨rfl, rfl⟩ := Prod.mk.inj hx
    exact ⟨rfl, tasks_search _⟩

/-- A run of the pages, as the notifier of one category sees it. -/
theorem run_category {C : PexelsCategory.Fetch → Answer → PexelsCategory.State → Prop}
    {es : List (Event Call Answer)} (name : String)
    (ha : program.Each (Meets (OfCategory C)) start es) (hr : program.run start es = some w) :
    ∃ es', (PexelsCategory.program name).Each (Meets C) PexelsCategory.fresh es' ∧
      (PexelsCategory.program name).run PexelsCategory.fresh es' =
        some ((notifiers.part name).see w) :=
  (containsCategory name C).run ha hr

end Notifiers

/-! ### The notifiers that were made -/

/-- Where there may be more and nothing is shown, a load runs or has failed. -/
def Begun (x : PexelsWallpapersState) : Prop :=
  x.hasMore = true → x.wallpapers = [] → x.isLoading = true ∨ x.error.isSome = true

section Begun

variable {name : String} {c : PexelsCategory.State} {s : State}

/-- A load runs, or there is one already. -/
theorem loading_load (refresh : Bool) :
    (PexelsCategory.loadCategoryWallpapers name refresh c).1.state.isLoading = true := by
  unfold PexelsCategory.loadCategoryWallpapers
  split_ifs with hload
  · exact hload
  all_goals rfl

theorem begun_load (refresh : Bool) :
    Begun (PexelsCategory.loadCategoryWallpapers name refresh c).1.state :=
  fun _ _ => Or.inl (loading_load refresh)

theorem begun_call (h : Begun c.state) (k : PexelsCategory.Call) :
    Begun ((PexelsCategory.program name).call k c).1.state := by
  cases k with
  | loadCategoryWallpapers refresh => exact begun_load refresh
  | refresh => exact begun_load true
  | loadMore =>
    simp only [PexelsCategory.program]
    split_ifs
    · exact begun_load false
    · exact h

theorem begun_resume {f : PexelsCategory.Fetch} {a : Answer}
    {x : PexelsCategory.State × List PexelsCategory.Fetch}
    (hr : (PexelsCategory.program name).resume f a c = some x) : Begun x.1.state := by
  cases a with
  | wallpapers ws =>
    obtain rfl := Option.some.inj hr
    intro hmore hnone
    have hfull : 80 ≤ ws.length := (PexelsCategory.more_iff ws).mp hmore
    have hempty : ws = [] := by
      simp only [PexelsCategory.applyPage] at hnone
      split_ifs at hnone
      · exact hnone
      · exact (List.append_eq_nil_iff.mp hnone).2
    rw [hempty] at hfull
    cases hfull
  | exception text =>
    obtain rfl := Option.some.inj hr
    exact fun _ _ => Or.inr rfl

/-- The notifiers have begun, and every open page has one. -/
structure Made (s : State) : Prop where
  begun : ∀ name c, notifiers.made s name = some c → Begun c.state
  opened : ∀ p ∈ s.pages, (notifiers.made s p.categoryName).isSome = true

theorem Made.begun_state (h : Made s) (hs : (notifiers.made s name).isSome = true) :
    Begun (notifiers.state name s).state :=
  h.begun name _ (made_of_isSome hs)

theorem made_put (h : Made s) (hc : Begun c.state) : Made (notifiers.put name c s) where
  begun name' c' hc' := by
    by_cases hn : name' = name
    · rw [hn, made_put_self] at hc'
      exact Option.some.inj hc' ▸ hc
    · rw [made_put_other hn] at hc'
      exact h.begun name' c' hc'
  opened p hp := isSome_put c (h.opened p hp)

/-- Building the pages changes nothing else. -/
theorem made_frame (h : Made s) : Made (frame s) where
  begun := h.begun
  opened p hp := by
    obtain ⟨q, hq, rfl⟩ := List.mem_map.mp hp
    exact h.opened q hq

theorem made_pop (h : Made s) : Made { s with pages := s.pages.tail } where
  begun := h.begun
  opened p hp := h.opened p (List.mem_of_mem_tail hp)

/-- The notifier of a new page is there before it is built. -/
theorem made_push (h : Made s) : Made (push name s).1 := by
  have hwatch : Made (watch name (opened name s)).1 := by
    unfold watch Family.watch
    split_ifs with hmade
    · exact ⟨h.begun, List.forall_mem_cons.mpr ⟨hmade, h.opened⟩⟩
    · refine ⟨(made_put h (begun_load false)).begun, List.forall_mem_cons.mpr ⟨?_, ?_⟩⟩
      · exact congrArg Option.isSome (made_put_self _)
      · exact fun p hp => isSome_put _ (h.opened p hp)
  exact ⟨(made_frame hwatch).begun, (made_frame hwatch).opened⟩

theorem made_retry (h : Made s) : Made (retry s).1 := by
  unfold retry
  split
  · exact h
  · split
    · exact made_put h (begun_load true)
    · exact h

theorem made_scrolledToEnd (h : Made s) : Made (scrolledToEnd s).1 := by
  unfold scrolledToEnd
  split
  · exact h
  · next p ps hp =>
    have hs : (notifiers.made s p.categoryName).isSome = true :=
      h.opened p (hp ▸ List.mem_cons_self)
    split
    · split_ifs
      · exact made_put h (begun_call (h.begun_state hs) .loadMore)
      · exact h
    · exact h

theorem eachTurn_made : EachTurn program (fun _ _ _ => True) Made fun _ => True where
  call k s h := by
    refine ⟨?_, fun _ _ => trivial⟩
    cases k with
    | push name => exact made_push h
    | pop => exact made_pop h
    | frame => exact made_frame h
    | retry => exact made_retry h
    | scrolledToEnd => exact made_scrolledToEnd h
  resume t a s x h _ _ hr := by
    refine ⟨?_, fun _ _ => trivial⟩
    cases t with
    | category name f =>
      obtain ⟨y, hy, rfl⟩ := Option.map_eq_some_iff.mp hr
      exact made_put h (begun_resume hy)
    | search r =>
      obtain ⟨y, -, rfl⟩ := Option.map_eq_some_iff.mp hr
      exact ⟨h.begun, h.opened⟩

theorem made_run {es : List (Event Call Answer)} {w : World State Task}
    (hr : program.run start es = some w) : Made w.shared :=
  (eachTurn_made.run (turn_nil ⟨nofun, nofun⟩) (each_meets (fun _ _ _ => trivial) _ _) hr).1

end Begun

/-! ### What the pages say -/

section Truth

variable {searches : Results} {results : List Wallpaper} {x : PexelsWallpapersState}
  {w w' : World State Task} {e : Event Call Answer} {es : List (Event Call Answer)}

/-- Only a frame builds a page, from what its notifier has then. -/
theorem built_step (hs : program.step w e = some w') : ∀ p ∈ w'.shared.pages,
    p ∈ w.shared.pages ∨ p.built = (notifiers.state p.categoryName w'.shared).state := by
  have hframe : ∀ s : State, ∀ p ∈ (frame s).pages,
      p.built = (notifiers.state p.categoryName s).state := by
    intro s p hp
    obtain ⟨q, -, rfl⟩ := List.mem_map.mp hp
    rfl
  intro p hp
  rcases Program.step_cases hs with ⟨k, rfl, rfl⟩ | ⟨l, t, r, a, s, ts, rfl, ht, hr, rfl⟩
  · cases k with
    | push name =>
      exact Or.inr (hframe (watch name (opened name w.shared)).1 p hp)
    | pop => exact Or.inl (List.mem_of_mem_tail hp)
    | frame => exact Or.inr (hframe w.shared p hp)
    | retry =>
      simp only [program, retry] at hp
      split at hp
      · exact Or.inl hp
      · split at hp <;> exact Or.inl hp
    | scrolledToEnd =>
      simp only [program, scrolledToEnd] at hp
      split at hp
      · exact Or.inl hp
      · split at hp
        · split_ifs at hp <;> exact Or.inl hp
        · exact Or.inl hp
  · cases t with
    | category name f =>
      obtain ⟨y, -, hy⟩ := Option.map_eq_some_iff.mp hr
      obtain ⟨rfl, rfl⟩ := Prod.mk.inj hy
      exact Or.inl hp
    | search r =>
      obtain ⟨y, -, hy⟩ := Option.map_eq_some_iff.mp hr
      obtain ⟨rfl, rfl⟩ := Prod.mk.inj hy
      exact Or.inl hp

/-- What a page is built from, over results that do not change. -/
structure Told (results : List Wallpaper) (x : PexelsWallpapersState) : Prop where
  begun : Begun x
  list : x.wallpapers = results.take (80 * (x.currentPage - 1))
  more : x.hasMore = true ↔ 80 * (x.currentPage - 1) ≤ results.length

/-- **What is on the screen is true**: no wallpapers only where there are none, and a grid shows
full pages, or everything. -/
def Truthful (results : List Wallpaper) : View → Prop
  | .skeleton | .failed _ => True
  | .noWallpapers => results = []
  | .grid ws loadingTile => ws ≠ [] ∧
    (loadingTile = true → ∃ n, ws = results.take (80 * n) ∧ 80 * n ≤ results.length) ∧
    (loadingTile = false → ws = results)

theorem Told.complete (h : Told results x) (hmore : x.hasMore = false) :
    x.wallpapers = results := by
  rw [h.list]
  exact take_of_not_full fun hle => by rw [h.more.mpr hle] at hmore; cases hmore

theorem truthful_build (h : Told results x) : Truthful results (build x) := by
  unfold build
  by_cases hload : (x.isLoading && x.wallpapers.isEmpty) = true
  · rw [if_pos hload]
    trivial
  · rw [if_neg hload]
    split_ifs with hempty
    · have hnone : x.wallpapers = [] := List.isEmpty_iff.mp hempty
      have hidle : x.isLoading = false := by simpa [hempty] using hload
      cases herror : x.error with
      | some error => trivial
      | none =>
        -- neither running nor failed, so there is no more
        have hmore : x.hasMore = false := by
          rw [← Bool.not_eq_true]
          intro hmore
          rcases h.begun hmore hnone with hrun | hfail
          · rw [hidle] at hrun
            cases hrun
          · rw [herror] at hfail
            cases hfail
        exact (h.complete hmore).symm.trans hnone
    · have hsome : x.wallpapers ≠ [] := fun hnone => hempty (List.isEmpty_iff.mpr hnone)
      exact ⟨hsome, fun hmore => ⟨x.currentPage - 1, h.list, h.more.mp hmore⟩, h.complete⟩

/-- The pages along a run. -/
theorem told_run : ∀ (es : List (Event Call Answer)) {w : World State Task},
    program.Each (Meets (OfCategory (AnswersFrom searches))) start es →
    program.run start es = some w →
    ∀ p ∈ w.shared.pages, Told (categoryResults searches p.categoryName) p.built := by
  intro es
  induction es using List.reverseRecOn with
  | nil =>
    rintro w - hr
    obtain rfl := Option.some.inj hr
    nofun
  | append_singleton es e ih =>
    intro w ha hr p hp
    rw [Program.run_concat] at hr
    obtain ⟨v, hv, hs⟩ := Option.bind_eq_some_iff.mp hr
    have hr : program.run start (es ++ [e]) = some w := by rw [Program.run_concat, hv]; exact hs
    rcases built_step hs p hp with hold | hnew
    · exact ih (Program.each_concat.mp ha).1 hv p hold
    · have hmade := made_run hr
      obtain ⟨es', ha', hr'⟩ := run_category p.categoryName ha hr
      obtain ⟨-, hlist, hmore⟩ := listed_run ha' hr'
      rw [hnew]
      exact ⟨hmade.begun_state (hmade.opened p hp), hlist, hmore⟩

/-- One request at most is in flight for a category. -/
theorem single_run (name : String) (hr : program.run start es = some w) :
    (PexelsCategory.guard name).Single ((notifiers.part name).see w) := by
  obtain ⟨es', hr'⟩ := (containsCategory name fun _ _ _ => True).run_all
    (fun t _ _ => by cases t <;> trivial) hr
  exact Program.run_inv (fun _ _ _ h hs => PexelsCategory.single_step h hs)
    single_fresh_category hr'

/-- The notifier loads while a request for the category is in flight. -/
theorem loading_iff (name : String) (hr : program.run start es = some w) :
    (notifiers.state name w.shared).state.isLoading = true ↔ ∃ f, .category name f ∈ w.tasks := by
  have hreq : (PexelsCategory.guard name).requests ((notifiers.part name).see w).tasks =
      (notifiers.part name).tasks w.tasks := List.filter_true _
  rcases single_run name hr with ⟨hnone, hidle, -⟩ | ⟨f, hf, hload, -⟩
  · rw [hreq] at hnone
    refine ⟨fun hload => absurd (hidle.symm.trans hload) Bool.false_ne_true, ?_⟩
    rintro ⟨f, hf⟩
    have hmem := (mem_tasks_part (F := notifiers)).mpr hf
    rw [hnone] at hmem
    cases hmem
  · rw [hreq] at hf
    refine ⟨fun _ => ⟨f, (mem_tasks_part (F := notifiers)).mp ?_⟩, fun _ => hload⟩
    rw [hf]
    exact List.mem_singleton_self f

/-- **The pages tell the truth**: whatever is opened, closed and tapped and whatever fails, a page
that says that there are no wallpapers is right, one that has no tile to load more shows all, and
one that is built from the present state shows the skeleton only while a request is in flight. -/
theorem pages_tell_truth (searches : Results) (es : List (Event Call Answer)) (w : World State Task)
    (ha : program.Each (Meets (OfCategory (AnswersFrom searches))) start es)
    (hr : program.run start es = some w) (p : Page) (hp : p ∈ w.shared.pages) :
    Truthful (categoryResults searches p.categoryName) (build p.built) ∧
    (p.built = (notifiers.state p.categoryName w.shared).state → build p.built = .skeleton →
      ∃ f, .category p.categoryName f ∈ w.tasks) := by
  refine ⟨truthful_build (told_run es ha hr p hp), fun hnow hskeleton => ?_⟩
  refine (loading_iff p.categoryName hr).mp ?_
  rw [← hnow]
  unfold build at hskeleton
  split_ifs at hskeleton with hload
  · exact (Bool.and_eq_true_iff.mp hload).1
  · split at hskeleton <;> cases hskeleton

end Truth

/-- A category with one photo, and a frame after its answer. -/
def natureOpened : List (Event Call Answer) :=
  [.call (.push "Nature"), .resume 0 (.wallpapers [sampleWallpaper "a" "pexels"]), .call .frame]

theorem natureOpened_answers :
    program.Each (Meets (OfCategory (AnswersFrom oneResult))) start natureOpened := by
  refine (Program.each_cons rfl).mpr ⟨meets_call, ?_⟩
  refine (Program.each_cons rfl).mpr ⟨meets_of_task rfl rfl, ?_⟩
  exact (Program.each_cons rfl).mpr ⟨meets_call, trivial⟩

theorem nature_tells_truth : ∃ w p, program.run start natureOpened = some w ∧ p ∈ w.shared.pages ∧
    build p.built = .grid [sampleWallpaper "a" "pexels"] false ∧
    Truthful (categoryResults oneResult p.categoryName) (build p.built) ∧
    (p.built = (notifiers.state p.categoryName w.shared).state → build p.built = .skeleton →
      ∃ f, .category p.categoryName f ∈ w.tasks) :=
  ⟨_, _, rfl, List.mem_cons_self, rfl,
    pages_tell_truth oneResult natureOpened _ natureOpened_answers rfl _ List.mem_cons_self⟩

/-! ### When a page is final -/

/-- The page says that there are no wallpapers, or it shows a grid with no tile to load more; and no
load runs. -/
def Ended (x : PexelsWallpapersState) : Prop :=
  x.hasMore = false ∧ x.isLoading = false ∧ (x.error = none ∨ x.wallpapers ≠ [])

section Final

variable {name : String} {c : PexelsCategory.State} {s : State} {w v : World State Task}
  {e : Event Call Answer} {es : List (Event Call Answer)}

theorem Ended.not_failed {x : PexelsWallpapersState} (h : Ended x) (error : String) :
    build x ≠ .failed error := by
  obtain ⟨-, hidle, hshown⟩ := h
  unfold build
  rw [hidle, Bool.false_and, if_neg Bool.false_ne_true]
  split_ifs with hempty
  · have hnone : x.error = none :=
      hshown.resolve_right fun hsome => hsome (List.isEmpty_iff.mp hempty)
    rw [hnone]
    nofun
  · nofun

/-- The notifier of a category has the state `c`, and all its pages are built from it. -/
structure Settled (name : String) (c : PexelsCategory.State) (s : State) : Prop where
  notifier : notifiers.made s name = some c
  built : ∀ p ∈ s.pages, p.categoryName = name → p.built = c.state

theorem elsewhere_search (rs : List PexelsSearch.Search) :
    ∀ t ∈ rs.map .search, notifiers.Elsewhere name t := by
  intro t ht f
  obtain ⟨r, -, rfl⟩ := List.mem_map.mp ht
  exact fun hf => by cases hf

theorem settled_frame (h : notifiers.made s name = some c) : Settled name c (frame s) where
  notifier := h
  built p hp hname := by
    obtain ⟨q, -, rfl⟩ := List.mem_map.mp hp
    obtain rfl : q.categoryName = name := hname
    exact congrArg PexelsCategory.State.state (state_of_made h)

/-- Another category is called, or answered. -/
theorem settled_after (h : Settled name c s) {name' : String} (hn : name ≠ name')
    (x : PexelsCategory.State × List PexelsCategory.Fetch) :
    Turn (Settled name c) (notifiers.Elsewhere name) (notifiers.after name' s x) :=
  ⟨⟨(made_after_other hn x).trans h.notifier, h.built⟩, elsewhere_after hn x⟩

theorem settled_push (h : Settled name c s) (name' : String) :
    Turn (Settled name c) (notifiers.Elsewhere name) (push name' s) := by
  obtain ⟨hmade, htasks⟩ := watch_elsewhere (F := notifiers) (P := PexelsCategory.program)
    (j := name') (s := opened name' s) (.loadCategoryWallpapers false)
    (congrArg Option.isSome h.notifier)
  have hframe := settled_frame (hmade.trans h.notifier)
  exact ⟨⟨hframe.notifier, hframe.built⟩,
    List.forall_mem_append.mpr ⟨htasks, elsewhere_search _⟩⟩

theorem settled_retry (hc : Ended c.state) (h : Settled name c s) :
    Turn (Settled name c) (notifiers.Elsewhere name) (retry s) := by
  unfold retry
  split
  · exact turn_nil h
  · next p ps hp =>
    split
    · next error hfailed =>
      refine settled_after h (fun hn => ?_) _
      rw [h.built p (hp ▸ List.mem_cons_self) hn.symm] at hfailed
      exact hc.not_failed error hfailed
    · exact turn_nil h

theorem settled_scrolledToEnd (hc : Ended c.state) (h : Settled name c s) :
    Turn (Settled name c) (notifiers.Elsewhere name) (scrolledToEnd s) := by
  unfold scrolledToEnd
  split
  · exact turn_nil h
  · next p ps hp =>
    split
    · split_ifs with hmore
      · refine settled_after h (fun hn => ?_) _
        rw [h.built p (hp ▸ List.mem_cons_self) hn.symm, hc.1] at hmore
        cases hmore
      · exact turn_nil h
    · exact turn_nil h

theorem eachTurn_settled (hc : Ended c.state) :
    EachTurn program (fun _ _ _ => True) (Settled name c) (notifiers.Elsewhere name) where
  call k s h := by
    cases k with
    | push name' => exact settled_push h name'
    | pop => exact turn_nil ⟨h.notifier, fun p hp => h.built p (List.mem_of_mem_tail hp)⟩
    | frame => exact turn_nil (settled_frame h.notifier)
    | retry => exact settled_retry hc h
    | scrolledToEnd => exact settled_scrolledToEnd hc h
  resume t a s x h ht _ hr := by
    cases t with
    | category name' f =>
      obtain ⟨y, -, rfl⟩ := Option.map_eq_some_iff.mp hr
      refine settled_after h (fun hn => ?_) y
      exact ht f (by rw [hn]; rfl)
    | search r =>
      obtain ⟨y, -, rfl⟩ := Option.map_eq_some_iff.mp hr
      exact ⟨⟨h.notifier, h.built⟩, elsewhere_search y.2⟩

/-- No page of the category that is open at any later time is built from anything else. -/
def Final (w : World State Task) (name : String) (x : PexelsWallpapersState) : Prop :=
  ∀ es w', program.run w es = some w' → ∀ p ∈ w'.shared.pages, p.categoryName = name → p.built = x

/-- A final page shows what its notifier has after any step that closes no page. -/
theorem Final.after {x : PexelsWallpapersState} (h : Final w name x)
    (hs : program.step w e = some v) {p : Page} (hp : p ∈ v.shared.pages)
    (hname : p.categoryName = name) : (notifiers.state name v.shared).state = x := by
  have hrun : program.run w [e, .call .frame] = some ⟨frame v.shared, v.tasks ++ []⟩ := by
    rw [Program.run_cons, hs]
    rfl
  exact hname ▸ h _ _ hrun { p with built := (notifiers.state p.categoryName v.shared).state }
    (List.mem_map_of_mem hp) hname

/-- No load runs: its failure would be seen. -/
theorem Final.idle {x : PexelsWallpapersState} (h : Final w name x)
    (hr : program.run start es = some w) {p : Page} (hp : p ∈ w.shared.pages)
    (hname : p.categoryName = name) (hx : (notifiers.state name w.shared).state = x) :
    x.isLoading = false := by
  rw [← Bool.not_eq_true]
  intro hload
  obtain ⟨f, hf⟩ := (loading_iff name hr).mp (hx ▸ hload)
  obtain ⟨l, r, ht⟩ := List.append_of_mem hf
  obtain ⟨s, ts⟩ := w
  obtain rfl : ts = l ++ .category name f :: r := ht
  have hs : program.step ⟨s, l ++ .category name f :: r⟩ (.resume l.length (.exception "")) =
      some ⟨notifiers.put name (PexelsCategory.applyError "" (notifiers.state name s)) s,
        l ++ [] ++ r⟩ := Program.step_resume_of rfl
  have hafter := h.after hs hp hname
  rw [state_put_self] at hafter
  rw [← hafter] at hload
  cases hload

/-- A tap that loads would be seen. -/
theorem Final.not_loads {x : PexelsWallpapersState} (h : Final w name x) {k : Call} {p : Page}
    {ps : List Page} (hp : w.shared.pages = p :: ps) (hname : p.categoryName = name)
    (hidle : x.isLoading = false) (refresh : Bool)
    (hk : (program.call k w.shared).1 = notifiers.put name
      (PexelsCategory.loadCategoryWallpapers name refresh (notifiers.state name w.shared)).1
      w.shared) : False := by
  have hmem : p ∈ (program.call k w.shared).1.pages := by
    rw [hk]
    exact hp ▸ List.mem_cons_self
  have hafter := h.after (Program.step_call k) hmem hname
  rw [hk, state_put_self] at hafter
  rw [← hafter, loading_load] at hidle
  cases hidle

/-- After a frame the pages are built from what the notifiers have. -/
theorem built_frame (hr : program.run start (es ++ [.call .frame]) = some w) :
    ∀ p ∈ w.shared.pages, p.built = (notifiers.state p.categoryName w.shared).state := by
  intro p hp
  rw [Program.run_concat] at hr
  obtain ⟨v, -, hs⟩ := Option.bind_eq_some_iff.mp hr
  obtain rfl := Option.some.inj hs
  obtain ⟨q, -, rfl⟩ := List.mem_map.mp hp
  rfl

/-- A final page has no button to press. -/
theorem Final.no_retry {p : Page} {ps : List Page} (h : Final w p.categoryName p.built)
    (hp : w.shared.pages = p :: ps) (hidle : p.built.isLoading = false) :
    p.built.error = none ∨ p.built.wallpapers ≠ [] := by
  by_contra hno
  obtain ⟨herror, hempty⟩ := not_or.mp hno
  obtain ⟨error, herror⟩ := Option.ne_none_iff_exists'.mp herror
  have hview : build p.built = .failed error := by
    simp [build, hidle, not_not.mp hempty, herror]
  refine h.not_loads (k := .retry) hp rfl hidle true ?_
  simp only [program, retry, hp, hview]
  rfl

/-- A final page has no grid to scroll on. -/
theorem Final.no_more {p : Page} {ps : List Page} (h : Final w p.categoryName p.built)
    (hp : w.shared.pages = p :: ps) (hidle : p.built.isLoading = false)
    (hnow : p.built = (notifiers.state p.categoryName w.shared).state) (hbegun : Begun p.built) :
    p.built.hasMore = false := by
  rw [← Bool.not_eq_true]
  intro hmore
  have hwallpapers : p.built.wallpapers ≠ [] := by
    intro hnone
    rcases hbegun hmore hnone with hload | hfail
    · rw [hidle] at hload
      cases hload
    · rw [(h.no_retry hp hidle).resolve_right fun hne => hne hnone] at hfail
      cases hfail
  have hview : build p.built = .grid p.built.wallpapers p.built.hasMore := by
    simp [build, hwallpapers]
  have hcall : (PexelsCategory.program p.categoryName).call .loadMore
      (notifiers.state p.categoryName w.shared) = PexelsCategory.loadCategoryWallpapers
        p.categoryName false (notifiers.state p.categoryName w.shared) := by
    simp [PexelsCategory.program, ← hnow, hmore, hidle]
  refine h.not_loads (k := .scrolledToEnd) hp rfl hidle false ?_
  simp only [program, scrolledToEnd, hp, hview, hmore, hidle, Bool.not_false, Bool.and_self,
    if_true, callCategory, call, hcall]
  rfl

/-- What has ended stays, for all pages of the category. -/
theorem Ended.final (hr : program.run start es = some w)
    (hmade : notifiers.made w.shared name = some (notifiers.state name w.shared))
    (hbuilt : ∀ p ∈ w.shared.pages, p.categoryName = name →
      p.built = (notifiers.state name w.shared).state)
    (h : Ended (notifiers.state name w.shared).state) :
    Final w name (notifiers.state name w.shared).state := by
  intro es' w' hr' p hp hname
  have htasks : ∀ t ∈ w.tasks, notifiers.Elsewhere name t := by
    rintro t ht f rfl
    have hload := (loading_iff name hr).mpr ⟨f, ht⟩
    rw [h.2.1] at hload
    cases hload
  have hend := (eachTurn_settled h).run ⟨⟨hmade, hbuilt⟩, htasks⟩
    (each_meets (fun _ _ _ => trivial) _ _) hr'
  exact hend.1.built p hp hname

/-- **When a page is final**: after a frame, the page on top will never show anything else, nor will
any other page of its category, however often it is closed and opened again, exactly when it says
that there are no wallpapers, or shows a grid that offers no more, and loads nothing. -/
theorem page_final_iff (es : List (Event Call Answer)) (w : World State Task)
    (hr : program.run start (es ++ [.call .frame]) = some w) (p : Page) (ps : List Page)
    (hp : w.shared.pages = p :: ps) : Final w p.categoryName p.built ↔ Ended p.built := by
  have hmade := made_run hr
  have hfirst : p ∈ w.shared.pages := hp ▸ List.mem_cons_self
  have hsome := hmade.opened p hfirst
  have hbuilt := built_frame hr
  have hnow := hbuilt p hfirst
  constructor
  · intro h
    have hidle := h.idle hr hfirst rfl hnow.symm
    exact ⟨h.no_more hp hidle hnow (hnow ▸ hmade.begun_state hsome), hidle, h.no_retry hp hidle⟩
  · intro h
    rw [hnow] at h ⊢
    refine h.final hr (made_of_isSome hsome) fun q hq hname => ?_
    rw [hbuilt q hq, hname]

/-- A category without results. -/
def emptyCategory : List (Event Call Answer) :=
  [.call (.push "Nature"), .resume 0 (.wallpapers []), .call .frame]

theorem empty_category_final : ∃ w p, program.run start emptyCategory = some w ∧
    w.shared.pages = [p] ∧ build p.built = .noWallpapers ∧
    (Final w p.categoryName p.built ↔ Ended p.built) ∧ Ended p.built :=
  ⟨_, _, rfl, rfl, rfl,
    page_final_iff [.call (.push "Nature"), .resume 0 (.wallpapers [])] _ rfl _ [] rfl,
    rfl, rfl, Or.inl rfl⟩

end Final

end PixsBliss.Pages.CategoryPage
