import PixsBliss.Lib.Flight
import PixsBliss.Lib.Pages
import PixsBliss.Models.RoundTrip

/-! # The shared feed

`WallpapersNotifier` holds one list for all its feeds: `loadWallpapers` loads all wallpapers and
`loadWallpapersByCategory` those of a category, page by page, into the same list, with the same
page counter and under the same guard. A refresh empties the list before its request. Nothing in the
state says which feed the list is of, so a page that is loaded without refresh is appended to
whatever is there.

* `one_feed_of_extendsItsFeed`: in a run in which no such page is appended to pages of another feed
  the list is that of one feed whenever nothing is loading; where feeds share no wallpaper and have
  no empty page, in no other run.
* `feeds_mixed`: a grid is opened while another one is loading, and scrolled. -/

namespace PixsBliss.Providers.WallpapersNotifier

open PixsBliss.Lib.Async PixsBliss.Lib.Flight PixsBliss.Lib.Pages PixsBliss.Models

/-! ### The program -/

/-- What is loaded: all wallpapers, or those of a category. -/
inductive Feed
  | all
  | category (categoryId : String)
deriving DecidableEq

/-- The state that is shown. A `copyWith` keeps the fields it is not given, and `error: null` gives
nothing: an error stays until the next one. -/
structure WallpapersState where
  wallpapers : List Wallpaper := []
  isLoading : Bool := false
  hasMore : Bool := true
  error : Option String := none
  currentPage : ℕ := 1
deriving DecidableEq

/-- The notifier; the feed whose page was applied last is a ghost. -/
structure State where
  state : WallpapersState
  shown : Feed
deriving DecidableEq

/-- A request of the repository in flight. -/
structure Fetch where
  feed : Feed
  page : ℕ
  limit : ℕ
  refresh : Bool
deriving DecidableEq

/-- A page and whether there are more, or what was thrown. -/
inductive Answer
  | page (wallpapers : List Wallpaper) (hasMore : Bool)
  | exception (text : String)

inductive Call
  | loadWallpapers (refresh : Bool)
  | loadWallpapersByCategory (categoryId : String) (refresh : Bool)

/-- A new notifier. -/
def fresh : World State Fetch := ⟨⟨{}, .all⟩, []⟩

/-- The state a refresh starts from. -/
def reset (s : State) : State :=
  { s with state := { s.state with wallpapers := [], currentPage := 1, hasMore := true } }

/-- The body of both loads, up to the request. -/
def load (feed : Feed) (refresh : Bool) (s : State) : State × List Fetch :=
  if s.state.isLoading then (s, [])
  else
    let s := if refresh then reset s else s
    if !s.state.hasMore && !refresh then (s, [])
    else
      ({ s with state := { s.state with isLoading := true } },
        [⟨feed, if refresh then 1 else s.state.currentPage, 20, refresh⟩])

def loadWallpapers (refresh : Bool) (s : State) : State × List Fetch := load .all refresh s

def loadWallpapersByCategory (categoryId : String) (refresh : Bool) (s : State) :
    State × List Fetch :=
  load (.category categoryId) refresh s

/-- A load after a successful answer. -/
def applyPage (f : Fetch) (ws : List Wallpaper) (hasMore : Bool) (s : State) : State where
  state := { s.state with
    wallpapers := if f.refresh then ws else s.state.wallpapers ++ ws
    isLoading := false
    hasMore := hasMore
    currentPage := if f.refresh then 2 else s.state.currentPage + 1 }
  shown := f.feed

/-- The catch of a load. -/
def applyError (text : String) (s : State) : State :=
  { s with state := { s.state with isLoading := false, error := some text } }

/-- **The notifier.** -/
def program : Program State Fetch Call Answer where
  call
    | .loadWallpapers refresh, s => loadWallpapers refresh s
    | .loadWallpapersByCategory categoryId refresh, s =>
      loadWallpapersByCategory categoryId refresh s
  resume
    | f, .page ws hasMore, s => some (applyPage f ws hasMore s, [])
    | _, .exception text, s => some (applyError text s, [])

/-! ### Loads -/

/-- **What a load can do**: nothing, or send its request; a refresh always sends it if nothing is
loading. -/
theorem load_cases (feed : Feed) (refresh : Bool) (s : State) :
    ((refresh = true → s.state.isLoading = true) ∧ load feed refresh s = (s, [])) ∨
    (s.state.isLoading = false ∧ ∃ s', load feed refresh s =
        (s', [⟨feed, if refresh then 1 else s.state.currentPage, 20, refresh⟩]) ∧
      s'.state.isLoading = true ∧ s'.shown = s.shown ∧
      s'.state.wallpapers = (if refresh then [] else s.state.wallpapers) ∧
      s'.state.currentPage = if refresh then 1 else s.state.currentPage) := by
  unfold load
  by_cases hload : s.state.isLoading = true
  · exact Or.inl ⟨fun _ => hload, if_pos hload⟩
  · rw [if_neg hload]
    rw [Bool.not_eq_true] at hload
    by_cases href : refresh = true
    · obtain rfl := href
      exact Or.inr ⟨hload, _, rfl, rfl, rfl, rfl, rfl⟩
    · rw [Bool.not_eq_true] at href
      obtain rfl := href
      by_cases hmore : s.state.hasMore = true
      · refine Or.inr ⟨hload, { s with state := { s.state with isLoading := true } }, ?_, rfl, rfl,
          rfl, rfl⟩
        simp [hmore]
      · exact Or.inl ⟨Bool.noConfusion, by simp [hmore]⟩

/-- The feed a call loads, and whether it refreshes. -/
def Call.loads : Call → Feed × Bool
  | .loadWallpapers refresh => (.all, refresh)
  | .loadWallpapersByCategory categoryId refresh => (.category categoryId, refresh)

theorem call_eq (k : Call) (s : State) : program.call k s = load k.loads.1 k.loads.2 s := by
  cases k <;> rfl

/-! ### Whose pages the list holds -/

/-- A page that is answered is the page that was asked for. -/
def AnswersFrom (api : Feed → ℕ → List Wallpaper) : Fetch → Answer → State → Prop
  | f, .page ws _, _ => ws = api f.feed f.page
  | _, .exception _, _ => True

/-- **A page that is appended** is appended to pages of its feed, or to nothing. -/
def ExtendsItsFeed : Fetch → Answer → State → Prop
  | f, .page _ _, s => f.refresh = true ∨ s.state.currentPage = 1 ∨ s.shown = f.feed
  | _, .exception _, _ => True

instance (f : Fetch) (a : Answer) (s : State) : Decidable (ExtendsItsFeed f a s) := by
  cases a <;> unfold ExtendsItsFeed <;> infer_instance

/-- The list is the pages `1, …, currentPage - 1` of one feed. -/
def OneFeed (api : Feed → ℕ → List Wallpaper) (s : WallpapersState) : Prop :=
  ∃ feed, s.wallpapers = pages (api feed) (s.currentPage - 1)

/-- The law of the shown state. -/
def Law (api : Feed → ℕ → List Wallpaper) (s : WallpapersState) : Prop :=
  s.isLoading = false → OneFeed api s

/-- Feeds share no wallpaper, and no page is empty. -/
structure Separate (api : Feed → ℕ → List Wallpaper) : Prop where
  nonempty : ∀ feed i, 1 ≤ i → api feed i ≠ []
  feed_eq : ∀ feed feed' i j w, w ∈ api feed i → w ∈ api feed' j → feed = feed'

/-- The list is the pages of the feed that was applied last. -/
structure Shows (api : Feed → ℕ → List Wallpaper) (s : State) : Prop where
  page_pos : 1 ≤ s.state.currentPage
  list : s.state.wallpapers = pages (api s.shown) (s.state.currentPage - 1)

/-- One load at a time, over the pages of one feed. -/
def guard (api : Feed → ℕ → List Wallpaper) : Guard State Fetch where
  isRequest _ := true
  busy s := s.state.isLoading
  Idle := Shows api
  Fits f s := Shows api s ∧ f.page = if f.refresh then 1 else s.state.currentPage

section Steps

variable {api : Feed → ℕ → List Wallpaper} {w w' : World State Fetch} {e : Event Call Answer}
  {s s' : State} {f : Fetch}

theorem shows_of_first (hws : s.state.wallpapers = []) (hpage : s.state.currentPage = 1) :
    Shows api s := by
  refine ⟨hpage.ge, ?_⟩
  rw [hws, hpage]
  rfl

theorem turn_load (feed : Feed) (refresh : Bool) (s : State) :
    (guard api).Turn s (load feed refresh s).1 (load feed refresh s).2 := by
  rcases load_cases feed refresh s with ⟨-, h⟩ | ⟨hload, s', h, hload', hshown, hws, hpage⟩
  · rw [h]
    exact Or.inl ⟨rfl, rfl, id, fun _ => id⟩
  · rw [h]
    refine Or.inr ⟨hload, hload', fun hs => ⟨_, rfl, ?_, ?_⟩⟩
    · by_cases href : refresh = true
      · rw [if_pos href] at hws hpage
        exact shows_of_first hws hpage
      · rw [if_neg href] at hws hpage
        exact ⟨hpage ▸ hs.page_pos, by rw [hws, hpage, hshown]; exact hs.list⟩
    · rw [hpage]
      by_cases href : refresh = true
      · simp [href]
      · simp [href]

/-- **A page keeps the list one feed's** if it does not extend another feed. -/
theorem shows_applyPage (h : (guard api).Fits f s) (hmore : Bool)
    (hext : ExtendsItsFeed f (.page (api f.feed f.page) hmore) s) :
    Shows api (applyPage f (api f.feed f.page) hmore s) := by
  obtain ⟨hs, hpage⟩ := h
  by_cases href : f.refresh = true
  · rw [if_pos href] at hpage
    refine ⟨?_, ?_⟩
    · simp [applyPage, href]
    · simp [applyPage, href, hpage]
  · rw [if_neg href] at hpage
    have hlist : s.state.wallpapers = pages (api f.feed) (s.state.currentPage - 1) := by
      rcases hext with h | h | h
      · exact absurd h href
      · rw [hs.list, h]
        rfl
      · rw [← h]
        exact hs.list
    refine ⟨?_, ?_⟩
    · simp [applyPage, href]
    · simp only [applyPage, href, Bool.false_eq_true, if_false]
      rw [hlist, hpage, pages_pred_append hs.page_pos, Nat.add_sub_cancel]

theorem ends_answer {a : Answer} {ts : List Fetch} (hr : program.resume f a s = some (s', ts))
    (h : (guard api).Fits f s) (ha : AnswersFrom api f a s) (hext : ExtendsItsFeed f a s) :
    (guard api).Ends s' ts := by
  cases a with
  | page ws hasMore =>
    obtain ⟨rfl, rfl⟩ := Prod.mk.inj (Option.some.inj hr)
    obtain rfl : ws = api f.feed f.page := ha
    exact ⟨rfl, rfl, shows_applyPage h hasMore hext⟩
  | exception text =>
    obtain ⟨rfl, rfl⟩ := Prod.mk.inj (Option.some.inj hr)
    exact ⟨rfl, rfl, h.1.page_pos, h.1.list⟩

theorem single_step (h : (guard api).Single w) (ha : Meets (AnswersFrom api) w e w')
    (hext : Meets ExtendsItsFeed w e w') (hs : program.step w e = some w') :
    (guard api).Single w' := by
  refine Guard.single_step (C := fun f a s => AnswersFrom api f a s ∧ ExtendsItsFeed f a s)
    (fun k s => ?_) (fun _ _ _ _ _ hr => Bool.noConfusion hr)
    (fun f a s s' ts _ hr hfits hC => ends_answer hr hfits hC.1 hC.2) h
    (fun i a f he hi => ⟨ha i a f he hi, hext i a f he hi⟩) hs
  rw [call_eq]
  exact turn_load k.loads.1 k.loads.2 s

theorem law_of_single (h : (guard api).Single w) : Law api w.shared.state := fun hload =>
  ⟨w.shared.shown, (h.idle hload).list⟩

/-- Pages of one feed and a page of another are not the pages of any feed. -/
theorem not_oneFeed_append (hsep : Separate api) {feed feed' : Feed} (hne : feed ≠ feed') {page : ℕ}
    (hpage : 2 ≤ page) (g : Feed) :
    pages (api feed) (page - 1) ++ api feed' page ≠ pages (api g) page := by
  intro h
  obtain ⟨x, hx⟩ := List.exists_mem_of_ne_nil _ (hsep.nonempty feed 1 le_rfl)
  obtain ⟨y, hy⟩ := List.exists_mem_of_ne_nil _ (hsep.nonempty feed' page (by omega))
  have hxm : x ∈ pages (api g) page := by
    rw [← h, List.mem_append]
    exact Or.inl (mem_pages.mpr ⟨1, le_rfl, by omega, hx⟩)
  have hym : y ∈ pages (api g) page := by
    rw [← h, List.mem_append]
    exact Or.inr hy
  obtain ⟨i, -, -, hxi⟩ := mem_pages.mp hxm
  obtain ⟨j, -, -, hyj⟩ := mem_pages.mp hym
  have hfeed : feed = g := hsep.feed_eq feed g 1 i x hx hxi
  have hfeed' : feed' = g := hsep.feed_eq feed' g page j y hy hyj
  exact hne (hfeed.trans hfeed'.symm)

/-- The law after an answer finds a page that does not extend another feed. -/
theorem extendsItsFeed_of_law (hsep : Separate api) (h : (guard api).Single w)
    (ha : Meets (AnswersFrom api) w e w') (hs : program.step w e = some w')
    (hlaw : Law api w'.shared.state) : Meets ExtendsItsFeed w e w' := by
  rintro i a f rfl hi
  obtain ⟨l, r, s, ts, ht, hr, rfl⟩ := Program.step_resume_at hi hs
  have hfits : (guard api).Fits f w.shared := h.fits (by simp [ht]) rfl
  cases a with
  | exception text => trivial
  | page ws hasMore =>
    obtain ⟨rfl, rfl⟩ := Prod.mk.inj (Option.some.inj hr)
    obtain rfl : ws = api f.feed f.page := ha i _ f rfl hi
    by_contra hext
    unfold ExtendsItsFeed at hext
    push Not at hext
    obtain ⟨href, hpage, hne⟩ := hext
    obtain ⟨hshows, hfpage⟩ := hfits
    rw [if_neg href] at hfpage
    have hpos := hshows.page_pos
    obtain ⟨g, hg⟩ := hlaw rfl
    simp only [applyPage, href, Bool.false_eq_true, if_false, Nat.add_sub_cancel] at hg
    rw [hshows.list, hfpage] at hg
    exact not_oneFeed_append hsep hne (by omega) g hg

end Steps

/-! ### Runs -/

/-- **The list is of one feed** in every state without a load of a run in which no page is appended
to pages of another feed; where feeds share no wallpaper and have no empty page, only in such
runs. -/
theorem one_feed_of_extendsItsFeed (api : Feed → ℕ → List Wallpaper)
    (es : List (Event Call Answer)) (hapi : program.Each (Meets (AnswersFrom api)) fresh es) :
    (program.Each (Meets ExtendsItsFeed) fresh es →
      program.Each (fun _ _ w' => Law api w'.shared.state) fresh es) ∧
    (Separate api → program.Each (fun _ _ w' => Law api w'.shared.state) fresh es →
      program.Each (Meets ExtendsItsFeed) fresh es) := by
  have hstart : (guard api).Single fresh := Or.inl ⟨rfl, rfl, shows_of_first rfl rfl⟩
  constructor
  · intro hext
    refine Program.each_of_each (fun w e w' h hq hs => ?_) hstart
      (Program.each_and.mpr ⟨hapi, hext⟩)
    have h' : (guard api).Single w' := single_step h hq.1 hq.2 hs
    exact ⟨h', law_of_single h'⟩
  · intro hsep hlaw
    refine Program.each_of_each (fun w e w' h hq hs => ?_) hstart
      (Program.each_and.mpr ⟨hapi, hlaw⟩)
    have hext : Meets ExtendsItsFeed w e w' := extendsItsFeed_of_law hsep h hq.1 hs hq.2
    exact ⟨single_step h hq.1 hext hs, hext⟩

/-! ### Two grids -/

/-- An API with one wallpaper on each page; its description is the feed. -/
def sampleFeeds (feed : Feed) (page : ℕ) : List Wallpaper :=
  [{ sampleWallpaper (toString page) "api" with
      description := match feed with
        | .all => none
        | .category categoryId => some categoryId }]

theorem separate_sampleFeeds : Separate sampleFeeds where
  nonempty feed i _ := List.cons_ne_nil _ _
  feed_eq feed feed' i j w hi hj := by
    have h := List.mem_singleton.mp hi
    rw [List.mem_singleton.mp hj] at h
    have hd := congrArg Wallpaper.description h
    cases feed <;> cases feed' <;> simp_all

/-- The grid of a category is opened and scrolled. -/
def oneGrid : List (Event Call Answer) :=
  [.call (.loadWallpapersByCategory "nature" true),
    .resume 0 (.page (sampleFeeds (.category "nature") 1) true),
    .call (.loadWallpapersByCategory "nature" false),
    .resume 0 (.page (sampleFeeds (.category "nature") 2) true)]

/-- The grid of another category is opened while the first one is loading, and scrolled. -/
def twoGrids : List (Event Call Answer) :=
  [.call (.loadWallpapersByCategory "nature" true),
    .call (.loadWallpapersByCategory "city" true),
    .resume 0 (.page (sampleFeeds (.category "nature") 1) true),
    .call (.loadWallpapersByCategory "city" false),
    .resume 0 (.page (sampleFeeds (.category "city") 2) true)]

theorem one_feed_of_oneGrid :
    program.Each (fun _ _ w' => Law sampleFeeds w'.shared.state) fresh oneGrid ∧
    (program.Each (fun _ _ w' => Law sampleFeeds w'.shared.state) fresh oneGrid →
      program.Each (Meets ExtendsItsFeed) fresh oneGrid) := by
  have hapi : program.Each (Meets (AnswersFrom sampleFeeds)) fresh oneGrid := by
    refine (Program.each_cons rfl).mpr ⟨meets_call, ?_⟩
    refine (Program.each_cons rfl).mpr ⟨meets_of_task rfl rfl, ?_⟩
    refine (Program.each_cons rfl).mpr ⟨meets_call, ?_⟩
    exact (Program.each_cons rfl).mpr ⟨meets_of_task rfl rfl, trivial⟩
  have hext : program.Each (Meets ExtendsItsFeed) fresh oneGrid := by
    refine (Program.each_cons rfl).mpr ⟨meets_call, ?_⟩
    refine (Program.each_cons rfl).mpr ⟨meets_of_task rfl (by decide), ?_⟩
    refine (Program.each_cons rfl).mpr ⟨meets_call, ?_⟩
    exact (Program.each_cons rfl).mpr ⟨meets_of_task rfl (by decide), trivial⟩
  obtain ⟨hlaw, hconv⟩ := one_feed_of_extendsItsFeed sampleFeeds oneGrid hapi
  exact ⟨hlaw hext, hconv separate_sampleFeeds⟩

/-- **Feeds are mixed**: the refresh of the second grid is dropped by the guard, and its scroll
appends page 2 of its category to page 1 of the other one. -/
theorem feeds_mixed : program.Each (Meets (AnswersFrom sampleFeeds)) fresh twoGrids ∧
    ∃ w, program.run fresh twoGrids = some w ∧ w.tasks = [] ∧
      w.shared.state.wallpapers.map Wallpaper.description = [some "nature", some "city"] ∧
      w.shared.state.isLoading = false ∧ ¬ OneFeed sampleFeeds w.shared.state := by
  refine ⟨?_, _, rfl, rfl, rfl, rfl, ?_⟩
  · refine (Program.each_cons rfl).mpr ⟨meets_call, ?_⟩
    refine (Program.each_cons rfl).mpr ⟨meets_call, ?_⟩
    refine (Program.each_cons rfl).mpr ⟨meets_of_task rfl rfl, ?_⟩
    refine (Program.each_cons rfl).mpr ⟨meets_call, ?_⟩
    exact (Program.each_cons rfl).mpr ⟨meets_of_task rfl rfl, trivial⟩
  · rintro ⟨g, hg⟩
    have hne : Feed.category "nature" ≠ Feed.category "city" := by decide
    exact not_oneFeed_append separate_sampleFeeds hne le_rfl g hg

end PixsBliss.Providers.WallpapersNotifier
