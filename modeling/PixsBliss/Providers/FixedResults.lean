import PixsBliss.Providers.FeedPages
import PixsBliss.Providers.PexelsCategory

/-! # Feeds over results that stay the same

Let every search have results that do not change, and let a request be answered with its page of
them, or fail.

* `category_shows_results`: a category then shows the beginning of its results, and stops at their
  end.
* `scroll_loads_all`: a user who scrolls on gets there, in as many loads as there are pages.
* `trending_shown_iff`: the trending feed takes another term for every page, so of each term it can
  only ever show every fifth page. -/

namespace PixsBliss.Providers.FixedResults

open PixsBliss.Lib.Async PixsBliss.Lib.Flight PixsBliss.Lib.Pages PixsBliss.Models
open PixsBliss.Models.Json PixsBliss.Services.Cache PixsBliss.Services.PexelsApiService

/-- The results of every search, and without a query the curated list. -/
abbrev Results := Option String → List Wallpaper

/-- The answer to a request. -/
def serve (results : Results) (r : Request) : List Wallpaper :=
  chunk r.perPage (results r.query) r.page

/-- Every search finds one photo. -/
def oneResult : Results := fun _ => [sampleWallpaper "a" "pexels"]

/-! ### A category -/

section Category

open PixsBliss.Providers.PexelsCategory

/-- A page of the results, or a failure. -/
def AnswersFrom (results : Results) : Fetch → Answer → State → Prop
  | f, .wallpapers ws, _ => ws = serve results f.request
  | _, .exception _, _ => True

/-- The results of the search for a category. -/
def categoryResults (results : Results) (categoryId : String) : List Wallpaper :=
  results (getWallpapersByCategory categoryId 1 80).query

/-- **The list is the beginning of the results**, and there is more unless the last page was not
full. -/
structure Listed (results : List Wallpaper) (s : State) : Prop where
  list : s.state.wallpapers = results.take (80 * (s.state.currentPage - 1))
  more : s.state.hasMore = true ↔ 80 * (s.state.currentPage - 1) ≤ results.length

variable {results : List Wallpaper} {searches : Results} {categoryId : String}
  {w w' : World State Fetch} {e : Event Call Answer} {s : State}

theorem listed_load (h : Listed results s) (refresh : Bool) :
    Listed results (loadCategoryWallpapers categoryId refresh s).1 := by
  unfold loadCategoryWallpapers
  by_cases hload : s.state.isLoading = true
  · rw [if_pos hload]
    exact h
  · rw [if_neg hload]
    exact ⟨h.list, h.more⟩

theorem listed_call (h : Listed results s) (k : Call) :
    Listed results ((program categoryId).call k s).1 := by
  cases k with
  | loadCategoryWallpapers refresh => exact listed_load h refresh
  | refresh => exact listed_load h true
  | loadMore =>
    simp only [program]
    split_ifs
    · exact listed_load h false
    · exact h

/-- A page of the results keeps the invariant. -/
theorem listed_applyPage {f : Fetch} (h : Listed results s) (hpos : 1 ≤ s.state.currentPage)
    (hpage : f.page = if f.refresh then 1 else s.state.currentPage) :
    Listed results (applyPage f (chunk 80 results f.page) s) := by
  cases hr : f.refresh with
  | true =>
    obtain hone : f.page = 1 := by rw [hpage, hr, if_pos rfl]
    have hfull : (!(chunk 80 results 1).isEmpty &&
        decide (80 ≤ (chunk 80 results 1).length)) = true ↔ 80 * 1 ≤ results.length :=
      (more_iff _).trans (full_chunk_iff le_rfl (by decide))
    refine ⟨?_, ?_⟩
    · simp [applyPage, hr, hone, chunk]
    · simpa [applyPage, hr, hone] using hfull
  | false =>
    obtain hcur : f.page = s.state.currentPage := by rw [hpage, hr, if_neg Bool.false_ne_true]
    refine ⟨?_, ?_⟩
    · have hnext : pages (chunk 80 results) (s.state.currentPage - 1) ++
          chunk 80 results s.state.currentPage = pages (chunk 80 results) s.state.currentPage :=
        pages_pred_append hpos
      rw [pages_chunk, pages_chunk, ← h.list] at hnext
      simpa [applyPage, hr, hcur] using hnext
    · simp only [applyPage, hr, hcur, Bool.false_eq_true, if_false, Nat.add_sub_cancel]
      exact (more_iff _).trans (full_chunk_iff hpos (by decide))

theorem listed_step (hs : (guard categoryId).Single w)
    (h : Listed (categoryResults searches categoryId) w.shared)
    (ha : Meets (AnswersFrom searches) w e w') (hstep : (program categoryId).step w e = some w') :
    Listed (categoryResults searches categoryId) w'.shared := by
  rcases Program.step_cases hstep with ⟨k, rfl, rfl⟩ | ⟨l, f, r, a, s, ts, rfl, ht, hr, rfl⟩
  · exact listed_call h k
  · have hans := (meets_resume ht).mp ha
    obtain ⟨hpaged, hrequest, hpage, -⟩ := hs.fits (t := f) (by simp [ht]) rfl
    cases a with
    | wallpapers ws =>
      obtain rfl := congrArg Prod.fst (Option.some.inj hr)
      obtain rfl : ws = chunk 80 (categoryResults searches categoryId) f.page :=
        hans.trans (by rw [hrequest]; rfl)
      exact listed_applyPage h hpaged.page_pos hpage
    | exception text =>
      obtain rfl := congrArg Prod.fst (Option.some.inj hr)
      exact ⟨h.list, h.more⟩

theorem single_fresh_category : (guard categoryId).Single fresh :=
  Or.inl ⟨rfl, rfl, le_rfl, rfl, by simp [fresh]⟩

theorem listed_fresh : Listed results fresh.shared := ⟨rfl, by simp [fresh]⟩

/-- Both invariants along a run. -/
theorem listed_run {es : List (Event Call Answer)}
    (ha : (program categoryId).Each (Meets (AnswersFrom searches)) fresh es)
    (hr : (program categoryId).run fresh es = some w) :
    (guard categoryId).Single w ∧ Listed (categoryResults searches categoryId) w.shared :=
  Program.run_inv_of_each
    (I := fun w =>
      (guard categoryId).Single w ∧ Listed (categoryResults searches categoryId) w.shared)
    (fun _ _ _ h ha hs => ⟨single_step h.1 hs, listed_step h.1 h.2 ha hs⟩)
    ⟨single_fresh_category, listed_fresh⟩ ha hr

/-- **A category shows the beginning of its results**: along every run, whatever fails and however
often it is refreshed, `currentPage - 1` pages of them, none twice and none left out; and once
`hasMore` is down, all of them. -/
theorem category_shows_results (categoryId : String) (searches : Results)
    (es : List (Event Call Answer)) (w : World State Fetch)
    (ha : (program categoryId).Each (Meets (AnswersFrom searches)) fresh es)
    (hr : (program categoryId).run fresh es = some w) :
    w.shared.state.wallpapers =
      (categoryResults searches categoryId).take (80 * (w.shared.state.currentPage - 1)) ∧
    (w.shared.state.hasMore = true ↔
      80 * (w.shared.state.currentPage - 1) ≤ (categoryResults searches categoryId).length) ∧
    (w.shared.state.hasMore = false →
      w.shared.state.wallpapers = categoryResults searches categoryId) := by
  obtain ⟨-, hlist, hmore⟩ := listed_run ha hr
  refine ⟨hlist, hmore, fun hnone => ?_⟩
  rw [hlist]
  exact take_of_not_full fun hle => by rw [hmore.mpr hle] at hnone; cases hnone

/-- The load of the constructor. -/
def firstLoad : List (Event Call Answer) :=
  [.call (.loadCategoryWallpapers false), .resume 0 (.wallpapers [sampleWallpaper "a" "pexels"])]

theorem firstLoad_answers :
    (program "Nature").Each (Meets (AnswersFrom oneResult)) fresh firstLoad := by
  refine (Program.each_cons rfl).mpr ⟨meets_call, ?_⟩
  refine (Program.each_cons rfl).mpr ⟨meets_of_task rfl rfl, ?_⟩
  trivial

theorem category_shows_one : ∃ w, (program "Nature").run fresh firstLoad = some w ∧
    w.shared.state.wallpapers = (categoryResults oneResult "Nature").take
      (80 * (w.shared.state.currentPage - 1)) ∧
    (w.shared.state.hasMore = true ↔
      80 * (w.shared.state.currentPage - 1) ≤ (categoryResults oneResult "Nature").length) ∧
    (w.shared.state.hasMore = false →
      w.shared.state.wallpapers = categoryResults oneResult "Nature") :=
  ⟨_, rfl, category_shows_results "Nature" oneResult firstLoad _ firstLoad_answers rfl⟩

/-- The events of `n` loads that are answered, from a page on. -/
def scroll (results : List Wallpaper) (page : ℕ) : ℕ → List (Event Call Answer)
  | 0 => []
  | n + 1 => .call .loadMore :: .resume 0 (.wallpapers (chunk 80 results page)) ::
      scroll results (page + 1) n

/-- One load that is answered. -/
theorem run_loadMore (results : List Wallpaper) (categoryId : String)
    (hload : s.state.isLoading = false) (hmore : s.state.hasMore = true)
    (es : List (Event Call Answer)) : ∃ f s₁, f.page = s.state.currentPage ∧ f.refresh = false ∧
      s₁.state = { s.state with isLoading := true, error := none } ∧
      (program categoryId).run ⟨s, []⟩ (.call .loadMore ::
        .resume 0 (.wallpapers (chunk 80 results s.state.currentPage)) :: es) =
      (program categoryId).run ⟨applyPage f (chunk 80 results s.state.currentPage) s₁, []⟩ es := by
  refine ⟨⟨s.state.currentPage, getWallpapersByCategory categoryId s.state.currentPage 80, false,
    s.state⟩, { s with state := { s.state with isLoading := true, error := none } },
    rfl, rfl, rfl, ?_⟩
  simp [Program.run_cons, Program.step, program, loadCategoryWallpapers, hload, hmore]

/-- The loads up to the end, by induction on their number. -/
theorem run_scroll : ∀ (n : ℕ) (s : State), results.length / 80 + 2 - s.state.currentPage = n →
    s.state.isLoading = false → 1 ≤ s.state.currentPage → Listed results s →
    ∃ s', (program categoryId).run ⟨s, []⟩ (scroll results s.state.currentPage n) = some ⟨s', []⟩ ∧
      Listed results s' ∧ s'.state.hasMore = false
  | 0, s, hn, _, hpos, h => by
    refine ⟨s, rfl, h, ?_⟩
    rw [← Bool.not_eq_true, h.more]
    omega
  | n + 1, s, hn, hload, hpos, h => by
    have hmore : s.state.hasMore = true := h.more.mpr (by omega)
    obtain ⟨f, s₁, hpage, hrefresh, hs₁, hrun⟩ :=
      run_loadMore results categoryId hload hmore (scroll results (s.state.currentPage + 1) n)
    have hsame : s₁.state.currentPage = s.state.currentPage := by rw [hs₁]
    have hlisted : Listed results s₁ := ⟨by rw [hs₁]; exact h.list, by rw [hs₁]; exact h.more⟩
    have hnext : Listed results (applyPage f (chunk 80 results f.page) s₁) :=
      listed_applyPage hlisted (hsame ▸ hpos)
        (by rw [hrefresh, if_neg Bool.false_ne_true, hpage, hsame])
    rw [hpage] at hnext
    have hcur : (applyPage f (chunk 80 results s.state.currentPage) s₁).state.currentPage =
        s.state.currentPage + 1 := by
      simp [applyPage, hrefresh, hsame]
    obtain ⟨s', hrun', hend⟩ := run_scroll n
      (applyPage f (chunk 80 results s.state.currentPage) s₁) (by omega) rfl (by omega) hnext
    rw [hcur] at hrun'
    exact ⟨s', hrun.trans hrun', hend⟩

/-- **Who scrolls on gets to the end**: from every state without a load in flight, as many loads as
there are pages left show all results, and no further one is offered. -/
theorem scroll_loads_all (categoryId : String) (searches : Results)
    (es : List (Event Call Answer)) (w : World State Fetch)
    (ha : (program categoryId).Each (Meets (AnswersFrom searches)) fresh es)
    (hr : (program categoryId).run fresh es = some w) (hidle : w.tasks = []) :
    ∃ w', (program categoryId).run w
        (scroll (categoryResults searches categoryId) w.shared.state.currentPage
          ((categoryResults searches categoryId).length / 80 + 2 -
            w.shared.state.currentPage)) = some w' ∧
      w'.tasks = [] ∧ w'.shared.state.wallpapers = categoryResults searches categoryId ∧
      w'.shared.state.hasMore = false := by
  obtain ⟨hsingle, hlisted⟩ := listed_run ha hr
  obtain ⟨s, ts⟩ := w
  obtain rfl : ts = [] := hidle
  have hload : s.state.isLoading = false := by
    rcases hsingle with ⟨-, hbusy, -⟩ | ⟨f, hf, -, -⟩
    · exact hbusy
    · cases hf
  obtain ⟨s', hrun, hend, hnone⟩ :=
    run_scroll _ s rfl hload (paged_of_single hsingle).page_pos hlisted
  refine ⟨⟨s', []⟩, hrun, rfl, ?_, hnone⟩
  rw [hend.list]
  exact take_of_not_full fun hle => by rw [hend.more.mpr hle] at hnone; cases hnone

theorem scroll_loads_one : ∃ w', (program "Nature").run fresh
      (scroll (categoryResults oneResult "Nature") 1 1) = some w' ∧
    w'.tasks = [] ∧ w'.shared.state.wallpapers = categoryResults oneResult "Nature" ∧
    w'.shared.state.hasMore = false :=
  scroll_loads_all "Nature" oneResult [] fresh trivial rfl rfl

end Category

/-! ### The trending feed -/

section Feed

open PixsBliss.Providers.PexelsFeed PixsBliss.Providers.FeedFlight PixsBliss.Providers.FeedPages

/-- A page of the results, or a failure. -/
def Served (searches : Results) : Task → Outcome → State → Prop
  | .fetching f, .answered (.wallpapers ws), _ => ws = serve searches f.request
  | _, _, _ => True

/-- Every fetch sends the request of its page. -/
def Requested (kind : FeedKind) (ts : List Task) : Prop :=
  ∀ f, .fetching f ∈ ts → f.request = kind.request f.page kind.perPage

variable {kind : FeedKind} {c : Codec} {searches : Results} {w w' : FWorld} {e : FEvent} {s : State}
  {ts : List Task}

theorem requested_nil : Requested kind [] := by
  intro f hf
  cases hf

theorem requested_finish (awaited : Bool) : Requested kind (finish awaited) := by
  intro f hf
  cases awaited <;> simp [finish] at hf

theorem requested_writeCache (awaited : Bool) (rest : List BoxOp) :
    Requested kind (writeCache awaited rest) := by
  cases rest with
  | nil => exact requested_finish awaited
  | cons op rest =>
    intro f hf
    simp [writeCache] at hf

theorem requested_fetch (refresh awaited : Bool) (s : State) :
    Requested kind (fetchAndUpdateWallpapers kind refresh awaited s).2 := by
  intro f hf
  obtain rfl := Task.fetching.inj (List.mem_singleton.mp hf)
  rfl

theorem requested_load (refresh : Bool) (now : DateTime) (s : State) :
    Requested kind (loadWallpapers kind c refresh now s).2 := by
  unfold loadWallpapers
  split_ifs
  · exact requested_nil
  · exact requested_fetch true false _
  · exact requested_fetch refresh true s

theorem requested_call (k : Call) (s : State) :
    Requested kind ((program kind c).call k s).2 := by
  cases k with
  | loadWallpapers refresh now => exact requested_load refresh now s
  | refresh =>
    intro f hf
    cases List.mem_singleton.mp hf
  | loadMore now =>
    simp only [program]
    split_ifs
    · exact requested_load false now s
    · exact requested_nil

theorem requested_resume {t : Task} {o : Outcome} {s' : State}
    (hr : (program kind c).resume t o s = some (s', ts)) : Requested kind ts := by
  simp only [program] at hr
  split at hr
  · obtain rfl := congrArg Prod.snd (Option.some.inj hr)
    simp only [applyPage]
    split
    · exact requested_finish _
    · exact requested_writeCache _ _
  · obtain rfl := congrArg Prod.snd (Option.some.inj hr)
    exact requested_finish _
  · obtain rfl := congrArg Prod.snd (Option.some.inj hr)
    exact requested_writeCache _ _
  · obtain rfl := congrArg Prod.snd (Option.some.inj hr)
    exact requested_finish _
  · obtain rfl := congrArg Prod.snd (Option.some.inj hr)
    exact requested_load _ _ _
  · obtain rfl := congrArg Prod.snd (Option.some.inj hr)
    exact requested_load _ _ _
  · obtain rfl := congrArg Prod.snd (Option.some.inj hr)
    exact requested_nil
  · cases hr

theorem requested_step (h : Requested kind w.tasks) (hs : (program kind c).step w e = some w') :
    Requested kind w'.tasks := by
  rcases Program.step_cases hs with ⟨k, rfl, rfl⟩ | ⟨l, t, r, o, s, ts, rfl, ht, hr, rfl⟩
  · intro f hf
    exact (List.mem_append.mp hf).elim (h f) (requested_call k _ f)
  · intro f hf
    rcases List.mem_append.mp hf with hf | hf
    · rcases List.mem_append.mp hf with hf | hf
      · exact h f (by simp [ht, hf])
      · exact requested_resume hr f hf
    · exact h f (by simp [ht, hf])

/-- The pages of a feed. -/
def feedPages (kind : FeedKind) (searches : Results) (page : ℕ) : List Wallpaper :=
  serve searches (kind.request page kind.perPage)

/-- **A feed shows its pages** along a run over fixed results. -/
theorem single_run {cache : CacheService} {es : List FEvent}
    (ha : (program kind c).Each (Meets (Served searches)) (fresh cache) es)
    (hb : (program kind c).Each (Meets (StartedOnPageOne (feedPages kind searches)))
      (fresh cache) es)
    (hr : (program kind c).run (fresh cache) es = some w) :
    (FeedFlight.guard (Shows (feedPages kind searches))).Single w := by
  have hinv : (FeedFlight.guard (Shows (feedPages kind searches))).Single w ∧
      Requested kind w.tasks := by
    refine Program.run_inv_of_each (I := fun w =>
      (FeedFlight.guard (Shows (feedPages kind searches))).Single w ∧ Requested kind w.tasks)
      (fun w e w' h hq hs => ?_) ⟨single_fresh shows_nil, requested_nil⟩
      (Program.each_and.mpr ⟨ha, hb⟩) hr
    obtain ⟨hsingle, hrequested⟩ := h
    refine ⟨single_step_of_law hsingle (keeps_of hsingle ?_ hq.2) hs, requested_step hrequested hs⟩
    intro i o t he hi
    have hserved := hq.1 i o t he hi
    unfold FeedPages.AnswersFrom
    split
    · next f ws =>
      have hws : ws = serve searches f.request := hserved
      rw [hws, hrequested f (List.mem_of_getElem? hi)]
      rfl
    · trivial
  exact hinv.1

/-- The term of a page. -/
def trendingTerm (page : ℕ) : String := popularTerms.getD (page % popularTerms.length) ""

theorem popularTerms_getElem? (page : ℕ) : popularTerms[page % 5]? = some (trendingTerm page) := by
  have hlt : page % 5 < popularTerms.length := Nat.mod_lt _ (by decide)
  have hget := List.getElem?_eq_getElem hlt
  show _ = some (popularTerms.getD (page % 5) "")
  rw [List.getD_eq_getElem?_getD, hget]
  rfl

/-- **Every fifth page**: without a fetch in flight, the trending feed shows of the results of each
term those on the loaded pages whose number leaves the place of the term modulo the number of terms,
and nothing else. -/
theorem trending_shown_iff (c : Codec) (searches : Results) (cache : CacheService)
    (es : List FEvent) (w : FWorld)
    (ha : (program pexelsTrendingWallpapersNotifier c).Each (Meets (Served searches))
      (fresh cache) es)
    (hb : (program pexelsTrendingWallpapersNotifier c).Each
      (Meets (StartedOnPageOne (feedPages pexelsTrendingWallpapersNotifier searches)))
      (fresh cache) es)
    (hr : (program pexelsTrendingWallpapersNotifier c).run (fresh cache) es = some w)
    (hidle : fetches w = []) (id : String) :
    id ∈ w.shared.state.wallpapers.map Wallpaper.id ↔
      ∃ place term j wallpaper, popularTerms[place]? = some term ∧
        (searches (some term))[j]? = some wallpaper ∧ wallpaper.id = id ∧
        (j / 20 + 1) % 5 = place ∧ j / 20 + 1 < w.shared.state.currentPage := by
  have hlaw := law_of_single (single_run ha hb hr) hidle
  rw [hlaw.2.mem_iff, List.mem_map]
  constructor
  · rintro ⟨wallpaper, hmem, hid⟩
    obtain ⟨page, hpos, hle, hmem⟩ := mem_pages.mp hmem
    obtain ⟨j, hj, hget⟩ := (mem_chunk hpos (by decide : 0 < 20)).mp hmem
    exact ⟨page % 5, _, j, wallpaper, popularTerms_getElem? page, hget, hid, by rw [hj], by omega⟩
  · rintro ⟨place, term, j, wallpaper, hterm, hget, hid, rfl, hlt⟩
    obtain rfl : trendingTerm (j / 20 + 1) = term :=
      Option.some.inj ((popularTerms_getElem? _).symm.trans hterm)
    have hchunk : wallpaper ∈ chunk 20 (searches (some (trendingTerm (j / 20 + 1)))) (j / 20 + 1) :=
      (mem_chunk (Nat.le_add_left 1 _) (by decide)).mpr ⟨j, rfl, hget⟩
    exact ⟨wallpaper, mem_pages.mpr ⟨j / 20 + 1, by omega, by omega, hchunk⟩, hid⟩

/-- The first load of the trending feed on a new device. -/
def firstTrendingLoad : List FEvent :=
  [.call (.loadWallpapers false ⟨0, true⟩),
    .resume 0 (.answered (.wallpapers [sampleWallpaper "a" "pexels"]))]

theorem firstTrendingLoad_served :
    (program pexelsTrendingWallpapersNotifier (sampleCodec ["a"])).Each (Meets (Served oneResult))
      (fresh (.opened .empty .empty .empty .empty)) firstTrendingLoad := by
  refine (Program.each_cons rfl).mpr ⟨meets_call, ?_⟩
  refine (Program.each_cons rfl).mpr ⟨meets_of_task rfl rfl, ?_⟩
  trivial

theorem firstTrendingLoad_started :
    (program pexelsTrendingWallpapersNotifier (sampleCodec ["a"])).Each
      (Meets (StartedOnPageOne (feedPages pexelsTrendingWallpapersNotifier oneResult)))
      (fresh (.opened .empty .empty .empty .empty)) firstTrendingLoad := by
  refine (Program.each_cons rfl).mpr ⟨meets_call, ?_⟩
  refine (Program.each_cons rfl).mpr ⟨meets_of_task rfl trivial, ?_⟩
  trivial

theorem trending_shown_one : ∃ w, (program pexelsTrendingWallpapersNotifier (sampleCodec ["a"])).run
      (fresh (.opened .empty .empty .empty .empty)) firstTrendingLoad = some w ∧
    ("a" ∈ w.shared.state.wallpapers.map Wallpaper.id ↔
      ∃ place term j wallpaper, popularTerms[place]? = some term ∧
        (oneResult (some term))[j]? = some wallpaper ∧ wallpaper.id = "a" ∧
        (j / 20 + 1) % 5 = place ∧ j / 20 + 1 < w.shared.state.currentPage) :=
  ⟨_, rfl, trending_shown_iff (sampleCodec ["a"]) oneResult (.opened .empty .empty .empty .empty)
    firstTrendingLoad _ firstTrendingLoad_served firstTrendingLoad_started rfl rfl "a"⟩

end Feed

end PixsBliss.Providers.FixedResults
