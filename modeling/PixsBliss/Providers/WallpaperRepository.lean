import PixsBliss.Models.RoundTrip
import PixsBliss.Providers.CategoriesNotifier
import PixsBliss.Providers.SearchNotifier
import PixsBliss.Providers.WallpapersNotifier
import PixsBliss.Services.CacheWriters

/-! # The repository

`WallpaperRepository` sends the requests of the notifiers to the app's own API and decodes the
replies. A network error becomes a text, which is thrown; what a reply of another shape throws goes
through to the notifier.

* `grid_shows_server`: over an API that pages through fixed lists, a grid shows the beginning of
  the list of its feed, and knows when it has all of it. -/

namespace PixsBliss.Providers.WallpaperRepository

open PixsBliss.Lib.Async PixsBliss.Lib.Flight PixsBliss.Lib.Pages PixsBliss.Models
open PixsBliss.Models.Json PixsBliss.Providers.WallpapersNotifier
open PixsBliss.Services.CacheWriters (fromCache)

/-! ### Requests -/

/-- A `GET` of the API client. -/
structure ApiRequest where
  path : String
  queryParameters : DynMap

def getWallpapers (page limit : ℕ) : ApiRequest :=
  ⟨"/wallpapers", [("page", .int page), ("limit", .int limit)]⟩

def getWallpapersByCategory (categoryId : String) (page limit : ℕ) : ApiRequest :=
  ⟨"/wallpapers", [("category", .str categoryId), ("page", .int page), ("limit", .int limit)]⟩

def getCategories : ApiRequest := ⟨"/categories", []⟩

def searchWallpapers (query : String) : ApiRequest := ⟨"/wallpapers/search", [("q", .str query)]⟩

/-- The request of a load. -/
def requestOf (f : Fetch) : ApiRequest :=
  match f.feed with
  | .all => getWallpapers f.page f.limit
  | .category categoryId => getWallpapersByCategory categoryId f.page f.limit

/-! ### Replies -/

/-- The response of a `DioException`. -/
structure ErrorResponse where
  statusCode : Option ℤ
  data : Dyn

/-- How a request ends: with the decoded body, or with an exception of the client. -/
inductive Reply
  | response (data : Dyn)
  | dioException (type : DioExceptionType) (response : Option ErrorResponse)

/-- `e.response?.data['message'] ?? 'Something went wrong.'` -/
def messageOf : Option ErrorResponse → Result String
  | none => .ok "Something went wrong."
  | some r => do
    return (← orNull asString (← index "message" r.data)).getD "Something went wrong."

/-- `_handleError`. -/
def handleError (type : DioExceptionType) (response : Option ErrorResponse) : Result String :=
  match type with
  | .connectionTimeout | .sendTimeout | .receiveTimeout =>
    .ok "Connection timeout. Please check your internet connection."
  | .badResponse =>
    if response.bind ErrorResponse.statusCode = some 404 then .ok "Resource not found."
    else if response.bind ErrorResponse.statusCode = some 500 then
      .ok "Server error. Please try again later."
    else messageOf response
  | .cancel => .ok "Request was cancelled."
  | .unknown => .ok "No internet connection."
  | .badCertificate | .connectionError => .ok "Something went wrong."

/-- A body with a message that is a text, or without one. -/
def HasMessage (v : Dyn) : Prop :=
  ∃ m, v = .map m ∧ (field "message" m = .null ∨ ∃ s, field "message" m = .str s)

theorem messageOf_ok_iff {response : Option ErrorResponse} :
    (∃ text, messageOf response = .ok text) ↔ ∀ r ∈ response, HasMessage r.data := by
  cases response with
  | none => exact iff_of_true ⟨_, rfl⟩ nofun
  | some r =>
    simp only [messageOf, bind_eq_ok, index_ok_iff, Option.mem_some_iff, forall_eq', HasMessage]
    constructor
    · rintro ⟨text, _, ⟨m, hm, rfl⟩, o, ho, -⟩
      refine ⟨m, hm, ?_⟩
      cases hf : field "message" m with
      | null => exact Or.inl rfl
      | str s => exact Or.inr ⟨s, rfl⟩
      | _ => rw [hf] at ho; cases ho
    · rintro ⟨m, hm, hf | ⟨s, hf⟩⟩
      · exact ⟨_, _, ⟨m, hm, rfl⟩, none, by rw [hf]; rfl, rfl⟩
      · exact ⟨_, _, ⟨m, hm, rfl⟩, some s, by rw [hf]; rfl, rfl⟩

/-- **The handler throws itself** on exactly the responses with another status whose body has no
message that is a text. -/
theorem handleError_ok_iff (type : DioExceptionType) (response : Option ErrorResponse) :
    (∃ text, handleError type response = .ok text) ↔
      (type = .badResponse → response.bind ErrorResponse.statusCode ≠ some 404 →
        response.bind ErrorResponse.statusCode ≠ some 500 →
          ∀ r ∈ response, HasMessage r.data) := by
  cases type with
  | badResponse =>
    simp only [handleError, true_imp_iff]
    split_ifs with h404 h500
    · exact iff_of_true ⟨_, rfl⟩ fun h => absurd h404 h
    · exact iff_of_true ⟨_, rfl⟩ fun _ h => absurd h500 h
    · rw [messageOf_ok_iff]
      exact ⟨fun h _ _ => h, fun h => h h404 h500⟩
  | _ => exact iff_of_true ⟨_, rfl⟩ nofun

/-- What a notifier's catch is given: a text that was thrown, or the text of an error. -/
def thrownText (describe : DartError → String) (text : Result String) : String :=
  match text with
  | .ok text => text
  | .error e => describe e

/-! ### Decoding -/

/-- `as List` and `Wallpaper.fromJson` on its items. -/
def decodeWallpapers (c : Codec) (v : Dyn) : Result (List Wallpaper) := do
  (← asList v).mapM fun json => do Wallpaper.fromJson c (← asMap json)

/-- The map that a load is given. -/
structure Page where
  wallpapers : List Wallpaper
  hasMore : Dyn
  total : Dyn

/-- `v ?? w`. -/
def orElse (v w : Dyn) : Dyn := if isNull v then w else v

def decodePage (c : Codec) (reply : Dyn) : Result Page := do
  let data ← index "data" reply
  let wallpapers ← decodeWallpapers c (← index "wallpapers" data)
  return {
    wallpapers := wallpapers
    hasMore := orElse (← index "hasMore" data) (.bool false)
    total := orElse (← index "total" data) (.int 0) }

/-- `v ?? d`, as a text or a number. -/
def Category.fromJson (json : DynMap) : Result CategoriesNotifier.Category := do
  return {
    id := ← asString (orElse (field "_id" json) (.str ""))
    name := ← asString (orElse (field "name" json) (.str ""))
    description := ← asString (orElse (field "description" json) (.str ""))
    icon := ← orNull asString (field "icon" json)
    wallpaperCount := ← asInt (orElse (field "wallpaperCount" json) (.int 0)) }

def decodeCategories (reply : Dyn) : Result (List CategoriesNotifier.Category) := do
  (← asList (← index "data" reply)).mapM fun json => do Category.fromJson (← asMap json)

def decodeSearch (c : Codec) (reply : Dyn) : Result (List Wallpaper) := do
  decodeWallpapers c (← index "data" reply)

/-- What a load gets for a reply; it casts `hasMore` itself. -/
def pageAnswer (c : Codec) (describe : DartError → String) : Reply → WallpapersNotifier.Answer
  | .response data =>
    match do
      let page ← decodePage c data
      return (page.wallpapers, ← asBool page.hasMore) with
    | .ok (ws, hasMore) => .page ws hasMore
    | .error e => .exception (describe e)
  | .dioException type response => .exception (thrownText describe (handleError type response))

/-- What a search gets for a reply. -/
def searchAnswer (c : Codec) (describe : DartError → String) : Reply → SearchNotifier.Answer
  | .response data =>
    match decodeSearch c data with
    | .ok ws => .results ws
    | .error e => .exception (describe e)
  | .dioException type response => .exception (thrownText describe (handleError type response))

/-- What the load of the categories gets for a reply. -/
def categoriesAnswer (describe : DartError → String) : Reply → CategoriesNotifier.Answer
  | .response data =>
    match decodeCategories data with
    | .ok categories => .categories categories
    | .error e => .exception (describe e)
  | .dioException type response => .exception (thrownText describe (handleError type response))

/-! ### An API over fixed lists -/

/-- The body of a page. -/
def pageBody (c : Codec) (list : List Wallpaper) (page limit : ℕ) : Dyn :=
  .map [("data", .map
    [("wallpapers", .list ((chunk limit list page).map fun w => .map (w.toJson c))),
    ("hasMore", .bool (decide (limit * page < list.length))), ("total", .int list.length)])]

/-- The feed that a request asks for. -/
def feedOf (r : ApiRequest) : Feed :=
  match field "category" r.queryParameters with
  | .str categoryId => .category categoryId
  | _ => .all

/-- A number of a request. -/
def parameter (key : String) (r : ApiRequest) : ℕ :=
  match field key r.queryParameters with
  | .int n => n.toNat
  | _ => 0

/-- The reply to a request for a page. -/
def serve (c : Codec) (lists : Feed → List Wallpaper) (r : ApiRequest) : Reply :=
  .response (pageBody c (lists (feedOf r)) (parameter "page" r) (parameter "limit" r))

section Served

variable {c : Codec} {describe : DartError → String} {lists : Feed → List Wallpaper}
  {list : List Wallpaper} {f : Fetch}

theorem serve_requestOf (f : Fetch) :
    serve c lists (requestOf f) = .response (pageBody c (lists f.feed) f.page f.limit) := by
  obtain ⟨feed, page, limit, refresh⟩ := f
  cases feed <;> rfl

theorem decodeWallpapers_toJson (h : ∀ w ∈ list, ReadsBackDates c w) :
    decodeWallpapers c (.list (list.map fun w => .map (w.toJson c))) =
      .ok (list.map fromCache) := by
  rw [decodeWallpapers, asList_list, ok_bind, mapM_eq_ok, List.forall₂_map_left_iff,
    List.forall₂_map_right_iff, List.forall₂_same]
  intro w hw
  rw [asMap_map, ok_bind, Wallpaper.fromJson_toJson (h w hw)]
  rfl

theorem mem_of_mem_chunk {k p : ℕ} {w : Wallpaper} (h : w ∈ chunk k list p) : w ∈ list :=
  List.mem_of_mem_drop (List.mem_of_mem_take h)

/-- What a load is given for a page. -/
theorem pageAnswer_pageBody (h : ∀ w ∈ list, ReadsBackDates c w) (page limit : ℕ) :
    pageAnswer c describe (.response (pageBody c list page limit)) =
      .page ((chunk limit list page).map fromCache) (decide (limit * page < list.length)) := by
  have hlist : decodeWallpapers c
      (.list ((chunk limit list page).map fun w => .map (w.toJson c))) =
        .ok ((chunk limit list page).map fromCache) :=
    decodeWallpapers_toJson fun w hw => h w (mem_of_mem_chunk hw)
  simp [pageAnswer, decodePage, pageBody, index, field, orElse, isNull, hlist]

end Served

/-! ### A grid over it -/

/-- A load is answered by the API or by an exception of the client. -/
def ServedFrom (c : Codec) (describe : DartError → String) (lists : Feed → List Wallpaper) :
    Fetch → WallpapersNotifier.Answer → State → Prop
  | f, a, _ => a = pageAnswer c describe (serve c lists (requestOf f)) ∨
      ∃ type response, a = pageAnswer c describe (.dioException type response)

/-- The pages that the grid is given. -/
def gridPages (lists : Feed → List Wallpaper) (feed : Feed) (page : ℕ) : List Wallpaper :=
  (chunk 20 (lists feed) page).map fromCache

/-- `hasMore` is up at the start, and then as long as the list goes on. -/
def More (lists : Feed → List Wallpaper) (s : State) : Prop :=
  s.state.hasMore = true ↔
    s.state.currentPage = 1 ∨ 20 * (s.state.currentPage - 1) < (lists s.shown).length

/-- The invariant of the grid. -/
structure Inv (lists : Feed → List Wallpaper) (w : World State Fetch) : Prop where
  single : (guard (gridPages lists)).Single w
  limit : ∀ f ∈ w.tasks, f.limit = 20
  more : More lists w.shared

section Grid

variable {c : Codec} {describe : DartError → String} {lists : Feed → List Wallpaper}
  {w w' : World State Fetch} {e : Event Call WallpapersNotifier.Answer} {s : State} {f : Fetch}

theorem more_load (h : More lists s) (feed : Feed) (refresh : Bool) :
    More lists (load feed refresh s).1 := by
  unfold load
  by_cases hload : s.state.isLoading = true
  · rw [if_pos hload]
    exact h
  · rw [if_neg hload]
    cases refresh with
    | true => exact iff_of_true rfl (Or.inl rfl)
    | false =>
      by_cases hmore : s.state.hasMore = true
      · simpa [hmore, More] using h
      · simpa [hmore, More] using h

theorem limit_load (feed : Feed) (refresh : Bool) (s : State) :
    ∀ f ∈ (load feed refresh s).2, f.limit = 20 := by
  rcases load_cases feed refresh s with ⟨-, h⟩ | ⟨-, s', h, -⟩
  · rw [h]
    exact List.forall_mem_nil _
  · rw [h]
    exact List.forall_mem_singleton.mpr rfl

/-- The API gives the pages of the grid. -/
theorem answersFrom_of_served (hdates : ∀ feed, ∀ w ∈ lists feed, ReadsBackDates c w)
    (hlimit : f.limit = 20) {a : WallpapersNotifier.Answer}
    (h : ServedFrom c describe lists f a s) :
    (∃ text, a = .exception text) ∨
      a = .page (gridPages lists f.feed f.page) (decide (20 * f.page < (lists f.feed).length)) := by
  rcases h with rfl | ⟨type, response, rfl⟩
  · right
    rw [serve_requestOf, pageAnswer_pageBody (hdates f.feed), hlimit]
    rfl
  · exact Or.inl ⟨_, rfl⟩

/-- After a page `hasMore` says whether the list goes on. -/
theorem more_applyPage {ws : List Wallpaper} (hpos : 1 ≤ s.state.currentPage)
    (hpage : f.page = if f.refresh then 1 else s.state.currentPage) :
    More lists (applyPage f ws (decide (20 * f.page < (lists f.feed).length)) s) := by
  cases hr : f.refresh with
  | true =>
    have hone : f.page = 1 := by rw [hpage, hr, if_pos rfl]
    simp [More, applyPage, hr, hone]
  | false =>
    have hcur : f.page = s.state.currentPage := by rw [hpage, hr, if_neg Bool.false_ne_true]
    have hne : s.state.currentPage ≠ 0 := by omega
    simp [More, applyPage, hr, hcur, hne]

theorem inv_step (hdates : ∀ feed, ∀ w ∈ lists feed, ReadsBackDates c w) (h : Inv lists w)
    (ha : Meets (ServedFrom c describe lists) w e w') (hext : Meets ExtendsItsFeed w e w')
    (hs : program.step w e = some w') : Inv lists w' := by
  have hans : Meets (AnswersFrom (gridPages lists)) w e w' := by
    intro i a f he hi
    rcases answersFrom_of_served hdates (h.limit f (List.mem_of_getElem? hi)) (ha i a f he hi) with
      ⟨text, rfl⟩ | rfl
    · trivial
    · rfl
  refine ⟨single_step h.single hans hext hs, ?_, ?_⟩
  · rcases Program.step_cases hs with ⟨k, rfl, rfl⟩ | ⟨l, f, r, a, s, ts, rfl, ht, hr, rfl⟩
    · rw [call_eq]
      exact List.forall_mem_append.mpr ⟨h.limit, limit_load _ _ _⟩
    · obtain rfl : ts = [] := by
        cases a <;> exact (congrArg Prod.snd (Option.some.inj hr)).symm
      intro f' hf'
      exact h.limit f' (by rw [ht]; simp at hf' ⊢; tauto)
  · rcases Program.step_cases hs with ⟨k, rfl, rfl⟩ | ⟨l, f, r, a, s, ts, rfl, ht, hr, rfl⟩
    · rw [call_eq]
      exact more_load h.more _ _
    · have hmem : f ∈ w.tasks := by simp [ht]
      obtain ⟨hshows, hpage⟩ := h.single.fits hmem rfl
      rcases answersFrom_of_served hdates (h.limit f hmem) ((meets_resume ht).mp ha) with
        ⟨text, rfl⟩ | rfl
      · obtain rfl := congrArg Prod.fst (Option.some.inj hr)
        exact h.more
      · obtain rfl := congrArg Prod.fst (Option.some.inj hr)
        exact more_applyPage hshows.page_pos hpage

theorem inv_fresh : Inv lists fresh where
  single := Or.inl ⟨rfl, rfl, shows_of_first rfl rfl⟩
  limit := List.forall_mem_nil _
  more := iff_of_true rfl (Or.inl rfl)

/-- The list in every state, whether a load is in flight or not. -/
theorem shows_of_single {api : Feed → ℕ → List Wallpaper} (h : (guard api).Single w) :
    Shows api w.shared := by
  rcases h with ⟨-, -, hidle⟩ | ⟨f, -, -, hfits⟩
  · exact hidle
  · exact hfits.1

/-- **A grid shows the beginning of its feed**: over an API that pages through fixed lists, along
every run in which no page is appended to pages of another feed, whatever fails and however often
the grid is refreshed; and once `hasMore` is down, all of it. -/
theorem grid_shows_server (c : Codec) (describe : DartError → String)
    (lists : Feed → List Wallpaper) (hdates : ∀ feed, ∀ w ∈ lists feed, ReadsBackDates c w)
    (es : List (Event Call WallpapersNotifier.Answer)) (w : World State Fetch)
    (ha : program.Each (Meets (ServedFrom c describe lists)) fresh es)
    (hext : program.Each (Meets ExtendsItsFeed) fresh es)
    (hr : program.run fresh es = some w) :
    w.shared.state.wallpapers =
      ((lists w.shared.shown).take (20 * (w.shared.state.currentPage - 1))).map fromCache ∧
    (w.shared.state.hasMore = true ↔ w.shared.state.currentPage = 1 ∨
      20 * (w.shared.state.currentPage - 1) < (lists w.shared.shown).length) ∧
    (w.shared.state.hasMore = false →
      w.shared.state.wallpapers = (lists w.shared.shown).map fromCache) := by
  have hinv : Inv lists w :=
    Program.run_inv_of_each (fun _ _ _ h hq hs => inv_step hdates h hq.1 hq.2 hs) inv_fresh
      (Program.each_and.mpr ⟨ha, hext⟩) hr
  have hlist : w.shared.state.wallpapers =
      ((lists w.shared.shown).take (20 * (w.shared.state.currentPage - 1))).map fromCache := by
    rw [(shows_of_single hinv.single).list, ← pages_chunk, ← pages_map]
    rfl
  refine ⟨hlist, hinv.more, fun hnone => ?_⟩
  rw [hlist, List.take_of_length_le]
  by_contra hlt
  rw [hinv.more.mpr (Or.inr (by omega))] at hnone
  cases hnone

/-- Every feed has one wallpaper. -/
def oneWallpaper (_ : Feed) : List Wallpaper := [sampleWallpaper "a" "api"]

theorem oneWallpaper_dates (feed : Feed) :
    ∀ w ∈ oneWallpaper feed, ReadsBackDates (sampleCodec ["a"]) w :=
  List.forall_mem_singleton.mpr (sample_readsBack (by simp) "api").dates

/-- A grid of a category is opened, and opened again without a network. -/
def openedTwice : List (Event Call WallpapersNotifier.Answer) :=
  [.call (.loadWallpapersByCategory "nature" true),
    .resume 0 (.page [sampleWallpaper "a" "pexels"] false),
    .call (.loadWallpapersByCategory "nature" true),
    .resume 0 (.exception "Something went wrong.")]

theorem openedTwice_served : program.Each
    (Meets (ServedFrom (sampleCodec ["a"]) (fun _ => "") oneWallpaper)) fresh openedTwice := by
  refine (Program.each_cons rfl).mpr ⟨meets_call, ?_⟩
  refine (Program.each_cons rfl).mpr ⟨meets_of_task rfl (Or.inl ?_), ?_⟩
  · rw [serve_requestOf, pageAnswer_pageBody (oneWallpaper_dates _)]
    rfl
  refine (Program.each_cons rfl).mpr ⟨meets_call, ?_⟩
  exact (Program.each_cons rfl).mpr
    ⟨meets_of_task rfl (Or.inr ⟨.connectionError, none, rfl⟩), trivial⟩

theorem openedTwice_extends : program.Each (Meets ExtendsItsFeed) fresh openedTwice := by
  refine (Program.each_cons rfl).mpr ⟨meets_call, ?_⟩
  refine (Program.each_cons rfl).mpr ⟨meets_of_task rfl (Or.inl rfl), ?_⟩
  refine (Program.each_cons rfl).mpr ⟨meets_call, ?_⟩
  exact (Program.each_cons rfl).mpr ⟨meets_of_task rfl trivial, trivial⟩

theorem grid_openedTwice : ∃ w, program.run fresh openedTwice = some w ∧
    w.shared.state.wallpapers = ((oneWallpaper w.shared.shown).take
      (20 * (w.shared.state.currentPage - 1))).map fromCache ∧
    (w.shared.state.hasMore = true ↔ w.shared.state.currentPage = 1 ∨
      20 * (w.shared.state.currentPage - 1) < (oneWallpaper w.shared.shown).length) ∧
    (w.shared.state.hasMore = false →
      w.shared.state.wallpapers = (oneWallpaper w.shared.shown).map fromCache) :=
  ⟨_, rfl, grid_shows_server (sampleCodec ["a"]) (fun _ => "") oneWallpaper oneWallpaper_dates
    openedTwice _ openedTwice_served openedTwice_extends rfl⟩

end Grid

end PixsBliss.Providers.WallpaperRepository
