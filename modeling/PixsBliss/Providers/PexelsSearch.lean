import PixsBliss.Lib.Flight
import PixsBliss.Lib.Pages
import PixsBliss.Models.RoundTrip
import PixsBliss.Services.PexelsApiService

/-! # The search

`PexelsSearchNotifier` stores the query of a search before its request is sent, and the list and the
page when the answer comes. A search that does not refresh is meant to replace the list when the
query has changed, but the test for this compares the stored query with the one it was itself
overwritten by, so it only fires when the search was cleared, or another one was started, while the
request was in flight.

`Owned` says whose pages the list holds: those of the query whose answer was applied last. From
this, `results_of_query`: along a run in which no failed answer and no appended answer arrives over
the list of another query, the list is that of the stored query whenever `isLoading` is down.
`other_query_appended` is a run in which it is not. -/

namespace PixsBliss.Providers.PexelsSearch

open PixsBliss.Lib.Async PixsBliss.Lib.Flight PixsBliss.Lib.Pages PixsBliss.Models
open PixsBliss.Services.PexelsApiService

/-! ### The program -/

/-- The state that is shown. -/
structure PexelsSearchState where
  wallpapers : List Wallpaper := []
  isLoading : Bool := false
  hasMore : Bool := true
  error : Option String := none
  query : String := ""
  currentPage : ℕ := 1

/-- The notifier; the query whose answer was applied last is a ghost, empty after a clear. -/
structure State where
  state : PexelsSearchState
  shown : String

structure Search where
  query : String
  page : ℕ
  refresh : Bool
  request : Request

inductive Call
  | searchWallpapers (query : String) (refresh : Bool)
  | loadMore
  | clearSearch

def fresh : World State Search := ⟨⟨{}, ""⟩, []⟩

def clearSearch : State × List Search := (⟨{}, ""⟩, [])

/-- `searchWallpapers`, up to the answer. -/
def searchWallpapers (query : String) (refresh : Bool) (s : State) : State × List Search :=
  if query.isEmpty then clearSearch
  else if s.state.isLoading then (s, [])
  else
    let page := if refresh then 1 else s.state.currentPage
    ({ s with state := { s.state with isLoading := true, error := none, query := query } },
      [⟨query, page, refresh, Services.PexelsApiService.searchWallpapers query page 80⟩])

/-- A successful answer. -/
def applyAnswer (r : Search) (ws : List Wallpaper) (s : State) : State :=
  let more := !ws.isEmpty && decide (80 ≤ ws.length)
  if r.refresh || s.state.query != r.query then
    ⟨{ wallpapers := ws, isLoading := false, hasMore := more, error := none, query := r.query,
       currentPage := 2 }, r.query⟩
  else
    ⟨{ s.state with
       wallpapers := s.state.wallpapers ++ ws
       isLoading := false
       hasMore := more
       error := none
       currentPage := s.state.currentPage + 1 }, r.query⟩

/-- The catch. -/
def applyError (text : String) (s : State) : State :=
  { s with state := { s.state with isLoading := false, error := some text } }

/-- **The notifier.** -/
def program : Program State Search Call Answer where
  call
    | .searchWallpapers query refresh, s => searchWallpapers query refresh s
    | .loadMore, s =>
      if s.state.hasMore && !s.state.isLoading && !s.state.query.isEmpty then
        searchWallpapers s.state.query false s
      else (s, [])
    | .clearSearch, _ => clearSearch
  resume
    | r, .wallpapers ws, s => some (applyAnswer r ws s, [])
    | _, .exception text, s => some (applyError text s, [])

/-! ### Whose pages the list holds -/

/-- A successful answer is the page of the query that was asked for. -/
def AnswersFrom (api : String → ℕ → List Wallpaper) : Search → Answer → State → Prop
  | r, .wallpapers ws, _ => ws = api r.query r.page
  | _, .exception _, _ => True

/-- The list is that of `query`: the last applied answer was for it, or nothing is shown and page 1
is next. -/
def Holds (s : State) (query : String) : Prop :=
  s.shown = query ∨ (s.state.wallpapers = [] ∧ s.state.currentPage = 1)

instance (s : State) (query : String) : Decidable (Holds s query) :=
  inferInstanceAs (Decidable (_ ∨ _))

/-- **No answer over the list of another query**: a failed answer finds the list of the stored
query; an answer that is appended finds the list of its query, of the pages before its own; an
answer that replaces the list without `refresh` is of page 1. -/
def AnswersItsList : Search → Answer → State → Prop
  | _, .exception _, s => Holds s s.state.query
  | r, .wallpapers _, s =>
    if r.refresh then True
    else if s.state.query = r.query then Holds s r.query ∧ r.page = s.state.currentPage
    else r.page = 1

/-- The law of the shown state. -/
def Law (api : String → ℕ → List Wallpaper) (s : PexelsSearchState) : Prop :=
  s.isLoading = false → s.wallpapers = pages (api s.query) (s.currentPage - 1) ∧
    (s.query = "" → s.wallpapers = [] ∧ s.currentPage = 1)

/-- The list is the pages before the next one, of the query whose answer was applied last; without a
request that can end it is the list of the stored query; the query is empty after a clear only. -/
structure Owned (api : String → ℕ → List Wallpaper) (w : World State Search) : Prop where
  page_pos : 1 ≤ w.shared.state.currentPage
  list : w.shared.state.wallpapers = pages (api w.shared.shown) (w.shared.state.currentPage - 1)
  stored : w.shared.state.isLoading = false → Holds w.shared w.shared.state.query
  cleared : w.shared.state.query = "" →
    w.shared.state.wallpapers = [] ∧ w.shared.state.currentPage = 1
  requests : ∀ r ∈ w.tasks, r.query ≠ "" ∧ (r.refresh = true → r.page = 1)

section Steps

variable {api : String → ℕ → List Wallpaper} {w w' : World State Search} {s : State}
  {e : Event Call Answer}

theorem owned_cleared {tasks : List Search}
    (h : ∀ r ∈ tasks, r.query ≠ "" ∧ (r.refresh = true → r.page = 1)) :
    Owned api ⟨⟨{}, ""⟩, tasks⟩ :=
  ⟨le_rfl, rfl, fun _ => Or.inl rfl, fun _ => ⟨rfl, rfl⟩, h⟩

theorem law_of_owned (h : Owned api w) : Law api w.shared.state := by
  intro hload
  refine ⟨?_, h.cleared⟩
  rcases h.stored hload with hq | ⟨hnil, hone⟩
  · rw [← hq]
    exact h.list
  · rw [hnil, hone]
    rfl

/-- A search that is sent keeps the list and its owner. -/
theorem owned_search (h : Owned api w) (query : String) (refresh : Bool) :
    Owned api ⟨(searchWallpapers query refresh w.shared).1,
      w.tasks ++ (searchWallpapers query refresh w.shared).2⟩ := by
  unfold searchWallpapers
  by_cases hempty : query.isEmpty = true
  · rw [if_pos hempty]
    simp only [clearSearch, List.append_nil]
    exact owned_cleared h.requests
  · have hne : query ≠ "" := by simpa using hempty
    rw [if_neg hempty]
    by_cases hload : w.shared.state.isLoading = true
    · rw [if_pos hload]
      simp only [List.append_nil]
      exact h
    · rw [if_neg hload]
      refine ⟨h.page_pos, h.list, fun hl => Bool.noConfusion hl, fun hq => absurd hq hne, ?_⟩
      intro r hr
      rcases List.mem_append.mp hr with hr | hr
      · exact h.requests r hr
      · rw [List.mem_singleton.mp hr]
        exact ⟨hne, fun href => if_pos href⟩

theorem owned_call (h : Owned api w) (k : Call) :
    Owned api ⟨(program.call k w.shared).1, w.tasks ++ (program.call k w.shared).2⟩ := by
  have hquiet : Owned api ⟨w.shared, w.tasks ++ []⟩ := by
    rw [List.append_nil]
    exact h
  cases k with
  | searchWallpapers query refresh => exact owned_search h query refresh
  | loadMore =>
    simp only [program]
    split_ifs
    · exact owned_search h w.shared.state.query false
    · exact hquiet
  | clearSearch =>
    simp only [program, clearSearch, List.append_nil]
    exact owned_cleared h.requests

theorem applyAnswer_replace {r : Search} (ws : List Wallpaper)
    (h : (r.refresh || s.state.query != r.query) = true) :
    (applyAnswer r ws s).state.wallpapers = ws ∧ (applyAnswer r ws s).state.currentPage = 2 ∧
      (applyAnswer r ws s).state.query = r.query ∧ (applyAnswer r ws s).shown = r.query := by
  unfold applyAnswer
  rw [if_pos h]
  exact ⟨rfl, rfl, rfl, rfl⟩

theorem applyAnswer_append {r : Search} (ws : List Wallpaper)
    (h : ¬ (r.refresh || s.state.query != r.query) = true) :
    (applyAnswer r ws s).state.wallpapers = s.state.wallpapers ++ ws ∧
      (applyAnswer r ws s).state.currentPage = s.state.currentPage + 1 ∧
      (applyAnswer r ws s).state.query = s.state.query ∧ (applyAnswer r ws s).shown = r.query := by
  unfold applyAnswer
  rw [if_neg h]
  exact ⟨rfl, rfl, rfl, rfl⟩

/-- **An answer keeps the list with its owner.** -/
theorem owned_answer (h : Owned api w) {r : Search} (hr : r ∈ w.tasks) {tasks : List Search}
    (ht : ∀ r ∈ tasks, r ∈ w.tasks)
    (hcond : AnswersItsList r (.wallpapers (api r.query r.page)) w.shared) :
    Owned api ⟨applyAnswer r (api r.query r.page) w.shared, tasks⟩ := by
  obtain ⟨hne, hfirst⟩ := h.requests r hr
  have hreq : ∀ r ∈ tasks, r.query ≠ "" ∧ (r.refresh = true → r.page = 1) := fun r hr =>
    h.requests r (ht r hr)
  by_cases hrep : (r.refresh || w.shared.state.query != r.query) = true
  · obtain ⟨hws, hpage, hquery, hshown⟩ :=
      applyAnswer_replace (api r.query r.page) hrep
    -- the answer is page 1: a refresh asks for it, and otherwise the condition says so
    have hone : r.page = 1 := by
      by_cases href : r.refresh = true
      · exact hfirst href
      · have hq : w.shared.state.query ≠ r.query := by simpa [href] using hrep
        simpa [AnswersItsList, href, hq] using hcond
    refine ⟨?_, ?_, ?_, ?_, hreq⟩
    · rw [hpage]; omega
    · rw [hws, hpage, hshown, hone, show 2 - 1 = 1 from rfl, pages_one]
    · intro _
      exact Or.inl (hshown.trans hquery.symm)
    · intro hq
      exact absurd (hquery.symm.trans hq) hne
  · obtain ⟨hws, hpage, hquery, hshown⟩ :=
      applyAnswer_append (api r.query r.page) hrep
    obtain ⟨href, hq⟩ : r.refresh = false ∧ w.shared.state.query = r.query := by
      simpa using hrep
    obtain ⟨hholds, hcur⟩ : Holds w.shared r.query ∧ r.page = w.shared.state.currentPage := by
      simpa [AnswersItsList, href, hq] using hcond
    have hlist : w.shared.state.wallpapers =
        pages (api r.query) (w.shared.state.currentPage - 1) := by
      rcases hholds with hsh | ⟨hnil, hone⟩
      · rw [← hsh]; exact h.list
      · rw [hnil, hone]; rfl
    refine ⟨?_, ?_, ?_, ?_, hreq⟩
    · rw [hpage]; omega
    · rw [hws, hpage, hshown, hlist, hcur, Nat.add_sub_cancel, pages_pred_append h.page_pos]
    · intro _
      exact Or.inl (hshown.trans (hq.symm.trans hquery.symm))
    · intro he
      exact absurd (hq.symm.trans (hquery.symm.trans he)) hne

theorem owned_step (h : Owned api w) (ha : Meets (AnswersFrom api) w e w')
    (hc : Meets AnswersItsList w e w') (hs : program.step w e = some w') : Owned api w' := by
  rcases Program.step_cases hs with ⟨k, rfl, rfl⟩ | ⟨l, r, r', a, s, ts, rfl, ht, hr, rfl⟩
  · exact owned_call h k
  · have ha' : AnswersFrom api r a w.shared := (meets_resume ht).mp ha
    have hc' : AnswersItsList r a w.shared := (meets_resume ht).mp hc
    have hmem : ∀ x ∈ l ++ [] ++ r', x ∈ w.tasks := fun x hx => by
      rw [List.append_nil, List.mem_append] at hx
      rw [ht, List.mem_append]
      exact hx.imp_right (List.mem_cons_of_mem _)
    cases a with
    | exception text =>
      simp only [program, Option.some.injEq, Prod.mk.injEq] at hr
      obtain ⟨rfl, rfl⟩ := hr
      exact ⟨h.page_pos, h.list, fun _ => hc', h.cleared, fun x hx => h.requests x (hmem x hx)⟩
    | wallpapers ws =>
      simp only [program, Option.some.injEq, Prod.mk.injEq] at hr
      obtain ⟨rfl, rfl⟩ := hr
      obtain rfl : ws = api r.query r.page := ha'
      exact owned_answer h (by simp [ht]) hmem hc'

end Steps

/-! ### Runs -/

/-- **The results belong to the shown query** in every state without `isLoading` of a run in which
no answer arrives over the list of another query. -/
theorem results_of_query (api : String → ℕ → List Wallpaper) (es : List (Event Call Answer))
    (hapi : program.Each (Meets (AnswersFrom api)) fresh es)
    (hown : program.Each (Meets AnswersItsList) fresh es) :
    program.Each (fun _ _ w' => Law api w'.shared.state) fresh es := by
  refine Program.each_of_each (I := Owned api) (fun w e w' h hq hs => ?_)
    (owned_cleared fun r hr => absurd hr List.not_mem_nil) (Program.each_and.mpr ⟨hapi, hown⟩)
  have h' : Owned api w' := owned_step h hq.1 hq.2 hs
  exact ⟨h', law_of_owned h'⟩

/-- An API with one photo on each page of a query. -/
def samplePages (query : String) (page : ℕ) : List Wallpaper :=
  [sampleWallpaper (query ++ if page = 1 then "-1" else "-2") "pexels"]

/-- A search and its next page. -/
theorem results_of_two_pages : program.Each (fun _ _ w' => Law samplePages w'.shared.state) fresh
    [.call (.searchWallpapers "a" true), .resume 0 (.wallpapers (samplePages "a" 1)),
      .call (.searchWallpapers "a" false), .resume 0 (.wallpapers (samplePages "a" 2))] := by
  refine results_of_query samplePages _ ?_ ?_
  · refine (Program.each_cons rfl).mpr ⟨meets_call, ?_⟩
    refine (Program.each_cons rfl).mpr ⟨meets_of_task rfl rfl, ?_⟩
    refine (Program.each_cons rfl).mpr ⟨meets_call, ?_⟩
    refine (Program.each_cons rfl).mpr ⟨meets_of_task rfl rfl, ?_⟩
    trivial
  · refine (Program.each_cons rfl).mpr ⟨meets_call, ?_⟩
    refine (Program.each_cons rfl).mpr ⟨meets_of_task rfl trivial, ?_⟩
    refine (Program.each_cons rfl).mpr ⟨meets_call, ?_⟩
    refine (Program.each_cons rfl).mpr ⟨meets_of_task rfl ⟨Or.inl rfl, rfl⟩, ?_⟩
    trivial

/-- **The list of another query**: a search for `b` after a search for `a`. Without `refresh` its
second page is appended to the list of `a`; with `refresh`, when it fails, the list of `a` stays. -/
theorem other_query_appended :
    (∃ w, program.run fresh [.call (.searchWallpapers "a" true),
        .resume 0 (.wallpapers (samplePages "a" 1)), .call (.searchWallpapers "b" false),
        .resume 0 (.wallpapers (samplePages "b" 2))] = some w ∧
      w.tasks = [] ∧ w.shared.state.query = "b" ∧
      w.shared.state.wallpapers.map Wallpaper.id = ["a-1", "b-2"] ∧
      ¬ Law samplePages w.shared.state) ∧
    ∃ w, program.run fresh [.call (.searchWallpapers "a" true),
        .resume 0 (.wallpapers (samplePages "a" 1)), .call (.searchWallpapers "b" true),
        .resume 0 (.exception "Exception: Network")] = some w ∧
      w.tasks = [] ∧ w.shared.state.query = "b" ∧
      w.shared.state.wallpapers.map Wallpaper.id = ["a-1"] ∧ ¬ Law samplePages w.shared.state := by
  refine ⟨⟨_, rfl, rfl, rfl, rfl, fun h => ?_⟩, _, rfl, rfl, rfl, rfl, fun h => ?_⟩
  · have hids := congrArg (List.map Wallpaper.id) (h rfl).1
    revert hids
    decide
  · have hids := congrArg (List.map Wallpaper.id) (h rfl).1
    revert hids
    decide

end PixsBliss.Providers.PexelsSearch
