import PixsBliss.Providers.SearchNotifier
import PixsBliss.Providers.WallpapersNotifier

/-! # The favorites

`FavoritesNotifier` keeps the ids of the favorites, without the wallpapers. A wallpaper becomes a
favorite in a `WallpaperGrid`, which shows the list of the shared feed or the results of a search;
`FavoritesTab` then looks for the ids in the list that the shared feed holds at the moment.

* `shows_favorites_iff`: so the tab shows the favorites in every state of a run exactly when a
  favorite is only added out of the list of the shared feed, and no refresh of the feed starts while
  there are favorites.
* `favorites_hidden`: a favorite out of a search, and a favorite before a refresh. -/

namespace PixsBliss.Pages.FavoritesTab

open PixsBliss.Lib.Async PixsBliss.Lib.Flight PixsBliss.Models
open PixsBliss.Providers
open PixsBliss.Providers.WallpapersNotifier (load_cases call_eq)

/-! ### The favorites notifier -/

/-- `toggleFavorite`; a set is a list without repetition. -/
def toggleFavorite (favorites : List String) (wallpaperId : String) : List String :=
  if favorites.contains wallpaperId then favorites.filter fun id => id ≠ wallpaperId
  else favorites ++ [wallpaperId]

/-- `_clearAllFavorites`: each favorite is toggled. -/
def clearAllFavorites (favorites : List String) : List String :=
  favorites.foldl toggleFavorite favorites

section Toggles

variable {favorites : List String} {id wallpaperId : String}

theorem nodup_toggleFavorite (h : favorites.Nodup) :
    (toggleFavorite favorites wallpaperId).Nodup := by
  unfold toggleFavorite
  split_ifs with hc
  · exact h.filter _
  · exact h.append (List.nodup_singleton _) (by simpa using hc)

/-- A toggle changes the membership of its own id. -/
theorem mem_toggleFavorite : id ∈ toggleFavorite favorites wallpaperId ↔
    if id = wallpaperId then id ∉ favorites else id ∈ favorites := by
  unfold toggleFavorite
  by_cases hc : wallpaperId ∈ favorites
  · rw [if_pos (List.contains_iff_mem.mpr hc), List.mem_filter]
    split_ifs with hid
    · simp [hid, hc]
    · simp [hid]
  · rw [if_neg (fun h => hc (List.contains_iff_mem.mp h)), List.mem_append, List.mem_singleton]
    split_ifs with hid
    · simp [hid, hc]
    · simp [hid]

/-- What is toggled once each is what changes. -/
theorem mem_foldl_toggleFavorite {l : List String} (h : l.Nodup) :
    id ∈ l.foldl toggleFavorite favorites ↔ if id ∈ l then id ∉ favorites else id ∈ favorites := by
  induction l generalizing favorites with
  | nil => simp
  | cons x l ih =>
    obtain ⟨hx, hl⟩ := List.nodup_cons.mp h
    rw [List.foldl_cons, ih hl, mem_toggleFavorite]
    by_cases hid : id = x
    · subst hid
      simp [hx]
    · simp [hid]

theorem clearAllFavorites_eq_nil (h : favorites.Nodup) : clearAllFavorites favorites = [] := by
  refine List.eq_nil_iff_forall_not_mem.mpr fun id hid => ?_
  unfold clearAllFavorites at hid
  rw [mem_foldl_toggleFavorite h] at hid
  split_ifs at hid with hm
  · exact hid hm
  · exact hm hid

end Toggles

/-! ### The screens -/

/-- The three notifiers the screens share; the ids that were toggled since the last clear-all are a
ghost. -/
structure State where
  feed : WallpapersNotifier.State
  search : SearchNotifier.SearchState
  favorites : List String
  toggled : List String

inductive Task
  | feed (f : WallpapersNotifier.Fetch)
  | search (r : SearchNotifier.Search)

inductive Call
  | feed (k : WallpapersNotifier.Call)
  | search (k : SearchNotifier.Call)
  | toggleFavorite (wallpaperId : String)
  | clearAllFavorites

inductive Outcome
  | feed (a : WallpapersNotifier.Answer)
  | search (a : SearchNotifier.Answer)

abbrev ScreenWorld := World State Task
abbrev ScreenEvent := Event Call Outcome

def fresh : ScreenWorld := ⟨⟨WallpapersNotifier.fresh.shared, {}, [], []⟩, []⟩

/-- A turn of the feed. -/
def feedTurn (s : State) (r : WallpapersNotifier.State × List WallpapersNotifier.Fetch) :
    State × List Task :=
  ({ s with feed := r.1 }, r.2.map .feed)

/-- A turn of the search. -/
def searchTurn (s : State) (r : SearchNotifier.SearchState × List SearchNotifier.Search) :
    State × List Task :=
  ({ s with search := r.1 }, r.2.map .search)

/-- **The screens.** -/
def program : Program State Task Call Outcome where
  call
    | .feed k, s => feedTurn s (WallpapersNotifier.program.call k s.feed)
    | .search k, s => searchTurn s (SearchNotifier.program.call k s.search)
    | .toggleFavorite wallpaperId, s =>
      ({ s with
         favorites := toggleFavorite s.favorites wallpaperId
         toggled := s.toggled ++ [wallpaperId] }, [])
    | .clearAllFavorites, s =>
      ({ s with favorites := clearAllFavorites s.favorites, toggled := [] }, [])
  resume
    | .feed f, .feed a, s => (WallpapersNotifier.program.resume f a s.feed).map (feedTurn s)
    | .search r, .search a, s => (SearchNotifier.program.resume r a s.search).map (searchTurn s)
    | _, _, _ => none

/-- The list a `WallpaperGrid` shows. -/
def gridWallpapers (isSearch : Bool) (s : State) : List Wallpaper :=
  if isSearch then s.search.results else s.feed.state.wallpapers

/-- The list `FavoritesTab` shows. -/
def favoriteWallpapers (s : State) : List Wallpaper :=
  s.feed.state.wallpapers.filter fun w => s.favorites.contains w.id

/-- **The law**: the tab shows the wallpapers that were toggled an odd number of times since the
last clear-all. -/
def Law (s : State) : Prop :=
  ∀ id, id ∈ (favoriteWallpapers s).map Wallpaper.id ↔ Odd (s.toggled.count id)

/-- The favorites are in the list of the feed. -/
def Covered (s : State) : Prop := ∀ id ∈ s.favorites, id ∈ s.feed.state.wallpapers.map Wallpaper.id

/-- **Favorites are kept**: one is added out of the list of the feed only, and a refresh starts
without favorites only. -/
def KeepsFavorites (w : ScreenWorld) (e : ScreenEvent) (_ : ScreenWorld) : Prop :=
  (∀ id, e = .call (.toggleFavorite id) → id ∉ w.shared.favorites →
    id ∈ w.shared.feed.state.wallpapers.map Wallpaper.id) ∧
  ∀ k, e = .call (.feed k) → k.loads.2 = true → w.shared.feed.state.isLoading = false →
    w.shared.favorites = []

/-- A toggle is of a wallpaper that a grid shows. -/
def TogglesShown (w : ScreenWorld) (e : ScreenEvent) (_ : ScreenWorld) : Prop :=
  ∀ id, e = .call (.toggleFavorite id) →
    ∃ isSearch, id ∈ (gridWallpapers isSearch w.shared).map Wallpaper.id

/-! ### Steps -/

/-- The list of the feed is empty while a refresh is in flight. -/
def guard : Guard State Task where
  isRequest
    | .feed _ => true
    | .search _ => false
  busy s := s.feed.state.isLoading
  Idle _ := True
  Fits
    | .feed f, s => f.refresh = true → s.feed.state.wallpapers = []
    | .search _, _ => True

/-- The favorites are the ids toggled an odd number of times. -/
structure Inv (w : ScreenWorld) : Prop where
  single : guard.Single w
  nodup : w.shared.favorites.Nodup
  odd : ∀ id, id ∈ w.shared.favorites ↔ Odd (w.shared.toggled.count id)

section Steps

variable {w w' : ScreenWorld} {e : ScreenEvent} {s s' : State} {ts : List Task}

theorem mem_favoriteWallpapers (s : State) (id : String) :
    id ∈ (favoriteWallpapers s).map Wallpaper.id ↔
      id ∈ s.favorites ∧ id ∈ s.feed.state.wallpapers.map Wallpaper.id := by
  simp only [favoriteWallpapers, List.mem_map, List.mem_filter, List.contains_iff_mem]
  constructor
  · rintro ⟨x, ⟨hx, hf⟩, rfl⟩
    exact ⟨hf, x, hx, rfl⟩
  · rintro ⟨hf, x, hx, rfl⟩
    exact ⟨x, ⟨hx, hf⟩, rfl⟩

theorem law_iff_covered (h : Inv w) : Law w.shared ↔ Covered w.shared := by
  unfold Law Covered
  refine forall_congr' fun id => ?_
  rw [mem_favoriteWallpapers, ← h.odd id]
  exact and_iff_left_iff_imp

/-- A turn that leaves the feed alone. -/
theorem turn_of_feed (hfeed : s'.feed = s.feed) (hts : guard.requests ts = []) :
    guard.Turn s s' ts := by
  refine Or.inl ⟨hts, congrArg (fun f => f.state.isLoading) hfeed, id, fun t ht => ?_⟩
  cases t with
  | feed f => exact fun href => (congrArg (fun f => f.state.wallpapers) hfeed).trans (ht href)
  | search r => trivial

theorem requests_search (rs : List SearchNotifier.Search) :
    guard.requests (rs.map Task.search) = [] := by
  simp [Guard.requests, guard]

theorem turn_call (k : Call) (s : State) :
    guard.Turn s (program.call k s).1 (program.call k s).2 := by
  cases k with
  | feed k =>
    simp only [program, call_eq, feedTurn]
    rcases load_cases k.loads.1 k.loads.2 s.feed with ⟨-, h⟩ | ⟨hload, s', h, hload', -, hws, -⟩
    · rw [h]
      exact turn_of_feed rfl rfl
    · rw [h]
      refine Or.inr ⟨hload, hload', fun _ => ⟨_, rfl, fun href => ?_⟩⟩
      exact hws.trans (if_pos href)
  | search k => exact turn_of_feed rfl (requests_search _)
  | toggleFavorite wallpaperId => exact turn_of_feed rfl rfl
  | clearAllFavorites => exact turn_of_feed rfl rfl

/-- **What a resumption does**: it ends a load of the feed or a search. -/
theorem resume_cases {t : Task} {o : Outcome} (hr : program.resume t o s = some (s', ts)) :
    (∃ f a feed, t = .feed f ∧ o = .feed a ∧ s' = { s with feed := feed } ∧ ts = [] ∧
      WallpapersNotifier.program.resume f a s.feed = some (feed, [])) ∨
    ∃ r search, t = .search r ∧ s' = { s with search := search } ∧ ts = [] := by
  match t, o with
  | .feed f, .feed a =>
    obtain ⟨⟨feed, fs⟩, hres, heq⟩ := Option.map_eq_some_iff.mp hr
    obtain ⟨rfl, rfl⟩ := Prod.mk.inj heq
    have hnil : fs = [] := by
      cases a <;> exact (Prod.mk.inj (Option.some.inj hres)).2.symm
    subst hnil
    exact Or.inl ⟨f, a, feed, rfl, rfl, rfl, rfl, hres⟩
  | .search r, .search a =>
    obtain ⟨⟨search, rs⟩, hres, heq⟩ := Option.map_eq_some_iff.mp hr
    obtain ⟨rfl, rfl⟩ := Prod.mk.inj heq
    have hnil : rs = [] := by
      cases a <;> exact (Prod.mk.inj (Option.some.inj hres)).2.symm
    subst hnil
    exact Or.inr ⟨r, search, rfl, rfl, rfl⟩
  | .feed _, .search _ => cases hr
  | .search _, .feed _ => cases hr

/-- The list after an answer: as before, replaced, or extended. -/
theorem wallpapers_of_answer {f : WallpapersNotifier.Fetch} {a : WallpapersNotifier.Answer}
    {feed feed' : WallpapersNotifier.State}
    (hr : WallpapersNotifier.program.resume f a feed = some (feed', [])) :
    feed'.state.isLoading = false ∧ (f.refresh = true ∨
      ∃ ws, feed'.state.wallpapers = feed.state.wallpapers ++ ws) := by
  cases a with
  | exception text =>
    obtain ⟨rfl, -⟩ := Prod.mk.inj (Option.some.inj hr)
    exact ⟨rfl, Or.inr ⟨[], (List.append_nil _).symm⟩⟩
  | page ws hasMore =>
    obtain ⟨rfl, -⟩ := Prod.mk.inj (Option.some.inj hr)
    refine ⟨rfl, ?_⟩
    by_cases href : f.refresh = true
    · exact Or.inl href
    · exact Or.inr ⟨ws, if_neg href⟩

theorem single_step (h : guard.Single w) (hs : program.step w e = some w') : guard.Single w' := by
  refine Guard.single_step (C := fun _ _ _ => True) turn_call (fun t o s s' ts ht hr => ?_)
    (fun t o s s' ts ht hr _ _ => ?_) h (fun _ _ _ _ _ => trivial) hs
  · rcases resume_cases hr with ⟨f, a, feed, rfl, -⟩ | ⟨r, search, rfl, rfl, rfl⟩
    · cases ht
    · exact turn_of_feed rfl rfl
  · rcases resume_cases hr with ⟨f, a, feed, rfl, rfl, rfl, rfl, hres⟩ | ⟨r, search, rfl, -⟩
    · exact ⟨rfl, (wallpapers_of_answer hres).1, trivial⟩
    · cases ht

theorem odd_succ_count {l : List String} {id x : String} :
    Odd ((l ++ [x]).count id) ↔ if id = x then ¬ Odd (l.count id) else Odd (l.count id) := by
  rw [List.count_append]
  by_cases h : id = x
  · subst h
    simp [Nat.odd_add_one]
  · simp [h, Ne.symm h]

theorem inv_step (h : Inv w) (hs : program.step w e = some w') : Inv w' := by
  have hsingle : guard.Single w' := single_step h.single hs
  rcases Program.step_cases hs with ⟨k, rfl, rfl⟩ | ⟨l, t, r, o, s, ts, rfl, ht, hr, rfl⟩
  · cases k with
    | feed k => exact ⟨hsingle, h.nodup, h.odd⟩
    | search k => exact ⟨hsingle, h.nodup, h.odd⟩
    | toggleFavorite wallpaperId =>
      refine ⟨hsingle, nodup_toggleFavorite h.nodup, fun id => ?_⟩
      show id ∈ toggleFavorite w.shared.favorites wallpaperId ↔ _
      rw [mem_toggleFavorite, h.odd id]
      exact odd_succ_count.symm
    | clearAllFavorites =>
      have hnil : clearAllFavorites w.shared.favorites = [] := clearAllFavorites_eq_nil h.nodup
      refine ⟨hsingle, ?_, fun id => ?_⟩
      · show (clearAllFavorites w.shared.favorites).Nodup
        rw [hnil]
        exact List.nodup_nil
      · show id ∈ clearAllFavorites w.shared.favorites ↔ Odd 0
        simp [hnil]
  · rcases resume_cases hr with ⟨f, a, feed, -, -, rfl, -⟩ | ⟨r, search, -, rfl, -⟩
    · exact ⟨hsingle, h.nodup, h.odd⟩
    · exact ⟨hsingle, h.nodup, h.odd⟩

/-- A load keeps the favorites in the list unless it empties it with favorites there. -/
theorem covered_load_iff (h : Covered s) (feed : WallpapersNotifier.Feed) (refresh : Bool) :
    Covered { s with feed := (WallpapersNotifier.load feed refresh s.feed).1 } ↔
      (refresh = true → s.feed.state.isLoading = false → s.favorites = []) := by
  rcases load_cases feed refresh s.feed with ⟨hno, hl⟩ | ⟨hload, s', hl, -, -, hws, -⟩
  · rw [hl]
    refine iff_of_true h fun href hdown => ?_
    rw [hno href] at hdown
    cases hdown
  · rw [hl]
    by_cases href : refresh = true
    · rw [if_pos href] at hws
      constructor
      · intro hc _ _
        refine List.eq_nil_iff_forall_not_mem.mpr fun id hid => ?_
        have hm := hc id hid
        simp [hws] at hm
      · intro hk id hid
        have hid : id ∈ s.favorites := hid
        rw [hk href hload] at hid
        cases hid
    · rw [if_neg href] at hws
      refine iff_of_true (fun id hid => ?_) fun hr => absurd hr href
      show id ∈ s'.state.wallpapers.map Wallpaper.id
      rw [hws]
      exact h id hid

/-- **A call keeps the favorites in the list** exactly if it meets the condition. -/
theorem covered_call_iff (hn : w.shared.favorites.Nodup) (h : Covered w.shared) (k : Call) :
    Covered (program.call k w.shared).1 ↔ KeepsFavorites w (.call k) w' := by
  cases k with
  | feed k =>
    simp only [program, call_eq, feedTurn]
    refine (covered_load_iff h k.loads.1 k.loads.2).trans ⟨fun hk => ?_, fun hk => hk.2 k rfl⟩
    refine ⟨fun _ he => (by cases he), fun k' he => ?_⟩
    obtain rfl := Call.feed.inj (Event.call.inj he)
    exact hk
  | search k =>
    exact ⟨fun _ => ⟨fun _ he => (by cases he), fun _ he => (by cases he)⟩, fun _ => h⟩
  | toggleFavorite wallpaperId =>
    constructor
    · intro hc
      refine ⟨fun id he hid => ?_, fun _ he => (by cases he)⟩
      obtain rfl := Call.toggleFavorite.inj (Event.call.inj he)
      exact hc wallpaperId (mem_toggleFavorite.mpr ((if_pos rfl).mpr hid))
    · intro hk id hid
      have hid : id ∈ toggleFavorite w.shared.favorites wallpaperId := hid
      rw [mem_toggleFavorite] at hid
      split_ifs at hid with heq
      · exact hk.1 id (by rw [heq]) hid
      · exact h id hid
  | clearAllFavorites =>
    refine ⟨fun _ => ⟨fun _ he => (by cases he), fun _ he => (by cases he)⟩, fun _ id hid => ?_⟩
    have hid : id ∈ clearAllFavorites w.shared.favorites := hid
    rw [clearAllFavorites_eq_nil hn] at hid
    cases hid

/-- An answer keeps the favorites in the list: a refresh found it empty. -/
theorem covered_resume (h : Inv w) (hc : Covered w.shared) {n : ℕ} {o : Outcome}
    (hs : program.step w (.resume n o) = some w') : Covered w'.shared := by
  obtain ⟨l, t, r, s, ts, ht, -, hr, rfl⟩ := Program.step_resume hs
  rcases resume_cases hr with ⟨f, a, feed, rfl, rfl, rfl, -, hres⟩ | ⟨r, search, -, rfl, -⟩
  · intro id hid
    have hmem := hc id hid
    rcases (wallpapers_of_answer hres).2 with href | ⟨ws, hws⟩
    · have hempty : w.shared.feed.state.wallpapers = [] :=
        h.single.fits (t := .feed f) (by simp [ht]) rfl href
      simp [hempty] at hmem
    · show id ∈ feed.state.wallpapers.map Wallpaper.id
      rw [hws, List.map_append, List.mem_append]
      exact Or.inl hmem
  · exact hc

theorem covered_step_iff (h : Inv w) (hc : Covered w.shared) (hs : program.step w e = some w') :
    Covered w'.shared ↔ KeepsFavorites w e w' := by
  cases e with
  | call k =>
    obtain rfl := (Option.some.inj hs).symm
    exact covered_call_iff h.nodup hc k
  | resume n o =>
    refine iff_of_true (covered_resume h hc hs) ⟨fun _ he => ?_, fun _ he => ?_⟩
    · cases he
    · cases he

end Steps

/-! ### Runs -/

theorem inv_fresh : Inv fresh :=
  ⟨Or.inl ⟨rfl, rfl, trivial⟩, List.nodup_nil, fun id => by simp [fresh]⟩

/-- **Exactly the runs along which the tab shows the favorites**: in every state it lists the
wallpapers that were toggled an odd number of times since the last clear-all iff a favorite is only
added out of the list of the feed and no refresh of the feed starts while there are favorites. -/
theorem shows_favorites_iff (es : List ScreenEvent) :
    program.Each (fun _ _ w' => Law w'.shared) fresh es ↔
      program.Each KeepsFavorites fresh es := by
  have hstart : Inv fresh ∧ Covered fresh.shared := ⟨inv_fresh, fun id hid => by cases hid⟩
  refine Program.each_iff_each (I := fun w => Inv w ∧ Covered w.shared) ?_ hstart
  rintro w e w' ⟨h, hc⟩ hs
  have h' : Inv w' := inv_step h hs
  refine ⟨(law_iff_covered h').trans (covered_step_iff h hc hs), fun hlaw => ⟨h', ?_⟩⟩
  exact (law_iff_covered h').mp hlaw

/-- An empty tab with a favorite. -/
theorem not_law_of_empty {s : State} {id : String} (hempty : favoriteWallpapers s = [])
    (hodd : Odd (s.toggled.count id)) : ¬ Law s := by
  intro h
  have hm := (h id).mpr hodd
  rw [hempty] at hm
  cases hm

/-- A search, and a favorite out of its results. -/
def favoriteOfSearch : List ScreenEvent :=
  [.call (.search (.search "sky")),
    .resume 0 (.search (.results [sampleWallpaper "a" "api"])), .call (.toggleFavorite "a")]

/-- A favorite out of a feed, and the grid of a category. -/
def favoriteBeforeRefresh : List ScreenEvent :=
  [.call (.feed (.loadWallpapers true)),
    .resume 0 (.feed (.page [sampleWallpaper "a" "api"] true)), .call (.toggleFavorite "a"),
    .call (.feed (.loadWallpapersByCategory "city" true)),
    .resume 0 (.feed (.page [sampleWallpaper "b" "api"] true))]

/-- **Hidden favorites**: the tab is empty after a favorite out of a search, and after a favorite
out of a feed whose list was replaced. -/
theorem favorites_hidden :
    (program.Each TogglesShown fresh favoriteOfSearch ∧
      ∃ w, program.run fresh favoriteOfSearch = some w ∧ w.tasks = [] ∧
        favoriteWallpapers w.shared = [] ∧ Odd (w.shared.toggled.count "a") ∧ ¬ Law w.shared) ∧
    program.Each TogglesShown fresh favoriteBeforeRefresh ∧
      ∃ w, program.run fresh favoriteBeforeRefresh = some w ∧ w.tasks = [] ∧
        favoriteWallpapers w.shared = [] ∧ Odd (w.shared.toggled.count "a") ∧ ¬ Law w.shared := by
  have hodd : Odd (["a"].count "a") := by decide
  refine ⟨⟨?_, _, rfl, rfl, rfl, hodd, not_law_of_empty rfl hodd⟩, ?_, _, rfl, rfl, rfl, hodd,
    not_law_of_empty rfl hodd⟩
  · refine (Program.each_cons rfl).mpr ⟨fun _ he => (by cases he), ?_⟩
    refine (Program.each_cons rfl).mpr ⟨fun _ he => (by cases he), ?_⟩
    refine (Program.each_cons rfl).mpr ⟨fun id he => ⟨true, ?_⟩, trivial⟩
    obtain rfl := Call.toggleFavorite.inj (Event.call.inj he)
    exact List.mem_singleton_self _
  · refine (Program.each_cons rfl).mpr ⟨fun _ he => (by cases he), ?_⟩
    refine (Program.each_cons rfl).mpr ⟨fun _ he => (by cases he), ?_⟩
    refine (Program.each_cons rfl).mpr ⟨fun id he => ⟨false, ?_⟩, ?_⟩
    · obtain rfl := Call.toggleFavorite.inj (Event.call.inj he)
      exact List.mem_singleton_self _
    refine (Program.each_cons rfl).mpr ⟨fun _ he => (by cases he), ?_⟩
    exact (Program.each_cons rfl).mpr ⟨fun _ he => (by cases he), trivial⟩

end PixsBliss.Pages.FavoritesTab
