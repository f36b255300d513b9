import PixsBliss.Providers.FeedFlight

/-! # Loading the next page

`loadMore` goes through the entry point of the first load, so it tries the cached copy as well: when
`_hasLoadedFromCache` is down and the copy is there and fresh, it shows the copy in place of the
list and asks for page 1 in the background. A `refresh` lowers the flag and relies on its own load
to raise it, which is refused while a fetch is in flight; and the background fetch of a cache start
is not awaited, so nobody raises the flag after it.

* `loadMore_grows_iff`: an accepted `loadMore` extends the list by the next page exactly when the
  flag is up, or the cached copy is empty or stale.
* `loadMore_after_refresh_replaces`: a refresh during the background fetch, and a `loadMore` that
  starts over. -/

namespace PixsBliss.Providers.FeedLoadMore

open PixsBliss.Lib.Async PixsBliss.Lib.Flight PixsBliss.Models PixsBliss.Models.Json
open PixsBliss.Services.Cache PixsBliss.Services.PexelsApiService
open PixsBliss.Providers.PexelsFeed PixsBliss.Providers.FeedFlight

/-- No fetch is answered. -/
def NoAnswer : FWorld → FEvent → FWorld → Prop := (guard fun _ _ => True).NoEnd

/-- **A load-more extends the list**: it asks for the page that is next, leaves the list as it is,
and when its fetch succeeds, whatever happens meanwhile, the list is followed by that page and the
page is counted. -/
structure LoadsMore (kind : FeedKind) (c : Codec) (now : DateTime) (w : FWorld) : Prop where
  request : ∃ f, ((program kind c).call (.loadMore now) w.shared).2 = [.fetching f] ∧
    f.request = kind.request w.shared.state.currentPage kind.perPage ∧
    f.page = w.shared.state.currentPage ∧ f.page ≠ 1
  kept : ((program kind c).call (.loadMore now) w.shared).1.state.wallpapers =
    w.shared.state.wallpapers
  grown : ∀ w₁ mid w₂ i ws w₃,
    (program kind c).step w (.call (.loadMore now)) = some w₁ →
    (program kind c).Each NoAnswer w₁ mid →
    (program kind c).run w₁ mid = some w₂ →
    (program kind c).step w₂ (.resume i (.answered (.wallpapers ws))) = some w₃ →
    w₃.shared.state.wallpapers = w.shared.state.wallpapers ++ ws ∧
      w₃.shared.state.currentPage = w.shared.state.currentPage + 1

/-- There is a cached copy, it is fresh, and the flag of the cache start is down. -/
def StartsFromCache (kind : FeedKind) (c : Codec) (now : DateTime) (s : State) : Prop :=
  s.hasLoadedFromCache = false ∧ kind.copy.getCached c s.cache ≠ [] ∧
    kind.copy.isStale c now s.cache = false

/-! ### A list that is not empty is past page 1 -/

def PastFirst (ws : List Wallpaper) (page : ℕ) : Prop := 1 ≤ page ∧ (ws ≠ [] → 2 ≤ page)

section Page

variable {kind : FeedKind} {c : Codec} {w w' : FWorld} {e : FEvent}

theorem keeps_pastFirst (h : (guard PastFirst).Single w) : Meets (Keeps PastFirst) w e w' := by
  intro i o t he hi
  unfold Keeps
  split
  · next f ws =>
    split_ifs
    · exact ⟨by omega, fun _ => le_rfl⟩
    · exact fun hp => ⟨by have := hp.1; omega, fun _ => by have := hp.1; omega⟩
  · next f text =>
    intro hback
    obtain ⟨-, -, -, hpage⟩ := h.fits (List.mem_of_getElem? hi) rfl
    rw [(hpage hback).2]
    exact ⟨by omega, fun _ => le_rfl⟩
  · trivial

theorem pastFirst_run {cache : CacheService} {es : List FEvent}
    (hr : (program kind c).run (fresh cache) es = some w) :
    (guard PastFirst).Single w := by
  refine Program.run_inv (fun w e w' h hs => ?_) (single_fresh ⟨le_rfl, fun h => absurd rfl h⟩) hr
  exact single_step_of_law h (keeps_pastFirst h) hs

end Page

/-! ### The call -/

section Call

variable {kind : FeedKind} {c : Codec} {now : DateTime} {s : State}

/-- An accepted `loadMore` that starts from the cache shows the copy and asks for page 1. -/
theorem call_cacheStart (hmore : s.state.hasMore = true) (hidle : s.state.isLoading = false)
    (h : StartsFromCache kind c now s) :
    ∃ s₁, (program kind c).call (.loadMore now) s =
      (s₁, [.fetching ⟨1, kind.request 1 kind.perPage, true, false, s₁.state.wallpapers⟩]) := by
  obtain ⟨hflag, hcopy, hfresh⟩ := h
  have hcopy : (kind.copy.getCached c s.cache).isEmpty = false := by
    cases hl : kind.copy.getCached c s.cache with
    | nil => exact absurd hl hcopy
    | cons a l => rfl
  simp only [program, loadWallpapers, hmore, hidle, hflag, hcopy, hfresh,
    Bool.not_false, Bool.and_self, Bool.false_eq_true, if_true, if_false]
  exact ⟨_, rfl⟩

/-- Any other accepted `loadMore` asks for the next page. -/
theorem call_nextPage (hmore : s.state.hasMore = true) (hidle : s.state.isLoading = false)
    (h : ¬ StartsFromCache kind c now s) : (program kind c).call (.loadMore now) s =
      fetchAndUpdateWallpapers kind false true s := by
  have hcond : (!s.hasLoadedFromCache && true && !(kind.copy.getCached c s.cache).isEmpty &&
      !kind.copy.isStale c now s.cache) = false := by
    rw [← Bool.not_eq_true]
    intro hc
    simp only [Bool.and_eq_true, Bool.not_eq_true', List.isEmpty_eq_false_iff] at hc
    exact h ⟨hc.1.1.1, hc.1.2, hc.2⟩
  simp only [program, loadWallpapers, hmore, hidle, hcond, Bool.not_false,
    Bool.and_self, Bool.false_eq_true, if_true, if_false]

end Call

/-! ### The fetch, from its start to its answer -/

section Fetch

variable {kind : FeedKind} {c : Codec} {now : DateTime} {w w₁ w₂ w₃ : FWorld} {mid : List FEvent}
  {f : Fetch} {ws : List Wallpaper} {i : ℕ}

theorem inFlight_call {s₁ : State} {L : List Wallpaper → ℕ → Prop}
    (h : (guard fun _ _ => True).Single w) (hidle : w.shared.state.isLoading = false)
    (hcall : (program kind c).call (.loadMore now) w.shared = (s₁, [.fetching f]))
    (hload : s₁.state.isLoading = true) (hfits : (guard L).Fits (.fetching f) s₁)
    (hs : (program kind c).step w (.call (.loadMore now)) = some w₁) :
    w₁.shared = s₁ ∧ (guard L).InFlight (.fetching f) w₁ := by
  have hnone : (guard L).requests w.tasks = [] := by
    rcases h with ⟨hn, -, -⟩ | ⟨t, -, hb, -⟩
    · exact hn
    · have hb : w.shared.state.isLoading = true := hb
      rw [hidle] at hb
      cases hb
  rw [Program.step_call, hcall] at hs
  obtain rfl := (Option.some.inj hs).symm
  refine ⟨rfl, ?_, hload, hfits⟩
  rw [Guard.requests_append, hnone]
  rfl

/-- **The answer finds the fetch it was sent for**, and the list and the page as they were. -/
theorem answer_of_inFlight {L : List Wallpaper → ℕ → Prop}
    (h : (guard L).InFlight (.fetching f) w₁) (hmid : (program kind c).Each NoAnswer w₁ mid)
    (hr : (program kind c).run w₁ mid = some w₂)
    (hs : (program kind c).step w₂ (.resume i (.answered (.wallpapers ws))) = some w₃) :
    (guard L).Fits (.fetching f) w₂.shared ∧
      w₃.shared.state.wallpapers = updated f.refresh w₂.shared ws ∧
      w₃.shared.state.currentPage = if f.refresh then 2 else w₂.shared.state.currentPage + 1 := by
  have h₂ : (guard L).InFlight (.fetching f) w₂ :=
    Guard.inFlight_run turn_call (fun _ _ _ _ _ => turn_resume) h hmid hr
  obtain ⟨l, t, r, s, ts, ht, -, hres, rfl⟩ := Program.step_resume hs
  -- only a fetch is answered, and there is only one
  obtain ⟨f', rfl⟩ : ∃ f', t = .fetching f' := by
    cases t with
    | fetching f' => exact ⟨f', rfl⟩
    | caching rest awaited => cases rest <;> simp [program] at hres
    | clearing => simp [program] at hres
    | returning => simp [program] at hres
  obtain rfl : f' = f := by
    have hmem : (.fetching f' : Task) ∈ (guard L).requests w₂.tasks :=
      List.mem_filter.mpr ⟨by simp [ht], rfl⟩
    rw [h₂.requests, List.mem_singleton] at hmem
    exact Task.fetching.inj hmem
  obtain rfl := congrArg Prod.fst (Option.some.inj hres)
  exact ⟨h₂.fits, rfl, rfl⟩

end Fetch

/-! ### Exactly when the list grows -/

section Grows

variable {kind : FeedKind} {c : Codec} {now : DateTime} {w : FWorld}

/-- A `loadMore` that starts from the cache replaces the list, here by an empty page. -/
theorem not_loadsMore (hne : w.shared.state.wallpapers ≠ [])
    (hmore : w.shared.state.hasMore = true) (hidle : w.shared.state.isLoading = false)
    (hcache : StartsFromCache kind c now w.shared) : ¬ LoadsMore kind c now w := by
  intro h
  obtain ⟨s₁, hcall⟩ := call_cacheStart hmore hidle hcache
  have hs : (program kind c).step w (.call (.loadMore now)) = some ⟨s₁, w.tasks ++
      [.fetching ⟨1, kind.request 1 kind.perPage, true, false, s₁.state.wallpapers⟩]⟩ := by
    rw [Program.step_call, hcall]
  have hans := (h.grown _ [] _ _ [] _ hs trivial rfl (Program.step_resume_of rfl)).1
  have hnil : w.shared.state.wallpapers ++ [] = [] := hans.symm
  exact hne (List.append_eq_nil_iff.mp hnil).1

theorem loadsMore (hp : (guard PastFirst).Single w) (hne : w.shared.state.wallpapers ≠ [])
    (hmore : w.shared.state.hasMore = true) (hidle : w.shared.state.isLoading = false)
    (hcache : ¬ StartsFromCache kind c now w.shared) : LoadsMore kind c now w := by
  have hcall := call_nextPage hmore hidle hcache
  have hpage : w.shared.state.currentPage ≠ 1 := by
    have := (hp.idle hidle).2 hne
    omega
  refine ⟨⟨_, by rw [hcall]; rfl, rfl, rfl, hpage⟩, by rw [hcall]; rfl, ?_⟩
  intro w₁ mid w₂ i ws w₃ hs hmid hr hans
  obtain ⟨-, hfl⟩ := inFlight_call
    (L := fun l page => l = w.shared.state.wallpapers ∧ page = w.shared.state.currentPage)
    (single_mono (fun _ _ _ => trivial) hp) hidle hcall rfl
    ⟨rfl, rfl, fun _ => ⟨rfl, rfl⟩, fun h => by cases h⟩ hs
  obtain ⟨⟨-, -, hkept, -⟩, hlist, hcount⟩ := answer_of_inFlight hfl hmid hr hans
  obtain ⟨hl, hpg⟩ := hkept rfl
  refine ⟨?_, ?_⟩
  · rw [hlist, ← hl]
    rfl
  · rw [hcount, ← hpg]
    rfl

/-- **Exactly when a load-more loads more**: in every state a feed reaches with a list that is not
empty, an accepted `loadMore` extends the list by the next page iff the flag of the cache start is
up, or there is no cached copy, or it is stale. -/
theorem loadMore_grows_iff (kind : FeedKind) (c : Codec) (cache : CacheService) (es : List FEvent)
    (w : FWorld) (hr : (program kind c).run (fresh cache) es = some w)
    (hne : w.shared.state.wallpapers ≠ []) (hmore : w.shared.state.hasMore = true)
    (hidle : w.shared.state.isLoading = false) (now : DateTime) :
    LoadsMore kind c now w ↔ w.shared.hasLoadedFromCache = true ∨
      kind.copy.getCached c w.shared.cache = [] ∨
      kind.copy.isStale c now w.shared.cache = true := by
  have hiff : StartsFromCache kind c now w.shared ↔ ¬ (w.shared.hasLoadedFromCache = true ∨
      kind.copy.getCached c w.shared.cache = [] ∨
      kind.copy.isStale c now w.shared.cache = true) := by
    unfold StartsFromCache
    rw [not_or, not_or, Bool.not_eq_true, Bool.not_eq_true]
  constructor
  · intro h
    by_contra hn
    exact not_loadsMore hne hmore hidle (hiff.mpr hn) h
  · intro h
    exact loadsMore (pastFirst_run hr) hne hmore hidle fun hcache => hiff.mp hcache h

end Grows

/-! ### A refresh during the background fetch -/

def pageIds : List String :=
  ["a", "b", "c", "d", "e", "f", "g", "h", "i", "j", "k", "l", "m", "n", "o", "p", "q", "r", "s",
    "t"]

def fullPage : List Wallpaper := pageIds.map fun id => sampleWallpaper id "pexels"

/-- The trending feed, with a codec for the photos of the page. -/
abbrev trendingFeed : Program State Task Call Outcome :=
  program pexelsTrendingWallpapersNotifier (sampleCodec pageIds)

def onePhotoCached : CacheService :=
  (CacheService.opened .empty .empty .empty .empty).cachePexelsTrendingWallpapers
    (sampleCodec pageIds) ⟨0, true⟩ [sampleWallpaper "a" "pexels"]

/-- The feed starts from the cache; a refresh clears the copy while the background fetch runs; the
fetch is answered and its page is cached. -/
def refreshDuringFetch : List FEvent :=
  [.call (.loadWallpapers false ⟨0, true⟩), .call .refresh, .resume 1 (.done ⟨0, true⟩),
    .resume 0 (.answered (.wallpapers fullPage))] ++ List.replicate 22 (.resume 0 (.done ⟨0, true⟩))

set_option maxRecDepth 20000 in
/-- **The list is replaced**: after the refresh nothing is in flight, a full page is shown, and the
next `loadMore` starts from the cache again. -/
theorem loadMore_after_refresh_replaces :
    ∃ w, trendingFeed.run (fresh onePhotoCached) refreshDuringFetch = some w ∧ w.tasks = [] ∧
      w.shared.state.wallpapers = fullPage ∧ w.shared.state.currentPage = 2 ∧
      w.shared.state.hasMore = true ∧ w.shared.state.isLoading = false ∧
      ¬ LoadsMore pexelsTrendingWallpapersNotifier (sampleCodec pageIds) ⟨0, true⟩ w := by
  refine ⟨_, rfl, rfl, rfl, rfl, rfl, rfl, ?_⟩
  refine not_loadsMore (List.cons_ne_nil _ _) rfl rfl ⟨rfl, fun hnil => ?_, rfl⟩
  have hempty := congrArg List.isEmpty hnil
  cases hempty

def firstPageAnswered : List FEvent :=
  [.call (.loadWallpapers false ⟨0, true⟩), .resume 0 (.answered (.wallpapers fullPage))]

theorem loadMore_grows_on_new_device :
    ∃ w, trendingFeed.run (fresh (.opened .empty .empty .empty .empty)) firstPageAnswered =
        some w ∧
      (LoadsMore pexelsTrendingWallpapersNotifier (sampleCodec pageIds) ⟨0, true⟩ w ↔
        w.shared.hasLoadedFromCache = true ∨
          pexelsTrendingWallpapersNotifier.copy.getCached (sampleCodec pageIds)
            w.shared.cache = [] ∨
          pexelsTrendingWallpapersNotifier.copy.isStale (sampleCodec pageIds) ⟨0, true⟩
            w.shared.cache = true) :=
  ⟨_, rfl, loadMore_grows_iff pexelsTrendingWallpapersNotifier (sampleCodec pageIds)
    (.opened .empty .empty .empty .empty) firstPageAnswered _ rfl (List.cons_ne_nil _ _) rfl rfl
    ⟨0, true⟩⟩

end PixsBliss.Providers.FeedLoadMore
